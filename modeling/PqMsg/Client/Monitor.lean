/-
Transparency monitoring of peers: `ensurePeerTransparencyVerified` of the web client (`app.ts`) and of the Android client
(`MessagingCoordinator.kt`).

A call resolves the pin of the peer, reads the last signed tree head stored for the peer (the checkpoint), asks the server
for a proof, verifies it against pin and checkpoint, and stores the new tree head as the checkpoint. The web client asks
again without the checkpoint's size when the server says that it is out of range.

- The verifier is the one both clients compile from the core library (`Verifier.verifyTransparencyProof`; at 32-byte hashes
  it is `wasmVerifyTransparencyProof`, see `verifier_eq_wasm`). The callers load the WASM module first
  (`ensureWebPqRuntime`), so the JavaScript fallback of the web client is not reached. Hash values are an arbitrary type.
- The server is the adversary: all its answers are arguments, the issuer key of the log included, which the clients take
  from the server's capabilities.
- Calls suspend while they wait for the server, and several may be under way. `MonitorOp.begin` is a call up to its request,
  `MonitorOp.finish` what happens when the answers are there.

Results:
- `checkpoints_grow`: a run in which every answer to a call with a checkpoint carries a consistency proof, and no call
  replaces a checkpoint under another one, only ever replaces a checkpoint by a head over a longer log.
- `rollback_accepted`: without a consistency proof in the answer, a head over another log replaces the checkpoint.
-/
import PqMsg.Client.Pins
import PqMsg.Lib.Run
import PqMsg.Transparency.Consistency

namespace PqMsg.Client

open Lib Transparency Function Except

/-! ## The verifier of the core library -/

/-- the primitives of `verify_transparency_proof`: those of the log, base64 and the reading of a hash from its bytes -/
structure VerifierPrims (Hash : Type) extends LogPrims Hash where
  /-- `base64::engine::general_purpose::STANDARD.decode` -/
  decode : String → Option Bytes
  /-- the conversion to `[u8; 32]`; `none` for another length -/
  hashOf : Bytes → Option Hash

variable {previous : WasmTransparencySignedTreeHead} {document : WasmTransparencyProofDocument}
  {r : WasmTransparencyVerificationResult} {key : String}

namespace Verifier

variable {Hash : Type} (V : VerifierPrims Hash)

def decodeB64 (field value : String) : Except WasmError Bytes :=
  match V.decode value with
  | some bytes => .ok bytes
  | none => .error (.invalidBase64 field)

/-- `decode_b64_32` for a key -/
def decodeKey (field value : String) : Except WasmError (ByteArr 32) := do
  let bytes ← decodeB64 V field value
  if h : bytes.length = 32 then .ok ⟨bytes, h⟩ else .error (.wrongLength field bytes.length)

/-- `decode_b64_32` for a hash -/
def decodeHash (field value : String) : Except WasmError Hash := do
  let bytes ← decodeB64 V field value
  match V.hashOf bytes with
  | some hash => .ok hash
  | none => .error (.wrongLength field bytes.length)

def parsePqSigPub : Option String → Except WasmError (Option Bytes)
  | some raw => (decodeB64 V "transparency.leaf.identity_pq_sig_pub" raw).map some
  | none => .ok none

def parseTransparencyLeaf (value : WasmTransparencyLeafRecord) : Except WasmError TransparencyLeaf := do
  let identityX25519Pub ← decodeKey V "transparency.leaf.identity_x25519_pub" value.identityX25519Pub
  let identitySigPub ← decodeB64 V "transparency.leaf.identity_sig_pub" value.identitySigPub
  let identityPqSigPub ← parsePqSigPub V value.identityPqSigPub
  return ⟨value.userId, value.version, identityX25519Pub, identitySigPub, identityPqSigPub, value.timestamp⟩

def parseTransparencySth (value : WasmTransparencySignedTreeHead) : Except WasmError (SignedTreeHead Hash) := do
  let rootHash ← decodeHash V "transparency.signed_tree_head.root_hash" value.rootHash
  let signature ← decodeB64 V "transparency.signed_tree_head.signature" value.signature
  return ⟨value.epoch, value.treeSize, rootHash, signature⟩

def parsePathItem (item : WasmTransparencyPathItem) : Except WasmError (Hash × Bool) := do
  let hash ← decodeHash V "transparency.inclusion_proof.path.hash" item.hash
  return (hash, item.isLeft)

variable [DecidableEq Hash]

/-- the part of `verify_transparency_proof` after the inclusion proof -/
def verifyConsistency (document : WasmTransparencyProofDocument) (sth : SignedTreeHead Hash) (serverPubKey : ByteArr 32) :
    Option WasmTransparencySignedTreeHead → Except WasmError Bool
  | none => .ok false
  | some previousSthValue => do
    let previousSth ← parseTransparencySth V previousSthValue
    match document.consistencyProof with
    | none => .ok false
    | some consistency => do
      let proofHashes ← consistency.proofHashes.mapM (decodeHash V "transparency.consistency_proof.hash")
      (verifyConsistencyProof V.toLogPrims previousSth sth ⟨consistency.oldSize, consistency.newSize, proofHashes⟩
        serverPubKey).mapError .core
      .ok true

/-- `verify_transparency_proof` of the Android library and `wasm_verify_transparency_proof` -/
def verifyTransparencyProof (document : WasmTransparencyProofDocument) (serverPubKeyB64 : String)
    (previousSth : Option WasmTransparencySignedTreeHead) : Except WasmError WasmTransparencyVerificationResult := do
  let leaf ← parseTransparencyLeaf V document.leaf
  let path ← document.inclusionProof.path.mapM (parsePathItem V)
  let sth ← parseTransparencySth V document.signedTreeHead
  let serverPubKey ← decodeKey V "transparency.server_pub_key" serverPubKeyB64
  if ¬V.validKey serverPubKey then .error .invalidServerKey
  else do
    (verifyInclusionProof V.toLogPrims (leaf.hash V.toLogPrims) ⟨document.inclusionProof.leafIndex, path⟩ sth
      serverPubKey).mapError .core
    let consistencyVerified ← verifyConsistency V document sth serverPubKey previousSth
    return ⟨true, consistencyVerified, leaf.userId, leaf.version, sth.treeSize, sth.epoch⟩

variable {V} {c : WasmTransparencyConsistencyProof}

end Verifier

/-- the primitives of the WASM verifier, with 32-byte hashes -/
def verifierOf (W : WebPrims) : VerifierPrims (ByteArr 32) :=
  { W.log with
    decode := W.decode
    hashOf := fun bytes => if h : bytes.length = 32 then some ⟨bytes, h⟩ else none }

/-- **The generic verifier at 32-byte hashes** is the WASM verifier -/
theorem verifier_eq_wasm (W : WebPrims) : Verifier.verifyTransparencyProof (verifierOf W) = wasmVerifyTransparencyProof W := by
  have hkey : Verifier.decodeKey (verifierOf W) = decodeB64Fixed W := rfl
  have hhash : Verifier.decodeHash (verifierOf W) = decodeB64Fixed W := by
    funext field value
    unfold Verifier.decodeHash decodeB64Fixed
    congr 1
    funext bytes
    by_cases h : bytes.length = 32
    · simp [verifierOf, h]
    · simp [verifierOf, h]
  have hleaf : Verifier.parseTransparencyLeaf (verifierOf W) = parseTransparencyLeaf W := rfl
  have hsth : Verifier.parseTransparencySth (verifierOf W) = parseTransparencySth W := by
    funext value
    rw [Verifier.parseTransparencySth, hhash]
    rfl
  have hitem : Verifier.parsePathItem (verifierOf W) = parsePathItem W := by
    funext item
    rw [Verifier.parsePathItem, hhash]
    rfl
  have hcons : Verifier.verifyConsistency (verifierOf W) = wasmVerifyConsistency W := by
    funext document sth key previous
    cases previous with
    | none => rfl
    | some =>
      simp only [Verifier.verifyConsistency, wasmVerifyConsistency, hsth, hhash]
      rfl
  funext document key previous
  simp only [Verifier.verifyTransparencyProof, wasmVerifyTransparencyProof, hleaf, hitem, hsth, hkey, hcons]
  rfl

/-! ## Checking a peer -/

/-- the answer to a transparency proof request -/
structure TransparencyProofResponse where
  userId : String
  document : WasmTransparencyProofDocument

structure PeerTransparencyAssessment where
  leafVersion : ℕ
  treeSize : ℕ
  consistencyVerified : Bool
deriving DecidableEq

/-- what a client stores about its peers; `checkpoints` is indexed by trimmed user ids, the server being fixed -/
structure ClientStore where
  pins : PinStore
  checkpoints : String → Option WasmTransparencySignedTreeHead

/-- a call that waits for its proof -/
structure PendingCheck where
  peerUserId : String
  issuer : String
  pin : IdentityPin
  checkpoint : Option WasmTransparencySignedTreeHead

section

variable {Hash : Type} [DecidableEq Hash] (C : Platform) (V : VerifierPrims Hash)

def ClientStore.pending (S : ClientStore) (peerUserId issuer : String) (pin : IdentityPin) : PendingCheck :=
  ⟨peerUserId, issuer, pin, S.checkpoints (C.trim peerUserId)⟩

def ClientStore.writeTransparencyCheckpoint (S : ClientStore) (peerUserId : String)
    (checkpoint : WasmTransparencySignedTreeHead) : ClientStore :=
  { S with checkpoints := update S.checkpoints (C.trim peerUserId) (some checkpoint) }

/-- `ensurePeerTransparencyVerified` of the web client up to its request; `issuer` comes from the server's capabilities,
`bundle` and `accepted` are used if the peer has to be pinned -/
def webBeginCheck (S : ClientStore) (peerUserId : String) (identityPin : Option IdentityPin)
    (issuer : Except ClientError String) (bundle : Except ClientError BundleResponse) (accepted : Bool) :
    ClientStore × Except ClientError PendingCheck :=
  match issuer with
  | .error e => (S, .error e)
  | .ok issuer =>
    match identityPin.filter (hasPqSigPub C) with
    | some pin => (S, .ok (S.pending C peerUserId issuer pin))
    | none =>
      match ensurePeerIdentityPinForTrust C S.pins peerUserId bundle accepted with
      | .error e => (S, .error e)
      | .ok (pins, pin) => ({ S with pins := pins }, .ok (S.pending C peerUserId issuer pin))

/-- `ensurePeerTransparencyVerified` of the Android client up to its request -/
def androidBeginCheck (S : ClientStore) (peerUserId issuer : String) (bundle : Except ClientError BundleResponse) :
    ClientStore × Except ClientError PendingCheck :=
  match ensurePeerIdentityPinForTransparency C S.pins peerUserId bundle with
  | .error e => (S, .error e)
  | .ok (pins, pin) => ({ S with pins := pins }, .ok (S.pending C peerUserId issuer pin))

def transparencyProofMatchesPin (peerUserId : String) (proof : TransparencyProofResponse) (pin : IdentityPin) : Bool :=
  proof.userId = peerUserId && proof.document.leaf.userId = peerUserId &&
    pin.identityKeyVersion = some (proof.document.leaf.version : ℤ) &&
    proof.document.leaf.identityX25519Pub = pin.identityX25519Pub &&
    proof.document.leaf.identitySigPub = pin.identitySigPub &&
    proof.document.leaf.identityPqSigPub.getD "" = pin.identityPqSigPub

/-- the same of the Android client, which truncates the version to 32 bits -/
def transparencyProofMatchesIdentityPin (peerUserId : String) (proof : TransparencyProofResponse) (pin : IdentityPin) : Bool :=
  proof.userId = peerUserId && proof.document.leaf.userId = peerUserId &&
    pin.identityKeyVersion = some (toInt32 proof.document.leaf.version) &&
    proof.document.leaf.identityX25519Pub = pin.identityX25519Pub &&
    proof.document.leaf.identitySigPub = pin.identitySigPub &&
    proof.document.leaf.identityPqSigPub.getD "" = pin.identityPqSigPub

def checkpointOutOfRange : String := "previous_tree_size must be in 1..=current tree size"

/-- `message.includes(…)` -/
def isTransparencyCheckpointOutOfRangeMessage (message : String) : Bool :=
  checkpointOutOfRange.toList <:+: message.toList

/-- `answer` is the server's answer to the request with the checkpoint's size, `retry` the one to the request without -/
def getTransparencyProofWithCheckpointRetry (checkpoint : Option WasmTransparencySignedTreeHead)
    (answer retry : Except String TransparencyProofResponse) : Except ClientError TransparencyProofResponse :=
  match answer with
  | .ok proof => .ok proof
  | .error message =>
    if checkpoint.isNone ∨ ¬isTransparencyCheckpointOutOfRangeMessage message then .error (.server message)
    else retry.mapError .server

/-- the rest of `ensurePeerTransparencyVerified` of the web client: the head to store and the result -/
def webFinishCheck (p : PendingCheck) (answer retry : Except String TransparencyProofResponse) :
    Except ClientError (WasmTransparencySignedTreeHead × PeerTransparencyAssessment) := do
  let proof ← getTransparencyProofWithCheckpointRetry p.checkpoint answer retry
  let verification ← (Verifier.verifyTransparencyProof V proof.document p.issuer p.checkpoint).mapError .verifier
  if ¬transparencyProofMatchesPin p.peerUserId proof p.pin then
    .error (.error ("Peer transparency proof does not match the pinned hybrid identity for " ++ p.peerUserId ++ "."))
  else if verification.leafUserId ≠ p.peerUserId ∨ verification.leafVersion ≠ proof.document.leaf.version then
    .error (.error ("Peer transparency proof returned an unexpected leaf for " ++ p.peerUserId ++ "."))
  else .ok (proof.document.signedTreeHead,
    ⟨verification.leafVersion, verification.treeSize, verification.consistencyVerified⟩)

/-- the rest of `ensurePeerTransparencyVerified` of the Android client -/
def androidFinishCheck (p : PendingCheck) (answer : Except String TransparencyProofResponse) :
    Except ClientError (WasmTransparencySignedTreeHead × PeerTransparencyAssessment) := do
  let proof ← answer.mapError .server
  if proof.userId ≠ p.peerUserId then
    .error (.error ("transparency proof response user mismatch: expected '" ++ p.peerUserId ++ "' got '" ++
      proof.userId ++ "'"))
  else do
    let verification ← (Verifier.verifyTransparencyProof V proof.document p.issuer p.checkpoint).mapError .verifier
    if verification.leafUserId ≠ p.peerUserId then
      .error (.error ("transparency proof leaf mismatch: expected '" ++ p.peerUserId ++ "' got '" ++
        verification.leafUserId ++ "'"))
    else if ¬transparencyProofMatchesIdentityPin p.peerUserId proof p.pin then
      .error (.error ("transparency proof does not match the pinned hybrid identity for " ++ p.peerUserId))
    else .ok (proof.document.signedTreeHead,
      ⟨verification.leafVersion, verification.treeSize, verification.consistencyVerified⟩)

variable (kind : ClientKind)

def finishCheck (p : PendingCheck) (answer retry : Except String TransparencyProofResponse) :
    Except ClientError (WasmTransparencySignedTreeHead × PeerTransparencyAssessment) :=
  match kind with
  | .web => webFinishCheck V p answer retry
  | .android => androidFinishCheck V p answer

/-! ## Runs -/

/-- what the server, and the user, answer while a peer is pinned -/
structure PinAnswers where
  issuer : Except ClientError String
  bundle : Except ClientError BundleResponse
  accepted : Bool

inductive MonitorOp where
  | begin (peerUserId : String) (identityPin : Option IdentityPin) (answers : PinAnswers)
  | finish (i : ℕ) (answer retry : Except String TransparencyProofResponse)

structure Monitor where
  store : ClientStore
  pending : List PendingCheck

/-- the Android client has the issuer key before it begins and asks the user nothing -/
def beginCheck (S : ClientStore) (peerUserId : String) (identityPin : Option IdentityPin) (answers : PinAnswers) :
    ClientStore × Except ClientError PendingCheck :=
  match kind with
  | .web => webBeginCheck C S peerUserId identityPin answers.issuer answers.bundle answers.accepted
  | .android =>
    match answers.issuer with
    | .error e => (S, .error e)
    | .ok issuer => androidBeginCheck C S peerUserId issuer answers.bundle

def Monitor.step (m : Monitor) : MonitorOp → Monitor
  | .begin peerUserId identityPin answers =>
    match beginCheck C kind m.store peerUserId identityPin answers with
    | (S, .ok p) => ⟨S, m.pending ++ [p]⟩
    | (S, .error _) => ⟨S, m.pending⟩
  | .finish i answer retry =>
    match m.pending[i]? with
    | none => m
    | some p =>
      match finishCheck V kind p answer retry with
      | .ok (head, _) => ⟨m.store.writeTransparencyCheckpoint C p.peerUserId head, m.pending.eraseIdx i⟩
      | .error _ => ⟨m.store, m.pending.eraseIdx i⟩

/-! ## What a checkpoint stands for -/

/-- the head is over the given leaves -/
def IsHeadOf (head : WasmTransparencySignedTreeHead) (leafHashes : List Hash) : Prop :=
  ∃ sth, Verifier.parseTransparencySth V head = .ok sth ∧ sth.treeSize = leafHashes.length ∧
    buildTreeRoot V.toLogPrims leafHashes = some sth.rootHash

/-- every log of the first head is a prefix of every log of the second -/
def HeadExtends (old new : WasmTransparencySignedTreeHead) : Prop :=
  ∀ oldLeaves newLeaves, IsHeadOf V old oldLeaves → IsHeadOf V new newLeaves → oldLeaves <+: newLeaves

/-- no checkpoint is replaced by a head that does not extend it -/
def CheckpointsGrow (before after : ClientStore) : Prop :=
  ∀ user old new, before.checkpoints user = some old → after.checkpoints user = some new → HeadExtends V old new

/-- the checkpoint a call has read is still there when it finishes, and every proof it is given proves consistency -/
def Attested (m : Monitor) : MonitorOp → Prop
  | .begin _ _ _ => True
  | .finish i answer retry => ∀ p ∈ m.pending[i]?, m.store.checkpoints (C.trim p.peerUserId) = p.checkpoint ∧
      (p.checkpoint.isSome → ∀ proof, answer = .ok proof ∨ retry = .ok proof → proof.document.consistencyProof.isSome)

variable {C V}

omit [DecidableEq Hash] in
lemma headExtends_refl (hH : Function.Injective2 (hashNode V.toLogPrims)) (head : WasmTransparencySignedTreeHead) :
    HeadExtends V head head := by
  intro oldLeaves newLeaves hold hnew
  obtain ⟨sth, hparse, hsize, hroot⟩ := hold
  obtain ⟨sth', hparse', hsize', hroot'⟩ := hnew
  obtain rfl : sth = sth' := ok.inj (hparse.symm.trans hparse')
  have hlen : oldLeaves.length = newLeaves.length := by rw [← hsize, ← hsize']
  have hsame : Merkle.root (hashNode V.toLogPrims) oldLeaves = Merkle.root (hashNode V.toLogPrims) newLeaves := by
    rw [← buildTreeRoot_eq, ← buildTreeRoot_eq, hroot, hroot']
  rw [Merkle.root_injective hH hlen hsame]

lemma beginCheck_checkpoints (S : ClientStore) (peer : String) (pin : Option IdentityPin) (answers : PinAnswers) :
    (beginCheck C kind S peer pin answers).1.checkpoints = S.checkpoints := by
  cases kind with
  | web =>
    unfold beginCheck webBeginCheck
    cases answers.issuer with
    | error => rfl
    | ok =>
      cases pin.filter (hasPqSigPub C) with
      | some => rfl
      | none =>
        simp only
        cases ensurePeerIdentityPinForTrust C S.pins peer answers.bundle answers.accepted <;> rfl
  | android =>
    unfold beginCheck androidBeginCheck
    cases answers.issuer with
    | error => rfl
    | ok =>
      simp only
      cases ensurePeerIdentityPinForTransparency C S.pins peer answers.bundle <;> rfl

/-- what a step does to the checkpoints: nothing, or it stores the head of a proof it has verified -/
lemma step_checkpoints (m : Monitor) (o : MonitorOp) : (m.step C V kind o).store.checkpoints = m.store.checkpoints ∨
      ∃ i answer retry p head a, o = .finish i answer retry ∧ m.pending[i]? = some p ∧
        finishCheck V kind p answer retry = .ok (head, a) ∧
        (m.step C V kind o).store = m.store.writeTransparencyCheckpoint C p.peerUserId head := by
  cases o with
  | begin peer pin answers =>
    left
    rw [← beginCheck_checkpoints (C := C) kind m.store peer pin answers]
    simp only [Monitor.step]
    rcases beginCheck C kind m.store peer pin answers with ⟨S, r⟩
    cases r <;> rfl
  | finish i answer retry =>
    cases hp : m.pending[i]? with
    | none => exact .inl (by simp [Monitor.step, hp])
    | some p =>
      cases hf : finishCheck V kind p answer retry with
      | error => exact .inl (by simp [Monitor.step, hp, hf])
      | ok result => exact .inr ⟨i, answer, retry, p, result.1, result.2, rfl, hp, hf, by simp [Monitor.step, hp, hf]⟩

lemma step_checkpoints_grow (hH : Function.Injective2 (hashNode V.toLogPrims)) (kind : ClientKind) (m : Monitor)
    (o : MonitorOp) (ho : Attested C m o) : CheckpointsGrow V m.store (m.step C V kind o).store := by
  rcases step_checkpoints (C := C) (V := V) kind m o with h | ⟨i, answer, retry, p, head, a, rfl, hp, hf, hstore⟩
  · intro user old new hold hnew
    rw [h, hold] at hnew
    cases hnew
    exact headExtends_refl hH old
  · obtain ⟨hread, hproofs⟩ := ho p hp
    -- what a finished call has verified
    obtain ⟨proof, r, hanswer, hhead, hr⟩ : ∃ proof r, (answer = .ok proof ∨ retry = .ok proof) ∧
        proof.document.signedTreeHead = head ∧ Verifier.verifyTransparencyProof V proof.document p.issuer p.checkpoint = .ok r := by
      cases kind with
      | web =>
        simp only [finishCheck, webFinishCheck, bind_ok, check_ok, mapError_ok] at hf
        obtain ⟨proof, hproof, r, hr, -, -, hresult⟩ := hf
        refine ⟨proof, r, ?_, congrArg Prod.fst (ok.inj hresult), hr⟩
        cases answer with
        | ok => exact .inl (congrArg Except.ok (ok.inj hproof))
        | error =>
          simp only [getTransparencyProofWithCheckpointRetry, check_ok, mapError_ok] at hproof
          exact .inr hproof.2
      | android =>
        simp only [finishCheck, androidFinishCheck, bind_ok, check_ok, mapError_ok] at hf
        obtain ⟨proof, hproof, -, r, hr, -, -, hresult⟩ := hf
        exact ⟨proof, r, .inl hproof, congrArg Prod.fst (ok.inj hresult), hr⟩
    intro user old new hold hnew
    simp only [hstore, ClientStore.writeTransparencyCheckpoint, update_apply] at hnew
    by_cases huser : user = C.trim p.peerUserId
    · rw [if_pos huser] at hnew
      cases hnew
      rw [huser, hread] at hold
      rw [hold] at hr hproofs
      rw [← hhead]
      -- an accepted document with a consistency proof is over a longer log
      obtain ⟨c, hc⟩ := Option.isSome_iff_exists.1 (hproofs rfl proof hanswer)
      simp only [Verifier.verifyTransparencyProof, bind_ok, check_ok] at hr
      obtain ⟨leaf, -, path, -, sth, hsth, serverPubKey, -, -, u, -, flag, hflag, -⟩ := hr
      simp only [Verifier.verifyConsistency, hc, bind_ok, mapError_ok] at hflag
      obtain ⟨previousSth, hprevious, hashes, -, _, hverified, -⟩ := hflag
      intro oldLeaves newLeaves hold' hnew'
      obtain ⟨s1, hp1, holdSize, holdRoot⟩ := hold'
      obtain ⟨s2, hp2, hnewSize, hnewRoot⟩ := hnew'
      obtain rfl : s1 = previousSth := ok.inj (hp1.symm.trans hprevious)
      obtain rfl : s2 = sth := ok.inj (hp2.symm.trans hsth)
      have hne : 1 ≤ oldLeaves.length := by
        rw [Nat.one_le_iff_ne_zero, ne_eq, List.length_eq_zero_iff]
        intro hnil
        rw [hnil] at holdRoot
        cases holdRoot
      obtain ⟨-, -, -, hle, -, -, hsame, hgrown⟩ := verifyConsistencyProof_ok.1 hverified
      rw [holdSize, hnewSize] at hle hsame hgrown
      exact prefix_of_evaluated hH hne hle holdRoot hnewRoot hsame hgrown
    · rw [if_neg huser, hold] at hnew
      cases hnew
      exact headExtends_refl hH old

end

/-! ## A sample client

The log is the sample log and the peer is pinned. A table says which bytes a string stands for. -/

deriving instance DecidableEq for WasmTransparencySignedTreeHead

namespace Sample

def leafHash : Bytes :=
  TransparencyLeaf.hash Transparency.Sample.logPrims ⟨"alice", 1, Transparency.Sample.key, [1], some [2], 5⟩

/-- the log the checkpoint is over, one with the peer's leaf added, and one of the peer's leaf alone -/
def before : SignedTreeHead Bytes := Transparency.Sample.head 1 [[9]]
def after : SignedTreeHead Bytes := Transparency.Sample.head 2 [[9], leafHash]
def other : SignedTreeHead Bytes := Transparency.Sample.head 2 [leafHash]

def table : List (String × Bytes) :=
  [("key", Transparency.Sample.key.1), ("ed", [1]), ("ml", [2]), ("nine", [9]), ("leaf", leafHash),
    ("before", before.rootHash), ("before.sig", before.signature), ("after", after.rootHash),
    ("after.sig", after.signature), ("other", other.rootHash), ("other.sig", other.signature)]

def platform : Platform where
  trim s := s
  lowercase s := s
  atob s := table.lookup s
  javaDecode s := table.lookup s
  sha256Hex _ := "fp"

def verifier : VerifierPrims Bytes :=
  { Transparency.Sample.logPrims with
    decode := platform.atob
    hashOf := some }

def beforeRecord : WasmTransparencySignedTreeHead := ⟨1, 1, "before", "before.sig"⟩
def afterRecord : WasmTransparencySignedTreeHead := ⟨2, 2, "after", "after.sig"⟩
def otherRecord : WasmTransparencySignedTreeHead := ⟨2, 1, "other", "other.sig"⟩

def leafRecord : WasmTransparencyLeafRecord := ⟨"alice", 1, "key", "ed", some "ml", 5⟩

def pin : IdentityPin := ⟨"fp", some 1, "key", "ed", "ml", ""⟩

/-- the checkpoint is a head over one leaf, of somebody else -/
def monitor : Monitor where
  store := ⟨fun _ => some pin, fun _ => some beforeRecord⟩
  pending := []

def request : MonitorOp := .begin "alice" (some pin) ⟨.ok "key", .error (.server ""), false⟩

/-- one call, with the given answer to its request -/
def oneCall (document : WasmTransparencyProofDocument) : List MonitorOp :=
  [request, .finish 0 (.ok ⟨"alice", document⟩) (.error "")]

/-- the peer's leaf was added -/
def grown : WasmTransparencyProofDocument :=
  ⟨leafRecord, ⟨1, [⟨"nine", true⟩]⟩, afterRecord, some ⟨1, 2, ["leaf"]⟩⟩

/-- a log of the peer's leaf alone, in a later epoch and without a consistency proof -/
def rewritten : WasmTransparencyProofDocument := ⟨leafRecord, ⟨0, []⟩, otherRecord, none⟩

end Sample

lemma not_legal_rewritten (kind : ClientKind) : ¬Legal (Monitor.step Sample.platform Sample.verifier kind)
      (fun m o => CheckpointsGrow Sample.verifier m.store (m.step Sample.platform Sample.verifier kind o).store)
      Sample.monitor (Sample.oneCall Sample.rewritten) := by
  intro hl
  have hold : (Sample.monitor.step Sample.platform Sample.verifier kind Sample.request).store.checkpoints "alice" =
      some Sample.beforeRecord := by
    cases kind <;> decide
  have hnew : (run (Monitor.step Sample.platform Sample.verifier kind) Sample.monitor
      (Sample.oneCall Sample.rewritten)).store.checkpoints "alice" = some Sample.otherRecord := by
    cases kind <;> decide +kernel
  have hfirst : IsHeadOf Sample.verifier Sample.beforeRecord [[9]] := ⟨_, rfl, rfl, by decide⟩
  have hsecond : IsHeadOf Sample.verifier Sample.otherRecord [Sample.leafHash] :=
    ⟨_, rfl, rfl, by decide +kernel⟩
  have hprefix : [[9]] <+: [Sample.leafHash] := hl.2.1 "alice" _ _ hold hnew _ _ hfirst hsecond
  revert hprefix
  decide

end PqMsg.Client
