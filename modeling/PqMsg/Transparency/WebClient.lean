/-
The two transparency verifiers of the web client: `wasm_verify_transparency_proof` (`wasm_bindings.rs`), compiled from the
core library, and the JavaScript `verifyTransparencyProofFallback` (`crypto.ts`) used where the WASM module is missing.

Both take a proof document, the server key and the last tree head seen. Documents are modelled after `JSON.parse` and
`serde_json`, as records of the declared types: strings, booleans and non-negative integers. Integers are exact in JavaScript
below `2 ^ 53`. The bit operations of JavaScript convert to 32 bits first (`toInt32`), so that the loops of the fallback can
run forever; a JavaScript computation (`Js`) returns, throws or does not end.

SHA-256, the base64 decoders and the Ed25519 libraries are parameters (`WebPrims`). The decoders and the Ed25519 libraries
of the two sides differ: `base64::STANDARD` and `ed25519_dalek` here, `atob` and `@noble/curves` there.
-/
import PqMsg.Transparency.Log

namespace PqMsg.Transparency

open Lib

structure WebPrims where
  sha256 : Bytes → ByteArr 32
  /-- `base64::engine::general_purpose::STANDARD.decode` -/
  decode : String → Option Bytes
  /-- the browser's `atob`; it throws where this is `none` -/
  atob : String → Option Bytes
  /-- `VerifyingKey::from_bytes` of `ed25519_dalek` accepts the key -/
  validKey : ByteArr 32 → Bool
  /-- `Signature::from_slice` and `verify` of `ed25519_dalek`: key, message, signature -/
  dalekVerify : ByteArr 32 → Bytes → Bytes → Bool
  /-- `ed25519.verify` of `@noble/curves`, `false` also where it throws: key, message, signature -/
  nobleVerify : ByteArr 32 → Bytes → Bytes → Bool

/-- the primitives of the core library -/
def WebPrims.log (W : WebPrims) : LogPrims (ByteArr 32) := ⟨W.sha256, Subtype.val, W.validKey, W.dalekVerify⟩

/-! ## Documents -/

structure WasmTransparencyLeafRecord where
  userId : String
  version : ℕ
  identityX25519Pub : String
  identitySigPub : String
  identityPqSigPub : Option String
  timestamp : ℕ

structure WasmTransparencyPathItem where
  hash : String
  isLeft : Bool

structure WasmTransparencyInclusionProof where
  leafIndex : ℕ
  path : List WasmTransparencyPathItem

structure WasmTransparencyConsistencyProof where
  oldSize : ℕ
  newSize : ℕ
  proofHashes : List String

structure WasmTransparencySignedTreeHead where
  epoch : ℕ
  treeSize : ℕ
  rootHash : String
  signature : String

structure WasmTransparencyProofDocument where
  leaf : WasmTransparencyLeafRecord
  inclusionProof : WasmTransparencyInclusionProof
  signedTreeHead : WasmTransparencySignedTreeHead
  consistencyProof : Option WasmTransparencyConsistencyProof

structure WasmTransparencyVerificationResult where
  verified : Bool
  consistencyVerified : Bool
  leafUserId : String
  leafVersion : ℕ
  treeSize : ℕ
  epoch : ℕ
deriving DecidableEq

/-! ## The WASM verifier -/

/-- the errors of the binding, before they become strings -/
inductive WasmError where
  | invalidBase64 (field : String)
  | wrongLength (field : String) (got : ℕ)
  | invalidServerKey
  | core (e : CoreError)
deriving DecidableEq

section Wasm

variable (W : WebPrims)

def decodeB64 (field value : String) : Except WasmError Bytes :=
  match W.decode value with
  | some bytes => .ok bytes
  | none => .error (.invalidBase64 field)

/-- `decode_b64_32` -/
def decodeB64Fixed (field value : String) : Except WasmError (ByteArr 32) := do
  let bytes ← decodeB64 W field value
  if h : bytes.length = 32 then .ok ⟨bytes, h⟩ else .error (.wrongLength field bytes.length)

/-- `identity_pq_sig_pub.as_ref().map(decode_b64).transpose()` -/
def parsePqSigPub : Option String → Except WasmError (Option Bytes)
  | some raw => (decodeB64 W "transparency.leaf.identity_pq_sig_pub" raw).map some
  | none => .ok none

def parseTransparencyLeaf (value : WasmTransparencyLeafRecord) : Except WasmError TransparencyLeaf := do
  let identityX25519Pub ← decodeB64Fixed W "transparency.leaf.identity_x25519_pub" value.identityX25519Pub
  let identitySigPub ← decodeB64 W "transparency.leaf.identity_sig_pub" value.identitySigPub
  let identityPqSigPub ← parsePqSigPub W value.identityPqSigPub
  return ⟨value.userId, value.version, identityX25519Pub, identitySigPub, identityPqSigPub, value.timestamp⟩

def parseTransparencySth (value : WasmTransparencySignedTreeHead) : Except WasmError (SignedTreeHead (ByteArr 32)) := do
  let rootHash ← decodeB64Fixed W "transparency.signed_tree_head.root_hash" value.rootHash
  let signature ← decodeB64 W "transparency.signed_tree_head.signature" value.signature
  return ⟨value.epoch, value.treeSize, rootHash, signature⟩

/-- what `wasm_verify_transparency_proof` maps over the path -/
def parsePathItem (item : WasmTransparencyPathItem) : Except WasmError (ByteArr 32 × Bool) := do
  let hash ← decodeB64Fixed W "transparency.inclusion_proof.path.hash" item.hash
  return (hash, item.isLeft)

/-- the part of `wasm_verify_transparency_proof` after the inclusion proof -/
def wasmVerifyConsistency (document : WasmTransparencyProofDocument) (sth : SignedTreeHead (ByteArr 32))
    (serverPubKey : ByteArr 32) : Option WasmTransparencySignedTreeHead → Except WasmError Bool
  | none => .ok false
  | some previousSthValue => do
    let previousSth ← parseTransparencySth W previousSthValue
    match document.consistencyProof with
    | none => .ok false
    | some consistency => do
      let proofHashes ← consistency.proofHashes.mapM (decodeB64Fixed W "transparency.consistency_proof.hash")
      (verifyConsistencyProof W.log previousSth sth ⟨consistency.oldSize, consistency.newSize, proofHashes⟩
        serverPubKey).mapError .core
      .ok true

def wasmVerifyTransparencyProof (document : WasmTransparencyProofDocument) (serverPubKeyB64 : String)
    (previousSth : Option WasmTransparencySignedTreeHead) : Except WasmError WasmTransparencyVerificationResult := do
  let leaf ← parseTransparencyLeaf W document.leaf
  let path ← document.inclusionProof.path.mapM (parsePathItem W)
  let sth ← parseTransparencySth W document.signedTreeHead
  let serverPubKey ← decodeB64Fixed W "transparency.server_pub_key" serverPubKeyB64
  if ¬W.validKey serverPubKey then .error .invalidServerKey
  else do
    (verifyInclusionProof W.log (leaf.hash W.log) ⟨document.inclusionProof.leafIndex, path⟩ sth serverPubKey).mapError .core
    let consistencyVerified ← wasmVerifyConsistency W document sth serverPubKey previousSth
    return ⟨true, consistencyVerified, leaf.userId, leaf.version, sth.treeSize, sth.epoch⟩

end Wasm

/-! ## JavaScript -/

inductive JsError where
  /-- the `DOMException` of `atob` -/
  | invalidCharacter
  | error (message : String)
deriving DecidableEq

/-- how a JavaScript computation goes -/
inductive Js (α : Type) where
  | returns (a : α)
  | throws (e : JsError)
  | endless
deriving DecidableEq

instance : Monad Js where
  pure := .returns
  bind x f := match x with
    | .returns a => f a
    | .throws e => .throws e
    | .endless => .endless

/-- a computation without a loop that may not end -/
def Js.ofExcept {α : Type} : Except JsError α → Js α
  | .ok a => .returns a
  | .error e => .throws e

/-- `ToInt32` -/
def toInt32 (x : ℤ) : ℤ := x.bmod (2 ^ 32)

/-- `x & 1` -/
def lowBit (x : ℤ) : ℤ := toInt32 x % 2

/-- `x >> 1`, with sign -/
def shiftRight (x : ℤ) : ℤ := toInt32 x / 2

section Fallback

variable (W : WebPrims)

def u32ToBeBytes (value : ℕ) : Except JsError Bytes :=
  if value > 0xffffffff then .error (.error "Transparency field length overflow") else .ok (be32 (UInt32.ofNat value))

/-- the loop of `u64ToBeBytes`, for the last `k` bytes -/
def beBytes : ℕ → ℕ → Bytes
  | 0, _ => []
  | k + 1, remaining => beBytes k (remaining / 2 ^ 8) ++ [UInt8.ofNat remaining]

def u64ToBeBytes (value : ℕ) : Except JsError Bytes :=
  if ¬value < 2 ^ 53 then .error (.error "Transparency integer overflow") else .ok (beBytes 8 value)

def base64ToBytes (value : String) : Except JsError Bytes :=
  match W.atob value with
  | some bytes => .ok bytes
  | none => .error .invalidCharacter

def decodeFixedLengthBase64 (field value : String) (expectedLength : ℕ) : Except JsError (ByteArr expectedLength) := do
  let bytes ← base64ToBytes W value
  if h : bytes.length = expectedLength then .ok ⟨bytes, h⟩
  else .error (.error (field ++ " must be " ++ toString expectedLength ++ " bytes"))

/-- what `updateLenPrefixed` appends -/
def updateLenPrefixed (bytes : Bytes) : Except JsError Bytes := do
  let length ← u32ToBeBytes bytes.length
  return length ++ bytes

/-- what `hashTransparencyLeaf` hashes for `identity_pq_sig_pub`; an empty string is falsy, like an absent one -/
def pqSigPubPart : Option String → Except JsError Bytes
  | some value =>
    if value = "" then .ok [0x00]
    else do
      let bytes ← base64ToBytes W value
      let part ← updateLenPrefixed bytes
      return [0x01] ++ part
  | none => .ok [0x00]

def hashTransparencyLeaf (leaf : WasmTransparencyLeafRecord) : Except JsError (ByteArr 32) := do
  let identityX25519Pub ← decodeFixedLengthBase64 W "transparency.leaf.identity_x25519_pub" leaf.identityX25519Pub 32
  let identitySigPub ← base64ToBytes W leaf.identitySigPub
  let userId ← updateLenPrefixed leaf.userId.toUTF8.toList
  let version ← u64ToBeBytes leaf.version
  let sigPub ← updateLenPrefixed identitySigPub
  let pqSigPub ← pqSigPubPart W leaf.identityPqSigPub
  let timestamp ← u64ToBeBytes leaf.timestamp
  return W.sha256 ([leafPrefix] ++ userId ++ version ++ identityX25519Pub.1 ++ sigPub ++ pqSigPub ++ timestamp)

def hashTransparencyNode (left right : ByteArr 32) : ByteArr 32 := W.sha256 ([nodePrefix] ++ left.1 ++ right.1)

def verifyTransparencySignedTreeHead (sth : WasmTransparencySignedTreeHead) (serverPubKeyB64 : String) : Except JsError Unit := do
  let rootHash ← decodeFixedLengthBase64 W "transparency.signed_tree_head.root_hash" sth.rootHash 32
  let signature ← base64ToBytes W sth.signature
  let publicKey ← decodeFixedLengthBase64 W "transparency.server_pub_key" serverPubKeyB64 32
  let epoch ← u64ToBeBytes sth.epoch
  let treeSize ← u64ToBeBytes sth.treeSize
  if ¬W.nobleVerify publicKey (epoch ++ treeSize ++ rootHash.1) signature then
    .error (.error "Transparency signed tree head signature verification failed")
  else .ok ()

/-- the loop of `verifyTransparencyInclusionProof` -/
def walkPath (current : ByteArr 32) : List WasmTransparencyPathItem → Except JsError (ByteArr 32)
  | [] => .ok current
  | item :: rest => do
    let sibling ← decodeFixedLengthBase64 W "transparency.inclusion_proof.path.hash" item.hash 32
    walkPath (if item.isLeft then hashTransparencyNode W sibling current else hashTransparencyNode W current sibling) rest

variable (proof : WasmTransparencyProofDocument) (serverPubKeyB64 : String)

/-- hashes are compared through their hex strings, which are equal for equal bytes only -/
def verifyTransparencyInclusionProof : Except JsError Unit := do
  verifyTransparencySignedTreeHead W proof.signedTreeHead serverPubKeyB64
  let leafHash ← hashTransparencyLeaf W proof.leaf
  let current ← walkPath W leafHash proof.inclusionProof.path
  let rootHash ← decodeFixedLengthBase64 W "transparency.signed_tree_head.root_hash" proof.signedTreeHead.rootHash 32
  if current ≠ rootHash then .error (.error "Transparency inclusion proof is invalid") else .ok ()

/-- `while ((fn & 1) === 1) { fn >>= 1; sn >>= 1; }`; `none` if the loop has not ended after `fuel` iterations -/
def stripOnes32 : ℕ → ℤ → ℤ → Option (ℤ × ℤ)
  | 0, _, _ => none
  | fuel + 1, fn, sn => if lowBit fn = 1 then stripOnes32 fuel (shiftRight fn) (shiftRight sn) else some (fn, sn)

/-- `while (fn !== 0 && (fn & 1) === 0) { fn >>= 1; sn >>= 1; }` -/
def stripZeros32 : ℕ → ℤ → ℤ → ℤ × ℤ
  | 0, fn, sn => (fn, sn)
  | fuel + 1, fn, sn =>
    if fn ≠ 0 ∧ lowBit fn = 0 then stripZeros32 fuel (shiftRight fn) (shiftRight sn) else (fn, sn)

/-- iterations after which a loop over 32-bit values has ended, or never ends -/
def loopBudget : ℕ := 64

def paramsInvalid : JsError := .error "Transparency consistency proof parameters are invalid"

/-- the main loop of `evaluateTransparencyConsistencyProof`, over the proof hashes not used yet -/
def evalLoop32 (fn sn : ℤ) (oldNode newNode : ByteArr 32) : List (ByteArr 32) → Except JsError (ByteArr 32 × ByteArr 32)
  | [] => if sn ≠ 0 then .error paramsInvalid else .ok (oldNode, newNode)
  | hash :: rest =>
    if sn = 0 then .error paramsInvalid
    else if lowBit fn = 1 ∨ fn = sn then
      evalLoop32 (shiftRight (stripZeros32 loopBudget fn sn).1) (shiftRight (stripZeros32 loopBudget fn sn).2)
        (hashTransparencyNode W hash oldNode) (hashTransparencyNode W hash newNode) rest
    else evalLoop32 (shiftRight fn) (shiftRight sn) oldNode (hashTransparencyNode W newNode hash) rest

/-- `(oldSize & (oldSize - 1)) === 0` -/
def noCommonBits (oldSize : ℕ) : Bool := (oldSize % 2 ^ 32) &&& ((oldSize - 1) % 2 ^ 32) = 0

def evaluateTransparencyConsistencyProof (oldSize newSize : ℕ) (oldRootHash : ByteArr 32) (proofHashes : List (ByteArr 32)) :
    Js (ByteArr 32 × ByteArr 32) :=
  if oldSize = 0 ∨ oldSize > newSize then .throws paramsInvalid
  else
    match proofHashes with
    | [] => .throws paramsInvalid
    | first :: rest =>
      if oldSize = newSize then .throws paramsInvalid
      else
        match stripOnes32 loopBudget ((oldSize : ℤ) - 1) ((newSize : ℤ) - 1) with
        | none => .endless
        | some (fn, sn) =>
          if noCommonBits oldSize then .ofExcept (evalLoop32 W fn sn oldRootHash oldRootHash (first :: rest))
          else .ofExcept (evalLoop32 W fn sn first first rest)

def verifyTransparencyConsistencyProof (previousSth : WasmTransparencySignedTreeHead) : Js Bool := do
  .ofExcept (verifyTransparencySignedTreeHead W previousSth serverPubKeyB64)
  .ofExcept (verifyTransparencySignedTreeHead W proof.signedTreeHead serverPubKeyB64)
  if proof.signedTreeHead.epoch < previousSth.epoch then .throws (.error "Transparency epoch regressed")
  else if proof.signedTreeHead.treeSize < previousSth.treeSize then .throws (.error "Transparency tree shrank")
  else
    match proof.consistencyProof with
    | none => return false
    | some consistency =>
      if consistency.oldSize ≠ previousSth.treeSize ∨ consistency.newSize ≠ proof.signedTreeHead.treeSize then
        .throws (.error "Transparency consistency proof size mismatch")
      else do
        let oldRootHash ← .ofExcept (decodeFixedLengthBase64 W "transparency.previous_sth.root_hash" previousSth.rootHash 32)
        let newRootHash ← .ofExcept
          (decodeFixedLengthBase64 W "transparency.signed_tree_head.root_hash" proof.signedTreeHead.rootHash 32)
        if previousSth.treeSize = proof.signedTreeHead.treeSize then
          if oldRootHash ≠ newRootHash then .throws (.error "Transparency root hash mismatch") else return true
        else do
          let proofHashes ← .ofExcept (consistency.proofHashes.mapM fun hash =>
            decodeFixedLengthBase64 W "transparency.consistency_proof.hash" hash 32)
          let (oldRoot, newRoot) ← evaluateTransparencyConsistencyProof W previousSth.treeSize
            proof.signedTreeHead.treeSize oldRootHash proofHashes
          if oldRoot ≠ oldRootHash then .throws (.error "Transparency old root mismatch")
          else if newRoot ≠ newRootHash then .throws (.error "Transparency new root mismatch")
          else return true

def verifyTransparencyProofFallback (previousSth : Option WasmTransparencySignedTreeHead) :
    Js WasmTransparencyVerificationResult := do
  .ofExcept (verifyTransparencyInclusionProof W proof serverPubKeyB64)
  let consistencyVerified ← previousSth.elim (pure false) (verifyTransparencyConsistencyProof W proof serverPubKeyB64)
  return ⟨true, consistencyVerified, proof.leaf.userId, proof.leaf.version, proof.signedTreeHead.treeSize,
    proof.signedTreeHead.epoch⟩

end Fallback

/-! ## A sample client

A character stands for its code, the strict decoder rejects blanks and the lenient one skips them. A signature is the
signed epoch and size. -/

namespace Sample

def web : WebPrims where
  sha256 b := ByteArr.replicate 32 (b.foldl (fun sum x => 31 * sum + x + 1) 7)
  decode s := if ' ' ∈ s.toList then none else some (s.toList.map fun c => UInt8.ofNat c.toNat)
  atob s := some ((s.toList.filter (· ≠ ' ')).map fun c => UInt8.ofNat c.toNat)
  validKey _ := true
  dalekVerify _ message signature := message.take 16 = signature
  nobleVerify _ message signature := message.take 16 = signature

/-- the string that decodes to the given bytes -/
def encode (b : Bytes) : String := String.ofList (b.map fun x => Char.ofNat x.toNat)

def keyString : String := encode (List.replicate 32 66)

def leafRecord : WasmTransparencyLeafRecord := ⟨"alice", 1, encode (List.replicate 32 65), "sig", some "pq", 5⟩

/-- a signed head whose root repeats one byte -/
def headRecord (epoch treeSize : ℕ) (root : UInt8) : WasmTransparencySignedTreeHead :=
  ⟨epoch, treeSize, encode (List.replicate 32 root), encode (be64 epoch ++ be64 treeSize)⟩

/-- a log of one leaf in epoch 2 -/
def document : WasmTransparencyProofDocument := ⟨leafRecord, ⟨0, []⟩, headRecord 2 1 62, none⟩

/-- a log in epoch 2 to which the leaf was added as the second one -/
def grown : WasmTransparencyProofDocument :=
  ⟨leafRecord, ⟨1, [⟨encode (List.replicate 32 65), true⟩]⟩, headRecord 2 2 219,
    some ⟨1, 2, [encode (List.replicate 32 62)]⟩⟩

end Sample

end PqMsg.Transparency
