/-
What the two transparency verifiers of the web client read and accept.

`read d` reads a document, the server key and the previous head with the decoder `d`; the WASM verifier reads with
`base64::STANDARD`, the fallback with `atob`. After that each verifier is a list of checks on the values.

- `wasm_ok_iff`: the WASM verifier accepts exactly when `read W.decode` succeeds and `WasmAccepts` holds.
- `fallback_returns_iff`: the fallback accepts exactly when `read W.atob` succeeds and `FallbackReaches` and
  `FallbackConsistent` hold.
- `fallback_endless_iff`: the fallback does not end exactly when it reaches a consistency proof it is stuck on.
- `read_mono`: a decoder that accepts more strings reads more documents, with the same values.
-/
import PqMsg.Transparency.WebLoops

namespace PqMsg.Transparency

open Lib Except Option Js

/-! ## Reading a document

Both verifiers read the same values from a document, each with its own decoder. -/

variable {sth : WasmTransparencySignedTreeHead} {leaf : WasmTransparencyLeafRecord} {h : SignedTreeHead (ByteArr 32)}
  {previous : Option (SignedTreeHead (ByteArr 32))} {l : TransparencyLeaf}

section Reading

variable (d : String → Option Bytes)

def readFixed (value : String) : Option (ByteArr 32) :=
  (d value).bind fun bytes => if h : bytes.length = 32 then some ⟨bytes, h⟩ else none

def readPqSigPub : Option String → Option (Option Bytes)
  | some value => (d value).map some
  | none => some none

def readLeaf (leaf : WasmTransparencyLeafRecord) : Option TransparencyLeaf := do
  let identityX25519Pub ← readFixed d leaf.identityX25519Pub
  let identitySigPub ← d leaf.identitySigPub
  let identityPqSigPub ← readPqSigPub d leaf.identityPqSigPub
  return ⟨leaf.userId, leaf.version, identityX25519Pub, identitySigPub, identityPqSigPub, leaf.timestamp⟩

def readPath (path : List WasmTransparencyPathItem) : Option (List (ByteArr 32 × Bool)) :=
  path.mapM fun item => (readFixed d item.hash).map fun hash => (hash, item.isLeft)

def readSth (sth : WasmTransparencySignedTreeHead) : Option (SignedTreeHead (ByteArr 32)) := do
  let rootHash ← readFixed d sth.rootHash
  let signature ← d sth.signature
  return ⟨sth.epoch, sth.treeSize, rootHash, signature⟩

def readHashes (hashes : List String) : Option (List (ByteArr 32)) := hashes.mapM (readFixed d)

/-- the values of a document, of the server key and of the previous head -/
structure Reading where
  leaf : TransparencyLeaf
  path : List (ByteArr 32 × Bool)
  sth : SignedTreeHead (ByteArr 32)
  key : ByteArr 32
  previous : Option (SignedTreeHead (ByteArr 32))
deriving DecidableEq

def readPrevious : Option WasmTransparencySignedTreeHead → Option (Option (SignedTreeHead (ByteArr 32)))
  | some previousSth => (readSth d previousSth).map some
  | none => some none

def read (proof : WasmTransparencyProofDocument) (serverPubKeyB64 : String)
    (previousSth : Option WasmTransparencySignedTreeHead) : Option Reading := do
  let leaf ← readLeaf d proof.leaf
  let path ← readPath d proof.inclusionProof.path
  let sth ← readSth d proof.signedTreeHead
  let key ← readFixed d serverPubKeyB64
  let previous ← readPrevious d previousSth
  return ⟨leaf, path, sth, key, previous⟩

variable {d} {proof : WasmTransparencyProofDocument} {key : String} {previousSth : Option WasmTransparencySignedTreeHead}
  {R : Reading}

lemma read_iff : read d proof key previousSth = some R ↔
    readLeaf d proof.leaf = some R.leaf ∧ readPath d proof.inclusionProof.path = some R.path ∧
    readSth d proof.signedTreeHead = some R.sth ∧ readFixed d key = some R.key ∧
    readPrevious d previousSth = some R.previous := by
  simp only [read, bind_eq_bind, bind_eq_some_iff, pure_def, some.injEq]
  constructor
  · rintro ⟨leaf, h1, path, h2, sth, h3, key, h4, previous, h5, rfl⟩
    exact ⟨h1, h2, h3, h4, h5⟩
  · rintro ⟨h1, h2, h3, h4, h5⟩
    exact ⟨_, h1, _, h2, _, h3, _, h4, _, h5, rfl⟩

lemma readPrevious_isSome (h : readPrevious d previousSth = some previous) : previous.isSome = previousSth.isSome := by
  cases previousSth with
  | none => exact congrArg isSome (some.inj h).symm
  | some =>
    obtain ⟨sth, -, rfl⟩ := map_eq_some_iff.1 h
    rfl

lemma readLeaf_fields (hr : readLeaf d leaf = some l) : l.userId = leaf.userId ∧ l.version = leaf.version := by
  simp only [readLeaf, bind_eq_bind, bind_eq_some_iff, pure_def, some.injEq] at hr
  obtain ⟨x, -, sig, -, pq, -, rfl⟩ := hr
  exact ⟨rfl, rfl⟩

/-- heads are read with their numbers -/
lemma readSth_fields (hr : readSth d sth = some h) :
    h.epoch = sth.epoch ∧ h.treeSize = sth.treeSize ∧ readFixed d sth.rootHash = some h.rootHash ∧
      d sth.signature = some h.signature := by
  simp only [readSth, bind_eq_bind, bind_eq_some_iff, pure_def, some.injEq] at hr
  obtain ⟨root, h1, signature, h2, rfl⟩ := hr
  exact ⟨rfl, rfl, h1, h2⟩

end Reading

/-! A decoder that accepts more reads more. -/

lemma mapM_mono {α β : Type} {f g : α → Option β} (hfg : ∀ a b, f a = some b → g a = some b) {l : List α} {bs : List β}
    (h : l.mapM f = some bs) : l.mapM g = some bs := by
  induction l generalizing bs with
  | nil => exact h
  | cons a l ih =>
    simp only [List.mapM_cons, bind_eq_bind, bind_eq_some_iff, pure_def, some.injEq] at h ⊢
    obtain ⟨b, h1, rest, h2, h3⟩ := h
    exact ⟨b, hfg _ _ h1, rest, ih h2, h3⟩

variable {previousSth : Option WasmTransparencySignedTreeHead} {proof : WasmTransparencyProofDocument}
  {hashes : List String} {path : List WasmTransparencyPathItem} {hs : List (ByteArr 32)} {p : List (ByteArr 32 × Bool)}
  {key : String} {value : String} {b : ByteArr 32} {R : Reading}

section Extends

variable {d d' : String → Option Bytes} (hd : ∀ s b, d s = some b → d' s = some b)
include hd

lemma readFixed_mono (h : readFixed d value = some b) : readFixed d' value = some b := by
  obtain ⟨bytes, h1, h2⟩ := bind_eq_some_iff.1 h
  exact bind_eq_some_iff.2 ⟨bytes, hd _ _ h1, h2⟩

lemma readHashes_mono (h : readHashes d hashes = some hs) :
    readHashes d' hashes = some hs := mapM_mono (fun _ _ => readFixed_mono hd) h

lemma readPath_mono (h : readPath d path = some p) : readPath d' path = some p := by
  refine mapM_mono (fun item b hb => ?_) h
  obtain ⟨hash, h1, h2⟩ := map_eq_some_iff.1 hb
  exact map_eq_some_iff.2 ⟨hash, readFixed_mono hd h1, h2⟩

lemma readSth_mono (hr : readSth d sth = some h) : readSth d' sth = some h := by
  simp only [readSth, bind_eq_bind, bind_eq_some_iff] at hr ⊢
  obtain ⟨root, h1, signature, h2, h3⟩ := hr
  exact ⟨root, readFixed_mono hd h1, signature, hd _ _ h2, h3⟩

lemma readPrevious_mono (h : readPrevious d previousSth = some previous) : readPrevious d' previousSth = some previous := by
  cases previousSth with
  | none => exact h
  | some =>
    obtain ⟨sth, h1, h2⟩ := map_eq_some_iff.1 h
    exact map_eq_some_iff.2 ⟨sth, readSth_mono hd h1, h2⟩

lemma readLeaf_mono (h : readLeaf d leaf = some l) : readLeaf d' leaf = some l := by
  simp only [readLeaf, bind_eq_bind, bind_eq_some_iff] at h ⊢
  obtain ⟨x, h1, sig, h2, pq, h3, h4⟩ := h
  refine ⟨x, readFixed_mono hd h1, sig, hd _ _ h2, pq, ?_, h4⟩
  cases hpq : leaf.identityPqSigPub with
  | none =>
    rw [hpq] at h3
    exact h3
  | some =>
    rw [hpq] at h3
    obtain ⟨bytes, h5, h6⟩ := map_eq_some_iff.1 h3
    exact map_eq_some_iff.2 ⟨bytes, hd _ _ h5, h6⟩

lemma read_mono (h : read d proof key previousSth = some R) : read d' proof key previousSth = some R := by
  obtain ⟨h1, h2, h3, h4, h5⟩ := read_iff.1 h
  exact read_iff.2 ⟨readLeaf_mono hd h1, readPath_mono hd h2, readSth_mono hd h3, readFixed_mono hd h4, readPrevious_mono hd h5⟩

end Extends

/-! ## What the WASM verifier accepts -/

section WasmAccepts

variable {ε α β : Type}

lemma ok_iff_toOption {x : Except ε α} {a : α} : x = .ok a ↔ x.toOption = some a := by
  cases x <;> simp [Except.toOption]

@[simp] lemma toOption_bind (x : Except ε α) (f : α → Except ε β) :
    (x >>= f).toOption = x.toOption.bind fun a => (f a).toOption := by
  cases x <;> rfl

@[simp] lemma toOption_pure (a : α) : (pure a : Except ε α).toOption = some a := rfl

@[simp] lemma toOption_map (f : α → β) (x : Except ε α) : (x.map f).toOption = x.toOption.map f := by
  cases x <;> rfl

lemma toOption_mapM (f : α → Except ε β) (l : List α) : (l.mapM f).toOption = l.mapM fun a => (f a).toOption := by
  induction l with
  | nil => rfl
  | cons a l ih =>
    simp only [List.mapM_cons, toOption_bind, ih]
    rfl

variable (W : WebPrims) (field : String)

@[simp] lemma decodeB64_toOption (value : String) : (decodeB64 W field value).toOption = W.decode value := by
  unfold decodeB64
  cases W.decode value <;> rfl

@[simp] lemma decodeB64Fixed_toOption (value : String) :
    (decodeB64Fixed W field value).toOption = readFixed W.decode value := by
  simp only [decodeB64Fixed, toOption_bind, decodeB64_toOption, readFixed]
  congr 1
  funext bytes
  split_ifs <;> rfl

lemma decodeB64Fixed_ok : decodeB64Fixed W field value = .ok b ↔ readFixed W.decode value = some b := by
  rw [ok_iff_toOption, decodeB64Fixed_toOption]

lemma parseTransparencyLeaf_ok : parseTransparencyLeaf W leaf = .ok l ↔ readLeaf W.decode leaf = some l := by
  have hpq : (parsePqSigPub W leaf.identityPqSigPub).toOption = readPqSigPub W.decode leaf.identityPqSigPub := by
    cases leaf.identityPqSigPub with
    | none => rfl
    | some => simp [parsePqSigPub, readPqSigPub]
  rw [ok_iff_toOption]
  simp only [parseTransparencyLeaf, toOption_bind, decodeB64Fixed_toOption, decodeB64_toOption, hpq, toOption_pure]
  rfl

lemma parseTransparencySth_ok : parseTransparencySth W sth = .ok h ↔ readSth W.decode sth = some h := by
  rw [ok_iff_toOption]
  simp only [parseTransparencySth, toOption_bind, decodeB64Fixed_toOption, decodeB64_toOption, toOption_pure]
  rfl

lemma parsePath_ok : path.mapM (parsePathItem W) = .ok p ↔ readPath W.decode path = some p := by
  have hitem : ∀ item, (parsePathItem W item).toOption = (readFixed W.decode item.hash).map fun hash => (hash, item.isLeft) := by
    intro item
    rw [parsePathItem, toOption_bind, decodeB64Fixed_toOption]
    cases readFixed W.decode item.hash <;> rfl
  rw [ok_iff_toOption, toOption_mapM]
  simp [hitem, readPath]

lemma parseHashes_ok : hashes.mapM (decodeB64Fixed W field) = .ok hs ↔ readHashes W.decode hashes = some hs := by
  rw [ok_iff_toOption, toOption_mapM]
  simp [readHashes]

variable {W}

/-- the result of either verifier, if it accepts -/
def resultOf (proof : WasmTransparencyProofDocument) (previousSth : Option WasmTransparencySignedTreeHead) :
    WasmTransparencyVerificationResult :=
  ⟨true, previousSth.isSome && proof.consistencyProof.isSome, proof.leaf.userId, proof.leaf.version,
    proof.signedTreeHead.treeSize, proof.signedTreeHead.epoch⟩

/-- what the WASM verifier checks of the values it has read -/
structure WasmAccepts (W : WebPrims) (proof : WasmTransparencyProofDocument) (R : Reading) : Prop where
  validKey : W.validKey R.key = true
  signed : R.sth.verify W.log R.key = .ok ()
  included : walkUp W.log R.path (R.leaf.hash W.log) = R.sth.rootHash
  consistent : ∀ p ∈ R.previous, ∀ c ∈ proof.consistencyProof, ∃ hs, readHashes W.decode c.proofHashes = some hs ∧
    verifyConsistencyProof W.log p R.sth ⟨c.oldSize, c.newSize, hs⟩ R.key = .ok ()

lemma wasmVerifyConsistency_ok {sth : SignedTreeHead (ByteArr 32)} {key : ByteArr 32} {flag : Bool} :
    wasmVerifyConsistency W proof sth key previousSth = .ok flag ↔ flag = (previousSth.isSome && proof.consistencyProof.isSome) ∧
      ∃ previous, readPrevious W.decode previousSth = some previous ∧
        ∀ p ∈ previous, ∀ c ∈ proof.consistencyProof, ∃ hs, readHashes W.decode c.proofHashes = some hs ∧
          verifyConsistencyProof W.log p sth ⟨c.oldSize, c.newSize, hs⟩ key = .ok () := by
  cases previousSth with
  | none => simp [wasmVerifyConsistency, readPrevious, eq_comm]
  | some =>
    simp only [wasmVerifyConsistency, bind_ok, parseTransparencySth_ok]
    cases proof.consistencyProof with
    | none => simp [readPrevious, eq_comm, and_comm]
    | some c =>
      simp only [bind_ok, mapError_ok, parseHashes_ok]
      constructor
      · rintro ⟨sth, h1, hs, h2, ⟨⟩, h3, h4⟩
        refine ⟨(ok.inj h4).symm, some sth, by rw [readPrevious, h1]; rfl, ?_⟩
        rintro p ⟨⟩ c' ⟨⟩
        exact ⟨hs, h2, h3⟩
      · rintro ⟨rfl, previous, h1, h2⟩
        obtain ⟨sth, h3, rfl⟩ := map_eq_some_iff.1 h1
        obtain ⟨hs, h4, h5⟩ := h2 sth rfl c rfl
        exact ⟨sth, h3, hs, h4, (), h5, rfl⟩

/-- **What the WASM verifier accepts** -/
lemma wasm_ok_iff {r : WasmTransparencyVerificationResult} : wasmVerifyTransparencyProof W proof key previousSth = .ok r ↔
      r = resultOf proof previousSth ∧ ∃ R, read W.decode proof key previousSth = some R ∧ WasmAccepts W proof R := by
  simp only [wasmVerifyTransparencyProof, bind_ok, check_ok, mapError_ok, wasmVerifyConsistency_ok, parseTransparencyLeaf_ok,
    parsePath_ok, parseTransparencySth_ok, decodeB64Fixed_ok]
  constructor
  · rintro ⟨leaf, h1, path, h2, sth, h3, k, h4, h5, ⟨⟩, h6, flag, ⟨rfl, previous, h7, h8⟩, h9⟩
    obtain ⟨h10, h11⟩ := verifyInclusionProof_ok.1 h6
    refine ⟨?_, ⟨leaf, path, sth, k, previous⟩, read_iff.2 ⟨h1, h2, h3, h4, h7⟩, not_not.1 h5, h10, h11, h8⟩
    rw [← ok.inj h9, resultOf, (readLeaf_fields h1).1, (readLeaf_fields h1).2, (readSth_fields h3).1, (readSth_fields h3).2.1]
  · rintro ⟨rfl, R, hR, hA⟩
    obtain ⟨h1, h2, h3, h4, h5⟩ := read_iff.1 hR
    refine ⟨R.leaf, h1, R.path, h2, R.sth, h3, R.key, h4, not_not.2 hA.validKey, (),
      verifyInclusionProof_ok.2 ⟨hA.signed, hA.included⟩, _, ⟨rfl, R.previous, h5, hA.consistent⟩, ?_⟩
    rw [resultOf, (readLeaf_fields h1).1, (readLeaf_fields h1).2, (readSth_fields h3).1, (readSth_fields h3).2.1]
    rfl

end WasmAccepts

/-! ## What the fallback accepts -/

section FallbackAccepts

variable {W : WebPrims} {x : Js Bool}

lemma beBytes_eq (value : ℕ) : beBytes 8 value = be64 value := by
  simp only [beBytes, be64, Nat.div_div_eq_div_mul]
  rfl

lemma u64ToBeBytes_safe {value : ℕ} (h : value < 2 ^ 53) : u64ToBeBytes value = .ok (be64 value) := by
  rw [u64ToBeBytes, if_neg (not_not.2 h), beBytes_eq]

lemma updateLenPrefixed_ok {bytes part : Bytes} :
    updateLenPrefixed bytes = .ok part ↔ bytes.length ≤ 0xffffffff ∧ part = lenPrefixed bytes := by
  simp only [updateLenPrefixed, bind_ok, u32ToBeBytes, check_ok]
  constructor
  · rintro ⟨length, ⟨h1, h2⟩, h3⟩
    rw [← ok.inj h3, ← ok.inj h2]
    exact ⟨Nat.not_lt.1 h1, rfl⟩
  · rintro ⟨h, rfl⟩
    exact ⟨_, ⟨Nat.not_lt.2 h, rfl⟩, rfl⟩

lemma base64ToBytes_ok {b : Bytes} : base64ToBytes W value = .ok b ↔ W.atob value = some b := by
  unfold base64ToBytes
  cases W.atob value <;> simp

lemma decodeFixedLengthBase64_ok {field value : String} :
    decodeFixedLengthBase64 W field value 32 = .ok b ↔ readFixed W.atob value = some b := by
  simp only [decodeFixedLengthBase64, bind_ok, base64ToBytes_ok, readFixed, bind_eq_some_iff]
  refine exists_congr fun bytes => and_congr_right fun _ => ?_
  split_ifs <;> simp

lemma decodeHashes_ok {field : String} :
    (hashes.mapM fun hash => decodeFixedLengthBase64 W field hash 32) = .ok hs ↔ readHashes W.atob hashes = some hs := by
  have hfixed : ∀ value, (decodeFixedLengthBase64 W field value 32).toOption = readFixed W.atob value := by
    intro value
    cases h : readFixed W.atob value with
    | some => exact ok_iff_toOption.1 (decodeFixedLengthBase64_ok.2 h)
    | none =>
      cases h' : decodeFixedLengthBase64 W field value 32 with
      | error => rfl
      | ok => rw [decodeFixedLengthBase64_ok.1 h'] at h; exact absurd h (by simp)
  rw [ok_iff_toOption, toOption_mapM]
  simp [hfixed, readHashes]

/-- lengths for which `u32ToBeBytes` does not throw -/
def FieldsFit (leaf : TransparencyLeaf) : Prop :=
  leaf.userId.toUTF8.toList.length ≤ 0xffffffff ∧ leaf.identitySigPub.length ≤ 0xffffffff ∧
    ∀ value ∈ leaf.identityPqSigPub, value.length ≤ 0xffffffff

instance (leaf : TransparencyLeaf) : Decidable (FieldsFit leaf) := by
  unfold FieldsFit; infer_instance

/-- the leaf that the fallback hashes: an empty `identity_pq_sig_pub` counts as absent -/
def fallbackLeaf (record : WasmTransparencyLeafRecord) (leaf : TransparencyLeaf) : TransparencyLeaf :=
  if record.identityPqSigPub = some "" then { leaf with identityPqSigPub := none } else leaf

lemma pqSigPubPart_ok (hempty : W.atob "" = some []) {value : Option String} {part : Bytes} :
    pqSigPubPart W value = .ok part ↔ ∃ pq, readPqSigPub W.atob value = some pq ∧ (∀ b ∈ pq, b.length ≤ 0xffffffff) ∧
      part = pqSigPubBytes (if value = some "" then none else pq) := by
  cases value with
  | none => simp [pqSigPubPart, readPqSigPub, pqSigPubBytes, eq_comm]
  | some value =>
    by_cases h : value = ""
    · subst h
      simp [pqSigPubPart, readPqSigPub, pqSigPubBytes, hempty, eq_comm]
    · simp only [pqSigPubPart, if_neg h, bind_ok, base64ToBytes_ok, updateLenPrefixed_ok, readPqSigPub, map_eq_some_iff,
        some.injEq]
      constructor
      · rintro ⟨b, h1, part', ⟨h2, rfl⟩, h3⟩
        refine ⟨some b, ⟨b, h1, rfl⟩, ?_, (ok.inj h3).symm⟩
        rintro b' ⟨⟩
        exact h2
      · rintro ⟨pq, ⟨b, h1, rfl⟩, h2, rfl⟩
        exact ⟨b, h1, _, ⟨h2 b rfl, rfl⟩, rfl⟩

lemma hashTransparencyLeaf_ok (hempty : W.atob "" = some []) {h : ByteArr 32} (hversion : leaf.version < 2 ^ 53)
    (htimestamp : leaf.timestamp < 2 ^ 53) :
    hashTransparencyLeaf W leaf = .ok h ↔
      ∃ l, readLeaf W.atob leaf = some l ∧ FieldsFit l ∧ h = (fallbackLeaf leaf l).hash W.log := by
  simp only [hashTransparencyLeaf, bind_ok, decodeFixedLengthBase64_ok, base64ToBytes_ok, updateLenPrefixed_ok,
    u64ToBeBytes_safe hversion, u64ToBeBytes_safe htimestamp, pqSigPubPart_ok hempty, readLeaf, bind_eq_bind,
    bind_eq_some_iff, pure_def, some.injEq]
  constructor
  · rintro ⟨x, h1, sig, h2, user, ⟨h3, rfl⟩, version, h4, sigPart, ⟨h5, rfl⟩, pqPart, ⟨pq, h6, h7, rfl⟩, timestamp, h8, h9⟩
    refine ⟨_, ⟨x, h1, sig, h2, pq, h6, rfl⟩, ⟨h3, h5, h7⟩, ?_⟩
    rw [← ok.inj h9, ← ok.inj h4, ← ok.inj h8]
    unfold fallbackLeaf
    split_ifs <;> rfl
  · rintro ⟨l, ⟨x, h1, sig, h2, pq, h3, rfl⟩, ⟨h4, h5, h6⟩, rfl⟩
    refine ⟨x, h1, sig, h2, _, ⟨h4, rfl⟩, _, rfl, _, ⟨h5, rfl⟩, _, ⟨pq, h3, h6, rfl⟩, _, rfl, ?_⟩
    unfold fallbackLeaf
    split_ifs <;> rfl

lemma verifyTransparencySignedTreeHead_ok (hepoch : sth.epoch < 2 ^ 53) (hsize : sth.treeSize < 2 ^ 53) :
    verifyTransparencySignedTreeHead W sth key = .ok () ↔ ∃ h k, readSth W.atob sth = some h ∧
      readFixed W.atob key = some k ∧ W.nobleVerify k (h.signingBody W.log) h.signature = true := by
  simp only [verifyTransparencySignedTreeHead, bind_ok, decodeFixedLengthBase64_ok, base64ToBytes_ok,
    u64ToBeBytes_safe hepoch, u64ToBeBytes_safe hsize, check_ok, readSth, bind_eq_bind, bind_eq_some_iff,
    pure_def, some.injEq]
  constructor
  · rintro ⟨root, h1, signature, h2, k, h3, epoch, h4, size, h5, h6, -⟩
    refine ⟨_, k, ⟨root, h1, signature, h2, rfl⟩, h3, ?_⟩
    rw [← ok.inj h4, ← ok.inj h5] at h6
    exact not_not.1 h6
  · rintro ⟨h, k, ⟨root, h1, signature, h2, rfl⟩, h3, h4⟩
    exact ⟨root, h1, signature, h2, k, h3, _, rfl, _, rfl, not_not.2 h4, trivial⟩

lemma walkPath_ok {items : List WasmTransparencyPathItem} {current r : ByteArr 32} :
    walkPath W current items = .ok r ↔ ∃ p, readPath W.atob items = some p ∧ r = walkUp W.log p current := by
  induction items generalizing current with
  | nil =>
    constructor
    · intro h
      exact ⟨[], rfl, (ok.inj h).symm⟩
    · rintro ⟨p, h, rfl⟩
      rw [← some.inj h]
      rfl
  | cons item items ih =>
    simp only [walkPath, bind_ok, decodeFixedLengthBase64_ok, ih, readPath, List.mapM_cons, bind_eq_bind,
      bind_eq_some_iff, map_eq_some_iff, pure_def, some.injEq]
    constructor
    · rintro ⟨hash, h1, p, h2, rfl⟩
      exact ⟨_, ⟨_, ⟨hash, h1, rfl⟩, p, h2, rfl⟩, rfl⟩
    · rintro ⟨_, ⟨_, ⟨hash, h1, rfl⟩, p, h2, rfl⟩, rfl⟩
      exact ⟨hash, h1, p, h2, rfl⟩

/-- what the fallback checks before it looks at a consistency proof -/
structure FallbackReaches (W : WebPrims) (proof : WasmTransparencyProofDocument) (R : Reading) : Prop where
  signed : W.nobleVerify R.key (R.sth.signingBody W.log) R.sth.signature = true
  fits : FieldsFit R.leaf
  included : walkUp W.log R.path ((fallbackLeaf proof.leaf R.leaf).hash W.log) = R.sth.rootHash
  previous : ∀ p ∈ R.previous, W.nobleVerify R.key (p.signingBody W.log) p.signature = true ∧
    p.epoch ≤ R.sth.epoch ∧ p.treeSize ≤ R.sth.treeSize

/-- what it checks of the consistency proof -/
def FallbackConsistent (W : WebPrims) (proof : WasmTransparencyProofDocument) (R : Reading) : Prop :=
  ∀ p ∈ R.previous, ∀ c ∈ proof.consistencyProof, c.oldSize = p.treeSize ∧ c.newSize = R.sth.treeSize ∧
    (p.treeSize = R.sth.treeSize → p.rootHash = R.sth.rootHash) ∧
    (p.treeSize ≠ R.sth.treeSize → ∃ hs, readHashes W.atob c.proofHashes = some hs ∧
      evaluateTransparencyConsistencyProof W p.treeSize R.sth.treeSize p.rootHash hs = .returns (p.rootHash, R.sth.rootHash))

/-- when it does not come back from the consistency proof -/
def FallbackStuck (W : WebPrims) (proof : WasmTransparencyProofDocument) (R : Reading) : Prop :=
  ∃ p ∈ R.previous, ∃ c ∈ proof.consistencyProof, c.oldSize = p.treeSize ∧ c.newSize = R.sth.treeSize ∧
    p.treeSize ≠ R.sth.treeSize ∧ ∃ hs, readHashes W.atob c.proofHashes = some hs ∧
      evaluateTransparencyConsistencyProof W p.treeSize R.sth.treeSize p.rootHash hs = .endless

/-- sizes, epochs, versions and timestamps below `2 ^ 53` -/
structure SafeIntegers (proof : WasmTransparencyProofDocument) (previousSth : Option WasmTransparencySignedTreeHead) : Prop where
  version : proof.leaf.version < 2 ^ 53
  timestamp : proof.leaf.timestamp < 2 ^ 53
  epoch : proof.signedTreeHead.epoch < 2 ^ 53
  treeSize : proof.signedTreeHead.treeSize < 2 ^ 53
  previous : ∀ sth ∈ previousSth, sth.epoch < 2 ^ 53 ∧ sth.treeSize < 2 ^ 53
  consistency : ∀ c ∈ proof.consistencyProof, c.oldSize < 2 ^ 53 ∧ c.newSize < 2 ^ 53

lemma verifyTransparencyInclusionProof_ok (hempty : W.atob "" = some []) (hsafe : SafeIntegers proof previousSth) :
    verifyTransparencyInclusionProof W proof key = .ok () ↔ ∃ l p h k, readLeaf W.atob proof.leaf = some l ∧
      readPath W.atob proof.inclusionProof.path = some p ∧ readSth W.atob proof.signedTreeHead = some h ∧
      readFixed W.atob key = some k ∧ W.nobleVerify k (h.signingBody W.log) h.signature = true ∧ FieldsFit l ∧
      walkUp W.log p ((fallbackLeaf proof.leaf l).hash W.log) = h.rootHash := by
  simp only [verifyTransparencyInclusionProof, bind_ok, check_ok, walkPath_ok, decodeFixedLengthBase64_ok,
    hashTransparencyLeaf_ok hempty hsafe.version hsafe.timestamp]
  constructor
  · rintro ⟨⟨⟩, h1, leafHash, ⟨l, h2, h3, rfl⟩, current, ⟨p, h4, rfl⟩, root, h5, h6, -⟩
    obtain ⟨h, k, h7, h8, h9⟩ := (verifyTransparencySignedTreeHead_ok hsafe.epoch hsafe.treeSize).1 h1
    rw [(readSth_fields h7).2.2.1, some.injEq] at h5
    exact ⟨l, p, h, k, h2, h4, h7, h8, h9, h3, (not_not.1 h6).trans h5.symm⟩
  · rintro ⟨l, p, h, k, h1, h2, h3, h4, h5, h6, h7⟩
    exact ⟨(), (verifyTransparencySignedTreeHead_ok hsafe.epoch hsafe.treeSize).2 ⟨h, k, h3, h4, h5⟩, _, ⟨l, h1, h6, rfl⟩, _,
      ⟨p, h2, rfl⟩, h.rootHash, (readSth_fields h3).2.2.1, not_not.2 h7, trivial⟩

section Consistency

variable {proof : WasmTransparencyProofDocument} {key : String} {value : WasmTransparencySignedTreeHead}
  {p h : SignedTreeHead (ByteArr 32)} {k : ByteArr 32} {flag : Bool}

/-- heads that can be read only have to be signed -/
lemma verifyTransparencySignedTreeHead_read (hepoch : sth.epoch < 2 ^ 53) (hsize : sth.treeSize < 2 ^ 53)
    (hh : readSth W.atob sth = some h) (hk : readFixed W.atob key = some k) :
    verifyTransparencySignedTreeHead W sth key = .ok () ↔ W.nobleVerify k (h.signingBody W.log) h.signature = true := by
  rw [verifyTransparencySignedTreeHead_ok hepoch hsize]
  simp [hh, hk]

/-- the fallback after the checks of the two heads -/
def consistencyVerdict (W : WebPrims) (p h : SignedTreeHead (ByteArr 32)) (hashes : List String) : Js Bool :=
  if p.treeSize = h.treeSize then
    if p.rootHash ≠ h.rootHash then .throws (.error "Transparency root hash mismatch") else .returns true
  else do
    let proofHashes ← .ofExcept (hashes.mapM fun hash =>
      decodeFixedLengthBase64 W "transparency.consistency_proof.hash" hash 32)
    let roots ← evaluateTransparencyConsistencyProof W p.treeSize h.treeSize p.rootHash proofHashes
    if roots.1 ≠ p.rootHash then .throws (.error "Transparency old root mismatch")
    else if roots.2 ≠ h.rootHash then .throws (.error "Transparency new root mismatch")
    else .returns true

lemma consistencyVerdict_returns : consistencyVerdict W p h hashes = .returns flag ↔
    flag = true ∧ (p.treeSize = h.treeSize → p.rootHash = h.rootHash) ∧
      (p.treeSize ≠ h.treeSize → ∃ hs, readHashes W.atob hashes = some hs ∧
        evaluateTransparencyConsistencyProof W p.treeSize h.treeSize p.rootHash hs = .returns (p.rootHash, h.rootHash)) := by
  unfold consistencyVerdict
  by_cases hsize : p.treeSize = h.treeSize
  · simp only [if_pos hsize, check_returns, not_not, returns.injEq]
    constructor
    · rintro ⟨h1, h2⟩
      exact ⟨h2.symm, fun _ => h1, fun h => absurd hsize h⟩
    · rintro ⟨rfl, h1, -⟩
      exact ⟨h1 hsize, rfl⟩
  · simp only [if_neg hsize, bind_returns, ofExcept_eq_returns, decodeHashes_ok, check_returns, not_not]
    constructor
    · rintro ⟨hs, h1, roots, h2, h3, h4, h5⟩
      refine ⟨(returns.inj h5).symm, fun h => absurd h hsize, fun _ => ⟨hs, h1, ?_⟩⟩
      rw [h2, ← h3, ← h4]
    · rintro ⟨rfl, -, h1⟩
      obtain ⟨hs, h2, h3⟩ := h1 hsize
      exact ⟨hs, h2, _, h3, rfl, rfl, rfl⟩

lemma consistencyVerdict_endless : consistencyVerdict W p h hashes = .endless ↔
    p.treeSize ≠ h.treeSize ∧ ∃ hs, readHashes W.atob hashes = some hs ∧
      evaluateTransparencyConsistencyProof W p.treeSize h.treeSize p.rootHash hs = .endless := by
  unfold consistencyVerdict
  by_cases hsize : p.treeSize = h.treeSize
  · rw [if_pos hsize, check_endless]
    simp [hsize]
  · rw [if_neg hsize]
    simp only [bind_endless, check_endless, ofExcept_ne_endless, ofExcept_eq_returns, decodeHashes_ok,
      reduceCtorEq, and_false, exists_false, or_false, false_or]
    exact (and_iff_right hsize).symm

/-- the verdict after heads that are signed and do not go back -/
def afterHeads (W : WebPrims) (proof : WasmTransparencyProofDocument) (p h : SignedTreeHead (ByteArr 32)) : Js Bool :=
  match proof.consistencyProof with
  | none => .returns false
  | some c =>
    if c.oldSize ≠ p.treeSize ∨ c.newSize ≠ h.treeSize then .throws (.error "Transparency consistency proof size mismatch")
    else consistencyVerdict W p h c.proofHashes

/-- a previous head that cannot be read is rejected -/
lemma verifyTransparencyConsistencyProof_unread (key : String) (hsafe : SafeIntegers proof (some value))
    (hp : readSth W.atob value = none) : ∃ e, verifyTransparencyConsistencyProof W proof key value = .throws e := by
  cases hv : verifyTransparencySignedTreeHead W value key with
  | error e => exact ⟨e, by rw [verifyTransparencyConsistencyProof, hv]; rfl⟩
  | ok =>
    obtain ⟨h, k, h1, -⟩ :=
      (verifyTransparencySignedTreeHead_ok (hsafe.previous value rfl).1 (hsafe.previous value rfl).2).1 hv
    rw [hp] at h1
    exact absurd h1 (by simp)

/-- what it comes to, if it does not throw -/
lemma verifyTransparencyConsistencyProof_iff (hx : ∀ e, x ≠ .throws e) (hsafe : SafeIntegers proof (some value))
    (hp : readSth W.atob value = some p) (hh : readSth W.atob proof.signedTreeHead = some h)
    (hk : readFixed W.atob key = some k) :
    verifyTransparencyConsistencyProof W proof key value = x ↔
      W.nobleVerify k (p.signingBody W.log) p.signature = true ∧ W.nobleVerify k (h.signingBody W.log) h.signature = true ∧
      p.epoch ≤ h.epoch ∧ p.treeSize ≤ h.treeSize ∧ afterHeads W proof p h = x := by
  have h1 := verifyTransparencySignedTreeHead_read (hsafe.previous value rfl).1 (hsafe.previous value rfl).2 hp hk
  have h2 := verifyTransparencySignedTreeHead_read hsafe.epoch hsafe.treeSize hh hk
  obtain ⟨hpe, hps, hpr, -⟩ := readSth_fields hp
  obtain ⟨hhe, hhs, hhr, -⟩ := readSth_fields hh
  simp only [verifyTransparencyConsistencyProof, ← h1, ← h2, ← hpe, ← hps, ← hhe, ← hhs, decodeFixedLengthBase64_ok.2 hpr,
    decodeFixedLengthBase64_ok.2 hhr, ofExcept_ok, returns_bind, ofExcept_bind_iff hx, check_iff hx, not_lt]
  constructor
  · rintro ⟨⟨⟩, h3, ⟨⟩, h4, h5, h6, h7⟩
    exact ⟨h3, h4, h5, h6, h7⟩
  · rintro ⟨h3, h4, h5, h6, h7⟩
    exact ⟨(), h3, (), h4, h5, h6, h7⟩

end Consistency

variable {proof : WasmTransparencyProofDocument} {key : String} {previousSth : Option WasmTransparencySignedTreeHead}
  {r : WasmTransparencyVerificationResult}

/-- the verdict on the previous head, if there is one -/
def previousVerdict (W : WebPrims) (proof : WasmTransparencyProofDocument) (R : Reading) : Js Bool :=
  R.previous.elim (.returns false) fun p => afterHeads W proof p R.sth

lemma previousVerdict_returns {flag : Bool} : previousVerdict W proof R = .returns flag ↔
    flag = (R.previous.isSome && proof.consistencyProof.isSome) ∧ FallbackConsistent W proof R := by
  unfold previousVerdict afterHeads FallbackConsistent
  cases R.previous with
  | none => simp [eq_comm]
  | some =>
    cases proof.consistencyProof with
    | none => simp [eq_comm]
    | some =>
      simp only [elim_some, check_returns, consistencyVerdict_returns, mem_some_iff, forall_eq', isSome_some, not_or, not_not]
      tauto

lemma previousVerdict_endless : previousVerdict W proof R = .endless ↔ FallbackStuck W proof R := by
  unfold previousVerdict afterHeads FallbackStuck
  cases R.previous with
  | none => simp
  | some =>
    cases proof.consistencyProof with
    | none => simp
    | some =>
      simp only [elim_some, check_endless, consistencyVerdict_endless, mem_some_iff, exists_eq_left', not_or, not_not]
      tauto

/-- what the fallback has read and checked if it does not throw -/
lemma fallback_reaches (hempty : W.atob "" = some []) (hsafe : SafeIntegers proof previousSth) (hx : ∀ e, x ≠ .throws e) :
    (verifyTransparencyInclusionProof W proof key = .ok () ∧
      previousSth.elim (.returns false) (verifyTransparencyConsistencyProof W proof key) = x) ↔
    ∃ R, read W.atob proof key previousSth = some R ∧ FallbackReaches W proof R ∧ previousVerdict W proof R = x := by
  constructor
  · rintro ⟨h1, h2⟩
    obtain ⟨l, path, h, k, h4, h5, h6, h7, h8, h9, h10⟩ := (verifyTransparencyInclusionProof_ok hempty hsafe).1 h1
    cases previousSth with
    | none => exact ⟨⟨l, path, h, k, none⟩, read_iff.2 ⟨h4, h5, h6, h7, rfl⟩, ⟨h8, h9, h10, by simp⟩, h2⟩
    | some value =>
      cases hp : readSth W.atob value with
      | none =>
        obtain ⟨e, he⟩ := verifyTransparencyConsistencyProof_unread key hsafe hp
        exact absurd (h2.symm.trans he) (hx e)
      | some p =>
        obtain ⟨h11, -, h12, h13, h14⟩ := (verifyTransparencyConsistencyProof_iff hx hsafe hp h6 h7).1 h2
        refine ⟨⟨l, path, h, k, some p⟩, read_iff.2 ⟨h4, h5, h6, h7, by rw [readPrevious, hp]; rfl⟩, ⟨h8, h9, h10, ?_⟩, h14⟩
        rintro p' ⟨⟩
        exact ⟨h11, h12, h13⟩
  · rintro ⟨R, hR, hreach, hverdict⟩
    obtain ⟨h1, h2, h3, h4, h5⟩ := read_iff.1 hR
    refine ⟨(verifyTransparencyInclusionProof_ok hempty hsafe).2
      ⟨R.leaf, R.path, R.sth, R.key, h1, h2, h3, h4, hreach.signed, hreach.fits, hreach.included⟩, ?_⟩
    cases previousSth with
    | none =>
      rw [previousVerdict, ← some.inj h5] at hverdict
      exact hverdict
    | some =>
      obtain ⟨p, hp, hprev⟩ := map_eq_some_iff.1 h5
      obtain ⟨h6, h7, h8⟩ := hreach.previous p hprev.symm
      rw [previousVerdict, ← hprev] at hverdict
      exact (verifyTransparencyConsistencyProof_iff hx hsafe hp h3 h4).2 ⟨h6, hreach.signed, h7, h8, hverdict⟩

/-- **What the fallback accepts** -/
lemma fallback_returns_iff (hempty : W.atob "" = some []) (hsafe : SafeIntegers proof previousSth) :
    verifyTransparencyProofFallback W proof key previousSth = .returns r ↔ r = resultOf proof previousSth ∧
      ∃ R, read W.atob proof key previousSth = some R ∧ FallbackReaches W proof R ∧ FallbackConsistent W proof R := by
  simp only [verifyTransparencyProofFallback, bind_returns, ofExcept_eq_returns]
  constructor
  · rintro ⟨⟨⟩, h1, flag, h2, h3⟩
    obtain ⟨R, hR, hreach, hverdict⟩ := (fallback_reaches hempty hsafe (by simp)).1 ⟨h1, h2⟩
    obtain ⟨hflag, hcons⟩ := previousVerdict_returns.1 hverdict
    refine ⟨?_, R, hR, hreach, hcons⟩
    rw [← returns.inj h3, hflag, readPrevious_isSome (read_iff.1 hR).2.2.2.2]
    rfl
  · rintro ⟨rfl, R, hR, hreach, hcons⟩
    obtain ⟨h1, h2⟩ := (fallback_reaches hempty hsafe (by simp)).2 ⟨R, hR, hreach, previousVerdict_returns.2 ⟨rfl, hcons⟩⟩
    rw [readPrevious_isSome (read_iff.1 hR).2.2.2.2] at h2
    exact ⟨(), h1, _, h2, rfl⟩

/-- **When the fallback does not end** -/
lemma fallback_endless_iff (hempty : W.atob "" = some []) (hsafe : SafeIntegers proof previousSth) :
    verifyTransparencyProofFallback W proof key previousSth = .endless ↔
      ∃ R, read W.atob proof key previousSth = some R ∧ FallbackReaches W proof R ∧ FallbackStuck W proof R := by
  simp only [verifyTransparencyProofFallback, bind_endless, ofExcept_eq_returns, ofExcept_ne_endless, false_or,
    pure_eq, reduceCtorEq, and_false, exists_false, or_false]
  simp only [← previousVerdict_endless]
  refine Iff.trans ⟨fun h => h.elim fun _ h => h, fun h => ⟨(), h⟩⟩ (fallback_reaches hempty hsafe ?_)
  simp

end FallbackAccepts

end PqMsg.Transparency
