/-
Session wire messages (`wire.rs`): version 1 with plaintext header fields, version 2 with one encrypted header blob, and
the dispatch between them on the first TLV tag.

Header encryption is AES-256-CTR under a fixed counter block, that is, a byte-wise XOR with a keystream of the header
key. `decryptHeader_encryptHeader`: it is its own inverse.

Round trips, for every message whose encoding succeeds: `WireMessage.decode_encode`, `HeaderPlaintext.decode_encode`,
`WireMessageV2.decode_encode`, and through the dispatch `decodeWireMessage_v1`, `decodeWireMessage_v2`.
-/
import Mathlib.Data.Bool.AllAny
import PqMsg.Core.Primitives
import PqMsg.Core.Tlv

namespace PqMsg.Wire

open Tlv List UInt8 Except

variable {Secret : Type}

def wireVersion : UInt16 := 1
def wireVersionV2 : UInt16 := 2

def tagVersion : UInt16 := criticalType 0x1001
def tagSuiteId : UInt16 := criticalType 0x1002
def tagSenderDhPub : UInt16 := criticalType 0x1003
def tagMsgNum : UInt16 := criticalType 0x1004
def tagPrevChainLen : UInt16 := criticalType 0x1005
def tagPqStepCt : UInt16 := criticalType 0x1006
def tagAeadNonce : UInt16 := criticalType 0x1007
def tagCiphertext : UInt16 := criticalType 0x1008
def tagPqTargetPubHash : UInt16 := criticalType 0x1009
def tagPqNextPub : UInt16 := criticalType 0x100A

def tagV2Version : UInt16 := criticalType 0x1101
def tagV2SuiteId : UInt16 := criticalType 0x1102
def tagV2EncryptedHeader : UInt16 := criticalType 0x1103
def tagV2AeadNonce : UInt16 := criticalType 0x1104
def tagV2Ciphertext : UInt16 := criticalType 0x1105

/-! ## Field parsers -/

variable (input : Bytes)

def parseU16 (field : String) : Except CoreError UInt16 :=
  match input with
  | [a, b] => .ok (ofBe16 a b)
  | _ => .error (.invalidLength field 2 input.length)

def parseU32 (field : String) : Except CoreError UInt32 :=
  match input with
  | [a, b, c, d] => .ok (ofBe32 a b c d)
  | _ => .error (.invalidLength field 4 input.length)

/-- `parse_32` and `parse_12` -/
def parseArr (n : ℕ) (input : Bytes) (field : String) : Except CoreError (ByteArr n) :=
  if h : input.length = n then .ok ⟨input, h⟩ else .error (.invalidLength field n input.length)

lemma parseU16_be16 (x : UInt16) (field : String) : parseU16 (be16 x) field = .ok x := by
  simp [parseU16, be16]

lemma parseU32_be32 (x : UInt32) (field : String) : parseU32 (be32 x) field = .ok x := by
  simp [parseU32, be32]

lemma parseArr_val {n : ℕ} (x : ByteArr n) (field : String) : parseArr n x.1 field = .ok x := by
  simp [parseArr, x.2]

/-- the record of an optional field: `if let Some(v) = … { records.push(…) }` -/
def optRecord (ty : UInt16) : Option Bytes → List TlvRecord
  | some v => [⟨ty, v⟩]
  | none => []

/-! ## Version 1 -/

structure WireMessage where
  version : UInt16
  suiteId : UInt16
  senderDhPub : DhPublicKey
  msgNum : UInt32
  prevChainLen : UInt32
  pqStepCt : Option Bytes
  pqTargetPubHash : Option Bytes
  pqNextPublicKey : Option Bytes
  aeadNonce : Nonce
  ciphertext : Bytes
deriving DecidableEq, Repr

def WireMessage.records (m : WireMessage) : List TlvRecord :=
  [⟨tagVersion, be16 m.version⟩, ⟨tagSuiteId, be16 m.suiteId⟩, ⟨tagSenderDhPub, m.senderDhPub.1⟩,
    ⟨tagMsgNum, be32 m.msgNum⟩, ⟨tagPrevChainLen, be32 m.prevChainLen⟩] ++
  optRecord tagPqStepCt m.pqStepCt ++ optRecord tagPqTargetPubHash m.pqTargetPubHash ++
  optRecord tagPqNextPub m.pqNextPublicKey ++ [⟨tagAeadNonce, m.aeadNonce.1⟩, ⟨tagCiphertext, m.ciphertext⟩]

def WireMessage.encode (m : WireMessage) : Except CoreError Bytes := Tlv.encode m.records

def WireMessage.knownTypes : List UInt16 :=
  [tagVersion, tagSuiteId, tagSenderDhPub, tagMsgNum, tagPrevChainLen, tagPqStepCt, tagPqTargetPubHash, tagPqNextPub,
    tagAeadNonce, tagCiphertext]

def WireMessage.decode : Except CoreError WireMessage := do
  let records ← decodeStrict input WireMessage.knownTypes
  let version ← parseU16 (← requireFromMap records tagVersion "wire.version") "wire.version"
  let suiteId ← parseU16 (← requireFromMap records tagSuiteId "wire.suite_id") "wire.suite_id"
  let senderDhPub ← parseArr 32 (← requireFromMap records tagSenderDhPub "wire.sender_dh_pub") "wire.sender_dh_pub"
  let msgNum ← parseU32 (← requireFromMap records tagMsgNum "wire.msg_num") "wire.msg_num"
  let prevChainLen ←
    parseU32 (← requireFromMap records tagPrevChainLen "wire.prev_chain_len") "wire.prev_chain_len"
  let pqStepCt := recordMap records tagPqStepCt
  let pqTargetPubHash := recordMap records tagPqTargetPubHash
  let pqNextPublicKey := recordMap records tagPqNextPub
  let aeadNonce ← parseArr 12 (← requireFromMap records tagAeadNonce "wire.aead_nonce") "wire.aead_nonce"
  let ciphertext ← requireFromMap records tagCiphertext "wire.ciphertext"
  return ⟨version, suiteId, senderDhPub, msgNum, prevChainLen, pqStepCt, pqTargetPubHash, pqNextPublicKey, aeadNonce,
    ciphertext⟩

/-! ## The header of version 2 -/

/-- plaintext header fields that are encrypted in version 2 -/
structure HeaderPlaintext where
  senderDhPub : DhPublicKey
  msgNum : UInt32
  prevChainLen : UInt32
  pqStepCt : Option Bytes
  pqTargetPubHash : Option Bytes
  pqNextPublicKey : Option Bytes
deriving DecidableEq, Repr

def HeaderPlaintext.records (h : HeaderPlaintext) : List TlvRecord :=
  [⟨tagSenderDhPub, h.senderDhPub.1⟩, ⟨tagMsgNum, be32 h.msgNum⟩, ⟨tagPrevChainLen, be32 h.prevChainLen⟩] ++
  optRecord tagPqStepCt h.pqStepCt ++ optRecord tagPqTargetPubHash h.pqTargetPubHash ++
  optRecord tagPqNextPub h.pqNextPublicKey

def HeaderPlaintext.encode (h : HeaderPlaintext) : Except CoreError Bytes := Tlv.encode h.records

def HeaderPlaintext.knownTypes : List UInt16 :=
  [tagSenderDhPub, tagMsgNum, tagPrevChainLen, tagPqStepCt, tagPqTargetPubHash, tagPqNextPub]

def HeaderPlaintext.decode : Except CoreError HeaderPlaintext := do
  let records ← decodeStrict input HeaderPlaintext.knownTypes
  let senderDhPub ←
    parseArr 32 (← requireFromMap records tagSenderDhPub "header.sender_dh_pub") "header.sender_dh_pub"
  let msgNum ← parseU32 (← requireFromMap records tagMsgNum "header.msg_num") "header.msg_num"
  let prevChainLen ←
    parseU32 (← requireFromMap records tagPrevChainLen "header.prev_chain_len") "header.prev_chain_len"
  let pqStepCt := recordMap records tagPqStepCt
  let pqTargetPubHash := recordMap records tagPqTargetPubHash
  let pqNextPublicKey := recordMap records tagPqNextPub
  return ⟨senderDhPub, msgNum, prevChainLen, pqStepCt, pqTargetPubHash, pqNextPublicKey⟩

variable (P : Primitives Secret)

def encryptHeader (hk : Secret) (plaintext : Bytes) : Bytes :=
  plaintext.mapIdx fun i b => b ^^^ P.aesCtrKeystream hk i

def decryptHeader (hk : Secret) (ciphertext : Bytes) : Bytes := encryptHeader P hk ciphertext

def tryDecryptHeader (hk : Secret) (ciphertext : Bytes) : Option HeaderPlaintext :=
  (HeaderPlaintext.decode (decryptHeader P hk ciphertext)).toOption

/-! ## Version 2 -/

structure WireMessageV2 where
  version : UInt16
  suiteId : UInt16
  encryptedHeader : Bytes
  aeadNonce : Nonce
  ciphertext : Bytes
deriving DecidableEq, Repr

open WireMessageV2

def WireMessageV2.records (m : WireMessageV2) : List TlvRecord :=
  [⟨tagV2Version, be16 m.version⟩, ⟨tagV2SuiteId, be16 m.suiteId⟩, ⟨tagV2EncryptedHeader, m.encryptedHeader⟩,
    ⟨tagV2AeadNonce, m.aeadNonce.1⟩, ⟨tagV2Ciphertext, m.ciphertext⟩]

def WireMessageV2.encode (m : WireMessageV2) : Except CoreError Bytes := Tlv.encode m.records

def WireMessageV2.knownTypes : List UInt16 :=
  [tagV2Version, tagV2SuiteId, tagV2EncryptedHeader, tagV2AeadNonce, tagV2Ciphertext]

def WireMessageV2.decode : Except CoreError WireMessageV2 := do
  let records ← decodeStrict input WireMessageV2.knownTypes
  let version ← parseU16 (← requireFromMap records tagV2Version "wire_v2.version") "wire_v2.version"
  let suiteId ← parseU16 (← requireFromMap records tagV2SuiteId "wire_v2.suite_id") "wire_v2.suite_id"
  let encryptedHeader ← requireFromMap records tagV2EncryptedHeader "wire_v2.encrypted_header"
  let aeadNonce ← parseArr 12 (← requireFromMap records tagV2AeadNonce "wire_v2.aead_nonce") "wire_v2.aead_nonce"
  let ciphertext ← requireFromMap records tagV2Ciphertext "wire_v2.ciphertext"
  return ⟨version, suiteId, encryptedHeader, aeadNonce, ciphertext⟩

/-! ## Dispatch -/

inductive DecodedWireMessage where
  | v1 (m : WireMessage)
  | v2 (m : WireMessageV2)
deriving DecidableEq, Repr

def decodeWireMessage : Except CoreError DecodedWireMessage :=
  match input with
  | t1 :: t0 :: _ :: _ :: _ =>
    let firstTag := ofBe16 t1 t0
    if firstTag = tagVersion then (WireMessage.decode input).map .v1
    else if firstTag = tagV2Version then (WireMessageV2.decode input).map .v2
    else .error (.unsupportedAlgorithm "wire.version_tag")
  | _ => .error (.invalidTlv "wire message too short")

/-! ## Round trips -/

variable {rs : List TlvRecord} {ty : UInt16} {v b : Bytes} {m : WireMessage} {field : String} {h : HeaderPlaintext}

@[simp] lemma mem_optRecord (ty ty' : UInt16) (v : Bytes) (o : Option Bytes) :
    (⟨ty, v⟩ : TlvRecord) ∈ optRecord ty' o ↔ ty = ty' ∧ o = some v := by
  cases o <;> simp [optRecord, eq_comm]

@[simp] lemma recordMap_optRecord (ty ty' : UInt16) (o : Option Bytes) :
    recordMap (optRecord ty o) ty' = if ty = ty' then o else none := by
  cases o <;> simp [optRecord]

@[simp] lemma optRecord_map_ty (ty : UInt16) (o : Option Bytes) :
    (optRecord ty o).map TlvRecord.ty = if o.isSome then [ty] else [] := by
  cases o <;> rfl

namespace WireMessage

lemma records_types (m : WireMessage) :
    (m.records.map TlvRecord.ty).Nodup ∧ ∀ ty ∈ m.records.map TlvRecord.ty, ty ∈ knownTypes := by
  simp only [records, map_append, map_cons, map_nil, optRecord_map_ty, ← all_iff_forall_prop]
  cases m.pqStepCt.isSome <;> cases m.pqTargetPubHash.isSome <;> cases m.pqNextPublicKey.isSome <;> decide

lemma decode_encode (h : m.encode = .ok b) : decode b = .ok m := by
  have hd := decodeStrict_encode h m.records_types
  simp +decide [decode, hd, bind, Except.bind, pure, Except.pure, requireFromMap, records, parseU16_be16, parseU32_be32,
    parseArr_val]

end WireMessage

namespace HeaderPlaintext

lemma records_types (h : HeaderPlaintext) :
    (h.records.map TlvRecord.ty).Nodup ∧ ∀ ty ∈ h.records.map TlvRecord.ty, ty ∈ knownTypes := by
  simp only [records, map_append, map_cons, map_nil, optRecord_map_ty, ← all_iff_forall_prop]
  cases h.pqStepCt.isSome <;> cases h.pqTargetPubHash.isSome <;> cases h.pqNextPublicKey.isSome <;> decide

lemma decode_encode (he : h.encode = .ok b) : decode b = .ok h := by
  have hd := decodeStrict_encode he h.records_types
  simp +decide [decode, hd, bind, Except.bind, pure, Except.pure, requireFromMap, records, parseU32_be32, parseArr_val]

end HeaderPlaintext

/-- the header cipher is its own inverse -/
lemma decryptHeader_encryptHeader (hk : Secret) (b : Bytes) : decryptHeader P hk (encryptHeader P hk b) = b := by
  unfold decryptHeader encryptHeader
  apply ext_getElem
  · simp
  · intro i h1 h2
    rw [getElem_mapIdx, getElem_mapIdx, UInt8.xor_assoc, UInt8.xor_self, UInt8.xor_zero]

@[simp] lemma encryptHeader_length (hk : Secret) (b : Bytes) : (encryptHeader P hk b).length = b.length := by
  simp [encryptHeader]

namespace WireMessageV2

lemma records_types (m : WireMessageV2) :
    (m.records.map TlvRecord.ty).Nodup ∧ ∀ ty ∈ m.records.map TlvRecord.ty, ty ∈ knownTypes := by
  simp only [records, map_cons, map_nil, ← all_iff_forall_prop]
  decide

lemma decode_encode {m : WireMessageV2} (h : m.encode = .ok b) : decode b = .ok m := by
  have hd := decodeStrict_encode h m.records_types
  simp +decide [decode, hd, bind, Except.bind, pure, Except.pure, requireFromMap, records, parseU16_be16, parseArr_val]

end WireMessageV2

/-- the first tag of an encoding is the type of its first record -/
lemma decodeWireMessage_encode {r : TlvRecord} (h : Tlv.encode (r :: rs) = .ok b) :
    decodeWireMessage b = if r.ty = tagVersion then (WireMessage.decode b).map .v1
      else if r.ty = tagV2Version then (decode b).map .v2
      else .error (.unsupportedAlgorithm "wire.version_tag") := by
  obtain ⟨-, out, -, rfl⟩ := encode_cons_ok.1 h
  simp [be16, decodeWireMessage]

lemma decodeWireMessage_v1 (h : m.encode = .ok b) : decodeWireMessage b = .ok (.v1 m) := by
  rw [decodeWireMessage_encode h, if_pos rfl, WireMessage.decode_encode h]; rfl

lemma decodeWireMessage_v2 {m : WireMessageV2} (h : m.encode = .ok b) : decodeWireMessage b = .ok (.v2 m) := by
  rw [decodeWireMessage_encode h, if_neg (show tagV2Version ≠ tagVersion by decide), if_pos rfl, decode_encode h]; rfl

/-! ## What is accepted is well formed

The records of a decoded message are among the records of the input: what was read can be encoded again. -/

lemma parseU16_ok {x : UInt16} (h : parseU16 v field = .ok x) : v = be16 x := by
  unfold parseU16 at h
  split at h
  · rename_i a b
    simp only [ok.injEq] at h
    rw [← h, be16_ofBe16]
  · cases h

lemma parseU32_ok {x : UInt32} (h : parseU32 v field = .ok x) : v = be32 x := by
  unfold parseU32 at h
  split at h
  · rename_i a b c d
    simp only [ok.injEq] at h
    rw [← h, be32_ofBe32]
  · cases h

lemma parseArr_ok {n : ℕ} {x : ByteArr n} (h : parseArr n v field = .ok x) : v = x.1 := by
  unfold parseArr at h
  split_ifs at h with hl
  simp only [ok.injEq] at h
  rw [← h]

lemma requireFromMap_ok (h : requireFromMap rs ty field = .ok v) : (⟨ty, v⟩ : TlvRecord) ∈ rs := by
  unfold requireFromMap at h
  cases hm : recordMap rs ty with
  | none => rw [hm] at h; cases h
  | some =>
    rw [hm] at h
    simp only [ok.injEq] at h
    rw [← h]
    exact recordMap_some hm

lemma optRecord_subset : optRecord ty (recordMap rs ty) ⊆ rs := by
  intro r hr
  obtain ⟨rfl, h⟩ := (mem_optRecord r.ty ty r.value (recordMap rs ty)).1 hr
  exact recordMap_some h

lemma WireMessage.decode_records (h : WireMessage.decode b = .ok m) : ∃ rs, Tlv.encode rs = .ok b ∧ m.records ⊆ rs := by
  simp only [WireMessage.decode, bind_ok] at h
  obtain ⟨rs, hrs, v1, h1, x1, p1, v2, h2, x2, p2, v3, h3, x3, p3, v4, h4, x4, p4, v5, h5, x5, p5, v6, h6, x6, p6, v7,
    h7, hm⟩ := h
  cases hm
  refine ⟨rs, ((decodeStrict_iff b rs).1 hrs).1, ?_⟩
  have e1 := parseU16_ok p1 ▸ requireFromMap_ok h1
  have e2 := parseU16_ok p2 ▸ requireFromMap_ok h2
  have e3 := parseArr_ok p3 ▸ requireFromMap_ok h3
  have e4 := parseU32_ok p4 ▸ requireFromMap_ok h4
  have e5 := parseU32_ok p5 ▸ requireFromMap_ok h5
  have e6 := parseArr_ok p6 ▸ requireFromMap_ok h6
  have e7 := requireFromMap_ok h7
  simp only [records, append_subset, cons_subset, nil_subset, and_true, optRecord_subset]
  exact ⟨⟨e1, e2, e3, e4, e5⟩, e6, e7⟩

lemma HeaderPlaintext.decode_records {m : HeaderPlaintext} (h : HeaderPlaintext.decode b = .ok m) :
    ∃ rs, Tlv.encode rs = .ok b ∧ m.records ⊆ rs := by
  simp only [HeaderPlaintext.decode, bind_ok] at h
  obtain ⟨rs, hrs, v3, h3, x3, p3, v4, h4, x4, p4, v5, h5, x5, p5, hm⟩ := h
  cases hm
  refine ⟨rs, ((decodeStrict_iff b rs).1 hrs).1, ?_⟩
  have e3 := parseArr_ok p3 ▸ requireFromMap_ok h3
  have e4 := parseU32_ok p4 ▸ requireFromMap_ok h4
  have e5 := parseU32_ok p5 ▸ requireFromMap_ok h5
  simp only [records, append_subset, cons_subset, nil_subset, and_true, optRecord_subset]
  exact ⟨e3, e4, e5⟩

lemma WireMessageV2.decode_records {m : WireMessageV2} (h : decode b = .ok m) :
    ∃ rs, Tlv.encode rs = .ok b ∧ m.records ⊆ rs := by
  simp only [decode, bind_ok] at h
  obtain ⟨rs, hrs, v1, h1, x1, p1, v2, h2, x2, p2, v3, h3, v6, h6, x6, p6, v7, h7, hm⟩ := h
  cases hm
  refine ⟨rs, ((decodeStrict_iff b rs).1 hrs).1, ?_⟩
  have e1 := parseU16_ok p1 ▸ requireFromMap_ok h1
  have e2 := parseU16_ok p2 ▸ requireFromMap_ok h2
  have e3 := requireFromMap_ok h3
  have e6 := parseArr_ok p6 ▸ requireFromMap_ok h6
  have e7 := requireFromMap_ok h7
  simp only [records, cons_subset, nil_subset, and_true]
  exact ⟨e1, e2, e3, e6, e7⟩

/-- what was decoded encodes again, to no more bytes -/
lemma WireMessage.decode_encodes (h : WireMessage.decode b = .ok m) : ∃ b', m.encode = .ok b' ∧ b'.length ≤ b.length := by
  obtain ⟨rs, hrs, hsub⟩ := WireMessage.decode_records h
  exact encode_of_subset hrs m.records_types.1.of_map hsub

lemma HeaderPlaintext.decode_encodes {m : HeaderPlaintext} (h : HeaderPlaintext.decode b = .ok m) :
    ∃ b', m.encode = .ok b' ∧ b'.length ≤ b.length := by
  obtain ⟨rs, hrs, hsub⟩ := HeaderPlaintext.decode_records h
  exact encode_of_subset hrs m.records_types.1.of_map hsub

lemma WireMessageV2.decode_encodes {m : WireMessageV2} (h : decode b = .ok m) :
    ∃ b', m.encode = .ok b' ∧ b'.length ≤ b.length := by
  obtain ⟨rs, hrs, hsub⟩ := decode_records h
  exact encode_of_subset hrs m.records_types.1.of_map hsub

/-- the dispatch hands the whole input to one of the two decoders -/
lemma decodeWireMessage_cases {d : DecodedWireMessage} (h : decodeWireMessage b = .ok d) :
    (∃ m, d = .v1 m ∧ WireMessage.decode b = .ok m) ∨ ∃ m, d = .v2 m ∧ decode b = .ok m := by
  unfold decodeWireMessage at h
  split at h
  · simp only at h
    split_ifs at h
    · cases hm : WireMessage.decode _ with
      | error => rw [hm] at h; cases h
      | ok m => rw [hm] at h; exact .inl ⟨m, (ok.inj h).symm, rfl⟩
    · cases hm : decode _ with
      | error => rw [hm] at h; cases h
      | ok m => rw [hm] at h; exact .inr ⟨m, (ok.inj h).symm, rfl⟩
  · cases h

end PqMsg.Wire
