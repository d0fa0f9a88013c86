/-
The messages of the handshake (`handshake.rs`): the initial message on the wire, the texts that prekey signatures cover and
the associated data of the first ciphertext.

- `InitialMessage.decode_encode`: an encoded initial message is read back.
- `not_initial_of_session`: a byte string that decodes as a session message never decodes as an initial message. The clients
  tell the two apart by trying to decode an initial message first.
-/
import PqMsg.Core.Wire

namespace PqMsg.Handshake

open Tlv Wire

def adTagProtocolVersion : UInt16 := criticalType 0x0001
def adTagSuiteId : UInt16 := criticalType 0x0002
def adTagInitiatorIdentityKey : UInt16 := criticalType 0x0003
def adTagResponderIdentityKey : UInt16 := criticalType 0x0004
def adTagInitiatorId : UInt16 := criticalType 0x0005
def adTagResponderId : UInt16 := criticalType 0x0006
def adTagInitiatorPqRatchetKey : UInt16 := criticalType 0x0007

def msgTagProtocolVersion : UInt16 := criticalType 0x0101
def msgTagSuiteId : UInt16 := criticalType 0x0109
def msgTagSenderId : UInt16 := criticalType 0x0102
def msgTagRecipientId : UInt16 := criticalType 0x0103
def msgTagIkAPub : UInt16 := criticalType 0x0104
def msgTagEkAPub : UInt16 := criticalType 0x0105
def msgTagPqCt : UInt16 := criticalType 0x0106
def msgTagNonce : UInt16 := criticalType 0x0107
def msgTagCiphertext : UInt16 := criticalType 0x0108
def msgTagOtpkId : UInt16 := criticalType 0x010A
def msgTagPqRatchetPubA : UInt16 := criticalType 0x010B

def sigTagProtocolVersion : UInt16 := criticalType 0x0201
def sigTagLabel : UInt16 := criticalType 0x0202
def sigTagKeyMaterial : UInt16 := criticalType 0x0203

/-! ## UTF-8 -/

/-- `as_bytes` -/
def utf8 (s : String) : Bytes := s.toUTF8.data.toList

def parseUtf8 (input : Bytes) (field : String) : Except CoreError String :=
  match String.fromUTF8? ⟨input.toArray⟩ with
  | some s => .ok s
  | none => .error (.invalidUtf8 field)

lemma parseUtf8_utf8 (s : String) (field : String) : parseUtf8 (utf8 s) field = .ok s := by
  have h : String.fromUTF8? s.toUTF8 = some s := by
    have hvalid : s.toUTF8.IsValidUTF8 := s.isValidUTF8
    simp only [String.fromUTF8?, hvalid, dite_true]
    rfl
  simp only [parseUtf8, utf8, Array.toArray_toList, h]

lemma utf8_injective : Function.Injective utf8 := by
  intro s t h
  have hs := parseUtf8_utf8 s ""
  rw [h, parseUtf8_utf8] at hs
  exact (Except.ok.inj hs).symm

/-! ## The initial message -/

structure InitialMessage where
  protocolVersion : UInt16
  suiteId : UInt16
  senderId : String
  recipientId : String
  ikAPub : DhPublicKey
  ekAPub : DhPublicKey
  pqCt : Bytes
  pqRatchetPubA : Bytes
  nonce : Nonce
  ciphertext : Bytes
  /-- set when a one-time prekey was used -/
  otpkId : Option String
deriving DecidableEq

open InitialMessage

variable {b : Bytes}

namespace InitialMessage

variable (m : InitialMessage)

def records : List TlvRecord :=
  [⟨msgTagProtocolVersion, be16 m.protocolVersion⟩, ⟨msgTagSuiteId, be16 m.suiteId⟩, ⟨msgTagSenderId, utf8 m.senderId⟩,
    ⟨msgTagRecipientId, utf8 m.recipientId⟩, ⟨msgTagIkAPub, m.ikAPub.1⟩, ⟨msgTagEkAPub, m.ekAPub.1⟩,
    ⟨msgTagPqCt, m.pqCt⟩, ⟨msgTagPqRatchetPubA, m.pqRatchetPubA⟩, ⟨msgTagNonce, m.nonce.1⟩,
    ⟨msgTagCiphertext, m.ciphertext⟩] ++ optRecord msgTagOtpkId (m.otpkId.map utf8)

def encode (m : InitialMessage) : Except CoreError Bytes := Tlv.encode m.records

def knownTypes : List UInt16 :=
  [msgTagProtocolVersion, msgTagSuiteId, msgTagSenderId, msgTagRecipientId, msgTagIkAPub, msgTagEkAPub, msgTagPqCt,
    msgTagPqRatchetPubA, msgTagNonce, msgTagCiphertext, msgTagOtpkId]

/-- `map.get(…).map(parse_utf8).transpose()?` -/
def parseOtpkId : Option Bytes → Except CoreError (Option String)
  | some v => (parseUtf8 v "otpk_id").map some
  | none => .ok none

def decode (input : Bytes) : Except CoreError InitialMessage := do
  let records ← decodeStrict input knownTypes
  let version ← parseU16 (← requireFromMap records msgTagProtocolVersion "protocol_version") "protocol_version"
  let suiteId ← parseU16 (← requireFromMap records msgTagSuiteId "suite_id") "suite_id"
  let senderId ← parseUtf8 (← requireFromMap records msgTagSenderId "sender_id") "sender_id"
  let recipientId ← parseUtf8 (← requireFromMap records msgTagRecipientId "recipient_id") "recipient_id"
  let ikAPub ← parseArr 32 (← requireFromMap records msgTagIkAPub "ik_a_pub") "ik_a_pub"
  let ekAPub ← parseArr 32 (← requireFromMap records msgTagEkAPub "ek_a_pub") "ek_a_pub"
  let pqCt ← requireFromMap records msgTagPqCt "pq_ct"
  let pqRatchetPubA ← requireFromMap records msgTagPqRatchetPubA "pq_ratchet_pub_a"
  let nonce ← parseArr 12 (← requireFromMap records msgTagNonce "nonce") "nonce"
  let ciphertext ← requireFromMap records msgTagCiphertext "ciphertext"
  let otpkId ← parseOtpkId (recordMap records msgTagOtpkId)
  return ⟨version, suiteId, senderId, recipientId, ikAPub, ekAPub, pqCt, pqRatchetPubA, nonce, ciphertext, otpkId⟩

lemma records_types : (m.records.map TlvRecord.ty).Nodup ∧ ∀ ty ∈ m.records.map TlvRecord.ty, ty ∈ knownTypes := by
  simp only [records, List.map_append, List.map_cons, List.map_nil, optRecord_map_ty, ← List.all_iff_forall_prop]
  cases (m.otpkId.map utf8).isSome <;> decide

/-- **Round trip of the initial message** -/
lemma decode_encode {m : InitialMessage} (h : m.encode = .ok b) : decode b = .ok m := by
  have hd := decodeStrict_encode h m.records_types
  have hotpk : parseOtpkId (m.otpkId.map utf8) = .ok m.otpkId := by
    cases m.otpkId with
    | none => rfl
    | some => simp only [Option.map_some, parseOtpkId, parseUtf8_utf8]; rfl
  simp +decide [decode, hd, bind, Except.bind, pure, Except.pure, requireFromMap, records, hotpk, parseU16_be16,
    parseUtf8_utf8, parseArr_val]

/-- every critical type in an accepted initial message is one of its own -/
lemma decode_critical {m : InitialMessage} (h : decode b = .ok m) {rs : List TlvRecord} (hrs : Tlv.encode rs = .ok b)
    {r : TlvRecord} (hr : r ∈ rs) (hc : isCritical r.ty = true) : r.ty ∈ knownTypes := by
  simp only [decode, bind_ok] at h
  obtain ⟨rs', hdecoded, -⟩ := h
  obtain ⟨hrs', -, hknown⟩ := (decodeStrict_iff b rs').1 hdecoded
  obtain rfl : rs = rs' := encode_injective hrs hrs'
  exact hknown r hr hc

end InitialMessage

/-- **Session messages are not initial messages** -/
lemma not_initial_of_session {d : DecodedWireMessage} (h : decodeWireMessage b = .ok d) (m : InitialMessage) :
    decode b ≠ .ok m := by
  intro hm
  rcases decodeWireMessage_cases h with ⟨w, -, hw⟩ | ⟨w, -, hw⟩
  · obtain ⟨rs, hrs, hsub⟩ := WireMessage.decode_records hw
    have hmem : (⟨tagVersion, be16 w.version⟩ : TlvRecord) ∈ rs := hsub (by simp [WireMessage.records])
    have hknown : tagVersion ∈ knownTypes :=
      decode_critical hm hrs hmem (show isCritical tagVersion = true by decide)
    exact absurd hknown (by decide)
  · obtain ⟨rs, hrs, hsub⟩ := WireMessageV2.decode_records hw
    have hmem : (⟨tagV2Version, be16 w.version⟩ : TlvRecord) ∈ rs := hsub (by simp [WireMessageV2.records])
    have hknown : tagV2Version ∈ knownTypes :=
      decode_critical hm hrs hmem (show isCritical tagV2Version = true by decide)
    exact absurd hknown (by decide)

/-! ## Signed texts and associated data -/

variable (protocolVersion : UInt16)

def signatureMessage (label : String) (keyMaterial : Bytes) : Except CoreError Bytes :=
  Tlv.encode [⟨sigTagProtocolVersion, be16 protocolVersion⟩, ⟨sigTagLabel, utf8 label⟩, ⟨sigTagKeyMaterial, keyMaterial⟩]

def signedPrekeySignatureMessage (signedPrekey : DhPublicKey) : Except CoreError Bytes :=
  signatureMessage protocolVersion "SPK" signedPrekey.1

def pqSignedPrekeySignatureMessage (pqSignedPrekey : Bytes) : Except CoreError Bytes :=
  signatureMessage protocolVersion "PQSPK" pqSignedPrekey

def associatedData (protocolVersion suiteId : UInt16) (initiatorIdentityKey responderIdentityKey : DhPublicKey)
    (initiatorId responderId : String) (initiatorPqRatchetKey : Bytes) : Except CoreError Bytes :=
  Tlv.encode
    [⟨adTagProtocolVersion, be16 protocolVersion⟩, ⟨adTagSuiteId, be16 suiteId⟩,
      ⟨adTagInitiatorIdentityKey, initiatorIdentityKey.1⟩, ⟨adTagResponderIdentityKey, responderIdentityKey.1⟩,
      ⟨adTagInitiatorId, utf8 initiatorId⟩, ⟨adTagResponderId, utf8 responderId⟩,
      ⟨adTagInitiatorPqRatchetKey, initiatorPqRatchetKey⟩]

end PqMsg.Handshake
