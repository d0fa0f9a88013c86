/-
The message codecs share one space of TLV types, and clients find out what a byte string is by trying decoders in turn.

Every decoder asks for a critical type of its own, and strict decoding refuses critical types that it does not know. Records
with non-critical types may stand in any message; they do not help, since the critical type of the first decoder is still
there when the second one reads.

- `Codec.accepts_leading`: what a decoder accepts contains its leading type.
- `Codec.accepts_unique`: one byte string is accepted by one decoder at most.
- `codecs_exact`: every message that encodes is read back as it was, and no byte string is read in two ways.
- `associatedData_unambiguous`: the functions that make associated data share the TLV types too, and never agree.
-/
import PqMsg.Client.Direct
import PqMsg.Sealed.Envelope

namespace PqMsg.Sealed

open Tlv Wire Handshake

/-! ## The five decoders -/

/-- the decoders that are tried on a byte string -/
inductive Codec where
  | initial
  | wire
  | wireV2
  | envelope
  | certificate
deriving DecidableEq, Repr

namespace Codec

/-- the decoder returns a message -/
def Accepts : Codec → Bytes → Prop
  | initial, b => ∃ m, InitialMessage.decode b = .ok m
  | wire, b => ∃ m, WireMessage.decode b = .ok m
  | wireV2, b => ∃ m, WireMessageV2.decode b = .ok m
  | envelope, b => ∃ m, SealedEnvelope.decode b = .ok m
  | certificate, b => ∃ c, SenderCertificate.decode b = .ok c

/-- the types that the decoder knows -/
def knownTypes : Codec → List UInt16
  | initial => InitialMessage.knownTypes
  | wire => WireMessage.knownTypes
  | wireV2 => WireMessageV2.knownTypes
  | envelope => SealedEnvelope.knownTypes
  | certificate => SenderCertificate.knownTypes

/-- the first type that the decoder asks for -/
def leading : Codec → UInt16
  | initial => msgTagProtocolVersion
  | wire => tagVersion
  | wireV2 => tagV2Version
  | envelope => outerTagVersion
  | certificate => certTagSenderUserId

lemma leading_critical (c : Codec) : isCritical c.leading = true := by
  cases c <;> decide

/-- a decoder reads records strictly, with its own types, and finds its leading type among them -/
lemma accepts_leading {c : Codec} {b : Bytes} (h : c.Accepts b) :
    ∃ rs, decodeStrict b c.knownTypes = .ok rs ∧ ∃ v, (⟨c.leading, v⟩ : TlvRecord) ∈ rs := by
  cases c
  all_goals
    obtain ⟨m, hm⟩ := h
    simp only [InitialMessage.decode, WireMessage.decode, WireMessageV2.decode, SealedEnvelope.decode, SenderCertificate.decode,
      bind_ok] at hm
    obtain ⟨rs, hrs, v, hv, -⟩ := hm
    exact ⟨rs, hrs, v, requireFromMap_ok hv⟩

/-- **One byte string, one decoder** -/
lemma accepts_unique {c c' : Codec} {b : Bytes} (h : c.Accepts b) (h' : c'.Accepts b) : c = c' := by
  obtain ⟨rs, hrs, v, hv⟩ := accepts_leading h
  obtain ⟨rs', hrs', -⟩ := accepts_leading h'
  obtain ⟨hencode, -, -⟩ := (decodeStrict_iff b rs).1 hrs
  obtain ⟨hencode', -, hknown⟩ := (decodeStrict_iff b rs').1 hrs'
  -- both decoders see the same records, since the bytes determine them
  obtain rfl : rs = rs' := encode_injective hencode hencode'
  -- a leading type is known to its own decoder only
  have hleading : c.leading ∈ c'.knownTypes := hknown _ hv c.leading_critical
  clear * - hleading
  revert hleading
  cases c <;> cases c' <;> decide

end Codec

/-! ## Round trips -/

/-- **The codecs are exact and do not collide.** Whatever encodes is decoded to the same value again, wire messages through
the dispatch of `decode_wire_message`, envelopes and certificates under the conditions that their decoders check; and no byte
string is accepted by two of the decoders. -/
theorem codecs_exact :
    (∀ (m : WireMessage) (b : Bytes), m.encode = .ok b → decodeWireMessage b = .ok (.v1 m)) ∧
    (∀ (m : WireMessageV2) (b : Bytes), m.encode = .ok b → decodeWireMessage b = .ok (.v2 m)) ∧
    (∀ (m : HeaderPlaintext) (b : Bytes), m.encode = .ok b → HeaderPlaintext.decode b = .ok m) ∧
    (∀ (m : InitialMessage) (b : Bytes), m.encode = .ok b → InitialMessage.decode b = .ok m) ∧
    (∀ (m : SealedEnvelope) (b : Bytes) (field : String), m.ciphertext ≠ [] →
      validateId field m.recipientUserId = .ok () → m.encode = .ok b → SealedEnvelope.decode b = .ok m) ∧
    (∀ (c : SenderCertificate) (b : Bytes) (field field' : String), validateId field c.senderUserId = .ok () →
      validateId field' c.senderDeviceId = .ok () → c.encode = .ok b → SenderCertificate.decode b = .ok c) ∧
    ∀ (b : Bytes) (c c' : Codec), c.Accepts b → c'.Accepts b → c = c' := by
  refine ⟨?_, ?_, ?_, ?_, ?_, ?_, ?_⟩
  · intro m b h
    exact decodeWireMessage_v1 h
  · intro m b h
    exact decodeWireMessage_v2 h
  · intro m b h
    exact HeaderPlaintext.decode_encode h
  · intro m b h
    exact InitialMessage.decode_encode h
  · intro m b field hciphertext hrecipient h
    exact SealedEnvelope.decode_encode (validateId_field hrecipient) hciphertext h
  · intro c b field field' huser hdevice h
    exact SenderCertificate.decode_encode (validateId_field huser) (validateId_field hdevice) h
  · intro b c c' h h'
    exact Codec.accepts_unique h h'

/-! ## Associated data -/

/-- a call of one of the functions that make associated data -/
inductive AdCall where
  | session (header : Session.AdHeader) (externalAd : Bytes)
  | handshake (protocolVersion suiteId : UInt16) (initiatorKey responderKey : DhPublicKey) (initiatorId responderId : String)
      (pqRatchetKey : Bytes)
  | sealedMessage (version suiteId : UInt16) (recipientUserId : String)
  | senderHint (version suiteId : UInt16) (recipientUserId : String) (ephemeralPub : DhPublicKey)
  | conversation (senderUserId recipientUserId : String)
deriving DecidableEq

def AdCall.bytes : AdCall → Except CoreError Bytes
  | session header externalAd => Session.sessionAssociatedData header externalAd
  | handshake version suiteId ik rk initiator responder pq => associatedData version suiteId ik rk initiator responder pq
  | sealedMessage version suiteId recipient => sealedAssociatedData version suiteId recipient
  | senderHint version suiteId recipient ephemeralPub => senderHintAssociatedData version suiteId recipient ephemeralPub
  | conversation sender recipient => Client.conversationAssociatedData sender recipient

/-- **Associated data is unambiguous**: two calls give the same bytes only if they are calls of the same function with the same
arguments. The functions have records of different types, or of different number; an optional field that is absent has no record. -/
theorem associatedData_unambiguous (a a' : AdCall) (b : Bytes) (h : a.bytes = .ok b) (h' : a'.bytes = .ok b) : a = a' := by
  cases a <;> cases a'
  case session.session =>
    obtain ⟨rfl, rfl⟩ := Session.sessionAssociatedData_injective h h'
    rfl
  all_goals
    have hrecords := encode_injective h h'
    simp +decide [Session.AdHeader.records, be16_injective.eq_iff, utf8_injective.eq_iff, Subtype.val_inj] at hrecords
  all_goals simp [hrecords]

/-- the associated data of a conversation is that of no other call -/
theorem associatedData_unambiguous_conversation : ∃ b, (AdCall.conversation "a" "b").bytes = .ok b ∧
    ∀ a : AdCall, a.bytes = .ok b → a = .conversation "a" "b" := by
  obtain ⟨b, hb⟩ := isOk_iff.1 (show (AdCall.conversation "a" "b").bytes.isOk = true by decide)
  exact ⟨b, hb, fun a h => associatedData_unambiguous a _ b h hb⟩

end PqMsg.Sealed
