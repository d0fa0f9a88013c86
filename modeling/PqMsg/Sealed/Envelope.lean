/-
Sealed-sender envelopes (`sealed.rs`): the certificate that the server issues to a sender, the envelope around an encrypted
message, sealing with a certificate and opening.

The inner ciphertext is made under a key of the two identity keys. An envelope of version 2 carries the identity key of the
sender in a hint, encrypted under a key of a fresh key pair and the recipient's identity key; for one of version 1 the
recipient has to be given that key. The certificate is inside the inner plaintext, beside the names of user and device that
the sender states.

- `openMessageWithCert_ok`: what holds of an envelope that is opened, stage by stage.
- `open_seal`: what was sealed with a certificate is opened with the identity key in it, if that gives the sender's key.

`H` are the primitives. Arithmetic on `u64` wraps, as in a release build.
-/
import PqMsg.Handshake.Pqxdh
import PqMsg.Server.Text

namespace PqMsg.Sealed

open Tlv Wire Handshake List Option

variable {Secret : Type}

def sealedVersion : UInt16 := 1
def sealedCertifiedVersion : UInt16 := 2
def infoSealedKey : String := "pqmsg-sealed-sender-key-v1"
def infoSealedSenderHintKey : String := "pqmsg-sealed-sender-hint-key-v1"

def adTagVersion : UInt16 := criticalType 0xA101
def adTagSuiteId : UInt16 := criticalType 0xA102
def adTagRecipientUserId : UInt16 := criticalType 0xA103
def adTagSenderHintEphemeralPub : UInt16 := criticalType 0xA104

def outerTagVersion : UInt16 := criticalType 0xA201
def outerTagSuiteId : UInt16 := criticalType 0xA202
def outerTagRecipientUserId : UInt16 := criticalType 0xA203
def outerTagAeadNonce : UInt16 := criticalType 0xA204
def outerTagCiphertext : UInt16 := criticalType 0xA205
def outerTagSenderHintEphemeralPub : UInt16 := criticalType 0xA206
def outerTagSenderHintNonce : UInt16 := criticalType 0xA207
def outerTagSenderHintCiphertext : UInt16 := criticalType 0xA208

def innerTagSenderUserId : UInt16 := criticalType 0xA301
def innerTagSenderDeviceId : UInt16 := criticalType 0xA302
def innerTagPayload : UInt16 := criticalType 0xA303
def innerTagSenderCert : UInt16 := criticalType 0xA304

def certTagSenderUserId : UInt16 := criticalType 0xA401
def certTagSenderDeviceId : UInt16 := criticalType 0xA402
def certTagSenderIdentityPub : UInt16 := criticalType 0xA403
def certTagExpiresAt : UInt16 := criticalType 0xA404
def certTagServerSignature : UInt16 := criticalType 0xA405

def maxIdLen : ℕ := 128

/-- `SENDER_CERT_CLOCK_SKEW_SECS` -/
def senderCertClockSkewSecs : UInt64 := 300

/-! ## Fields -/

def decodeU64 (value : Bytes) : Except CoreError UInt64 :=
  match value with
  | [a, b, c, d, e, f, g, h] =>
    .ok (UInt64.ofNat (a.toNat * 2 ^ 56 + b.toNat * 2 ^ 48 + c.toNat * 2 ^ 40 + d.toNat * 2 ^ 32 + e.toNat * 2 ^ 24 +
      f.toNat * 2 ^ 16 + g.toNat * 2 ^ 8 + h.toNat))
  | _ => .error (.invalidLength "sealed.u64" 8 value.length)

/-- `decode_u16` -/
def decodeU16 (value : Bytes) : Except CoreError UInt16 := parseU16 value "sealed.u16"

def validateId (field value : String) : Except CoreError Unit :=
  let n := Server.len (Server.trim value)
  if n = 0 ∨ n > maxIdLen then .error (.invalidLength field maxIdLen n) else .ok ()

def decodeId (value : Bytes) (field : String) : Except CoreError String := do
  let text ← parseUtf8 value field
  validateId field text
  return text

/-- `map.get(…).map(…).transpose()?` -/
def parseOptional {α : Type} (parse : Bytes → Except CoreError α) : Option Bytes → Except CoreError (Option α)
  | some value => (parse value).map some
  | none => .ok none

lemma decodeU64_beU64 (x : UInt64) : decodeU64 (beU64 x) = .ok x := by
  have hx := x.toNat_lt
  simp only [decodeU64, beU64, Except.ok.injEq]
  apply UInt64.toNat_inj.1
  simp only [UInt64.toNat_ofNat', UInt8.toNat_ofNat']
  omega

variable {field recipientUserId : String} {key : ByteArr 32} {now : UInt64} {identity : DhPublicKey}
  {recipientSecret : Secret} {bytes : Bytes} {suiteId : UInt16} {b : Bytes}

lemma decodeId_utf8 {value : String} (h : validateId field value = .ok ()) : decodeId (utf8 value) field = .ok value := by
  simp only [decodeId, parseUtf8_utf8, bind, Except.bind, h]
  rfl

/-- whether a text is an id does not depend on the field it is reported for -/
lemma validateId_field {field' value : String} (h : validateId field value = .ok ()) : validateId field' value = .ok () := by
  simp only [validateId, check_ok] at h ⊢
  exact h

lemma parseOptional_arr {n : ℕ} (x : Option (ByteArr n)) (field : String) :
    parseOptional (parseArr n · field) (x.map Subtype.val) = .ok x := by
  cases x with
  | none => rfl
  | some =>
    simp only [map_some, parseOptional, parseArr_val]
    rfl

/-! ## Certificates -/

structure SenderCertificate where
  senderUserId : String
  senderDeviceId : String
  senderIdentityPub : DhPublicKey
  /-- Unix time in seconds -/
  expiresAt : UInt64
  serverSignature : Bytes
deriving DecidableEq

open SenderCertificate

namespace SenderCertificate

variable (c : SenderCertificate)

def bodyRecords : List TlvRecord :=
  [⟨certTagSenderUserId, utf8 c.senderUserId⟩, ⟨certTagSenderDeviceId, utf8 c.senderDeviceId⟩,
    ⟨certTagSenderIdentityPub, c.senderIdentityPub.1⟩, ⟨certTagExpiresAt, beU64 c.expiresAt⟩]

def records : List TlvRecord := c.bodyRecords ++ [⟨certTagServerSignature, c.serverSignature⟩]

def encode (c : SenderCertificate) : Except CoreError Bytes := Tlv.encode c.records

/-- what the server signs -/
def signingBody : Except CoreError Bytes := Tlv.encode c.bodyRecords

def knownTypes : List UInt16 :=
  [certTagSenderUserId, certTagSenderDeviceId, certTagSenderIdentityPub, certTagExpiresAt, certTagServerSignature]

def decode (input : Bytes) : Except CoreError SenderCertificate := do
  let records ← decodeStrict input knownTypes
  let senderUserId ← decodeId (← requireFromMap records certTagSenderUserId "cert.sender_user_id") "cert.sender_user_id"
  let senderDeviceId ←
    decodeId (← requireFromMap records certTagSenderDeviceId "cert.sender_device_id") "cert.sender_device_id"
  let senderIdentityPub ←
    parseArr 32 (← requireFromMap records certTagSenderIdentityPub "cert.sender_identity_pub") "cert.sender_identity_pub"
  let expiresAt ← decodeU64 (← requireFromMap records certTagExpiresAt "cert.expires_at")
  let serverSignature ← requireFromMap records certTagServerSignature "cert.server_signature"
  return ⟨senderUserId, senderDeviceId, senderIdentityPub, expiresAt, serverSignature⟩

lemma records_types : (c.records.map TlvRecord.ty).Nodup ∧ ∀ ty ∈ c.records.map TlvRecord.ty, ty ∈ knownTypes := by
  simp only [records, bodyRecords, cons_append, nil_append, map_cons, map_nil, ← all_iff_forall_prop]
  decide

lemma decode_encode {c : SenderCertificate} (huser : validateId "cert.sender_user_id" c.senderUserId = .ok ())
    (hdevice : validateId "cert.sender_device_id" c.senderDeviceId = .ok ()) (h : c.encode = .ok b) : decode b = .ok c := by
  have hd := decodeStrict_encode h c.records_types
  simp +decide [decode, hd, bind, Except.bind, pure, Except.pure, requireFromMap, records, bodyRecords, decodeId_utf8 huser,
    decodeId_utf8 hdevice, parseArr_val, decodeU64_beU64]

end SenderCertificate

/-! ## Envelopes -/

structure SealedEnvelope where
  version : UInt16
  suiteId : UInt16
  recipientUserId : String
  aeadNonce : Nonce
  ciphertext : Bytes
  senderHintEphemeralPub : Option DhPublicKey
  senderHintNonce : Option Nonce
  senderHintCiphertext : Option Bytes
deriving DecidableEq

namespace SealedEnvelope

variable (m : SealedEnvelope)

def records : List TlvRecord :=
  [⟨outerTagVersion, be16 m.version⟩, ⟨outerTagSuiteId, be16 m.suiteId⟩,
    ⟨outerTagRecipientUserId, utf8 m.recipientUserId⟩, ⟨outerTagAeadNonce, m.aeadNonce.1⟩,
    ⟨outerTagCiphertext, m.ciphertext⟩] ++
  optRecord outerTagSenderHintEphemeralPub (m.senderHintEphemeralPub.map Subtype.val) ++
  optRecord outerTagSenderHintNonce (m.senderHintNonce.map Subtype.val) ++
  optRecord outerTagSenderHintCiphertext m.senderHintCiphertext

def encode (m : SealedEnvelope) : Except CoreError Bytes := Tlv.encode m.records

def knownTypes : List UInt16 :=
  [outerTagVersion, outerTagSuiteId, outerTagRecipientUserId, outerTagAeadNonce, outerTagCiphertext,
    outerTagSenderHintEphemeralPub, outerTagSenderHintNonce, outerTagSenderHintCiphertext]

def decode (input : Bytes) : Except CoreError SealedEnvelope := do
  let records ← decodeStrict input knownTypes
  let version ← decodeU16 (← requireFromMap records outerTagVersion "sealed.version")
  let suiteId ← decodeU16 (← requireFromMap records outerTagSuiteId "sealed.suite_id")
  let recipientUserId ←
    decodeId (← requireFromMap records outerTagRecipientUserId "sealed.recipient_user_id") "sealed.recipient_user_id"
  let aeadNonce ← parseArr 12 (← requireFromMap records outerTagAeadNonce "sealed.aead_nonce") "sealed.aead_nonce"
  let ciphertext ← requireFromMap records outerTagCiphertext "sealed.ciphertext"
  if ciphertext = [] then .error (.invalidLength "sealed.ciphertext" 1 0)
  else do
    let senderHintEphemeralPub ← parseOptional (parseArr 32 · "sealed.sender_hint_ephemeral_pub")
      (recordMap records outerTagSenderHintEphemeralPub)
    let senderHintNonce ← parseOptional (parseArr 12 · "sealed.sender_hint_nonce")
      (recordMap records outerTagSenderHintNonce)
    return ⟨version, suiteId, recipientUserId, aeadNonce, ciphertext, senderHintEphemeralPub, senderHintNonce,
      recordMap records outerTagSenderHintCiphertext⟩

lemma records_types : (m.records.map TlvRecord.ty).Nodup ∧ ∀ ty ∈ m.records.map TlvRecord.ty, ty ∈ knownTypes := by
  simp only [records, map_append, map_cons, map_nil, optRecord_map_ty, ← all_iff_forall_prop]
  cases (m.senderHintEphemeralPub.map Subtype.val).isSome <;> cases (m.senderHintNonce.map Subtype.val).isSome <;>
    cases m.senderHintCiphertext.isSome <;> decide

lemma decode_encode {m : SealedEnvelope} (hrecipient : validateId "sealed.recipient_user_id" m.recipientUserId = .ok ())
    (hciphertext : m.ciphertext ≠ []) (h : m.encode = .ok b) : decode b = .ok m := by
  have hd := decodeStrict_encode h m.records_types
  simp +decide only [decode, hd, bind, Except.bind, pure, Except.pure, requireFromMap, records, recordMap_append,
    recordMap_cons, recordMap_nil, recordMap_optRecord, none_or, or_none, if_true, if_false,
    parseOptional_arr, hciphertext, decodeU16, parseU16_be16, decodeId_utf8 hrecipient, parseArr_val]

end SealedEnvelope

/-! ## Keys and associated data -/

/-- a label followed by the two bytes of the suite id, one character for each -/
def suiteInfo (label : String) (suiteId : UInt16) : String :=
  label ++ String.ofList ((be16 suiteId).map fun b => Char.ofNat b.toNat)

section

variable (H : HandshakePrims Secret)

def deriveSealedSenderKey (sharedSecret : Secret) (suiteId : UInt16) : Secret :=
  hkdfSha256_32 H.toPrimitives sharedSecret none (suiteInfo infoSealedKey suiteId)

def derivePairwiseSealedSenderKey (localSecret : Secret) (remotePublic : DhPublicKey) (suiteId : UInt16) : Secret :=
  deriveSealedSenderKey H (H.diffieHellman localSecret remotePublic) suiteId

def deriveSealedSenderHintKey (sharedSecret : Secret) (suiteId : UInt16) : Secret :=
  hkdfSha256_32 H.toPrimitives sharedSecret none (suiteInfo infoSealedSenderHintKey suiteId)

end

def sealedAssociatedData (version suiteId : UInt16) (recipientUserId : String) : Except CoreError Bytes :=
  Tlv.encode [⟨adTagVersion, be16 version⟩, ⟨adTagSuiteId, be16 suiteId⟩, ⟨adTagRecipientUserId, utf8 recipientUserId⟩]

def senderHintAssociatedData (version suiteId : UInt16) (recipientUserId : String) (ephemeralPub : DhPublicKey) :
    Except CoreError Bytes :=
  Tlv.encode [⟨adTagVersion, be16 version⟩, ⟨adTagSuiteId, be16 suiteId⟩, ⟨adTagRecipientUserId, utf8 recipientUserId⟩,
    ⟨adTagSenderHintEphemeralPub, ephemeralPub.1⟩]

/-! ## Sealing -/

def innerRecords (senderUserId senderDeviceId : String) (payload certBytes : Bytes) : List TlvRecord :=
  [⟨innerTagSenderUserId, utf8 senderUserId⟩, ⟨innerTagSenderDeviceId, utf8 senderDeviceId⟩, ⟨innerTagPayload, payload⟩,
    ⟨innerTagSenderCert, certBytes⟩]

/-- what `seal_message_with_cert` draws -/
structure SealRng (Secret : Type) where
  nonce : Nonce
  hintSecret : Secret
  hintNonce : Nonce

section

variable (H : HandshakePrims Secret)

def sealMessageWithCert (rng : SealRng Secret) (senderLocalSecret : Secret) (recipientIdentityPub : DhPublicKey)
    (suiteId : UInt16) (recipientUserId senderUserId senderDeviceId : String) (payload : Bytes)
    (senderCert : SenderCertificate) : Except CoreError Bytes :=
  if payload = [] then .error (.invalidLength "sealed.payload" 1 0)
  else do
    validateId "sealed.recipient_user_id" recipientUserId
    validateId "sealed.sender_user_id" senderUserId
    validateId "sealed.sender_device_id" senderDeviceId
    let certBytes ← senderCert.encode
    let pairwiseKey := derivePairwiseSealedSenderKey H senderLocalSecret recipientIdentityPub suiteId
    let ad ← sealedAssociatedData sealedCertifiedVersion suiteId recipientUserId
    let inner ← Tlv.encode (innerRecords senderUserId senderDeviceId payload certBytes)
    let envelope ← Aead.encrypt H.toPrimitives pairwiseKey inner ad rng.nonce
    let hintKeypair := generateKeypair H.toPrimitives rng.hintSecret
    let hintKey := deriveSealedSenderHintKey H (H.diffieHellman hintKeypair.secret recipientIdentityPub) suiteId
    let hintAd ← senderHintAssociatedData sealedCertifiedVersion suiteId recipientUserId hintKeypair.publicKey
    let hint ← Aead.encrypt H.toPrimitives hintKey senderCert.senderIdentityPub.1 hintAd rng.hintNonce
    SealedEnvelope.encode ⟨sealedCertifiedVersion, suiteId, recipientUserId, envelope.nonce, envelope.ciphertext,
      some hintKeypair.publicKey, some hint.nonce, some hint.ciphertext⟩

/-! ## Opening -/

structure OpenedCertifiedSealedMessage where
  senderUserId : String
  senderDeviceId : String
  payload : Bytes
  senderCert : Option SenderCertificate
deriving DecidableEq

def validateSenderCertificate (cert : SenderCertificate) (serverPubKey : ByteArr 32) (nowUnixSecs : UInt64) :
    Except CoreError Unit :=
  if nowUnixSecs > cert.expiresAt + senderCertClockSkewSecs then .error (.policyViolation "sender_cert.expired")
  else do
    let body ← cert.signingBody
    let signature ← (parseArr 64 cert.serverSignature "").mapError fun _ => .signatureVerificationFailed
    if H.ed25519Verify serverPubKey body signature then .ok () else .error .signatureVerificationFailed

/-- the certificate of an inner plaintext: it is valid, and of the stated user, device and identity key -/
def checkSenderCert (certBytes : Bytes) (serverPubKey : Option (ByteArr 32)) (nowUnixSecs : UInt64)
    (senderUserId senderDeviceId : String) (expectedSenderIdentityPub : Option DhPublicKey) :
    Except CoreError SenderCertificate := do
  let cert ← SenderCertificate.decode certBytes
  match serverPubKey with
  | some serverKey => validateSenderCertificate H cert serverKey nowUnixSecs
  | none => .ok ()
  if cert.senderUserId ≠ senderUserId then .error (.policyViolation "sender_cert.user_id_mismatch")
  else if cert.senderDeviceId ≠ senderDeviceId then .error (.policyViolation "sender_cert.device_id_mismatch")
  else if ∃ expected ∈ expectedSenderIdentityPub, cert.senderIdentityPub ≠ expected then
    .error (.policyViolation "sender_cert.identity_pub_mismatch")
  else .ok cert

def innerKnownTypes : List UInt16 := [innerTagSenderUserId, innerTagSenderDeviceId, innerTagPayload, innerTagSenderCert]

def openMessageWithCertInner (pairwiseKey : Secret) (envelope : SealedEnvelope) (serverPubKey : Option (ByteArr 32))
    (nowUnixSecs : UInt64) (expectedSenderIdentityPub : Option DhPublicKey) :
    Except CoreError OpenedCertifiedSealedMessage := do
  let ad ← sealedAssociatedData envelope.version envelope.suiteId envelope.recipientUserId
  let inner ← Aead.decrypt H.toPrimitives pairwiseKey ⟨envelope.aeadNonce, envelope.ciphertext, ad⟩
  let records ← decodeStrict inner innerKnownTypes
  let senderUserId ←
    decodeId (← requireFromMap records innerTagSenderUserId "sealed.sender_user_id") "sealed.sender_user_id"
  let senderDeviceId ←
    decodeId (← requireFromMap records innerTagSenderDeviceId "sealed.sender_device_id") "sealed.sender_device_id"
  let payload ← requireFromMap records innerTagPayload "sealed.payload"
  if payload = [] then .error (.invalidLength "sealed.payload" 1 0)
  else do
    let senderCert ← parseOptional
      (checkSenderCert H · serverPubKey nowUnixSecs senderUserId senderDeviceId expectedSenderIdentityPub)
      (recordMap records innerTagSenderCert)
    return ⟨senderUserId, senderDeviceId, payload, senderCert⟩

/-- `ok_or(CoreError::PolicyViolation(…))` -/
def requirePolicy {α : Type} (o : Option α) (what : String) : Except CoreError α :=
  match o with
  | some x => .ok x
  | none => .error (.policyViolation what)

variable (recipientLocalSecret : Secret)

/-- the identity key in the sender hint of an envelope of version 2 -/
def openSenderHint (envelope : SealedEnvelope) : Except CoreError DhPublicKey := do
  let ephemeralPub ← requirePolicy envelope.senderHintEphemeralPub "sealed.sender_hint_ephemeral_missing"
  let nonce ← requirePolicy envelope.senderHintNonce "sealed.sender_hint_nonce_missing"
  let ciphertext ← requirePolicy envelope.senderHintCiphertext "sealed.sender_hint_ciphertext_missing"
  let hintKey := deriveSealedSenderHintKey H (H.diffieHellman recipientLocalSecret ephemeralPub) envelope.suiteId
  let hintAd ← senderHintAssociatedData envelope.version envelope.suiteId envelope.recipientUserId ephemeralPub
  let identityBytes ← Aead.decrypt H.toPrimitives hintKey ⟨nonce, ciphertext, hintAd⟩
  parseArr 32 identityBytes "sealed.sender_identity_pub"

/-- the identity key that an envelope is opened with: the one given to the recipient, or the one in the hint -/
def senderIdentityOf (envelope : SealedEnvelope) (legacySenderIdentityPub : Option DhPublicKey) : Except CoreError DhPublicKey :=
  if envelope.version = sealedVersion then
    requirePolicy legacySenderIdentityPub "sealed.legacy_sender_identity_missing"
  else openSenderHint H recipientLocalSecret envelope

/-- the envelope of a message to this user in this suite -/
def readEnvelope (envelopeBytes : Bytes) (expectedSuiteId : UInt16) (expectedRecipientUserId : String) :
    Except CoreError SealedEnvelope := do
  validateId "sealed.expected_recipient_user_id" expectedRecipientUserId
  let envelope ← SealedEnvelope.decode envelopeBytes
  if envelope.version ≠ sealedVersion ∧ envelope.version ≠ sealedCertifiedVersion then
    .error (.unsupportedAlgorithm "sealed.version")
  else if envelope.suiteId ≠ expectedSuiteId then .error (.unsupportedAlgorithm "sealed.suite_id")
  else if envelope.recipientUserId ≠ expectedRecipientUserId then .error (.policyViolation "sealed.recipient_mismatch")
  else .ok envelope

def openMessageWithCert (envelopeBytes : Bytes) (expectedSuiteId : UInt16) (expectedRecipientUserId : String)
    (serverPubKey : Option (ByteArr 32)) (nowUnixSecs : UInt64) (legacySenderIdentityPub : Option DhPublicKey) :
    Except CoreError OpenedCertifiedSealedMessage := do
  let envelope ← readEnvelope envelopeBytes expectedSuiteId expectedRecipientUserId
  let senderIdentityPub ← senderIdentityOf H recipientLocalSecret envelope legacySenderIdentityPub
  let pairwiseKey := derivePairwiseSealedSenderKey H recipientLocalSecret senderIdentityPub envelope.suiteId
  openMessageWithCertInner H pairwiseKey envelope serverPubKey nowUnixSecs (some senderIdentityPub)

end

/-! ## What is opened -/

variable {H : HandshakePrims Secret} {rs : List TlvRecord}

lemma requireFromMap_iff {ty : UInt16} {v : Bytes} : requireFromMap rs ty field = .ok v ↔ recordMap rs ty = some v := by
  unfold requireFromMap
  cases recordMap rs ty <;> simp

lemma parseArr_iff {n : ℕ} {x : ByteArr n} : parseArr n b field = .ok x ↔ b = x.1 := by
  constructor
  · exact parseArr_ok
  · rintro rfl
    exact parseArr_val x field

lemma parseOptional_some {α : Type} {parse : Bytes → Except CoreError α} {o : Option Bytes} {x : α} :
    parseOptional parse o = .ok (some x) ↔ ∃ value, o = some value ∧ parse value = .ok x := by
  cases o with
  | none => simp [parseOptional]
  | some value =>
    simp only [parseOptional, some.injEq, exists_eq_left']
    cases parse value <;> simp [Except.map]

variable {cert : SenderCertificate} {envelope : SealedEnvelope} {opened : OpenedCertifiedSealedMessage}
  {legacy : Option DhPublicKey} {ad inner : Bytes}

/-- a certificate is accepted if it has not expired and carries a signature of the server over its body -/
lemma validateSenderCertificate_ok :
    validateSenderCertificate H cert key now = .ok () ↔ now ≤ cert.expiresAt + senderCertClockSkewSecs ∧
      ∃ body, cert.signingBody = .ok body ∧ ∃ signature : ByteArr 64, cert.serverSignature = signature.1 ∧
        H.ed25519Verify key body signature = true := by
  simp only [validateSenderCertificate, check_ok, gt_iff_lt, UInt64.not_lt, bind_ok, mapError_ok, parseArr_iff]
  refine and_congr_right fun _ => exists_congr fun body => and_congr_right fun _ => exists_congr fun signature =>
    and_congr_right fun _ => ?_
  cases H.ed25519Verify key body signature <;> simp

lemma checkSenderCert_ok {certBytes : Bytes} {userId deviceId : String} :
    checkSenderCert H certBytes (some key) now userId deviceId (some identity) = .ok cert ↔
      decode certBytes = .ok cert ∧ validateSenderCertificate H cert key now = .ok () ∧
      cert.senderUserId = userId ∧ cert.senderDeviceId = deviceId ∧ cert.senderIdentityPub = identity := by
  simp only [checkSenderCert, bind_ok, check_ok, not_not, mem_some_iff, exists_eq_left', Except.ok.injEq]
  constructor
  · rintro ⟨cert', hdecode, u, hvalid, huser, hdevice, hidentity, rfl⟩
    exact ⟨hdecode, hvalid, huser, hdevice, hidentity⟩
  · rintro ⟨hdecode, hvalid, huser, hdevice, hidentity⟩
    exact ⟨cert, hdecode, (), hvalid, huser, hdevice, hidentity, rfl⟩

/-- the stages of opening an envelope -/
structure Opened (H : HandshakePrims Secret) (recipientSecret : Secret) (bytes : Bytes) (suiteId : UInt16)
    (recipientUserId : String) (key : ByteArr 32) (now : UInt64) (legacy : Option DhPublicKey)
    (opened : OpenedCertifiedSealedMessage) (envelope : SealedEnvelope) (identity : DhPublicKey) (ad inner : Bytes)
    (rs : List TlvRecord) : Prop where
  read : readEnvelope bytes suiteId recipientUserId = .ok envelope
  sender : senderIdentityOf H recipientSecret envelope legacy = .ok identity
  associated : sealedAssociatedData envelope.version envelope.suiteId envelope.recipientUserId = .ok ad
  decrypted : H.aeadDecrypt (derivePairwiseSealedSenderKey H recipientSecret identity envelope.suiteId) envelope.aeadNonce ad
    envelope.ciphertext = some inner
  records : decodeStrict inner innerKnownTypes = .ok rs
  payload : recordMap rs innerTagPayload = some opened.payload
  cert : parseOptional (checkSenderCert H · (some key) now opened.senderUserId opened.senderDeviceId (some identity))
    (recordMap rs innerTagSenderCert) = .ok opened.senderCert

lemma openMessageWithCert_ok
    (h : openMessageWithCert H recipientSecret bytes suiteId recipientUserId (some key) now legacy = .ok opened) :
    ∃ envelope identity ad inner rs, Opened H recipientSecret bytes suiteId recipientUserId key now legacy opened envelope
      identity ad inner rs := by
  simp only [openMessageWithCert, openMessageWithCertInner, bind_ok, check_ok, requireFromMap_iff] at h
  obtain ⟨envelope, hread, identity, hidentity, ad, had, inner, hinner, rs, hrs, -, -, userId, -, -, -, deviceId, -, payload,
    hpayload, -, cert, hcert, hopened⟩ := h
  cases hopened
  exact ⟨envelope, identity, ad, inner, rs, hread, hidentity, had, Aead.decrypt_ok.1 hinner, hrs, hpayload, hcert⟩

/-- the certificate of an opened envelope is of the stated user and device and of the key it was opened with -/
lemma Opened.certificate
    (h : Opened H recipientSecret bytes suiteId recipientUserId key now legacy opened envelope identity ad inner rs)
    (hcert : opened.senderCert = some cert) :
    ∃ certBytes, recordMap rs innerTagSenderCert = some certBytes ∧ decode certBytes = .ok cert ∧
      validateSenderCertificate H cert key now = .ok () ∧ cert.senderUserId = opened.senderUserId ∧
      cert.senderDeviceId = opened.senderDeviceId ∧ cert.senderIdentityPub = identity := by
  have hparsed := h.cert
  rw [hcert, parseOptional_some] at hparsed
  obtain ⟨certBytes, hget, hchecked⟩ := hparsed
  exact ⟨certBytes, hget, checkSenderCert_ok.1 hchecked⟩

/-- the envelope that is read is the one in the bytes, in the expected suite and for the expected user -/
lemma readEnvelope_ok : readEnvelope bytes suiteId recipientUserId = .ok envelope ↔
      validateId "sealed.expected_recipient_user_id" recipientUserId = .ok () ∧
      SealedEnvelope.decode bytes = .ok envelope ∧
      (envelope.version = sealedVersion ∨ envelope.version = sealedCertifiedVersion) ∧ envelope.suiteId = suiteId ∧
      envelope.recipientUserId = recipientUserId := by
  simp only [readEnvelope, bind_ok, check_ok, not_and_or, not_not, Except.ok.injEq]
  constructor
  · rintro ⟨u, hid, envelope', hdecode, hversion, hsuite, hrecipient, rfl⟩
    exact ⟨hid, hdecode, hversion, hsuite, hrecipient⟩
  · rintro ⟨hid, hdecode, hversion, hsuite, hrecipient⟩
    exact ⟨(), hid, envelope, hdecode, hversion, hsuite, hrecipient, rfl⟩

/-! ## Round trip -/

/-- a ciphertext has at least its tag -/
def AeadNonempty (P : Primitives Secret) : Prop := ∀ k n ad p c, P.aeadEncrypt k n ad p = some c → c ≠ []

/-- the recipient opens the inner ciphertext with the identity key in the certificate -/
lemma open_seal (hdh : DhCommutes H.toPrimitives) (hA : AeadCorrect H.toPrimitives)
    (hne : AeadNonempty H.toPrimitives) {rng : SealRng Secret} {senderSecret : Secret} {payload : Bytes}
    (legacy : Option DhPublicKey) (hcert : validateSenderCertificate H cert key now = .ok ())
    (h : sealMessageWithCert H rng senderSecret (H.dhPublic recipientSecret) suiteId recipientUserId cert.senderUserId
      cert.senderDeviceId payload cert = .ok bytes) :
    ∃ sent ad inner, openMessageWithCert H recipientSecret bytes suiteId recipientUserId (some key) now legacy =
        openMessageWithCertInner H (derivePairwiseSealedSenderKey H recipientSecret cert.senderIdentityPub suiteId) sent
          (some key) now (some cert.senderIdentityPub) ∧
      sealedAssociatedData sent.version sent.suiteId sent.recipientUserId = .ok ad ∧
      H.aeadEncrypt (derivePairwiseSealedSenderKey H senderSecret (H.dhPublic recipientSecret) suiteId) sent.aeadNonce ad inner =
        some sent.ciphertext ∧
      ∀ k, H.aeadEncrypt k sent.aeadNonce ad inner = some sent.ciphertext →
        openMessageWithCertInner H k sent (some key) now (some cert.senderIdentityPub) =
          .ok ⟨cert.senderUserId, cert.senderDeviceId, payload, some cert⟩ := by
  simp only [sealMessageWithCert, check_ok, bind_ok] at h
  obtain ⟨hpayload, _, hrecipient, _, huser, _, hdevice, certBytes, hcertBytes, ad, had, inner, hinner, envelope, henvelope,
    hintAd, hhintAd, hint, hhint, hbytes⟩ := h
  obtain ⟨hnonce, -, hsealed⟩ := Aead.encrypt_ok henvelope
  obtain ⟨hhintNonce, -, hhintSealed⟩ := Aead.encrypt_ok hhint
  rw [hnonce, hhintNonce] at hbytes
  generalize hsent : SealedEnvelope.mk sealedCertifiedVersion suiteId recipientUserId rng.nonce envelope.ciphertext
    (some (generateKeypair H.toPrimitives rng.hintSecret).publicKey) (some rng.hintNonce) (some hint.ciphertext) = sent at hbytes
  have hread : readEnvelope bytes suiteId recipientUserId = .ok sent := by
    refine readEnvelope_ok.2 ⟨validateId_field hrecipient, ?_, ?_⟩
    · refine SealedEnvelope.decode_encode ?_ ?_ hbytes
      · rw [← hsent]
        exact hrecipient
      · rw [← hsent]
        exact hne _ _ _ _ _ hsealed
    · rw [← hsent]
      exact ⟨.inr rfl, rfl, rfl⟩
  have hsender : senderIdentityOf H recipientSecret sent legacy = .ok cert.senderIdentityPub := by
    subst hsent
    rw [senderIdentityOf, if_neg (show sealedCertifiedVersion ≠ sealedVersion by decide)]
    have hopen := hA _ _ _ _ _ hhintSealed
    rw [hdh _ recipientSecret] at hopen
    simp only [generateKeypair] at hopen hhintAd ⊢
    simp [openSenderHint, requirePolicy, bind, Except.bind, hhintAd, Aead.decrypt, hopen, parseArr_val]
  refine ⟨sent, ad, inner, ?_, ?_⟩
  · simp only [openMessageWithCert, hread, bind, Except.bind, hsender]
    rw [← congrArg SealedEnvelope.suiteId hsent]
  · subst hsent
    refine ⟨had, hsealed, fun k hk => ?_⟩
    -- the inner plaintext opens to the payload and the certificate in it
    have hrecords : decodeStrict inner innerKnownTypes =
        .ok (innerRecords cert.senderUserId cert.senderDeviceId payload certBytes) := by
      refine decodeStrict_encode hinner ?_
      simp only [innerRecords, map_cons, map_nil, ← all_iff_forall_prop]
      decide
    have hdecode : decode certBytes = .ok cert :=
      decode_encode (validateId_field huser) (validateId_field hdevice) hcertBytes
    have hchecked : checkSenderCert H certBytes (some key) now cert.senderUserId cert.senderDeviceId
        (some cert.senderIdentityPub) = .ok cert :=
      checkSenderCert_ok.2 ⟨hdecode, hcert, rfl, rfl, rfl⟩
    simp +decide [openMessageWithCertInner, had, bind, Except.bind, Aead.decrypt, hA _ _ _ _ _ hk, hrecords,
      requireFromMap, innerRecords, decodeId_utf8 huser, decodeId_utf8 hdevice, hpayload, parseOptional, hchecked]
    rfl

end PqMsg.Sealed
