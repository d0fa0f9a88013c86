/-
Messages of a private group (`groups.rs`): `encrypt_message` and `decrypt_message`.

A message is encrypted under the key of the epoch and signed by its sender with both of their signature keys. Whoever opens
it compares group and epoch with their state, looks the sender up among the members, and checks the associated data and both
signatures. Nothing is kept about messages that were opened before: `decrypt_message` takes the state by reference, so that a
message that has been opened once can be opened again.

- `decryptMessage_ok`: when a message is accepted, and what is returned.
- `decryptMessage_encryptMessage`: a message of a member opens for every other member of the epoch.
- `message_authentic`: both directions; what is accepted under a user's public keys is what their keys signed.

The signature schemes are parameters, as in `PqMsg.Handshake.Pqxdh`; the nonce is an argument.
-/
import PqMsg.Groups.State
import PqMsg.Handshake.Pqxdh

namespace PqMsg.Groups

open Lib Tlv Wire Handshake

variable {Secret : Type}

def groupMessageAadLabel : String := "pqmsg-private-group-message-aad-v1"
def groupMessageSignatureLabel : String := "pqmsg-private-group-message-signature-v1"

def tlvGroupMessageLabel : UInt16 := criticalType 0x3010
def tlvGroupMessageGroupId : UInt16 := criticalType 0x3011
def tlvGroupMessageEpoch : UInt16 := criticalType 0x3012
def tlvGroupMessageSenderUserId : UInt16 := criticalType 0x3013
def tlvGroupMessageSentAt : UInt16 := criticalType 0x3014
def tlvGroupMessageNonce : UInt16 := criticalType 0x3015
def tlvGroupMessageCiphertext : UInt16 := criticalType 0x3016
def tlvGroupMessageAad : UInt16 := criticalType 0x3017

structure PrivateGroupEncryptedMessage where
  groupId : String
  epoch : UInt64
  senderUserId : String
  sentAtUnixMs : UInt64
  ciphertext : Aead.CiphertextEnvelope
  senderHybridSignature : Bytes
deriving DecidableEq

structure PrivateGroupDecryptedMessage where
  groupId : String
  epoch : UInt64
  senderUserId : String
  sentAtUnixMs : UInt64
  body : String
deriving DecidableEq

/-- with the signing functions of `ed25519_dalek` and of `PqSignatureProvider` -/
structure MessagePrims (Secret : Type) extends HandshakePrims Secret where
  ed25519Sign : ByteArr 32 → Bytes → ByteArr 64
  mlDsaSign : Bytes → Bytes → Except CoreError Bytes

/-! ## Hybrid signatures -/

structure HybridSignature where
  ed25519Sig : ByteArr 64
  pqSig : Bytes

def HybridSignature.encode (s : HybridSignature) : Bytes := s.ed25519Sig.1 ++ s.pqSig

def HybridSignature.decode (bytes : Bytes) : Except CoreError HybridSignature :=
  if h : bytes.length ≤ 64 then .error (.invalidLength "hybrid_signature" 65 bytes.length)
  else .ok ⟨⟨bytes.take 64, by simpa using Nat.le_of_not_le h⟩, bytes.drop 64⟩

/-- a signature with a post-quantum part is read as it was written -/
lemma HybridSignature.decode_encode (s : HybridSignature) (h : s.pqSig ≠ []) : decode s.encode = .ok s := by
  obtain ⟨⟨classical, hlength⟩, pq⟩ := s
  have hlong : ¬(classical ++ pq).length ≤ 64 := by
    have hpos : 0 < pq.length := List.length_pos_iff.2 h
    rw [List.length_append, hlength]
    omega
  rw [decode, encode, dif_neg hlong]
  simp [List.take_left' hlength, List.drop_left' hlength]

/-! ## Messages -/

def messageAad (groupId : String) (epoch : UInt64) (senderUserId : String) (sentAtUnixMs : UInt64) : Bytes :=
  utf8 groupMessageAadLabel ++ utf8 groupId ++ beU64 epoch ++ utf8 senderUserId ++ beU64 sentAtUnixMs

/-- the part of a message that is signed -/
def encodeMessageSignaturePayload (groupId : String) (epoch : UInt64) (senderUserId : String) (sentAtUnixMs : UInt64)
    (ciphertext : Aead.CiphertextEnvelope) : Except CoreError Bytes :=
  Tlv.encode [⟨tlvGroupMessageLabel, utf8 groupMessageSignatureLabel⟩, ⟨tlvGroupMessageGroupId, utf8 groupId⟩,
    ⟨tlvGroupMessageEpoch, beU64 epoch⟩, ⟨tlvGroupMessageSenderUserId, utf8 senderUserId⟩,
    ⟨tlvGroupMessageSentAt, beU64 sentAtUnixMs⟩, ⟨tlvGroupMessageNonce, ciphertext.nonce.1⟩,
    ⟨tlvGroupMessageCiphertext, ciphertext.ciphertext⟩, ⟨tlvGroupMessageAad, ciphertext.aad⟩]

def PrivateGroupEncryptedMessage.signaturePayload (m : PrivateGroupEncryptedMessage) : Except CoreError Bytes :=
  encodeMessageSignaturePayload m.groupId m.epoch m.senderUserId m.sentAtUnixMs m.ciphertext

def isBlank (text : String) : Bool := Server.len (Server.trim text) = 0

def PrivateGroupState.isMember (s : PrivateGroupState Secret) (userId : String) : Bool :=
  s.members.any (·.userId = userId)

section

variable (P : MessagePrims Secret) (s : PrivateGroupState Secret)

/-- `encrypt_message_with_rng` -/
def encryptMessage (senderUserId : String) (sigSecret pqSigSecret : Bytes) (body : String) (sentAtUnixMs : UInt64)
    (nonce : Nonce) : Except CoreError PrivateGroupEncryptedMessage := do
  validateUserId senderUserId
  if isBlank body then .error (.policyViolation "private group message body cannot be blank")
  else if s.isMember senderUserId = false then
    .error (.policyViolation "private group sender is not a member of the current epoch")
  else do
    let signingKey ← parseArr 32 sigSecret "private_group.sender_identity_sig_secret"
    let ciphertext ← Aead.encrypt P.toPrimitives (s.messageKey P.toPrimitives)
      (Aead.padPlaintext (utf8 body) Aead.paddingBlockSize) (messageAad s.groupId s.epoch senderUserId sentAtUnixMs) nonce
    let transcript ← encodeMessageSignaturePayload s.groupId s.epoch senderUserId sentAtUnixMs ciphertext
    let pqSig ← P.mlDsaSign pqSigSecret transcript
    return ⟨s.groupId, s.epoch, senderUserId, sentAtUnixMs, ciphertext,
      HybridSignature.encode ⟨P.ed25519Sign signingKey transcript, pqSig⟩⟩

def validatePrivateGroupMessageMembership (m : PrivateGroupEncryptedMessage) : Except CoreError Unit :=
  if m.groupId ≠ s.groupId then .error (.policyViolation "private group message group_id mismatch")
  else if m.epoch ≠ s.epoch then .error (.policyViolation "private group message epoch mismatch")
  else if s.isMember m.senderUserId = false then
    .error (.policyViolation "private group message sender is not a member of the current epoch")
  else .ok ()

def decryptMessage (m : PrivateGroupEncryptedMessage) (sigPub pqSigPub : Bytes) :
    Except CoreError PrivateGroupDecryptedMessage := do
  validatePrivateGroupMessageMembership s m
  if m.ciphertext.aad ≠ messageAad m.groupId m.epoch m.senderUserId m.sentAtUnixMs then
    .error (.policyViolation "private group message aad mismatch")
  else do
    let transcript ← m.signaturePayload
    let signature ← HybridSignature.decode m.senderHybridSignature
    let verifyingKey ← parseArr 32 sigPub "private_group.sender_identity_sig_pub"
    if P.ed25519Verify verifyingKey transcript signature.ed25519Sig = false then .error .signatureVerificationFailed
    else do
      P.mlDsaVerify pqSigPub transcript signature.pqSig
      let decrypted ← Aead.decrypt P.toPrimitives (s.messageKey P.toPrimitives) m.ciphertext
      let unpadded ← Aead.unpadPlaintext decrypted
      let body ← parseUtf8 unpadded "private_group.message.body"
      if isBlank body then .error (.policyViolation "private group message body cannot be blank")
      else return ⟨m.groupId, m.epoch, m.senderUserId, m.sentAtUnixMs, body⟩

end

section

variable {P : MessagePrims Secret} {s : PrivateGroupState Secret} {m : PrivateGroupEncryptedMessage}
  {d : PrivateGroupDecryptedMessage} {sigPub pqSigPub : Bytes}

lemma validateMembership_ok : validatePrivateGroupMessageMembership s m = .ok () ↔
      m.groupId = s.groupId ∧ m.epoch = s.epoch ∧ s.isMember m.senderUserId = true := by
  rw [validatePrivateGroupMessageMembership, check_ok, check_ok, check_ok, not_not, not_not, Bool.not_eq_false]
  simp

/-- both public keys accept the message's signature for the transcript -/
def Verifies (P : MessagePrims Secret) (sigPub pqSigPub : Bytes) (m : PrivateGroupEncryptedMessage) (transcript : Bytes) : Prop :=
  ∃ signature verifyingKey, HybridSignature.decode m.senderHybridSignature = .ok signature ∧
    parseArr 32 sigPub "private_group.sender_identity_sig_pub" = .ok verifyingKey ∧
    P.ed25519Verify verifyingKey transcript signature.ed25519Sig = true ∧ P.mlDsaVerify pqSigPub transcript signature.pqSig = .ok ()

/-- what is returned is what the message says, and the message is for the group and epoch of the state -/
lemma decryptMessage_ok (h : decryptMessage P s m sigPub pqSigPub = .ok d) :
    m.groupId = s.groupId ∧ m.epoch = s.epoch ∧ s.isMember m.senderUserId = true ∧
      d = ⟨m.groupId, m.epoch, m.senderUserId, m.sentAtUnixMs, d.body⟩ ∧
      ∃ transcript, m.signaturePayload = .ok transcript ∧ Verifies P sigPub pqSigPub m transcript := by
  obtain ⟨_, hmember, h⟩ := bind_ok.1 h
  obtain ⟨hgroup, hepoch, hsender⟩ := validateMembership_ok.1 hmember
  obtain ⟨-, h⟩ := check_ok.1 h
  obtain ⟨transcript, htranscript, h⟩ := bind_ok.1 h
  obtain ⟨signature, hsignature, h⟩ := bind_ok.1 h
  obtain ⟨key, hkey, h⟩ := bind_ok.1 h
  obtain ⟨hclassical, h⟩ := check_ok.1 h
  simp only [bind_ok] at h
  obtain ⟨_, hpq, decrypted, -, unpadded, -, body, -, h⟩ := h
  obtain ⟨-, h⟩ := check_ok.1 h
  cases h
  exact ⟨hgroup, hepoch, hsender, rfl, transcript, htranscript, signature, key, hsignature, hkey,
    Bool.eq_true_of_not_eq_false hclassical, hpq⟩

/-- a transcript is that of one group, epoch, sender, time and ciphertext only -/
lemma signaturePayload_injective {m' : PrivateGroupEncryptedMessage} {transcript : Bytes}
    (h : m.signaturePayload = .ok transcript) (h' : m'.signaturePayload = .ok transcript) :
    m' = { m with senderHybridSignature := m'.senderHybridSignature } := by
  obtain ⟨groupId, epoch, sender, sentAt, ⟨nonce, ciphertext, aad⟩, signature⟩ := m
  obtain ⟨groupId', epoch', sender', sentAt', ⟨nonce', ciphertext', aad'⟩, signature'⟩ := m'
  have hrecords := encode_injective h' h
  simp only [List.cons.injEq, TlvRecord.mk.injEq, true_and, and_true, utf8_injective.eq_iff, beU64_injective.eq_iff,
    Subtype.val_inj] at hrecords
  obtain ⟨rfl, rfl, rfl, rfl, rfl, rfl, rfl⟩ := hrecords
  rfl

/-- the two signature schemes accept what the owner of the keys signs, and the post-quantum signature is not empty -/
structure SignaturesCorrect (P : MessagePrims Secret) (sigSecret pqSigSecret sigPub pqSigPub : Bytes) : Prop where
  classical : ∀ secretKey, parseArr 32 sigSecret "private_group.sender_identity_sig_secret" = .ok secretKey →
    ∃ publicKey, parseArr 32 sigPub "private_group.sender_identity_sig_pub" = .ok publicKey ∧
      ∀ message, P.ed25519Verify publicKey message (P.ed25519Sign secretKey message) = true
  postQuantum : ∀ message signature, P.mlDsaSign pqSigSecret message = .ok signature →
    signature ≠ [] ∧ P.mlDsaVerify pqSigPub message signature = .ok ()

/-- **Genuine messages open**, however often: what a member encrypts and signs is decrypted by every holder of the state -/
lemma decryptMessage_encryptMessage (hA : AeadCorrect P.toPrimitives) {sigSecret pqSigSecret : Bytes}
    (hS : SignaturesCorrect P sigSecret pqSigSecret sigPub pqSigPub) {senderUserId body : String} {sentAtUnixMs : UInt64}
    {nonce : Nonce} (h : encryptMessage P s senderUserId sigSecret pqSigSecret body sentAtUnixMs nonce = .ok m) :
    decryptMessage P s m sigPub pqSigPub = .ok ⟨s.groupId, s.epoch, senderUserId, sentAtUnixMs, body⟩ := by
  obtain ⟨-, -, h⟩ := bind_ok.1 h
  obtain ⟨hbody, h⟩ := check_ok.1 h
  obtain ⟨hmember, h⟩ := check_ok.1 h
  simp only [bind_ok] at h
  obtain ⟨secretKey, hsecret, ciphertext, hciphertext, transcript, htranscript, pqSig, hpqSig, h⟩ := h
  cases h
  obtain ⟨hnonce, haad, hsealed⟩ := Aead.encrypt_ok hciphertext
  obtain ⟨publicKey, hpublic, hverify⟩ := hS.classical secretKey hsecret
  obtain ⟨hne, hpqVerify⟩ := hS.postQuantum transcript pqSig hpqSig
  have hopen : Aead.decrypt P.toPrimitives (s.messageKey P.toPrimitives) ciphertext =
      .ok (Aead.padPlaintext (utf8 body) Aead.paddingBlockSize) := by
    rw [Aead.decrypt_ok, hnonce, haad]
    exact hA _ _ _ _ _ hsealed
  refine bind_ok.2 ⟨(), validateMembership_ok.2 ⟨rfl, rfl, by simpa using hmember⟩, check_ok.2 ⟨not_not.2 haad, ?_⟩⟩
  refine bind_ok.2 ⟨transcript, htranscript, bind_ok.2 ⟨_, HybridSignature.decode_encode ⟨_, pqSig⟩ hne, ?_⟩⟩
  refine bind_ok.2 ⟨publicKey, hpublic, check_ok.2 ⟨by simp [hverify], bind_ok.2 ⟨(), hpqVerify, ?_⟩⟩⟩
  refine bind_ok.2 ⟨_, hopen, bind_ok.2 ⟨_, Aead.unpad_pad _ _, bind_ok.2 ⟨body, parseUtf8_utf8 body _, ?_⟩⟩⟩
  exact check_ok.2 ⟨hbody, rfl⟩

end

/-- **Messages are authentic.** What a member encrypts and signs opens with their public keys as it was sent. And whatever
message is accepted under public keys whose owner `signed` all that verifies under them: it is of the group and epoch of the
state, its sender is a member, and group, epoch, sender, time and ciphertext are those the owner signed. -/
theorem message_authentic (P : MessagePrims Secret) (hA : AeadCorrect P.toPrimitives) (s : PrivateGroupState Secret)
    (sigPub pqSigPub : Bytes) :
    (∀ sigSecret pqSigSecret senderUserId body sentAtUnixMs nonce m,
      SignaturesCorrect P sigSecret pqSigSecret sigPub pqSigPub →
      encryptMessage P s senderUserId sigSecret pqSigSecret body sentAtUnixMs nonce = .ok m →
      decryptMessage P s m sigPub pqSigPub = .ok ⟨s.groupId, s.epoch, senderUserId, sentAtUnixMs, body⟩) ∧
    ∀ (signed : Bytes → Prop) m d, (∀ transcript, Verifies P sigPub pqSigPub m transcript → signed transcript) →
      decryptMessage P s m sigPub pqSigPub = .ok d →
      m.groupId = s.groupId ∧ m.epoch = s.epoch ∧ s.isMember m.senderUserId = true ∧
      d = ⟨m.groupId, m.epoch, m.senderUserId, m.sentAtUnixMs, d.body⟩ ∧
      ∃ transcript, m.signaturePayload = .ok transcript ∧ signed transcript ∧
        ∀ m' : PrivateGroupEncryptedMessage, m'.signaturePayload = .ok transcript →
          m' = { m with senderHybridSignature := m'.senderHybridSignature } := by
  refine ⟨fun _ _ _ _ _ _ _ hS h => decryptMessage_encryptMessage hA hS h, fun signed m d hsigned h => ?_⟩
  obtain ⟨hgroup, hepoch, hsender, hd, transcript, htranscript, hverifies⟩ := decryptMessage_ok h
  exact ⟨hgroup, hepoch, hsender, hd, transcript, htranscript, hsigned transcript hverifies,
    fun m' h' => signaturePayload_injective htranscript h'⟩

namespace Sample

/-- post-quantum signatures that contain what they sign -/
def messagePrims : MessagePrims UInt32 :=
  { Handshake.Sample.handshakePrims with
    mlDsaVerify := fun _ transcript signature => if signature = 1 :: transcript then .ok () else .error .signatureVerificationFailed
    ed25519Sign := fun _ _ => .replicate 64 0
    mlDsaSign := fun _ transcript => .ok (1 :: transcript) }

/-- a group of alice alone -/
def aliceOnly : PrivateGroupState UInt32 := ⟨"6f", 3, 5, ⟨"climbing", none, none, none⟩, [⟨"alice", .owner⟩], 100, 200⟩

end Sample

open Groups.Sample in
theorem message_authentic_alice : ∃ m transcript,
    decryptMessage messagePrims aliceOnly m (List.replicate 32 7) [] = .ok ⟨"6f", 3, "alice", 100, "hi"⟩ ∧
    m.signaturePayload = .ok transcript ∧ m.senderHybridSignature.drop 64 = 1 :: transcript := by
  obtain ⟨hopens, haccepted⟩ := message_authentic messagePrims PqMsg.Sample.aeadCorrect aliceOnly (List.replicate 32 7) []
  obtain ⟨m, hm⟩ := isOk_iff.1 (show (encryptMessage messagePrims aliceOnly "alice" (List.replicate 32 7) [] "hi" 100
    (.replicate 12 0)).isOk = true by decide +kernel)
  have hopen := hopens _ _ _ _ _ _ m ⟨fun _ _ => ⟨⟨_, rfl⟩, rfl, fun _ => rfl⟩, fun _ _ h => by
    cases h
    exact ⟨List.cons_ne_nil _ _, if_pos rfl⟩⟩ hm
  have hunforged : ∀ transcript, Verifies messagePrims (List.replicate 32 7) [] m transcript →
      m.senderHybridSignature.drop 64 = 1 :: transcript := by
    rintro transcript ⟨signature, -, hdecode, -, -, hpq⟩
    unfold HybridSignature.decode at hdecode
    split_ifs at hdecode
    cases hdecode
    by_contra hne
    simp [messagePrims, hne] at hpq
  obtain ⟨-, -, -, -, transcript, htranscript, hsigned, -⟩ := haccepted _ m _ hunforged hopen
  exact ⟨m, transcript, hopen, htranscript, hsigned⟩

end PqMsg.Groups
