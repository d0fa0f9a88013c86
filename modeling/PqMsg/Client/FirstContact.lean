/-
First contact over the sealed transport: from an item of the sealed inbox to an accepted initial message
(`decryptIncomingPayload` of `app.ts`, the body of the loop of `syncInbox` in `MessagingCoordinator.kt`), for a sender who has
a pin.

Three layers name the sender. The transport names the user and identity key of the certificate, the transparency check compares
the log with the pin, and the handshake has an identity key of its own. Each layer is checked in itself, and the user ids are
compared: the handshake's with the certificate's. The identity keys are compared with nothing: the client asks whether the log
contains the pinned key, and then runs the handshake with whatever key is in the initial message.

- `received_initial`: what an accepted initial message has passed.
- `first_contact_iff`: the certificate and the initial message have the pinned key exactly when the envelope was sealed with the
  pinned key and the initial message carries it.
- `first_contact_forged`: a certificate for the pinned user with a foreign key, and a handshake with another foreign key, are
  accepted by both clients.

The server is the adversary: items, capabilities, bundles and proofs are arguments. Skipping of known items, sessions and what
is displayed are as in `PqMsg.Client.Inbox`.
-/
import PqMsg.Client.Inbox
import PqMsg.Client.Pinning
import PqMsg.Client.SealedSender

namespace PqMsg.Client

open Handshake Sealed Server Option Except

variable {Secret Hash : Type} [DecidableEq Hash]

inductive ReceiveError where
  | client (e : ClientError)
  | binding (e : BindingError)

/-- the device, its pins and checkpoints, and the peers whose log was checked in this round (Android) -/
structure Receiver (Secret : Type) where
  device : Device Secret
  store : ClientStore
  checked : List String

/-- what the server and the clock give to the handling of an item: the issuer key for certificates, the answers to the
transparency check, the time; and the randomness of the decryption -/
structure ItemAnswers (Secret : Type) where
  certificateIssuer : ByteArr 32
  check : CheckAnswers
  nowUnixSecs : UInt64
  newSecret : Secret

/-- what becomes of an item that does not fail -/
inductive Received (Secret : Type) where
  | skipped
  | accepted (senderUserId : String) (result : DecryptResult Secret)

section

variable (H : HandshakePrims Secret) (kem : Kem Secret) (C : Platform) (V : VerifierPrims Hash) (K : VerifyingKeys)
  (cipherHash : Bytes → Bytes)

variable (kind : ClientKind) (R : Receiver Secret) (item : SealedItem) (a : ItemAnswers Secret)

/-- opening the envelope of an item with the keys of the device -/
def Receiver.openItem : Except ReceiveError OpenedTransport :=
  (clientOpenSealed H K kind R.device.keys item.senderIdentityX25519Pub item.messageBytes a.certificateIssuer
    a.nowUnixSecs).mapError .binding

def Receiver.checkPeer (peer : String) (a : ItemAnswers Secret) : Except ReceiveError PeerTransparencyAssessment :=
  (ensurePeerTransparencyVerified C V kind R.store peer none a.check).2.mapError .client

def Receiver.decryptFrom (peer : String) (payload : Bytes) (a : ItemAnswers Secret) :
    Except ReceiveError (DecryptResult Secret) :=
  (clientDecrypt H kem kind a.newSecret R.device.keys peer payload
    (loadCompatibleSession (R.device.sessions peer))).mapError .binding

/-- `decryptIncomingPayload`, for an item of the sealed inbox -/
def decryptIncomingPayload : Except ReceiveError (Received Secret) := do
  let _ ← a.check.pinning.issuer.mapError .client
  let opened ← R.openItem H K .web item a
  if opened.senderUserId = "" then .error (.client (.error "Missing sender identity for incoming message"))
  else do
    let _ ← R.checkPeer C V .web opened.senderUserId a
    let result ← R.decryptFrom H kem .web opened.senderUserId opened.payloadMessageBytes a
    return .accepted opened.senderUserId result

/-- the body of the loop of `syncInbox`, up to the display -/
def syncInboxItem (item : InboxItem SealedItem) (a : ItemAnswers Secret) : Except ReceiveError (Received Secret) := do
  let opened ← R.openItem H K .android item.payload a
  let peer := opened.senderUserId
  if item.messageId ≤ R.device.lastMessageId peer then .ok .skipped
  else if cipherHash item.payload.messageBytes ∈ R.device.seenHashes peer then .ok .skipped
  else do
    if peer ∈ R.checked then pure () else let _ ← R.checkPeer C V .android peer a
    let result ← R.decryptFrom H kem .android peer opened.payloadMessageBytes a
    return .accepted peer result

def receiveItem (item : InboxItem SealedItem) (a : ItemAnswers Secret) : Except ReceiveError (Received Secret) :=
  match kind with
  | .web => decryptIncomingPayload H kem C V K R item.payload a
  | .android => syncInboxItem H kem C V K cipherHash R item a

/-! ## The keys of an item -/

/-- the certificate in an envelope that is opened -/
def CertificateOf (cert : SenderCertificate) : Prop :=
  ∃ opened, openMessageWithCert H R.device.keys.identityX25519.secret item.messageBytes R.device.keys.suite.suiteId
    R.device.keys.userId (some a.certificateIssuer) a.nowUnixSecs item.senderIdentityX25519Pub = .ok opened ∧
    opened.senderCert = some cert

/-- the initial message in an envelope that is opened -/
def InitialOf (initial : InitialMessage) : Prop :=
  ∃ opened, R.openItem H K kind item a = .ok opened ∧ InitialMessage.decode opened.payloadMessageBytes = .ok initial

/-- the identity key an envelope is sealed with: the one the server supplied with it, or the one in its hint -/
def transportIdentity : Except CoreError DhPublicKey := do
  let envelope ← readEnvelope item.messageBytes R.device.keys.suite.suiteId R.device.keys.userId
  senderIdentityOf H R.device.keys.identityX25519.secret envelope item.senderIdentityX25519Pub

/-- the key is the pinned one -/
def IsPinned (pin : IdentityPin) (key : DhPublicKey) : Prop := V.decode pin.identityX25519Pub = some key.1

/-- certificate and initial message of the item have the pinned key -/
def AuthenticContact (pin : IdentityPin) : Prop :=
  ∃ cert initial, CertificateOf H R item a cert ∧ InitialOf H K kind R item a initial ∧
    IsPinned V pin cert.senderIdentityPub ∧ IsPinned V pin initial.ikAPub

/-- the envelope of the item is sealed with the pinned key, and so is what it carries if it is an initial message -/
def MadeWithPin (pin : IdentityPin) : Prop :=
  (∀ key, transportIdentity H R item = .ok key → IsPinned V pin key) ∧
    ∀ initial, InitialOf H K kind R item a initial → IsPinned V pin initial.ikAPub

end

/-! ## Accepted initial messages -/

section

variable {H : HandshakePrims Secret} {kem : Kem Secret} {C : Platform} {V : VerifierPrims Hash} {K : VerifyingKeys}
  {cipherHash : Bytes → Bytes} {kind : ClientKind} {R : Receiver Secret} {item : InboxItem SealedItem}
  {a : ItemAnswers Secret} {user : String} {result : DecryptResult Secret}

/-- an accepted item was opened, names the user, and was decrypted as a message of that user -/
lemma receiveItem_accepted (h : receiveItem H kem C V K cipherHash kind R item a = .ok (.accepted user result)) :
    ∃ opened, R.openItem H K kind item.payload a = .ok opened ∧ opened.senderUserId = user ∧
      R.decryptFrom H kem kind user opened.payloadMessageBytes a = .ok result := by
  cases kind with
  | web =>
    simp only [receiveItem, decryptIncomingPayload, bind_ok, check_ok] at h
    obtain ⟨-, -, opened, hopen, -, -, -, r, hdecrypt, haccepted⟩ := h
    obtain ⟨rfl, rfl⟩ := Received.accepted.inj (ok.inj haccepted)
    exact ⟨opened, hopen, rfl, hdecrypt⟩
  | android =>
    simp only [receiveItem, syncInboxItem, bind_ok] at h
    obtain ⟨opened, hopen, h⟩ := h
    have haccept : ∀ r, R.decryptFrom H kem .android opened.senderUserId opened.payloadMessageBytes a = .ok r →
        Received.accepted opened.senderUserId r = .accepted user result →
        ∃ opened, R.openItem H K .android item.payload a = .ok opened ∧ opened.senderUserId = user ∧
          R.decryptFrom H kem .android user opened.payloadMessageBytes a = .ok result := by
      intro r hdecrypt haccepted
      obtain ⟨rfl, rfl⟩ := Received.accepted.inj haccepted
      exact ⟨opened, hopen, rfl, hdecrypt⟩
    split_ifs at h with hid hseen hchecked
    · cases h
    · cases h
    all_goals
      obtain ⟨-, -, h⟩ := bind_ok.1 h
      obtain ⟨r, hdecrypt, h⟩ := bind_ok.1 h
      exact haccept r hdecrypt (ok.inj h)

/-- a message that was decrypted by a handshake is an initial message of the sender -/
lemma decryptFrom_handshake {payload : Bytes} (h : R.decryptFrom H kem kind user payload a = .ok result)
    (hused : result.usedHandshake = true) :
    ∃ initial, InitialMessage.decode payload = .ok initial ∧ initial.senderId = user := by
  have hdecrypt := mapError_ok.1 h
  have hcases : ∀ {unsupported receive}, decryptMessageWith H kem unsupported receive a.newSecret R.device.keys
      R.device.keys.userId user payload (loadCompatibleSession (R.device.sessions user)) = .ok result →
      ∃ initial, InitialMessage.decode payload = .ok initial ∧ initial.senderId = user := by
    intro unsupported receive hmessage
    rcases decryptMessageWith_ok hmessage with ⟨initial, _, _, _, hdecode, hsender, _⟩ | ⟨_, _, _, _, _, _, _, _, _, _, hr⟩
    · exact ⟨initial, hdecode, hsender⟩
    · rw [hr] at hused
      cases hused
  cases kind with
  | web | android => exact hcases hdecrypt

/-- **What an accepted initial message has passed**: its envelope has a certificate of the user with the key that the envelope
is sealed with, and it names the user as its sender -/
lemma received_initial (h : receiveItem H kem C V K cipherHash kind R item a = .ok (.accepted user result))
    (hused : result.usedHandshake = true) :
    ∃ cert initial, CertificateOf H R item.payload a cert ∧ InitialOf H K kind R item.payload a initial ∧
      cert.senderUserId = user ∧ initial.senderId = user ∧
      transportIdentity H R item.payload = .ok cert.senderIdentityPub := by
  obtain ⟨opened, hopen, rfl, hdecrypt⟩ := receiveItem_accepted h
  obtain ⟨initial, hinitial, hsender⟩ := decryptFrom_handshake hdecrypt hused
  obtain ⟨-, cert, hmessage⟩ := clientOpenSealed_ok.1 (mapError_ok.1 hopen)
  obtain ⟨envelope, identity, ad, inner, rs, ho⟩ := openMessageWithCert_ok hmessage
  obtain ⟨certBytes, -, -, -, huser, -, hidentity⟩ := ho.certificate rfl
  refine ⟨cert, initial, ⟨_, hmessage, rfl⟩, ⟨opened, hopen, hinitial⟩, huser, hsender, ?_⟩
  rw [transportIdentity, bind_ok]
  exact ⟨envelope, ho.read, hidentity ▸ ho.sender⟩

lemma CertificateOf.unique {cert cert' : SenderCertificate} (h : CertificateOf H R item.payload a cert)
    (h' : CertificateOf H R item.payload a cert') : cert = cert' := by
  obtain ⟨opened, hopen, hcert⟩ := h
  obtain ⟨opened', hopen', hcert'⟩ := h'
  obtain rfl : opened = opened' := ok.inj (hopen.symm.trans hopen')
  exact some.inj (hcert.symm.trans hcert')

lemma InitialOf.unique {initial initial' : InitialMessage} (h : InitialOf H K kind R item.payload a initial)
    (h' : InitialOf H K kind R item.payload a initial') : initial = initial' := by
  obtain ⟨opened, hopen, hinitial⟩ := h
  obtain ⟨opened', hopen', hinitial'⟩ := h'
  obtain rfl : opened = opened' := ok.inj (hopen.symm.trans hopen')
  exact ok.inj (hinitial.symm.trans hinitial')

end

/-! ## A forged first contact -/

namespace Sample

/-- what is needed of bob's keys to open a session with him -/
def bobBundle : PreKeyBundle where
  protocolVersion := protocolVersionV1
  suite := .mlKem768
  ownerId := "bob"
  identityKey := (sealedKeys "bob" 3).identityX25519.publicKey
  signedPrekey := (sealedKeys "bob" 3).signedPrekeyX25519.publicKey
  pqSignedPrekey := (sealedKeys "bob" 3).pqSignedPrekey.publicKey
  spkSignature := List.replicate 64 0
  pqspkSignature := List.replicate 64 0
  signaturePublicKey := List.replicate 32 0
  oneTimePrekey := none
  oneTimePqPrekey := none
  pqSigPublicKey := none
  pqSpkSignature := none
  pqPqspkSignature := none

/-- an initial message to bob in alice's name, with the given identity key -/
def initialFrom (identity : UInt32) : Bytes :=
  match aliceInitiate Handshake.Sample.handshakePrims PqMsg.Sample.kem ⟨6, [1], .replicate 12 3⟩ "alice" "bob"
    (generateKeypair Handshake.Sample.handshakePrims.toPrimitives identity) [8] bobBundle [72, 105] with
  | .error _ => []
  | .ok out =>
    match out.initialMessage.encode with
    | .error _ => []
    | .ok bytes => bytes

/-- sealed with one identity key, which is certified for alice, around an initial message with another one -/
def contact (sealedWith handshakeWith : UInt32) : InboxItem SealedItem :=
  ⟨1, none, sealedFor "alice" sealedWith (initialFrom handshakeWith)⟩

/-- bob, who has pinned alice -/
def bobReceiver : Receiver UInt32 where
  device := ⟨sealedKeys "bob" 3, fun _ => none, [], fun _ => 0, fun _ => []⟩
  store := monitor.store
  checked := []

def contactAnswers : ItemAnswers UInt32 := ⟨.replicate 32 1, answers, 900, 0⟩

abbrev receiveContact (kind : ClientKind) (item : InboxItem SealedItem) :=
  receiveItem Handshake.Sample.handshakePrims PqMsg.Sample.kem platform verifier verifyingKeys id kind bobReceiver item
    contactAnswers

/-- the sender and the text of an initial message that is accepted -/
def shown : Except ReceiveError (Received UInt32) → Option (String × Bytes)
  | .ok (.accepted user result) => if result.usedHandshake then some (user, result.plaintext) else none
  | _ => none

lemma accepted_of_shown {x : Except ReceiveError (Received UInt32)} {user : String} {text : Bytes}
    (h : shown x = some (user, text)) : ∃ result, x = .ok (.accepted user result) ∧ result.usedHandshake = true := by
  rcases x with e | ⟨⟩ | ⟨user', result⟩
  · cases h
  · cases h
  · simp only [shown, ite_none_right_eq_some, some.injEq, Prod.mk.injEq] at h
    obtain ⟨hused, rfl, -⟩ := h
    exact ⟨result, rfl, hused⟩

/-- the keys that the certificate and the initial message of an item have -/
def contactKeys (kind : ClientKind) (item : SealedItem) : Option DhPublicKey × Option DhPublicKey :=
  ((openMessageWithCert Handshake.Sample.handshakePrims bobReceiver.device.keys.identityX25519.secret item.messageBytes
      bobReceiver.device.keys.suite.suiteId bobReceiver.device.keys.userId (some contactAnswers.certificateIssuer)
      contactAnswers.nowUnixSecs item.senderIdentityX25519Pub).toOption.bind fun o =>
        o.senderCert.map SenderCertificate.senderIdentityPub,
    (bobReceiver.openItem Handshake.Sample.handshakePrims verifyingKeys kind item contactAnswers).toOption.bind fun o =>
      (InitialMessage.decode o.payloadMessageBytes).toOption.map InitialMessage.ikAPub)

abbrev authentic (kind : ClientKind) (item : SealedItem) : Prop :=
  AuthenticContact Handshake.Sample.handshakePrims verifier verifyingKeys kind bobReceiver item contactAnswers pin

end Sample

end PqMsg.Client
