/-
Direct messages as the two clients make and read them: `wasm_bindings.rs` for the web client and `pqmsg-android/src/lib.rs`,
with the bundles that the server hands out (`load_bundle_response` of `prekeys.rs`).

- `initiateSessionAndEncrypt`, `encryptWithSession`: the two libraries agree, up to the types of their errors.
- `wasmDecryptMessage` and `decryptMessage` read an initial message differently. The web client tries it without a
  one-time prekey, then with every one-time prekey it still has, and drops the one that fits. The Android client only tries
  it without.
- Sessions are stored as snapshots between calls.

Both libraries are built with the same KEM backend, which treats the two suites alike, so the KEM is one parameter. Base64
and JSON are left out: what one side encodes the other decodes. Plaintexts are bytes.
-/
import PqMsg.Client.Pins
import PqMsg.Handshake.Pqxdh
import PqMsg.Session.TwoParty

namespace PqMsg.Client

open Lib Tlv Handshake Session Ratchet

variable {Secret : Type}

/-! ## Files -/

/-- the keys of a user; public and secret one-time prekeys are separate lists -/
structure KeysFile (Secret : Type) where
  userId : String
  suite : KemAlgorithm
  identityX25519 : DhKeyPair Secret
  signedPrekeyX25519 : DhKeyPair Secret
  pqSignedPrekey : KemKeyPair Secret
  oneTimePrekeysX25519 : List DhPublicKey
  oneTimePrekeysX25519Secret : List Secret
  oneTimePrekeysMlkem768 : List Bytes
  oneTimePrekeysMlkem768Secret : List Secret

structure SessionFile (Secret : Type) where
  version : ℕ
  userId : String
  peerUserId : String
  suite : KemAlgorithm
  snapshot : SessionSnapshot Secret

structure SendResult (Secret : Type) where
  messageBytes : Bytes
  session : SessionFile Secret
  usedHandshake : Bool

/-- `updatedKeys` is returned by the web client only; the Android client keeps its keys -/
structure DecryptResult (Secret : Type) where
  plaintext : Bytes
  session : SessionFile Secret
  usedHandshake : Bool
  updatedKeys : KeysFile Secret

inductive BindingError where
  | text (message : String)
  | core (e : CoreError)
deriving DecidableEq

/-! ## Bundles -/

/-- the key material of a bundle response -/
structure ServerBundle where
  userId : String
  identityX25519Pub : DhPublicKey
  identitySigPub : Bytes
  identityPqSigPub : Bytes
  signedPrekeyX25519Pub : DhPublicKey
  sigOverSpk : Bytes
  pqSignedPrekeyPubMlkem768 : Bytes
  sigOverPqspk : Bytes
  pqSigOverSpk : Bytes
  pqSigOverPqspk : Bytes
  oneTimePrekeyX25519 : Option DhPublicKey
  oneTimePrekeyMlkem768 : Option Bytes
deriving DecidableEq

/-- a device's prekeys at the server: a bundle without one-time prekeys, and those not consumed yet, by id -/
structure PublishedPrekeys where
  bundle : ServerBundle
  oneTimePrekeysX25519 : List DhPublicKey
  oneTimePrekeysMlkem768 : List Bytes

/-- `load_bundle_response`: one-time prekeys are given out while both inventories exceed the reserve -/
def loadBundleResponse (reserveCount : ℕ) (p : PublishedPrekeys) : ServerBundle × PublishedPrekeys :=
  if p.oneTimePrekeysX25519.length > reserveCount ∧ p.oneTimePrekeysMlkem768.length > reserveCount then
    ({ p.bundle with
        oneTimePrekeyX25519 := p.oneTimePrekeysX25519.head?
        oneTimePrekeyMlkem768 := p.oneTimePrekeysMlkem768.head? },
      { p with
        oneTimePrekeysX25519 := p.oneTimePrekeysX25519.tail
        oneTimePrekeysMlkem768 := p.oneTimePrekeysMlkem768.tail })
  else ({ p.bundle with oneTimePrekeyX25519 := none, oneTimePrekeyMlkem768 := none }, p)

def bundleToCore (bundle : ServerBundle) (suite : KemAlgorithm) : PreKeyBundle where
  protocolVersion := protocolVersionV1
  suite := suite
  ownerId := bundle.userId
  identityKey := bundle.identityX25519Pub
  signedPrekey := bundle.signedPrekeyX25519Pub
  pqSignedPrekey := bundle.pqSignedPrekeyPubMlkem768
  spkSignature := bundle.sigOverSpk
  pqspkSignature := bundle.sigOverPqspk
  signaturePublicKey := bundle.identitySigPub
  oneTimePrekey := bundle.oneTimePrekeyX25519
  oneTimePqPrekey := bundle.oneTimePrekeyMlkem768
  pqSigPublicKey := some bundle.identityPqSigPub
  pqSpkSignature := some bundle.pqSigOverSpk
  pqPqspkSignature := some bundle.pqSigOverPqspk

/-! ## Sending -/

/-- the bound on skipped keys that both clients pass -/
def clientMaxSkipped : ℕ := 512

def mandatoryPqRatchetState (localPqPrekey : KemKeyPair Secret) (remotePublicKey : Bytes) : PqRatchetState Secret :=
  ⟨defaultPqRatchetInterval, localPqPrekey, remotePublicKey, [], defaultPqRatchetKeyHistory, 0⟩

def contextVersion : UInt16 := 1
def tagContextVersion : UInt16 := criticalType 0x1201
def tagSenderId : UInt16 := criticalType 0x1202
def tagRecipientId : UInt16 := criticalType 0x1203

def conversationAssociatedData (senderUserId recipientUserId : String) : Except CoreError Bytes :=
  Tlv.encode [⟨tagContextVersion, be16 contextVersion⟩, ⟨tagSenderId, utf8 senderUserId⟩,
    ⟨tagRecipientId, utf8 recipientUserId⟩]

/-- `name 'a' does not match what 'b'` -/
def mismatch (name a what b : String) : BindingError :=
  .text (name ++ " '" ++ a ++ "' does not match " ++ what ++ " '" ++ b ++ "'")

section

variable (H : HandshakePrims Secret) (kem : Kem Secret) (keys : KeysFile Secret)

/-- the initiator's session after the handshake -/
def initiatorSession (bundle : PreKeyBundle) (sessionKey : Secret) : SessionState Secret :=
  fromHandshakeWithPqRatchet H.toPrimitives .initiator sessionKey keys.identityX25519 bundle.signedPrekey
    bundle.suite.suiteId Wire.wireVersion clientMaxSkipped (mandatoryPqRatchetState keys.pqSignedPrekey bundle.pqSignedPrekey)
    kem

/-- `wasm_initiate_session_and_encrypt` -/
def wasmInitiateSessionAndEncrypt (rng : InitiateRng Secret) (keys : KeysFile Secret) (fromUserId peerUserId : String)
    (peerBundle : ServerBundle) (plaintext : Bytes) : Except BindingError (SendResult Secret) :=
  if keys.userId ≠ fromUserId then .error (mismatch "from_user_id" fromUserId "keys user" keys.userId)
  else do
    let prekeyBundle := bundleToCore peerBundle keys.suite
    (validateHybridPrekeyBundleSignatures H prekeyBundle).mapError .core
    let initiator ← (aliceInitiate H kem rng fromUserId peerUserId keys.identityX25519 keys.pqSignedPrekey.publicKey
      prekeyBundle plaintext).mapError .core
    let initialEncoded ← initiator.initialMessage.encode.mapError .core
    return ⟨initialEncoded, ⟨1, fromUserId, peerUserId, keys.suite,
      (initiatorSession H kem keys prekeyBundle initiator.sessionKey).snapshot⟩, true⟩

/-- `initiate_session_and_encrypt` of the Android library -/
def initiateSessionAndEncrypt (rng : InitiateRng Secret) (keys : KeysFile Secret) (fromUserId peerUserId : String)
    (peerBundle : ServerBundle) (plaintext : Bytes) (suiteOverride : Option KemAlgorithm) :
    Except BindingError (SendResult Secret) :=
  wasmInitiateSessionAndEncrypt H kem rng { keys with suite := suiteOverride.getD keys.suite } fromUserId peerUserId
    peerBundle plaintext

/-- how each client starts a session with `peerUserId`: the web client names the peer as the bundle does -/
def startSession (kind : ClientKind) (rng : InitiateRng Secret) (keys : KeysFile Secret) (peerUserId : String)
    (bundle : ServerBundle) (plaintext : Bytes) : Except BindingError (SendResult Secret) :=
  match kind with
  | .web => wasmInitiateSessionAndEncrypt H kem rng keys keys.userId bundle.userId bundle plaintext
  | .android => initiateSessionAndEncrypt H kem rng keys keys.userId peerUserId bundle plaintext none

/-- `restore_session` -/
def restoreSession (file : SessionFile Secret) : SessionState Secret := fromSnapshotWithKem file.snapshot (some kem)

/-- `wasm_encrypt_with_session` and `encrypt_with_session` -/
def encryptWithSession (rng : EncryptRng) (file : SessionFile Secret) (senderUserId peerUserId : String)
    (plaintext : Bytes) : Except BindingError (SendResult Secret) :=
  if file.userId ≠ senderUserId then .error (mismatch "sender_user_id" senderUserId "session user" file.userId)
  else if file.peerUserId ≠ peerUserId then .error (mismatch "peer_user_id" peerUserId "session peer" file.peerUserId)
  else do
    let ad ← (conversationAssociatedData senderUserId peerUserId).mapError .core
    let encrypted := (restoreSession kem file).encrypt H.toPrimitives rng plaintext ad
    let wire ← encrypted.2.mapError .core
    return ⟨wire, { file with snapshot := encrypted.1.snapshot }, false⟩

/-! ## Receiving -/

/-- the one-time prekeys that `candidate_one_time_prekey` offers, in order -/
def candidateOneTimePrekeys : List (DhKeyPair Secret) :=
  List.zipWith DhKeyPair.mk keys.oneTimePrekeysX25519 keys.oneTimePrekeysX25519Secret

/-- the first candidate, counted from `idx` on, with which `receive` succeeds -/
def tryCandidates (receive : DhKeyPair Secret → Except CoreError (ResponderOutput Secret)) :
    ℕ → List (DhKeyPair Secret) → Option (ℕ × ResponderOutput Secret)
  | _, [] => none
  | idx, candidate :: rest =>
    match receive candidate with
    | .ok next => some (idx, next)
    | .error _ => tryCandidates receive (idx + 1) rest

def removeConsumedOneTimeKeys (index : ℕ) : KeysFile Secret :=
  { keys with
    oneTimePrekeysX25519 := keys.oneTimePrekeysX25519.eraseIdx index
    oneTimePrekeysX25519Secret := keys.oneTimePrekeysX25519Secret.eraseIdx index
    oneTimePrekeysMlkem768 := keys.oneTimePrekeysMlkem768.eraseIdx index
    oneTimePrekeysMlkem768Secret := keys.oneTimePrekeysMlkem768Secret.eraseIdx index }

variable (initial : InitialMessage)

/-- `bob_receive` with the keys of a file -/
def receiveWith (otpk : Option (DhKeyPair Secret)) : Except CoreError (ResponderOutput Secret) :=
  bobReceive H kem keys.identityX25519 keys.signedPrekeyX25519 keys.pqSignedPrekey otpk initial

/-- the web client: without a one-time prekey, then with each one it has -/
def wasmReceiveInitial : Except CoreError (ResponderOutput Secret × KeysFile Secret) :=
  match receiveWith H kem keys initial none with
  | .ok responder => .ok (responder, keys)
  | .error e =>
    match tryCandidates (fun k => receiveWith H kem keys initial (some k)) 0 (candidateOneTimePrekeys keys) with
    | some (index, responder) => .ok (responder, removeConsumedOneTimeKeys keys index)
    | none => .error e

/-- the Android client: only without a one-time prekey -/
def androidReceiveInitial : Except CoreError (ResponderOutput Secret × KeysFile Secret) :=
  (receiveWith H kem keys initial none).map fun responder => (responder, keys)

/-- the responder's session after the handshake -/
def responderSession (sessionKey : Secret) : SessionState Secret :=
  fromHandshakeWithPqRatchet H.toPrimitives .responder sessionKey keys.signedPrekeyX25519 initial.ikAPub initial.suiteId
    Wire.wireVersion clientMaxSkipped (mandatoryPqRatchetState keys.pqSignedPrekey initial.pqRatchetPubA) kem

variable (unsupported : String)

/-- `suite_id_to_label` and `suite_from_suite_id`, which differ in the text of the error -/
def suiteOfId (suiteId : UInt16) : Except BindingError KemAlgorithm :=
  (KemAlgorithm.fromSuiteId suiteId).mapError fun _ => .text (unsupported ++ " '" ++ toString suiteId ++ "'")

/-- an initial message, the reading of its payload being the parameter -/
def decryptInitial (receive : KeysFile Secret → InitialMessage → Except CoreError (ResponderOutput Secret × KeysFile Secret))
    (keys : KeysFile Secret) (recipientUserId senderUserId : String) (initial : InitialMessage) :
    Except BindingError (DecryptResult Secret) :=
  if initial.senderId ≠ senderUserId then
    .error (mismatch "sender_user_id" senderUserId "handshake sender" initial.senderId)
  else if initial.recipientId ≠ recipientUserId then
    .error (mismatch "recipient_user_id" recipientUserId "handshake recipient" initial.recipientId)
  else do
    let suite ← suiteOfId unsupported initial.suiteId
    let (responder, updatedKeys) ← (receive keys initial).mapError .core
    return ⟨responder.plaintext, ⟨1, recipientUserId, senderUserId, suite,
      (responderSession H kem keys initial responder.sessionKey).snapshot⟩, true, updatedKeys⟩

/-- any other message -/
def decryptWithSession (newSecret : Secret) (keys : KeysFile Secret) (recipientUserId senderUserId : String)
    (messageBytes : Bytes) (existingSession : Option (SessionFile Secret)) : Except BindingError (DecryptResult Secret) :=
  match existingSession with
  | none => .error (.text "existing_session_json is required for non-handshake messages")
  | some file =>
    if file.userId ≠ recipientUserId then .error (mismatch "recipient_user_id" recipientUserId "session user" file.userId)
    else if file.peerUserId ≠ senderUserId then
      .error (mismatch "sender_user_id" senderUserId "session peer" file.peerUserId)
    else do
      let ad ← (conversationAssociatedData senderUserId recipientUserId).mapError .core
      let decrypted := (restoreSession kem file).decrypt H.toPrimitives newSecret messageBytes ad
      let plaintext ← decrypted.2.mapError .core
      return ⟨plaintext, { file with snapshot := decrypted.1.snapshot }, false, keys⟩

/-- the common shape of `wasm_decrypt_message` and `decrypt_message` -/
def decryptMessageWith (receive : KeysFile Secret → InitialMessage → Except CoreError (ResponderOutput Secret × KeysFile Secret))
    (newSecret : Secret) (keys : KeysFile Secret) (recipientUserId senderUserId : String) (messageBytes : Bytes)
    (existingSession : Option (SessionFile Secret)) : Except BindingError (DecryptResult Secret) :=
  if keys.userId ≠ recipientUserId then
    .error (mismatch "recipient_user_id" recipientUserId "keys user" keys.userId)
  else
    match InitialMessage.decode messageBytes with
    | .ok initial => decryptInitial H kem unsupported receive keys recipientUserId senderUserId initial
    | .error _ => decryptWithSession H kem newSecret keys recipientUserId senderUserId messageBytes existingSession

def wasmDecryptMessage := decryptMessageWith H kem "unsupported suite id" (wasmReceiveInitial H kem)

def decryptMessage := decryptMessageWith H kem "unsupported suite_id" (androidReceiveInitial H kem)

/-- how each client reads a message -/
def clientDecrypt (kind : ClientKind) (newSecret : Secret) (keys : KeysFile Secret) (senderUserId : String)
    (messageBytes : Bytes) (existingSession : Option (SessionFile Secret)) : Except BindingError (DecryptResult Secret) :=
  match kind with
  | .web => wasmDecryptMessage H kem newSecret keys keys.userId senderUserId messageBytes existingSession
  | .android => decryptMessage H kem newSecret keys keys.userId senderUserId messageBytes existingSession

variable {H kem}

/-- **The two ways to read a message**: as an initial message, or with the stored session -/
lemma decryptMessageWith_ok {unsupported : String}
    {receive : KeysFile Secret → InitialMessage → Except CoreError (ResponderOutput Secret × KeysFile Secret)}
    {newSecret : Secret} {keys : KeysFile Secret} {recipientUserId senderUserId : String} {messageBytes : Bytes}
    {existingSession : Option (SessionFile Secret)} {r : DecryptResult Secret}
    (h : decryptMessageWith H kem unsupported receive newSecret keys recipientUserId senderUserId messageBytes
      existingSession = .ok r) :
    (∃ initial responder updatedKeys suite, InitialMessage.decode messageBytes = .ok initial ∧
      initial.senderId = senderUserId ∧ initial.recipientId = recipientUserId ∧
      receive keys initial = .ok (responder, updatedKeys) ∧
      r = ⟨responder.plaintext, ⟨1, recipientUserId, senderUserId, suite,
        (responderSession H kem keys initial responder.sessionKey).snapshot⟩, true, updatedKeys⟩) ∨
    (∃ e file ad s, InitialMessage.decode messageBytes = .error e ∧ existingSession = some file ∧
      file.userId = recipientUserId ∧ file.peerUserId = senderUserId ∧
      conversationAssociatedData senderUserId recipientUserId = .ok ad ∧
      (restoreSession kem file).decrypt H.toPrimitives newSecret messageBytes ad = (s, .ok r.plaintext) ∧
      r = ⟨r.plaintext, { file with snapshot := s.snapshot }, false, keys⟩) := by
  unfold decryptMessageWith at h
  split_ifs at h with huser
  cases hd : InitialMessage.decode messageBytes with
  | ok initial =>
    left
    simp only [hd, decryptInitial] at h
    split_ifs at h with hs hr
    obtain ⟨suite, -, h⟩ := bind_ok.1 h
    obtain ⟨⟨responder, updatedKeys⟩, hreceive, h⟩ := bind_ok.1 h
    cases h
    exact ⟨initial, responder, updatedKeys, suite, rfl, not_not.1 hs, not_not.1 hr, mapError_ok.1 hreceive, rfl⟩
  | error e =>
    right
    simp only [hd, decryptWithSession] at h
    cases hsession : existingSession with
    | none =>
      rw [hsession] at h
      cases h
    | some file =>
      simp only [hsession] at h
      split_ifs at h with hu hp
      obtain ⟨ad, had, h⟩ := bind_ok.1 h
      obtain ⟨plaintext, hplain, h⟩ := bind_ok.1 h
      cases h
      exact ⟨e, file, ad, _, rfl, rfl, not_not.1 hu, not_not.1 hp, mapError_ok.1 had, Prod.ext rfl (mapError_ok.1 hplain), rfl⟩

/-- a message made with a stored session -/
lemma encryptWithSession_ok {rng : EncryptRng} {file : SessionFile Secret} {senderUserId peerUserId : String}
    {plaintext : Bytes} {r : SendResult Secret}
    (h : encryptWithSession H kem rng file senderUserId peerUserId plaintext = .ok r) :
    ∃ ad s, (restoreSession kem file).encrypt H.toPrimitives rng plaintext ad = (s, .ok r.messageBytes) ∧
      r = ⟨r.messageBytes, { file with snapshot := s.snapshot }, false⟩ := by
  unfold encryptWithSession at h
  split_ifs at h with hu hp
  obtain ⟨ad, -, h⟩ := bind_ok.1 h
  obtain ⟨wire, hwire, h⟩ := bind_ok.1 h
  cases h
  exact ⟨ad, _, Prod.ext rfl (mapError_ok.1 hwire), rfl⟩

end

end PqMsg.Client
