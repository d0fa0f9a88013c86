/-
Opening a sealed message at the clients (`wasm_open_sealed_message_with_sender_cert` of `wasm_bindings.rs`,
`open_sealed_message_with_sender_cert` of `pqmsg-android`).

Both pass the issuer key of the server to the core library and refuse a message without certificate. Everything else is up to
whoever made the bytes, and for envelopes of version 1 to whoever supplied the sender's key.

- `opened_certified`: an opened message has a certificate of the server that has not expired, names the user and device in it,
  and its inner ciphertext was made under the pairwise key of the recipient and the certified identity key, and under no other.

- `seal_round_trip`: what is sealed is opened with ids, payload and certificate; with a certified key that leads to another
  pairwise key opening fails.
- `other_key_opened`: another public key need not lead to another key.

Assumed of the AEAD: what opens under a key was made under it (`AeadAuthentic`), and opens under no other (`AeadBinds`).
Base64 and JSON are already decoded.
-/
import PqMsg.Client.Direct
import PqMsg.Sealed.Envelope

namespace PqMsg.Client

open Tlv Handshake Sealed Option PqMsg.Sample

variable {Secret : Type}

/-- `WasmOpenedCertifiedSealedMessage`, and `OpenedCertifiedSealedMessage` of the Android library -/
structure OpenedTransport where
  senderUserId : String
  senderDeviceId : String
  payloadMessageBytes : Bytes
deriving DecidableEq

/-- `VerifyingKey::from_bytes`: which byte strings are keys, and the text of its error -/
structure VerifyingKeys where
  valid : ByteArr 32 → Bool
  errorText : String

section

variable (H : HandshakePrims Secret)

/-- the common shape of the two functions; `invalidKey` is the error for an issuer key that is none -/
def openSealedWith (valid : ByteArr 32 → Bool) (invalidKey : String) (keys : KeysFile Secret)
    (senderIdentityX25519Pub : Option DhPublicKey) (sealedMessageBytes : Bytes) (serverIssuerEd25519Pub : ByteArr 32)
    (nowUnixSecs : UInt64) : Except BindingError OpenedTransport :=
  if valid serverIssuerEd25519Pub = false then .error (.text invalidKey)
  else do
    let opened ← (openMessageWithCert H keys.identityX25519.secret sealedMessageBytes keys.suite.suiteId keys.userId
      (some serverIssuerEd25519Pub) nowUnixSecs senderIdentityX25519Pub).mapError .core
    if opened.senderCert = none then .error (.text "sealed sender certificate missing from transport envelope")
    else .ok ⟨opened.senderUserId, opened.senderDeviceId, opened.payload⟩

def wasmOpenSealedMessageWithSenderCert (K : VerifyingKeys) := openSealedWith H K.valid K.errorText

def openSealedMessageWithSenderCert (K : VerifyingKeys) :=
  openSealedWith H K.valid "invalid server issuer ed25519 public key"

def clientOpenSealed (K : VerifyingKeys) (kind : ClientKind) (keys : KeysFile Secret)
    (senderIdentityX25519Pub : Option DhPublicKey) (sealedMessageBytes : Bytes) (serverIssuerEd25519Pub : ByteArr 32)
    (nowUnixSecs : UInt64) : Except BindingError OpenedTransport :=
  match kind with
  | .web => wasmOpenSealedMessageWithSenderCert H K keys senderIdentityX25519Pub sealedMessageBytes serverIssuerEd25519Pub
      nowUnixSecs
  | .android => openSealedMessageWithSenderCert H K keys senderIdentityX25519Pub sealedMessageBytes serverIssuerEd25519Pub
      nowUnixSecs

end

variable {H : HandshakePrims Secret} {K : VerifyingKeys} {kind : ClientKind} {keys : KeysFile Secret}
  {legacy : Option DhPublicKey} {bytes : Bytes} {issuer : ByteArr 32} {now : UInt64} {opened : OpenedTransport}

lemma clientOpenSealed_ok : clientOpenSealed H K kind keys legacy bytes issuer now = .ok opened ↔ K.valid issuer = true ∧
    ∃ cert, openMessageWithCert H keys.identityX25519.secret bytes keys.suite.suiteId keys.userId (some issuer) now legacy =
      .ok ⟨opened.senderUserId, opened.senderDeviceId, opened.payloadMessageBytes, some cert⟩ := by
  obtain ⟨invalidKey, hwith⟩ : ∃ invalidKey, clientOpenSealed H K kind keys legacy bytes issuer now =
      openSealedWith H K.valid invalidKey keys legacy bytes issuer now := by
    cases kind <;> exact ⟨_, rfl⟩
  simp only [hwith, openSealedWith, check_ok, bind_ok, mapError_ok, Bool.not_eq_false, Except.ok.injEq]
  refine and_congr_right fun _ => ?_
  constructor
  · rintro ⟨o, ho, hcert, rfl⟩
    obtain ⟨cert, hcert⟩ := ne_none_iff_exists'.1 hcert
    exact ⟨cert, by rw [ho, ← hcert]⟩
  · rintro ⟨cert, ho⟩
    exact ⟨_, ho, by simp, rfl⟩

/-! ## The binding -/

/-- ideal AEAD: what opens under a key was made under it -/
def AeadAuthentic (P : Primitives Secret) : Prop :=
  ∀ k n ad c p, P.aeadDecrypt k n ad c = some p → P.aeadEncrypt k n ad p = some c

/-- the certificate is in the inner plaintext -/
def Carries (inner : Bytes) (cert : SenderCertificate) : Prop :=
  ∃ rs certBytes, Tlv.encode rs = .ok inner ∧ (⟨innerTagSenderCert, certBytes⟩ : TlvRecord) ∈ rs ∧
    SenderCertificate.decode certBytes = .ok cert

/-- what stands behind an opened message -/
structure Certified (H : HandshakePrims Secret) (keys : KeysFile Secret) (bytes : Bytes) (issuer : ByteArr 32) (now : UInt64)
    (opened : OpenedTransport) (envelope : SealedEnvelope) (inner : Bytes) (cert : SenderCertificate) : Prop where
  decoded : SealedEnvelope.decode bytes = .ok envelope
  carried : ∀ other, Carries inner other ↔ other = cert
  signed : ∃ body, cert.signingBody = .ok body ∧ ∃ signature : ByteArr 64, cert.serverSignature = signature.1 ∧
    H.ed25519Verify issuer body signature = true
  unexpired : now.toNat ≤ cert.expiresAt.toNat + 300
  user : opened.senderUserId = cert.senderUserId
  device : opened.senderDeviceId = cert.senderDeviceId
  made : ∃ ad, H.aeadEncrypt (derivePairwiseSealedSenderKey H keys.identityX25519.secret cert.senderIdentityPub
    keys.suite.suiteId) envelope.aeadNonce ad inner = some envelope.ciphertext
  onlyKey : ∀ key ad plaintext, H.aeadEncrypt key envelope.aeadNonce ad plaintext = some envelope.ciphertext →
    key = derivePairwiseSealedSenderKey H keys.identityX25519.secret cert.senderIdentityPub keys.suite.suiteId

/-- strict decoding leaves one record of a type, so one certificate -/
lemma carries_iff {inner : Bytes} {rs : List TlvRecord} (hrs : decodeStrict inner innerKnownTypes = .ok rs)
    {certBytes : Bytes} (hget : recordMap rs innerTagSenderCert = some certBytes) {cert other : SenderCertificate}
    (hcert : SenderCertificate.decode certBytes = .ok cert) : Carries inner other ↔ other = cert := by
  obtain ⟨hencode, hnodup, -⟩ := (decodeStrict_iff inner rs).1 hrs
  constructor
  · rintro ⟨rs', certBytes', hencode', hmem, hother⟩
    obtain rfl : rs = rs' := encode_injective hencode hencode'
    have hget' : recordMap rs innerTagSenderCert = some certBytes' := recordMap_of_mem hnodup hmem
    obtain rfl : certBytes = certBytes' := some.inj (hget.symm.trans hget')
    exact Except.ok.inj (hother.symm.trans hcert)
  · rintro rfl
    exact ⟨rs, certBytes, hencode, recordMap_some hget, hcert⟩

/-- **An opened message is certified**, for any bytes, keys, time and sender key supplied with the message -/
theorem opened_certified (hauthentic : AeadAuthentic H.toPrimitives) (hbinds : AeadBinds H.toPrimitives) (K : VerifyingKeys)
    (kind : ClientKind) (keys : KeysFile Secret) (legacy : Option DhPublicKey) (bytes : Bytes) (issuer : ByteArr 32)
    (now : UInt64) (opened : OpenedTransport) (h : clientOpenSealed H K kind keys legacy bytes issuer now = .ok opened) :
    ∃ envelope inner cert, Certified H keys bytes issuer now opened envelope inner cert := by
  obtain ⟨-, cert, hopen⟩ := clientOpenSealed_ok.1 h
  obtain ⟨envelope, identity, ad, inner, rs, ho⟩ := openMessageWithCert_ok hopen
  obtain ⟨-, hdecode, -, hsuite, -⟩ := readEnvelope_ok.1 ho.read
  obtain ⟨certBytes, hget, hdecodeCert, hvalid, huser, hdevice, hidentity⟩ := ho.certificate rfl
  obtain ⟨hexpiry, hsigned⟩ := validateSenderCertificate_ok.1 hvalid
  have hopens := ho.decrypted
  rw [← hidentity, hsuite] at hopens
  have hmade := hauthentic _ _ _ _ _ hopens
  refine ⟨envelope, inner, cert, hdecode, fun other => carries_iff ho.records hget hdecodeCert, hsigned,
    ?_, huser.symm, hdevice.symm, ⟨ad, hmade⟩, fun key ad' plaintext hother => (hbinds _ _ _ _ _ hother _ _ _ hopens).1.symm⟩
  -- wrapping makes the bound smaller only
  have hsum : now.toNat ≤ (cert.expiresAt + senderCertClockSkewSecs).toNat := hexpiry
  rw [UInt64.toNat_add] at hsum
  exact hsum.trans (Nat.mod_le _ _)

/-! ## A sample message -/

namespace Sample

open Handshake.Sample

lemma aeadAuthentic : AeadAuthentic handshakePrims.toPrimitives := by
  intro k n ad c p h
  simp only [handshakePrims, primitives, ite_none_right_eq_some, some.injEq] at h ⊢
  obtain ⟨⟨rest, rfl⟩, rfl⟩ := h
  rw [List.drop_left]

def sealedKeys (userId : String) (identity : UInt32) : KeysFile UInt32 where
  userId := userId
  suite := .mlKem768
  identityX25519 := generateKeypair handshakePrims.toPrimitives identity
  signedPrekeyX25519 := generateKeypair handshakePrims.toPrimitives (identity + 1)
  pqSignedPrekey := ⟨[9], 9⟩
  oneTimePrekeysX25519 := []
  oneTimePrekeysX25519Secret := []
  oneTimePrekeysMlkem768 := []
  oneTimePrekeysMlkem768Secret := []

/-- a certificate for the phone of `userId`; the sample signatures all verify -/
def certificate (userId : String) (identity : UInt32) : SenderCertificate where
  senderUserId := userId
  senderDeviceId := "phone"
  senderIdentityPub := handshakePrims.dhPublic identity
  expiresAt := 1000
  serverSignature := List.replicate 64 1

def sealRng : SealRng UInt32 := ⟨.replicate 12 1, 5, .replicate 12 2⟩

/-- a payload sealed for `bob` by the holder of an identity key, with a certificate of that key -/
def sealedFor (userId : String) (identity : UInt32) (payload : Bytes) : Bytes :=
  match sealMessageWithCert handshakePrims sealRng identity (handshakePrims.dhPublic 3) 1 "bob" userId "phone" payload
    (certificate userId identity) with
  | .ok bytes => bytes
  | .error _ => []

def verifyingKeys : VerifyingKeys := ⟨fun _ => true, ""⟩

end Sample

/-- alice seals for bob, and bob opens at the last moment of the certificate -/
theorem opened_certified_alice :
    clientOpenSealed Handshake.Sample.handshakePrims Sample.verifyingKeys .web (Sample.sealedKeys "bob" 3) none
      (Sample.sealedFor "alice" 2 [7]) (.replicate 32 1) 1300 = .ok ⟨"alice", "phone", [7]⟩ ∧
    ∃ envelope inner cert, Certified Handshake.Sample.handshakePrims (Sample.sealedKeys "bob" 3) (Sample.sealedFor "alice" 2 [7])
      (.replicate 32 1) 1300 ⟨"alice", "phone", [7]⟩ envelope inner cert := by
  have hopen : clientOpenSealed Handshake.Sample.handshakePrims Sample.verifyingKeys .web (Sample.sealedKeys "bob" 3) none
      (Sample.sealedFor "alice" 2 [7]) (.replicate 32 1) 1300 = .ok ⟨"alice", "phone", [7]⟩ := by
    decide +kernel
  exact ⟨hopen, opened_certified Sample.aeadAuthentic aeadBinds _ _ _ _ _ _ _ _ hopen⟩

/-! ## Round trip -/

section

variable {H : HandshakePrims Secret}

/-- **Sealing round-trips.** For all keys, suites, ids, payloads and certificates that are sealed, and a certificate that is
valid at the time of opening and names the sender: with the public key of the sender's secret in the certificate the recipient
gets ids, payload and certificate; with a key that gives another pairwise key, opening fails. -/
theorem seal_round_trip (hdh : DhCommutes H.toPrimitives) (hA : AeadCorrect H.toPrimitives)
    (hbinds : AeadBinds H.toPrimitives) (hne : AeadNonempty H.toPrimitives) (rng : SealRng Secret)
    (senderSecret recipientSecret : Secret) (suiteId : UInt16) (recipientUserId : String) (payload bytes : Bytes)
    (cert : SenderCertificate) (key : ByteArr 32) (now : UInt64) (legacy : Option DhPublicKey)
    (hcert : validateSenderCertificate H cert key now = .ok ())
    (h : sealMessageWithCert H rng senderSecret (H.dhPublic recipientSecret) suiteId recipientUserId cert.senderUserId
      cert.senderDeviceId payload cert = .ok bytes) :
    (cert.senderIdentityPub = H.dhPublic senderSecret →
      openMessageWithCert H recipientSecret bytes suiteId recipientUserId (some key) now legacy =
        .ok ⟨cert.senderUserId, cert.senderDeviceId, payload, some cert⟩) ∧
    (derivePairwiseSealedSenderKey H recipientSecret cert.senderIdentityPub suiteId ≠
        derivePairwiseSealedSenderKey H senderSecret (H.dhPublic recipientSecret) suiteId →
      openMessageWithCert H recipientSecret bytes suiteId recipientUserId (some key) now legacy = .error .aeadOperation) := by
  obtain ⟨sent, ad, inner, hopen, had, hsealed, hinner⟩ := open_seal hdh hA hne legacy hcert h
  rw [hopen]
  constructor
  · intro hidentity
    refine hinner _ ?_
    rw [hidentity, derivePairwiseSealedSenderKey, hdh]
    exact hsealed
  · intro hkey
    have hnone : H.aeadDecrypt (derivePairwiseSealedSenderKey H recipientSecret cert.senderIdentityPub suiteId) sent.aeadNonce ad
        sent.ciphertext = none := by
      rw [eq_none_iff_forall_ne_some]
      exact fun p hp => hkey (hbinds _ _ _ _ _ hsealed _ _ _ hp).1
    simp [openMessageWithCertInner, had, bind, Except.bind, Aead.decrypt, hnone]

end

namespace Sample

lemma aeadNonempty : AeadNonempty Handshake.Sample.handshakePrims.toPrimitives := by
  intro k n ad p c h
  obtain rfl : envelope k n ad ++ p = c := some.inj h
  simp [envelope]

/-- alice seals for bob with a certificate -/
def sealedWith (cert : SenderCertificate) : Except CoreError Bytes :=
  sealMessageWithCert Handshake.Sample.handshakePrims sealRng 2 (Handshake.Sample.handshakePrims.dhPublic 3) 1 "bob" "alice"
    "phone" [7] cert

/-- a certificate with another public key, which gives the same shared secrets -/
def otherCertificate : SenderCertificate :=
  { certificate "alice" 2 with senderIdentityPub := ⟨2 :: List.replicate 31 0, rfl⟩ }

end Sample

/-- alice's payload comes back with her certificate -/
theorem seal_round_trip_alice :
    ∃ bytes, Sample.sealedWith (Sample.certificate "alice" 2) = .ok bytes ∧
      openMessageWithCert Handshake.Sample.handshakePrims 3 bytes 1 "bob" (some (.replicate 32 1)) 1300 none =
        .ok ⟨"alice", "phone", [7], some (Sample.certificate "alice" 2)⟩ := by
  obtain ⟨bytes, hbytes⟩ := isOk_iff.1 (show (Sample.sealedWith (Sample.certificate "alice" 2)).isOk = true by decide +kernel)
  have hround := seal_round_trip dhCommutes aeadCorrect aeadBinds Sample.aeadNonempty
    Sample.sealRng 2 3 1 "bob" [7] bytes (Sample.certificate "alice" 2) (.replicate 32 1) 1300 none (by decide) hbytes
  exact ⟨bytes, hbytes, hround.1 rfl⟩

/-- **Another public key** need not stop the recipient: the certificate does not carry the sender's public key, and the message
is opened -/
theorem other_key_opened : Sample.otherCertificate.senderIdentityPub ≠ Handshake.Sample.handshakePrims.dhPublic 2 ∧
    validateSenderCertificate Handshake.Sample.handshakePrims Sample.otherCertificate (.replicate 32 1) 1300 = .ok () ∧
    ∃ bytes, Sample.sealedWith Sample.otherCertificate = .ok bytes ∧
      openMessageWithCert Handshake.Sample.handshakePrims 3 bytes 1 "bob" (some (.replicate 32 1)) 1300 none =
        .ok ⟨"alice", "phone", [7], some Sample.otherCertificate⟩ := by
  obtain ⟨bytes, hbytes⟩ := isOk_iff.1 (show (Sample.sealedWith Sample.otherCertificate).isOk = true by decide +kernel)
  have hopen : (Sample.sealedWith Sample.otherCertificate).toOption.map (fun bytes => openMessageWithCert
      Handshake.Sample.handshakePrims 3 bytes 1 "bob" (some (.replicate 32 1)) 1300 none) =
        some (.ok ⟨"alice", "phone", [7], some Sample.otherCertificate⟩) := by decide +kernel
  rw [hbytes] at hopen
  exact ⟨by decide, by decide, bytes, hbytes, some.inj hopen⟩

end PqMsg.Client
