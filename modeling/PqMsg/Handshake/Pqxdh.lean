/-
The handshake itself (`handshake.rs`, with `alg.rs` and `keys.rs`): `aliceInitiate` against a prekey bundle and `bobReceive`
of the initial message.

Both sides hash three DH results, a fourth one if a one-time prekey is used, and the KEM secret into the session key. The
initial message does not say which one-time prekey was used (`otpk_id` is the owner's user id), so the responder has to be
given the right one.

- `bobReceive_same`: with the one-time prekey of the bundle (or without, if the bundle has none) the responder gets payload
  and session key.
- `bobReceive_sound`: whatever one-time prekey it is given, what the responder accepts is that payload under that session key.
- `bobReceive_missing`: without the one-time prekey of the bundle the responder rejects the message.
- `handshake_agreement`: both sides agree exactly if the responder is given the bundle's one-time secret.
- `otpkId_same_owner`, `otpkId_ambiguous`: the `otpk_id` of two messages to one owner is the same, for any two one-time prekeys.

Secret keys are given with their right length, so `require_secret_key` does not fail. `concat` is the concatenation of the
secrets that are hashed.
-/
import Mathlib.Tactic
import PqMsg.Core.Aead
import PqMsg.Handshake.Message

namespace PqMsg.Handshake

open List Option PqMsg.Sample

variable {Secret : Type}

def infoSk : String := "pqmsg-pqxdh-v1"

/-- `PROTOCOL_VERSION_V1` -/
def protocolVersionV1 : UInt16 := 1

structure HandshakePrims (Secret : Type) extends Primitives Secret where
  concat : List Secret → Secret
  /-- public key, message, signature; `false` also for an invalid public key -/
  ed25519Verify : ByteArr 32 → Bytes → ByteArr 64 → Bool
  /-- `PqSignatureProvider::verify` of ML-DSA-65 -/
  mlDsaVerify : Bytes → Bytes → Bytes → Except CoreError Unit

/-! ## Suites -/

inductive KemAlgorithm where
  | mlKem768
  | kyber768Alias
deriving DecidableEq, Repr

/-- `AlgorithmSuite::suite_id`; the other algorithms of a suite have one choice each -/
def KemAlgorithm.suiteId : KemAlgorithm → UInt16
  | .mlKem768 => 1
  | .kyber768Alias => 2

/-- `AlgorithmSuite::from_suite_id` -/
def KemAlgorithm.fromSuiteId (suiteId : UInt16) : Except CoreError KemAlgorithm :=
  if suiteId = 1 then .ok .mlKem768
  else if suiteId = 2 then .ok .kyber768Alias
  else .error (.unsupportedAlgorithm "suite.id")

@[simp] lemma KemAlgorithm.fromSuiteId_suiteId (a : KemAlgorithm) : fromSuiteId a.suiteId = .ok a := by
  cases a <;> rfl

/-! ## Bundles -/

structure PreKeyBundle where
  protocolVersion : UInt16
  suite : KemAlgorithm
  ownerId : String
  identityKey : DhPublicKey
  signedPrekey : DhPublicKey
  pqSignedPrekey : Bytes
  spkSignature : Bytes
  pqspkSignature : Bytes
  signaturePublicKey : Bytes
  oneTimePrekey : Option DhPublicKey
  oneTimePqPrekey : Option Bytes
  pqSigPublicKey : Option Bytes
  pqSpkSignature : Option Bytes
  pqPqspkSignature : Option Bytes
deriving DecidableEq

section

variable (H : HandshakePrims Secret)

/-- `Ed25519SignatureVerifier` of the clients -/
def verifyEd25519 (publicKey message signature : Bytes) : Except CoreError Unit := do
  let publicKey ← Wire.parseArr 32 publicKey "signature.public_key"
  let signature ← Wire.parseArr 64 signature "signature.signature"
  if H.ed25519Verify publicKey message signature then .ok () else .error .signatureVerificationFailed

def validatePrekeyBundleSignatures (bundle : PreKeyBundle) : Except CoreError Unit := do
  let spkMessage ← signedPrekeySignatureMessage bundle.protocolVersion bundle.signedPrekey
  verifyEd25519 H bundle.signaturePublicKey spkMessage bundle.spkSignature
  let pqspkMessage ← pqSignedPrekeySignatureMessage bundle.protocolVersion bundle.pqSignedPrekey
  verifyEd25519 H bundle.signaturePublicKey pqspkMessage bundle.pqspkSignature

/-- `ok_or(CoreError::MissingField(…))` -/
def requireField (o : Option Bytes) (field : String) : Except CoreError Bytes :=
  match o with
  | some v => .ok v
  | none => .error (.missingField field)

def validatePqPrekeyBundleSignatures (bundle : PreKeyBundle) : Except CoreError Unit := do
  let pqPk ← requireField bundle.pqSigPublicKey "prekey_bundle.pq_sig_public_key"
  let pqSpkSig ← requireField bundle.pqSpkSignature "prekey_bundle.pq_spk_signature"
  let pqPqspkSig ← requireField bundle.pqPqspkSignature "prekey_bundle.pq_pqspk_signature"
  let spkMessage ← signedPrekeySignatureMessage bundle.protocolVersion bundle.signedPrekey
  H.mlDsaVerify pqPk spkMessage pqSpkSig
  let pqspkMessage ← pqSignedPrekeySignatureMessage bundle.protocolVersion bundle.pqSignedPrekey
  H.mlDsaVerify pqPk pqspkMessage pqPqspkSig

def validateHybridPrekeyBundleSignatures (bundle : PreKeyBundle) : Except CoreError Unit := do
  validatePrekeyBundleSignatures H bundle
  validatePqPrekeyBundleSignatures H bundle

/-! ## The two sides -/

/-- the key derivation both sides share; `dh4` is the one-time prekey contribution -/
def deriveSessionKey (dh1 dh2 dh3 : Secret) (dh4 : Option Secret) (ssPq : Secret) : Secret :=
  hkdfSha256_32 H.toPrimitives (H.concat ([dh1, dh2, dh3] ++ dh4.toList ++ [ssPq])) none infoSk

/-- what `alice_initiate` draws: the ephemeral DH secret, KEM randomness and the nonce -/
structure InitiateRng (Secret : Type) where
  ephemeral : Secret
  encaps : Bytes
  nonce : Nonce

structure InitiatorOutput (Secret : Type) where
  initialMessage : InitialMessage
  sessionKey : Secret

structure ResponderOutput (Secret : Type) where
  plaintext : Bytes
  sessionKey : Secret

def aliceInitiate (kem : Kem Secret) (rng : InitiateRng Secret) (aliceId bobId : String) (aliceIdentity : DhKeyPair Secret)
    (alicePqRatchetPublicKey : Bytes) (bobBundle : PreKeyBundle) (payload : Bytes) :
    Except CoreError (InitiatorOutput Secret) :=
  if bobBundle.protocolVersion ≠ protocolVersionV1 then .error (.unsupportedAlgorithm "protocol.version")
  else do
    let suiteId := bobBundle.suite.suiteId
    validatePrekeyBundleSignatures H bobBundle
    let aliceEk := generateKeypair H.toPrimitives rng.ephemeral
    let kemEncapsulation ← kem.encapsulate bobBundle.pqSignedPrekey rng.encaps
    let dh1 := H.diffieHellman aliceIdentity.secret bobBundle.signedPrekey
    let dh2 := H.diffieHellman aliceEk.secret bobBundle.identityKey
    let dh3 := H.diffieHellman aliceEk.secret bobBundle.signedPrekey
    let dh4 := bobBundle.oneTimePrekey.map (H.diffieHellman aliceEk.secret)
    let sessionKey := deriveSessionKey H dh1 dh2 dh3 dh4 kemEncapsulation.sharedSecret
    let ad ← associatedData bobBundle.protocolVersion suiteId aliceIdentity.publicKey bobBundle.identityKey aliceId bobId
      alicePqRatchetPublicKey
    let envelope ← Aead.encrypt H.toPrimitives sessionKey payload ad rng.nonce
    return ⟨⟨bobBundle.protocolVersion, suiteId, aliceId, bobId, aliceIdentity.publicKey, aliceEk.publicKey,
      kemEncapsulation.ciphertext, alicePqRatchetPublicKey, envelope.nonce, envelope.ciphertext,
      bobBundle.oneTimePrekey.map fun _ => bobBundle.ownerId⟩, sessionKey⟩

def bobReceive (kem : Kem Secret) (bobIdentity bobSignedPrekey : DhKeyPair Secret) (bobPqSignedPrekey : KemKeyPair Secret)
    (bobOneTimePrekey : Option (DhKeyPair Secret)) (initialMessage : InitialMessage) :
    Except CoreError (ResponderOutput Secret) :=
  if initialMessage.protocolVersion ≠ protocolVersionV1 then .error (.unsupportedAlgorithm "protocol.version")
  else do
    let _ ← KemAlgorithm.fromSuiteId initialMessage.suiteId
    let ssPq ← kem.decapsulate bobPqSignedPrekey.secretKey initialMessage.pqCt
    let dh1 := H.diffieHellman bobSignedPrekey.secret initialMessage.ikAPub
    let dh2 := H.diffieHellman bobIdentity.secret initialMessage.ekAPub
    let dh3 := H.diffieHellman bobSignedPrekey.secret initialMessage.ekAPub
    let dh4 := bobOneTimePrekey.map fun otpk => H.diffieHellman otpk.secret initialMessage.ekAPub
    let sessionKey := deriveSessionKey H dh1 dh2 dh3 dh4 ssPq
    let ad ← associatedData initialMessage.protocolVersion initialMessage.suiteId initialMessage.ikAPub
      bobIdentity.publicKey initialMessage.senderId initialMessage.recipientId initialMessage.pqRatchetPubA
    let plaintext ← Aead.decrypt H.toPrimitives sessionKey ⟨initialMessage.nonce, initialMessage.ciphertext, ad⟩
    return ⟨plaintext, sessionKey⟩

end

/-! ## Agreement -/

/-- a key pair whose public key belongs to its secret -/
def DhKeyPair.Proper (P : Primitives Secret) (k : DhKeyPair Secret) : Prop := k.publicKey = P.dhPublic k.secret

/-- a bundle that carries the responder's own public keys -/
structure BundleOf (bundle : PreKeyBundle) (identity signedPrekey : DhKeyPair Secret) (pqSignedPrekey : KemKeyPair Secret) :
    Prop where
  identityKey : bundle.identityKey = identity.publicKey
  signedPrekey : bundle.signedPrekey = signedPrekey.publicKey
  pqSignedPrekey : bundle.pqSignedPrekey = pqSignedPrekey.publicKey

variable {H : HandshakePrims Secret} {kem : Kem Secret} {rng : InitiateRng Secret} {aliceId bobId : String}
  {aliceIdentity bobIdentity bobSignedPrekey : DhKeyPair Secret} {bobPqSignedPrekey : KemKeyPair Secret}
  {alicePq payload : Bytes} {bundle : PreKeyBundle} {out : InitiatorOutput Secret}

/-- the stages of a successful initiation -/
structure Initiated (H : HandshakePrims Secret) (kem : Kem Secret) (rng : InitiateRng Secret) (aliceId bobId : String)
    (aliceIdentity : DhKeyPair Secret) (alicePq : Bytes) (bundle : PreKeyBundle) (payload : Bytes)
    (out : InitiatorOutput Secret) (enc : KemEncapsulation Secret) (ad ct : Bytes) : Prop where
  version : bundle.protocolVersion = protocolVersionV1
  encaps : kem.encapsulate bundle.pqSignedPrekey rng.encaps = .ok enc
  key : out.sessionKey = deriveSessionKey H (H.diffieHellman aliceIdentity.secret bundle.signedPrekey)
    (H.diffieHellman rng.ephemeral bundle.identityKey) (H.diffieHellman rng.ephemeral bundle.signedPrekey)
    (bundle.oneTimePrekey.map (H.diffieHellman rng.ephemeral)) enc.sharedSecret
  associated : associatedData bundle.protocolVersion bundle.suite.suiteId aliceIdentity.publicKey bundle.identityKey
    aliceId bobId alicePq = .ok ad
  sealed : H.aeadEncrypt out.sessionKey rng.nonce ad payload = some ct
  message : out.initialMessage = ⟨bundle.protocolVersion, bundle.suite.suiteId, aliceId, bobId, aliceIdentity.publicKey,
    H.dhPublic rng.ephemeral, enc.ciphertext, alicePq, rng.nonce, ct, bundle.oneTimePrekey.map fun _ => bundle.ownerId⟩

lemma aliceInitiate_ok (h : aliceInitiate H kem rng aliceId bobId aliceIdentity alicePq bundle payload = .ok out) :
    ∃ enc ad ct, Initiated H kem rng aliceId bobId aliceIdentity alicePq bundle payload out enc ad ct := by
  simp only [aliceInitiate, check_ok, bind_ok, not_not] at h
  obtain ⟨hversion, u, -, enc, henc, ad, had, envelope, henvelope, hout⟩ := h
  obtain ⟨hnonce, -, hsealed⟩ := Aead.encrypt_ok henvelope
  cases hout
  refine ⟨enc, ad, envelope.ciphertext, hversion, henc, rfl, had, hsealed, ?_⟩
  rw [hnonce]
  rfl

/-- the one-time prekey contribution changes the key -/
def OneTimePrekeyMatters (H : HandshakePrims Secret) : Prop :=
  ∀ dh1 dh2 dh3 dh4 ss, deriveSessionKey H dh1 dh2 dh3 (some dh4) ss ≠ deriveSessionKey H dh1 dh2 dh3 none ss

/-- the key the responder derives with a one-time prekey -/
def responderKey (H : HandshakePrims Secret) (rng : InitiateRng Secret) (aliceIdentity : DhKeyPair Secret)
    (bundle : PreKeyBundle) (enc : KemEncapsulation Secret) (otpk : Option (DhKeyPair Secret)) : Secret :=
  deriveSessionKey H (H.diffieHellman aliceIdentity.secret bundle.signedPrekey)
    (H.diffieHellman rng.ephemeral bundle.identityKey) (H.diffieHellman rng.ephemeral bundle.signedPrekey)
    (otpk.map fun k => H.diffieHellman k.secret (H.dhPublic rng.ephemeral)) enc.sharedSecret

section

variable {enc : KemEncapsulation Secret} {ad ct : Bytes} {otpk : Option (DhKeyPair Secret)}

/-- with the secret of the bundle's one-time prekey it is the initiator's key -/
lemma responderKey_same (hdh : DhCommutes H.toPrimitives)
    (hi : Initiated H kem rng aliceId bobId aliceIdentity alicePq bundle payload out enc ad ct)
    (ho : ∀ k ∈ otpk, DhKeyPair.Proper H.toPrimitives k) (hotpk : bundle.oneTimePrekey = otpk.map DhKeyPair.publicKey) :
    responderKey H rng aliceIdentity bundle enc otpk = out.sessionKey := by
  rw [hi.key, responderKey, hotpk, Option.map_map]
  refine congrArg (deriveSessionKey H _ _ _ · _) (Option.map_congr fun k hk => ?_)
  rw [Function.comp_apply, ho k hk]
  exact hdh _ _

variable (hdh : DhCommutes H.toPrimitives) (hkem : kem.Valid bobPqSignedPrekey)
  (halice : DhKeyPair.Proper H.toPrimitives aliceIdentity) (hid : DhKeyPair.Proper H.toPrimitives bobIdentity)
  (hspk : DhKeyPair.Proper H.toPrimitives bobSignedPrekey)
  (hb : BundleOf bundle bobIdentity bobSignedPrekey bobPqSignedPrekey)

section

variable (hi : Initiated H kem rng aliceId bobId aliceIdentity alicePq bundle payload out enc ad ct)

include hdh hkem halice hid hspk hb hi

/-- the responder derives the initiator's key, up to the one-time prekey contribution -/
lemma bobReceive_eq : bobReceive H kem bobIdentity bobSignedPrekey bobPqSignedPrekey otpk out.initialMessage =
    (Aead.decrypt H.toPrimitives (responderKey H rng aliceIdentity bundle enc otpk) ⟨rng.nonce, ct, ad⟩).map fun plaintext =>
      ⟨plaintext, responderKey H rng aliceIdentity bundle enc otpk⟩ := by
  have hdec : kem.decapsulate bobPqSignedPrekey.secretKey enc.ciphertext = .ok enc.sharedSecret :=
    hkem rng.encaps enc (by rw [← hb.pqSignedPrekey]; exact hi.encaps)
  have had := hi.associated
  rw [hb.identityKey] at had
  have h1 : H.diffieHellman bobSignedPrekey.secret aliceIdentity.publicKey =
      H.diffieHellman aliceIdentity.secret bundle.signedPrekey := by
    rw [hb.signedPrekey, hspk, halice]
    exact hdh _ _
  have h2 : H.diffieHellman bobIdentity.secret (H.dhPublic rng.ephemeral) = H.diffieHellman rng.ephemeral bundle.identityKey := by
    rw [hb.identityKey, hid]
    exact hdh _ _
  have h3 : H.diffieHellman bobSignedPrekey.secret (H.dhPublic rng.ephemeral) =
      H.diffieHellman rng.ephemeral bundle.signedPrekey := by
    rw [hb.signedPrekey, hspk]
    exact hdh _ _
  simp only [bobReceive, hi.message, hi.version, ne_eq, not_true_eq_false, if_false, KemAlgorithm.fromSuiteId_suiteId, bind,
    Except.bind, hdec, h1, h2, h3, responderKey]
  rw [hi.version] at had
  simp only [had]
  cases Aead.decrypt H.toPrimitives _ _ <;> rfl

/-- with the initiator's key the responder gets the payload -/
lemma bobReceive_key (hA : AeadCorrect H.toPrimitives)
    (hkey : responderKey H rng aliceIdentity bundle enc otpk = out.sessionKey) :
    bobReceive H kem bobIdentity bobSignedPrekey bobPqSignedPrekey otpk out.initialMessage = .ok ⟨payload, out.sessionKey⟩ := by
  have hdec : Aead.decrypt H.toPrimitives out.sessionKey ⟨rng.nonce, ct, ad⟩ = .ok payload :=
    Aead.decrypt_ok.2 (hA _ _ _ _ _ hi.sealed)
  rw [bobReceive_eq hdh hkem halice hid hspk hb hi, hkey, hdec]
  rfl

/-- with another key the message is rejected -/
lemma bobReceive_otherKey (hbinds : AeadBinds H.toPrimitives)
    (hkey : responderKey H rng aliceIdentity bundle enc otpk ≠ out.sessionKey) :
    bobReceive H kem bobIdentity bobSignedPrekey bobPqSignedPrekey otpk out.initialMessage = .error .aeadOperation := by
  have hnone : H.aeadDecrypt (responderKey H rng aliceIdentity bundle enc otpk) rng.nonce ad ct = none := by
    rw [eq_none_iff_forall_ne_some]
    intro p hp
    exact hkey (hbinds _ _ _ _ _ hi.sealed _ _ _ hp).1
  rw [bobReceive_eq hdh hkem halice hid hspk hb hi]
  simp only [Aead.decrypt, hnone]
  rfl

end

variable (h : aliceInitiate H kem rng aliceId bobId aliceIdentity alicePq bundle payload = .ok out)

include hdh hkem halice hid hspk hb h

/-- **The right one-time prekey** (or none, if the bundle has none): payload and session key -/
lemma bobReceive_same (hA : AeadCorrect H.toPrimitives) (ho : ∀ k ∈ otpk, DhKeyPair.Proper H.toPrimitives k)
    (hotpk : bundle.oneTimePrekey = otpk.map DhKeyPair.publicKey) :
    bobReceive H kem bobIdentity bobSignedPrekey bobPqSignedPrekey otpk out.initialMessage = .ok ⟨payload, out.sessionKey⟩ := by
  obtain ⟨enc, ad, ct, hi⟩ := aliceInitiate_ok h
  exact bobReceive_key hdh hkem halice hid hspk hb hi hA (responderKey_same hdh hi ho hotpk)

/-- **Whatever one-time prekey is tried**: what is accepted is the payload under the initiator's key -/
lemma bobReceive_sound (hA : AeadCorrect H.toPrimitives) (hbinds : AeadBinds H.toPrimitives) {r : ResponderOutput Secret}
    (hr : bobReceive H kem bobIdentity bobSignedPrekey bobPqSignedPrekey otpk out.initialMessage = .ok r) :
    r = ⟨payload, out.sessionKey⟩ := by
  obtain ⟨enc, ad, ct, hi⟩ := aliceInitiate_ok h
  by_cases hkey : responderKey H rng aliceIdentity bundle enc otpk = out.sessionKey
  · rw [bobReceive_key hdh hkem halice hid hspk hb hi hA hkey] at hr
    exact (Except.ok.inj hr).symm
  · rw [bobReceive_otherKey hdh hkem halice hid hspk hb hi hbinds hkey] at hr
    cases hr

/-- **Without the one-time prekey of the bundle** the message is rejected -/
lemma bobReceive_missing (hbinds : AeadBinds H.toPrimitives) (hmatters : OneTimePrekeyMatters H)
    (hotpk : bundle.oneTimePrekey.isSome) :
    bobReceive H kem bobIdentity bobSignedPrekey bobPqSignedPrekey none out.initialMessage = .error .aeadOperation := by
  obtain ⟨enc, ad, ct, hi⟩ := aliceInitiate_ok h
  obtain ⟨pub, hpub⟩ := isSome_iff_exists.1 hotpk
  refine bobReceive_otherKey hdh hkem halice hid hspk hb hi hbinds ?_
  rw [hi.key, hpub]
  exact (hmatters _ _ _ _ _).symm

end

/-- the key derivation tells the results of a one-time prekey's DH apart, and from its absence -/
def ContributionsSeparate (H : HandshakePrims Secret) : Prop :=
  ∀ dh1 dh2 dh3 ss publicKey (x y : Option (DhKeyPair Secret)),
    deriveSessionKey H dh1 dh2 dh3 (x.map fun k => H.diffieHellman k.secret publicKey) ss =
        deriveSessionKey H dh1 dh2 dh3 (y.map fun k => H.diffieHellman k.secret publicKey) ss →
      (x.map fun k => H.diffieHellman k.secret publicKey) = y.map fun k => H.diffieHellman k.secret publicKey

/-- **Agreement of the handshake.** For all key material, ids and payloads: the message that is decoded gives the responder the
payload and the session key with the one-time secret of the bundle (none if the bundle has none), and is rejected with any
other one-time secret, a missing one and a superfluous one among them. -/
theorem handshake_agreement (H : HandshakePrims Secret) (hdh : DhCommutes H.toPrimitives) (hA : AeadCorrect H.toPrimitives)
    (hbinds : AeadBinds H.toPrimitives) (hkdf : ContributionsSeparate H) (kem : Kem Secret) (rng : InitiateRng Secret)
    (aliceId bobId : String) (aliceIdentity bobIdentity bobSignedPrekey : DhKeyPair Secret)
    (bobPqSignedPrekey : KemKeyPair Secret) (otpk : Option (DhKeyPair Secret)) (alicePq payload : Bytes)
    (bundle : PreKeyBundle) (hkem : kem.Valid bobPqSignedPrekey) (halice : DhKeyPair.Proper H.toPrimitives aliceIdentity)
    (hid : DhKeyPair.Proper H.toPrimitives bobIdentity) (hspk : DhKeyPair.Proper H.toPrimitives bobSignedPrekey)
    (ho : ∀ k ∈ otpk, DhKeyPair.Proper H.toPrimitives k)
    (hb : BundleOf bundle bobIdentity bobSignedPrekey bobPqSignedPrekey)
    (hotpk : bundle.oneTimePrekey = otpk.map DhKeyPair.publicKey) (out : InitiatorOutput Secret)
    (h : aliceInitiate H kem rng aliceId bobId aliceIdentity alicePq bundle payload = .ok out) (bytes : Bytes)
    (hbytes : out.initialMessage.encode = .ok bytes) :
    ∃ message, InitialMessage.decode bytes = .ok message ∧
      bobReceive H kem bobIdentity bobSignedPrekey bobPqSignedPrekey otpk message = .ok ⟨payload, out.sessionKey⟩ ∧
      ∀ other : Option (DhKeyPair Secret), other.map DhKeyPair.secret ≠ otpk.map DhKeyPair.secret →
        (∀ k ∈ otpk, ∀ k' ∈ other, H.diffieHellman k'.secret (H.dhPublic rng.ephemeral) =
          H.diffieHellman k.secret (H.dhPublic rng.ephemeral) → k'.secret = k.secret) →
        bobReceive H kem bobIdentity bobSignedPrekey bobPqSignedPrekey other message = .error .aeadOperation := by
  refine ⟨out.initialMessage, InitialMessage.decode_encode hbytes, bobReceive_same hdh hkem halice hid hspk hb h hA ho hotpk, ?_⟩
  intro other hother hdistinct
  obtain ⟨enc, ad, ct, hi⟩ := aliceInitiate_ok h
  refine bobReceive_otherKey hdh hkem halice hid hspk hb hi hbinds fun hkey => hother ?_
  have hdh4 := hkdf _ _ _ _ _ _ _ (hkey.trans (responderKey_same hdh hi ho hotpk).symm)
  cases other with
  | none =>
    cases otpk with
    | none => rfl
    | some => cases hdh4
  | some k' =>
    cases otpk with
    | none => cases hdh4
    | some k => exact congrArg some (hdistinct k rfl k' rfl (some.inj hdh4))

/-- **The one-time prekey id does not identify the prekey.** For all bundles of one owner that carry one-time prekeys, the same
or different ones, the initial messages built from them carry the same `otpk_id`. -/
theorem otpkId_same_owner {kem' : Kem Secret} {rng' : InitiateRng Secret} {aliceId' bobId' : String}
    {aliceIdentity' : DhKeyPair Secret} {alicePq' payload' : Bytes} {bundle' : PreKeyBundle} {out' : InitiatorOutput Secret}
    (h : aliceInitiate H kem rng aliceId bobId aliceIdentity alicePq bundle payload = .ok out)
    (h' : aliceInitiate H kem' rng' aliceId' bobId' aliceIdentity' alicePq' bundle' payload' = .ok out')
    (howner : bundle.ownerId = bundle'.ownerId) (hcarries : bundle.oneTimePrekey.isSome)
    (hcarries' : bundle'.oneTimePrekey.isSome) :
    out.initialMessage.otpkId = out'.initialMessage.otpkId := by
  obtain ⟨_, _, _, hi⟩ := aliceInitiate_ok h
  obtain ⟨_, _, _, hi'⟩ := aliceInitiate_ok h'
  obtain ⟨pub, hpub⟩ := isSome_iff_exists.1 hcarries
  obtain ⟨pub', hpub'⟩ := isSome_iff_exists.1 hcarries'
  rw [hi.message, hi'.message, hpub, hpub', map_some, map_some, howner]

/-! ## A sample instance -/

namespace Sample

/-- an odd number of secrets is told from an even one by the last bit; every signature is accepted -/
def handshakePrims : HandshakePrims UInt32 :=
  { PqMsg.Sample.primitives with
    concat := fun l => 2 * l.foldl (· + ·) 0 + UInt32.ofNat (l.length % 2)
    ed25519Verify := fun _ _ _ => true
    mlDsaVerify := fun _ _ _ => .ok () }

lemma oneTimePrekeyMatters : OneTimePrekeyMatters handshakePrims := by
  intro dh1 dh2 dh3 dh4 ss h
  simp only [deriveSessionKey, handshakePrims, primitives, hkdfSha256_32, toList_some,
    toList_none, cons_append, nil_append, append_nil, length_cons, length_nil,
    getD_none] at h
  have hnat := congrArg UInt32.toNat h
  simp only [UInt32.toNat_add, UInt32.toNat_mul, UInt32.toNat_ofNat', UInt32.reduceToNat] at hnat
  omega

open scoped UInt32.CommRing in
/-- DH results of the sample are single bytes -/
lemma contributionsSeparate : ContributionsSeparate handshakePrims := by
  intro dh1 dh2 dh3 ss publicKey x y h
  cases x with
  | none =>
    cases y with
    | none => rfl
    | some => exact absurd h.symm (oneTimePrekeyMatters _ _ _ _ _)
  | some k =>
    cases y with
    | none => exact absurd h (oneTimePrekeyMatters _ _ _ _ _)
    | some k' =>
      have hbyte (k : DhKeyPair UInt32) : (handshakePrims.diffieHellman k.secret publicKey).toNat < 256 :=
        UInt8.toNat_lt _
      have hk := hbyte k
      have hk' := hbyte k'
      rw [map_some, map_some] at h ⊢
      generalize handshakePrims.diffieHellman k.secret publicKey = a at *
      generalize handshakePrims.diffieHellman k'.secret publicKey = b at *
      simp only [deriveSessionKey, handshakePrims, primitives, hkdfSha256_32, toList_some,
        cons_append, nil_append, length_cons, length_nil, foldl_cons, foldl_nil,
        getD_none] at h
      have hmul : 124 * a = 124 * b := by linear_combination h
      have hnat := congrArg UInt32.toNat hmul
      simp only [UInt32.toNat_mul, UInt32.reduceToNat] at hnat
      exact congrArg some (UInt32.toNat_inj.1 (by omega))

def pair (secret : UInt32) : DhKeyPair UInt32 := generateKeypair handshakePrims.toPrimitives secret

/-- the bundle of a responder with secrets 41 and 43 and the given one-time secret -/
def bundleWith (oneTime : UInt32) : PreKeyBundle :=
  ⟨protocolVersionV1, .mlKem768, "bob", handshakePrims.dhPublic 41, handshakePrims.dhPublic 43, [1, 2], List.replicate 64 0,
    List.replicate 64 0, List.replicate 32 0, some (handshakePrims.dhPublic oneTime), none, none, none, none⟩

def initiateFrom (bundle : PreKeyBundle) : Except CoreError (InitiatorOutput UInt32) :=
  aliceInitiate handshakePrims PqMsg.Sample.kem ⟨3, [4], .replicate 12 7⟩ "alice" "bob"
    (pair 21) [8] bundle [104, 105]

end Sample

open Handshake.Sample in
theorem handshake_agreement_sample : ∃ out message, initiateFrom (bundleWith 45) = .ok out ∧
    bobReceive handshakePrims PqMsg.Sample.kem (pair 41) (pair 43) ⟨[1, 2], 3⟩ (some (pair 45)) message =
      .ok ⟨[104, 105], out.sessionKey⟩ ∧
    bobReceive handshakePrims PqMsg.Sample.kem (pair 41) (pair 43) ⟨[1, 2], 3⟩ none message = .error .aeadOperation := by
  obtain ⟨bytes, hrun⟩ : ∃ bytes, (initiateFrom (bundleWith 45) >>= fun out => out.initialMessage.encode) = .ok bytes :=
    isOk_iff.1 (by decide +kernel)
  obtain ⟨out, hout, hbytes⟩ := bind_ok.1 hrun
  obtain ⟨message, -, hsame, hother⟩ := handshake_agreement handshakePrims dhCommutes aeadCorrect
    aeadBinds contributionsSeparate kem ⟨3, [4], .replicate 12 7⟩ "alice" "bob" (pair 21) (pair 41)
    (pair 43) ⟨[1, 2], 3⟩ (some (pair 45)) [8] [104, 105] (bundleWith 45) (kem_valid [1, 2]) rfl rfl rfl
    (by rintro _ ⟨⟩; rfl) ⟨rfl, rfl, rfl⟩ rfl out hout bytes hbytes
  exact ⟨out, message, hout, hsame, hother none (by simp) (by simp)⟩

open Handshake.Sample in
theorem otpkId_same_owner_sample : ∃ out out', initiateFrom (bundleWith 45) = .ok out ∧
    initiateFrom (bundleWith 46) = .ok out' ∧ out.initialMessage.otpkId = out'.initialMessage.otpkId := by
  obtain ⟨out, hout⟩ : ∃ out, initiateFrom (bundleWith 45) = .ok out := isOk_iff.1 (by decide)
  obtain ⟨out', hout'⟩ : ∃ out', initiateFrom (bundleWith 46) = .ok out' := isOk_iff.1 (by decide)
  exact ⟨out, out', hout, hout', otpkId_same_owner hout hout' rfl rfl rfl⟩

open Handshake.Sample in
/-- two different one-time prekeys of bob, and one id -/
theorem otpkId_ambiguous : (bundleWith 45).oneTimePrekey ≠ (bundleWith 46).oneTimePrekey ∧
    (initiateFrom (bundleWith 45)).toOption.map (fun out => out.initialMessage.otpkId) = some (some "bob") ∧
    (initiateFrom (bundleWith 46)).toOption.map (fun out => out.initialMessage.otpkId) = some (some "bob") := by
  decide

end PqMsg.Handshake
