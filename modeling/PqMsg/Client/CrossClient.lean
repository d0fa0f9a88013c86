/-
The handshake between any two clients: what the initiating client makes of a served bundle, read by the receiving client.

A served bundle carries the receiver's public keys (`CarriesKeys`), and the receiver still has the secret of the one-time
prekey in it (`HoldsOneTimePrekey`). Both clients start the same session from a bundle (`startSession_ok`); the receiving web
client accepts every initial message, the receiving Android client those made without a one-time prekey.

- `initial_accepted_iff`: an initial message is accepted, with its payload and with sessions of one handshake on both sides, exactly
  when the receiver is the web client or the server gave out no one-time prekey.
- `android_rejects`: an Android device that still has one-time prekeys at the server cannot be written to.
-/
import PqMsg.Client.Direct

namespace PqMsg.Client

open Lib Handshake Session Ratchet

variable {Secret : Type} {H : HandshakePrims Secret} {kem : Kem Secret}

/-! ## Sessions of one handshake -/

/-- the PQ ratchets of the two sessions of a handshake between `alice`, who initiates, and `bob` -/
def handshakePq (kem : Kem Secret) (alice bob : KeysFile Secret) : PqSetup Secret where
  kem := kem
  interval _ := defaultPqRatchetInterval
  key r := match r with
    | .initiator => alice.pqSignedPrekey
    | .responder => bob.pqSignedPrekey
  maxKeyHistory _ := defaultPqRatchetKeyHistory

/-- the setup of the two sessions -/
def handshakeSetup (kem : Kem Secret) (alice bob : KeysFile Secret) (sessionKey : Secret) : Setup Secret where
  root := sessionKey
  dh r := match r with
    | .initiator => alice.identityX25519
    | .responder => bob.signedPrekeyX25519
  suiteId := alice.suite.suiteId
  wireVersion := Wire.wireVersion
  maxSkipped _ := clientMaxSkipped
  pq := some (handshakePq kem alice bob)

/-- the two stored sessions are the two sides of one handshake, and so have one root key -/
def Paired (H : HandshakePrims Secret) (initiator responder : SessionFile Secret) : Prop :=
  ∃ c : Setup Secret, initiator.snapshot = (c.session H.toPrimitives .initiator).snapshot ∧
    responder.snapshot = (c.session H.toPrimitives .responder).snapshot ∧
    initiator.snapshot.rootKey = c.root ∧ responder.snapshot.rootKey = c.root

/-! ## Key material -/

/-- public keys belong to their secrets -/
structure KeysFile.Proper (H : HandshakePrims Secret) (kem : Kem Secret) (keys : KeysFile Secret) : Prop where
  identity : DhKeyPair.Proper H.toPrimitives keys.identityX25519
  signedPrekey : DhKeyPair.Proper H.toPrimitives keys.signedPrekeyX25519
  pqSignedPrekey : kem.Valid keys.pqSignedPrekey

/-- the bundle names the user of `keys` and carries their public keys -/
structure CarriesKeys (keys : KeysFile Secret) (bundle : ServerBundle) : Prop where
  userId : bundle.userId = keys.userId
  identity : bundle.identityX25519Pub = keys.identityX25519.publicKey
  signedPrekey : bundle.signedPrekeyX25519Pub = keys.signedPrekeyX25519.publicKey
  pqSignedPrekey : bundle.pqSignedPrekeyPubMlkem768 = keys.pqSignedPrekey.publicKey

/-- the user still has the secret of a one-time prekey -/
def HoldsOneTimePrekey (H : HandshakePrims Secret) (keys : KeysFile Secret) (pub : DhPublicKey) : Prop :=
  ∃ k ∈ candidateOneTimePrekeys keys, k.publicKey = pub ∧ DhKeyPair.Proper H.toPrimitives k

/-- a served bundle carries the keys that were published -/
lemma CarriesKeys.served {keys : KeysFile Secret} {p : PublishedPrekeys} (h : CarriesKeys keys p.bundle) (reserve : ℕ) :
    CarriesKeys keys (loadBundleResponse reserve p).1 := by
  obtain ⟨huser, hid, hspk, hpq⟩ := h
  unfold loadBundleResponse
  split_ifs
  · exact ⟨huser, hid, hspk, hpq⟩
  · exact ⟨huser, hid, hspk, hpq⟩

/-! ## The initiator -/

/-- what a started session is -/
structure Started (H : HandshakePrims Secret) (kem : Kem Secret) (rng : InitiateRng Secret) (alice bob : KeysFile Secret)
    (bundle : ServerBundle) (payload : Bytes) (sent : SendResult Secret) (out : InitiatorOutput Secret) : Prop where
  initiated : aliceInitiate H kem rng alice.userId bob.userId alice.identityX25519 alice.pqSignedPrekey.publicKey
    (bundleToCore bundle alice.suite) payload = .ok out
  encoded : out.initialMessage.encode = .ok sent.messageBytes
  session : sent.session = ⟨1, alice.userId, bob.userId, alice.suite,
    ((handshakeSetup kem alice bob out.sessionKey).session H.toPrimitives .initiator).snapshot⟩

/-- **Both clients start the same session** from a bundle of `bob` -/
lemma startSession_ok {kind : ClientKind} {rng : InitiateRng Secret} {alice bob : KeysFile Secret} {bundle : ServerBundle}
    {payload : Bytes} {sent : SendResult Secret} (hb : CarriesKeys bob bundle)
    (h : startSession H kem kind rng alice bob.userId bundle payload = .ok sent) :
    ∃ out, Started H kem rng alice bob bundle payload sent out := by
  have hsame : startSession H kem kind rng alice bob.userId bundle payload =
      wasmInitiateSessionAndEncrypt H kem rng alice alice.userId bob.userId bundle payload := by
    cases kind with
    | web => simp [startSession, hb.userId]
    | android => rfl
  rw [hsame] at h
  simp only [wasmInitiateSessionAndEncrypt, check_ok, bind_ok, mapError_ok] at h
  obtain ⟨-, u, -, out, hout, encoded, hencoded, hsent⟩ := h
  cases hsent
  refine ⟨out, hout, hencoded, ?_⟩
  have hsession : initiatorSession H kem alice (bundleToCore bundle alice.suite) out.sessionKey =
      (handshakeSetup kem alice bob out.sessionKey).session H.toPrimitives .initiator := by
    simp only [initiatorSession, bundleToCore, hb.signedPrekey, hb.pqSignedPrekey]
    rfl
  rw [hsession]

/-! ## The responder -/

section

variable {rng : InitiateRng Secret} {alice bob : KeysFile Secret} {bundle : ServerBundle} {payload : Bytes}
  {sent : SendResult Secret} {out : InitiatorOutput Secret}
  {receive : KeysFile Secret → InitialMessage → Except CoreError (ResponderOutput Secret × KeysFile Secret)}

lemma CarriesKeys.bundleOf (hb : CarriesKeys bob bundle) (suite : KemAlgorithm) :
    BundleOf (bundleToCore bundle suite) bob.identityX25519 bob.signedPrekeyX25519 bob.pqSignedPrekey :=
  ⟨hb.identity, hb.signedPrekey, hb.pqSignedPrekey⟩

/-- a client that can read the payload replaces its session by the responder's session of the handshake -/
lemma decryptMessageWith_initial (unsupported : String) (hs : Started H kem rng alice bob bundle payload sent out)
    {keys : KeysFile Secret} (hr : receive bob out.initialMessage = .ok (⟨payload, out.sessionKey⟩, keys))
    (newSecret : Secret) (session : Option (SessionFile Secret)) :
    decryptMessageWith H kem unsupported receive newSecret bob bob.userId alice.userId sent.messageBytes session =
      .ok ⟨payload, ⟨1, bob.userId, alice.userId, alice.suite,
        ((handshakeSetup kem alice bob out.sessionKey).session H.toPrimitives .responder).snapshot⟩, true, keys⟩ := by
  obtain ⟨enc, ad, ct, hi⟩ := aliceInitiate_ok hs.initiated
  have hsuite : suiteOfId unsupported alice.suite.suiteId = .ok alice.suite := by
    simp only [suiteOfId, KemAlgorithm.fromSuiteId_suiteId]
    rfl
  have hmessage := hi.message
  simp only [decryptMessageWith, ne_eq, not_true_eq_false, if_false, InitialMessage.decode_encode hs.encoded, decryptInitial, hr]
  simp only [hmessage, bundleToCore, not_true_eq_false, if_false, hsuite, responderSession]
  rfl

/-- if some candidate is accepted, and every accepted one gives the same, the search gives that -/
lemma tryCandidates_some {receive : DhKeyPair Secret → Except CoreError (ResponderOutput Secret)}
    {r : ResponderOutput Secret} {l : List (DhKeyPair Secret)} (hsound : ∀ k r', receive k = .ok r' → r' = r)
    (hex : ∃ k ∈ l, receive k = .ok r) (idx : ℕ) : ∃ i, tryCandidates receive idx l = some (i, r) := by
  induction l generalizing idx with
  | nil =>
    obtain ⟨k, hk, -⟩ := hex
    cases hk
  | cons candidate rest ih =>
    cases hc : receive candidate with
    | ok next =>
      refine ⟨idx, ?_⟩
      rw [tryCandidates, hc, hsound candidate next hc]
    | error =>
      obtain ⟨k, hk, hkr⟩ := hex
      rcases List.mem_cons.1 hk with rfl | hk
      · rw [hkr] at hc
        cases hc
      · obtain ⟨i, hi⟩ := ih ⟨k, hk, hkr⟩ (idx + 1)
        exact ⟨i, by rw [tryCandidates, hc]; exact hi⟩

variable (hdh : DhCommutes H.toPrimitives) (hA : AeadCorrect H.toPrimitives) (halice : alice.Proper H kem)
  (hbob : bob.Proper H kem) (hb : CarriesKeys bob bundle) (hs : Started H kem rng alice bob bundle payload sent out)

include hdh hA halice hbob hb hs

/-- **Without a one-time prekey** every client reads the payload -/
lemma receiveWith_none (hno : bundle.oneTimePrekeyX25519 = none) :
    receiveWith H kem bob out.initialMessage none = .ok ⟨payload, out.sessionKey⟩ := by
  have hproper : ∀ k ∈ (none : Option (DhKeyPair Secret)), DhKeyPair.Proper H.toPrimitives k := by simp
  exact bobReceive_same hdh hbob.pqSignedPrekey halice.identity hbob.identity hbob.signedPrekey (hb.bundleOf _)
    hs.initiated hA hproper hno

/-- **The web client** reads every payload -/
lemma wasmReceiveInitial_ok (hbinds : AeadBinds H.toPrimitives)
    (hheld : ∀ pub ∈ bundle.oneTimePrekeyX25519, HoldsOneTimePrekey H bob pub) :
    ∃ keys, keys.userId = bob.userId ∧
      wasmReceiveInitial H kem bob out.initialMessage = .ok (⟨payload, out.sessionKey⟩, keys) := by
  -- whatever is tried: what is accepted is the payload
  have hsound : ∀ otpk r, receiveWith H kem bob out.initialMessage otpk = .ok r → r = ⟨payload, out.sessionKey⟩ := by
    intro otpk r hr
    exact bobReceive_sound hdh hbob.pqSignedPrekey halice.identity hbob.identity hbob.signedPrekey (hb.bundleOf _)
      hs.initiated hA hbinds hr
  unfold wasmReceiveInitial
  cases hnone : receiveWith H kem bob out.initialMessage none with
  | ok r => exact ⟨bob, rfl, by rw [hsound none r hnone]⟩
  | error =>
    cases hpub : bundle.oneTimePrekeyX25519 with
    | none =>
      rw [receiveWith_none hdh hA halice hbob hb hs hpub] at hnone
      cases hnone
    | some pub =>
      obtain ⟨k, hk, hkpub, hkp⟩ := hheld pub hpub
      have hok : receiveWith H kem bob out.initialMessage (some k) = .ok ⟨payload, out.sessionKey⟩ := by
        refine bobReceive_same hdh hbob.pqSignedPrekey halice.identity hbob.identity hbob.signedPrekey (hb.bundleOf _)
          hs.initiated hA ?_ ?_
        · intro k' hk'
          cases hk'
          exact hkp
        · simp [bundleToCore, hpub, hkpub]
      have hsoundSome : ∀ k r, (fun k => receiveWith H kem bob out.initialMessage (some k)) k = .ok r →
          r = ⟨payload, out.sessionKey⟩ := fun k r hr => hsound (some k) r hr
      obtain ⟨i, hi⟩ := tryCandidates_some hsoundSome ⟨k, hk, hok⟩ 0
      exact ⟨removeConsumedOneTimeKeys bob i, rfl, by simp [hi]⟩

/-- every client reads the payload, if it is the web client or the bundle has no one-time prekey -/
lemma clientDecrypt_initial (hbinds : AeadBinds H.toPrimitives)
    (hheld : ∀ pub ∈ bundle.oneTimePrekeyX25519, HoldsOneTimePrekey H bob pub) {receiver : ClientKind}
    (hreads : receiver = .web ∨ bundle.oneTimePrekeyX25519 = none) (newSecret : Secret)
    (session : Option (SessionFile Secret)) :
    ∃ keys, keys.userId = bob.userId ∧ clientDecrypt H kem receiver newSecret bob alice.userId sent.messageBytes session =
      .ok ⟨payload, ⟨1, bob.userId, alice.userId, alice.suite,
        ((handshakeSetup kem alice bob out.sessionKey).session H.toPrimitives .responder).snapshot⟩, true, keys⟩ := by
  cases receiver with
  | web =>
    obtain ⟨keys, huser, hr⟩ := wasmReceiveInitial_ok hdh hA halice hbob hb hs hbinds hheld
    exact ⟨keys, huser, decryptMessageWith_initial _ hs hr newSecret session⟩
  | android =>
    have hno : bundle.oneTimePrekeyX25519 = none := by
      rcases hreads with hreads | hno
      · cases hreads
      · exact hno
    have hr : androidReceiveInitial H kem bob out.initialMessage = .ok (⟨payload, out.sessionKey⟩, bob) := by
      rw [androidReceiveInitial, receiveWith_none hdh hA halice hbob hb hs hno]
      rfl
    exact ⟨bob, rfl, decryptMessageWith_initial _ hs hr newSecret session⟩

end

/-! ## Any two clients -/

/-- **The cross-client handshake.** For all keys, every bundle that the server can serve of the receiver's published prekeys,
and whatever session the receiver has: the initial message is accepted with its payload, leaving the two sides of one
handshake, exactly when the receiver is the web client or the bundle has no one-time prekey. -/
theorem initial_accepted_iff (hdh : DhCommutes H.toPrimitives) (hA : AeadCorrect H.toPrimitives) (hbinds : AeadBinds H.toPrimitives)
    (hmatters : OneTimePrekeyMatters H) (initiator receiver : ClientKind) {alice bob : KeysFile Secret}
    (halice : alice.Proper H kem) (hbob : bob.Proper H kem) {published : PublishedPrekeys}
    (hpub : CarriesKeys bob published.bundle) (reserve : ℕ)
    (hheld : ∀ pub ∈ (loadBundleResponse reserve published).1.oneTimePrekeyX25519, HoldsOneTimePrekey H bob pub)
    (rng : InitiateRng Secret) (payload : Bytes) {sent : SendResult Secret} (hsent : startSession H kem initiator rng alice bob.userId
      (loadBundleResponse reserve published).1 payload = .ok sent) (newSecret : Secret)
    (session : Option (SessionFile Secret)) :
    (∃ r, clientDecrypt H kem receiver newSecret bob alice.userId sent.messageBytes session = .ok r ∧
      r.plaintext = payload ∧ Paired H sent.session r.session) ↔
    (receiver = .web ∨ (loadBundleResponse reserve published).1.oneTimePrekeyX25519 = none) := by
  have hb := hpub.served reserve
  obtain ⟨out, hs⟩ := startSession_ok hb hsent
  constructor
  · intro h
    obtain ⟨r, hr, -⟩ := h
    cases receiver with
    | web => exact .inl rfl
    | android =>
      right
      by_contra hsome
      have hmissing : androidReceiveInitial H kem bob out.initialMessage = .error .aeadOperation := by
        rw [androidReceiveInitial, receiveWith, bobReceive_missing hdh hbob.pqSignedPrekey halice.identity hbob.identity
          hbob.signedPrekey (hb.bundleOf _) hs.initiated hbinds hmatters (Option.isSome_iff_ne_none.2 hsome)]
        rfl
      -- a client that cannot read the payload rejects the message
      simp only [clientDecrypt, decryptMessage, decryptMessageWith, ne_eq, not_true_eq_false, if_false,
        InitialMessage.decode_encode hs.encoded, decryptInitial, hmissing, check_ok, bind_ok, mapError_ok] at hr
      obtain ⟨-, -, suite, -, result, hresult, -⟩ := hr
      cases hresult
  · intro hreads
    obtain ⟨keys, -, hr⟩ := clientDecrypt_initial hdh hA halice hbob hb hs hbinds hheld hreads newSecret session
    refine ⟨_, hr, rfl, handshakeSetup kem alice bob out.sessionKey, ?_, rfl, ?_, rfl⟩
    · rw [hs.session]
    · rw [hs.session]
      rfl

/-! ## A sample -/

namespace Sample

/-- the keys of a user: secrets `n`, `n + 1` and one one-time prekey with secret `n + 2` -/
def keys (userId : String) (n : UInt32) : KeysFile UInt32 :=
  let pair (secret : UInt32) : DhKeyPair UInt32 := ⟨Handshake.Sample.handshakePrims.dhPublic secret, secret⟩
  ⟨userId, .mlKem768, pair n, pair (n + 1), ⟨[n.toUInt8, 1], [n.toUInt8, 1].sum.toUInt32⟩, [(pair (n + 2)).publicKey],
    [n + 2], [[9]], [9]⟩

lemma keys_proper (userId : String) (n : UInt32) : (keys userId n).Proper Handshake.Sample.handshakePrims PqMsg.Sample.kem :=
  ⟨rfl, rfl, PqMsg.Sample.kem_valid _⟩

/-- what the user of `keys` has published -/
def published (k : KeysFile UInt32) : PublishedPrekeys where
  bundle := ⟨k.userId, k.identityX25519.publicKey, List.replicate 32 0, [], k.signedPrekeyX25519.publicKey,
    List.replicate 64 0, k.pqSignedPrekey.publicKey, List.replicate 64 0, [], [], none, none⟩
  oneTimePrekeysX25519 := k.oneTimePrekeysX25519
  oneTimePrekeysMlkem768 := k.oneTimePrekeysMlkem768

def initiateRng : InitiateRng UInt32 := ⟨3, [1, 2], ByteArr.replicate 12 7⟩

/-- the first message of the user with secrets from 20 on to the one with secrets from 40 on -/
def firstMessage (initiator : ClientKind) (reserve : ℕ) : Except BindingError (SendResult UInt32) :=
  startSession Handshake.Sample.handshakePrims PqMsg.Sample.kem initiator initiateRng (keys "alice" 20) "bob"
    (loadBundleResponse reserve (published (keys "bob" 40))).1 [104, 105]

/-- the receiver has the one-time prekey that the bundle may carry -/
lemma holds_oneTimePrekey (reserve : ℕ) :
    ∀ pub ∈ (loadBundleResponse reserve (published (keys "bob" 40))).1.oneTimePrekeyX25519,
      HoldsOneTimePrekey Handshake.Sample.handshakePrims (keys "bob" 40) pub := by
  intro pub hpub
  unfold loadBundleResponse at hpub
  split_ifs at hpub
  · cases hpub
    exact ⟨_, List.mem_singleton.2 rfl, rfl, rfl⟩
  · cases hpub

/-- what a client reads of a message to the second user -/
def read (receiver : ClientKind) (sent : SendResult UInt32) : Except BindingError (DecryptResult UInt32) :=
  clientDecrypt Handshake.Sample.handshakePrims PqMsg.Sample.kem receiver 0 (keys "bob" 40) "alice" sent.messageBytes none

lemma firstMessage_ok : ∃ sent, firstMessage .web 0 = .ok sent ∧ (read .android sent).isOk = false := by
  have hrun : (firstMessage .web 0).toOption.map (fun sent => (read .android sent).isOk) = some false := by
    decide +kernel
  cases h : firstMessage .web 0 with
  | error =>
    rw [h] at hrun
    cases hrun
  | ok sent =>
    rw [h] at hrun
    exact ⟨sent, rfl, Option.some.inj hrun⟩

end Sample

open Client.Sample in
/-- with a one-time prekey in the bundle, from a web client to a web client -/
theorem initial_accepted_iff_web : ∃ sent, firstMessage .web 0 = .ok sent ∧
    ∃ r, read .web sent = .ok r ∧ r.plaintext = [104, 105] ∧
      Paired Handshake.Sample.handshakePrims sent.session r.session := by
  obtain ⟨sent, hsent, -⟩ := firstMessage_ok
  exact ⟨sent, hsent, (initial_accepted_iff PqMsg.Sample.dhCommutes PqMsg.Sample.aeadCorrect PqMsg.Sample.aeadBinds
    Handshake.Sample.oneTimePrekeyMatters .web .web (keys_proper "alice" 20) (keys_proper "bob" 40)
    ⟨rfl, rfl, rfl, rfl⟩ 0 (holds_oneTimePrekey 0) initiateRng [104, 105] hsent 0 none).2 (.inl rfl)⟩

open Client.Sample in
/-- **The Android client rejects** a first message that was made with its one-time prekey, though it has the secret -/
theorem android_rejects : ∃ sent, firstMessage .web 0 = .ok sent ∧
    (∀ pub ∈ (loadBundleResponse 0 (published (keys "bob" 40))).1.oneTimePrekeyX25519,
      HoldsOneTimePrekey Handshake.Sample.handshakePrims (keys "bob" 40) pub) ∧
    ¬ ∃ r, read .android sent = .ok r := by
  obtain ⟨sent, hsent, hread⟩ := firstMessage_ok
  refine ⟨sent, hsent, holds_oneTimePrekey 0, fun hex => ?_⟩
  obtain ⟨r, hr⟩ := hex
  rw [hr] at hread
  cases hread

end PqMsg.Client
