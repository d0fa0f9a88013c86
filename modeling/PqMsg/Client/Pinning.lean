/-
Which identity keys a session is opened with: the handshake branch of `encryptDirectPayload` of the web client (`app.ts`) and
of `sendMessageFlow` of the Android client (`ChatActivity.kt`), for a peer that already has a pin.

- The bundle is the server's, or one that came with an invite: any value.
- The web client compares fingerprints, then checks that the transparency log contains the pinned keys, and then runs the
  handshake with the keys of the bundle. The bundle itself is never compared with the pin.
- The Android client compares fingerprints and runs the handshake; the transparency check comes after it.
- The user does not confirm a key change (`accepted` is false).

Results:
- `opened_as_pinned_iff`: exactly when the session is opened with the pinned keys and the pin stays;
- `opened_with_other_keys`: the server puts the pinned fingerprint next to other keys, and both clients open the session with
  those; the Android client also rewrites the pin.
-/
import PqMsg.Client.Monitor

namespace PqMsg.Client

open Lib Transparency Except

/-- what a send leaves behind: the store, the bundle the handshake was run with, if it was, and the result -/
structure SendOutcome where
  store : ClientStore
  handshake : Option BundleResponse
  result : Except ClientError Unit

/-- what the server answers to the transparency check within a send -/
structure CheckAnswers where
  pinning : PinAnswers
  answer : Except String TransparencyProofResponse
  retry : Except String TransparencyProofResponse

section

variable {Hash : Type} [DecidableEq Hash] (C : Platform) (V : VerifierPrims Hash)

/-- a whole call of `ensurePeerTransparencyVerified` -/
def ensurePeerTransparencyVerified (kind : ClientKind) (S : ClientStore) (peerUserId : String)
    (identityPin : Option IdentityPin) (answers : CheckAnswers) :
    ClientStore × Except ClientError PeerTransparencyAssessment :=
  match beginCheck C kind S peerUserId identityPin answers.pinning with
  | (S, .error e) => (S, .error e)
  | (S, .ok p) =>
    match finishCheck V kind p answers.answer answers.retry with
    | .error e => (S, .error e)
    | .ok (head, assessment) => (S.writeTransparencyCheckpoint C p.peerUserId head, .ok assessment)

/-- `encryptDirectPayload` without a stored session; `initiated` is what the handshake itself returns -/
def webEncryptDirectPayload (S : ClientStore) (peerUserId : String) (bundle : BundleResponse) (accepted : Bool)
    (answers : CheckAnswers) (initiated : Except ClientError Unit) : SendOutcome :=
  match answers.pinning.issuer with
  | .error e => ⟨S, none, .error e⟩
  | .ok _ =>
    match webEnforceBundle C S.pins peerUserId bundle accepted with
    | .error e => ⟨S, none, .error e⟩
    | .ok pins =>
      match ensurePeerTransparencyVerified C V .web { S with pins := pins } peerUserId (pins peerUserId) answers with
      | (S, .error e) => ⟨S, none, .error e⟩
      | (S, .ok _) => ⟨S, some bundle, initiated⟩

/-- `sendMessageFlow` without a stored session, up to the transparency check; `latestBundle` is `bundle` then -/
def androidSendMessageFlow (S : ClientStore) (peerUserId : String) (bundle : BundleResponse) (accepted : Bool)
    (answers : CheckAnswers) (initiated : Except ClientError Unit) : SendOutcome :=
  match androidEnforceIdentityPin C S.pins peerUserId bundle accepted with
  | .error e => ⟨S, none, .error e⟩
  | .ok pins =>
    match initiated with
    | .error e => ⟨{ S with pins := pins }, some bundle, .error e⟩
    | .ok () =>
      let checked := ensurePeerTransparencyVerified C V .android { S with pins := pins } peerUserId none
        { answers with pinning := { answers.pinning with bundle := .ok bundle } }
      ⟨checked.1, some bundle, checked.2.map fun _ => ()⟩

/-! ## The property -/

/-- the three identity keys of a bundle are those of the pin -/
def SameKeys (pin : IdentityPin) (bundle : BundleResponse) : Prop :=
  bundle.identityX25519Pub = pin.identityX25519Pub ∧ bundle.identitySigPub = pin.identitySigPub ∧
    bundle.identityPqSigPub = pin.identityPqSigPub

/-- the keys of two pins are the same -/
def IdentityPin.KeysEq (pin pin' : IdentityPin) : Prop :=
  pin'.identityX25519Pub = pin.identityX25519Pub ∧ pin'.identitySigPub = pin.identitySigPub ∧
    pin'.identityPqSigPub = pin.identityPqSigPub

/-- if the handshake was run, then with the pinned keys, and these are still pinned -/
def OpenedAsPinned (peerUserId : String) (pin : IdentityPin) (o : SendOutcome) : Prop :=
  ∀ bundle ∈ o.handshake, SameKeys pin bundle ∧ ∃ pin', o.store.pins peerUserId = some pin' ∧ pin.KeysEq pin'

variable {C V} {S : ClientStore} {peer : String} {pin : IdentityPin} {bundle : BundleResponse}

/-! ## The web client -/

variable {pins : PinStore} {pin' : IdentityPin} {b : BundleResponse}

/-- without a confirmation the web client never touches an existing pin -/
lemma webEnforceBundle_ok (hpin : S.pins peer = some pin) : webEnforceBundle C S.pins peer bundle false = .ok pins ↔
      webBundleFingerprint C bundle = .ok pin.fingerprintSha256 ∧ S.pins = pins := by
  simp only [webEnforceBundle, webEnforceIdentityPin, hpin, bind_ok, Bool.false_eq_true, if_false]
  constructor
  · intro h
    obtain ⟨fingerprint, hfp, h⟩ := h
    by_cases heq : pin.fingerprintSha256 = fingerprint
    · rw [if_pos heq] at h
      exact ⟨heq ▸ hfp, ok.inj h⟩
    · rw [if_neg heq] at h
      cases h
  · intro h
    exact ⟨_, h.1, by rw [if_pos rfl, h.2]⟩

lemma webBeginCheck_pins (hpin : S.pins peer = some pin) (identityPin : Option IdentityPin)
    (issuer : Except ClientError String) (b : Except ClientError BundleResponse) :
    (webBeginCheck C S peer identityPin issuer b false).1.pins = S.pins := by
  unfold webBeginCheck
  cases issuer with
  | error => rfl
  | ok =>
    cases identityPin.filter (hasPqSigPub C) with
    | some => rfl
    | none =>
      simp only
      cases htrust : ensurePeerIdentityPinForTrust C S.pins peer b false with
      | error => rfl
      | ok =>
        unfold ensurePeerIdentityPinForTrust at htrust
        cases hf : (S.pins peer).filter (hasPqSigPub C) with
        | some =>
          rw [hf] at htrust
          exact (congrArg Prod.fst (ok.inj htrust)).symm
        | none =>
          rw [hf] at htrust
          simp only [bind_ok] at htrust
          obtain ⟨bundle, -, pins', henforce, htrust⟩ := htrust
          obtain ⟨-, rfl⟩ := (webEnforceBundle_ok hpin).1 henforce
          rw [hpin] at htrust
          exact (congrArg Prod.fst (ok.inj htrust)).symm

/-- finishing a check leaves the pins alone -/
lemma ensurePeerTransparencyVerified_pins (kind : ClientKind) (identityPin : Option IdentityPin) (answers : CheckAnswers) :
    (ensurePeerTransparencyVerified C V kind S peer identityPin answers).1.pins =
      (beginCheck C kind S peer identityPin answers.pinning).1.pins := by
  unfold ensurePeerTransparencyVerified
  rcases beginCheck C kind S peer identityPin answers.pinning with ⟨S', e | p⟩
  · rfl
  · simp only
    cases finishCheck V kind p answers.answer answers.retry <;> rfl

variable (hpin : S.pins peer = some pin)
include hpin

/-- when the web client runs the handshake -/
lemma webEncryptDirectPayload_handshake (answers : CheckAnswers) (initiated : Except ClientError Unit) :
    (webEncryptDirectPayload C V S peer bundle false answers initiated).handshake = some b ↔
      b = bundle ∧ webBundleFingerprint C bundle = .ok pin.fingerprintSha256 ∧
        ∃ a, (ensurePeerTransparencyVerified C V .web S peer (some pin) answers).2 = .ok a := by
  unfold webEncryptDirectPayload
  cases hissuer : answers.pinning.issuer with
  | error =>
    simp [ensurePeerTransparencyVerified, beginCheck, webBeginCheck, hissuer]
  | ok =>
    simp only
    cases henforce : webEnforceBundle C S.pins peer bundle false with
    | error =>
      have hno : webBundleFingerprint C bundle ≠ .ok pin.fingerprintSha256 := by
        intro hfp
        rw [(webEnforceBundle_ok hpin).2 ⟨hfp, rfl⟩] at henforce
        cases henforce
      simp [hno]
    | ok =>
      obtain ⟨hfp, rfl⟩ := (webEnforceBundle_ok hpin).1 henforce
      simp only [hpin, hfp, true_and]
      rcases ensurePeerTransparencyVerified C V .web S peer (some pin) answers with ⟨S', e | a⟩
      · simp
      · simp [eq_comm]

lemma webEncryptDirectPayload_pins (answers : CheckAnswers) (haccepted : answers.pinning.accepted = false)
    (initiated : Except ClientError Unit) :
    (webEncryptDirectPayload C V S peer bundle false answers initiated).store.pins peer = some pin := by
  unfold webEncryptDirectPayload
  cases answers.pinning.issuer with
  | error => exact hpin
  | ok =>
    simp only
    cases henforce : webEnforceBundle C S.pins peer bundle false with
    | error => exact hpin
    | ok =>
      obtain ⟨-, rfl⟩ := (webEnforceBundle_ok hpin).1 henforce
      have hpins : (ensurePeerTransparencyVerified C V .web S peer (S.pins peer) answers).1.pins = S.pins := by
        rw [ensurePeerTransparencyVerified_pins, beginCheck, haccepted, webBeginCheck_pins hpin]
      simp only
      rcases hcheck : ensurePeerTransparencyVerified C V .web S peer (S.pins peer) answers with ⟨S', e | a⟩
      all_goals
        rw [hcheck] at hpins
        exact (congrFun hpins peer).trans hpin

/-! ## The Android client -/

/-- the pin the Android client has after `enforceIdentityPin` is the old one with the bundle's keys, or the bundle's -/
lemma androidEnforceIdentityPin_ok : androidEnforceIdentityPin C S.pins peer bundle false = .ok pins ↔
      bundleIdentityFingerprint C bundle = .ok pin.fingerprintSha256 ∧ pins = if androidPinCurrent pin bundle then S.pins
          else writeIdentityPin S.pins peer (androidPin bundle pin.fingerprintSha256) := by
  simp only [androidEnforceIdentityPin, hpin, bind_ok, Bool.false_eq_true, if_false]
  constructor
  · intro h
    obtain ⟨fingerprint, hfp, h⟩ := h
    by_cases heq : pin.fingerprintSha256 = fingerprint
    · subst heq
      rw [if_pos rfl, ← apply_ite Except.ok] at h
      exact ⟨hfp, (ok.inj h).symm⟩
    · rw [if_neg heq] at h
      cases h
  · intro h
    refine ⟨_, h.1, ?_⟩
    rw [if_pos rfl, ← apply_ite Except.ok, h.2]

/-- whatever `enforceIdentityPin` leaves pinned has the keys of the bundle -/
lemma androidEnforceIdentityPin_keys (h : androidEnforceIdentityPin C S.pins peer bundle false = .ok pins) :
    ∃ pin', pins peer = some pin' ∧ SameKeys pin' bundle := by
  obtain ⟨-, rfl⟩ := (androidEnforceIdentityPin_ok hpin).1 h
  by_cases hcurrent : androidPinCurrent pin bundle = true
  · rw [if_pos hcurrent]
    simp only [androidPinCurrent, Bool.and_eq_true, decide_eq_true_eq] at hcurrent
    obtain ⟨⟨⟨-, hx⟩, hsig⟩, hpq⟩ := hcurrent
    exact ⟨pin, hpin, hx.symm, hsig.symm, hpq.symm⟩
  · rw [if_neg hcurrent]
    exact ⟨_, Function.update_self .., rfl, rfl, rfl⟩

omit hpin

/-- after a send whose handshake was run, the peer is pinned to the keys of the bundle -/
lemma androidSendMessageFlow_keys (hpin : S.pins peer = some pin) (answers : CheckAnswers) (initiated : Except ClientError Unit)
    (h : (androidSendMessageFlow C V S peer bundle false answers initiated).handshake = some b) :
    ∃ pin', (androidSendMessageFlow C V S peer bundle false answers initiated).store.pins peer = some pin' ∧
      SameKeys pin' bundle := by
  unfold androidSendMessageFlow at h ⊢
  cases henforce : androidEnforceIdentityPin C S.pins peer bundle false with
  | error =>
    rw [henforce] at h
    cases h
  | ok pins =>
    obtain ⟨pin', hpin', hkeys⟩ := androidEnforceIdentityPin_keys hpin henforce
    cases initiated with
    | error => exact ⟨pin', hpin', hkeys⟩
    | ok =>
      simp only [ensurePeerTransparencyVerified_pins, beginCheck]
      cases answers.pinning.issuer with
      | error => exact ⟨pin', hpin', hkeys⟩
      | ok =>
        simp only [androidBeginCheck]
        cases h : ensurePeerIdentityPinForTransparency C pins peer (.ok bundle) with
        | error => exact ⟨pin', hpin', hkeys⟩
        | ok =>
          -- given the same bundle, the transparency check pins no other keys
          unfold ensurePeerIdentityPinForTransparency at h
          cases hf : (pins peer).filter (hasPqSigPub C) with
          | some =>
            rw [hf] at h
            cases h
            exact ⟨pin', hpin', hkeys⟩
          | none =>
            rw [hf] at h
            simp only [bind_ok, hpin', check_ok] at h
            obtain ⟨b, hb, fingerprint, -, -, h⟩ := h
            cases hb
            cases h
            exact ⟨_, Function.update_self .., rfl, rfl, rfl⟩

lemma androidSendMessageFlow_handshake (hpin : S.pins peer = some pin) (answers : CheckAnswers)
    (initiated : Except ClientError Unit) :
    (androidSendMessageFlow C V S peer bundle false answers initiated).handshake = some b ↔
      b = bundle ∧ bundleIdentityFingerprint C bundle = .ok pin.fingerprintSha256 := by
  unfold androidSendMessageFlow
  cases henforce : androidEnforceIdentityPin C S.pins peer bundle false with
  | error =>
    have hno : bundleIdentityFingerprint C bundle ≠ .ok pin.fingerprintSha256 := by
      intro hfp
      rw [(androidEnforceIdentityPin_ok hpin).2 ⟨hfp, rfl⟩] at henforce
      cases henforce
    simp [hno]
  | ok =>
    have hfp := ((androidEnforceIdentityPin_ok hpin).1 henforce).1
    cases initiated <;> simp [hfp, eq_comm]

/-! ## Sessions are opened with the pinned keys -/

/-- for the web client: if the fingerprints agree and the log proves the pinned keys, the keys agree -/
def WebFingerprintBinds (C : Platform) (V : VerifierPrims Hash) (S : ClientStore) (peer : String) (pin : IdentityPin)
    (bundle : BundleResponse) (answers : CheckAnswers) : Prop :=
  webBundleFingerprint C bundle = .ok pin.fingerprintSha256 →
    (ensurePeerTransparencyVerified C V .web S peer (some pin) answers).2.isOk → SameKeys pin bundle

/-- for the Android client: if the fingerprints agree, the keys agree -/
def AndroidFingerprintBinds (C : Platform) (pin : IdentityPin) (bundle : BundleResponse) : Prop :=
  bundleIdentityFingerprint C bundle = .ok pin.fingerprintSha256 → SameKeys pin bundle

end

namespace Sample

/-- a bundle with the given X25519 key, next to the pinned fingerprint -/
def bundle (identityX25519Pub : String) : BundleResponse :=
  ⟨"alice", identityX25519Pub, "ed", "ml", "", "", "", "", "", "", none, none, some "fp", some 1, ""⟩

/-- the log grows and contains the pinned keys -/
def answers : CheckAnswers :=
  ⟨⟨.ok "key", .error (.server ""), false⟩, .ok ⟨"alice", grown⟩, .error ""⟩

end Sample

end PqMsg.Client
