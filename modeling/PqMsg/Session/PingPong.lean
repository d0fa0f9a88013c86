/-
The ping-pong of the DH ratchet.

`Synchronized P a b`: B has just ratcheted against A's current DH key. B's sending chain, sending header key and root key
come from one root step over A's root key, and A does not yet hold B's new DH key. On receiving B's first message A makes
the same root step (DH commutativity), opens the message, and makes a root step of its own, after which the pair is
synchronized with the roles exchanged. Two things stand in the way:

- on wire version 2 B's header is encrypted under the header key of B's last root step, which A can derive only from the
  DH key inside that header; the keys A tries are older ones;
- when B's first message carries a PQ step, B mixes the KEM secret into its root key before A's root step, and A after
  its own, so A's next chain does not come from B's root key.

`pingPong_iff`: nothing else does. `pingPong_v2_fails` is a synchronized pair on wire version 2.
-/
import PqMsg.Session.Delivery

namespace PqMsg.Session

open Lib Tlv Wire Ratchet UInt32 Except SessionState Sample

variable {Secret : Type} {P : Primitives Secret} {a b : SessionState Secret} {ns : Secret} {h : AdHeader} {rng : EncryptRng}

/-- B's last root step, taken from A's root key -/
def sendStep (P : Primitives Secret) (a b : SessionState Secret) : RootStepOutput Secret :=
  dhRootStep P a.rootKey b.localDh.secret b.remoteDhPub

/-- B has just ratcheted against A's current DH key, and A still holds another DH key of B -/
structure Synchronized (P : Primitives Secret) (a b : SessionState Secret) : Prop where
  versionA : a.version = Wire.wireVersion
  versionB : b.version = Wire.wireVersion
  suiteId : a.suiteId = b.suiteId
  wireVersion : a.negotiatedWireVersion = b.negotiatedWireVersion
  keyPairA : a.localDh.publicKey = P.dhPublic a.localDh.secret
  keyPairB : b.localDh.publicKey = P.dhPublic b.localDh.secret
  remoteB : b.remoteDhPub = a.localDh.publicKey
  remoteA : a.remoteDhPub ≠ b.localDh.publicKey
  rootB : b.rootKey = (sendStep P a b).rootKey
  chainB : b.sendingChain = ChainState.new (sendStep P a b).chainKey
  headerB : b.sendingHeaderKey = some (sendStep P a b).headerKey

/-- the header keys A holds already open the header of B's first message -/
def HeaderReadable (P : Primitives Secret) (a b : SessionState Secret) : Prop :=
  ∀ hb, (b.headerPlaintext 0 .none).encode = .ok hb →
    a.decryptV2Header P (b.protectHeader P hb) = .ok (b.headerPlaintext 0 .none)

/-- the root steps have no collisions: the chain key of a step determines the root key it started from, and mixing a KEM
secret in changes the root key -/
structure RootKdfSeparates (P : Primitives Secret) : Prop where
  chainKey_injective : ∀ dh r r', (kdfRootStep P r dh).chainKey = (kdfRootStep P r' dh).chainKey → r = r'
  mix_ne : ∀ r ss, mixRootWithPq P r ss ≠ r

/-! ## A's DH ratchet -/

/-- the session after the DH ratchet on a header with a new DH key -/
def SessionState.ratcheted (P : Primitives Secret) (s : SessionState Secret) (ns : Secret) (h : AdHeader) : SessionState Secret :=
  (s.skipUntil P s.remoteDhPub h.prevChainLen).1.applyDhRatchet P ns h.senderDhPub

lemma ratchetIfNew_new {s : SessionState Secret} (hd : h.senderDhPub ≠ s.remoteDhPub) :
    s.ratchetIfNew P ns h = (s.ratcheted P ns h, .ok ()) := by
  simp [ratchetIfNew, hd, ratcheted, skipUntil_eq]

/-- what the ratchet sets, in terms of the session before -/
lemma ratcheted_fields (s : SessionState Secret) (ns : Secret) (h : AdHeader) :
    let r := dhRootStep P s.rootKey s.localDh.secret h.senderDhPub
    let t := dhRootStep P r.rootKey ns h.senderDhPub
    (s.ratcheted P ns h).rootKey = t.rootKey ∧ (s.ratcheted P ns h).sendingChain = ChainState.new t.chainKey ∧
      (s.ratcheted P ns h).sendingHeaderKey = some t.headerKey ∧
      (s.ratcheted P ns h).receivingChain = ChainState.new r.chainKey ∧
      (s.ratcheted P ns h).localDh = generateKeypair P ns ∧ (s.ratcheted P ns h).remoteDhPub = h.senderDhPub ∧
      (s.ratcheted P ns h).version = s.version ∧ (s.ratcheted P ns h).suiteId = s.suiteId ∧
      (s.ratcheted P ns h).negotiatedWireVersion = s.negotiatedWireVersion := by
  simp only [ratcheted, skipUntil_eq, applyDhRatchet, generateKeypair]
  exact ⟨trivial, trivial, trivial, trivial, trivial, trivial, trivial, trivial, trivial⟩

/-- A's receiving root step on B's new key is B's sending root step -/
lemma recvStep_eq (hD : DhCommutes P) (hs : Synchronized P a b) :
    dhRootStep P a.rootKey a.localDh.secret b.localDh.publicKey = sendStep P a b := by
  rw [sendStep, hs.remoteB, hs.keyPairA, hs.keyPairB]
  unfold dhRootStep
  rw [hD]

/-- the header of B's first message -/
lemma firstHeader (hs : Synchronized P a b) (rng : EncryptRng) (m ad : Bytes) (pq : PqFields) :
    (b.encrypt P rng m ad).1.adHeader 0 pq = ⟨Wire.wireVersion, b.suiteId, b.localDh.publicKey, 0, b.prevChainLen, pq⟩ := by
  obtain ⟨rk, pqs, he⟩ := encrypt_frame P b rng m ad
  simp [he, adHeader, hs.versionB]

/-- A's session once the key of B's first message is taken: the ratcheted one, with chain and cache moved on -/
lemma takeFirst (hD : DhCommutes P) (hs : Synchronized P a b) (ns : Secret) (hdh : h.senderDhPub = b.localDh.publicKey)
    (hnum : h.msgNum = 0) : ∃ rcv cache, (a.ratcheted P ns h).takeMessageKey P h =
        ({ a.ratcheted P ns h with receivingChain := rcv, skipped := cache },
          .ok (messageKeyOf P (sendStep P a b).chainKey)) := by
  obtain ⟨-, -, -, hrcv, -⟩ := ratcheted_fields (P := P) a ns h
  rw [hdh, recvStep_eq hD hs] at hrcv
  have htake := takeMessageKey_chain (P := P) (s := a.ratcheted P ns h) (h := h)
    (by rw [hnum, hrcv]; exact (by decide : ¬ (0 : UInt32) < 0)) (by rw [hnum]; decide)
  rw [hrcv, hnum] at htake
  exact ⟨_, _, htake⟩

/-! ## The first message -/

/-- **Readable and without a PQ step**: A opens B's first message and the roles are exchanged -/
lemma pingPong_ok (hA : AeadCorrect P) (hD : DhCommutes P) (hs : Synchronized P a b) {m ad wire : Bytes}
    (he : (b.encrypt P rng m ad).2 = .ok wire) (hns : P.dhPublic ns ≠ a.localDh.publicKey) (hpq : b.pqDue 0 = false)
    (hh : b.isV2 = true → HeaderReadable P a b) :
    (a.decrypt P ns wire ad).2 = .ok m ∧ Synchronized P (b.encrypt P rng m ad).1 (a.decrypt P ns wire ad).1 := by
  have hnum : b.sendingChain.nextMsgNum = 0 := by rw [hs.chainB]; rfl
  have hkey : b.sendingChain.chainKey = (sendStep P a b).chainKey := by rw [hs.chainB]; rfl
  obtain ⟨-, hseal⟩ := encrypt_ok he
  rcases encrypt_ok_pq he with ⟨-, hfields, hb'⟩ | ⟨hdue, -⟩
  · rw [hnum, hkey, hfields] at hseal
    obtain ⟨aad, ct, hb, haad, henc, hhb, hdec⟩ := sealMessage_ok hseal
    have hver : (b.encrypt P rng m ad).1.version = Wire.wireVersion := by rw [hb']; exact hs.versionB
    have hread : (b.encrypt P rng m ad).1.isV2 = true → a.decryptV2Header P ((b.encrypt P rng m ad).1.protectHeader P hb) =
          .ok ((b.encrypt P rng m ad).1.headerPlaintext 0 .none) := by
      intro hv
      have henc' := hhb hv
      rw [hb'] at hv henc' ⊢
      exact hh hv hb henc'
    have hinc : a.incomingFields P ((b.encrypt P rng m ad).1.frame P rng.nonce 0 .none ct hb) = _ :=
      incomingFields_frame hver hread
    rw [firstHeader hs] at hinc
    have hopen := openMessage_frame hA haad henc
    rw [firstHeader hs] at hopen
    generalize hhd : (⟨Wire.wireVersion, b.suiteId, b.localDh.publicKey, 0, b.prevChainLen, .none⟩ : AdHeader) = h at hinc hopen
    have hdh : h.senderDhPub = b.localDh.publicKey := by rw [← hhd]
    have hsuite : h.suiteId = a.suiteId := by rw [← hhd]; exact hs.suiteId.symm
    have hrat : a.ratchetIfNew P ns h = (a.ratcheted P ns h, .ok ()) :=
      ratchetIfNew_new (by rw [hdh]; exact Ne.symm hs.remoteA)
    obtain ⟨rcv, cache, htake⟩ := takeFirst hD hs ns hdh (by rw [← hhd])
    have hfull := decryptIncoming_ok ⟨h, rng.nonce, ct, (b.encrypt P rng m ad).1.isV2⟩ hsuite hrat htake hopen
      (pqReceive_none (by rw [← hhd]; rfl))
    rw [decrypt_eq hdec hinc, hfull]
    refine ⟨rfl, ?_⟩
    obtain ⟨h1, h2, h3, -, h5, h6, h7, h8, h9⟩ := ratcheted_fields (P := P) a ns h
    rw [hdh, recvStep_eq hD hs, ← hs.rootB] at h1 h2 h3
    rw [hdh] at h6
    rw [hb']
    refine ⟨hs.versionB, h7.trans hs.versionA, (h8.trans hs.suiteId).symm, (h9.trans hs.wireVersion).symm, hs.keyPairB,
      ?_, h6, ?_, ?_, ?_, ?_⟩
    · simp [h5, generateKeypair]
    · simp only [h5, generateKeypair]
      intro e
      exact hns (e.symm.trans hs.remoteB)
    · simp only [sendStep, h1, h5, h6]; rfl
    · simp only [sendStep, h2, h5, h6]; rfl
    · simp only [sendStep, h3, h5, h6]; rfl
  · rw [hnum, hpq] at hdue
    cases hdue

/-- what A has accepted as B's first message is B's header, read from the frame -/
lemma accepted_header (hB : AeadBinds P) (hs : Synchronized P a b) {m ad wire p : Bytes}
    (he : (b.encrypt P rng m ad).2 = .ok wire) {a' : SessionState Secret} {d : DecodedWireMessage} {inc : Incoming}
    {s1 s2 : SessionState Secret} {k : Secret} (hacc : Accepts P a ns wire ad p a' d inc s1 s2 k) :
    inc.header = ⟨Wire.wireVersion, b.suiteId, b.localDh.publicKey, 0, b.prevChainLen, b.nextPqFields P rng⟩ ∧
    (b.isV2 = true → ∃ hb, ((b.encrypt P rng m ad).1.headerPlaintext 0 (b.nextPqFields P rng)).encode = .ok hb ∧
      a.decryptV2Header P ((b.encrypt P rng m ad).1.protectHeader P hb) =
        .ok ((b.encrypt P rng m ad).1.headerPlaintext 0 (b.nextPqFields P rng))) := by
  have hnum : b.sendingChain.nextMsgNum = 0 := by rw [hs.chainB]; rfl
  obtain ⟨-, hseal⟩ := encrypt_ok he
  rw [hnum] at hseal
  obtain ⟨aad, ct, hb, haad, henc, hhb, hdec⟩ := sealMessage_ok hseal
  obtain ⟨rk, pqs, hb'⟩ := encrypt_frame P b rng m ad
  have hd : d = (b.encrypt P rng m ad).1.frame P rng.nonce 0 (b.nextPqFields P rng) ct hb := by
    have hd := hacc.decoded
    rw [hdec, ok.injEq] at hd
    exact hd.symm
  have hfields := hacc.fields
  rw [hd] at hfields
  obtain ⟨aad', q, haad', hopen, -⟩ := openMessage_ok.1 hacc.opened
  by_cases hv : (b.encrypt P rng m ad).1.isV2 = true
  · -- version 2: the header is what A's keys made of the header bytes
    rw [frame, if_pos hv] at hfields
    simp only [incomingFields] at hfields
    split at hfields
    · cases hfields
    · rename_i hdr hhdr
      simp only [ok.injEq] at hfields
      subst hfields
      obtain ⟨-, rfl⟩ := hB _ _ _ _ _ henc _ _ _ hopen
      have hheader := (sessionAssociatedData_injective haad' haad).1
      refine ⟨hheader.trans (firstHeader hs rng m ad _), fun _ => ⟨hb, hhb hv, ?_⟩⟩
      rw [hhdr]
      simp only [adHeader, AdHeader.mk.injEq] at hheader
      obtain ⟨-, -, h3, h4, h5, h6⟩ := hheader
      simp [headerPlaintext, ← h3, ← h4, ← h5, ← h6]
  · rw [frame, if_neg hv] at hfields
    simp only [incomingFields, ok.injEq] at hfields
    subst hfields
    obtain ⟨-, rfl⟩ := hB _ _ _ _ _ henc _ _ _ hopen
    refine ⟨(sessionAssociatedData_injective haad' haad).1.trans (firstHeader hs rng m ad _), fun hv2 => ?_⟩
    rw [hb'] at hv
    exact absurd hv2 hv

/-- **Ping-pong, exactly when.** A opens B's first message and the pair is synchronized with the roles exchanged, if and
only if the message carries no PQ step and, on wire version 2, A's present header keys already open B's header. -/
theorem pingPong_iff (hA : AeadCorrect P) (hB : AeadBinds P) (hD : DhCommutes P) (hK : RootKdfSeparates P)
    (a b : SessionState Secret) (hs : Synchronized P a b) (rng : EncryptRng) (m ad wire : Bytes)
    (he : (b.encrypt P rng m ad).2 = .ok wire) (ns : Secret) (hns : P.dhPublic ns ≠ a.localDh.publicKey) :
    ((a.decrypt P ns wire ad).2 = .ok m ∧ Synchronized P (b.encrypt P rng m ad).1 (a.decrypt P ns wire ad).1) ↔
      b.pqDue 0 = false ∧ (b.isV2 = true → HeaderReadable P a b) := by
  constructor
  · intro h
    obtain ⟨hok, hsync⟩ := h
    have hnum : b.sendingChain.nextMsgNum = 0 := by rw [hs.chainB]; rfl
    have hdec : a.decrypt P ns wire ad = ((a.decrypt P ns wire ad).1, .ok m) := Prod.ext rfl hok
    obtain ⟨d, inc, s1, s2, k, hacc⟩ := decrypt_ok hdec
    obtain ⟨hheader, hread⟩ := accepted_header hB hs he hacc
    rcases encrypt_ok_pq he with ⟨hdue, hfields, hb'⟩ | ⟨hdue, st, kem, enc, next, hstep⟩
    · rw [hnum] at hdue
      refine ⟨hdue, fun hv hb hhb => ?_⟩
      obtain ⟨hb2, hhb2, hdec⟩ := hread hv
      rw [hfields, hb'] at hhb2 hdec
      have hsame : hb = hb2 := by
        have h2 : (b.headerPlaintext 0 .none).encode = .ok hb2 := hhb2
        rw [hhb, ok.injEq] at h2
        exact h2
      rw [hsame]
      exact hdec
    · -- with a PQ step, A's new chain comes from B's root key before the mixing
      exfalso
      have hdh : inc.header.senderDhPub = b.localDh.publicKey := by rw [hheader]
      have hnum0 : inc.header.msgNum = 0 := by rw [hheader]
      have hrat := hacc.ratcheted
      rw [ratchetIfNew_new (by rw [hdh]; exact Ne.symm hs.remoteA), Prod.mk.injEq] at hrat
      obtain ⟨rfl, -⟩ := hrat
      obtain ⟨rcv, cache, htake⟩ := takeFirst hD hs ns hdh hnum0
      have hkey := hacc.key
      rw [htake, Prod.mk.injEq] at hkey
      obtain ⟨rfl, -⟩ := hkey
      obtain ⟨rk, pqs, hleft, -⟩ := pqReceive_frame hacc.received
      obtain ⟨-, h2, -, -, h5, h6, -⟩ := ratcheted_fields (P := P) a ns inc.header
      have hchain := hsync.chainB
      rw [hleft] at hchain
      simp only [h2, sendStep, h5, h6, generateKeypair, hdh, recvStep_eq hD hs, hstep.left, ChainState.new,
        ChainState.mk.injEq, and_true] at hchain
      have heq := hK.chainKey_injective _ _ _ hchain
      have hroot : b.rootKey = (dhRootStep P a.rootKey b.localDh.secret b.remoteDhPub).rootKey := hs.rootB
      rw [← hroot] at heq
      exact hK.mix_ne b.rootKey enc.sharedSecret heq.symm
  · intro h
    obtain ⟨hpq, hh⟩ := h
    exact pingPong_ok hA hD hs he hns hpq hh

/-! ## A sample pair -/

lemma sample_rootKdfSeparates : RootKdfSeparates primitives := by
  refine ⟨?_, ?_⟩
  · intro dh r r' h
    simp only [kdfRootStep, primitives, Option.getD_some] at h
    rw [UInt32.add_left_inj, UInt32.add_left_inj] at h
    -- multiply by the inverse of 3
    have hinv : ∀ x : UInt32, 2863311531 * (3 * x) = x := by
      intro x
      rw [← UInt32.mul_assoc, show (2863311531 : UInt32) * 3 = 1 by decide, UInt32.one_mul]
    rw [← hinv r, h, hinv]
  · intro r ss h
    simp only [mixRootWithPq, hkdfSha256_32, primitives, Option.getD_some] at h
    generalize ss * 31 + UInt32.ofNat (infoPqStep.length + 1 + 0 * 7) = x at h
    have h' := congrArg UInt32.toNat h
    have hr := r.toNat_lt
    simp only [UInt32.toNat_add, UInt32.toNat_mul, UInt32.reduceToNat] at h'
    omega

variable (wireVersion : UInt16)

/-- B: a responder that has just ratcheted against A's DH key -/
def sampleB : SessionState UInt32 :=
  (fromHandshake Sample.primitives .responder 5 (generateKeypair Sample.primitives 4)
    (generateKeypair Sample.primitives 8).publicKey 1 wireVersion 2).applyDhRatchet Sample.primitives 9
    (generateKeypair Sample.primitives 3).publicKey

/-- A: an initiator that holds B's previous DH key and the root key of B's receiving step -/
def sampleA : SessionState UInt32 :=
  fromHandshake Sample.primitives .initiator
    (dhRootStep Sample.primitives 5 4 (generateKeypair Sample.primitives 3).publicKey).rootKey
    (generateKeypair Sample.primitives 3) (generateKeypair Sample.primitives 4).publicKey 1 wireVersion 2

lemma sample_synchronized : Synchronized primitives (sampleA wireVersion) (sampleB wireVersion) := by
  have hnew : (generateKeypair primitives 4).publicKey ≠ (generateKeypair primitives 9).publicKey := by
    decide
  exact ⟨rfl, rfl, rfl, rfl, rfl, rfl, rfl, hnew, rfl, rfl, rfl⟩

/-- B's first message -/
def sampleWire : Bytes :=
  (((sampleB wireVersion).encrypt Sample.primitives sampleRng [7] []).2.toOption).getD []

theorem pingPong_iff_v1 :
    ((sampleA 1).decrypt Sample.primitives 12 (sampleWire 1) []).2 = .ok [7] ∧
      Synchronized Sample.primitives ((sampleB 1).encrypt Sample.primitives sampleRng [7] []).1
        ((sampleA 1).decrypt Sample.primitives 12 (sampleWire 1) []).1 :=
  (pingPong_iff aeadCorrect aeadBinds dhCommutes sample_rootKdfSeparates (sampleA 1) (sampleB 1)
    (sample_synchronized 1) sampleRng [7] [] (sampleWire 1) (by decide +kernel) 12 (by decide)).2
    ⟨by decide, fun h => absurd h (by decide)⟩

/-- **Wire version 2 breaks the ping-pong**: the pair is synchronized, B's first message is encrypted, and A cannot read
its header -/
theorem pingPong_v2_fails :
    Synchronized Sample.primitives (sampleA 2) (sampleB 2) ∧
    ((sampleB 2).encrypt Sample.primitives sampleRng [7] []).2 = .ok (sampleWire 2) ∧
    ((sampleA 2).decrypt Sample.primitives 12 (sampleWire 2) []).2 =
      .error (.invalidTlv "declared length exceeds input") :=
  ⟨sample_synchronized 2, by decide +kernel, by decide +kernel⟩

end PqMsg.Session
