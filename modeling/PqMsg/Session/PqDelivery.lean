/-
Delivery with the PQ ratchet.

The PQ keys of each role are numbered in the order of their generation: `Keyring` gives, for a numbering `K`, what a
role's ratchet state holds after `rot` rotations (its current key is number `rot`, the history the numbers before it as
far as the bound reaches) and which of the peer's keys it encapsulates to. A PQ step addressed to number `target` can be
received as long as `rot ≤ target + max_key_history` (`receiverStep_covered`).

- `delivery_with_pq`: in every run within the cache windows in which each delivered PQ step is covered by its receiver's
  key history, every delivery returns its plaintext.
- `history_overrun`: the window alone is not enough. With a history of one key, a message that was encapsulated to the
  receiver's initial key fails after the receiver has sent twice.
-/
import PqMsg.Session.Delivery

namespace PqMsg.Session

open Lib Wire Ratchet Function List World PqRatchetState

variable {Secret : Type} {P : Primitives Secret} {c : Setup Secret} {q : PqSetup Secret}

/-! ## Assumptions on KEM and hash -/

/-- a key pair of the run: an initial one or one the KEM generates -/
def PqSetup.IsKey (q : PqSetup Secret) (k : KemKeyPair Secret) : Prop :=
  (∃ r, k = q.key r) ∨ ∃ rng, q.kem.keypair rng = .ok k

/-- KEM correctness for the keys of the run -/
def PqSetup.KemCorrect (q : PqSetup Secret) : Prop := ∀ k, q.IsKey k → q.kem.Valid k

/-- no two public keys of the run share a SHA-256 hash -/
def PqSetup.HashSeparates (P : Primitives Secret) (q : PqSetup Secret) : Prop :=
  ∀ k k', q.IsKey k → q.IsKey k' → P.sha256 k.publicKey = P.sha256 k'.publicKey → k.publicKey = k'.publicKey

/-- a delivered PQ step addresses a key that its receiver has rotated away at most `max_key_history` times -/
def HistoryCovers (q : PqSetup Secret) (w : World Secret) : Op Secret → Prop
  | .send _ _ _ _ => True
  | .deliver d i _ => ∀ p ∈ (w.inFlight d)[i]?, p.steps = true → w.rot d.other ≤ p.target + q.maxKeyHistory d.other

instance (q : PqSetup Secret) (w : World Secret) : ∀ o, Decidable (HistoryCovers q w o)
  | .send _ _ _ _ => isTrue trivial
  | .deliver d i _ => inferInstanceAs (Decidable (∀ p ∈ (w.inFlight d)[i]?, _))

/-! ## Numbered keys -/

/-- the ratchet state of role `r` after `rot` rotations, holding the peer's key number `seen` -/
structure Keyring (q : PqSetup Secret) (K : SessionRole → ℕ → KemKeyPair Secret) (r : SessionRole)
    (st : PqRatchetState Secret) (rot seen : ℕ) : Prop where
  bound : st.maxKeyHistory = q.maxKeyHistory r
  held : ∀ j, j ≤ rot → j ≤ q.maxKeyHistory r → (st.localKey :: st.localKeyHistory)[j]? = some (K r (rot - j))
  own : ∀ k ∈ st.localKey :: st.localKeyHistory, ∃ g, g ≤ rot ∧ k = K r g
  remote : st.remotePublicKey = (K r.other seen).publicKey

/-- the PQ fields of role `d`'s packet: none, or a step that encapsulates `ss` to the receiver's key number `target` and
advertises the sender's key number `gen` -/
def PqPacket (P : Primitives Secret) (q : PqSetup Secret) (K : SessionRole → ℕ → KemKeyPair Secret)
    (rot : SessionRole → ℕ) (d : SessionRole) (p : Packet) : Prop :=
  p.pq = .none ∨ p.target ≤ rot d.other ∧ p.gen ≤ rot d ∧ ∃ rng enc,
    q.kem.encapsulate (K d.other p.target).publicKey rng = .ok enc ∧
    p.pq = ⟨some enc.ciphertext, some (hashPublicKey P (K d.other p.target).publicKey), some (K d p.gen).publicKey⟩

structure PqInv (P : Primitives Secret) (q : PqSetup Secret) (K : SessionRole → ℕ → KemKeyPair Secret)
    (w : World Secret) : Prop where
  keys : ∀ r g, g ≤ w.rot r → q.IsKey (K r g)
  seen : ∀ r, w.seen r ≤ w.rot r.other
  ring : ∀ r, ∃ st, (w.st r).pqState = some st ∧ Keyring q K r st (w.rot r) (w.seen r)
  packets : ∀ d, ∀ p ∈ w.inFlight d, PqPacket P q K w.rot d p

lemma start_pqInv (hc : c.pq = some q) : PqInv P q (fun r _ => q.key r) (start P c) := by
  refine ⟨fun r g _ => .inl ⟨r, rfl⟩, fun r => Nat.le_refl _, ?_, ?_⟩
  · intro r
    refine ⟨q.state r, by simp only [start, Setup.session, hc]; rfl, rfl, ?_, ?_, rfl⟩
    · intro j hj _
      have hj0 : j = 0 := Nat.le_zero.1 hj
      rw [hj0]; rfl
    · intro k hk
      exact ⟨0, Nat.le_refl _, mem_singleton.1 hk⟩
  · intro d p hp; cases hp

variable {st : PqRatchetState Secret} {K : SessionRole → ℕ → KemKeyPair Secret} {r d : SessionRole} {rot seen : ℕ}
  {w : World Secret} {next : KemKeyPair Secret} {p : Packet}

/-- among keys of the run, the key found by an addressed hash has the addressed public key -/
lemma selectLocalSecretKey_held (hsep : q.HashSeparates P) {k : KemKeyPair Secret}
    (hown : ∀ k' ∈ st.localKey :: st.localKeyHistory, q.IsKey k') (hk : q.IsKey k)
    (hheld : ∃ k' ∈ st.localKey :: st.localKeyHistory, hashPublicKey P k'.publicKey = hashPublicKey P k.publicKey) :
    ∃ k', st.selectLocalSecretKey P (some (hashPublicKey P k.publicKey)) = .ok k'.secretKey ∧ q.IsKey k' ∧
      k'.publicKey = k.publicKey := by
  obtain ⟨k0, hk0, hhash⟩ := hheld
  simp only [selectLocalSecretKey]
  cases hf : (st.localKey :: st.localKeyHistory).find? (fun x => hashPublicKey P x.publicKey = hashPublicKey P k.publicKey) with
  | none =>
    rw [List.find?_eq_none] at hf
    exact absurd (by simpa using hhash) (hf k0 hk0)
  | some k' =>
    have hh : hashPublicKey P k'.publicKey = hashPublicKey P k.publicKey := by simpa using List.find?_some hf
    have hk' := hown k' (mem_of_find?_eq_some hf)
    exact ⟨k', rfl, hk', hsep _ _ hk' hk hh⟩

/-- **A covered step is received**: the addressed key is found, and the receiver derives the sender's secret -/
lemma receiverStep_covered (hkem : q.KemCorrect) (hsep : q.HashSeparates P) {target : ℕ}
    (hr : Keyring q K r st rot seen) (hkeys : ∀ g, g ≤ rot → q.IsKey (K r g)) (ht : target ≤ rot)
    (hcov : rot ≤ target + q.maxKeyHistory r) {rng : Bytes} {enc : KemEncapsulation Secret}
    (he : q.kem.encapsulate (K r target).publicKey rng = .ok enc) (rk : Secret) (next : Bytes) (num : UInt32) :
    receiverStep P st q.kem rk enc.ciphertext (some (hashPublicKey P (K r target).publicKey)) (some next) num =
      .ok (mixRootWithPq P rk enc.sharedSecret, st.applyRemotePublicKeyUpdate next num) := by
  have hmem : K r target ∈ st.localKey :: st.localKeyHistory := by
    have := hr.held (rot - target) (by omega) (by omega)
    rw [Nat.sub_sub_self ht] at this
    exact mem_of_getElem? this
  have hown : ∀ k ∈ st.localKey :: st.localKeyHistory, q.IsKey k := by
    intro k hk
    obtain ⟨g, hg, hkg⟩ := hr.own k hk
    rw [hkg]
    exact hkeys g hg
  obtain ⟨k, hsk, hk, hpub⟩ := selectLocalSecretKey_held hsep hown (hkeys _ ht) ⟨_, hmem, rfl⟩
  have hdec : q.kem.decapsulate k.secretKey enc.ciphertext = .ok enc.sharedSecret :=
    hkem k hk rng enc (by rw [hpub]; exact he)
  simp [receiverStep, hsk, hdec]

/-! ## Steps -/

/-- the numbering after role `d` has generated `next` as its number `n` -/
def addKey (K : SessionRole → ℕ → KemKeyPair Secret) (d : SessionRole) (n : ℕ) (next : KemKeyPair Secret) :
    SessionRole → ℕ → KemKeyPair Secret :=
  fun r g => if r = d ∧ g = n then next else K r g

lemma addKey_old {n g : ℕ} (h : r = d → g < n) : addKey K d n next r g = K r g := by
  unfold addKey
  rw [if_neg]
  intro ⟨hr, hg⟩
  have := h hr
  omega

lemma addKey_new (K : SessionRole → ℕ → KemKeyPair Secret) (d : SessionRole) (n : ℕ) (next : KemKeyPair Secret) :
    addKey K d n next d n = next := if_pos ⟨rfl, rfl⟩

lemma Keyring.rotate (h : Keyring q K r st rot seen) (next : KemKeyPair Secret) :
    Keyring q (addKey K r (rot + 1) next) r (st.commitLocalKeyRotation next) (rot + 1) seen := by
  refine ⟨h.bound, ?_, ?_, ?_⟩
  · intro j hj hjb
    cases j with
    | zero => simp [commitLocalKeyRotation, addKey_new]
    | succ j =>
      have hj' := h.held j (by omega) (by omega)
      simp only [commitLocalKeyRotation, List.getElem?_cons_succ, h.bound]
      rw [List.getElem?_take, if_pos (by omega), hj', addKey_old (by intro _; omega), Nat.succ_sub_succ]
  · intro k hk
    rcases mem_cons.1 hk with hk | hk
    · exact ⟨rot + 1, Nat.le_refl _, by rw [hk, addKey_new]; rfl⟩
    · obtain ⟨g, hg, rfl⟩ := h.own k (mem_of_mem_take hk)
      exact ⟨g, by omega, (addKey_old (by intro _; omega)).symm⟩
  · rw [addKey_old (by intro hr; exact absurd hr r.other_ne)]
    exact h.remote

lemma Keyring.mono {n : ℕ} (h : Keyring q K r st rot seen) (next : KemKeyPair Secret) (hr : r ≠ d)
    (hseen : r.other = d → seen < n) : Keyring q (addKey K d n next) r st rot seen := by
  refine ⟨h.bound, ?_, ?_, ?_⟩
  · intro j hj hjb
    rw [addKey_old (fun e => absurd e hr)]
    exact h.held j hj hjb
  · intro k hk
    obtain ⟨g, hg, hkg⟩ := h.own k hk
    exact ⟨g, hg, by rw [addKey_old (fun e => absurd e hr)]; exact hkg⟩
  · rw [addKey_old hseen]
    exact h.remote

lemma PqPacket.mono {rot rot' : SessionRole → ℕ} (h : PqPacket P q K rot r p) (hrot : ∀ r, rot r ≤ rot' r) :
    PqPacket P q (addKey K d (rot d + 1) next) rot' r p := by
  rcases h with h | ⟨ht, hg, rng, enc, he, hp⟩
  · exact .inl h
  · have h1 : addKey K d (rot d + 1) next r.other p.target = K r.other p.target :=
      addKey_old (fun e => by rw [← e]; omega)
    have h2 : addKey K d (rot d + 1) next r p.gen = K r p.gen := addKey_old (fun e => by rw [← e]; omega)
    refine .inr ⟨ht.trans (hrot _), hg.trans (hrot _), rng, enc, ?_, ?_⟩
    · rw [h1]; exact he
    · rw [h1, h2]; exact hp

lemma rot_le_update (rot : SessionRole → ℕ) (d r : SessionRole) : rot r ≤ update rot d (rot d + 1) r := by
  rw [update_apply]
  split_ifs with hr
  · rw [hr]; omega
  · exact Nat.le_refl _

/-- the numbering stays one of keys of the run -/
lemma isKey_addKey {rot : SessionRole → ℕ} (h : ∀ r g, g ≤ rot r → q.IsKey (K r g)) (d : SessionRole)
    (hnext : q.IsKey next) (r : SessionRole) (g : ℕ) (hg : g ≤ update rot d (rot d + 1) r) :
    q.IsKey (addKey K d (rot d + 1) next r g) := by
  unfold addKey
  rw [update_apply] at hg
  split_ifs with hnew
  · exact hnext
  · refine h r g ?_
    split_ifs at hg with hr
    · have : g ≠ rot d + 1 := fun e => hnew ⟨hr, e⟩
      rw [hr]; omega
    · exact hg

lemma send_pqInv (h : PqInv P q K w) (d : SessionRole) (hkem : (w.st d).pqKem = some q.kem) (rng : EncryptRng) (m ad : Bytes) :
    ∃ K', PqInv P q K' (w.send P d rng m ad) := by
  rcases encrypt_pq P (w.st d) rng m ad with ⟨hpq, hst, -⟩ | ⟨st, kem, enc, next, hstep⟩
  · -- no PQ step: nothing moves, a packet carries no PQ fields
    have hrot : w.rotAfter P d rng = w.rot d := by simp [rotAfter, hpq, PqFields.none]
    refine ⟨K, ?_, ?_, ?_, ?_⟩
    · simpa only [send, hrot, update_eq_self] using h.keys
    · simpa only [send, hrot, update_eq_self] using h.seen
    · intro r
      simp only [send, hrot, update_eq_self, update_apply]
      split_ifs with hr
      · subst hr; rw [hst]; exact h.ring r
      · exact h.ring r
    · intro r p hp
      have hw : (w.send P d rng m ad).rot = w.rot := by simp [send, hrot]
      rw [hw]
      rcases mem_send hp with hp | ⟨rfl, hp⟩
      · exact h.packets r p hp
      · obtain ⟨wire, -, rfl⟩ := mem_sent hp
        exact .inl hpq
  · -- a PQ step: the new key pair gets the next number
    obtain ⟨st', hst', hring⟩ := h.ring d
    obtain ⟨rfl, rfl⟩ := hstep.unique hst' hkem
    have hrot : w.rotAfter P d rng = w.rot d + 1 := by simp [rotAfter, hstep.fields]
    have hle := rot_le_update w.rot d
    refine ⟨addKey K d (w.rot d + 1) next, ?_, ?_, ?_, ?_⟩
    · simp only [send, hrot]
      exact isKey_addKey h.keys d (.inr ⟨_, hstep.keypair⟩)
    · intro r
      simp only [send, hrot]
      exact (h.seen r).trans (hle _)
    · intro r
      simp only [send, hrot, update_apply]
      split_ifs with hr
      · subst hr
        refine ⟨_, by rw [hstep.left], hring.rotate next⟩
      · obtain ⟨st2, hst2, hring2⟩ := h.ring r
        refine ⟨st2, hst2, hring2.mono next hr fun e => ?_⟩
        have := h.seen r
        rw [e] at this; omega
    · intro r p hp
      simp only [send, hrot]
      rcases mem_send hp with hp | ⟨rfl, hp⟩
      · exact (h.packets r p hp).mono hle
      · obtain ⟨wire, -, rfl⟩ := mem_sent hp
        have hold : addKey K r (w.rot r + 1) next r.other (w.seen r) = K r.other (w.seen r) :=
          addKey_old (fun e => absurd e r.other_ne)
        refine .inr ⟨(h.seen r).trans (hle _), by rw [hrot, update_self], rng.encaps, enc, ?_, ?_⟩
        · rw [hold, ← hring.remote]; exact hstep.encaps
        · rw [hold, hrot, addKey_new, ← hring.remote]; exact hstep.fields

/-- **A covered delivery**: the PQ part goes through, and the numbering stays right -/
lemma deliver_pqInv (hkem : q.KemCorrect) (hsep : q.HashSeparates P) (hI : Inv P c w) (hc : c.pq = some q)
    (h : PqInv P q K w) {i : ℕ} (ns : Secret) (hp : (w.inFlight d)[i]? = some p)
    (hw : (undelivered (p.num :: w.delivered d)).length ≤ c.window d.other)
    (hcov : p.steps = true → w.rot d.other ≤ p.target + q.maxKeyHistory d.other) :
    Inv P c (w.deliver P d i ns) ∧ PqInv P q K (w.deliver P d i ns) := by
  obtain ⟨st, hst, hring⟩ := h.ring d.other
  have hkm : (w.st d.other).pqKem = some q.kem := by rw [(hI.static d.other).pqKem, hc]; rfl
  -- what the PQ part leaves: the same state, or the updated remote key
  have hgo : ∃ rk st', PqGoes P c d (w.st d.other) p rk (some st') ∧
      Keyring q K d.other st' (w.rot d.other) (p.seenAfter (some st) (w.seen d.other)) ∧
      p.seenAfter (some st) (w.seen d.other) ≤ w.rot d := by
    rcases h.packets d p (mem_of_getElem? hp) with hpq | ⟨ht, hg, rng, enc, he, hpq⟩
    · have hno : p.steps = false := by simp [Packet.steps, hpq, PqFields.none]
      refine ⟨(w.st d.other).rootKey, st, ?_, ?_, ?_⟩
      · intro rcv cache
        rw [← hst]
        exact pqReceive_none (by simp only [Setup.header, hpq]; rfl)
      · simpa [Packet.seenAfter, hno] using hring
      · have := h.seen d.other
        rw [SessionRole.other_other] at this
        simpa [Packet.seenAfter, hno] using this
    · have hyes : p.steps = true := by simp [Packet.steps, hpq]
      have hrcv := receiverStep_covered hkem hsep hring (fun g hg => h.keys d.other g hg) ht (hcov hyes) he
        (w.st d.other).rootKey (K d p.gen).publicKey p.num
      refine ⟨mixRootWithPq P (w.st d.other).rootKey enc.sharedSecret,
        st.applyRemotePublicKeyUpdate (K d p.gen).publicKey p.num, ?_, ?_, ?_⟩
      · intro rcv cache
        simp [SessionState.pqReceive, Setup.header, hpq, hst, hkm, hrcv]
      · by_cases hnum : p.num ≥ st.lastRemoteUpdateMsgNum
        · rw [applyRemotePublicKeyUpdate, if_pos hnum, Packet.seenAfter, if_pos ⟨hyes, hnum⟩]
          exact ⟨hring.bound, hring.held, hring.own, by rw [SessionRole.other_other]⟩
        · rw [applyRemotePublicKeyUpdate, if_neg hnum, Packet.seenAfter, if_neg (fun e => hnum e.2)]
          exact hring
      · have := h.seen d.other
        rw [SessionRole.other_other] at this
        simp only [Packet.seenAfter]
        split_ifs
        · exact hg
        · exact this
  obtain ⟨rk, st', hgoes, hring', hseen'⟩ := hgo
  obtain ⟨⟨rcv, cache, hdec⟩, hinv⟩ := deliver_inv hI ns hp hw hgoes
  refine ⟨hinv, ?_, ?_, ?_, ?_⟩
  · simpa only [deliver, hp] using h.keys
  · intro r
    simp only [deliver, hp, hdec, hst, update_apply]
    split_ifs with hr
    · rw [hr, SessionRole.other_other]; exact hseen'
    · exact h.seen r
  · intro r
    simp only [deliver, hp, hdec, hst, update_apply]
    split_ifs with hr
    · subst hr; exact ⟨st', rfl, hring'⟩
    · exact h.ring r
  · intro r p' hp'
    simpa only [deliver, hp] using h.packets r p' (mem_deliver hp')

lemma step_pqInv (hA : AeadCorrect P) (hkem : q.KemCorrect) (hsep : q.HashSeparates P) (hc : c.pq = some q)
    (o : Op Secret) (h : Inv P c w ∧ ∃ K, PqInv P q K w) (hw : InWindow c (step P w o)) (hcov : HistoryCovers q w o) :
    Inv P c (step P w o) ∧ ∃ K, PqInv P q K (step P w o) := by
  obtain ⟨hI, K, hK⟩ := h
  cases o with
  | send d rng m ad =>
    refine ⟨send_inv hA hI d rng m ad, send_pqInv hK d ?_ rng m ad⟩
    rw [(hI.static d).pqKem, hc]; rfl
  | deliver d i ns =>
    cases hp : (w.inFlight d)[i]? with
    | none =>
      have hsame : step P w (.deliver d i ns) = w := by simp [step, deliver, hp]
      rw [hsame]; exact ⟨hI, K, hK⟩
    | some p =>
      have hcov' : p.steps = true → w.rot d.other ≤ p.target + q.maxKeyHistory d.other := hcov p hp
      obtain ⟨h1, h2⟩ := deliver_pqInv hkem hsep hI hc hK ns hp (window_of_deliver hp hw) hcov'
      exact ⟨h1, K, h2⟩

/-- **Delivery with the PQ ratchet.** Under every interleaving of `encrypt` calls and deliveries that keeps both
directions within the receivers' cache windows, and in which every delivered PQ step addresses a key that its receiver
has rotated away at most `max_key_history` times, every delivery returns the message that was encrypted. -/
theorem delivery_with_pq (hA : AeadCorrect P) (c : Setup Secret) (q : PqSetup Secret) (hc : c.pq = some q)
    (hkem : q.KemCorrect) (hsep : q.HashSeparates P) (ops : List (Op Secret))
    (hl : Legal (step P) (fun w o => InWindow c (step P w o) ∧ HistoryCovers q w o) (start P c) ops) :
    AllDelivered (run (step P) (start P c) ops) := by
  have hinv := run_inv (fun w => Inv P c w ∧ ∃ K, PqInv P q K w)
    (fun w o h hw => step_pqInv hA hkem hsep hc o h hw.1 hw.2) ops ⟨start_inv P c, _, start_pqInv hc⟩ hl
  exact hinv.1.delivered

/-- the sample instance with the PQ ratchet at interval one and a history of one key -/
def samplePq : PqSetup UInt32 where
  kem := Sample.kem
  interval _ := 1
  key r := match r with
    | .initiator => ⟨[5, 1], 6⟩
    | .responder => ⟨[5, 2], 7⟩
  maxKeyHistory _ := 1

lemma samplePq_kemCorrect : samplePq.KemCorrect := by
  intro k hk
  rcases hk with ⟨r, rfl⟩ | ⟨rng, h⟩
  · cases r
    · exact Sample.kem_valid [5, 1]
    · exact Sample.kem_valid [5, 2]
  · exact Sample.kem_correct rng k h

lemma samplePq_hashSeparates : samplePq.HashSeparates Sample.primitives := fun _ _ _ _ h => h

def samplePqSetup : Setup UInt32 := { sampleSetup with pq := some samplePq }

/-- a message to the receiver's initial key arrives after the receiver has rotated once -/
def crossing : List (Op UInt32) :=
  [.send .responder sampleRng [20] [], .send .initiator sampleRng [10] [], .deliver .responder 0 0,
    .deliver .initiator 0 0]

theorem delivery_with_pq_crossing :
    (run (step Sample.primitives) (start Sample.primitives samplePqSetup) crossing).log.map Prod.fst = [[20], [10]] ∧
    AllDelivered (run (step Sample.primitives) (start Sample.primitives samplePqSetup) crossing) :=
  ⟨by decide +kernel, delivery_with_pq Sample.aeadCorrect samplePqSetup samplePq rfl samplePq_kemCorrect
    samplePq_hashSeparates crossing (by decide +kernel)⟩

/-- the same message arrives after the receiver has rotated twice -/
def overrun : List (Op UInt32) :=
  [.send .responder sampleRng [20] [], .send .initiator sampleRng [10] [], .send .initiator sampleRng [11] [],
    .deliver .responder 0 0]

/-- **The window alone is not enough**: the run stays within both windows and its delivery fails -/
theorem history_overrun :
    AeadCorrect Sample.primitives ∧ samplePq.KemCorrect ∧ samplePq.HashSeparates Sample.primitives ∧
    Legal (step Sample.primitives) (fun w o => InWindow samplePqSetup (step Sample.primitives w o))
      (start Sample.primitives samplePqSetup) overrun ∧
    (run (step Sample.primitives) (start Sample.primitives samplePqSetup) overrun).log =
      [([20], .error (.messageParsing "pq ratchet target key unavailable"))] :=
  ⟨Sample.aeadCorrect, samplePq_kemCorrect, samplePq_hashSeparates, by decide +kernel, by decide +kernel⟩

end PqMsg.Session
