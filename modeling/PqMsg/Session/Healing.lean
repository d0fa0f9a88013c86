/-
Post-compromise healing of the session protocol: it never happens between honest parties.

A party heals from a compromise of its chain keys when later message keys cannot be computed from them by the chain step
alone. Two mechanisms could bring fresh secrets into the chain keys, and neither does in an honest run:

- the DH ratchet runs only when a message carries a DH key other than the one the receiver holds, and from the
  handshake on each side holds the other's DH key, which therefore never changes;
- the PQ ratchet mixes fresh KEM secrets into the root key, and the root key reaches a chain only through the DH ratchet.

`Tracks` is the invariant of every honest run, with any reordering, loss or failed call: each direction stays on the one
chain that the handshake started. `never_heals`: whatever happens between a point and a later message, the key of that
message is obtainable from the chain keys that either party held at the point. `healing_fails` is a client run with full
round trips.
-/
import PqMsg.Session.PqDelivery

namespace PqMsg.Session

open Lib Wire Ratchet Nat

variable {Secret : Type} {P : Primitives Secret} {c : Setup Secret} {w : World Secret}

/-- `k` is a message key that the chain step alone reaches from the chain keys of `s` -/
def Obtainable (P : Primitives Secret) (s : SessionState Secret) (k : Secret) : Prop :=
  ∃ n, k = messageKeyAt P s.sendingChain.chainKey n ∨ k = messageKeyAt P s.receivingChain.chainKey n

/-- the key under which the next `encrypt` call seals -/
def SessionState.upcomingKey (P : Primitives Secret) (s : SessionState Secret) : Secret :=
  messageKeyOf P s.sendingChain.chainKey

/-- healing between the points after `a` and after `a ++ b`: no message key in use at the later point is obtainable from
chain keys held at the earlier one -/
def Heals (P : Primitives Secret) (c : Setup Secret) (a b : List (Op Secret)) : Prop :=
  ∀ x d, ((run (step P) (start P c) (a ++ b)).st d).sendingChain.nextMsgNum ≠ u32Max →
    ¬ Obtainable P ((run (step P) (start P c) a).st x) (((run (step P) (start P c) (a ++ b)).st d).upcomingKey P)

/-! ## Every honest run stays on the handshake's chains -/

structure Tracks (P : Primitives Secret) (c : Setup Secret) (w : World Secret) : Prop where
  static : ∀ r, Static P c r (w.st r)
  sending : ∀ d, (w.st d).sendingChain = chainAt P (c.chainKey P d) (w.st d).sendingChain.nextMsgNum
  receiving : ∀ d, (w.st d.other).receivingChain = chainAt P (c.chainKey P d) (w.st d.other).receivingChain.nextMsgNum
  ahead : ∀ d, (w.st d.other).receivingChain.nextMsgNum.toNat ≤ (w.st d).sendingChain.nextMsgNum.toNat
  pending : ∀ d, ∀ p ∈ w.inFlight d, p.num.toNat < (w.st d).sendingChain.nextMsgNum.toNat
  reads : ∀ d, ∀ p ∈ w.inFlight d, ∃ inc, Reads P c d p inc

lemma start_tracks (P : Primitives Secret) (c : Setup Secret) : Tracks P c (start P c) := by
  have h := start_inv P c
  refine ⟨h.static, fun d => (h.channel d).sending, fun d => (h.channel d).receiving, fun d => (h.channel d).ahead, ?_, ?_⟩
  · intro d p hp; cases hp
  · intro d p hp; cases hp

/-- the sending chain after `encrypt` is the same or one step further -/
lemma encrypt_chain {s : SessionState Secret} {ck : Secret} (hs : s.sendingChain = chainAt P ck s.sendingChain.nextMsgNum)
    (rng : EncryptRng) (m ad : Bytes) :
    (s.encrypt P rng m ad).1.sendingChain = chainAt P ck (s.encrypt P rng m ad).1.sendingChain.nextMsgNum ∧
      s.sendingChain.nextMsgNum.toNat ≤ (s.encrypt P rng m ad).1.sendingChain.nextMsgNum.toNat ∧
      (∀ wire, (s.encrypt P rng m ad).2 = .ok wire →
        s.sendingChain.nextMsgNum.toNat < (s.encrypt P rng m ad).1.sendingChain.nextMsgNum.toNat) := by
  obtain ⟨rk, pqs, he⟩ := encrypt_frame P s rng m ad
  by_cases hn : s.sendingChain.nextMsgNum = u32Max
  · have hwire : ∀ wire, (s.encrypt P rng m ad).2 = .ok wire → False := fun wire hw => (encrypt_ok hw).1 hn
    rw [he]
    simp only [if_pos hn]
    exact ⟨hs, le_refl _, fun wire hw => absurd hw (fun hw => hwire wire hw)⟩
  · rw [he]
    simp only [if_neg hn, toNat_succ_of_ne_max hn]
    exact ⟨Channel.chain_succ hs hn, le_succ _, fun _ _ => lt_succ_self _⟩

lemma send_tracks (h : Tracks P c w) (d : SessionRole) (rng : EncryptRng) (m ad : Bytes) :
    Tracks P c (w.send P d rng m ad) := by
  obtain ⟨hchain, hle, hlt⟩ := encrypt_chain (h.sending d) rng m ad
  have hsnd : ∀ r, (w.st r).sendingChain.nextMsgNum.toNat ≤ ((w.send P d rng m ad).st r).sendingChain.nextMsgNum.toNat := by
    intro r
    rw [send_st]
    split_ifs with hr
    · rw [hr]; exact hle
    · exact le_refl _
  refine ⟨?_, ?_, ?_, ?_, ?_, ?_⟩
  · intro r
    rw [send_st]
    split_ifs with hr
    · rw [hr]; exact (h.static d).encrypt rng m ad
    · exact h.static r
  · intro r
    rw [send_st]
    split_ifs with hr
    · rw [hr]; exact hchain
    · exact h.sending r
  · intro r
    rw [send_receivingChain]; exact h.receiving r
  · intro r
    rw [send_receivingChain]; exact (h.ahead r).trans (hsnd r)
  · intro r p hp
    rcases mem_send hp with hp | ⟨rfl, hp⟩
    · exact (h.pending r p hp).trans_le (hsnd r)
    · obtain ⟨wire, hw, rfl⟩ := mem_sent hp
      rw [send_st, if_pos rfl]
      exact hlt wire hw
  · intro r p hp
    rcases mem_send hp with hp | ⟨rfl, hp⟩
    · exact h.reads r p hp
    · obtain ⟨wire, hw, rfl⟩ := mem_sent hp
      obtain ⟨inc, hinc, -⟩ := encrypt_reads (h.static r) (h.sending r) hw (w.seen r) (w.rotAfter P r rng)
      exact ⟨inc, hinc⟩

lemma deliver_tracks (h : Tracks P c w) (d : SessionRole) (i : ℕ) (ns : Secret) : Tracks P c (w.deliver P d i ns) := by
  cases hp : (w.inFlight d)[i]? with
  | none =>
    have hsame : w.deliver P d i ns = w := by simp [World.deliver, hp]
    rw [hsame]; exact h
  | some p =>
    have hmem := List.mem_of_getElem? hp
    obtain ⟨inc, hinc⟩ := h.reads d p hmem
    have hlt := h.pending d p hmem
    have hmax : p.num ≠ u32Max := ne_u32Max_of_lt hlt
    obtain ⟨rcv, cache, rk, pqs, hdec, hcache, hrcv⟩ := decrypt_reads_frame hinc (h.static d.other) ns hmax
    have hst : ∀ r, (w.deliver P d i ns).st r = if r = d.other then
        { w.st d.other with receivingChain := rcv, skipped := cache, rootKey := rk, pqState := pqs } else w.st r := by
      intro r
      simp [World.deliver, hp, hdec, Function.update_apply]
    have hsnd : ∀ r, ((w.deliver P d i ns).st r).sendingChain = (w.st r).sendingChain := by
      intro r
      rw [hst]
      split_ifs with hr
      · rw [hr]
      · rfl
    have hck : (w.st d.other).receivingChain.chainKey =
        chainKeyAt P (c.chainKey P d) (w.st d.other).receivingChain.nextMsgNum.toNat :=
      congrArg ChainState.chainKey (h.receiving d)
    -- the receiving chain of this direction stays on the chain and below the sender
    have hnew : rcv = chainAt P (c.chainKey P d) rcv.nextMsgNum ∧
        rcv.nextMsgNum.toNat ≤ (w.st d).sendingChain.nextMsgNum.toNat := by
      rcases hrcv with hrcv | ⟨hle, hrcv⟩
      · rw [hrcv]; exact ⟨h.receiving d, h.ahead d⟩
      · rw [hrcv, hck, chainKeyAt_add, ← Nat.add_assoc, Nat.add_sub_cancel' hle]
        simp only [chainAt, toNat_succ_of_ne_max hmax]
        exact ⟨trivial, hlt⟩
    refine ⟨?_, ?_, ?_, ?_, ?_, ?_⟩
    · intro r
      rw [hst]
      split_ifs with hr
      · rw [hr]; exact (h.static d.other).receive hcache
      · exact h.static r
    · intro r
      rw [hsnd]; exact h.sending r
    · intro r
      rw [hst]
      split_ifs with hr
      · obtain rfl : r = d := by rw [← r.other_other, hr, SessionRole.other_other]
        exact hnew.1
      · exact h.receiving r
    · intro r
      rw [hst, hsnd]
      split_ifs with hr
      · obtain rfl : r = d := by rw [← r.other_other, hr, SessionRole.other_other]
        exact hnew.2
      · exact h.ahead r
    · intro r x hx
      rw [hsnd]; exact h.pending r x (mem_deliver hx)
    · intro r x hx
      exact h.reads r x (mem_deliver hx)

lemma run_tracks (P : Primitives Secret) (c : Setup Secret) (ops : List (Op Secret)) :
    Tracks P c (run (step P) (start P c) ops) := by
  refine run_inv_all (Tracks P c) (fun w o h => ?_) ops (start_tracks P c)
  cases o with
  | send d rng m ad => exact send_tracks h d rng m ad
  | deliver d i ns => exact deliver_tracks h d i ns

/-- message numbers never go back -/
lemma run_mono (h : Tracks P c w) (ops : List (Op Secret)) (d : SessionRole) :
    (w.st d).sendingChain.nextMsgNum.toNat ≤ ((run (step P) w ops).st d).sendingChain.nextMsgNum.toNat := by
  suffices hrun : Tracks P c (run (step P) w ops) ∧
      (w.st d).sendingChain.nextMsgNum.toNat ≤ ((run (step P) w ops).st d).sendingChain.nextMsgNum.toNat from hrun.2
  refine run_inv_all (fun w' => Tracks P c w' ∧ (w.st d).sendingChain.nextMsgNum.toNat ≤ (w'.st d).sendingChain.nextMsgNum.toNat)
    ?_ ops ⟨h, le_refl _⟩
  intro w' o ⟨ht, hle⟩
  cases o with
  | send e rng m ad =>
    refine ⟨send_tracks ht e rng m ad, hle.trans ?_⟩
    simp only [step, World.send, Function.update_apply]
    split_ifs with hd
    · rw [hd]; exact (encrypt_chain (ht.sending e) rng m ad).2.1
    · exact le_refl _
  | deliver e i ns =>
    refine ⟨deliver_tracks ht e i ns, hle.trans (le_of_eq ?_)⟩
    cases hp : (w'.inFlight e)[i]? with
    | none => simp [step, World.deliver, hp]
    | some p =>
      have hmem := List.mem_of_getElem? hp
      obtain ⟨inc, hinc⟩ := ht.reads e p hmem
      obtain ⟨rcv, cache, rk, pqs, hdec, -, -⟩ :=
        decrypt_reads_frame hinc (ht.static e.other) ns (ne_u32Max_of_lt (ht.pending e p hmem))
      simp only [step, World.deliver, hp, hdec, Function.update_apply]
      split_ifs with hd
      · rw [hd]
      · rfl

/-- **No healing.** In every honest run, for every point (after `a`) and every later point (after `b`), the key of every
message then encrypted by either party is obtainable by chain steps alone from the chain keys that either party held at
the earlier point. -/
theorem never_heals (P : Primitives Secret) (c : Setup Secret) (a b : List (Op Secret)) (d : SessionRole)
    (hd : ((run (step P) (start P c) (a ++ b)).st d).sendingChain.nextMsgNum ≠ u32Max) :
    (∀ x, Obtainable P ((run (step P) (start P c) a).st x)
      (((run (step P) (start P c) (a ++ b)).st d).upcomingKey P)) ∧ ¬ Heals P c a b := by
  have hobt : ∀ x, Obtainable P ((run (step P) (start P c) a).st x)
      (((run (step P) (start P c) (a ++ b)).st d).upcomingKey P) := by
    intro x
    have hw := run_tracks P c a
    have hlater := run_tracks P c (a ++ b)
    have hmono := run_mono hw b d
    rw [← run_append] at hmono
    have hkey : ((run (step P) (start P c) (a ++ b)).st d).upcomingKey P = messageKeyAt P (c.chainKey P d)
        ((run (step P) (start P c) (a ++ b)).st d).sendingChain.nextMsgNum.toNat :=
      congrArg (fun s => messageKeyOf P (ChainState.chainKey s)) (hlater.sending d)
    rw [hkey]
    rcases SessionRole.eq_or_other x d with rfl | rfl
    · -- the sender's own sending chain
      refine ⟨((run (step P) (start P c) (a ++ b)).st x).sendingChain.nextMsgNum.toNat -
        ((run (step P) (start P c) a).st x).sendingChain.nextMsgNum.toNat, .inl ?_⟩
      have hck : ((run (step P) (start P c) a).st x).sendingChain.chainKey = chainKeyAt P (c.chainKey P x)
          ((run (step P) (start P c) a).st x).sendingChain.nextMsgNum.toNat :=
        congrArg ChainState.chainKey (hw.sending x)
      rw [hck, messageKeyAt_add, Nat.add_sub_cancel' hmono]
    · -- the peer's receiving chain, which is not ahead of it
      refine ⟨((run (step P) (start P c) (a ++ b)).st d).sendingChain.nextMsgNum.toNat -
        ((run (step P) (start P c) a).st d.other).receivingChain.nextMsgNum.toNat, .inr ?_⟩
      have hck : ((run (step P) (start P c) a).st d.other).receivingChain.chainKey = chainKeyAt P (c.chainKey P d)
          ((run (step P) (start P c) a).st d.other).receivingChain.nextMsgNum.toNat :=
        congrArg ChainState.chainKey (hw.receiving d)
      rw [hck, messageKeyAt_add, Nat.add_sub_cancel' ((hw.ahead d).trans hmono)]
  exact ⟨hobt, fun hheal => hheal d d hd (hobt d)⟩

/-! ## A client run -/

/-- sessions as the clients start them: wire version 1, 512 skipped keys, PQ ratchet at interval 1 with 4 old keys -/
def clientSetup (root : Secret) (dh : SessionRole → DhKeyPair Secret) (suiteId : UInt16) (kem : Kem Secret)
    (key : SessionRole → KemKeyPair Secret) : Setup Secret :=
  ⟨root, dh, suiteId, Wire.wireVersion, fun _ => 512,
    some ⟨kem, fun _ => defaultPqRatchetInterval, key, fun _ => defaultPqRatchetKeyHistory⟩⟩

def sampleClients : Setup UInt32 := clientSetup 5 sampleSetup.dh 1 Sample.kem samplePq.key

/-- each party sends, receives a reply and sends again -/
def roundTrips : List (Op UInt32) :=
  [.send .initiator sampleRng [10] [], .deliver .initiator 0 0, .send .responder sampleRng [20] [],
    .deliver .responder 0 0, .send .initiator sampleRng [11] [], .deliver .initiator 0 0,
    .send .responder sampleRng [21] [], .deliver .responder 0 0]

set_option maxRecDepth 2000 in
theorem never_heals_after_roundTrips :
    Obtainable Sample.primitives ((run (step Sample.primitives) (start Sample.primitives sampleClients) []).st .responder)
      (((run (step Sample.primitives) (start Sample.primitives sampleClients) ([] ++ roundTrips)).st
        .initiator).upcomingKey Sample.primitives) ∧
    ¬ Heals Sample.primitives sampleClients [] roundTrips :=
  have h := never_heals Sample.primitives sampleClients [] roundTrips .initiator (by decide)
  ⟨h.1 .responder, h.2⟩

set_option maxRecDepth 2000 in
/-- **Healing fails in a client run**: all four messages of two full round trips arrive, the root key has been mixed with
four KEM secrets, and the next message key is two chain steps from the initiator's first chain key -/
theorem healing_fails :
    AllDelivered (run (step Sample.primitives) (start Sample.primitives sampleClients) roundTrips) ∧
    ((run (step Sample.primitives) (start Sample.primitives sampleClients) roundTrips).st .initiator).rootKey ≠ 5 ∧
    ((run (step Sample.primitives) (start Sample.primitives sampleClients) roundTrips).st .initiator).upcomingKey
      Sample.primitives =
      messageKeyAt Sample.primitives ((start Sample.primitives sampleClients).st .initiator).sendingChain.chainKey 2 ∧
    ¬ Heals Sample.primitives sampleClients [] roundTrips := by
  refine ⟨?_, by decide, by decide, ?_⟩
  · intro x hx
    have hlog : (run (step Sample.primitives) (start Sample.primitives sampleClients) roundTrips).log =
        [([10], .ok [10]), ([20], .ok [20]), ([11], .ok [11]), ([21], .ok [21])] := by decide
    rw [hlog] at hx
    fin_cases hx <;> rfl
  · intro h
    exact h .initiator .initiator (by decide) ⟨2, .inl (by decide)⟩

end PqMsg.Session
