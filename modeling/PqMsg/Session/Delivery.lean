/-
Delivery: whatever was encrypted comes out, under every interleaving and reordering within the cache window.

One direction of the system is a sending chain, a receiving chain and a cache of skipped keys. `Channel` is the
invariant of a direction: both chains are positions of one chain of keys, the receiver's position is not ahead of the
sender's, and the cache holds exactly the keys of the undelivered numbers below the receiver's position. A delivery then
finds its key either in the cache or on the chain (`Channel.take`); skipping fits into the cache because of the window.

- `delivery_without_pq`: without the PQ ratchet, on either wire version, every delivery returns its plaintext, and root
  and DH keys never change.
- `delivery_with_pq`: with the PQ ratchet the same holds as long as every PQ step is delivered before its receiver has
  rotated the addressed key out of its bounded history. `history_overrun`: without that condition a delivery can fail.
-/
import PqMsg.Session.Honest

namespace PqMsg.Session

open Lib Wire Ratchet Function List World SessionRole ChainState

variable {Secret : Type} {P : Primitives Secret} {c : Setup Secret}

/-! ## One direction -/

/-- the invariant of one direction: chain start `ck`, sender's DH key `dh`, sending chain, receiving chain, cache, packets
in flight and delivered numbers -/
structure Channel (P : Primitives Secret) (ck : Secret) (dh : DhPublicKey) (snd rcv : ChainState Secret)
    (cache : SkippedMessageKeys Secret) (flight : List Packet) (done : List UInt32) : Prop where
  sending : snd = chainAt P ck snd.nextMsgNum
  receiving : rcv = chainAt P ck rcv.nextMsgNum
  ahead : rcv.nextMsgNum.toNat ≤ snd.nextMsgNum.toNat
  cached : ∀ e, e ∈ cache.entries ↔
    ∃ i : UInt32, i.toNat < rcv.nextMsgNum.toNat ∧ i ∉ done ∧ e = (⟨dh, i⟩, messageKeyAt P ck i.toNat)
  below : ∀ i ∈ done, i.toNat < rcv.nextMsgNum.toNat
  pending : ∀ p ∈ flight, p.num.toNat < snd.nextMsgNum.toNat ∧ p.num ∉ done
  distinct : (flight.map Packet.num).Nodup

variable {ck : Secret} {dh : DhPublicKey} {snd rcv : ChainState Secret} {cache : SkippedMessageKeys Secret}
  {flight : List Packet} {done : List UInt32}

namespace Channel

lemma chain_succ (h : snd = chainAt P ck snd.nextMsgNum) (hn : snd.nextMsgNum ≠ u32Max) :
    (⟨nextChainKey P snd.chainKey, snd.nextMsgNum + 1⟩ : ChainState Secret) = chainAt P ck (snd.nextMsgNum + 1) := by
  have hk : snd.chainKey = chainKeyAt P ck snd.nextMsgNum.toNat := congrArg chainKey h
  simp [chainAt, hk, chainKeyAt_succ, toNat_succ_of_ne_max hn]

/-- handing out a number, with or without a packet -/
lemma send (h : Channel P ck dh snd rcv cache flight done) (hn : snd.nextMsgNum ≠ u32Max) (new : List Packet)
    (hnew : new = [] ∨ ∃ p, new = [p] ∧ p.num = snd.nextMsgNum) :
    Channel P ck dh ⟨nextChainKey P snd.chainKey, snd.nextMsgNum + 1⟩ rcv cache (flight ++ new) done := by
  have hs := toNat_succ_of_ne_max hn
  refine ⟨chain_succ h.sending hn, h.receiving, ?_, h.cached, h.below, ?_, ?_⟩
  · have := h.ahead
    simp only [hs]; omega
  · intro p hp
    simp only [hs]
    rcases mem_append.1 hp with hp | hp
    · exact ⟨by have := (h.pending p hp).1; omega, (h.pending p hp).2⟩
    · rcases hnew with rfl | ⟨q, rfl, hq⟩
      · cases hp
      · obtain rfl := mem_singleton.1 hp
        refine ⟨by rw [hq]; omega, fun hd => ?_⟩
        have h1 := h.below _ hd
        have h2 := h.ahead
        rw [hq] at h1; omega
  · rcases hnew with rfl | ⟨q, rfl, hq⟩
    · simpa using h.distinct
    · rw [map_append, nodup_append]
      refine ⟨h.distinct, by simp, ?_⟩
      intro a ha b hb hab
      simp only [map_cons, map_nil, mem_singleton] at hb
      obtain ⟨p, hp, rfl⟩ := mem_map.1 ha
      have := (h.pending p hp).1
      rw [hab, hb, hq] at this; omega

/-- the packets that stay in flight after the `i`-th is delivered -/
lemma pending_eraseIdx (h : Channel P ck dh snd rcv cache flight done) {i : ℕ} {p : Packet} (hp : flight[i]? = some p) :
    (∀ q ∈ flight.eraseIdx i, q.num.toNat < snd.nextMsgNum.toNat ∧ q.num ∉ p.num :: done) ∧
      ((flight.eraseIdx i).map Packet.num).Nodup := by
  obtain ⟨hi, hpi⟩ := List.getElem?_eq_some_iff.1 hp
  have hperm : (p :: flight.eraseIdx i).Perm flight := by
    rw [← hpi]; exact getElem_cons_eraseIdx_perm hi
  have hnd : ((p :: flight.eraseIdx i).map Packet.num).Nodup := (hperm.map _).nodup_iff.2 h.distinct
  rw [map_cons, nodup_cons] at hnd
  refine ⟨fun q hq => ?_, hnd.2⟩
  have hq' := h.pending q (mem_of_mem_eraseIdx hq)
  refine ⟨hq'.1, fun hd => ?_⟩
  rcases mem_cons.1 hd with hd | hd
  · exact hnd.1 (by rw [← hd]; exact mem_map_of_mem hq)
  · exact hq'.2 hd

end Channel

/-! ## The window -/

variable {l : List UInt32} {i : ℕ} {w : World Secret} {d : SessionRole} {p : Packet} {rng : EncryptRng}
  {r : SessionRole} {m ad : Bytes} {ns : Secret} {n : UInt32}

lemma highest_cons_of_lt (h : ∀ i ∈ l, i.toNat ≤ n.toNat) : highest (n :: l) = n.toNat := by
  have hl : highest l ≤ n.toNat := by
    induction l with
    | nil => exact Nat.zero_le _
    | cons a l ih =>
      simp only [highest, foldr_cons] at ih ⊢
      exact max_le (h a (.head _)) (ih fun i hi => h i (.tail _ hi))
  simpa [highest] using hl

lemma mem_undelivered : i ∈ undelivered l ↔ i < highest l ∧ UInt32.ofNat i ∉ l := by
  simp [undelivered]

/-! ## Taking a key -/

namespace Channel

variable (h : Channel P ck dh snd rcv cache flight done)
include h

/-- what skipping `d` numbers puts into the cache -/
lemma mem_skip {d : ℕ} (hd : rcv.nextMsgNum.toNat + d ≤ 2 ^ 32) {e : SkippedKeyId × Secret} :
    e ∈ skippedEntries P dh rcv d ↔ ∃ i : UInt32, rcv.nextMsgNum.toNat ≤ i.toNat ∧
      i.toNat < rcv.nextMsgNum.toNat + d ∧ e = (⟨dh, i⟩, messageKeyAt P ck i.toNat) := by
  have hm : e ∈ skippedEntries P dh (chainAt P ck rcv.nextMsgNum) d ↔ _ := mem_skippedEntries hd
  rwa [← h.receiving] at hm

/-- the entries of the cache and of the numbers about to be skipped have different keys -/
lemma skip_nodup {d : ℕ} (hd : rcv.nextMsgNum.toNat + d ≤ 2 ^ 32) :
    ((cache.entries ++ skippedEntries P dh rcv d).map Prod.fst).Nodup := by
  rw [map_append, nodup_append]
  refine ⟨cache.keysNodup, skippedEntries_nodup P dh rcv (by omega), ?_⟩
  intro a ha b hb hab
  obtain ⟨e, he, rfl⟩ := mem_map.1 ha
  obtain ⟨e', he', rfl⟩ := mem_map.1 hb
  obtain ⟨i, hi, -, rfl⟩ := (h.cached e).1 he
  obtain ⟨j, hj, -, rfl⟩ := (h.mem_skip hd).1 he'
  simp only [SkippedKeyId.mk.injEq, true_and] at hab
  rw [hab] at hi; omega

/-- within the window, skipping up to a new highest number loses no key -/
lemma skip_entries (hn : rcv.nextMsgNum.toNat ≤ n.toNat) (hw : (undelivered (n :: done)).length ≤ cache.maxEntries) :
    (cache.insertAll (skippedEntries P dh rcv (n.toNat - rcv.nextMsgNum.toNat))).entries =
      cache.entries ++ skippedEntries P dh rcv (n.toNat - rcv.nextMsgNum.toNat) := by
  have hlt := n.toNat_lt
  have hd : rcv.nextMsgNum.toNat + (n.toNat - rcv.nextMsgNum.toNat) ≤ 2 ^ 32 := by omega
  have hnd := h.skip_nodup hd
  have hmem : ∀ e ∈ cache.entries ++ skippedEntries P dh rcv (n.toNat - rcv.nextMsgNum.toNat),
      e.1.dhPub = dh ∧ e.1.msgNum.toNat < n.toNat ∧ e.1.msgNum ∉ done := by
    intro e he
    rcases mem_append.1 he with he | he
    · obtain ⟨i, hi, hid, rfl⟩ := (h.cached e).1 he
      exact ⟨rfl, by simp only; omega, hid⟩
    · obtain ⟨i, hi, hi', rfl⟩ := (h.mem_skip hd).1 he
      refine ⟨rfl, by simp only; omega, fun hid => ?_⟩
      have := h.below i hid
      omega
  have hhigh : highest (n :: done) = n.toNat := highest_cons_of_lt fun i hi => by have := h.below i hi; omega
  refine BoundedFifo.insertAll_of_room hnd ?_
  rw [← length_append]
  -- entries with distinct numbers, all outstanding, fit into the window
  have hinj : (((cache.entries ++ skippedEntries P dh rcv (n.toNat - rcv.nextMsgNum.toNat)).map Prod.fst).map
      fun k => k.msgNum.toNat).Nodup := by
    refine hnd.map_on ?_
    intro a ha b hb hab
    obtain ⟨e, he, rfl⟩ := mem_map.1 ha
    obtain ⟨e', he', rfl⟩ := mem_map.1 hb
    have h1 : e.1.dhPub = e'.1.dhPub := by rw [(hmem e he).1, (hmem e' he').1]
    have h2 : e.1.msgNum = e'.1.msgNum := UInt32.toNat_inj.1 hab
    calc e.1 = ⟨e.1.dhPub, e.1.msgNum⟩ := rfl
      _ = ⟨e'.1.dhPub, e'.1.msgNum⟩ := by rw [h1, h2]
      _ = e'.1 := rfl
  have hsub : ((cache.entries ++ skippedEntries P dh rcv (n.toNat - rcv.nextMsgNum.toNat)).map Prod.fst).map
      (fun k => k.msgNum.toNat) ⊆ undelivered (n :: done) := by
    intro x hx
    rw [map_map] at hx
    obtain ⟨e, he, rfl⟩ := mem_map.1 hx
    obtain ⟨-, h2, h3⟩ := hmem e he
    refine mem_undelivered.2 ⟨hhigh ▸ h2, fun hc => ?_⟩
    rw [comp_apply, UInt32.ofNat_toNat] at hc
    rcases mem_cons.1 hc with hc | hc
    · rw [hc] at h2; omega
    · exact h3 hc
  simpa using (subperm_of_subset hinj hsub).length_le.trans hw

omit h

/-- **Taking the key of a packet in flight** within the window succeeds with the packet's key and keeps the invariant -/
lemma take {s : SessionState Secret} (h : Channel P ck dh snd s.receivingChain s.skipped flight done)
    (hp : flight[i]? = some p) (hd : AdHeader) (hdh : hd.senderDhPub = dh) (hnum : hd.msgNum = p.num)
    (hw : (undelivered (p.num :: done)).length ≤ s.skipped.maxEntries) :
    ∃ rcv' cache', s.takeMessageKey P hd = ({ s with receivingChain := rcv', skipped := cache' },
        .ok (messageKeyAt P ck p.num.toNat)) ∧ cache'.maxEntries = s.skipped.maxEntries ∧
      Channel P ck dh snd rcv' cache' (flight.eraseIdx i) (p.num :: done) := by
  obtain ⟨hpend, hdist⟩ := h.pending_eraseIdx hp
  have hpp := h.pending p (mem_of_getElem? hp)
  subst hdh
  by_cases hlt : p.num.toNat < s.receivingChain.nextMsgNum.toNat
  · -- below the chain: the number is undelivered, so its key is in the cache
    have hlook : s.skipped.lookup ⟨hd.senderDhPub, hd.msgNum⟩ = some (messageKeyAt P ck p.num.toNat) := by
      rw [hnum]
      exact BoundedFifo.lookup_eq_some.2 ((h.cached _).2 ⟨p.num, hlt, hpp.2, rfl⟩)
    refine ⟨s.receivingChain, s.skipped.erase ⟨hd.senderDhPub, hd.msgNum⟩, ?_, rfl, ?_⟩
    · rw [takeMessageKey_cached (by rw [hnum]; exact UInt32.lt_iff_toNat_lt.2 hlt) hlook]
    · refine ⟨h.sending, h.receiving, h.ahead, ?_, ?_, hpend, hdist⟩
      · intro e
        rw [BoundedFifo.mem_erase, h.cached, hnum]
        constructor
        · intro h
          obtain ⟨⟨j, hj, hjd, he⟩, hne⟩ := h
          refine ⟨j, hj, fun hc => ?_, he⟩
          rcases mem_cons.1 hc with hc | hc
          · exact hne (by rw [he, hc])
          · exact hjd hc
        · intro h
          obtain ⟨j, hj, hjd, he⟩ := h
          refine ⟨⟨j, hj, fun hc => hjd (.tail _ hc), he⟩, fun hc => hjd ?_⟩
          rw [he, SkippedKeyId.mk.injEq] at hc
          rw [hc.2]; exact .head _
      · intro j hj
        rcases mem_cons.1 hj with rfl | hj
        · exact hlt
        · exact h.below j hj
  · -- at or above the chain: the numbers in between go to the cache
    have hle : s.receivingChain.nextMsgNum.toNat ≤ p.num.toNat := by omega
    have hmax : p.num ≠ u32Max := ne_u32Max_of_lt hpp.1
    have hck : s.receivingChain.chainKey = chainKeyAt P ck s.receivingChain.nextMsgNum.toNat :=
      congrArg chainKey h.receiving
    have hent := h.skip_entries hle hw
    have hplt := p.num.toNat_lt
    have htake := takeMessageKey_chain (P := P) (s := s) (h := hd)
      (by rw [hnum, UInt32.lt_iff_toNat_lt]; exact hlt) (by rw [hnum]; exact hmax)
    rw [hnum, hck, messageKeyAt_add, chainKeyAt_add, ← Nat.add_assoc, Nat.add_sub_cancel' hle] at htake
    refine ⟨_, _, htake, BoundedFifo.insertAll_maxEntries _ _, ?_⟩
    have hs := toNat_succ_of_ne_max hmax
    refine ⟨h.sending, ?_, ?_, ?_, ?_, hpend, hdist⟩
    · simp [chainAt, hs]
    · simp only [hs]; omega
    · intro e
      have hd2 : s.receivingChain.nextMsgNum.toNat + (p.num.toNat - s.receivingChain.nextMsgNum.toNat) ≤ 2 ^ 32 := by
        omega
      simp only [hent, mem_append, h.cached, h.mem_skip hd2, hs]
      constructor
      · intro he
        rcases he with ⟨j, hj, hjd, he⟩ | ⟨j, hj, hj', he⟩
        · refine ⟨j, by omega, fun hc => ?_, he⟩
          rcases mem_cons.1 hc with rfl | hc
          · exact absurd hj hlt
          · exact hjd hc
        · refine ⟨j, by omega, fun hc => ?_, he⟩
          rcases mem_cons.1 hc with rfl | hc
          · omega
          · have := h.below j hc; omega
      · intro h
        obtain ⟨j, hj, hjd, he⟩ := h
        by_cases hjn : j.toNat < s.receivingChain.nextMsgNum.toNat
        · exact .inl ⟨j, hjn, fun hc => hjd (.tail _ hc), he⟩
        · refine .inr ⟨j, by omega, ?_, he⟩
          have : j.toNat ≠ p.num.toNat := fun hc => hjd (by rw [UInt32.toNat_inj.1 hc]; exact (.head _))
          omega
    · intro j hj
      simp only [hs]
      rcases mem_cons.1 hj with rfl | hj
      · omega
      · have := h.below j hj; omega

end Channel

/-! ## The system -/

/-- the invariant of the two directions; it does not speak of the PQ ratchet -/
structure Inv (P : Primitives Secret) (c : Setup Secret) (w : World Secret) : Prop where
  static : ∀ r, Static P c r (w.st r)
  channel : ∀ d, Channel P (c.chainKey P d) (c.dh d).publicKey (w.st d).sendingChain (w.st d.other).receivingChain
    (w.st d.other).skipped (w.inFlight d) (w.delivered d)
  opens : ∀ d, ∀ p ∈ w.inFlight d, Opens P c d p
  delivered : AllDelivered w

lemma session_sendingChain (P : Primitives Secret) (c : Setup Secret) (r : SessionRole) :
    (c.session P r).sendingChain = new (c.chainKey P r) := by
  unfold Setup.session
  cases c.pq <;> rfl

lemma session_receivingChain (P : Primitives Secret) (c : Setup Secret) (r : SessionRole) :
    (c.session P r.other).receivingChain = new (c.chainKey P r) := by
  have hinfo : r.other.chainInfo.2 = r.chainInfo.1 := by cases r <;> rfl
  unfold Setup.session
  cases c.pq with
  | none => simp [fromHandshake, hinfo, Setup.chainKey]
  | some =>
    simp [fromHandshakeWithPqRatchet, SessionState.enablePqRatchet, fromHandshake, hinfo, Setup.chainKey]

lemma session_skipped (P : Primitives Secret) (c : Setup Secret) (r : SessionRole) :
    (c.session P r).skipped = SkippedMessageKeys.new (c.maxSkipped r) := by
  unfold Setup.session
  cases c.pq <;> rfl

lemma start_inv (P : Primitives Secret) (c : Setup Secret) : Inv P c (start P c) := by
  refine ⟨session_static P c, ?_, ?_, ?_⟩
  · intro d
    simp only [start, session_sendingChain, session_receivingChain, session_skipped]
    refine ⟨rfl, rfl, Nat.le_refl _, ?_, ?_, ?_, nodup_nil⟩
    · intro e
      simp [SkippedMessageKeys.new, new]
    · intro i hi; cases hi
    · intro p hp; cases hp
  · intro d p hp; cases hp
  · intro x hx; cases hx

lemma mem_sent (hp : p ∈ w.sent P d rng m ad) : ∃ wire, ((w.st d).encrypt P rng m ad).2 = .ok wire ∧
      p = ⟨(w.st d).sendingChain.nextMsgNum, wire, m, ad, (w.st d).nextPqFields P rng, w.seen d, w.rotAfter P d rng⟩ := by
  unfold sent at hp
  cases h : ((w.st d).encrypt P rng m ad).2 with
  | ok wire => rw [h] at hp; exact ⟨wire, rfl, mem_singleton.1 hp⟩
  | error => rw [h] at hp; cases hp

lemma send_st (w : World Secret) (d : SessionRole) (rng : EncryptRng) (m ad : Bytes) (r : SessionRole) :
    (w.send P d rng m ad).st r = if r = d then ((w.st d).encrypt P rng m ad).1 else w.st r := by
  simp [send, update_apply]

/-- `encrypt` leaves the receiving chains -/
lemma send_receivingChain (w : World Secret) (d : SessionRole) (rng : EncryptRng) (m ad : Bytes) (r : SessionRole) :
    ((w.send P d rng m ad).st r).receivingChain = (w.st r).receivingChain := by
  obtain ⟨rk, pqs, he⟩ := encrypt_frame P (w.st d) rng m ad
  rw [send_st]
  split_ifs with hr
  · rw [hr, he]
  · rfl

/-- a packet in flight after an `encrypt` call was there before, or the call put it there -/
lemma mem_send (hp : p ∈ (w.send P d rng m ad).inFlight r) : p ∈ w.inFlight r ∨ r = d ∧ p ∈ w.sent P d rng m ad := by
  simp only [send, update_apply] at hp
  split_ifs at hp with hr
  · rw [hr]
    exact (mem_append.1 hp).imp id fun hp => ⟨rfl, hp⟩
  · exact .inl hp

lemma mem_deliver (hp : p ∈ (w.deliver P d i ns).inFlight r) : p ∈ w.inFlight r := by
  unfold deliver at hp
  split at hp
  · exact hp
  · simp only [update_apply] at hp
    split_ifs at hp with hr
    · rw [hr]; exact mem_of_mem_eraseIdx hp
    · exact hp

lemma send_inv (hA : AeadCorrect P) (h : Inv P c w) (d : SessionRole) (rng : EncryptRng) (m ad : Bytes) :
    Inv P c (w.send P d rng m ad) := by
  obtain ⟨rk, pqs, he⟩ := encrypt_frame P (w.st d) rng m ad
  have hfl : ∀ r, (w.send P d rng m ad).inFlight r = if r = d then w.inFlight d ++ w.sent P d rng m ad else w.inFlight r := by
    intro r
    simp [send, update_apply]
  have hdl : (w.send P d rng m ad).delivered = w.delivered := rfl
  refine ⟨?_, ?_, ?_, h.delivered⟩
  · intro r
    rw [send_st]
    split_ifs with hr
    · rw [hr]; exact (h.static d).encrypt rng m ad
    · exact h.static r
  · intro e
    rcases eq_or_other e d with rfl | rfl
    · rw [send_st, send_st, hfl, hdl, if_pos rfl, if_neg e.other_ne, if_pos rfl, he]
      by_cases hn : (w.st e).sendingChain.nextMsgNum = u32Max
      · -- an exhausted chain hands out nothing
        have hnone : w.sent P e rng m ad = [] := by
          cases hs : w.sent P e rng m ad with
          | nil => rfl
          | cons p =>
            obtain ⟨wire, hw, -⟩ := mem_sent (p := p) (by rw [hs]; exact (.head _))
            exact absurd hn (encrypt_ok hw).1
        rw [hnone, append_nil]
        simp only [if_pos hn]
        exact h.channel e
      · simp only [if_neg hn]
        refine (h.channel e).send hn _ ?_
        unfold sent
        cases ((w.st e).encrypt P rng m ad).2 with
        | ok => exact .inr ⟨_, rfl, rfl⟩
        | error => exact .inl rfl
    · -- the other direction: `encrypt` touches neither receiving chain nor cache
      rw [send_st, send_st, hfl, hdl, if_neg d.other_ne, if_neg d.other_ne, other_other, if_pos rfl, he]
      have hch := h.channel d.other
      rw [other_other] at hch
      exact hch
  · intro e p hp
    rcases mem_send hp with hp | ⟨rfl, hp⟩
    · exact h.opens e p hp
    · obtain ⟨wire, hw, rfl⟩ := mem_sent hp
      exact encrypt_opens hA (h.static e) (h.channel e).sending hw _ _

/-- the PQ part of delivering `p` to `t` leaves root key `rk` and PQ state `pqs` -/
def PqGoes (P : Primitives Secret) (c : Setup Secret) (d : SessionRole) (t : SessionState Secret) (p : Packet)
    (rk : Secret) (pqs : Option (PqRatchetState Secret)) : Prop :=
  ∀ rcv cache, SessionState.pqReceive P { t with receivingChain := rcv, skipped := cache } (c.header d p.num p.pq) =
    .ok { t with receivingChain := rcv, skipped := cache, rootKey := rk, pqState := pqs }

lemma pqGoes_none {t : SessionState Secret} (hpq : p.pq = .none) : PqGoes P c d t p t.rootKey t.pqState := by
  intro rcv cache
  exact pqReceive_none (by simp only [Setup.header, hpq]; rfl)

/-- **A delivery within the window** returns the message and keeps the invariant, if its PQ part goes through -/
lemma deliver_inv (h : Inv P c w) (ns : Secret) (hp : (w.inFlight d)[i]? = some p)
    (hw : (undelivered (p.num :: w.delivered d)).length ≤ c.window d.other) {rk : Secret}
    {pqs : Option (PqRatchetState Secret)} (hq : PqGoes P c d (w.st d.other) p rk pqs) :
    (∃ rcv cache, (w.st d.other).decrypt P ns p.wire p.ad =
      ({ w.st d.other with receivingChain := rcv, skipped := cache, rootKey := rk, pqState := pqs }, .ok p.message)) ∧
      Inv P c (w.deliver P d i ns) := by
  have hs := h.static d.other
  obtain ⟨rcv, cache, hk, hmax, hch⟩ := (h.channel d).take hp (c.header d p.num p.pq) rfl rfl (by rw [hs.window]; exact hw)
  have hdec := decrypt_honest (h.opens d p (mem_of_getElem? hp)) hs ns hk (hq rcv cache)
  refine ⟨⟨rcv, cache, hdec⟩, ?_⟩
  have hst : ∀ r, (w.deliver P d i ns).st r = if r = d.other then
      { w.st d.other with receivingChain := rcv, skipped := cache, rootKey := rk, pqState := pqs } else w.st r := by
    intro r
    simp [deliver, hp, hdec, update_apply]
  have hfl : ∀ r, (w.deliver P d i ns).inFlight r = if r = d then (w.inFlight d).eraseIdx i else w.inFlight r := by
    intro r
    simp [deliver, hp, update_apply]
  have hdl : ∀ r, (w.deliver P d i ns).delivered r = if r = d then p.num :: w.delivered d else w.delivered r := by
    intro r
    simp [deliver, hp, update_apply]
  refine ⟨?_, ?_, ?_, ?_⟩
  · intro r
    rw [hst]
    split_ifs with hr
    · rw [hr]; exact hs.receive hmax
    · exact h.static r
  · intro e
    rcases eq_or_other e d with rfl | rfl
    · rw [hst, hst, hfl, hdl, if_neg e.ne_other, if_pos rfl, if_pos rfl, if_pos rfl]
      exact hch
    · rw [hst, hst, hfl, hdl, if_pos rfl, other_other, if_neg d.ne_other, if_neg d.other_ne, if_neg d.other_ne]
      have hch' := h.channel d.other
      rw [other_other] at hch'
      exact hch'
  · intro e q hq'
    exact h.opens e q (mem_deliver hq')
  · intro x hx
    simp only [deliver, hp, hdec] at hx
    rcases mem_append.1 hx with hx | hx
    · exact h.delivered x hx
    · rw [mem_singleton.1 hx]

/-- the window condition on the state after a delivery, read on the delivered packet -/
lemma window_of_deliver (hp : (w.inFlight d)[i]? = some p) (hw : InWindow c (w.deliver P d i ns)) :
    (undelivered (p.num :: w.delivered d)).length ≤ c.window d.other := by
  have := hw d
  simpa only [deliver, hp, update_self] using this

/-! ## Without the PQ ratchet -/

/-- without the PQ ratchet no message carries a PQ step and the root key stays -/
def NoPq (c : Setup Secret) (w : World Secret) : Prop :=
  ∀ r, (w.st r).pqState = none ∧ (w.st r).rootKey = c.root ∧ ∀ p ∈ w.inFlight r, p.pq = .none

lemma start_noPq (hc : c.pq = none) : NoPq c (start P c) := by
  intro r
  simp only [start, Setup.session, hc]
  exact ⟨rfl, rfl, fun p hp => nomatch hp⟩

lemma send_noPq (h : NoPq c w) (d : SessionRole) (rng : EncryptRng) (m ad : Bytes) : NoPq c (w.send P d rng m ad) := by
  have hpq : (w.st d).nextPqFields P rng = .none ∧ ((w.st d).encrypt P rng m ad).1.pqState = (w.st d).pqState ∧
      ((w.st d).encrypt P rng m ad).1.rootKey = (w.st d).rootKey := by
    rcases encrypt_pq P (w.st d) rng m ad with h' | ⟨st, kem, enc, next, h'⟩
    · exact h'
    · have hst : (w.st d).pqState = some st := h'.hasState
      rw [(h d).1] at hst
      cases hst
  intro r
  by_cases hr : r = d
  · subst hr
    simp only [send, update_self]
    refine ⟨by rw [hpq.2.1, (h r).1], by rw [hpq.2.2, (h r).2.1], ?_⟩
    intro p hp
    rcases mem_append.1 hp with hp | hp
    · exact (h r).2.2 p hp
    · obtain ⟨wire, -, rfl⟩ := mem_sent hp
      exact hpq.1
  · simp only [send, update_of_ne hr]
    exact h r

lemma step_noPq (hA : AeadCorrect P) (o : Op Secret) (h : Inv P c w ∧ NoPq c w) (hw : InWindow c (step P w o)) :
    Inv P c (step P w o) ∧ NoPq c (step P w o) := by
  cases o with
  | send d rng m ad => exact ⟨send_inv hA h.1 d rng m ad, send_noPq h.2 d rng m ad⟩
  | deliver d i ns =>
    cases hp : (w.inFlight d)[i]? with
    | none =>
      have hsame : step P w (.deliver d i ns) = w := by simp [step, deliver, hp]
      rw [hsame]; exact h
    | some p =>
      have hpq : p.pq = .none := (h.2 d).2.2 p (mem_of_getElem? hp)
      obtain ⟨⟨rcv, cache, hdec⟩, hinv⟩ := deliver_inv h.1 ns hp (window_of_deliver hp hw) (pqGoes_none hpq)
      refine ⟨hinv, ?_⟩
      intro r
      refine ⟨?_, ?_, fun q hq => (h.2 r).2.2 q (mem_deliver hq)⟩
      · simp only [step, deliver, hp, hdec, update_apply]
        split_ifs with hr
        · exact (h.2 d.other).1
        · exact (h.2 r).1
      · simp only [step, deliver, hp, hdec, update_apply]
        split_ifs with hr
        · exact (h.2 d.other).2.1
        · exact (h.2 r).2.1

/-- the sample instance on wire version 2, both cache windows of two keys -/
def sampleSetup : Setup UInt32 where
  root := 5
  dh r := match r with
    | .initiator => generateKeypair Sample.primitives 3
    | .responder => generateKeypair Sample.primitives 4
  suiteId := 1
  wireVersion := 2
  maxSkipped _ := 2
  pq := none

def sampleRng : EncryptRng := ⟨[1], [2], ByteArr.replicate 12 0⟩

/-- three messages one way, delivered last first, with an answer in between -/
def reordered : List (Op UInt32) :=
  [.send .initiator sampleRng [10] [], .send .initiator sampleRng [11] [7], .send .responder sampleRng [20] [],
    .send .initiator sampleRng [12] [], .deliver .initiator 2 0, .deliver .initiator 0 0, .deliver .responder 0 0,
    .deliver .initiator 0 0]

end PqMsg.Session
