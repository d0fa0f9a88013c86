/-
Delivery in order, with losses.

When the messages of a direction arrive in the order in which they were sent, every message key comes from the receiving
chain, however many numbers were lost in between, so no cache window is needed. `Lane` is the invariant of a direction: both
chains are positions of one chain of keys, and the numbers in flight increase and lie between the two positions. `End` is
the invariant of a session: the fields that nothing changes, and PQ keys that belong to the run.

- `Lane.send`, `Lane.lose`: a wire that `encrypt` returned joins the end of its lane, or is lost.
- `Lane.deliver`: the oldest packet is read, as long as its receiver still holds the PQ key that it addresses.
-/
import PqMsg.Session.PqDelivery

namespace PqMsg.Session

open Lib Wire Ratchet List Option

variable {Secret : Type} {P : Primitives Secret} {c : Setup Secret} {q : PqSetup Secret}

/-! ## Ends and lanes -/

/-- all keys of a PQ ratchet state are keys of the run -/
structure RunKeys (q : PqSetup Secret) (st : PqRatchetState Secret) : Prop where
  own : ∀ k ∈ st.localKey :: st.localKeyHistory, q.IsKey k
  remote : ∃ k, q.IsKey k ∧ st.remotePublicKey = k.publicKey

/-- a session of role `r` -/
structure End (P : Primitives Secret) (c : Setup Secret) (q : PqSetup Secret) (r : SessionRole) (s : SessionState Secret) :
    Prop where
  static : Static P c r s
  ring : ∃ st, s.pqState = some st ∧ st.interval = q.interval r ∧ RunKeys q st

/-- the PQ fields of a packet: none, or a step addressed to a key of the run that advertises another one -/
def Addressed (P : Primitives Secret) (q : PqSetup Secret) (p : Packet) : Prop :=
  p.pq = .none ∨ ∃ k next rng enc, q.IsKey k ∧ q.IsKey next ∧ q.kem.encapsulate k.publicKey rng = .ok enc ∧
    p.pq = ⟨some enc.ciphertext, some (hashPublicKey P k.publicKey), some next.publicKey⟩

/-- the direction of role `d`: sending chain, receiving chain and the packets in flight, oldest first -/
structure Lane (P : Primitives Secret) (c : Setup Secret) (q : PqSetup Secret) (d : SessionRole)
    (snd rcv : ChainState Secret) (flight : List Packet) : Prop where
  sending : snd = chainAt P (c.chainKey P d) snd.nextMsgNum
  receiving : rcv = chainAt P (c.chainKey P d) rcv.nextMsgNum
  reached : rcv.nextMsgNum.toNat ≤ snd.nextMsgNum.toNat
  ordered : flight.Pairwise fun p p' => p.num.toNat < p'.num.toNat
  between : ∀ p ∈ flight, rcv.nextMsgNum.toNat ≤ p.num.toNat ∧ p.num.toNat < snd.nextMsgNum.toNat
  opens : ∀ p ∈ flight, Opens P c d p
  addressed : ∀ p ∈ flight, Addressed P q p

/-- the state has a key with the hash that the packet addresses -/
def HoldsKey (P : Primitives Secret) (st : PqRatchetState Secret) (pq : PqFields) : Prop :=
  ∀ h ∈ pq.targetPubHash, ∃ k ∈ st.localKey :: st.localKeyHistory, hashPublicKey P k.publicKey = h

lemma session_pqState (P : Primitives Secret) (hc : c.pq = some q) (r : SessionRole) :
    (c.session P r).pqState = some (q.state r) := by
  simp only [Setup.session, hc]
  rfl

lemma session_end (hc : c.pq = some q) (r : SessionRole) : End P c q r (c.session P r) := by
  refine ⟨session_static P c r, q.state r, session_pqState P hc r, rfl, ?_, ?_⟩
  · intro k hk
    exact .inl ⟨r, mem_singleton.1 hk⟩
  · exact ⟨q.key r.other, .inl ⟨r.other, rfl⟩, rfl⟩

/-! ## Sending -/

variable {s : SessionState Secret} {p : Packet} {st : PqRatchetState Secret} {d : SessionRole} {t : SessionState Secret}
  {r : SessionRole}

/-- what `encrypt` leaves of a session, and the PQ fields of its message -/
lemma End.encrypt (hc : c.pq = some q) (h : End P c q r s) (rng : EncryptRng) (m ad : Bytes) :
    End P c q r (s.encrypt P rng m ad).1 ∧ (s.encrypt P rng m ad).1.receivingChain = s.receivingChain := by
  obtain ⟨rk, pqs, hframe⟩ := encrypt_frame P s rng m ad
  refine ⟨⟨h.static.encrypt rng m ad, ?_⟩, by rw [hframe]⟩
  obtain ⟨st, hst, hint, hkeys⟩ := h.ring
  rcases encrypt_pq P s rng m ad with ⟨-, hsame, -⟩ | ⟨st', kem, enc, next, hstep⟩
  · exact ⟨st, hsame.trans hst, hint, hkeys⟩
  · obtain ⟨rfl, rfl⟩ := hstep.unique hst (show s.pqKem = some q.kem by rw [h.static.pqKem, hc]; rfl)
    refine ⟨st'.commitLocalKeyRotation next, by rw [hstep.left], hint, ?_, hkeys.remote⟩
    intro k hk
    rcases mem_cons.1 hk with hk | hk
    · rw [hk]
      exact .inr ⟨_, hstep.keypair⟩
    · exact hkeys.own k (mem_of_mem_take hk)

lemma End.nextPqFields (hc : c.pq = some q) (h : End P c q r s) (rng : EncryptRng) (m ad : Bytes)
    (hp : p.pq = s.nextPqFields P rng) : Addressed P q p := by
  obtain ⟨st, hst, -, -, k, hk, hremote⟩ := h.ring
  rcases encrypt_pq P s rng m ad with ⟨hnone, -, -⟩ | ⟨st', kem, enc, next, hstep⟩
  · exact .inl (hp.trans hnone)
  · obtain ⟨rfl, rfl⟩ := hstep.unique hst (show s.pqKem = some q.kem by rw [h.static.pqKem, hc]; rfl)
    have henc := hstep.encaps
    rw [hremote] at henc
    refine .inr ⟨k, next, rng.encaps, enc, hk, .inr ⟨_, hstep.keypair⟩, henc, ?_⟩
    rw [hp, hstep.fields, hremote]

/-- `encrypt` addresses the remote PQ key and keeps it -/
lemma encrypt_remote (hst : s.pqState = some st) (rng : EncryptRng) (m ad : Bytes) :
    (∃ st', (s.encrypt P rng m ad).1.pqState = some st' ∧ st'.remotePublicKey = st.remotePublicKey) ∧
      ∀ h ∈ (s.nextPqFields P rng).targetPubHash, h = hashPublicKey P st.remotePublicKey := by
  rcases encrypt_pq P s rng m ad with ⟨hnone, hsame, -⟩ | ⟨st', kem, enc, next, hstep⟩
  · refine ⟨⟨st, hsame.trans hst, rfl⟩, fun h hh => ?_⟩
    rw [hnone] at hh
    cases hh
  · have hst' : s.pqState = some st' := hstep.hasState
    obtain rfl : st' = st := some.inj (hst'.symm.trans hst)
    refine ⟨⟨st'.commitLocalKeyRotation next, by rw [hstep.left], rfl⟩, fun h hh => ?_⟩
    rw [hstep.fields] at hh
    exact (some.inj hh).symm

/-- the packet of a returned wire -/
def SessionState.packet (P : Primitives Secret) (s : SessionState Secret) (rng : EncryptRng) (m ad wire : Bytes) : Packet :=
  ⟨s.sendingChain.nextMsgNum, wire, m, ad, s.nextPqFields P rng, 0, 0⟩

/-- **Sending**: a returned wire joins the end of the lane -/
lemma Lane.send (hA : AeadCorrect P) (hc : c.pq = some q) {rcv : ChainState Secret} {flight : List Packet}
    (h : Lane P c q d s.sendingChain rcv flight) (hs : End P c q d s) {rng : EncryptRng} {m ad wire : Bytes}
    (he : (s.encrypt P rng m ad).2 = .ok wire) :
    Lane P c q d (s.encrypt P rng m ad).1.sendingChain rcv (flight ++ [s.packet P rng m ad wire]) := by
  obtain ⟨rk, pqs, hframe⟩ := encrypt_frame P s rng m ad
  have hn := (encrypt_ok he).1
  have hsucc := toNat_succ_of_ne_max hn
  rw [if_neg hn] at hframe
  rw [hframe]
  have hreached := h.reached
  refine ⟨Channel.chain_succ h.sending hn, h.receiving, ?_, ?_, ?_, ?_, ?_⟩
  · simp only [hsucc]
    omega
  · rw [pairwise_append]
    refine ⟨h.ordered, pairwise_singleton _ _, ?_⟩
    intro p hp p' hp'
    rw [mem_singleton.1 hp']
    exact (h.between p hp).2
  · intro p hp
    simp only [hsucc]
    rcases mem_append.1 hp with hp | hp
    · have := h.between p hp
      omega
    · rw [mem_singleton.1 hp]
      simp only [SessionState.packet]
      omega
  · exact forall_mem_append.2 ⟨h.opens, forall_mem_singleton.2 (encrypt_opens hA hs.static h.sending he 0 0)⟩
  · exact forall_mem_append.2 ⟨h.addressed, forall_mem_singleton.2 (hs.nextPqFields hc rng m ad rfl)⟩

/-- **Losing** packets -/
lemma Lane.lose {snd rcv : ChainState Secret} {flight flight' : List Packet} (h : Lane P c q d snd rcv flight)
    (hsub : flight'.Sublist flight) : Lane P c q d snd rcv flight' :=
  ⟨h.sending, h.receiving, h.reached, h.ordered.sublist hsub, fun p hp => h.between p (hsub.subset hp),
    fun p hp => h.opens p (hsub.subset hp), fun p hp => h.addressed p (hsub.subset hp)⟩

/-! ## Receiving -/

/-- **A PQ step to a key that is still held** goes through, and leaves the local keys as they are -/
lemma pqReceive_held (hkem : q.KemCorrect) (hsep : q.HashSeparates P) (hst : t.pqState = some st)
    (htk : t.pqKem = some q.kem) (hkeys : RunKeys q st) {h : AdHeader} (hp : Addressed P q p) (hpq : h.pq = p.pq)
    (hheld : HoldsKey P st p.pq) :
    ∃ rk st', t.pqReceive P h = .ok { t with rootKey := rk, pqState := some st' } ∧ RunKeys q st' ∧
      st'.interval = st.interval ∧ st'.localKey = st.localKey ∧ st'.localKeyHistory = st.localKeyHistory := by
  rcases hp with hnone | ⟨k, next, rng, enc, hk, hnext, henc, hfields⟩
  · refine ⟨t.rootKey, st, ?_, hkeys, rfl, rfl, rfl⟩
    rw [pqReceive_none (by rw [hpq, hnone]; rfl), ← hst]
  · have hk0 := hheld _ (by rw [hfields]; rfl)
    obtain ⟨k', hsel, hk', hpub⟩ := selectLocalSecretKey_held hsep hkeys.own hk hk0
    have hdec : q.kem.decapsulate k'.secretKey enc.ciphertext = .ok enc.sharedSecret :=
      hkem k' hk' rng enc (by rw [hpub]; exact henc)
    refine ⟨mixRootWithPq P t.rootKey enc.sharedSecret, st.applyRemotePublicKeyUpdate next.publicKey h.msgNum, ?_, ?_⟩
    · simp [SessionState.pqReceive, hpq, hfields, hst, htk, receiverStep, hsel, hdec]
    · unfold PqRatchetState.applyRemotePublicKeyUpdate
      split_ifs
      · exact ⟨⟨hkeys.own, next, hnext, rfl⟩, rfl, rfl, rfl⟩
      · exact ⟨hkeys, rfl, rfl, rfl⟩

/-- **Delivery in order**: the oldest packet is read if the PQ key that it addresses is still held -/
lemma Lane.deliver (hkem : q.KemCorrect) (hsep : q.HashSeparates P) (hc : c.pq = some q) {snd : ChainState Secret}
    {rest : List Packet} (h : Lane P c q d snd t.receivingChain (p :: rest)) (ht : End P c q d.other t)
    (hst : t.pqState = some st) (hheld : HoldsKey P st p.pq) (ns : Secret) :
    ∃ t' st', t.decrypt P ns p.wire p.ad = (t', .ok p.message) ∧ Lane P c q d snd t'.receivingChain rest ∧
      End P c q d.other t' ∧ t'.sendingChain = t.sendingChain ∧ t'.pqState = some st' ∧ st'.localKey = st.localKey ∧
      st'.localKeyHistory = st.localKeyHistory := by
  obtain ⟨hlow, hhigh⟩ := h.between p (.head _)
  have hmax : p.num ≠ u32Max := ne_u32Max_of_lt hhigh
  have hsucc := toNat_succ_of_ne_max hmax
  -- the key comes from the chain
  have hck : t.receivingChain.chainKey = chainKeyAt P (c.chainKey P d) t.receivingChain.nextMsgNum.toNat :=
    congrArg ChainState.chainKey h.receiving
  have htake : t.takeMessageKey P (c.header d p.num p.pq) = _ := takeMessageKey_chain
    (by simp only [Setup.header, UInt32.lt_iff_toNat_lt]; omega) hmax
  have hnum : (c.header d p.num p.pq).msgNum = p.num := rfl
  rw [hnum, hck, messageKeyAt_add, chainKeyAt_add, ← Nat.add_assoc, Nat.add_sub_cancel' hlow] at htake
  -- the PQ part goes through
  obtain ⟨st0, hst0, hint, hkeys⟩ := ht.ring
  obtain rfl : st0 = st := some.inj (hst0.symm.trans hst)
  have htk : t.pqKem = some q.kem := by rw [ht.static.pqKem, hc]; rfl
  obtain ⟨rk, st', hpq, hkeys', hint', hkey', hhist'⟩ := pqReceive_held (h := c.header d p.num p.pq) hkem hsep (t := { t with
      receivingChain := ⟨chainKeyAt P (c.chainKey P d) (p.num.toNat + 1), p.num + 1⟩
      skipped := t.skipped.insertAll (skippedEntries P (c.header d p.num p.pq).senderDhPub t.receivingChain
        (p.num.toNat - t.receivingChain.nextMsgNum.toNat)) })
    hst htk hkeys (h.addressed p (.head _)) rfl hheld
  have hdec := decrypt_honest (h.opens p (.head _)) ht.static ns htake hpq
  refine ⟨_, st', hdec, ?_, ⟨?_, st', rfl, hint'.trans hint, hkeys'⟩, rfl, rfl, hkey', hhist'⟩
  · have hrest := h.ordered
    rw [pairwise_cons] at hrest
    refine ⟨h.sending, ?_, ?_, hrest.2, ?_, fun p' hp' => h.opens p' (.tail _ hp'), fun p' hp' => h.addressed p' (.tail _ hp')⟩
    · simp [chainAt, hsucc]
    · simp only [hsucc]
      omega
    · intro p' hp'
      have h1 := hrest.1 p' hp'
      have h2 := (h.between p' (.tail _ hp')).2
      simp only [hsucc]
      omega
  · exact ht.static.receive (BoundedFifo.insertAll_maxEntries _ _)

end PqMsg.Session
