/-
Agreement of the two root keys under in-order delivery.

Each PQ step mixes a KEM secret into the sender's root key when the message is encrypted and into the receiver's when it
is decrypted. The mixing does not commute, so the order matters: when PQ steps of both directions cross on the network,
the parties mix the same secrets in different orders and never agree again (`crossing_roots`).

`roots_agree`: in every run in which a PQ step is only made while no PQ step of the other direction is in flight, the
parties hold the same root key whenever nothing is in flight. The invariant (`RootInv`): one party's root key is the
other's after mixing in the secrets of the PQ steps in flight, in their order.
-/
import PqMsg.Session.Healing

namespace PqMsg.Session

open Lib Tlv Wire Ratchet Function List Option SessionRole World SessionState List.Forall₂

variable {Secret : Type} {P : Primitives Secret} {c : Setup Secret} {q : PqSetup Secret} {enc : KemEncapsulation Secret}
  {st : PqRatchetState Secret} {s : SessionState Secret} {o : Option Bytes} {pq : PqFields} {m ad : Bytes}

/-- the external associated data and the AEAD output fit their 16-bit length fields -/
def SessionState.Fits (s : SessionState Secret) (m ad : Bytes) : Prop :=
  ad.length ≤ u16Max ∧ (s.aeadInput m).length + aeadTagLength ≤ u16Max

/-- the condition on a step: deliveries take the oldest packet, and an `encrypt` call that is due for a PQ step is made
while no PQ step of the other direction is in flight, with a message and associated data that fit the wire format -/
def NoCrossing (w : World Secret) : Op Secret → Prop
  | .send d _ m ad => (w.st d).pqDue (w.st d).sendingChain.nextMsgNum = true →
      (∀ p ∈ w.inFlight d.other, p.steps = false) ∧ (w.st d).Fits m ad
  | .deliver _ i _ => i = 0

instance (s : SessionState Secret) (m ad : Bytes) : Decidable (s.Fits m ad) := inferInstanceAs (Decidable (_ ∧ _))

instance (w : World Secret) : ∀ o, Decidable (NoCrossing w o)
  | .send d _ m ad => inferInstanceAs (Decidable (_ → _ ∧ (w.st d).Fits m ad))
  | .deliver _ i _ => inferInstanceAs (Decidable (i = 0))

/-- deliveries take the oldest packet -/
def InOrder : Op Secret → Prop
  | .send _ _ _ _ => True
  | .deliver _ i _ => i = 0

instance : ∀ o : Op Secret, Decidable (InOrder o)
  | .send _ _ _ _ => isTrue trivial
  | .deliver _ i _ => inferInstanceAs (Decidable (i = 0))

/-! ## Messages that fit -/

/-- more than KEM ciphertexts, KEM public keys and hashes take -/
def pqFieldBound : ℕ := 8192

/-- the sizes of what the KEM and the hash return -/
structure PqSetup.Sized (P : Primitives Secret) (q : PqSetup Secret) : Prop where
  ciphertext : ∀ pk r e, q.kem.encapsulate pk r = .ok e → e.ciphertext.length ≤ pqFieldBound
  key : ∀ k, q.IsKey k → k.publicKey.length ≤ pqFieldBound
  hash : ∀ k, q.IsKey k → (P.sha256 k.publicKey).length ≤ pqFieldBound

def PqFields.Bounded (pq : PqFields) : Prop :=
  (∀ v ∈ pq.stepCt, v.length ≤ pqFieldBound) ∧ (∀ v ∈ pq.targetPubHash, v.length ≤ pqFieldBound) ∧
    ∀ v ∈ pq.nextPublicKey, v.length ≤ pqFieldBound

lemma optRecord_fits {ty : UInt16} (h : ∀ v ∈ o, v.length ≤ pqFieldBound) : ∀ r ∈ optRecord ty o, r.value.length ≤ u16Max := by
  rintro ⟨t, v⟩ hr
  have hv := h v ((mem_optRecord t ty v o).1 hr).2
  have hb : pqFieldBound ≤ u16Max := by decide
  exact hv.trans hb

lemma optRecord_length (ty : UInt16) (h : ∀ v ∈ o, v.length ≤ pqFieldBound) :
    ((optRecord ty o).map fun r => 4 + r.value.length).sum ≤ 4 + pqFieldBound := by
  cases o with
  | none => exact Nat.zero_le _
  | some v =>
    have hv := h v rfl
    simp only [optRecord, map_cons, map_nil, sum_cons, sum_nil]
    omega

lemma headerPlaintext_fits (s : SessionState Secret) (num : UInt32) (hpq : pq.Bounded) :
    ∃ hb, (s.headerPlaintext num pq).encode = .ok hb ∧ hb.length ≤ u16Max := by
  obtain ⟨h1, h2, h3⟩ := hpq
  obtain ⟨hb, hhb⟩ : ∃ hb, (s.headerPlaintext num pq).encode = .ok hb := by
    refine (encode_isOk _).2 ?_
    simp only [HeaderPlaintext.records, headerPlaintext, forall_mem_append, forall_mem_cons, be32_length, s.localDh.publicKey.2]
    exact ⟨⟨⟨⟨by decide, by decide, by decide, fun _ hr => by cases hr⟩, optRecord_fits h1⟩,
      optRecord_fits h2⟩, optRecord_fits h3⟩
  refine ⟨hb, hhb, ?_⟩
  have l1 := optRecord_length tagPqStepCt h1
  have l2 := optRecord_length tagPqTargetPubHash h2
  have l3 := optRecord_length tagPqNextPub h3
  rw [encode_length hhb]
  simp only [HeaderPlaintext.records, headerPlaintext, map_append, sum_append, map_cons,
    map_nil, sum_cons, sum_nil, be32_length, s.localDh.publicKey.2]
  simp only [pqFieldBound, u16Max] at l1 l2 l3 ⊢
  omega

/-- **What fits is framed** -/
lemma sealMessage_fits (hE : AeadExpands P) (hf : s.Fits m ad) (hpq : pq.Bounded) (nonce : Nonce) (k : Secret)
    (num : UInt32) : ∃ wire, s.sealMessage P nonce k num pq m ad = .ok wire := by
  obtain ⟨hb, hhb, hlen⟩ := headerPlaintext_fits s num hpq
  obtain ⟨h1, h2, h3⟩ := hpq
  obtain ⟨aad, haad⟩ : ∃ aad, sessionAssociatedData (s.adHeader num pq) ad = .ok aad := by
    refine (encode_isOk _).2 ?_
    simp only [AdHeader.records, adHeader, forall_mem_append, forall_mem_cons, be16_length, be32_length, s.localDh.publicKey.2]
    exact ⟨⟨⟨⟨by decide, by decide, by decide, by decide, by decide, hf.1, fun _ hr => by cases hr⟩,
      optRecord_fits h1⟩, optRecord_fits h2⟩, optRecord_fits h3⟩
  obtain ⟨ct, hct, hctl⟩ := hE k nonce aad (s.aeadInput m) hf.2
  have hctl' : ct.length ≤ u16Max := hctl ▸ hf.2
  cases hv : s.isV2 with
  | false =>
    rw [sealMessage_v1 haad hct hv]
    refine (encode_isOk _).2 ?_
    simp only [WireMessage.records, forall_mem_append, forall_mem_cons, be16_length, be32_length, s.localDh.publicKey.2, nonce.2]
    exact ⟨⟨⟨⟨⟨by decide, by decide, by decide, by decide, by decide, fun _ hr => by cases hr⟩,
      optRecord_fits h1⟩, optRecord_fits h2⟩, optRecord_fits h3⟩, by decide, hctl',
      fun _ hr => by cases hr⟩
  | true =>
    rw [sealMessage_v2 haad hct hv hhb]
    refine (encode_isOk _).2 ?_
    simp only [WireMessageV2.records, forall_mem_cons, be16_length, nonce.2, protectHeader_length]
    exact ⟨by decide, by decide, hlen, by decide, hctl', fun _ hr => by cases hr⟩

/-- an `encrypt` call with a PQ step returns its wire when message and associated data fit -/
lemma encrypt_fits (hE : AeadExpands P) (hz : q.Sized P) {rng : EncryptRng} (hf : s.Fits m ad) {next remote : KemKeyPair Secret}
    (hstep : PqSendStep P (s.advanceSending P) (s.encrypt P rng m ad).1 rng s.sendingChain.nextMsgNum
      (s.nextPqFields P rng) st q.kem enc next) (hremote : q.IsKey remote) (hst : st.remotePublicKey = remote.publicKey) :
    ∃ wire, (s.encrypt P rng m ad).2 = .ok wire := by
  have hpq : (s.nextPqFields P rng).Bounded := by
    rw [hstep.fields]
    refine ⟨?_, ?_, ?_⟩
    · rintro v ⟨⟩; exact hz.ciphertext _ _ _ hstep.encaps
    · rintro v ⟨⟩
      rw [hashPublicKey, hst]; exact hz.hash _ hremote
    · rintro v ⟨⟩; exact hz.key _ (.inr ⟨_, hstep.keypair⟩)
  rcases encrypt_cases P s rng m ad with ⟨hn, e, he⟩ | ⟨hn, e, hp, he⟩ | ⟨hn, s', pq, hp, he⟩
  · have := hstep.fields
    rw [nextPqFields, if_pos hn] at this
    cases this
  · have := hstep.fields
    simp only [nextPqFields, if_neg hn, hp] at this
    cases this
  · have hpq' : s.nextPqFields P rng = pq := by simp [nextPqFields, if_neg hn, hp]
    have hsame : s'.Fits m ad := by
      have hs' : s' = (s.encrypt P rng m ad).1 := by rw [he]
      rw [hs', hstep.left]
      exact hf
    rw [he]
    exact sealMessage_fits hE hsame (hpq' ▸ hpq) _ _ _

/-! ## Queues in order -/

/-- packets in flight have ascending numbers at or above the receiver's position -/
structure Queue (P : Primitives Secret) (c : Setup Secret) (w : World Secret) : Prop where
  tracks : Tracks P c w
  opens : ∀ d, ∀ p ∈ w.inFlight d, Opens P c d p
  late : ∀ d, ∀ p ∈ w.inFlight d, (w.st d.other).receivingChain.nextMsgNum.toNat ≤ p.num.toNat
  sorted : ∀ d, (w.inFlight d).Pairwise fun p p' => p.num.toNat < p'.num.toNat

lemma start_queue (P : Primitives Secret) (c : Setup Secret) : Queue P c (start P c) := by
  refine ⟨start_tracks P c, ?_, ?_, fun d => List.Pairwise.nil⟩
  · intro d p hp; cases hp
  · intro d p hp; cases hp

variable {w : World Secret} {d : SessionRole} {p : Packet} {rest : List Packet}
  {K : SessionRole → ℕ → KemKeyPair Secret} {ss : List Secret} {r : SessionRole}

lemma send_queue (hA : AeadCorrect P) (h : Queue P c w) (d : SessionRole) (rng : EncryptRng) (m ad : Bytes) :
    Queue P c (w.send P d rng m ad) := by
  refine ⟨send_tracks h.tracks d rng m ad, ?_, ?_, ?_⟩
  · intro r p hp
    rcases mem_send hp with hp | ⟨rfl, hp⟩
    · exact h.opens r p hp
    · obtain ⟨wire, hw, rfl⟩ := mem_sent hp
      exact encrypt_opens hA (h.tracks.static r) (h.tracks.sending r) hw _ _
  · intro r p hp
    rw [send_receivingChain]
    rcases mem_send hp with hp | ⟨rfl, hp⟩
    · exact h.late r p hp
    · obtain ⟨wire, hw, rfl⟩ := mem_sent hp
      exact h.tracks.ahead r
  · intro r
    simp only [send, update_apply]
    split_ifs with hr
    · subst hr
      refine pairwise_append.2 ⟨h.sorted r, ?_, ?_⟩
      · unfold sent
        cases ((w.st r).encrypt P rng m ad).2 with
        | ok => exact pairwise_singleton _ _
        | error => exact List.Pairwise.nil
      · intro p hp p' hp'
        obtain ⟨wire, hw, rfl⟩ := mem_sent hp'
        exact h.tracks.pending r p hp
    · exact h.sorted r

/-- delivering the oldest packet takes its key from the chain -/
lemma takeOldest (h : Queue P c w) (hp : w.inFlight d = p :: rest) : ∃ cache,
      (w.st d.other).takeMessageKey P (c.header d p.num p.pq) = ({ w.st d.other with
        receivingChain := chainAt P (c.chainKey P d) (p.num + 1), skipped := cache },
        .ok (messageKeyAt P (c.chainKey P d) p.num.toNat)) ∧ cache.maxEntries = (w.st d.other).skipped.maxEntries := by
  have hmem : p ∈ w.inFlight d := by rw [hp]; exact .head _
  have hmax : p.num ≠ u32Max := ne_u32Max_of_lt (h.tracks.pending d p hmem)
  have hle := h.late d p hmem
  have hck : (w.st d.other).receivingChain.chainKey =
      chainKeyAt P (c.chainKey P d) (w.st d.other).receivingChain.nextMsgNum.toNat :=
    congrArg ChainState.chainKey (h.tracks.receiving d)
  have htake := takeMessageKey_chain (P := P) (s := w.st d.other) (h := c.header d p.num p.pq)
    (by simp only [Setup.header, UInt32.lt_iff_toNat_lt]; omega) hmax
  simp only [Setup.header] at htake ⊢
  rw [hck, messageKeyAt_add, chainKeyAt_add, ← Nat.add_assoc, Nat.add_sub_cancel' hle, ← toNat_succ_of_ne_max hmax] at htake
  exact ⟨_, htake, BoundedFifo.insertAll_maxEntries _ _⟩

/-- **Delivering the oldest packet** succeeds if its PQ part goes through -/
lemma deliver_queue (h : Queue P c w) (ns : Secret) (hp : w.inFlight d = p :: rest) {rk : Secret}
    {pqs : Option (PqRatchetState Secret)} (hq : PqGoes P c d (w.st d.other) p rk pqs) :
    (∃ cache, (w.st d.other).decrypt P ns p.wire p.ad = ({ w.st d.other with
      receivingChain := chainAt P (c.chainKey P d) (p.num + 1), skipped := cache, rootKey := rk, pqState := pqs },
      .ok p.message)) ∧ Queue P c (w.deliver P d 0 ns) := by
  have hmem : p ∈ w.inFlight d := by rw [hp]; exact .head _
  obtain ⟨cache, htake, hmax⟩ := takeOldest h hp
  have hdec := decrypt_honest (h.opens d p hmem) (h.tracks.static d.other) ns htake (hq _ cache)
  have hp0 : (w.inFlight d)[0]? = some p := by rw [hp]; rfl
  have hfl : ∀ r, (w.deliver P d 0 ns).inFlight r = if r = d then rest else w.inFlight r := by
    intro r
    simp only [deliver, hp0, update_apply]
    split_ifs with hr
    · rw [hp]; rfl
    · rfl
  refine ⟨⟨cache, hdec⟩, deliver_tracks h.tracks d 0 ns, ?_, ?_, ?_⟩
  · intro r x hx
    exact h.opens r x (mem_deliver hx)
  · intro r x hx
    have hst : ((w.deliver P d 0 ns).st r.other).receivingChain =
        if r = d then chainAt P (c.chainKey P d) (p.num + 1) else (w.st r.other).receivingChain := by
      simp only [deliver, hp0, hdec, update_apply]
      by_cases hr : r = d
      · subst hr; simp
      · have hne : r.other ≠ d.other := fun e => hr (by rw [← r.other_other, e, other_other])
        simp [if_neg hr, if_neg hne]
    rw [hst]
    split_ifs with hr
    · subst hr
      rw [hfl, if_pos rfl] at hx
      have hs := h.sorted r
      rw [hp, pairwise_cons] at hs
      have hlt := hs.1 x hx
      simp only [chainAt, toNat_succ_of_ne_max (ne_u32Max_of_lt (h.tracks.pending r p hmem))]
      omega
    · exact h.late r x (mem_deliver hx)
  · intro r
    rw [hfl]
    split_ifs with hr
    · have hs := h.sorted d
      rw [hp, pairwise_cons] at hs
      exact hs.2
    · exact h.sorted r

/-! ## Root keys -/

/-- the packets that carry a PQ step -/
def stepping (l : List Packet) : List Packet := l.filter Packet.steps

/-- role `d`'s packet encapsulates the secret `s` to the receiver's current key -/
def Carries (P : Primitives Secret) (q : PqSetup Secret) (K : SessionRole → ℕ → KemKeyPair Secret)
    (rot : SessionRole → ℕ) (d : SessionRole) (p : Packet) (s : Secret) : Prop :=
  p.target = rot d.other ∧ p.gen ≤ rot d ∧ ∃ rng enc,
    q.kem.encapsulate (K d.other p.target).publicKey rng = .ok enc ∧ s = enc.sharedSecret ∧
    p.pq = ⟨some enc.ciphertext, some (hashPublicKey P (K d.other p.target).publicKey), some (K d p.gen).publicKey⟩

/-- PQ steps are in flight from `d` only, they carry the secrets `ss`, and `d`'s root key is the other's after mixing
these in -/
structure RootInv (P : Primitives Secret) (q : PqSetup Secret) (K : SessionRole → ℕ → KemKeyPair Secret)
    (w : World Secret) (d : SessionRole) (ss : List Secret) : Prop where
  keys : ∀ r g, g ≤ w.rot r → q.IsKey (K r g)
  seen : ∀ r, w.seen r ≤ w.rot r.other
  ring : ∀ r, ∃ st, (w.st r).pqState = some st ∧ Keyring q K r st (w.rot r) (w.seen r) ∧
    st.lastRemoteUpdateMsgNum.toNat ≤ (w.st r).receivingChain.nextMsgNum.toNat
  plain : ∀ r, ∀ p ∈ w.inFlight r, p.steps = false → p.pq = .none
  newest : ∀ r, ((stepping (w.inFlight r)).map Packet.gen).getLastD (w.seen r.other) = w.rot r
  idle : stepping (w.inFlight d.other) = []
  carried : List.Forall₂ (Carries P q K w.rot d) (stepping (w.inFlight d)) ss
  root : (w.st d).rootKey = ss.foldl (mixRootWithPq P) (w.st d.other).rootKey

lemma start_rootInv (hc : c.pq = some q) : RootInv P q (fun r _ => q.key r) (start P c) .initiator [] := by
  have h := start_pqInv (P := P) hc
  refine ⟨h.keys, h.seen, ?_, ?_, fun r => rfl, rfl, nil, ?_⟩
  · intro r
    obtain ⟨st, hst, hring⟩ := h.ring r
    refine ⟨st, hst, hring, ?_⟩
    have hst' : (start P c).st r = c.session P r := rfl
    rw [hst', Setup.session, hc] at hst
    have hlast : st = q.state r := (some.inj hst).symm
    rw [hlast]
    exact Nat.zero_le _
  · intro r p hp; cases hp
  · simp only [start, Setup.session, hc]
    rfl

/-- with no PQ step in flight the two sides of the invariant can be exchanged -/
lemma RootInv.exchange (h : RootInv P q K w d ss) (hd : stepping (w.inFlight d) = []) : RootInv P q K w d.other [] := by
  have hcar := h.carried
  rw [hd] at hcar
  cases hcar
  refine ⟨h.keys, h.seen, h.ring, h.plain, h.newest, ?_, ?_, ?_⟩
  · rw [other_other]; exact hd
  · rw [h.idle]; exact nil
  · rw [other_other]; exact h.root.symm

lemma stepping_eq_nil {l : List Packet} (h : ∀ p ∈ l, p.steps = false) : stepping l = [] := by
  unfold stepping
  rw [filter_eq_nil_iff]
  intro p hp
  rw [h p hp]
  exact Bool.false_ne_true

/-- an `encrypt` call without a PQ step -/
lemma send_rootInv_plain (h : RootInv P q K w d ss) (e : SessionRole) (rng : EncryptRng) (m ad : Bytes)
    (hpq : (w.st e).nextPqFields P rng = .none) (hst : ((w.st e).encrypt P rng m ad).1.pqState = (w.st e).pqState)
    (hrk : ((w.st e).encrypt P rng m ad).1.rootKey = (w.st e).rootKey) : RootInv P q K (w.send P e rng m ad) d ss := by
  have hrot : (w.send P e rng m ad).rot = w.rot := by
    simp [send, rotAfter, hpq, PqFields.none]
  have hroot : ∀ r, ((w.send P e rng m ad).st r).rootKey = (w.st r).rootKey := by
    intro r
    simp only [send, update_apply]
    split_ifs with hr
    · rw [hr, hrk]
    · rfl
  have hplain : ∀ p ∈ w.sent P e rng m ad, p.pq = .none := by
    intro p hp
    obtain ⟨wire, -, rfl⟩ := mem_sent hp
    exact hpq
  have hfl : ∀ r, stepping ((w.send P e rng m ad).inFlight r) = stepping (w.inFlight r) := by
    intro r
    simp only [send, update_apply]
    split_ifs with hr
    · have hnil : stepping (w.sent P e rng m ad) = [] := stepping_eq_nil fun p hp => by
        simp [Packet.steps, hplain p hp, PqFields.none]
      unfold stepping at hnil ⊢
      rw [filter_append, hnil, append_nil, hr]
    · rfl
  refine ⟨by rw [hrot]; exact h.keys, by rw [hrot]; exact h.seen, ?_, ?_, ?_, by rw [hfl]; exact h.idle, ?_, ?_⟩
  · intro r
    rw [hrot]
    obtain ⟨st, hst', hring, hlast⟩ := h.ring r
    refine ⟨st, ?_, hring, ?_⟩
    · simp only [send, update_apply]
      split_ifs with hr
      · rw [hst, ← hr]; exact hst'
      · exact hst'
    · rw [send_receivingChain]; exact hlast
  · intro r p hp hs
    rcases mem_send hp with hp | ⟨-, hp⟩
    · exact h.plain r p hp hs
    · exact hplain p hp
  · intro r
    rw [hfl, hrot]; exact h.newest r
  · rw [hfl, hrot]; exact h.carried
  · rw [hroot, hroot]; exact h.root

/-- the secrets in flight keep their keys when their sender generates a new one -/
lemma Carries.rotate {rot : SessionRole → ℕ} {s : Secret} (h : Carries P q K rot d p s) (next : KemKeyPair Secret) :
    Carries P q (addKey K d (rot d + 1) next) (update rot d (rot d + 1)) d p s := by
  obtain ⟨ht, hg, rng, enc, he, hs, hp⟩ := h
  have h1 : addKey K d (rot d + 1) next d.other p.target = K d.other p.target :=
    addKey_old (fun e => absurd e d.other_ne)
  have h2 : addKey K d (rot d + 1) next d p.gen = K d p.gen := addKey_old (fun _ => by omega)
  refine ⟨?_, ?_, rng, enc, ?_, hs, ?_⟩
  · rw [update_of_ne d.other_ne]; exact ht
  · rw [update_self]; omega
  · rw [h1]; exact he
  · rw [h1, h2]; exact hp

/-- an `encrypt` call with a PQ step that puts its packet behind the steps in flight from the same side -/
lemma send_rootInv_step (h : RootInv P q K w d ss) (rng : EncryptRng) (m ad : Bytes) {wire : Bytes}
    (hwire : ((w.st d).encrypt P rng m ad).2 = .ok wire) (hkem : (w.st d).pqKem = some q.kem) {kem : Kem Secret}
    {next : KemKeyPair Secret} (hstep : PqSendStep P ((w.st d).advanceSending P) ((w.st d).encrypt P rng m ad).1 rng
      (w.st d).sendingChain.nextMsgNum ((w.st d).nextPqFields P rng) st kem enc next) :
    RootInv P q (addKey K d (w.rot d + 1) next) (w.send P d rng m ad) d (ss ++ [enc.sharedSecret]) := by
  obtain ⟨st', hst', hring, hlast⟩ := h.ring d
  obtain ⟨rfl, rfl⟩ := hstep.unique hst' hkem
  obtain ⟨rk, pqs, he⟩ := encrypt_frame P (w.st d) rng m ad
  have hrot : w.rotAfter P d rng = w.rot d + 1 := by simp [rotAfter, hstep.fields]
  have hrotw : (w.send P d rng m ad).rot = update w.rot d (w.rot d + 1) := by simp [send, hrot]
  -- with nothing in flight the other way, `d` holds the receiver's newest key
  have hseen : w.seen d = w.rot d.other := by
    have hn := h.newest d.other
    rw [h.idle, other_other] at hn
    exact hn
  have hsent : w.sent P d rng m ad = [⟨(w.st d).sendingChain.nextMsgNum, wire, m, ad, (w.st d).nextPqFields P rng,
      w.seen d, w.rot d + 1⟩] := by
    simp [sent, hwire, hrot]
  have hfl : stepping ((w.send P d rng m ad).inFlight d) = stepping (w.inFlight d) ++ w.sent P d rng m ad := by
    simp only [send, update_self, hsent, stepping, filter_append]
    simp [Packet.steps, hstep.fields]
  have hflo : (w.send P d rng m ad).inFlight d.other = w.inFlight d.other := by
    simp [send]
  refine ⟨?_, ?_, ?_, ?_, ?_, by rw [hflo]; exact h.idle, ?_, ?_⟩
  · rw [hrotw]; exact isKey_addKey h.keys d (.inr ⟨_, hstep.keypair⟩)
  · intro r
    rw [hrotw]
    exact (h.seen r).trans (rot_le_update w.rot d _)
  · intro r
    rw [hrotw]
    simp only [send, update_apply]
    split_ifs with hr
    · subst hr
      refine ⟨_, by rw [hstep.left], hring.rotate next, ?_⟩
      rw [he]; exact hlast
    · obtain ⟨st2, hst2, hring2, hlast2⟩ := h.ring r
      refine ⟨st2, hst2, hring2.mono next hr fun e => ?_, hlast2⟩
      have := h.seen r
      rw [e] at this; omega
  · intro r p hp hs
    rcases mem_send hp with hp | ⟨-, hp⟩
    · exact h.plain r p hp hs
    · rw [hsent, mem_singleton] at hp
      rw [hp] at hs
      simp [Packet.steps, hstep.fields] at hs
  · intro r
    rcases eq_or_other r d with rfl | rfl
    · rw [hfl, hsent, hrotw, update_self]
      simp
    · rw [hflo, hrotw, update_of_ne d.other_ne]
      exact h.newest d.other
  · rw [hfl, hsent, hrotw]
    refine rel_append (h.carried.imp fun p s hps => hps.rotate next) (cons ?_ nil)
    have hold : addKey K d (w.rot d + 1) next d.other (w.seen d) = K d.other (w.seen d) :=
      addKey_old (fun e => absurd e d.other_ne)
    refine ⟨?_, by rw [update_self], rng.encaps, enc, ?_, rfl, ?_⟩
    · rw [update_of_ne d.other_ne]; exact hseen
    · rw [hold, ← hring.remote]; exact hstep.encaps
    · rw [hold, addKey_new, ← hring.remote]; exact hstep.fields
  · simp only [send, update_self, update_of_ne d.other_ne, foldl_append, foldl_cons, foldl_nil, ← h.root, hstep.left]
    rfl

/-- the world after delivering the oldest packet of `r`, given what `decrypt` did -/
lemma deliver_oldest {ns : Secret} (hp : w.inFlight r = p :: rest) {t : SessionState Secret}
    (hdec : (w.st r.other).decrypt P ns p.wire p.ad = (t, .ok p.message)) :
    (w.deliver P r 0 ns).st = update w.st r.other t ∧
      (w.deliver P r 0 ns).inFlight = update w.inFlight r rest ∧ (w.deliver P r 0 ns).rot = w.rot ∧
      (w.deliver P r 0 ns).seen = update w.seen r.other (p.seenAfter (w.st r.other).pqState (w.seen r.other)) := by
  have hp0 : (w.inFlight r)[0]? = some p := by rw [hp]; rfl
  refine ⟨?_, ?_, ?_, ?_⟩
  · simp [deliver, hp0, hdec]
  · simp only [deliver, hp0]
    rw [hp]; rfl
  · simp [deliver, hp0]
  · simp [deliver, hp0, hdec]

/-- delivering a packet without a PQ step -/
lemma deliver_rootInv_plain (hQ : Queue P c w) (h : RootInv P q K w d ss) (ns : Secret) (hp : w.inFlight r = p :: rest)
    (hs : p.steps = false) : Queue P c (w.deliver P r 0 ns) ∧ RootInv P q K (w.deliver P r 0 ns) d ss := by
  have hmem : p ∈ w.inFlight r := by rw [hp]; exact .head _
  have hpq := h.plain r p hmem hs
  obtain ⟨⟨cache, hdec⟩, hQ'⟩ := deliver_queue hQ ns hp (pqGoes_none hpq)
  obtain ⟨hst, hfl, hrot, hseen⟩ := deliver_oldest hp hdec
  have hseen' : (w.deliver P r 0 ns).seen = w.seen := by
    rw [hseen]
    have : p.seenAfter (w.st r.other).pqState (w.seen r.other) = w.seen r.other := by
      unfold Packet.seenAfter
      cases (w.st r.other).pqState with
      | none => rfl
      | some => simp [hs]
    rw [this, update_eq_self]
  have hstep : ∀ x, stepping ((w.deliver P r 0 ns).inFlight x) = stepping (w.inFlight x) := by
    intro x
    rw [hfl, update_apply]
    split_ifs with hx
    · rw [hx, hp, stepping, stepping, filter_cons_of_neg (by rw [hs]; exact Bool.false_ne_true)]
    · rfl
  have hroot : ∀ x, ((w.deliver P r 0 ns).st x).rootKey = (w.st x).rootKey := by
    intro x
    rw [hst, update_apply]
    split_ifs with hx
    · rw [hx]
    · rfl
  refine ⟨hQ', by rw [hrot]; exact h.keys, by rw [hrot, hseen']; exact h.seen, ?_, ?_, ?_, ?_, ?_, ?_⟩
  · intro x
    rw [hrot, hseen', hst, update_apply]
    obtain ⟨st, hst', hring, hlast⟩ := h.ring x
    refine ⟨st, ?_, hring, ?_⟩
    · split_ifs with hx
      · rw [← hx]; exact hst'
      · exact hst'
    · split_ifs with hx
      · have hle := hQ.late r p hmem
        have hs1 := toNat_succ_of_ne_max (ne_u32Max_of_lt (hQ.tracks.pending r p hmem))
        rw [hx] at hlast
        simp only [chainAt, hs1]
        omega
      · exact hlast
  · intro x y hy
    exact h.plain x y (mem_deliver hy)
  · intro x
    rw [hstep, hseen', hrot]; exact h.newest x
  · rw [hstep]; exact h.idle
  · rw [hstep, hrot]; exact h.carried
  · rw [hroot, hroot]; exact h.root

/-- delivering a PQ step: the receiver mixes in the oldest of the secrets in flight -/
lemma deliver_rootInv_step (hkem : q.KemCorrect) (hsep : q.HashSeparates P) (hc : c.pq = some q) (hQ : Queue P c w)
    (h : RootInv P q K w d ss) (ns : Secret) (hp : w.inFlight d = p :: rest) (hs : p.steps = true) :
    Queue P c (w.deliver P d 0 ns) ∧ ∃ ss', RootInv P q K (w.deliver P d 0 ns) d ss' := by
  have hmem : p ∈ w.inFlight d := by rw [hp]; exact .head _
  have hstepd : stepping (w.inFlight d) = p :: stepping rest := by
    rw [hp, stepping, stepping, filter_cons_of_pos hs]
  have hcar := h.carried
  rw [hstepd] at hcar
  obtain ⟨s, ss', ⟨ht, hg, rng, enc, he, hsec, hpq⟩, hcar', rfl⟩ := forall₂_cons_left_iff.1 hcar
  obtain ⟨st, hst0, hring, hlast⟩ := h.ring d.other
  have hkm : (w.st d.other).pqKem = some q.kem := by rw [(hQ.tracks.static d.other).pqKem, hc]; rfl
  have hrcv := receiverStep_covered hkem hsep hring (fun g hg => h.keys d.other g hg) (Nat.le_of_eq ht) (by omega) he
    (w.st d.other).rootKey (K d p.gen).publicKey p.num
  have hnum : p.num ≥ st.lastRemoteUpdateMsgNum := by
    have hle := hQ.late d p hmem
    rw [ge_iff_le, UInt32.le_iff_toNat_le]; omega
  rw [PqRatchetState.applyRemotePublicKeyUpdate, if_pos hnum, ← hsec] at hrcv
  have hgo : PqGoes P c d (w.st d.other) p (mixRootWithPq P (w.st d.other).rootKey s) (some
      { st with remotePublicKey := (K d p.gen).publicKey, lastRemoteUpdateMsgNum := p.num }) := by
    intro rcv cache
    simp [pqReceive, Setup.header, hpq, hst0, hkm, hrcv]
  obtain ⟨⟨cache, hdec⟩, hQ'⟩ := deliver_queue hQ ns hp hgo
  obtain ⟨hst, hfl, hrot, hseen⟩ := deliver_oldest hp hdec
  have hseen' : p.seenAfter (w.st d.other).pqState (w.seen d.other) = p.gen := by
    rw [hst0, Packet.seenAfter, if_pos ⟨hs, hnum⟩]
  rw [hseen'] at hseen
  refine ⟨hQ', ss', by rw [hrot]; exact h.keys, ?_, ?_, ?_, ?_, ?_, ?_, ?_⟩
  · intro x
    rw [hrot, hseen, update_apply]
    split_ifs with hx
    · rw [hx, other_other]; exact hg
    · exact h.seen x
  · intro x
    rw [hrot, hseen, hst, update_apply, update_apply]
    split_ifs with hx
    · rw [hx]
      have hs1 := toNat_succ_of_ne_max (ne_u32Max_of_lt (hQ.tracks.pending d p hmem))
      refine ⟨_, rfl, ⟨hring.bound, hring.held, hring.own, by rw [other_other]⟩, ?_⟩
      simp only [chainAt, hs1]
      omega
    · exact h.ring x
  · intro x y hy
    exact h.plain x y (mem_deliver hy)
  · intro x
    have hn := h.newest x
    rw [hrot, hseen, hfl]
    rcases eq_or_other x d with rfl | rfl
    · rw [update_self, update_self]
      rw [hstepd, map_cons, getLastD_cons] at hn
      exact hn
    · rw [other_other, update_of_ne d.other_ne, update_of_ne d.ne_other]
      rw [other_other] at hn
      exact hn
  · rw [hfl, update_of_ne d.other_ne]; exact h.idle
  · rw [hfl, hrot, update_self]; exact hcar'
  · rw [hst, update_self, update_of_ne d.ne_other]
    exact h.root

lemma step_rootInv (hA : AeadCorrect P) (hE : AeadExpands P) (hkem : q.KemCorrect) (hsep : q.HashSeparates P)
    (hz : q.Sized P) (hc : c.pq = some q) (o : Op Secret) (h : Queue P c w ∧ ∃ K d ss, RootInv P q K w d ss)
    (ho : NoCrossing w o) :
    Queue P c (step P w o) ∧ ∃ K d ss, RootInv P q K (step P w o) d ss := by
  obtain ⟨hQ, K, d, ss, hR⟩ := h
  cases o with
  | send e rng m ad =>
    refine ⟨send_queue hA hQ e rng m ad, ?_⟩
    have hk : (w.st e).pqKem = some q.kem := by rw [(hQ.tracks.static e).pqKem, hc]; rfl
    rcases encrypt_pq P (w.st e) rng m ad with ⟨hpq, hst, hrk⟩ | ⟨st, kem, enc, next, hstep⟩
    · exact ⟨K, d, ss, send_rootInv_plain hR e rng m ad hpq hst hrk⟩
    · have hst : (w.st e).pqState = some st := hstep.hasState
      have hkm : (w.st e).pqKem = some kem := hstep.hasKem
      have hdue : (w.st e).pqDue (w.st e).sendingChain.nextMsgNum = true := by
        simp [pqDue, hst, hkm, hstep.due]
      obtain ⟨hnone, hfits⟩ := ho hdue
      obtain ⟨st', hst', hring, -⟩ := hR.ring e
      obtain rfl : st' = st := some.inj (hst'.symm.trans hst)
      obtain rfl : q.kem = kem := some.inj (hk.symm.trans hkm)
      obtain ⟨wire, hwire⟩ := encrypt_fits hE hz hfits hstep (hR.keys e.other (w.seen e) (hR.seen e)) hring.remote
      rcases eq_or_other e d with rfl | rfl
      · exact ⟨_, _, _, send_rootInv_step hR rng m ad hwire hk hstep⟩
      · rw [other_other] at hnone
        exact ⟨_, _, _, send_rootInv_step (hR.exchange (stepping_eq_nil hnone)) rng m ad hwire hk hstep⟩
  | deliver r i ns =>
    have hi : i = 0 := ho
    subst hi
    cases hp : w.inFlight r with
    | nil =>
      have hsame : step P w (.deliver r 0 ns) = w := by simp [step, deliver, hp]
      rw [hsame]; exact ⟨hQ, K, d, ss, hR⟩
    | cons p =>
      cases hs : p.steps with
      | false =>
        obtain ⟨h1, h2⟩ := deliver_rootInv_plain hQ hR ns hp hs
        exact ⟨h1, K, d, ss, h2⟩
      | true =>
        rcases eq_or_other r d with rfl | rfl
        · obtain ⟨h1, ss', h2⟩ := deliver_rootInv_step hkem hsep hc hQ hR ns hp hs
          exact ⟨h1, K, r, ss', h2⟩
        · -- no PQ step is in flight from the other side
          have hidle := hR.idle
          rw [hp, stepping, filter_cons_of_pos hs] at hidle
          cases hidle

/-- **Root keys agree at rest.** In every run with in-order delivery in which PQ steps are made only while none of the
other direction is in flight, with messages that fit the wire format, the two root keys are equal in every state in
which nothing is in flight. -/
theorem roots_agree (hA : AeadCorrect P) (hE : AeadExpands P) (c : Setup Secret) (q : PqSetup Secret)
    (hc : c.pq = some q) (hkem : q.KemCorrect) (hsep : q.HashSeparates P) (hz : q.Sized P) (ops : List (Op Secret))
    (hl : Legal (step P) NoCrossing (start P c) ops)
    (hidle : ∀ r, (run (step P) (start P c) ops).inFlight r = []) :
    ((run (step P) (start P c) ops).st .initiator).rootKey = ((run (step P) (start P c) ops).st .responder).rootKey := by
  have hinv := run_inv (fun w => Queue P c w ∧ ∃ K d ss, RootInv P q K w d ss)
    (fun w o h ho => step_rootInv hA hE hkem hsep hz hc o h ho) ops ⟨start_queue P c, _, _, _, start_rootInv hc⟩ hl
  obtain ⟨-, K, d, ss, hR⟩ := hinv
  have hcar := hR.carried
  rw [hidle, stepping, filter_nil] at hcar
  cases hcar
  have hroot := hR.root
  cases d with
  | initiator => exact hroot
  | responder => exact hroot.symm

/-- a message each way, one after the other -/
def alternating : List (Op UInt32) :=
  [.send .initiator sampleRng [10] [], .deliver .initiator 0 0, .send .responder sampleRng [20] [],
    .deliver .responder 0 0]

lemma samplePq_sized : samplePq.Sized Sample.tagged := by
  have hkey : ∀ k, samplePq.IsKey k → k.publicKey.length ≤ pqFieldBound := by
    intro k hk
    rcases hk with ⟨r, rfl⟩ | ⟨rng, h⟩
    · cases r <;> decide
    · simp only [samplePq, Sample.kem, Except.ok.injEq] at h
      rw [← h]
      exact (length_take_le 8 rng).trans (by decide)
  refine ⟨?_, hkey, hkey⟩
  intro pk r e he
  simp only [samplePq, Sample.kem, Except.ok.injEq] at he
  rw [← he]
  exact (length_take_le 8 r).trans (by decide)

set_option maxRecDepth 5000 in
theorem roots_agree_alternating :
    ((run (step Sample.tagged) (start Sample.tagged samplePqSetup) alternating).st .initiator).rootKey =
      ((run (step Sample.tagged) (start Sample.tagged samplePqSetup) alternating).st .responder).rootKey :=
  roots_agree Sample.tagged_correct Sample.tagged_expands samplePqSetup samplePq rfl samplePq_kemCorrect
    (fun _ _ _ _ h => h) samplePq_sized alternating (by decide) (by intro r; cases r <;> decide)

set_option maxRecDepth 5000 in
/-- **Crossing PQ steps split the root keys**: `crossing` delivers in order, everything arrives, and the roots differ -/
theorem crossing_roots :
    AeadCorrect Sample.primitives ∧ samplePq.KemCorrect ∧ samplePq.HashSeparates Sample.primitives ∧
    (∀ o ∈ crossing, InOrder o) ∧
    (run (step Sample.primitives) (start Sample.primitives samplePqSetup) crossing).log =
      [([20], .ok [20]), ([10], .ok [10])] ∧
    (∀ r, (run (step Sample.primitives) (start Sample.primitives samplePqSetup) crossing).inFlight r = []) ∧
    ((run (step Sample.primitives) (start Sample.primitives samplePqSetup) crossing).st .initiator).rootKey ≠
      ((run (step Sample.primitives) (start Sample.primitives samplePqSetup) crossing).st .responder).rootKey :=
  ⟨Sample.aeadCorrect, samplePq_kemCorrect, samplePq_hashSeparates, by decide, by decide,
    by intro r; cases r <;> decide, by decide⟩

end PqMsg.Session
