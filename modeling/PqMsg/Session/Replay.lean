/-
No replay at one session.

One device runs a session from the handshake on: it encrypts, feeds arbitrary byte strings to `decrypt`, saves snapshots
and restores the latest one at any time (`Device`). A decryption that accepts its input is saved at once; saving after
other operations is up to the device. Failed decryptions leave their state behind, with whatever they skipped, evicted
or ratcheted.

Every message key is used at most once because it moves in one direction only: from the chains that can still be started
from the root key, through the receiving chain, into the bounded cache, and out. `liveKeys` is the set of keys that a
session can still come by; no operation makes it larger (`decrypt_keyed`, `encrypt_keyed`), and an accepted message's
key leaves it (`decrypt_spends`).

- `no_replay`: whatever the device does, it accepts no byte string twice.
- `snapshot_exact`: whatever the device does, its session is restored from its snapshot as it was.

What is assumed of the primitives: a ciphertext opens under at most one key (`AeadCommits`), and chains and chain
positions have different keys, with a root key that never comes back (`IdealKdf`). DH keys may be anything.
-/
import PqMsg.Lib.KeySupply
import PqMsg.Lib.Run
import PqMsg.Session.Spec

namespace PqMsg.Session

open Lib Tlv Wire Ratchet List SessionState

variable {Secret : Type} {P : Primitives Secret}

/-! ## Assumptions -/

/-- ideal AEAD: a ciphertext opens under at most one key -/
def AeadCommits (P : Primitives Secret) : Prop :=
  ∀ k k' n ad ad' c p p', P.aeadDecrypt k n ad c = some p → P.aeadDecrypt k' n ad' c = some p' → k = k'

/-- the ways a root key is replaced: a root step or a mixed-in PQ secret -/
def RootStep (P : Primitives Secret) (r r' : Secret) : Prop :=
  (∃ dh, r' = (kdfRootStep P r dh).rootKey) ∨ ∃ ss, r' = mixRootWithPq P r ss

/-- first keys of receiving chains: from the handshake, or from a root step -/
def ChainStart (P : Primitives Secret) (ck : Secret) : Prop :=
  (∃ r role, ck = hkdfSha256_32 P r none (SessionRole.chainInfo role).2) ∨ ∃ r dh, ck = (kdfRootStep P r dh).chainKey

/-- ideal KDF: different chains and chain positions have different keys -/
structure IdealKdf (P : Primitives Secret) : Prop where
  position : ∀ ck ck' i j, ChainStart P ck → ChainStart P ck' → messageKeyAt P ck i = messageKeyAt P ck' j →
    ck = ck' ∧ i = j
  chain : ∀ r r' dh dh', (kdfRootStep P r dh).chainKey = (kdfRootStep P r' dh').chainKey → r = r'
  handshake : ∀ r role r' dh, hkdfSha256_32 P r none (SessionRole.chainInfo role).2 ≠ (kdfRootStep P r' dh).chainKey
  acyclic : ∀ r, ¬ Relation.TransGen (RootStep P) r r

/-! ## Live keys -/

/-- the first keys of the chains that can be started from a root key, now or after further root steps -/
def Startable (P : Primitives Secret) (r : Secret) : Set Secret :=
  { ck | ∃ r' dh, Relation.ReflTransGen (RootStep P) r r' ∧ ck = (kdfRootStep P r' dh).chainKey }

variable {r r' ck : Secret} {s t : SessionState Secret} {bytes : Bytes} {hd : AdHeader} {ad p : Bytes} {ns : Secret}

lemma startable_mono (h : Relation.ReflTransGen (RootStep P) r r') : Startable P r' ⊆ Startable P r := by
  rintro ck ⟨x, dh, hx, rfl⟩
  exact ⟨x, dh, h.trans hx, rfl⟩

/-- message keys not derived yet: of the receiving chain from its key `ck` on, and of the chains startable from `r` -/
def freshKeys (P : Primitives Secret) (ck r : Secret) : Set Secret :=
  { k | (∃ i, k = messageKeyAt P ck i) ∨ ∃ ck' ∈ Startable P r, ∃ i, k = messageKeyAt P ck' i }

lemma freshKeys_mono (h : Relation.ReflTransGen (RootStep P) r r') : freshKeys P ck r' ⊆ freshKeys P ck r := by
  rintro k (hk | ⟨ck', hck, hk⟩)
  · exact .inl hk
  · exact .inr ⟨ck', startable_mono h hck, hk⟩

def SessionState.freshKeys (P : Primitives Secret) (s : SessionState Secret) : Set Secret :=
  Session.freshKeys P s.receivingChain.chainKey s.rootKey

/-- the keys under which the session may still open a message -/
def SessionState.liveKeys (P : Primitives Secret) (s : SessionState Secret) : Set Secret :=
  live s.skipped.values (s.freshKeys P)

/-- the receiving chain is at some position of a chain that the root key does not start again -/
def OnChain (P : Primitives Secret) (ck r : Secret) : Prop :=
  ∃ start n, ChainStart P start ∧ start ∉ Startable P r ∧ ck = chainKeyAt P start n

structure Keyed (P : Primitives Secret) (s : SessionState Secret) : Prop where
  chain : OnChain P s.receivingChain.chainKey s.rootKey
  supply : Supply s.skipped.values (s.freshKeys P)

/-- **Deriving keys of the receiving chain** removes them from the fresh keys -/
lemma OnChain.draws (hK : IdealKdf P) (h : OnChain P ck r) (d : ℕ) :
    Draws (freshKeys P ck r) (freshKeys P (chainKeyAt P ck d) r) ((List.range d).map (messageKeyAt P ck)) := by
  obtain ⟨start, n, hstart, hnot, rfl⟩ := h
  refine ⟨?_, ?_, ?_, ?_⟩
  · refine List.Nodup.map ?_ nodup_range
    intro i j hij
    rw [messageKeyAt_add, messageKeyAt_add] at hij
    have := (hK.position _ _ _ _ hstart hstart hij).2
    omega
  · intro k hk
    obtain ⟨i, -, rfl⟩ := mem_map.1 hk
    exact .inl ⟨i, rfl⟩
  · intro k hk
    obtain ⟨i, hi, rfl⟩ := mem_map.1 hk
    rw [mem_range] at hi
    rw [messageKeyAt_add]
    rintro (⟨j, hj⟩ | ⟨ck', hck, j, hj⟩)
    · rw [messageKeyAt_add, messageKeyAt_add] at hj
      have := (hK.position _ _ _ _ hstart hstart hj).2
      omega
    · have hck' : ChainStart P ck' := by
        obtain ⟨r', dh, -, rfl⟩ := hck
        exact .inr ⟨r', dh, rfl⟩
      exact hnot ((hK.position _ _ _ _ hstart hck' hj).1 ▸ hck)
  · rintro k (⟨j, rfl⟩ | hk)
    · exact .inl ⟨d + j, by rw [messageKeyAt_add]⟩
    · exact .inr hk

lemma OnChain.advance (h : OnChain P ck r) (d : ℕ) : OnChain P (chainKeyAt P ck d) r := by
  obtain ⟨start, n, hstart, hnot, rfl⟩ := h
  exact ⟨start, n + d, hstart, hnot, chainKeyAt_add P start n d⟩

lemma OnChain.mono (h : OnChain P ck r) (hr : Relation.ReflTransGen (RootStep P) r r') : OnChain P ck r' := by
  obtain ⟨start, n, hstart, hnot, hck⟩ := h
  exact ⟨start, n, hstart, fun hs => hnot (startable_mono hr hs), hck⟩

/-! ## What each stage does to the live keys -/

/-- `t` is in order and has no key that `s` does not have -/
structure After (P : Primitives Secret) (s t : SessionState Secret) : Prop where
  keyed : Keyed P t
  subset : t.liveKeys P ⊆ s.liveKeys P

lemma After.refl (h : Keyed P s) : After P s s := ⟨h, subset_rfl⟩

lemma After.trans {u : SessionState Secret} (h : After P s t) (h' : After P t u) : After P s u :=
  ⟨h'.keyed, h'.subset.trans h.subset⟩

/-- only root key, receiving chain and cache matter; the cache may lose keys and the root key move on -/
lemma Keyed.shrink (h : Keyed P s) (hc : t.receivingChain.chainKey = s.receivingChain.chainKey)
    (hr : Relation.ReflTransGen (RootStep P) s.rootKey t.rootKey) (hs : t.skipped.values.Sublist s.skipped.values) :
    After P s t := by
  have hf : t.freshKeys P ⊆ s.freshKeys P := by
    unfold SessionState.freshKeys
    rw [hc]
    exact freshKeys_mono hr
  exact ⟨⟨hc ▸ h.chain.mono hr, h.supply.shrink hs hf⟩, live_mono hs.subset hf⟩

lemma skipUntil_after (hK : IdealKdf P) (h : Keyed P s) (dh : DhPublicKey) (u : UInt32) : After P s (s.skipUntil P dh u).1 := by
  rw [skipUntil_eq]
  generalize u.toNat - s.receivingChain.nextMsgNum.toNat = d
  have hd := h.chain.draws hK d
  have hv := s.skipped.insertAll_values (skippedEntries P dh s.receivingChain d)
  simp only [skippedEntries, map_map] at hv
  exact ⟨⟨h.chain.advance d, (h.supply.draw hd).shrink hv subset_rfl⟩, (live_mono hv.subset subset_rfl).trans hd.live_subset⟩

lemma applyDhRatchet_after (hK : IdealKdf P) (h : Keyed P s) (ns : Secret) (dh : DhPublicKey) :
    After P s (s.applyDhRatchet P ns dh) := by
  have hroot : Relation.TransGen (RootStep P) s.rootKey (s.applyDhRatchet P ns dh).rootKey :=
    .tail (.single (.inl ⟨_, rfl⟩)) (.inl ⟨_, rfl⟩)
  have hf : (s.applyDhRatchet P ns dh).freshKeys P ⊆ s.freshKeys P := by
    rintro k (hk | ⟨ck, hck, hk⟩)
    · exact .inr ⟨_, ⟨s.rootKey, _, .refl, rfl⟩, hk⟩
    · exact .inr ⟨ck, startable_mono hroot.to_reflTransGen hck, hk⟩
  refine ⟨⟨⟨_, 0, .inr ⟨_, _, rfl⟩, ?_, rfl⟩, h.supply.shrink (List.Sublist.refl _) hf⟩, live_mono (.refl _) hf⟩
  -- the chain of a root step is not started again from the root keys after it
  rintro ⟨x, dh', hx, heq⟩
  obtain rfl := hK.chain _ _ _ _ heq
  exact hK.acyclic _ (hroot.trans_left hx)

lemma ratchetIfNew_after (hK : IdealKdf P) (h : Keyed P s) (ns : Secret) (hd : AdHeader) :
    After P s (s.ratchetIfNew P ns hd).1 := by
  have hskip := skipUntil_after hK h s.remoteDhPub hd.prevChainLen
  unfold ratchetIfNew
  split_ifs
  · rw [skipUntil_eq] at hskip ⊢
    exact hskip.trans (applyDhRatchet_after hK hskip.keyed ns hd.senderDhPub)
  · exact After.refl h

lemma pqReceive_root (hq : s.pqReceive P hd = .ok t) : Relation.ReflTransGen (RootStep P) s.rootKey t.rootKey := by
  obtain ⟨rk, pqs, rfl, hrk | hmixed⟩ := pqReceive_frame hq
  · rw [hrk]
  · exact .single (.inr hmixed)

lemma pqReceive_after (h : Keyed P s) (hq : s.pqReceive P hd = .ok t) : After P s t := by
  have hroot := pqReceive_root hq
  obtain ⟨rk, pqs, rfl, -⟩ := pqReceive_frame hq
  exact h.shrink rfl hroot (List.Sublist.refl _)

/-- taking a key spends it -/
lemma takeMessageKey_after (hK : IdealKdf P) (h : Keyed P s) (hd : AdHeader) :
    After P s (s.takeMessageKey P hd).1 ∧ ∀ k, (s.takeMessageKey P hd).2 = .ok k →
      k ∈ s.liveKeys P ∧ k ∉ (s.takeMessageKey P hd).1.liveKeys P := by
  by_cases hn : hd.msgNum < s.receivingChain.nextMsgNum
  · have herase := s.skipped.erase_values ⟨hd.senderDhPub, hd.msgNum⟩
    cases hl : s.skipped.lookup ⟨hd.senderDhPub, hd.msgNum⟩ with
    | none =>
      have he : s.takeMessageKey P hd = ({ s with skipped := s.skipped.erase ⟨hd.senderDhPub, hd.msgNum⟩ },
          .error .messageKeyUnavailable) := by
        simp [takeMessageKey, if_pos hn, BoundedFifo.take, hl]
      rw [he]
      exact ⟨h.shrink rfl .refl herase, fun k hk => absurd hk (by simp)⟩
    | some =>
      rw [takeMessageKey_cached hn hl]
      refine ⟨h.shrink rfl .refl herase, fun k hk => ?_⟩
      cases hk
      exact ⟨.inl (BoundedFifo.mem_values_of_lookup hl), h.supply.erase_gone hl⟩
  · have hskip := skipUntil_after hK h hd.senderDhPub hd.msgNum
    unfold takeMessageKey
    rw [if_neg hn]
    rw [skipUntil_eq] at hskip ⊢
    generalize hs' : ({ s with
      receivingChain := _
      skipped := _ } : SessionState Secret) = s' at hskip ⊢
    simp only
    cases hnext : s'.receivingChain.nextMessageKey P with
    | error => exact ⟨hskip, fun k hk => absurd hk (by simp)⟩
    | ok r =>
      obtain ⟨num, key, chain⟩ := r
      obtain ⟨-, -, rfl, rfl⟩ := nextMessageKey_ok hnext
      -- the key is the next one of the chain and is used at once
      have hdraw : Draws (s'.freshKeys P) (freshKeys P (nextChainKey P s'.receivingChain.chainKey) s'.rootKey)
          [messageKeyOf P s'.receivingChain.chainKey] := hskip.keyed.chain.draws hK 1
      refine ⟨hskip.trans ⟨⟨hskip.keyed.chain.advance 1, hskip.keyed.supply.shrink (List.Sublist.refl _) hdraw.rest⟩,
        live_mono (.refl _) hdraw.rest⟩, fun k hk => ?_⟩
      cases hk
      exact ⟨hskip.subset (.inr (hdraw.drawn _ (mem_singleton_self _))), hskip.keyed.supply.draw_gone hdraw⟩

/-! ## The operations of a session -/

lemma encrypt_root (P : Primitives Secret) (s : SessionState Secret) (rng : EncryptRng) (m ad : Bytes) :
    Relation.ReflTransGen (RootStep P) s.rootKey (s.encrypt P rng m ad).1.rootKey := by
  rcases encrypt_pq P s rng m ad with ⟨-, -, hrk⟩ | ⟨st, kem, enc, next, hstep⟩
  · rw [hrk]
  · rw [hstep.left]
    exact .single (.inr ⟨enc.sharedSecret, rfl⟩)

lemma encrypt_keyed (h : Keyed P s) (rng : EncryptRng) (m ad : Bytes) : After P s (s.encrypt P rng m ad).1 := by
  obtain ⟨rk, pqs, he⟩ := encrypt_frame P s rng m ad
  refine h.shrink ?_ (encrypt_root P s rng m ad) ?_
  · rw [he]
  · rw [he]

/-- `decrypt` makes no key live, whether it accepts or fails -/
lemma decrypt_keyed (hK : IdealKdf P) (h : Keyed P s) (ns : Secret) (bytes ad : Bytes) :
    After P s (s.decrypt P ns bytes ad).1 :=
  decrypt_preserves (I := After P s) (fun _ hd ht => ht.trans (ratchetIfNew_after hK ht.keyed ns hd))
    (fun _ hd ht => ht.trans (takeMessageKey_after hK ht.keyed hd).1)
    (fun _ _ _ hq ht => ht.trans (pqReceive_after ht.keyed hq)) (After.refl h)

/-- nonce and ciphertext of a byte string, in either wire format -/
def sealedPart (bytes : Bytes) : Option (Nonce × Bytes) :=
  match decodeWireMessage bytes with
  | .error _ => none
  | .ok (.v1 m) => some (m.aeadNonce, m.ciphertext)
  | .ok (.v2 m) => some (m.aeadNonce, m.ciphertext)

/-- the AEAD opens the byte string under `k`, for some associated data -/
def OpensUnder (P : Primitives Secret) (bytes : Bytes) (k : Secret) : Prop :=
  ∃ n ct ad p, sealedPart bytes = some (n, ct) ∧ P.aeadDecrypt k n ad ct = some p

lemma opensUnder_unique (hA : AeadCommits P) {k k' : Secret} (h : OpensUnder P bytes k) (h' : OpensUnder P bytes k') :
    k = k' := by
  obtain ⟨n, ct, ad, p, hs, ho⟩ := h
  obtain ⟨n', ct', ad', p', hs', ho'⟩ := h'
  rw [hs] at hs'
  obtain ⟨rfl, rfl⟩ := Prod.mk.inj (Option.some.inj hs')
  exact hA _ _ _ _ _ _ _ _ ho ho'

lemma sealedPart_fields {dec : DecodedWireMessage} {inc : Incoming} (hd : decodeWireMessage bytes = .ok dec)
    (hi : s.incomingFields P dec = .ok inc) :
    sealedPart bytes = some (inc.aeadNonce, inc.ciphertext) := by
  unfold sealedPart
  rw [hd]
  cases dec with
  | v1 =>
    simp only [incomingFields, Except.ok.injEq] at hi
    rw [← hi]
  | v2 m =>
    simp only [incomingFields] at hi
    cases hh : s.decryptV2Header P m.encryptedHeader with
    | error => rw [hh] at hi; cases hi
    | ok =>
      simp only [hh, Except.ok.injEq] at hi
      rw [← hi]

/-- **An accepted message spends its key** -/
lemma decrypt_spends (hK : IdealKdf P) (h : Keyed P s) (hok : (s.decrypt P ns bytes ad).2 = .ok p) :
    ∃ k, OpensUnder P bytes k ∧ k ∈ s.liveKeys P ∧ k ∉ (s.decrypt P ns bytes ad).1.liveKeys P := by
  have hdec : s.decrypt P ns bytes ad = ((s.decrypt P ns bytes ad).1, .ok p) := Prod.ext rfl hok
  obtain ⟨dec, inc, s1, s2, k, hacc⟩ := decrypt_ok hdec
  obtain ⟨aad, q, -, hq, -⟩ := openMessage_ok.1 hacc.opened
  have h1 : After P s s1 := by
    have := ratchetIfNew_after hK h ns inc.header
    rwa [hacc.ratcheted] at this
  obtain ⟨h2, htake⟩ := takeMessageKey_after hK h1.keyed inc.header
  rw [hacc.key] at h2 htake
  obtain ⟨hlive, hgone⟩ := htake k rfl
  have h3 := pqReceive_after h2.keyed hacc.received
  exact ⟨k, ⟨_, _, aad, q, sealedPart_fields hacc.decoded hacc.fields, hq⟩, h1.subset hlive, fun hk => hgone (h3.subset hk)⟩

/-- restoring a snapshot gives back the keys of the session it was taken of, or fewer -/
lemma restore_keyed (h : Keyed P s) (kem : Option (Kem Secret)) : After P s (fromSnapshotWithKem s.snapshot kem) := by
  refine h.shrink rfl .refl ?_
  have hv := (SkippedMessageKeys.new s.skipped.maxEntries).insertAll_values s.skipped.entries
  exact hv

/-! ## The device -/

structure Device (Secret : Type) where
  session : SessionState Secret
  saved : SessionSnapshot Secret
  /-- what `decrypt` has accepted, newest first -/
  accepted : List Bytes

inductive DeviceOp (Secret : Type) where
  | encrypt (rng : EncryptRng) (message ad : Bytes)
  | decrypt (bytes ad : Bytes) (newSecret : Secret)
  | save
  | restore (kem : Option (Kem Secret))

def deviceStep (P : Primitives Secret) (w : Device Secret) : DeviceOp Secret → Device Secret
  | .encrypt rng m ad => { w with session := (w.session.encrypt P rng m ad).1 }
  | .decrypt bytes ad ns =>
    let s := (w.session.decrypt P ns bytes ad).1
    match (w.session.decrypt P ns bytes ad).2 with
    | .ok _ => ⟨s, s.snapshot, bytes :: w.accepted⟩
    | .error _ => { w with session := s }
  | .save => { w with saved := w.session.snapshot }
  | .restore kem => { w with session := fromSnapshotWithKem w.saved kem }

/-- a session as the handshake leaves it, with the PQ ratchet on or off -/
def handshakeSession (P : Primitives Secret) (role : SessionRole) (root : Secret) (localDh : DhKeyPair Secret)
    (remoteDhPub : DhPublicKey) (suiteId wireVersion : UInt16) (maxSkipped : ℕ) :
    Option (PqRatchetState Secret × Kem Secret) → SessionState Secret
  | none => fromHandshake P role root localDh remoteDhPub suiteId wireVersion maxSkipped
  | some (state, kem) =>
    fromHandshakeWithPqRatchet P role root localDh remoteDhPub suiteId wireVersion maxSkipped state kem

def deviceStart (s : SessionState Secret) : Device Secret := ⟨s, s.snapshot, []⟩

lemma handshakeSession_keyed (hK : IdealKdf P) (role : SessionRole) (root : Secret) (localDh : DhKeyPair Secret)
    (remoteDhPub : DhPublicKey) (suiteId wireVersion : UInt16) (maxSkipped : ℕ)
    (pq : Option (PqRatchetState Secret × Kem Secret)) :
    Keyed P (handshakeSession P role root localDh remoteDhPub suiteId wireVersion maxSkipped pq) := by
  have hnot : hkdfSha256_32 P root none role.chainInfo.2 ∉ Startable P root := by
    rintro ⟨r, dh, -, heq⟩
    exact hK.handshake _ _ _ _ heq
  have hchain : OnChain P (hkdfSha256_32 P root none role.chainInfo.2) root :=
    ⟨_, 0, .inl ⟨root, role, rfl⟩, hnot, rfl⟩
  have hempty : ∀ fresh : Set Secret, Supply ([] : List Secret) fresh :=
    fun fresh => ⟨nodup_nil, fun k hk => absurd hk not_mem_nil⟩
  cases pq with
  | none | some => exact ⟨hchain, hempty _⟩

/-- the session and the one in the snapshot are in order, and the keys of what was accepted are live in neither -/
structure DeviceInv (P : Primitives Secret) (w : Device Secret) : Prop where
  session : Keyed P w.session
  saved : Keyed P (fromSnapshotWithKem w.saved none)
  spent : ∀ bytes ∈ w.accepted, ∃ k, OpensUnder P bytes k ∧ k ∉ w.session.liveKeys P ∧
    k ∉ (fromSnapshotWithKem w.saved none).liveKeys P
  nodup : w.accepted.Nodup

variable {w : Device Secret}

/-- the session moves on without accepting anything -/
lemma DeviceInv.move (h : DeviceInv P w) (hs : After P w.session s) : DeviceInv P { w with session := s } := by
  refine ⟨hs.keyed, h.saved, ?_, h.nodup⟩
  intro bytes hb
  obtain ⟨k, hopen, hk, hsaved⟩ := h.spent bytes hb
  exact ⟨k, hopen, fun hk' => hk (hs.subset hk'), hsaved⟩

/-- the snapshot of the session as it is -/
lemma DeviceInv.save (h : DeviceInv P w) : DeviceInv P { w with saved := w.session.snapshot } := by
  have hr := restore_keyed h.session none
  refine ⟨h.session, hr.keyed, ?_, h.nodup⟩
  intro bytes hb
  obtain ⟨k, hopen, hk, -⟩ := h.spent bytes hb
  exact ⟨k, hopen, hk, fun hk' => hk (hr.subset hk')⟩

/-- a byte string is accepted: its key was live, so it was not accepted before -/
lemma DeviceInv.accept (hA : AeadCommits P) (hK : IdealKdf P) (h : DeviceInv P w)
    (hok : (w.session.decrypt P ns bytes ad).2 = .ok p) :
    DeviceInv P { w with
      session := (w.session.decrypt P ns bytes ad).1
      saved := (w.session.decrypt P ns bytes ad).1.snapshot
      accepted := bytes :: w.accepted } := by
  obtain ⟨k, hopen, hlive, hgone⟩ := decrypt_spends hK h.session hok
  have hmove := (h.move (decrypt_keyed hK h.session ns bytes ad)).save
  have hr := restore_keyed (decrypt_keyed hK h.session ns bytes ad).keyed none
  refine ⟨hmove.session, hmove.saved, ?_, nodup_cons.2 ⟨?_, h.nodup⟩⟩
  · intro b hb
    rcases mem_cons.1 hb with rfl | hb
    · exact ⟨k, hopen, hgone, fun hk => hgone (hr.subset hk)⟩
    · exact hmove.spent b hb
  · intro hb
    obtain ⟨k', hopen', hk', -⟩ := h.spent bytes hb
    exact hk' (opensUnder_unique hA hopen hopen' ▸ hlive)

/-- what one operation keeps -/
lemma deviceStep_inv (hA : AeadCommits P) (hK : IdealKdf P) (h : DeviceInv P w) (o : DeviceOp Secret) :
    DeviceInv P (deviceStep P w o) := by
  cases o with
  | encrypt rng m ad => exact h.move (encrypt_keyed h.session rng m ad)
  | decrypt bytes ad ns =>
    cases hr : (w.session.decrypt P ns bytes ad).2 with
    | ok =>
      simp only [deviceStep, hr]
      exact h.accept hA hK hr
    | error =>
      simp only [deviceStep, hr]
      exact h.move (decrypt_keyed hK h.session ns bytes ad)
  | save => exact h.save
  | restore kem =>
    -- the KEM object does not enter the keys
    have hkeyed : Keyed P (fromSnapshotWithKem w.saved kem) := ⟨h.saved.chain, h.saved.supply⟩
    refine ⟨hkeyed, h.saved, ?_, h.nodup⟩
    intro bytes hb
    obtain ⟨k, hopen, -, hk⟩ := h.spent bytes hb
    exact ⟨k, hopen, hk, hk⟩

/-- **No replay.** From any handshake on, for every sequence of `encrypt` calls, `decrypt` calls on arbitrary byte
strings (accepted or not), saved snapshots and restores of the latest one, no byte string is accepted twice. -/
theorem no_replay (hA : AeadCommits P) (hK : IdealKdf P) (role : SessionRole) (root : Secret)
    (localDh : DhKeyPair Secret) (remoteDhPub : DhPublicKey) (suiteId wireVersion : UInt16) (maxSkipped : ℕ)
    (pq : Option (PqRatchetState Secret × Kem Secret)) (ops : List (DeviceOp Secret)) :
    (run (deviceStep P) (deviceStart
      (handshakeSession P role root localDh remoteDhPub suiteId wireVersion maxSkipped pq)) ops).accepted.Nodup := by
  have hstart := handshakeSession_keyed hK role root localDh remoteDhPub suiteId wireVersion maxSkipped pq
  have hinit : DeviceInv P (deviceStart (handshakeSession P role root localDh remoteDhPub suiteId wireVersion maxSkipped pq)) :=
    ⟨hstart, (restore_keyed hstart none).keyed, fun _ hb => absurd hb not_mem_nil, nodup_nil⟩
  exact (run_inv_all (DeviceInv P) (fun w o h => deviceStep_inv hA hK h o) ops hinit).nodup

/-- **Restoring is exact.** From any handshake on, for every sequence of `encrypt` and `decrypt` calls, snapshots and restores:
the snapshot of the session restores, with its KEM, to the session itself. -/
theorem snapshot_exact (P : Primitives Secret) (role : SessionRole) (root : Secret) (localDh : DhKeyPair Secret)
    (remoteDhPub : DhPublicKey) (suiteId wireVersion : UInt16) (maxSkipped : ℕ)
    (pq : Option (PqRatchetState Secret × Kem Secret)) (ops : List (DeviceOp Secret)) :
    let s := (run (deviceStep P) (deviceStart
      (handshakeSession P role root localDh remoteDhPub suiteId wireVersion maxSkipped pq)) ops).session
    fromSnapshotWithKem s.snapshot s.pqKem = s := by
  refine restore_snapshot (run_inv_all (fun w : Device Secret => w.session.skipped.maxEntries ≤ maxSkippedKeysUpperBound)
    (fun w o h => ?_) ops ?_)
  · cases o with
    | encrypt rng m ad =>
      obtain ⟨rk, pqs, he⟩ := encrypt_frame P w.session rng m ad
      simp only [deviceStep, he]
      exact h
    | decrypt bytes ad ns =>
      rw [← decrypt_window P w.session ns bytes ad] at h
      simp only [deviceStep]
      split <;> exact h
    | save => exact h
    | restore => exact le_trans (BoundedFifo.insertAll_maxEntries _ _).le (min_le_right _ _)
  · cases pq <;> exact min_le_right _ _

/-! ## A symbolic instance

Secrets are terms, so that nothing collides: a KDF call is a term built from its inputs. A ciphertext opens under the
key of one position of the initiator's first chain, named by its first byte. -/

inductive Term where
  | atom (n : ℕ)
  | dh (secret : Term) (remotePublic : Bytes)
  | kdf (ikm : Term) (info : String) (n i : ℕ)
  | kdfSalted (ikm salt : Term) (info : String) (n i : ℕ)
deriving DecidableEq

namespace Term

/-- the key that opens ciphertexts starting with `n` -/
def keyNo (n : ℕ) : Term :=
  .kdf ((fun t => .kdf t infoChainStep 2 1)^[n] (.kdf (.atom 0) infoInitiatorSend 1 0)) infoChainStep 2 0

def primitives : Primitives Term where
  hkdf ikm salt info n i := match salt with
    | none => .kdf ikm info n i
    | some salt => .kdfSalted ikm salt info n i
  dhPublic _ := ByteArr.replicate 32 7
  diffieHellman a b := .dh a b.1
  aeadEncrypt key _ _ p := ((List.range 4).find? fun i => keyNo i = key).map fun i => UInt8.ofNat i :: p
  aeadDecrypt key _ _ c := match c with
    | i :: p => if key = keyNo i.toNat then some p else none
    | [] => none
  aesCtrKeystream _ _ := 0
  sha256 b := b

lemma aeadCommits : AeadCommits primitives := by
  intro k k' n ad ad' c p p' h h'
  cases c with
  | nil => cases h
  | cons =>
    simp only [primitives, Option.ite_none_right_eq_some] at h h'
    rw [h.1, h'.1]

/-- a chain step can be undone, unless it is the start of a chain -/
lemma chainKeyAt_inj {ck ck' : Term} (hck : ∀ t, ck ≠ nextChainKey primitives t)
    (hck' : ∀ t, ck' ≠ nextChainKey primitives t) {i j : ℕ}
    (h : chainKeyAt primitives ck i = chainKeyAt primitives ck' j) : ck = ck' ∧ i = j := by
  induction i generalizing j with
  | zero =>
    cases j with
    | zero => exact ⟨h, rfl⟩
    | succ =>
      rw [← chainKeyAt_succ] at h
      exact absurd h (hck _)
  | succ i ih =>
    cases j with
    | zero =>
      rw [← chainKeyAt_succ] at h
      exact absurd h.symm (hck' _)
    | succ =>
      rw [← chainKeyAt_succ, ← chainKeyAt_succ] at h
      obtain ⟨h1, h2⟩ := ih (Term.kdf.inj h).1
      exact ⟨h1, by rw [h2]⟩

lemma chainStart_ne {ck : Term} (h : ChainStart primitives ck) (t : Term) : ck ≠ nextChainKey primitives t := by
  rcases h with ⟨r, role, rfl⟩ | ⟨r, dh, rfl⟩
  · intro heq
    have hn := (Term.kdf.inj heq).2.2.1
    cases hn
  · intro heq
    cases heq

lemma rootStep_size {r r' : Term} (h : RootStep primitives r r') : sizeOf r < sizeOf r' := by
  rcases h with ⟨dh, rfl⟩ | ⟨ss, rfl⟩
  · simp only [kdfRootStep, primitives, Term.kdfSalted.sizeOf_spec]
    omega
  · simp only [mixRootWithPq, hkdfSha256_32, primitives, Term.kdfSalted.sizeOf_spec]
    omega

lemma transGen_size {r r' : Term} (h : Relation.TransGen (RootStep primitives) r r') : sizeOf r < sizeOf r' := by
  induction h with
  | single h => exact rootStep_size h
  | tail _ h ih => exact ih.trans (rootStep_size h)

lemma idealKdf : IdealKdf primitives := by
  refine ⟨?_, ?_, ?_, ?_⟩
  · intro ck ck' i j h h' hkey
    exact chainKeyAt_inj (chainStart_ne h) (chainStart_ne h') (Term.kdf.inj hkey).1
  · intro r r' dh dh' h
    exact (Term.kdfSalted.inj h).2.1
  · intro r role r' dh h
    cases h
  · intro r hcycle
    exact absurd (transGen_size hcycle) (Nat.lt_irrefl _)

end Term

/-- a session of either role without the PQ ratchet, on version 2 -/
def termSession (role : SessionRole) : SessionState Term :=
  handshakeSession Term.primitives role (.atom 0) ⟨ByteArr.replicate 32 7, .atom 1⟩ (ByteArr.replicate 32 7) 1 2 4 none

/-- the second message of the initiator -/
def termWire : Bytes :=
  let rng : EncryptRng := ⟨[], [], ByteArr.replicate 12 0⟩
  let s := ((termSession .initiator).encrypt Term.primitives rng [9] []).1
  ((s.encrypt Term.primitives rng [10] []).2.toOption).getD []

/-- the second message arrives three times, before and after a restore -/
def replayed : List (DeviceOp Term) :=
  [.decrypt termWire [] (.atom 2), .decrypt termWire [] (.atom 3), .restore none, .decrypt termWire [] (.atom 4)]

theorem no_replay_replayed :
    (run (deviceStep Term.primitives) (deviceStart (termSession .responder)) replayed).accepted = [termWire] ∧
    (run (deviceStep Term.primitives) (deviceStart (termSession .responder)) replayed).accepted.Nodup :=
  ⟨by decide +kernel, no_replay Term.aeadCommits Term.idealKdf .responder (.atom 0) ⟨ByteArr.replicate 32 7, .atom 1⟩
    (ByteArr.replicate 32 7) 1 2 4 none replayed⟩

end PqMsg.Session
