/-
The symmetric and DH ratchets (`ratchet/mod.rs`): chain states, the skipped-message-key cache, and the root step.

A chain state is a chain key and the next message number; one step derives a message key and the next chain key with
one HKDF call. `chainKeyAt` and `messageKeyAt` name the keys at a position of the chain that starts at a given key, and
`nextMessageKey_ok` / `nextMessageKey_error` say everything a step does: it fails only at message number `u32::MAX`.

`skipLoop` is the body of `SessionState::skip_until`; `skipLoop_ok` gives its effect in closed form (the keys of the
skipped positions are inserted one after the other), in particular that it never fails.
-/
import PqMsg.Core.Primitives
import PqMsg.Lib.BoundedFifo

namespace PqMsg.Ratchet

open Lib Function List Nat UInt32

variable {Secret : Type}

def infoChainStep : String := "pqmsg-ratchet-chain-step"
def infoRootStep : String := "pqmsg-ratchet-root-step"

/-- hard upper bound on skipped message key cache entries -/
def maxSkippedKeysUpperBound : ℕ := 2048

structure ChainState (Secret : Type) where
  chainKey : Secret
  nextMsgNum : UInt32

/-- `ChainState::new`, also the effect of `reset` -/
def ChainState.new (chainKey : Secret) : ChainState Secret := ⟨chainKey, 0⟩

variable (P : Primitives Secret) (ck : Secret) {n : UInt32}

/-- the first 32 bytes of the chain step -/
def messageKeyOf : Secret := P.hkdf ck none infoChainStep 2 0

/-- the last 32 bytes of the chain step -/
def nextChainKey : Secret := P.hkdf ck none infoChainStep 2 1

/-- `ChainState::next_message_key`: the number, its message key and the advanced chain -/
def ChainState.nextMessageKey (c : ChainState Secret) : Except CoreError (UInt32 × Secret × ChainState Secret) :=
  if c.nextMsgNum = u32Max then .error (.policyViolation "chain exhausted: message counter overflow")
  else .ok (c.nextMsgNum, messageKeyOf P c.chainKey, ⟨nextChainKey P c.chainKey, c.nextMsgNum + 1⟩)

structure SkippedKeyId where
  dhPub : DhPublicKey
  msgNum : UInt32
deriving DecidableEq, Repr

/-- `order` and `map` of the source, as one list of entries in insertion order -/
abbrev SkippedMessageKeys (Secret : Type) := BoundedFifo SkippedKeyId Secret

def SkippedMessageKeys.new (maxEntries : ℕ) : SkippedMessageKeys Secret :=
  BoundedFifo.empty (min maxEntries maxSkippedKeysUpperBound)

def SkippedMessageKeys.fromEntries (maxEntries : ℕ) (entries : List (SkippedKeyId × Secret)) : SkippedMessageKeys Secret :=
  (SkippedMessageKeys.new maxEntries).insertAll entries

structure RootStepOutput (Secret : Type) where
  rootKey : Secret
  chainKey : Secret
  headerKey : Secret

def kdfRootStep (rootKey dhOutput : Secret) : RootStepOutput Secret :=
  ⟨P.hkdf dhOutput (some rootKey) infoRootStep 3 0, P.hkdf dhOutput (some rootKey) infoRootStep 3 1,
    P.hkdf dhOutput (some rootKey) infoRootStep 3 2⟩

def dhRootStep (rootKey localSecret : Secret) (remotePublic : DhPublicKey) : RootStepOutput Secret :=
  kdfRootStep P rootKey (P.diffieHellman localSecret remotePublic)

/-! ## Positions of a chain -/

/-- the chain key after `n` steps from `ck` -/
def chainKeyAt (n : ℕ) : Secret := (nextChainKey P)^[n] ck

/-- the message key of position `n` of the chain that starts at `ck` -/
def messageKeyAt (n : ℕ) : Secret := messageKeyOf P (chainKeyAt P ck n)

@[simp] lemma chainKeyAt_zero : chainKeyAt P ck 0 = ck := rfl

lemma chainKeyAt_succ (n : ℕ) : nextChainKey P (chainKeyAt P ck n) = chainKeyAt P ck (n + 1) :=
  (iterate_succ_apply' _ _ _).symm

/-- the first step taken apart -/
lemma chainKeyAt_nextChainKey (n : ℕ) : chainKeyAt P (nextChainKey P ck) n = chainKeyAt P ck (n + 1) :=
  (iterate_succ_apply _ _ _).symm

lemma chainKeyAt_add (m n : ℕ) : chainKeyAt P (chainKeyAt P ck m) n = chainKeyAt P ck (m + n) := by
  unfold chainKeyAt
  rw [add_comm, iterate_add_apply]

lemma messageKeyAt_add (m n : ℕ) : messageKeyAt P (chainKeyAt P ck m) n = messageKeyAt P ck (m + n) := by
  unfold messageKeyAt; rw [chainKeyAt_add]

/-- the chain that started at `ck` and has handed out the numbers below `n` -/
def chainAt (n : UInt32) : ChainState Secret := ⟨chainKeyAt P ck n.toNat, n⟩

lemma chainAt_zero : chainAt P ck 0 = ChainState.new ck := rfl

lemma toNat_succ_of_ne_max (h : n ≠ u32Max) : (n + 1).toNat = n.toNat + 1 := by
  have hn : n.toNat ≠ 4294967295 := fun e => h (UInt32.toNat_inj.1 e)
  have hlt := n.toNat_lt
  rw [UInt32.toNat_add, UInt32.toNat_one]; omega

lemma ne_u32Max_of_lt {n m : UInt32} (h : n.toNat < m.toNat) : n ≠ u32Max := by
  intro e
  have hm := m.toNat_lt
  have : n.toNat = 4294967295 := by rw [e]; rfl
  omega

lemma nextMessageKey_ok {P : Primitives Secret} {c c' : ChainState Secret} {k : Secret}
    (h : c.nextMessageKey P = .ok (n, k, c')) : c.nextMsgNum ≠ u32Max ∧ n = c.nextMsgNum ∧
      k = messageKeyOf P c.chainKey ∧ c' = ⟨nextChainKey P c.chainKey, c.nextMsgNum + 1⟩ := by
  unfold ChainState.nextMessageKey at h
  split_ifs at h with hn
  simp only [Except.ok.injEq, Prod.mk.injEq] at h
  exact ⟨hn, h.1.symm, h.2.1.symm, h.2.2.symm⟩

lemma nextMessageKey_of_ne_max {c : ChainState Secret} (h : c.nextMsgNum ≠ u32Max) :
    c.nextMessageKey P = .ok (c.nextMsgNum, messageKeyOf P c.chainKey, ⟨nextChainKey P c.chainKey, c.nextMsgNum + 1⟩) :=
  if_neg h

/-! ## Skipping -/

/-- the loop of `SessionState::skip_until`: derive keys and cache them under `dhPub`, `n` times -/
def skipLoop (P : Primitives Secret) (dhPub : DhPublicKey) : ℕ → ChainState Secret → SkippedMessageKeys Secret →
    (ChainState Secret × SkippedMessageKeys Secret) × Except CoreError Unit
  | 0, c, sk => ((c, sk), .ok ())
  | n + 1, c, sk =>
    match c.nextMessageKey P with
    | .error e => ((c, sk), .error e)
    | .ok (msgNum, key, c') => skipLoop P dhPub n c' (sk.insert ⟨dhPub, msgNum⟩ key)

variable (dhPub : DhPublicKey)

/-- the cache entries for `n` positions from `c` on -/
def skippedEntries (c : ChainState Secret) (n : ℕ) : List (SkippedKeyId × Secret) :=
  (List.range n).map fun i => (⟨dhPub, c.nextMsgNum + UInt32.ofNat i⟩, messageKeyAt P c.chainKey i)

lemma add_ofNat_succ (a : UInt32) (i : ℕ) : a + ofNat (i + 1) = a + 1 + ofNat i := by
  rw [ofNat_add, add_assoc, add_comm (ofNat i)]; rfl

/-- walking up from `a` arrives at `b` -/
lemma add_ofNat_sub {a b : UInt32} (h : ¬ b < a) : a + UInt32.ofNat (b.toNat - a.toNat) = b := by
  have hlt := b.toNat_lt
  rw [UInt32.lt_iff_toNat_lt] at h
  apply UInt32.toNat_inj.1
  rw [UInt32.toNat_add, UInt32.toNat_ofNat']
  omega

lemma skippedEntries_succ (c : ChainState Secret) (n : ℕ) :
    skippedEntries P dhPub c (n + 1) = (⟨dhPub, c.nextMsgNum⟩, messageKeyOf P c.chainKey) ::
      skippedEntries P dhPub ⟨nextChainKey P c.chainKey, c.nextMsgNum + 1⟩ n := by
  simp only [skippedEntries, range_succ_eq_map, map_cons, map_map]
  congr 1
  · simp [messageKeyAt]
  · apply map_congr_left
    intro i _
    simp only [comp_apply, succ_eq_add_one, add_ofNat_succ, messageKeyAt, chainKeyAt_nextChainKey]

/-- the entries for `d` positions of a chain from `n` on -/
lemma mem_skippedEntries {P : Primitives Secret} {dhPub : DhPublicKey} {ck : Secret} {d : ℕ} (hd : n.toNat + d ≤ 2 ^ 32)
    {e : SkippedKeyId × Secret} :
    e ∈ skippedEntries P dhPub (chainAt P ck n) d ↔
      ∃ i : UInt32, n.toNat ≤ i.toNat ∧ i.toNat < n.toNat + d ∧ e = (⟨dhPub, i⟩, messageKeyAt P ck i.toNat) := by
  have hnum : ∀ j, j < d → (n + UInt32.ofNat j).toNat = n.toNat + j := by
    intro j hj
    rw [UInt32.toNat_add, UInt32.toNat_ofNat']
    omega
  simp only [skippedEntries, mem_map, mem_range, chainAt, messageKeyAt_add]
  constructor
  · intro ⟨j, hj, he⟩
    have hj' := hnum j hj
    exact ⟨n + UInt32.ofNat j, by omega, by omega, by rw [hj', he]⟩
  · intro ⟨i, h1, h2, he⟩
    refine ⟨i.toNat - n.toNat, by omega, ?_⟩
    have hi : n + UInt32.ofNat (i.toNat - n.toNat) = i :=
      UInt32.toNat_inj.1 (by rw [hnum _ (by omega)]; omega)
    rw [hi, he, Nat.add_sub_cancel' h1]

lemma skippedEntries_nodup (c : ChainState Secret) {d : ℕ} (hd : d ≤ 2 ^ 32) :
    ((skippedEntries P dhPub c d).map Prod.fst).Nodup := by
  simp only [skippedEntries, map_map]
  refine List.Nodup.map_on ?_ nodup_range
  intro i hi j hj h
  simp only [comp_apply, SkippedKeyId.mk.injEq, true_and, add_right_inj] at h
  have := congrArg toNat h
  rw [mem_range] at hi hj
  rwa [toNat_ofNat', toNat_ofNat', mod_eq_of_lt (by omega), mod_eq_of_lt (by omega)] at this

/-- **Skipping never fails below the counter's end**, advances the chain by `n` and inserts the `n` skipped keys in
order -/
lemma skipLoop_ok (n : ℕ) (c : ChainState Secret) (sk : SkippedMessageKeys Secret) (h : c.nextMsgNum.toNat + n < 2 ^ 32) :
    skipLoop P dhPub n c sk = ((⟨chainKeyAt P c.chainKey n, c.nextMsgNum + ofNat n⟩,
      sk.insertAll (skippedEntries P dhPub c n)), .ok ()) := by
  induction n generalizing c sk with
  | zero => simp [skipLoop, skippedEntries, BoundedFifo.insertAll]
  | succ n ih =>
    have hne : c.nextMsgNum ≠ u32Max := by
      intro e
      have : c.nextMsgNum.toNat = 4294967295 := by rw [e]; rfl
      omega
    simp only [skipLoop, nextMessageKey_of_ne_max P hne]
    rw [ih _ _ (by simp only [toNat_succ_of_ne_max hne]; omega), chainKeyAt_nextChainKey, ← add_ofNat_succ, skippedEntries_succ]
    rfl

end PqMsg.Ratchet
