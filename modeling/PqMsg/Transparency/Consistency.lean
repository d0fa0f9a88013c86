/-
Consistency proofs of the transparency log: what `verify_consistency_proof` accepts, and when it accepts what
`build_consistency_proof` built.

The verifier climbs the old and the new tree at once, shifting the index of the last old leaf. With an injective node hash it
accepts exactly one proof for a prefix, `Merkle.seedPath`, and none otherwise. The builder recurses on the tree from the top.
Its split, `largest_power_of_two_less_than`, is half of the largest power of two below the number of leaves unless that number
is itself a power of two, so on other trees it cuts the left subtree in two and leaves out or adds hashes.

- `evaluateConsistencyProof_iff`: the verifier accepts the prefix proof of a prefix and nothing else.
- `consistency_sound`: accepted heads are heads of a log and of an extension of it.
- `inner_full`: on a full tree the builder finds the prefix proof.
- `inner_extended_iff`: on other trees it finds it only if certain subtrees have the same root.
- `consistency_built_iff`: the pairs of logs and sizes for which the built proof is accepted.
- `consistency_built_rejected`: three leaves, of which one was there before.
-/
import PqMsg.Transparency.Log

namespace PqMsg.Transparency

open Lib Function List Option Merkle
open Lib.Merkle (Aligned sibling)

variable {Hash : Type} {L : LogPrims Hash} {old new hs : List Hash} {ro rn : Hash}

/-! ## The verifier's loop -/

section Loop

variable {fn sn : ℕ} {old new : List Hash} {o n x ro rn : Hash} {hs : List Hash}

/-- **The loop climbs both trees at once**: it ends in both roots exactly when it started at the last node of the old tree
and the node at its place in the new one, the trees agree left of it, and the hashes are the path in the new tree. -/
lemma evalLoop_iff (hH : Function.Injective2 (hashNode L)) (hold : old.length = fn + 1) (hnew : new.length = sn + 1)
    (hle : fn ≤ sn) (hro : root (hashNode L) old = some ro) (hrn : root (hashNode L) new = some rn) :
    evalLoop L fn sn o n hs = .ok (ro, rn) ↔ Aligned old new fn o n ∧ hs = path (hashNode L) fn new := by
  induction sn using Nat.strong_induction_on generalizing fn old new o n hs with
  | _ sn ih =>
    by_cases h0 : sn = 0
    · subst h0
      obtain rfl := Nat.le_zero.1 hle
      match old, new, hold, hnew with
      | [a], [b], _, _ =>
        rw [root_single, some.injEq] at hro hrn
        rw [evalLoop_top, path_single]
        simp [Aligned, hro, hrn, and_comm]
    · -- one level up, where the induction hypothesis applies
      have up : ∀ {o' n' : Hash} {hs' : List Hash}, evalLoop L (fn / 2) (sn / 2) o' n' hs' = .ok (ro, rn) ↔
          Aligned (nextLevel (hashNode L) old) (nextLevel (hashNode L) new) (fn / 2) o' n' ∧
            hs' = path (hashNode L) (fn / 2) (nextLevel (hashNode L) new) := by
        intro o' n' hs'
        apply ih (sn / 2) (by omega)
        · rw [nextLevel_length]; omega
        · rw [nextLevel_length]; omega
        · omega
        · rw [root_nextLevel]; exact hro
        · rw [root_nextLevel]; exact hrn
      rw [path_step _ (by omega)]
      by_cases hodd : fn % 2 = 1
      · obtain ⟨y, hy⟩ : ∃ y, sibling fn new = some y := by
          unfold sibling
          rw [if_pos hodd, List.getElem?_eq_getElem (by omega)]
          exact ⟨_, rfl⟩
        cases hs with
        | nil => simp [evalLoop_nil L o n fn h0, hy]
        | cons =>
          rw [evalLoop_odd L o n h0 hodd, up, aligned_odd hH hodd (by omega) (by omega), hy]
          simp [and_assoc, eq_comm]
      · by_cases hlast : fn = sn
        · subst hlast
          have hy : sibling fn new = none := by
            unfold sibling
            rw [if_neg hodd, List.getElem?_eq_none (by omega)]
          rw [evalLoop_last L o n h0 (by omega), up, aligned_last hH hodd hold hnew, hy]
          rfl
        · obtain ⟨y, hy⟩ : ∃ y, sibling fn new = some y := by
            unfold sibling
            rw [if_neg hodd, List.getElem?_eq_getElem (by omega)]
            exact ⟨_, rfl⟩
          cases hs with
          | nil => simp [evalLoop_nil L o n fn h0, hy]
          | cons =>
            rw [evalLoop_inner L o n h0 hodd hlast, up, aligned_inner hH hodd hold (by omega), hy]
            simp [and_assoc, eq_comm]

/-- with the levels skipped on which the old tree ends in a right child -/
lemma evalLoop_strip_iff (hH : Function.Injective2 (hashNode L)) (hold : old.length = fn + 1) (hnew : new.length = sn + 1)
    (hle : fn ≤ sn) (hro : root (hashNode L) old = some ro) (hrn : root (hashNode L) new = some rn) :
    evalLoop L (stripOnes fn fn sn).1 (stripOnes fn fn sn).2 x x hs = .ok (ro, rn) ↔
      old <+: new ∧ x :: hs = seedPath (hashNode L) false fn new := by
  induction fn using Nat.strong_induction_on generalizing sn old new with
  | _ fn ih =>
    by_cases hodd : fn % 2 = 1
    · have hup := @ih (fn / 2) (by omega) (sn / 2) (nextLevel (hashNode L) old)
        (nextLevel (hashNode L) new) (by rw [nextLevel_length]; omega)
        (by rw [nextLevel_length]; omega) (by omega) (by rw [root_nextLevel]; exact hro)
        (by rw [root_nextLevel]; exact hrn)
      have hlen : old.length = 2 * ((fn + 1) / 2) := by omega
      rw [stripOnes_odd hodd, hup, seedPath_odd _ hodd, nextLevel_prefix_iff hH hlen (by omega)]
    · have hy : new[fn]? = some new[fn] := List.getElem?_eq_getElem (by omega)
      rw [stripOnes_even hodd, evalLoop_iff hH hold hnew hle hro hrn, seedPath_even _ hodd, aligned_self hold, hy]
      simp [and_assoc, eq_comm]

end Loop

/-- **What the verifier accepts**: the old leaves are a prefix, and the proof is the one prefix proof there is -/
lemma evaluateConsistencyProof_iff (hH : Function.Injective2 (hashNode L)) (hm : 1 ≤ old.length)
    (hlt : old.length < new.length) (hro : buildTreeRoot L old = some ro) (hrn : buildTreeRoot L new = some rn) :
    evaluateConsistencyProof L old.length new.length ro hs = .ok (ro, rn) ↔
      old <+: new ∧ hs = seedPath (hashNode L) (isPowerOfTwo old.length) (old.length - 1) new := by
  rw [buildTreeRoot_eq] at hro hrn
  -- the loop after the skipped levels, whatever it starts with
  have hloop : ∀ {x : Hash} {hs : List Hash}, evalLoop L (stripOnes (old.length - 1) (old.length - 1) (new.length - 1)).1
        (stripOnes (old.length - 1) (old.length - 1) (new.length - 1)).2 x x hs = .ok (ro, rn) ↔
      old <+: new ∧ x :: hs = seedPath (hashNode L) false (old.length - 1) new := by
    intro x hs
    exact evalLoop_strip_iff hH (by omega) (by omega) (by omega) hro hrn
  unfold evaluateConsistencyProof
  rw [if_neg (by omega), if_neg (by omega)]
  by_cases hpow : isPowerOfTwo old.length = true
  · rw [hpow]
    obtain ⟨k, hk⟩ := isPowerOfTwo_iff.1 hpow
    cases hs with
    | nil =>
      simp only [reduceCtorEq, false_iff, not_and]
      rintro ⟨r, rfl⟩ he
      rw [hk] at he
      refine seedPath_pow_ne_nil _ hk ?_ true he.symm
      rintro rfl
      simp at hlt
    | cons =>
      simp only [if_true]
      rw [hloop]
      refine and_congr_right ?_
      rintro ⟨r, rfl⟩
      rw [hk, seedPath_pow _ hk hro, List.cons.injEq, and_iff_right rfl]
  · rw [Bool.not_eq_true] at hpow
    rw [hpow]
    cases hs with
    | nil =>
      simp only [reduceCtorEq, false_iff, not_and]
      rintro - he
      exact seedPath_false_ne_nil _ (by omega) he.symm
    | cons =>
      simp only [Bool.false_eq_true, if_false]
      rw [hloop]

/-- equal sizes with equal roots, or an evaluated proof: either way the old leaves are a prefix -/
lemma prefix_of_evaluated (hH : Function.Injective2 (hashNode L)) (hm : 1 ≤ old.length) (hn : old.length ≤ new.length)
    (hro : buildTreeRoot L old = some ro) (hrn : buildTreeRoot L new = some rn) (hsame : old.length = new.length → ro = rn)
    (hgrown : old.length ≠ new.length → evaluateConsistencyProof L old.length new.length ro hs = .ok (ro, rn)) :
    old <+: new := by
  by_cases hlen : old.length = new.length
  · have hroot : root (hashNode L) old = root (hashNode L) new := by
      rw [← buildTreeRoot_eq, ← buildTreeRoot_eq, hro, hrn, hsame hlen]
    rw [root_injective hH hlen hroot]
  · have hlt : old.length < new.length := lt_of_le_of_ne hn hlen
    exact ((evaluateConsistencyProof_iff hH hm hlt hro hrn).1 (hgrown hlen)).1

/-- **An accepted consistency proof is sound.** Whatever hashes it consists of: if heads of sizes `m ≤ n` over the roots of
`old` and `new` are accepted, the old log is a prefix of the new one. -/
theorem consistency_sound [DecidableEq Hash] (hH : Function.Injective2 (hashNode L)) {old new : List Hash}
    (hm : 1 ≤ old.length) (hn : old.length ≤ new.length) {oldSth newSth : SignedTreeHead Hash}
    (holdSize : oldSth.treeSize = old.length) (hnewSize : newSth.treeSize = new.length)
    (holdRoot : buildTreeRoot L old = some oldSth.rootHash) (hnewRoot : buildTreeRoot L new = some newSth.rootHash)
    {proof : ConsistencyProof Hash} {key : ByteArr 32}
    (h : verifyConsistencyProof L oldSth newSth proof key = .ok ()) : old <+: new := by
  obtain ⟨-, -, -, -, -, -, hsame, hgrown⟩ := verifyConsistencyProof_ok.1 h
  rw [holdSize, hnewSize] at hsame hgrown
  exact prefix_of_evaluated hH hm hn holdRoot hnewRoot hsame hgrown

/-- two leaves and then a third -/
theorem consistency_sound_append :
    verifyConsistencyProof Sample.logPrims (Sample.head 1 [[1], [2]]) (Sample.head 2 [[1], [2], [3]]) ⟨2, 3, [[3]]⟩ Sample.key =
      .ok () ∧ [[1], [2]] <+: [[1], [2], ([3] : Bytes)] :=
  have haccepted : verifyConsistencyProof Sample.logPrims (Sample.head 1 [[1], [2]]) (Sample.head 2 [[1], [2], [3]])
      ⟨2, 3, [[3]]⟩ Sample.key = .ok () := by decide
  ⟨haccepted, consistency_sound Sample.hashNode_injective (by decide) (by decide) rfl rfl (by decide) (by decide) haccepted⟩

/-! ## The builder -/

/-- between `2 ^ (k + 1)` and `2 ^ (k + 2)` leaves are split at `2 ^ k`, which is half of the power of two below them -/
lemma split_eq {n k : ℕ} (hlo : 2 ^ (k + 1) ≤ n) (hhi : n < 2 ^ (k + 2)) : largestPowerOfTwoLessThan n = 2 ^ k := by
  have hpos := Nat.two_pow_pos (k + 1)
  have hlog : n.log2 = k + 1 := (Nat.log2_eq_iff (by omega)).2 ⟨hlo, hhi⟩
  rw [largestPowerOfTwoLessThan, hlog]
  rfl

lemma isPowerOfTwo_two_pow (k : ℕ) : isPowerOfTwo (2 ^ k) = true := isPowerOfTwo_iff.2 ⟨k, rfl⟩

lemma not_isPowerOfTwo {m k : ℕ} (hlo : 2 ^ k < m) (hhi : m < 2 ^ (k + 1)) : isPowerOfTwo m = false := by
  rw [← Bool.not_eq_true]
  intro h
  obtain ⟨j, rfl⟩ := isPowerOfTwo_iff.1 h
  have h1 : k < j := (Nat.pow_lt_pow_iff_right (by decide)).1 hlo
  have h2 : j < k + 1 := (Nat.pow_lt_pow_iff_right (by decide)).1 hhi
  omega

section Builder

variable {l : List Hash} {fuel m k : ℕ} {known : Bool} {i : ℕ}

lemma inner_whole (hl : l ≠ []) : buildConsistencyProofInner L (fuel + 1) l l.length known =
    some (if known then [] else (root (hashNode L) l).toList) := by
  have hpos := length_pos_iff.2 hl
  obtain ⟨r, hr⟩ := root_isSome (hashNode L) hl
  simp only [buildConsistencyProofInner, buildTreeRoot_eq]
  rw [if_neg (by omega), if_pos trivial]
  cases known with
  | false => simp [hr]
  | true => simp

lemma inner_left (hsplit : largestPowerOfTwoLessThan l.length = 2 ^ k) (hm : 1 ≤ m) (hmk : m ≤ 2 ^ k)
    (hk : 2 ^ k < l.length) : buildConsistencyProofInner L (fuel + 1) l m known =
      (buildConsistencyProofInner L fuel (l.take (2 ^ k)) m known).map (· ++ (root (hashNode L) (l.drop (2 ^ k))).toList) := by
  obtain ⟨r, hr⟩ := root_isSome (hashNode L) (l := l.drop (2 ^ k)) (by simpa using hk)
  simp only [buildConsistencyProofInner, buildTreeRoot_eq, hsplit]
  rw [if_neg (by omega), if_neg (by omega), if_pos hmk, hr]
  cases buildConsistencyProofInner L fuel (l.take (2 ^ k)) m known <;> rfl

lemma inner_right (hsplit : largestPowerOfTwoLessThan l.length = 2 ^ k) (hmk : 2 ^ k < m) (hm : m < l.length) :
    buildConsistencyProofInner L (fuel + 1) l m known = (buildConsistencyProofInner L fuel (l.drop (2 ^ k)) (m - 2 ^ k) false).map
        (· ++ (root (hashNode L) (l.take (2 ^ k))).toList) := by
  have hpos := Nat.two_pow_pos k
  have hne : l.take (2 ^ k) ≠ [] := by
    rw [← length_pos_iff, length_take]
    omega
  obtain ⟨r, hr⟩ := root_isSome (hashNode L) hne
  simp only [buildConsistencyProofInner, buildTreeRoot_eq, hsplit]
  rw [if_neg (by omega), if_neg (by omega), if_neg (by omega), hr]
  cases buildConsistencyProofInner L fuel (l.drop (2 ^ k)) (m - 2 ^ k) false <;> rfl

/-- **On a full tree the split is right**: the builder's proof is the prefix proof -/
lemma inner_full (hl : l.length = 2 ^ k) (hm : 1 ≤ m) (hmk : m ≤ 2 ^ k) (hfuel : l.length ≤ fuel) :
    buildConsistencyProofInner L fuel l m known = some (seedPath (hashNode L) (known && isPowerOfTwo m) (m - 1) l) := by
  induction k generalizing l m fuel known with
  | zero =>
    obtain ⟨fuel, rfl⟩ : ∃ f, fuel = f + 1 := ⟨fuel - 1, by omega⟩
    obtain rfl : m = l.length := by omega
    have hne : l ≠ [] := length_pos_iff.1 (by omega)
    rw [inner_whole hne, hl, seedPath_full _ _ hl, isPowerOfTwo_two_pow, Bool.and_true]
  | succ k ih =>
    have hpow : 2 ^ (k + 1) = 2 ^ k + 2 ^ k := by rw [Nat.pow_succ, Nat.mul_two]
    have hpow2 : 2 ^ (k + 2) = 2 ^ (k + 1) + 2 ^ (k + 1) := by rw [Nat.pow_succ 2 (k + 1), Nat.mul_two]
    have hpos := Nat.two_pow_pos k
    obtain ⟨fuel, rfl⟩ : ∃ f, fuel = f + 1 := ⟨fuel - 1, by omega⟩
    have hsplit : largestPowerOfTwoLessThan l.length = 2 ^ k := split_eq (by omega) (by omega)
    have htake : (l.take (2 ^ k)).length = 2 ^ k := by rw [length_take]; omega
    have hdrop : (l.drop (2 ^ k)).length = 2 ^ k := by rw [length_drop]; omega
    rcases Nat.lt_or_ge m (2 ^ (k + 1)) with hlt | hge
    · rcases Nat.lt_or_ge (2 ^ k) m with hright | hleft
      · have hf : m - 1 = 2 ^ k + (m - 2 ^ k - 1) := by omega
        rw [inner_right hsplit hright (by omega), ih hdrop (by omega) (by omega) (by omega), not_isPowerOfTwo hright hlt,
          Bool.and_false, Bool.false_and, map_some, hf, seedPath_upper _ _ (by omega) (by omega) (by omega)]
      · rw [inner_left hsplit hm hleft (by omega), ih htake hm hleft (by omega), map_some,
          seedPath_lower _ _ (l := l) (k := k) (by omega) (by omega) (by omega)]
    · obtain rfl : m = l.length := by omega
      have hne : l ≠ [] := length_pos_iff.1 (by omega)
      rw [inner_whole hne, hl, seedPath_full _ _ hl, isPowerOfTwo_two_pow, Bool.and_true]

/-! On other trees the builder splits too low. Below, `l` has a full left subtree of `2 ^ i` leaves and a rest that is
not empty, and the prefix ends inside the full subtree. -/

/-- every block that the builder cuts off from the right end of the full subtree has the root of the rest -/
def BlocksAgree (L : LogPrims Hash) (i : ℕ) (l : List Hash) : Prop :=
  ∀ j < i, (l.length - 2 ^ i).log2 ≤ j →
    buildTreeRoot L ((l.drop (2 ^ i - 2 ^ (j + 1))).take (2 ^ j)) = buildTreeRoot L (l.drop (2 ^ i))

instance [DecidableEq Hash] (i : ℕ) (l : List Hash) : Decidable (BlocksAgree L i l) := by
  unfold BlocksAgree; infer_instance

lemma blocksAgree_of_le (h : i ≤ (l.length - 2 ^ i).log2) : BlocksAgree L i l := by
  intro j hj hlog
  omega

lemma blocksAgree_succ (h : (l.length - 2 ^ (i + 1)).log2 ≤ i) : BlocksAgree L (i + 1) l ↔
      buildTreeRoot L (l.take (2 ^ i)) = buildTreeRoot L (l.drop (2 ^ (i + 1))) ∧ BlocksAgree L i (l.drop (2 ^ i)) := by
  have hpow : 2 ^ (i + 1) = 2 ^ i + 2 ^ i := by rw [Nat.pow_succ, Nat.mul_two]
  have hlen : (l.drop (2 ^ i)).length - 2 ^ i = l.length - 2 ^ (i + 1) := by rw [length_drop]; omega
  -- the blocks below the largest one, seen from the middle of the full subtree
  have hdrop : ∀ j < i, 2 ^ i + (2 ^ i - 2 ^ (j + 1)) = 2 ^ (i + 1) - 2 ^ (j + 1) := by
    intro j hj
    have hle : 2 ^ (j + 1) ≤ 2 ^ i := Nat.pow_le_pow_right (by decide) hj
    rw [hpow, Nat.add_sub_assoc hle]
  constructor
  · intro hb
    refine ⟨?_, ?_⟩
    · have := hb i (Nat.lt_succ_self i) h
      rwa [Nat.sub_self, drop_zero] at this
    · intro j hj hlog
      rw [hlen] at hlog
      have := hb j (by omega) hlog
      rwa [drop_drop, drop_drop, hdrop j hj, ← hpow]
  · rintro ⟨hfirst, hrest⟩ j hj hlog
    rcases Nat.lt_succ_iff_lt_or_eq.1 hj with hlt | rfl
    · have := hrest j hlt (by rw [hlen]; exact hlog)
      rwa [drop_drop, drop_drop, hdrop j hlt, ← hpow] at this
    · rwa [Nat.sub_self, drop_zero]

lemma map_snoc_iff {α : Type} {p : Option (List α)} {a b : α} {q : List α} :
    p.map (· ++ [a]) = some (q ++ [b]) ↔ p = some q ∧ a = b := by
  cases p with
  | none => simp
  | some => simp [append_singleton_inj]

/-- **What the low split costs**: the builder finds the proof for the prefix exactly when the prefix ends in the last block
and every block cut off on the way has the root of the rest -/
lemma inner_extended_iff {x : Hash} (hlo : 2 ^ i < l.length) (hhi : l.length < 2 ^ i + 2 ^ (i + 1)) (hm : 1 ≤ m)
    (hmi : m < 2 ^ i) (hfuel : l.length ≤ fuel) :
    buildConsistencyProofInner L fuel l m known =
        some (seedPath (hashNode L) (known && isPowerOfTwo m) (m - 1) (l.take (2 ^ i)) ++ [x]) ↔
      2 ^ i - 2 ^ (l.length - 2 ^ i).log2 < m ∧ buildTreeRoot L (l.drop (2 ^ i)) = some x ∧ BlocksAgree L i l := by
  induction i generalizing l m fuel known x with
  | zero => omega
  | succ i ih =>
    have hpow : 2 ^ (i + 1) = 2 ^ i + 2 ^ i := by rw [Nat.pow_succ, Nat.mul_two]
    have hpow2 : 2 ^ (i + 2) = 2 ^ (i + 1) + 2 ^ (i + 1) := by rw [Nat.pow_succ 2 (i + 1), Nat.mul_two]
    have hpow3 : 2 ^ (i + 1 + 2) = 2 ^ (i + 2) + 2 ^ (i + 2) := by rw [Nat.pow_succ 2 (i + 2), Nat.mul_two]
    have hpos := Nat.two_pow_pos i
    obtain ⟨fuel, rfl⟩ : ∃ f, fuel = f + 1 := ⟨fuel - 1, by omega⟩
    have htake : (l.take (2 ^ (i + 1))).length = 2 ^ (i + 1) := by rw [length_take]; omega
    have hr : l.length - 2 ^ (i + 1) ≠ 0 := by omega
    obtain ⟨y, hy⟩ := root_isSome (hashNode L) (l := l.drop (2 ^ (i + 1))) (by simpa using hlo)
    rcases Nat.lt_or_ge (l.length - 2 ^ (i + 1)) (2 ^ (i + 1)) with hsmall | hlarge
    · -- the split is inside the full subtree
      have hlog : (l.length - 2 ^ (i + 1)).log2 < i + 1 := (Nat.log2_lt hr).2 hsmall
      have hlogle : 2 ^ (l.length - 2 ^ (i + 1)).log2 ≤ 2 ^ i := Nat.pow_le_pow_right (by decide) (by omega)
      have hsplit : largestPowerOfTwoLessThan l.length = 2 ^ i := split_eq (by omega) (by omega)
      have hhalf : (l.take (2 ^ i)).length = 2 ^ i := by rw [length_take]; omega
      obtain ⟨a, ha⟩ := root_isSome (hashNode L) (l := l.take (2 ^ i)) (length_pos_iff.1 (by omega))
      rcases Nat.lt_or_ge (2 ^ i) m with hright | hleft
      · -- the last hash is the left half on both sides, and the prefix goes on in the right half
        have hdropLen : (l.drop (2 ^ i)).length = l.length - 2 ^ i := length_drop
        have hrest : (l.drop (2 ^ i)).length - 2 ^ i = l.length - 2 ^ (i + 1) := by omega
        have hupper : seedPath (hashNode L) false (m - 1) (l.take (2 ^ (i + 1))) =
            seedPath (hashNode L) false (m - 2 ^ i - 1) ((l.drop (2 ^ i)).take (2 ^ i)) ++ [a] := by
          rw [show m - 1 = 2 ^ i + (m - 2 ^ i - 1) by omega,
            seedPath_upper _ _ (by omega) (by omega) (by omega), take_take, Nat.min_eq_left (by omega),
            drop_take, Nat.sub_eq_of_eq_add hpow, ha]
          rfl
        have hih := @ih (l.drop (2 ^ i)) fuel (m - 2 ^ i) false a (by omega) (by omega) (by omega) (by omega) (by omega)
        rw [Bool.false_and, hrest, drop_drop, ← hpow] at hih
        rw [inner_right hsplit hright (by omega), not_isPowerOfTwo hright hmi, Bool.and_false, hupper, ha,
          toList_some, map_snoc_iff, hih, blocksAgree_succ (by omega), buildTreeRoot_eq, buildTreeRoot_eq, hy, ha]
        constructor
        · rintro ⟨⟨h1, h2, h3⟩, rfl⟩
          exact ⟨by omega, h2, h2.symm, h3⟩
        · rintro ⟨h1, h2, h3, h4⟩
          exact ⟨⟨by omega, h3.symm, h4⟩, some.inj (h3.trans h2)⟩
      · -- the builder leaves out a hash
        obtain ⟨z, hz⟩ := root_isSome (hashNode L) (l := (l.take (2 ^ (i + 1))).drop (2 ^ i))
          (length_pos_iff.1 (by rw [length_drop]; omega))
        obtain ⟨w, hw⟩ := root_isSome (hashNode L) (l := l.drop (2 ^ i)) (length_pos_iff.1 (by rw [length_drop]; omega))
        rw [inner_left hsplit hm hleft (by omega), inner_full hhalf hm hleft (by omega),
          seedPath_lower _ _ (l := l.take (2 ^ (i + 1))) (k := i) (by omega) (by omega) (by omega), take_take,
          Nat.min_eq_left (by omega), hz, hw]
        refine iff_of_false ?_ ?_
        · intro h
          have hlen := congrArg List.length (some.inj h)
          simp at hlen
        · rintro ⟨h, -⟩
          omega
    · -- the split is at the end of the full subtree
      have hlog : (l.length - 2 ^ (i + 1)).log2 = i + 1 := (Nat.log2_eq_iff hr).2 ⟨hlarge, by omega⟩
      have hsplit : largestPowerOfTwoLessThan l.length = 2 ^ (i + 1) := split_eq (by omega) (by omega)
      have hagree : BlocksAgree L (i + 1) l := blocksAgree_of_le hlog.ge
      rw [inner_left hsplit hm hmi.le hlo, inner_full htake hm hmi.le (by omega), hlog, Nat.sub_self, buildTreeRoot_eq, hy]
      simp [hagree, Nat.lt_of_lt_of_le Nat.zero_lt_one hm]

lemma inner_false_ne_nil {p : List Hash} (h : buildConsistencyProofInner L fuel l m false = some p) : p ≠ [] := by
  cases fuel with
  | zero => exact absurd h (by simp [buildConsistencyProofInner])
  | succ =>
    simp only [buildConsistencyProofInner] at h
    split_ifs at h with h1 h2 h3 h4
    · obtain ⟨r, -, rfl⟩ := map_eq_some_iff.1 h
      simp
    · exact absurd rfl h3
    all_goals
      obtain ⟨q, -, h⟩ := bind_eq_some_iff.1 h
      obtain ⟨r, -, h⟩ := bind_eq_some_iff.1 h
      rw [← some.inj h]
      simp

end Builder

/-! ## Built proofs -/

/-- two facts about SHA-256 that hold as long as nobody finds a collision or a cycle -/
structure IdealNode (L : LogPrims Hash) : Prop where
  injective : Function.Injective2 (hashNode L)
  acyclic : ∀ x y, hashNode L x y ≠ x

/-- when the builder's low split makes no difference for the first `m` leaves -/
def SplitHarmless (L : LogPrims Hash) (leafHashes : List Hash) (m : ℕ) : Prop :=
  let n := leafHashes.length
  m = n ∨ isPowerOfTwo n ∨
    (2 ^ n.log2 - 2 ^ (n - 2 ^ n.log2).log2 < m ∧ m < 2 ^ n.log2 ∧ BlocksAgree L n.log2 leafHashes)

instance [DecidableEq Hash] (leafHashes : List Hash) (m : ℕ) : Decidable (SplitHarmless L leafHashes m) := by
  unfold SplitHarmless; infer_instance

section Built

variable {l : List Hash} {m : ℕ}

/-- a full subtree of twice the size has another root -/
lemma root_take_double {j : ℕ} {a : Hash} (ha : root (hashNode L) (l.take (2 ^ j)) = some a)
    (hl : 2 ^ (j + 1) ≤ l.length) : ∃ c, root (hashNode L) (l.take (2 ^ (j + 1))) = some (hashNode L a c) := by
  have hpow : 2 ^ (j + 1) = 2 ^ j + 2 ^ j := by rw [Nat.pow_succ, Nat.mul_two]
  have hpos := Nat.two_pow_pos j
  have hleft : (l.take (2 ^ j)).length = 2 ^ j := by rw [length_take]; omega
  have hright : ((l.drop (2 ^ j)).take (2 ^ j)).length = 2 ^ j := by rw [length_take, length_drop]; omega
  obtain ⟨c, hc⟩ := root_isSome (hashNode L) (l := (l.drop (2 ^ j)).take (2 ^ j)) (length_pos_iff.1 (by omega))
  refine ⟨c, ?_⟩
  rw [hpow, take_add, root_append _ hleft hright.le ha hc]

/-- the proof that `verify_consistency_proof` asks for is built exactly when the split is harmless -/
lemma inner_iff (hI : IdealNode L) (hm : 1 ≤ m) (hlt : m < l.length) : buildConsistencyProofInner L l.length l m true =
        some (seedPath (hashNode L) (isPowerOfTwo m) (m - 1) l) ↔ SplitHarmless L l m := by
  have hlo : 2 ^ l.length.log2 ≤ l.length := Nat.log2_self_le (by omega)
  have hhi : l.length < 2 ^ (l.length.log2 + 1) := Nat.lt_log2_self
  simp only [SplitHarmless]
  generalize l.length.log2 = k at hlo hhi ⊢
  have hpow : 2 ^ (k + 1) = 2 ^ k + 2 ^ k := by rw [Nat.pow_succ, Nat.mul_two]
  rcases Nat.eq_or_lt_of_le hlo with hfull | hrest
  · -- a full tree
    have hn : isPowerOfTwo l.length = true := isPowerOfTwo_iff.2 ⟨k, hfull.symm⟩
    rw [inner_full hfull.symm hm (by omega) le_rfl, Bool.true_and]
    simp [hn]
  · have hn : isPowerOfTwo l.length = false := not_isPowerOfTwo hrest hhi
    have hne : m ≠ l.length := by omega
    obtain ⟨y, hy⟩ := root_isSome (hashNode L) (l := l.drop (2 ^ k)) (by simpa using hrest)
    simp only [hn, hne, false_or, Bool.false_eq_true]
    rcases Nat.lt_or_ge m (2 ^ k) with hbelow | habove
    · have hext := @inner_extended_iff _ L l l.length m true k y hrest (by omega) hm hbelow le_rfl
      rw [Bool.true_and] at hext
      rw [seedPath_lower _ _ hrest (by omega) (by omega), hy, toList_some, hext, buildTreeRoot_eq, hy]
      simp [hbelow]
    · -- the first split is at half of the full subtree, the proof ends with another hash
      obtain ⟨j, rfl⟩ : ∃ j, k = j + 1 := ⟨k - 1, by
        have : k ≠ 0 := by rintro rfl; omega
        omega⟩
      have hpow' : 2 ^ (j + 1) = 2 ^ j + 2 ^ j := by rw [Nat.pow_succ, Nat.mul_two]
      have hpos := Nat.two_pow_pos j
      have hsplit : largestPowerOfTwoLessThan l.length = 2 ^ j := split_eq (by omega) hhi
      obtain ⟨fuel, hfuel⟩ : ∃ f, l.length = f + 1 := ⟨l.length - 1, by omega⟩
      obtain ⟨a, ha⟩ := root_isSome (hashNode L) (l := l.take (2 ^ j)) (length_pos_iff.1 (by rw [length_take]; omega))
      refine iff_of_false ?_ (by omega)
      nth_rewrite 1 [hfuel]
      rw [inner_right hsplit (by omega) hlt, ha, toList_some]
      rcases Nat.eq_or_lt_of_le habove with hat | hover
      · rw [← hat, isPowerOfTwo_two_pow, seedPath_lower _ _ hrest (by omega) (by omega),
          seedPath_full _ _ (by rw [length_take]; omega), hy, toList_some, map_snoc_iff]
        rintro ⟨h, -⟩
        exact inner_false_ne_nil h rfl
      · obtain ⟨c, hc⟩ := root_take_double ha hlo
        rw [not_isPowerOfTwo hover (by omega), show m - 1 = 2 ^ (j + 1) + (m - 2 ^ (j + 1) - 1) by omega,
          seedPath_upper _ _ (by omega) (by omega) (by omega), hc, toList_some, map_snoc_iff]
        rintro ⟨-, h⟩
        exact hI.acyclic a c h.symm

/-- **Built proofs are accepted only where the split is harmless.** For correctly signed heads over the first `m` leaves
and all of them: the built proof is accepted exactly when nothing was appended, the log is a full tree, or the blocks that
the low split cuts off happen to have the root of the rest. -/
theorem consistency_built_iff [DecidableEq Hash] (hI : IdealNode L) (hm : 1 ≤ m) (hmn : m ≤ l.length)
    {oldSth newSth : SignedTreeHead Hash} {key : ByteArr 32} (hold : oldSth.verify L key = .ok ())
    (hnew : newSth.verify L key = .ok ()) (holdSize : oldSth.treeSize = m) (hnewSize : newSth.treeSize = l.length)
    (holdRoot : buildTreeRoot L (l.take m) = some oldSth.rootHash) (hnewRoot : buildTreeRoot L l = some newSth.rootHash)
    (hepoch : oldSth.epoch ≤ newSth.epoch) :
    (∃ proof, buildConsistencyProof L l m = some proof ∧ verifyConsistencyProof L oldSth newSth proof key = .ok ()) ↔
      SplitHarmless L l m := by
  unfold buildConsistencyProof
  simp only
  rw [if_neg (by omega)]
  by_cases heq : m = l.length
  · subst heq
    rw [if_pos rfl]
    refine iff_of_true ⟨_, rfl, verifyConsistencyProof_ok.2 ?_⟩ (.inl rfl)
    rw [take_length, hnewRoot] at holdRoot
    refine ⟨hold, hnew, hepoch, by omega, holdSize.symm, hnewSize.symm, fun _ => (some.inj holdRoot).symm, ?_⟩
    intro h
    exact absurd (holdSize.trans hnewSize.symm) h
  · have hlt : m < l.length := by omega
    have hlen : (l.take m).length = m := by rw [length_take]; omega
    -- the verifier asks for the prefix proof of the first `m` leaves
    have hasks : ∀ hs, verifyConsistencyProof L oldSth newSth ⟨m, l.length, hs⟩ key = .ok () ↔
        hs = seedPath (hashNode L) (isPowerOfTwo m) (m - 1) l := by
      intro hs
      have heval : evaluateConsistencyProof L (l.take m).length l.length oldSth.rootHash hs = _ ↔ _ :=
        evaluateConsistencyProof_iff hI.injective (by omega) (by omega) holdRoot hnewRoot
      rw [hlen, and_iff_right (List.take_prefix m l)] at heval
      rw [verifyConsistencyProof_ok, holdSize, hnewSize, ← heval]
      simp [hold, hnew, hepoch, hmn, heq]
    rw [if_neg heq, ← inner_iff hI hm hlt]
    constructor
    · rintro ⟨proof, hbuilt, haccepted⟩
      obtain ⟨hs, hhs, rfl⟩ := map_eq_some_iff.1 hbuilt
      rw [hhs, (hasks hs).1 haccepted]
    · intro h
      rw [h]
      exact ⟨_, rfl, (hasks _).2 rfl⟩

/-- six leaves, the last two like the first two, and the proof for the first three -/
theorem consistency_built_iff_repeated :
    SplitHarmless Sample.logPrims [[1], [2], [3], [4], [1], [2]] 3 ∧
      ∃ proof, buildConsistencyProof Sample.logPrims [[1], [2], [3], [4], [1], [2]] 3 = some proof ∧
        verifyConsistencyProof Sample.logPrims (Sample.head 1 [[1], [2], [3]])
          (Sample.head 2 [[1], [2], [3], [4], [1], [2]]) proof Sample.key = .ok () := by
  have hharmless : SplitHarmless Sample.logPrims [[1], [2], [3], [4], [1], [2]] 3 := by decide
  have hideal : IdealNode Sample.logPrims := ⟨Sample.hashNode_injective, Sample.hashNode_acyclic⟩
  refine ⟨hharmless, (consistency_built_iff hideal ?_ ?_ ?_ ?_ ?_ ?_ ?_ ?_ ?_).2 hharmless⟩
  all_goals decide +kernel

/-- with three leaves the proof for the first one is rejected, although both heads are right -/
theorem consistency_built_rejected :
    (Sample.head 1 [[1]]).verify Sample.logPrims Sample.key = .ok () ∧
    (Sample.head 2 [[1], [2], [3]]).verify Sample.logPrims Sample.key = .ok () ∧
    (Sample.head 1 [[1]]).treeSize = 1 ∧ (Sample.head 2 [[1], [2], [3]]).treeSize = 3 ∧
    buildTreeRoot Sample.logPrims [[1]] = some (Sample.head 1 [[1]]).rootHash ∧
    buildTreeRoot Sample.logPrims [[1], [2], [3]] = some (Sample.head 2 [[1], [2], [3]]).rootHash ∧
    (Sample.head 1 [[1]]).epoch ≤ (Sample.head 2 [[1], [2], [3]]).epoch ∧
    ¬∃ proof, buildConsistencyProof Sample.logPrims [[1], [2], [3]] 1 = some proof ∧
      verifyConsistencyProof Sample.logPrims (Sample.head 1 [[1]]) (Sample.head 2 [[1], [2], [3]]) proof Sample.key = .ok () := by
  have hbuilt : buildConsistencyProof Sample.logPrims [[1], [2], [3]] 1 =
      some ⟨1, 3, [hashNode Sample.logPrims [2] [3]]⟩ := by decide
  have hverdict : verifyConsistencyProof Sample.logPrims (Sample.head 1 [[1]]) (Sample.head 2 [[1], [2], [3]])
      ⟨1, 3, [hashNode Sample.logPrims [2] [3]]⟩ Sample.key = .error invalidConsistencyParams := by decide
  refine ⟨by decide, by decide, rfl, rfl, by decide, by decide, by decide, ?_⟩
  rintro ⟨proof, hproof, haccepted⟩
  rw [hbuilt, some.injEq] at hproof
  rw [← hproof, hverdict] at haccepted
  exact absurd haccepted (by simp)

end Built

end PqMsg.Transparency
