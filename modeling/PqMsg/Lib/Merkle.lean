/-
Merkle trees built level by level, over arbitrary nodes and an arbitrary two-argument node function `H`.

`nextLevel` combines neighbours and promotes an odd last node; `root` climbs until one node is left.

- `root_append`: a tree whose left part has `2 ^ k` leaves and whose right part has at most as many is the two subtrees
  under one node.
- `root_injective`: with an injective `H`, trees of the same size and root have the same leaves.
- `path f l` lists what takes the node at position `f` of a level up to the root, and `seedPath` the same from the lowest
  level on which `f` is a left child, with the node there in front unless it is known: the prefix proof for the first
  `f + 1` leaves. `seedPath_left` and `seedPath_right` split it along the tree.
- `climb` folds siblings with their sides over a node. `climb_level`: with the sibling of a level it reaches the level above.
  `climb_sound`: if `H` is injective and no leaf is a node, a climb that ends in the root started at the leaf whose
  `position` its sides describe.
-/
import Mathlib.Data.Nat.Bitwise
import Mathlib.Tactic

namespace PqMsg.Lib.Merkle

open Function List Option Nat

variable {α : Type} (H : α → α → α) {l : List α} {k f : ℕ} {i : ℕ}

/-! ## Levels -/

def nextLevel : List α → List α
  | a :: b :: rest => H a b :: nextLevel rest
  | l => l

@[simp] lemma nextLevel_nil : nextLevel H [] = [] := rfl

@[simp] lemma nextLevel_single (a : α) : nextLevel H [a] = [a] := rfl

@[simp] lemma nextLevel_cons_cons (a b : α) (l : List α) : nextLevel H (a :: b :: l) = H a b :: nextLevel H l := rfl

lemma nextLevel_length (l : List α) : (nextLevel H l).length = (l.length + 1) / 2 := by
  induction l using nextLevel.induct with
  | case1 a b rest ih => simp only [nextLevel_cons_cons, length_cons, ih]; omega
  | case2 l h =>
    match l, h with
    | [], _ => simp
    | [a], _ => simp
    | a :: b :: rest, h => exact absurd rfl (h a b rest)

/-- a pair of neighbours becomes one node -/
lemma nextLevel_getElem_pair {a b : α} (ha : l[2 * i]? = some a) (hb : l[2 * i + 1]? = some b) :
    (nextLevel H l)[i]? = some (H a b) := by
  induction i generalizing l with
  | zero =>
    match l, ha, hb with
    | x :: y :: rest, ha, hb =>
      simp only [getElem?_cons_zero, mul_zero, zero_add, getElem?_cons_succ, some.injEq] at ha hb
      rw [ha, hb]; rfl
  | succ i ih =>
    match l, ha, hb with
    | x :: y :: rest, ha, hb =>
      rw [show 2 * (i + 1) = 2 * i + 1 + 1 by omega] at ha hb
      simp only [getElem?_cons_succ] at ha hb
      exact ih ha hb

/-- an odd last node is promoted -/
lemma nextLevel_getElem_last (hl : l.length = 2 * i + 1) : (nextLevel H l)[i]? = l[2 * i]? := by
  induction i generalizing l with
  | zero =>
    match l, hl with
    | [x], _ => rfl
  | succ i ih =>
    match l, hl with
    | x :: y :: rest, hl =>
      rw [show 2 * (i + 1) = 2 * i + 1 + 1 by omega]
      simp only [nextLevel_cons_cons, getElem?_cons_succ]
      exact ih (by simp only [length_cons] at hl; omega)

lemma nextLevel_append {l r : List α} (hl : l.length = 2 * i) : nextLevel H (l ++ r) = nextLevel H l ++ nextLevel H r := by
  induction i generalizing l with
  | zero => rw [length_eq_zero_iff.1 hl]; rfl
  | succ i ih =>
    match l, hl with
    | x :: y :: rest, hl =>
      simp only [cons_append, nextLevel_cons_cons]
      rw [ih (by simp only [length_cons] at hl; omega)]

variable {H} in
/-- with an injective node function, levels of one length are determined by the level above -/
lemma nextLevel_injective (hH : Function.Injective2 H) {l l' : List α} (hlen : l.length = l'.length)
    (h : nextLevel H l = nextLevel H l') : l = l' := by
  induction l using nextLevel.induct generalizing l' with
  | case1 a b rest ih =>
    match l', hlen with
    | c :: d :: rest', hlen =>
      simp only [nextLevel_cons_cons, cons.injEq] at h
      obtain ⟨rfl, rfl⟩ := hH h.1
      rw [ih (by simpa using hlen) h.2]
  | case2 l hl =>
    match l, l', hl, hlen with
    | [], [], _, _ => rfl
    | [a], [c], _, _ => exact h
    | a :: b :: rest, _, hl, _ => exact absurd rfl (hl a b rest)

lemma nextLevel_take (l : List α) (i : ℕ) : (nextLevel H l).take i = nextLevel H (l.take (2 * i)) := by
  induction i generalizing l with
  | zero => rfl
  | succ i ih =>
    rw [show 2 * (i + 1) = 2 * i + 1 + 1 by omega]
    match l with
    | [] => rfl
    | [a] => simp
    | a :: b :: rest => simp [ih]

/-! ## Prefixes -/

/-- the other child of the parent of position `f`, if there is one -/
def sibling (f : ℕ) (l : List α) : Option α := if f % 2 = 1 then l[f - 1]? else l[f + 1]?

/-- up to position `f` the levels agree, and there they have `o` and `n` -/
def Aligned (l l' : List α) (f : ℕ) (o n : α) : Prop := l.take f = l'.take f ∧ l[f]? = some o ∧ l'[f]? = some n

section Aligned

variable {H} {l l' : List α} {f : ℕ} {o n x : α}

lemma take_nextLevel_iff (hH : Function.Injective2 H) (hl : 2 * i ≤ l.length) (hl' : 2 * i ≤ l'.length) :
    (nextLevel H l).take i = (nextLevel H l').take i ↔ l.take (2 * i) = l'.take (2 * i) := by
  rw [nextLevel_take, nextLevel_take]
  constructor
  · intro h
    refine nextLevel_injective hH ?_ h
    rw [length_take, length_take]
    omega
  · intro h
    rw [h]

/-- a right child: the left siblings are the same -/
lemma aligned_odd (hH : Function.Injective2 H) (hf : f % 2 = 1) (hl : f < l.length) (hl' : f < l'.length) :
    Aligned (nextLevel H l) (nextLevel H l') (f / 2) (H x o) (H x n) ↔ Aligned l l' f o n ∧ sibling f l' = some x := by
  obtain ⟨j, rfl⟩ : ∃ j, f = 2 * j + 1 := ⟨f / 2, by omega⟩
  have hpair : ∀ {l : List α} (h : 2 * j + 1 < l.length) {y : α}, (nextLevel H l)[j]? = some (H x y) ↔
      l[2 * j]? = some x ∧ l[2 * j + 1]? = some y := by
    intro l h y
    have ha : l[2 * j]? = some l[2 * j] := getElem?_eq_getElem (by omega)
    have hb : l[2 * j + 1]? = some l[2 * j + 1] := getElem?_eq_getElem h
    rw [nextLevel_getElem_pair H ha hb, ha, hb]
    constructor
    · intro he
      obtain ⟨h1, h2⟩ := hH (some.inj he)
      rw [h1, h2]
      exact ⟨rfl, rfl⟩
    · rintro ⟨h1, h2⟩
      rw [some.inj h1, some.inj h2]
  unfold Aligned sibling
  rw [if_pos hf, show (2 * j + 1) / 2 = j by omega, Nat.add_sub_cancel, hpair hl, hpair hl',
    take_nextLevel_iff hH (by omega) (by omega), take_add_one, take_add_one]
  constructor
  · rintro ⟨h1, ⟨h2, h3⟩, h4, h5⟩
    exact ⟨⟨by rw [h1, h2, h4], h3, h5⟩, h4⟩
  · rintro ⟨⟨h1, h3, h5⟩, h4⟩
    have ha : l[2 * j]? = some l[2 * j] := getElem?_eq_getElem (by omega)
    rw [ha, h4] at h1
    obtain ⟨h6, h7⟩ := append_inj' h1 rfl
    rw [ha]
    exact ⟨h6, ⟨by simpa using h7, h3⟩, h4, h5⟩

/-- the last node of both, without a sibling -/
lemma aligned_last (hH : Function.Injective2 H) (hf : f % 2 ≠ 1) (hl : l.length = f + 1) (hl' : l'.length = f + 1) :
    Aligned (nextLevel H l) (nextLevel H l') (f / 2) o n ↔ Aligned l l' f o n := by
  obtain ⟨j, rfl⟩ : ∃ j, f = 2 * j := ⟨f / 2, by omega⟩
  unfold Aligned
  rw [show 2 * j / 2 = j by omega, take_nextLevel_iff hH (by omega) (by omega), nextLevel_getElem_last H hl,
    nextLevel_getElem_last H hl']

/-- a left child, the last node of the shorter level only -/
lemma aligned_inner (hH : Function.Injective2 H) (hf : f % 2 ≠ 1) (hl : l.length = f + 1) (hl' : f + 1 < l'.length) :
    Aligned (nextLevel H l) (nextLevel H l') (f / 2) o (H n x) ↔ Aligned l l' f o n ∧ sibling f l' = some x := by
  obtain ⟨j, rfl⟩ : ∃ j, f = 2 * j := ⟨f / 2, by omega⟩
  have ha : l'[2 * j]? = some l'[2 * j] := getElem?_eq_getElem (by omega)
  have hb : l'[2 * j + 1]? = some l'[2 * j + 1] := getElem?_eq_getElem hl'
  unfold Aligned sibling
  rw [if_neg hf, show 2 * j / 2 = j by omega, take_nextLevel_iff hH (by omega) (by omega), nextLevel_getElem_last H hl,
    nextLevel_getElem_pair H ha hb, ha, hb]
  constructor
  · rintro ⟨h1, h2, h3⟩
    obtain ⟨h4, h5⟩ := hH (some.inj h3)
    rw [h4, h5]
    exact ⟨⟨h1, h2, rfl⟩, rfl⟩
  · rintro ⟨⟨h1, h2, h3⟩, h4⟩
    rw [some.inj h3, some.inj h4]
    exact ⟨h1, h2, rfl⟩

lemma aligned_self (hl : l.length = f + 1) : Aligned l l' f x x ↔ l <+: l' ∧ l'[f]? = some x := by
  constructor
  · rintro ⟨h1, h2, h3⟩
    refine ⟨?_, h3⟩
    rw [prefix_iff_eq_take, hl]
    calc l = l.take (f + 1) := (take_of_length_le (by omega)).symm
      _ = l.take f ++ [x] := by rw [take_add_one, h2]; rfl
      _ = l'.take (f + 1) := by rw [take_add_one, h3, h1]; rfl
  · rintro ⟨h1, h2⟩
    rw [prefix_iff_eq_take, hl] at h1
    refine ⟨?_, ?_, h2⟩
    · rw [h1, take_take, min_eq_left (le_succ f)]
    · rw [h1, getElem?_take_of_lt (lt_succ_self f), h2]

/-- a level of even length is a prefix exactly when the level above it is -/
lemma nextLevel_prefix_iff (hH : Function.Injective2 H) (hl : l.length = 2 * i) (hle : l.length ≤ l'.length) :
    nextLevel H l <+: nextLevel H l' ↔ l <+: l' := by
  rw [prefix_iff_eq_take, prefix_iff_eq_take, nextLevel_take, nextLevel_length]
  constructor
  · intro h
    have h2 : 2 * ((l.length + 1) / 2) = l.length := by omega
    rw [h2] at h
    exact nextLevel_injective hH (by rw [length_take]; omega) h
  · intro h
    have h2 : 2 * ((l.length + 1) / 2) = l.length := by omega
    rw [h2, ← h]

end Aligned

/-! ## Roots -/

def root (l : List α) : Option α :=
  if 2 ≤ l.length then root (nextLevel H l) else l.head?
termination_by l.length
decreasing_by rw [nextLevel_length]; omega

lemma root_step (h : 2 ≤ l.length) : root H l = root H (nextLevel H l) := by
  rw [root, if_pos h]

@[simp] lemma root_nil : root H ([] : List α) = none := by rw [root]; rfl

@[simp] lemma root_single (a : α) : root H [a] = some a := by rw [root]; rfl

/-- climbing a level keeps the root -/
@[simp] lemma root_nextLevel (l : List α) : root H (nextLevel H l) = root H l := by
  match l with
  | [] => rfl
  | [a] => rfl
  | a :: b :: rest => rw [root_step H (l := a :: b :: rest) (by simp)]

lemma root_isSome (h : l ≠ []) : ∃ r, root H l = some r := by
  induction hn : l.length using Nat.strong_induction_on generalizing l with
  | _ n ih =>
    match l, h with
    | [a], _ => exact ⟨a, root_single H a⟩
    | a :: b :: rest, _ =>
      rw [root_step H (by simp)]
      refine ih _ ?_ (by simp) rfl
      rw [nextLevel_length, ← hn]
      simp only [length_cons]
      omega

variable {H} in
/-- **Roots bind leaves**: an injective node function makes the root of a list of given length injective -/
lemma root_injective (hH : Function.Injective2 H) {l l' : List α} (hlen : l.length = l'.length)
    (h : root H l = root H l') : l = l' := by
  induction hn : l.length using Nat.strong_induction_on generalizing l l' with
  | _ n ih =>
    match l, l', hlen with
    | [], [], _ => rfl
    | [a], [c], _ =>
      simp only [root_single, some.injEq] at h
      rw [h]
    | a :: b :: rest, c :: d :: rest', hlen =>
      rw [root_step H (by simp), root_step H (l := c :: d :: rest') (by simp)] at h
      have hlen' : (nextLevel H (a :: b :: rest)).length = (nextLevel H (c :: d :: rest')).length := by
        rw [nextLevel_length, nextLevel_length, hlen]
      refine nextLevel_injective hH hlen (ih _ ?_ hlen' h rfl)
      rw [nextLevel_length, ← hn]
      simp only [length_cons]
      omega

/-- **A full left subtree and a right part** that is not larger are the two children of the root -/
lemma root_append {l r : List α} {k : ℕ} {x y : α} (hl : l.length = 2 ^ k) (hr : r.length ≤ 2 ^ k)
    (hx : root H l = some x) (hy : root H r = some y) : root H (l ++ r) = some (H x y) := by
  induction k generalizing l r with
  | zero =>
    match l, r, hl, hr with
    | [a], [b], _, _ =>
      simp only [root_single, some.injEq] at hx hy
      subst hx hy
      rw [singleton_append, root_step H (by simp)]
      simp
    | [a], [], _, _ => simp at hy
  | succ k ih =>
    have hlev : (nextLevel H l).length = 2 ^ k := by rw [nextLevel_length]; omega
    have hrev : (nextLevel H r).length ≤ 2 ^ k := by rw [nextLevel_length]; omega
    have hstep : 2 ≤ (l ++ r).length := by
      have := Nat.one_le_two_pow (n := k)
      rw [length_append]; omega
    rw [root_step H hstep, nextLevel_append H (i := 2 ^ k) (by omega)]
    exact ih hlev hrev (by rw [root_nextLevel]; exact hx) (by rw [root_nextLevel]; exact hy)

/-! ## Paths -/

/-- the siblings on the way from position `f` of a level to the root -/
def path (f : ℕ) (l : List α) : List α :=
  if 2 ≤ l.length then (sibling f l).toList ++ path (f / 2) (nextLevel H l) else []
termination_by l.length
decreasing_by rw [nextLevel_length]; omega

lemma path_single (f : ℕ) (a : α) : path H f [a] = [] := by rw [path]; rfl

lemma path_step {f : ℕ} (h : f < l.length) : path H f l = (sibling f l).toList ++ path H (f / 2) (nextLevel H l) := by
  by_cases h2 : 2 ≤ l.length
  · rw [path, if_pos h2]
  · match l, h with
    | [a], h =>
      obtain rfl : f = 0 := by simpa using h
      rw [nextLevel_single, path_single]
      rfl
    | a :: b :: rest, _ => exact absurd (by simp) h2

lemma sibling_left {f k : ℕ} (r : List α) (hl : l.length = 2 * k) (hf : f < 2 * k) : sibling f (l ++ r) = sibling f l := by
  unfold sibling
  split_ifs with h
  · rw [getElem?_append_left (by omega)]
  · rw [getElem?_append_left (by omega)]

lemma sibling_right {f k : ℕ} (r : List α) (hl : l.length = 2 * k) : sibling (2 * k + f) (l ++ r) = sibling f r := by
  unfold sibling
  rw [mul_add_mod]
  split_ifs with h
  · rw [getElem?_append_right (by omega), hl, show 2 * k + f - 1 - 2 * k = f - 1 by omega]
  · rw [getElem?_append_right (by omega), hl, show 2 * k + f + 1 - 2 * k = f + 1 by omega]

/-- from a position in the left subtree, the right one comes last -/
lemma path_left {l r : List α} (hl : l.length = 2 ^ k) (hr : r.length ≤ 2 ^ k) (hr0 : r ≠ []) (hf : f < 2 ^ k) :
    path H f (l ++ r) = path H f l ++ (root H r).toList := by
  induction k generalizing l r f with
  | zero =>
    match l, r, hl, hr with
    | [a], [b], _, _ =>
      obtain rfl : f = 0 := by simpa using hf
      rw [singleton_append, path_step H (by simp), nextLevel_cons_cons, nextLevel_nil, path_single, path_single, root_single]
      rfl
    | [a], [], _, _ => exact absurd rfl hr0
  | succ k ih =>
    have hpos := Nat.one_le_two_pow (n := k)
    rw [Nat.pow_succ'] at hl hr hf
    have hn : nextLevel H r ≠ [] := by
      rw [← length_pos_iff, nextLevel_length]
      have := length_pos_iff.2 hr0
      omega
    rw [path_step H (by rw [length_append]; omega), path_step H (l := l) (by omega), nextLevel_append H hl,
      sibling_left r hl hf, ih (by rw [nextLevel_length]; omega) (by rw [nextLevel_length]; omega) hn (by omega),
      root_nextLevel, append_assoc]

/-- from a position in the right subtree, the left one comes last -/
lemma path_right {l r : List α} (hl : l.length = 2 ^ k) (hr : r.length ≤ 2 ^ k) (hf : f < r.length) :
    path H (2 ^ k + f) (l ++ r) = path H f r ++ (root H l).toList := by
  induction k generalizing l r f with
  | zero =>
    match l, r, hl, hr with
    | [a], [b], _, _ =>
      obtain rfl : f = 0 := by simpa using hf
      rw [singleton_append, path_step H (by simp), nextLevel_cons_cons, nextLevel_nil, path_single, path_single, root_single]
      rfl
    | [a], [], _, _ => simp at hf
  | succ k ih =>
    rw [Nat.pow_succ'] at hl hr ⊢
    rw [path_step H (by rw [length_append]; omega), path_step H (l := r) hf, nextLevel_append H hl,
      sibling_right r hl, show (2 * 2 ^ k + f) / 2 = 2 ^ k + f / 2 by omega,
      ih (by rw [nextLevel_length]; omega) (by rw [nextLevel_length]; omega) (by rw [nextLevel_length]; omega),
      root_nextLevel, append_assoc]

/-! ## Prefix proofs -/

/-- the path from the first level on which `f` is even, with the node there in front unless it is known -/
def seedPath (known : Bool) (f : ℕ) (l : List α) : List α :=
  if f % 2 = 1 then seedPath known (f / 2) (nextLevel H l)
  else (if known then [] else l[f]?.toList) ++ path H f l
termination_by f
decreasing_by omega

lemma seedPath_odd {known : Bool} {f : ℕ} (h : f % 2 = 1) :
    seedPath H known f l = seedPath H known (f / 2) (nextLevel H l) := by
  rw [seedPath, if_pos h]

lemma seedPath_even {known : Bool} {f : ℕ} (h : f % 2 ≠ 1) :
    seedPath H known f l = (if known then [] else l[f]?.toList) ++ path H f l := by
  rw [seedPath, if_neg h]

variable (known : Bool)

lemma seedPath_left {l r : List α} (hl : l.length = 2 ^ k) (hr : r.length ≤ 2 ^ k) (hr0 : r ≠ []) (hf : f < 2 ^ k) :
    seedPath H known f (l ++ r) = seedPath H known f l ++ (root H r).toList := by
  induction k generalizing l r f with
  | zero =>
    have h0 : f % 2 ≠ 1 := by omega
    rw [seedPath_even H h0, seedPath_even H h0, path_left H hl hr hr0 hf, getElem?_append_left (by omega), append_assoc]
  | succ k ih =>
    by_cases h : f % 2 = 1
    · rw [Nat.pow_succ'] at hl hr hf
      have hn : nextLevel H r ≠ [] := by
        rw [← length_pos_iff, nextLevel_length]
        have := length_pos_iff.2 hr0
        omega
      rw [seedPath_odd H h, seedPath_odd H h, nextLevel_append H hl,
        ih (by rw [nextLevel_length]; omega) (by rw [nextLevel_length]; omega) hn (by omega), root_nextLevel]
    · rw [seedPath_even H h, seedPath_even H h, path_left H hl hr hr0 hf, getElem?_append_left (by omega), append_assoc]

lemma seedPath_right {l r : List α} (hl : l.length = 2 ^ k) (hr : r.length ≤ 2 ^ k) (hf : f < r.length)
    (hf2 : f + 1 < 2 ^ k) : seedPath H known (2 ^ k + f) (l ++ r) = seedPath H known f r ++ (root H l).toList := by
  induction k generalizing l r f with
  | zero => omega
  | succ k ih =>
    have hpow : 2 ^ (k + 1) = 2 * 2 ^ k := Nat.pow_succ'
    have hmod : (2 ^ (k + 1) + f) % 2 = f % 2 := by rw [hpow, Nat.mul_add_mod]
    by_cases h : f % 2 = 1
    · rw [seedPath_odd H (hmod.trans h), seedPath_odd H h, nextLevel_append H (hl.trans hpow),
        show (2 ^ (k + 1) + f) / 2 = 2 ^ k + f / 2 by omega,
        ih (by rw [nextLevel_length]; omega) (by rw [nextLevel_length]; omega) (by rw [nextLevel_length]; omega)
          (by omega), root_nextLevel]
    · rw [seedPath_even H (hmod ▸ h), seedPath_even H h, path_right H hl hr hf,
        getElem?_append_right (by omega), hl, Nat.add_sub_cancel_left, append_assoc]

/-- a prefix within the left subtree of `l` -/
lemma seedPath_lower (hk : 2 ^ k < l.length) (hl : l.length ≤ 2 ^ k + 2 ^ k) (hf : f < 2 ^ k) :
    seedPath H known f l = seedPath H known f (l.take (2 ^ k)) ++ (root H (l.drop (2 ^ k))).toList := by
  have htake : (l.take (2 ^ k)).length = 2 ^ k := by rw [length_take]; omega
  have hdrop : (l.drop (2 ^ k)).length = l.length - 2 ^ k := length_drop
  have h := seedPath_left H (r := l.drop (2 ^ k)) known htake (by omega) (length_pos_iff.1 (by omega)) hf
  rwa [take_append_drop] at h

/-- a prefix that goes over the left subtree of `l` -/
lemma seedPath_upper (hf : 2 ^ k + f < l.length) (hl : l.length ≤ 2 ^ k + 2 ^ k) (hf2 : f + 1 < 2 ^ k) :
    seedPath H known (2 ^ k + f) l = seedPath H known f (l.drop (2 ^ k)) ++ (root H (l.take (2 ^ k))).toList := by
  have htake : (l.take (2 ^ k)).length = 2 ^ k := by rw [length_take]; omega
  have hdrop : (l.drop (2 ^ k)).length = l.length - 2 ^ k := length_drop
  have h := seedPath_right H (r := l.drop (2 ^ k)) (f := f) known htake (by omega) (by omega) hf2
  rwa [take_append_drop] at h

/-- all leaves of a full tree: only the root, unless it is known -/
lemma seedPath_full {k : ℕ} (hl : l.length = 2 ^ k) :
    seedPath H known (2 ^ k - 1) l = if known then [] else (root H l).toList := by
  induction k generalizing l with
  | zero =>
    match l, hl with
    | [a], _ =>
      rw [seedPath_even H (by decide), path_single, root_single, append_nil]
      rfl
  | succ k ih =>
    have hpos := Nat.one_le_two_pow (n := k)
    have hpow : 2 ^ (k + 1) = 2 * 2 ^ k := Nat.pow_succ'
    rw [seedPath_odd H (by omega), show (2 ^ (k + 1) - 1) / 2 = 2 ^ k - 1 by omega,
      ih (by rw [nextLevel_length]; omega), root_nextLevel]

/-- the node in front is the root of the first `2 ^ k` leaves -/
lemma seedPath_pow {l r : List α} {k : ℕ} {x : α} (hl : l.length = 2 ^ k) (hx : root H l = some x) :
    seedPath H false (2 ^ k - 1) (l ++ r) = x :: seedPath H true (2 ^ k - 1) (l ++ r) := by
  induction k generalizing l r with
  | zero =>
    match l, hl with
    | [a], _ =>
      rw [root_single] at hx
      rw [seedPath_even H (by decide), seedPath_even H (by decide), ← some.inj hx]
      rfl
  | succ k ih =>
    have hpos := Nat.one_le_two_pow (n := k)
    have hpow : 2 ^ (k + 1) = 2 * 2 ^ k := Nat.pow_succ'
    have hodd : (2 ^ (k + 1) - 1) % 2 = 1 := by omega
    have hhalf : (2 ^ (k + 1) - 1) / 2 = 2 ^ k - 1 := by omega
    have hnext : (nextLevel H l).length = 2 ^ k := by rw [nextLevel_length]; omega
    rw [seedPath_odd H hodd, seedPath_odd H hodd, nextLevel_append H (hl.trans hpow), hhalf]
    exact ih hnext (by rw [root_nextLevel]; exact hx)

lemma seedPath_false_ne_nil {f : ℕ} (hf : f < l.length) : seedPath H false f l ≠ [] := by
  induction f using Nat.strong_induction_on generalizing l with
  | _ f ih =>
    by_cases h : f % 2 = 1
    · rw [seedPath_odd H h]
      exact ih _ (by omega) (by rw [nextLevel_length]; omega)
    · rw [seedPath_even H h, getElem?_eq_getElem hf]
      simp

/-- a proper prefix needs at least one hash -/
lemma seedPath_pow_ne_nil {l r : List α} {k : ℕ} (hl : l.length = 2 ^ k) (hr : r ≠ []) (known : Bool) :
    seedPath H known (2 ^ k - 1) (l ++ r) ≠ [] := by
  induction k generalizing l r with
  | zero =>
    match l, r, hl, hr with
    | [a], b :: r, _, _ =>
      rw [seedPath_even H (by decide), path_step H (by simp)]
      simp [sibling]
  | succ k ih =>
    have hpos := Nat.one_le_two_pow (n := k)
    have hpow : 2 ^ (k + 1) = 2 * 2 ^ k := Nat.pow_succ'
    have hn : nextLevel H r ≠ [] := by
      rw [← length_pos_iff, nextLevel_length]
      have := length_pos_iff.2 hr
      omega
    rw [seedPath_odd H (by omega), nextLevel_append H (hl.trans hpow), show (2 ^ (k + 1) - 1) / 2 = 2 ^ k - 1 by omega]
    exact ih (by rw [nextLevel_length]; omega) hn

/-! ## Climbing with siblings -/

/-- a node under its siblings, from the lowest to the highest; `true` marks a sibling on the left -/
def climb (siblings : List (α × Bool)) (a : α) : α :=
  siblings.foldl (fun current step => if step.2 then H step.1 current else H current step.1) a

@[simp] lemma climb_nil (a : α) : climb H [] a = a := rfl

lemma climb_append (s t : List (α × Bool)) (a : α) : climb H (s ++ t) a = climb H t (climb H s a) :=
  foldl_append

lemma climb_single (x a : α) (isLeft : Bool) : climb H [(x, isLeft)] a = if isLeft then H x a else H a x := rfl

/-- the sibling of position `i`, if there is one, with its side -/
def sidedSibling (i : ℕ) (l : List α) : List (α × Bool) := (l[i ^^^ 1]?).toList.map fun x => (x, decide (i ^^^ 1 < i))

/-- with its sibling a node becomes its parent; a node without a sibling is promoted -/
lemma climb_level {a : α} (ha : l[i]? = some a) : (nextLevel H l)[i / 2]? = some (climb H (sidedSibling i l) a) := by
  have hi : i < l.length := (List.getElem?_eq_some_iff.1 ha).1
  unfold sidedSibling
  rcases Nat.even_or_odd i with heven | hodd
  · obtain ⟨j, rfl⟩ : ∃ j, i = 2 * j := heven.exists_two_nsmul _
    rw [Nat.xor_one_of_even heven, show 2 * j / 2 = j by omega]
    by_cases hlast : 2 * j + 1 < l.length
    · have hx : l[2 * j + 1]? = some l[2 * j + 1] := List.getElem?_eq_getElem hlast
      rw [hx, nextLevel_getElem_pair H ha hx]
      simp [climb]
    · rw [nextLevel_getElem_last H (by omega), ha, List.getElem?_eq_none (by omega)]
      rfl
  · obtain ⟨j, rfl⟩ := hodd
    have hx : l[2 * j]? = some l[2 * j] := List.getElem?_eq_getElem (by omega)
    rw [Nat.xor_one_of_odd ⟨j, rfl⟩, Nat.add_sub_cancel, show (2 * j + 1) / 2 = j by omega, hx, nextLevel_getElem_pair H hx ha]
    simp [climb]

/-- the number of leaves under the left child of the root: the largest power of two below `n` -/
def leftSize (n : ℕ) : ℕ := 2 ^ (n - 1).log2

lemma leftSize_lt {n : ℕ} (h : 2 ≤ n) : leftSize n < n := by
  have := log2_self_le (n := n - 1) (by omega)
  unfold leftSize
  omega

lemma le_two_mul_leftSize (n : ℕ) : n ≤ 2 * leftSize n := by
  have := lt_log2_self (n := n - 1)
  rw [pow_succ] at this
  unfold leftSize
  omega

/-- the root of two or more leaves has two children -/
lemma root_split (h : 2 ≤ l.length) : ∃ x y, root H (l.take (leftSize l.length)) = some x ∧
    root H (l.drop (leftSize l.length)) = some y ∧ root H l = some (H x y) := by
  have hlt := leftSize_lt h
  have hle := le_two_mul_leftSize l.length
  have htake : (l.take (leftSize l.length)).length = leftSize l.length := by rw [length_take]; omega
  have hdrop : (l.drop (leftSize l.length)).length = l.length - leftSize l.length := length_drop
  obtain ⟨x, hx⟩ := root_isSome H (l := l.take (leftSize l.length)) (length_pos_iff.1 (by
    rw [htake]; exact Nat.two_pow_pos _))
  obtain ⟨y, hy⟩ := root_isSome H (l := l.drop (leftSize l.length)) (length_pos_iff.1 (by omega))
  refine ⟨x, y, hx, hy, ?_⟩
  have hroot := root_append H htake (by rw [hdrop]; unfold leftSize at hle ⊢; omega) hx hy
  rwa [take_append_drop] at hroot

/-- the leaf of a tree with `n` leaves that is reached from the root by sides, `true` for the right child -/
def position : List Bool → ℕ → Option ℕ
  | [], n => if n = 1 then some 0 else none
  | isLeft :: sides, n =>
    if n ≤ 1 then none
    else if isLeft then (position sides (n - leftSize n)).map (leftSize n + ·) else position sides (leftSize n)

variable {H} in
/-- **Only leaves climb to the root.** Whatever the siblings are: if the climb from a node that is not a parent ends in the
root, the node is the leaf at the position that the sides describe -/
lemma climb_sound (hH : Function.Injective2 H) {siblings : List (α × Bool)} {a : α} (hl : ∀ b ∈ l, ∀ x y, b ≠ H x y)
    (ha : ∀ x y, a ≠ H x y) (h : root H l = some (climb H siblings a)) :
    ∃ i, position (siblings.map Prod.snd).reverse l.length = some i ∧ l[i]? = some a := by
  -- from the root down: the last sibling is a child of the root
  induction siblings using List.reverseRecOn generalizing l with
  | nil =>
    match l, hl, h with
    | [], _, h => simp at h
    | [b], _, h =>
      rw [root_single, climb_nil] at h
      exact ⟨0, rfl, h⟩
    | b :: c :: rest, _, h =>
      obtain ⟨x, y, -, -, hroot⟩ := root_split H (l := b :: c :: rest) (by simp)
      rw [hroot, climb_nil] at h
      exact absurd (some.inj h).symm (ha x y)
  | append_singleton siblings last ih =>
    obtain ⟨s, isLeft⟩ := last
    rw [climb_append, climb_single] at h
    rw [map_append, reverse_append]
    match l, hl, h with
    | [], _, h => simp at h
    | [b], hl, h =>
      rw [root_single] at h
      have hb := some.inj h
      cases isLeft with
      | false | true => exact absurd hb (hl b (by simp) _ _)
    | b :: c :: rest, hl, h =>
      obtain ⟨x, y, hx, hy, hroot⟩ := root_split H (l := b :: c :: rest) (by simp)
      have hsize : ¬(b :: c :: rest).length ≤ 1 := by simp
      have hlt := leftSize_lt (n := (b :: c :: rest).length) (by simp)
      rw [hroot] at h
      have hnode := some.inj h
      cases isLeft with
      | false =>
        obtain ⟨hxa, -⟩ := hH hnode
        obtain ⟨i, hi, hget⟩ := ih (fun d hd => hl d (mem_of_mem_take hd)) (hx.trans (congrArg some hxa))
        rw [length_take, min_eq_left hlt.le] at hi
        have hilt : i < leftSize (b :: c :: rest).length := by
          have := (List.getElem?_eq_some_iff.1 hget).1
          rw [length_take] at this
          omega
        refine ⟨i, ?_, ?_⟩
        · simp only [map_cons, map_nil, reverse_cons, reverse_nil, nil_append, cons_append,
            position, if_neg hsize, Bool.false_eq_true, if_false, hi]
        · rwa [List.getElem?_take_of_lt hilt] at hget
      | true =>
        obtain ⟨-, hya⟩ := hH hnode
        obtain ⟨i, hi, hget⟩ := ih (fun d hd => hl d (mem_of_mem_drop hd)) (hy.trans (congrArg some hya))
        rw [length_drop] at hi
        refine ⟨leftSize (b :: c :: rest).length + i, ?_, ?_⟩
        · simp only [map_cons, map_nil, reverse_cons, reverse_nil, nil_append, cons_append,
            position, if_neg hsize, if_true, hi, map_some]
        · rwa [List.getElem?_drop] at hget

end PqMsg.Lib.Merkle
