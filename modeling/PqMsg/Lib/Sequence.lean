/-
Rows that are stored under the numbers of a sequence, read in the order of their numbers.

`inOrder n f` lists the rows of `f` below `n`. What is inserted above all rows comes last (`inOrder_insert`); rows that are
kept while others come in above them only are a first part of the list (`inOrder_extends`).
-/
import Mathlib.Tactic

namespace PqMsg.Lib

open List Option

variable {α : Type} {n : ℕ} {f f' : ℕ → Option α}

def inOrder (n : ℕ) (f : ℕ → Option α) : List (ℕ × α) := (List.range n).filterMap fun id => (f id).map fun a => (id, a)

lemma mem_inOrder {e : ℕ × α} : e ∈ inOrder n f ↔ e.1 < n ∧ f e.1 = some e.2 := by
  obtain ⟨id, a⟩ := e
  simp only [inOrder, mem_filterMap, mem_range, map_eq_some_iff, Prod.mk.injEq]
  constructor
  · intro h
    obtain ⟨id', hlt, a', hf, rfl, rfl⟩ := h
    exact ⟨hlt, hf⟩
  · intro h
    exact ⟨id, h.1, a, h.2, rfl, rfl⟩

lemma inOrder_succ : inOrder (n + 1) f = inOrder n f ++ ((f n).map fun a => (n, a)).toList := by
  simp only [inOrder, range_succ, filterMap_append, filterMap_cons, filterMap_nil]
  cases f n <;> rfl

lemma inOrder_pairwise (n : ℕ) (f : ℕ → Option α) : (inOrder n f).Pairwise fun a b => a.1 < b.1 := by
  induction n with
  | zero => exact List.Pairwise.nil
  | succ n ih =>
    rw [inOrder_succ, pairwise_append]
    refine ⟨ih, by cases f n <;> simp, ?_⟩
    intro a ha b hb
    obtain ⟨c, -, rfl⟩ := map_eq_some_iff.1 (mem_toList.1 hb)
    exact (mem_inOrder.1 ha).1

lemma inOrder_congr (h : ∀ id < n, f id = f' id) : inOrder n f = inOrder n f' := by
  apply filterMap_congr
  intro id hid
  rw [h id (mem_range.1 hid)]

lemma inOrder_filter (p : α → Bool) : (inOrder n fun id => (f id).filter p) = (inOrder n f).filter fun e => p e.2 := by
  rw [inOrder, inOrder, filter_filterMap]
  apply filterMap_congr
  intro id _
  cases f id with
  | none => rfl
  | some a => by_cases ha : p a <;> simp [Option.filter, ha]

/-- a sequence that only goes on adds no rows -/
lemma inOrder_of_le {m : ℕ} (hbelow : ∀ id, f id ≠ none → id < n) (h : n ≤ m) : inOrder m f = inOrder n f := by
  induction m, h using Nat.le_induction with
  | base => rfl
  | succ m hm ih =>
    have hnone : f m = none := by
      by_contra hne
      exact absurd (hbelow m hne) (by omega)
    rw [inOrder_succ, hnone, ih]
    exact append_nil _

/-- a change to one row changes the number of rows by at most one -/
lemma inOrder_length_update {id : ℕ} (h : ∀ id' ≠ id, f id' = f' id') : (inOrder n f).length ≤ (inOrder n f').length + 1 := by
  induction n with
  | zero => exact Nat.zero_le _
  | succ n =>
    rw [inOrder_succ, inOrder_succ, length_append, length_append]
    by_cases hn : n = id
    · have heq : inOrder n f = inOrder n f' := inOrder_congr fun id' hlt => h id' (by omega)
      have hone : ((f n).map fun a => (n, a)).toList.length ≤ 1 := by cases f n <;> simp
      rw [heq]
      omega
    · rw [h n hn]
      omega

/-- if no later element passes a test that an earlier one fails, those that pass come first -/
lemma filter_first {p : α → Bool} {l : List α} (h : l.Pairwise fun a b => p b → p a) : l.filter p <+: l := by
  induction l with
  | nil => exact nil_prefix
  | cons a l ih =>
    rw [pairwise_cons] at h
    by_cases ha : p a
    · rw [filter_cons_of_pos ha]
      exact prefix_cons_inj a |>.2 (ih h.2)
    · have hnil : l.filter p = [] := by
        rw [filter_eq_nil_iff]
        exact fun b hb hpb => ha (h.1 b hb hpb)
      rw [filter_cons_of_neg ha, hnil]
      exact nil_prefix

/-- **Rows that stay come first**, if new rows are above all of them -/
lemma inOrder_extends {m : ℕ} (hbelow : ∀ id, f id ≠ none → id < n) (hle : n ≤ m)
    (hkeep : ∀ id a, f id = some a → f' id = some a)
    (habove : ∀ id, f id = none → f' id ≠ none → ∀ id', f id' ≠ none → id' < id) : inOrder n f <+: inOrder m f' := by
  have hfilter : inOrder m f = (inOrder m f').filter fun e => (f e.1).isSome := by
    rw [inOrder, inOrder, filter_filterMap]
    apply filterMap_congr
    intro id _
    cases hf : f id with
    | none => cases f' id <;> simp [Option.filter, hf]
    | some a => simp [hkeep id a hf, Option.filter, hf]
  rw [← inOrder_of_le hbelow hle, hfilter]
  apply filter_first
  refine (inOrder_pairwise m f').imp_of_mem ?_
  intro a b ha _ hlt hb
  by_contra hnone
  have hb' : f b.1 ≠ none := fun h => by simp [h] at hb
  have := habove a.1 (by simpa using hnone) (by rw [(mem_inOrder.1 ha).2]; simp) b.1 hb'
  omega

/-- the number of the last row, 0 if there is none -/
def lastId (rows : List (ℕ × α)) : ℕ := (rows.getLast?.map Prod.fst).getD 0

lemma lastId_mono {rows rows' : List (ℕ × α)} (h : rows <+: rows') (hsorted : rows'.Pairwise fun a b => a.1 < b.1) :
    lastId rows ≤ lastId rows' := by
  obtain ⟨rest, rfl⟩ := h
  cases hlast : rows.getLast? with
  | none => simp [lastId, hlast]
  | some e =>
    cases hrest : rest.getLast? with
    | none =>
      rw [List.getLast?_eq_none_iff] at hrest
      rw [hrest, append_nil]
    | some e' =>
      have hlt : e.1 < e'.1 :=
        (pairwise_append.1 hsorted).2.2 e (mem_of_getLast? hlast) e' (mem_of_getLast? hrest)
      simp only [lastId, List.getLast?_append, hlast, hrest, some_or, map_some, getD_some]
      exact hlt.le

/-- **A row inserted above all others is the last one** -/
lemma inOrder_insert {id : ℕ} {a : α} (hlt : id < n) (habove : ∀ id', f id' ≠ none → id' < id) (hf' : f' id = some a)
    (hrest : ∀ id' ≠ id, f' id' = f id') : inOrder n f' = inOrder n f ++ [(id, a)] := by
  have hbelow' : ∀ id', f' id' ≠ none → id' < id + 1 := by
    intro id' hne
    by_cases hid : id' = id
    · omega
    · rw [hrest id' hid] at hne
      exact (habove id' hne).trans (Nat.lt_succ_self id)
  calc inOrder n f' = inOrder (id + 1) f' := inOrder_of_le hbelow' hlt
    _ = inOrder id f' ++ [(id, a)] := by rw [inOrder_succ, hf']; rfl
    _ = inOrder id f ++ [(id, a)] := by rw [inOrder_congr fun id' h => hrest id' (Nat.ne_of_lt h)]
    _ = inOrder n f ++ [(id, a)] := by rw [inOrder_of_le habove hlt.le]

end PqMsg.Lib
