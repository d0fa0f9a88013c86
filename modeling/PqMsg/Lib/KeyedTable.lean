/-
Tables with a primary key that the client chooses.

A table is a list of rows with pairwise different keys. Every operation is one statement: it sees all rows that are there, and
is done at once.
-/
import Mathlib.Tactic

namespace PqMsg.Lib

open List

structure KeyedTable (K α : Type) where
  rows : List (K × α)
  keys_nodup : (rows.map Prod.fst).Nodup

namespace KeyedTable

variable {K α : Type}

def empty : KeyedTable K α := ⟨[], nodup_nil⟩

/-- `DELETE … WHERE` -/
def delete (t : KeyedTable K α) (cond : K → α → Bool) : KeyedTable K α where
  rows := t.rows.filter fun r => !cond r.1 r.2
  keys_nodup := t.keys_nodup.sublist (filter_sublist.map _)

variable [DecidableEq K]

/-- the row with a key -/
def get (t : KeyedTable K α) (k : K) : Option α := (t.rows.find? fun r => r.1 = k).map Prod.snd

/-- `INSERT`, unless the key is taken -/
def insert (t : KeyedTable K α) (k : K) (a : α) : Option (KeyedTable K α) :=
  if h : k ∈ t.rows.map Prod.fst then none
  else some ⟨t.rows ++ [(k, a)], by
    rw [map_append, nodup_append]
    refine ⟨t.keys_nodup, by simp, ?_⟩
    rintro x hx y hy rfl
    have hkey : x = k := by simpa using hy
    exact h (hkey ▸ hx)⟩

/-- `INSERT OR REPLACE` -/
def set (t : KeyedTable K α) (k : K) (a : α) : KeyedTable K α where
  rows := (k, a) :: t.rows.filter fun r => r.1 ≠ k
  keys_nodup := nodup_cons.2 ⟨by simp, t.keys_nodup.sublist (filter_sublist.map _)⟩

variable {t t' : KeyedTable K α} {k k' : K} {a b : α} {cond : K → α → Bool}

omit [DecidableEq K] in
lemma mem_delete : (k, a) ∈ (t.delete cond).rows ↔ (k, a) ∈ t.rows ∧ cond k a = false := by
  simp [delete, mem_filter]

lemma mem_insert (h : t.insert k a = some t') : (k', b) ∈ t'.rows ↔ (k', b) ∈ t.rows ∨ k' = k ∧ b = a := by
  unfold insert at h
  split_ifs at h
  cases h
  simp

/-- one row for a key -/
lemma get_eq_some : t.get k = some a ↔ (k, a) ∈ t.rows := by
  constructor
  · intro h
    obtain ⟨⟨k', a'⟩, hfound, rfl⟩ := Option.map_eq_some_iff.1 h
    obtain rfl : k' = k := by simpa using List.find?_some hfound
    exact mem_of_find?_eq_some hfound
  · intro h
    cases hfound : t.rows.find? fun r => r.1 = k with
    | none =>
      have hnot := List.find?_eq_none.1 hfound (k, a) h
      simp at hnot
    | some r =>
      have hkey : r.1 = k := by simpa using List.find?_some hfound
      have hrow : r = (k, a) := inj_on_of_nodup_map t.keys_nodup (mem_of_find?_eq_some hfound) h hkey
      rw [get, hfound, hrow]
      rfl

lemma get_delete : (t.delete cond).get k = (t.get k).filter fun a => !cond k a := by
  ext a
  rw [get_eq_some, mem_delete, Option.filter_eq_some_iff, get_eq_some, Bool.not_eq_true']

lemma get_set : (t.set k a).get k' = if k' = k then some a else t.get k' := by
  ext b
  rw [get_eq_some]
  split_ifs with h
  · simp [set, h, eq_comm]
  · simp [set, h, get_eq_some]

end KeyedTable

end PqMsg.Lib
