/-
Tables whose primary key comes from a sequence.

A table has rows with pairwise different ids below the next value of the sequence. Rows are added under the next id and are
deleted; the sequence never goes back, so an id that was given once is not given again.
-/
import Mathlib.Tactic

namespace PqMsg.Lib

open List

structure SerialTable (α : Type) where
  rows : List (ℕ × α)
  next : ℕ
  ids_nodup : (rows.map Prod.fst).Nodup
  ids_lt : ∀ r ∈ rows, r.1 < next

namespace SerialTable

variable {α : Type}

def empty : SerialTable α := ⟨[], 1, nodup_nil, by simp⟩

/-- `DELETE … WHERE` -/
def delete (t : SerialTable α) (cond : ℕ → α → Bool) : SerialTable α where
  rows := t.rows.filter fun r => !cond r.1 r.2
  next := t.next
  ids_nodup := t.ids_nodup.sublist (filter_sublist.map _)
  ids_lt := fun r hr => t.ids_lt r (mem_of_mem_filter hr)

/-- `INSERT … RETURNING id` -/
def insert (t : SerialTable α) (a : α) : SerialTable α where
  rows := t.rows ++ [(t.next, a)]
  next := t.next + 1
  ids_nodup := by
    rw [map_append, nodup_append]
    refine ⟨t.ids_nodup, by simp, ?_⟩
    rintro x hx y hy rfl
    obtain ⟨r, hr, rfl⟩ := mem_map.1 hx
    have hlt := t.ids_lt r hr
    have heq : r.1 = t.next := by simpa using hy
    omega
  ids_lt := by
    intro r hr
    rcases mem_append.1 hr with hr | hr
    · exact (t.ids_lt r hr).trans (Nat.lt_succ_self _)
    · rw [mem_singleton.1 hr]
      exact Nat.lt_succ_self _

def insertAll (t : SerialTable α) (rows : List α) : SerialTable α := rows.foldl insert t

variable {t : SerialTable α} {a b : α} {id : ℕ} {cond : ℕ → α → Bool}

lemma mem_delete : (id, a) ∈ (t.delete cond).rows ↔ (id, a) ∈ t.rows ∧ cond id a = false := by
  simp [delete, mem_filter]

lemma mem_insert : (id, b) ∈ (t.insert a).rows ↔ (id, b) ∈ t.rows ∨ id = t.next ∧ b = a := by
  simp [insert]

@[simp] lemma delete_next : (t.delete cond).next = t.next := rfl

lemma next_le_insertAll (t : SerialTable α) (rows : List α) : t.next ≤ (t.insertAll rows).next := by
  induction rows generalizing t with
  | nil => exact le_rfl
  | cons row rows ih => exact (Nat.le_succ _).trans (ih (t.insert row))

/-- what is added has new ids -/
lemma mem_insertAll {rows : List α} (h : (id, a) ∈ (t.insertAll rows).rows) : (id, a) ∈ t.rows ∨ t.next ≤ id := by
  induction rows generalizing t with
  | nil => exact .inl h
  | cons row rows ih =>
    rcases ih (t := t.insert row) h with hmem | hle
    · rcases mem_insert.1 hmem with hold | ⟨rfl, -⟩
      · exact .inl hold
      · exact .inr le_rfl
    · exact .inr ((Nat.le_succ _).trans hle)

/-- one row for an id -/
lemma row_unique (ha : (id, a) ∈ t.rows) (hb : (id, b) ∈ t.rows) : a = b := by
  have := inj_on_of_nodup_map t.ids_nodup ha hb rfl
  exact (Prod.mk.inj this).2

end SerialTable

end PqMsg.Lib
