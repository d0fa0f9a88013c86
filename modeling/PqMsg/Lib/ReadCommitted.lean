/-
A store of rows that transactions change under READ COMMITTED.

A row has a committed version, and at most one version that some transaction has written and not committed: writing a row
locks it until the transaction ends. A transaction sees its own versions and, of all other rows, the committed ones
(`Store.view`). A statement can run only if no other transaction holds a row it writes (`Store.Free`). `keys` lists the rows
that were ever written, so that this can be decided.

- `write_draft_cases`, `write_draft_other`: what a statement can do to the uncommitted versions.
- `commit_committed`, `commit_draft`, `rollback_draft`: the end of a transaction.
- `Holds`: all that a transaction has written so far, and how its own and other statements change that.
-/
import Mathlib.Tactic

namespace PqMsg.Lib

open Option

variable {T K : Type} {V : K → Type}

structure Store (T K : Type) (V : K → Type) where
  keys : List K
  committed : ∀ k, Option (V k)
  /-- the transaction that holds the row, and the row as it will be after its commit -/
  draft : ∀ k, Option (T × Option (V k))
  known : ∀ k, k ∉ keys → committed k = none ∧ draft k = none

/-- what a statement does to each row: nothing, or a new version of it (`some none` for a deletion) -/
abbrev Writes (V : K → Type) := ∀ k, Option (Option (V k))

namespace Store

variable [DecidableEq T]

def view (s : Store T K V) (t : T) (k : K) : Option (V k) :=
  match s.draft k with
  | some (t', row) => if t' = t then row else s.committed k
  | none => s.committed k

/-- no other transaction holds a row that is to be written -/
def Free (s : Store T K V) (t : T) (w : Writes V) : Prop :=
  ∀ k ∈ s.keys, (w k).isSome → (s.draft k).all (·.1 = t)

instance (s : Store T K V) (t : T) (w : Writes V) : Decidable (s.Free t w) :=
  inferInstanceAs (Decidable (∀ k ∈ s.keys, _))

def write [DecidableEq K] (s : Store T K V) (t : T) (new : List K) (w : Writes V) : Store T K V where
  keys := s.keys ++ new
  committed := s.committed
  draft k :=
    match w k with
    | some row => if k ∈ s.keys ∨ k ∈ new then some (t, row) else s.draft k
    | none => s.draft k
  known := by
    intro k hk
    rw [List.mem_append] at hk
    obtain ⟨hcommitted, hdraft⟩ := s.known k fun h => hk (Or.inl h)
    refine ⟨hcommitted, ?_⟩
    cases w k with
    | none => exact hdraft
    | some row => exact (if_neg hk).trans hdraft

def commit (s : Store T K V) (t : T) : Store T K V where
  keys := s.keys
  committed := s.view t
  draft k := (s.draft k).filter (·.1 ≠ t)
  known := by
    intro k hk
    obtain ⟨hcommitted, hdraft⟩ := s.known k hk
    simp [view, hcommitted, hdraft]

def rollback (s : Store T K V) (t : T) : Store T K V where
  keys := s.keys
  committed := s.committed
  draft k := (s.draft k).filter (·.1 ≠ t)
  known := by
    intro k hk
    obtain ⟨hcommitted, hdraft⟩ := s.known k hk
    exact ⟨hcommitted, by simp [hdraft]⟩

variable {s : Store T K V} {t t' : T} {k : K} {row : Option (V k)} {w : Writes V} {new : List K} {x : T × Option (V k)}

/-! ## Views -/

lemma view_own (h : s.draft k = some (t, row)) : s.view t k = row := by
  simp [view, h]

lemma view_free (h : s.draft k = none) : s.view t k = s.committed k := by
  simp [view, h]

lemma view_other (h : s.draft k = some (t', row)) (hne : t' ≠ t) : s.view t k = s.committed k := by
  simp [view, h, hne]

/-- a row as a transaction sees it is one it has written, or a committed one that it does not hold -/
lemma view_cases (s : Store T K V) (t : T) (k : K) : (∃ row, s.draft k = some (t, row) ∧ s.view t k = row) ∨
      ((∀ row, s.draft k ≠ some (t, row)) ∧ s.view t k = s.committed k) := by
  cases hdraft : s.draft k with
  | none => exact .inr ⟨by simp, view_free hdraft⟩
  | some x =>
    obtain ⟨t', row⟩ := x
    by_cases ht : t' = t
    · subst ht
      exact .inl ⟨row, rfl, view_own hdraft⟩
    · exact .inr ⟨by simp [ht], view_other hdraft ht⟩

/-- rows that a transaction does not hold are seen as they are committed -/
lemma view_unheld (h : ∀ row, s.draft k ≠ some (t, row)) : s.view t k = s.committed k := by
  rcases view_cases s t k with ⟨row, hdraft, -⟩ | ⟨-, hview⟩
  · exact absurd hdraft (h row)
  · exact hview

lemma mem_keys_of_view {v : V k} (h : s.view t k = some v) : k ∈ s.keys := by
  by_contra hk
  obtain ⟨hcommitted, hdraft⟩ := s.known k hk
  rw [view_free hdraft, hcommitted] at h
  cases h

omit [DecidableEq T] in
lemma mem_keys_of_draft (h : s.draft k = some (t, row)) : k ∈ s.keys := by
  by_contra hk
  rw [(s.known k hk).2] at h
  cases h

lemma free_holder (h : s.Free t w) {x : Option (V k)} (hw : w k = some x) (hdraft : s.draft k = some (t', row)) : t' = t := by
  have hall := h k (mem_keys_of_draft hdraft) (by rw [hw]; rfl)
  simpa [hdraft] using hall

/-! ## Ends of transactions -/

lemma commit_committed (s : Store T K V) (t : T) (k : K) : (s.commit t).committed k = s.view t k := rfl

@[simp] lemma rollback_committed : (s.rollback t).committed = s.committed := rfl

lemma commit_draft : (s.commit t).draft k = some x ↔ s.draft k = some x ∧ x.1 ≠ t := by
  simp [commit, filter_eq_some_iff]

lemma rollback_draft : (s.rollback t).draft k = some x ↔ s.draft k = some x ∧ x.1 ≠ t := by
  simp [rollback, filter_eq_some_iff]

lemma commit_draft_none (h : s.draft k = none) : (s.commit t).draft k = none := by
  simp [commit, h]

lemma rollback_draft_none (h : s.draft k = none) : (s.rollback t).draft k = none := by
  simp [rollback, h]

/-- a commit changes only the rows that the transaction holds -/
lemma commit_committed_other (h : ∀ row, s.draft k ≠ some (t, row)) : (s.commit t).committed k = s.committed k :=
  view_unheld h

/-! ## Statements -/

variable [DecidableEq K]

section

omit [DecidableEq T]

@[simp] lemma write_committed : (s.write t new w).committed = s.committed := rfl

lemma write_draft_none (h : w k = none) : (s.write t new w).draft k = s.draft k := by
  simp [write, h]

lemma write_draft_some (h : w k = some row) (hk : k ∈ s.keys ∨ k ∈ new) : (s.write t new w).draft k = some (t, row) := by
  simp only [write, h]
  exact if_pos hk

lemma write_draft_cases (s : Store T K V) (t : T) (new : List K) (w : Writes V) (k : K) :
    (s.write t new w).draft k = s.draft k ∨ ∃ row, w k = some row ∧ (s.write t new w).draft k = some (t, row) := by
  cases hw : w k with
  | none => exact .inl (write_draft_none hw)
  | some row =>
    by_cases hk : k ∈ s.keys ∨ k ∈ new
    · exact .inr ⟨row, rfl, write_draft_some hw hk⟩
    · refine .inl ?_
      simp only [write, hw]
      exact if_neg hk

end

/-- **Row locks**: a statement that can run leaves what other transactions have written -/
lemma write_draft_other (h : s.Free t w) (hdraft : s.draft k = some (t', row)) (hne : t' ≠ t) :
    (s.write t new w).draft k = some (t', row) := by
  cases hw : w k with
  | none => exact (write_draft_none hw).trans hdraft
  | some => exact absurd (free_holder h hw hdraft) hne

lemma write_view_none (h : w k = none) : (s.write t new w).view t' k = s.view t' k := by
  simp [view, write_draft_none h]

lemma write_view_some (h : w k = some row) (hk : k ∈ s.keys ∨ k ∈ new) : (s.write t new w).view t k = row :=
  view_own (write_draft_some h hk)

/-! ## What a transaction holds -/

/-- among the rows in `P`, the transaction has written exactly those in `w` -/
def Holds (s : Store T K V) (t : T) (P : K → Prop) (w : Writes V) : Prop :=
  ∀ k, P k → ∀ row, s.draft k = some (t, row) ↔ w k = some row

section Holds

variable {P : K → Prop} {w' : Writes V}

omit [DecidableEq K] in
lemma Holds.view (h : s.Holds t P w) (hk : P k) : s.view t k = (w k).getD (s.committed k) := by
  rcases view_cases s t k with ⟨row, hdraft, hview⟩ | ⟨hnot, hview⟩
  · rw [hview, (h k hk row).1 hdraft, getD_some]
  · have hnone : w k = none := by
      rw [eq_none_iff_forall_ne_some]
      exact fun row hw => hnot row ((h k hk row).2 hw)
    rw [hview, hnone, getD_none]

omit [DecidableEq T] [DecidableEq K] in
lemma Holds.congr (h : s.Holds t P w) (heq : ∀ k, P k → w' k = w k) : s.Holds t P w' := by
  intro k hk row
  rw [heq k hk]
  exact h k hk row

omit [DecidableEq T] in
/-- a statement of the transaction itself -/
lemma Holds.write (h : s.Holds t P w) (hkeys : ∀ k row, P k → w' k = some row → k ∈ s.keys ∨ k ∈ new) :
    (s.write t new w').Holds t P fun k => (w' k).or (w k) := by
  intro k hk row
  dsimp only
  cases hw' : w' k with
  | none =>
    rw [write_draft_none hw', none_or]
    exact h k hk row
  | some row' =>
    rw [write_draft_some hw' (hkeys k row' hk hw'), some_or]
    simp

section

omit [DecidableEq K]

/-- a transaction that has ended holds nothing -/
lemma commit_holds (s : Store T K V) (t : T) (P : K → Prop) : (s.commit t).Holds t P fun _ => none := by
  intro k _ row
  rw [commit_draft]
  simp

lemma rollback_holds (s : Store T K V) (t : T) (P : K → Prop) : (s.rollback t).Holds t P fun _ => none := by
  intro k _ row
  rw [rollback_draft]
  simp

lemma Holds.commit_other (h : s.Holds t' P w) (hne : t' ≠ t) : (s.commit t).Holds t' P w := by
  intro k hk row
  rw [commit_draft, ← h k hk row]
  exact and_iff_left hne

lemma Holds.rollback_other (h : s.Holds t' P w) (hne : t' ≠ t) : (s.rollback t).Holds t' P w := by
  intro k hk row
  rw [rollback_draft, ← h k hk row]
  exact and_iff_left hne

end

end Holds

end Store

end PqMsg.Lib
