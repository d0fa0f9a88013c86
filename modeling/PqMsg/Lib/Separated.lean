/-
Lists that are joined with a separator.

`a ++ c :: b` can be read back if `c` is not in `a`: the first separator is the one that was put there.
-/
import Mathlib.Data.List.Basic

namespace PqMsg.Lib

variable {α : Type} {c : α}

/-- **The first separator**: parts without separators in front of it are read in one way only -/
lemma separated_inj {a a' b b' : List α} (ha : c ∉ a) (ha' : c ∉ a') (h : a ++ c :: b = a' ++ c :: b') : a = a' ∧ b = b' := by
  induction a generalizing a' with
  | nil =>
    cases a' with
    | nil => exact ⟨rfl, (List.cons.inj h).2⟩
    | cons =>
      obtain ⟨rfl, -⟩ := List.cons.inj h
      exact absurd (.head _) ha'
  | cons x a ih =>
    cases a' with
    | nil =>
      obtain ⟨rfl, -⟩ := List.cons.inj h
      exact absurd (.head _) ha
    | cons =>
      obtain ⟨rfl, htail⟩ := List.cons.inj h
      obtain ⟨rfl, hb⟩ := ih (fun hc => ha (.tail _ hc)) (fun hc => ha' (.tail _ hc)) htail
      exact ⟨rfl, hb⟩

end PqMsg.Lib
