/-
Cells that are changed by calls in several steps.

A call takes a cell when it reads it and leaves it after its last write; in between, what it still has to do to the cell is a
function on the cell's value, its pending effect. `Completes cells pending final` says that no two calls have taken the same
cell, and that `final` is what the cells will be once the pending effects are done. If a call takes a cell only when it is
free, `final` changes only then, and all at once: the calls take effect one after the other, in the order in which they take
their cells.
-/
import Mathlib.Tactic

namespace PqMsg.Lib

open Function Option

variable {ι K C : Type}

structure Completes (cells : K → C) (pending : ι → Option (K × (C → C))) (final : K → C) : Prop where
  exclusive : ∀ {i j k e e'}, pending i = some (k, e) → pending j = some (k, e') → i = j
  busy : ∀ {i k e}, pending i = some (k, e) → final k = e (cells k)
  quiet : ∀ {k}, (∀ i e, pending i ≠ some (k, e)) → final k = cells k

namespace Completes

variable {cells final : K → C} {pending : ι → Option (K × (C → C))} {i : ι} {k : K} {e : C → C}

/-- no call has taken anything -/
lemma start (cells : K → C) : Completes cells (fun _ : ι => none) cells :=
  ⟨fun h => absurd h (by simp), fun h => absurd h (by simp), fun _ => rfl⟩

/-- the other calls have not taken the cell that one call has taken -/
lemma others_free (h : Completes cells pending final) (hi : pending i = some (k, e)) :
    ∀ j ≠ i, ∀ e', pending j ≠ some (k, e') :=
  fun _ hj _ hp => hj (h.exclusive hp hi)

variable [DecidableEq ι]

/-- a call that has taken nothing changes in a way that does not concern the cells -/
lemma idle (h : Completes cells pending final) (hi : pending i = none) : Completes cells (update pending i none) final := by
  rw [← hi, update_eq_self]
  exact h

variable [DecidableEq K] (h : Completes cells pending final)
include h

/-- What one call can do: it has taken cell `k` or nothing, no other call has taken `k`, and afterwards the effect `p` on `k`
is pending, or nothing. -/
lemma change {p : Option (K × (C → C))} {c d : C} (hold : ∀ x ∈ pending i, x.1 = k) (hnew : ∀ x ∈ p, x.1 = k)
    (hfree : ∀ j ≠ i, ∀ e, pending j ≠ some (k, e)) (hd : d = p.elim c fun x => x.2 c) :
    Completes (update cells k c) (update pending i p) (update final k d) := by
  have hkeep : ∀ {j k' e}, k' ≠ k → (update pending i p j = some (k', e) ↔ pending j = some (k', e)) := by
    intro j k' e hk
    by_cases hj : j = i
    · subst hj
      rw [update_self]
      exact ⟨fun hp => absurd (hnew _ hp) hk, fun hp => absurd (hold _ hp) hk⟩
    · rw [update_of_ne hj]
  have honly : ∀ {j e}, update pending i p j = some (k, e) → j = i ∧ p = some (k, e) := by
    intro j e hj
    by_cases hji : j = i
    · subst hji
      rw [update_self] at hj
      exact ⟨rfl, hj⟩
    · rw [update_of_ne hji] at hj
      exact absurd hj (hfree j hji e)
  refine ⟨fun {j j' k' e e'} hj hj' => ?_, fun {j k' e} hj => ?_, fun {k'} hquiet => ?_⟩
  · by_cases hk : k' = k
    · subst hk
      rw [(honly hj).1, (honly hj').1]
    · exact h.exclusive ((hkeep hk).1 hj) ((hkeep hk).1 hj')
  · by_cases hk : k' = k
    · subst hk
      rw [update_self, update_self, hd, (honly hj).2]
      rfl
    · rw [update_of_ne hk, update_of_ne hk]
      exact h.busy ((hkeep hk).1 hj)
  · by_cases hk : k' = k
    · subst hk
      rw [update_self, update_self, hd]
      cases hp : p with
      | none => rfl
      | some x =>
        -- the call has taken this cell
        refine absurd ?_ (hquiet i x.2)
        rw [update_self, hp, ← hnew x hp]
    · rw [update_of_ne hk, update_of_ne hk]
      exact h.quiet fun j e hj => hquiet j e ((hkeep hk).2 hj)

/-- **A call takes a free cell**: its whole effect is pending -/
lemma take (hi : pending i = none) (hfree : ∀ j e, pending j ≠ some (k, e)) (e : C → C) :
    Completes cells (update pending i (some (k, e))) (update final k (e (cells k))) := by
  have hnew : ∀ x ∈ some (k, e), x.1 = k := fun x hx => by rw [← mem_some_iff.1 hx]
  have hchange := h.change (c := cells k) (fun x hx => by rw [hi] at hx; cases hx) hnew (fun j _ a => hfree j a) rfl
  rwa [update_eq_self] at hchange

/-- a call does a part of its effect -/
lemma advance {e e' : C → C} {c : C} (hi : pending i = some (k, e)) (hc : e' c = e (cells k)) :
    Completes (update cells k c) (update pending i (some (k, e'))) final := by
  have hold : ∀ x ∈ pending i, x.1 = k := fun x hx => by rw [hi] at hx; rw [← mem_some_iff.1 hx]
  have hnew : ∀ x ∈ some (k, e'), x.1 = k := fun x hx => by rw [← mem_some_iff.1 hx]
  have hchange := h.change hold hnew (h.others_free hi) (hc.symm.trans rfl)
  rwa [← h.busy hi, update_eq_self] at hchange

/-- **A call leaves its cell**, with the rest of its effect -/
lemma leave (hi : pending i = some (k, e)) : Completes (update cells k (e (cells k))) (update pending i none) final := by
  have hold : ∀ x ∈ pending i, x.1 = k := fun x hx => by rw [hi] at hx; rw [← mem_some_iff.1 hx]
  have hchange := h.change (p := none) hold (fun x hx => absurd hx (not_mem_none x)) (h.others_free hi) (h.busy hi)
  rwa [update_eq_self] at hchange

end Completes

end PqMsg.Lib
