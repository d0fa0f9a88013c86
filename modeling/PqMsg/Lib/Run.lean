/-
Runs of a deterministic step function, with a legality condition on each step.

A run is a fold of `step` over a list of operations. `Legal ok s ops` says that every operation of the run meets `ok` in
the state it is applied to. `run_inv` is the invariant rule: what a legal step keeps, a legal run keeps. `legal_iff_good`
is its converse for conditions that are exact for each step.
-/
import Mathlib.Tactic

namespace PqMsg.Lib

/-- two processes can be numbered -/
instance neZeroTwo : NeZero 2 := ⟨two_ne_zero⟩

variable {S O : Type} (step : S → O → S)

def run (s : S) (ops : List O) : S := ops.foldl step s

@[simp] lemma run_nil (s : S) : run step s [] = s := rfl

@[simp] lemma run_cons (s : S) (o : O) (ops : List O) : run step s (o :: ops) = run step (step s o) ops := rfl

lemma run_append (s : S) (a b : List O) : run step s (a ++ b) = run step (run step s a) b := by
  simp [run, List.foldl_append]

/-- every operation meets `ok` in the state it is applied to -/
def Legal (ok : S → O → Prop) : S → List O → Prop
  | _, [] => True
  | s, o :: ops => ok s o ∧ Legal ok (step s o) ops

instance Legal.decidable {ok : S → O → Prop} [∀ s o, Decidable (ok s o)] : ∀ s ops, Decidable (Legal step ok s ops)
  | _, [] => isTrue trivial
  | s, o :: ops => @instDecidableAnd _ _ _ (Legal.decidable (step s o) ops)

variable {step} {ok : S → O → Prop} {ok' : S → O → Prop} {s : S} {ops : List O}

lemma legal_append {a b : List O} : Legal step ok s (a ++ b) ↔ Legal step ok s a ∧ Legal step ok (run step s a) b := by
  induction a generalizing s with
  | nil => simp [Legal]
  | cons o a ih => simp only [List.cons_append, Legal, run_cons, ih, and_assoc]

/-- a run is legal for every weaker condition -/
lemma Legal.mono (h : ∀ s o, ok s o → ok' s o) (hl : Legal step ok s ops) : Legal step ok' s ops := by
  induction ops generalizing s with
  | nil => trivial
  | cons o ops ih => exact ⟨h s o hl.1, ih hl.2⟩

/-- a run that meets two conditions meets both in each step -/
lemma Legal.and (h : Legal step ok s ops) (h' : Legal step ok' s ops) : Legal step (fun s o => ok s o ∧ ok' s o) s ops := by
  induction ops generalizing s with
  | nil => trivial
  | cons o ops ih => exact ⟨⟨h.1, h'.1⟩, ih h.2 h'.2⟩

/-- **The invariant rule** for legal runs -/
lemma run_inv (Inv : S → Prop) (hstep : ∀ s o, Inv s → ok s o → Inv (step s o)) (ops : List O) (hs : Inv s)
    (hl : Legal step ok s ops) : Inv (run step s ops) := by
  induction ops generalizing s with
  | nil => exact hs
  | cons o ops ih => exact ih (hstep s o hs hl.1) hl.2

/-- the invariant rule when every step is legal -/
lemma run_inv_all (Inv : S → Prop) (hstep : ∀ s o, Inv s → Inv (step s o)) (ops : List O) (hs : Inv s) :
    Inv (run step s ops) := by
  induction ops generalizing s with
  | nil => exact hs
  | cons o ops ih => exact ih (hstep s o hs)

/-- **Exact conditions**: if `ok` says of every step whether it keeps `good`, a run is legal exactly when all its states are
good -/
lemma legal_iff_good {Inv good : S → Prop} (hinv : ∀ s o, Inv s → Inv (step s o))
    (hok : ∀ s o, Inv s → good s → (ok s o ↔ good (step s o))) (hs : Inv s) (hg : good s) (ops : List O) :
    Legal step ok s ops ↔ ∀ k, good (run step s (ops.take k)) := by
  induction ops generalizing s with
  | nil => exact ⟨fun _ k => by rw [List.take_nil]; exact hg, fun _ => trivial⟩
  | cons o ops ih =>
    constructor
    · intro hl k
      cases k with
      | zero => exact hg
      | succ k => exact (ih (hinv s o hs) ((hok s o hs hg).1 hl.1)).1 hl.2 k
    · intro h
      have hstep : good (step s o) := h 1
      exact ⟨(hok s o hs hg).2 hstep, (ih (hinv s o hs) hstep).2 fun k => h (k + 1)⟩

/-- **At most one process**: a step of `i` keeps it, unless `i` begins while another one is at it -/
lemma unique_step {ι α : Type} {f g : ι → α} {R : α → Prop} {i : ι} (hother : ∀ j ≠ i, g j = f j)
    (h : ∀ {j k}, R (f j) → R (f k) → j = k) (hself : R (g i) → R (f i) ∨ ∀ j ≠ i, ¬R (f j)) {j k : ι} (hj : R (g j))
    (hk : R (g k)) : j = k := by
  have halone : ∀ n ≠ i, R (g n) → ¬R (g i) := by
    intro n hn hp hi
    rw [hother n hn] at hp
    rcases hself hi with hbefore | hfree
    · exact hn (h hp hbefore)
    · exact hfree n hn hp
  by_cases hji : j = i
  · subst hji
    by_contra hne
    exact halone k (Ne.symm hne) hk hj
  · by_cases hki : k = i
    · subst hki
      exact absurd hk (halone j hji hj)
    · exact h (hother j hji ▸ hj) (hother k hki ▸ hk)

end PqMsg.Lib
