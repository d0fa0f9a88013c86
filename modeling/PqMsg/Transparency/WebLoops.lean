/-
The loops of the JavaScript fallback.

Its bit operations work on 32 bits with sign. For trees of at most `2 ^ 31` leaves nothing is lost; beyond that sizes wrap,
and an old size that is a multiple of `2 ^ 32` leaves `fn` at `-1`, which the first loop shifts forever.

- `evaluate32_eq`: up to `2 ^ 31` leaves the fallback evaluates a consistency proof as `evaluate_consistency_proof` does.
- `evaluate32_endless_iff`: the sizes on which the evaluation does not end.
- `stripOnes32_none_iff`: the first loop ends within the budget of the model or never.
-/
import PqMsg.Transparency.WebClient

namespace PqMsg.Transparency

open Lib

/-! ## JavaScript computations -/

section Computations

variable {α β : Type}

@[simp] lemma Js.ofExcept_eq_returns {x : Except JsError α} {a : α} : Js.ofExcept x = .returns a ↔ x = .ok a := by
  cases x <;> simp [Js.ofExcept]

lemma Js.ofExcept_ne_endless {x : Except JsError α} : Js.ofExcept x ≠ .endless := by
  cases x <;> simp [Js.ofExcept]

@[simp] lemma Js.ofExcept_ok (a : α) : Js.ofExcept (.ok a) = .returns a := rfl

@[simp] lemma Js.returns_bind (a : α) (f : α → Js β) : (Js.returns a >>= f) = f a := rfl

@[simp] lemma Js.pure_eq (a : α) : (pure a : Js α) = .returns a := rfl

variable {x : Js α} {f : α → Js β} {e : JsError} {c : Prop}

lemma Js.bind_returns {b : β} : (x >>= f) = .returns b ↔ ∃ a, x = .returns a ∧ f a = .returns b := by
  cases x <;> simp [bind]

lemma Js.bind_endless : (x >>= f) = .endless ↔ x = .endless ∨ ∃ a, x = .returns a ∧ f a = .endless := by
  cases x <;> simp [bind]

/-- a check that throws is passed -/
lemma Js.check_iff {y : Js α} (hx : ∀ e, x ≠ .throws e) [Decidable c] : (if c then .throws e else y) = x ↔ ¬ c ∧ y = x := by
  by_cases h : c
  · simp [h, (hx e).symm]
  · simp [h]

lemma Js.check_returns [Decidable c] {a : α} :
    (if c then .throws e else x) = .returns a ↔ ¬c ∧ x = .returns a := Js.check_iff (by simp)

lemma Js.check_endless [Decidable c] : (if c then .throws e else x) = .endless ↔ ¬c ∧ x = .endless := Js.check_iff (by simp)

lemma Js.ofExcept_bind_iff {x : Js β} (hx : ∀ e, x ≠ .throws e) {y : Except JsError α} :
    (Js.ofExcept y >>= f) = x ↔ ∃ a, y = .ok a ∧ f a = x := by
  cases y with
  | error e => exact ⟨fun h => absurd h.symm (hx e), by rintro ⟨a, h, -⟩; cases h⟩
  | ok => simp

end Computations

/-! ## 32-bit loops -/

section Loops

variable {x fuel fn sn oldSize : ℕ}

lemma toInt32_nat (h : x < 2 ^ 31) : toInt32 x = x := by
  unfold toInt32
  apply Int.bmod_eq_of_le <;> omega

lemma lowBit_nat (h : x < 2 ^ 31) : lowBit x = (x % 2 : ℕ) := by
  rw [lowBit, toInt32_nat h, Int.natCast_mod]
  rfl

lemma shiftRight_nat (h : x < 2 ^ 31) : shiftRight x = (x / 2 : ℕ) := by
  rw [shiftRight, toInt32_nat h, Int.natCast_div]
  rfl

lemma toInt32_bounds (x : ℤ) : -2 ^ 31 ≤ toInt32 x ∧ toInt32 x < 2 ^ 31 := by
  have h1 := Int.le_bmod (x := x) (m := 2 ^ 32) (by decide)
  have h2 := Int.bmod_lt (x := x) (m := 2 ^ 32) (by decide)
  unfold toInt32
  constructor <;> omega

/-- the first loop never ends once all 32 bits are ones -/
lemma stripOnes32_hangs (fuel : ℕ) {fn : ℤ} (sn : ℤ) (h : toInt32 fn = -1) : stripOnes32 fuel fn sn = none := by
  induction fuel generalizing fn sn with
  | zero => rfl
  | succ fuel ih =>
    have hbit : lowBit fn = 1 := by rw [lowBit, h]; rfl
    have hshift : shiftRight fn = -1 := by rw [shiftRight, h]; rfl
    rw [stripOnes32, if_pos hbit, hshift]
    exact ih _ (by decide)

/-- below `2 ^ fuel` in absolute value it ends within `fuel + 1` iterations -/
lemma stripOnes32_small {x : ℤ} (sn : ℤ) (hlo : -2 ^ fuel ≤ x) (hhi : x < 2 ^ fuel) (h31 : -2 ^ 31 ≤ x ∧ x < 2 ^ 31)
    (hx : x ≠ -1) : (stripOnes32 (fuel + 1) x sn).isSome := by
  induction fuel generalizing x sn with
  | zero =>
    obtain rfl : x = 0 := by simp at hlo hhi; omega
    rfl
  | succ fuel ih =>
    have hpow : (2 : ℤ) ^ (fuel + 1) = 2 * 2 ^ fuel := pow_succ' ..
    have hself : toInt32 x = x := by
      unfold toInt32
      apply Int.bmod_eq_of_le <;> omega
    rw [stripOnes32]
    split_ifs with hbit
    · rw [lowBit, hself] at hbit
      rw [show shiftRight x = x / 2 by rw [shiftRight, hself]]
      exact ih _ (by omega) (by omega) (by omega) (by omega)
    · rfl

/-- **The first loop ends within the budget or never** -/
lemma stripOnes32_none_iff (fn sn : ℤ) : stripOnes32 loopBudget fn sn = none ↔ toInt32 fn = -1 := by
  constructor
  · intro h
    by_contra hne
    have hbounds := toInt32_bounds fn
    rw [loopBudget, stripOnes32] at h
    split_ifs at h with hbit
    have hsome : (stripOnes32 63 (shiftRight fn) (shiftRight sn)).isSome := by
      unfold lowBit at hbit
      apply stripOnes32_small <;> unfold shiftRight <;> omega
    rw [h] at hsome
    exact absurd hsome (by decide)
  · exact stripOnes32_hangs loopBudget sn

lemma stripOnes32_nat (hfuel : fn < 2 ^ fuel) (hfn : fn < 2 ^ 31) (hsn : sn < 2 ^ 31) :
    stripOnes32 (fuel + 1) fn sn = some (((stripOnes fn fn sn).1 : ℤ), ((stripOnes fn fn sn).2 : ℤ)) := by
  induction fuel generalizing fn sn with
  | zero =>
    obtain rfl : fn = 0 := by simpa using hfuel
    rfl
  | succ fuel ih =>
    rw [stripOnes32, lowBit_nat hfn]
    by_cases hodd : fn % 2 = 1
    · rw [stripOnes_odd hodd, hodd, if_pos (by rfl), shiftRight_nat hfn, shiftRight_nat hsn]
      exact ih (by omega) (by omega) (by omega)
    · rw [stripOnes_even hodd, if_neg (by omega)]

lemma stripZeros32_nat (hfuel : fn < 2 ^ fuel) (hfn : fn < 2 ^ 31) (hsn : sn < 2 ^ 31) :
    stripZeros32 (fuel + 1) fn sn = (((stripZeros fn fn sn).1 : ℤ), ((stripZeros fn fn sn).2 : ℤ)) := by
  induction fuel generalizing fn sn with
  | zero =>
    obtain rfl : fn = 0 := by simpa using hfuel
    rfl
  | succ fuel ih =>
    rw [stripZeros32, lowBit_nat hfn]
    by_cases hzero : fn = 0
    · subst hzero
      rfl
    · by_cases hodd : fn % 2 = 1
      · rw [stripZeros_odd hodd, if_neg (by omega)]
      · rw [stripZeros_even hzero (by omega), if_pos (by omega), shiftRight_nat hfn, shiftRight_nat hsn]
        exact ih (by omega) (by omega) (by omega)

lemma stripZeros_le (fuel fn sn : ℕ) : (stripZeros fuel fn sn).1 ≤ fn ∧ (stripZeros fuel fn sn).2 ≤ sn := by
  induction fuel generalizing fn sn with
  | zero => exact ⟨le_rfl, le_rfl⟩
  | succ fuel ih =>
    rw [stripZeros]
    split_ifs
    · have := ih (fn / 2) (sn / 2)
      omega
    · exact ⟨le_rfl, le_rfl⟩

lemma stripOnes_le (fuel fn sn : ℕ) : (stripOnes fuel fn sn).1 ≤ fn ∧ (stripOnes fuel fn sn).2 ≤ sn := by
  induction fuel generalizing fn sn with
  | zero => exact ⟨le_rfl, le_rfl⟩
  | succ fuel ih =>
    rw [stripOnes]
    split_ifs
    · have := ih (fn / 2) (sn / 2)
      omega
    · exact ⟨le_rfl, le_rfl⟩

lemma noCommonBits_eq (h0 : oldSize ≠ 0) (h : oldSize < 2 ^ 31) : noCommonBits oldSize = isPowerOfTwo oldSize := by
  rw [Bool.eq_iff_iff, isPowerOfTwo_iff, noCommonBits, decide_eq_true_iff, Nat.mod_eq_of_lt (by omega),
    Nat.mod_eq_of_lt (by omega)]
  exact Nat.and_sub_one_eq_zero_iff_isPowerOfTwo h0

variable (W : WebPrims) {newSize : ℕ}

/-- below `2 ^ 31` the 32-bit loop is the 64-bit one -/
lemma evalLoop32_nat (hfn : fn < 2 ^ 31) (hsn : sn < 2 ^ 31) (o n : ByteArr 32) (hs : List (ByteArr 32)) :
    evalLoop32 W fn sn o n hs = (evalLoop W.log fn sn o n hs).mapError fun _ => paramsInvalid := by
  induction hs generalizing fn sn o n with
  | nil =>
    simp only [evalLoop32, evalLoop, Ne, Nat.cast_eq_zero]
    split_ifs <;> rfl
  | cons x hs ih =>
    have hle := stripZeros_le fn fn sn
    have hstep : (lowBit (fn : ℤ) = 1 ∨ (fn : ℤ) = sn) ↔ (fn % 2 = 1 ∨ fn = sn) := by
      rw [lowBit_nat hfn]
      omega
    have hstrip : stripZeros32 loopBudget fn sn = _ := stripZeros32_nat (show fn < 2 ^ 63 by omega) hfn hsn
    rw [evalLoop32, evalLoop, hstrip]
    simp only [hstep, Nat.cast_eq_zero]
    split_ifs
    · rfl
    · rw [shiftRight_nat (by omega), shiftRight_nat (by omega)]
      exact ih (by omega) (by omega) _ _
    · rw [shiftRight_nat hfn, shiftRight_nat hsn]
      exact ih (by omega) (by omega) _ _

/-- **Trees of at most `2 ^ 31` leaves**: the two evaluations agree -/
lemma evaluate32_eq (hnew : newSize ≤ 2 ^ 31) (root : ByteArr 32) (hs : List (ByteArr 32)) :
    evaluateTransparencyConsistencyProof W oldSize newSize root hs =
      .ofExcept ((evaluateConsistencyProof W.log oldSize newSize root hs).mapError fun _ => paramsInvalid) := by
  unfold evaluateTransparencyConsistencyProof evaluateConsistencyProof
  by_cases hparams : oldSize = 0 ∨ oldSize > newSize
  · rw [if_pos hparams, if_pos hparams]
    rfl
  · rw [if_neg hparams, if_neg hparams]
    cases hs with
    | nil =>
      simp only
      split_ifs <;> rfl
    | cons =>
      by_cases hsame : oldSize = newSize
      · simp only [if_pos hsame]
        rfl
      · have hle := stripOnes_le (oldSize - 1) (oldSize - 1) (newSize - 1)
        have hfn : ((oldSize : ℤ) - 1) = (oldSize - 1 : ℕ) := by omega
        have hsn : ((newSize : ℤ) - 1) = (newSize - 1 : ℕ) := by omega
        simp only [if_neg hsame]
        have hstrip : stripOnes32 loopBudget (oldSize - 1 : ℕ) (newSize - 1 : ℕ) = _ :=
          stripOnes32_nat (show oldSize - 1 < 2 ^ 63 by omega) (by omega) (by omega)
        rw [hfn, hsn, hstrip, noCommonBits_eq (by omega) (by omega)]
        simp only
        split_ifs
        · rw [evalLoop32_nat W (by omega) (by omega)]
        · rw [evalLoop32_nat W (by omega) (by omega)]

/-- **When the fallback does not end**: the old size is a positive multiple of `2 ^ 32` -/
lemma evaluate32_endless_iff {root : ByteArr 32} {hs : List (ByteArr 32)} :
    evaluateTransparencyConsistencyProof W oldSize newSize root hs = .endless ↔
      oldSize ≠ 0 ∧ oldSize < newSize ∧ hs ≠ [] ∧ 2 ^ 32 ∣ oldSize := by
  have hdvd : toInt32 ((oldSize : ℤ) - 1) = -1 ↔ 2 ^ 32 ∣ oldSize := by
    rw [toInt32, Int.bmod_eq_iff (by decide), show -1 - ((oldSize : ℤ) - 1) = -(oldSize : ℤ) by omega, Int.dvd_neg,
      Int.natCast_dvd_natCast]
    simp
  unfold evaluateTransparencyConsistencyProof
  by_cases hparams : oldSize = 0 ∨ oldSize > newSize
  · rw [if_pos hparams]
    simp only [reduceCtorEq, false_iff]
    omega
  · rw [if_neg hparams]
    cases hs with
    | nil => simp
    | cons =>
      by_cases hsame : oldSize = newSize
      · simp [hsame]
      · have hlt : oldSize < newSize := by omega
        have h0 : oldSize ≠ 0 := by omega
        have hnever := stripOnes32_none_iff ((oldSize : ℤ) - 1) ((newSize : ℤ) - 1)
        rw [hdvd] at hnever
        simp only [if_neg hsame]
        rw [← hnever]
        cases stripOnes32 loopBudget ((oldSize : ℤ) - 1) ((newSize : ℤ) - 1) with
        | none => simp [hlt, h0]
        | some =>
          simp only [reduceCtorEq, and_false, iff_false]
          split_ifs <;> exact Js.ofExcept_ne_endless

end Loops

end PqMsg.Transparency
