/-
A keyed first-in-first-out cache of bounded size, over arbitrary keys and values.

The cache is its list of entries in insertion order; the structure carries that keys are pairwise different and that
the bound holds. `insert` keeps an entry that is already there, and makes room by dropping the oldest entry; `take`
removes and returns the entry of a key.

- `insert_of_room`: below the bound, inserting a new key appends it and loses nothing.
- `mem_erase`: exactly the entry of the key leaves.
- `ofEntries_entries`: re-inserting the entries of a cache in order rebuilds the cache.
-/
import Mathlib.Tactic

namespace PqMsg.Lib

open List

structure BoundedFifo (K V : Type) where
  maxEntries : ℕ
  entries : List (K × V)
  keysNodup : (entries.map Prod.fst).Nodup
  bounded : entries.length ≤ maxEntries

namespace BoundedFifo

variable {K V : Type} {c : BoundedFifo K V} {l : List (K × V)} {k : K}

lemma ext_entries {d : BoundedFifo K V} (hm : c.maxEntries = d.maxEntries) (he : c.entries = d.entries) : c = d := by
  cases c; cases d; cases hm; cases he; rfl

def empty (maxEntries : ℕ) : BoundedFifo K V := ⟨maxEntries, [], by simp, by simp⟩

@[simp] lemma empty_entries (n : ℕ) : (empty n : BoundedFifo K V).entries = [] := rfl

@[simp] lemma empty_maxEntries (n : ℕ) : (empty n : BoundedFifo K V).maxEntries = n := rfl

variable [DecidableEq K]

/-- the entry list after an insertion -/
def insertList (maxEntries : ℕ) (l : List (K × V)) (k : K) (v : V) : List (K × V) :=
  if maxEntries = 0 then l
  else if k ∈ l.map Prod.fst then l
  else if l.length ≥ maxEntries then l.tail ++ [(k, v)]
  else l ++ [(k, v)]

lemma insertList_nodup {n : ℕ} (k : K) (v : V) (h : (l.map Prod.fst).Nodup) : ((insertList n l k v).map Prod.fst).Nodup := by
  have app : ∀ l' : List (K × V), (l'.map Prod.fst).Nodup → k ∉ l'.map Prod.fst → ((l' ++ [(k, v)]).map Prod.fst).Nodup := by
    intro l' h1 h2
    rw [map_append, nodup_append]
    refine ⟨h1, by simp, ?_⟩
    intro a ha b hb hab
    simp only [map_cons, map_nil, mem_singleton] at hb
    exact h2 (by rw [← hb, ← hab]; exact ha)
  unfold insertList
  split_ifs with h0 hk hl
  · exact h
  · exact h
  · refine app _ ?_ (fun hc => hk ?_)
    · rw [map_tail]; exact h.sublist (tail_sublist _)
    · rw [map_tail] at hc; exact mem_of_mem_tail hc
  · exact app _ h hk

lemma insertList_length {n : ℕ} (k : K) (v : V) (h : l.length ≤ n) : (insertList n l k v).length ≤ n := by
  unfold insertList
  split_ifs with h0 hk hl
  · exact h
  · exact h
  · rw [length_append, length_tail, length_singleton]; omega
  · rw [length_append, length_singleton]; omega

def insert (c : BoundedFifo K V) (k : K) (v : V) : BoundedFifo K V :=
  ⟨c.maxEntries, insertList c.maxEntries c.entries k v, insertList_nodup k v c.keysNodup, insertList_length k v c.bounded⟩

/-- the value stored for a key -/
def lookup (c : BoundedFifo K V) (k : K) : Option V := (c.entries.find? (fun e => e.1 = k)).map Prod.snd

/-- the cache without a key's entry -/
def erase (c : BoundedFifo K V) (k : K) : BoundedFifo K V :=
  ⟨c.maxEntries, c.entries.filter (fun e => e.1 ≠ k), c.keysNodup.sublist (filter_sublist.map _),
    (length_filter_le _ _).trans c.bounded⟩

/-- remove a key's entry and return its value -/
def take (c : BoundedFifo K V) (k : K) : Option V × BoundedFifo K V := (c.lookup k, c.erase k)

/-- insert a list of entries one after the other -/
def insertAll (c : BoundedFifo K V) (l : List (K × V)) : BoundedFifo K V := l.foldl (fun c e => c.insert e.1 e.2) c

/-! ## Lookup -/

lemma lookup_eq_some {v : V} : c.lookup k = some v ↔ (k, v) ∈ c.entries := by
  unfold lookup
  constructor
  · intro h
    obtain ⟨e, hf, rfl⟩ := Option.map_eq_some_iff.1 h
    have hk : e.1 = k := by simpa using List.find?_some hf
    rw [← hk]; exact mem_of_find?_eq_some hf
  · intro h
    cases hf : c.entries.find? (fun e => e.1 = k) with
    | none => rw [List.find?_eq_none] at hf; exact absurd (by simp) (hf _ h)
    | some e =>
      have hk : e.1 = k := by simpa using List.find?_some hf
      rw [inj_on_of_nodup_map c.keysNodup (mem_of_find?_eq_some hf) h hk]; rfl

lemma mem_erase {e : K × V} : e ∈ (c.erase k).entries ↔ e ∈ c.entries ∧ e.1 ≠ k := by
  simp [erase]

@[simp] lemma erase_maxEntries (c : BoundedFifo K V) (k : K) : (c.erase k).maxEntries = c.maxEntries := rfl

/-! ## Insertion -/

@[simp] lemma insert_maxEntries (c : BoundedFifo K V) (k : K) (v : V) : (c.insert k v).maxEntries = c.maxEntries := rfl

/-- **No loss below the bound**: a new key is appended -/
lemma insert_of_room {v : V} (hk : k ∉ c.entries.map Prod.fst) (hl : c.entries.length < c.maxEntries) :
    (c.insert k v).entries = c.entries ++ [(k, v)] := by
  simp only [insert, insertList]
  rw [if_neg (by omega), if_neg hk, if_neg (by omega)]

lemma insertAll_maxEntries (c : BoundedFifo K V) (l : List (K × V)) : (c.insertAll l).maxEntries = c.maxEntries := by
  induction l generalizing c with
  | nil => rfl
  | cons e l ih => exact ih _

/-- a whole batch of new keys fits when there is room for all of them -/
lemma insertAll_of_room (hn : ((c.entries ++ l).map Prod.fst).Nodup) (hl : c.entries.length + l.length ≤ c.maxEntries) :
    (c.insertAll l).entries = c.entries ++ l := by
  induction l generalizing c with
  | nil => simp [insertAll]
  | cons e l ih =>
    simp only [length_cons] at hl
    have hk : e.1 ∉ c.entries.map Prod.fst := by
      intro hc
      rw [map_append, nodup_append] at hn
      exact hn.2.2 _ hc _ (by simp) rfl
    have he := insert_of_room (v := e.2) hk (by omega)
    have := ih (c := c.insert e.1 e.2) (by rw [he]; simpa using hn) (by rw [he]; simp; omega)
    rw [he, append_assoc] at this
    exact this

/-- **Rebuilding**: inserting the entries of a cache in order into an empty one gives the cache back -/
lemma ofEntries_entries (c : BoundedFifo K V) : (empty c.maxEntries).insertAll c.entries = c := by
  apply ext_entries
  · rw [insertAll_maxEntries]; rfl
  · rw [insertAll_of_room (by simpa using c.keysNodup) (by simpa using c.bounded)]; rfl

end BoundedFifo

end PqMsg.Lib
