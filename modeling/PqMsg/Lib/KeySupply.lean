/-
Keys that are used at most once, over arbitrary keys.

A party holds some keys (`held`, derived and stored) and can still derive others (`fresh`). `Supply held fresh` says
that no key is held twice and that no held key can be derived again; `live` is the set of keys the party can still come
by. The operations of a party are drawing fresh keys into the store (`Draws`), forgetting keys (`Supply.shrink`) and
using a key, from the store (`Supply.erase_gone`) or straight from the fresh ones (`Supply.draw_gone`): all keep the
supply, make no key live, and a used key is not live afterwards.

The store is a `BoundedFifo`, whose insertions may drop keys.
-/
import PqMsg.Lib.BoundedFifo

namespace PqMsg.Lib

open List List.Sublist

variable {K : Type} {held held' ks : List K} {fresh fresh' : Set K}

structure Supply (held : List K) (fresh : Set K) : Prop where
  nodup : held.Nodup
  apart : ∀ k ∈ held, k ∉ fresh

/-- the keys that are held or can be derived -/
def live (held : List K) (fresh : Set K) : Set K := { k | k ∈ held ∨ k ∈ fresh }

lemma live_mono (hh : held' ⊆ held) (hf : fresh' ⊆ fresh) : live held' fresh' ⊆ live held fresh := by
  rintro k (hk | hk)
  · exact .inl (hh hk)
  · exact .inr (hf hk)

lemma Supply.shrink (h : Supply held fresh) (hh : held'.Sublist held) (hf : fresh' ⊆ fresh) : Supply held' fresh' :=
  ⟨h.nodup.sublist hh, fun k hk hk' => h.apart k (hh.subset hk) (hf hk')⟩

/-- the keys `ks` are derived: they are fresh before and no longer after -/
structure Draws (fresh fresh' : Set K) (ks : List K) : Prop where
  nodup : ks.Nodup
  drawn : ∀ k ∈ ks, k ∈ fresh
  gone : ∀ k ∈ ks, k ∉ fresh'
  rest : fresh' ⊆ fresh

lemma Supply.draw (h : Supply held fresh) (hd : Draws fresh fresh' ks) : Supply (held ++ ks) fresh' := by
  refine ⟨nodup_append.2 ⟨h.nodup, hd.nodup, ?_⟩, ?_⟩
  · intro a ha b hb hab
    exact h.apart a ha (hd.drawn a (hab ▸ hb))
  · intro k hk
    rcases mem_append.1 hk with hk | hk
    · exact fun hf => h.apart k hk (hd.rest hf)
    · exact hd.gone k hk

lemma Draws.live_subset (hd : Draws fresh fresh' ks) : live (held ++ ks) fresh' ⊆ live held fresh := by
  rintro k (hk | hk)
  · rcases mem_append.1 hk with hk | hk
    · exact .inl hk
    · exact .inr (hd.drawn k hk)
  · exact .inr (hd.rest hk)

/-- a key that is derived and used at once is not live any more -/
lemma Supply.draw_gone {k : K} (h : Supply held fresh) (hd : Draws fresh fresh' [k]) : k ∉ live held fresh' := by
  have hk : k ∈ [k] := mem_singleton_self k
  rintro (hh | hf)
  · exact h.apart k hh (hd.drawn k hk)
  · exact hd.gone k hk hf

/-! ## The store -/

namespace BoundedFifo

variable {I : Type} (c : BoundedFifo I K)

def values : List K := c.entries.map Prod.snd

variable [DecidableEq I]

lemma insertList_sublist (n : ℕ) (l : List (I × K)) (i : I) (v : K) : (insertList n l i v).Sublist (l ++ [(i, v)]) := by
  unfold insertList
  split_ifs
  · exact sublist_append_left _ _
  · exact sublist_append_left _ _
  · exact (tail_sublist l).append (refl _)
  · exact refl _

/-- insertions add nothing else, and keep the order -/
lemma insertAll_sublist (l : List (I × K)) : (c.insertAll l).entries.Sublist (c.entries ++ l) := by
  induction l generalizing c with
  | nil => rw [append_nil]; exact refl _
  | cons e l ih =>
    have hstep := (insertList_sublist c.maxEntries c.entries e.1 e.2).append (refl l)
    rw [append_assoc] at hstep
    exact (ih (c.insert e.1 e.2)).trans hstep

lemma insertAll_values (l : List (I × K)) : (c.insertAll l).values.Sublist (c.values ++ l.map Prod.snd) := by
  unfold values
  rw [← map_append]
  exact (c.insertAll_sublist l).map Prod.snd

lemma erase_values (i : I) : (c.erase i).values.Sublist c.values :=
  filter_sublist.map Prod.snd

lemma mem_values_of_lookup {c : BoundedFifo I K} {i : I} {v : K} (h : c.lookup i = some v) : v ∈ c.values :=
  mem_map.2 ⟨(i, v), lookup_eq_some.1 h, rfl⟩

end BoundedFifo

/-- a key that is taken from the store is not live any more -/
lemma Supply.erase_gone {I : Type} [DecidableEq I] {c : BoundedFifo I K} {i : I} {v : K}
    (h : Supply c.values fresh) (hl : c.lookup i = some v) : v ∉ live (c.erase i).values fresh := by
  rintro (hv | hf)
  · obtain ⟨⟨j, w⟩, he, hw⟩ := mem_map.1 hv
    obtain ⟨he, hj⟩ := BoundedFifo.mem_erase.1 he
    have hsame := inj_on_of_nodup_map h.nodup he (BoundedFifo.lookup_eq_some.1 hl) hw
    exact hj (congrArg Prod.fst hsame)
  · exact h.apart v (BoundedFifo.mem_values_of_lookup hl) hf

end PqMsg.Lib
