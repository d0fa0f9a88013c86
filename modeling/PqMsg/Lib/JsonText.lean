/-
Flat JSON objects as texts: an object is a list of fields in the order in which they are written, and a writer is given by the
way it quotes strings.

`serdeQuote` is the writer of `serde_json` (`format_escaped_str`), `jsQuote` is `JSON.stringify` (`QuoteJSONString`). They
agree on every text (`serdeQuote_eq_jsQuote`), so that two writers differ only if they order the fields differently.
`sortKeys` is the order of a `serde_json::Map`; `sortKeys_head` finds its first field, and `render_ne` tells two texts apart by
their first keys.
-/
import Mathlib.Data.List.Sort
import Mathlib.Data.String.Basic
import Mathlib.Tactic

namespace PqMsg.Lib.JsonText

inductive Value where
  | null
  | number (n : ℕ)
  | text (s : String)
  | map (entries : List (String × String))
deriving DecidableEq

/-- `None` is written as `null` -/
def Value.ofOption : Option String → Value
  | none => .null
  | some s => .text s

abbrev Object := List (String × Value)

/-! ## Strings -/

/-- `format_escaped_str_contents` with its table `ESCAPE` -/
def serdeEscape (c : Char) : List Char :=
  if c = '\x08' then ['\\', 'b']
  else if c = '\t' then ['\\', 't']
  else if c = '\n' then ['\\', 'n']
  else if c = '\x0C' then ['\\', 'f']
  else if c = '\r' then ['\\', 'r']
  else if c = '"' then ['\\', '"']
  else if c = '\\' then ['\\', '\\']
  else if c.toNat < 0x20 then ['\\', 'u', '0', '0', Nat.digitChar (c.toNat / 16), Nat.digitChar (c.toNat % 16)]
  else [c]

/-- `UnicodeEscape`: four hexadecimal digits -/
def unicodeEscape (n : ℕ) : List Char :=
  ['\\', 'u', Nat.digitChar (n / 4096 % 16), Nat.digitChar (n / 256 % 16), Nat.digitChar (n / 16 % 16),
    Nat.digitChar (n % 16)]

/-- one code point in `QuoteJSONString`; texts have no lone surrogates -/
def jsEscape (c : Char) : List Char :=
  match c with
  | '\x08' => ['\\', 'b']
  | '\t' => ['\\', 't']
  | '\n' => ['\\', 'n']
  | '\x0C' => ['\\', 'f']
  | '\r' => ['\\', 'r']
  | '"' => ['\\', '"']
  | '\\' => ['\\', '\\']
  | c => if c.toNat < 0x20 then unicodeEscape c.toNat else [c]

def serdeQuote (s : String) : List Char := '"' :: s.toList.flatMap serdeEscape ++ ['"']

def jsQuote (s : String) : List Char := '"' :: s.toList.flatMap jsEscape ++ ['"']

lemma serdeEscape_eq_jsEscape (c : Char) : serdeEscape c = jsEscape c := by
  unfold jsEscape
  split
  case h_8 _ h1 h2 h3 h4 h5 h6 h7 =>
    rw [serdeEscape, if_neg h1, if_neg h2, if_neg h3, if_neg h4, if_neg h5, if_neg h6, if_neg h7]
    split_ifs with hcontrol
    · -- the first two of the four digits of a control character are zero
      have hfirst : c.toNat / 4096 % 16 = 0 := by omega
      have hsecond : c.toNat / 256 % 16 = 0 := by omega
      have hthird : c.toNat / 16 % 16 = c.toNat / 16 := by omega
      rw [unicodeEscape, hfirst, hsecond, hthird]
      rfl
    · rfl
  all_goals rfl

/-- **The two writers agree** on every text -/
lemma serdeQuote_eq_jsQuote : serdeQuote = jsQuote := by
  funext s
  rw [serdeQuote, jsQuote, funext serdeEscape_eq_jsEscape]

/-! ## Objects -/

def renderValue (quote : String → List Char) : Value → List Char
  | .null => "null".toList
  | .number n => (toString n).toList
  | .text s => quote s
  | .map entries => '{' :: List.intercalate [','] (entries.map fun e => quote e.1 ++ ':' :: quote e.2) ++ ['}']

def render (quote : String → List Char) (fields : Object) : List Char :=
  '{' :: List.intercalate [','] (fields.map fun f => quote f.1 ++ ':' :: renderValue quote f.2) ++ ['}']

/-- the fields of a `serde_json::Map` are sorted by their keys -/
def sortKeys (fields : Object) : Object := fields.insertionSort fun f g => f.1 ≤ g.1

/-- the field with the smallest key comes first -/
lemma sortKeys_head {fields : Object} {f : String × Value} (hf : f ∈ fields) (hmin : ∀ g ∈ fields, g = f ∨ f.1 < g.1) :
    ∃ rest, sortKeys fields = f :: rest := by
  have hperm := List.perm_insertionSort (fun f g : String × Value => f.1 ≤ g.1) fields
  have hsorted := List.pairwise_insertionSort (fun f g : String × Value => f.1 ≤ g.1) fields
  have hmem : f ∈ sortKeys fields := hperm.mem_iff.2 hf
  cases hsort : sortKeys fields with
  | nil =>
    rw [hsort] at hmem
    cases hmem
  | cons g rest =>
    refine ⟨rest, ?_⟩
    have hg : g ∈ fields := hperm.mem_iff.1 (by rw [← sortKeys, hsort]; exact (.head _))
    rcases hmin g hg with rfl | hlt
    · rfl
    · -- otherwise `f` is behind `g`, which has the larger key
      rw [← sortKeys, hsort] at hsorted
      rw [hsort] at hmem
      rcases List.mem_cons.1 hmem with rfl | hmem
      · rfl
      · exact absurd ((List.pairwise_cons.1 hsorted).1 f hmem) (not_le.2 hlt)

/-- objects whose first keys are quoted differently from the start have different texts -/
lemma render_ne {quote : String → List Char} {f g : String × Value} {fs gs : Object} {n : ℕ}
    (hf : n < (quote f.1).length) (hg : n < (quote g.1).length) (h : (quote f.1)[n]? ≠ (quote g.1)[n]?) :
    render quote (f :: fs) ≠ render quote (g :: gs) := by
  have hget : ∀ (e : String × Value) (es : Object), n < (quote e.1).length →
      (render quote (e :: es))[n + 1]? = (quote e.1)[n]? := by
    intro e es he
    cases es with
    | nil | cons => simp [render, List.intercalate, List.getElem?_append_left he]
  intro heq
  rw [← hget f fs hf, ← hget g gs hg, heq] at h
  exact h rfl

end PqMsg.Lib.JsonText
