/-
Texts at the server: the functions of `str` that its checks use, their bytes, and `hex::encode`.

- `utf8_append`: the bytes of a joined text are the joined bytes.
- `mem_utf8`: a character below 128 is in a text exactly when its byte is among the bytes of the text.
-/
import Mathlib.Data.List.DropRight
import PqMsg.Handshake.Message

namespace PqMsg.Server

open Handshake List String

/-! ## `str` -/

/-- `char::is_whitespace` -/
def isWhitespace (c : Char) : Bool :=
  let n := c.toNat
  (9 ≤ n && n ≤ 13) || n == 0x20 || n == 0x85 || n == 0xA0 || n == 0x1680 || (0x2000 ≤ n && n ≤ 0x200A) ||
    n == 0x2028 || n == 0x2029 || n == 0x202F || n == 0x205F || n == 0x3000

/-- `str::trim` -/
def trim (value : String) : String := String.ofList ((value.toList.dropWhile isWhitespace).rdropWhile isWhitespace)

/-- `str::len` -/
def len (value : String) : ℕ := value.utf8ByteSize

/-! ## Bytes of texts -/

lemma utf8_eq (s : String) : utf8 s = s.toList.flatMap utf8EncodeChar := by
  have h : s.toByteArray = s.toList.utf8Encode := by
    rw [← toByteArray_ofList, ofList_toList]
  unfold utf8 toUTF8
  rw [h]
  simp [List.utf8Encode]

lemma length_utf8 (s : String) : (utf8 s).length = len s := rfl

/-- only a character below 128 has a byte below 128 -/
lemma mem_utf8EncodeChar {c d : Char} (hc : c.val.toNat ≤ 127) : UInt8.ofNat c.val.toNat ∈ utf8EncodeChar d ↔ d = c := by
  have heq : ∀ n : ℕ, n ≤ 255 → (UInt8.ofNat c.val.toNat = UInt8.ofNat n ↔ c.val.toNat = n) := by
    intro n hn
    rw [← UInt8.toNat_inj, UInt8.toNat_ofNat', UInt8.toNat_ofNat']
    omega
  have hd : d = c ↔ c.val.toNat = d.val.toNat := by
    rw [UInt32.toNat_inj, Char.val_inj, eq_comm]
  have hrange := d.val.toNat_lt
  rw [hd, utf8EncodeChar]
  split_ifs with h1 h2 h3
  · rw [mem_singleton, heq _ (by omega)]
  -- the bytes of the other characters are above 127
  · simp only [mem_cons, not_mem_nil, or_false]
    rw [heq _ (by omega), heq _ (by omega)]
    omega
  · simp only [mem_cons, not_mem_nil, or_false]
    rw [heq _ (by omega), heq _ (by omega), heq _ (by omega)]
    omega
  · simp only [mem_cons, not_mem_nil, or_false]
    rw [heq _ (by omega), heq _ (by omega), heq _ (by omega), heq _ (by omega)]
    omega

lemma mem_utf8 {s : String} {c : Char} (hc : c.val.toNat ≤ 127) : UInt8.ofNat c.val.toNat ∈ utf8 s ↔ c ∈ s.toList := by
  rw [utf8_eq, mem_flatMap]
  constructor
  · intro h
    obtain ⟨d, hd, hmem⟩ := h
    rwa [← (mem_utf8EncodeChar hc).1 hmem]
  · intro h
    exact ⟨c, h, (mem_utf8EncodeChar hc).2 rfl⟩

/-- the byte of `:` -/
def colon : UInt8 := 58

lemma colon_mem_utf8 {s : String} : colon ∈ utf8 s ↔ ':' ∈ s.toList := mem_utf8 (c := ':') (by decide)

/-! ## Hexadecimal -/

/-- `hex::encode` -/
def hexEncode (data : Bytes) : String :=
  String.ofList (data.flatMap fun x => [Nat.digitChar (x.toNat / 16), Nat.digitChar (x.toNat % 16)])

lemma digitChar_inj {a b : ℕ} (ha : a < 16) (hb : b < 16) (h : Nat.digitChar a = Nat.digitChar b) : a = b := by
  have hall : ∀ a b : Fin 16, Nat.digitChar a = Nat.digitChar b → a = b := by decide
  exact congrArg Fin.val (hall ⟨a, ha⟩ ⟨b, hb⟩ h)

lemma hexEncode_injective : Function.Injective hexEncode := by
  intro x y h
  have hlist := congrArg toList h
  rw [hexEncode, hexEncode, toList_ofList, toList_ofList] at hlist
  induction x generalizing y with
  | nil =>
    cases y with
    | nil => rfl
    | cons => simp at hlist
  | cons a x ih =>
    cases y with
    | nil => simp at hlist
    | cons b =>
      simp only [flatMap_cons, cons_append, nil_append, List.cons.injEq] at hlist
      obtain ⟨hhigh, hlow, htail⟩ := hlist
      have hab : a = b := by
        have ha := a.toNat_lt
        have hb := b.toNat_lt
        have h1 := digitChar_inj (by omega) (by omega) hhigh
        have h2 := digitChar_inj (by omega) (by omega) hlow
        apply UInt8.toNat_inj.1
        omega
      rw [hab, ih (by rw [hexEncode, hexEncode, htail]) htail]

end PqMsg.Server
