/-
Bytes, fixed-width arrays, big-endian integers and the error type of `pqmsg-core`.

- `Bytes` is a Rust `Vec<u8>` or `&[u8]`; `ByteArr n` is `[u8; n]` and carries its length, so a decoder that returns
  one has checked it.
- `be16`, `be32`, `beU64` are `to_be_bytes`; `ofBe16`, `ofBe32` are `from_be_bytes`.
- `CoreError` is `error.rs`, restricted to the variants that the modelled functions return.
-/
import Mathlib.Tactic

namespace PqMsg

abbrev Bytes := List UInt8

instance Bytes.lawfulBEq : LawfulBEq Bytes := inferInstance

/-- a Rust byte array `[u8; n]` -/
abbrev ByteArr (n : ℕ) := { b : Bytes // b.length = n }

/-- `[x; n]` -/
def ByteArr.replicate (n : ℕ) (x : UInt8) : ByteArr n := ⟨List.replicate n x, List.length_replicate⟩

inductive CoreError where
  | invalidLength (field : String) (expected actual : ℕ)
  | invalidTlv (reason : String)
  | unknownCriticalTlv (ty : UInt16)
  | duplicateTlv (ty : UInt16)
  | missingField (field : String)
  | signatureVerificationFailed
  | aeadOperation
  | kemOperation
  | unsupportedAlgorithm (what : String)
  | messageParsing (reason : String)
  | messageKeyUnavailable
  | pqRatchetDisabled
  | policyViolation (what : String)
  | invalidUtf8 (field : String)
deriving DecidableEq, Repr

/-- `?` passes on successes only -/
lemma bind_ok {ε α β : Type} {x : Except ε α} {f : α → Except ε β} {b : β} :
    (x >>= f) = .ok b ↔ ∃ a, x = .ok a ∧ f a = .ok b := by
  cases x with
  | error | ok => simp [bind, Except.bind]

/-- a check that returns an error early is passed -/
lemma check_ok {ε α : Type} {c : Prop} [Decidable c] {e : ε} {x : Except ε α} {a : α} :
    (if c then .error e else x) = .ok a ↔ ¬c ∧ x = .ok a := by
  split_ifs with h <;> simp [h]

lemma isOk_iff {ε α : Type} {x : Except ε α} : x.isOk = true ↔ ∃ a, x = .ok a := by
  cases x <;> simp [Except.isOk, Except.toBool]

/-- changing the error keeps successes -/
lemma mapError_ok {ε ε' α : Type} {x : Except ε α} {f : ε → ε'} {a : α} : x.mapError f = .ok a ↔ x = .ok a := by
  cases x <;> simp [Except.mapError]

/-- `u16::MAX` -/
def u16Max : ℕ := 65535

/-- `u32::MAX` -/
def u32Max : UInt32 := 4294967295

/-! ## Big-endian integers -/

def be16 (x : UInt16) : Bytes := [UInt8.ofNat (x.toNat / 256), x.toUInt8]

def ofBe16 (a b : UInt8) : UInt16 := UInt16.ofNat (a.toNat * 256 + b.toNat)

def be32 (x : UInt32) : Bytes :=
  [UInt8.ofNat (x.toNat / 16777216), UInt8.ofNat (x.toNat / 65536), UInt8.ofNat (x.toNat / 256), x.toUInt8]

def ofBe32 (a b c d : UInt8) : UInt32 :=
  UInt32.ofNat (a.toNat * 16777216 + b.toNat * 65536 + c.toNat * 256 + d.toNat)

/-- `u64::to_be_bytes` -/
def beU64 (x : UInt64) : Bytes :=
  [UInt8.ofNat (x.toNat / 2 ^ 56), UInt8.ofNat (x.toNat / 2 ^ 48), UInt8.ofNat (x.toNat / 2 ^ 40),
    UInt8.ofNat (x.toNat / 2 ^ 32), UInt8.ofNat (x.toNat / 2 ^ 24), UInt8.ofNat (x.toNat / 2 ^ 16),
    UInt8.ofNat (x.toNat / 2 ^ 8), UInt8.ofNat x.toNat]

@[simp] lemma be16_length (x : UInt16) : (be16 x).length = 2 := rfl

@[simp] lemma be32_length (x : UInt32) : (be32 x).length = 4 := rfl

@[simp] lemma ofBe16_be16 (x : UInt16) : ofBe16 (UInt8.ofNat (x.toNat / 256)) x.toUInt8 = x := by
  have hx := x.toNat_lt
  apply UInt16.toNat_inj.1
  simp only [ofBe16, UInt16.toNat_ofNat', UInt8.toNat_ofNat', UInt16.toNat_toUInt8]
  omega

@[simp] lemma ofBe32_be32 (x : UInt32) :
    ofBe32 (UInt8.ofNat (x.toNat / 16777216)) (UInt8.ofNat (x.toNat / 65536)) (UInt8.ofNat (x.toNat / 256)) x.toUInt8 = x := by
  have hx := x.toNat_lt
  apply UInt32.toNat_inj.1
  simp only [ofBe32, UInt32.toNat_ofNat', UInt8.toNat_ofNat', UInt32.toNat_toUInt8]
  omega

/-- the two bytes read back are the two bytes written -/
lemma be16_ofBe16 (a b : UInt8) : be16 (ofBe16 a b) = [a, b] := by
  have ha := a.toNat_lt
  have hb := b.toNat_lt
  have h : (ofBe16 a b).toNat = a.toNat * 256 + b.toNat := by
    simp only [ofBe16, UInt16.toNat_ofNat']; omega
  simp only [be16, h, List.cons.injEq, and_true]
  constructor
  · apply UInt8.toNat_inj.1; simp only [UInt8.toNat_ofNat']; omega
  · apply UInt8.toNat_inj.1; simp only [UInt16.toNat_toUInt8, h]; omega

lemma be32_ofBe32 (a b c d : UInt8) : be32 (ofBe32 a b c d) = [a, b, c, d] := by
  have ha := a.toNat_lt
  have hb := b.toNat_lt
  have hc := c.toNat_lt
  have hd := d.toNat_lt
  have h : (ofBe32 a b c d).toNat = a.toNat * 16777216 + b.toNat * 65536 + c.toNat * 256 + d.toNat := by
    simp only [ofBe32, UInt32.toNat_ofNat']; omega
  simp only [be32, h, List.cons.injEq, and_true]
  refine ⟨?_, ?_, ?_, ?_⟩
  · apply UInt8.toNat_inj.1; simp only [UInt8.toNat_ofNat']; omega
  · apply UInt8.toNat_inj.1; simp only [UInt8.toNat_ofNat']; omega
  · apply UInt8.toNat_inj.1; simp only [UInt8.toNat_ofNat']; omega
  · apply UInt8.toNat_inj.1; simp only [UInt32.toNat_toUInt8, h]; omega

lemma be16_injective : Function.Injective be16 := by
  intro x y h
  simp only [be16, List.cons.injEq, and_true] at h
  rw [← ofBe16_be16 x, ← ofBe16_be16 y, h.1, h.2]

lemma be32_injective : Function.Injective be32 := by
  intro x y h
  simp only [be32, List.cons.injEq, and_true] at h
  rw [← ofBe32_be32 x, ← ofBe32_be32 y, h.1, h.2.1, h.2.2.1, h.2.2.2]

lemma beU64_injective : Function.Injective beU64 := by
  intro x y h
  have hx := x.toNat_lt
  have hy := y.toNat_lt
  simp only [beU64, List.cons.injEq, ← UInt8.toNat_inj, UInt8.toNat_ofNat', and_true] at h
  apply UInt64.toNat_inj.1
  omega

end PqMsg
