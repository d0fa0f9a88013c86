/-
The cursor of the strict TLV decoder, and the grammar it accepts.

`decode_with_policy` reads a slice with an index. `cursorLoop` is that loop: the slice is a function from indices to bytes,
with a length, and nothing but the comparisons of the source keeps the loop inside of it. The list of bytes that
`Tlv.decodeLoop` has not read yet is what is left of the slice behind the cursor.

- `cursorLoop_eq`: the loop does what `decodeLoop` does on the bytes from the cursor to the end of the slice.
- `decodeSlice_eq`: decoding a slice is decoding the list of its bytes, wherever it lies in memory.
- `strict_grammar`: strict decoding accepts exactly the encodings of records with different types whose critical types are
  known; it depends on no byte outside the slice; and no two inputs are read as the same records.
-/
import PqMsg.Core.Tlv

namespace PqMsg.Tlv

open List

/-! ## The loop with a cursor -/

/-- `input[start .. start + n]` -/
def slice (input : ℕ → UInt8) (start n : ℕ) : Bytes := (List.range n).map fun k => input (start + k)

/-- the `while` loop of `decode_with_policy` -/
def cursorLoop (input : ℕ → UInt8) (len : ℕ) (known : List UInt16) (policy : DecodePolicy) :
    ℕ → ℕ → List UInt16 → List TlvRecord → Except CoreError (List TlvRecord)
  | 0, _, _, records => .ok records
  | fuel + 1, cursor, seen, records =>
    if len ≤ cursor then .ok records
    else if len - cursor < 4 then .error (.invalidTlv "truncated header")
    else
      let ty := ofBe16 (input cursor) (input (cursor + 1))
      let n := (ofBe16 (input (cursor + 2)) (input (cursor + 3))).toNat
      if len - (cursor + 4) < n then .error (.invalidTlv "declared length exceeds input")
      else if policy.rejectUnknownCritical ∧ ty ∉ known ∧ isCritical ty then .error (.unknownCriticalTlv ty)
      else if policy.rejectDuplicates ∧ ty ∈ seen then .error (.duplicateTlv ty)
      else cursorLoop input len known policy fuel (cursor + 4 + n) (ty :: seen)
        (records ++ [⟨ty, slice input (cursor + 4) n⟩])

/-- `decode_strict` on the slice of `len` bytes at an address -/
def decodeSlice (memory : ℕ → UInt8) (address len : ℕ) (known : List UInt16) : Except CoreError (List TlvRecord) :=
  cursorLoop (fun i => memory (address + i)) len known .strict len 0 [] []

/-! ## Slices -/

variable {input : ℕ → UInt8}

@[simp] lemma slice_length (start n : ℕ) : (slice input start n).length = n := by simp [slice]

@[simp] lemma slice_zero (start : ℕ) : slice input start 0 = [] := rfl

lemma slice_succ (start n : ℕ) : slice input start (n + 1) = input start :: slice input (start + 1) n := by
  simp only [slice, range_succ_eq_map, map_cons, Nat.add_zero, map_map, List.cons.injEq, true_and]
  refine map_congr_left fun k _ => congrArg input ?_
  omega

/-- a slice is cut at any place -/
lemma slice_append (start n m : ℕ) : slice input start (n + m) = slice input start n ++ slice input (start + n) m := by
  induction n generalizing start with
  | zero => rw [Nat.zero_add, Nat.add_zero, slice_zero, nil_append]
  | succ n ih =>
    rw [Nat.succ_add, slice_succ, slice_succ, ih, cons_append]
    congr 3
    omega

lemma slice_congr {other : ℕ → UInt8} {start start' n : ℕ} (h : ∀ k < n, input (start + k) = other (start' + k)) :
    slice input start n = slice other start' n :=
  map_congr_left fun k hk => h k (mem_range.1 hk)

/-! ## The loop reads the bytes of the slice -/

variable {len : ℕ} {known : List UInt16} {policy : DecodePolicy}

/-- the bytes behind the cursor, up to the end of the slice -/
lemma cursorLoop_eq (fuel cursor : ℕ) (seen : List UInt16) (records : List TlvRecord) (hcursor : cursor ≤ len)
    (hfuel : len - cursor ≤ fuel) :
    cursorLoop input len known policy fuel cursor seen records =
      (decodeLoop known policy fuel (slice input cursor (len - cursor)) seen).map (records ++ ·) := by
  induction fuel generalizing cursor seen records with
  | zero =>
    obtain rfl : cursor = len := by omega
    simp [cursorLoop, decodeLoop, Except.map]
  | succ fuel ih =>
    obtain hend | hshort | ⟨m, hm⟩ : len - cursor = 0 ∨ (0 < len - cursor ∧ len - cursor < 4) ∨ ∃ m, len - cursor = m + 4 := by
      rcases Nat.lt_or_ge (len - cursor) 4 with h | h
      · omega
      · exact .inr (.inr ⟨len - cursor - 4, by omega⟩)
    · rw [cursorLoop, if_pos (by omega), hend, slice_zero]
      simp [decodeLoop, Except.map]
    · rw [cursorLoop, if_neg (by omega), if_pos hshort.2]
      -- one, two or three bytes are no header
      obtain hone | htwo | hthree : len - cursor = 1 ∨ len - cursor = 2 ∨ len - cursor = 3 := by omega
      · simp [hone, slice_succ, decodeLoop, Except.map]
      · simp [htwo, slice_succ, decodeLoop, Except.map]
      · simp [hthree, slice_succ, decodeLoop, Except.map]
    · rw [cursorLoop, if_neg (by omega), if_neg (by omega), hm, slice_succ, slice_succ, slice_succ, slice_succ]
      simp only [decodeLoop, slice_length]
      have hrest : len - (cursor + 4) = m := by omega
      rw [hrest]
      generalize hn : (ofBe16 (input (cursor + 1 + 1)) (input (cursor + 1 + 1 + 1))).toNat = n
      generalize ofBe16 (input cursor) (input (cursor + 1)) = ty
      split_ifs with hlen hcritical hdup
      · rfl
      · rfl
      · rfl
      · -- the value is cut off, and the loop goes on behind it
        obtain ⟨k, rfl⟩ : ∃ k, m = n + k := ⟨m - n, by omega⟩
        have hleft : len - (cursor + 4 + n) = k := by omega
        rw [ih _ _ _ (by omega) (by omega), hleft, slice_append]
        rw [take_left' (slice_length _ _), drop_left' (slice_length _ _)]
        cases decodeLoop known policy fuel (slice input (cursor + 4 + n) k) (ty :: seen) with
        | error => rfl
        | ok => simp [Except.map]

/-- **Decoding a slice** is decoding the list of its bytes -/
lemma decodeSlice_eq (memory : ℕ → UInt8) (address len : ℕ) (known : List UInt16) :
    decodeSlice memory address len known = decodeStrict (slice memory address len) known := by
  have hbytes : slice (fun i => memory (address + i)) 0 len = slice memory address len :=
    slice_congr fun k _ => by rw [Nat.zero_add]
  unfold decodeSlice decodeStrict decodeWithPolicy
  rw [cursorLoop_eq len 0 [] [] (Nat.zero_le len) (Nat.sub_le len 0), Nat.sub_zero, hbytes, slice_length]
  cases decodeLoop known .strict len (slice memory address len) [] with
  | error | ok => rfl

/-- **Strict TLV is an exact grammar.** An input is decoded to `rs` exactly when `rs` encodes to it, has different types, and
its critical types are known. The cursor loop decodes the bytes of its slice, wherever they are stored and whatever is stored
around them. Different inputs are never decoded to the same records, with whatever known types. -/
theorem strict_grammar :
    (∀ (b : Bytes) (known : List UInt16) (rs : List TlvRecord), decodeStrict b known = .ok rs ↔
      encode rs = .ok b ∧ (rs.map TlvRecord.ty).Nodup ∧ ∀ r ∈ rs, isCritical r.ty = true → r.ty ∈ known) ∧
    (∀ (memory : ℕ → UInt8) (address len : ℕ) (known : List UInt16),
      decodeSlice memory address len known = decodeStrict (slice memory address len) known) ∧
    (∀ (memory memory' : ℕ → UInt8) (address address' len : ℕ) (known : List UInt16),
      (∀ k < len, memory (address + k) = memory' (address' + k)) →
        decodeSlice memory address len known = decodeSlice memory' address' len known) ∧
    ∀ (b b' : Bytes) (known known' : List UInt16) (rs : List TlvRecord), decodeStrict b known = .ok rs →
      decodeStrict b' known' = .ok rs → b = b' := by
  refine ⟨fun b known rs => decodeStrict_iff b rs, decodeSlice_eq, ?_, ?_⟩
  · intro memory memory' address address' len known h
    rw [decodeSlice_eq, decodeSlice_eq, slice_congr h]
  · intro b b' known known' rs h h'
    have hencode := ((decodeStrict_iff b rs).1 h).1
    have hencode' := ((decodeStrict_iff b' rs).1 h').1
    exact Except.ok.inj (hencode.symm.trans hencode')

end PqMsg.Tlv
