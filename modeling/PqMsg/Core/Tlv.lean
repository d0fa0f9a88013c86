/-
The strict TLV codec (`tlv.rs`).

`encode` writes each record as type, length (both big-endian `u16`) and value. `decodeWithPolicy` walks the input with a
cursor; here the cursor is the list of bytes not read yet, and `fuel` bounds the number of records (every record takes
at least four bytes, so `input.length` is enough).

- `encode_decodeLoop` / `decodeLoop_encode`: reading back and writing back, with the policy's conditions.
- `decodeStrict_iff`: strict decoding accepts exactly the encodings of record lists with pairwise different types whose
  critical types are known.
-/
import PqMsg.Core.Bytes

namespace PqMsg.Tlv

open List Except UInt16

def criticalBit : UInt16 := 0x8000

structure TlvRecord where
  ty : UInt16
  value : Bytes
deriving DecidableEq, Repr

structure DecodePolicy where
  rejectUnknownCritical : Bool
  rejectDuplicates : Bool
deriving DecidableEq, Repr

/-- `DecodePolicy::default()` -/
def DecodePolicy.strict : DecodePolicy := ⟨true, true⟩

def criticalType (base : UInt16) : UInt16 := base ||| criticalBit

def isCritical (ty : UInt16) : Bool := (ty &&& criticalBit) == criticalBit

def encode : List TlvRecord → Except CoreError Bytes
  | [] => .ok []
  | r :: rs =>
    if r.value.length > u16Max then .error (.invalidLength "tlv.value" u16Max r.value.length)
    else
      match encode rs with
      | .error e => .error e
      | .ok out => .ok (be16 r.ty ++ be16 (UInt16.ofNat r.value.length) ++ r.value ++ out)

/-- the `while` loop of `decode_with_policy`; the second argument is the input from the cursor on -/
def decodeLoop (known : List UInt16) (policy : DecodePolicy) : ℕ → Bytes → List UInt16 → Except CoreError (List TlvRecord)
  | _, [], _ => .ok []
  | fuel + 1, t1 :: t0 :: l1 :: l0 :: rest, seen =>
    let ty := ofBe16 t1 t0
    let len := (ofBe16 l1 l0).toNat
    if rest.length < len then .error (.invalidTlv "declared length exceeds input")
    else if policy.rejectUnknownCritical ∧ ty ∉ known ∧ isCritical ty then .error (.unknownCriticalTlv ty)
    else if policy.rejectDuplicates ∧ ty ∈ seen then .error (.duplicateTlv ty)
    else
      match decodeLoop known policy fuel (rest.drop len) (ty :: seen) with
      | .error e => .error e
      | .ok rs => .ok (⟨ty, rest.take len⟩ :: rs)
  | _, _, _ => .error (.invalidTlv "truncated header")

def decodeWithPolicy (input : Bytes) (known : List UInt16) (policy : DecodePolicy) : Except CoreError (List TlvRecord) :=
  decodeLoop known policy input.length input []

def decodeStrict (input : Bytes) (known : List UInt16) : Except CoreError (List TlvRecord) :=
  decodeWithPolicy input known .strict

/-- `build_record_map` followed by `get`: collecting into a `HashMap` keeps the last value of a type -/
def recordMap (records : List TlvRecord) (ty : UInt16) : Option Bytes :=
  (records.reverse.find? (fun r => r.ty = ty)).map TlvRecord.value

def requireFromMap (records : List TlvRecord) (ty : UInt16) (field : String) : Except CoreError Bytes :=
  match recordMap records ty with
  | some v => .ok v
  | none => .error (.missingField field)

/-! ## Encoding -/

variable {rs : List TlvRecord} {b : Bytes} {rs' : List TlvRecord} {r : TlvRecord}

lemma encode_cons_ok : encode (r :: rs) = .ok b ↔ r.value.length ≤ u16Max ∧ ∃ out, encode rs = .ok out ∧
      b = be16 r.ty ++ be16 (ofNat r.value.length) ++ r.value ++ out := by
  constructor
  · intro h
    simp only [encode] at h
    split_ifs at h with hl
    split at h
    · cases h
    · rename_i out ho
      exact ⟨by omega, out, ho, (ok.inj h).symm⟩
  · rintro ⟨hl, out, ho, rfl⟩
    simp [encode, ho, show ¬ r.value.length > u16Max by omega]

/-- encoding succeeds exactly when every value fits its length field -/
lemma encode_isOk (rs : List TlvRecord) : (∃ b, encode rs = .ok b) ↔ ∀ r ∈ rs, r.value.length ≤ u16Max := by
  induction rs with
  | nil => simp [encode]
  | cons r rs ih =>
    simp only [encode_cons_ok, forall_mem_cons]
    constructor
    · rintro ⟨_, hl, out, ho, _⟩
      exact ⟨hl, ih.1 ⟨out, ho⟩⟩
    · rintro ⟨hl, hrs⟩
      obtain ⟨out, ho⟩ := ih.2 hrs
      exact ⟨_, hl, out, ho, rfl⟩

lemma encode_length (h : encode rs = .ok b) : b.length = (rs.map fun r => 4 + r.value.length).sum := by
  induction rs generalizing b with
  | nil => simp only [encode, ok.injEq] at h; subst h; rfl
  | cons r rs ih =>
    obtain ⟨-, out, ho, rfl⟩ := encode_cons_ok.1 h
    simp [ih ho]; omega

/-- an encoding is read in one way only: equal encodings come from equal records -/
lemma encode_injective (h : encode rs = .ok b) (h' : encode rs' = .ok b) : rs = rs' := by
  induction rs generalizing rs' b with
  | nil =>
    simp only [encode, ok.injEq] at h; subst h
    cases rs' with
    | nil => rfl
    | cons =>
      obtain ⟨-, out, -, hb⟩ := encode_cons_ok.1 h'
      simp [be16] at hb
  | cons r rs ih =>
    obtain ⟨hl, out, ho, rfl⟩ := encode_cons_ok.1 h
    cases rs' with
    | nil => simp [encode, be16] at h'
    | cons r' =>
      obtain ⟨hl', out', ho', hb⟩ := encode_cons_ok.1 h'
      simp only [append_assoc] at hb
      obtain ⟨hty, hb⟩ := append_inj hb (by simp)
      obtain ⟨hlen, hb⟩ := append_inj hb (by simp)
      have hlen := congrArg toNat (be16_injective hlen)
      simp only [toNat_ofNat', u16Max] at hlen hl hl'
      obtain ⟨hv, hb⟩ := append_inj hb (by omega)
      subst hb
      have hr : r = r' := by
        cases r; cases r'
        simp only [TlvRecord.mk.injEq]
        exact ⟨be16_injective hty, hv⟩
      rw [ih ho ho', hr]

/-! ## Decoding -/

variable {known : List UInt16} {policy : DecodePolicy}

/-- what one iteration of the loop does when it succeeds -/
lemma decodeLoop_succ_ok {fuel : ℕ} {input : Bytes} {seen : List UInt16}
    (h : decodeLoop known policy (fuel + 1) input seen = .ok rs) :
    (input = [] ∧ rs = []) ∨ ∃ r rs' rest, rs = r :: rs' ∧ r.value.length ≤ u16Max ∧
      input = be16 r.ty ++ be16 (UInt16.ofNat r.value.length) ++ r.value ++ rest ∧
      (policy.rejectUnknownCritical = true → isCritical r.ty = true → r.ty ∈ known) ∧
      (policy.rejectDuplicates = true → r.ty ∉ seen) ∧
      decodeLoop known policy fuel rest (r.ty :: seen) = .ok rs' := by
  match input with
  | [] =>
    left
    simp only [decodeLoop, ok.injEq] at h
    exact ⟨rfl, h.symm⟩
  | [_] | [_, _] | [_, _, _] => simp [decodeLoop] at h
  | t1 :: t0 :: l1 :: l0 :: rest =>
    right
    simp only [decodeLoop] at h
    split_ifs at h with hlen hunk hdup
    split at h
    · cases h
    · rename_i rs' hrec
      have hln := (ofBe16 l1 l0).toNat_lt
      have htake : (rest.take (ofBe16 l1 l0).toNat).length = (ofBe16 l1 l0).toNat := by
        rw [length_take]; omega
      refine ⟨⟨ofBe16 t1 t0, rest.take (ofBe16 l1 l0).toNat⟩, rs', rest.drop (ofBe16 l1 l0).toNat,
        (ok.inj h).symm, ?_, ?_, ?_, ?_, hrec⟩
      · simp only [htake, u16Max]; omega
      · simp only [htake, UInt16.ofNat_toNat, be16_ofBe16, append_assoc, take_append_drop]
        rfl
      · intro hp hc
        by_contra hk
        exact hunk ⟨hp, hk, hc⟩
      · intro hp hs
        exact hdup ⟨hp, hs⟩

/-- one iteration on an encoded record -/
lemma decodeLoop_record (fuel : ℕ) (r : TlvRecord) (rest : Bytes) (seen : List UInt16)
    (hl : r.value.length ≤ u16Max) (hk : policy.rejectUnknownCritical = true → isCritical r.ty = true → r.ty ∈ known)
    (hd : policy.rejectDuplicates = true → r.ty ∉ seen) :
    decodeLoop known policy (fuel + 1) (be16 r.ty ++ be16 (ofNat r.value.length) ++ r.value ++ rest) seen =
      match decodeLoop known policy fuel rest (r.ty :: seen) with
      | .error e => .error e
      | .ok rs => .ok (r :: rs) := by
  have hn : (ofNat r.value.length).toNat = r.value.length := by
    simp only [toNat_ofNat', u16Max] at *; omega
  have hunk : ¬ (policy.rejectUnknownCritical = true ∧ r.ty ∉ known ∧ isCritical r.ty = true) :=
    fun ⟨h1, h2, h3⟩ => h2 (hk h1 h3)
  have hdup : ¬ (policy.rejectDuplicates = true ∧ r.ty ∈ seen) := fun ⟨h1, h2⟩ => hd h1 h2
  generalize ofNat r.value.length = len at hn
  have hlen : ¬ (r.value ++ rest).length < len.toNat := by rw [length_append]; omega
  simp only [be16, cons_append, nil_append, decodeLoop, ofBe16_be16, if_neg hlen, if_neg hunk, if_neg hdup]
  rw [hn, drop_left, take_left]

/-- what the policy asks of a record list, given the types seen before it -/
def Accepted (known : List UInt16) (policy : DecodePolicy) : List UInt16 → List TlvRecord → Prop
  | _, [] => True
  | seen, r :: rs => (policy.rejectUnknownCritical = true → isCritical r.ty = true → r.ty ∈ known) ∧
      (policy.rejectDuplicates = true → r.ty ∉ seen) ∧ Accepted known policy (r.ty :: seen) rs

/-- **Decoding inverts encoding**, with enough fuel and when the policy accepts the records -/
lemma decodeLoop_encode (fuel : ℕ) (rs : List TlvRecord) (seen : List UInt16) (b : Bytes) (h : encode rs = .ok b)
    (hf : b.length ≤ fuel) (ha : Accepted known policy seen rs) : decodeLoop known policy fuel b seen = .ok rs := by
  induction rs generalizing fuel seen b with
  | nil => simp only [encode, ok.injEq] at h; subst h; cases fuel <;> rfl
  | cons r rs ih =>
    obtain ⟨hl, out, ho, rfl⟩ := encode_cons_ok.1 h
    obtain ⟨hk, hd, hrest⟩ := ha
    simp only [length_append, be16_length] at hf
    obtain ⟨f, rfl⟩ : ∃ f, fuel = f + 1 := ⟨fuel - 1, by omega⟩
    rw [decodeLoop_record f r out seen hl hk hd, ih f _ out ho (by omega) hrest]

/-- **What the loop accepts is an encoding** of records that the policy accepts -/
lemma encode_decodeLoop (fuel : ℕ) (rs : List TlvRecord) (seen : List UInt16) (b : Bytes)
    (h : decodeLoop known policy fuel b seen = .ok rs) : encode rs = .ok b ∧ Accepted known policy seen rs := by
  induction fuel generalizing rs seen b with
  | zero =>
    cases b with
    | nil => simp only [decodeLoop, ok.injEq] at h; subst h; exact ⟨rfl, trivial⟩
    | cons => simp [decodeLoop] at h
  | succ fuel ih =>
    rcases decodeLoop_succ_ok h with ⟨rfl, rfl⟩ | ⟨r, rs', rest, rfl, hl, rfl, hk, hd, hrec⟩
    · exact ⟨rfl, trivial⟩
    · obtain ⟨he, ha⟩ := ih _ _ _ hrec
      exact ⟨encode_cons_ok.2 ⟨hl, rest, he, rfl⟩, hk, hd, ha⟩

lemma accepted_strict (seen : List UInt16) (rs : List TlvRecord) :
    Accepted known .strict seen rs ↔ (∀ r ∈ rs, isCritical r.ty = true → r.ty ∈ known) ∧
      (∀ r ∈ rs, r.ty ∉ seen) ∧ (rs.map TlvRecord.ty).Nodup := by
  induction rs generalizing seen with
  | nil => simp [Accepted]
  | cons r rs ih =>
    simp only [Accepted, DecodePolicy.strict, true_implies, forall_mem_cons, map_cons, nodup_cons, mem_map, not_exists, not_and]
    rw [show (⟨true, true⟩ : DecodePolicy) = .strict from rfl, ih]
    simp only [mem_cons, not_or]
    constructor
    · rintro ⟨hk, hd, hks, hds, hn⟩
      exact ⟨⟨hk, hks⟩, ⟨hd, fun r' hr' => (hds r' hr').2⟩, fun r' hr' => (hds r' hr').1, hn⟩
    · rintro ⟨⟨hk, hks⟩, ⟨hd, hds⟩, hne, hn⟩
      exact ⟨hk, hd, hks, fun r' hr' => ⟨hne r' hr', hds r' hr'⟩, hn⟩

/-- **Strict decoding is exact**: it returns `rs` on precisely the encoding of `rs`, if the types in `rs` are pairwise
different and every critical one is known. -/
lemma decodeStrict_iff (b : Bytes) (rs : List TlvRecord) :
    decodeStrict b known = .ok rs ↔ encode rs = .ok b ∧ (rs.map TlvRecord.ty).Nodup ∧
      ∀ r ∈ rs, isCritical r.ty = true → r.ty ∈ known := by
  constructor
  · intro h
    obtain ⟨he, ha⟩ := encode_decodeLoop _ _ _ _ h
    obtain ⟨hk, -, hn⟩ := (accepted_strict [] rs).1 ha
    exact ⟨he, hn, hk⟩
  · rintro ⟨he, hn, hk⟩
    exact decodeLoop_encode _ rs [] b he le_rfl ((accepted_strict [] rs).2 ⟨hk, by simp, hn⟩)

/-- an encoding of known records is decoded -/
lemma decodeStrict_encode (h : encode rs = .ok b)
    (ht : (rs.map TlvRecord.ty).Nodup ∧ ∀ ty ∈ rs.map TlvRecord.ty, ty ∈ known) : decodeStrict b known = .ok rs :=
  (decodeStrict_iff b rs).2 ⟨h, ht.1, fun _ hr _ => ht.2 _ (mem_map_of_mem hr)⟩

/-! ## Looking records up -/

lemma recordMap_of_mem (hn : (rs.map TlvRecord.ty).Nodup) (hr : r ∈ rs) : recordMap rs r.ty = some r.value := by
  unfold recordMap
  cases hf : rs.reverse.find? (fun x => x.ty = r.ty) with
  | none => rw [List.find?_eq_none] at hf; exact absurd (by simp) (hf r (mem_reverse.2 hr))
  | some x =>
    have hx : x.ty = r.ty := by simpa using List.find?_some hf
    have hm := mem_reverse.1 (mem_of_find?_eq_some hf)
    rw [inj_on_of_nodup_map hn hm hr hx]; rfl

lemma recordMap_some {ty : UInt16} {v : Bytes} (h : recordMap rs ty = some v) : (⟨ty, v⟩ : TlvRecord) ∈ rs := by
  unfold recordMap at h
  obtain ⟨r, hf, rfl⟩ := Option.map_eq_some_iff.1 h
  have hty : r.ty = ty := by simpa using List.find?_some hf
  rw [← hty]
  exact mem_reverse.1 (mem_of_find?_eq_some hf)

@[simp] lemma recordMap_nil (ty : UInt16) : recordMap [] ty = none := rfl

@[simp] lemma recordMap_append (rs rs' : List TlvRecord) (ty : UInt16) :
    recordMap (rs ++ rs') ty = (recordMap rs' ty).or (recordMap rs ty) := by
  simp [recordMap, List.find?_append, Option.map_or]

@[simp] lemma recordMap_cons (r : TlvRecord) (rs : List TlvRecord) (ty : UInt16) :
    recordMap (r :: rs) ty = (recordMap rs ty).or (if r.ty = ty then some r.value else none) := by
  rw [← singleton_append, recordMap_append]
  by_cases h : r.ty = ty <;> simp [recordMap, h]

/-- some of the records of an encoding encode as well, to no more bytes -/
lemma encode_of_subset (h : encode rs = .ok b) (hn : rs'.Nodup) (hs : rs' ⊆ rs) :
    ∃ b', encode rs' = .ok b' ∧ b'.length ≤ b.length := by
  have hlen : ∀ r ∈ rs', r.value.length ≤ u16Max := fun r hr => (encode_isOk rs).1 ⟨b, h⟩ r (hs hr)
  obtain ⟨b', hb'⟩ := (encode_isOk rs').2 hlen
  refine ⟨b', hb', ?_⟩
  rw [encode_length h, encode_length hb']
  obtain ⟨l, hperm, hsub⟩ := subperm_of_subset hn hs
  rw [← (hperm.map fun r => 4 + r.value.length).sum_eq]
  exact (hsub.map _).sum_le_sum fun _ _ => Nat.zero_le _

end PqMsg.Tlv
