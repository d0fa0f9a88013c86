/-
Time windows: the clock skew of signed requests (`verify_request_auth_any` in `auth.rs`) and the expiry of sender certificates
(`validate_sender_certificate` in `sealed.rs`).

Both compare 64-bit integers after a subtraction or an addition that wraps in a release build; a debug build panics there.

- `time_windows_iff`: both checks are the ones on integers exactly where neither computation overflows.
- `time_windows_wrap`: a timestamp that passes, and a certificate that is refused, because of the overflow.

Other times are texts (`to_rfc3339`) in the database, where a query compares them by bytes.

- `Utc.rfc3339_order`: these texts are ordered as the instants are.
-/
import PqMsg.Sealed.Envelope
import PqMsg.Server.Validation

namespace PqMsg.Server

open Sealed Handshake

variable {Secret : Type} {H : HandshakePrims Secret} {now timestamp : Int64} {cert : SenderCertificate} {key : ByteArr 32}

/-! ## Timestamps of requests -/

def authMaxClockSkewSeconds : Int64 := 300

/-- the first check of `verify_request_auth_any`; the difference and its absolute value wrap in a release build -/
def checkTimestamp (now timestamp : Int64) : Except AppError Unit :=
  if (now - timestamp).abs > authMaxClockSkewSeconds then .error (.badRequest "request timestamp outside allowed skew")
  else .ok ()

/-- the check is the one on integers, and neither the difference nor its absolute value overflows -/
structure SkewExact (now timestamp : Int64) : Prop where
  exact : checkTimestamp now timestamp = .ok () ↔ |now.toInt - timestamp.toInt| ≤ 300
  difference : -2 ^ 63 ≤ now.toInt - timestamp.toInt ∧ now.toInt - timestamp.toInt < 2 ^ 63
  absolute : |now.toInt - timestamp.toInt| < 2 ^ 63

lemma skewExact_iff : SkewExact now timestamp ↔ |now.toInt - timestamp.toInt| < 2 ^ 63 := by
  refine ⟨SkewExact.absolute, fun h => ?_⟩
  obtain ⟨hlow, hhigh⟩ := abs_lt.1 h
  have hsub : (now - timestamp).toInt = now.toInt - timestamp.toInt := by
    rw [Int64.toInt_sub]
    exact Int.bmod_eq_of_le (by omega) (by omega)
  have habs : (now - timestamp).abs.toInt = |now.toInt - timestamp.toInt| := by
    have hmin : (now - timestamp).toBitVec ≠ BitVec.intMin 64 := by
      intro hmin
      have hint : (now - timestamp).toInt = -2 ^ 63 := congrArg BitVec.toInt hmin
      omega
    rw [← hsub, ← Int.natCast_natAbs]
    exact BitVec.toInt_abs_eq_natAbs_of_ne_intMin hmin
  refine ⟨?_, ⟨hlow.le, hhigh⟩, h⟩
  unfold checkTimestamp
  rw [ite_eq_right_iff, gt_iff_lt, Int64.lt_iff_toInt_lt, habs, show authMaxClockSkewSeconds.toInt = 300 from rfl]
  simp

/-! ## Expiry of certificates -/

lemma validateSenderCertificate_expired {now : UInt64} :
    validateSenderCertificate H cert key now = .error (.policyViolation "sender_cert.expired") ↔
      now > cert.expiresAt + senderCertClockSkewSecs := by
  have hencode : ∀ rs : List Tlv.TlvRecord, Tlv.encode rs ≠ .error (.policyViolation "sender_cert.expired") := by
    intro rs
    induction rs with
    | nil => intro h; cases h
    | cons r rs ih =>
      simp only [Tlv.encode]
      split_ifs
      · intro h; cases h
      · split
        case h_1 e he => exact he ▸ ih
        case h_2 => intro h; cases h
  unfold validateSenderCertificate
  split_ifs with hexpired
  · exact iff_of_true rfl hexpired
  · refine iff_of_false (fun h => ?_) hexpired
    simp only [bind, Except.bind] at h
    split at h
    case h_1 e he =>
      cases h
      exact hencode _ he
    · split at h
      case h_1 e he =>
        cases hsignature : Wire.parseArr 64 cert.serverSignature "" with
        | error | ok => rw [hsignature] at he; cases he <;> cases h
      · split_ifs at h
        cases h

/-- the check is the one on natural numbers, and the sum does not overflow -/
structure ExpiryExact (H : HandshakePrims Secret) (cert : SenderCertificate) (key : ByteArr 32) (now : UInt64) : Prop where
  exact : validateSenderCertificate H cert key now ≠ .error (.policyViolation "sender_cert.expired") ↔
    now.toNat ≤ cert.expiresAt.toNat + 300
  sum : cert.expiresAt.toNat + 300 < 2 ^ 64

lemma expiryExact_iff {now : UInt64} : ExpiryExact H cert key now ↔ cert.expiresAt.toNat + 300 < 2 ^ 64 := by
  refine ⟨ExpiryExact.sum, fun h => ⟨?_, h⟩⟩
  have hsum : (cert.expiresAt + senderCertClockSkewSecs).toNat = cert.expiresAt.toNat + 300 := by
    rw [UInt64.toNat_add]
    exact Nat.mod_eq_of_lt h
  rw [ne_eq, validateSenderCertificate_expired, gt_iff_lt, UInt64.lt_iff_toNat_lt, hsum, not_lt]

/-- **Both time windows are exact while nothing overflows**: for all clocks, timestamps and certificates -/
theorem time_windows_iff (H : HandshakePrims Secret) (now timestamp : Int64) (cert : SenderCertificate) (key : ByteArr 32)
    (unixNow : UInt64) : SkewExact now timestamp ∧ ExpiryExact H cert key unixNow ↔
      |now.toInt - timestamp.toInt| < 2 ^ 63 ∧ cert.expiresAt.toNat + 300 < 2 ^ 64 :=
  and_congr skewExact_iff expiryExact_iff

/-- a timestamp `2 ^ 63` seconds ago passes, and a certificate without an end has expired -/
theorem time_windows_wrap :
    checkTimestamp 1800000000 (1800000000 - 2 ^ 63) = .ok () ∧
    (1800000000 : Int64).toInt - (1800000000 - 2 ^ 63 : Int64).toInt = 2 ^ 63 ∧
    validateSenderCertificate Handshake.Sample.handshakePrims ⟨"alice", "phone", .replicate 32 0, 2 ^ 64 - 1, []⟩ (.replicate 32 0)
      1800000000 = .error (.policyViolation "sender_cert.expired") := by
  exact ⟨by decide +kernel, by decide +kernel, validateSenderCertificate_expired.2 (by decide +kernel)⟩

/-! ## Texts of instants -/

def Utc.isLeapYear (year : ℕ) : Bool := year % 4 = 0 ∧ (year % 100 ≠ 0 ∨ year % 400 = 0)

/-- `DateTime<Utc>` in the years 0 to 9999, with the day of the year from 0; a leap second has `10 ^ 9` nanoseconds or more -/
structure Utc where
  year : Fin 10000
  ordinal : Fin 366
  seconds : Fin 86400
  nanos : Fin 2000000000
  inYear : ordinal.val = 365 → Utc.isLeapYear year
  leap : 1000000000 ≤ nanos.val → seconds.val % 60 = 59

namespace Utc

/-- instants are ordered by these numbers, one after the other -/
def instant (t : Utc) : List ℕ := [t.year, t.ordinal, t.seconds, t.nanos]

/-- month and day of a day of the year, both from 1 -/
def monthDay (leapYear : Bool) (ordinal : ℕ) : ℕ × ℕ :=
  go 1 [31, if leapYear then 29 else 28, 31, 30, 31, 30, 31, 31, 30, 31, 30, 31] ordinal
where
  go (month : ℕ) : List ℕ → ℕ → ℕ × ℕ
    | [], ordinal => (month, ordinal + 1)
    | days :: months, ordinal => if ordinal < days then (month, ordinal + 1) else go (month + 1) months (ordinal - days)

def date (t : Utc) : ℕ × ℕ := monthDay (isLeapYear t.year) t.ordinal

/-- the numbers of the text; the second is 60 in a leap second -/
def calendar (t : Utc) : List ℕ := [t.year, t.date.1, t.date.2, t.seconds / 3600, t.seconds / 60 % 60,
  t.seconds % 60 + t.nanos / 1000000000, t.nanos % 1000000000]

/-- the last `n` decimal digits -/
def digits : ℕ → ℕ → Bytes
  | 0, _ => []
  | n + 1, v => digits n (v / 10) ++ [UInt8.ofNat (48 + v % 10)]

/-- `k` groups of three digits, without the last ones that are 0 -/
def groups : ℕ → ℕ → Bytes
  | 0, _ => []
  | k + 1, v => if v % 1000 ^ (k + 1) = 0 then [] else digits 3 (v / 1000 ^ k) ++ groups k v

/-- `+00:00` -/
def offset : Bytes := [43, 48, 48, 58, 48, 48]

/-- `to_rfc3339`, with `SecondsFormat::AutoSi` -/
def toRfc3339 (t : Utc) : Bytes :=
  let nanos := t.nanos.val % 1000000000
  digits 4 t.year ++ 45 :: (digits 2 t.date.1 ++ 45 :: (digits 2 t.date.2 ++ 84 :: (digits 2 (t.seconds / 3600) ++ 58 ::
    (digits 2 (t.seconds / 60 % 60) ++ 58 :: (digits 2 (t.seconds % 60 + t.nanos / 1000000000) ++
      ((if nanos = 0 then [] else 46 :: groups 3 nanos) ++ offset))))))

/-- the digits decide, then what follows them -/
lemma digits_append_lt {n a b : ℕ} {s t : Bytes} (h : a % 10 ^ n < b % 10 ^ n ∨ a % 10 ^ n = b % 10 ^ n ∧ s < t) :
    digits n a ++ s < digits n b ++ t := by
  induction n generalizing a b s t with
  | zero => simpa [digits, Nat.mod_one] using h
  | succ n ih =>
    have hdigit : ∀ v : ℕ, (UInt8.ofNat (48 + v % 10)).toNat = 48 + v % 10 := by
      intro v
      rw [UInt8.toNat_ofNat']
      omega
    rw [Nat.pow_succ', Nat.mod_mul, Nat.mod_mul] at h
    simp only [digits, List.append_assoc, List.singleton_append]
    refine ih ?_
    rw [List.cons_lt_cons_iff, UInt8.lt_iff_toNat_lt, ← UInt8.toNat_inj, hdigit, hdigit]
    rcases h with h | ⟨h, hst⟩
    · by_cases hdiv : a / 10 % 10 ^ n < b / 10 % 10 ^ n
      · exact .inl hdiv
      · exact .inr ⟨by omega, .inl (by omega)⟩
    · exact .inr ⟨by omega, .inr ⟨by omega, hst⟩⟩

/-- `+` is before every digit -/
lemma offset_lt (v : ℕ) (s : Bytes) : offset < digits 3 v ++ s := by
  refine List.cons_lt_cons_iff.2 (.inl (UInt8.lt_iff_toNat_lt.2 ?_))
  rw [UInt8.toNat_ofNat']
  simp
  omega

lemma groups_lt {k a b : ℕ} (h : a % 1000 ^ k < b % 1000 ^ k) : groups k a ++ offset < groups k b ++ offset := by
  induction k with
  | zero => simp [Nat.mod_one] at h
  | succ k ih =>
    have hb : b % 1000 ^ (k + 1) ≠ 0 := by omega
    rw [groups, groups, if_neg hb, List.append_assoc]
    split_ifs with ha
    · exact offset_lt _ _
    · rw [List.append_assoc]
      refine digits_append_lt ?_
      rw [Nat.pow_succ, Nat.mod_mul, Nat.mod_mul] at h
      by_cases hgroup : a / 1000 ^ k % 1000 < b / 1000 ^ k % 1000
      · exact .inl hgroup
      · have hmod := Nat.mod_lt b (Nat.pow_pos (n := k) (Nat.succ_pos 999))
        have hle := Nat.mul_le_mul_left (1000 ^ k) (not_lt.1 hgroup)
        have hsame : a / 1000 ^ k % 1000 = b / 1000 ^ k % 1000 := by
          by_contra hne
          have hlt := Nat.mul_le_mul_left (1000 ^ k) (lt_of_le_of_ne (not_lt.1 hgroup) (Ne.symm hne))
          rw [Nat.mul_succ] at hlt
          omega
        exact .inr ⟨hsame, ih (by omega)⟩

lemma monthDay_lt (leapYear : Bool) {a b : ℕ} (h : a < b) (hb : b < 366) :
    (monthDay leapYear a).1 < (monthDay leapYear b).1 ∨
      (monthDay leapYear a).1 = (monthDay leapYear b).1 ∧ (monthDay leapYear a).2 < (monthDay leapYear b).2 := by
  have hnext : ∀ leapYear : Bool, ∀ n < 365, toLex (monthDay leapYear n) < toLex (monthDay leapYear (n + 1)) := by
    decide +kernel
  rw [← Prod.Lex.toLex_lt_toLex]
  induction b, h using Nat.le_induction with
  | base => exact hnext _ a (by omega)
  | succ b _ ih => exact (ih (by omega)).trans (hnext _ b (by omega))

lemma calendar_lt {a b : Utc} (h : a.instant < b.instant) : a.calendar < b.calendar := by
  simp only [instant, calendar, date, List.cons_lt_cons_iff, List.not_lt_nil, and_false, or_false] at h ⊢
  have ha := a.leap
  have hb := b.leap
  rcases h with h | ⟨hyear, h | ⟨hday, h⟩⟩
  · exact .inl h
  · rw [hyear]
    rcases monthDay_lt (isLeapYear b.year) h b.ordinal.isLt with h | ⟨hmonth, h⟩
    · exact .inr ⟨rfl, .inl h⟩
    · exact .inr ⟨rfl, .inr ⟨hmonth, .inl h⟩⟩
  · rw [hyear, hday]
    refine .inr ⟨rfl, .inr ⟨rfl, .inr ⟨rfl, ?_⟩⟩⟩
    omega

/-- the first number that differs decides -/
lemma toRfc3339_lt {a b : Utc} (h : a.instant < b.instant) : toRfc3339 a < toRfc3339 b := by
  have field {n x y : ℕ} {s t : Bytes} {p : Prop} (hx : x < 10 ^ n) (hy : y < 10 ^ n) (h : x < y ∨ x = y ∧ p)
      (hst : p → s < t) : digits n x ++ s < digits n y ++ t := by
    refine digits_append_lt ?_
    rw [Nat.mod_eq_of_lt hx, Nat.mod_eq_of_lt hy]
    exact h.imp_right (And.imp_right hst)
  have next {c : UInt8} {s t : Bytes} (h : s < t) : c :: s < c :: t := List.cons_lt_cons_iff.2 (.inr ⟨rfl, h⟩)
  have hdate : ∀ leapYear : Bool, ∀ n : Fin 366, (monthDay leapYear n).1 < 100 ∧ (monthDay leapYear n).2 < 100 := by
    decide +kernel
  obtain ⟨ha1, ha2⟩ := hdate (isLeapYear a.year) a.ordinal
  obtain ⟨hb1, hb2⟩ := hdate (isLeapYear b.year) b.ordinal
  have h := calendar_lt h
  simp only [calendar, List.cons_lt_cons_iff, List.not_lt_nil, and_false, or_false] at h
  refine field (by omega) (by omega) h fun h => next ?_
  refine field ha1 hb1 h fun h => next ?_
  refine field ha2 hb2 h fun h => next ?_
  refine field (by omega) (by omega) h fun h => next ?_
  refine field (by omega) (by omega) h fun h => next ?_
  refine field (by omega) (by omega) h fun h => ?_
  rw [if_neg (c := b.nanos.val % 1000000000 = 0) (by omega)]
  split_ifs
  · exact List.cons_lt_cons_iff.2 (.inl (by decide))
  · exact next (groups_lt (by omega))

/-- **Timestamps order as texts**, for all instants of the years 0 to 9999 -/
theorem rfc3339_order (a b : Utc) :
    (toRfc3339 a < toRfc3339 b ↔ a.instant < b.instant) ∧ (toRfc3339 a ≤ toRfc3339 b ↔ a.instant ≤ b.instant) := by
  have hiff (a b : Utc) : toRfc3339 a < toRfc3339 b ↔ a.instant < b.instant := by
    refine ⟨fun h => ?_, toRfc3339_lt⟩
    rcases lt_trichotomy a.instant b.instant with hlt | heq | hgt
    · exact hlt
    · have hsame : toRfc3339 a = toRfc3339 b := by
        simp only [instant, List.cons.injEq, and_true] at heq
        simp only [toRfc3339, date, heq]
      exact absurd (hsame ▸ h) (List.lt_irrefl _)
    · exact absurd (toRfc3339_lt hgt) (List.lt_asymm h)
  exact ⟨hiff a b, by rw [← not_lt, ← hiff b a]; rfl⟩

end Utc

end PqMsg.Server
