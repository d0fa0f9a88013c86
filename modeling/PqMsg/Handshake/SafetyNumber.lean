/-
Safety numbers (`safety_number.rs`): the code that two users compare to check each other's identity keys, as 60 digits or as
the payload of a QR code.

The fingerprint of a user is a hash that is taken 5200 times. The first one joins the id and the keys without lengths; all
others take the keys again, at fixed places, which is what tells two users apart.

- `fingerprint_inj`: two users have one fingerprint only if they are the same or the hash collides on the way.
- `safety_number_pair`: two users with different ids get the same number whoever computes it, and a QR payload is for one pair.
-/
import Mathlib.Data.String.Basic
import PqMsg.Handshake.Message

namespace PqMsg.SafetyNumber

open Handshake List

/-- a user, with the keys that the number is for -/
structure Party where
  userId : String
  x25519Pub : ByteArr 32
  mlDsaPub : Bytes
deriving DecidableEq

def fingerprintVersion : Bytes := [0x00, 0x01]
def hashIterations : ℕ := 5200

variable (sha256 : Bytes → ByteArr 32)

/-- what the loop of `iterated_fingerprint` hashes in round `n` -/
def Party.hashed (p : Party) : ℕ → Bytes
  | 0 => fingerprintVersion ++ utf8 p.userId ++ p.x25519Pub.1 ++ p.mlDsaPub
  | n + 1 => (sha256 (p.hashed n)).1 ++ p.x25519Pub.1 ++ p.mlDsaPub

def iteratedFingerprint (p : Party) : ByteArr 32 := sha256 (p.hashed sha256 (hashIterations - 1))

/-- by id; texts are ordered by characters, which is the order of their UTF-8 bytes -/
def canonical (a b : Party) : Party × Party := if a.userId ≤ b.userId then (a, b) else (b, a)

def safetyNumberQrPayload (a b : Party) : Bytes :=
  fingerprintVersion ++ (iteratedFingerprint sha256 (canonical a b).1).1 ++ (iteratedFingerprint sha256 (canonical a b).2).1

/-- five bytes as five digits -/
def numericGroup (chunk : Bytes) : String :=
  let group := chunk.foldl (fun val b => val * 256 + b.toNat) 0 % 100000
  String.ofList ([10000, 1000, 100, 10, 1].map fun place => Nat.digitChar (group / place % 10))

def encodeNumeric (data : Bytes) : String := String.intercalate " " ((data.toChunks 5).map numericGroup)

def computeSafetyNumber (a b : Party) : String :=
  encodeNumeric ((iteratedFingerprint sha256 (canonical a b).1).1.take 30 ++
    (iteratedFingerprint sha256 (canonical a b).2).1.take 30)

/-- the hash does not collide in any round -/
def NoCollision (p q : Party) : Prop := ∀ n < hashIterations,
  sha256 (p.hashed sha256 n) = sha256 (q.hashed sha256 n) → p.hashed sha256 n = q.hashed sha256 n

variable {sha256} {a b c d p q : Party}

/-- with the same keys, back to the first round -/
lemma eq_of_hashed (hno : NoCollision sha256 p q) (hx : p.x25519Pub = q.x25519Pub) (hm : p.mlDsaPub = q.mlDsaPub) {n : ℕ}
    (hn : n < hashIterations) (h : sha256 (p.hashed sha256 n) = sha256 (q.hashed sha256 n)) : p = q := by
  induction n with
  | zero =>
    have heq := hno 0 hn h
    simp only [Party.hashed, hx, hm, append_cancel_right_eq, append_cancel_left_eq] at heq
    cases p
    cases q
    rw [Party.mk.injEq]
    exact ⟨utf8_injective heq, hx, hm⟩
  | succ n ih =>
    have heq := hno _ hn h
    simp only [Party.hashed, hx, hm, append_cancel_right_eq] at heq
    exact ih (by omega) (Subtype.ext heq)

/-- **The fingerprint identifies the user** -/
lemma fingerprint_inj (hno : NoCollision sha256 p q) (h : iteratedFingerprint sha256 p = iteratedFingerprint sha256 q) :
    p = q := by
  obtain ⟨k, hk⟩ : ∃ k, hashIterations - 1 = k + 1 := ⟨5198, rfl⟩
  rw [iteratedFingerprint, iteratedFingerprint, hk] at h
  -- the last round has the keys at fixed places
  have hlast := hno (k + 1) (by omega) h
  simp only [Party.hashed, append_assoc] at hlast
  obtain ⟨hhash, hkeys⟩ := append_inj hlast ((sha256 _).2.trans (sha256 _).2.symm)
  obtain ⟨hx, hm⟩ := append_inj hkeys (p.x25519Pub.2.trans q.x25519Pub.2.symm)
  exact eq_of_hashed hno (Subtype.ext hx) hm (by omega) (Subtype.ext hhash)

lemma canonical_comm (h : a.userId ≠ b.userId) : canonical a b = canonical b a := by
  rcases lt_or_gt_of_ne h with h | h
  · rw [canonical, canonical, if_pos h.le, if_neg h.not_ge]
  · rw [canonical, canonical, if_neg h.not_ge, if_pos h.le]

/-- **A safety number is for a pair** -/
theorem safety_number_pair (hab : a.userId ≠ b.userId)
    (hno : ∀ p ∈ [a, b], ∀ q ∈ [c, d], NoCollision sha256 p q) :
    computeSafetyNumber sha256 a b = computeSafetyNumber sha256 b a ∧
    (safetyNumberQrPayload sha256 a b = safetyNumberQrPayload sha256 c d ↔ a = c ∧ b = d ∨ a = d ∧ b = c) := by
  have hmem : ∀ a b : Party, (canonical a b).1 ∈ [a, b] ∧ (canonical a b).2 ∈ [a, b] := by
    intro a b
    unfold canonical
    split_ifs <;> simp
  refine ⟨by rw [computeSafetyNumber, canonical_comm hab, computeSafetyNumber], fun h => ?_, ?_⟩
  · simp only [safetyNumberQrPayload, append_assoc] at h
    obtain ⟨hfirst, hsecond⟩ := append_inj (append_cancel_left h)
      ((iteratedFingerprint sha256 _).2.trans (iteratedFingerprint sha256 _).2.symm)
    have hpair : canonical a b = canonical c d :=
      Prod.ext (fingerprint_inj (hno _ (hmem a b).1 _ (hmem c d).1) (Subtype.ext hfirst))
        (fingerprint_inj (hno _ (hmem a b).2 _ (hmem c d).2) (Subtype.ext hsecond))
    unfold canonical at hpair
    split_ifs at hpair <;> cases hpair <;> simp
  · rintro (⟨rfl, rfl⟩ | ⟨rfl, rfl⟩)
    · rfl
    · rw [safetyNumberQrPayload, canonical_comm hab, safetyNumberQrPayload]

/-! ## A sample -/

namespace Sample

/-- a hash that keeps the last 32 bytes -/
def lastBytes (u : Bytes) : ByteArr 32 := ⟨u.reverse.takeD 32 0, takeD_length ..⟩

def party (userId : String) (n : UInt8) : Party := ⟨userId, .replicate 32 n, replicate 32 n⟩

lemma noCollision (u v : String) {m n : UInt8} (h : m = n → u = v) : NoCollision lastBytes (party u m) (party v n) := by
  have hlast : ∀ userId k i, (lastBytes ((party userId k).hashed lastBytes i)).1.head? = some k := by
    intro userId k i
    cases i <;> simp [lastBytes, Party.hashed, party, replicate_succ']
  intro i _ heq
  have hmn := congrArg (fun x : ByteArr 32 => x.1.head?) heq
  simp only [hlast, Option.some.injEq] at hmn
  rw [hmn, h hmn]

end Sample

open SafetyNumber.Sample in
/-- another key gives another payload -/
theorem safety_number_pair_sample : safetyNumberQrPayload lastBytes (party "alice" 1) (party "bob" 2) ≠
    safetyNumberQrPayload lastBytes (party "alice" 1) (party "bob" 3) := by
  have hno : ∀ p ∈ [party "alice" 1, party "bob" 2], ∀ q ∈ [party "alice" 1, party "bob" 3], NoCollision lastBytes p q := by
    simp only [mem_cons, not_mem_nil, or_false, forall_eq_or_imp, forall_eq]
    refine ⟨⟨?_, ?_⟩, ?_, ?_⟩ <;> exact noCollision _ _ (by decide)
  intro h
  exact absurd ((safety_number_pair (by decide) hno).2.1 h) (by decide)

end PqMsg.SafetyNumber
