/-
The cryptographic primitives that `pqmsg-core` takes from other crates, as parameters of the model.

`Secret` is the type of secret byte strings (root, chain, message and header keys, DH secrets and shared secrets, KEM
secret keys): the code copies them, compares none of them and feeds them to the primitives only, so nothing else about
them is used. Randomness drawn from `OsRng` is an explicit argument of the functions that draw it.

- `hkdf ikm salt info n i`: block `i` (32 bytes) of the `n * 32` bytes that HKDF-SHA256 expands (crates `hkdf`, `sha2`).
  The lengths asked for are far below HKDF's limit, so the expansion never fails. The `info` labels are ASCII literals.
- `dhPublic`, `diffieHellman`: X25519 (`x25519_dalek`).
- `aeadEncrypt`, `aeadDecrypt`: ChaCha20-Poly1305 (`chacha20poly1305`); `none` is its error.
- `aesCtrKeystream`: the AES-256-CTR keystream of a key under the all-zero counter block (`aes`, `ctr`).
- `sha256` (`sha2`).
`Kem` is the trait `KemProvider` of `kem.rs`.
-/
import Mathlib.Data.UInt
import PqMsg.Core.Bytes

namespace PqMsg

open List Option

/-- `DhPublicKey([u8; 32])` -/
abbrev DhPublicKey := ByteArr 32

/-- `[u8; 12]`, an AEAD nonce -/
abbrev Nonce := ByteArr 12

structure Primitives (Secret : Type) where
  hkdf : Secret → Option Secret → String → ℕ → ℕ → Secret
  dhPublic : Secret → DhPublicKey
  diffieHellman : Secret → DhPublicKey → Secret
  /-- key, nonce, associated data, plaintext -/
  aeadEncrypt : Secret → Nonce → Bytes → Bytes → Option Bytes
  /-- key, nonce, associated data, ciphertext -/
  aeadDecrypt : Secret → Nonce → Bytes → Bytes → Option Bytes
  aesCtrKeystream : Secret → ℕ → UInt8
  sha256 : Bytes → Bytes

structure KemKeyPair (Secret : Type) where
  publicKey : Bytes
  secretKey : Secret

structure KemEncapsulation (Secret : Type) where
  ciphertext : Bytes
  sharedSecret : Secret

/-- `trait KemProvider`; the last argument of `keypair` and `encapsulate` is their randomness -/
structure Kem (Secret : Type) where
  keypair : Bytes → Except CoreError (KemKeyPair Secret)
  encapsulate : Bytes → Bytes → Except CoreError (KemEncapsulation Secret)
  decapsulate : Secret → Bytes → Except CoreError Secret

structure DhKeyPair (Secret : Type) where
  publicKey : DhPublicKey
  secret : Secret

variable {Secret : Type} (P : Primitives Secret)

/-- `hkdf_sha256_32` -/
def hkdfSha256_32 (ikm : Secret) (salt : Option Secret) (info : String) : Secret :=
  P.hkdf ikm salt info 1 0

/-- `generate_keypair`, the secret scalar being what `rng` draws -/
def generateKeypair (secret : Secret) : DhKeyPair Secret := ⟨P.dhPublic secret, secret⟩

/-! ## What a correct primitive does -/

/-- AEAD correctness: what was encrypted decrypts, under the same key, nonce and associated data -/
def AeadCorrect : Prop :=
  ∀ k n ad p c, P.aeadEncrypt k n ad p = some c → P.aeadDecrypt k n ad c = some p

/-- DH commutativity -/
def DhCommutes : Prop :=
  ∀ a b, P.diffieHellman a (P.dhPublic b) = P.diffieHellman b (P.dhPublic a)

/-- ideal AEAD: a ciphertext opens only under the key and the associated data it was made with -/
def AeadBinds : Prop :=
  ∀ k n ad p c, P.aeadEncrypt k n ad p = some c → ∀ k' ad' p', P.aeadDecrypt k' n ad' c = some p' → k' = k ∧ ad' = ad

/-- length of the Poly1305 tag -/
def aeadTagLength : ℕ := 16

/-- the AEAD encrypts what fits a 16-bit length field, and adds its tag -/
def AeadExpands : Prop :=
  ∀ k n ad p, p.length + aeadTagLength ≤ u16Max →
    ∃ c, P.aeadEncrypt k n ad p = some c ∧ c.length = p.length + aeadTagLength

/-- ciphertexts are as long as plaintext and tag -/
def AeadTags : Prop := ∀ k n ad p c, P.aeadEncrypt k n ad p = some c → c.length = p.length + aeadTagLength

/-- a key pair that decapsulates what is encapsulated to it -/
def Kem.Valid (kem : Kem Secret) (kp : KemKeyPair Secret) : Prop :=
  ∀ r e, kem.encapsulate kp.publicKey r = .ok e → kem.decapsulate kp.secretKey e.ciphertext = .ok e.sharedSecret

/-- KEM correctness: every generated key pair is valid -/
def Kem.Correct (kem : Kem Secret) : Prop := ∀ r kp, kem.keypair r = .ok kp → kem.Valid kp

/-! ## A sample instance

Small computable primitives with the properties above: secrets are 32-bit numbers, a ciphertext carries key, nonce and
associated data in front of the plaintext, and the DH function multiplies. -/

namespace Sample

/-- what the sample AEAD puts in front of the plaintext; the associated data is delimited by its length in unary -/
def envelope (key : UInt32) (nonce : Nonce) (ad : Bytes) : Bytes :=
  be32 key ++ nonce.1 ++ List.replicate ad.length 1 ++ [0] ++ ad

def primitives : Primitives UInt32 where
  hkdf ikm salt info n i := 3 * salt.getD 0 + 2 * (ikm * 31 + UInt32.ofNat (info.length + n + i * 7)) + 1
  dhPublic a := ByteArr.replicate 32 a.toUInt8
  diffieHellman a b := (a.toUInt8 * b.1.headD 0).toUInt32
  aeadEncrypt key nonce ad p := some (envelope key nonce ad ++ p)
  aeadDecrypt key nonce ad c := if envelope key nonce ad <+: c then some (c.drop (envelope key nonce ad).length) else none
  aesCtrKeystream key i := (key + UInt32.ofNat i).toUInt8
  sha256 b := b

lemma aeadCorrect : AeadCorrect primitives := by
  intro k n ad p c h
  simp only [primitives, some.injEq] at h
  subst h
  simp [primitives]

lemma replicate_append_inj {n m : ℕ} {a b : Bytes}
    (h : List.replicate n 1 ++ (0 :: a) = List.replicate m 1 ++ (0 :: b)) : n = m ∧ a = b := by
  induction n generalizing m with
  | zero =>
    cases m with
    | zero => simpa using h
    | succ => simp [replicate_succ] at h
  | succ n ih =>
    cases m with
    | zero => simp [replicate_succ] at h
    | succ =>
      simp only [replicate_succ, cons_append, List.cons.injEq, true_and] at h
      obtain ⟨h1, h2⟩ := ih h
      exact ⟨by rw [h1], h2⟩

lemma envelope_append_inj {k k' : UInt32} {n n' : Nonce} {ad ad' x y : Bytes} (h : envelope k n ad ++ x = envelope k' n' ad' ++ y) :
    k = k' ∧ n = n' ∧ ad = ad' ∧ x = y := by
  simp only [envelope, append_assoc, cons_append, nil_append] at h
  obtain ⟨h1, h⟩ := append_inj h (by simp)
  obtain ⟨h2, h⟩ := append_inj h (by rw [n.2, n'.2])
  obtain ⟨h3, h⟩ := replicate_append_inj h
  obtain ⟨h4, h5⟩ := append_inj h h3
  exact ⟨be32_injective h1, Subtype.ext h2, h4, h5⟩

lemma aeadBinds : AeadBinds primitives := by
  intro k n ad p c h k' ad' p' h'
  simp only [primitives, some.injEq] at h
  simp only [primitives, ite_none_right_eq_some] at h'
  obtain ⟨⟨t, ht⟩, -⟩ := h'
  rw [← h] at ht
  obtain ⟨h1, -, h3, -⟩ := envelope_append_inj ht
  exact ⟨h1, h3⟩

lemma dhCommutes : DhCommutes primitives := by
  intro a b
  simp only [primitives, ByteArr.replicate, List.replicate, headD_cons, UInt8.mul_comm]

/-- the same with an AEAD that only appends a tag of the key -/
def tagged : Primitives UInt32 :=
  { primitives with
    aeadEncrypt := fun key _ _ p => some (p ++ List.replicate aeadTagLength key.toUInt8)
    aeadDecrypt := fun key _ _ c =>
      if List.replicate aeadTagLength key.toUInt8 <:+ c then some (c.take (c.length - aeadTagLength)) else none }

lemma tagged_correct : AeadCorrect tagged := by
  intro k n ad p c h
  simp only [tagged, some.injEq] at h
  subst h
  simp [tagged]

lemma tagged_expands : AeadExpands tagged := fun k n ad p _ => ⟨_, rfl, by simp⟩

/-- a key pair is eight bytes and their sum; the ciphertext is eight bytes of randomness -/
def kem : Kem UInt32 where
  keypair r := .ok ⟨r.take 8, (r.take 8).sum.toUInt32⟩
  encapsulate pk r := .ok ⟨r.take 8, pk.sum.toUInt32 + (r.take 8).sum.toUInt32⟩
  decapsulate sk ct := .ok (sk + ct.sum.toUInt32)

lemma kem_valid (r : Bytes) : kem.Valid ⟨r, r.sum.toUInt32⟩ := by
  intro r' e h
  simp only [kem, Except.ok.injEq] at h
  subst h
  rfl

lemma kem_correct : kem.Correct := by
  intro r kp h
  simp only [kem, Except.ok.injEq] at h
  subst h
  exact kem_valid (r.take 8)

end Sample

end PqMsg
