/-
AEAD envelopes and ISO 7816-4 padding (`aead.rs`).

`unpad_pad`: removing the padding returns the plaintext, for every plaintext and block size. Padding is removed by
scanning backwards, so a plaintext that ends in `0x80 0x00 …` by itself is also cut (`unpadPlaintext_append`).
`unpadPlaintext_ok`: what is accepted.
-/
import PqMsg.Core.Primitives

namespace PqMsg.Aead

variable {Secret : Type} {P : Primitives Secret} {k : Secret}

structure CiphertextEnvelope where
  nonce : Nonce
  ciphertext : Bytes
  aad : Bytes
deriving DecidableEq, Repr

def encrypt (P : Primitives Secret) (key : Secret) (plaintext aad : Bytes) (nonce : Nonce) :
    Except CoreError CiphertextEnvelope :=
  match P.aeadEncrypt key nonce aad plaintext with
  | some ciphertext => .ok ⟨nonce, ciphertext, aad⟩
  | none => .error .aeadOperation

def decrypt (P : Primitives Secret) (key : Secret) (envelope : CiphertextEnvelope) : Except CoreError Bytes :=
  match P.aeadDecrypt key envelope.nonce envelope.aad envelope.ciphertext with
  | some plaintext => .ok plaintext
  | none => .error .aeadOperation

def paddingBlockSize : ℕ := 256

def padPlaintext (plaintext : Bytes) (blockSize : ℕ) : Bytes :=
  let paddedLen := (plaintext.length / blockSize + 1) * blockSize
  plaintext ++ [0x80] ++ List.replicate (paddedLen - (plaintext.length + 1)) 0x00

/-- the backwards scan of `unpad_plaintext`, over the reversed input -/
def unpadScan : Bytes → Except CoreError Bytes
  | [] => .error (.messageParsing "no padding delimiter found")
  | b :: rest =>
    if b = 0x80 then .ok rest.reverse
    else if b = 0x00 then unpadScan rest
    else .error (.messageParsing "invalid ISO 7816-4 padding")

def unpadPlaintext (padded : Bytes) : Except CoreError Bytes := unpadScan padded.reverse

lemma unpadScan_zeros (n : ℕ) (b : Bytes) : unpadScan (List.replicate n 0x00 ++ b) = unpadScan b := by
  induction n with
  | zero => rfl
  | succ n ih => simp only [List.replicate_succ, List.cons_append, unpadScan, ih]; simp

/-- whatever precedes the last `0x80` before the zeros is returned -/
lemma unpadPlaintext_append (p : Bytes) (n : ℕ) : unpadPlaintext (p ++ [0x80] ++ List.replicate n 0x00) = .ok p := by
  simp [unpadPlaintext, unpadScan_zeros, unpadScan]

/-- **Padding round trip** -/
lemma unpad_pad (p : Bytes) (blockSize : ℕ) : unpadPlaintext (padPlaintext p blockSize) = .ok p :=
  unpadPlaintext_append p _

lemma padPlaintext_length (p : Bytes) {blockSize : ℕ} (h : 0 < blockSize) :
    (padPlaintext p blockSize).length = (p.length / blockSize + 1) * blockSize := by
  have hlt : p.length < p.length / blockSize * blockSize + blockSize := Nat.lt_div_mul_add h
  simp only [padPlaintext, List.length_append, List.length_replicate, List.length_singleton, Nat.succ_mul]
  omega

lemma padPlaintext_least (p : Bytes) {blockSize : ℕ} (h : 0 < blockSize) :
    IsLeast {n | blockSize ∣ n ∧ p.length < n} (padPlaintext p blockSize).length := by
  rw [padPlaintext_length p h]
  refine ⟨⟨Dvd.intro_left _ rfl, Nat.succ_mul _ _ ▸ Nat.lt_div_mul_add h⟩, ?_⟩
  rintro n ⟨⟨k, rfl⟩, hlt⟩
  rw [Nat.mul_comm blockSize k]
  exact Nat.mul_le_mul_right _ (Nat.div_lt_of_lt_mul hlt)

lemma unpadScan_ok {p b : Bytes} (h : unpadScan b = .ok p) : ∃ n, b = List.replicate n 0x00 ++ 0x80 :: p.reverse := by
  induction b with
  | nil => cases h
  | cons x rest ih =>
    rw [unpadScan] at h
    split_ifs at h with hone hzero
    · cases h
      exact ⟨0, by simp [hone]⟩
    · obtain ⟨n, rfl⟩ := ih h
      exact ⟨n + 1, by rw [hzero]; rfl⟩

/-- what is accepted is a plaintext, `0x80` and zeros -/
lemma unpadPlaintext_ok {p b : Bytes} : unpadPlaintext b = .ok p ↔ ∃ n, b = p ++ [0x80] ++ List.replicate n 0x00 := by
  constructor
  · intro h
    obtain ⟨n, hn⟩ := unpadScan_ok h
    exact ⟨n, by simpa using congrArg List.reverse hn⟩
  · rintro ⟨n, rfl⟩
    exact unpadPlaintext_append p n

variable {e : CiphertextEnvelope}

lemma encrypt_ok {p aad : Bytes} {n : Nonce} (h : encrypt P k p aad n = .ok e) :
    e.nonce = n ∧ e.aad = aad ∧ P.aeadEncrypt k n aad p = some e.ciphertext := by
  unfold encrypt at h
  split at h
  · rename_i c hc
    cases h
    exact ⟨rfl, rfl, hc⟩
  · cases h

lemma decrypt_ok {p : Bytes} : decrypt P k e = .ok p ↔ P.aeadDecrypt k e.nonce e.aad e.ciphertext = some p := by
  unfold decrypt
  cases P.aeadDecrypt k e.nonce e.aad e.ciphertext <;> simp

end PqMsg.Aead
