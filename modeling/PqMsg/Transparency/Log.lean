/-
The key transparency log (`key_transparency.rs`): leaf hashes, signed tree heads, the Merkle tree, inclusion and
consistency proofs, with their builders and verifiers.

SHA-256 and Ed25519 are parameters (`LogPrims`). `Hash` is the type of hash values, `[u8; 32]` in the code, which copies
and compares them and hashes their bytes. `u64` and `usize` values are natural numbers: nothing is added to a size, `- 1`
is taken of positive ones only, and the number of leaves in memory is far below `2 ^ 64`. The shifting loops run on a fuel
that is never exhausted, since every iteration halves a number that is not 0.

- `buildTreeRoot_eq`: the root loop computes `Merkle.root`.
- `treeRoot_rfc6962_iff`: the root is the one of RFC 6962; the split in `build_consistency_proof_inner` is the one of RFC 6962
  only for powers of two.
- `evalLoop_odd`, `evalLoop_last`, `evalLoop_inner`: the three things one proof hash can do in
  `evaluate_consistency_proof`.
-/
import PqMsg.Core.Primitives
import PqMsg.Lib.Merkle

namespace PqMsg.Transparency

open Lib List Nat Merkle

def leafPrefix : UInt8 := 0x00
def nodePrefix : UInt8 := 0x01

/-- SHA-256 (`sha2`) and Ed25519 (`ed25519_dalek`) -/
structure LogPrims (Hash : Type) where
  sha256 : Bytes → Hash
  bytes : Hash → Bytes
  /-- `VerifyingKey::from_bytes` accepts the key -/
  validKey : ByteArr 32 → Bool
  /-- `Signature::from_slice` and `verify`: key, message, signature -/
  verify : ByteArr 32 → Bytes → Bytes → Bool

variable {Hash : Type} (L : LogPrims Hash)

/-- `u64::to_be_bytes` -/
def be64 (x : ℕ) : Bytes :=
  [UInt8.ofNat (x / 2 ^ 56), UInt8.ofNat (x / 2 ^ 48), UInt8.ofNat (x / 2 ^ 40), UInt8.ofNat (x / 2 ^ 32),
    UInt8.ofNat (x / 2 ^ 24), UInt8.ofNat (x / 2 ^ 16), UInt8.ofNat (x / 2 ^ 8), UInt8.ofNat x]

/-! ## Leaves and nodes -/

structure TransparencyLeaf where
  userId : String
  version : ℕ
  identityX25519Pub : ByteArr 32
  identitySigPub : Bytes
  identityPqSigPub : Option Bytes
  timestamp : ℕ
deriving DecidableEq

/-- `update_len_prefixed` -/
def lenPrefixed (b : Bytes) : Bytes := be32 (UInt32.ofNat b.length) ++ b

/-- `match &self.identity_pq_sig_pub` of `TransparencyLeaf::hash` -/
def pqSigPubBytes : Option Bytes → Bytes
  | some value => [0x01] ++ lenPrefixed value
  | none => [0x00]

/-- the bytes that `TransparencyLeaf::hash` hashes -/
def TransparencyLeaf.preimage (leaf : TransparencyLeaf) : Bytes :=
  [leafPrefix] ++ lenPrefixed leaf.userId.toUTF8.toList ++ be64 leaf.version ++ leaf.identityX25519Pub.1 ++
    lenPrefixed leaf.identitySigPub ++ pqSigPubBytes leaf.identityPqSigPub ++ be64 leaf.timestamp

def TransparencyLeaf.hash (leaf : TransparencyLeaf) : Hash := L.sha256 leaf.preimage

def hashNode (left right : Hash) : Hash := L.sha256 ([nodePrefix] ++ L.bytes left ++ L.bytes right)

/-! ## Signed tree heads -/

structure SignedTreeHead (Hash : Type) where
  epoch : ℕ
  treeSize : ℕ
  rootHash : Hash
  signature : Bytes
deriving DecidableEq

def SignedTreeHead.signingBody (sth : SignedTreeHead Hash) : Bytes :=
  be64 sth.epoch ++ be64 sth.treeSize ++ L.bytes sth.rootHash

def SignedTreeHead.verify (sth : SignedTreeHead Hash) (serverPubKey : ByteArr 32) : Except CoreError Unit :=
  if L.verify serverPubKey (sth.signingBody L) sth.signature then .ok () else .error .signatureVerificationFailed

/-! ## Inclusion proofs -/

structure InclusionProof (Hash : Type) where
  leafIndex : ℕ
  path : List (Hash × Bool)
deriving DecidableEq

/-- the loop of `verify_inclusion_proof` -/
def walkUp (path : List (Hash × Bool)) (leafHash : Hash) : Hash :=
  path.foldl (fun current step => if step.2 then hashNode L step.1 current else hashNode L current step.1) leafHash

def verifyInclusionProof [DecidableEq Hash] (leafHash : Hash) (proof : InclusionProof Hash) (sth : SignedTreeHead Hash)
    (serverPubKey : ByteArr 32) : Except CoreError Unit := do
  sth.verify L serverPubKey
  if walkUp L proof.path leafHash ≠ sth.rootHash then
    .error (.policyViolation "key_transparency.inclusion_proof_invalid")
  else .ok ()

/-! ## The tree -/

/-- the `while` loop of `build_tree_root` -/
def treeLoop : ℕ → List Hash → List Hash
  | 0, level => level
  | fuel + 1, level => if level.length > 1 then treeLoop fuel (Merkle.nextLevel (hashNode L) level) else level

variable (leafHashes : List Hash) {fn sn : ℕ}

def buildTreeRoot : Option Hash :=
  if leafHashes.isEmpty then none else (treeLoop L leafHashes.length leafHashes).head?

/-- the `while` loop of `build_inclusion_proof` -/
def inclusionLoop : ℕ → List Hash → ℕ → List (Hash × Bool)
  | 0, _, _ => []
  | fuel + 1, level, idx =>
    if level.length > 1 then
      (level[idx ^^^ 1]?).toList.map (fun h => (h, decide (idx ^^^ 1 < idx))) ++
        inclusionLoop fuel (Merkle.nextLevel (hashNode L) level) (idx / 2)
    else []

def buildInclusionProof (leafIndex : ℕ) : Option (InclusionProof Hash) :=
  if leafIndex ≥ leafHashes.length ∨ leafHashes.isEmpty then none
  else some ⟨leafIndex, inclusionLoop L leafHashes.length leafHashes leafIndex⟩

/-! ## Consistency proofs -/

structure ConsistencyProof (Hash : Type) where
  oldSize : ℕ
  newSize : ℕ
  proofHashes : List Hash
deriving DecidableEq

/-- `u64::is_power_of_two` -/
def isPowerOfTwo (n : ℕ) : Bool := n ≠ 0 && 2 ^ n.log2 = n

/-- `while (fn_idx & 1) == 1 { fn_idx >>= 1; sn_idx >>= 1 }` -/
def stripOnes : ℕ → ℕ → ℕ → ℕ × ℕ
  | 0, fn, sn => (fn, sn)
  | fuel + 1, fn, sn => if fn % 2 = 1 then stripOnes fuel (fn / 2) (sn / 2) else (fn, sn)

/-- `while fn_idx != 0 && (fn_idx & 1) == 0 { fn_idx >>= 1; sn_idx >>= 1 }` -/
def stripZeros : ℕ → ℕ → ℕ → ℕ × ℕ
  | 0, fn, sn => (fn, sn)
  | fuel + 1, fn, sn => if fn ≠ 0 ∧ fn % 2 = 0 then stripZeros fuel (fn / 2) (sn / 2) else (fn, sn)

def invalidConsistencyParams : CoreError := .policyViolation "key_transparency.invalid_consistency_params"

/-- the main loop of `evaluate_consistency_proof`, over the proof hashes not used yet -/
def evalLoop (fn sn : ℕ) (oldNode newNode : Hash) : List Hash → Except CoreError (Hash × Hash)
  | [] => if sn ≠ 0 then .error invalidConsistencyParams else .ok (oldNode, newNode)
  | hash :: rest =>
    if sn = 0 then .error invalidConsistencyParams
    else if fn % 2 = 1 ∨ fn = sn then
      evalLoop ((stripZeros fn fn sn).1 / 2) ((stripZeros fn fn sn).2 / 2) (hashNode L hash oldNode)
        (hashNode L hash newNode) rest
    else evalLoop (fn / 2) (sn / 2) oldNode (hashNode L newNode hash) rest

def evaluateConsistencyProof (oldSize newSize : ℕ) (oldRootHash : Hash) (proofHashes : List Hash) :
    Except CoreError (Hash × Hash) :=
  if oldSize = 0 ∨ oldSize > newSize then .error invalidConsistencyParams
  else if oldSize = newSize then .error invalidConsistencyParams
  else
    match proofHashes with
    | [] => .error invalidConsistencyParams
    | first :: rest =>
      let (fn, sn) := stripOnes (oldSize - 1) (oldSize - 1) (newSize - 1)
      if isPowerOfTwo oldSize then evalLoop L fn sn oldRootHash oldRootHash (first :: rest)
      else evalLoop L fn sn first first rest

def verifyConsistencyProof [DecidableEq Hash] (oldSth newSth : SignedTreeHead Hash) (proof : ConsistencyProof Hash)
    (serverPubKey : ByteArr 32) : Except CoreError Unit := do
  oldSth.verify L serverPubKey
  newSth.verify L serverPubKey
  if newSth.epoch < oldSth.epoch then .error (.policyViolation "key_transparency.epoch_regression")
  else if newSth.treeSize < oldSth.treeSize then .error (.policyViolation "key_transparency.tree_shrunk")
  else if proof.oldSize ≠ oldSth.treeSize ∨ proof.newSize ≠ newSth.treeSize then
    .error (.policyViolation "key_transparency.proof_size_mismatch")
  else if oldSth.treeSize = newSth.treeSize then
    if oldSth.rootHash ≠ newSth.rootHash then .error (.policyViolation "key_transparency.root_hash_mismatch") else .ok ()
  else do
    let (oldRoot, newRoot) ← evaluateConsistencyProof L oldSth.treeSize newSth.treeSize oldSth.rootHash proof.proofHashes
    if oldRoot ≠ oldSth.rootHash then .error (.policyViolation "key_transparency.old_root_mismatch")
    else if newRoot ≠ newSth.rootHash then .error (.policyViolation "key_transparency.new_root_mismatch")
    else .ok ()

/-- `1 << (usize::BITS - n.leading_zeros() - 2)`; `log2 n + 1` is the number of bits without leading zeros -/
def largestPowerOfTwoLessThan (n : ℕ) : ℕ := 2 ^ (n.log2 + 1 - 2)

/-- `build_consistency_proof_inner`; what it pushes, in order. `fuel` bounds the recursion depth. -/
def buildConsistencyProofInner : ℕ → List Hash → ℕ → Bool → Option (List Hash)
  | 0, _, _, _ => none
  | fuel + 1, leafHashes, oldSize, isKnownSubtree =>
    let newSize := leafHashes.length
    if oldSize = 0 ∨ oldSize > newSize ∨ newSize = 0 then none
    else if oldSize = newSize then
      if !isKnownSubtree then (buildTreeRoot L leafHashes).map ([·]) else some []
    else
      let split := largestPowerOfTwoLessThan newSize
      if oldSize ≤ split then do
        let proofHashes ← buildConsistencyProofInner fuel (leafHashes.take split) oldSize isKnownSubtree
        let right ← buildTreeRoot L (leafHashes.drop split)
        return proofHashes ++ [right]
      else do
        let proofHashes ← buildConsistencyProofInner fuel (leafHashes.drop split) (oldSize - split) false
        let left ← buildTreeRoot L (leafHashes.take split)
        return proofHashes ++ [left]

def buildConsistencyProof (oldSize : ℕ) : Option (ConsistencyProof Hash) :=
  let newSize := leafHashes.length
  if oldSize = 0 ∨ oldSize > newSize ∨ newSize = 0 then none
  else if oldSize = newSize then some ⟨oldSize, newSize, []⟩
  else (buildConsistencyProofInner L newSize leafHashes oldSize true).map fun proofHashes =>
    ⟨oldSize, newSize, proofHashes⟩

/-! ## What the loops compute -/

lemma treeLoop_head (fuel : ℕ) (level : List Hash) (h : level.length ≤ fuel) :
    (treeLoop L fuel level).head? = Merkle.root (hashNode L) level := by
  induction fuel generalizing level with
  | zero =>
    rw [length_eq_zero_iff.1 (le_zero.1 h), root_nil]
    rfl
  | succ fuel ih =>
    unfold treeLoop
    split_ifs with hl
    · rw [ih _ (by rw [nextLevel_length]; omega), root_nextLevel]
    · match level, hl with
      | [], _ => rw [root_nil]; rfl
      | [a], _ => rw [root_single]; rfl
      | a :: b :: rest, hl => exact absurd (by simp) hl

/-- **The root loop computes the root** -/
lemma buildTreeRoot_eq : buildTreeRoot L leafHashes = Merkle.root (hashNode L) leafHashes := by
  unfold buildTreeRoot
  split_ifs with h
  · rw [isEmpty_iff.1 h, root_nil]
  · exact treeLoop_head L _ _ le_rfl

lemma isPowerOfTwo_iff {n : ℕ} : isPowerOfTwo n = true ↔ ∃ k, n = 2 ^ k := by
  unfold isPowerOfTwo
  simp only [ne_eq, Bool.and_eq_true, decide_eq_true_eq]
  constructor
  · rintro ⟨-, h⟩
    exact ⟨_, h.symm⟩
  · rintro ⟨k, rfl⟩
    rw [log2_two_pow]
    exact ⟨by positivity, rfl⟩

/-- enough fuel is enough -/
lemma stripZeros_fuel {a b fn : ℕ} (sn : ℕ) (ha : fn ≤ a) (hb : fn ≤ b) : stripZeros a fn sn = stripZeros b fn sn := by
  induction a generalizing b fn sn with
  | zero =>
    obtain rfl := le_zero.1 ha
    cases b with
    | zero => rfl
    | succ => simp [stripZeros]
  | succ a ih =>
    cases b with
    | zero =>
      obtain rfl := le_zero.1 hb
      simp [stripZeros]
    | succ =>
      simp only [stripZeros]
      split_ifs with h
      · exact ih _ (by omega) (by omega)
      · rfl

lemma stripZeros_odd (h : fn % 2 = 1) : stripZeros fn fn sn = (fn, sn) := by
  cases fn with
  | zero => rfl
  | succ =>
    rw [stripZeros, if_neg]
    omega

lemma stripZeros_even (h0 : fn ≠ 0) (h : fn % 2 = 0) : stripZeros fn fn sn = stripZeros (fn / 2) (fn / 2) (sn / 2) := by
  obtain ⟨k, rfl⟩ := exists_eq_succ_of_ne_zero h0
  rw [stripZeros, if_pos ⟨h0, h⟩]
  exact stripZeros_fuel _ (by omega) le_rfl

lemma stripOnes_odd (h : fn % 2 = 1) : stripOnes fn fn sn = stripOnes (fn / 2) (fn / 2) (sn / 2) := by
  have hfuel : ∀ a b f s, f ≤ a → f ≤ b → stripOnes a f s = stripOnes b f s := by
    intro a
    induction a with
    | zero =>
      intro b f s ha hb
      obtain rfl := le_zero.1 ha
      cases b with
      | zero => rfl
      | succ => simp [stripOnes]
    | succ a ih =>
      intro b f s ha hb
      cases b with
      | zero =>
        obtain rfl := le_zero.1 hb
        simp [stripOnes]
      | succ =>
        simp only [stripOnes]
        split_ifs with hf
        · exact ih _ _ _ (by omega) (by omega)
        · rfl
  obtain ⟨k, rfl⟩ : ∃ k, fn = k + 1 := ⟨fn - 1, by omega⟩
  rw [stripOnes, if_pos h]
  exact hfuel _ _ _ _ (by omega) le_rfl

lemma stripOnes_even (h : fn % 2 ≠ 1) : stripOnes fn fn sn = (fn, sn) := by
  cases fn with
  | zero => rfl
  | succ => rw [stripOnes, if_neg h]

section Steps

variable {fn sn : ℕ} (o n : Hash) {x : Hash × Hash}

/-- at the top, the proof must be used up -/
lemma evalLoop_top (fn : ℕ) (hs : List Hash) : evalLoop L fn 0 o n hs = .ok x ↔ hs = [] ∧ x = (o, n) := by
  cases hs with
  | nil => simp [evalLoop, eq_comm]
  | cons => simp [evalLoop]

/-- below the top, a hash is needed -/
lemma evalLoop_nil (fn : ℕ) (h : sn ≠ 0) : evalLoop L fn sn o n [] ≠ .ok x := by
  simp [evalLoop, h]

/-- a right child in both trees: the hash is its left sibling -/
lemma evalLoop_odd (h0 : sn ≠ 0) (h : fn % 2 = 1) (x : Hash) (hs : List Hash) :
    evalLoop L fn sn o n (x :: hs) = evalLoop L (fn / 2) (sn / 2) (hashNode L x o) (hashNode L x n) hs := by
  rw [evalLoop, if_neg h0, if_pos (.inl h), stripZeros_odd h]

/-- the last node of both trees without a sibling: it is promoted -/
lemma evalLoop_last (h0 : sn ≠ 0) (h : sn % 2 = 0) (hs : List Hash) :
    evalLoop L sn sn o n hs = evalLoop L (sn / 2) (sn / 2) o n hs := by
  have h2 : sn / 2 ≠ 0 := by omega
  cases hs with
  | nil => simp [evalLoop, h0, h2]
  | cons =>
    rw [evalLoop, if_neg h0, if_pos (.inr rfl), evalLoop, if_neg h2, if_pos (.inr rfl), stripZeros_even h0 h]

/-- a left child with a right sibling in the new tree only: the old node is promoted -/
lemma evalLoop_inner (h0 : sn ≠ 0) (h : fn % 2 ≠ 1) (hne : fn ≠ sn) (x : Hash) (hs : List Hash) :
    evalLoop L fn sn o n (x :: hs) = evalLoop L (fn / 2) (sn / 2) o (hashNode L n x) hs := by
  rw [evalLoop, if_neg h0, if_neg (not_or.2 ⟨h, hne⟩)]

end Steps

/-! ## Accepted heads -/

section Accepted

variable {L} [DecidableEq Hash] {oldSth newSth : SignedTreeHead Hash} {proof : ConsistencyProof Hash} {key : ByteArr 32}

/-- everything `verify_inclusion_proof` checks -/
lemma verifyInclusionProof_ok {leafHash : Hash} {inclusion : InclusionProof Hash} :
    verifyInclusionProof L leafHash inclusion newSth key = .ok () ↔
      newSth.verify L key = .ok () ∧ walkUp L inclusion.path leafHash = newSth.rootHash := by
  simp [verifyInclusionProof, bind_ok, Unique.exists_iff]

/-- everything `verify_consistency_proof` checks -/
lemma verifyConsistencyProof_ok : verifyConsistencyProof L oldSth newSth proof key = .ok () ↔
      oldSth.verify L key = .ok () ∧ newSth.verify L key = .ok () ∧ oldSth.epoch ≤ newSth.epoch ∧
      oldSth.treeSize ≤ newSth.treeSize ∧ proof.oldSize = oldSth.treeSize ∧ proof.newSize = newSth.treeSize ∧
      (oldSth.treeSize = newSth.treeSize → oldSth.rootHash = newSth.rootHash) ∧
      (oldSth.treeSize ≠ newSth.treeSize →
        evaluateConsistencyProof L oldSth.treeSize newSth.treeSize oldSth.rootHash proof.proofHashes =
          .ok (oldSth.rootHash, newSth.rootHash)) := by
  have hunit : ∀ x : Except CoreError Unit, (∃ a, x = .ok a) ↔ x = .ok () :=
    fun x => ⟨fun ⟨(), h⟩ => h, fun h => ⟨(), h⟩⟩
  unfold verifyConsistencyProof
  by_cases hsize : oldSth.treeSize = newSth.treeSize
  · simp [bind_ok, check_ok, hsize, and_assoc, hunit]
  · simp only [bind_ok, check_ok, if_neg hsize, not_not]
    simp [hsize, and_assoc, hunit]

end Accepted

/-! ## A sample log

Hash values are the hashed bytes themselves and a signature is the signed text. -/

namespace Sample

/-- a hash value within other bytes, with its length in unary in front -/
def delimited (b : Bytes) : Bytes := List.replicate b.length 1 ++ 0 :: b

def logPrims : LogPrims Bytes where
  sha256 b := b
  bytes := delimited
  validKey _ := true
  verify _ message signature := message = signature

lemma delimited_append_inj {a b x y : Bytes} (h : delimited a ++ x = delimited b ++ y) : a = b ∧ x = y := by
  simp only [delimited, append_assoc, cons_append] at h
  obtain ⟨hlen, h⟩ := PqMsg.Sample.replicate_append_inj h
  exact append_inj h hlen

lemma hashNode_injective : Function.Injective2 (hashNode logPrims) := by
  intro a a' b b' h
  simp only [hashNode, logPrims, cons_append, nil_append, List.cons.injEq, true_and] at h
  obtain ⟨ha, hb⟩ := delimited_append_inj h
  refine ⟨ha, (delimited_append_inj (x := []) (y := []) ?_).1⟩
  rw [hb]

lemma hashNode_acyclic (a b : Bytes) : hashNode logPrims a b ≠ a := by
  intro h
  have hlen := congrArg List.length h
  simp only [hashNode, logPrims, delimited, length_append, length_cons, length_replicate, length_nil] at hlen
  omega

/-- a signed head over the given leaves -/
def head (epoch : ℕ) (leafHashes : List Bytes) : SignedTreeHead Bytes :=
  let sth : SignedTreeHead Bytes := ⟨epoch, leafHashes.length, (buildTreeRoot logPrims leafHashes).getD [], []⟩
  { sth with signature := sth.signingBody logPrims }

def key : ByteArr 32 := ByteArr.replicate 32 0

end Sample

/-! ## The tree hash of RFC 6962 -/

/-- the Merkle tree hash of RFC 6962, section 2.1: split at the largest power of two smaller than the number of leaves -/
def merkleTreeHash (leafHashes : List Hash) : Option Hash :=
  if 2 ≤ leafHashes.length then do
    let left ← merkleTreeHash (leafHashes.take (leftSize leafHashes.length))
    let right ← merkleTreeHash (leafHashes.drop (leftSize leafHashes.length))
    return hashNode L left right
  else leafHashes.head?
termination_by leafHashes.length
decreasing_by
  · rw [length_take]
    exact (min_le_left _ _).trans_lt (Merkle.leftSize_lt ‹_›)
  · rw [length_drop]
    exact Nat.sub_lt (by omega) (Nat.two_pow_pos _)

/-- pairing from the bottom and splitting from the top give the same hash -/
lemma buildTreeRoot_eq_merkleTreeHash (leafHashes : List Hash) : buildTreeRoot L leafHashes = merkleTreeHash L leafHashes := by
  rw [buildTreeRoot_eq]
  induction hn : leafHashes.length using Nat.strong_induction_on generalizing leafHashes with
  | _ n ih =>
    subst hn
    rw [merkleTreeHash]
    split_ifs with h
    · obtain ⟨x, y, hx, hy, hroot⟩ := root_split (hashNode L) h
      have hlt := leftSize_lt h
      have hpos : 0 < leftSize leafHashes.length := Nat.two_pow_pos _
      rw [← ih _ (by rw [length_take]; omega) _ rfl, ← ih _ (by rw [length_drop]; omega) _ rfl, hx, hy, hroot]
      rfl
    · match leafHashes, h with
      | [], _ => rw [root_nil]; rfl
      | [a], _ => rw [root_single]; rfl
      | a :: b :: rest, h => exact absurd (by simp) h

/-- `p` is the largest power of two smaller than `n` -/
def IsSplit (n p : ℕ) : Prop := IsGreatest {p | (∃ k, p = 2 ^ k) ∧ p < n} p

lemma isSplit_leftSize {n : ℕ} (h : 2 ≤ n) : IsSplit n (Merkle.leftSize n) := by
  refine ⟨⟨⟨_, rfl⟩, leftSize_lt h⟩, ?_⟩
  rintro p ⟨⟨k, rfl⟩, hlt⟩
  refine Nat.pow_le_pow_right two_pos ?_
  rw [Nat.le_log2 (by omega)]
  omega

/-- the shift by the number of bits minus two halves the largest power of two that is not above `n` -/
lemma largestPowerOfTwoLessThan_iff {n : ℕ} (h : 2 ≤ n) : IsSplit n (largestPowerOfTwoLessThan n) ↔ ∃ k, n = 2 ^ k := by
  have hlog : 1 ≤ n.log2 := (Nat.le_log2 (by omega)).2 h
  have hhalf : largestPowerOfTwoLessThan n = 2 ^ (n.log2 - 1) := rfl
  rw [hhalf]
  constructor
  · intro hsplit
    refine ⟨n.log2, le_antisymm ?_ (Nat.log2_self_le (by omega))⟩
    by_contra hlt
    have hle := hsplit.2 ⟨⟨n.log2, rfl⟩, not_le.1 hlt⟩
    exact absurd hle (not_le.2 (Nat.pow_lt_pow_right one_lt_two (by omega)))
  · rintro ⟨k, rfl⟩
    rw [Nat.log2_two_pow] at hlog ⊢
    refine ⟨⟨⟨k - 1, rfl⟩, Nat.pow_lt_pow_right one_lt_two (by omega)⟩, ?_⟩
    rintro p ⟨⟨j, rfl⟩, hlt⟩
    have hj : j < k := (Nat.pow_lt_pow_iff_right one_lt_two).1 hlt
    exact Nat.pow_le_pow_right two_pos (by omega)

/-- **The root is the one of RFC 6962**, for all leaves; the split that proofs are built with is the one of RFC 6962 only if
the number of leaves is a power of two -/
theorem treeRoot_rfc6962_iff (leafHashes : List Hash) (hne : leafHashes ≠ []) :
    (buildTreeRoot L leafHashes = merkleTreeHash L leafHashes ∧ (2 ≤ leafHashes.length →
      IsSplit leafHashes.length (Merkle.leftSize leafHashes.length) ∧
      IsSplit leafHashes.length (largestPowerOfTwoLessThan leafHashes.length))) ↔ ∃ k, leafHashes.length = 2 ^ k := by
  rcases lt_or_ge leafHashes.length 2 with hone | htwo
  · have hlen : leafHashes.length = 2 ^ 0 := by
      have := length_pos_iff.2 hne
      omega
    exact iff_of_true ⟨buildTreeRoot_eq_merkleTreeHash L _, fun h => absurd h (not_le.2 hone)⟩ ⟨0, hlen⟩
  · rw [← largestPowerOfTwoLessThan_iff htwo]
    exact ⟨fun h => (h.2 htwo).2, fun h => ⟨buildTreeRoot_eq_merkleTreeHash L _, fun _ => ⟨isSplit_leftSize htwo, h⟩⟩⟩

/-- two leaves are split as in RFC 6962 -/
theorem treeRoot_rfc6962_two :
    [[1], [2]] ≠ ([] : List Bytes) ∧ IsSplit 2 (largestPowerOfTwoLessThan 2) ∧
    buildTreeRoot Sample.logPrims [[1], [2]] = merkleTreeHash Sample.logPrims [[1], [2]] := by
  have h := (treeRoot_rfc6962_iff Sample.logPrims [[1], [2]] (by simp)).2 ⟨1, rfl⟩
  exact ⟨by simp, (h.2 le_rfl).2, h.1⟩

/-- three leaves are split after the first one, and not after the second -/
theorem three_leaves_split : largestPowerOfTwoLessThan 3 = 1 ∧ ¬IsSplit 3 (largestPowerOfTwoLessThan 3) := by
  refine ⟨by decide, fun h => ?_⟩
  have hle : 2 ≤ largestPowerOfTwoLessThan 3 := h.2 ⟨⟨1, rfl⟩, by decide⟩
  exact absurd hle (by decide)

end PqMsg.Transparency
