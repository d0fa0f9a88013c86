/-
Inclusion proofs (`verify_inclusion_proof`, `build_inclusion_proof` in `key_transparency.rs`).

The verifier takes a path of any length with any hashes and checks neither its length nor `leaf_index` against the tree. What
makes it sound is that leaves and inner nodes are hashed behind different bytes, and that the fields of a leaf can be read
back from the bytes that are hashed.

Hash values are 32 bytes in the code. A hash function into them is not injective, so the type of hash values is left open, and
`IdealHash` asks for what the fixed length gives: two hash values written one after the other can be told apart.

- `preimage_injective`: the hashed bytes determine a leaf record whose fields are shorter than `2 ^ 32` bytes.
- `inclusion_sound`: an accepted record is in the list, where the side flags of the path say.
- `inclusion_complete`: the proof that is built for an index is accepted, and there is one for every index of the list.
-/
import PqMsg.Handshake.Message
import PqMsg.Transparency.Log

namespace PqMsg.Transparency

open Lib List Option Merkle

/-- no collisions, and hash values of one length -/
structure IdealHash {Hash : Type} (L : LogPrims Hash) : Prop where
  sha256_injective : Function.Injective L.sha256
  bytes_append_inj : ∀ {a b a' b' : Hash}, L.bytes a ++ L.bytes b = L.bytes a' ++ L.bytes b' → a = a' ∧ b = b'

variable {Hash : Type} {L : LogPrims Hash} {leaf leaf' : TransparencyLeaf} {x y : Bytes}

/-! ## What is hashed for a leaf -/

lemma toList_loop (bs : ByteArray) (i : ℕ) (r : List UInt8) :
    ByteArray.toList.loop bs i r = r.reverse ++ bs.data.toList.drop i := by
  have hsize : bs.data.toList.length = bs.size := Array.length_toList
  induction hn : bs.size - i generalizing i r with
  | zero =>
    rw [ByteArray.toList.loop.eq_def, if_neg (by omega), drop_of_length_le (by omega), append_nil]
  | succ n ih =>
    have hi : i < bs.data.toList.length := by omega
    have hget : bs.get! i = bs.data.toList[i] := getElem!_pos bs.data i (by simpa using hi)
    rw [ByteArray.toList.loop.eq_def, if_pos (by omega), ih (i + 1) _ (by omega), drop_eq_getElem_cons hi, hget]
    simp

lemma toUTF8_injective {s t : String} (h : s.toUTF8.toList = t.toUTF8.toList) : s = t := by
  simp only [ByteArray.toList, toList_loop, reverse_nil, nil_append, drop_zero] at h
  exact Handshake.utf8_injective h

/-- `u64` fields, and variable-length fields shorter than `2 ^ 32` bytes -/
structure TransparencyLeaf.Sized (leaf : TransparencyLeaf) : Prop where
  userId : leaf.userId.toUTF8.toList.length < 2 ^ 32
  version : leaf.version < 2 ^ 64
  identitySigPub : leaf.identitySigPub.length < 2 ^ 32
  identityPqSigPub : ∀ value ∈ leaf.identityPqSigPub, value.length < 2 ^ 32
  timestamp : leaf.timestamp < 2 ^ 64

lemma lenPrefixed_append_inj {a b x y : Bytes} (ha : a.length < 2 ^ 32) (hb : b.length < 2 ^ 32)
    (h : lenPrefixed a ++ x = lenPrefixed b ++ y) : a = b ∧ x = y := by
  unfold lenPrefixed at h
  rw [append_assoc, append_assoc] at h
  obtain ⟨hlen, hrest⟩ := append_inj h rfl
  have hlength : a.length = b.length := by
    have := congrArg UInt32.toNat (be32_injective hlen)
    rwa [UInt32.toNat_ofNat', UInt32.toNat_ofNat', Nat.mod_eq_of_lt ha, Nat.mod_eq_of_lt hb] at this
  exact append_inj hrest hlength

lemma be64_append_inj {m n : ℕ} (hm : m < 2 ^ 64) (hn : n < 2 ^ 64) (h : be64 m ++ x = be64 n ++ y) : m = n ∧ x = y := by
  obtain ⟨hmn, hxy⟩ := append_inj h rfl
  refine ⟨?_, hxy⟩
  simp only [be64, cons.injEq, and_true, ← UInt8.toNat_inj, UInt8.toNat_ofNat'] at hmn
  omega

lemma pqSigPubBytes_append_inj {p q : Option Bytes} (hp : ∀ value ∈ p, value.length < 2 ^ 32)
    (hq : ∀ value ∈ q, value.length < 2 ^ 32) (h : pqSigPubBytes p ++ x = pqSigPubBytes q ++ y) : p = q ∧ x = y := by
  cases p with
  | none =>
    cases q with
    | none => exact ⟨rfl, (cons.inj h).2⟩
    | some => exact absurd (cons.inj h).1 (by decide)
  | some a =>
    cases q with
    | none => exact absurd (cons.inj h).1 (by decide)
    | some b =>
      obtain ⟨rfl, hxy⟩ := lenPrefixed_append_inj (hp a rfl) (hq b rfl) (cons.inj h).2
      exact ⟨rfl, hxy⟩

/-- **The hashed bytes determine the leaf** -/
lemma preimage_injective (hs : leaf.Sized) (hs' : leaf'.Sized) (h : leaf.preimage = leaf'.preimage) : leaf = leaf' := by
  simp only [TransparencyLeaf.preimage, append_assoc] at h
  obtain ⟨huser, h1⟩ := lenPrefixed_append_inj hs.userId hs'.userId (cons.inj h).2
  obtain ⟨hversion, h2⟩ := be64_append_inj hs.version hs'.version h1
  obtain ⟨hkey, h3⟩ := append_inj h2 (leaf.identityX25519Pub.2.trans leaf'.identityX25519Pub.2.symm)
  obtain ⟨hsig, h4⟩ := lenPrefixed_append_inj hs.identitySigPub hs'.identitySigPub h3
  obtain ⟨hpq, h5⟩ := pqSigPubBytes_append_inj hs.identityPqSigPub hs'.identityPqSigPub h4
  obtain ⟨htime, -⟩ := be64_append_inj (x := []) (y := []) hs.timestamp hs'.timestamp (congrArg (· ++ []) h5)
  cases leaf
  cases leaf'
  rw [TransparencyLeaf.mk.injEq]
  exact ⟨toUTF8_injective huser, hversion, Subtype.ext hkey, hsig, hpq, htime⟩

/-! ## Accepted proofs -/

namespace IdealHash

lemma hashNode_injective (hL : IdealHash L) : Function.Injective2 (hashNode L) := by
  intro a a' b b' h
  have hbytes := hL.sha256_injective h
  rw [append_assoc, append_assoc] at hbytes
  exact hL.bytes_append_inj (append_cancel_left hbytes)

/-- leaves and inner nodes start with different bytes -/
lemma hash_ne_hashNode (hL : IdealHash L) (leaf : TransparencyLeaf) (x y : Hash) : leaf.hash L ≠ hashNode L x y := by
  intro h
  have hbytes := hL.sha256_injective h
  simp only [TransparencyLeaf.preimage, append_assoc] at hbytes
  exact absurd (cons.inj hbytes).1 (by decide)

end IdealHash

/-- **Accepted records are in the log.** Whatever the path is: if the hash of a record is accepted under a head over the root of
a list of records, the record is in the list, at the position that the side flags describe. -/
theorem inclusion_sound [DecidableEq Hash] (hL : IdealHash L) (leaves : List TransparencyLeaf)
    (hleaves : ∀ leaf ∈ leaves, leaf.Sized) (sth : SignedTreeHead Hash)
    (hroot : buildTreeRoot L (leaves.map fun leaf => leaf.hash L) = some sth.rootHash) (leaf : TransparencyLeaf)
    (hleaf : leaf.Sized) (proof : InclusionProof Hash) (serverPubKey : ByteArr 32)
    (h : verifyInclusionProof L (leaf.hash L) proof sth serverPubKey = .ok ()) :
    ∃ i, Merkle.position (proof.path.map Prod.snd).reverse leaves.length = some i ∧ leaves[i]? = some leaf := by
  obtain ⟨-, hwalk⟩ := verifyInclusionProof_ok.1 h
  rw [buildTreeRoot_eq, ← hwalk] at hroot
  have hnodes : ∀ hash ∈ leaves.map (fun leaf => leaf.hash L), ∀ x y, hash ≠ hashNode L x y := by
    intro hash hmem
    obtain ⟨leaf', -, rfl⟩ := mem_map.1 hmem
    exact hL.hash_ne_hashNode leaf'
  obtain ⟨i, hi, hget⟩ := climb_sound hL.hashNode_injective hnodes (hL.hash_ne_hashNode leaf) hroot
  rw [length_map] at hi
  rw [getElem?_map] at hget
  obtain ⟨leaf', hleaf', hhash⟩ := map_eq_some_iff.1 hget
  have hmem : leaf' ∈ leaves := mem_of_getElem? hleaf'
  refine ⟨i, hi, ?_⟩
  rw [hleaf', preimage_injective (hleaves leaf' hmem) hleaf (hL.sha256_injective hhash)]

/-! ## Built proofs -/

/-- **The loop builds the way to the root** -/
lemma climb_inclusionLoop {fuel idx : ℕ} {level : List Hash} {a : Hash} (hfuel : level.length ≤ fuel)
    (ha : level[idx]? = some a) :
    root (hashNode L) level = some (climb (hashNode L) (inclusionLoop L fuel level idx) a) := by
  induction fuel generalizing level idx a with
  | zero =>
    rw [length_eq_zero_iff.1 (Nat.le_zero.1 hfuel)] at ha
    cases ha
  | succ fuel ih =>
    unfold inclusionLoop
    split_ifs with hlen
    · have hnext := climb_level (hashNode L) ha
      rw [root_step _ hlen, climb_append]
      exact ih (by rw [nextLevel_length]; omega) hnext
    · match level, ha, hlen with
      | [b], ha, _ =>
        obtain rfl : idx = 0 := by
          have := (List.getElem?_eq_some_iff.1 ha).1
          simpa using this
        rw [root_single]
        exact ha
      | b :: c :: rest, _, hlen => exact absurd (by simp) hlen

lemma buildInclusionProof_none {leafHashes : List Hash} {leafIndex : ℕ} :
    buildInclusionProof L leafHashes leafIndex = none ↔ leafHashes.length ≤ leafIndex := by
  unfold buildInclusionProof
  split_ifs with h
  · simp only [true_iff]
    rcases h with h | h
    · exact h
    · rw [isEmpty_iff.1 h]
      exact Nat.zero_le _
  · simp only [false_iff]
    exact fun hle => h (.inl hle)

/-- **Built proofs are accepted.** For every index of the list there is a proof, which is accepted for the leaf at the index
under every correctly signed head over the root; for other indices there is none. -/
theorem inclusion_complete [DecidableEq Hash] (leafHashes : List Hash) (leafIndex : ℕ) :
    (buildInclusionProof L leafHashes leafIndex = none ↔ leafHashes.length ≤ leafIndex) ∧
    ∀ leafHash, leafHashes[leafIndex]? = some leafHash →
      ∃ proof, buildInclusionProof L leafHashes leafIndex = some proof ∧
        ∀ (sth : SignedTreeHead Hash) (serverPubKey : ByteArr 32), sth.verify L serverPubKey = .ok () →
          buildTreeRoot L leafHashes = some sth.rootHash →
            verifyInclusionProof L leafHash proof sth serverPubKey = .ok () := by
  refine ⟨buildInclusionProof_none, ?_⟩
  intro leafHash hleaf
  have hlt : leafIndex < leafHashes.length := (List.getElem?_eq_some_iff.1 hleaf).1
  have hne : leafHashes ≠ [] := List.length_pos_iff.1 (by omega)
  have hbuild : buildInclusionProof L leafHashes leafIndex =
      some ⟨leafIndex, inclusionLoop L leafHashes.length leafHashes leafIndex⟩ := by
    unfold buildInclusionProof
    rw [if_neg]
    rw [List.isEmpty_iff]
    exact fun h => h.elim (fun hle => by omega) hne
  refine ⟨_, hbuild, ?_⟩
  intro sth serverPubKey hsig hroot
  refine verifyInclusionProof_ok.2 ⟨hsig, ?_⟩
  rw [buildTreeRoot_eq, climb_inclusionLoop le_rfl hleaf] at hroot
  exact Option.some.inj hroot

/-! ## A log of three records -/

namespace Sample

lemma idealHash : IdealHash logPrims where
  sha256_injective := fun _ _ h => h
  bytes_append_inj := by
    intro a b a' b' h
    obtain ⟨ha, hb⟩ := delimited_append_inj h
    refine ⟨ha, (delimited_append_inj (x := []) (y := []) ?_).1⟩
    exact congrArg (· ++ []) hb

def record (userId : String) (version : ℕ) : TransparencyLeaf :=
  ⟨userId, version, key, [7], some [8, 9], 1700000000⟩

def records : List TransparencyLeaf := [record "alice" 1, record "bob" 1, record "carol" 1]

def recordHashes : List Bytes := records.map fun leaf => leaf.hash logPrims

lemma record_sized {leaf : TransparencyLeaf} (h : leaf ∈ records) : leaf.Sized := by
  simp only [records, mem_cons, not_mem_nil, or_false] at h
  rcases h with rfl | rfl | rfl <;> constructor <;> decide +kernel

/-- the way of the third record: promoted once, then a right child -/
def carolProof : InclusionProof Bytes :=
  ⟨2, [(hashNode logPrims ((record "alice" 1).hash logPrims) ((record "bob" 1).hash logPrims), true)]⟩

lemma carolProof_accepted :
    verifyInclusionProof logPrims ((record "carol" 1).hash logPrims) carolProof (head 1 recordHashes) key = .ok () := by
  decide +kernel

end Sample

/-- the third record is found where its path says -/
theorem inclusion_sound_carol :
    Merkle.position (Sample.carolProof.path.map Prod.snd).reverse Sample.records.length = some 2 ∧
    ∃ i, Merkle.position (Sample.carolProof.path.map Prod.snd).reverse Sample.records.length = some i ∧
      Sample.records[i]? = some (Sample.record "carol" 1) :=
  ⟨by decide, inclusion_sound Sample.idealHash Sample.records (fun _ h => Sample.record_sized h)
    (Sample.head 1 Sample.recordHashes) (by decide +kernel) _ (Sample.record_sized (by decide)) Sample.carolProof Sample.key
    Sample.carolProof_accepted⟩

/-- the proof for the third record is the one with the promotion, and there is no fourth -/
theorem inclusion_complete_carol :
    buildInclusionProof Sample.logPrims Sample.recordHashes 3 = none ∧
    buildInclusionProof Sample.logPrims Sample.recordHashes 2 = some Sample.carolProof ∧
    verifyInclusionProof Sample.logPrims ((Sample.record "carol" 1).hash Sample.logPrims) Sample.carolProof
      (Sample.head 1 Sample.recordHashes) Sample.key = .ok () := by
  have hbuilt : buildInclusionProof Sample.logPrims Sample.recordHashes 2 = some Sample.carolProof := by decide +kernel
  refine ⟨(inclusion_complete Sample.recordHashes 3).1.2 (by decide), hbuilt, ?_⟩
  obtain ⟨proof, hproof, haccepted⟩ :=
    (inclusion_complete (L := Sample.logPrims) Sample.recordHashes 2).2 ((Sample.record "carol" 1).hash Sample.logPrims) rfl
  obtain rfl : Sample.carolProof = proof := some.inj (hbuilt.symm.trans hproof)
  exact haccepted _ Sample.key (by decide +kernel) (by decide +kernel)

end PqMsg.Transparency
