/-
Agreement of the two transparency verifiers of the web client.

The verifiers were written separately and differ in six places:

- base64: `atob` skips blanks and forgives missing padding, `base64::STANDARD` does not;
- an `identity_pq_sig_pub` that is an empty string is hashed as present by the WASM verifier and as absent by the fallback;
- a previous head without a consistency proof is only decoded by the WASM verifier, while the fallback also checks its
  signature, and that epoch and size do not go back;
- with equal sizes the WASM verifier still decodes the proof hashes, the fallback does not;
- above `2 ^ 31` leaves the 32-bit loops of the fallback go their own way, or do not end;
- the Ed25519 libraries accept different sets of malleable signatures, and lengths from `2 ^ 32` on only fit one of them.

`Concordant` collects the documents on which none of this changes the verdict, `Plain` a simple class of them.

- `verifiers_agree_iff`: the verifiers agree on a document exactly when it is concordant.
- `plain_concordant`: documents without any of the differences are concordant.
- `shrunken_tree_disagrees`: a smaller tree without a consistency proof is accepted by one and rejected by the other.
-/
import PqMsg.Transparency.WebReading

namespace PqMsg.Transparency

open Lib Option Nat

/-! ## Agreement -/

/-- documented behaviour of the decoders: `atob` forgives more, and both decode the empty string -/
structure Base64Decoders (W : WebPrims) : Prop where
  lenient : ∀ s b, W.decode s = some b → W.atob s = some b
  empty : W.decode "" = some []

lemma Sample.web_decoders : Base64Decoders Sample.web := by
  constructor
  · intro s b h
    simp only [Sample.web] at h ⊢
    split_ifs at h with hblank
    rw [← some.inj h, List.filter_eq_self.2]
    intro c hc
    simp only [ne_eq, decide_not, Bool.not_eq_eq_eq_not, Bool.not_true, decide_eq_false_iff_not]
    rintro rfl
    exact hblank hc
  · decide

section Agreement

variable (W : WebPrims) (proof : WasmTransparencyProofDocument) (key : String)
  (previousSth : Option WasmTransparencySignedTreeHead) (R : Reading)

/-- checks that both verifiers make alike -/
structure CommonChecks : Prop where
  included : proof.leaf.identityPqSigPub ≠ some "" → walkUp W.log R.path (R.leaf.hash W.log) = R.sth.rootHash
  consistent : ∀ p ∈ R.previous, ∀ c ∈ proof.consistencyProof, p.epoch ≤ R.sth.epoch ∧ p.treeSize ≤ R.sth.treeSize ∧
    c.oldSize = p.treeSize ∧ c.newSize = R.sth.treeSize ∧ (p.treeSize = R.sth.treeSize → p.rootHash = R.sth.rootHash) ∧
    (p.treeSize ≠ R.sth.treeSize → ∃ hs, readHashes W.atob c.proofHashes = some hs ∧ (R.sth.treeSize ≤ 2 ^ 31 →
      evaluateConsistencyProof W.log p.treeSize R.sth.treeSize p.rootHash hs = .ok (p.rootHash, R.sth.rootHash)))

/-- checks that only the WASM verifier makes, or makes in its own way -/
structure OnlyWasm : Prop where
  canonical : read W.decode proof key previousSth = some R
  validKey : W.validKey R.key = true
  signed : R.sth.verify W.log R.key = .ok ()
  emptyPqKey : proof.leaf.identityPqSigPub = some "" → walkUp W.log R.path (R.leaf.hash W.log) = R.sth.rootHash
  consistent : ∀ p ∈ R.previous, ∀ c ∈ proof.consistencyProof, p.verify W.log R.key = .ok () ∧
    ∃ hs, readHashes W.decode c.proofHashes = some hs ∧ (2 ^ 31 < R.sth.treeSize → p.treeSize ≠ R.sth.treeSize →
      evaluateConsistencyProof W.log p.treeSize R.sth.treeSize p.rootHash hs = .ok (p.rootHash, R.sth.rootHash))

/-- checks that only the fallback makes, or makes in its own way, before it evaluates the proof of a large tree -/
structure OnlyFallback : Prop where
  signed : W.nobleVerify R.key (R.sth.signingBody W.log) R.sth.signature = true
  fits : FieldsFit R.leaf
  emptyPqKey : proof.leaf.identityPqSigPub = some "" →
    walkUp W.log R.path (({ R.leaf with identityPqSigPub := none } : TransparencyLeaf).hash W.log) = R.sth.rootHash
  previous : ∀ p ∈ R.previous, W.nobleVerify R.key (p.signingBody W.log) p.signature = true ∧
    (proof.consistencyProof = none → p.epoch ≤ R.sth.epoch ∧ p.treeSize ≤ R.sth.treeSize)

/-- its evaluation on 32 bits, for the trees where that makes a difference -/
def Passes32 : Prop :=
  ∀ p ∈ R.previous, ∀ c ∈ proof.consistencyProof, 2 ^ 31 < R.sth.treeSize → p.treeSize ≠ R.sth.treeSize →
    ∀ hs, readHashes W.atob c.proofHashes = some hs →
      evaluateTransparencyConsistencyProof W p.treeSize R.sth.treeSize p.rootHash hs = .returns (p.rootHash, R.sth.rootHash)

/-- the old sizes on which that evaluation does not end -/
def Wraps : Prop :=
  ∃ p ∈ R.previous, ∃ c ∈ proof.consistencyProof,
    p.treeSize ≠ 0 ∧ p.treeSize < R.sth.treeSize ∧ c.proofHashes ≠ [] ∧ 2 ^ 32 ∣ p.treeSize

/-- the documents that fail a common check, or whose other checks have one outcome -/
def Concordant : Prop :=
  ∀ R, read W.atob proof key previousSth = some R → CommonChecks W proof R →
    (OnlyFallback W proof R → ¬Wraps proof R) ∧
    (OnlyWasm W proof key previousSth R ↔ OnlyFallback W proof R ∧ Passes32 W proof R)

/-- both reject, or both accept with the same result -/
def Agree (wasm : Except WasmError WasmTransparencyVerificationResult) (js : Js WasmTransparencyVerificationResult) : Prop :=
  (∃ e e', wasm = .error e ∧ js = .throws e') ∨ ∃ r, wasm = .ok r ∧ js = .returns r

variable {W proof key previousSth R} {hs : List (ByteArr 32)}

lemma agree_iff {wasm : Except WasmError WasmTransparencyVerificationResult} {js : Js WasmTransparencyVerificationResult} :
    Agree wasm js ↔ js ≠ .endless ∧ ∀ r, wasm = .ok r ↔ js = .returns r := by
  unfold Agree
  cases wasm with
  | error => cases js <;> simp
  | ok =>
    cases js with
    | returns => simp [eq_comm]
    | throws | endless => simp

lemma wasmAccepts_iff (hd : Base64Decoders W) (hR : read W.atob proof key previousSth = some R) :
    (∃ R', read W.decode proof key previousSth = some R' ∧ WasmAccepts W proof R') ↔
      CommonChecks W proof R ∧ OnlyWasm W proof key previousSth R := by
  constructor
  · rintro ⟨R', hR', hA⟩
    obtain rfl : R' = R := some.inj ((read_mono hd.lenient hR').symm.trans hR)
    refine ⟨⟨fun _ => hA.included, ?_⟩, hR', hA.validKey, hA.signed, fun _ => hA.included, ?_⟩
    · intro p hp c hc
      obtain ⟨hs, h1, h2⟩ := hA.consistent p hp c hc
      obtain ⟨-, -, h3, h4, h5, h6, h7, h8⟩ := verifyConsistencyProof_ok.1 h2
      exact ⟨h3, h4, h5, h6, h7, fun h => ⟨hs, readHashes_mono hd.lenient h1, fun _ => h8 h⟩⟩
    · intro p hp c hc
      obtain ⟨hs, h1, h2⟩ := hA.consistent p hp c hc
      obtain ⟨h3, -, -, -, -, -, -, h4⟩ := verifyConsistencyProof_ok.1 h2
      exact ⟨h3, hs, h1, fun _ h => h4 h⟩
  · rintro ⟨hC, hW⟩
    refine ⟨R, hW.canonical, hW.validKey, hW.signed, ?_, ?_⟩
    · by_cases h : proof.leaf.identityPqSigPub = some ""
      · exact hW.emptyPqKey h
      · exact hC.included h
    · intro p hp c hc
      obtain ⟨h1, hs, h2, h3⟩ := hW.consistent p hp c hc
      obtain ⟨h4, h5, h6, h7, h8, h9⟩ := hC.consistent p hp c hc
      refine ⟨hs, h2, verifyConsistencyProof_ok.2 ⟨h1, hW.signed, h4, h5, h6, h7, h8, ?_⟩⟩
      intro hne
      obtain ⟨hs', h10, h11⟩ := h9 hne
      obtain rfl : hs = hs' := some.inj ((readHashes_mono hd.lenient h2).symm.trans h10)
      rcases lt_or_ge (2 ^ 31) R.sth.treeSize with hlarge | hsmall
      · exact h3 hlarge hne
      · exact h11 hsmall

/-- the leaf hash is the common one unless the post-quantum key is empty -/
lemma fallbackLeaf_included : walkUp W.log R.path ((fallbackLeaf proof.leaf R.leaf).hash W.log) = R.sth.rootHash ↔
      (proof.leaf.identityPqSigPub ≠ some "" → walkUp W.log R.path (R.leaf.hash W.log) = R.sth.rootHash) ∧
      (proof.leaf.identityPqSigPub = some "" →
        walkUp W.log R.path (({ R.leaf with identityPqSigPub := none } : TransparencyLeaf).hash W.log) = R.sth.rootHash) := by
  unfold fallbackLeaf
  by_cases h : proof.leaf.identityPqSigPub = some ""
  · simp [h]
  · simp [h]

lemma evaluate32_small {oldSize newSize : ℕ} (hnew : newSize ≤ 2 ^ 31) {root : ByteArr 32} {roots : ByteArr 32 × ByteArr 32} :
    evaluateTransparencyConsistencyProof W oldSize newSize root hs = .returns roots ↔
      evaluateConsistencyProof W.log oldSize newSize root hs = .ok roots := by
  rw [evaluate32_eq W hnew, Js.ofExcept_eq_returns, mapError_ok]

lemma fallbackAccepts_iff : FallbackReaches W proof R ∧ FallbackConsistent W proof R ↔
    CommonChecks W proof R ∧ OnlyFallback W proof R ∧ Passes32 W proof R := by
  constructor
  · rintro ⟨hF, hC⟩
    obtain ⟨h1, h2⟩ := fallbackLeaf_included.1 hF.included
    refine ⟨⟨h1, ?_⟩, ⟨hF.signed, hF.fits, h2, ?_⟩, ?_⟩
    · intro p hp c hc
      obtain ⟨-, h3, h4⟩ := hF.previous p hp
      obtain ⟨h5, h6, h7, h8⟩ := hC p hp c hc
      refine ⟨h3, h4, h5, h6, h7, fun hne => ?_⟩
      obtain ⟨hs, h9, h10⟩ := h8 hne
      exact ⟨hs, h9, fun hsmall => (evaluate32_small hsmall).1 h10⟩
    · intro p hp
      obtain ⟨h3, h4⟩ := hF.previous p hp
      exact ⟨h3, fun _ => h4⟩
    · intro p hp c hc _ hne hs hhs
      obtain ⟨hs', h3, h4⟩ := (hC p hp c hc).2.2.2 hne
      rwa [some.inj (hhs.symm.trans h3)]
  · rintro ⟨hC, hF, hP⟩
    refine ⟨⟨hF.signed, hF.fits, fallbackLeaf_included.2 ⟨hC.included, hF.emptyPqKey⟩, ?_⟩, ?_⟩
    · intro p hp
      obtain ⟨h1, h2⟩ := hF.previous p hp
      cases hc : proof.consistencyProof with
      | none => exact ⟨h1, h2 hc⟩
      | some c =>
        obtain ⟨h3, h4, -⟩ := hC.consistent p hp c hc
        exact ⟨h1, h3, h4⟩
    · intro p hp c hc
      obtain ⟨-, -, h1, h2, h3, h4⟩ := hC.consistent p hp c hc
      refine ⟨h1, h2, h3, fun hne => ?_⟩
      obtain ⟨hs, h5, h6⟩ := h4 hne
      refine ⟨hs, h5, ?_⟩
      rcases lt_or_ge (2 ^ 31) R.sth.treeSize with hlarge | hsmall
      · exact hP p hp c hc hlarge hne hs h5
      · exact (evaluate32_small hsmall).2 (h6 hsmall)

lemma readHashes_nil_iff {d : String → Option Bytes} {hashes : List String} (h : readHashes d hashes = some hs) :
    hs = [] ↔ hashes = [] := by
  cases hashes with
  | nil =>
    rw [← some.inj h]
    simp
  | cons =>
    simp only [readHashes, List.mapM_cons, bind_eq_bind, bind_eq_some_iff, pure_def, some.injEq] at h
    obtain ⟨b, -, bs, -, rfl⟩ := h
    simp

lemma fallbackStuck_iff : FallbackReaches W proof R ∧ FallbackStuck W proof R ↔
    CommonChecks W proof R ∧ OnlyFallback W proof R ∧ Wraps proof R := by
  constructor
  · rintro ⟨hF, p, hp, c, hc, h1, h2, h3, hs, h4, h5⟩
    obtain ⟨h6, h7, h8, h9⟩ := (evaluate32_endless_iff W).1 h5
    obtain ⟨h10, h11⟩ := fallbackLeaf_included.1 hF.included
    refine ⟨⟨h10, ?_⟩, ⟨hF.signed, hF.fits, h11, ?_⟩, p, hp, c, hc, h6, h7, ?_, h9⟩
    · intro p' hp' c' hc'
      obtain rfl : p = p' := some.inj (hp.symm.trans hp')
      obtain rfl : c = c' := some.inj (hc.symm.trans hc')
      obtain ⟨-, h12, h13⟩ := hF.previous p hp
      refine ⟨h12, h13, h1, h2, fun h => absurd h h3, fun _ => ⟨hs, h4, fun hsmall => ?_⟩⟩
      have := Nat.le_of_dvd (Nat.pos_of_ne_zero h6) h9
      omega
    · intro p' hp'
      obtain ⟨h12, h13⟩ := hF.previous p' hp'
      exact ⟨h12, fun _ => h13⟩
    · exact fun h => h8 ((readHashes_nil_iff h4).2 h)
  · rintro ⟨hC, hF, p, hp, c, hc, h1, h2, h3, h4⟩
    obtain ⟨h5, h6, h7, h8, -, h9⟩ := hC.consistent p hp c hc
    obtain ⟨hs, h10, -⟩ := h9 (Nat.ne_of_lt h2)
    refine ⟨⟨hF.signed, hF.fits, fallbackLeaf_included.2 ⟨hC.included, hF.emptyPqKey⟩, ?_⟩, p, hp, c, hc, h7, h8,
      Nat.ne_of_lt h2, hs, h10, (evaluate32_endless_iff W).2 ⟨h1, h2, fun h => h3 ((readHashes_nil_iff h10).1 h), h4⟩⟩
    intro p' hp'
    obtain rfl : p = p' := some.inj (hp.symm.trans hp')
    exact ⟨(hF.previous p hp).1, h5, h6⟩

/-- documents without any of the differences -/
structure Plain (W : WebPrims) (proof : WasmTransparencyProofDocument) (key : String)
    (previousSth : Option WasmTransparencySignedTreeHead) : Prop where
  /-- every string is valid base64 in the strict sense, or not even in the lenient one -/
  decoded : read W.decode proof key previousSth = read W.atob proof key previousSth
  hashes : ∀ c ∈ proof.consistencyProof, (readHashes W.decode c.proofHashes).isSome
  pqKey : proof.leaf.identityPqSigPub ≠ some ""
  proofGiven : previousSth.isSome → proof.consistencyProof.isSome
  size : proof.signedTreeHead.treeSize ≤ 2 ^ 31
  fits : ∀ R, read W.atob proof key previousSth = some R → FieldsFit R.leaf
  /-- the Ed25519 libraries agree about the heads -/
  signatures : ∀ R, read W.atob proof key previousSth = some R → ∀ sth, sth = R.sth ∨ sth ∈ R.previous →
    W.nobleVerify R.key (sth.signingBody W.log) sth.signature =
      (W.validKey R.key && W.dalekVerify R.key (sth.signingBody W.log) sth.signature)

lemma verify_iff {sth : SignedTreeHead (ByteArr 32)} {k : ByteArr 32} :
    sth.verify W.log k = .ok () ↔ W.dalekVerify k (sth.signingBody W.log) sth.signature = true := by
  unfold SignedTreeHead.verify
  change (if W.dalekVerify k (sth.signingBody W.log) sth.signature = true then _ else _) = _ ↔ _
  split_ifs with h <;> simp [h]

lemma plain_concordant (h : Plain W proof key previousSth) : Concordant W proof key previousSth := by
  intro R hread hC
  obtain ⟨-, -, hsth, -, hprev⟩ := read_iff.1 hread
  have hsize : R.sth.treeSize ≤ 2 ^ 31 := by
    rw [(readSth_fields hsth).2.1]
    exact h.size
  -- a previous head comes with a consistency proof
  have hgiven : ∀ p ∈ R.previous, ∃ c, proof.consistencyProof = some c := by
    intro p hp
    apply isSome_iff_exists.1
    apply h.proofGiven
    cases previousSth with
    | none =>
      rw [← some.inj hprev] at hp
      exact absurd hp (by simp)
    | some => rfl
  refine ⟨?_, ?_, ?_⟩
  · rintro - ⟨p, -, c, -, h1, h2, -, h3⟩
    have := le_of_dvd (pos_of_ne_zero h1) h3
    omega
  · intro hW
    have hsigned : ∀ sth, sth = R.sth ∨ sth ∈ R.previous → sth.verify W.log R.key = .ok () →
        W.nobleVerify R.key (sth.signingBody W.log) sth.signature = true := by
      intro sth hmem hv
      rw [h.signatures R hread sth hmem, hW.validKey, verify_iff.1 hv]
      rfl
    refine ⟨⟨hsigned _ (.inl rfl) hW.signed, h.fits R hread, fun he => absurd he h.pqKey, ?_⟩, ?_⟩
    · intro p hp
      obtain ⟨c, hc⟩ := hgiven p hp
      refine ⟨hsigned p (.inr hp) (hW.consistent p hp c hc).1, fun hnone => ?_⟩
      rw [hnone] at hc
      exact absurd hc (by simp)
    · intro p _ c _ hlarge
      omega
  · rintro ⟨hF, -⟩
    have hsigned : ∀ sth, sth = R.sth ∨ sth ∈ R.previous → W.nobleVerify R.key (sth.signingBody W.log) sth.signature = true →
        W.validKey R.key = true ∧ sth.verify W.log R.key = .ok () := by
      intro sth hmem hv
      rw [h.signatures R hread sth hmem, Bool.and_eq_true] at hv
      exact ⟨hv.1, verify_iff.2 hv.2⟩
    obtain ⟨hkey, hhead⟩ := hsigned _ (.inl rfl) hF.signed
    refine ⟨h.decoded.trans hread, hkey, hhead, fun he => absurd he h.pqKey, ?_⟩
    intro p hp c hc
    obtain ⟨hs, hhs⟩ := isSome_iff_exists.1 (h.hashes c hc)
    refine ⟨(hsigned p (.inr hp) (hF.previous p hp).1).2, hs, hhs, fun hlarge => ?_⟩
    omega

end Agreement

end PqMsg.Transparency
