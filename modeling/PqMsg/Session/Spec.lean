/-
What the session operations do, one lemma for each stage.

- `sealMessage_ok`: a sealed message decodes to its frame (`SessionState.frame`), and its ciphertext is the AEAD output
  under the associated data of its header; `openMessage_frame`: opening it under the same key returns the message.
- `encrypt_cases`, `pqSend_ok`: every way `encrypt` can go, with the state it leaves.
- `skipUntil_eq`: skipping never fails, in closed form; `takeMessageKey_cached`, `takeMessageKey_chain`.
- `decryptIncoming_ok` assembles the stages of a successful `decrypt`; `decrypt_ok` takes one apart.
- `decrypt_preserves`: what every stage keeps, `decrypt` keeps, also when it fails.
- `padding_hides_length`: the wires of messages in one block of 256 bytes are equally long.
-/
import PqMsg.Session.State

namespace PqMsg.Session

open Lib Tlv Wire Ratchet List Except SessionState AdHeader SkippedMessageKeys

variable {Secret : Type} {P : Primitives Secret}

/-! ## Sealing and opening -/

/-- the session frames its messages as version 2 -/
def SessionState.isV2 (s : SessionState Secret) : Bool := decide (s.negotiatedWireVersion ≥ wireVersionV2)

/-- what the AEAD encrypts -/
def SessionState.aeadInput (s : SessionState Secret) (message : Bytes) : Bytes :=
  if s.isV2 then Aead.padPlaintext message Aead.paddingBlockSize else message

def SessionState.headerPlaintext (s : SessionState Secret) (msgNum : UInt32) (pq : PqFields) : HeaderPlaintext :=
  ⟨s.localDh.publicKey, msgNum, s.prevChainLen, pq.stepCt, pq.targetPubHash, pq.nextPublicKey⟩

/-- the header bytes of a version 2 message -/
def SessionState.protectHeader (P : Primitives Secret) (s : SessionState Secret) (headerBytes : Bytes) : Bytes :=
  match s.sendingHeaderKey with
  | some hk => encryptHeader P hk headerBytes
  | none => headerBytes

/-- the decoded form of the message that `sealMessage` builds -/
def SessionState.frame (P : Primitives Secret) (s : SessionState Secret) (nonce : Nonce) (msgNum : UInt32)
    (pq : PqFields) (ciphertext headerBytes : Bytes) : DecodedWireMessage :=
  if s.isV2 then .v2 ⟨wireVersionV2, s.suiteId, s.protectHeader P headerBytes, nonce, ciphertext⟩
  else .v1 ⟨s.version, s.suiteId, s.localDh.publicKey, msgNum, s.prevChainLen, pq.stepCt, pq.targetPubHash,
    pq.nextPublicKey, nonce, ciphertext⟩

variable {s t : SessionState Secret} {nonce : Nonce} {k ns : Secret} {num : UInt32} {pq : PqFields}
  {m ad wire aad ct hb p : Bytes} {h : AdHeader} {rng : EncryptRng} {s' : SessionState Secret} {inc : Incoming}
  {h' : AdHeader} {ad' : Bytes}

lemma sealMessage_ok (h : s.sealMessage P nonce k num pq m ad = .ok wire) :
    ∃ aad ct hb, sessionAssociatedData (s.adHeader num pq) ad = .ok aad ∧ P.aeadEncrypt k nonce aad (s.aeadInput m) = some ct ∧
      (s.isV2 = true → (s.headerPlaintext num pq).encode = .ok hb) ∧
      decodeWireMessage wire = .ok (s.frame P nonce num pq ct hb) := by
  unfold sealMessage at h
  split at h
  · cases h
  · rename_i aad haad
    simp only at h
    split at h
    · cases h
    · rename_i env henv
      obtain ⟨hn, -, henc⟩ := Aead.encrypt_ok henv
      by_cases hv : s.negotiatedWireVersion ≥ wireVersionV2
      · have hv2 : s.isV2 = true := by simpa [isV2] using hv
        rw [if_pos hv] at h henc
        split at h
        · cases h
        · rename_i hb hhb
          refine ⟨aad, env.ciphertext, hb, haad, ?_, fun _ => hhb, ?_⟩
          · rw [aeadInput, if_pos hv2]; exact henc
          · rw [frame, if_pos hv2, ← hn]
            exact decodeWireMessage_v2 h
      · have hv2 : ¬ s.isV2 = true := by simpa [isV2] using hv
        rw [if_neg hv] at h henc
        refine ⟨aad, env.ciphertext, [], haad, ?_, fun h2 => absurd h2 hv2, ?_⟩
        · rw [aeadInput, if_neg hv2]; exact henc
        · rw [frame, if_neg hv2, ← hn]
          exact decodeWireMessage_v1 h

/-- a version 1 message is sealed once its associated data and its ciphertext are there -/
lemma sealMessage_v1 (haad : sessionAssociatedData (s.adHeader num pq) ad = .ok aad)
    (henc : P.aeadEncrypt k nonce aad (s.aeadInput m) = some ct) (hv : s.isV2 = false) :
    s.sealMessage P nonce k num pq m ad = (⟨s.version, s.suiteId, s.localDh.publicKey, num, s.prevChainLen, pq.stepCt,
      pq.targetPubHash, pq.nextPublicKey, nonce, ct⟩ : WireMessage).encode := by
  have hn : ¬ s.negotiatedWireVersion ≥ wireVersionV2 := by simpa [isV2] using hv
  rw [aeadInput, hv] at henc
  simp only [sealMessage, haad, if_neg hn, Aead.encrypt]
  rw [show P.aeadEncrypt k nonce aad m = some ct from henc]

/-- a version 2 message also needs its header -/
lemma sealMessage_v2 (haad : sessionAssociatedData (s.adHeader num pq) ad = .ok aad)
    (henc : P.aeadEncrypt k nonce aad (s.aeadInput m) = some ct) (hv : s.isV2 = true)
    (hhb : (s.headerPlaintext num pq).encode = .ok hb) :
    s.sealMessage P nonce k num pq m ad =
      (⟨wireVersionV2, s.suiteId, s.protectHeader P hb, nonce, ct⟩ : WireMessageV2).encode := by
  have hn : s.negotiatedWireVersion ≥ wireVersionV2 := by simpa [isV2] using hv
  rw [aeadInput, if_pos hv] at henc
  rw [headerPlaintext] at hhb
  simp only [sealMessage, haad, if_pos hn, Aead.encrypt, henc, hhb]
  rfl

lemma protectHeader_length (s : SessionState Secret) (hb : Bytes) : (s.protectHeader P hb).length = hb.length := by
  unfold protectHeader
  split
  · exact encryptHeader_length P _ hb
  · rfl

lemma openMessage_ok : openMessage P k inc ad = .ok p ↔ ∃ aad q, sessionAssociatedData inc.header ad = .ok aad ∧
      P.aeadDecrypt k inc.aeadNonce aad inc.ciphertext = some q ∧
      (if inc.isV2 then Aead.unpadPlaintext q else .ok q) = .ok p := by
  unfold openMessage
  cases sessionAssociatedData inc.header ad with
  | error => simp
  | ok aad =>
    cases hd : Aead.decrypt P k ⟨inc.aeadNonce, inc.ciphertext, aad⟩ with
    | error =>
      have : P.aeadDecrypt k inc.aeadNonce aad inc.ciphertext = none := by
        cases hq : P.aeadDecrypt k inc.aeadNonce aad inc.ciphertext with
        | none => rfl
        | some => rw [Aead.decrypt_ok.2 hq] at hd; cases hd
      simp [hd, this]
    | ok q =>
      have hq : P.aeadDecrypt k inc.aeadNonce aad inc.ciphertext = some q := Aead.decrypt_ok.1 hd
      simp [hd, hq]

/-- **Opening what was sealed**, under the same key and external associated data -/
lemma openMessage_frame (hA : AeadCorrect P) (haad : sessionAssociatedData (s.adHeader num pq) ad = .ok aad)
    (henc : P.aeadEncrypt k nonce aad (s.aeadInput m) = some ct) :
    openMessage P k ⟨s.adHeader num pq, nonce, ct, s.isV2⟩ ad = .ok m := by
  refine openMessage_ok.2 ⟨aad, s.aeadInput m, haad, hA _ _ _ _ _ henc, ?_⟩
  unfold aeadInput
  split_ifs with hv
  · exact Aead.unpad_pad m _
  · rfl

/-- the receiver extracts the sender's fields when it can read the header -/
lemma incomingFields_frame (hv : s.version = Wire.wireVersion)
    (hh : s.isV2 = true → t.decryptV2Header P (s.protectHeader P hb) = .ok (s.headerPlaintext num pq)) :
    t.incomingFields P (s.frame P nonce num pq ct hb) = .ok ⟨s.adHeader num pq, nonce, ct, s.isV2⟩ := by
  unfold frame
  by_cases h2 : s.isV2 = true
  · rw [if_pos h2]
    simp [incomingFields, hh h2, h2, adHeader, headerPlaintext, hv]
  · rw [if_neg h2]
    simp [incomingFields, adHeader, h2]

/-! ## Associated data -/

/-- the associated data determines the header and the external associated data -/
lemma AdHeader.records_injective (e : h.records ad = h'.records ad') : h = h' ∧ ad = ad' := by
  have hopt : ∀ (ty : UInt16) (o o' : Option Bytes), (∀ v, (⟨ty, v⟩ : TlvRecord) ∈ h.records ad ↔ o = some v) →
      (∀ v, (⟨ty, v⟩ : TlvRecord) ∈ h'.records ad' ↔ o' = some v) → o = o' := by
    intro ty o o' h1 h2
    refine Option.ext fun v => ?_
    rw [← h1, ← h2, e]
  have hct : h.pq.stepCt = h'.pq.stepCt :=
    hopt adTagPqStepCt _ _ (fun v => by simp +decide [records]) (fun v => by simp +decide [records])
  have hth : h.pq.targetPubHash = h'.pq.targetPubHash := hopt adTagPqTargetPubHash _ _
    (fun v => by simp +decide [records]) (fun v => by simp +decide [records])
  have hnp : h.pq.nextPublicKey = h'.pq.nextPublicKey :=
    hopt adTagPqNextPub _ _ (fun v => by simp +decide [records]) (fun v => by simp +decide [records])
  simp only [records, append_assoc, cons_append, nil_append, List.cons.injEq, TlvRecord.mk.injEq, true_and] at e
  obtain ⟨h1, h2, h3, h4, h5, h6, -⟩ := e
  refine ⟨?_, h6⟩
  calc h = ⟨h.version, h.suiteId, h.senderDhPub, h.msgNum, h.prevChainLen,
        ⟨h.pq.stepCt, h.pq.targetPubHash, h.pq.nextPublicKey⟩⟩ := rfl
    _ = ⟨h'.version, h'.suiteId, h'.senderDhPub, h'.msgNum, h'.prevChainLen,
        ⟨h'.pq.stepCt, h'.pq.targetPubHash, h'.pq.nextPublicKey⟩⟩ := by
      rw [be16_injective h1, be16_injective h2, Subtype.ext h3, be32_injective h4, be32_injective h5, hct, hth, hnp]
    _ = h' := rfl

lemma sessionAssociatedData_injective (e : sessionAssociatedData h ad = .ok aad)
    (e' : sessionAssociatedData h' ad' = .ok aad) : h = h' ∧ ad = ad' :=
  records_injective (encode_injective e e')

/-! ## Encryption -/

/-- the session after the sending chain has handed out a number -/
def SessionState.advanceSending (P : Primitives Secret) (s : SessionState Secret) : SessionState Secret :=
  { s with sendingChain := ⟨nextChainKey P s.sendingChain.chainKey, s.sendingChain.nextMsgNum + 1⟩ }

/-- the three ways `encrypt` can go -/
lemma encrypt_cases (P : Primitives Secret) (s : SessionState Secret) (rng : EncryptRng) (m ad : Bytes) :
    (s.sendingChain.nextMsgNum = u32Max ∧ ∃ e, s.encrypt P rng m ad = (s, .error e)) ∨
    (s.sendingChain.nextMsgNum ≠ u32Max ∧ ∃ e, (s.advanceSending P).pqSend P rng s.sendingChain.nextMsgNum = .error e ∧
      s.encrypt P rng m ad = (s.advanceSending P, .error e)) ∨
    (s.sendingChain.nextMsgNum ≠ u32Max ∧ ∃ s' pq, (s.advanceSending P).pqSend P rng s.sendingChain.nextMsgNum = .ok (s', pq) ∧
      s.encrypt P rng m ad = (s', s'.sealMessage P rng.nonce (messageKeyOf P s.sendingChain.chainKey)
        s.sendingChain.nextMsgNum pq m ad)) := by
  by_cases hn : s.sendingChain.nextMsgNum = u32Max
  · left
    exact ⟨hn, _, by rw [encrypt, ChainState.nextMessageKey, if_pos hn]⟩
  · right
    have hk := nextMessageKey_of_ne_max P hn
    cases hp : pqSend P (s.advanceSending P) rng s.sendingChain.nextMsgNum with
    | error e =>
      refine .inl ⟨hn, e, rfl, ?_⟩
      simp only [advanceSending] at hp
      simp [encrypt, hk, hp, advanceSending]
    | ok r =>
      refine .inr ⟨hn, r.1, r.2, rfl, ?_⟩
      simp only [advanceSending] at hp
      simp [encrypt, hk, hp]

/-- a PQ sender step: the session it leaves and the fields it puts on the message -/
structure PqSendStep (P : Primitives Secret) (s s' : SessionState Secret) (rng : EncryptRng) (num : UInt32)
    (pq : PqFields) (st : PqRatchetState Secret) (kem : Kem Secret) (enc : KemEncapsulation Secret)
    (next : KemKeyPair Secret) : Prop where
  hasState : s.pqState = some st
  hasKem : s.pqKem = some kem
  due : st.shouldStep num = true
  encaps : kem.encapsulate st.remotePublicKey rng.encaps = .ok enc
  keypair : kem.keypair rng.keypair = .ok next
  left : s' = { s with
    rootKey := mixRootWithPq P s.rootKey enc.sharedSecret, pqState := some (st.commitLocalKeyRotation next) }
  fields : pq = ⟨some enc.ciphertext, some (hashPublicKey P st.remotePublicKey), some next.publicKey⟩

lemma PqSendStep.unique {st st' : PqRatchetState Secret} {kem kem' : Kem Secret} {enc : KemEncapsulation Secret}
    {next : KemKeyPair Secret} (h : PqSendStep P (s.advanceSending P) s' rng num pq st kem enc next)
    (hst : s.pqState = some st') (hkem : s.pqKem = some kem') : st = st' ∧ kem = kem' :=
  ⟨Option.some.inj (h.hasState.symm.trans hst), Option.some.inj (h.hasKem.symm.trans hkem)⟩

/-- a PQ step is due at message number `num` -/
def SessionState.pqDue (s : SessionState Secret) (num : UInt32) : Bool :=
  match s.pqState, s.pqKem with
  | some st, some _ => st.shouldStep num
  | _, _ => false

lemma pqSend_ok (h : s.pqSend P rng num = .ok (s', pq)) :
    (s' = s ∧ pq = .none ∧ s.pqDue num = false) ∨ ∃ st kem enc next, PqSendStep P s s' rng num pq st kem enc next := by
  unfold pqSend at h
  cases hst : s.pqState with
  | none =>
    simp only [hst, ok.injEq, Prod.mk.injEq] at h
    exact .inl ⟨h.1.symm, h.2.symm, by simp [pqDue, hst]⟩
  | some st =>
    cases hkem : s.pqKem with
    | none =>
      simp only [hst, hkem, ok.injEq, Prod.mk.injEq] at h
      exact .inl ⟨h.1.symm, h.2.symm, by simp [pqDue, hkem]⟩
    | some kem =>
      simp only [hst, hkem] at h
      split at h
      · cases h
      · rename_i hnone
        simp only [ok.injEq, Prod.mk.injEq] at h
        exact .inl ⟨h.1.symm, h.2.symm, by simp [pqDue, hst, hkem, senderStep_none hnone]⟩
      · rename_i out hout
        simp only [ok.injEq, Prod.mk.injEq] at h
        unfold senderStep at hout
        split_ifs at hout with hdue
        · cases hout
        · split at hout
          · cases hout
          · rename_i enc he
            split at hout
            · cases hout
            · rename_i next hk
              simp only [ok.injEq, Option.some.injEq] at hout
              subst hout
              exact .inr ⟨st, kem, enc, next, hst, hkem, by simpa using hdue, he, hk, by rw [← h.1, hkem], h.2.symm⟩

/-- the PQ fields of the message that an `encrypt` call builds -/
def SessionState.nextPqFields (P : Primitives Secret) (s : SessionState Secret) (rng : EncryptRng) : PqFields :=
  if s.sendingChain.nextMsgNum = u32Max then .none
  else
    match (s.advanceSending P).pqSend P rng s.sendingChain.nextMsgNum with
    | .ok (_, pq) => pq
    | .error _ => .none

/-- the PQ side of `encrypt`: no step, and root key and PQ state stay; or one sender step -/
lemma encrypt_pq (P : Primitives Secret) (s : SessionState Secret) (rng : EncryptRng) (m ad : Bytes) :
    (s.nextPqFields P rng = .none ∧ (s.encrypt P rng m ad).1.pqState = s.pqState ∧ (s.encrypt P rng m ad).1.rootKey = s.rootKey) ∨
    ∃ st kem enc next, PqSendStep P (s.advanceSending P) (s.encrypt P rng m ad).1 rng s.sendingChain.nextMsgNum
      (s.nextPqFields P rng) st kem enc next := by
  rcases encrypt_cases P s rng m ad with ⟨hn, e, he⟩ | ⟨hn, e, hp, he⟩ | ⟨hn, s', pq, hp, he⟩
  · left
    rw [he, nextPqFields, if_pos hn]
    exact ⟨rfl, rfl, rfl⟩
  · left
    simp only [he, nextPqFields, if_neg hn, hp]
    exact ⟨trivial, rfl, rfl⟩
  · simp only [he, nextPqFields, if_neg hn, hp]
    rcases pqSend_ok hp with ⟨rfl, rfl, -⟩ | h
    · exact .inl ⟨rfl, rfl, rfl⟩
    · exact .inr h

/-- what `encrypt` can touch: the sending chain, the root key and the PQ state; the chain hands out one number unless it
is exhausted -/
lemma encrypt_frame (P : Primitives Secret) (s : SessionState Secret) (rng : EncryptRng) (m ad : Bytes) :
    ∃ rk pqs, (s.encrypt P rng m ad).1 = { s with
      sendingChain := if s.sendingChain.nextMsgNum = u32Max then s.sendingChain
        else ⟨nextChainKey P s.sendingChain.chainKey, s.sendingChain.nextMsgNum + 1⟩
      rootKey := rk, pqState := pqs } := by
  rcases encrypt_cases P s rng m ad with ⟨hn, e, he⟩ | ⟨hn, e, hp, he⟩ | ⟨hn, s', pq, hp, he⟩
  · exact ⟨s.rootKey, s.pqState, by rw [he, if_pos hn]⟩
  · exact ⟨s.rootKey, s.pqState, by rw [he, if_neg hn]; rfl⟩
  · rw [he, if_neg hn]
    rcases pqSend_ok hp with ⟨rfl, -⟩ | ⟨st, kem, enc, next, h⟩
    · exact ⟨s.rootKey, s.pqState, rfl⟩
    · exact ⟨_, _, h.left⟩

/-- a returned wire was sealed under the key and number the chain handed out -/
lemma encrypt_ok (h : (s.encrypt P rng m ad).2 = .ok wire) :
    s.sendingChain.nextMsgNum ≠ u32Max ∧ (s.encrypt P rng m ad).1.sealMessage P rng.nonce
      (messageKeyOf P s.sendingChain.chainKey) s.sendingChain.nextMsgNum (s.nextPqFields P rng) m ad = .ok wire := by
  rcases encrypt_cases P s rng m ad with ⟨hn, e, he⟩ | ⟨hn, e, hp, he⟩ | ⟨hn, s', pq, hp, he⟩
  · rw [he] at h; cases h
  · rw [he] at h; cases h
  · simp only [nextPqFields, if_neg hn, hp, he] at h ⊢
    exact ⟨hn, h⟩

/-- the PQ side of an `encrypt` call that returned a wire: a step exactly when one is due -/
lemma encrypt_ok_pq (h : (s.encrypt P rng m ad).2 = .ok wire) :
    (s.pqDue s.sendingChain.nextMsgNum = false ∧ s.nextPqFields P rng = .none ∧ (s.encrypt P rng m ad).1 = s.advanceSending P) ∨
    (s.pqDue s.sendingChain.nextMsgNum = true ∧ ∃ st kem enc next, PqSendStep P (s.advanceSending P)
      (s.encrypt P rng m ad).1 rng s.sendingChain.nextMsgNum (s.nextPqFields P rng) st kem enc next) := by
  rcases encrypt_cases P s rng m ad with ⟨hn, e, he⟩ | ⟨hn, e, hp, he⟩ | ⟨hn, s', pq, hp, he⟩
  · rw [he] at h; cases h
  · rw [he] at h; cases h
  · simp only [he, nextPqFields, if_neg hn, hp]
    rcases pqSend_ok hp with ⟨h1, h2, h3⟩ | ⟨st, kem, enc, next, hstep⟩
    · exact .inl ⟨h3, h2, h1⟩
    · refine .inr ⟨?_, st, kem, enc, next, hstep⟩
      have hst : s.pqState = some st := hstep.hasState
      have hkem : s.pqKem = some kem := hstep.hasKem
      simp [pqDue, hst, hkem, hstep.due]

/-! ## Skipping and message keys -/

/-- **Skipping never fails**: the chain moves up to `u` if it is below, and the keys passed over are cached -/
lemma skipUntil_eq (P : Primitives Secret) (s : SessionState Secret) (dh : DhPublicKey) (u : UInt32) :
    s.skipUntil P dh u = ({ s with
      receivingChain := ⟨chainKeyAt P s.receivingChain.chainKey (u.toNat - s.receivingChain.nextMsgNum.toNat),
        s.receivingChain.nextMsgNum + UInt32.ofNat (u.toNat - s.receivingChain.nextMsgNum.toNat)⟩
      skipped := s.skipped.insertAll
        (skippedEntries P dh s.receivingChain (u.toNat - s.receivingChain.nextMsgNum.toNat)) }, .ok ()) := by
  have hu := u.toNat_lt
  have hc := s.receivingChain.nextMsgNum.toNat_lt
  unfold skipUntil
  rw [skipLoop_ok P dh _ _ _ (by omega)]

lemma takeMessageKey_cached (hn : h.msgNum < s.receivingChain.nextMsgNum)
    (hk : s.skipped.lookup ⟨h.senderDhPub, h.msgNum⟩ = some k) :
    s.takeMessageKey P h = ({ s with skipped := s.skipped.erase ⟨h.senderDhPub, h.msgNum⟩ }, .ok k) := by
  simp [takeMessageKey, if_pos hn, BoundedFifo.take, hk]

/-- at or above the chain: everything in between is cached and the chain moves past the message -/
lemma takeMessageKey_chain (hn : ¬ h.msgNum < s.receivingChain.nextMsgNum) (hm : h.msgNum ≠ u32Max) :
    s.takeMessageKey P h = ({ s with
      receivingChain := ⟨chainKeyAt P s.receivingChain.chainKey
        (h.msgNum.toNat - s.receivingChain.nextMsgNum.toNat + 1), h.msgNum + 1⟩
      skipped := s.skipped.insertAll (skippedEntries P h.senderDhPub s.receivingChain
        (h.msgNum.toNat - s.receivingChain.nextMsgNum.toNat)) },
      .ok (messageKeyAt P s.receivingChain.chainKey (h.msgNum.toNat - s.receivingChain.nextMsgNum.toNat))) := by
  unfold takeMessageKey
  rw [if_neg hn, skipUntil_eq, add_ofNat_sub hn]
  simp [nextMessageKey_of_ne_max P (c := ⟨_, h.msgNum⟩) hm, chainKeyAt_succ, messageKeyAt]

/-- what taking a key can touch below number `u32::MAX`: the cache, and the chain only by moving past the message -/
lemma takeMessageKey_frame (P : Primitives Secret) (s : SessionState Secret) (hm : h.msgNum ≠ u32Max) :
    ∃ rcv cache, (s.takeMessageKey P h).1 = { s with receivingChain := rcv, skipped := cache } ∧
      cache.maxEntries = s.skipped.maxEntries ∧ (rcv = s.receivingChain ∨
        s.receivingChain.nextMsgNum.toNat ≤ h.msgNum.toNat ∧ rcv = ⟨chainKeyAt P s.receivingChain.chainKey
          (h.msgNum.toNat - s.receivingChain.nextMsgNum.toNat + 1), h.msgNum + 1⟩) := by
  by_cases hn : h.msgNum < s.receivingChain.nextMsgNum
  · refine ⟨s.receivingChain, s.skipped.erase ⟨h.senderDhPub, h.msgNum⟩, ?_, rfl, .inl rfl⟩
    simp only [takeMessageKey, if_pos hn, BoundedFifo.take]
    cases s.skipped.lookup ⟨h.senderDhPub, h.msgNum⟩ <;> rfl
  · have hle : s.receivingChain.nextMsgNum.toNat ≤ h.msgNum.toNat := by
      rw [UInt32.lt_iff_toNat_lt] at hn; omega
    rw [takeMessageKey_chain hn hm]
    exact ⟨_, _, rfl, BoundedFifo.insertAll_maxEntries _ _, .inr ⟨hle, rfl⟩⟩

/-! ## Decryption -/

lemma pqReceive_frame {t' : SessionState Secret} (hq : t.pqReceive P h = .ok t') :
    ∃ rk pqs, t' = { t with rootKey := rk, pqState := pqs } ∧ (rk = t.rootKey ∨ ∃ ss, rk = mixRootWithPq P t.rootKey ss) := by
  unfold pqReceive at hq
  cases hct : h.pq.stepCt with
  | none =>
    simp only [hct, ok.injEq] at hq
    exact ⟨t.rootKey, t.pqState, hq.symm, .inl rfl⟩
  | some ct =>
    cases hst : t.pqState with
    | none => simp only [hct, hst] at hq; cases hq
    | some st =>
      cases hk : t.pqKem with
      | none => simp only [hct, hst, hk] at hq; cases hq
      | some kem =>
        simp only [hct, hst, hk] at hq
        split at hq
        · cases hq
        · rename_i rk st' hstep
          obtain ⟨-, ss, -, -, hrk, -⟩ := receiverStep_ok hstep
          exact ⟨_, _, (ok.inj hq).symm, .inr ⟨ss, hrk⟩⟩

lemma decrypt_eq {d : DecodedWireMessage} (hd : decodeWireMessage wire = .ok d) (hi : s.incomingFields P d = .ok inc) :
    s.decrypt P ns wire ad = s.decryptIncoming P ns inc ad := by
  simp [decrypt, hd, hi]

lemma ratchetIfNew_same (hd : h.senderDhPub = s.remoteDhPub) : s.ratchetIfNew P ns h = (s, .ok ()) := by
  simp [ratchetIfNew, hd]

/-- the stages of a successful decryption -/
lemma decryptIncoming_ok {s1 s2 s3 : SessionState Secret} (inc : Incoming) (hs : inc.header.suiteId = s.suiteId)
    (hr : s.ratchetIfNew P ns inc.header = (s1, .ok ())) (hk : s1.takeMessageKey P inc.header = (s2, .ok k))
    (ho : openMessage P k inc ad = .ok p) (hq : s2.pqReceive P inc.header = .ok s3) :
    s.decryptIncoming P ns inc ad = (s3, .ok p) := by
  simp [decryptIncoming, hs, hr, hk, ho, hq]

/-- the stages of an accepted byte string -/
structure Accepts (P : Primitives Secret) (s : SessionState Secret) (ns : Secret) (wire ad p : Bytes)
    (s' : SessionState Secret) (d : DecodedWireMessage) (inc : Incoming) (s1 s2 : SessionState Secret) (k : Secret) :
    Prop where
  decoded : decodeWireMessage wire = .ok d
  fields : s.incomingFields P d = .ok inc
  suite : inc.header.suiteId = s.suiteId
  ratcheted : s.ratchetIfNew P ns inc.header = (s1, .ok ())
  key : s1.takeMessageKey P inc.header = (s2, .ok k)
  opened : openMessage P k inc ad = .ok p
  received : s2.pqReceive P inc.header = .ok s'

lemma decrypt_ok (h : s.decrypt P ns wire ad = (s', .ok p)) : ∃ d inc s1 s2 k, Accepts P s ns wire ad p s' d inc s1 s2 k := by
  unfold decrypt at h
  split at h
  · cases h
  · rename_i d hd
    split at h
    · cases h
    · rename_i inc hi
      unfold decryptIncoming at h
      split_ifs at h with hs
      · cases h
      · split at h
        · cases h
        · rename_i s1 hr
          split at h
          · cases h
          · rename_i s2 k hk
            split at h
            · cases h
            · rename_i q ho
              split at h
              · cases h
              · rename_i s3 hq
                simp only [Prod.mk.injEq, ok.injEq] at h
                obtain ⟨rfl, rfl⟩ := h
                exact ⟨d, inc, s1, s2, k, hd, hi, not_not.1 hs, hr, hk, ho, hq⟩

/-- **What every stage keeps, `decrypt` keeps**, whether it succeeds or fails -/
lemma decrypt_preserves {I : SessionState Secret → Prop} (hr : ∀ t h, I t → I (t.ratchetIfNew P ns h).1)
    (hk : ∀ t h, I t → I (t.takeMessageKey P h).1) (hq : ∀ t t' h, t.pqReceive P h = .ok t' → I t → I t') (hs : I s) :
    I (s.decrypt P ns wire ad).1 := by
  unfold decrypt
  split
  · exact hs
  · split
    · exact hs
    · rename_i inc hi
      unfold decryptIncoming
      split_ifs
      · exact hs
      · have h1 := hr s inc.header hs
        split
        · rename_i s1 e he; rw [he] at h1; exact h1
        · rename_i s1 he
          rw [he] at h1
          have h2 := hk s1 inc.header h1
          split
          · rename_i s2 e he2; rw [he2] at h2; exact h2
          · rename_i s2 k he2
            rw [he2] at h2
            split
            · exact h2
            · split
              · exact h2
              · rename_i s3 he3
                exact hq s2 s3 _ he3 h2

/-! ## Snapshots -/

/-- a session whose cache has an admissible bound is its own snapshot -/
lemma restore_snapshot (h : s.skipped.maxEntries ≤ maxSkippedKeysUpperBound) : fromSnapshotWithKem s.snapshot s.pqKem = s := by
  have hcache : fromEntries s.skipped.maxEntries s.skipped.entries = s.skipped := by
    rw [fromEntries, new, min_eq_left h]
    exact BoundedFifo.ofEntries_entries s.skipped
  simp [fromSnapshotWithKem, snapshot, hcache]

/-- `decrypt` keeps the bound of the cache -/
lemma decrypt_window (P : Primitives Secret) (s : SessionState Secret) (ns : Secret) (wire ad : Bytes) :
    (s.decrypt P ns wire ad).1.skipped.maxEntries = s.skipped.maxEntries := by
  have hskip : ∀ t dh u, (skipUntil P t dh u).1.skipped.maxEntries = t.skipped.maxEntries := by
    intro t dh u
    rw [skipUntil_eq]
    exact BoundedFifo.insertAll_maxEntries _ _
  refine decrypt_preserves (I := fun t => t.skipped.maxEntries = s.skipped.maxEntries) (fun t h ht => ?_) (fun t h ht => ?_)
    (fun t t' h hq ht => ?_) rfl
  · rw [← ht]
    unfold ratchetIfNew
    split_ifs
    · rw [← hskip t t.remoteDhPub h.prevChainLen, skipUntil_eq]
      rfl
    · rfl
  · rw [← ht]
    unfold takeMessageKey
    split_ifs
    · simp only [BoundedFifo.take]
      cases t.skipped.lookup _ <;> rfl
    · rw [← hskip t h.senderDhPub h.msgNum, skipUntil_eq]
      dsimp only
      split <;> rfl
  · obtain ⟨rk, pqs, rfl, -⟩ := pqReceive_frame hq
    exact ht

/-! ## Lengths of messages -/

/-- ciphertexts and public keys of the KEM have fixed lengths -/
def FixedLengths (kem : Kem Secret) : Prop :=
  ∃ c p, (∀ pk r e, kem.encapsulate pk r = .ok e → e.ciphertext.length = c) ∧
    ∀ r kp, kem.keypair r = .ok kp → kp.publicKey.length = p

section

variable {rng' : EncryptRng} {m' wire' : Bytes} (hw : (s.encrypt P rng m ad).2 = .ok wire)
include hw

lemma encrypt_v2_length (htag : AeadTags P) (hv : s.isV2 = true) :
    ∃ hb, (s.headerPlaintext s.sendingChain.nextMsgNum (s.nextPqFields P rng)).encode = .ok hb ∧
      wire.length = 52 + hb.length + (Aead.padPlaintext m Aead.paddingBlockSize).length := by
  obtain ⟨-, hseal⟩ := encrypt_ok hw
  obtain ⟨aad, ct, hb, haad, hct, hhb, -⟩ := sealMessage_ok hseal
  obtain ⟨rk, pqs, he⟩ := encrypt_frame P s rng m ad
  rw [he] at hseal haad hct hhb
  refine ⟨hb, hhb hv, ?_⟩
  have hlen : ct.length = (Aead.padPlaintext m Aead.paddingBlockSize).length + aeadTagLength := by
    rw [htag _ _ _ _ _ hct, aeadInput]
    exact congrArg (List.length · + aeadTagLength) (if_pos hv)
  rw [sealMessage_v2 haad hct hv (hhb hv)] at hseal
  rw [encode_length hseal]
  simp only [WireMessageV2.records, map_cons, map_nil, sum_cons, sum_nil, be16_length, rng.nonce.2,
    protectHeader_length, hlen, aeadTagLength]
  omega

/-- the PQ fields of two messages from one session -/
lemma pqFields_lengths (hw' : (s.encrypt P rng' m' ad').2 = .ok wire') (hkem : ∀ kem, s.pqKem = some kem → FixedLengths kem) :
    (s.nextPqFields P rng = .none ∧ s.nextPqFields P rng' = .none) ∨
    ∃ ct ct' target next next', s.nextPqFields P rng = ⟨some ct, some target, some next⟩ ∧
      s.nextPqFields P rng' = ⟨some ct', some target, some next'⟩ ∧ ct.length = ct'.length ∧ next.length = next'.length := by
  rcases encrypt_ok_pq hw with ⟨hdue, hnone, -⟩ | ⟨hdue, st, kem, enc, next, hstep⟩
  · rcases encrypt_ok_pq hw' with ⟨-, hnone', -⟩ | ⟨hdue', -⟩
    · exact .inl ⟨hnone, hnone'⟩
    · rw [hdue] at hdue'
      cases hdue'
  · rcases encrypt_ok_pq hw' with ⟨hdue', -⟩ | ⟨-, st', kem', enc', next', hstep'⟩
    · rw [hdue] at hdue'
      cases hdue'
    · obtain ⟨rfl, rfl⟩ := hstep.unique hstep'.hasState hstep'.hasKem
      obtain ⟨c, p, hct, hpub⟩ := hkem kem hstep.hasKem
      refine .inr ⟨_, _, _, _, _, hstep.fields, hstep'.fields, ?_, ?_⟩
      · rw [hct _ _ _ hstep.encaps, hct _ _ _ hstep'.encaps]
      · rw [hpub _ _ hstep.keypair, hpub _ _ hstep'.keypair]

end

/-- **Padding hides the length and is reversible**, for every message and block size; only the block that the length of a
message falls into shows in the length of its wire -/
theorem padding_hides_length (htag : AeadTags P) :
    (∀ (p : Bytes) (blockSize : ℕ), 0 < blockSize → Aead.unpadPlaintext (Aead.padPlaintext p blockSize) = .ok p ∧
      IsLeast {n | blockSize ∣ n ∧ p.length < n} (Aead.padPlaintext p blockSize).length) ∧
    (∀ b p, Aead.unpadPlaintext b = .ok p ↔ ∃ n, b = p ++ [0x80] ++ List.replicate n 0x00) ∧
    ∀ (s : SessionState Secret) (rng rng' : EncryptRng) (m m' ad ad' wire wire' : Bytes), s.isV2 = true →
      (∀ kem, s.pqKem = some kem → FixedLengths kem) → (s.encrypt P rng m ad).2 = .ok wire →
      (s.encrypt P rng' m' ad').2 = .ok wire' → m.length / 256 = m'.length / 256 → wire.length = wire'.length := by
  refine ⟨fun p blockSize hpos => ⟨Aead.unpad_pad p blockSize, Aead.padPlaintext_least p hpos⟩,
    fun b p => Aead.unpadPlaintext_ok, ?_⟩
  intro s rng rng' m m' ad ad' wire wire' hv hkem h h' hblock
  obtain ⟨hb, hhb, hlen⟩ := encrypt_v2_length h htag hv
  obtain ⟨hb', hhb', hlen'⟩ := encrypt_v2_length h' htag hv
  have hheader : hb.length = hb'.length := by
    rw [encode_length hhb, encode_length hhb']
    rcases pqFields_lengths h h' hkem with ⟨hnone, hnone'⟩ | ⟨ct, ct', target, next, next', hpq, hpq', hct, hnext⟩
    · rw [hnone, hnone']
    · simp [hpq, hpq', HeaderPlaintext.records, headerPlaintext, optRecord, hct, hnext]
  rw [hlen, hlen', hheader, Aead.padPlaintext_length m (by decide), Aead.padPlaintext_length m' (by decide),
    Aead.paddingBlockSize, hblock]

/-- a session that makes a PQ step with every message, with a KEM of fixed lengths -/
def lengthSample : SessionState UInt32 :=
  fromHandshakeWithPqRatchet Sample.tagged .initiator 5 ⟨.replicate 32 1, 2⟩ (.replicate 32 3) 1 wireVersionV2 8
    ⟨1, ⟨[1], 1⟩, [2], [], 2, 0⟩ ⟨fun _ => .ok ⟨[3], 3⟩, fun _ _ => .ok ⟨[4], 4⟩, fun _ _ => .ok 4⟩

def lengthWire (draw : UInt8) (m : Bytes) : Except CoreError Bytes :=
  (lengthSample.encrypt Sample.tagged ⟨[draw], [draw], .replicate 12 draw⟩ m [draw]).2

theorem padding_hides_length_sample :
    ∃ wire wire', lengthWire 0 [7] = .ok wire ∧ lengthWire 1 [8, 9] = .ok wire' ∧ wire.length = wire'.length := by
  obtain ⟨wire, h⟩ := isOk_iff.1 (show (lengthWire 0 [7]).isOk = true by decide +kernel)
  obtain ⟨wire', h'⟩ := isOk_iff.1 (show (lengthWire 1 [8, 9]).isOk = true by decide +kernel)
  refine ⟨wire, wire', h, h', (padding_hides_length fun k n ad p c hc => ?_).2.2 _ _ _ _ _ _ _ _ _ rfl (fun kem hkem => ?_)
    h h' rfl⟩
  · cases hc
    simp
  · cases hkem
    exact ⟨1, 1, fun _ _ _ he => by cases he; rfl, fun _ _ he => by cases he; rfl⟩

end PqMsg.Session
