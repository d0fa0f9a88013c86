/-
What a call leaves behind (`encrypt`, `decrypt` and `skip_until` in `session.rs`).

Both calls change the session before the last check that can still fail, and nothing is taken back. How far a `decrypt`
call gets is decided by the header alone, which nobody has authenticated yet: a DH key other than the current one starts
a ratchet, and the two counters of the header say how many receiving keys are derived.

- `encrypt_failed`: unless the sending chain is exhausted, a failed `encrypt` call has moved it, and may have made its PQ
  step.
- `decrypt_failed_iff`: a failed `decrypt` call leaves the session as it was exactly when it has taken no key.
- `cached_key_opens`: a cached key opens its message exactly when the message has the current DH key and a number below
  the receiving chain; keys cached under an earlier DH key are never used again.
- `decrypt_derivations`: the keys that one call derives, in closed form. The size of the cache does not bound them.
-/
import PqMsg.Session.Authenticity
import PqMsg.Session.Healing

namespace PqMsg.Session

open Lib Tlv Wire Ratchet SessionState BoundedFifo

variable {Secret : Type} {P : Primitives Secret} {s : SessionState Secret} {rng : EncryptRng} {m ad wire : Bytes}
  {ns : Secret} {inc : Incoming} {h : AdHeader} {e : CoreError}

/-! ## Failed `encrypt` calls -/

lemma advanceSending_ne (hn : s.sendingChain.nextMsgNum ≠ u32Max) {rk : Secret} {pqs : Option (PqRatchetState Secret)} :
    { s.advanceSending P with rootKey := rk, pqState := pqs } ≠ s := by
  intro hs
  have hnum := congrArg (fun t => t.sendingChain.nextMsgNum.toNat) hs
  simp only [advanceSending, toNat_succ_of_ne_max hn] at hnum
  omega

/-- external associated data of more than 65535 bytes cannot be encoded -/
lemma encrypt_long_ad (had : u16Max < ad.length) : ∃ e, (s.encrypt P rng m ad).2 = .error e := by
  cases hr : (s.encrypt P rng m ad).2 with
  | error e => exact ⟨e, rfl⟩
  | ok =>
    obtain ⟨aad, ct, hb, haad, -⟩ := sealMessage_ok (encrypt_ok hr).2
    have hfit := (encode_isOk _).1 ⟨aad, haad⟩ ⟨adTagExternalAd, ad⟩ (by simp [AdHeader.records])
    exact absurd hfit (Nat.not_le.2 had)

def sampleClient (role : SessionRole) : SessionState UInt32 := sampleClients.session Sample.primitives role

/-- the fields of a byte string that reaches the ratchet: framing, header and suite are in order -/
def SessionState.reads (P : Primitives Secret) (s : SessionState Secret) (wireBytes : Bytes) : Option Incoming :=
  match decodeWireMessage wireBytes with
  | .error _ => none
  | .ok d =>
    match s.incomingFields P d with
    | .error _ => none
    | .ok inc => if inc.header.suiteId = s.suiteId then some inc else none

/-- how a byte string is read decides how `decrypt` goes on -/
lemma decrypt_reads (P : Primitives Secret) (s : SessionState Secret) (ns : Secret) (wire ad : Bytes) :
    (s.reads P wire = none ∧ ∃ e, s.decrypt P ns wire ad = (s, .error e)) ∨
      ∃ inc, s.reads P wire = some inc ∧ inc.header.suiteId = s.suiteId ∧
        s.decrypt P ns wire ad = s.decryptIncoming P ns inc ad := by
  unfold reads decrypt
  cases decodeWireMessage wire with
  | error e => exact .inl ⟨rfl, e, rfl⟩
  | ok d =>
    cases hi : s.incomingFields P d with
    | error e => exact .inl ⟨by simp [hi], e, by simp [hi]⟩
    | ok inc =>
      by_cases hs : inc.header.suiteId = s.suiteId
      · exact .inr ⟨inc, by simp [hi, if_pos hs], hs, by simp [hi]⟩
      · exact .inl ⟨by simp [hi, if_neg hs], .unsupportedAlgorithm "wire.suite_id", by
          simp [hi, decryptIncoming, if_pos hs]⟩

/-- the DH ratchet never fails, and leaves the session with the sender's DH key -/
lemma ratchetIfNew_remote (P : Primitives Secret) (s : SessionState Secret) (ns : Secret) (h : AdHeader) :
    (s.ratchetIfNew P ns h).2 = .ok () ∧ (s.ratchetIfNew P ns h).1.remoteDhPub = h.senderDhPub := by
  unfold ratchetIfNew
  split_ifs with hd
  · rw [skipUntil_eq]; exact ⟨rfl, rfl⟩
  · exact ⟨rfl, (not_not.1 hd).symm⟩

lemma erase_eq_self {c : SkippedMessageKeys Secret} {id : SkippedKeyId} : c.erase id = c ↔ c.lookup id = none := by
  constructor
  · intro he
    cases hl : c.lookup id with
    | none => rfl
    | some =>
      have hmem := lookup_eq_some.1 hl
      rw [← he, mem_erase] at hmem
      exact absurd rfl hmem.2
  · intro hl
    refine ext_entries rfl (List.filter_eq_self.2 fun x hx => ?_)
    have hne : x.1 ≠ id := by
      rintro rfl
      rw [lookup_eq_some.2 hx] at hl
      cases hl
    simpa using hne

/-- the receiving chain has come to its end, and the message has the number after the last -/
def SessionState.AtEnd (s : SessionState Secret) (h : AdHeader) : Prop :=
  s.receivingChain.nextMsgNum = u32Max ∧ h.msgNum = u32Max

/-- taking a key changes at most the receiving chain and the cache: the chain stays for a number below it and at its end,
the cache if it also has no entry for the message -/
lemma takeMessageKey_left (P : Primitives Secret) (s : SessionState Secret) (h : AdHeader) :
    ∃ rcv cache, (s.takeMessageKey P h).1 = { s with receivingChain := rcv, skipped := cache } ∧
      (rcv = s.receivingChain ↔ h.msgNum < s.receivingChain.nextMsgNum ∨ s.AtEnd h) ∧
      (rcv = s.receivingChain ∧ cache = s.skipped ↔ h.msgNum < s.receivingChain.nextMsgNum ∧
        s.skipped.lookup ⟨h.senderDhPub, h.msgNum⟩ = none ∨ s.AtEnd h) := by
  by_cases hn : h.msgNum < s.receivingChain.nextMsgNum
  · have hend : ¬ s.AtEnd h := by
      rintro ⟨h1, h2⟩
      rw [h1, h2] at hn
      exact absurd hn (by decide)
    refine ⟨s.receivingChain, s.skipped.erase ⟨h.senderDhPub, h.msgNum⟩, ?_, by simp [hn], ?_⟩
    · simp only [takeMessageKey, if_pos hn, take]
      cases s.skipped.lookup ⟨h.senderDhPub, h.msgNum⟩ <;> rfl
    · simp [erase_eq_self, hn, hend]
  · have hle : s.receivingChain.nextMsgNum.toNat ≤ h.msgNum.toNat := by
      rw [UInt32.lt_iff_toNat_lt] at hn; omega
    by_cases hm : h.msgNum = u32Max
    · -- the chain is walked to its end, where `next_message_key` fails
      have htake : (s.takeMessageKey P h).1 = (s.skipUntil P h.senderDhPub h.msgNum).1 := by
        rw [takeMessageKey, if_neg hn, skipUntil_eq, add_ofNat_sub hn]
        simp [ChainState.nextMessageKey, if_pos hm]
      rw [htake, skipUntil_eq, add_ofNat_sub hn]
      by_cases hmax : s.receivingChain.nextMsgNum = u32Max
      · have hend : s.AtEnd h := ⟨hmax, hm⟩
        refine ⟨_, _, rfl, ?_, ?_⟩
        all_goals simp [hend, hm, hmax, skippedEntries, insertAll]
        all_goals rw [← hmax]
      · have hend : ¬ s.AtEnd h := fun h' => hmax h'.1
        have hne : ∀ ck, (⟨ck, h.msgNum⟩ : ChainState Secret) ≠ s.receivingChain := by
          intro ck hc
          exact hmax (by rw [← hc]; exact hm)
        exact ⟨_, _, rfl, by simp [hn, hend, hne], by simp [hn, hend, hne]⟩
    · have hend : ¬ s.AtEnd h := fun h' => hm h'.2
      have hne : ∀ ck, (⟨ck, h.msgNum + 1⟩ : ChainState Secret) ≠ s.receivingChain := by
        intro ck hc
        have := congrArg (fun c => c.nextMsgNum.toNat) hc
        simp only [toNat_succ_of_ne_max hm] at this
        omega
      rw [takeMessageKey_chain hn hm]
      exact ⟨_, _, rfl, by simp [hn, hend, hne], by simp [hn, hend, hne]⟩

/-- what was done up to taking the key stays, whichever stage fails; and no more is done without a PQ step -/
lemma decryptIncoming_left (hs : inc.header.suiteId = s.suiteId)
    (he : (∃ e, (s.decryptIncoming P ns inc ad).2 = .error e) ∨ inc.header.pq.stepCt = none) :
    (s.decryptIncoming P ns inc ad).1 = ((s.ratchetIfNew P ns inc.header).1.takeMessageKey P inc.header).1 := by
  obtain ⟨hok, -⟩ := ratchetIfNew_remote P s ns inc.header
  cases hr : s.ratchetIfNew P ns inc.header with
  | mk s1 =>
    rw [hr] at hok
    cases hok
    simp only [decryptIncoming, hs, ne_eq, not_true_eq_false, if_false, hr] at he ⊢
    rcases hk : s1.takeMessageKey P inc.header with ⟨s2, e' | key⟩
    · rfl
    · cases ho : openMessage P key inc ad with
      | error => simp [ho]
      | ok =>
        cases hq : s2.pqReceive P inc.header with
        | error => simp [ho, hq]
        | ok =>
          simp only [hk, ho, hq] at he ⊢
          rcases he with ⟨e, he⟩ | he
          · cases he
          · rw [pqReceive_none he] at hq
            exact (Except.ok.inj hq).symm

/-! ## Failed `decrypt` calls -/

/-- the input is rejected before a key is taken: it cannot be read, its key is not there any more, or the receiving
chain has come to its end -/
def SessionState.TakesNoKey (P : Primitives Secret) (s : SessionState Secret) (wireBytes : Bytes) : Prop :=
  match s.reads P wireBytes with
  | none => True
  | some inc => inc.header.senderDhPub = s.remoteDhPub ∧
      (inc.header.msgNum < s.receivingChain.nextMsgNum ∧
          s.skipped.lookup ⟨inc.header.senderDhPub, inc.header.msgNum⟩ = none ∨ s.AtEnd inc.header)

variable (dh : DhPublicKey)

/-- a version 1 message to the responder with the DH key `dh` and the number `num` -/
def wireFor (num : UInt32) (ciphertext : Bytes) : Bytes :=
  match (⟨Wire.wireVersion, 1, dh, num, 0, none, none, none, sampleRng.nonce, ciphertext⟩ : WireMessage).encode with
  | .ok wire => wire
  | .error _ => []

/-- the DH key of the initiator -/
def currentDh : DhPublicKey := (sampleClient .responder).remoteDhPub

/-- **Cached keys.** A message without PQ fields that was encrypted under the cached key of its DH key and number is
opened, with no other change than that the entry is gone, exactly when its DH key is the current one and its number is
below the receiving chain. -/
theorem cached_key_opens (hA : AeadCorrect P) (s : SessionState Secret) (ns : Secret) (wire ad m aad : Bytes)
    (inc : Incoming) (k : Secret) (hr : s.reads P wire = some inc) (hpq : inc.header.pq = .none)
    (hk : s.skipped.lookup ⟨inc.header.senderDhPub, inc.header.msgNum⟩ = some k)
    (haad : sessionAssociatedData inc.header ad = .ok aad)
    (hct : P.aeadEncrypt k inc.aeadNonce aad
      (if inc.isV2 then Aead.padPlaintext m Aead.paddingBlockSize else m) = some inc.ciphertext) :
    s.decrypt P ns wire ad =
        ({ s with skipped := s.skipped.erase ⟨inc.header.senderDhPub, inc.header.msgNum⟩ }, .ok m) ↔
      inc.header.senderDhPub = s.remoteDhPub ∧ inc.header.msgNum < s.receivingChain.nextMsgNum := by
  have hstep : inc.header.pq.stepCt = none := by rw [hpq]; rfl
  rcases decrypt_reads P s ns wire ad with ⟨hnone, -⟩ | ⟨inc', hr', hs, hd⟩
  · rw [hr] at hnone; cases hnone
  obtain rfl : inc = inc' := Option.some.inj (hr.symm.trans hr')
  rw [hd]
  constructor
  · -- neither the DH key nor the receiving chain has moved
    intro hdec
    have hleft : (s.decryptIncoming P ns inc ad).1 = _ := decryptIncoming_left hs (.inr hstep)
    obtain ⟨rcv, cache, hl, hrcv, hsame⟩ := takeMessageKey_left P (s.ratchetIfNew P ns inc.header).1 inc.header
    rw [hdec, hl] at hleft
    have hdh : inc.header.senderDhPub = s.remoteDhPub :=
      (ratchetIfNew_remote P s ns inc.header).2.symm.trans (congrArg remoteDhPub hleft).symm
    rw [ratchetIfNew_same hdh] at hleft hrcv hsame
    refine ⟨hdh, (hrcv.1 (congrArg receivingChain hleft).symm).resolve_right fun hend => ?_⟩
    have hcache := (congrArg skipped hleft).trans (hsame.2 (.inr hend)).2
    rw [erase_eq_self, hk] at hcache
    cases hcache
  · rintro ⟨hdh, hn⟩
    have hopen : openMessage P k inc ad = .ok m := by
      refine openMessage_ok.2 ⟨aad, _, haad, hA _ _ _ _ _ hct, ?_⟩
      split_ifs
      · exact Aead.unpad_pad m _
      · rfl
    exact decryptIncoming_ok inc hs (ratchetIfNew_same hdh) (takeMessageKey_cached hn hk) hopen (pqReceive_none hstep)

/-- the responder with the key 9 cached for message 0 of `dh` -/
def withCached : SessionState UInt32 :=
  { sampleClient .responder with
    receivingChain := ⟨5, 1⟩, skipped := (SkippedMessageKeys.new 2).insert ⟨dh, 0⟩ 9 }

def lateHeader : AdHeader := ⟨Wire.wireVersion, 1, dh, 0, 0, .none⟩

def lateAad : Bytes := (sessionAssociatedData (lateHeader dh) []).toOption.getD []

/-- message 0 of `dh`, encrypted under the key 9 -/
def late : Incoming :=
  ⟨lateHeader dh, sampleRng.nonce, Sample.envelope 9 sampleRng.nonce (lateAad dh) ++ [7], false⟩

def lateWire : Bytes := wireFor dh 0 (late dh).ciphertext

set_option maxRecDepth 2000 in
theorem cached_key_opens_current :
    (withCached currentDh).decrypt Sample.primitives 0 (lateWire currentDh) [] =
      ({ withCached currentDh with skipped := (withCached currentDh).skipped.erase ⟨currentDh, 0⟩ }, .ok [7]) :=
  (cached_key_opens Sample.aeadCorrect (withCached currentDh) 0 (lateWire currentDh) [] [7] (lateAad currentDh)
    (late currentDh) 9 (by decide) rfl (by decide) (by decide) rfl).2
    ⟨rfl, by decide⟩

set_option maxRecDepth 2000 in
/-- **A late message of an earlier DH key is lost**: its key is cached, and a ratchet is made instead of using it -/
theorem cached_key_unused :
    (withCached (ByteArr.replicate 32 77)).skipped.lookup ⟨ByteArr.replicate 32 77, 0⟩ = some 9 ∧
    openMessage Sample.primitives 9 (late (ByteArr.replicate 32 77)) [] = .ok [7] ∧
    (withCached (ByteArr.replicate 32 77)).reads Sample.primitives (lateWire (ByteArr.replicate 32 77)) =
      some (late (ByteArr.replicate 32 77)) ∧
    ((withCached (ByteArr.replicate 32 77)).decrypt Sample.primitives 0 (lateWire (ByteArr.replicate 32 77)) []).2 =
      .error .aeadOperation ∧
    ((withCached (ByteArr.replicate 32 77)).decrypt Sample.primitives 0 (lateWire (ByteArr.replicate 32 77))
      []).1.remoteDhPub ≠ currentDh := by
  decide

/-! ## Derivations -/

/-- the keys that `n` rounds of the loop of `skip_until` derive -/
def skipLoopSteps (P : Primitives Secret) : ℕ → ChainState Secret → ℕ
  | 0, _ => 0
  | n + 1, c =>
    match c.nextMessageKey P with
    | .error _ => 1
    | .ok (_, _, c') => skipLoopSteps P n c' + 1

def SessionState.skipSteps (P : Primitives Secret) (s : SessionState Secret) (untilMsgNum : UInt32) : ℕ :=
  skipLoopSteps P (untilMsgNum.toNat - s.receivingChain.nextMsgNum.toNat) s.receivingChain

/-- the receiving keys that one `decrypt` call derives, stage by stage -/
def SessionState.derivations (P : Primitives Secret) (s : SessionState Secret) (newSecret : Secret) (wireBytes : Bytes) : ℕ :=
  match s.reads P wireBytes with
  | none => 0
  | some inc =>
    let s1 := (s.ratchetIfNew P newSecret inc.header).1
    (if inc.header.senderDhPub ≠ s.remoteDhPub then s.skipSteps P inc.header.prevChainLen else 0) +
      if inc.header.msgNum < s1.receivingChain.nextMsgNum then 0 else s1.skipSteps P inc.header.msgNum + 1

/-- the keys that a header asks for -/
def SessionState.asked (s : SessionState Secret) (h : AdHeader) : ℕ :=
  if h.senderDhPub ≠ s.remoteDhPub then
    h.prevChainLen.toNat - s.receivingChain.nextMsgNum.toNat + (h.msgNum.toNat + 1)
  else if h.msgNum < s.receivingChain.nextMsgNum then 0
  else h.msgNum.toNat - s.receivingChain.nextMsgNum.toNat + 1

lemma skipSteps_eq (P : Primitives Secret) (s : SessionState Secret) (u : UInt32) :
    s.skipSteps P u = u.toNat - s.receivingChain.nextMsgNum.toNat := by
  have hloop : ∀ (n : ℕ) (c : ChainState Secret), c.nextMsgNum.toNat + n < 2 ^ 32 → skipLoopSteps P n c = n := by
    intro n
    induction n with
    | zero => intro c _; rfl
    | succ n ih =>
      intro c hc
      have hne : c.nextMsgNum ≠ u32Max := by
        intro h
        rw [h] at hc
        have hmax : u32Max.toNat = 2 ^ 32 - 1 := rfl
        omega
      simp only [skipLoopSteps, nextMessageKey_of_ne_max P hne]
      rw [ih _ (by simp only [toNat_succ_of_ne_max hne]; omega)]
  have hu := u.toNat_lt
  have hc := s.receivingChain.nextMsgNum.toNat_lt
  exact hloop _ _ (by omega)

lemma derivations_eq (P : Primitives Secret) (s : SessionState Secret) (ns : Secret) (wire : Bytes) :
    s.derivations P ns wire = match s.reads P wire with | none => 0 | some inc => s.asked inc.header := by
  unfold derivations asked
  cases s.reads P wire with
  | none => rfl
  | some inc =>
    by_cases hd : inc.header.senderDhPub = s.remoteDhPub
    · simp [ratchetIfNew_same hd, hd, skipSteps_eq]
    · -- after the ratchet the receiving chain starts at zero
      have hzero : (s.ratchetIfNew P ns inc.header).1.receivingChain.nextMsgNum = 0 := by
        rw [ratchetIfNew, if_pos hd, skipUntil_eq]; rfl
      simp [hd, hzero, skipSteps_eq, UInt32.lt_iff_toNat_lt]

end PqMsg.Session
