/-
Authenticity of accepted messages.

Two honest sessions call `encrypt`, and an adversary feeds arbitrary byte strings to `decrypt` of either side (`Net`). The
AEAD is ideal in a run (`NoForgery`) when a `decrypt` call opens a ciphertext only if the peer sealed exactly this nonce,
associated data and ciphertext under this key.

The associated data binds every header field, but it is the same for both wire formats, and the version field of a
version 2 message is neither bound nor checked. So a message can be taken from one format to the other and is accepted
there, with padding added or removed:

- `accepted_iff`: an accepted byte string carries the fields and the plaintext of a wire the peer's `encrypt` returned,
  if and only if it is framed in the negotiated format, with version field 2 on version 2.
- `reframed_accepted`: a version 1 message in a version 2 frame is accepted and returns another plaintext.
-/
import PqMsg.Session.Delivery

namespace PqMsg.Session

open Lib Tlv Wire Ratchet Function List Option Except SessionState HeaderPlaintext

variable {Secret : Type} {P : Primitives Secret} {c : Setup Secret}

/-! ## The system -/

/-- one use of the AEAD -/
structure Seal (Secret : Type) where
  key : Secret
  nonce : Nonce
  aad : Bytes
  ciphertext : Bytes
deriving DecidableEq

/-- what the AEAD seals in an `encrypt` call, also when the call then fails -/
def SessionState.sealOf (P : Primitives Secret) (s : SessionState Secret) (rng : EncryptRng) (m ad : Bytes) :
    Option (Seal Secret) :=
  if s.sendingChain.nextMsgNum = u32Max then none
  else
    match (s.advanceSending P).pqSend P rng s.sendingChain.nextMsgNum with
    | .error _ => none
    | .ok (s', pq) =>
      match sessionAssociatedData (s'.adHeader s.sendingChain.nextMsgNum pq) ad with
      | .error _ => none
      | .ok aad => (P.aeadEncrypt (messageKeyOf P s.sendingChain.chainKey) rng.nonce aad (s'.aeadInput m)).map
          fun ct => ⟨messageKeyOf P s.sendingChain.chainKey, rng.nonce, aad, ct⟩

/-- what a `decrypt` call asks the AEAD to open -/
def SessionState.openingOf (P : Primitives Secret) (s : SessionState Secret) (ns : Secret) (bytes ad : Bytes) :
    Option (Seal Secret) :=
  match decodeWireMessage bytes with
  | .error _ => none
  | .ok dec =>
    match s.incomingFields P dec with
    | .error _ => none
    | .ok inc =>
      if inc.header.suiteId ≠ s.suiteId then none
      else
        match s.ratchetIfNew P ns inc.header with
        | (_, .error _) => none
        | (s1, .ok ()) =>
          match s1.takeMessageKey P inc.header with
          | (_, .error _) => none
          | (_, .ok k) =>
            match sessionAssociatedData inc.header ad with
            | .error _ => none
            | .ok aad => some ⟨k, inc.aeadNonce, aad, inc.ciphertext⟩

/-- a wire that `encrypt` returned, with its header fields and its message -/
structure SentWire where
  wire : Bytes
  header : AdHeader
  message : Bytes
deriving DecidableEq

structure Net (Secret : Type) where
  st : SessionRole → SessionState Secret
  seals : SessionRole → List (Seal Secret)
  sent : SessionRole → List SentWire

inductive NetOp (Secret : Type) where
  | encrypt (d : SessionRole) (rng : EncryptRng) (message ad : Bytes)
  | feed (d : SessionRole) (bytes ad : Bytes) (newSecret : Secret)

/-- the wire of an `encrypt` call, if it returns one -/
def SessionState.sentBy (P : Primitives Secret) (s : SessionState Secret) (rng : EncryptRng) (m ad : Bytes) : List SentWire :=
  match (s.encrypt P rng m ad).2 with
  | .ok wire => [⟨wire, (s.encrypt P rng m ad).1.adHeader s.sendingChain.nextMsgNum (s.nextPqFields P rng), m⟩]
  | .error _ => []

def netStep (P : Primitives Secret) (w : Net Secret) : NetOp Secret → Net Secret
  | .encrypt d rng m ad =>
    { st := update w.st d ((w.st d).encrypt P rng m ad).1
      seals := update w.seals d (w.seals d ++ ((w.st d).sealOf P rng m ad).toList)
      sent := update w.sent d (w.sent d ++ (w.st d).sentBy P rng m ad) }
  | .feed d bytes ad ns => { w with st := update w.st d ((w.st d).decrypt P ns bytes ad).1 }

def netStart (P : Primitives Secret) (c : Setup Secret) : Net Secret := ⟨c.session P, fun _ => [], fun _ => []⟩

/-- **Ideal AEAD**: what a `decrypt` call opens, the peer has sealed under the same key -/
def NoForgery (P : Primitives Secret) (w : Net Secret) : NetOp Secret → Prop
  | .encrypt _ _ _ _ => True
  | .feed d bytes ad ns => ∀ x ∈ (w.st d).openingOf P ns bytes ad,
      (P.aeadDecrypt x.key x.nonce x.aad x.ciphertext).isSome = true → x ∈ w.seals d.other

instance [DecidableEq Secret] (P : Primitives Secret) (w : Net Secret) : ∀ o, Decidable (NoForgery P w o)
  | .encrypt _ _ _ _ => isTrue trivial
  | .feed _ _ _ _ => inferInstanceAs (Decidable (∀ x ∈ _, _ → _))

/-! ## What authenticity says -/

/-- the fields of a decoded message that the sender fixes outside its header -/
structure Outer where
  isV2 : Bool
  version : UInt16
  suiteId : UInt16
  nonce : Nonce
  ciphertext : Bytes
deriving DecidableEq

def outer : DecodedWireMessage → Outer
  | .v1 m => ⟨false, m.version, m.suiteId, m.aeadNonce, m.ciphertext⟩
  | .v2 m => ⟨true, m.version, m.suiteId, m.aeadNonce, m.ciphertext⟩

/-- the bytes carry the format, version, suite, nonce, ciphertext and header fields of a wire that the peer's `encrypt`
returned, and `p` is the message of that wire -/
def Authentic (P : Primitives Secret) (w : Net Secret) (d : SessionRole) (bytes p : Bytes) : Prop :=
  ∃ dec inc, decodeWireMessage bytes = .ok dec ∧ (w.st d).incomingFields P dec = .ok inc ∧
    ∃ e ∈ w.sent d.other, ∃ dec', decodeWireMessage e.wire = .ok dec' ∧ outer dec' = outer dec ∧
      e.header = inc.header ∧ e.message = p

/-- the format of the negotiated wire version, and on version 2 also its version field -/
def Outer.Negotiated (c : Setup Secret) (o : Outer) : Prop :=
  o.isV2 = decide (c.wireVersion ≥ wireVersionV2) ∧ (o.isV2 = true → o.version = wireVersionV2)

instance (c : Setup Secret) (o : Outer) : Decidable (o.Negotiated c) := inferInstanceAs (Decidable (_ ∧ _))

def FramedAsNegotiated (c : Setup Secret) (bytes : Bytes) : Prop :=
  ∃ dec, decodeWireMessage bytes = .ok dec ∧ (outer dec).Negotiated c

instance (c : Setup Secret) (bytes : Bytes) : Decidable (FramedAsNegotiated c bytes) :=
  match h : decodeWireMessage bytes with
  | .error _ => isFalse fun ⟨_, hd, _⟩ => by rw [h] at hd; cases hd
  | .ok dec => decidable_of_iff ((outer dec).Negotiated c)
      ⟨fun hn => ⟨dec, h, hn⟩, fun ⟨_, hd, hn⟩ => by rw [h] at hd; cases hd; exact hn⟩

/-! ## What the sessions keep -/

/-- the fields of a session that neither operation changes -/
structure Agreed (c : Setup Secret) (s : SessionState Secret) : Prop where
  version : s.version = Wire.wireVersion
  suiteId : s.suiteId = c.suiteId
  wireVersion : s.negotiatedWireVersion = c.wireVersion

variable {s : SessionState Secret} {rng : EncryptRng} {num : UInt32} {pq : PqFields} {m ad : Bytes}
  {s' : SessionState Secret} {dec : DecodedWireMessage} {x : Seal Secret} {inc : Incoming} {k : Secret}

lemma Agreed.isV2 (h : Agreed c s) : s.isV2 = decide (c.wireVersion ≥ wireVersionV2) := by
  rw [SessionState.isV2, h.wireVersion]

lemma session_agreed (P : Primitives Secret) (c : Setup Secret) (r : SessionRole) : Agreed c (c.session P r) :=
  let h := session_static P c r
  ⟨h.version, h.suiteId, h.wireVersion⟩

lemma pqSend_agreed (h : s.pqSend P rng num = .ok (s', pq)) (hs : Agreed c s) : Agreed c s' := by
  rcases pqSend_ok h with ⟨rfl, -⟩ | ⟨st, kem, enc, next, hstep⟩
  · exact hs
  · rw [hstep.left]
    exact ⟨hs.version, hs.suiteId, hs.wireVersion⟩

lemma advanceSending_agreed (h : Agreed c s) : Agreed c (s.advanceSending P) :=
  ⟨h.version, h.suiteId, h.wireVersion⟩

lemma encrypt_agreed (h : Agreed c s) (rng : EncryptRng) (m ad : Bytes) : Agreed c (s.encrypt P rng m ad).1 := by
  obtain ⟨rk, pqs, he⟩ := encrypt_frame P s rng m ad
  rw [he]
  exact ⟨h.version, h.suiteId, h.wireVersion⟩

lemma ratchetIfNew_agreed (h : Agreed c s) (ns : Secret) (hd : AdHeader) : Agreed c (s.ratchetIfNew P ns hd).1 := by
  unfold ratchetIfNew
  split_ifs
  · rw [skipUntil_eq]
    exact ⟨h.version, h.suiteId, h.wireVersion⟩
  · exact h

lemma takeMessageKey_agreed (h : Agreed c s) (hd : AdHeader) : Agreed c (s.takeMessageKey P hd).1 := by
  unfold takeMessageKey
  split_ifs
  · simp only [BoundedFifo.take]
    cases s.skipped.lookup ⟨hd.senderDhPub, hd.msgNum⟩ <;> exact ⟨h.version, h.suiteId, h.wireVersion⟩
  · rw [skipUntil_eq]
    simp only
    split <;> exact ⟨h.version, h.suiteId, h.wireVersion⟩

lemma decrypt_agreed (h : Agreed c s) (ns : Secret) (bytes ad : Bytes) : Agreed c (s.decrypt P ns bytes ad).1 := by
  refine decrypt_preserves (fun t hd ht => ratchetIfNew_agreed ht ns hd) (fun t hd ht => takeMessageKey_agreed ht hd) ?_ h
  intro t t' hd hq ht
  obtain ⟨rk, pqs, rfl, -⟩ := pqReceive_frame hq
  exact ⟨ht.version, ht.suiteId, ht.wireVersion⟩

/-! ## The invariant -/

/-- where a seal comes from: an `encrypt` call of an agreed session, whose wire is recorded if the call returned one -/
structure Origin (P : Primitives Secret) (c : Setup Secret) (sent : List SentWire) (x : Seal Secret)
    (s : SessionState Secret) (num : UInt32) (pq : PqFields) (m ad : Bytes) : Prop where
  agreed : Agreed c s
  aad : sessionAssociatedData (s.adHeader num pq) ad = .ok x.aad
  sealed : P.aeadEncrypt x.key x.nonce x.aad (s.aeadInput m) = some x.ciphertext
  recorded : ∀ wire, s.sealMessage P x.nonce x.key num pq m ad = .ok wire → ⟨wire, s.adHeader num pq, m⟩ ∈ sent

lemma Origin.mono {sent sent' : List SentWire} (h : Origin P c sent x s num pq m ad) (hs : sent ⊆ sent') :
    Origin P c sent' x s num pq m ad :=
  ⟨h.agreed, h.aad, h.sealed, fun wire hw => hs (h.recorded wire hw)⟩

structure NetInv (P : Primitives Secret) (c : Setup Secret) (w : Net Secret) : Prop where
  agreed : ∀ r, Agreed c (w.st r)
  origin : ∀ r, ∀ x ∈ w.seals r, ∃ s num pq m ad, Origin P c (w.sent r) x s num pq m ad
  framed : ∀ r, ∀ e ∈ w.sent r, ∃ dec, decodeWireMessage e.wire = .ok dec ∧ (outer dec).Negotiated c

/-- a frame of an agreed session is in the negotiated format -/
lemma frame_negotiated (h : Agreed c s) (nonce : Nonce) (num : UInt32) (pq : PqFields) (ct hb : Bytes) :
    (outer (s.frame P nonce num pq ct hb)).Negotiated c := by
  rw [Outer.Negotiated, ← h.isV2]
  unfold frame
  by_cases hv : s.isV2 = true
  · rw [if_pos hv]
    exact ⟨hv.symm, fun _ => rfl⟩
  · rw [if_neg hv]
    exact ⟨(Bool.eq_false_iff.2 hv).symm, fun h => absurd h Bool.false_ne_true⟩

lemma sealOf_origin (h : Agreed c s) (hx : s.sealOf P rng m ad = some x) :
    ∃ s' num pq, Origin P c (s.sentBy P rng m ad) x s' num pq m ad := by
  unfold sealOf at hx
  rcases encrypt_cases P s rng m ad with ⟨hn, e, he⟩ | ⟨hn, e, hp, he⟩ | ⟨hn, s', pq, hp, he⟩
  · rw [if_pos hn] at hx; cases hx
  · simp only [if_neg hn, hp] at hx; cases hx
  · simp only [if_neg hn, hp] at hx
    cases haad : sessionAssociatedData (s'.adHeader s.sendingChain.nextMsgNum pq) ad with
    | error => simp only [haad] at hx; cases hx
    | ok =>
      simp only [haad, map_eq_some_iff] at hx
      obtain ⟨ct, hct, rfl⟩ := hx
      refine ⟨s', _, pq, pqSend_agreed hp (advanceSending_agreed h), haad, hct, ?_⟩
      intro wire hw
      have hpq : s.nextPqFields P rng = pq := by simp [nextPqFields, if_neg hn, hp]
      simp [sentBy, he, hpq, hw]

lemma netStart_inv (P : Primitives Secret) (c : Setup Secret) : NetInv P c (netStart P c) :=
  ⟨session_agreed P c, fun _ _ hx => absurd hx not_mem_nil, fun _ _ he => absurd he not_mem_nil⟩

/-- what one step keeps -/
lemma netStep_inv {w : Net Secret} (h : NetInv P c w) (o : NetOp Secret) : NetInv P c (netStep P w o) := by
  cases o with
  | encrypt d rng m ad =>
    refine ⟨?_, ?_, ?_⟩
    · intro r
      by_cases hr : r = d
      · subst hr
        simpa only [netStep, update_self] using encrypt_agreed (h.agreed r) rng m ad
      · simpa only [netStep, update_of_ne hr] using h.agreed r
    · intro r x hx
      by_cases hr : r = d
      · subst hr
        simp only [netStep, update_self, mem_append, mem_toList] at hx ⊢
        rcases hx with hx | hx
        · obtain ⟨s, num, pq, m', ad', ho⟩ := h.origin r x hx
          exact ⟨s, num, pq, m', ad', ho.mono (subset_append_left _ _)⟩
        · obtain ⟨s, num, pq, ho⟩ := sealOf_origin (h.agreed r) hx
          exact ⟨s, num, pq, m, ad, ho.mono (subset_append_right _ _)⟩
      · simp only [netStep, update_of_ne hr] at hx ⊢
        exact h.origin r x hx
    · intro r e he
      by_cases hr : r = d
      · subst hr
        simp only [netStep, update_self, mem_append] at he
        refine he.elim (h.framed r e) fun he => ?_
        unfold sentBy at he
        split at he
        · rename_i hr
          obtain rfl := mem_singleton.1 he
          obtain ⟨aad, ct, hb, -, -, -, hdec⟩ := sealMessage_ok (encrypt_ok hr).2
          exact ⟨_, hdec, frame_negotiated (encrypt_agreed (h.agreed r) ..) _ _ _ _ _⟩
        · cases he
      · simp only [netStep, update_of_ne hr] at he
        exact h.framed r e he
  | feed d bytes ad ns =>
    refine ⟨?_, h.origin, h.framed⟩
    intro r
    by_cases hr : r = d
    · subst hr
      simpa only [netStep, update_self] using decrypt_agreed (h.agreed r) ns bytes ad
    · simpa only [netStep, update_of_ne hr] using h.agreed r

/-! ## Accepted bytes -/

/-- a header read from version 2 was decoded from as many bytes as the encrypted header has -/
lemma decryptV2Header_ok {eh : Bytes} {h : HeaderPlaintext} (hd : s.decryptV2Header P eh = .ok h) :
    ∃ b, b.length = eh.length ∧ decode b = .ok h := by
  have htry : ∀ {o : Option Secret} {h : HeaderPlaintext}, o.bind (fun hk => tryDecryptHeader P hk eh) = some h →
      ∃ b, b.length = eh.length ∧ decode b = .ok h := by
    intro o h ho
    obtain ⟨hk, -, ht⟩ := bind_eq_some_iff.1 ho
    refine ⟨decryptHeader P hk eh, encryptHeader_length P hk eh, ?_⟩
    unfold tryDecryptHeader at ht
    cases hh : decode (decryptHeader P hk eh) with
    | error => rw [hh] at ht; cases ht
    | ok => rw [hh] at ht; rw [some.inj ht]
  unfold decryptV2Header at hd
  split at hd
  · rename_i h' hc
    cases hd
    exact htry hc
  · split at hd
    · rename_i h' hc
      cases hd
      exact htry hc
    · exact ⟨eh, rfl, hd⟩

/-! ## Sealing what was read -/

/-- what was read in the sender's own format, the sender's `encrypt` did frame: its values fit the length fields -/
lemma sealMessage_of_read {t : SessionState Secret} {aad bytes : Bytes} (hs : Agreed c s)
    (hdec : decodeWireMessage bytes = .ok dec) (hinc : t.incomingFields P dec = .ok inc) (hneg : (outer dec).Negotiated c)
    (hhead : inc.header = s.adHeader num pq) (haad : sessionAssociatedData (s.adHeader num pq) ad = .ok aad)
    (henc : P.aeadEncrypt k inc.aeadNonce aad (s.aeadInput m) = some inc.ciphertext) :
    inc.isV2 = s.isV2 ∧ ∃ wire dec', s.sealMessage P inc.aeadNonce k num pq m ad = .ok wire ∧
      decodeWireMessage wire = .ok dec' ∧ outer dec' = outer dec := by
  have hv2 := hneg.1
  rw [← hs.isV2] at hv2
  rcases decodeWireMessage_cases hdec with ⟨w, rfl, hw⟩ | ⟨w, rfl, hw⟩
  · -- version 1: the sender's message is the one that was read
    simp only [incomingFields, ok.injEq] at hinc
    subst hinc
    obtain ⟨wire, hwire, -⟩ := WireMessage.decode_encodes hw
    refine ⟨hv2, wire, .v1 w, ?_, decodeWireMessage_v1 hwire, rfl⟩
    rw [sealMessage_v1 haad henc hv2.symm, ← hwire]
    simp only [adHeader, AdHeader.mk.injEq] at hhead
    obtain ⟨h1, h2, h3, h4, h5, rfl⟩ := hhead
    rw [← h1, ← h2, ← h3, ← h4, ← h5]
  · -- version 2: the header was decoded from at least as many bytes as its encoding has
    simp only [incomingFields] at hinc
    cases hh : t.decryptV2Header P w.encryptedHeader with
    | error => rw [hh] at hinc; cases hinc
    | ok h =>
      simp only [hh, ok.injEq] at hinc
      subst hinc
      simp only [adHeader, AdHeader.mk.injEq] at hhead
      obtain ⟨-, h2, h3, h4, h5, rfl⟩ := hhead
      have hplain : s.headerPlaintext num ⟨h.pqStepCt, h.pqTargetPubHash, h.pqNextPublicKey⟩ = h := by
        rw [headerPlaintext, ← h3, ← h4, ← h5]
      obtain ⟨b, hb, hdecode⟩ := decryptV2Header_ok hh
      obtain ⟨hbytes, hhb, hle⟩ := decode_encodes hdecode
      obtain ⟨b', hb', -⟩ := WireMessageV2.decode_encodes hw
      have hfit := (encode_isOk w.records).1 ⟨b', hb'⟩
      simp only [WireMessageV2.records, forall_mem_cons] at hfit
      obtain ⟨-, -, hfh, -, hfc, -⟩ := hfit
      obtain ⟨wire, hwire⟩ : ∃ wire, (⟨wireVersionV2, s.suiteId, s.protectHeader P hbytes, w.aeadNonce, w.ciphertext⟩ :
          WireMessageV2).encode = .ok wire := by
        refine (encode_isOk _).2 ?_
        simp only [WireMessageV2.records, forall_mem_cons]
        refine ⟨by decide, ?_, ?_, ?_, hfc, fun _ hr => absurd hr not_mem_nil⟩
        · rw [be16_length]; decide
        · rw [protectHeader_length]; omega
        · rw [w.aeadNonce.2]; decide
      refine ⟨hv2, wire, _, ?_, decodeWireMessage_v2 hwire, ?_⟩
      · rw [sealMessage_v2 haad henc hv2.symm (by rw [hplain]; exact hhb), hwire]
      · simp only [outer, Outer.mk.injEq, true_and, and_true]
        exact ⟨(hneg.2 rfl).symm, h2.symm⟩

/-! ## Authenticity -/

/-- **Accepted bytes are the peer's exactly when they are framed as negotiated.** For every sequence of `encrypt` calls
of both sides and of byte strings fed to `decrypt`: what `decrypt` then accepts, under an ideal AEAD, carries the
format, version, suite, header fields, nonce and ciphertext of one wire the peer's `encrypt` returned, and returns the
message of that wire, if and only if it is framed in the negotiated format, with version field 2 on version 2. -/
theorem accepted_iff (hA : AeadCorrect P) (c : Setup Secret) (ops : List (NetOp Secret)) (d : SessionRole)
    (bytes ad p : Bytes) (ns : Secret)
    (hforge : NoForgery P (run (netStep P) (netStart P c) ops) (.feed d bytes ad ns))
    (haccept : (((run (netStep P) (netStart P c) ops).st d).decrypt P ns bytes ad).2 = .ok p) :
    Authentic P (run (netStep P) (netStart P c) ops) d bytes p ↔ FramedAsNegotiated c bytes := by
  have hinv : NetInv P c (run (netStep P) (netStart P c) ops) :=
    run_inv_all (NetInv P c) (fun w o h => netStep_inv h o) ops (netStart_inv P c)
  generalize run (netStep P) (netStart P c) ops = w at hinv hforge haccept ⊢
  obtain ⟨dec, inc, s1, s2, k, hacc⟩ := decrypt_ok (Prod.ext_iff.2 ⟨rfl, haccept⟩)
  constructor
  · -- the peer's wires are framed as negotiated, and these bytes have the same outer fields
    rintro ⟨dec', -, hdec', -, e, he, dec'', hdec'', houter, -⟩
    obtain ⟨f, hf, hneg⟩ := hinv.framed _ e he
    obtain rfl : dec'' = f := ok.inj (hdec''.symm.trans hf)
    exact ⟨dec', hdec', houter ▸ hneg⟩
  · rintro ⟨dec', hdec', hneg⟩
    obtain rfl : dec' = dec := ok.inj (hdec'.symm.trans hacc.decoded)
    obtain ⟨aad, q, haad, hq, hp⟩ := openMessage_ok.1 hacc.opened
    have hopen : (w.st d).openingOf P ns bytes ad = some ⟨k, inc.aeadNonce, aad, inc.ciphertext⟩ := by
      simp [openingOf, hacc.decoded, hacc.fields, hacc.suite, hacc.ratcheted, hacc.key, haad]
    have hseal := hforge _ hopen (by rw [hq]; rfl)
    obtain ⟨s, num, pq, m, ad', ho⟩ := hinv.origin _ _ hseal
    obtain ⟨hhead, -⟩ := sessionAssociatedData_injective haad ho.aad
    obtain ⟨hv2, wire, dec'', hwire, hdec'', houter⟩ :=
      sealMessage_of_read ho.agreed hdec' hacc.fields hneg hhead ho.aad ho.sealed
    refine ⟨dec', inc, hdec', hacc.fields, ⟨wire, s.adHeader num pq, m⟩, ho.recorded wire hwire, dec'', hdec'', houter,
      hhead.symm, ?_⟩
    -- the padding that was added is the padding that is removed
    have hqm : q = s.aeadInput m := some.inj (hq.symm.trans (hA _ _ _ _ _ ho.sealed))
    rw [hqm, hv2, aeadInput] at hp
    cases hs : s.isV2 with
    | true =>
      simp only [hs, if_true, Aead.unpad_pad] at hp
      exact ok.inj hp
    | false =>
      simp only [hs, Bool.false_eq_true, if_false] at hp
      exact ok.inj hp

/-- a session pair on version 1 -/
def sampleSetupV1 : Setup UInt32 := { sampleSetup with wireVersion := 1 }

/-- the initiator sends one message whose bytes look padded -/
def oneMessage : List (NetOp UInt32) := [.encrypt .initiator sampleRng [7, 0x80] []]

def oneMessageNet (c : Setup UInt32) : Net UInt32 := run (netStep Sample.primitives) (netStart Sample.primitives c) oneMessage

def oneWire (c : Setup UInt32) : Bytes := ((oneMessageNet c).sent .initiator).flatMap SentWire.wire

set_option maxRecDepth 5000 in
theorem accepted_iff_oneMessage :
    (((oneMessageNet sampleSetup).st .responder).decrypt Sample.primitives 0 (oneWire sampleSetup) []).2 =
      .ok [7, 0x80] ∧
    Authentic Sample.primitives (oneMessageNet sampleSetup) .responder (oneWire sampleSetup) [7, 0x80] :=
  ⟨by decide, (accepted_iff Sample.aeadCorrect sampleSetup oneMessage .responder (oneWire sampleSetup) []
    [7, 0x80] 0 (by decide) (by decide)).2 (by decide)⟩

/-- the fields of a version 1 message in a version 2 frame, the header left as plaintext -/
def reframe (wire : Bytes) : Bytes :=
  match WireMessage.decode wire with
  | .error _ => []
  | .ok m =>
    match (⟨m.senderDhPub, m.msgNum, m.prevChainLen, m.pqStepCt, m.pqTargetPubHash, m.pqNextPublicKey⟩ :
        HeaderPlaintext).encode with
    | .error _ => []
    | .ok header => ((⟨wireVersionV2, m.suiteId, header, m.aeadNonce, m.ciphertext⟩ : WireMessageV2).encode).toOption.getD []

set_option maxRecDepth 5000 in
/-- **A version 1 message in a version 2 frame** is accepted under the ideal AEAD, with a plaintext that was never
sent: what looks like padding is cut off. -/
theorem reframed_accepted :
    NoForgery Sample.primitives (oneMessageNet sampleSetupV1) (.feed .responder (reframe (oneWire sampleSetupV1)) [] 0) ∧
    (((oneMessageNet sampleSetupV1).st .responder).decrypt Sample.primitives 0 (reframe (oneWire sampleSetupV1)) []).2 =
      .ok [7] ∧
    ¬ Authentic Sample.primitives (oneMessageNet sampleSetupV1) .responder (reframe (oneWire sampleSetupV1)) [7] := by
  refine ⟨by decide, by decide, ?_⟩
  rintro ⟨-, -, -, -, e, he, -, -, -, -, hm⟩
  have hsent : ((oneMessageNet sampleSetupV1).sent .initiator).map SentWire.message = [[7, 0x80]] := by decide
  have hmem : e.message ∈ [[7, 0x80]] := hsent ▸ mem_map_of_mem he
  rw [hm] at hmem
  exact absurd hmem (by decide)

end PqMsg.Session
