/-
Honest packets at honest receivers.

Between two sessions of one setup no DH ratchet happens, so most of a session's fields stay as the handshake left them
(`Static`). A packet that `encrypt` of one side returned is readable at the other (`Opens`: it decodes, its header fields
are the sender's, and it opens under the key of its number); `encrypt_opens` says that every returned wire is, and
`decrypt_honest` that `decrypt` then returns the message once the key is found and the PQ step, if any, goes through.
-/
import PqMsg.Session.TwoParty

namespace PqMsg.Session

open Lib Wire Ratchet

variable {Secret : Type} {P : Primitives Secret} {c : Setup Secret}

/-- the fields of role `r`'s session that nothing changes between honest parties -/
structure Static (P : Primitives Secret) (c : Setup Secret) (r : SessionRole) (s : SessionState Secret) : Prop where
  version : s.version = Wire.wireVersion
  suiteId : s.suiteId = c.suiteId
  wireVersion : s.negotiatedWireVersion = c.wireVersion
  localDh : s.localDh = c.dh r
  remoteDhPub : s.remoteDhPub = (c.dh r.other).publicKey
  prevChainLen : s.prevChainLen = 0
  pqKem : s.pqKem = c.pq.map PqSetup.kem
  headerKeys : c.wireVersion ≥ wireVersionV2 →
    s.sendingHeaderKey = some (hkdfSha256_32 P c.root none r.headerInfo.1) ∧
      s.receivingHeaderKey = some (hkdfSha256_32 P c.root none r.headerInfo.2)
  window : s.skipped.maxEntries = c.window r

lemma session_static (P : Primitives Secret) (c : Setup Secret) (r : SessionRole) : Static P c r (c.session P r) := by
  unfold Setup.session
  cases hq : c.pq with
  | none | some => exact ⟨rfl, rfl, rfl, rfl, rfl, rfl, by rw [hq]; rfl, fun h => ⟨if_pos h, if_pos h⟩, rfl⟩

/-- the header fields of a message of role `d` -/
def Setup.header (c : Setup Secret) (d : SessionRole) (num : UInt32) (pq : PqFields) : AdHeader :=
  ⟨Wire.wireVersion, c.suiteId, (c.dh d).publicKey, num, 0, pq⟩

namespace Static

variable {r : SessionRole} {s : SessionState Secret}

lemma encrypt (h : Static P c r s) (rng : EncryptRng) (m ad : Bytes) : Static P c r (s.encrypt P rng m ad).1 := by
  obtain ⟨rk, pqs, he⟩ := encrypt_frame P s rng m ad
  rw [he]
  exact ⟨h.version, h.suiteId, h.wireVersion, h.localDh, h.remoteDhPub, h.prevChainLen, h.pqKem, h.headerKeys, h.window⟩

/-- the receiving chain, the cache, the root key and the PQ state may change -/
lemma receive (h : Static P c r s) {rcv : ChainState Secret} {cache : SkippedMessageKeys Secret} {rk : Secret}
    {pqs : Option (PqRatchetState Secret)} (hc : cache.maxEntries = s.skipped.maxEntries) :
    Static P c r { s with receivingChain := rcv, skipped := cache, rootKey := rk, pqState := pqs } :=
  ⟨h.version, h.suiteId, h.wireVersion, h.localDh, h.remoteDhPub, h.prevChainLen, h.pqKem, h.headerKeys, hc.trans h.window⟩

lemma adHeader (h : Static P c r s) (num : UInt32) (pq : PqFields) : s.adHeader num pq = c.header r num pq := by
  simp [SessionState.adHeader, Setup.header, h.version, h.suiteId, h.localDh, h.prevChainLen]

/-- the receiver's header key is the sender's -/
lemma decryptV2Header {t : SessionState Secret} (h : Static P c r s) (ht : Static P c r.other t) (hv : s.isV2 = true)
    {num : UInt32} {pq : PqFields} {hb : Bytes} (hhb : (s.headerPlaintext num pq).encode = .ok hb) :
    t.decryptV2Header P (s.protectHeader P hb) = .ok (s.headerPlaintext num pq) := by
  have hv' : c.wireVersion ≥ wireVersionV2 := by
    rw [← h.wireVersion]; simpa [SessionState.isV2] using hv
  have hinfo : r.other.headerInfo.2 = r.headerInfo.1 := by cases r <;> rfl
  have hsend := (h.headerKeys hv').1
  have hrecv := (ht.headerKeys hv').2
  rw [hinfo] at hrecv
  simp [SessionState.protectHeader, SessionState.decryptV2Header, hsend, hrecv, tryDecryptHeader,
    decryptHeader_encryptHeader, HeaderPlaintext.decode_encode hhb, Except.toOption]

end Static

/-- at the other side, role `d`'s packet decodes to `inc`, with the sender's header fields -/
def Reads (P : Primitives Secret) (c : Setup Secret) (d : SessionRole) (p : Packet) (inc : Incoming) : Prop :=
  ∃ dec, decodeWireMessage p.wire = .ok dec ∧ (∀ t, Static P c d.other t → t.incomingFields P dec = .ok inc) ∧
    inc.header = c.header d p.num p.pq

/-- role `d`'s packet is readable at the other side and opens under the key of its number -/
def Opens (P : Primitives Secret) (c : Setup Secret) (d : SessionRole) (p : Packet) : Prop :=
  ∃ inc, Reads P c d p inc ∧
    openMessage P (messageKeyAt P (c.chainKey P d) p.num.toNat) inc p.ad = .ok p.message

variable {d : SessionRole} {p : Packet} {t : SessionState Secret} {s : SessionState Secret} {m ad wire : Bytes}
  {rng : EncryptRng} {inc : Incoming}

/-- **What `encrypt` returns is readable**, and its ciphertext is sealed under the number's key -/
lemma encrypt_reads (hs : Static P c d s) (hc : s.sendingChain = chainAt P (c.chainKey P d) s.sendingChain.nextMsgNum)
    (h : (s.encrypt P rng m ad).2 = .ok wire) (target gen : ℕ) :
    ∃ inc, Reads P c d ⟨s.sendingChain.nextMsgNum, wire, m, ad, s.nextPqFields P rng, target, gen⟩ inc ∧ (AeadCorrect P →
        openMessage P (messageKeyAt P (c.chainKey P d) s.sendingChain.nextMsgNum.toNat) inc ad = .ok m) := by
  obtain ⟨-, hseal⟩ := encrypt_ok h
  obtain ⟨aad, ct, hb, haad, henc, hhb, hdec⟩ := sealMessage_ok hseal
  have hs' := hs.encrypt rng m ad
  have hkey : s.sendingChain.chainKey = chainKeyAt P (c.chainKey P d) s.sendingChain.nextMsgNum.toNat :=
    congrArg ChainState.chainKey hc
  rw [hkey] at henc
  refine ⟨_, ⟨_, hdec, fun t ht => incomingFields_frame hs'.version fun hv => hs'.decryptV2Header ht hv (hhb hv),
    hs'.adHeader _ _⟩, fun hA => openMessage_frame hA haad henc⟩

lemma encrypt_opens (hA : AeadCorrect P) (hs : Static P c d s)
    (hc : s.sendingChain = chainAt P (c.chainKey P d) s.sendingChain.nextMsgNum) (h : (s.encrypt P rng m ad).2 = .ok wire)
    (target gen : ℕ) : Opens P c d ⟨s.sendingChain.nextMsgNum, wire, m, ad, s.nextPqFields P rng, target, gen⟩ := by
  obtain ⟨inc, hr, ho⟩ := encrypt_reads hs hc h target gen
  exact ⟨inc, hr, ho hA⟩

/-- a readable packet triggers no DH ratchet -/
lemma reads_same (hr : Reads P c d p inc) (ht : Static P c d.other t) :
    inc.header.suiteId = t.suiteId ∧ inc.header.senderDhPub = t.remoteDhPub := by
  obtain ⟨dec, -, -, hhd⟩ := hr
  rw [hhd, ht.suiteId, ht.remoteDhPub, SessionRole.other_other]
  exact ⟨rfl, rfl⟩

/-- **Decrypting a packet that opens**, once its key is found and its PQ part goes through -/
lemma decrypt_honest {t2 t3 : SessionState Secret} (ho : Opens P c d p) (ht : Static P c d.other t) (ns : Secret)
    (hk : t.takeMessageKey P (c.header d p.num p.pq) = (t2, .ok (messageKeyAt P (c.chainKey P d) p.num.toNat)))
    (hq : t2.pqReceive P (c.header d p.num p.pq) = .ok t3) : t.decrypt P ns p.wire p.ad = (t3, .ok p.message) := by
  obtain ⟨inc, hr, hopen⟩ := ho
  obtain ⟨hsuite, hdh⟩ := reads_same hr ht
  obtain ⟨dec, hdec, hinc, hhd⟩ := hr
  rw [decrypt_eq hdec (hinc t ht)]
  rw [← hhd] at hk hq
  exact decryptIncoming_ok _ hsuite (ratchetIfNew_same hdh) hk hopen hq

/-- whatever becomes of a readable packet, its receiver changes only the receiving chain (by moving past the message),
the cache, the root key and the PQ state -/
lemma decrypt_reads_frame (hr : Reads P c d p inc) (ht : Static P c d.other t) (ns : Secret) (hm : p.num ≠ u32Max) :
    ∃ rcv cache rk pqs, (t.decrypt P ns p.wire p.ad).1 =
        { t with receivingChain := rcv, skipped := cache, rootKey := rk, pqState := pqs } ∧
      cache.maxEntries = t.skipped.maxEntries ∧ (rcv = t.receivingChain ∨
        t.receivingChain.nextMsgNum.toNat ≤ p.num.toNat ∧ rcv = ⟨chainKeyAt P t.receivingChain.chainKey
          (p.num.toNat - t.receivingChain.nextMsgNum.toNat + 1), p.num + 1⟩) := by
  obtain ⟨hsuite, hdh⟩ := reads_same hr ht
  obtain ⟨dec, hdec, hinc, hhd⟩ := hr
  have hnum : inc.header.msgNum = p.num := by rw [hhd]; rfl
  obtain ⟨rcv, cache, hk, hmax, hrcv⟩ := takeMessageKey_frame P t (h := inc.header) (by rw [hnum]; exact hm)
  rw [hnum] at hrcv
  rw [decrypt_eq hdec (hinc t ht)]
  simp only [SessionState.decryptIncoming, hsuite, ne_eq, not_true_eq_false, if_false, ratchetIfNew_same hdh]
  split
  · rename_i s2 e hs2
    rw [hs2] at hk
    exact ⟨rcv, cache, t.rootKey, t.pqState, hk, hmax, hrcv⟩
  · rename_i s2 k hs2
    rw [hs2] at hk
    split
    · exact ⟨rcv, cache, t.rootKey, t.pqState, hk, hmax, hrcv⟩
    · split
      · exact ⟨rcv, cache, t.rootKey, t.pqState, hk, hmax, hrcv⟩
      · rename_i s3 hs3
        obtain ⟨rk, pqs, h3, -⟩ := pqReceive_frame hs3
        refine ⟨rcv, cache, rk, pqs, ?_, hmax, hrcv⟩
        have hs2' : s2 = { t with receivingChain := rcv, skipped := cache } := hk
        rw [h3, hs2']

lemma pqReceive_none {h : AdHeader} (hp : h.pq.stepCt = none) : t.pqReceive P h = .ok t := by
  simp [SessionState.pqReceive, hp]

end PqMsg.Session
