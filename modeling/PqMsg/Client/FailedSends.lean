/-
Sends that fail on the network.

Both clients store the session of a message before they make the network calls that deliver it. For a session that was there
before, a failure only loses a message number, and the recipient skips it: it reads every message that was stored, however
many were lost in between. For a new session the lost message is the initial one. The session stays stored, later sends use
it, and the recipient, which never learns of the handshake, reads none of them.

- `failed_sends_harmless`: if no send fails after it has stored a new session, everything that is stored is read, for both
  clients and whatever session the recipient had before.
- `lost_initiation`: a send that fails after it has stored a new session breaks the conversation, on both clients.
-/
import PqMsg.Client.Convergence

namespace PqMsg.Client

open Lib Handshake Session Ratchet Function PqMsg.Sample

variable {Secret : Type}

/-! ## Runs of one sender -/

/-- the first side writes to the second one, which may have a session from before -/
def Conversation.oneWay (kind : Side → ClientKind) (keys : Side → KeysFile Secret) (old : Option (SessionFile Secret)) :
    Conversation Secret where
  client
    | .first => ⟨kind .first, keys .first, none⟩
    | .second => ⟨kind .second, keys .second, old⟩
  stored _ := []
  log := []

/-- only the first side sends, and a handshake that it begins can be answered; any network call may fail -/
def OneSender (H : HandshakePrims Secret) (w : Conversation Secret) : ConversationOp Secret → Prop
  | .send p x => p = .first ∧ ((w.client p).session = none → Answerable H (w.client p.other) x.bundle)
  | .deliver p _ => p = .first

/-- a send without a stored session that gets as far as storing one does not fail afterwards -/
def InitialStored (w : Conversation Secret) : ConversationOp Secret → Prop
  | .send p x => (w.client p).session.isNone → x.call (w.client p).kind.flow.ready = .ok () →
      x.call (w.client p).kind.flow.initiating = .ok () → x.call (w.client p).kind.flow.initiated = .ok ()
  | .deliver _ _ => True

/-! ## One direction of a conversation -/

variable {H : HandshakePrims Secret} {kem : Kem Secret}

/-- everything is addressed to one PQ key of the recipient, which keeps it because it never sends -/
structure ToOneKey (P : Primitives Secret) (key : Bytes) (st : SessionRole → SessionState Secret)
    (flight : SessionRole → List Packet) : Prop where
  remote : ∃ pqs, (st .initiator).pqState = some pqs ∧ pqs.remotePublicKey = key
  own : ∃ pqs, (st .responder).pqState = some pqs ∧ pqs.localKey.publicKey = key
  targets : ∀ p ∈ flight .initiator, ∀ h ∈ p.pq.targetPubHash, h = hashPublicKey P key

/-- no session is stored yet, or the initial message was stored and the conversation runs over its handshake -/
def OneDirection (H : HandshakePrims Secret) (kem : Kem Secret) (kind : Side → ClientKind) (keys : Side → KeysFile Secret)
    (old : Option (SessionFile Secret)) (w : Conversation Secret) : Prop :=
  w = .oneWay kind keys old ∨ ∃ c st flight pending, c.pq = some (handshakePq kem (keys .first) (keys .second)) ∧
    Talks H kem c (handshakePq kem (keys .first) (keys .second)) (keys .first).suite .first (fun p => (keys p).userId) old
      st flight pending w ∧
    ToOneKey H.toPrimitives (keys .second).pqSignedPrekey.publicKey st flight

section

variable (hdh : DhCommutes H.toPrimitives) (hA : AeadCorrect H.toPrimitives) (hbinds : AeadBinds H.toPrimitives)
  (hkem : kem.Correct) {kind : Side → ClientKind} {keys : Side → KeysFile Secret}
  (hproper : ∀ p, (keys p).Proper H kem)
  (hsep : (handshakePq kem (keys .first) (keys .second)).HashSeparates H.toPrimitives)
  {old : Option (SessionFile Secret)} {w : Conversation Secret}

include hdh hA hbinds hproper in
lemma send_oneDirection (h : OneDirection H kem kind keys old w) {x : SendInput Secret}
    (hone : OneSender H w (.send .first x)) (hinit : InitialStored w (.send .first x)) :
    OneDirection H kem kind keys old (w.send H kem .first x) := by
  rcases h with rfl | ⟨c, st, flight, pending, hc, ht, hkey⟩
  · rcases Conversation.initiate hdh hA hbinds (hproper .first) (hproper .second) (hone.2 rfl) rfl (fun _ => rfl)
      (hinit rfl) with hsame | ⟨c, e, hc, ht⟩
    · exact .inl hsame
    · have huser : (Conversation.oneWay kind keys old).userId = fun p => (keys p).userId := by
        funext p
        cases p <;> rfl
      rw [huser] at ht
      refine .inr ⟨c, _, _, _, hc, ht, ⟨_, session_pqState _ hc .initiator, rfl⟩,
        ⟨_, session_pqState _ hc .responder, rfl⟩, fun p hp => nomatch hp⟩
  · have hqk : (handshakePq kem (keys .first) (keys .second)).kem = kem := rfl
    have hr : ¬ (pending.isSome ∧ SessionRole.initiator = .responder) := fun hwait => SessionRole.noConfusion hwait.2
    rcases ht.send hc hqk (fun _ => rfl) hA hr x with hsame | ⟨ad, wire, new, -, hsub, ht'⟩
    · have hsame' : w.send H kem .first x = w := hsame
      rw [hsame']
      exact .inr ⟨c, st, flight, pending, hc, ht, hkey⟩
    · refine .inr ⟨c, _, _, pending, hc, ht', ?_, ?_, ?_⟩
      · obtain ⟨pqs, hpqs, hremote⟩ := hkey.remote
        obtain ⟨⟨pqs', hpqs', hsame⟩, -⟩ := encrypt_remote (P := H.toPrimitives) hpqs x.encryptRng x.plaintext ad
        rw [update_self]
        exact ⟨pqs', hpqs', hsame.trans hremote⟩
      · rw [update_of_ne (by decide)]
        exact hkey.own
      · intro p hp hash hhash
        rw [update_self] at hp
        rcases List.mem_append.1 hp with hp | hp
        · exact hkey.targets p hp hash hhash
        · obtain ⟨pqs, hpqs, hremote⟩ := hkey.remote
          rw [List.mem_singleton.1 (hsub.subset hp)] at hhash
          rw [← hremote]
          exact (encrypt_remote hpqs x.encryptRng x.plaintext ad).2 hash hhash

include hkem hproper hsep in
lemma deliver_oneDirection (h : OneDirection H kem kind keys old w) (hread : w.AllRead) (newSecret : Secret) :
    OneDirection H kem kind keys old (w.deliver H kem .first newSecret) ∧ (w.deliver H kem .first newSecret).AllRead := by
  rcases h with rfl | ⟨c, st, flight, pending, hc, ht, hkey⟩
  · exact ⟨.inl rfl, hread⟩
  · cases pending with
    | some =>
      obtain ⟨hlog, ht'⟩ := ht.deliver_initial newSecret
      exact ⟨.inr ⟨c, st, flight, none, hc, ht', hkey⟩, hread.append hlog⟩
    | none =>
      have hd : ¬ ((none : Option Envelope).isSome ∧ SessionRole.initiator.other = .responder) := by simp
      have hstored : w.stored .first = _ := ht.stored_session hd
      cases hfl : flight .initiator with
      | nil =>
        rw [hfl, List.map_nil] at hstored
        have hsame : w.deliver H kem .first newSecret = w := by simp only [Conversation.deliver, hstored]
        rw [hsame]
        exact ⟨.inr ⟨c, st, flight, none, hc, ht, hkey⟩, hread⟩
      | cons p =>
        obtain ⟨pqs, hpqs, hlocal⟩ := hkey.own
        have hheld : HoldsKey H.toPrimitives pqs p.pq := by
          intro hash hhash
          refine ⟨pqs.localKey, .head _, ?_⟩
          rw [hlocal]
          exact (hkey.targets p (by rw [hfl]; exact (.head _)) hash hhash).symm
        have hqk : (handshakePq kem (keys .first) (keys .second)).kem = kem := rfl
        obtain ⟨t', pqs', hpqs', hsame, hlog, ht'⟩ := ht.deliver hc hqk (fun _ => rfl)
          (handshakePq_kemCorrect hkem (hproper .first) (hproper .second)) hsep hd hfl hpqs hheld newSecret
        refine ⟨.inr ⟨c, _, _, none, hc, ht', ?_, ?_, ?_⟩, hread.append hlog⟩
        · rw [update_of_ne (by decide)]
          exact hkey.remote
        · refine ⟨pqs', ?_, by rw [hsame]; exact hlocal⟩
          have hself : update st SessionRole.initiator.other t' .responder = t' := update_self ..
          rw [hself]
          exact hpqs'
        · intro p' hp'
          rw [update_self] at hp'
          exact hkey.targets p' (by rw [hfl]; exact .tail _ hp')

end

/-- **Failed sends are harmless** once a session is established. For all keys, both kinds of client on either side and
whatever session the recipient had: in every run in which any network call of any send may fail, but none after a send has
stored a new session, every stored message that is delivered is read as it was sent. -/
theorem failed_sends_harmless (hdh : DhCommutes H.toPrimitives) (hA : AeadCorrect H.toPrimitives)
    (hbinds : AeadBinds H.toPrimitives) (hkem : kem.Correct) (kind : Side → ClientKind) (keys : Side → KeysFile Secret)
    (hproper : ∀ p, (keys p).Proper H kem)
    (hsep : (handshakePq kem (keys .first) (keys .second)).HashSeparates H.toPrimitives)
    (old : Option (SessionFile Secret)) (ops : List (ConversationOp Secret))
    (hl : Legal (Conversation.step H kem) (fun w o => OneSender H w o ∧ InitialStored w o) (.oneWay kind keys old) ops) :
    (run (Conversation.step H kem) (.oneWay kind keys old) ops).AllRead := by
  have hinv := run_inv (fun w => OneDirection H kem kind keys old w ∧ w.AllRead) (fun w o h hok => ?_) ops
    ⟨.inl rfl, fun y hy => nomatch hy⟩ hl
  · exact hinv.2
  · obtain ⟨hone, hinit⟩ := hok
    cases o with
    | send =>
      obtain rfl := hone.1
      exact ⟨send_oneDirection hdh hA hbinds hproper h.1 hone hinit, h.2⟩
    | deliver p newSecret =>
      obtain rfl : p = .first := hone
      exact deliver_oneDirection hkem hproper hsep h.1 h.2 newSecret

/-! ## Samples -/

namespace Sample

/-- a send in which the sender certificate cannot be fetched -/
def failingWrite (plaintext : Bytes) : SendInput UInt32 :=
  { writeTo .second plaintext with fails := fun s => s = .senderCertificate }

def correspondents (kind : ClientKind) : Conversation UInt32 := .oneWay (fun _ => kind) sideKeys none

/-- the first message is stored, the second fails, the third is stored -/
def gap : List (ConversationOp UInt32) :=
  [.send .first (writeTo .second [1]), .send .first (failingWrite [2]), .send .first (writeTo .second [3]),
    .deliver .first 0, .deliver .first 0]

/-- the first message fails, the second is stored -/
def lostFirst : List (ConversationOp UInt32) :=
  [.send .first (failingWrite [1]), .send .first (writeTo .second [2]), .deliver .first 0]

variable {w : Conversation UInt32} {x : SendInput UInt32}

/-- a send of a side that has a session begins no handshake -/
lemma oneSender_of_isSome (h : (w.client .first).session.isSome = true) :
    OneSender Handshake.Sample.handshakePrims w (.send .first x) := by
  refine ⟨rfl, fun hnone => ?_⟩
  rw [hnone] at h
  cases h

lemma initialStored_of_isSome (h : (w.client .first).session.isSome = true) : InitialStored w (.send .first x) := by
  intro hnone
  rw [Option.isNone_iff_eq_none.1 hnone] at h
  cases h

lemma lostFirst_legal (kind : ClientKind)
    (h : ((run conversationStep (correspondents kind) (lostFirst.take 1)).client .first).session.isSome = true) :
    Legal conversationStep (OneSender Handshake.Sample.handshakePrims) (correspondents kind) lostFirst :=
  ⟨⟨rfl, fun _ => answerable .second [1] rfl⟩, oneSender_of_isSome h, rfl, trivial⟩

end Sample

open Client.Sample in
theorem failed_sends_harmless_gap :
    (run conversationStep (correspondents .web) gap).log.map Prod.fst = [[1], [3]] ∧
    (run conversationStep (correspondents .web) gap).AllRead := by
  have hsecond : ((run conversationStep (correspondents .web) (gap.take 1)).client .first).session.isSome = true := by
    decide +kernel
  have hthird : ((run conversationStep (correspondents .web) (gap.take 2)).client .first).session.isSome = true := by
    decide +kernel
  refine ⟨by decide +kernel, failed_sends_harmless dhCommutes aeadCorrect aeadBinds
    kem_correct (fun _ => .web) sideKeys sideKeys_proper (fun _ _ _ _ h => h) none gap ?_⟩
  exact ⟨⟨⟨rfl, fun _ => answerable .second [1] rfl⟩, fun _ _ _ => rfl⟩,
    ⟨oneSender_of_isSome hsecond, initialStored_of_isSome hsecond⟩,
    ⟨oneSender_of_isSome hthird, initialStored_of_isSome hthird⟩, ⟨rfl, trivial⟩, ⟨rfl, trivial⟩, trivial⟩

open Client.Sample in
/-- **A lost initiation** breaks the conversation: the only message that was stored is not read -/
theorem lost_initiation :
    (Legal conversationStep (OneSender Handshake.Sample.handshakePrims) (correspondents .web) lostFirst ∧
      (run conversationStep (correspondents .web) lostFirst).log.map (fun x => (x.1, x.2.toOption)) = [([2], none)]) ∧
    (Legal conversationStep (OneSender Handshake.Sample.handshakePrims) (correspondents .android) lostFirst ∧
      (run conversationStep (correspondents .android) lostFirst).log.map (fun x => (x.1, x.2.toOption)) =
        [([2], none)]) :=
  ⟨⟨lostFirst_legal .web (by decide +kernel), by decide +kernel⟩,
    ⟨lostFirst_legal .android (by decide +kernel), by decide +kernel⟩⟩

end PqMsg.Client
