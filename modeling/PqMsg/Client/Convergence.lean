/-
Do two clients that write to each other end up with one session?

The stored session is overwritten by whichever initial message arrives, and a client initiates whenever it has none. If only
one side initiates, everything that is sent is read, as long as no recipient has rotated the addressed PQ key out of its
history. If both sides initiate before they have received anything, each of them replaces its own session by that of the
other's handshake, and nothing that either of them sends afterwards is read.

- `sessions_converge`: every run in which no side initiates while the other has a session, and in which every delivered
  session message addresses a PQ key that its recipient still holds, reads every message as it was sent.
- `crossed_initiations`: both sides initiate, and the next message is not read.
- `conversation_delivered`: the two sessions that a first message leaves read each other's messages in any order.
-/
import PqMsg.Client.Conversation

namespace PqMsg.Client

open Lib Handshake Session Ratchet PqMsg.Sample Handshake.Sample

variable {Secret : Type}

/-! ## Runs -/

/-- two clients that have not written to each other -/
def Conversation.start (kind : Side → ClientKind) (keys : Side → KeysFile Secret) : Conversation Secret where
  client p := ⟨kind p, keys p, none⟩
  stored _ := []
  log := []

/-- nothing is lost, and a handshake that a send begins can be answered -/
def Reliable (H : HandshakePrims Secret) (w : Conversation Secret) : ConversationOp Secret → Prop
  | .send p x => (∀ s, x.fails s = false) ∧ ((w.client p).session = none → Answerable H (w.client p.other) x.bundle)
  | .deliver _ _ => True

/-- a side without a session writes only if the other side has no session either -/
def NoCrossing (w : Conversation Secret) : ConversationOp Secret → Prop
  | .send p _ => (w.client p).session.isNone → (w.client p.other).session.isNone
  | .deliver _ _ => True

/-- a delivered session message addresses a PQ key that its recipient still holds -/
def KeyHeld (H : HandshakePrims Secret) (kem : Kem Secret) (w : Conversation Secret) : ConversationOp Secret → Prop
  | .send _ _ => True
  | .deliver p _ => ∀ e ∈ (w.stored p).head?, ∀ file ∈ (w.client p.other).session,
      holdsAddressedKey H kem file e.bytes = true

instance (w : Conversation Secret) : ∀ o, Decidable (NoCrossing w o)
  | .send _ _ => inferInstanceAs (Decidable (_ → _))
  | .deliver _ _ => isTrue trivial

instance (H : HandshakePrims Secret) (kem : Kem Secret) (w : Conversation Secret) : ∀ o, Decidable (KeyHeld H kem w o)
  | .send _ _ => isTrue trivial
  | .deliver _ _ => inferInstanceAs (Decidable (∀ e ∈ _, ∀ file ∈ _, _))

/-! ## One handshake -/

variable {H : HandshakePrims Secret} {kem : Kem Secret} {p : Side}

lemma handshakePq_kemCorrect (hkem : kem.Correct) {alice bob : KeysFile Secret} (halice : alice.Proper H kem)
    (hbob : bob.Proper H kem) : (handshakePq kem alice bob).KemCorrect := by
  intro k hk
  rcases hk with ⟨r, rfl⟩ | ⟨rng, hk⟩
  · cases r with
    | initiator => exact halice.pqSignedPrekey
    | responder => exact hbob.pqSignedPrekey
  · exact hkem rng k hk

/-- nothing has happened, or one side has initiated and the conversation runs over its handshake -/
def OneHandshake (H : HandshakePrims Secret) (kem : Kem Secret) (kind : Side → ClientKind) (keys : Side → KeysFile Secret)
    (w : Conversation Secret) : Prop :=
  w = .start kind keys ∨ ∃ a c st flight pending, c.pq = some (handshakePq kem (keys a) (keys a.other)) ∧
    Talks H kem c (handshakePq kem (keys a) (keys a.other)) (keys a).suite a (fun p => (keys p).userId) none st flight
      pending w

section

variable (hdh : DhCommutes H.toPrimitives) (hA : AeadCorrect H.toPrimitives) (hbinds : AeadBinds H.toPrimitives)
  (hkem : kem.Correct) {kind : Side → ClientKind} {keys : Side → KeysFile Secret}
  (hproper : ∀ p, (keys p).Proper H kem)
  (hsep : ∀ a, (handshakePq kem (keys a) (keys a.other)).HashSeparates H.toPrimitives) {w : Conversation Secret}

include hdh hA hbinds hproper in
lemma send_oneHandshake (h : OneHandshake H kem kind keys w) {x : SendInput Secret} (hrel : Reliable H w (.send p x))
    (hcross : NoCrossing w (.send p x)) : OneHandshake H kem kind keys (w.send H kem p x) := by
  rcases h with rfl | ⟨a, c, st, flight, pending, hc, ht⟩
  · -- the first send that goes through initiates
    rcases Conversation.initiate hdh hA hbinds (hproper p) (hproper p.other) (hrel.2 rfl) rfl (fun _ => rfl)
      (fun _ _ => SendInput.call_ok hrel.1 _) with hsame | ⟨c, e, hc, ht⟩
    · exact .inl hsame
    · exact .inr ⟨p, c, _, _, _, hc, ht⟩
  · obtain ⟨r, rfl⟩ := Side.exists_role a p
    have hr : ¬ (pending.isSome ∧ r = .responder) := by
      intro hwait
      -- the other side has no session yet, so it would initiate
      have hnone := ht.sessions r
      rw [if_pos hwait] at hnone
      have hinitiator := ht.sessions .initiator
      rw [if_neg (by simp)] at hinitiator
      have hother := hcross (by rw [hnone]; rfl)
      rw [hwait.2, Side.withRole, Side.other_other] at hother
      rw [Side.withRole] at hinitiator
      rw [hinitiator] at hother
      cases hother
    have hqk : (handshakePq kem (keys a) (keys a.other)).kem = kem := rfl
    rcases ht.send hc hqk (fun _ => rfl) hA hr x with hsame | ⟨ad, wire, new, -, -, ht'⟩
    · rw [hsame]
      exact .inr ⟨a, c, st, flight, pending, hc, ht⟩
    · exact .inr ⟨a, c, _, _, pending, hc, ht'⟩

include hkem hproper hsep in
lemma deliver_oneHandshake (h : OneHandshake H kem kind keys w) (hread : w.AllRead) {newSecret : Secret}
    (hheld : KeyHeld H kem w (.deliver p newSecret)) :
    OneHandshake H kem kind keys (w.deliver H kem p newSecret) ∧ (w.deliver H kem p newSecret).AllRead := by
  rcases h with rfl | ⟨a, c, st, flight, pending, hc, ht⟩
  · exact ⟨.inl rfl, hread⟩
  · obtain ⟨d, rfl⟩ := Side.exists_role a p
    by_cases hd : pending.isSome ∧ d.other = .responder
    · -- the initial message is the oldest
      obtain ⟨e, rfl⟩ := Option.isSome_iff_exists.1 hd.1
      obtain rfl : d = .initiator := by
        cases d with
        | initiator => rfl
        | responder => cases hd.2
      obtain ⟨hlog, ht'⟩ := ht.deliver_initial newSecret
      exact ⟨.inr ⟨a, c, st, flight, none, hc, ht'⟩, hread.append hlog⟩
    · have hstored := ht.stored_session hd
      cases hfl : flight d with
      | nil =>
        rw [hfl, List.map_nil] at hstored
        have hsame : w.deliver H kem (a.withRole d) newSecret = w := by simp only [Conversation.deliver, hstored]
        rw [hsame]
        exact ⟨.inr ⟨a, c, st, flight, pending, hc, ht⟩, hread⟩
      | cons q =>
        rw [hfl, List.map_cons] at hstored
        have hsession := ht.sessions d.other
        rw [if_neg hd, Side.withRole_other] at hsession
        obtain ⟨pqs, hpqs, -⟩ := (ht.ends d.other).ring
        have hopens := (ht.lanes d).opens q (by rw [hfl]; exact (.head _))
        have hqk : (handshakePq kem (keys a) (keys a.other)).kem = kem := rfl
        have haddressed := hheld (packetEnvelope q) (by rw [hstored]; rfl) _ hsession
        have hkey : HoldsKey H.toPrimitives pqs q.pq :=
          holdsKey_of_addressed hopens (ht.ends d.other).static (ht.pqKem hc hqk d.other) hpqs haddressed
        obtain ⟨t', pqs', -, -, hlog, ht'⟩ := ht.deliver hc hqk (fun _ => rfl)
          (handshakePq_kemCorrect hkem (hproper a) (hproper a.other)) (hsep a) hd hfl hpqs hkey newSecret
        exact ⟨.inr ⟨a, c, _, _, pending, hc, ht'⟩, hread.append hlog⟩

end

/-- **Sessions converge** unless both sides initiate. For all keys and both kinds of client on either side, in every run in
which nothing is lost, no side initiates while the other has a session, and every delivered session message addresses a PQ
key that its recipient still holds, every delivered message is read as it was sent. -/
theorem sessions_converge (hdh : DhCommutes H.toPrimitives) (hA : AeadCorrect H.toPrimitives)
    (hbinds : AeadBinds H.toPrimitives) (hkem : kem.Correct) (kind : Side → ClientKind) (keys : Side → KeysFile Secret)
    (hproper : ∀ p, (keys p).Proper H kem)
    (hsep : ∀ a, (handshakePq kem (keys a) (keys a.other)).HashSeparates H.toPrimitives)
    (ops : List (ConversationOp Secret))
    (hl : Legal (Conversation.step H kem) (fun w o => Reliable H w o ∧ NoCrossing w o ∧ KeyHeld H kem w o)
      (.start kind keys) ops) :
    (run (Conversation.step H kem) (.start kind keys) ops).AllRead := by
  have hinv := run_inv (fun w => OneHandshake H kem kind keys w ∧ w.AllRead) (fun w o h hok => ?_) ops
    ⟨.inl rfl, fun y hy => nomatch hy⟩ hl
  · exact hinv.2
  · obtain ⟨hrel, hcross, hheld⟩ := hok
    cases o with
    | send => exact ⟨send_oneHandshake hdh hA hbinds hproper h.1 hrel hcross, h.2⟩
    | deliver => exact deliver_oneHandshake hkem hproper hsep h.1 h.2 hheld

/-! ## Samples -/

namespace Sample

/-- the keys of the two sides -/
def sideKeys : Side → KeysFile UInt32
  | .first => keys "alice" 20
  | .second => keys "bob" 40

lemma sideKeys_proper (p : Side) : (sideKeys p).Proper handshakePrims PqMsg.Sample.kem := by
  cases p
  · exact keys_proper "alice" 20
  · exact keys_proper "bob" 40

/-- a send to `p`, with a bundle without one-time prekey -/
def writeTo (p : Side) (plaintext : Bytes) : SendInput UInt32 where
  plaintext := plaintext
  bundle := (loadBundleResponse 1 (published (sideKeys p))).1
  initiateRng := initiateRng
  encryptRng := ⟨[1], [2], ByteArr.replicate 12 0⟩
  fails _ := false

def strangers : Conversation UInt32 := .start (fun _ => .web) sideKeys

abbrev conversationStep := Conversation.step Handshake.Sample.handshakePrims PqMsg.Sample.kem

/-- a side answers a handshake with the keys it started with -/
lemma answerable {party : Party UInt32} (p : Side) (plaintext : Bytes) (hkeys : party.keys = sideKeys p) :
    Answerable handshakePrims party (writeTo p plaintext).bundle := by
  have hnone : (writeTo p plaintext).bundle.oneTimePrekeyX25519 = none := by cases p <;> rfl
  refine ⟨?_, fun pub hpub => ?_, .inr hnone⟩
  · rw [hkeys]
    cases p <;> exact ⟨rfl, rfl, rfl, rfl⟩
  · rw [hnone] at hpub
    cases hpub

/-- a send of a side that has a session begins no handshake -/
lemma reliable_of_isSome {w : Conversation UInt32} {q : Side} {plaintext : Bytes} (h : (w.client p).session.isSome = true) :
    Reliable handshakePrims w (.send p (writeTo q plaintext)) := by
  refine ⟨fun _ => rfl, fun hnone => ?_⟩
  rw [hnone] at h
  cases h

/-- the first side writes twice, is read, and is answered -/
def answered : List (ConversationOp UInt32) :=
  [.send .first (writeTo .second [1]), .send .first (writeTo .second [2]), .deliver .first 0, .deliver .first 0,
    .send .second (writeTo .first [3]), .deliver .second 0]

/-- both sides write, both are read, and the first side writes again -/
def crossed : List (ConversationOp UInt32) :=
  [.send .first (writeTo .second [1]), .send .second (writeTo .first [2]), .deliver .first 0, .deliver .second 0,
    .send .first (writeTo .second [3]), .deliver .first 0]

end Sample

set_option maxRecDepth 2000 in
open Client.Sample in
theorem sessions_converge_answered :
    (run conversationStep strangers answered).log.map Prod.fst = [[1], [2], [3]] ∧
    (run conversationStep strangers answered).AllRead := by
  refine ⟨by decide, sessions_converge dhCommutes aeadCorrect aeadBinds
    kem_correct (fun _ => .web) sideKeys sideKeys_proper (fun _ _ _ _ _ h => h) answered ?_⟩
  refine ⟨⟨⟨fun _ => rfl, fun _ => answerable .second [1] rfl⟩, by decide, trivial⟩,
    ⟨reliable_of_isSome (by decide), by decide, trivial⟩,
    ⟨trivial, trivial, by decide⟩, ⟨trivial, trivial, by decide⟩,
    ⟨reliable_of_isSome (by decide), by decide, trivial⟩, ⟨trivial, trivial, by decide⟩, trivial⟩

set_option maxRecDepth 2000 in
open Client.Sample in
/-- **Crossed initiations**: both first messages are read, and the next message is not, though nothing is lost and the
recipient holds the PQ key that it addresses -/
theorem crossed_initiations :
    Legal conversationStep (fun w o => Reliable Handshake.Sample.handshakePrims w o ∧
      KeyHeld Handshake.Sample.handshakePrims PqMsg.Sample.kem w o) strangers crossed ∧
    (run conversationStep strangers crossed).log.map (fun x => (x.1, x.2.toOption)) =
      [([1], some [1]), ([2], some [2]), ([3], none)] := by
  have hkeeps := Conversation.send_keeps handshakePrims kem strangers .first (writeTo .second [1]) .first
  refine ⟨⟨⟨⟨fun _ => rfl, fun _ => answerable .second [1] rfl⟩, trivial⟩,
    ⟨⟨fun _ => rfl, fun _ => answerable .first [2] hkeeps.2⟩, trivial⟩, ⟨trivial, by decide⟩,
    ⟨trivial, by decide⟩, ⟨reliable_of_isSome (by decide), trivial⟩, ⟨trivial, by decide⟩,
    trivial⟩, by decide⟩

/-! ## Any order of deliveries -/

/-- **From the first message on.** Whichever clients send and read it, the first message leaves the two sessions of one
handshake, and what these send is read in every order of deliveries within the windows and the histories of PQ keys -/
theorem conversation_delivered (hdh : DhCommutes H.toPrimitives) (hA : AeadCorrect H.toPrimitives)
    (hbinds : AeadBinds H.toPrimitives) (hkem : kem.Correct) (kind : ClientKind) {alice : KeysFile Secret}
    (bob : Party Secret) (halice : alice.Proper H kem) (hbob : bob.keys.Proper H kem)
    (hsep : (handshakePq kem alice bob.keys).HashSeparates H.toPrimitives) {bundle : ServerBundle}
    (hb : Answerable H bob bundle) (rng : InitiateRng Secret) (payload : Bytes) {sent : SendResult Secret}
    (hsent : startSession H kem kind rng alice bob.keys.userId bundle payload = .ok sent) (newSecret : Secret)
    (session : Option (SessionFile Secret)) :
    let c := handshakeSetup kem alice bob.keys sent.session.snapshot.rootKey
    (∃ r, clientDecrypt H kem bob.kind newSecret bob.keys alice.userId sent.messageBytes session = .ok r ∧
      r.plaintext = payload ∧ restoreSession kem sent.session = c.session H.toPrimitives .initiator ∧
      restoreSession kem r.session = c.session H.toPrimitives .responder) ∧
    ∀ ops, Legal (step H.toPrimitives) (fun w o => InWindow c (step H.toPrimitives w o) ∧
        HistoryCovers (handshakePq kem alice bob.keys) w o) (start H.toPrimitives c) ops →
      AllDelivered (run (step H.toPrimitives) (start H.toPrimitives c) ops) := by
  obtain ⟨out, hs⟩ := startSession_ok hb.carries hsent
  obtain ⟨keys, -, hr⟩ :=
    clientDecrypt_initial hdh hA halice hbob hb.carries hs hbinds hb.held hb.reads newSecret session
  have hroot : sent.session.snapshot.rootKey = out.sessionKey := by
    rw [hs.session]
    rfl
  have hrestore : ∀ r, fromSnapshotWithKem
      ((handshakeSetup kem alice bob.keys out.sessionKey).session H.toPrimitives r).snapshot (some kem) =
        (handshakeSetup kem alice bob.keys out.sessionKey).session H.toPrimitives r :=
    fun r => restore_snapshot (by exact Nat.min_le_right _ _)
  rw [hroot]
  refine ⟨⟨_, hr, rfl, ?_, hrestore _⟩, fun ops hl => ?_⟩
  · rw [restoreSession, hs.session]
    exact hrestore _
  · have hinv := run_inv (fun w => Inv H.toPrimitives _ w ∧ ∃ K, PqInv H.toPrimitives _ K w)
      (fun w o h hw => step_pqInv hA (handshakePq_kemCorrect hkem halice hbob) hsep rfl o h hw.1 hw.2) ops
      ⟨start_inv _ _, _, start_pqInv rfl⟩ hl
    exact hinv.1.delivered

set_option maxRecDepth 2000 in
open Client.Sample in
/-- three messages after the first one, the last of them delivered first -/
theorem conversation_delivered_reordered : ∃ sent, firstMessage .web 0 = .ok sent ∧
    AllDelivered (run (step handshakePrims.toPrimitives) (start handshakePrims.toPrimitives
      (handshakeSetup PqMsg.Sample.kem (keys "alice" 20) (keys "bob" 40) sent.session.snapshot.rootKey)) reordered) := by
  have hrun : ((firstMessage .web 0).toOption.map fun sent => sent.session.snapshot.rootKey) = some 57753 := by
    decide
  obtain ⟨sent, hsent, hroot⟩ := Option.map_eq_some_iff.1 hrun
  have hsent : firstMessage .web 0 = .ok sent := by
    cases h : firstMessage .web 0 <;> simp_all [Except.toOption]
  refine ⟨sent, hsent, (conversation_delivered dhCommutes aeadCorrect aeadBinds kem_correct .web
    ⟨.web, keys "bob" 40, none⟩ (keys_proper "alice" 20) (keys_proper "bob" 40) (fun _ _ _ _ h => h)
    ⟨⟨rfl, rfl, rfl, rfl⟩, holds_oneTimePrekey 0, .inl rfl⟩ initiateRng [104, 105] hsent 0 none).2 reordered ?_⟩
  rw [hroot]
  decide

end PqMsg.Client
