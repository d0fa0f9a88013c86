/-
Conversations of two clients: how they send and receive direct messages, and what the server stores in between.

`Party.send` is `encryptDirectPayload` with the relay request of the web client, and `sendMessageFlow` of the Android client.
Both use the stored session if there is one and else fetch a bundle and initiate; both store the session right after the
message is made, before the network calls that deliver it (`SendFlow`). `Party.receive` is the direct-message part of
`decryptIncomingPayload` and of `syncInbox`.

The sealed envelope around a message is left out (what one side seals the other opens), and so is the cached capability
document, which both clients require to ask for a PQ ratchet step with every message.

- `Talks` relates a conversation to the two sessions of one handshake, with what is stored at the server between them.
- `Conversation.initiate`: how such a conversation begins.
- `Talks.send`, `Talks.deliver`, `Talks.deliver_initial`: what a send and a delivery make of such a conversation.
-/
import PqMsg.Client.CrossClient
import PqMsg.Session.InOrder

namespace PqMsg.Client

open Lib Wire Handshake Session Ratchet Function List Option

variable {Secret : Type}

/-! ## Sending -/

/-- the network calls of a send -/
inductive NetworkStep where
  | capabilities
  | bundle
  | transparency
  | peerIdentity
  | senderCertificate
  | deliveryToken
  | relay
deriving DecidableEq, Repr

/-- the calls before the stored session is loaded, before a session is initiated, and after the session of a message was
stored: one that was there before, or a new one -/
structure SendFlow where
  ready : List NetworkStep
  initiating : List NetworkStep
  encrypted : List NetworkStep
  initiated : List NetworkStep

def webFlow : SendFlow where
  ready := [.capabilities]
  initiating := [.bundle, .transparency]
  encrypted := [.peerIdentity, .senderCertificate, .deliveryToken, .relay]
  initiated := [.senderCertificate, .deliveryToken, .relay]

/-- the Android client checks the transparency log after it has stored the session -/
def androidFlow : SendFlow where
  ready := [.capabilities]
  initiating := [.bundle]
  encrypted := [.peerIdentity, .transparency, .senderCertificate, .deliveryToken, .relay]
  initiated := [.transparency, .senderCertificate, .deliveryToken, .relay]

def ClientKind.flow : ClientKind → SendFlow
  | .web => webFlow
  | .android => androidFlow

inductive SendError where
  | network (s : NetworkStep)
  | binding (e : BindingError)

/-- the plaintext of a send, the bundle that the server would serve for it, its randomness, and the calls that fail -/
structure SendInput (Secret : Type) where
  plaintext : Bytes
  bundle : ServerBundle
  initiateRng : InitiateRng Secret
  encryptRng : EncryptRng
  fails : NetworkStep → Bool

/-- calls made one after the other -/
def SendInput.call (x : SendInput Secret) : List NetworkStep → Except SendError Unit
  | [] => .ok ()
  | s :: rest => if x.fails s then .error (.network s) else x.call rest

variable {x : SendInput Secret}

lemma SendInput.call_ok (h : ∀ s, x.fails s = false) (l : List NetworkStep) : x.call l = .ok () := by
  induction l with
  | nil => rfl
  | cons s l ih => simp [SendInput.call, h s, ih]

def sessionRequiresRehandshake (file : SessionFile Secret) : Bool :=
  decide (file.snapshot.pqRatchet.map PqRatchetState.interval ≠ some defaultPqRatchetInterval)

/-- a stored session without the required ratchet is cleared -/
def loadCompatibleSession (session : Option (SessionFile Secret)) : Option (SessionFile Secret) :=
  session.filter fun file => !sessionRequiresRehandshake file

structure Party (Secret : Type) where
  kind : ClientKind
  keys : KeysFile Secret
  session : Option (SessionFile Secret)

open Party

section

variable (H : HandshakePrims Secret) (kem : Kem Secret)

/-- the client after a send, and the message that the relay stored -/
def Party.send (c : Party Secret) (peerUserId : String) (x : SendInput Secret) : Party Secret × Except SendError Bytes :=
  match x.call c.kind.flow.ready with
  | .error e => (c, .error e)
  | .ok () =>
    match loadCompatibleSession c.session with
    | some file =>
      match encryptWithSession H kem x.encryptRng file c.keys.userId peerUserId x.plaintext with
      | .error e => (c, .error (.binding e))
      | .ok result =>
        ({ c with session := some result.session }, (x.call c.kind.flow.encrypted).map fun _ => result.messageBytes)
    | none =>
      match x.call c.kind.flow.initiating with
      | .error e => ({ c with session := none }, .error e)
      | .ok () =>
        match startSession H kem c.kind x.initiateRng c.keys peerUserId x.bundle x.plaintext with
        | .error e => ({ c with session := none }, .error (.binding e))
        | .ok result =>
          ({ c with session := some result.session }, (x.call c.kind.flow.initiated).map fun _ => result.messageBytes)

/-- the client after a message of `senderUserId`, and what it shows -/
def Party.receive (c : Party Secret) (newSecret : Secret) (senderUserId : String) (messageBytes : Bytes) :
    Party Secret × Except BindingError Bytes :=
  match clientDecrypt H kem c.kind newSecret c.keys senderUserId messageBytes (loadCompatibleSession c.session) with
  | .ok r => ({ c with keys := r.updatedKeys, session := some r.session }, .ok r.plaintext)
  | .error e => ({ c with session := loadCompatibleSession c.session }, .error e)

end

/-! ## Two clients and the server -/

inductive Side where
  | first
  | second
deriving DecidableEq, Repr

open Side

def Side.other : Side → Side
  | .first => .second
  | .second => .first

/-- the side with role `r`, if `a` has initiated -/
def Side.withRole (a : Side) : SessionRole → Side
  | .initiator => a
  | .responder => a.other

/-- a stored message, and the plaintext of the send that produced it -/
structure Envelope where
  bytes : Bytes
  plaintext : Bytes

structure Conversation (Secret : Type) where
  client : Side → Party Secret
  /-- what the server has from each side and has not delivered, oldest first -/
  stored : Side → List Envelope
  /-- for each delivery the plaintext that was sent and what the recipient read -/
  log : List (Bytes × Except BindingError Bytes)

open Conversation

inductive ConversationOp (Secret : Type) where
  | send (p : Side) (x : SendInput Secret)
  | deliver (p : Side) (newSecret : Secret)

def Conversation.userId (w : Conversation Secret) (p : Side) : String := (w.client p).keys.userId

def Conversation.send (H : HandshakePrims Secret) (kem : Kem Secret) (w : Conversation Secret) (p : Side)
    (x : SendInput Secret) : Conversation Secret :=
  let r := (w.client p).send H kem (w.userId p.other) x
  { w with
    client := update w.client p r.1
    stored := update w.stored p (w.stored p ++ (r.2.toOption.map fun b => ⟨b, x.plaintext⟩).toList) }

/-- the oldest message of `p` is delivered -/
def Conversation.deliver (H : HandshakePrims Secret) (kem : Kem Secret) (w : Conversation Secret) (p : Side)
    (newSecret : Secret) : Conversation Secret :=
  match w.stored p with
  | [] => w
  | e :: rest =>
    let r := (w.client p.other).receive H kem newSecret (w.userId p) e.bytes
    { client := update w.client p.other r.1
      stored := update w.stored p rest
      log := w.log ++ [(e.plaintext, r.2)] }

def Conversation.step (H : HandshakePrims Secret) (kem : Kem Secret) (w : Conversation Secret) :
    ConversationOp Secret → Conversation Secret
  | .send p x => w.send H kem p x
  | .deliver p newSecret => w.deliver H kem p newSecret

/-- every delivered message was read as it was sent -/
def Conversation.AllRead (w : Conversation Secret) : Prop := ∀ x ∈ w.log, x.2 = .ok x.1

lemma Conversation.AllRead.append {w w' : Conversation Secret} {m : Bytes} (h : w.AllRead)
    (hlog : w'.log = w.log ++ [(m, .ok m)]) : w'.AllRead := by
  intro x hx
  rw [hlog] at hx
  rcases mem_append.1 hx with hx | hx
  · exact h x hx
  · rw [mem_singleton.1 hx]

/-! ## Sides and roles -/

@[simp] lemma Side.other_other (p : Side) : p.other.other = p := by cases p <;> rfl

@[simp] lemma Side.other_ne (p : Side) : p.other ≠ p := by cases p <;> decide

lemma Side.withRole_other (a : Side) (r : SessionRole) : a.withRole r.other = (a.withRole r).other := by
  cases r with
  | initiator => rfl
  | responder => exact (other_other a).symm

variable {r : SessionRole} {s : SessionState Secret}

lemma Side.withRole_ne {a : Side} {r' : SessionRole} (h : r' ≠ r) : a.withRole r' ≠ a.withRole r := by
  rcases SessionRole.eq_or_other r' r with e | rfl
  · exact absurd e h
  · rw [withRole_other]
    exact other_ne _

/-- every side has a role -/
lemma Side.exists_role (a p : Side) : ∃ r, a.withRole r = p := by
  by_cases h : p = a
  · exact ⟨.initiator, h.symm⟩
  · refine ⟨.responder, ?_⟩
    cases a <;> cases p <;> first | rfl | exact absurd rfl h

/-! ## Stored sessions -/

variable {H : HandshakePrims Secret} {kem : Kem Secret} {c : Setup Secret} {q : PqSetup Secret} {d : SessionRole}
  {suite : KemAlgorithm} {client : Party Secret} {user peer : String} {p : Packet}

/-- the file of a session between two users -/
def sessionFile (userId peerUserId : String) (suite : KemAlgorithm) (s : SessionState Secret) : SessionFile Secret :=
  ⟨1, userId, peerUserId, suite, s.snapshot⟩

/-- a snapshot restores the session, KEM included -/
lemma restoreSession_sessionFile (hs : Static H.toPrimitives c r s) (hkem : s.pqKem = some kem)
    (userId peerUserId : String) (suite : KemAlgorithm) :
    restoreSession kem (sessionFile userId peerUserId suite s) = s := by
  have hrestore := restore_snapshot (s := s) (by rw [hs.window]; exact min_le_right _ _)
  rw [hkem] at hrestore
  exact hrestore

/-- a session of the run is not cleared -/
lemma loadCompatibleSession_sessionFile {P : Primitives Secret} (hs : End P c q r s)
    (hint : ∀ r, q.interval r = defaultPqRatchetInterval) (userId peerUserId : String) (suite : KemAlgorithm) :
    loadCompatibleSession (some (sessionFile userId peerUserId suite s)) = some (sessionFile userId peerUserId suite s) := by
  obtain ⟨st, hst, hi, -⟩ := hs.ring
  simp [loadCompatibleSession, sessionRequiresRehandshake, sessionFile, SessionState.snapshot, hst, hi, hint r]

/-- the recipient's session still has the PQ key that the message addresses -/
def holdsAddressedKey (H : HandshakePrims Secret) (kem : Kem Secret) (file : SessionFile Secret) (bytes : Bytes) : Bool :=
  match decodeWireMessage bytes with
  | .error _ => true
  | .ok dec =>
    match (restoreSession kem file).incomingFields H.toPrimitives dec with
    | .error _ => true
    | .ok inc =>
      match inc.header.pq.targetPubHash, file.snapshot.pqRatchet with
      | some h, some st => decide (∃ k ∈ st.localKey :: st.localKeyHistory, hashPublicKey H.toPrimitives k.publicKey = h)
      | _, _ => true

/-- for a message of the run that is what its delivery needs -/
lemma holdsKey_of_addressed {t : SessionState Secret} {st : PqRatchetState Secret} (ho : Opens H.toPrimitives c d p)
    (ht : Static H.toPrimitives c d.other t) (hkem : t.pqKem = some kem) (hst : t.pqState = some st)
    {userId peerUserId : String} (h : holdsAddressedKey H kem (sessionFile userId peerUserId suite t) p.wire = true) :
    HoldsKey H.toPrimitives st p.pq := by
  obtain ⟨inc, ⟨dec, hdec, hinc, hheader⟩, -⟩ := ho
  have hrestore := restoreSession_sessionFile ht hkem userId peerUserId suite
  have hratchet : (sessionFile userId peerUserId suite t).snapshot.pqRatchet = some st := hst
  have hpq : inc.header.pq = p.pq := by rw [hheader]; rfl
  intro hash hhash
  have htarget : p.pq.targetPubHash = some hash := hhash
  simp only [holdsAddressedKey, hdec, hrestore, hinc t ht, hpq, htarget, hratchet, decide_eq_true_eq] at h
  exact h

/-! ## Conversations over one handshake -/

/-- what the server has of role `r` before its session messages: the initial message, if it is not delivered yet -/
def unread (pending : Option Envelope) : SessionRole → List Envelope
  | .initiator => pending.toList
  | .responder => []

/-- a side that has its session has no unread initial message -/
lemma unread_nil {pending : Option Envelope} (hd : ¬ (pending.isSome ∧ d.other = .responder)) : unread pending d = [] := by
  cases d with
  | responder => rfl
  | initiator =>
    cases pending with
    | none => rfl
    | some => exact absurd ⟨rfl, rfl⟩ hd

def packetEnvelope (p : Packet) : Envelope := ⟨p.wire, p.message⟩

/-- `a` has initiated: the sessions of both sides and what is stored between them belong to the handshake `c`. While the
initial message is `pending`, the other side has the session `old`. -/
structure Talks (H : HandshakePrims Secret) (kem : Kem Secret) (c : Setup Secret) (q : PqSetup Secret)
    (suite : KemAlgorithm) (a : Side) (name : Side → String) (old : Option (SessionFile Secret))
    (st : SessionRole → SessionState Secret) (flight : SessionRole → List Packet) (pending : Option Envelope)
    (w : Conversation Secret) : Prop where
  users : ∀ p, w.userId p = name p
  ends : ∀ r, End H.toPrimitives c q r (st r)
  lanes : ∀ d, Lane H.toPrimitives c q d (st d).sendingChain (st d.other).receivingChain (flight d)
  sessions : ∀ r, (w.client (a.withRole r)).session =
    if pending.isSome ∧ r = .responder then old
    else some (sessionFile (name (a.withRole r)) (name (a.withRole r).other) suite (st r))
  stored : ∀ r, w.stored (a.withRole r) = unread pending r ++ (flight r).map packetEnvelope
  associated : ∀ r, ∀ p ∈ flight r,
    conversationAssociatedData (name (a.withRole r)) (name (a.withRole r).other) = .ok p.ad
  readable : ∀ e ∈ pending, ∀ newSecret session, ∃ keys, keys.userId = name a.other ∧
    clientDecrypt H kem (w.client a.other).kind newSecret (w.client a.other).keys (name a) e.bytes session =
      .ok ⟨e.plaintext, sessionFile (name a.other) (name a) suite (st .responder), true, keys⟩

/-- a send changes the stored session only -/
lemma Party.send_frame (H : HandshakePrims Secret) (kem : Kem Secret) (party : Party Secret) (peer : String)
    (x : SendInput Secret) : ∃ session, (party.send H kem peer x).1 = { party with session := session } := by
  unfold send
  split
  · exact ⟨party.session, rfl⟩
  · split
    · split
      · exact ⟨party.session, rfl⟩
      · exact ⟨_, rfl⟩
    · split
      · exact ⟨none, rfl⟩
      · split
        · exact ⟨none, rfl⟩
        · exact ⟨_, rfl⟩

lemma Conversation.send_keeps (H : HandshakePrims Secret) (kem : Kem Secret) (w : Conversation Secret) (p : Side)
    (x : SendInput Secret) (p' : Side) :
    ((w.send H kem p x).client p').kind = (w.client p').kind ∧ ((w.send H kem p x).client p').keys = (w.client p').keys := by
  obtain ⟨session, hs⟩ := send_frame H kem (w.client p) (w.userId p.other) x
  simp only [send, update_apply, hs]
  split_ifs with hp
  · rw [hp]
    exact ⟨rfl, rfl⟩
  · exact ⟨rfl, rfl⟩

/-- the bundle carries the party's keys, the party has the secret of its one-time prekey, and its client can use it -/
structure Answerable (H : HandshakePrims Secret) (party : Party Secret) (bundle : ServerBundle) : Prop where
  carries : CarriesKeys party.keys bundle
  held : ∀ pub ∈ bundle.oneTimePrekeyX25519, HoldsOneTimePrekey H party.keys pub
  reads : party.kind = .web ∨ bundle.oneTimePrekeyX25519 = none

/-- **Initiating**: nothing happens, or the initial message is stored and the conversation runs over a new handshake, unless
a network call fails after the session was stored -/
lemma Conversation.initiate (hdh : DhCommutes H.toPrimitives) (hA : AeadCorrect H.toPrimitives)
    (hbinds : AeadBinds H.toPrimitives) {w : Conversation Secret} {a : Side} (halice : (w.client a).keys.Proper H kem)
    (hbob : (w.client a.other).keys.Proper H kem) (hbundle : Answerable H (w.client a.other) x.bundle)
    (hsession : (w.client a).session = none) (hstored : ∀ p, w.stored p = [])
    (hlate : x.call (w.client a).kind.flow.ready = .ok () → x.call (w.client a).kind.flow.initiating = .ok () →
      x.call (w.client a).kind.flow.initiated = .ok ()) :
    w.send H kem a x = w ∨ ∃ c e, c.pq = some (handshakePq kem (w.client a).keys (w.client a.other).keys) ∧
      Talks H kem c (handshakePq kem (w.client a).keys (w.client a.other).keys) (w.client a).keys.suite a w.userId
        (w.client a.other).session (c.session H.toPrimitives) (fun _ => []) (some e) (w.send H kem a x) := by
  have hload : loadCompatibleSession (w.client a).session = none := by rw [hsession]; rfl
  have hself : { w.client a with session := none } = w.client a := by rw [← hsession]
  -- a send that leaves the client as it is and stores nothing changes nothing
  have hnothing : ∀ e, (w.client a).send H kem (w.userId a.other) x = (w.client a, .error e) → w.send H kem a x = w := by
    intro e hsend
    simp [send, hsend, Except.toOption]
  cases hready : x.call (w.client a).kind.flow.ready with
  | error e =>
    left
    apply hnothing e
    simp [Party.send, hready]
  | ok =>
    cases hinit : x.call (w.client a).kind.flow.initiating with
    | error e =>
      left
      apply hnothing e
      simp [Party.send, hready, hload, hinit, hself]
    | ok =>
      cases hstart : startSession H kem (w.client a).kind x.initiateRng (w.client a).keys (w.userId a.other) x.bundle
          x.plaintext with
      | error e =>
        left
        apply hnothing (.binding e)
        simp [Party.send, hready, hload, hinit, hstart, hself]
      | ok sent =>
        right
        obtain ⟨out, hs⟩ := startSession_ok hbundle.carries hstart
        have hsend : (w.client a).send H kem (w.userId a.other) x =
            ({ w.client a with session := some sent.session }, .ok sent.messageBytes) := by
          simp only [Party.send, hready, hload, hinit, hstart, hlate hready hinit]
          rfl
        refine ⟨handshakeSetup kem (w.client a).keys (w.client a.other).keys out.sessionKey,
          ⟨sent.messageBytes, x.plaintext⟩, rfl, ?_, session_end rfl, fun d => ?_, ?_, ?_,
          fun r p hp => absurd hp not_mem_nil, ?_⟩
        · intro p
          rw [userId, (send_keeps H kem w a x p).2]
          rfl
        · rw [session_sendingChain, session_receivingChain]
          exact ⟨rfl, rfl, Nat.le_refl _, .nil, by simp, by simp, by simp⟩
        · intro r
          cases r with
          | initiator =>
            simp only [withRole, send, hsend, update_self]
            rw [if_neg (by simp), hs.session]
            rfl
          | responder =>
            simp only [withRole, send, hsend]
            rw [update_of_ne (other_ne a), if_pos (by simp)]
        · intro r
          cases r with
          | initiator =>
            simp only [withRole, send, hsend, update_self, hstored]
            rfl
          | responder =>
            simp only [withRole, send, hsend]
            rw [update_of_ne (other_ne a), hstored]
            rfl
        · intro e he newSecret session
          cases he
          simp only [send, hsend]
          rw [update_of_ne (other_ne a)]
          exact clientDecrypt_initial hdh hA halice hbob hbundle.carries hs hbinds hbundle.held hbundle.reads newSecret session

lemma sessionFile_users :
    (sessionFile user peer suite s).userId = user ∧ (sessionFile user peer suite s).peerUserId = peer := ⟨rfl, rfl⟩

/-- what sending with a stored session can do: nothing, or a message of the session, which the relay stores or not -/
lemma Party.send_cases (hs : End H.toPrimitives c q r s) (hkem : s.pqKem = some kem)
    (hint : ∀ r, q.interval r = defaultPqRatchetInterval) (huser : client.keys.userId = user)
    (hsession : client.session = some (sessionFile user peer suite s)) (x : SendInput Secret) :
    (∃ e, client.send H kem peer x = (client, .error e)) ∨
    ∃ ad wire, conversationAssociatedData user peer = .ok ad ∧
      (s.encrypt H.toPrimitives x.encryptRng x.plaintext ad).2 = .ok wire ∧
      client.send H kem peer x = ({ client with session := some (sessionFile user peer suite
            (s.encrypt H.toPrimitives x.encryptRng x.plaintext ad).1) },
          (x.call client.kind.flow.encrypted).map fun _ => wire) := by
  unfold send
  cases hready : x.call client.kind.flow.ready with
  | error e => exact .inl ⟨e, rfl⟩
  | ok =>
    rw [hsession, loadCompatibleSession_sessionFile hs hint]
    simp only
    cases he : encryptWithSession H kem x.encryptRng (sessionFile user peer suite s) client.keys.userId peer x.plaintext with
    | error e => exact .inl ⟨.binding e, rfl⟩
    | ok =>
      right
      have hrestore := restoreSession_sessionFile hs.static hkem user peer suite
      simp only [encryptWithSession, sessionFile_users, huser, ne_eq, not_true_eq_false, if_false, hrestore, bind_ok, mapError_ok] at he
      obtain ⟨ad, had, wire, hwire, hresult⟩ := he
      cases hresult
      exact ⟨ad, wire, had, hwire, rfl⟩

/-- what receiving a session message does, if the session decrypts it -/
lemma Party.receive_session {t t' : SessionState Secret} (ht : End H.toPrimitives c q r t) (hkem : t.pqKem = some kem)
    (hint : ∀ r, q.interval r = defaultPqRatchetInterval) (huser : client.keys.userId = user)
    (hsession : client.session = some (sessionFile user peer suite t)) {ad wire m : Bytes} {dec : DecodedWireMessage}
    {newSecret : Secret} (hdec : decodeWireMessage wire = .ok dec) (had : conversationAssociatedData peer user = .ok ad)
    (hopen : t.decrypt H.toPrimitives newSecret wire ad = (t', .ok m)) :
    client.receive H kem newSecret peer wire = ({ client with session := some (sessionFile user peer suite t') }, .ok m) := by
  have hrestore := restoreSession_sessionFile ht.static hkem user peer suite
  have hnot : ∃ e, InitialMessage.decode wire = .error e := by
    cases h : InitialMessage.decode wire with
    | ok m => exact absurd h (not_initial_of_session hdec m)
    | error e => exact ⟨e, rfl⟩
  obtain ⟨e, hnot⟩ := hnot
  have hwith : ∀ unsupported receive, decryptMessageWith H kem unsupported receive newSecret client.keys client.keys.userId
      peer wire (some (sessionFile user peer suite t)) = .ok ⟨m, sessionFile user peer suite t', false, client.keys⟩ := by
    intro unsupported receive
    simp only [decryptMessageWith, ne_eq, not_true_eq_false, if_false, hnot, decryptWithSession, sessionFile_users, huser, had,
      hrestore, Except.mapError, bind, Except.bind, hopen]
    rfl
  have hread : clientDecrypt H kem client.kind newSecret client.keys peer wire (some (sessionFile user peer suite t)) =
      .ok ⟨m, sessionFile user peer suite t', false, client.keys⟩ := by
    unfold clientDecrypt
    cases client.kind with
    | web | android => exact hwith _ _
  simp [receive, hsession, loadCompatibleSession_sessionFile ht hint, hread]

namespace Talks

variable {suite : KemAlgorithm} {a : Side} {name : Side → String} {old : Option (SessionFile Secret)}
  {st : SessionRole → SessionState Secret} {flight : SessionRole → List Packet} {pending : Option Envelope}
  {w : Conversation Secret} (hc : c.pq = some q) (hqk : q.kem = kem)
  (hint : ∀ r, q.interval r = defaultPqRatchetInterval)

include hc hqk in
lemma pqKem (h : Talks H kem c q suite a name old st flight pending w) (r : SessionRole) : (st r).pqKem = some kem := by
  rw [(h.ends r).static.pqKem, hc, ← hqk]
  rfl

/-- the session of role `r` moves on, the packets in flight change, and nothing else does -/
lemma move (h : Talks H kem c q suite a name old st flight pending w) (hr : ¬ (pending.isSome ∧ r = .responder))
    {s' : SessionState Secret} {flight' : SessionRole → List Packet} {w' : Conversation Secret}
    (hend : End H.toPrimitives c q r s') (hlanes : ∀ d, Lane H.toPrimitives c q d (update st r s' d).sendingChain
      (update st r s' d.other).receivingChain (flight' d)) (hassociated : ∀ r, ∀ p ∈ flight' r,
      conversationAssociatedData (name (a.withRole r)) (name (a.withRole r).other) = .ok p.ad)
    (hclient : w'.client = update w.client (a.withRole r) { w.client (a.withRole r) with
      session := some (sessionFile (name (a.withRole r)) (name (a.withRole r).other) suite s') })
    (hstored : ∀ r, w'.stored (a.withRole r) = unread pending r ++ (flight' r).map packetEnvelope) :
    Talks H kem c q suite a name old (update st r s') flight' pending w' := by
  refine ⟨?_, ?_, hlanes, ?_, hstored, hassociated, ?_⟩
  · intro p
    rw [← h.users p]
    simp only [userId, hclient, update_apply]
    split_ifs with hp
    · rw [hp]
    · rfl
  · intro r'
    by_cases hr' : r' = r
    · rw [hr', update_self]
      exact hend
    · rw [update_of_ne hr']
      exact h.ends r'
  · intro r'
    by_cases hr' : r' = r
    · subst hr'
      rw [if_neg hr, hclient, update_self, update_self]
    · rw [hclient, update_of_ne (withRole_ne hr'), update_of_ne hr']
      exact h.sessions r'
  · -- a pending initial message goes to a side that does not move
    intro e he newSecret session
    have hne : SessionRole.responder ≠ r := by
      intro e'
      exact hr ⟨by rw [mem_def.1 he]; rfl, e'.symm⟩
    have hside : a.other ≠ a.withRole r := withRole_ne (a := a) hne
    rw [hclient, update_of_ne hside, update_of_ne hne]
    exact h.readable e he newSecret session

/-- to a side that has its session only session messages are stored -/
lemma stored_session (h : Talks H kem c q suite a name old st flight pending w)
    (hd : ¬ (pending.isSome ∧ d.other = .responder)) : w.stored (a.withRole d) = (flight d).map packetEnvelope := by
  rw [h.stored, unread_nil hd]
  rfl

include hc hqk hint

/-- **A send** of a side that has its session: nothing changes, or its session moves on and its message is stored or lost -/
lemma send (hA : AeadCorrect H.toPrimitives) (h : Talks H kem c q suite a name old st flight pending w)
    (hr : ¬ (pending.isSome ∧ r = .responder)) (x : SendInput Secret) :
    w.send H kem (a.withRole r) x = w ∨ ∃ ad wire new, ((st r).encrypt H.toPrimitives x.encryptRng x.plaintext ad).2 = .ok wire ∧
      new.Sublist [(st r).packet H.toPrimitives x.encryptRng x.plaintext ad wire] ∧
      Talks H kem c q suite a name old (update st r ((st r).encrypt H.toPrimitives x.encryptRng x.plaintext ad).1)
        (update flight r (flight r ++ new)) pending (w.send H kem (a.withRole r) x) := by
  have hsession := h.sessions r
  rw [if_neg hr] at hsession
  rcases send_cases (h.ends r) (h.pqKem hc hqk r) hint (h.users (a.withRole r)) hsession x with
    ⟨e, hsend⟩ | ⟨ad, wire, had, henc, hsend⟩
  · left
    simp [Conversation.send, h.users, hsend, Except.toOption]
  · right
    -- the relay stores the message or not
    obtain ⟨new, hsub, hnew⟩ : ∃ new : List Packet, new.Sublist [(st r).packet H.toPrimitives x.encryptRng x.plaintext ad wire] ∧
        ((((x.call (w.client (a.withRole r)).kind.flow.encrypted).map fun _ => wire).toOption.map
          fun b => (⟨b, x.plaintext⟩ : Envelope)).toList) = new.map packetEnvelope := by
      cases x.call (w.client (a.withRole r)).kind.flow.encrypted with
      | ok => exact ⟨_, List.Sublist.refl _, rfl⟩
      | error => exact ⟨[], nil_sublist _, rfl⟩
    refine ⟨ad, wire, new, henc, hsub, ?_⟩
    obtain ⟨hend, hrcv⟩ := (h.ends r).encrypt hc x.encryptRng x.plaintext ad
    refine h.move hr hend ?_ ?_ ?_ ?_
    · intro d
      rcases SessionRole.eq_or_other d r with rfl | rfl
      · rw [update_self, update_self, update_of_ne d.other_ne]
        exact ((h.lanes d).send hA hc (h.ends d) henc).lose (hsub.append_left _)
      · rw [update_of_ne r.other_ne, update_of_ne r.other_ne, SessionRole.other_other, update_self, hrcv]
        have hlane := h.lanes r.other
        rw [SessionRole.other_other] at hlane
        exact hlane
    · intro r' p hp
      by_cases hr' : r' = r
      · subst hr'
        rw [update_self] at hp
        rcases mem_append.1 hp with hp | hp
        · exact h.associated r' p hp
        · rw [mem_singleton.1 (hsub.subset hp)]
          exact had
      · rw [update_of_ne hr'] at hp
        exact h.associated r' p hp
    · simp [Conversation.send, h.users, hsend]
    · intro r'
      simp only [Conversation.send, h.users, hsend]
      by_cases hr' : r' = r
      · subst hr'
        rw [update_self, update_self, h.stored, map_append, append_assoc, hnew]
      · rw [update_of_ne (withRole_ne hr'), update_of_ne hr']
        exact h.stored r'

/-- **Delivery of a session message**, if the recipient still holds the PQ key that it addresses -/
lemma deliver (hkem : q.KemCorrect) (hsep : q.HashSeparates H.toPrimitives)
    (h : Talks H kem c q suite a name old st flight pending w) {rest : List Packet}
    (hd : ¬ (pending.isSome ∧ d.other = .responder)) (hfl : flight d = p :: rest) {pqs : PqRatchetState Secret}
    (hpqs : (st d.other).pqState = some pqs) (hheld : HoldsKey H.toPrimitives pqs p.pq) (newSecret : Secret) :
    ∃ t' pqs', t'.pqState = some pqs' ∧ pqs'.localKey = pqs.localKey ∧
      (w.deliver H kem (a.withRole d) newSecret).log = w.log ++ [(p.message, .ok p.message)] ∧
      Talks H kem c q suite a name old (update st d.other t') (update flight d rest) pending
        (w.deliver H kem (a.withRole d) newSecret) := by
  have hsession := h.sessions d.other
  rw [if_neg hd, withRole_other, other_other] at hsession
  have hlane := h.lanes d
  rw [hfl] at hlane
  obtain ⟨t', pqs', hopen, hlane', hend, hsnd, hpqs', hkey, -⟩ := hlane.deliver hkem hsep hc (h.ends d.other) hpqs hheld newSecret
  obtain ⟨inc, ⟨dec, hdec, -, -⟩, -⟩ := hlane.opens p (.head _)
  have had := h.associated d p (by rw [hfl]; exact (.head _))
  have hreceive := receive_session (h.ends d.other) (h.pqKem hc hqk d.other) hint (h.users (a.withRole d).other)
    hsession hdec had hopen
  have hstored : w.stored (a.withRole d) = packetEnvelope p :: rest.map packetEnvelope := by
    rw [h.stored_session hd, hfl]
    rfl
  have hdeliver : w.deliver H kem (a.withRole d) newSecret =
      { client := update w.client (a.withRole d).other { w.client (a.withRole d).other with
          session := some (sessionFile (name (a.withRole d).other) (name (a.withRole d)) suite t') }
        stored := update w.stored (a.withRole d) (rest.map packetEnvelope)
        log := w.log ++ [(p.message, .ok p.message)] } := by
    have hbytes : (packetEnvelope p).bytes = p.wire := rfl
    simp only [Conversation.deliver, hstored, h.users, hbytes, hreceive]
    rfl
  refine ⟨t', pqs', hpqs', hkey, by rw [hdeliver], h.move hd hend ?_ ?_ ?_ ?_⟩
  · intro e
    rcases SessionRole.eq_or_other e d with rfl | rfl
    · rw [update_of_ne e.ne_other, update_self, update_self]
      exact hlane'
    · rw [update_self, SessionRole.other_other, update_of_ne d.ne_other, update_of_ne d.other_ne, hsnd]
      have hback := h.lanes d.other
      rw [SessionRole.other_other] at hback
      exact hback
  · intro r p' hp'
    by_cases hr : r = d
    · subst hr
      rw [update_self] at hp'
      exact h.associated r p' (by rw [hfl]; exact .tail _ hp')
    · rw [update_of_ne hr] at hp'
      exact h.associated r p' hp'
  · rw [hdeliver, withRole_other, other_other]
  · intro r
    simp only [hdeliver]
    by_cases hr : r = d
    · subst hr
      rw [update_self, update_self, unread_nil hd]
      rfl
    · rw [update_of_ne (withRole_ne hr), update_of_ne hr]
      exact h.stored r

omit hc hqk hint in
/-- **Delivery of the initial message** -/
lemma deliver_initial {e : Envelope} (h : Talks H kem c q suite a name old st flight (some e) w) (newSecret : Secret) :
    (w.deliver H kem a newSecret).log = w.log ++ [(e.plaintext, .ok e.plaintext)] ∧
      Talks H kem c q suite a name old st flight none (w.deliver H kem a newSecret) := by
  obtain ⟨keys, huser, hread⟩ := h.readable e rfl newSecret (loadCompatibleSession (w.client a.other).session)
  have hstored : w.stored a = e :: (flight .initiator).map packetEnvelope := h.stored .initiator
  have hdeliver : w.deliver H kem a newSecret =
      { client := update w.client a.other { w.client a.other with
          keys := keys, session := some (sessionFile (name a.other) (name a) suite (st .responder)) }
        stored := update w.stored a ((flight .initiator).map packetEnvelope)
        log := w.log ++ [(e.plaintext, .ok e.plaintext)] } := by
    simp [Conversation.deliver, hstored, h.users, receive, hread]
  refine ⟨by rw [hdeliver], ?_, h.ends, h.lanes, ?_, ?_, h.associated, fun e' he' => absurd he' (by simp)⟩
  · intro p
    rw [hdeliver]
    simp only [Conversation.userId, update_apply]
    split_ifs with hp
    · rw [hp]
      exact huser
    · exact h.users p
  · intro r
    rw [hdeliver, if_neg (by simp)]
    cases r with
    | initiator =>
      have hsession := h.sessions .initiator
      rw [if_neg (by simp)] at hsession
      simp only [withRole] at hsession ⊢
      rw [update_of_ne (other_ne a).symm]
      exact hsession
    | responder =>
      simp [withRole]
  · intro r
    rw [hdeliver]
    cases r with
    | initiator =>
      simp only [withRole, update_self]
      rfl
    | responder =>
      simp only [withRole]
      rw [update_of_ne (other_ne a)]
      exact h.stored .responder

end Talks

end PqMsg.Client
