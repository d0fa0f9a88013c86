/-
Calls of the web client that run at the same time (`encryptDirectPayload` and `decryptIncomingPayload` of `app.ts`).

Each call loads the stored session of a peer, transforms it and stores it, with awaits in between and without a lock.
`decryptIncomingPayload` also takes the keys when it starts and assigns them after it has decrypted. Websocket frames start a
call for each message at once, polling starts them one by one, and sends come at any time. Here each call is a stage, and each
stretch between two awaits that touches what is shared is a step, so that every interleaving is a run.

- `serial`: the schedule in which every call runs to its end before the next one starts.
- `Serializes`: the calls take effect one after the other, in the order in which they load.
- `Numbered`: the numbers a session has used are below its next one.
- `calls_serialize`: in a run in which a session is loaded only while no other call is between loading and storing it, and
  incoming messages are taken up one after the other, by id, all session messages of one session have different numbers and no
  message is dropped that the serial schedule reads.
- `lost_updates`: two sends with one number, and a message that is dropped.

The sealed envelope around a message and the cached capability document are left out, as in the conversations; so are the
network calls of `decryptIncomingPayload`, which decide whether it gets to load anything.
-/
import PqMsg.Client.Convergence
import PqMsg.Lib.Pending

namespace PqMsg.Client

open Lib Wire Handshake Session Ratchet Function List Option

variable {Secret ι : Type}

/-! ## Calls -/

/-- a stored session, and which handshake with the peer it comes from -/
structure StoredSession (Secret : Type) where
  file : SessionFile Secret
  handshake : ℕ

/-- what the client has of a peer: the stored session, how many handshakes it has stored, the handshake and number of each
session message it has handed to the transport, and the messages it has read -/
structure PeerState (Secret : Type) where
  stored : Option (StoredSession Secret)
  handshakes : ℕ
  wires : List (ℕ × UInt32)
  read : List ℕ

inductive Job (Secret : Type) where
  | encrypt (k : KeysFile Secret) (peerUserId : String) (x : SendInput Secret)
  | decrypt (messageId : ℕ) (senderUserId : String) (messageBytes : Bytes) (newSecret : Secret)

open Job

def Job.peer : Job Secret → String
  | .encrypt _ peerUserId _ => peerUserId
  | .decrypt _ senderUserId _ _ => senderUserId

def Job.messageId : Job Secret → Option ℕ
  | .encrypt _ _ _ => none
  | .decrypt messageId _ _ _ => some messageId

/-- the calls before the session is loaded -/
def Job.ready : Job Secret → Bool
  | .encrypt _ _ x => (x.call webFlow.ready).isOk
  | .decrypt _ _ _ _ => true

/-- what a call stores in the end; `handshake` is none for a new one -/
structure JobResult (Secret : Type) where
  session : SessionFile Secret
  handshake : Option ℕ
  numbers : List UInt32
  read : List ℕ

def PeerState.store (c : PeerState Secret) (r : JobResult Secret) : PeerState Secret where
  stored := some ⟨r.session, r.handshake.getD (c.handshakes + 1)⟩
  handshakes := r.handshake.elim (c.handshakes + 1) fun _ => c.handshakes
  wires := c.wires ++ r.numbers.map fun n => (r.handshake.getD (c.handshakes + 1), n)
  read := c.read ++ r.read

def PeerState.clear (c : PeerState Secret) : PeerState Secret := { c with stored := none }

/-- `loadCompatibleDirectSession` clears the stored session -/
def outdated (stored : Option (StoredSession Secret)) : Bool := stored.any fun s => sessionRequiresRehandshake s.file

/-- a call in progress -/
inductive Stage (Secret : Type) where
  | idle
  | started (job : Job Secret) (activeKeys : KeysFile Secret)
  | clearing (job : Job Secret) (activeKeys : KeysFile Secret)
  | loaded (job : Job Secret) (activeKeys : KeysFile Secret) (existing : Option (StoredSession Secret))
  | storing (job : Job Secret) (result : JobResult Secret)

open Stage

/-- a call that has just loaded: an outdated session is cleared first -/
def Job.onLoad (job : Job Secret) (activeKeys : KeysFile Secret) (c : PeerState Secret) : Stage Secret :=
  if outdated c.stored then .clearing job activeKeys else .loaded job activeKeys c.stored

/-- the peer whose session the call has loaded and not stored yet -/
def Stage.taken : Stage Secret → Option String
  | .idle | .started _ _ => none
  | .clearing job _ | .loaded job _ _ | .storing job _ => some job.peer

/-- the message that the call is about -/
def Stage.messageId : Stage Secret → Option ℕ
  | .idle => none
  | .started job _ | .clearing job _ | .loaded job _ _ | .storing job _ => job.messageId

structure WebClient (ι Secret : Type) where
  keys : KeysFile Secret
  peers : String → PeerState Secret
  calls : ι → Stage Secret
  /-- the calls that have loaded, in that order -/
  order : List (Job Secret)

open WebClient

inductive CallOp (ι Secret : Type) where
  | call (i : ι) (job : Job Secret)
  | load (i : ι)
  | clear (i : ι)
  | resume (i : ι)
  | store (i : ι)

section

variable (H : HandshakePrims Secret) (kem : Kem Secret)

/-- What a call makes of the session it has loaded: what it will store, and the keys that it assigns at once. A session
message goes out under the next number of the session's sending chain. -/
def Job.transform (activeKeys : KeysFile Secret) (existing : Option (StoredSession Secret)) :
    Job Secret → Option (JobResult Secret × Option (KeysFile Secret))
  | .encrypt k peerUserId x =>
    match existing with
    | some ⟨file, handshake⟩ =>
      match encryptWithSession H kem x.encryptRng file k.userId peerUserId x.plaintext with
      | .error _ => none
      | .ok r =>
        let handed := (x.call [.peerIdentity, .senderCertificate]).isOk
        some (⟨r.session, some handshake, if handed then [file.snapshot.sendingChain.nextMsgNum] else [], []⟩, none)
    | none =>
      match x.call webFlow.initiating with
      | .error _ => none
      | .ok () =>
        match startSession H kem .web x.initiateRng k peerUserId x.bundle x.plaintext with
        | .error _ => none
        | .ok r => some (⟨r.session, none, [], []⟩, none)
  | .decrypt messageId senderUserId messageBytes newSecret =>
    match clientDecrypt H kem .web newSecret activeKeys senderUserId messageBytes
        (existing.map StoredSession.file) with
    | .error _ => none
    | .ok r =>
      some (⟨r.session, if r.usedHandshake then none else existing.map StoredSession.handshake, [], [messageId]⟩,
        some r.updatedKeys)

variable [DecidableEq ι] (w : WebClient ι Secret)

def WebClient.step : CallOp ι Secret → WebClient ι Secret
  | .call i job =>
    match w.calls i with
    | .idle => { w with calls := update w.calls i (.started job w.keys) }
    | _ => w
  | .load i =>
    match w.calls i with
    | .started job activeKeys =>
      if job.ready then
        { w with
          calls := update w.calls i (job.onLoad activeKeys (w.peers job.peer))
          order := w.order ++ [job] }
      else { w with calls := update w.calls i .idle }
    | _ => w
  | .clear i =>
    match w.calls i with
    | .clearing job activeKeys =>
      { w with
        peers := update w.peers job.peer (w.peers job.peer).clear
        calls := update w.calls i (.loaded job activeKeys none) }
    | _ => w
  | .resume i =>
    match w.calls i with
    | .loaded job activeKeys existing =>
      match job.transform H kem activeKeys existing with
      | none => { w with calls := update w.calls i .idle }
      | some (r, keys) =>
        { w with keys := keys.getD w.keys, calls := update w.calls i (.storing job r) }
    | _ => w
  | .store i =>
    match w.calls i with
    | .storing job r =>
      { w with
        peers := update w.peers job.peer ((w.peers job.peer).store r)
        calls := update w.calls i .idle }
    | _ => w

def WebClient.start (keys : KeysFile Secret) (sessions : String → Option (SessionFile Secret)) : WebClient ι Secret where
  keys := keys
  peers p := ⟨(sessions p).map fun file => ⟨file, 0⟩, 0, [], []⟩
  calls _ := .idle
  order := []

/-! ## What is claimed of a run -/

/-- every call runs to its end before the next one starts -/
def serial (i : ι) (jobs : List (Job Secret)) : List (CallOp ι Secret) :=
  jobs.flatMap fun job => [.call i job, .load i, .clear i, .resume i, .store i]

/-- the places of incoming messages, filled from a queue -/
def refill : List (Job Secret) → List (Job Secret) → List (Job Secret)
  | [], _ => []
  | .decrypt _ _ _ _ :: jobs, next :: queue => next :: refill jobs queue
  | job :: jobs, queue => job :: refill jobs queue

/-- the same calls with the incoming messages in the order of their ids -/
def inIdOrder (jobs : List (Job Secret)) : List (Job Secret) :=
  refill jobs ((jobs.filter fun job => job.messageId.isSome).insertionSort fun a b =>
    a.messageId.getD 0 ≤ b.messageId.getD 0)

/-- once no call has taken the session of `p`, the client has read every message of `p` that a serial execution reads -/
def NoneDropped (start w : WebClient ι Secret) : Prop :=
  ∀ i p, (∀ j, (w.calls j).taken ≠ some p) →
    ∀ messageId ∈ ((run (WebClient.step H kem) start (serial i (inIdOrder w.order))).peers p).read,
      messageId ∈ (w.peers p).read

/-- all session messages to one peer and of one handshake have different numbers -/
def OneNumberEach : Prop := ∀ p, (w.peers p).wires.Nodup

/-- the message carries the DH key that the session holds -/
def Job.keepsChain (stored : Option (StoredSession Secret)) : Job Secret → Bool
  | .encrypt _ _ _ => true
  | .decrypt _ _ messageBytes _ =>
    match stored, decodeWireMessage messageBytes with
    | some s, .ok dec =>
      match (restoreSession kem s.file).incomingFields H.toPrimitives dec with
      | .ok inc => decide (inc.header.senderDhPub = s.file.snapshot.remoteDhPub)
      | .error _ => true
    | _, _ => true

/-- a call that is about to load finds the session free and, for an incoming message, all before it with smaller ids; the
message carries the DH key that the session holds -/
def LoadsInTurn : Stage Secret → Prop
  | .started job _ =>
    (∀ j, (w.calls j).taken ≠ some job.peer) ∧
      (∀ earlier ∈ w.order.filterMap Job.messageId, ∀ messageId ∈ job.messageId, earlier ≤ messageId) ∧
      job.keepsChain H kem (w.peers job.peer).stored = true
  | .idle | .clearing _ _ | .loaded _ _ _ | .storing _ _ => True

/-- incoming messages are taken up one after the other, and calls load in turn -/
def InTurn : CallOp ι Secret → Prop
  | .call _ job => job.messageId.isSome = true → ∀ j, (w.calls j).messageId = none
  | .load i => LoadsInTurn H kem w (w.calls i)
  | .clear _ | .resume _ | .store _ => True

instance [Fintype ι] (w : WebClient ι Secret) : ∀ s, Decidable (LoadsInTurn H kem w s)
  | .started _ _ => inferInstanceAs (Decidable (_ ∧ _ ∧ _))
  | .idle | .clearing _ _ | .loaded _ _ _ | .storing _ _ => isTrue trivial

instance [Fintype ι] (w : WebClient ι Secret) : ∀ op, Decidable (InTurn H kem w op)
  | .call _ _ => inferInstanceAs (Decidable (_ → _))
  | .load i => inferInstanceAs (Decidable (LoadsInTurn H kem w (w.calls i)))
  | .clear _ | .resume _ | .store _ => isTrue trivial

end

/-! ## Serial executions -/

section

variable (H : HandshakePrims Secret) (kem : Kem Secret)

/-- the rest of a call that has loaded `existing`, for the peer -/
def Job.finish (job : Job Secret) (activeKeys : KeysFile Secret) (existing : Option (StoredSession Secret))
    (c : PeerState Secret) : PeerState Secret :=
  (job.transform H kem activeKeys existing).elim c fun x => c.store x.1

/-- the rest of a call that has loaded `existing`, for the keys -/
def Job.updateKeys (job : Job Secret) (activeKeys : KeysFile Secret) (existing : Option (StoredSession Secret))
    (keys : KeysFile Secret) : KeysFile Secret :=
  (job.transform H kem activeKeys existing).elim keys fun x => x.2.getD keys

def PeerState.compatible (c : PeerState Secret) : PeerState Secret := if outdated c.stored then c.clear else c

structure Shared (Secret : Type) where
  keys : KeysFile Secret
  peers : String → PeerState Secret

def WebClient.shared (w : WebClient ι Secret) : Shared Secret := ⟨w.keys, w.peers⟩

/-- a call with nothing in between -/
def Shared.exec (s : Shared Secret) (job : Job Secret) : Shared Secret :=
  let c := (s.peers job.peer).compatible
  ⟨job.updateKeys H kem s.keys c.stored s.keys, update s.peers job.peer (job.finish H kem s.keys c.stored c)⟩

end

variable {job : Job Secret} {jobs : List (Job Secret)}

section

variable (H : HandshakePrims Secret) (kem : Kem Secret) [DecidableEq ι] {w : WebClient ι Secret}

/-- one call of a serial schedule -/
lemma run_call {i : ι} (hi : w.calls i = .idle) (hready : job.ready = true) :
    (run (WebClient.step H kem) w [.call i job, .load i, .clear i, .resume i, .store i]).shared = w.shared.exec H kem job ∧
      (run (WebClient.step H kem) w [.call i job, .load i, .clear i, .resume i, .store i]).calls i = .idle := by
  have hcompatible : (w.shared.peers job.peer).compatible =
      if outdated (w.peers job.peer).stored then (w.peers job.peer).clear else w.peers job.peer := rfl
  simp only [run_cons, run_nil, Shared.exec, hcompatible, finish, updateKeys]
  cases ho : outdated (w.peers job.peer).stored with
  | true =>
    have hclear : (w.peers job.peer).clear.stored = none := rfl
    simp only [if_true, hclear]
    cases ht : job.transform H kem w.keys none with
    | none | some => simp [WebClient.step, onLoad, hi, hready, ho, ht, WebClient.shared]
  | false =>
    simp only [Bool.false_eq_true, if_false]
    cases ht : job.transform H kem w.keys (w.peers job.peer).stored with
    | none | some => simp [WebClient.step, onLoad, hi, hready, ho, ht, WebClient.shared]

/-- **A serial schedule** is the sequence of its calls -/
lemma run_serial {i : ι} (hi : w.calls i = .idle) (hready : ∀ job ∈ jobs, job.ready = true) :
    (run (WebClient.step H kem) w (serial i jobs)).shared = jobs.foldl (Shared.exec H kem) w.shared := by
  induction jobs generalizing w with
  | nil => rfl
  | cons job jobs ih =>
    obtain ⟨hshared, hidle⟩ := run_call H kem hi (hready job (.head _))
    rw [serial, flatMap_cons, run_append, foldl_cons, ← hshared]
    exact ih hidle fun job hjob => hready job (.tail _ hjob)

end

/-! ## Numbers -/

section

variable {H : HandshakePrims Secret} {kem : Kem Secret}

/-- no number is used twice, and what the stored session has used is below its next number -/
structure Numbered (c : PeerState Secret) : Prop where
  nodup : c.wires.Nodup
  known : ∀ x ∈ c.wires, x.1 ≤ c.handshakes
  handshake : ∀ s ∈ c.stored, s.handshake ≤ c.handshakes
  used : ∀ s ∈ c.stored, ∀ x ∈ c.wires, x.1 = s.handshake → x.2.toNat < s.file.snapshot.sendingChain.nextMsgNum.toNat

variable {c : PeerState Secret} {session : SessionFile Secret} {read : List ℕ}

lemma Numbered.compatible (h : Numbered c) : Numbered c.compatible := by
  unfold PeerState.compatible
  split_ifs
  · exact ⟨h.nodup, h.known, fun s hs => absurd hs (not_mem_none s), fun s hs => absurd hs (not_mem_none s)⟩
  · exact h

/-- a new session has used no numbers -/
lemma Numbered.renew (h : Numbered c) : Numbered (c.store ⟨session, none, [], read⟩) := by
  have hwires : (c.store ⟨session, none, [], read⟩).wires = c.wires := append_nil _
  refine ⟨by rw [hwires]; exact h.nodup, fun x hx => ?_, fun s hs => ?_, fun s hs x hx hn => ?_⟩
  · rw [hwires] at hx
    exact (h.known x hx).trans (Nat.le_succ _)
  · rw [← mem_some_iff.1 hs]
    exact le_rfl
  · rw [hwires] at hx
    rw [← mem_some_iff.1 hs] at hn
    have hknown := h.known x hx
    change x.1 = c.handshakes + 1 at hn
    omega

/-- a session that has used some of the numbers up to its new next one -/
lemma Numbered.advance (h : Numbered c) {old : StoredSession Secret} (hold : c.stored = some old) {numbers : List UInt32}
    (hnodup : numbers.Nodup) (hnumbers : ∀ n ∈ numbers, old.file.snapshot.sendingChain.nextMsgNum.toNat ≤ n.toNat ∧
      n.toNat < session.snapshot.sendingChain.nextMsgNum.toNat)
    (hnext : old.file.snapshot.sendingChain.nextMsgNum.toNat ≤ session.snapshot.sendingChain.nextMsgNum.toNat) :
    Numbered (c.store ⟨session, some old.handshake, numbers, read⟩) := by
  have hwires : ∀ x, x ∈ (c.store ⟨session, some old.handshake, numbers, read⟩).wires ↔
      x ∈ c.wires ∨ x.1 = old.handshake ∧ x.2 ∈ numbers := by
    intro x
    simp only [PeerState.store, Option.getD_some, List.mem_append, List.mem_map, Prod.ext_iff]
    grind
  refine ⟨?_, fun x hx => ?_, fun s hs => ?_, fun s hs x hx hn => ?_⟩
  · refine List.nodup_append'.2 ⟨h.nodup, hnodup.map (Prod.mk_right_injective _), fun x hx hx' => ?_⟩
    -- a number used before is below those used now
    obtain ⟨n, hn, rfl⟩ := List.mem_map.1 hx'
    have hbefore := h.used old hold _ hx rfl
    have hnow := (hnumbers n hn).1
    change n.toNat < _ at hbefore
    omega
  · rcases (hwires x).1 hx with hx | ⟨hx, -⟩
    · exact h.known x hx
    · rw [hx]
      exact h.handshake old hold
  · rw [← Option.mem_some_iff.1 hs]
    exact h.handshake old hold
  · rw [← Option.mem_some_iff.1 hs] at hn ⊢
    rcases (hwires x).1 hx with hx | ⟨-, hx⟩
    · exact (h.used old hold x hx hn).trans_le hnext
    · exact (hnumbers x.2 hx).2

lemma takeMessageKey_sendingChain (P : Primitives Secret) (s : SessionState Secret) (h : AdHeader) :
    (s.takeMessageKey P h).1.sendingChain = s.sendingChain := by
  unfold SessionState.takeMessageKey SessionState.skipUntil BoundedFifo.take
  split_ifs
  · cases s.skipped.lookup ⟨h.senderDhPub, h.msgNum⟩ <;> rfl
  · split
    · rename_i heq
      split at heq
      obtain ⟨rfl, -⟩ := Prod.mk.inj heq
      rfl
    · rename_i heq
      split at heq
      obtain ⟨rfl, -⟩ := Prod.mk.inj heq
      split <;> rfl

/-- **One call** keeps the numbers of a peer in order -/
lemma Numbered.finish (h : Numbered c) {keys : KeysFile Secret} (hkeeps : job.keepsChain H kem c.stored = true) :
    Numbered (job.finish H kem keys c.stored c) := by
  unfold Job.finish
  cases ht : job.transform H kem keys c.stored with
  | none => exact h
  | some x =>
    rw [elim_some]
    cases job with
    | encrypt k peerUserId x =>
      cases hstored : c.stored with
      | none =>
        simp only [Job.transform, hstored] at ht
        split at ht
        · cases ht
        · split at ht
          · cases ht
          · rw [← some.inj ht]
            exact h.renew
      | some old =>
        simp only [Job.transform, hstored] at ht
        split at ht
        · cases ht
        · rename_i r hr
          rw [← some.inj ht]
          obtain ⟨ad, s, hencrypt, hres⟩ := encryptWithSession_ok hr
          have hwire : ((restoreSession kem old.file).encrypt H.toPrimitives x.encryptRng x.plaintext ad).2 =
              .ok r.messageBytes := by rw [hencrypt]
          have hok := (encrypt_ok hwire).1
          obtain ⟨rk, pqs, hframe⟩ := encrypt_frame H.toPrimitives (restoreSession kem old.file) x.encryptRng x.plaintext ad
          have hnext : r.session.snapshot.sendingChain.nextMsgNum = old.file.snapshot.sendingChain.nextMsgNum + 1 := by
            rw [hencrypt, if_neg hok] at hframe
            rw [hres, show s = _ from hframe]
            rfl
          have hsucc := toNat_succ_of_ne_max hok
          have hsucc' : r.session.snapshot.sendingChain.nextMsgNum.toNat =
              old.file.snapshot.sendingChain.nextMsgNum.toNat + 1 := by
            rw [hnext]
            exact hsucc
          refine h.advance hstored ?_ (fun n hn => ?_) (by omega)
          · split_ifs
            · exact nodup_singleton _
            · exact nodup_nil
          · split_ifs at hn
            · rw [mem_singleton.1 hn]
              omega
            · exact absurd hn not_mem_nil
    | decrypt messageId senderUserId messageBytes newSecret =>
      simp only [Job.transform] at ht
      split at ht
      · cases ht
      · rename_i r hr
        rw [← some.inj ht]
        rcases decryptMessageWith_ok hr with ⟨initial, responder, updatedKeys, suite, -, -, -, -, hres⟩ |
          ⟨e, file, ad, s, -, hfile, -, -, -, hdecrypt, hres⟩
        · rw [hres]
          exact h.renew
        · cases hstored : c.stored with
          | none =>
            rw [hstored] at hfile
            cases hfile
          | some old =>
            rw [hstored] at hfile
            obtain rfl : old.file = file := some.inj hfile
            rw [hres]
            have hchain : s.sendingChain = old.file.snapshot.sendingChain := by
              obtain ⟨d, inc, s1, s2, key, ha⟩ := decrypt_ok hdecrypt
              simp only [Job.keepsChain, hstored, ha.decoded, ha.fields, decide_eq_true_eq] at hkeeps
              -- a message under the DH key that the session holds leaves the sending chain
              obtain ⟨rk, pqs, hs', -⟩ := pqReceive_frame ha.received
              have h1 : s1 = restoreSession kem old.file := by
                have hr := ha.ratcheted
                rw [ratchetIfNew_same hkeeps] at hr
                exact (Prod.mk.inj hr).1.symm
              have h2 : s2.sendingChain = s1.sendingChain := by
                rw [← takeMessageKey_sendingChain H.toPrimitives s1 inc.header, ha.key]
              rw [hs']
              exact h2.trans (congrArg _ h1)
            refine h.advance hstored nodup_nil (fun n hn => absurd hn not_mem_nil) ?_
            change _ ≤ s.sendingChain.nextMsgNum.toNat
            rw [hchain]

/-- the same for all peers -/
lemma Numbered.exec {s : Shared Secret} (h : ∀ p, Numbered (s.peers p))
    (hkeeps : job.keepsChain H kem (s.peers job.peer).stored = true) : ∀ p, Numbered ((s.exec H kem job).peers p) := by
  refine (forall_update_iff s.peers fun _ c => Numbered c).2 ⟨(h job.peer).compatible.finish ?_, fun p _ => h p⟩
  unfold PeerState.compatible
  split_ifs
  · cases job <;> rfl
  · exact hkeeps

end

/-! ## Interleaved executions -/

section

variable (H : HandshakePrims Secret) (kem : Kem Secret)

/-- what a call has still to do to the state of its peer -/
def Stage.pendingPeer : Stage Secret → Option (String × (PeerState Secret → PeerState Secret))
  | .idle | .started _ _ => none
  | .clearing job activeKeys => some (job.peer, fun c => job.finish H kem activeKeys none c.clear)
  | .loaded job activeKeys existing => some (job.peer, job.finish H kem activeKeys existing)
  | .storing job result => some (job.peer, fun c => c.store result)

/-- what a call has still to do to the keys -/
def Stage.pendingKeys : Stage Secret → Option (Unit × (KeysFile Secret → KeysFile Secret))
  | .clearing job activeKeys => job.messageId.map fun _ => ((), job.updateKeys H kem activeKeys none)
  | .loaded job activeKeys existing => job.messageId.map fun _ => ((), job.updateKeys H kem activeKeys existing)
  | .idle | .started _ _ | .storing _ _ => none

/-- the calls that have loaded, one after the other -/
def WebClient.final (w start : WebClient ι Secret) : Shared Secret := w.order.foldl (Shared.exec H kem) start.shared

/-- The calls take effect one after the other, in the order in which they load, which for incoming messages is that of their
ids. Only one of them is about an incoming message, and it has the keys as they are. -/
structure Serializes (start w : WebClient ι Secret) : Prop where
  peers : Completes w.peers (Stage.pendingPeer H kem ∘ w.calls) (w.final H kem start).peers
  keys : Completes (fun _ => w.keys) (Stage.pendingKeys H kem ∘ w.calls) (fun _ => (w.final H kem start).keys)
  single : ∀ i j, (w.calls i).messageId.isSome → (w.calls j).messageId.isSome → i = j
  captured : ∀ i job activeKeys, w.calls i = .started job activeKeys → job.messageId.isSome → activeKeys = w.keys
  ready : ∀ job ∈ w.order, job.ready = true
  sorted : (w.order.filterMap Job.messageId).Pairwise (· ≤ ·)
  numbered : ∀ p, Numbered ((w.final H kem start).peers p)

end

section

variable {H : HandshakePrims Secret} {kem : Kem Secret}

lemma update_unit {α : Type} (a b : α) : update (fun _ : Unit => a) () b = fun _ => b :=
  funext fun _ => update_self ..

variable {s : Stage Secret} {job : Job Secret} {i : ι} {activeKeys : KeysFile Secret}
  {e : PeerState Secret → PeerState Secret} {p : String}

/-- a call that has taken nothing has nothing pending -/
lemma Stage.taken_of_pending (h : s.pendingPeer H kem = some (p, e)) : s.taken = some p := by
  cases s with
  | idle | started => cases h
  | clearing | loaded | storing =>
    rw [← (Prod.mk.inj (some.inj h)).1]
    rfl

/-- a pending effect only adds numbers -/
lemma Stage.pending_wires (h : s.pendingPeer H kem = some (p, e)) (c : PeerState Secret) : c.wires.Sublist (e c).wires := by
  have hfinish : ∀ (job : Job Secret) activeKeys existing (c : PeerState Secret),
      c.wires.Sublist (job.finish H kem activeKeys existing c).wires := by
    intro job activeKeys existing c
    unfold finish
    cases job.transform H kem activeKeys existing with
    | none => exact List.Sublist.refl _
    | some => exact sublist_append_left _ _
  cases s with
  | idle | started => cases h
  | clearing job activeKeys =>
    rw [← (Prod.mk.inj (some.inj h)).2]
    exact hfinish job activeKeys none c.clear
  | loaded job activeKeys existing =>
    rw [← (Prod.mk.inj (some.inj h)).2]
    exact hfinish job activeKeys existing c
  | storing =>
    rw [← (Prod.mk.inj (some.inj h)).2]
    exact sublist_append_left _ _

lemma Stage.messageId_of_pendingKeys {x : Unit × (KeysFile Secret → KeysFile Secret)}
    (h : s.pendingKeys H kem = some x) : s.messageId.isSome = true := by
  cases s with
  | idle | started | storing => cases h
  | clearing | loaded =>
    obtain ⟨id, hid, -⟩ := map_eq_some_iff.1 h
    exact isSome_iff_exists.2 ⟨id, hid⟩

/-- an outgoing message neither uses nor changes the keys -/
lemma Job.transform_outgoing (h : job.messageId = none) (keys keys' : KeysFile Secret)
    (existing : Option (StoredSession Secret)) :
    job.transform H kem keys existing = job.transform H kem keys' existing ∧
      ∀ x ∈ job.transform H kem keys existing, x.2 = none := by
  cases job with
  | decrypt => cases h
  | encrypt =>
    refine ⟨rfl, fun y hy => ?_⟩
    simp only [transform] at hy
    split at hy
    · split at hy
      · cases hy
      · rw [← some.inj hy]
    · split at hy
      · cases hy
      · split at hy
        · cases hy
        · rw [← some.inj hy]

lemma Job.updateKeys_outgoing (h : job.messageId = none) (activeKeys keys : KeysFile Secret)
    (existing : Option (StoredSession Secret)) : job.updateKeys H kem activeKeys existing keys = keys := by
  unfold updateKeys
  cases ht : job.transform H kem activeKeys existing with
  | none => rfl
  | some x =>
    rw [elim_some, (transform_outgoing h activeKeys activeKeys existing).2 x ht]
    rfl

variable [DecidableEq ι] {start w : WebClient ι Secret}

/-- at most one call stays about an incoming message when one of them moves on or ends -/
lemma Serializes.single_update (h : Serializes H kem start w) (hs : s.messageId = none ∨ s.messageId = (w.calls i).messageId) :
    ∀ j k, (update w.calls i s j).messageId.isSome → (update w.calls i s k).messageId.isSome → j = k := by
  have hold : ∀ j, (update w.calls i s j).messageId.isSome → (w.calls j).messageId.isSome := by
    intro j hj
    by_cases hji : j = i
    · subst hji
      rw [update_self] at hj
      rcases hs with hs | hs
      · rw [hs] at hj
        cases hj
      · rw [← hs]
        exact hj
    · rwa [update_of_ne hji] at hj
  intro j k hj hk
  exact h.single j k (hold j hj) (hold k hk)

/-- no call starts when one moves on or ends -/
lemma Serializes.captured_update (h : Serializes H kem start w) (hs : ∀ job activeKeys, s ≠ .started job activeKeys) :
    ∀ j job activeKeys, update w.calls i s j = .started job activeKeys → job.messageId.isSome → activeKeys = w.keys := by
  intro j job activeKeys hj
  by_cases hji : j = i
  · rw [hji, update_self] at hj
    exact absurd hj (hs job activeKeys)
  · rw [update_of_ne hji] at hj
    exact h.captured j job activeKeys hj

/-- all that the call does is pending then -/
lemma Job.onLoad_pending (H : HandshakePrims Secret) (kem : Kem Secret) (job : Job Secret)
    (activeKeys : KeysFile Secret) (c : PeerState Secret) :
    (∃ e, (job.onLoad activeKeys c).pendingPeer H kem = some (job.peer, e) ∧
      e c = job.finish H kem activeKeys c.compatible.stored c.compatible) ∧
    (job.onLoad activeKeys c).pendingKeys H kem =
      job.messageId.map (fun _ => ((), job.updateKeys H kem activeKeys c.compatible.stored)) ∧
    (job.onLoad activeKeys c).messageId = job.messageId ∧
    ∀ job' activeKeys', job.onLoad activeKeys c ≠ .started job' activeKeys' := by
  unfold onLoad PeerState.compatible
  split_ifs
  all_goals exact ⟨⟨_, rfl, rfl⟩, rfl, rfl, nofun⟩

variable (h : Serializes H kem start w) {existing : Option (StoredSession Secret)} {r : JobResult Secret}
include h

/-- **A call loads** a session that no other call has taken: it takes effect at once -/
lemma Serializes.load (hi : w.calls i = .started job activeKeys) (hready : job.ready = true)
    (hfree : ∀ j, (w.calls j).taken ≠ some job.peer)
    (hid : ∀ earlier ∈ w.order.filterMap Job.messageId, ∀ messageId ∈ job.messageId, earlier ≤ messageId)
    (hkeeps : job.keepsChain H kem (w.peers job.peer).stored = true) :
    Serializes H kem start { w with
      calls := update w.calls i (job.onLoad activeKeys (w.peers job.peer)), order := w.order ++ [job] } := by
  obtain ⟨⟨e, hpeer, he⟩, hkeys, hmessage, hstarted⟩ :=
    onLoad_pending H kem job activeKeys (w.peers job.peer)
  have hsame : (w.final H kem start).peers job.peer = w.peers job.peer :=
    h.peers.quiet fun j e hj => hfree j (taken_of_pending hj)
  have hfinal : ∀ calls : ι → Stage Secret, final H kem { w with calls := calls, order := w.order ++ [job] } start =
      (w.final H kem start).exec H kem job := by
    intro calls
    rw [final, foldl_append]
    rfl
  -- an incoming message has the keys as they are, since it is the only one
  have hquiet : job.messageId.isSome → ∀ j e, (pendingKeys H kem ∘ w.calls) j ≠ some ((), e) := by
    intro hsome j e hj
    have hj' := messageId_of_pendingKeys hj
    have hji : j = i := h.single j i hj' (by rw [hi]; exact hsome)
    subst hji
    rw [comp_apply, hi] at hj
    cases hj
  have htransform : ∀ x, job.transform H kem activeKeys x = job.transform H kem (w.final H kem start).keys x := by
    intro x
    cases hm : job.messageId with
    | none => exact (transform_outgoing hm _ _ x).1
    | some =>
      have hsome : job.messageId.isSome := by rw [hm]; rfl
      rw [h.captured i job activeKeys hi hsome, ← h.keys.quiet (hquiet hsome)]
  refine ⟨?_, ?_, ?_, ?_, ?_, ?_, ?_⟩
  · have htake := h.peers.take (by rw [comp_apply, hi]; rfl) (fun j e hj => hfree j (taken_of_pending hj)) e
    rw [hfinal, Shared.exec, hsame]
    simp only [comp_update, hpeer, he, finish, htransform] at htake ⊢
    exact htake
  · rw [hfinal, Shared.exec, hsame]
    simp only [comp_update, hkeys]
    cases hm : job.messageId with
    | none =>
      rw [updateKeys_outgoing hm]
      exact h.keys.idle (by rw [comp_apply, hi]; rfl)
    | some =>
      have hsome : job.messageId.isSome := by rw [hm]; rfl
      have hkeep : (w.final H kem start).keys = w.keys := h.keys.quiet (hquiet hsome)
      have htake := h.keys.take (by rw [comp_apply, hi]; rfl) (hquiet hsome)
        (job.updateKeys H kem activeKeys (w.peers job.peer).compatible.stored)
      rw [update_unit, h.captured i job activeKeys hi hsome] at htake
      rw [h.captured i job activeKeys hi hsome, hkeep]
      exact htake
  · exact h.single_update (.inr (by rw [hmessage, hi]; rfl))
  · exact h.captured_update hstarted
  · intro job' hjob'
    rcases mem_append.1 hjob' with hold | hnew
    · exact h.ready job' hold
    · rw [mem_singleton.1 hnew]
      exact hready
  · rw [filterMap_append, pairwise_append]
    refine ⟨h.sorted, ?_, fun a ha b hb => ?_⟩
    · cases hm : job.messageId <;> simp [hm]
    · refine hid a ha b ?_
      cases hm : job.messageId with
      | none => simp [hm] at hb
      | some => simpa [hm, eq_comm] using hb
  · rw [hfinal]
    exact Numbered.exec h.numbered (by rw [hsame]; exact hkeeps)

/-- a call clears an outdated session -/
lemma Serializes.clear (hi : w.calls i = .clearing job activeKeys) : Serializes H kem start { w with
      peers := update w.peers job.peer (w.peers job.peer).clear
      calls := update w.calls i (.loaded job activeKeys none) } := by
  refine ⟨?_, ?_, ?_, ?_, h.ready, h.sorted, h.numbered⟩
  · rw [comp_update]
    exact h.peers.advance (by rw [comp_apply, hi]; rfl) rfl
  · have hsame : pendingKeys H kem ∘ update w.calls i (.loaded job activeKeys none) = pendingKeys H kem ∘ w.calls := by
      rw [comp_update]
      refine update_eq_self_iff.2 ?_
      rw [comp_apply, hi]
      rfl
    rw [hsame]
    exact h.keys
  · exact h.single_update (.inr (by rw [hi]; rfl))
  · exact h.captured_update nofun

/-- a call fails -/
lemma Serializes.fail (hi : w.calls i = .loaded job activeKeys existing) (ht : job.transform H kem activeKeys existing = none) :
    Serializes H kem start { w with calls := update w.calls i .idle } := by
  refine ⟨?_, ?_, ?_, ?_, h.ready, h.sorted, h.numbered⟩
  · have hleave := h.peers.leave (i := i) (k := job.peer) (by rw [comp_apply, hi]; rfl)
    rw [finish, ht, elim_none, update_eq_self] at hleave
    rw [comp_update]
    exact hleave
  · rw [comp_update]
    cases hm : job.messageId with
    | none => exact h.keys.idle (by rw [comp_apply, hi, pendingKeys, hm]; rfl)
    | some =>
      have hleave := h.keys.leave (i := i) (by rw [comp_apply, hi, pendingKeys, hm]; rfl)
      rw [updateKeys, ht, elim_none, update_unit] at hleave
      exact hleave
  · exact h.single_update (.inl rfl)
  · exact h.captured_update nofun

/-- a call transforms the session it has loaded, and assigns the keys -/
lemma Serializes.transform (hi : w.calls i = .loaded job activeKeys existing) {keys : Option (KeysFile Secret)}
    (ht : job.transform H kem activeKeys existing = some (r, keys)) :
    Serializes H kem start { w with
      keys := keys.getD w.keys, calls := update w.calls i (.storing job r) } := by
  refine ⟨?_, ?_, h.single_update (.inr (by rw [hi]; rfl)), ?_, h.ready, h.sorted, h.numbered⟩
  · have hadvance : Completes (update w.peers job.peer (w.peers job.peer))
        (update (Stage.pendingPeer H kem ∘ w.calls) i (some (job.peer, fun c => c.store r)))
        (w.final H kem start).peers :=
      h.peers.advance (by rw [comp_apply, hi]; rfl) (by rw [finish, ht]; rfl)
    rw [update_eq_self] at hadvance
    rw [comp_update]
    exact hadvance
  · rw [comp_update]
    cases hm : job.messageId with
    | none =>
      obtain rfl : keys = none := (transform_outgoing hm activeKeys activeKeys existing).2 _ ht
      exact h.keys.idle (by rw [comp_apply, hi, Stage.pendingKeys, hm]; rfl)
    | some =>
      have hleave := h.keys.leave (i := i) (by rw [comp_apply, hi, Stage.pendingKeys, hm]; rfl)
      rw [updateKeys, ht, elim_some, update_unit] at hleave
      exact hleave
  · intro j job' activeKeys' hj hsome
    have hold := h.captured_update (s := .storing job r) nofun j job' activeKeys' hj hsome
    change update w.calls i (.storing job r) j = _ at hj
    cases hm : job.messageId with
    | none =>
      obtain rfl : keys = none := (transform_outgoing hm activeKeys activeKeys existing).2 _ ht
      exact hold
    | some =>
      -- a call that starts with an incoming message would be a second one
      by_cases hji : j = i
      · rw [hji, update_self] at hj
        cases hj
      · rw [update_of_ne hji] at hj
        exact absurd (h.single j i (by rw [hj]; exact hsome) (by rw [hi, Stage.messageId, hm]; rfl)) hji

/-- a call stores its session -/
lemma Serializes.store (hi : w.calls i = .storing job r) : Serializes H kem start { w with
      peers := update w.peers job.peer ((w.peers job.peer).store r)
      calls := update w.calls i .idle } := by
  refine ⟨?_, ?_, h.single_update (.inl rfl), h.captured_update nofun, h.ready, h.sorted, h.numbered⟩
  · rw [comp_update]
    exact h.peers.leave (by rw [comp_apply, hi]; rfl)
  · rw [comp_update]
    exact h.keys.idle (by rw [comp_apply, hi]; rfl)

/-- a call that has not loaded yet starts or ends -/
lemma Serializes.outside (hpeer : (w.calls i).pendingPeer H kem = none) (hkeys : (w.calls i).pendingKeys H kem = none)
    (hs : s = .idle ∨ ∃ job, s = .started job w.keys ∧ (job.messageId.isSome → ∀ j, (w.calls j).messageId = none)) :
    Serializes H kem start { w with calls := update w.calls i s } := by
  have hpending : s.pendingPeer H kem = none ∧ s.pendingKeys H kem = none := by
    rcases hs with rfl | ⟨job, rfl, -⟩
    · exact ⟨rfl, rfl⟩
    · exact ⟨rfl, rfl⟩
  refine ⟨?_, ?_, ?_, ?_, h.ready, h.sorted, h.numbered⟩
  · rw [comp_update, hpending.1]
    exact h.peers.idle hpeer
  · rw [comp_update, hpending.2]
    exact h.keys.idle hkeys
  · rcases hs with rfl | ⟨job, rfl, halone⟩
    · exact h.single_update (.inl rfl)
    · cases hm : job.messageId with
      | none => exact h.single_update (.inl hm)
      | some =>
        have hnone := halone (by rw [hm]; rfl)
        have honly : ∀ j, (update w.calls i (.started job w.keys) j).messageId.isSome → j = i := by
          intro j hj
          by_contra hji
          rw [update_of_ne hji, hnone j] at hj
          cases hj
        intro j k hj hk
        rw [honly j hj, honly k hk]
  · intro j job' activeKeys' hj hsome
    change update w.calls i s j = _ at hj
    by_cases hji : j = i
    · rw [hji, update_self] at hj
      rcases hs with rfl | ⟨job, rfl, -⟩
      · cases hj
      · obtain ⟨-, rfl⟩ := started.inj hj
        rfl
    · rw [update_of_ne hji] at hj
      exact h.captured j job' activeKeys' hj hsome

/-- **One step** in turn keeps the calls serial -/
lemma Serializes.step (op : CallOp ι Secret) (hok : InTurn H kem w op) : Serializes H kem start (w.step H kem op) := by
  cases op with
  | call i job =>
    cases hi : w.calls i with
    | idle =>
      simp only [WebClient.step, hi]
      exact h.outside (by rw [hi]; rfl) (by rw [hi]; rfl) (.inr ⟨job, rfl, hok⟩)
    | started | clearing | loaded | storing =>
      simp only [WebClient.step, hi]
      exact h
  | load i =>
    cases hi : w.calls i with
    | started =>
      simp only [InTurn, hi, LoadsInTurn] at hok
      simp only [WebClient.step, hi]
      split_ifs with hready
      · exact h.load hi hready hok.1 hok.2.1 hok.2.2
      · exact h.outside (by rw [hi]; rfl) (by rw [hi]; rfl) (.inl rfl)
    | idle | clearing | loaded | storing =>
      simp only [WebClient.step, hi]
      exact h
  | clear i =>
    cases hi : w.calls i with
    | clearing =>
      simp only [WebClient.step, hi]
      exact h.clear hi
    | idle | started | loaded | storing =>
      simp only [WebClient.step, hi]
      exact h
  | resume i =>
    cases hi : w.calls i with
    | loaded job activeKeys existing =>
      simp only [WebClient.step, hi]
      cases ht : job.transform H kem activeKeys existing with
      | none => exact h.fail hi ht
      | some => exact h.transform hi ht
    | idle | started | clearing | storing =>
      simp only [WebClient.step, hi]
      exact h
  | store i =>
    cases hi : w.calls i with
    | storing =>
      simp only [WebClient.step, hi]
      exact h.store hi
    | idle | started | clearing | loaded =>
      simp only [WebClient.step, hi]
      exact h

omit h

omit [DecidableEq ι] in
lemma serializes_start (keys : KeysFile Secret) (sessions : String → Option (SessionFile Secret)) :
    Serializes H kem (WebClient.start keys sessions : WebClient ι Secret) (WebClient.start keys sessions) := by
  refine ⟨Completes.start _, Completes.start _, ?_, ?_, fun job hjob => absurd hjob not_mem_nil, List.Pairwise.nil,
    fun p => ⟨nodup_nil, ?_, ?_, ?_⟩⟩
  · intro i j hi
    cases hi
  · intro i job keys hi
    cases hi
  · intro x hx
    exact absurd hx not_mem_nil
  · intro s hs
    obtain ⟨file, -, rfl⟩ := map_eq_some_iff.1 hs
    exact le_rfl
  · intro s _ x hx
    exact absurd hx not_mem_nil

/-- incoming messages that are in the order of their ids stay where they are -/
lemma inIdOrder_sorted (h : (jobs.filterMap Job.messageId).Pairwise (· ≤ ·)) : inIdOrder jobs = jobs := by
  have hrefill : ∀ jobs : List (Job Secret), refill jobs (jobs.filter fun job => job.messageId.isSome) = jobs := by
    intro jobs
    induction jobs with
    | nil => rfl
    | cons job jobs ih =>
      cases job with
      | encrypt | decrypt => exact congrArg _ ih
  have hsorted : (jobs.filter fun job => job.messageId.isSome).Pairwise fun a b =>
      a.messageId.getD 0 ≤ b.messageId.getD 0 := by
    induction jobs with
    | nil => exact List.Pairwise.nil
    | cons job jobs ih =>
      cases hm : job.messageId with
      | none =>
        rw [filterMap_cons, hm] at h
        rw [filter_cons_of_neg (by rw [hm]; decide)]
        exact ih h
      | some =>
        rw [filterMap_cons, hm] at h
        obtain ⟨hhead, htail⟩ := pairwise_cons.1 h
        rw [filter_cons_of_pos (by rw [hm]; rfl)]
        refine pairwise_cons.2 ⟨fun other ho => ?_, ih htail⟩
        obtain ⟨hmem, hsome⟩ := mem_filter.1 ho
        obtain ⟨n, hn⟩ := isSome_iff_exists.1 hsome
        rw [hm, hn]
        exact hhead n (mem_filterMap.2 ⟨other, hmem, hn⟩)
  rw [inIdOrder, hsorted.insertionSort_eq, hrefill]

/-- **Calls in turn serialize.** In every run in which incoming messages are taken up one after the other, by id, a session is
loaded only when no other call has taken it, and an incoming message carries the DH key that its session holds: all session
messages to a peer within one session have different numbers, and whenever no call has taken the session of a peer, every
message of the peer that the serial schedule of the same calls reads has been read. -/
theorem calls_serialize (keys : KeysFile Secret) (sessions : String → Option (SessionFile Secret))
    (ops : List (CallOp ι Secret))
    (hlegal : Legal (WebClient.step H kem) (InTurn H kem) (WebClient.start keys sessions) ops) :
    OneNumberEach (run (WebClient.step H kem) (WebClient.start keys sessions) ops) ∧
      NoneDropped H kem (WebClient.start keys sessions) (run (WebClient.step H kem) (WebClient.start keys sessions) ops) := by
  have h := run_inv (Serializes H kem (start keys sessions)) (fun w op hw hok => hw.step op hok) ops
    (serializes_start keys sessions) hlegal
  refine ⟨fun p => ?_, fun i p hfree messageId hread => ?_⟩
  · by_cases hbusy : ∃ i e, (pendingPeer H kem ∘ (run (step H kem) (start keys sessions) ops).calls) i = some (p, e)
    · obtain ⟨i, e, hi⟩ := hbusy
      have hnodup := (h.numbered p).nodup
      rw [h.peers.busy hi] at hnodup
      exact hnodup.sublist (pending_wires hi _)
    · rw [← h.peers.quiet fun i e hi => hbusy ⟨i, e, hi⟩]
      exact (h.numbered p).nodup
  · rw [inIdOrder_sorted h.sorted] at hread
    have hserial := run_serial H kem (i := i) (w := start keys sessions) rfl h.ready
    have hpeers := congrArg (fun s => s.peers p) hserial
    rw [← h.peers.quiet fun j e hj => hfree j (taken_of_pending hj)]
    rw [show (run (step H kem) (start keys sessions) (serial i _)).peers p = _ from hpeers] at hread
    exact hread

end

/-! ## Samples -/

namespace Sample

abbrev webStep := WebClient.step (ι := Fin 2) Handshake.Sample.handshakePrims PqMsg.Sample.kem

abbrev callsInTurn := InTurn (ι := Fin 2) Handshake.Sample.handshakePrims PqMsg.Sample.kem

/-- a web client without sessions -/
def newcomer (p : Side) : WebClient (Fin 2) UInt32 := .start (sideKeys p) fun _ => none

/-- the initial message and the session message that the first side has for the second -/
def incoming (n : ℕ) : Job UInt32 :=
  .decrypt (n + 1) "alice" ((((run conversationStep strangers [.send .first (writeTo .second [1]),
    .send .first (writeTo .second [2])]).stored .first).map Envelope.bytes).getD n []) 0

def outgoing (p : Side) (peerUserId : String) : Job UInt32 := .encrypt (sideKeys p) peerUserId (writeTo p.other [3])

/-- both messages arrive while an answer is on its way -/
def inTurn : List (CallOp (Fin 2) UInt32) :=
  [.call 0 (incoming 0), .call 1 (outgoing .second "alice"), .load 0, .resume 0, .store 0, .load 1, .call 0 (incoming 1),
    .resume 1, .store 1, .load 0, .resume 0, .store 0]

/-- the two messages of one frame are taken up at once -/
def atOnce : List (CallOp (Fin 2) UInt32) :=
  [.call 0 (incoming 0), .call 1 (incoming 1), .load 0, .load 1, .resume 1, .resume 0, .store 0]

/-- after a first message, two sends load the same session -/
def twoSends : List (CallOp (Fin 2) UInt32) :=
  serial 0 [outgoing .first "bob"] ++
    [.call 0 (outgoing .first "bob"), .call 1 (outgoing .first "bob"), .load 0, .load 1, .resume 0, .resume 1, .store 0,
      .store 1]

/-- a message under a new DH key, of the first side after it has read an answer -/
def rekeyed : Bytes :=
  ((run conversationStep strangers [.send .first (writeTo .second [1]), .deliver .first 0,
    .send .second (writeTo .first [3]), .deliver .second 0]).client .first).session.elim [] fun file =>
    let s := restoreSession PqMsg.Sample.kem file
    let P := Handshake.Sample.handshakePrims.toPrimitives
    let ad := (conversationAssociatedData "alice" "bob").toOption.getD []
    ((SessionState.encrypt P { s with
      localDh := generateKeypair P 77
      sendingChain := ChainState.new (dhRootStep P s.rootKey 77 s.remoteDhPub).chainKey }
      (writeTo .second []).encryptRng [4] ad).2.toOption).getD []

/-- answers before and after that message, one after the other -/
def aroundRekeying : List (CallOp (Fin 2) UInt32) :=
  serial 0 [incoming 0, outgoing .second "alice", .decrypt 2 "alice" rekeyed 55, outgoing .second "alice"]

end Sample

open Client.Sample in
theorem calls_serialize_answered : Legal webStep callsInTurn (newcomer .second) inTurn ∧
    (OneNumberEach (run webStep (newcomer .second) inTurn) ∧
      NoneDropped Handshake.Sample.handshakePrims PqMsg.Sample.kem (newcomer .second)
        (run webStep (newcomer .second) inTurn)) ∧
    ((run webStep (newcomer .second) inTurn).peers "alice").read = [1, 2] := by
  have hlegal : Legal webStep callsInTurn (newcomer .second) inTurn := by decide +kernel
  exact ⟨hlegal, calls_serialize (sideKeys .second) (fun _ => none) inTurn hlegal, by decide +kernel⟩

open Client.Sample in
/-- **Lost updates**: two sends of one session with the same number, and a message that is dropped although it is read when
the calls run one after the other. A message under a new DH key restarts the numbers in any case. -/
theorem lost_updates : ¬ OneNumberEach (run webStep (newcomer .first) twoSends) ∧
    ¬ NoneDropped Handshake.Sample.handshakePrims PqMsg.Sample.kem (newcomer .second)
      (run webStep (newcomer .second) atOnce) ∧
    ¬ OneNumberEach (run webStep (newcomer .second) aroundRekeying) := by
  refine ⟨fun h => absurd (h "bob") (by decide +kernel), fun h => ?_, fun h => absurd (h "alice") (by decide +kernel)⟩
  exact absurd (h 0 "alice" (by decide +kernel) 2 (by decide +kernel)) (by decide +kernel)

end PqMsg.Client
