/-
Two sessions of one handshake and the network between them.

A `Setup` fixes what the handshake gives both sides: the root key, the DH key pairs, the suite, the wire version, the
cache bounds and, when the PQ ratchet is on, its parameters. `start` builds the two sessions with the source's own
constructors, with opposite roles, each holding the other's DH public key (and initial PQ public key).

A `World` is the two sessions, the packets in flight in each direction (oldest first) and what has been delivered. The
operations are calls of `encrypt` on either side (a call that fails puts nothing on the network) and deliveries of any
packet in flight to `decrypt` of the other side; a packet is delivered at most once because delivering it removes it.
Every interleaving of the two sides is a list of operations.

Two counters follow the PQ keys and influence nothing: `rot r` counts the key pairs role `r` has generated after its
initial one, and `seen r` is the number of the peer's key pair that `r` currently encapsulates to.
-/
import PqMsg.Lib.Run
import PqMsg.Session.Spec

namespace PqMsg.Session

open Lib Wire Ratchet Function

variable {Secret : Type}

def SessionRole.other : SessionRole → SessionRole
  | .initiator => .responder
  | .responder => .initiator

@[simp] lemma SessionRole.other_other (r : SessionRole) : r.other.other = r := by cases r <;> rfl

@[simp] lemma SessionRole.other_ne (r : SessionRole) : r.other ≠ r := by cases r <;> decide

@[simp] lemma SessionRole.ne_other (r : SessionRole) : r ≠ r.other := by cases r <;> decide

lemma SessionRole.eq_or_other (r d : SessionRole) : r = d ∨ r = d.other := by cases r <;> cases d <;> decide

/-! ## Setup -/

/-- the parameters of the PQ ratchet on each side; `key r` is the initial key pair of role `r` -/
structure PqSetup (Secret : Type) where
  kem : Kem Secret
  interval : SessionRole → UInt32
  key : SessionRole → KemKeyPair Secret
  maxKeyHistory : SessionRole → ℕ

structure Setup (Secret : Type) where
  root : Secret
  dh : SessionRole → DhKeyPair Secret
  suiteId : UInt16
  wireVersion : UInt16
  maxSkipped : SessionRole → ℕ
  pq : Option (PqSetup Secret)

def PqSetup.state (q : PqSetup Secret) (r : SessionRole) : PqRatchetState Secret :=
  ⟨q.interval r, q.key r, (q.key r.other).publicKey, [], q.maxKeyHistory r, 0⟩

variable (P : Primitives Secret) (c : Setup Secret)

/-- the session of role `r` -/
def Setup.session (r : SessionRole) : SessionState Secret :=
  match c.pq with
  | none => fromHandshake P r c.root (c.dh r) (c.dh r.other).publicKey c.suiteId c.wireVersion (c.maxSkipped r)
  | some q => fromHandshakeWithPqRatchet P r c.root (c.dh r) (c.dh r.other).publicKey c.suiteId c.wireVersion
      (c.maxSkipped r) (q.state r) q.kem

/-- the first chain key of the direction in which `r` sends -/
def Setup.chainKey (r : SessionRole) : Secret :=
  hkdfSha256_32 P c.root none r.chainInfo.1

/-- `max_skipped` of role `r` after clamping -/
def Setup.window (r : SessionRole) : ℕ := min (c.maxSkipped r) maxSkippedKeysUpperBound

/-! ## The system -/

structure Packet where
  num : UInt32
  wire : Bytes
  message : Bytes
  ad : Bytes
  pq : PqFields
  /-- number of the receiver's PQ key the sender encapsulates to -/
  target : ℕ
  /-- number of the sender's PQ key after sending -/
  gen : ℕ
deriving DecidableEq, Repr

/-- the packet carries a PQ ratchet step -/
def Packet.steps (p : Packet) : Bool := p.pq.stepCt.isSome

structure World (Secret : Type) where
  st : SessionRole → SessionState Secret
  inFlight : SessionRole → List Packet
  delivered : SessionRole → List UInt32
  rot : SessionRole → ℕ
  seen : SessionRole → ℕ
  /-- for each delivery the encrypted message and what `decrypt` returned -/
  log : List (Bytes × Except CoreError Bytes)

inductive Op (Secret : Type) where
  | send (d : SessionRole) (rng : EncryptRng) (message ad : Bytes)
  | deliver (d : SessionRole) (i : ℕ) (newSecret : Secret)

variable (w : World Secret)

/-- the number of the newest PQ key of `d` after an `encrypt` call -/
def World.rotAfter (d : SessionRole) (rng : EncryptRng) : ℕ :=
  if ((w.st d).nextPqFields P rng).stepCt.isSome then w.rot d + 1 else w.rot d

/-- the packets an `encrypt` call puts on the network: one, or none when it fails -/
def World.sent (d : SessionRole) (rng : EncryptRng) (message ad : Bytes) : List Packet :=
  match ((w.st d).encrypt P rng message ad).2 with
  | .ok wire => [⟨(w.st d).sendingChain.nextMsgNum, wire, message, ad, (w.st d).nextPqFields P rng, w.seen d,
      w.rotAfter P d rng⟩]
  | .error _ => []

def World.send (d : SessionRole) (rng : EncryptRng) (message ad : Bytes) : World Secret :=
  { w with
    st := update w.st d ((w.st d).encrypt P rng message ad).1
    inFlight := update w.inFlight d (w.inFlight d ++ w.sent P d rng message ad)
    rot := update w.rot d (w.rotAfter P d rng) }

/-- the key number that `apply_remote_public_key_update` leaves the receiver of `p` with -/
def Packet.seenAfter (p : Packet) (st : Option (PqRatchetState Secret)) (seen : ℕ) : ℕ :=
  match st with
  | some st => if p.steps ∧ p.num ≥ st.lastRemoteUpdateMsgNum then p.gen else seen
  | none => seen

def World.deliver (d : SessionRole) (i : ℕ) (newSecret : Secret) : World Secret :=
  match (w.inFlight d)[i]? with
  | none => w
  | some p =>
    let s := w.st d.other
    { w with
      st := update w.st d.other (s.decrypt P newSecret p.wire p.ad).1
      inFlight := update w.inFlight d ((w.inFlight d).eraseIdx i)
      delivered := update w.delivered d (p.num :: w.delivered d)
      seen := match (s.decrypt P newSecret p.wire p.ad).2 with
        | .ok _ => update w.seen d.other (p.seenAfter s.pqState (w.seen d.other))
        | .error _ => w.seen
      log := w.log ++ [(p.message, (s.decrypt P newSecret p.wire p.ad).2)] }

def step : Op Secret → World Secret
  | .send d rng message ad => w.send P d rng message ad
  | .deliver d i newSecret => w.deliver P d i newSecret

def start : World Secret :=
  ⟨c.session P, fun _ => [], fun _ => [], fun _ => 0, fun _ => 0, []⟩

/-! ## The delivery window -/

/-- the highest number of a list -/
def highest (l : List UInt32) : ℕ := l.foldr (fun n m => max n.toNat m) 0

/-- the numbers below the highest delivered one that were not delivered -/
def undelivered (l : List UInt32) : List ℕ := (List.range (highest l)).filter fun i => UInt32.ofNat i ∉ l

/-- in both directions, no more numbers are outstanding than the receiver's cache holds -/
def InWindow (w : World Secret) : Prop := ∀ d, (undelivered (w.delivered d)).length ≤ c.window d.other

instance (c : Setup Secret) (w : World Secret) : Decidable (InWindow c w) :=
  decidable_of_iff ((undelivered (w.delivered .initiator)).length ≤ c.window .responder ∧
    (undelivered (w.delivered .responder)).length ≤ c.window .initiator)
    ⟨fun h d => by cases d; exacts [h.1, h.2], fun h => ⟨h .initiator, h .responder⟩⟩

/-- every delivery so far returned the message that was encrypted -/
def AllDelivered : Prop := ∀ x ∈ w.log, x.2 = .ok x.1

end PqMsg.Session
