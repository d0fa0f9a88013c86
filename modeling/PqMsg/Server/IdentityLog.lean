/-
What the handlers do to identities and to the log of identity events (`handlers/identity.rs`, `handlers/prekeys.rs`).

The identity of a user is in the row of the user and, for each version, in an identity event. A request goes through stages:
it has done nothing yet, it has inserted a user, it has updated one in an open transaction, it has inserted an event.

- `Consistent`: the identity of a user is the one of the last event, or the user has no event at all.
- `StageOk`: what a request holds, and what it has found, at each stage.
- `Consistent.commitEvent`: a commit that adds the next event of a user.
- `rotateConfirm_cases`: everything that a step of a confirmation can do.
-/
import PqMsg.Server.TransparencyLog

namespace PqMsg.Server

open Lib List Option Snapshot World

variable {Secret ι : Type} [DecidableEq ι] {cfg : Config Secret}

/-! ## Identities and their events -/

structure IdentityKeys where
  x25519 : X25519Key
  sig : SigPubKey
  pqSig : Option PqSigPubKey
deriving DecidableEq

def UserRow.identity (row : UserRow) : IdentityKeys := ⟨row.identityX25519Pub, row.identitySigPub, row.identityPqSigPub⟩

def EventRow.identity (row : EventRow) : IdentityKeys := ⟨row.identityX25519Pub, row.identitySigPub, row.identityPqSigPub⟩

def Snapshot.eventsOf (s : Snapshot) (userId : String) : List EventRow :=
  (s.events.filter fun e => e.2.userId = userId).map Prod.snd

/-- the stored keys of a user are those that a request has checked signatures with -/
def StoredKeys (w : World ι) (userId : String) (current : SigKeys) : Prop :=
  ∃ user ∈ w.tables.committed (.user userId), user.identitySigPub = current.identitySigPub ∧
    user.identityPqSigPub = some current.identityPqSigPub

instance (w : World ι) (userId : String) (current : SigKeys) : Decidable (StoredKeys w userId current) :=
  inferInstanceAs (Decidable (∃ user ∈ w.tables.committed (.user userId), _))

/-- versions 1 to n, the last of them with this identity -/
structure Chain (identity : IdentityKeys) (events : List EventRow) : Prop where
  versions : events.map EventRow.version = List.range' 1 events.length
  last : ∃ event, events.getLast? = some event ∧ event.identity = identity

variable {event : EventRow} {userId : String} {stmt : Stmt} {id : ℕ} {writes : Writes Row} {w : World ι}

lemma Chain.lastVersion {identity : IdentityKeys} {events : List EventRow} (h : Chain identity events)
    (hlast : events.getLast? = some event) : event.version = events.length := by
  obtain ⟨init, rfl⟩ := List.getLast?_eq_some_iff.1 hlast
  have hget := congrArg List.getLast? h.versions
  rw [List.getLast?_map, hlast, map_some, List.getLast?_range', if_neg (by simp)] at hget
  have hversion := some.inj hget
  rw [hversion, length_append, length_singleton]
  omega

def Logged (w : World ι) (userId : String) : Prop :=
  ∃ user, w.tables.committed (.user userId) = some user ∧ Chain user.identity (w.public.eventsOf userId)

omit [DecidableEq ι] in
lemma mem_events (h : LogInv w) (hevent : w.tables.committed (.event id) = some event) : (id, event) ∈ w.public.events :=
  mem_inOrder.2 ⟨h.committedBelow (by rw [hevent]; simp), hevent⟩

lemma foldr_max_range' (n : ℕ) : (List.range' 1 n).foldr max 0 = n := by
  induction n with
  | zero => rfl
  | succ n ih =>
    have hfold : ∀ (l : List ℕ) (a : ℕ), l.foldr max a = max (l.foldr max 0) a := by
      intro l a
      induction l with
      | nil => exact (Nat.zero_max a).symm
      | cons b l ihl => rw [foldr_cons, foldr_cons, ihl, max_assoc]
    rw [List.range'_concat, foldr_append, hfold, ih, Nat.one_mul, foldr_cons, foldr_nil, Nat.max_zero, Nat.add_comm 1 n]
    exact max_eq_right (Nat.le_succ n)

lemma maxVersion_eq {s : Snapshot} (h : (s.eventsOf userId).map EventRow.version = List.range' 1 (s.eventsOf userId).length) :
    s.maxVersion userId = (s.eventsOf userId).length := by
  have hmax : s.maxVersion userId = ((s.eventsOf userId).map EventRow.version).foldr max 0 := by
    simp [maxVersion, eventsOf, Function.comp_def]
  rw [hmax, h, foldr_max_range']

/-! ## Stages of a request -/

/-- the tables of users and events -/
def Key.core : Key → Prop
  | .user _ | .event _ | .version _ _ => True
  | _ => False

/-- how far a request has come with the identity of a user -/
inductive Stage where
  | apart
  | logged (userId : String)
  /-- the user is inserted, and an id for the event may be taken -/
  | created (r : RegisterUserRequest) (eventId : Option ℕ)
  | logging (r : RegisterUserRequest)
  | present (userId : String)
  /-- the user's row is updated, and the version and an id may be known -/
  | rotated (userId : String) (identity : IdentityKeys) (version eventId : Option ℕ)
  | rotatedLogging (event : EventRow) (eventId : ℕ)
  | deleting (userId : String)

def ChallengeRow.identity (challenge : ChallengeRow) (newPq : PqSigPubKey) : IdentityKeys :=
  ⟨challenge.newIdentityX25519Pub, challenge.newIdentitySigPub, some newPq⟩

/-- `none` for what does not occur: other requests, and storing an ML-DSA key without an event -/
def Proc.stage : Proc → Option Stage
  | .idle => some .apart
  | .register r phase =>
    match phase with
    | .insertUser | .selectExisting => some .apart
    | .upgradePq _ => none
    | .relinkDevice _ | .relinked _ => some (.logged r.userId)
    | .insertDevice | .takeEventId => some (.created r none)
    | .insertEvent id => some (.created r (some id))
    | .commitEvent => some (.logging r)
  | .rotateInit _ _ => some .apart
  | .rotateConfirm r phase =>
    match phase with
    | .selectChallenge | .selectUser _ _ => some .apart
    | .consume _ _ _ | .updateUser _ _ _ => some (.present r.userId)
    | .retireDevices c pq _ | .insertDevice c pq _ | .deletePrekeys c pq _ | .deleteOneTime _ c pq _ | .selectVersion c pq _ =>
      some (.rotated r.userId (c.identity pq) none none)
    | .takeEventId c pq _ version => some (.rotated r.userId (c.identity pq) (some version) none)
    | .insertEvent c pq _ version id => some (.rotated r.userId (c.identity pq) (some version) (some id))
    | .commit c pq _ version id => some (.rotatedLogging (rotationEvent r c pq version) id)
  | .deleteAccount userId phase =>
    match phase with
    | .ensureUser | .deleteUser => some .apart
    | .commit => some (.deleting userId)
  | _ => none

/-- all visible events are below `id` -/
def Above (w : World ι) (id : ℕ) : Prop := ∀ id', w.tables.committed (.event id') ≠ none → id' < id

def putUser (userId : String) (user : UserRow) : Writes Row :=
  onUser fun u => if u = userId then some (some user) else none

def RegisterUserRequest.identity (r : RegisterUserRequest) : IdentityKeys :=
  ⟨r.identityX25519Pub, r.identitySigPub, some r.identityPqSigPub⟩

/-- the user is stored and has no events -/
def Unlogged (w : World ι) (r : RegisterUserRequest) : Prop :=
  (∃ user, w.tables.committed (.user r.userId) = some user ∧ user.identity = r.identity) ∧ w.public.eventsOf r.userId = []

def StageOk (w : World ι) (i : ι) : Stage → Prop
  | .apart => w.tables.Holds i Key.core fun _ => none
  | .logged userId => (w.tables.Holds i Key.core fun _ => none) ∧ Logged w userId
  | .created r eventId => (w.tables.Holds i Key.core fun _ => none) ∧ Unlogged w r ∧ ∀ id ∈ eventId, Above w id
  | .logging r => ∃ id, w.tables.Holds i Key.core (onEvent id r.event) ∧ Unlogged w r ∧ Above w id ∧ id < w.nextEvent
  | .present userId => (w.tables.Holds i Key.core fun _ => none) ∧ w.tables.committed (.user userId) ≠ none
  | .rotated userId identity version eventId =>
    ∃ user, w.tables.Holds i Key.core (putUser userId user) ∧ user.identity = identity ∧
      w.tables.committed (.user userId) ≠ none ∧ (∀ v ∈ version, v = (w.public.eventsOf userId).length + 1) ∧
      ∀ id ∈ eventId, Above w id
  | .rotatedLogging event id =>
    ∃ user, (w.tables.Holds i Key.core fun k => (onEvent id event k).or (putUser event.userId user k)) ∧
      user.identity = event.identity ∧ w.tables.committed (.user event.userId) ≠ none ∧
      event.version = (w.public.eventsOf event.userId).length + 1 ∧ Above w id ∧ id < w.nextEvent
  | .deleting userId => w.tables.Holds i Key.core ((Stmt.deleteUser userId).writes w.tables.committed)

/-- the identity of a user is that of its last event, or it has no events; without a user there are none -/
structure Sound (w : World ι) (userId : String) : Prop where
  absent : w.tables.committed (.user userId) = none → w.public.eventsOf userId = []
  stored : ∀ user, w.tables.committed (.user userId) = some user →
    w.public.eventsOf userId = [] ∨ Chain user.identity (w.public.eventsOf userId)

/-- what the tables say about identities while no request is handled -/
structure Consistent (w : World ι) : Prop where
  sound : ∀ userId, Sound w userId
  index : ∀ {userId version id}, w.tables.committed (.version userId version) = some id →
    ∃ event, w.tables.committed (.event id) = some event ∧ event.userId = userId ∧ event.version = version

section

variable {w w' : World ι} (huser : w'.tables.committed (.user userId) = w.tables.committed (.user userId))
  (hevents : w'.public.eventsOf userId = w.public.eventsOf userId)
include huser hevents
omit [DecidableEq ι]

lemma Sound.congr (h : Sound w userId) : Sound w' userId := by
  refine ⟨fun hnone => ?_, fun user hstored => ?_⟩
  · exact hevents.trans (h.absent (huser.symm.trans hnone))
  · rw [hevents]
    exact h.stored user (huser.symm.trans hstored)

lemma Logged.congr (h : Logged w userId) : Logged w' userId := by
  obtain ⟨user, hstored, hchain⟩ := h
  exact ⟨user, huser.trans hstored, hevents ▸ hchain⟩

end

/-! ## Steps that leave the committed identities -/

structure SameLog (w w' : World ι) : Prop where
  committed : ∀ k, k.core → w'.tables.committed k = w.tables.committed k
  eventsOf : ∀ userId, w'.public.eventsOf userId = w.public.eventsOf userId

omit [DecidableEq ι] in
lemma sameLog_of {w w' : World ι} (h : LogInv w) (hc : ∀ k, k.core → w'.tables.committed k = w.tables.committed k)
    (hle : w.nextEvent ≤ w'.nextEvent) : SameLog w w' := by
  refine ⟨hc, fun userId => ?_⟩
  have hevents : w'.public.events = w.public.events := by
    calc w'.public.events = inOrder w'.nextEvent fun id => w.tables.committed (.event id) :=
          inOrder_congr fun id _ => hc (.event id) trivial
      _ = w.public.events := inOrder_of_le (fun id => @h.committedBelow id) hle
  rw [eventsOf, eventsOf, hevents]

namespace SameLog

variable {w w' : World ι} (h : SameLog w w')

omit [DecidableEq ι]
include h

lemma logged (hl : Logged w userId) : Logged w' userId := hl.congr (h.committed (.user _) trivial) (h.eventsOf _)

lemma unlogged {r : RegisterUserRequest} (hu : Unlogged w r) : Unlogged w' r := by
  obtain ⟨⟨user, huser, hidentity⟩, hnil⟩ := hu
  exact ⟨⟨user, (h.committed (.user _) trivial).trans huser, hidentity⟩, (h.eventsOf _).trans hnil⟩

lemma above (ha : Above w id) : Above w' id := by
  intro id' hid'
  rw [h.committed (.event id') trivial] at hid'
  exact ha id' hid'

lemma consistent (hc : Consistent w) : Consistent w' := by
  refine ⟨fun userId => (hc.sound userId).congr (h.committed (.user _) trivial) (h.eventsOf _),
    fun {userId version id} hindex => ?_⟩
  rw [h.committed (.version _ _) trivial] at hindex
  obtain ⟨event, hevent, heq⟩ := hc.index hindex
  exact ⟨event, (h.committed (.event _) trivial).trans hevent, heq⟩

lemma present (hp : w.tables.committed (.user userId) ≠ none) : w'.tables.committed (.user userId) ≠ none := by
  rw [h.committed (.user _) trivial]
  exact hp

/-- a stage is kept as long as the process still holds what it held -/
lemma stageOk {i : ι} {stage : Stage} (hle : w.nextEvent ≤ w'.nextEvent)
    (hholds : ∀ writes, w.tables.Holds i Key.core writes → w'.tables.Holds i Key.core writes) (hs : StageOk w i stage) :
    StageOk w' i stage := by
  cases stage with
  | apart => exact hholds _ hs
  | logged => exact ⟨hholds _ hs.1, h.logged hs.2⟩
  | created => exact ⟨hholds _ hs.1, h.unlogged hs.2.1, fun id hid => h.above (hs.2.2 id hid)⟩
  | logging =>
    obtain ⟨id, hh, hu, ha, hlt⟩ := hs
    exact ⟨id, hholds _ hh, h.unlogged hu, h.above ha, hlt.trans_le hle⟩
  | present => exact ⟨hholds _ hs.1, h.present hs.2⟩
  | rotated =>
    obtain ⟨user, hh, hidentity, hp, hv, ha⟩ := hs
    refine ⟨user, hholds _ hh, hidentity, h.present hp, fun v hv' => ?_, fun id hid => h.above (ha id hid)⟩
    rw [h.eventsOf]
    exact hv v hv'
  | rotatedLogging =>
    obtain ⟨user, hh, hidentity, hp, hv, ha, hlt⟩ := hs
    refine ⟨user, hholds _ hh, hidentity, h.present hp, ?_, h.above ha, hlt.trans_le hle⟩
    rw [h.eventsOf]
    exact hv
  | deleting =>
    intro k hk row
    rw [hholds _ hs k hk row]
    simp [Stmt.writes, h.committed k hk]

end SameLog

/-! ## Statements -/

def Stmt.SparesCore (stmt : Stmt) : Prop := ∀ view k, k.core → stmt.writes view k = none

section Statements

variable {w : World ι} {i : ι} {stmt : Stmt} {tables : Tables ι}

lemma done_holds_other {j : ι} (hexec : w.tables.exec i stmt = .done tables) (hj : j ≠ i)
    (hholds : w.tables.Holds j Key.core writes) (atOnce : Bool) : (tables.settle i atOnce).Holds j Key.core writes := by
  intro k hk row
  rw [done_draft_other hexec hj]
  exact hholds k hk row

lemma holds_view (hholds : w.tables.Holds i Key.core fun _ => none) {k : Key} (hk : k.core) :
    w.tables.view i k = w.tables.committed k := by
  rw [hholds.view hk, getD_none]

lemma done_spares (hexec : w.tables.exec i stmt = .done tables) (hspare : stmt.SparesCore)
    (hholds : w.tables.Holds i Key.core writes) : tables.Holds i Key.core writes := by
  refine (done_holds hexec hholds).congr fun k hk => ?_
  rw [hspare _ k hk, none_or]

end Statements

/-- statements on devices, challenges and prekeys -/
lemma spares_core (h : match stmt with
    | .upsertDevice .. | .insertChallenge .. | .consumeChallenge .. | .retireDevices _ | .deletePrekeys .. | .deleteOneTime .. =>
      True
    | _ => False) : stmt.SparesCore := by
  intro view k hk
  cases stmt <;> first | exact h.elim | (cases k <;> first | rfl | exact hk.elim)

/-! ## Commits -/

section Commits

variable {w : World ι} {i : ι} {writes : Writes Row} (reply : Reply)

lemma commit_committed (hholds : w.tables.Holds i Key.core writes) {k : Key} (hk : k.core) :
    (w.commit i reply).tables.committed k = (writes k).getD (w.tables.committed k) := hholds.view hk

/-- a transaction has added the next event of one user, whose identity is then the one of that event -/
structure AddsEvent (w : World ι) (writes : Writes Row) (id : ℕ) (event : EventRow) (user : UserRow) : Prop where
  events : ∀ id', writes (.event id') = if id' = id then some (some event) else none
  versions : ∀ u v, writes (.version u v) = if u = event.userId ∧ v = event.version then some (some id) else none
  others : ∀ u ≠ event.userId, writes (.user u) = none
  stored : (writes (.user event.userId)).getD (w.tables.committed (.user event.userId)) = some user
  identity : user.identity = event.identity
  chain : (w.public.eventsOf event.userId).map EventRow.version = List.range' 1 (w.public.eventsOf event.userId).length
  next : event.version = (w.public.eventsOf event.userId).length + 1
  above : Above w id
  given : id < w.nextEvent

lemma Consistent.commitEvent (h : Consistent w) {user : UserRow} (hholds : w.tables.Holds i Key.core writes)
    (hadds : AddsEvent w writes id event user) :
    Consistent (w.commit i reply) ∧ Logged (w.commit i reply) event.userId ∧
      ∀ u ≠ event.userId, Logged w u → Logged (w.commit i reply) u := by
  have heventsOf : ∀ userId, (w.commit i reply).public.eventsOf userId =
      w.public.eventsOf userId ++ if event.userId = userId then [event] else [] := by
    intro userId
    have hevents : (w.commit i reply).public.events = w.public.events ++ [(id, event)] := by
      apply inOrder_insert hadds.given hadds.above
      · have := commit_committed reply hholds (k := .event id) trivial
        rw [hadds.events, if_pos rfl] at this
        exact this
      · intro id' hne
        have := commit_committed reply hholds (k := .event id') trivial
        rw [hadds.events, if_neg hne] at this
        exact this
    rw [eventsOf, eventsOf, hevents, filter_append, map_append]
    by_cases heq : event.userId = userId <;> simp [heq]
  have hcommitted := fun {k} (hk : Key.core k) => commit_committed reply hholds hk
  have hkeep : ∀ u ≠ event.userId, (w.commit i reply).tables.committed (.user u) = w.tables.committed (.user u) := by
    intro u hu
    rw [hcommitted (k := .user u) trivial, hadds.others u hu, getD_none]
  have hsame : ∀ u ≠ event.userId, (w.commit i reply).public.eventsOf u = w.public.eventsOf u := by
    intro u hu
    rw [heventsOf, if_neg (Ne.symm hu), append_nil]
  have hlogged : Logged (w.commit i reply) event.userId := by
    refine ⟨user, (hcommitted (k := .user event.userId) trivial).trans hadds.stored, ?_, event, ?_, hadds.identity.symm⟩
    · rw [heventsOf, if_pos rfl, map_append, hadds.chain, length_append, length_singleton,
        List.range'_concat, map_singleton, hadds.next, Nat.one_mul, Nat.add_comm 1]
    · rw [heventsOf, if_pos rfl, List.getLast?_append]
      rfl
  refine ⟨⟨fun u => ?_, fun {u v n} hindex => ?_⟩, hlogged, fun u hu hbefore => hbefore.congr (hkeep u hu) (hsame u hu)⟩
  · by_cases heq : u = event.userId
    · subst heq
      obtain ⟨user', huser', hchain'⟩ := hlogged
      refine ⟨fun hn => absurd (huser'.symm.trans hn) (by simp), fun user'' huser'' => .inr ?_⟩
      cases huser'.symm.trans huser''
      exact hchain'
    · exact (h.sound u).congr (hkeep u heq) (hsame u heq)
  · rw [hcommitted (k := .version u v) trivial, hadds.versions] at hindex
    by_cases heq : u = event.userId ∧ v = event.version
    · rw [if_pos heq] at hindex
      cases some.inj hindex
      refine ⟨event, ?_, heq.1.symm, heq.2.symm⟩
      rw [hcommitted (k := .event id) trivial, hadds.events, if_pos rfl, getD_some]
    · rw [if_neg heq, getD_none] at hindex
      obtain ⟨event', hevent', heq'⟩ := h.index hindex
      have hne : n ≠ id := Nat.ne_of_lt (hadds.above n (by rw [hevent']; simp))
      refine ⟨event', ?_, heq'⟩
      rw [hcommitted (k := .event n) trivial, hadds.events, if_neg hne, getD_none]
      exact hevent'

end Commits

/-! ## Confirmations of a rotation -/

/-- the challenge, and the keys with which the signatures were checked -/
structure CheckedKeys where
  challenge : ChallengeRow
  newPq : PqSigPubKey
  current : SigKeys

namespace RotateConfirmPhase

def checked : RotateConfirmPhase → Option CheckedKeys
  | .selectChallenge | .selectUser _ _ => none
  | .consume c pq current | .updateUser c pq current | .retireDevices c pq current | .insertDevice c pq current
  | .deletePrekeys c pq current | .deleteOneTime _ c pq current | .selectVersion c pq current | .takeEventId c pq current _
  | .insertEvent c pq current _ _ | .commit c pq current _ _ => some ⟨c, pq, current⟩

/-- the challenge is consumed, and its row held -/
def hasConsumed : RotateConfirmPhase → Bool
  | .selectChallenge | .selectUser _ _ | .consume _ _ _ => false
  | _ => true

/-- the user's row is updated and held -/
def holdsUser : RotateConfirmPhase → Bool
  | .selectChallenge | .selectUser _ _ | .consume _ _ _ | .updateUser _ _ _ => false
  | _ => true

end RotateConfirmPhase

/-- a step of `i` that commits nothing -/
structure Uncommitted (i : ι) (w w' : World ι) : Prop where
  committed : w'.tables.committed = w.tables.committed
  draft : ∀ j ≠ i, ∀ k row, w'.tables.draft k = some (j, row) ↔ w.tables.draft k = some (j, row)
  next : w.nextEvent ≤ w'.nextEvent

def Key.isChallenge : Key → Prop
  | .challenge _ => True
  | _ => False

def putChallenge (challengeId : String) (row : ChallengeRow) : Writes Row :=
  onChallenge fun c => if c = challengeId then some (some row) else none

/-- a confirmation goes on to another phase -/
structure ConfirmStep (cfg : Config Secret) (w w' : World ι) (i : ι) (r : RotateConfirmRequest)
    (phase phase' : RotateConfirmPhase) : Prop extends Uncommitted i w w' where
  procs : w'.procs = Function.update w.procs i (.rotateConfirm r phase')
  replies : w'.replies = w.replies
  stage : ∃ stage, (Proc.rotateConfirm r phase').stage = some stage ∧ StageOk w' i stage
  /-- the signatures are checked, and from then on the keys stay the same -/
  checks : phase'.checked = phase.checked ∨ phase'.holdsUser = false ∧
    ∀ x ∈ phase'.checked, verifyRotation cfg r x.challenge x.newPq x.current = .ok ()
  /-- the challenge is consumed, and from then on no other challenge is written -/
  consumes : phase'.hasConsumed = phase.hasConsumed ∧
      (∀ writes, w.tables.Holds i Key.isChallenge writes → w'.tables.Holds i Key.isChallenge writes) ∨
    phase.hasConsumed = false ∧ phase'.hasConsumed = true ∧
      ∃ c : ChallengeRow, w.tables.view i (.challenge r.challengeId) = some c ∧ c.consumed = false ∧
        ((w.tables.Holds i Key.isChallenge fun _ => none) →
          w'.tables.Holds i Key.isChallenge (putChallenge r.challengeId { c with consumed := true }))
  /-- the user's row is updated while no one else holds it -/
  updates : phase'.holdsUser = phase.holdsUser ∨
    (∃ x ∈ phase.checked, phase = .updateUser x.challenge x.newPq x.current ∧ phase'.checked = some x) ∧
      ∀ j row, w.tables.draft (.user r.userId) = some (j, row) → j = i

section Rotation

variable {w w' : World ι} {i : ι} {tables : Tables ι}

omit [DecidableEq ι] in
lemma Uncommitted.holds (h : Uncommitted i w w') {j : ι} (hj : j ≠ i) {P : Key → Prop}
    (hholds : w.tables.Holds j P writes) : w'.tables.Holds j P writes := by
  intro k hk row
  rw [h.draft j hj]
  exact hholds k hk row

omit [DecidableEq ι] in
lemma Uncommitted.sameLog (h : Uncommitted i w w') (hlog : LogInv w) : SameLog w w' :=
  sameLog_of hlog (fun k _ => congrFun h.committed k) h.next

lemma uncommitted_goto (w : World ι) (i : ι) (next : Proc) : Uncommitted i w (w.goto i next) :=
  ⟨rfl, fun _ _ _ _ => Iff.rfl, le_rfl⟩

lemma uncommitted_stop (w : World ι) (i : ι) (reply : Reply) : Uncommitted i w (w.stop i reply) := by
  refine ⟨rfl, fun j hj k row => ?_, le_rfl⟩
  rw [stop, Store.rollback_draft]
  exact and_iff_left hj

lemma uncommitted_done (hexec : w.tables.exec i stmt = .done tables) (next : Proc) :
    Uncommitted i w ({ w with tables := tables.settle i false }.goto i next) :=
  ⟨done_committed hexec, fun _ hj _ _ => done_draft_other hexec hj, le_rfl⟩

omit [DecidableEq ι] in
lemma Consistent.versions (h : Consistent w) (hpresent : w.tables.committed (.user userId) ≠ none) :
    (w.public.eventsOf userId).map EventRow.version = List.range' 1 (w.public.eventsOf userId).length := by
  obtain ⟨user, huser⟩ := ne_none_iff_exists'.1 hpresent
  rcases (h.sound userId).stored user huser with hnil | hchain
  · rw [hnil]
    rfl
  · exact hchain.versions

omit [DecidableEq ι] in
/-- what a rotation is about to commit -/
lemma StageOk.addsEvent (hc : Consistent w) (hs : StageOk w i (.rotatedLogging event id)) :
    ∃ writes user, w.tables.Holds i Key.core writes ∧ AddsEvent w writes id event user := by
  obtain ⟨user, hholds, hidentity, hpresent, hversion, habove, hlt⟩ := hs
  refine ⟨_, user, hholds, ⟨fun id' => ?_, fun u v => ?_, fun u hu => ?_, ?_, hidentity, hc.versions hpresent, hversion,
    habove, hlt⟩⟩
  · simp [onEvent, putUser, onUser]
  · simp [onEvent, putUser, onUser]
  · simp [onEvent, putUser, onUser, if_neg hu]
  · simp [onEvent, putUser, onUser]


lemma done_challenges (hexec : w.tables.exec i stmt = .done tables)
    (hchallenge : ∀ view c, stmt.writes view (.challenge c) = none) (hholds : w.tables.Holds i Key.isChallenge writes) :
    tables.Holds i Key.isChallenge writes := by
  refine (done_holds hexec hholds).congr fun k hk => ?_
  cases k with
  | challenge => rw [hchallenge, none_or]
  | _ => exact hk.elim

variable {r : RotateConfirmRequest} {phase : RotateConfirmPhase} {phase' : RotateConfirmPhase} {P : World ι → Prop}

/-- a step that reads: what is held stays -/
lemma ConfirmStep.goto (w : World ι) (hstage : ∃ stage, (Proc.rotateConfirm r phase').stage = some stage ∧ StageOk w i stage)
    (hchecks : phase'.checked = phase.checked ∨ phase'.holdsUser = false ∧
      ∀ x ∈ phase'.checked, verifyRotation cfg r x.challenge x.newPq x.current = .ok ())
    (hconsumed : phase'.hasConsumed = phase.hasConsumed) (hholds : phase'.holdsUser = phase.holdsUser) (hlog : LogInv w) :
    ConfirmStep cfg w (w.goto i (.rotateConfirm r phase')) i r phase phase' := by
  obtain ⟨stage, hstage, hs⟩ := hstage
  have hstep := uncommitted_goto w i (.rotateConfirm r phase')
  exact { toUncommitted := hstep, procs := rfl, replies := rfl
          stage := ⟨stage, hstage, (hstep.sameLog hlog).stageOk le_rfl (fun _ hh => hh) hs⟩
          checks := hchecks, consumes := .inl ⟨hconsumed, fun _ hh => hh⟩, updates := .inl hholds }

/-- a statement on other tables than identities and challenges -/
lemma ConfirmStep.spare (hlog : LogInv w) (hexec : w.tables.exec i stmt = .done tables) (hspare : stmt.SparesCore)
    (hchallenge : ∀ view c, stmt.writes view (.challenge c) = none)
    (hstage : ∃ stage, (Proc.rotateConfirm r phase').stage = some stage ∧ StageOk w i stage)
    (hchecks : phase'.checked = phase.checked) (hconsumed : phase'.hasConsumed = phase.hasConsumed)
    (hholds : phase'.holdsUser = phase.holdsUser) :
    ConfirmStep cfg w ({ w with tables := tables.settle i false }.goto i (.rotateConfirm r phase')) i r phase phase' := by
  obtain ⟨stage, hstage, hs⟩ := hstage
  have hstep := uncommitted_done hexec (.rotateConfirm r phase')
  exact { toUncommitted := hstep, procs := rfl, replies := rfl
          stage := ⟨stage, hstage, (hstep.sameLog hlog).stageOk le_rfl (fun _ => done_spares hexec hspare) hs⟩
          checks := .inl hchecks
          consumes := .inl ⟨hconsumed, fun writes hh => done_challenges hexec hchallenge hh⟩, updates := .inl hholds }

/-- the update of the user's row -/
lemma StageOk.rotateUser {challenge : ChallengeRow} {newPq : PqSigPubKey} (hs : StageOk w i (.present r.userId))
    (hexec : w.tables.exec i (.rotateUser r.userId challenge.newIdentityX25519Pub challenge.newIdentitySigPub newPq
      challenge.newDeviceId) = .done tables) (next : Proc) :
    StageOk ({ w with tables := tables.settle i false }.goto i next) i (.rotated r.userId (challenge.identity newPq) none none) ∧
      ∀ j row, w.tables.draft (.user r.userId) = some (j, row) → j = i := by
  obtain ⟨hnone, hpresent⟩ := hs
  obtain ⟨user, huser⟩ := ne_none_iff_exists'.1 hpresent
  have hview : w.tables.view i (.user r.userId) = some user := (holds_view hnone (k := .user r.userId) trivial).trans huser
  let user' : UserRow := { user with
    identityX25519Pub := challenge.newIdentityX25519Pub
    identitySigPub := challenge.newIdentitySigPub
    identityPqSigPub := some newPq
    deviceId := challenge.newDeviceId }
  have hwrites : ∀ u, (Stmt.rotateUser r.userId challenge.newIdentityX25519Pub challenge.newIdentitySigPub newPq
      challenge.newDeviceId).writes (w.tables.view i) (.user u) = putUser r.userId user' (.user u) := by
    intro u
    simp only [putUser, Stmt.writes, onUser]
    by_cases hu : u = r.userId
    · subst hu
      simp [hview, update, user']
    · simp [hu]
  refine ⟨⟨user', ?_, rfl, ?_, by simp, by simp⟩, fun j row hdraft => ?_⟩
  · refine (done_holds hexec hnone).congr fun k hk => ?_
    cases k with
    | user => rw [hwrites, or_none]
    | _ => rfl
  · exact fun hn => hpresent ((congrFun (done_committed hexec) _).symm.trans hn)
  · obtain ⟨hfree, -⟩ := exec_done hexec
    have hself : putUser r.userId user' (.user r.userId) = some (some user') := if_pos rfl
    exact Store.free_holder hfree ((hwrites r.userId).trans hself) hdraft

/-- what the transaction finds as the last version -/
lemma StageOk.maxVersion (hc : Consistent w) {identity : IdentityKeys} {version eventId : Option ℕ}
    (hs : StageOk w i (.rotated userId identity version eventId)) :
    (w.snapshot i).maxVersion userId = (w.public.eventsOf userId).length := by
  obtain ⟨user, hholds, -, hpresent, -⟩ := hs
  have hevents : (w.snapshot i).events = w.public.events := inOrder_congr fun id _ => hholds.view (k := Key.event id) trivial
  have heventsOf : (w.snapshot i).eventsOf userId = w.public.eventsOf userId := by
    rw [eventsOf, eventsOf, hevents]
  rw [maxVersion_eq (by rw [heventsOf]; exact hc.versions hpresent), heventsOf]

/-- a statement of a confirmation: it waits, it fails, or it runs -/
lemma confirm_write {next : Proc} (hturn : w.turn cfg i = .write stmt false next none) (hwait : P w)
    (hfail : ∀ error, P (w.stop i (.failed error)))
    (hdone : ∀ tables, w.tables.exec i stmt = .done tables → P ({ w with tables := tables.settle i false }.goto i next)) :
    P (w.advance cfg i) := by
  rw [advance, hturn]
  exact write_rule hwait (fun _ hq => by cases hq) (hfail _) hdone

/-- **A step of a confirmation**: it waits, it fails, it goes on to another phase, or it commits -/
lemma rotateConfirm_cases (hc : Consistent w) (hlog : LogInv w) (hp : w.procs i = .rotateConfirm r phase)
    (hstage : ∃ stage, (Proc.rotateConfirm r phase).stage = some stage ∧ StageOk w i stage) (hwait : P w)
    (hfail : ∀ error, P (w.stop i (.failed error))) (hgo : ∀ w' phase', ConfirmStep cfg w w' i r phase phase' → P w')
    (hcommit : ∀ challenge newPq current version id, phase = .commit challenge newPq current version id →
      StageOk w i (.rotatedLogging (rotationEvent r challenge newPq version) id) →
      P (w.commit i (.rotationConfirmed r challenge version id))) : P (w.advance cfg i) := by
  obtain ⟨stage, hstage, hs⟩ := hstage
  have hturn : w.turn cfg i = rotateConfirm cfg (w.snapshot i) r phase := by rw [turn, hp]; rfl
  have hfails : ∀ {error}, w.turn cfg i = .fail error → P (w.advance cfg i) := by
    intro error ht
    rw [advance, ht]
    exact hfail error
  have hreads : ∀ {phase'}, w.turn cfg i = .read (.rotateConfirm r phase') →
      ConfirmStep cfg w (w.goto i (.rotateConfirm r phase')) i r phase phase' → P (w.advance cfg i) := by
    intro phase' ht hstep
    rw [advance, ht]
    exact hgo _ _ hstep
  cases phase with
  | selectChallenge =>
    cases hstage
    simp only [rotateConfirm] at hturn
    split at hturn
    · exact hfails hturn
    · split_ifs at hturn
      · exact hfails hturn
      · split at hturn
        · exact hfails hturn
        · exact hreads hturn (.goto w ⟨.apart, rfl, hs⟩ (.inl rfl) rfl rfl hlog)
  | selectUser =>
    cases hstage
    simp only [rotateConfirm, snapshot] at hturn
    have hview : w.tables.view i (.user r.userId) = w.tables.committed (.user r.userId) := holds_view hs trivial
    cases huser : w.tables.committed (.user r.userId) with
    | none =>
      simp only [hview, huser] at hturn
      exact hfails hturn
    | some =>
      simp only [hview, huser, Turn.check] at hturn
      split at hturn
      · exact hfails hturn
      · split at hturn
        case h_1 hverify =>
          refine hreads hturn (.goto w ⟨.present r.userId, rfl, hs, by rw [huser]; simp⟩
            (.inr ⟨rfl, fun x hx => ?_⟩) rfl rfl hlog)
          cases hx
          exact hverify
        · exact hfails hturn
  | consume challenge newPq current =>
    cases hstage
    simp only [rotateConfirm] at hturn
    split at hturn
    · exact hfails hturn
    case h_2 c hc' =>
      obtain ⟨hview, hcond⟩ := filter_eq_some_iff.1 hc'
      obtain ⟨huser, hconsumed⟩ := of_decide_eq_true hcond
      refine confirm_write hturn hwait hfail fun tables hexec => hgo _ (.updateUser challenge newPq current) ?_
      have hstep := uncommitted_done hexec (.rotateConfirm r (.updateUser challenge newPq current))
      refine { toUncommitted := hstep, procs := rfl, replies := rfl, stage := ⟨.present r.userId, rfl, ?_⟩, checks := .inl rfl,
               consumes := .inr ⟨rfl, rfl, c, hview, hconsumed, fun hnone => ?_⟩, updates := .inl rfl }
      · exact (hstep.sameLog hlog).stageOk le_rfl (fun _ => done_spares hexec (spares_core trivial)) hs
      · refine (done_holds hexec hnone).congr fun k hk => ?_
        cases k with
        | challenge id =>
          simp only [putChallenge, Stmt.writes, onChallenge, or_none]
          by_cases hid : id = r.challengeId
          · subst hid
            have hview' : w.tables.view i (.challenge r.challengeId) = some c := hview
            simp [hview', update, huser, hconsumed]
          · simp [hid]
        | _ => exact hk.elim
  | updateUser challenge newPq current =>
    cases hstage
    refine confirm_write hturn hwait hfail fun tables hexec => hgo _ (.retireDevices challenge newPq current) ?_
    obtain ⟨hrotated, hfree⟩ := hs.rotateUser hexec (.rotateConfirm r (.retireDevices challenge newPq current))
    exact { toUncommitted := uncommitted_done hexec _, procs := rfl, replies := rfl, stage := ⟨_, rfl, hrotated⟩,
            checks := .inl rfl, consumes := .inl ⟨rfl, fun _ hh => done_challenges hexec (fun _ _ => rfl) hh⟩,
            updates := .inr ⟨⟨⟨challenge, newPq, current⟩, rfl, rfl, rfl⟩, hfree⟩ }
  | retireDevices | insertDevice | deletePrekeys =>
    cases hstage
    exact confirm_write hturn hwait hfail fun tables hexec => hgo _ _
      (.spare hlog hexec (spares_core trivial) (fun _ _ => rfl) ⟨_, rfl, hs⟩ rfl rfl rfl)
  | deleteOneTime table =>
    cases hstage
    cases table with
    | x25519 | mlkem768 =>
      exact confirm_write hturn hwait hfail fun tables hexec => hgo _ _
        (.spare hlog hexec (spares_core trivial) (fun _ _ => rfl) ⟨_, rfl, hs⟩ rfl rfl rfl)
  | selectVersion =>
    cases hstage
    have hmax := hs.maxVersion hc
    obtain ⟨user, hholds, hidentity, hpresent, -, -⟩ := hs
    simp only [rotateConfirm, hmax] at hturn
    split_ifs at hturn
    · exact hreads hturn (.goto w ⟨_, rfl, user, hholds, hidentity, hpresent, by simp, by simp⟩ (.inl rfl) rfl rfl hlog)
    · exact hfails hturn
  | takeEventId challenge newPq current version =>
    cases hstage
    obtain ⟨user, hholds, hidentity, hpresent, hversion, -⟩ := hs
    have hstep : Uncommitted i w
        ((w.take .events).goto i (.rotateConfirm r (.insertEvent challenge newPq current version w.nextEvent))) :=
      ⟨rfl, fun _ _ _ _ => Iff.rfl, Nat.le_succ w.nextEvent⟩
    have hok : StageOk w i (.rotated r.userId (challenge.identity newPq) (some version) (some w.nextEvent)) := by
      refine ⟨user, hholds, hidentity, hpresent, hversion, fun id hid => ?_⟩
      cases hid
      exact fun id' hid' => hlog.committedBelow hid'
    rw [advance, hturn]
    exact hgo _ _ { toUncommitted := hstep, procs := rfl, replies := rfl
                    stage := ⟨_, rfl, (hstep.sameLog hlog).stageOk (Nat.le_succ w.nextEvent) (fun _ hh => hh) hok⟩
                    checks := .inl rfl, consumes := .inl ⟨rfl, fun _ hh => hh⟩, updates := .inl rfl }
  | insertEvent challenge newPq current version id =>
    cases hstage
    obtain ⟨user, hholds, hidentity, hpresent, hversion, habove⟩ := hs
    refine confirm_write hturn hwait hfail fun tables hexec => hgo _ (.commit challenge newPq current version id) ?_
    have hstep := uncommitted_done hexec (.rotateConfirm r (.commit challenge newPq current version id))
    have hsame := hstep.sameLog hlog
    refine { toUncommitted := hstep, procs := rfl, replies := rfl, stage := ⟨_, rfl, user, ?_, hidentity, ?_, ?_, ?_, ?_⟩,
             checks := .inl rfl, consumes := .inl ⟨rfl, fun _ hh => done_challenges hexec (fun _ _ => rfl) hh⟩,
             updates := .inl rfl }
    · exact done_holds hexec hholds
    · exact hsame.present hpresent
    · rw [hsame.eventsOf]
      exact hversion version rfl
    · exact hsame.above (habove id rfl)
    · exact hlog.taken (i := i) (by rw [hp]; rfl)
  | commit =>
    cases hstage
    rw [advance, hturn]
    exact hcommit _ _ _ _ _ rfl hs

end Rotation

omit [DecidableEq ι] in
lemma World.empty_consistent : Consistent (empty : World ι) :=
  ⟨fun _ => ⟨fun _ => rfl, fun _ _ => .inl rfl⟩, nofun⟩

namespace Sample

/-- `rotate_init` from its first to its last step -/
def initiated {ι : Type} (i : ι) (challengeId deviceId : String) (key : UInt8) : List (Op ι) :=
  .start i (.rotateInit ⟨"alice", .replicate 32 key, .replicate 32 key, .replicate 1952 key, deviceId, challengeId, [], 0⟩) ::
    List.replicate 3 (.advance i)

/-- signed by the keys of `current` and `new` -/
def confirmation (challengeId : String) (current new : UInt8) : Request :=
  .rotateConfirm ⟨"alice", challengeId, .replicate 64 current, .replicate 64 new, .replicate 3309 current,
    .replicate 3309 new, 0, 0⟩

/-- `rotate_confirm` from its first to its last step -/
def confirmed {ι : Type} (i : ι) (challengeId : String) (current new : UInt8) : List (Op ι) :=
  .start i (confirmation challengeId current new) :: List.replicate 13 (.advance i)

end Sample

end PqMsg.Server
