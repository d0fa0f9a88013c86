/-
The tables of identities, devices and prekeys, and the statements that the handlers run on them (`migrations/postgres`,
`handlers/identity.rs`, `handlers/prekeys.rs`, `handlers/util.rs`, `reap_stale_data` in `handlers/ephemeral.rs`).

A statement runs at once, on what its transaction sees, as soon as no other transaction holds a row it writes. The unique
index of `identity_events` is a table of its own, so that inserting a version locks it. A row that refers to a user can only
be inserted while no other transaction has deleted that user, and a user is only deleted, with everything that refers to it,
when no other transaction has inserted such a row. Sequences are kept outside of the tables, since they are not rolled back.

Keys and signatures have the lengths that the decoders check. Columns that no modelled statement reads are left out
(`updated_at`, `revoked_at`, delivery tokens), as are the other tables that an account owns. Times are seconds.

- `exec_done`: when a statement runs, and what it does to the tables.
- `done_draft_none`, `done_draft_cases`, `settle_committed`: the rows it leaves, and those it writes.
-/
import PqMsg.Core.Bytes
import PqMsg.Lib.ReadCommitted

namespace PqMsg.Server

open Lib Option Store

/-! ## Tables -/

abbrev X25519Key := ByteArr 32
abbrev SigPubKey := ByteArr 32
abbrev PqSigPubKey := ByteArr 1952
abbrev Ed25519Sig := ByteArr 64
abbrev PqSig := ByteArr 3309

/-- `one_time_prekeys_x25519` and `one_time_prekeys_mlkem768` -/
inductive OneTimeTable where
  | x25519
  | mlkem768
deriving DecidableEq, Repr

/-- primary keys, and the unique index of `identity_events` -/
inductive Key where
  | user (userId : String)
  | device (userId deviceId : String)
  | event (id : ℕ)
  | version (userId : String) (version : ℕ)
  | challenge (challengeId : String)
  | prekey (userId deviceId : String)
  | oneTime (table : OneTimeTable) (id : ℕ)
deriving DecidableEq, Repr

structure UserRow where
  identityX25519Pub : X25519Key
  identitySigPub : SigPubKey
  identityPqSigPub : Option PqSigPubKey
  deviceId : String
  createdAt : ℕ
deriving DecidableEq

structure DeviceRow where
  active : Bool
  linkedAt : ℕ
deriving DecidableEq

inductive EventType where
  | initial
  | rotation
deriving DecidableEq

structure EventRow where
  userId : String
  version : ℕ
  identityX25519Pub : X25519Key
  identitySigPub : SigPubKey
  identityPqSigPub : Option PqSigPubKey
  deviceId : String
  eventType : EventType
  changedAt : ℕ
deriving DecidableEq

structure ChallengeRow where
  userId : String
  nonce : Bytes
  newIdentityX25519Pub : X25519Key
  newIdentitySigPub : SigPubKey
  newIdentityPqSigPub : Option PqSigPubKey
  newDeviceId : String
  createdAt : ℕ
  expiresAt : ℕ
  consumed : Bool
deriving DecidableEq

structure PrekeyRow where
  signedPrekeyX25519Pub : X25519Key
  sigOverSpk : Ed25519Sig
  pqSignedPrekeyPubMlkem768 : Bytes
  sigOverPqspk : Ed25519Sig
  pqSigOverSpk : Option PqSig
  pqSigOverPqspk : Option PqSig
deriving DecidableEq

structure OneTimeRow where
  userId : String
  deviceId : String
  prekey : Bytes
  consumed : Bool
deriving DecidableEq

abbrev Row : Key → Type
  | .user _ => UserRow
  | .device _ _ => DeviceRow
  | .event _ => EventRow
  | .version _ _ => ℕ
  | .challenge _ => ChallengeRow
  | .prekey _ _ => PrekeyRow
  | .oneTime _ _ => OneTimeRow

abbrev RowView := ∀ k, Option (Row k)

/-- the user that a row refers to with `ON DELETE CASCADE` (a user's own row included) -/
def Key.owner : (k : Key) → Row k → String
  | .user userId, _ => userId
  | .device userId _, _ => userId
  | .event _, row => row.userId
  | .version userId _, _ => userId
  | .challenge _, row => row.userId
  | .prekey userId _, _ => userId
  | .oneTime _ _, row => row.userId

/-! ## Statements -/

/-- `device_id = $2` or `device_id <> $2` -/
inductive Devices where
  | only (deviceId : String)
  | except (deviceId : String)
deriving DecidableEq

def Devices.has : Devices → String → Bool
  | .only deviceId, d => d = deviceId
  | .except deviceId, d => d ≠ deviceId

inductive Stmt where
  | insertUser (userId : String) (row : UserRow)
  /-- `SET identity_pq_sig_pub = $1 … WHERE user_id = $4 AND identity_pq_sig_pub IS NULL` -/
  | upgradePq (userId : String) (identityPqSigPub : PqSigPubKey)
  | rotateUser (userId : String) (identityX25519Pub : X25519Key) (identitySigPub : SigPubKey)
      (identityPqSigPub : PqSigPubKey) (deviceId : String)
  /-- `SET updated_at = $1`: takes the row lock -/
  | touchUser (userId : String)
  | movePrimary (userId replacementDeviceId retiredDeviceId : String)
  | deleteUser (userId : String)
  /-- `ON CONFLICT … DO UPDATE SET active = 1`, with `linked_at = EXCLUDED.linked_at` if `relink` -/
  | upsertDevice (userId deviceId : String) (linkedAt : ℕ) (relink : Bool)
  | retireDevice (userId deviceId : String)
  | retireDevices (userId : String)
  /-- with `ON CONFLICT (user_id, version) DO NOTHING` if `skip` -/
  | insertEvent (id : ℕ) (row : EventRow) (skip : Bool)
  | insertChallenge (challengeId : String) (row : ChallengeRow)
  | consumeChallenge (challengeId userId : String)
  | reapChallenges (cutoff : ℕ)
  | upsertPrekeys (userId deviceId : String) (row : PrekeyRow)
  | deletePrekeys (userId : String) (devices : Devices)
  | insertOneTime (table : OneTimeTable) (id : ℕ) (row : OneTimeRow)
  | deleteOneTime (table : OneTimeTable) (userId : String) (devices : Devices)
  /-- `SET consumed = 1 WHERE id = $1` -/
  | markConsumed (table : OneTimeTable) (id : ℕ)
  | reapOneTime (table : OneTimeTable)

section Writes

/-- an `UPDATE` of one row with its `WHERE` -/
def update {α : Type} (row : Option α) (cond : α → Bool) (f : α → α) : Option (Option α) :=
  (row.filter cond).map fun row => some (f row)

def delete {α : Type} (row : Option α) (cond : α → Bool) : Option (Option α) := (row.filter cond).map fun _ => none

def onUser (f : String → Option (Option UserRow)) : Writes Row
  | .user userId => f userId
  | _ => none

def onDevice (f : String → String → Option (Option DeviceRow)) : Writes Row
  | .device userId deviceId => f userId deviceId
  | _ => none

def onChallenge (f : String → Option (Option ChallengeRow)) : Writes Row
  | .challenge challengeId => f challengeId
  | _ => none

def onPrekey (f : String → String → Option (Option PrekeyRow)) : Writes Row
  | .prekey userId deviceId => f userId deviceId
  | _ => none

def onOneTime (table : OneTimeTable) (f : ℕ → Option (Option OneTimeRow)) : Writes Row
  | .oneTime t id => if t = table then f id else none
  | _ => none

/-- the row and its entry in the unique index -/
def onEvent (id : ℕ) (row : EventRow) : Writes Row
  | .event id' => if id' = id then some (some row) else none
  | .version userId version => if userId = row.userId ∧ version = row.version then some (some id) else none
  | _ => none

end Writes

/-- the rows that a statement writes, on what its transaction sees -/
def Stmt.writes (view : RowView) : Stmt → Writes Row
  | .insertUser userId row => onUser fun u => if u = userId then some (some row) else none
  | .upgradePq userId pq => onUser fun u => if u = userId then
      update (view (.user u)) (·.identityPqSigPub.isNone) ({ · with identityPqSigPub := some pq }) else none
  | .rotateUser userId x sig pq deviceId => onUser fun u => if u = userId then
      update (view (.user u)) (fun _ => true) ({ · with
        identityX25519Pub := x, identitySigPub := sig, identityPqSigPub := some pq, deviceId := deviceId }) else none
  | .touchUser userId => onUser fun u => if u = userId then update (view (.user u)) (fun _ => true) id else none
  | .movePrimary userId replacement retired => onUser fun u => if u = userId then
      update (view (.user u)) (·.deviceId = retired) ({ · with deviceId := replacement }) else none
  | .deleteUser userId => fun k => (view k).bind fun row => if k.owner row = userId then some none else none
  | .upsertDevice userId deviceId linkedAt relink => onDevice fun u d => if u = userId ∧ d = deviceId then
      match view (.device u d) with
      | some row => some (some { row with active := true, linkedAt := if relink then linkedAt else row.linkedAt })
      | none => some (some ⟨true, linkedAt⟩)
    else none
  | .retireDevice userId deviceId => onDevice fun u d => if u = userId ∧ d = deviceId then
      update (view (.device u d)) (·.active) ({ · with active := false }) else none
  | .retireDevices userId => onDevice fun u d => if u = userId then
      update (view (.device u d)) (fun _ => true) ({ · with active := false }) else none
  | .insertEvent id row skip =>
    if skip ∧ (view (.version row.userId row.version)).isSome then fun _ => none else onEvent id row
  | .insertChallenge challengeId row => onChallenge fun c => if c = challengeId then some (some row) else none
  | .consumeChallenge challengeId userId => onChallenge fun c => if c = challengeId then
      update (view (.challenge c)) (fun row => row.userId = userId ∧ row.consumed = false) ({ · with consumed := true })
      else none
  | .reapChallenges cutoff => onChallenge fun c => delete (view (.challenge c)) (·.createdAt < cutoff)
  | .upsertPrekeys userId deviceId row => onPrekey fun u d =>
      if u = userId ∧ d = deviceId then some (some row) else none
  | .deletePrekeys userId devices => onPrekey fun u d => if u = userId ∧ devices.has d then
      delete (view (.prekey u d)) (fun _ => true) else none
  | .insertOneTime table id row => onOneTime table fun n => if n = id then some (some row) else none
  | .deleteOneTime table userId devices => onOneTime table fun n =>
      delete (view (.oneTime table n)) fun row => row.userId = userId ∧ devices.has row.deviceId
  | .markConsumed table id => onOneTime table fun n => if n = id then
      update (view (.oneTime table n)) (fun _ => true) ({ · with consumed := true }) else none
  | .reapOneTime table => onOneTime table fun n => delete (view (.oneTime table n)) (·.consumed)

/-- the rows that a statement may add -/
def Stmt.new : Stmt → List Key
  | .insertUser userId _ => [.user userId]
  | .upsertDevice userId deviceId _ _ => [.device userId deviceId]
  | .insertEvent id row _ => [.event id, .version row.userId row.version]
  | .insertChallenge challengeId _ => [.challenge challengeId]
  | .upsertPrekeys userId deviceId _ => [.prekey userId deviceId]
  | .insertOneTime table id _ => [.oneTime table id]
  | _ => []

/-- the user that an inserted row refers to -/
def Stmt.parent : Stmt → Option String
  | .upsertDevice userId _ _ _ => some userId
  | .insertEvent _ row _ => some row.userId
  | .insertChallenge _ row => some row.userId
  | .upsertPrekeys userId _ _ => some userId
  | .insertOneTime _ _ row => some row.userId
  | _ => none

/-- a unique constraint fails -/
def Stmt.clashes (view : RowView) : Stmt → Bool
  | .insertUser userId _ => (view (.user userId)).isSome
  | .insertEvent _ row skip => !skip && (view (.version row.userId row.version)).isSome
  | .insertChallenge challengeId _ => (view (.challenge challengeId)).isSome
  | _ => false

/-! ## Running a statement -/

variable {ι : Type} [DecidableEq ι] {stmt : Stmt} {α : Type}

abbrev Tables (ι : Type) := Store ι Key Row

/-- the locks that foreign keys take: the referenced user is not deleted by another transaction, and no other transaction has
inserted or changed a row that refers to a user to be deleted -/
def Tables.referencesFree (s : Tables ι) (i : ι) : Stmt → Bool
  | .deleteUser userId => s.keys.all fun k =>
      match s.draft k with
      | some (j, some row) => j = i ∨ k.owner row ≠ userId
      | _ => true
  | stmt => stmt.parent.all fun userId =>
      match s.draft (.user userId) with
      | some (j, none) => j = i
      | _ => true

/-- a database without rows -/
def Tables.empty : Tables ι := ⟨[], fun _ => none, fun _ => none, fun _ _ => ⟨rfl, rfl⟩⟩

inductive Outcome (ι : Type) where
  | waits
  | uniqueViolation
  | foreignKeyViolation
  | done (tables : Tables ι)

def Tables.exec (s : Tables ι) (i : ι) (stmt : Stmt) : Outcome ι :=
  if ¬(s.Free i (stmt.writes (s.view i)) ∧ s.referencesFree i stmt) then .waits
  else if stmt.clashes (s.view i) then .uniqueViolation
  else if stmt.parent.any fun userId => (s.view i (.user userId)).isNone then .foreignKeyViolation
  else .done (s.write i stmt.new (stmt.writes (s.view i)))

lemma update_known {row : Option α} {cond : α → Bool} {f : α → α} {x : Option α} (h : update row cond f = some x) :
    row ≠ none := by
  intro hn
  rw [hn] at h
  cases h

lemma delete_known {row : Option α} {cond : α → Bool} {x : Option α} (h : delete row cond = some x) : row ≠ none := by
  intro hn
  rw [hn] at h
  cases h

/-- a statement writes rows that its transaction sees, and those that it adds -/
lemma Stmt.writes_known {view : RowView} {k : Key} {x : Option (Row k)} (h : stmt.writes view k = some x) :
    view k ≠ none ∨ k ∈ stmt.new := by
  cases stmt
  case deleteUser userId =>
    obtain ⟨row, hrow, -⟩ := bind_eq_some_iff.1 h
    exact .inl (by rw [hrow]; simp)
  case insertEvent id row skip =>
    simp only [Stmt.writes] at h
    split_ifs at h
    cases k <;> simp only [onEvent] at h <;> try cases h
    all_goals
      split_ifs at h with heq
      exact .inr (by simp [Stmt.new, heq])
  case insertOneTime table id row | deleteOneTime table userId devices | markConsumed table id | reapOneTime table =>
    cases k <;> simp only [Stmt.writes, onOneTime] at h <;> try cases h
    split_ifs at h with htable
    subst htable
    first
    | exact .inl (update_known h)
    | exact .inl (delete_known h)
    | exact .inr (by simp [Stmt.new, *])
  -- the other statements write rows of one table, those that they update or delete or the one that they insert
  all_goals
    cases k <;> simp only [Stmt.writes, onUser, onDevice, onChallenge, onPrekey] at h <;> try cases h
    try split_ifs at h with heq
    all_goals
      first
      | exact .inl (update_known h)
      | exact .inl (delete_known h)
      | exact .inr (by simp [Stmt.new, heq])

lemma exec_done {s s' : Tables ι} {i : ι} (h : s.exec i stmt = .done s') :
    s.Free i (stmt.writes (s.view i)) ∧ s.referencesFree i stmt ∧ stmt.clashes (s.view i) = false ∧
      (∀ u ∈ stmt.parent, s.view i (.user u) ≠ none) ∧ s' = s.write i stmt.new (stmt.writes (s.view i)) := by
  unfold Tables.exec at h
  split_ifs at h with hfree hclash hparent
  · refine ⟨hfree.1, hfree.2, by simpa using hclash, fun u hu hnone => hparent ?_, (Outcome.done.inj h).symm⟩
    rw [mem_def.1 hu, any_some, hnone]
    rfl

/-- a statement outside of a transaction commits at once -/
def Tables.settle (s : Tables ι) (i : ι) (atOnce : Bool) : Tables ι := if atOnce then s.commit i else s

section Done

variable {s s' : Tables ι} {i : ι} {stmt : Stmt} {k : Key} (h : s.exec i stmt = .done s') {atOnce : Bool}
include h

lemma done_committed : s'.committed = s.committed := by
  obtain ⟨-, -, -, -, rfl⟩ := exec_done h
  rfl

lemma done_draft_none (hw : stmt.writes (s.view i) k = none) : s'.draft k = s.draft k := by
  obtain ⟨-, -, -, -, rfl⟩ := exec_done h
  exact write_draft_none hw

lemma done_draft_cases (k : Key) :
    s'.draft k = s.draft k ∨ ∃ row, stmt.writes (s.view i) k = some row ∧ s'.draft k = some (i, row) := by
  obtain ⟨-, -, -, -, rfl⟩ := exec_done h
  exact write_draft_cases ..

/-- what the transaction sees after its statement -/
lemma done_view (k : Key) : s'.view i k = (stmt.writes (s.view i) k).getD (s.view i k) := by
  obtain ⟨-, -, -, -, rfl⟩ := exec_done h
  cases hw : stmt.writes (s.view i) k with
  | none => exact write_view_none hw
  | some =>
    refine write_view_some hw ?_
    rcases Stmt.writes_known hw with hview | hnew
    · obtain ⟨v, hv⟩ := ne_none_iff_exists'.1 hview
      exact .inl (mem_keys_of_view hv)
    · exact .inr hnew

omit h

lemma settle_draft {x : ι × Option (Row k)} (h : (s.settle i atOnce).draft k = some x) : s.draft k = some x := by
  cases atOnce with
  | false => exact h
  | true => exact (commit_draft.1 h).1

lemma settle_committed (h : ∀ row, s.draft k ≠ some (i, row)) : (s.settle i atOnce).committed k = s.committed k := by
  cases atOnce with
  | false => rfl
  | true => exact commit_committed_other h

/-- a statement adds to what its transaction holds -/
lemma done_holds {P : Key → Prop} {writes : Writes Row} (h : s.exec i stmt = .done s') (hholds : s.Holds i P writes) :
    s'.Holds i P fun k => (stmt.writes (s.view i) k).or (writes k) := by
  obtain ⟨-, -, -, -, rfl⟩ := exec_done h
  refine hholds.write fun k row _ hw => ?_
  rcases Stmt.writes_known hw with hview | hnew
  · obtain ⟨v, hv⟩ := ne_none_iff_exists'.1 hview
    exact .inl (mem_keys_of_view hv)
  · exact .inr hnew

/-- a statement leaves what other transactions hold -/
lemma done_draft_other (h : s.exec i stmt = .done s') {j : ι} (hj : j ≠ i) {row : Option (Row k)} :
    (s'.settle i atOnce).draft k = some (j, row) ↔ s.draft k = some (j, row) := by
  obtain ⟨hfree, -, -, -, rfl⟩ := exec_done h
  constructor
  · intro hd
    rcases write_draft_cases s i stmt.new (stmt.writes (s.view i)) k with heq | ⟨row', -, heq⟩
    · exact heq.symm.trans (settle_draft hd)
    · have := some.inj (heq.symm.trans (settle_draft hd))
      exact absurd (congrArg Prod.fst this).symm hj
  · intro hd
    have hwrite : (s.write i stmt.new (stmt.writes (s.view i))).draft k = some (j, row) := write_draft_other hfree hd hj
    cases atOnce with
    | false => exact hwrite
    | true => exact commit_draft.2 ⟨hwrite, hj⟩

end Done

end PqMsg.Server
