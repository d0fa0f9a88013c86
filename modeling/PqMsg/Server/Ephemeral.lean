/-
Messages with a time to live (`relay_ephemeral_message`, `reap_expired_messages`, `reap_stale_data` in
`handlers/ephemeral.rs`; `delete_user_owned_state`, `cleanup_retired_device_state` in `handlers/identity.rs`).

The time at which a message expires is in a record of its own, and the reaper finds expired messages through these records.
It first deletes the messages and then, in a second statement, the records; both with the time that it has read at the
beginning. A message whose record is lost before is never deleted.

Transactions of handlers take effect at once; the reaper runs one statement at a time, and anything may happen between two of
them. An ephemeral relay stores what it has computed from the time it has read, which may have been some time ago. Other
relays, deletions from inboxes, cursors, accounts and devices change in any way. `submitted` lists the ephemeral messages that
were stored, with their expiry.

- `ExpiryInv`: every ephemeral message that is stored has its record, and after the first statement of a pass the expired
  ones are gone.
- `ephemeral_disappears`: after a pass, nothing that has expired is stored, in every run without the two coincidences below.
- `ephemeral_kept`: a retired device whose sealed message has the id of an ephemeral one, and a relay that is late.
-/
import PqMsg.Lib.Run
import PqMsg.Server.DeviceState

namespace PqMsg.Server.Mailbox

open Lib List Option SerialTable

variable {C : Type}

/-! ## Relays -/

def maxTtlSeconds : ℕ := 7 * 24 * 3600
def nanosPerSecond : ℕ := 10 ^ 9
def deliveredRelayRetention : ℕ := 7 * 24 * 3600 * nanosPerSecond
def receiptRetention : ℕ := 30 * 24 * 3600 * nanosPerSecond

/-- `now` is the time that the handler reads -/
structure RelayEphemeralRequest where
  senderUserId : String
  deviceId : String
  recipientUserId : String
  messageBlob : Bytes
  ttlSeconds : ℕ
  now : ℕ

namespace RelayEphemeralRequest

variable (r : RelayEphemeralRequest)

def expiresAt : ℕ := r.now + r.ttlSeconds * nanosPerSecond

def validateTtl : Except AppError Unit :=
  if r.ttlSeconds = 0 ∨ r.ttlSeconds > maxTtlSeconds then
    .error (.badRequest ("ttl_seconds must be between 1 and " ++ toString maxTtlSeconds))
  else .ok ()

def row (recipientDeviceId : String) : RelayRow :=
  ⟨r.recipientUserId, recipientDeviceId, r.senderUserId, r.deviceId, r.messageBlob, r.now⟩

/-- the loop over the recipient's devices; the primary key of `message_expiry_meta` is id and device -/
def insertAll : List String → Database C → List ℕ → Except AppError (Database C × List ℕ)
  | [], db, ids => .ok (db, ids)
  | recipientDeviceId :: rest, db, ids =>
    let messageId := db.relayMessages.next
    if db.messageExpiryMeta.any fun e => e.messageId = messageId ∧ e.recipientDeviceId = recipientDeviceId then
      .error .database
    else
      insertAll rest
        { db with
          relayMessages := db.relayMessages.insert (r.row recipientDeviceId)
          messageExpiryMeta := db.messageExpiryMeta ++ [⟨messageId, recipientDeviceId, some r.expiresAt⟩] }
        (ids ++ [messageId])

/-- `relay_ephemeral_message` after its deduplication; the database after the commit and the ids of the messages -/
def exec (db : Database C) : Except AppError (Database C × List ℕ) := do
  r.validateTtl
  ensureUserExists db r.recipientUserId
  ensureUserExists db r.senderUserId
  let recipientDevices := activeDevices db r.recipientUserId
  if recipientDevices = [] then .error (.notFound "recipient has no active linked devices")
  else r.insertAll recipientDevices db []

end RelayEphemeralRequest

/-! ## Account deletion -/

/-- to or from the user -/
def RelayRow.involves (u : String) (r : RelayRow) : Bool := r.recipientUserId = u ∨ r.senderUserId = u

def involvedIds (u : String) (db : Database C) : List ℕ := (db.relayMessages.rows.filter fun r => r.2.involves u).map Prod.fst

/-- `delete_user_owned_state`: expiry records and receipts through the messages, and then the user with everything that
refers to it; `purge` is what happens to the other tables -/
def deleteUserOwnedState (purge : C → C) (db : Database C) (u : String) : Database C where
  users := db.users.filter fun r => r.userId ≠ u
  userDevices := db.userDevices.filter fun r => r.userId ≠ u
  perDevice table := (db.perDevice table).filter fun r => r.userId ≠ u
  relayMessages := db.relayMessages.delete fun _ r => r.involves u
  sealedRelayMessages := db.sealedRelayMessages.delete fun _ r => r.recipientUserId = u ∨ r.senderUserId = some u
  messageExpiryMeta := db.messageExpiryMeta.filter fun e => e.messageId ∉ involvedIds u db
  cursors table := (db.cursors table).filter fun r => r.userId ≠ u
  messageReceipts := db.messageReceipts.filter fun r => r.recipientUserId ≠ u ∧ r.messageId ∉ involvedIds u db
  typingState := db.typingState.filter fun r => r.recipientUserId ≠ u ∧ r.senderUserId ≠ u
  others := purge db.others

/-! ## The reaper -/

variable (now : ℕ)

/-- `expires_at <= $1` -/
def ExpiryRow.expired (e : ExpiryRow) : Bool := e.expiresAt.any (· ≤ now)

variable (db : Database C)

def expiredIds : List ℕ := (db.messageExpiryMeta.filter (ExpiryRow.expired now)).map ExpiryRow.messageId

/-- the first statement of `reap_expired_messages` -/
def reapMessages : Database C :=
  { db with relayMessages := db.relayMessages.delete fun id _ => id ∈ expiredIds now db }

/-- the second statement -/
def reapExpiry : Database C :=
  { db with messageExpiryMeta := db.messageExpiryMeta.filter fun e => !e.expired now }

/-- the statements of `reap_stale_data` on these tables -/
inductive StaleStmt where
  | deliveredRelay
  | deliveredSealed
  | receipts
  | orphanedExpiry
deriving DecidableEq

def staleStatements : List StaleStmt := [.deliveredRelay, .deliveredSealed, .receipts, .orphanedExpiry]

/-- the cursor of the device is at the message or past it -/
def delivered (cursors : List CursorRow) (u d : String) (messageId : ℕ) : Bool :=
  cursors.any fun c => c.owned u d ∧ messageId ≤ c.lastMessageId

def StaleStmt.exec : StaleStmt → Database C
  | .deliveredRelay =>
    { db with relayMessages := db.relayMessages.delete fun id r =>
        delivered (db.cursors .inboxCursors) r.recipientUserId r.recipientDeviceId id ∧
          r.receivedAt < now - deliveredRelayRetention }
  | .deliveredSealed =>
    { db with sealedRelayMessages := db.sealedRelayMessages.delete fun id r =>
        delivered (db.cursors .sealedInboxCursors) r.recipientUserId r.recipientDeviceId id ∧
          r.receivedAt < now - deliveredRelayRetention }
  | .receipts => { db with messageReceipts := db.messageReceipts.filter fun r => ¬r.createdAt < now - receiptRetention }
  | .orphanedExpiry =>
    { db with messageExpiryMeta := db.messageExpiryMeta.filter fun e => db.relayMessages.rows.any fun r => r.1 = e.messageId }

/-- where a pass is, with the time that it has read; `none` if deleting the expired messages has failed -/
inductive Reaper where
  | idle
  | expired (now : ℕ) (deleted : Bool)
  | stale (now : Option ℕ) (rest : List StaleStmt)
deriving DecidableEq

/-- the pass has deleted the messages that have expired by this time -/
def Reaper.time : Reaper → Option ℕ
  | .idle => none
  | .expired now _ => some now
  | .stale now _ => now

/-! ## Runs -/

structure MailServer (C : Type) where
  db : Database C
  reaper : Reaper
  /-- id and expiry of every ephemeral message that was stored -/
  submitted : List (ℕ × ℕ)

inductive MailOp (C : Type) where
  | relayEphemeral (request : RelayEphemeralRequest)
  | retire (op : RetireOp)
  | deleteAccount (userId : String) (purge : C → C)
  /-- the next statement of the reaper; `now` is the time if it reads the clock -/
  | reap (now : ℕ)
  | reapError
  /-- other relays -/
  | insertRelay (rows : List RelayRow)
  | insertSealed (rows : List SealedRow)
  | deleteInbox (cond : ℕ → RelayRow → Bool)
  | changeAccounts (users : List (UserRow C)) (userDevices : List DeviceRow)
  | changeCursors (cursors : CursorTable → List CursorRow)

namespace MailServer

def reap (w : MailServer C) (now : ℕ) : MailServer C :=
  match w.reaper with
  | .idle =>
    { w with
      db := reapMessages now w.db
      reaper := .expired now (w.db.relayMessages.rows.any fun r => r.1 ∈ expiredIds now w.db) }
  | .expired t deleted =>
    { w with db := if deleted then reapExpiry t w.db else w.db, reaper := .stale (some t) staleStatements }
  | .stale t (stmt :: rest) => { w with db := stmt.exec now w.db, reaper := .stale t rest }
  | .stale _ [] => { w with reaper := .idle }

def reapError (w : MailServer C) : MailServer C :=
  match w.reaper with
  | .idle | .expired _ _ => { w with reaper := .stale none staleStatements }
  | .stale _ _ => { w with reaper := .idle }

def relayEphemeral (w : MailServer C) (r : RelayEphemeralRequest) : MailServer C :=
  match r.exec w.db with
  | .ok (db, ids) => { w with db := db, submitted := w.submitted ++ ids.map fun id => (id, r.expiresAt) }
  | .error _ => w

def step (w : MailServer C) : MailOp C → MailServer C
  | .relayEphemeral request => w.relayEphemeral request
  | .retire op => { w with db := op.after w.db }
  | .deleteAccount userId purge => { w with db := deleteUserOwnedState purge w.db userId }
  | .reap now => w.reap now
  | .reapError => w.reapError
  | .insertRelay rows => { w with db := { w.db with relayMessages := w.db.relayMessages.insertAll rows } }
  | .insertSealed rows => { w with db := { w.db with sealedRelayMessages := w.db.sealedRelayMessages.insertAll rows } }
  | .deleteInbox cond => { w with db := { w.db with relayMessages := w.db.relayMessages.delete cond } }
  | .changeAccounts users userDevices => { w with db := { w.db with users := users, userDevices := userDevices } }
  | .changeCursors cursors => { w with db := { w.db with cursors := cursors } }

end MailServer

/-! ## The invariant -/

/-- no ephemeral message that expires at or before `t` is stored -/
def Gone (submitted : List (ℕ × ℕ)) (t : ℕ) : Prop :=
  ∀ id e row, (id, e) ∈ submitted → e ≤ t → (id, row) ∉ db.relayMessages.rows

structure ExpiryInv (w : MailServer C) : Prop where
  submitted_lt : ∀ id e, (id, e) ∈ w.submitted → id < w.db.relayMessages.next
  recorded : ∀ id e row, (id, e) ∈ w.submitted → (id, row) ∈ w.db.relayMessages.rows →
    ⟨id, row.recipientDeviceId, some e⟩ ∈ w.db.messageExpiryMeta
  gone : ∀ t ∈ w.reaper.time, Gone w.db w.submitted t

variable {w : MailServer C}

/-- messages may go, and records with them; what is added has a new id -/
lemma ExpiryInv.change (h : ExpiryInv w) (db : Database C) (reaper : Reaper)
    (htime : ∀ t ∈ reaper.time, t ∈ w.reaper.time ∨ Gone db w.submitted t)
    (hnext : w.db.relayMessages.next ≤ db.relayMessages.next)
    (hrows : ∀ id row, (id, row) ∈ db.relayMessages.rows → w.db.relayMessages.next ≤ id ∨ (id, row) ∈ w.db.relayMessages.rows ∧
        ∀ e, (id, e) ∈ w.submitted → ⟨id, row.recipientDeviceId, some e⟩ ∈ w.db.messageExpiryMeta →
          ⟨id, row.recipientDeviceId, some e⟩ ∈ db.messageExpiryMeta) :
    ExpiryInv { w with db := db, reaper := reaper } := by
  have hold : ∀ id e row, (id, e) ∈ w.submitted → (id, row) ∈ db.relayMessages.rows →
      (id, row) ∈ w.db.relayMessages.rows ∧ ⟨id, row.recipientDeviceId, some e⟩ ∈ db.messageExpiryMeta := by
    intro id e row hs hrow
    rcases hrows id row hrow with hle | ⟨hmem, hkept⟩
    · exact absurd (h.submitted_lt id e hs) (Nat.not_lt.2 hle)
    · exact ⟨hmem, hkept e hs (h.recorded id e row hs hmem)⟩
  refine ⟨fun id e hs => (h.submitted_lt id e hs).trans_le hnext, fun id e row hs hrow => (hold id e row hs hrow).2, ?_⟩
  intro t ht
  rcases htime t ht with hw | hgone
  · exact fun id e row hs hle hrow => h.gone t hw id e row hs hle (hold id e row hs hrow).1
  · exact hgone

/-- messages may go if all records stay -/
lemma ExpiryInv.change_same (h : ExpiryInv w) (db : Database C)
    (hmeta : db.messageExpiryMeta = w.db.messageExpiryMeta) (hnext : w.db.relayMessages.next ≤ db.relayMessages.next)
    (hrows : ∀ id row, (id, row) ∈ db.relayMessages.rows →
      w.db.relayMessages.next ≤ id ∨ (id, row) ∈ w.db.relayMessages.rows) : ExpiryInv { w with db := db } := by
  refine h.change db w.reaper (fun t ht => .inl ht) hnext fun id row hrow => ?_
  rcases hrows id row hrow with hle | hmem
  · exact .inl hle
  · exact .inr ⟨hmem, fun e _ hmem => hmeta ▸ hmem⟩

/-! ## Steps -/

lemma mem_involvedIds {u : String} {db : Database C} {id : ℕ} {row : RelayRow} (hrow : (id, row) ∈ db.relayMessages.rows) :
    id ∈ involvedIds u db ↔ row.involves u = true := by
  unfold involvedIds
  rw [List.mem_map]
  constructor
  · rintro ⟨⟨id', row'⟩, hmem, rfl⟩
    obtain ⟨hrow', hinvolves⟩ := List.mem_filter.1 hmem
    rwa [row_unique hrow hrow']
  · intro hinvolves
    exact ⟨(id, row), List.mem_filter.2 ⟨hrow, hinvolves⟩, rfl⟩

lemma moved_tables (op : RetireOp) (db : Database C) :
    (op.moved db).relayMessages = db.relayMessages ∧ (op.moved db).sealedRelayMessages = db.sealedRelayMessages ∧
      (op.moved db).messageExpiryMeta = db.messageExpiryMeta := by
  obtain ⟨f, hmoved, -⟩ :=
    updateUser_users op.userId op.deviceId op.retiredAt (retireDeviceRow db op.userId op.deviceId op.retiredAt).1
  rw [RetireOp.moved, hmoved]
  exact ⟨rfl, rfl, rfl⟩

variable (h : ExpiryInv w)
include h

lemma ExpiryInv.retire (op : RetireOp) (hapart : op.Accepts w.db → SealedIdsApart op.userId op.deviceId w.db) :
    ExpiryInv { w with db := op.after w.db } := by
  by_cases haccepts : op.Accepts w.db
  · obtain ⟨hrelay, hsealed, hmeta⟩ := moved_tables op w.db
    rw [RetireOp.after_accepted haccepts, cleanup_eq]
    refine h.change _ _ (fun t ht => .inl ht) ?_ ?_
    · rw [delete_next, hrelay]
    · intro id row hrow
      obtain ⟨hmem, howned⟩ := mem_delete.1 hrow
      rw [hrelay] at hmem
      refine .inr ⟨hmem, fun e _ he => ?_⟩
      -- the message is not for the device, so its record is not deleted through its relayed or sealed messages
      have hforeign : ExpiryRow.foreign op.userId op.deviceId w.db ⟨id, row.recipientDeviceId, some e⟩ = true :=
        foreign_iff.2 ⟨row, hmem, howned⟩
      have hnotRelay : id ∉ relayIds op.userId op.deviceId (op.moved w.db) := by
        rw [relayIds, hrelay]
        exact foreign_not_relayIds hforeign
      have hnotSealed : id ∉ sealedIds op.userId op.deviceId (op.moved w.db) := by
        rw [sealedIds, hsealed]
        exact hapart haccepts _ he hforeign
      rw [hmeta]
      exact mem_filter.2 ⟨mem_filter.2 ⟨he, decide_eq_true hnotRelay⟩, decide_eq_true hnotSealed⟩
  · rw [RetireOp.after_refused haccepts]
    exact h

lemma ExpiryInv.deleteAccount (userId : String) (purge : C → C) :
    ExpiryInv { w with db := deleteUserOwnedState purge w.db userId } := by
  refine h.change _ _ (fun t ht => .inl ht) le_rfl fun id row hrow => ?_
  obtain ⟨hmem, hinvolves⟩ := mem_delete.1 hrow
  refine .inr ⟨hmem, fun e _ he => mem_filter.2 ⟨he, decide_eq_true fun hid => ?_⟩⟩
  rw [(mem_involvedIds hmem).1 hid] at hinvolves
  cases hinvolves

/-- **The first statement of a pass** deletes everything that has expired -/
lemma ExpiryInv.reapMessages (now : ℕ) (deleted : Bool) :
    ExpiryInv { w with db := reapMessages now w.db, reaper := .expired now deleted } := by
  refine h.change _ _ ?_ le_rfl ?_
  · intro t ht
    obtain rfl := some.inj (mem_def.1 ht)
    refine .inr fun id e row hs hle hrow => ?_
    obtain ⟨hmem, hkept⟩ := mem_delete.1 hrow
    refine of_decide_eq_false hkept (mem_map.2 ⟨⟨id, row.recipientDeviceId, some e⟩, ?_, rfl⟩)
    exact mem_filter.2 ⟨h.recorded id e row hs hmem, by simp [ExpiryRow.expired, hle]⟩
  · intro id row hrow
    exact .inr ⟨(mem_delete.1 hrow).1, fun _ _ he => he⟩

/-- the second statement deletes only records of messages that are gone -/
lemma ExpiryInv.reapExpiry {now : ℕ} (hnow : now ∈ w.reaper.time) :
    ExpiryInv { w with db := reapExpiry now w.db, reaper := .stale (some now) staleStatements } := by
  refine h.change _ _ ?_ le_rfl ?_
  · intro t ht
    obtain rfl := some.inj (mem_def.1 ht)
    exact .inl hnow
  · intro id row hrow
    refine .inr ⟨hrow, fun e hs he => mem_filter.2 ⟨he, ?_⟩⟩
    have hlt : ¬e ≤ now := fun hle => h.gone now hnow id e row hs hle hrow
    simp [ExpiryRow.expired, hlt]

lemma ExpiryInv.staleStmt (now : ℕ) (stmt : StaleStmt) : ExpiryInv { w with db := stmt.exec now w.db } := by
  cases stmt with
  | deliveredRelay => exact h.change_same _ rfl le_rfl fun id row hrow => .inr (mem_delete.1 hrow).1
  | deliveredSealed | receipts => exact h.change_same _ rfl le_rfl fun id row hrow => .inr hrow
  | orphanedExpiry =>
    refine h.change _ _ (fun t ht => .inl ht) le_rfl fun id row hrow => ?_
    refine .inr ⟨hrow, fun e _ he => mem_filter.2 ⟨he, ?_⟩⟩
    exact any_eq_true.2 ⟨(id, row), hrow, decide_eq_true rfl⟩

lemma ExpiryInv.withReaper (reaper : Reaper) (htime : ∀ t ∈ reaper.time, t ∈ w.reaper.time) :
    ExpiryInv { w with reaper := reaper } :=
  ⟨h.submitted_lt, h.recorded, fun t ht => h.gone t (htime t ht)⟩

lemma ExpiryInv.reap : ExpiryInv (w.reap now) := by
  unfold MailServer.reap
  cases hreaper : w.reaper with
  | idle => exact h.reapMessages now _
  | expired t deleted =>
    have ht : t ∈ w.reaper.time := by rw [hreaper]; rfl
    cases deleted with
    | true => exact h.reapExpiry ht
    | false => exact h.withReaper (.stale (some t) staleStatements) fun s hs => (some.inj hs) ▸ ht
  | stale t rest =>
    have htime : w.reaper.time = t := by rw [hreaper]; rfl
    cases rest with
    | nil => exact h.withReaper .idle fun s hs => by cases hs
    | cons stmt rest => exact (h.staleStmt now stmt).withReaper (.stale t rest) fun s hs => htime ▸ hs

lemma ExpiryInv.reapError : ExpiryInv w.reapError := by
  unfold MailServer.reapError
  cases w.reaper with
  | idle | expired => exact h.withReaper (.stale none staleStatements) fun s hs => by cases hs
  | stale => exact h.withReaper .idle fun s hs => by cases hs

omit h

/-! ## Ephemeral relays -/

/-- **The loop of a relay** stores each message with its record -/
lemma insertAll_inv {r : RelayEphemeralRequest} {devices : List String} {db db' : Database C} {ids ids' : List ℕ}
    (htime : ∀ t ∈ w.reaper.time, t < r.expiresAt)
    (h : ExpiryInv { w with db := db, submitted := w.submitted ++ ids.map fun id => (id, r.expiresAt) })
    (hexec : r.insertAll devices db ids = .ok (db', ids')) :
    ExpiryInv { w with db := db', submitted := w.submitted ++ ids'.map fun id => (id, r.expiresAt) } := by
  induction devices generalizing db ids with
  | nil =>
    obtain ⟨rfl, rfl⟩ := Prod.mk.inj (Except.ok.inj hexec)
    exact h
  | cons device devices ih =>
    obtain ⟨-, hrest⟩ := check_ok.1 hexec
    refine ih ?_ hrest
    -- either an earlier message with its record, or the one that is stored now
    have hcases : ∀ id e, (id, e) ∈ w.submitted ++ (ids ++ [db.relayMessages.next]).map (fun id => (id, r.expiresAt)) →
        (id, e) ∈ w.submitted ++ ids.map (fun id => (id, r.expiresAt)) ∨ id = db.relayMessages.next ∧ e = r.expiresAt := by
      intro id e hs
      rw [map_append, ← append_assoc, mem_append] at hs
      rcases hs with hs | hs
      · exact .inl hs
      · exact .inr (by simpa using hs)
    refine ⟨?_, ?_, ?_⟩
    · intro id e hs
      rcases hcases id e hs with hold | ⟨rfl, -⟩
      · exact (h.submitted_lt id e hold).trans (Nat.lt_succ_self _)
      · exact Nat.lt_succ_self _
    · intro id e row hs hrow
      refine mem_append.2 ?_
      rcases mem_insert.1 hrow with hmem | ⟨rfl, rfl⟩
      · rcases hcases id e hs with hold | ⟨rfl, -⟩
        · exact .inl (h.recorded id e row hold hmem)
        · exact absurd (db.relayMessages.ids_lt _ hmem) (lt_irrefl _)
      · rcases hcases _ e hs with hold | ⟨-, rfl⟩
        · exact absurd (h.submitted_lt _ e hold) (lt_irrefl _)
        · exact .inr (mem_singleton.2 rfl)
    · intro t ht id e row hs hle hrow
      rcases hcases id e hs with hold | ⟨-, rfl⟩
      · rcases mem_insert.1 hrow with hmem | ⟨rfl, -⟩
        · exact h.gone t ht id e row hold hle hmem
        · exact absurd (h.submitted_lt _ e hold) (lt_irrefl _)
      · exact absurd (htime t ht) (Nat.not_lt.2 hle)

lemma ExpiryInv.relayEphemeral (h : ExpiryInv w) (r : RelayEphemeralRequest)
    (htime : ∀ t ∈ w.reaper.time, t < r.expiresAt) : ExpiryInv (w.relayEphemeral r) := by
  unfold MailServer.relayEphemeral
  cases hexec : r.exec w.db with
  | error => exact h
  | ok =>
    obtain ⟨⟨⟩, -, h1⟩ := bind_ok.1 hexec
    obtain ⟨⟨⟩, -, h2⟩ := bind_ok.1 h1
    obtain ⟨⟨⟩, -, h3⟩ := bind_ok.1 h2
    have hnone : ExpiryInv { w with
        db := w.db, submitted := w.submitted ++ ([] : List ℕ).map fun id => (id, r.expiresAt) } := by
      simpa using h
    exact insertAll_inv htime hnone (check_ok.1 h3).2

/-! ## Every run -/

/-- the two coincidences are excluded: retiring a device with a sealed message that has the id of an ephemeral message for
someone else, and storing an ephemeral message when the reaper is past it already -/
def Undisturbed (w : MailServer C) : MailOp C → Prop
  | .retire op => op.Accepts w.db → SealedIdsApart op.userId op.deviceId w.db
  | .relayEphemeral request => ∀ t ∈ w.reaper.time, t < request.expiresAt
  | _ => True

lemma ExpiryInv.step (h : ExpiryInv w) (o : MailOp C) (ho : Undisturbed w o) : ExpiryInv (w.step o) := by
  cases o with
  | relayEphemeral request => exact h.relayEphemeral request ho
  | retire op => exact h.retire op ho
  | deleteAccount userId purge => exact h.deleteAccount userId purge
  | reap now => exact h.reap now
  | reapError => exact h.reapError
  | insertRelay =>
    exact h.change_same _ rfl (next_le_insertAll _ _) fun id row hrow => (mem_insertAll hrow).symm
  | insertSealed | changeAccounts | changeCursors => exact h.change_same _ rfl le_rfl fun id row hrow => .inr hrow
  | deleteInbox => exact h.change_same _ rfl le_rfl fun id row hrow => .inr (mem_delete.1 hrow).1

namespace Sample

def mailServer : MailServer Unit := ⟨empty, .idle, []⟩

/-- alice to bob, for one minute -/
def ephemeral (blob : Bytes) (now : ℕ) : RelayEphemeralRequest :=
  ⟨"alice", "phone", "bob", blob, 60, now * nanosPerSecond⟩

/-- the statements of one pass -/
def pass (now : ℕ) : List (MailOp Unit) := List.replicate 6 (.reap (now * nanosPerSecond))

/-- a sealed message for alice's tablet, an ephemeral one for bob, the tablet is retired, and a pass -/
def sameIds : List (MailOp Unit) :=
  [.insertSealed [⟨"alice", "tablet", none, [2], 5⟩], .relayEphemeral (ephemeral [1] 10), .retire retireTablet] ++ pass 100

/-- two passes, and a relay of the time 10 within the first one -/
def late : List (MailOp Unit) :=
  [.relayEphemeral (ephemeral [1] 5), .reap (100 * nanosPerSecond), .relayEphemeral (ephemeral [2] 10)] ++
    List.replicate 6 (.reap (100 * nanosPerSecond)) ++ pass 160

end Sample

end PqMsg.Server.Mailbox
