/-
Retiring a device (`revoke_device`, `retire_current_device`, `update_user_primary_device_after_retire`,
`cleanup_retired_device_state` in `handlers/identity.rs`).

The transaction marks the device as inactive, moves the primary device of the user if it was this one, and deletes what
belongs to the device, table by table. Expiry records of messages have no column for the recipient: they are found through
the ids of the messages, and the ids of `relay_messages` and of `sealed_relay_messages` come from two sequences. Only
messages in `relay_messages` ever get an expiry record, so the statement that goes through the sealed messages of the device
deletes records of other messages that happen to have the same ids.

A row belongs to the device that it is for: its recipient for messages and receipts, the sender for `typing_state`. `C` is the
type of the columns that no statement here reads, and of the tables that none names. Requests have passed their checks of
form and their authentication; times are nanoseconds.

- `cleanup_eq`: what the list of delete statements does to the whole database.
- `device_scoped`: retiring a device leaves everything that belongs to others exactly when no sealed message of the device
  shares its id with the expiry record of a message to someone else.
- `device_scoped_expiry_lost`: a database in which another user's message loses its expiry record.
-/
import PqMsg.Lib.SerialTable
import PqMsg.Server.Validation

namespace PqMsg.Server.Mailbox

open Lib Function List

/-! ## Tables -/

structure UserRow (C : Type) where
  userId : String
  deviceId : String
  updatedAt : ℕ
  columns : C
deriving DecidableEq

open Mailbox.UserRow

structure DeviceRow where
  userId : String
  deviceId : String
  active : Bool
  linkedAt : ℕ
  revokedAt : Option ℕ
deriving DecidableEq

/-- a row of a table that is keyed by user and device -/
structure ScopedRow (C : Type) where
  userId : String
  deviceId : String
  columns : C
deriving DecidableEq

inductive ScopedTable where
  | prekeys
  | oneTimePrekeysX25519
  | oneTimePrekeysMlkem768
  | pushTokens
  | presenceState
deriving DecidableEq

structure RelayRow where
  recipientUserId : String
  recipientDeviceId : String
  senderUserId : String
  deviceId : String
  messageBlob : Bytes
  receivedAt : ℕ
deriving DecidableEq

structure SealedRow where
  recipientUserId : String
  recipientDeviceId : String
  senderUserId : Option String
  messageBlob : Bytes
  receivedAt : ℕ
deriving DecidableEq

structure ExpiryRow where
  messageId : ℕ
  recipientDeviceId : String
  expiresAt : Option ℕ
deriving DecidableEq

structure CursorRow where
  userId : String
  deviceId : String
  lastMessageId : ℕ
deriving DecidableEq

inductive CursorTable where
  | inboxCursors
  | sealedInboxCursors
deriving DecidableEq

structure ReceiptRow (C : Type) where
  messageId : ℕ
  recipientUserId : String
  recipientDeviceId : String
  createdAt : ℕ
  columns : C
deriving DecidableEq

structure TypingRow (C : Type) where
  recipientUserId : String
  senderUserId : String
  senderDeviceId : String
  columns : C
deriving DecidableEq

structure Database (C : Type) where
  users : List (UserRow C)
  userDevices : List DeviceRow
  perDevice : ScopedTable → List (ScopedRow C)
  relayMessages : SerialTable RelayRow
  sealedRelayMessages : SerialTable SealedRow
  messageExpiryMeta : List ExpiryRow
  cursors : CursorTable → List CursorRow
  messageReceipts : List (ReceiptRow C)
  typingState : List (TypingRow C)
  /-- the tables that no statement names -/
  others : C

variable {C : Type} {u d : String} {db : Database C} {e : ExpiryRow} {α : Type}

/-! ## Whose a row is -/

section Owned

variable (u d : String)

def DeviceRow.owned (r : DeviceRow) : Bool := r.userId = u ∧ r.deviceId = d
def ScopedRow.owned (r : ScopedRow C) : Bool := r.userId = u ∧ r.deviceId = d
def RelayRow.owned (r : RelayRow) : Bool := r.recipientUserId = u ∧ r.recipientDeviceId = d
def SealedRow.owned (r : SealedRow) : Bool := r.recipientUserId = u ∧ r.recipientDeviceId = d
def CursorRow.owned (r : CursorRow) : Bool := r.userId = u ∧ r.deviceId = d
def ReceiptRow.owned (r : ReceiptRow C) : Bool := r.recipientUserId = u ∧ r.recipientDeviceId = d
def TypingRow.owned (r : TypingRow C) : Bool := r.senderUserId = u ∧ r.senderDeviceId = d

/-- `SELECT message_id FROM relay_messages WHERE recipient_user_id = $1 AND recipient_device_id = $2` -/
def relayIds (db : Database C) : List ℕ := (db.relayMessages.rows.filter fun r => r.2.owned u d).map Prod.fst

def sealedIds (db : Database C) : List ℕ := (db.sealedRelayMessages.rows.filter fun r => r.2.owned u d).map Prod.fst

/-- the record belongs to a message for someone else -/
def ExpiryRow.foreign (db : Database C) (e : ExpiryRow) : Bool :=
  db.relayMessages.rows.any fun r => r.1 = e.messageId ∧ !r.2.owned u d

end Owned

/-! ## The transaction -/

/-- `cleanup_retired_device_state`: the tables it deletes from; expiry records through relayed and sealed messages -/
inductive CleanupStmt where
  | perDevice (table : ScopedTable)
  | relayExpiry
  | sealedExpiry
  | relayMessages
  | sealedRelayMessages
  | cursors (table : CursorTable)
  | messageReceipts
  | typingState

def cleanupStatements : List CleanupStmt :=
  [.perDevice .prekeys, .perDevice .oneTimePrekeysX25519, .perDevice .oneTimePrekeysMlkem768, .relayExpiry, .sealedExpiry,
    .relayMessages, .sealedRelayMessages, .perDevice .pushTokens, .cursors .inboxCursors, .cursors .sealedInboxCursors,
    .messageReceipts, .perDevice .presenceState, .typingState]

def CleanupStmt.exec (u d : String) (db : Database C) : CleanupStmt → Database C
  | .perDevice table =>
    { db with perDevice := Function.update db.perDevice table ((db.perDevice table).filter fun r => !r.owned u d) }
  | .relayExpiry =>
    { db with messageExpiryMeta := db.messageExpiryMeta.filter fun e => e.messageId ∉ relayIds u d db }
  | .sealedExpiry =>
    { db with messageExpiryMeta := db.messageExpiryMeta.filter fun e => e.messageId ∉ sealedIds u d db }
  | .relayMessages => { db with relayMessages := db.relayMessages.delete fun _ r => r.owned u d }
  | .sealedRelayMessages => { db with sealedRelayMessages := db.sealedRelayMessages.delete fun _ r => r.owned u d }
  | .cursors table =>
    { db with cursors := Function.update db.cursors table ((db.cursors table).filter fun r => !r.owned u d) }
  | .messageReceipts => { db with messageReceipts := db.messageReceipts.filter fun r => !r.owned u d }
  | .typingState => { db with typingState := db.typingState.filter fun r => !r.owned u d }

def cleanupRetiredDeviceState (db : Database C) (u d : String) : Database C :=
  cleanupStatements.foldl (CleanupStmt.exec u d) db

/-- `retire_device_row`, with the number of rows affected -/
def retireDeviceRow (db : Database C) (u d : String) (retiredAt : ℕ) : Database C × ℕ :=
  ({ db with userDevices := db.userDevices.map fun r =>
      if r.owned u d ∧ r.active then { r with active := false, revokedAt := some retiredAt } else r },
    db.userDevices.countP fun r => r.owned u d ∧ r.active)

/-- `WHERE user_id = $1 AND active = 1 ORDER BY linked_at ASC, device_id ASC` -/
def activeDevices (db : Database C) (u : String) : List String :=
  ((db.userDevices.filter fun r => r.userId = u ∧ r.active).insertionSort fun a b =>
    a.linkedAt < b.linkedAt ∨ a.linkedAt = b.linkedAt ∧ a.deviceId ≤ b.deviceId).map DeviceRow.deviceId

/-- `UPDATE users SET updated_at = $1 WHERE user_id = $2` -/
def UserRow.touch (u : String) (retiredAt : ℕ) (r : UserRow C) : UserRow C :=
  if r.userId = u then { r with updatedAt := retiredAt } else r

/-- `UPDATE users SET device_id = $1 WHERE user_id = $2 AND device_id = $3` -/
def UserRow.movePrimary (u replacement retired : String) (r : UserRow C) : UserRow C :=
  if r.userId = u ∧ r.deviceId = retired then { r with deviceId := replacement } else r

def updateUserPrimaryDeviceAfterRetire (db : Database C) (u d : String) (retiredAt : ℕ) : Database C × ℕ :=
  let remaining := activeDevices db u
  let touched := db.users.map (UserRow.touch u retiredAt)
  let users :=
    match remaining.head? with
    | some replacement => touched.map (UserRow.movePrimary u replacement d)
    | none => touched
  ({ db with users := users }, remaining.length)

inductive RetireKind where
  | revoke
  | current
deriving DecidableEq

/-- the device to be retired, by another device or by itself, at a time -/
structure RetireOp where
  kind : RetireKind
  userId : String
  deviceId : String
  retiredAt : ℕ

/-- `ensure_user_exists` -/
def ensureUserExists (db : Database C) (u : String) : Except AppError Unit :=
  if db.users.any fun r => r.userId = u then .ok () else .error (.notFound ("user '" ++ u ++ "' not found"))

namespace RetireOp

variable (op : RetireOp) (db : Database C)

/-- `revoke_device` looks at the target before it begins its transaction -/
def checkTarget : Except AppError Unit :=
  match op.kind with
  | .current => .ok ()
  | .revoke =>
    match db.userDevices.find? fun r => r.owned op.userId op.deviceId with
    | none => .error (.notFound "target device not found")
    | some target => if target.active then .ok () else .error (.conflict "target device is already revoked")

def alreadyRevoked : AppError :=
  match op.kind with
  | .revoke => .conflict "target device is already revoked"
  | .current => .conflict "current device is already revoked"

/-- the database after the commit, with the number of active devices that remain -/
def exec : Except AppError (Database C × ℕ) := do
  ensureUserExists db op.userId
  op.checkTarget db
  let (retired, updated) := retireDeviceRow db op.userId op.deviceId op.retiredAt
  if updated ≠ 1 then .error op.alreadyRevoked
  else
    let (moved, remaining) := updateUserPrimaryDeviceAfterRetire retired op.userId op.deviceId op.retiredAt
    .ok (cleanupRetiredDeviceState moved op.userId op.deviceId, remaining)

/-- the database after the request; a transaction that is not committed leaves nothing -/
def after : Database C :=
  match op.exec db with
  | .ok (db', _) => db'
  | .error _ => db

/-- the user exists and the device is an active one -/
def Accepts : Prop :=
  (∃ r ∈ db.users, r.userId = op.userId) ∧
  (op.kind = .revoke → ∃ r ∈ db.userDevices.find? fun r => r.owned op.userId op.deviceId, r.active = true) ∧
  (db.userDevices.countP fun r => r.owned op.userId op.deviceId ∧ r.active) = 1

end RetireOp

/-! ## What is left -/

/-- every row of every table that belongs to another user or another device is as it was; of the user's own row, the primary
device and the update time may differ -/
structure Untouched (u d : String) (db db' : Database C) : Prop where
  users : db'.users.filter (fun r => r.userId ≠ u) = db.users.filter fun r => r.userId ≠ u
  columns : (db'.users.filter fun r => r.userId = u).map UserRow.columns =
    (db.users.filter fun r => r.userId = u).map UserRow.columns
  userDevices : db'.userDevices.filter (fun r => !r.owned u d) = db.userDevices.filter fun r => !r.owned u d
  perDevice : ∀ table, (db'.perDevice table).filter (fun r => !r.owned u d) = (db.perDevice table).filter fun r => !r.owned u d
  relayMessages : db'.relayMessages.rows.filter (fun r => !r.2.owned u d) =
    db.relayMessages.rows.filter fun r => !r.2.owned u d
  sealedRelayMessages : db'.sealedRelayMessages.rows.filter (fun r => !r.2.owned u d) =
    db.sealedRelayMessages.rows.filter fun r => !r.2.owned u d
  messageExpiryMeta : db'.messageExpiryMeta.filter (fun e => e.foreign u d db) =
    db.messageExpiryMeta.filter fun e => e.foreign u d db
  cursors : ∀ table, (db'.cursors table).filter (fun r => !r.owned u d) = (db.cursors table).filter fun r => !r.owned u d
  messageReceipts : db'.messageReceipts.filter (fun r => !r.owned u d) = db.messageReceipts.filter fun r => !r.owned u d
  typingState : db'.typingState.filter (fun r => !r.owned u d) = db.typingState.filter fun r => !r.owned u d
  others : db'.others = db.others

/-- no sealed message for the device has the id of a message for someone else that has an expiry record -/
def SealedIdsApart (u d : String) (db : Database C) : Prop :=
  ∀ e ∈ db.messageExpiryMeta, e.foreign u d db → e.messageId ∉ sealedIds u d db

/-- **The delete statements together** -/
lemma cleanup_eq (db : Database C) (u d : String) : cleanupRetiredDeviceState db u d = { db with
        perDevice := fun table => (db.perDevice table).filter fun r => !r.owned u d
        relayMessages := db.relayMessages.delete fun _ r => r.owned u d
        sealedRelayMessages := db.sealedRelayMessages.delete fun _ r => r.owned u d
        messageExpiryMeta := (db.messageExpiryMeta.filter fun e => e.messageId ∉ relayIds u d db).filter fun e =>
          e.messageId ∉ sealedIds u d db
        cursors := fun table => (db.cursors table).filter fun r => !r.owned u d
        messageReceipts := db.messageReceipts.filter fun r => !r.owned u d
        typingState := db.typingState.filter fun r => !r.owned u d } := by
  simp only [cleanupRetiredDeviceState, cleanupStatements, foldl_cons, foldl_nil, CleanupStmt.exec, sealedIds]
  congr 1
  · funext table
    cases table <;> rfl
  · funext table
    cases table <;> rfl

lemma filter_map_fixed {l : List α} {p : α → Bool} {f : α → α} (hp : ∀ a, p (f a) = p a) (hf : ∀ a, p a = true → f a = a) :
    (l.map f).filter p = l.filter p := by
  rw [filter_map, show p ∘ f = p from funext hp]
  calc (l.filter p).map f = (l.filter p).map id := map_congr_left fun a ha => hf a (of_mem_filter ha)
    _ = l.filter p := map_id _

section Users

variable (u d replacement : String) (retiredAt : ℕ) (r : UserRow C)

@[simp] lemma touch_userId : (r.touch u retiredAt).userId = r.userId := by
  unfold touch
  split_ifs <;> rfl

@[simp] lemma movePrimary_userId : (r.movePrimary u replacement d).userId = r.userId := by
  unfold movePrimary
  split_ifs <;> rfl

@[simp] lemma touch_columns : (r.touch u retiredAt).columns = r.columns := by
  unfold touch
  split_ifs <;> rfl

@[simp] lemma movePrimary_columns : (r.movePrimary u replacement d).columns = r.columns := by
  unfold movePrimary
  split_ifs <;> rfl

/-- the two updates of `users` as one -/
lemma updateUser_users (db : Database C) : ∃ f : UserRow C → UserRow C,
    (updateUserPrimaryDeviceAfterRetire db u d retiredAt).1 = { db with users := db.users.map f } ∧
    (∀ r, (f r).userId = r.userId) ∧ (∀ r, (f r).columns = r.columns) ∧ ∀ r, r.userId ≠ u → f r = r := by
  cases hhead : (activeDevices db u).head? with
  | none =>
    refine ⟨touch u retiredAt, ?_, fun r => by simp, fun r => by simp, ?_⟩
    · simp [updateUserPrimaryDeviceAfterRetire, hhead]
    · intro r hr
      exact if_neg hr
  | some replacement =>
    refine ⟨movePrimary u replacement d ∘ touch u retiredAt, ?_, fun r => by simp, fun r => by simp, ?_⟩
    · simp [updateUserPrimaryDeviceAfterRetire, hhead]
    · intro r hr
      rw [comp_apply, show r.touch u retiredAt = r from if_neg hr]
      exact if_neg fun h => hr h.1

end Users

lemma foreign_iff : e.foreign u d db = true ↔ ∃ r, (e.messageId, r) ∈ db.relayMessages.rows ∧ r.owned u d = false := by
  simp only [ExpiryRow.foreign, any_eq_true, decide_eq_true_eq, Bool.not_eq_true']
  constructor
  · rintro ⟨⟨id, r⟩, hr, rfl, howned⟩
    exact ⟨r, hr, howned⟩
  · rintro ⟨r, hr, howned⟩
    exact ⟨_, hr, rfl, howned⟩

/-- the first statement on expiry records leaves those of others: an id belongs to one message -/
lemma foreign_not_relayIds (h : e.foreign u d db = true) : e.messageId ∉ relayIds u d db := by
  obtain ⟨r, hr, howned⟩ := foreign_iff.1 h
  intro hmem
  obtain ⟨⟨id, r'⟩, hr', hid⟩ := mem_map.1 hmem
  obtain ⟨hrow, howned'⟩ := mem_filter.1 hr'
  obtain rfl : id = e.messageId := hid
  rw [SerialTable.row_unique hrow hr, howned] at howned'
  cases howned'

lemma filter_filter_eq_iff {l : List α} {p q : α → Bool} :
    (l.filter q).filter p = l.filter p ↔ ∀ a ∈ l, p a = true → q a = true := by
  rw [filter_filter]
  constructor
  · intro h a ha hp
    have hmem : a ∈ l.filter fun a => p a && q a := h ▸ mem_filter.2 ⟨ha, hp⟩
    have := of_mem_filter hmem
    simp only [Bool.and_eq_true] at this
    exact this.2
  · intro h
    refine filter_congr fun a ha => ?_
    cases hp : p a with
    | false => rfl
    | true => rw [h a ha hp]; rfl

/-- **The cleanup** leaves what belongs to others exactly when the ids are apart -/
lemma cleanup_untouched_iff (db : Database C) (u d : String) :
    Untouched u d db (cleanupRetiredDeviceState db u d) ↔ SealedIdsApart u d db := by
  have hexpiry : ((db.messageExpiryMeta.filter fun e => e.messageId ∉ relayIds u d db).filter fun e =>
        e.messageId ∉ sealedIds u d db).filter (fun e => e.foreign u d db) =
      db.messageExpiryMeta.filter (fun e => e.foreign u d db) ↔ SealedIdsApart u d db := by
    rw [filter_filter (l := db.messageExpiryMeta), filter_filter_eq_iff]
    constructor
    · intro h e he hforeign
      simpa using (Bool.and_eq_true_iff.1 (h e he hforeign)).1
    · intro h e he hforeign
      exact Bool.and_eq_true_iff.2 ⟨decide_eq_true (h e he hforeign), decide_eq_true (foreign_not_relayIds hforeign)⟩
  rw [cleanup_eq]
  constructor
  · intro h
    exact hexpiry.1 h.messageExpiryMeta
  · intro h
    refine ⟨rfl, rfl, rfl, ?_, ?_, ?_, hexpiry.2 h, ?_, ?_, ?_, rfl⟩
    · exact fun table => by simp
    · simp [SerialTable.delete]
    · simp [SerialTable.delete]
    · exact fun table => by simp
    · simp
    · simp

/-! ## Retiring a device -/

namespace RetireOp

variable {op : RetireOp} {db : Database C}

lemma checkTarget_ok : op.checkTarget db = .ok () ↔
    (op.kind = .revoke → ∃ r ∈ db.userDevices.find? fun r => r.owned op.userId op.deviceId, r.active = true) := by
  unfold checkTarget
  cases op.kind with
  | current => simp
  | revoke =>
    cases db.userDevices.find? fun r => r.owned op.userId op.deviceId with
    | none => simp
    | some target => by_cases h : target.active = true <;> simp [h]

/-- the database that the delete statements start from -/
def moved (op : RetireOp) (db : Database C) : Database C :=
  (updateUserPrimaryDeviceAfterRetire (retireDeviceRow db op.userId op.deviceId op.retiredAt).1 op.userId op.deviceId
    op.retiredAt).1

lemma after_accepted (h : op.Accepts db) : op.after db = cleanupRetiredDeviceState (op.moved db) op.userId op.deviceId := by
  obtain ⟨⟨r, hr, huser⟩, htarget, hcount⟩ := h
  have hexists : ensureUserExists db op.userId = .ok () := if_pos (any_eq_true.2 ⟨r, hr, decide_eq_true huser⟩)
  unfold after exec
  rw [hexists, checkTarget_ok.2 htarget]
  simp only [bind, Except.bind, retireDeviceRow, hcount, ne_eq, not_true_eq_false, if_false]
  rfl

lemma after_refused (h : ¬op.Accepts db) : op.after db = db := by
  unfold after
  cases hexec : op.exec db with
  | error => rfl
  | ok =>
    exfalso
    refine h ?_
    obtain ⟨⟨⟩, hexists, hrest⟩ := bind_ok.1 hexec
    obtain ⟨⟨⟩, htarget, hupdate⟩ := bind_ok.1 hrest
    refine ⟨?_, checkTarget_ok.1 htarget, ?_⟩
    · unfold ensureUserExists at hexists
      split_ifs at hexists with hany
      obtain ⟨r, hr, huser⟩ := any_eq_true.1 hany
      exact ⟨r, hr, of_decide_eq_true huser⟩
    · exact not_not.1 (check_ok.1 hupdate).1

/-- the two updates before the delete statements touch the device and the user only -/
lemma moved_untouched (op : RetireOp) (db : Database C) : Untouched op.userId op.deviceId db (op.moved db) := by
  obtain ⟨f, hmoved, huserId, hcolumns, hother⟩ :=
    updateUser_users op.userId op.deviceId op.retiredAt (retireDeviceRow db op.userId op.deviceId op.retiredAt).1
  unfold moved
  rw [hmoved]
  refine ⟨?_, ?_, ?_, fun _ => rfl, rfl, rfl, rfl, fun _ => rfl, rfl, rfl, rfl⟩
  · refine filter_map_fixed (fun r => by rw [huserId]) fun r hr => hother r ?_
    simpa using hr
  · change ((db.users.map f).filter fun r => r.userId = op.userId).map columns = _
    rw [filter_map, map_map,
      show ((fun r : UserRow C => decide (r.userId = op.userId)) ∘ f) = fun r => decide (r.userId = op.userId) from
        funext fun r => by simp [huserId]]
    exact map_congr_left fun r _ => hcolumns r
  · refine filter_map_fixed (fun r => ?_) fun r hr => ?_
    · split_ifs <;> rfl
    · rw [if_neg]
      intro h
      simp [h.1] at hr

end RetireOp

lemma Untouched.trans_iff {db db' db'' : Database C} (h : Untouched u d db db')
    (hrelay : db'.relayMessages = db.relayMessages) : Untouched u d db' db'' ↔ Untouched u d db db'' := by
  have hforeign : ∀ e : ExpiryRow, e.foreign u d db' = e.foreign u d db := fun e => by simp [ExpiryRow.foreign, hrelay]
  constructor
  · intro h'
    refine ⟨h'.users.trans h.users, h'.columns.trans h.columns, h'.userDevices.trans h.userDevices,
      fun table => (h'.perDevice table).trans (h.perDevice table), h'.relayMessages.trans h.relayMessages,
      h'.sealedRelayMessages.trans h.sealedRelayMessages, ?_, fun table => (h'.cursors table).trans (h.cursors table),
      h'.messageReceipts.trans h.messageReceipts, h'.typingState.trans h.typingState, h'.others.trans h.others⟩
    have hmeta := h'.messageExpiryMeta
    simp only [hforeign] at hmeta
    exact hmeta.trans h.messageExpiryMeta
  · intro h'
    refine ⟨h'.users.trans h.users.symm, h'.columns.trans h.columns.symm, h'.userDevices.trans h.userDevices.symm,
      fun table => (h'.perDevice table).trans (h.perDevice table).symm, h'.relayMessages.trans h.relayMessages.symm,
      h'.sealedRelayMessages.trans h.sealedRelayMessages.symm, ?_,
      fun table => (h'.cursors table).trans (h.cursors table).symm, h'.messageReceipts.trans h.messageReceipts.symm,
      h'.typingState.trans h.typingState.symm, h'.others.trans h.others.symm⟩
    simp only [hforeign]
    exact h'.messageExpiryMeta.trans h.messageExpiryMeta.symm

/-- **Retiring a device is device-scoped exactly when ids are apart.** For every database and every revocation or retirement:
everything that belongs to other users and other devices stays as it is, if and only if the request is refused, or no
sealed message of the device has the id of a message for someone else that has an expiry record. -/
theorem device_scoped (db : Database C) (op : RetireOp) :
    Untouched op.userId op.deviceId db (op.after db) ↔ (op.Accepts db → SealedIdsApart op.userId op.deviceId db) := by
  by_cases haccepts : op.Accepts db
  · obtain ⟨f, hmoved, -⟩ :=
      updateUser_users op.userId op.deviceId op.retiredAt (retireDeviceRow db op.userId op.deviceId op.retiredAt).1
    have hrelay : (op.moved db).relayMessages = db.relayMessages := by rw [RetireOp.moved, hmoved]; rfl
    have hsame : SealedIdsApart op.userId op.deviceId (op.moved db) ↔ SealedIdsApart op.userId op.deviceId db := by
      rw [RetireOp.moved, hmoved]
      rfl
    rw [RetireOp.after_accepted haccepts, ← (op.moved_untouched db).trans_iff hrelay, cleanup_untouched_iff, hsame]
    exact ⟨fun h _ => h, fun h => h haccepts⟩
  · rw [RetireOp.after_refused haccepts]
    refine ⟨fun _ h => absurd h haccepts, fun _ => ?_⟩
    exact ⟨rfl, rfl, rfl, fun _ => rfl, rfl, rfl, rfl, fun _ => rfl, rfl, rfl, rfl⟩

/-! ## Two sequences -/

namespace Sample

/-- `alice` has two devices, `bob` has one, and nothing was sent -/
def empty : Database Unit where
  users := [⟨"alice", "phone", 0, ()⟩, ⟨"bob", "phone", 0, ()⟩]
  userDevices := [⟨"alice", "phone", true, 0, none⟩, ⟨"alice", "tablet", true, 5, none⟩, ⟨"bob", "phone", true, 0, none⟩]
  perDevice _ := []
  relayMessages := .empty
  sealedRelayMessages := .empty
  messageExpiryMeta := []
  cursors _ := []
  messageReceipts := []
  typingState := []
  others := ()

/-- the first sealed message is for alice's tablet, and the first relayed message is for bob and disappears -/
def sent : Database Unit :=
  { empty with
    relayMessages := SerialTable.empty.insert ⟨"bob", "phone", "alice", "phone", [1], 10⟩
    sealedRelayMessages := SerialTable.empty.insert ⟨"alice", "tablet", none, [2], 11⟩
    messageExpiryMeta := [⟨1, "phone", some 70⟩] }

def retireTablet : RetireOp := ⟨.current, "alice", "tablet", 20⟩

end Sample

/-- **Another user's message loses its expiry record.** When alice's tablet is retired, the record of the message to bob is
deleted, and the message stays. -/
theorem device_scoped_expiry_lost :
    ¬Untouched "alice" "tablet" Sample.sent (Sample.retireTablet.after Sample.sent) ∧
    (Sample.retireTablet.after Sample.sent).messageExpiryMeta = [] ∧
    (Sample.retireTablet.after Sample.sent).relayMessages.rows = [(1, ⟨"bob", "phone", "alice", "phone", [1], 10⟩)] := by
  have hmeta : (Sample.retireTablet.after Sample.sent).messageExpiryMeta = [] := by decide
  refine ⟨fun h => ?_, hmeta, by decide⟩
  have hlost := h.messageExpiryMeta
  rw [hmeta] at hlost
  exact absurd hlost (by decide)

end PqMsg.Server.Mailbox
