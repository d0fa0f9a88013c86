/-
The thread of a private group on Android (`MessagingCoordinator.kt`, `LocalMessageDatabase.kt`): `syncPrivateGroupMessages`
against a server that answers what it likes.

A response is a list of items, each with a number that the server gave it. The client skips the items whose number is not
above its cursor, opens each other item with the keys of one member after the other, and appends what it has opened to the
thread. The cursor is written when all items are done: an item that cannot be opened ends the synchronisation, and the
cursor stays. In the table of the thread a group and a number are unique; a second row is ignored. The thread keeps its 300
newest rows.

The number is not part of what a sender signs, and opening a message leaves no trace. So the client knows a message again by
its number only.

- `thread_once`: if every message always comes with the same number, and either all new items can be opened or the thread has
  room for them, every message is appended at most once, in any sequence of responses.
- `read_twice`: one message that comes under two numbers is appended twice.

What `ensurePrivateGroupSenderIdentityPin` answers for each candidate comes with the item. Base64, the texts of previews and
attachments are parameters. The list of conversations, its unread counts, groups that are left, and messages that are sent
from this device are left out; so is the move of threads from old versions of the app.
-/
import PqMsg.Groups.Messages

namespace PqMsg.Client.GroupThread

open Lib Groups Function List Option

variable {Secret : Type}

/-! ## Items and rows -/

structure PrivateGroupMessageItem where
  messageId : ℤ
  groupId : String
  epoch : Int64
  sentAtUnixMs : Int64
  ciphertextNonceBase64 : String
  ciphertextBase64 : String
  ciphertextAadBase64 : String
  senderHybridSignatureBase64 : String

structure IdentityPin where
  identitySigPub : String
  identityPqSigPub : String

/-- what the client knows and learns about the candidates while it opens an item -/
structure Identities where
  pinned : String → Bool
  /-- `ensurePrivateGroupSenderIdentityPin` -/
  ensure : String → Except String IdentityPin

structure MediaEnvelope where
  fileName : String
  mimeType : String
  noteText : String
  dataBase64 : String
  byteLength : ℕ

inductive Direction where
  | inbound
  | outbound
deriving DecidableEq

/-- a row of `group_messages`, of the one user of the device -/
structure ThreadRow where
  rowId : ℕ
  groupId : String
  direction : Direction
  body : String
  sentAtMillis : Int64
  transportMessageId : Option ℤ
  attachment : Option MediaEnvelope

structure Deps (Secret : Type) where
  prims : MessagePrims Secret
  userId : String
  /-- `Base64.getDecoder().decode` -/
  decodeJava : String → Option Bytes
  /-- `decode_b64` of the library -/
  decodeRust : String → Option Bytes
  /-- the order of Kotlin's strings -/
  le : String → String → Bool
  isBlank : String → Bool
  trim : String → String
  renderInboundPreview : String → String
  decodeMediaEnvelope : String → Option MediaEnvelope

inductive OpenError where
  | base64
  | json
  | identity (text : String)
  | core (error : CoreError)
  | unidentified

section

variable (d : Deps Secret)

/-! ## Opening -/

def decodeField (decode : String → Option Bytes) (text : String) : Except OpenError Bytes :=
  match decode text with
  | some bytes => .ok bytes
  | none => .error .base64

/-- a `Long` that the library reads as `u64` -/
def readU64 (value : Int64) : Except OpenError UInt64 :=
  if value < 0 then .error .json else .ok value.toUInt64

/-- the message that an item stands for if `candidate` sent it -/
def transportMessage (item : PrivateGroupMessageItem) (candidate : String) : Except OpenError PrivateGroupEncryptedMessage := do
  let nonce ← decodeField d.decodeJava item.ciphertextNonceBase64
  let ciphertext ← decodeField d.decodeJava item.ciphertextBase64
  let aad ← decodeField d.decodeJava item.ciphertextAadBase64
  let signature ← decodeField d.decodeJava item.senderHybridSignatureBase64
  let epoch ← readU64 item.epoch
  let sentAt ← readU64 item.sentAtUnixMs
  let nonce ← (Wire.parseArr 12 nonce "nonce").mapError fun _ => OpenError.json
  return ⟨item.groupId, epoch, candidate, sentAt, ⟨nonce, ciphertext, aad⟩, signature⟩

variable (state : PrivateGroupState Secret)

def openAs (item : PrivateGroupMessageItem) (ids : Identities) (candidate : String) :
    Except OpenError PrivateGroupDecryptedMessage := do
  let pin ← (ids.ensure candidate).mapError OpenError.identity
  let message ← transportMessage d item candidate
  let sigPub ← decodeField d.decodeRust pin.identitySigPub
  let pqSigPub ← decodeField d.decodeRust pin.identityPqSigPub
  (decryptMessage d.prims state message sigPub pqSigPub).mapError OpenError.core

/-- the first candidate with whose keys the item opens -/
def firstCandidate (attempt : String → Except OpenError PrivateGroupDecryptedMessage) :
    OpenError → List String → Except OpenError PrivateGroupDecryptedMessage
  | last, [] => .error last
  | _, candidate :: candidates =>
    match attempt candidate with
    | .ok opened => .ok opened
    | .error e => firstCandidate attempt e candidates

/-- the members, those with a pin first -/
def candidateUserIds (ids : Identities) : List String :=
  let unknown (userId : String) : ℕ := if userId = d.userId ∨ ids.pinned userId then 0 else 1
  (state.members.map (·.userId)).eraseDups.insertionSort fun a b =>
    unknown a < unknown b ∨ (unknown a = unknown b ∧ d.le a b)

def openPrivateGroupMessageWithCandidateSenders (item : PrivateGroupMessageItem) (ids : Identities) :
    Except OpenError PrivateGroupDecryptedMessage :=
  firstCandidate (openAs d state item ids) .unidentified (candidateUserIds d state ids)

end

/-! ## The thread -/

/-- what a message is, apart from its sender -/
structure Content where
  groupId : String
  epoch : Int64
  sentAtUnixMs : Int64
  nonce : Option Bytes
  signature : Option Bytes
deriving DecidableEq

structure Shown where
  content : Content
  senderUserId : String
deriving DecidableEq

def contentOf (d : Deps Secret) (item : PrivateGroupMessageItem) : Content :=
  ⟨item.groupId, item.epoch, item.sentAtUnixMs, d.decodeJava item.ciphertextNonceBase64,
    d.decodeJava item.senderHybridSignatureBase64⟩

structure World (Secret : Type) where
  groups : List (PrivateGroupState Secret)
  cursors : String → ℤ
  rows : List ThreadRow
  nextRowId : ℕ
  /-- the messages for which a row was inserted -/
  shown : List Shown

open World

def World.start : World Secret := ⟨[], fun _ => 0, [], 1, []⟩

def groupThreadLimit : ℕ := 300

/-- `ORDER BY sent_at_millis DESC, row_id DESC` -/
abbrev NewerFirst (a b : ThreadRow) : Prop :=
  b.sentAtMillis < a.sentAtMillis ∨ (a.sentAtMillis = b.sentAtMillis ∧ b.rowId ≤ a.rowId)

def trimThread (groupId : String) (rows : List ThreadRow) : List ThreadRow :=
  let old := ((rows.filter (·.groupId = groupId)).insertionSort NewerFirst).drop groupThreadLimit
  rows.filter fun row => !old.any (·.rowId = row.rowId)

/-- the unique constraint on group and number -/
def hasNumber (rows : List ThreadRow) (groupId : String) (messageId : ℤ) : Bool :=
  rows.any fun row => row.groupId = groupId && row.transportMessageId = some messageId

section

variable (d : Deps Secret)

def threadRow (rowId : ℕ) (item : PrivateGroupMessageItem) (opened : PrivateGroupDecryptedMessage) : ThreadRow :=
  let outbound := opened.senderUserId = d.userId
  let body := d.trim (d.renderInboundPreview opened.body)
  { rowId := rowId
    groupId := item.groupId
    direction := if outbound then .outbound else .inbound
    body := (if outbound then "You" else opened.senderUserId) ++ ": " ++ (if d.isBlank body then "(empty)" else body)
    sentAtMillis := item.sentAtUnixMs
    transportMessageId := some item.messageId
    attachment := d.decodeMediaEnvelope opened.body }

variable (w : World Secret)

def World.appendGroupThreadMessage (item : PrivateGroupMessageItem) (opened : PrivateGroupDecryptedMessage) : World Secret :=
  if d.isBlank d.userId || d.isBlank item.groupId then w
  else if hasNumber w.rows item.groupId item.messageId then { w with rows := trimThread item.groupId w.rows }
  else
    { w with
      rows := trimThread item.groupId (w.rows ++ [threadRow d w.nextRowId item opened])
      nextRowId := w.nextRowId + 1
      shown := w.shown ++ [⟨contentOf d item, opened.senderUserId⟩] }

/-- the loop over the items of a response; no cursor is returned if an item cannot be opened -/
def syncItems (state : PrivateGroupState Secret) :
    World Secret → ℤ → List (PrivateGroupMessageItem × Identities) → World Secret × Option ℤ
  | w, cursor, [] => (w, some cursor)
  | w, cursor, (item, ids) :: items =>
    if item.messageId ≤ cursor then syncItems state w cursor items
    else match openPrivateGroupMessageWithCandidateSenders d state item ids with
      | .error _ => (w, none)
      | .ok opened => syncItems state (w.appendGroupThreadMessage d item opened) (max cursor item.messageId) items

def World.writePrivateGroupCursor (groupId : String) (cursor : ℤ) : World Secret :=
  if d.isBlank d.userId || d.isBlank groupId then w
  else { w with cursors := update w.cursors groupId cursor }

/-- one group of `syncPrivateGroupMessages` -/
def World.sync (state : PrivateGroupState Secret) (items : List (PrivateGroupMessageItem × Identities)) : World Secret :=
  match syncItems d state w (w.cursors state.groupId) items with
  | (w, none) => w
  | (w, some cursor) => if 0 < cursor then w.writePrivateGroupCursor d state.groupId cursor else w

inductive Op (Secret : Type) where
  /-- the client stores a new group or a new epoch -/
  | writeState (state : PrivateGroupState Secret)
  /-- the server answers a fetch -/
  | fetch (groupId : String) (items : List (PrivateGroupMessageItem × Identities))

/-- `listPrivateGroups` -/
def World.group (groupId : String) : Option (PrivateGroupState Secret) :=
  if d.isBlank d.userId then none else w.groups.find? (·.groupId = groupId)

def World.step : Op Secret → World Secret
  | .writeState state =>
    if d.isBlank d.userId || d.isBlank state.groupId then w
    else { w with groups := state :: w.groups.filter (·.groupId ≠ state.groupId) }
  | .fetch groupId items => match w.group d groupId with
    | none => w
    | some state => w.sync d state items

end

/-! ## Conditions on the server -/

/-- every message comes with its own number, whenever it comes -/
def Numbered (d : Deps Secret) (number : Content → ℤ) (_ : World Secret) : Op Secret → Prop
  | .writeState _ => True
  | .fetch _ items => ∀ x ∈ items, x.1.messageId = number (contentOf d x.1)

/-- the items above the cursor can be opened -/
def AllOpen (d : Deps Secret) (w : World Secret) : Op Secret → Prop
  | .writeState _ => True
  | .fetch groupId items => ∀ state ∈ w.group d groupId, ∀ x ∈ items, w.cursors groupId < x.1.messageId →
      (openPrivateGroupMessageWithCandidateSenders d state x.1 x.2).isOk

/-- the thread has room for all items -/
def Roomy (w : World Secret) : Op Secret → Prop
  | .writeState _ => True
  | .fetch groupId items => (w.rows.filter (·.groupId = groupId)).length + items.length ≤ groupThreadLimit

instance Numbered.decidable (d : Deps Secret) (number : Content → ℤ) (w : World Secret) : ∀ o, Decidable (Numbered d number w o)
  | .writeState _ => isTrue trivial
  | .fetch _ _ => inferInstanceAs (Decidable (∀ _ ∈ _, _))

instance Roomy.decidable (w : World Secret) : ∀ o, Decidable (Roomy w o)
  | .writeState _ => isTrue trivial
  | .fetch _ _ => inferInstanceAs (Decidable (_ ≤ _))

section

variable {d : Deps Secret} {state : PrivateGroupState Secret} {w : World Secret} {opened : PrivateGroupDecryptedMessage}

/-! ## Items that open -/

lemma firstCandidate_ok {attempt : String → Except OpenError PrivateGroupDecryptedMessage} {candidates : List String}
    {last : OpenError} (h : firstCandidate attempt last candidates = .ok opened) :
    ∃ candidate, attempt candidate = .ok opened := by
  induction candidates generalizing last with
  | nil => cases h
  | cons candidate candidates ih =>
    rw [firstCandidate] at h
    split at h
    next found hfound =>
      cases h
      exact ⟨candidate, hfound⟩
    next => exact ih h

variable {item : PrivateGroupMessageItem} {items : List (PrivateGroupMessageItem × Identities)} {cursor : ℤ} {groupId : String}

/-- an item that opens is of the group of the state -/
lemma open_groupId {ids : Identities} (h : openPrivateGroupMessageWithCandidateSenders d state item ids = .ok opened) :
    item.groupId = state.groupId := by
  obtain ⟨candidate, h⟩ := firstCandidate_ok h
  simp only [openAs, bind_ok] at h
  obtain ⟨pin, -, message, hmessage, sigPub, -, pqSigPub, -, h⟩ := h
  simp only [transportMessage, bind_ok] at hmessage
  obtain ⟨nonce, -, ciphertext, -, aad, -, signature, -, epoch, -, sentAt, -, nonce', -, hmessage⟩ := hmessage
  cases hmessage
  exact (decryptMessage_ok (mapError_ok.1 h)).1

/-! ## Appending -/

variable (item opened)

lemma cursors_append : (w.appendGroupThreadMessage d item opened).cursors = w.cursors := by
  unfold appendGroupThreadMessage
  split_ifs <;> rfl

lemma groups_append : (w.appendGroupThreadMessage d item opened).groups = w.groups := by
  unfold appendGroupThreadMessage
  split_ifs <;> rfl

/-- a row is inserted, or nothing is shown -/
lemma append_cases :
    ((w.appendGroupThreadMessage d item opened).shown = w.shown ∧ ((w.appendGroupThreadMessage d item opened).rows = w.rows ∨
        (w.appendGroupThreadMessage d item opened).rows = trimThread item.groupId w.rows)) ∨
    (hasNumber w.rows item.groupId item.messageId = false ∧
      (w.appendGroupThreadMessage d item opened).shown = w.shown ++ [⟨contentOf d item, opened.senderUserId⟩] ∧
      (w.appendGroupThreadMessage d item opened).rows =
        trimThread item.groupId (w.rows ++ [threadRow d w.nextRowId item opened])) := by
  unfold appendGroupThreadMessage
  split_ifs with hblank hnumber
  · exact .inl ⟨rfl, .inl rfl⟩
  · exact .inl ⟨rfl, .inr rfl⟩
  · exact .inr ⟨by simpa using hnumber, rfl, rfl⟩

variable {item opened}

/-- the loop writes to the thread only -/
lemma syncItems_frame (items : List (PrivateGroupMessageItem × Identities)) (w : World Secret) (cursor : ℤ) :
    (syncItems d state w cursor items).1.cursors = w.cursors ∧ (syncItems d state w cursor items).1.groups = w.groups := by
  induction items generalizing w cursor with
  | nil => exact ⟨rfl, rfl⟩
  | cons x items ih =>
    rw [syncItems]
    split_ifs
    · exact ih w cursor
    · split
      · exact ⟨rfl, rfl⟩
      · next opened hopened =>
        obtain ⟨hcursors, hgroups⟩ := ih (w.appendGroupThreadMessage d x.1 opened) (max cursor x.1.messageId)
        exact ⟨hcursors.trans (cursors_append ..), hgroups.trans (groups_append ..)⟩

/-- the cursor does not go back -/
lemma syncItems_cursor {cursor' : ℤ} (h : (syncItems d state w cursor items).2 = some cursor') : cursor ≤ cursor' := by
  induction items generalizing w cursor with
  | nil => exact (some.inj h).le
  | cons x items ih =>
    rw [syncItems] at h
    split_ifs at h
    · exact ih h
    · split at h
      · cases h
      · exact (le_max_left _ _).trans (ih h)

/-! ## Cursors, if all items open -/

/-- every message in the thread has a number that is not above the cursor of its group -/
structure CursorInv (number : Content → ℤ) (shown : List Shown) (cursors : String → ℤ) : Prop where
  nodup : shown.Nodup
  below : ∀ m ∈ shown, number m.content ≤ cursors m.content.groupId

variable {number : Content → ℤ}

/-- a message with a number above the cursor is new -/
lemma CursorInv.append (item : PrivateGroupMessageItem) (opened : PrivateGroupDecryptedMessage)
    (h : CursorInv number w.shown (update w.cursors item.groupId cursor)) (hnew : cursor < item.messageId)
    (hnumber : item.messageId = number (contentOf d item)) :
    CursorInv number (w.appendGroupThreadMessage d item opened).shown
      (update w.cursors item.groupId (max cursor item.messageId)) := by
  have hraised : CursorInv number w.shown (update w.cursors item.groupId (max cursor item.messageId)) :=
    ⟨h.nodup, fun m hm => (h.below m hm).trans (update_le_update_iff'.2 (le_max_left cursor item.messageId) _)⟩
  rcases append_cases (d := d) (w := w) opened item with ⟨hshown, -⟩ | ⟨-, hshown, -⟩ <;> rw [hshown]
  · exact hraised
  · constructor
    · refine nodup_append'.2 ⟨h.nodup, nodup_singleton _, ?_⟩
      rw [disjoint_singleton]
      intro hmem
      have hle := h.below _ hmem
      simp only [contentOf, update_self] at hle hnumber
      omega
    · intro m hm
      rcases mem_append.1 hm with hm | hm
      · exact hraised.below m hm
      · obtain rfl := mem_singleton.1 hm
        simp only [contentOf, update_self] at hnumber ⊢
        omega

/-- the loop, if every item above the cursor opens -/
lemma syncItems_cursorInv (h : CursorInv number w.shown (update w.cursors state.groupId cursor))
    (hnumber : ∀ x ∈ items, x.1.messageId = number (contentOf d x.1))
    (hopen : ∀ x ∈ items, cursor < x.1.messageId → (openPrivateGroupMessageWithCandidateSenders d state x.1 x.2).isOk) :
    ∃ w' cursor', syncItems d state w cursor items = (w', some cursor') ∧
      CursorInv number w'.shown (update w.cursors state.groupId cursor') := by
  induction items generalizing w cursor with
  | nil => exact ⟨w, cursor, rfl, h⟩
  | cons x items ih =>
    have hnumber' : ∀ y ∈ items, y.1.messageId = number (contentOf d y.1) :=
      fun y hy => hnumber y (.tail _ hy)
    rw [syncItems]
    split_ifs with hskip
    · exact ih h hnumber' fun y hy => hopen y (.tail _ hy)
    · have hnew : cursor < x.1.messageId := not_le.1 hskip
      have hok := hopen x (.head _) hnew
      split
      next e herror =>
        rw [herror] at hok
        cases hok
      next opened hopened =>
        have hgroup := open_groupId hopened
        rw [← hgroup] at h
        have happended := h.append x.1 opened hnew (hnumber x (.head _))
        rw [hgroup, ← cursors_append (d := d) (w := w) opened x.1] at happended
        have hrest := ih happended hnumber' fun y hy hy' =>
          hopen y (.tail _ hy) ((le_max_left _ _).trans_lt hy')
        rwa [cursors_append] at hrest

/-! ## Rows, if the thread has room -/

/-- a thread with room is not trimmed -/
lemma trimThread_of_room {rows : List ThreadRow} (h : (rows.filter (·.groupId = groupId)).length ≤ groupThreadLimit) :
    trimThread groupId rows = rows := by
  have hold : ((rows.filter (·.groupId = groupId)).insertionSort NewerFirst).drop groupThreadLimit = [] :=
    drop_eq_nil_of_le (by rw [length_insertionSort]; exact h)
  simp [trimThread, hold]

lemma hasNumber_append {rows rows' : List ThreadRow} {messageId : ℤ} :
    hasNumber (rows ++ rows') groupId messageId = (hasNumber rows groupId messageId || hasNumber rows' groupId messageId) :=
  any_append

/-- every message in the thread has a number that is not above the cursor, or a row -/
structure RowInv (number : Content → ℤ) (w : World Secret) : Prop where
  nodup : w.shown.Nodup
  found : ∀ m ∈ w.shown, number m.content ≤ w.cursors m.content.groupId ∨
    hasNumber w.rows m.content.groupId (number m.content) = true

/-- in a thread with room, a row is inserted or nothing changes -/
lemma append_room (opened : PrivateGroupDecryptedMessage)
    (hroom : (w.rows.filter (·.groupId = item.groupId)).length + 1 ≤ groupThreadLimit) :
    ((w.appendGroupThreadMessage d item opened).shown = w.shown ∧ (w.appendGroupThreadMessage d item opened).rows = w.rows) ∨
    (hasNumber w.rows item.groupId item.messageId = false ∧
      (w.appendGroupThreadMessage d item opened).shown = w.shown ++ [⟨contentOf d item, opened.senderUserId⟩] ∧
      (w.appendGroupThreadMessage d item opened).rows = w.rows ++ [threadRow d w.nextRowId item opened]) := by
  have hlonger : ((w.rows ++ [threadRow d w.nextRowId item opened]).filter (·.groupId = item.groupId)).length ≤
      groupThreadLimit := by
    rw [filter_append, length_append]
    exact (Nat.add_le_add_left (length_filter_le _ _) _).trans hroom
  rcases append_cases (d := d) (w := w) opened item with ⟨hshown, hrows | hrows⟩ | ⟨hnumber, hshown, hrows⟩
  · exact .inl ⟨hshown, hrows⟩
  · exact .inl ⟨hshown, hrows.trans (trimThread_of_room (Nat.le_of_succ_le hroom))⟩
  · exact .inr ⟨hnumber, hshown, hrows.trans (trimThread_of_room hlonger)⟩

/-- a message above the cursor without a row is new -/
lemma RowInv.append (h : RowInv number w) (item : PrivateGroupMessageItem) (opened : PrivateGroupDecryptedMessage)
    (hnew : w.cursors item.groupId < item.messageId) (hnumber : item.messageId = number (contentOf d item))
    (hroom : (w.rows.filter (·.groupId = item.groupId)).length + 1 ≤ groupThreadLimit) :
    RowInv number (w.appendGroupThreadMessage d item opened) := by
  rcases append_room (d := d) opened hroom with ⟨hshown, hrows⟩ | ⟨hfree, hshown, hrows⟩
  · refine ⟨hshown ▸ h.nodup, fun m hm => ?_⟩
    rw [cursors_append, hrows]
    exact h.found m (hshown ▸ hm)
  · refine ⟨?_, fun m hm => ?_⟩
    · rw [hshown, nodup_append', disjoint_singleton]
      refine ⟨h.nodup, nodup_singleton _, fun hmem => ?_⟩
      rcases h.found _ hmem with hle | hrow
      · exact absurd (hnumber ▸ hnew) (not_lt.2 hle)
      · rw [← hnumber] at hrow
        exact Bool.false_ne_true (hfree.symm.trans hrow)
    · rw [cursors_append, hrows, hasNumber_append]
      rcases mem_append.1 (hshown ▸ hm) with hold | hlast
      · exact (h.found m hold).imp_right fun hrow => by rw [hrow, Bool.true_or]
      · obtain rfl := mem_singleton.1 hlast
        refine .inr ?_
        rw [← hnumber]
        simp [hasNumber, threadRow, contentOf]

/-- the loop, if the thread has room for all items -/
lemma syncItems_rowInv (h : RowInv number w) (hcursor : w.cursors state.groupId ≤ cursor)
    (hnumber : ∀ x ∈ items, x.1.messageId = number (contentOf d x.1))
    (hroom : (w.rows.filter (·.groupId = state.groupId)).length + items.length ≤ groupThreadLimit) :
    RowInv number (syncItems d state w cursor items).1 := by
  induction items generalizing w cursor with
  | nil => exact h
  | cons x items ih =>
    have hnumber' : ∀ y ∈ items, y.1.messageId = number (contentOf d y.1) :=
      fun y hy => hnumber y (.tail _ hy)
    rw [length_cons] at hroom
    rw [syncItems]
    split_ifs with hskip
    · exact ih h hcursor hnumber' (by omega)
    · split
      next => exact h
      next opened hopened =>
        have hgroup := open_groupId hopened
        rw [← hgroup] at hroom hcursor
        have hone : (w.rows.filter (·.groupId = x.1.groupId)).length + 1 ≤ groupThreadLimit := by omega
        have hlength : ((w.appendGroupThreadMessage d x.1 opened).rows.filter (·.groupId = x.1.groupId)).length ≤
            (w.rows.filter (·.groupId = x.1.groupId)).length + 1 := by
          rcases append_room (d := d) opened hone with ⟨-, hrows⟩ | ⟨-, -, hrows⟩ <;> rw [hrows]
          · exact Nat.le_succ _
          · rw [filter_append, length_append]
            exact Nat.add_le_add_left (length_filter_le _ _) _
        refine ih (h.append x.1 opened (hcursor.trans_lt (not_le.1 hskip)) (hnumber x (.head _)) hone) ?_ hnumber' ?_
        · rw [cursors_append, ← hgroup]
          exact hcursor.trans (le_max_left _ _)
        · rw [← hgroup]
          omega

/-! ## Runs -/

/-- stored groups have an id, and cursors are not negative -/
structure StoreInv (d : Deps Secret) (w : World Secret) : Prop where
  named : ∀ state ∈ w.groups, d.isBlank state.groupId = false
  cursors : ∀ groupId, 0 ≤ w.cursors groupId

lemma group_eq_some (h : w.group d groupId = some state) :
    state.groupId = groupId ∧ state ∈ w.groups ∧ d.isBlank d.userId = false := by
  unfold group at h
  split_ifs at h with hblank
  exact ⟨by simpa using List.find?_some h, mem_of_find?_eq_some h, by simpa using hblank⟩

/-- what a fetch leaves: the thread of the loop, and the cursor that it returned -/
lemma sync_eq (hstore : StoreInv d w) (hgroup : w.group d groupId = some state)
    (items : List (PrivateGroupMessageItem × Identities)) :
    let result := syncItems d state w (w.cursors groupId) items
    w.sync d state items = { result.1 with cursors := update w.cursors groupId (result.2.getD (w.cursors groupId)) } := by
  obtain ⟨rfl, hmem, huser⟩ := group_eq_some hgroup
  have hframe : (syncItems d state w (w.cursors state.groupId) items).1.cursors = w.cursors := (syncItems_frame ..).1
  have hcursor : ∀ c, (syncItems d state w (w.cursors state.groupId) items).2 = some c → w.cursors state.groupId ≤ c :=
    fun _ => syncItems_cursor
  simp only [sync]
  rcases hresult : syncItems d state w (w.cursors state.groupId) items with ⟨w', _ | cursor⟩
  · rw [hresult] at hframe
    simp [← hframe]
  · rw [hresult] at hframe hcursor
    simp only [getD_some]
    split_ifs with hpos
    · simp [writePrivateGroupCursor, huser, hstore.named state hmem]
      rw [hframe]
    · -- a cursor that is not positive is the old one
      have hsame : cursor = w.cursors state.groupId :=
        le_antisymm ((not_lt.1 hpos).trans (hstore.cursors _)) (hcursor cursor rfl)
      rw [hsame, update_eq_self, ← hframe]

lemma cursors_le_sync (hstore : StoreInv d w) (hgroup : w.group d groupId = some state)
    (items : List (PrivateGroupMessageItem × Identities)) (g : String) :
    w.cursors g ≤ (w.sync d state items).cursors g := by
  rw [sync_eq hstore hgroup]
  simp only [update_apply]
  split_ifs with heq
  · rw [heq]
    cases hcursor : (syncItems d state w (w.cursors groupId) items).2 with
    | none => exact le_rfl
    | some => exact syncItems_cursor hcursor
  · exact le_rfl

lemma StoreInv.step (h : StoreInv d w) (o : Op Secret) : StoreInv d (w.step d o) := by
  cases o with
  | writeState =>
    simp only [World.step]
    split_ifs with hblank
    · exact h
    · refine ⟨fun s hs => ?_, h.cursors⟩
      rcases mem_cons.1 hs with rfl | hs
      · simp only [Bool.or_eq_true, not_or, Bool.not_eq_true] at hblank
        exact hblank.2
      · exact h.named s (mem_filter.1 hs).1
  | fetch groupId items =>
    simp only [World.step]
    split
    · exact h
    next state hgroup =>
      refine ⟨?_, fun g => (h.cursors g).trans (cursors_le_sync h hgroup items g)⟩
      rw [sync_eq h hgroup]
      simp only [(syncItems_frame (d := d) items w (w.cursors groupId)).2]
      exact h.named

lemma CursorInv.step (hstore : StoreInv d w) (h : CursorInv number w.shown w.cursors) (o : Op Secret)
    (hnumber : Numbered d number w o) (hopen : AllOpen d w o) :
    CursorInv number (w.step d o).shown (w.step d o).cursors := by
  cases o with
  | writeState =>
    simp only [World.step]
    split_ifs <;> exact h
  | fetch =>
    simp only [World.step]
    split
    · exact h
    next state hgroup =>
      obtain ⟨rfl, -⟩ := group_eq_some hgroup
      have hstart : CursorInv number w.shown (update w.cursors state.groupId (w.cursors state.groupId)) := by
        rwa [update_eq_self]
      obtain ⟨w', cursor, hresult, hinv⟩ := syncItems_cursorInv hstart hnumber (hopen state hgroup)
      rw [sync_eq hstore hgroup, hresult]
      exact hinv

lemma RowInv.step (hstore : StoreInv d w) (h : RowInv number w) (o : Op Secret) (hnumber : Numbered d number w o)
    (hroom : Roomy w o) : RowInv number (w.step d o) := by
  cases o with
  | writeState =>
    simp only [World.step]
    split_ifs
    · exact h
    · exact ⟨h.nodup, h.found⟩
  | fetch groupId items =>
    simp only [World.step]
    split
    · exact h
    next state hgroup =>
      obtain ⟨rfl, -⟩ := group_eq_some hgroup
      have hinv := syncItems_rowInv h le_rfl hnumber hroom
      have hsync := sync_eq hstore hgroup items
      refine ⟨by rw [hsync]; exact hinv.nodup, fun m hm => ?_⟩
      rw [hsync] at hm
      rcases hinv.found m hm with hle | hrow
      · rw [(syncItems_frame ..).1] at hle
        exact .inl (hle.trans (cursors_le_sync hstore hgroup items _))
      · exact .inr (by rw [hsync]; exact hrow)

lemma StoreInv.start : StoreInv d (start : World Secret) := ⟨nofun, fun _ => le_rfl⟩

end

/-- **Group messages are shown once, under one number.** In every run in which each message always comes with the same
number, and in which all new items can be opened or the thread always has room, no message is appended to the thread
twice. -/
theorem thread_once (d : Deps Secret) (number : Content → ℤ) (ops : List (Op Secret))
    (hnumber : Legal (World.step d) (Numbered d number) World.start ops)
    (h : Legal (World.step d) (AllOpen d) World.start ops ∨ Legal (World.step d) Roomy World.start ops) :
    (run (World.step d) World.start ops).shown.Nodup := by
  rcases h with hopen | hroom
  · have hinv := run_inv (fun w => StoreInv d w ∧ CursorInv number w.shown w.cursors)
      (fun _ o hw ho => ⟨hw.1.step o, hw.2.step hw.1 o ho.1 ho.2⟩) ops ⟨.start, nodup_nil, nofun⟩ (hnumber.and hopen)
    exact hinv.2.nodup
  · have hinv := run_inv (fun w => StoreInv d w ∧ RowInv number w)
      (fun _ o hw ho => ⟨hw.1.step o, hw.2.step hw.1 o ho.1 ho.2⟩) ops ⟨.start, nodup_nil, nofun⟩ (hnumber.and hroom)
    exact hinv.2.nodup

/-! ## Two servers -/

namespace Sample

def prims : MessagePrims UInt32 :=
  { PqMsg.Sample.primitives with
    concat := fun secrets => secrets.foldl (· + ·) 0
    ed25519Verify := fun key _ signature => signature.1.head? = key.1.head?
    mlDsaVerify := fun key _ signature => if signature = key then .ok () else .error .signatureVerificationFailed
    ed25519Sign := fun key _ => ByteArr.replicate 64 (key.1.headD 0)
    mlDsaSign := fun key _ => .ok key }

/-- alice's group with bob -/
def group : PrivateGroupState UInt32 where
  groupId := "6f"
  epoch := 3
  rootSecret := 5
  attributes := ⟨"climbing", none, none, none⟩
  members := [⟨"alice", .owner⟩, ⟨"bob", .member⟩]
  createdAtUnixSeconds := 100
  updatedAtUnixSeconds := 200

/-- what alice sends -/
def sealed : Except CoreError PrivateGroupEncryptedMessage :=
  encryptMessage prims group "alice" (List.replicate 32 7) [7] "hi" 100 (ByteArr.replicate 12 0)

/-- the parts of the message, under short names -/
def parts (name : String) : Option Bytes :=
  match sealed with
  | .error _ => none
  | .ok m =>
    if name = "nonce" then some m.ciphertext.nonce.1
    else if name = "ciphertext" then some m.ciphertext.ciphertext
    else if name = "aad" then some m.ciphertext.aad
    else if name = "signature" then some m.senderHybridSignature
    else none

/-- the device of bob -/
def deps : Deps UInt32 where
  prims := prims
  userId := "bob"
  decodeJava := parts
  decodeRust name := if name = "key" then some (List.replicate 32 7) else some [7]
  le a b := a ≤ b
  isBlank := Groups.isBlank
  trim := Server.trim
  renderInboundPreview := id
  decodeMediaEnvelope _ := none

def item (messageId : ℤ) : PrivateGroupMessageItem :=
  ⟨messageId, "6f", 3, 100, "nonce", "ciphertext", "aad", "signature"⟩

def ids : Identities := ⟨fun _ => true, fun _ => .ok ⟨"key", "pqKey"⟩⟩

def fetch (numbers : List ℤ) : Op UInt32 := .fetch "6f" (numbers.map fun n => (item n, ids))

def repeated : List (Op UInt32) := [.writeState group, fetch [1, 1], fetch [1]]

def renumbered : List (Op UInt32) := [.writeState group, fetch [1, 2]]

def hi : Shown := ⟨contentOf deps (item 1), "alice"⟩

lemma runs_state : sealed.isOk = true ∧ Legal (step deps) (Numbered deps fun _ => 1) start repeated ∧
    Legal (step deps) Roomy start repeated ∧
    (run (step deps) start repeated).shown = [hi] ∧
    (run (step deps) start renumbered).shown = [hi, hi] := by
  decide +kernel

end Sample

open GroupThread.Sample in
/-- a message that comes three times under one number -/
theorem thread_once_repeated :
    (run (World.step deps) World.start repeated).shown = [hi] ∧
    Legal (World.step deps) (Numbered deps fun _ => 1) World.start repeated ∧
    Legal (World.step deps) Roomy World.start repeated ∧
    (run (World.step deps) World.start repeated).shown.Nodup := by
  obtain ⟨-, hnumber, hroom, hshown, -⟩ := runs_state
  exact ⟨hshown, hnumber, hroom, thread_once deps (fun _ => 1) repeated hnumber (.inr hroom)⟩

open GroupThread.Sample in
/-- a message of alice that comes under two numbers -/
theorem read_twice :
    sealed.isOk = true ∧ (run (World.step deps) World.start renumbered).shown = [hi, hi] ∧
    ¬(run (World.step deps) World.start renumbered).shown.Nodup := by
  obtain ⟨hsealed, -, -, -, hshown⟩ := runs_state
  refine ⟨hsealed, hshown, fun h => ?_⟩
  rw [hshown] at h
  exact (nodup_cons.1 h).1 (.head _)

end PqMsg.Client.GroupThread
