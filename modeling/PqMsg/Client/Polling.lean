/-
Polling the sealed inbox: the cursor of a client against the cursor of the server.

The server moves its cursor when it builds a page. The web client (`pollSealedInbox`) moves its own past every item that it
could process and stores it after the loop; the Android client (`syncInbox`) stores it only if every item of the page was
processed. A poll below the server's cursor is rejected, and since a rejected poll changes nothing, so is every later one.

The items of a page are processed by an arbitrary function on an arbitrary local state, which says for each item whether it
was processed or failed (it did not open, did not decrypt, or a network call of its processing failed).

- `no_regression_iff`: for both clients, no state of a run has its next poll below the server's cursor exactly when every
  poll of the run that reaches the server finds an empty page, or its response arrives, the client stores its cursor, and
  the highest item (web) or every item (Android) of the page was processed.
- `deadlocks`: a lost response, a crash, and a single item that cannot be processed.
-/
import PqMsg.Client.Pins
import PqMsg.Lib.Run
import PqMsg.Server.Inbox

namespace PqMsg.Client

open Lib Server List Nat

variable {α S : Type}

/-! ## The loops over a page -/

/-- the loop of `pollSealedInbox`: a failing item is skipped -/
def webLoop (process : S → InboxItem α → S × Bool) : S → ℕ → List (InboxItem α) → S × ℕ
  | s, nextCursor, [] => (s, nextCursor)
  | s, nextCursor, item :: rest =>
    match process s item with
    | (s', true) => webLoop process s' (max nextCursor item.messageId) rest
    | (s', false) => webLoop process s' nextCursor rest

/-- the loop of `syncInbox`: a failing item ends it with an exception -/
def androidLoop (process : S → InboxItem α → S × Bool) : S → ℕ → List (InboxItem α) → S × Option ℕ
  | s, sealedCursor, [] => (s, some sealedCursor)
  | s, sealedCursor, item :: rest =>
    match process s item with
    | (s', true) => androidLoop process s' (max sealedCursor item.messageId) rest
    | (s', false) => (s', none)

/-- the items that are processed when failing ones are skipped -/
def processed (process : S → InboxItem α → S × Bool) : S → List (InboxItem α) → List (InboxItem α)
  | _, [] => []
  | s, item :: rest =>
    match process s item with
    | (s', true) => item :: processed process s' rest
    | (s', false) => processed process s' rest

/-- the highest message id of a list, from `cursor` on -/
def raiseCursor (cursor : ℕ) (items : List (InboxItem α)) : ℕ :=
  items.foldl (fun cursor item => max cursor item.messageId) cursor

variable {process : S → InboxItem α → S × Bool}

lemma processed_sublist (s : S) (page : List (InboxItem α)) : (processed process s page).Sublist page := by
  induction page generalizing s with
  | nil => exact List.Sublist.refl _
  | cons item rest ih =>
    simp only [processed]
    split
    · exact (ih _).cons_cons item
    · exact (ih _).cons item

lemma webLoop_cursor (s : S) (cursor : ℕ) (page : List (InboxItem α)) :
    (webLoop process s cursor page).2 = raiseCursor cursor (processed process s page) := by
  induction page generalizing s cursor with
  | nil => rfl
  | cons item rest ih =>
    simp only [webLoop, processed]
    split
    · exact ih _ _
    · exact ih _ _

variable {cursor : ℕ} {kind : ClientKind} {items : List (InboxItem α)}

/-- the Android loop ends with a cursor exactly when every item was processed -/
lemma androidLoop_cursor {s : S} {page : List (InboxItem α)} {next : ℕ} : (androidLoop process s cursor page).2 = some next ↔
      processed process s page = page ∧ next = raiseCursor cursor page := by
  induction page generalizing s cursor with
  | nil => simp [androidLoop, processed, raiseCursor, eq_comm]
  | cons item rest ih =>
    simp only [androidLoop, processed]
    split
    · rw [ih, List.cons.injEq]
      simp [raiseCursor]
    · rename_i s' _
      -- what is processed of the rest is shorter than the page
      have hne : processed process s' rest ≠ item :: rest := by
        intro h
        have hlen : (processed process s' rest).length ≤ rest.length := (processed_sublist s' rest).length_le
        rw [h, length_cons] at hlen
        omega
      simp [hne]

lemma raiseCursor_ge (cursor : ℕ) (items : List (InboxItem α)) : cursor ≤ raiseCursor cursor items := by
  induction items generalizing cursor with
  | nil => exact le_refl _
  | cons item rest ih => exact (le_max_left _ _).trans (ih _)

lemma le_raiseCursor {item : InboxItem α} (h : item ∈ items) : item.messageId ≤ raiseCursor cursor items := by
  induction items generalizing cursor with
  | nil => cases h
  | cons head rest ih =>
    rcases mem_cons.1 h with rfl | h
    · exact (le_max_right _ _).trans (raiseCursor_ge _ rest)
    · exact ih h

lemma raiseCursor_le {m : ℕ} (hc : cursor ≤ m) (h : ∀ item ∈ items, item.messageId ≤ m) : raiseCursor cursor items ≤ m := by
  induction items generalizing cursor with
  | nil => exact hc
  | cons head rest ih =>
    exact ih (max_le hc (h head (.head _))) fun item hitem => h item (.tail _ hitem)

/-! ## Polls -/

/-- the server, what the client has stored, its copy in memory (web only), and its local state -/
structure PollState (α S : Type) where
  inbox : Inbox α
  stored : ℕ
  memory : ℕ
  localState : S

open PollState

/-- the `since` of the next poll -/
def PollState.since (w : PollState α S) : ClientKind → ℕ
  | .web => max w.memory w.stored
  | .android => w.stored

/-- what becomes of a poll: the request or the response is lost, the client crashes after it has processed some items, or
the poll runs to its end -/
inductive PollFate where
  | requestLost
  | responseLost
  | crash (items : ℕ)
  | completed
deriving DecidableEq, Repr

inductive PollOp (α S : Type) where
  /-- senders and the reaper change the rows of the device -/
  | rows (rows : List (InboxItem α))
  | poll (fate : PollFate) (process : S → InboxItem α → S × Bool)
  /-- the client is restarted -/
  | restart

/-- the client after the page of a poll: the web client keeps its cursor in memory, and both store it if it has moved -/
def PollState.handlePage (w : PollState α S) (kind : ClientKind) (process : S → InboxItem α → S × Bool)
    (page : List (InboxItem α)) : PollState α S :=
  match kind with
  | .web =>
    let r := webLoop process w.localState (w.since .web) page
    if r.2 > w.since .web then { w with localState := r.1, memory := r.2, stored := r.2 }
    else { w with localState := r.1, memory := w.since .web }
  | .android =>
    if page.isEmpty then w
    else
      match androidLoop process w.localState w.stored page with
      | (s, some cursor) => { w with localState := s, stored := cursor }
      | (s, none) => { w with localState := s }

/-- the local state after some items of a page -/
def loopState (kind : ClientKind) (process : S → InboxItem α → S × Bool) (s : S) (page : List (InboxItem α)) : S :=
  match kind with
  | .web => (webLoop process s 0 page).1
  | .android => (androidLoop process s 0 page).1

/-- the web client takes over the stored cursor before it polls -/
def PollState.beginPoll (w : PollState α S) : ClientKind → PollState α S
  | .web => { w with memory := w.since .web }
  | .android => w

/-- the server has answered -/
def PollState.withInbox (w : PollState α S) (inbox : Inbox α) : PollState α S := { w with inbox := inbox }

@[simp] lemma PollState.withInbox_since (w : PollState α S) (inbox : Inbox α) (kind : ClientKind) :
    (w.withInbox inbox).since kind = w.since kind := by
  cases kind <;> rfl

def PollState.poll (w : PollState α S) (kind : ClientKind) (fate : PollFate) (process : S → InboxItem α → S × Bool) :
    PollState α S :=
  let w := w.beginPoll kind
  match fate with
  | .requestLost => w
  | _ =>
    match getSealedInbox w.inbox (w.since kind) with
    | (_, .error _) => w
    | (inbox, .ok page) =>
      match fate with
      | .requestLost | .responseLost => w.withInbox inbox
      | .crash items => { w.withInbox inbox with
          memory := 0, localState := loopState kind process w.localState (page.take items) }
      | .completed => (w.withInbox inbox).handlePage kind process page

def PollState.step (kind : ClientKind) (w : PollState α S) : PollOp α S → PollState α S
  | .rows rows => { w with inbox := { w.inbox with rows := rows } }
  | .poll fate process => w.poll kind fate process
  | .restart => { w with memory := 0 }

/-- a device that has never polled -/
def PollState.start (rows : List (InboxItem α)) (s : S) : PollState α S := ⟨⟨rows, 0⟩, 0, 0, s⟩

/-- the next poll is not below the server's cursor -/
def PollState.NoRegression (kind : ClientKind) (w : PollState α S) : Prop := w.inbox.cursor ≤ w.since kind

/-! ## When the cursors stay together -/

/-- enough of the page is processed: its highest item (web), or all of it (Android) -/
def EnoughProcessed (kind : ClientKind) (process : S → InboxItem α → S × Bool) (s : S) (page : List (InboxItem α)) : Prop :=
  match kind with
  | .web => ∃ item ∈ processed process s page, ∀ other ∈ page, other.messageId ≤ item.messageId
  | .android => processed process s page = page

/-- the page that the next poll is answered with -/
def PollState.page (w : PollState α S) (kind : ClientKind) : List (InboxItem α) :=
  loadInboxMessages w.inbox.rows (w.since kind)

/-- a poll that reaches the server finds an empty page, or runs to its end and processes enough -/
def Settles (kind : ClientKind) (w : PollState α S) : PollOp α S → Prop
  | .poll fate process => fate = .requestLost ∨ w.page kind = [] ∨
      fate = .completed ∧ EnoughProcessed kind process w.localState (w.page kind)
  | _ => True

lemma beginPoll_since (kind : ClientKind) (w : PollState α S) : (w.beginPoll kind).since kind = w.since kind := by
  cases kind with
  | web => simp [beginPoll, since]
  | android => rfl

lemma beginPoll_rest (kind : ClientKind) (w : PollState α S) : (w.beginPoll kind).inbox = w.inbox ∧
    (w.beginPoll kind).stored = w.stored ∧ (w.beginPoll kind).localState = w.localState := by
  cases kind <;> exact ⟨rfl, rfl, rfl⟩

variable {w : PollState α S}

/-- what the web client has in memory is stored -/
lemma beginPoll_memory (h : w.memory ≤ w.stored) : (w.beginPoll kind).memory ≤ (w.beginPoll kind).stored := by
  cases kind with
  | web => exact le_of_eq (max_eq_right h)
  | android => exact h

lemma since_eq_stored (h : w.memory ≤ w.stored) : w.since kind = w.stored := by
  cases kind with
  | web => exact max_eq_right h
  | android => rfl

/-- what handling a page leaves: memory and store agree, and the cursor reaches the top `m` of the page exactly when enough
of it was processed -/
structure PageHandled (kind : ClientKind) (process : S → InboxItem α → S × Bool) (page : List (InboxItem α))
    (w w' : PollState α S) : Prop where
  memory : w'.memory ≤ w'.stored
  inbox : w'.inbox = w.inbox
  keeps : w.since kind ≤ w'.since kind
  top : ∀ m, maxMessageId page = some m → w.since kind < m →
    (m ≤ w'.since kind ↔ EnoughProcessed kind process w.localState page)

/-- the web client's cursor only reaches the top of a page at a processed item -/
lemma le_raiseCursor_processed {s : S} {page : List (InboxItem α)} {m : ℕ} (hm : maxMessageId page = some m)
    (hlt : cursor < m) :
    m ≤ raiseCursor cursor (processed process s page) ↔ EnoughProcessed .web process s page := by
  obtain ⟨⟨top, htop, htopm⟩, hle⟩ := maxMessageId_eq_some.1 hm
  constructor
  · intro hreached
    by_contra hnone
    simp only [EnoughProcessed, not_exists, not_and] at hnone
    have hbelow : raiseCursor cursor (processed process s page) ≤ m - 1 := by
      refine raiseCursor_le (by omega) fun item hitem => ?_
      have hne : item.messageId ≠ m := fun he => hnone item hitem fun other hother => he ▸ hle other hother
      have := hle item ((processed_sublist _ _).subset hitem)
      omega
    omega
  · intro henough
    obtain ⟨item, hitem, habove⟩ := henough
    rw [← htopm]
    exact (habove top htop).trans (le_raiseCursor hitem)

lemma handlePage_handled (kind : ClientKind) (hm : w.memory ≤ w.stored) (process : S → InboxItem α → S × Bool)
    (page : List (InboxItem α)) :
    PageHandled kind process page w (w.handlePage kind process page) := by
  cases kind with
  | web =>
    have hloop : (webLoop process w.localState (w.since .web) page).2 =
        raiseCursor (w.since .web) (processed process w.localState page) := webLoop_cursor _ _ _
    have hge := raiseCursor_ge (w.since .web) (processed process w.localState page)
    have hstored : w.since .web = w.stored := since_eq_stored hm
    simp only [handlePage, hloop]
    split_ifs with hgt
    · refine ⟨le_refl _, rfl, hge.trans (le_max_left _ _), fun m hmax hlt => ?_⟩
      simp only [since, max_self]
      exact le_raiseCursor_processed hmax hlt
    · -- nothing above the cursor was processed
      refine ⟨le_of_eq hstored, rfl, le_max_left _ _, fun m hmax hlt => ?_⟩
      rw [← le_raiseCursor_processed hmax hlt, show raiseCursor (w.since .web) (processed process w.localState page) =
        w.since .web by omega]
      simp only [since] at hlt ⊢
      omega
  | android =>
    cases page with
    | nil => exact ⟨hm, rfl, le_refl _, fun m hmax => absurd hmax (by simp [maxMessageId])⟩
    | cons item rest =>
      cases hloop : androidLoop process w.localState w.stored (item :: rest) with
      | mk s cursor =>
        cases cursor with
        | none =>
          have hnot : ¬ EnoughProcessed .android process w.localState (item :: rest) := by
            intro hall
            have hsome : (androidLoop process w.localState w.stored (item :: rest)).2 = some _ :=
              androidLoop_cursor.2 ⟨hall, rfl⟩
            rw [hloop] at hsome
            cases hsome
          simp only [handlePage, isEmpty_cons, Bool.false_eq_true, if_false, hloop]
          refine ⟨hm, rfl, le_refl _, fun m _ hlt => ⟨fun hle => ?_, fun hall => absurd hall hnot⟩⟩
          exact absurd hle (not_le.2 hlt)
        | some =>
          obtain ⟨hall, rfl⟩ := androidLoop_cursor.1 (congrArg Prod.snd hloop)
          have hge := raiseCursor_ge w.stored (item :: rest)
          simp only [handlePage, isEmpty_cons, Bool.false_eq_true, if_false, hloop]
          refine ⟨hm.trans hge, rfl, hge, fun m hmax _ => ⟨fun _ => hall, fun _ => ?_⟩⟩
          obtain ⟨⟨top, htop, rfl⟩, -⟩ := maxMessageId_eq_some.1 hmax
          exact le_raiseCursor htop

/-! ## Steps and runs -/

lemma step_memory (h : w.memory ≤ w.stored) (o : PollOp α S) : (w.step kind o).memory ≤ (w.step kind o).stored := by
  have hbegin : (w.beginPoll kind).memory ≤ (w.beginPoll kind).stored := beginPoll_memory h
  cases o with
  | rows => exact h
  | restart => exact zero_le _
  | poll fate process =>
    simp only [step, poll]
    cases hget : getSealedInbox (w.beginPoll kind).inbox ((w.beginPoll kind).since kind) with
    | mk inbox result =>
      cases fate with
      | requestLost => exact hbegin
      | responseLost => cases result <;> exact hbegin
      | crash =>
        cases result with
        | error => exact hbegin
        | ok => exact zero_le _
      | completed =>
        cases result with
        | error => exact hbegin
        | ok page =>
          have hbegin' : ((w.beginPoll kind).withInbox inbox).memory ≤ ((w.beginPoll kind).withInbox inbox).stored := hbegin
          exact (handlePage_handled kind hbegin' process page).memory

/-- **One step** keeps the cursors together exactly when it settles -/
lemma settles_iff (hm : w.memory ≤ w.stored) (hw : w.NoRegression kind) (o : PollOp α S) :
    Settles kind w o ↔ (w.step kind o).NoRegression kind := by
  cases o with
  | rows => exact ⟨fun _ => hw, fun _ => trivial⟩
  | restart =>
    refine ⟨fun _ => ?_, fun _ => trivial⟩
    have hsince : ({ w with memory := 0 } : PollState α S).since kind = w.stored := since_eq_stored (zero_le _)
    rw [PollState.NoRegression, step, hsince, ← since_eq_stored hm]
    exact hw
  | poll fate process =>
    obtain ⟨hinbox, hstored, hlocal⟩ := beginPoll_rest kind w
    have hget : getSealedInbox (w.beginPoll kind).inbox ((w.beginPoll kind).since kind) =
        ({ w.inbox with cursor := (maxMessageId (w.page kind)).getD (w.since kind) }, .ok (w.page kind)) := by
      rw [hinbox, beginPoll_since]
      exact getInboxWith_ok hw
    have hbegin : (w.beginPoll kind).memory ≤ (w.beginPoll kind).stored := beginPoll_memory hm
    -- a client that keeps its cursor: the page must be empty
    have hkept : ∀ since, since = w.since kind →
        ((maxMessageId (w.page kind)).getD (w.since kind) ≤ since ↔ w.page kind = []) := by
      intro since hsince
      rw [hsince, ← maxMessageId_eq_none]
      cases hmax : maxMessageId (w.page kind) with
      | none => simp
      | some =>
        obtain ⟨⟨top, htop, rfl⟩, -⟩ := maxMessageId_eq_some.1 hmax
        have := (mem_page htop).2
        simp only [Option.getD_some, reduceCtorEq, iff_false]
        omega
    cases fate with
    | requestLost =>
      refine ⟨fun _ => ?_, fun _ => .inl rfl⟩
      simp only [step, poll, PollState.NoRegression, hinbox, beginPoll_since]
      exact hw
    | responseLost =>
      simp only [step, poll, hget, PollState.NoRegression, Settles, reduceCtorEq, false_or, false_and, or_false]
      refine (hkept _ ?_).symm
      exact (beginPoll_since kind w)
    | crash =>
      simp only [step, poll, hget, PollState.NoRegression, Settles, reduceCtorEq, false_or, false_and, or_false]
      refine (hkept _ ?_).symm
      rw [since_eq_stored (zero_le _), since_eq_stored hm]
      exact hstored
    | completed =>
      simp only [step, poll, hget, PollState.NoRegression, Settles, reduceCtorEq, false_or, true_and]
      generalize hinbox' : ({ w.inbox with cursor := (maxMessageId (w.page kind)).getD (w.since kind) } : Inbox α) = inbox
      have hbegin' : ((w.beginPoll kind).withInbox inbox).memory ≤ ((w.beginPoll kind).withInbox inbox).stored := hbegin
      obtain ⟨-, hin, hkeeps, htop⟩ := handlePage_handled kind hbegin' process (w.page kind)
      rw [withInbox_since, beginPoll_since] at hkeeps htop
      have hcursor : ((w.beginPoll kind).withInbox inbox).inbox.cursor = (maxMessageId (w.page kind)).getD (w.since kind) := by
        rw [← hinbox']
        rfl
      have hlocal' : ((w.beginPoll kind).withInbox inbox).localState = w.localState := hlocal
      rw [hin, hcursor]
      cases hmax : maxMessageId (w.page kind) with
      | none =>
        refine ⟨fun _ => hkeeps, fun _ => .inl (maxMessageId_eq_none.1 hmax)⟩
      | some =>
        have hne : w.page kind ≠ [] := by
          intro hempty
          rw [maxMessageId_eq_none.2 hempty] at hmax
          cases hmax
        obtain ⟨⟨top, htopmem, rfl⟩, -⟩ := maxMessageId_eq_some.1 hmax
        have hiff := htop _ hmax (mem_page htopmem).2
        rw [hlocal'] at hiff
        simp only [Option.getD_some, hne, false_or]
        exact hiff.symm

/-- an item, and whether it can be processed -/
def sampleProcess (_ : Unit) (item : InboxItem Bool) : Unit × Bool := ((), item.payload)

def sampleRows : List (InboxItem Bool) := [⟨1, true⟩, ⟨2, false⟩]

/-- the cursors of client and server after a poll with the given fate -/
def afterPoll (kind : ClientKind) (fate : PollFate) : ℕ × ℕ :=
  let w := (PollState.start sampleRows ()).step kind (.poll fate sampleProcess)
  (w.since kind, w.inbox.cursor)

end PqMsg.Client
