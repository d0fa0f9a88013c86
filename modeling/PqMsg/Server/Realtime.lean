/-
Delivery of one device's messages over polls and websockets, and the cursor they share (`handlers/messaging.rs`,
`RealtimeHub` in `lib.rs`).

A relay inserts a row under the next message id, commits, and publishes the message to the sockets that are subscribed. A
poll checks its `since`, loads a page, moves the cursor and answers. A socket handler subscribes, loads one page of backlog,
sends it, moves the cursor, and then forwards what is published to it, skipping what is not above the last message it has
sent. Every `await` of the handlers is a step of its own, so that the handlers interleave freely; a handler that fails stops.
The device polls with the highest message it has received. Rows may be deleted at any time.

The server never loses sight of a stored message below the cursor if relays commit and publish in the order of their ids,
the backlog of a new socket fits one page, and a socket is opened with a `since` that the device has reached. Nothing in the
server sees to the first three. Publishing over Redis, which adds ways for a publish to get lost, is left out.

- `RelayInv`: every number the server may move the cursor to has all stored messages below it sent out.
- `PollSound.step`, `SocketSound.step`, `SocketSound.offer`: one step of a poll, of a socket and of a publish.
- `cursor_covered`: the cursor has everything below it sent out, in every run in order.
- `passes_undelivered`: one run for each of the four conditions that breaks it.
-/
import PqMsg.Lib.Run
import PqMsg.Server.Inbox

namespace PqMsg.Server

open Lib Function List Option List.Subset

variable {α : Type}

/-! ## Handlers -/

def subscriberChannelCapacity : ℕ := 256

inductive PollPhase (α : Type) where
  | idle
  | checked (since lastSeen : ℕ)
  | loaded (since lastSeen : ℕ) (messages : List (InboxItem α))

inductive SocketPhase (α : Type) where
  | closed
  | upgrading
  | subscribed
  | backlog (messages : List (InboxItem α))
  -- a frame is sent and the cursor is not moved yet
  | sent
  | live

/-- a websocket: `queue` is its channel, `registered` whether the hub still has its sender -/
structure Socket (α : Type) where
  phase : SocketPhase α
  lastMessageId : ℕ
  queue : List (InboxItem α)
  registered : Bool

def Socket.absent : Socket α := ⟨.closed, 0, [], false⟩

/-- what a step of a handler puts into a response or frame, and what it moves the cursor to -/
structure Effect (α : Type) where
  messages : List (InboxItem α)
  mark : Option ℕ

def Effect.none : Effect α := ⟨[], .none⟩

inductive PollStep where
  | check
  | load
  | answer
  | fail
deriving DecidableEq

inductive SocketStep where
  | subscribe
  | load
  | sync (sent : Bool)
  | update
  | receive (sent : Bool)
  | close
deriving DecidableEq

/-- `get_inbox` and `get_sealed_inbox`, from one `await` to the next -/
def PollPhase.step (regressed : String) (inbox : Inbox α) (received : ℕ) (p : PollPhase α) : PollStep → PollPhase α × Effect α
  | .check =>
    match p with
    | .idle =>
      match enforceCursorMonotonic regressed inbox.cursor received with
      | .ok lastSeen => (.checked received lastSeen, .none)
      | .error _ => (.idle, .none)
    | p => (p, .none)
  | .load =>
    match p with
    | .checked since lastSeen => (.loaded since lastSeen (loadInboxMessages inbox.rows since), .none)
    | p => (p, .none)
  | .answer =>
    match p with
    | .loaded since lastSeen messages =>
      (.idle, ⟨messages, some ((maxMessageId messages).getD (max lastSeen since))⟩)
    | p => (p, .none)
  | .fail => (.idle, .none)

/-- `handle_ws_inbox_socket` and `handle_ws_sealed_inbox_socket`, from one `await` to the next -/
def Socket.step (rows : List (InboxItem α)) (s : Socket α) : SocketStep → Socket α × Effect α
  | .subscribe =>
    match s.phase with
    | .upgrading => (⟨.subscribed, s.lastMessageId, [], true⟩, .none)
    | _ => (s, .none)
  | .load =>
    match s.phase with
    | .subscribed =>
      let backlog := loadInboxMessages rows s.lastMessageId
      (⟨.backlog backlog, (maxMessageId backlog).getD s.lastMessageId, s.queue, s.registered⟩, .none)
    | _ => (s, .none)
  | .sync sent =>
    match s.phase with
    | .backlog messages =>
      if messages = [] ∨ sent then (⟨.sent, s.lastMessageId, s.queue, s.registered⟩, ⟨messages, .none⟩)
      else (.absent, .none)
    | _ => (s, .none)
  | .update =>
    match s.phase with
    | .sent => (⟨.live, s.lastMessageId, s.queue, s.registered⟩, ⟨[], some s.lastMessageId⟩)
    | _ => (s, .none)
  | .receive sent =>
    match s.phase, s.queue with
    | .live, [] => if s.registered then (s, .none) else (.absent, .none)
    | .live, message :: queue =>
      if message.messageId ≤ s.lastMessageId then (⟨.live, s.lastMessageId, queue, s.registered⟩, .none)
      else if sent then (⟨.sent, message.messageId, queue, s.registered⟩, ⟨[message], .none⟩)
      else (.absent, .none)
    | _, _ => (s, .none)
  | .close => (.absent, .none)

/-- `dispatch_local`: a socket whose channel is full is dropped from the hub -/
def Socket.offer (message : InboxItem α) (s : Socket α) : Socket α :=
  if s.registered then
    if s.queue.length < subscriberChannelCapacity then { s with queue := s.queue ++ [message] }
    else { s with registered := false }
  else s

/-! ## The server -/

structure Relay (α : Type) where
  nextId : ℕ
  /-- rows of transactions that are not committed -/
  inserted : List (InboxItem α)
  inbox : Inbox α
  /-- committed and not yet published -/
  unpublished : List (InboxItem α)
  polls : ℕ → PollPhase α
  sockets : ℕ → Socket α
  /-- the messages in some poll response or frame so far -/
  included : List ℕ
  /-- the highest message the device has received -/
  received : ℕ

inductive RelayOp (α : Type) where
  /-- `gap` ids go to rows of other devices -/
  | insert (gap : ℕ) (payload : α)
  | commit (messageId : ℕ)
  | rollback (messageId : ℕ)
  | publish (messageId : ℕ)
  | expire (messageId : ℕ)
  | arrive (messageId : ℕ)
  | poll (i : ℕ) (op : PollStep)
  | connect (j since : ℕ)
  | socket (j : ℕ) (op : SocketStep)

def Relay.start : Relay α := ⟨1, [], ⟨[], 0⟩, [], fun _ => .idle, fun _ => .absent, [], 0⟩

def ids (items : List (InboxItem α)) : List ℕ := items.map InboxItem.messageId

def without (messageId : ℕ) (items : List (InboxItem α)) : List (InboxItem α) :=
  items.filter fun item => item.messageId ≠ messageId

def Relay.apply (w : Relay α) (e : Effect α) : Relay α :=
  { w with
    inbox := ⟨w.inbox.rows, e.mark.elim w.inbox.cursor (updateCursor w.inbox.cursor)⟩
    included := w.included ++ ids e.messages }

def Relay.step (regressed : String) (w : Relay α) : RelayOp α → Relay α
  | .insert gap payload =>
    { w with nextId := w.nextId + gap + 1, inserted := w.inserted ++ [⟨w.nextId + gap, payload⟩] }
  | .commit messageId =>
    match w.inserted.find? fun row => row.messageId = messageId with
    | none => w
    | some row =>
      { w with
        inserted := without messageId w.inserted
        inbox := ⟨w.inbox.rows ++ [row], w.inbox.cursor⟩
        unpublished := w.unpublished ++ [row] }
  | .rollback messageId => { w with inserted := without messageId w.inserted }
  | .publish messageId =>
    match w.unpublished.find? fun row => row.messageId = messageId with
    | none => w
    | some row =>
      { w with unpublished := without messageId w.unpublished, sockets := fun j => (w.sockets j).offer row }
  | .expire messageId => { w with inbox := ⟨without messageId w.inbox.rows, w.inbox.cursor⟩ }
  | .arrive messageId => if messageId ∈ w.included then { w with received := max w.received messageId } else w
  | .poll i op =>
    let (p, e) := (w.polls i).step regressed w.inbox w.received op
    { w with polls := Function.update w.polls i p }.apply e
  | .connect j since =>
    match (w.sockets j).phase, enforceCursorMonotonic regressed w.inbox.cursor since with
    | .closed, .ok _ => { w with sockets := Function.update w.sockets j ⟨.upgrading, since, [], false⟩ }
    | _, _ => w
  | .socket j op =>
    let (s, e) := (w.sockets j).step w.inbox.rows op
    { w with sockets := Function.update w.sockets j s }.apply e

/-- commits and publishes in the order of ids, a backlog of at most one page, a `since` the device has reached -/
def InOrder (w : Relay α) : RelayOp α → Prop
  | .commit messageId => ∀ row ∈ w.inserted, messageId ≤ row.messageId
  | .publish messageId => ∀ row ∈ w.unpublished, messageId ≤ row.messageId
  | .connect _ since => since ≤ w.received
  | .socket j .load =>
    (w.inbox.rows.filter fun row => (w.sockets j).lastMessageId < row.messageId).length ≤ maxInboxPage
  | _ => True

instance (w : Relay α) : ∀ op, Decidable (InOrder w op)
  | .commit _ | .publish _ => inferInstanceAs (Decidable (∀ row ∈ _, _))
  | .connect _ _ | .socket _ .load => inferInstanceAs (Decidable (_ ≤ _))
  | .insert _ _ | .rollback _ | .expire _ | .arrive _ | .poll _ _ => isTrue trivial
  | .socket _ .subscribe | .socket _ (.sync _) | .socket _ .update | .socket _ (.receive _) | .socket _ .close =>
    isTrue trivial

/-! ## What is safe to move the cursor to -/

variable {items : List (InboxItem α)} {top : ℕ} {w : Relay α} {row : InboxItem α} {item : InboxItem α} {messageId : ℕ}

lemma mem_ids (h : item ∈ items) : item.messageId ∈ ids items :=
  mem_map_of_mem h

lemma mem_without : item ∈ without messageId items ↔ item ∈ items ∧ item.messageId ≠ messageId := by
  rw [without, mem_filter, decide_eq_true_iff]

/-- what the soundness of a handler depends on; later commits are above `top` -/
structure View (α : Type) where
  top : ℕ
  rows : List (InboxItem α)
  unpublished : List (InboxItem α)
  included : List ℕ

def View.sent (v : View α) (messages : List (InboxItem α)) : View α :=
  { v with included := v.included ++ ids messages }

/-- every stored message up to `n` is in a response or frame, and no later commit is at or below `n` -/
structure Safe (v : View α) (n : ℕ) : Prop where
  below : n ≤ v.top
  covered : ∀ row ∈ v.rows, row.messageId ≤ n → row.messageId ∈ v.included

/-- rows are deleted, or added above `top`, and more is sent out -/
structure Grows (v v' : View α) : Prop where
  top : v.top ≤ v'.top
  rows : ∀ row ∈ v'.rows, row ∈ v.rows ∨ v.top < row.messageId
  included : v.included ⊆ v'.included

/-- the same, where what is added is yet to be published -/
structure Commits (v v' : View α) : Prop extends Grows v v' where
  fresh : ∀ row ∈ v'.rows, row ∈ v.rows ∨ row.messageId ∈ ids v'.unpublished
  unpublished : ids v.unpublished ⊆ ids v'.unpublished
  later : ∀ row ∈ v'.unpublished, row ∈ v.unpublished ∨ v.top < row.messageId

section Views

variable {v v' : View α} {n m : ℕ} {p : PollPhase α}

lemma Safe.grow (hg : Grows v v') (h : Safe v n) : Safe v' n := by
  refine ⟨h.below.trans hg.top, fun row hrow hle => ?_⟩
  rcases hg.rows row hrow with hold | hnew
  · exact hg.included (h.covered row hold hle)
  · have hbelow := h.below
    omega

lemma Safe.mono (h : Safe v n) (hle : m ≤ n) : Safe v m :=
  ⟨hle.trans h.below, fun row hrow hm => h.covered row hrow (hm.trans hle)⟩

lemma Safe.max (hn : Safe v n) (hm : Safe v m) : Safe v (max n m) := by
  rcases max_choice n m with h | h
  · rw [h]
    exact hn
  · rw [h]
    exact hm

lemma Commits.sent (v : View α) (messages : List (InboxItem α)) : Commits v (v.sent messages) where
  top := le_rfl
  rows _ hrow := .inl hrow
  included := subset_append_left _ _
  fresh _ hrow := .inl hrow
  unpublished := refl _
  later _ hrow := .inl hrow

lemma Safe.sent (h : Safe v n) (messages : List (InboxItem α)) : Safe (v.sent messages) n :=
  h.grow (Commits.sent v messages).toGrows

lemma Grows.pending (hg : Grows v v') (messages : List (InboxItem α)) : Grows (v.sent messages) (v'.sent messages) where
  top := hg.top
  rows := hg.rows
  included := append_subset.2 ⟨fun _ h => mem_append_left _ (hg.included h), subset_append_right _ _⟩

/-- **A page is safe**: it has no gaps above a safe `since` -/
lemma safe_page {since : ℕ} (hsince : Safe v since) (hrows : ∀ row ∈ v.rows, row.messageId ≤ v.top)
    (hitem : item ∈ loadInboxMessages v.rows since) : Safe (v.sent (loadInboxMessages v.rows since)) item.messageId := by
  refine ⟨hrows item (mem_page hitem).1, fun row hrow hle => ?_⟩
  by_cases hs : row.messageId ≤ since
  · exact mem_append_left _ (hsince.covered row hrow hs)
  · apply mem_append_right
    rcases hle.lt_or_eq with hlt | heq
    · exact mem_ids (page_complete hrow (by omega) hitem hlt)
    · rw [heq]
      exact mem_ids hitem

/-- an effect that sends out safe messages and moves the cursor to a safe one -/
structure EffectSound (v : View α) (e : Effect α) : Prop where
  messages : ∀ item ∈ e.messages, Safe (v.sent e.messages) item.messageId
  mark : ∀ n ∈ e.mark, Safe (v.sent e.messages) n

lemma EffectSound.none : EffectSound v Effect.none :=
  ⟨fun _ h => absurd h not_mem_nil, fun _ h => absurd h (not_mem_none _)⟩

/-! ## Polls -/

def PollSound (v : View α) : PollPhase α → Prop
  | .idle => True
  | .checked since lastSeen => Safe v since ∧ Safe v lastSeen
  | .loaded since lastSeen messages =>
    Safe v since ∧ Safe v lastSeen ∧ ∀ item ∈ messages, Safe (v.sent messages) item.messageId

lemma PollSound.grow (hg : Grows v v') (h : PollSound v p) : PollSound v' p := by
  cases p with
  | idle => trivial
  | checked => exact ⟨h.1.grow hg, h.2.grow hg⟩
  | loaded since lastSeen messages =>
    exact ⟨h.1.grow hg, h.2.1.grow hg, fun item hitem => (h.2.2 item hitem).grow (hg.pending messages)⟩

/-- **One step of a poll** sends out and marks only what is safe -/
lemma PollSound.step (regressed : String) {cursor received : ℕ} (hcursor : Safe v cursor) (hreceived : Safe v received)
    (hrows : ∀ row ∈ v.rows, row.messageId ≤ v.top) (h : PollSound v p) (op : PollStep) :
    PollSound v (p.step regressed ⟨v.rows, cursor⟩ received op).1 ∧
      EffectSound v (p.step regressed ⟨v.rows, cursor⟩ received op).2 := by
  cases op with
  | check =>
    cases p with
    | idle =>
      by_cases hc : received < cursor
      · simp only [PollPhase.step, enforceCursorMonotonic, if_pos hc]
        exact ⟨trivial, .none⟩
      · simp only [PollPhase.step, enforceCursorMonotonic, if_neg hc]
        exact ⟨⟨hreceived, hcursor⟩, .none⟩
    | checked | loaded => exact ⟨h, .none⟩
  | load =>
    cases p with
    | idle => exact ⟨trivial, .none⟩
    | checked => exact ⟨⟨h.1, h.2, fun item hitem => safe_page h.1 hrows hitem⟩, .none⟩
    | loaded => exact ⟨h, .none⟩
  | answer =>
    cases p with
    | idle => exact ⟨trivial, .none⟩
    | checked => exact ⟨h, .none⟩
    | loaded since lastSeen messages =>
      refine ⟨trivial, h.2.2, fun n hn => ?_⟩
      obtain rfl := mem_some_iff.1 hn
      cases hmax : maxMessageId messages with
      | none => exact (h.2.1.max h.1).sent messages
      | some =>
        obtain ⟨⟨item, hitem, rfl⟩, -⟩ := maxMessageId_eq_some.1 hmax
        exact h.2.2 item hitem
  | fail => exact ⟨trivial, .none⟩

/-! ## Sockets -/

/-- the frame a socket is about to send -/
def Socket.pending (s : Socket α) : List (InboxItem α) :=
  match s.phase with
  | .backlog messages => messages
  | _ => []

/-- the backlog is loaded: for everything later the socket depends on its channel -/
def Socket.Loaded (s : Socket α) : Prop :=
  match s.phase with
  | .closed | .upgrading | .subscribed => False
  | .backlog _ | .sent | .live => True

/-- A socket whose last message is safe once its pending frame is sent, and whose channel is in the order of ids. A row
above the last message is sent out already, or in the channel, or above everything there; in the last case it is yet to be
published unless the hub has dropped the socket. -/
structure SocketSound (v : View α) (s : Socket α) : Prop where
  last : Safe (v.sent s.pending) s.lastMessageId
  pending : ∀ item ∈ s.pending, item.messageId ≤ s.lastMessageId
  queued : ∀ message ∈ s.queue, message.messageId ≤ v.top
  sorted : s.queue.Pairwise fun a b => a.messageId < b.messageId
  behind : ∀ message ∈ s.queue, ∀ row ∈ v.unpublished, message.messageId < row.messageId
  follows : s.Loaded → ∀ row ∈ v.rows, s.lastMessageId < row.messageId →
    row.messageId ∈ v.included ∨ row.messageId ∈ ids s.queue ∨
      (s.registered → row.messageId ∈ ids v.unpublished) ∧ ∀ message ∈ s.queue, message.messageId < row.messageId

variable {s : Socket α} {last : ℕ} {queue : List (InboxItem α)} {registered : Bool} {message : InboxItem α} {x : InboxItem α}

/-- a socket that has nothing in its channel and no backlog -/
lemma SocketSound.idle (hlast : Safe v s.lastMessageId) (hpending : s.pending = []) (hqueue : s.queue = [])
    (hloaded : ¬ s.Loaded) : SocketSound v s where
  last := by rw [hpending]; exact hlast.sent []
  pending item hitem := by rw [hpending] at hitem; exact absurd hitem not_mem_nil
  queued message hmem := by rw [hqueue] at hmem; exact absurd hmem not_mem_nil
  sorted := by rw [hqueue]; exact List.Pairwise.nil
  behind message hmem := by rw [hqueue] at hmem; exact absurd hmem not_mem_nil
  follows hl := absurd hl hloaded

lemma SocketSound.absent (h : Safe v n) : SocketSound v Socket.absent :=
  .idle (h.mono (Nat.zero_le n)) rfl rfl id

lemma SocketSound.grow (hg : Commits v v') (h : SocketSound v s) : SocketSound v' s where
  last := h.last.grow (hg.toGrows.pending s.pending)
  pending := h.pending
  queued message hmem := (h.queued message hmem).trans hg.top
  sorted := h.sorted
  behind message hmem row hrow := by
    rcases hg.later row hrow with hold | hnew
    · exact h.behind message hmem row hold
    · exact (h.queued message hmem).trans_lt hnew
  follows hl row hrow hlt := by
    by_cases hold : row ∈ v.rows
    · rcases h.follows hl row hold hlt with hin | hq | ⟨hun, hq⟩
      · exact .inl (hg.included hin)
      · exact .inr (.inl hq)
      · exact .inr (.inr ⟨fun hreg => hg.unpublished (hun hreg), hq⟩)
    · -- a new row is above everything in the channel
      have htop := (hg.rows row hrow).resolve_left hold
      have hun := (hg.fresh row hrow).resolve_left hold
      exact .inr (.inr ⟨fun _ => hun, fun message hmem => (h.queued message hmem).trans_lt htop⟩)

/-- a publish that does not reach the socket -/
lemma SocketSound.missed (h : SocketSound v s) (messageId : ℕ) :
    SocketSound { v with unpublished := without messageId v.unpublished } { s with registered := false } where
  last := ⟨h.last.below, h.last.covered⟩
  pending := h.pending
  queued := h.queued
  sorted := h.sorted
  behind message hmem row hrow := h.behind message hmem row (mem_without.1 hrow).1
  follows hl row hrow hlt := by
    rcases h.follows hl row hrow hlt with hin | hq | ⟨-, hq⟩
    · exact .inl hin
    · exact .inr (.inl hq)
    · exact .inr (.inr ⟨fun hfalse => absurd hfalse Bool.false_ne_true, hq⟩)

/-- **One publish**, of the lowest message that is unpublished -/
lemma SocketSound.offer (h : SocketSound v s) (hx : x ∈ v.unpublished) (htop : x.messageId ≤ v.top)
    (hmin : ∀ row ∈ v.unpublished, x.messageId ≤ row.messageId) :
    SocketSound { v with unpublished := without x.messageId v.unpublished } (s.offer x) := by
  unfold Socket.offer
  split_ifs with hreg hcap
  · -- the publish reaches the socket
    have hlater : ∀ row ∈ without x.messageId v.unpublished, x.messageId < row.messageId := by
      intro row hrow
      obtain ⟨hmem, hne⟩ := mem_without.1 hrow
      exact lt_of_le_of_ne (hmin row hmem) (Ne.symm hne)
    refine ⟨⟨h.last.below, h.last.covered⟩, h.pending, ?_, ?_, ?_, ?_⟩
    · exact forall_mem_append.2 ⟨h.queued, forall_mem_singleton.2 htop⟩
    · refine pairwise_append.2 ⟨h.sorted, pairwise_singleton _ _, fun a ha b hb => ?_⟩
      rw [mem_singleton.1 hb]
      exact h.behind a ha x hx
    · exact forall_mem_append.2 ⟨fun message hold row hrow => h.behind message hold row (mem_without.1 hrow).1,
        forall_mem_singleton.2 hlater⟩
    · intro hl row hrow hlt
      rcases h.follows hl row hrow hlt with hin | hq | ⟨hun, hq⟩
      · exact .inl hin
      · refine .inr (.inl ?_)
        rw [ids, map_append]
        exact mem_append_left _ hq
      · obtain ⟨row', hrow', hid⟩ := mem_map.1 (hun hreg)
        by_cases heq : row'.messageId = x.messageId
        · refine .inr (.inl ?_)
          rw [← hid, heq]
          exact mem_ids (mem_append_right _ (mem_singleton_self x))
        · -- the row is published later, so it is above `x` as well
          have hmem := mem_without.2 ⟨hrow', heq⟩
          rw [← hid] at hq ⊢
          exact .inr (.inr ⟨fun _ => mem_ids hmem, forall_mem_append.2 ⟨hq, forall_mem_singleton.2 (hlater row' hmem)⟩⟩)
  · exact h.missed x.messageId
  · have hfalse : s = { s with registered := false } := by rw [← Bool.eq_false_iff.2 hreg]
    rw [hfalse]
    exact h.missed x.messageId

lemma View.sent_nil (v : View α) : v.sent [] = v := by
  simp [View.sent, ids]

/-- the backlog of a socket is all there is above its `since` -/
lemma SocketSound.load (h : SocketSound v ⟨.subscribed, last, queue, registered⟩)
    (hrows : ∀ row ∈ v.rows, row.messageId ≤ v.top)
    (hfits : (v.rows.filter fun row => last < row.messageId).length ≤ maxInboxPage) :
    SocketSound v ⟨.backlog (loadInboxMessages v.rows last), (maxMessageId (loadInboxMessages v.rows last)).getD last,
      queue, registered⟩ := by
  have hlast : Safe v last := by
    have hsafe := h.last
    rwa [show (⟨.subscribed, last, queue, registered⟩ : Socket α).pending = [] from rfl, View.sent_nil] at hsafe
  have hmax : ∀ item ∈ loadInboxMessages v.rows last,
      item.messageId ≤ (maxMessageId (loadInboxMessages v.rows last)).getD last := by
    intro item hitem
    cases hm : maxMessageId (loadInboxMessages v.rows last) with
    | none =>
      rw [maxMessageId_eq_none.1 hm] at hitem
      exact absurd hitem not_mem_nil
    | some => exact (maxMessageId_eq_some.1 hm).2 item hitem
  refine ⟨?_, hmax, h.queued, h.sorted, h.behind, fun _ row hrow hlt => ?_⟩
  · change Safe (v.sent (loadInboxMessages v.rows last)) ((maxMessageId (loadInboxMessages v.rows last)).getD last)
    cases hm : maxMessageId (loadInboxMessages v.rows last) with
    | none => exact hlast.sent _
    | some =>
      obtain ⟨⟨item, hitem, rfl⟩, -⟩ := maxMessageId_eq_some.1 hm
      exact safe_page hlast hrows hitem
  · -- nothing is above the backlog
    by_cases hsince : last < row.messageId
    · -- a short backlog is one page
      have := hmax row (by
        rw [loadInboxMessages, take_of_length_le (by rwa [length_insertionSort]), mem_insertionSort, mem_filter]
        exact ⟨hrow, decide_eq_true hsince⟩)
      change (maxMessageId (loadInboxMessages v.rows last)).getD last < row.messageId at hlt
      omega
    · exact .inl (hlast.covered row hrow (by omega))

/-- a frame from the channel: everything below its message is sent out, since the channel is in order -/
lemma SocketSound.forward (h : SocketSound v ⟨.live, last, message :: queue, registered⟩)
    (hlt : last < message.messageId) : SocketSound (v.sent [message]) ⟨.sent, message.messageId, queue, registered⟩ := by
  have hsorted := pairwise_cons.1 h.sorted
  have hfollows : ∀ row ∈ v.rows, last < row.messageId → row.messageId ∈ v.included ∨ row.messageId = message.messageId ∨
      row.messageId ∈ ids queue ∨ (registered → row.messageId ∈ ids v.unpublished) ∧
        message.messageId < row.messageId ∧ ∀ other ∈ queue, other.messageId < row.messageId := by
    intro row hrow hl
    rcases h.follows trivial row hrow hl with hin | hq | ⟨hun, hq⟩
    · exact .inl hin
    · rcases mem_cons.1 hq with heq | hq
      · exact .inr (.inl heq)
      · exact .inr (.inr (.inl hq))
    · exact .inr (.inr (.inr ⟨hun, hq message mem_cons_self, fun other ho => hq other (.tail _ ho)⟩))
  have hlast : Safe v last := by
    have hsafe := h.last
    rwa [show (⟨.live, last, message :: queue, registered⟩ : Socket α).pending = [] from rfl, View.sent_nil] at hsafe
  have hnew : Safe (v.sent [message]) message.messageId := by
    refine ⟨h.queued message mem_cons_self, fun row hrow hle => ?_⟩
    by_cases hl : row.messageId ≤ last
    · exact mem_append_left _ (hlast.covered row hrow hl)
    · rcases hfollows row hrow (by omega) with hin | heq | hq | ⟨-, hgt, -⟩
      · exact mem_append_left _ hin
      · rw [heq]
        exact mem_append_right _ (mem_ids (.head _))
      · obtain ⟨other, ho, hid⟩ := mem_map.1 hq
        have := hsorted.1 other ho
        omega
      · omega
  refine ⟨hnew.sent [], ?_, ?_, hsorted.2, ?_, ?_⟩
  · intro item hitem
    exact absurd hitem not_mem_nil
  · intro other ho
    exact h.queued other (.tail _ ho)
  · intro other ho
    exact h.behind other (.tail _ ho)
  · intro _ row hrow hgt
    change message.messageId < row.messageId at hgt
    rcases hfollows row hrow (by omega) with hin | heq | hq | ⟨hun, -, hq⟩
    · exact .inl (mem_append_left _ hin)
    · omega
    · exact .inr (.inl hq)
    · exact .inr (.inr ⟨hun, hq⟩)

/-- a message that is not above the last one is skipped -/
lemma SocketSound.skip (h : SocketSound v ⟨.live, last, message :: queue, registered⟩) (hle : message.messageId ≤ last) :
    SocketSound v ⟨.live, last, queue, registered⟩ := by
  refine ⟨h.last, h.pending, ?_, (pairwise_cons.1 h.sorted).2, ?_, ?_⟩
  · intro other ho
    exact h.queued other (.tail _ ho)
  · intro other ho
    exact h.behind other (.tail _ ho)
  · intro hl row hrow hlt
    rcases h.follows hl row hrow hlt with hin | hq | ⟨hun, hq⟩
    · exact .inl hin
    · rcases mem_cons.1 hq with heq | hq
      · change last < row.messageId at hlt
        omega
      · exact .inr (.inl hq)
    · exact .inr (.inr ⟨hun, fun other ho => hq other (.tail _ ho)⟩)

/-- the frame with the backlog is sent -/
lemma SocketSound.sync {messages : List (InboxItem α)} (h : SocketSound v ⟨.backlog messages, last, queue, registered⟩) :
    SocketSound (v.sent messages) ⟨.sent, last, queue, registered⟩ where
  last := h.last.sent []
  pending _ hitem := absurd hitem not_mem_nil
  queued := h.queued
  sorted := h.sorted
  behind := h.behind
  follows _ row hrow hlt := by
    rcases h.follows trivial row hrow hlt with hin | hrest
    · exact .inl (mem_append_left _ hin)
    · exact .inr hrest

/-- **One step of a socket** sends out and marks only what is safe -/
lemma SocketSound.step (hzero : Safe v n) (hrows : ∀ row ∈ v.rows, row.messageId ≤ v.top) (h : SocketSound v s)
    (op : SocketStep)
    (hfits : op = .load → (v.rows.filter fun row => s.lastMessageId < row.messageId).length ≤ maxInboxPage) :
    SocketSound (v.sent (s.step v.rows op).2.messages) (s.step v.rows op).1 ∧ EffectSound v (s.step v.rows op).2 := by
  have hquiet : ∀ s' : Socket α, SocketSound v s' → SocketSound (v.sent (Effect.none : Effect α).messages) s' ∧
      EffectSound v Effect.none := by
    intro s' hs'
    exact ⟨by rw [show (Effect.none : Effect α).messages = [] from rfl, View.sent_nil]; exact hs', .none⟩
  have habsent := hquiet _ (SocketSound.absent hzero)
  obtain ⟨phase, last, queue, registered⟩ := s
  cases op with
  | subscribe =>
    cases phase with
    | upgrading =>
      refine hquiet _ (.idle ?_ rfl rfl id)
      have hsafe := h.last
      rwa [show (⟨.upgrading, last, queue, registered⟩ : Socket α).pending = [] from rfl, View.sent_nil] at hsafe
    | closed | subscribed | backlog | sent | live => exact hquiet _ h
  | load =>
    cases phase with
    | subscribed => exact hquiet _ (h.load hrows (hfits rfl))
    | closed | upgrading | backlog | sent | live => exact hquiet _ h
  | sync sent =>
    cases phase with
    | backlog =>
      simp only [Socket.step]
      split_ifs
      · exact ⟨h.sync, fun item hitem => h.last.mono (h.pending item hitem), fun n hn => absurd hn (not_mem_none n)⟩
      · exact habsent
    | closed | upgrading | subscribed | sent | live => exact hquiet _ h
  | update =>
    cases phase with
    | sent =>
      refine ⟨?_, fun item hitem => absurd hitem not_mem_nil, fun n hn => ?_⟩
      · change SocketSound (v.sent []) ⟨.live, last, queue, registered⟩
        rw [View.sent_nil]
        exact ⟨h.last, h.pending, h.queued, h.sorted, h.behind, h.follows⟩
      · obtain rfl := mem_some_iff.1 hn
        exact h.last
    | closed | upgrading | subscribed | backlog | live => exact hquiet _ h
  | receive sent =>
    cases phase with
    | live =>
      cases queue with
      | nil =>
        simp only [Socket.step]
        split_ifs
        · exact hquiet _ h
        · exact habsent
      | cons message queue =>
        simp only [Socket.step]
        split_ifs with hle hsent
        · exact hquiet _ (h.skip hle)
        · have hnew := h.forward (by omega)
          refine ⟨hnew, fun item hitem => ?_, fun n hn => absurd hn (not_mem_none n)⟩
          rw [mem_singleton.1 hitem]
          have hsafe := hnew.last
          rwa [show (⟨.sent, message.messageId, queue, registered⟩ : Socket α).pending = [] from rfl, View.sent_nil] at hsafe
        · exact habsent
    | closed | upgrading | subscribed | backlog | sent => exact hquiet _ h
  | close => exact habsent

end Views

/-! ## Runs -/

def Relay.view (top : ℕ) (w : Relay α) : View α := ⟨top, w.inbox.rows, w.unpublished, w.included⟩

/-- rows are committed up to `top`, open transactions are above it, and every number the cursor may move to is safe -/
structure RelayInv (top : ℕ) (w : Relay α) : Prop where
  inserted : ∀ row ∈ w.inserted, top < row.messageId ∧ row.messageId < w.nextId
  fresh : top < w.nextId
  rows : ∀ row ∈ w.inbox.rows, row.messageId ≤ top
  unpublished : ∀ row ∈ w.unpublished, row.messageId ≤ top
  cursor : Safe (w.view top) w.inbox.cursor
  received : Safe (w.view top) w.received
  included : ∀ n ∈ w.included, Safe (w.view top) n
  polls : ∀ i, PollSound (w.view top) (w.polls i)
  sockets : ∀ j, SocketSound (w.view top) (w.sockets j)

lemma RelayInv.start : RelayInv 0 (Relay.start : Relay α) := by
  have hzero : Safe ((Relay.start : Relay α).view 0) 0 := ⟨le_rfl, fun _ hrow => absurd hrow not_mem_nil⟩
  exact ⟨forall_mem_nil _, Nat.zero_lt_one, forall_mem_nil _, forall_mem_nil _, hzero, hzero,
    forall_mem_nil _, fun _ => trivial, fun _ => .absent hzero⟩

/-- the cursor after an effect is safe, and so is everything sent out -/
lemma RelayInv.apply (h : RelayInv top w) {e : Effect α} (he : EffectSound (w.view top) e) {polls : ℕ → PollPhase α}
    {sockets : ℕ → Socket α} (hpolls : ∀ i, PollSound (w.view top) (polls i))
    (hsockets : ∀ j, SocketSound ((w.view top).sent e.messages) (sockets j)) :
    RelayInv top ({ w with polls := polls, sockets := sockets }.apply e) := by
  have hg := (Commits.sent (w.view top) e.messages).toGrows
  refine ⟨h.inserted, h.fresh, h.rows, h.unpublished, ?_, h.received.grow hg, ?_, fun i => (hpolls i).grow hg, hsockets⟩
  · change Safe ((w.view top).sent e.messages) (e.mark.elim w.inbox.cursor (updateCursor w.inbox.cursor))
    cases hm : e.mark with
    | none => exact h.cursor.grow hg
    | some n =>
      rw [elim_some, updateCursor_eq_max]
      exact (h.cursor.grow hg).max (he.mark n hm)
  · exact forall_mem_append.2 ⟨fun n hold => (h.included n hold).grow hg, forall_mem_map.2 he.messages⟩

lemma RelayInv.of_commits {top' : ℕ} {w' : Relay α} (h : RelayInv top w) (hg : Commits (w.view top) (w'.view top'))
    (hinserted : ∀ row ∈ w'.inserted, top' < row.messageId ∧ row.messageId < w'.nextId) (hfresh : top' < w'.nextId)
    (hrows : ∀ row ∈ w'.inbox.rows, row.messageId ≤ top') (hunpublished : ∀ row ∈ w'.unpublished, row.messageId ≤ top')
    (hcursor : w'.inbox.cursor = w.inbox.cursor) (hreceived : w'.received = w.received)
    (hincluded : w'.included = w.included) (hpolls : w'.polls = w.polls) (hsockets : w'.sockets = w.sockets) :
    RelayInv top' w' where
  inserted := hinserted
  fresh := hfresh
  rows := hrows
  unpublished := hunpublished
  cursor := by rw [hcursor]; exact h.cursor.grow hg.toGrows
  received := by rw [hreceived]; exact h.received.grow hg.toGrows
  included n hn := (h.included n (by rwa [← hincluded])).grow hg.toGrows
  polls i := by rw [hpolls]; exact (h.polls i).grow hg.toGrows
  sockets j := by rw [hsockets]; exact (h.sockets j).grow hg

lemma find_row (h : items.find? (fun row => row.messageId = messageId) = some row) :
    row ∈ items ∧ row.messageId = messageId := by
  have hid := List.find?_some h
  exact ⟨mem_of_find?_eq_some h, of_decide_eq_true hid⟩

/-- a commit in order -/
lemma RelayInv.commit (h : RelayInv top w) (hrow : row ∈ w.inserted)
    (hmin : ∀ other ∈ w.inserted, row.messageId ≤ other.messageId) :
    RelayInv row.messageId { w with
      inserted := without row.messageId w.inserted
      inbox := ⟨w.inbox.rows ++ [row], w.inbox.cursor⟩
      unpublished := w.unpublished ++ [row] } := by
  obtain ⟨htop, hnext⟩ := h.inserted row hrow
  refine h.of_commits ⟨⟨htop.le, ?_, refl _⟩, ?_, ?_, ?_⟩ ?_ hnext ?_ ?_ rfl rfl rfl rfl rfl
  · exact forall_mem_append.2 ⟨fun _ => .inl, forall_mem_singleton.2 (.inr htop)⟩
  · exact forall_mem_append.2 ⟨fun _ => .inl, forall_mem_singleton.2 (.inr (mem_ids (mem_append_right _ (mem_singleton_self _))))⟩
  · intro n hn
    obtain ⟨other, hother, rfl⟩ := mem_map.1 hn
    exact mem_ids (mem_append_left _ hother)
  · exact forall_mem_append.2 ⟨fun _ => .inl, forall_mem_singleton.2 (.inr htop)⟩
  · intro other hother
    obtain ⟨hmem, hne⟩ := mem_without.1 hother
    exact ⟨lt_of_le_of_ne (hmin other hmem) (Ne.symm hne), (h.inserted other hmem).2⟩
  · exact forall_mem_append.2 ⟨fun other hold => (h.rows other hold).trans htop.le, forall_mem_singleton.2 le_rfl⟩
  · exact forall_mem_append.2 ⟨fun other hold => (h.unpublished other hold).trans htop.le, forall_mem_singleton.2 le_rfl⟩

/-- a publish in order -/
lemma RelayInv.publish (h : RelayInv top w) (hrow : row ∈ w.unpublished)
    (hmin : ∀ other ∈ w.unpublished, row.messageId ≤ other.messageId) :
    RelayInv top { w with
      unpublished := without row.messageId w.unpublished
      sockets := fun j => (w.sockets j).offer row } := by
  have hg : Grows (w.view top) { w.view top with unpublished := without row.messageId w.unpublished } :=
    ⟨le_rfl, fun _ hother => .inl hother, refl _⟩
  refine ⟨h.inserted, h.fresh, h.rows, ?_, h.cursor.grow hg, h.received.grow hg, fun n hn => (h.included n hn).grow hg,
    fun i => (h.polls i).grow hg, fun j => (h.sockets j).offer hrow (h.unpublished row hrow) hmin⟩
  intro other hother
  exact h.unpublished other (mem_without.1 hother).1

/-- **One step in order** keeps every number the cursor may move to safe -/
lemma RelayInv.step (regressed : String) (h : RelayInv top w) (op : RelayOp α) (hok : InOrder w op) :
    ∃ top', RelayInv top' (w.step regressed op) := by
  cases op with
  | insert =>
    have hfresh := h.fresh
    refine ⟨top, ?_, ?_, h.rows, h.unpublished, h.cursor, h.received, h.included, h.polls, h.sockets⟩
    · intro row hrow
      simp only [Relay.step] at hrow ⊢
      rcases mem_append.1 hrow with hold | hnew
      · have := h.inserted row hold
        omega
      · rw [mem_singleton.1 hnew]
        dsimp only
        omega
    · simp only [Relay.step]
      omega
  | commit messageId =>
    simp only [Relay.step]
    cases hf : w.inserted.find? fun row => row.messageId = messageId with
    | none => exact ⟨top, h⟩
    | some row =>
      obtain ⟨hrow, rfl⟩ := find_row hf
      exact ⟨row.messageId, h.commit hrow hok⟩
  | rollback =>
    refine ⟨top, ?_, h.fresh, h.rows, h.unpublished, h.cursor, h.received, h.included, h.polls, h.sockets⟩
    intro row hrow
    exact h.inserted row (mem_without.1 hrow).1
  | publish messageId =>
    simp only [Relay.step]
    cases hf : w.unpublished.find? fun row => row.messageId = messageId with
    | none => exact ⟨top, h⟩
    | some =>
      obtain ⟨hrow, rfl⟩ := find_row hf
      exact ⟨top, h.publish hrow hok⟩
  | expire messageId =>
    have hsub : ∀ row ∈ without messageId w.inbox.rows, row ∈ w.inbox.rows := fun row hrow => (mem_without.1 hrow).1
    refine ⟨top, h.of_commits ⟨⟨le_rfl, ?_, refl _⟩, ?_, refl _, fun _ hrow => .inl hrow⟩
      h.inserted h.fresh (fun row hrow => h.rows row (hsub row hrow)) h.unpublished rfl rfl rfl rfl rfl⟩
    all_goals
      intro row hrow
      exact .inl (hsub row hrow)
  | arrive messageId =>
    simp only [Relay.step]
    split_ifs with hmem
    · exact ⟨top, h.inserted, h.fresh, h.rows, h.unpublished, h.cursor, h.received.max (h.included messageId hmem),
        h.included, h.polls, h.sockets⟩
    · exact ⟨top, h⟩
  | poll i op =>
    obtain ⟨hpoll, he⟩ := (h.polls i).step regressed h.cursor h.received h.rows op
    refine ⟨top, h.apply he ?_ fun j => (h.sockets j).grow (Commits.sent _ _)⟩
    exact (forall_update_iff w.polls fun _ p => PollSound (w.view top) p).2 ⟨hpoll, fun k _ => h.polls k⟩
  | connect =>
    refine ⟨top, ?_⟩
    simp only [Relay.step]
    split
    · refine ⟨h.inserted, h.fresh, h.rows, h.unpublished, h.cursor, h.received, h.included, h.polls, ?_⟩
      exact (forall_update_iff w.sockets fun _ s => SocketSound (w.view top) s).2
        ⟨.idle (h.received.mono hok) rfl rfl id, fun k _ => h.sockets k⟩
    · exact h
  | socket j op =>
    have hfits : op = .load →
        (w.inbox.rows.filter fun row => (w.sockets j).lastMessageId < row.messageId).length ≤ maxInboxPage := by
      intro hop
      subst hop
      exact hok
    obtain ⟨hsocket, he⟩ := (h.sockets j).step h.cursor h.rows op hfits
    refine ⟨top, h.apply he h.polls ?_⟩
    exact (forall_update_iff w.sockets fun _ s => SocketSound _ s).2 ⟨hsocket, fun k _ => (h.sockets k).grow (Commits.sent _ _)⟩

/-- every stored message up to the cursor is in a poll response or a frame -/
def CursorCovered (w : Relay α) : Prop :=
  ∀ row ∈ w.inbox.rows, row.messageId ≤ w.inbox.cursor → row.messageId ∈ w.included

instance (w : Relay α) : Decidable (CursorCovered w) := inferInstanceAs (Decidable (∀ row ∈ _, _))

/-- a message that is stored and published at once -/
def relayed (messageId : ℕ) : List (RelayOp Unit) := [.insert 0 (), .commit messageId, .publish messageId]

def opened (since : ℕ) : List (RelayOp Unit) :=
  [.connect 0 since, .socket 0 .subscribe, .socket 0 .load, .socket 0 (.sync true), .socket 0 .update]

def forwarded : List (RelayOp Unit) := [.socket 0 (.receive true), .socket 0 .update]

def polled : List (RelayOp Unit) := [.poll 0 .check, .poll 0 .load, .poll 0 .answer]

def sampleRun (ops : List (RelayOp Unit)) : Relay Unit := run (Relay.step "since cursor regressed") Relay.start ops

end PqMsg.Server
