/-
The transparency log that the server recomputes from its identity events (`handlers/transparency.rs`).

`get_transparency_proof` reads all rows of `identity_events` in the order of their ids. The log is whatever these rows are at
the time: a process that inserts an event takes its id first and makes it visible when it commits, and deleting an account
deletes its events. Clients take the log for append-only (`key_transparency.rs`) and refuse a tree head with a lower epoch.

- `log_append_only`: the leaves of any two proofs of a run are the log at two times, the earlier a first part of the later,
  and the epochs do not decrease, if no transaction that commits has deleted a visible event or inserted one below a visible
  one.
- `log_rewritten`: an account that is deleted, and two registrations that commit against the order of their ids, after each
  of which the log does not extend the one before.
-/
import PqMsg.Server.Handlers
import PqMsg.Transparency.Log

namespace PqMsg.Server

open Lib Transparency Function List Option

variable {Secret Hash ι : Type} [DecidableEq ι] {cfg : Config Secret}

/-! ## Proofs -/

/-- what a query outside of a transaction sees -/
def World.public (w : World ι) : Snapshot := ⟨w.tables.committed, w.tables.keys, w.nextEvent, w.nextOneTime⟩

def EventRow.leaf (row : EventRow) : TransparencyLeaf :=
  ⟨row.userId, row.version, row.identityX25519Pub, row.identitySigPub.1, row.identityPqSigPub.map (·.1), row.changedAt⟩

def transparencyLeaves (s : Snapshot) : List TransparencyLeaf := s.events.map fun e => e.2.leaf

/-- `last_event_id.max(tree_size)` -/
def treeEpoch (s : Snapshot) : ℕ := max (lastId s.events) (transparencyLeaves s).length

structure TransparencyProof (Hash : Type) where
  leaf : TransparencyLeaf
  inclusionProof : InclusionProof Hash
  signedTreeHead : SignedTreeHead Hash
  consistencyProof : Option (ConsistencyProof Hash)

/-- `ok_or_else` -/
def orFail {α : Type} (error : AppError) : Option α → Except AppError α
  | some a => .ok a
  | none => .error error

/-- the tree head before it is signed -/
def treeHead (L : LogPrims Hash) (s : Snapshot) : Except AppError (SignedTreeHead Hash) := do
  let leafHashes := (transparencyLeaves s).map (TransparencyLeaf.hash L)
  let rootHash ← orFail (.internal "failed to build tree root") (buildTreeRoot L leafHashes)
  .ok ⟨treeEpoch s, leafHashes.length, rootHash, []⟩

/-- `match query.previous_tree_size` -/
def consistencyProofSince (L : LogPrims Hash) (leafHashes : List Hash) :
    Option ℕ → Except AppError (Option (ConsistencyProof Hash))
  | none => .ok none
  | some previousTreeSize =>
    (orFail (.badRequest "previous_tree_size must be in 1..=current tree size")
      (buildConsistencyProof L leafHashes previousTreeSize)).map some

/-- `get_transparency_proof`, after it has found the user; `sign` is the server's signing key -/
def getTransparencyProof (L : LogPrims Hash) (sign : Bytes → Bytes) (s : Snapshot) (userId : String)
    (previousTreeSize : Option ℕ) : Except AppError (TransparencyProof Hash) :=
  let leaves := transparencyLeaves s
  if leaves = [] then .error (.notFound "transparency log is empty")
  else do
    let latest := (leaves.zipIdx.filter fun e => e.1.userId = userId).getLast?
    let (leaf, leafIndex) ← orFail (.notFound "no transparency leaf for user") latest
    let leafHashes := leaves.map (TransparencyLeaf.hash L)
    let sth ← treeHead L s
    let inclusionProof ← orFail (.internal "failed to build inclusion proof") (buildInclusionProof L leafHashes leafIndex)
    let consistencyProof ← consistencyProofSince L leafHashes previousTreeSize
    .ok ⟨leaf, inclusionProof, { sth with signature := sign (sth.signingBody L) }, consistencyProof⟩

variable {s : Snapshot} {w : World ι} {i : ι} {next : Proc} {L : LogPrims Hash} {userId : String} {view : RowView}

lemma treeHead_epoch {sth : SignedTreeHead Hash} (h : treeHead L s = .ok sth) : sth.epoch = treeEpoch s := by
  obtain ⟨rootHash, -, h⟩ := bind_ok.1 h
  cases h
  rfl

lemma proof_epoch {sign : Bytes → Bytes} {size : Option ℕ} {proof : TransparencyProof Hash}
    (h : getTransparencyProof L sign s userId size = .ok proof) : proof.signedTreeHead.epoch = treeEpoch s := by
  unfold getTransparencyProof at h
  dsimp only at h
  split_ifs at h
  simp only [bind_ok] at h
  obtain ⟨latest, -, sth, hsth, inclusion, -, consistency, -, h⟩ := h
  cases h
  change sth.epoch = treeEpoch s
  exact treeHead_epoch hsth

/-! ## Who changes the events -/

/-- the id under which the process is about to insert an event -/
def Proc.eventId : Proc → Option ℕ
  | .register _ (.insertEvent id) => some id
  | .rotateConfirm _ (.insertEvent _ _ _ _ id) => some id
  | _ => none

/-- the process has changed the events, and commits next -/
def Proc.changesLog : Proc → Bool
  | .register _ .commitEvent => true
  | .rotateConfirm _ (.commit ..) => true
  | .deleteAccount _ .commit => true
  | _ => false

def Proc.Apart (p : Proc) : Prop := p.eventId = none ∧ p.changesLog = false

def Stmt.SparesEvents (stmt : Stmt) : Prop := ∀ view id, stmt.writes view (.event id) = none

/-- what the next step of a process has to do with the events -/
def LogTurn (p : Proc) : Turn → Prop
  | .read next => p.changesLog = false ∧ next.Apart
  | .take .events next => p.changesLog = false ∧ ∀ id, (next id).changesLog = false ∧ (next id).eventId = some id
  | .take (.oneTime _) next => p.changesLog = false ∧ ∀ id, (next id).Apart
  | .write stmt atOnce next onUnique =>
    p.changesLog = false ∧ next.eventId = none ∧ (∀ q ∈ onUnique, q.Apart) ∧
      (stmt.SparesEvents ∧ next.changesLog = false ∨
        atOnce = false ∧ next.changesLog = true ∧
          ∀ view id x, stmt.writes view (.event id) = some x → view (.event id) ≠ none ∨ p.eventId = some id)
  | .commit _ => True
  | .stop _ => True

lemma insertEvent_writes {n id : ℕ} {row : EventRow} {skip : Bool} {x : Option EventRow}
    (h : (Stmt.insertEvent n row skip).writes view (.event id) = some x) : n = id ∧ x = some row := by
  simp only [Stmt.writes] at h
  split_ifs at h
  simp only [onEvent] at h
  split_ifs at h with hid
  exact ⟨hid.symm, (some.inj h).symm⟩

lemma deleteUser_writes {k : Key} {x : Option (Row k)} (h : (Stmt.deleteUser userId).writes view k = some x) :
    x = none ∧ ∃ row, view k = some row ∧ k.owner row = userId := by
  simp only [Stmt.writes, bind_eq_some_iff] at h
  obtain ⟨row, hrow, h⟩ := h
  split_ifs at h with howner
  exact ⟨(some.inj h).symm, row, hrow, howner⟩

section Turns

attribute [local simp] LogTurn Proc.changesLog Proc.Apart Proc.eventId Stmt.SparesEvents Stmt.writes onUser onDevice onChallenge
  onPrekey onOneTime Turn.fail

lemma turn_logTurn (s : Snapshot) (p : Proc) : LogTurn p (p.turn cfg s) := by
  cases p with
  | register r phase =>
    cases phase
    case insertEvent id =>
      refine ⟨rfl, rfl, by simp, .inr ⟨rfl, rfl, ?_⟩⟩
      intro view id' x h
      exact Or.inr (congrArg some (insertEvent_writes h).1)
    all_goals
      simp only [Proc.turn, registerUser]
      repeat' split
      all_goals simp
  | rotateConfirm r phase =>
    cases phase
    case insertEvent challenge newPq current version id =>
      refine ⟨rfl, rfl, by simp, Or.inr ⟨rfl, rfl, ?_⟩⟩
      intro view id' x h
      exact Or.inr (congrArg some (insertEvent_writes h).1)
    all_goals
      simp only [Proc.turn, rotateConfirm, Turn.check]
      repeat' split
      all_goals simp
  | deleteAccount userId phase =>
    cases phase
    case deleteUser =>
      refine ⟨rfl, rfl, by simp, Or.inr ⟨rfl, rfl, ?_⟩⟩
      intro view id x h
      obtain ⟨-, row, hrow, -⟩ := deleteUser_writes h
      exact Or.inl (by simp [hrow])
    all_goals
      simp only [Proc.turn, deleteAccount, ensureUserExists]
      repeat' split
      all_goals simp
  | publishPrekeys r phase =>
    cases phase
    case insertOneTime current x pq => cases x <;> cases pq <;> simp [Proc.turn, publishPrekeys]
    case insertTaken current x pq id => cases x <;> cases pq <;> simp [Proc.turn, publishPrekeys]
    all_goals
      simp only [Proc.turn, publishPrekeys, Turn.check]
      repeat' split
      all_goals simp
  | idle => exact ⟨rfl, rfl, rfl⟩
  | rotateInit r phase | linkDevice r phase | retireDevice r phase | bundle r phase | reapStaleData r phase =>
    cases phase
    all_goals
      simp only [Proc.turn, rotateInit, linkDevice, retireDevice, loadBundleResponse, reapStaleData, ensureUserExists]
      repeat' split
      all_goals simp

end Turns

/-! ## One step -/

structure LogInv (w : World ι) : Prop where
  committedBelow : ∀ {id}, w.tables.committed (.event id) ≠ none → id < w.nextEvent
  draftBelow : ∀ {id x}, w.tables.draft (.event id) = some x → id < w.nextEvent
  taken : ∀ {i id}, (w.procs i).eventId = some id → id < w.nextEvent
  holder : ∀ {id i row}, w.tables.draft (.event id) = some (i, row) → (w.procs i).changesLog = true

def Turn.commits : Turn → Bool
  | .commit _ => true
  | _ => false

/-- what a transaction has done to the events: none that is visible is deleted, and those inserted are above all visible ones -/
def World.AppendsOnly (w : World ι) (i : ι) : Prop :=
  ∀ id < w.nextEvent, ∀ x ∈ w.tables.draft (.event id), x.1 = i →
    x.2.isSome ∧ ∀ id' < w.nextEvent, (w.tables.committed (.event id')).isSome → id' < id

instance (w : World ι) (i : ι) : Decidable (w.AppendsOnly i) := inferInstanceAs (Decidable (∀ id < w.nextEvent, _))

def InLogOrder (cfg : Config Secret) (w : World ι) : Op ι → Prop
  | .advance i => (w.turn cfg i).commits → w.AppendsOnly i
  | _ => True

instance (w : World ι) : (o : Op ι) → Decidable (InLogOrder cfg w o)
  | .advance _ => inferInstanceAs (Decidable (_ → _))
  | .start _ _ | .fail _ => isTrue trivial

variable (h : LogInv w) {tables : Tables ι} {w' : World ι} {stmt : Stmt}
include h

/-- an event that a transaction sees has an id that was given out -/
lemma LogInv.viewBelow {id : ℕ} (hview : w.tables.view i (.event id) ≠ none) : id < w.nextEvent := by
  rcases w.tables.view_cases i (.event id) with ⟨row, hdraft, -⟩ | ⟨-, heq⟩
  · exact h.draftBelow hdraft
  · exact h.committedBelow (heq ▸ hview)

/-- a process that has not changed the events goes on, with an id that was given out or none -/
lemma LogInv.goto (hp : (w.procs i).changesLog = false) (hnext : ∀ id, next.eventId = some id → id < w.nextEvent) :
    LogInv (w.goto i next) := by
  refine ⟨h.committedBelow, h.draftBelow, fun {j id} hj => ?_, fun {id j row} hdraft => ?_⟩
  · by_cases hji : j = i
    · subst hji
      rw [World.goto_self] at hj
      exact hnext id hj
    · rw [World.goto_ne hji] at hj
      exact h.taken hj
  · have hj := h.holder hdraft
    have hji : j ≠ i := by
      intro hji
      rw [hji, hp] at hj
      cases hj
    rw [World.goto_ne hji]
    exact hj

omit [DecidableEq ι] in
/-- taking the next number of a sequence -/
lemma LogInv.take (sequence : Sequence) : LogInv (w.take sequence) := by
  have hle : w.nextEvent ≤ (w.take sequence).nextEvent := by
    cases sequence
    · exact Nat.le_succ _
    · exact le_rfl
  refine ⟨fun hc => ?_, fun hd => ?_, fun ht => ?_, fun hd => ?_⟩
  · rw [World.take_tables] at hc
    exact (h.committedBelow hc).trans_le hle
  · rw [World.take_tables] at hd
    exact (h.draftBelow hd).trans_le hle
  · rw [World.take_procs] at ht
    exact (h.taken ht).trans_le hle
  · rw [World.take_tables] at hd
    rw [World.take_procs]
    exact h.holder hd

/-- a process ends, and the rows it holds are released -/
lemma LogInv.release (hcommitted : ∀ {id}, w'.tables.committed (.event id) ≠ none → id < w.nextEvent)
    (hdraft : ∀ {id x}, w'.tables.draft (.event id) = some x → w.tables.draft (.event id) = some x ∧ x.1 ≠ i)
    (hprocs : w'.procs = Function.update w.procs i .idle) (hnext : w'.nextEvent = w.nextEvent) : LogInv w' := by
  refine ⟨fun hc => ?_, fun {id x} hd => ?_, fun {j id} ht => ?_, fun {id j row} hd => ?_⟩
  · rw [hnext]
    exact hcommitted hc
  · rw [hnext]
    exact h.draftBelow (hdraft hd).1
  · rw [hprocs] at ht
    by_cases hji : j = i
    · rw [hji, update_self] at ht
      cases ht
    · rw [update_of_ne hji] at ht
      rw [hnext]
      exact h.taken ht
  · obtain ⟨hold, hji⟩ := hdraft hd
    rw [hprocs, update_of_ne hji]
    exact h.holder hold

lemma LogInv.stop (i : ι) (reply : Reply) : LogInv (w.stop i reply) :=
  h.release h.committedBelow (fun hd => Store.rollback_draft.1 hd) rfl rfl

lemma LogInv.commit (i : ι) (reply : Reply) : LogInv (w.commit i reply) :=
  h.release (fun hc => h.viewBelow (i := i) hc) (fun hd => Store.commit_draft.1 hd) rfl rfl

/-- a statement on other tables -/
lemma LogInv.spare (atOnce : Bool) (hspare : stmt.SparesEvents) (hp : (w.procs i).changesLog = false)
    (hnext : next.eventId = none) (hexec : w.tables.exec i stmt = .done tables) :
    LogInv ({ w with tables := tables.settle i atOnce }.goto i next) ∧
      ∀ id, (tables.settle i atOnce).committed (.event id) = w.tables.committed (.event id) := by
  have hkept : ∀ id, tables.draft (.event id) = w.tables.draft (.event id) :=
    fun id => done_draft_none hexec (hspare _ id)
  have hdraft : ∀ {id x}, (tables.settle i atOnce).draft (.event id) = some x → w.tables.draft (.event id) = some x :=
    fun {id x} hd => (hkept id).symm.trans (settle_draft hd)
  have hcommitted : ∀ id, (tables.settle i atOnce).committed (.event id) = w.tables.committed (.event id) := by
    intro id
    rw [← done_committed hexec]
    apply settle_committed
    intro row hd
    rw [h.holder ((hkept id).symm.trans hd)] at hp
    cases hp
  have hinv : LogInv { w with tables := tables.settle i atOnce } :=
    ⟨fun {id} hc => h.committedBelow (hcommitted id ▸ hc), fun hd => h.draftBelow (hdraft hd), h.taken,
      fun hd => h.holder (hdraft hd)⟩
  refine ⟨hinv.goto hp fun id hid => ?_, hcommitted⟩
  rw [hnext] at hid
  cases hid

/-- a statement on the events, after which the process commits -/
lemma LogInv.change (hchange : ∀ view id x, stmt.writes view (.event id) = some x →
      view (.event id) ≠ none ∨ (w.procs i).eventId = some id) (hchanges : next.changesLog = true)
    (hnext : next.eventId = none) (hexec : w.tables.exec i stmt = .done tables) :
    LogInv ({ w with tables := tables }.goto i next) := by
  refine ⟨fun hc => ?_, fun {id x} hd => ?_, fun {j id} ht => ?_, fun {id j row} hd => ?_⟩
  · rw [World.goto_tables, done_committed hexec] at hc
    exact h.committedBelow hc
  · rcases done_draft_cases hexec (.event id) with heq | ⟨row, hw, -⟩
    · exact h.draftBelow (heq.symm.trans hd)
    · rcases hchange _ id row hw with hview | hid
      · exact h.viewBelow hview
      · exact h.taken hid
  · by_cases hji : j = i
    · subst hji
      rw [World.goto_self, hnext] at ht
      cases ht
    · rw [World.goto_ne hji] at ht
      exact h.taken ht
  · by_cases hji : j = i
    · subst hji
      rw [World.goto_self]
      exact hchanges
    · rw [World.goto_ne hji]
      rcases done_draft_cases hexec (.event id) with heq | ⟨row, -, hw⟩
      · exact h.holder (heq.symm.trans hd)
      · have heq := some.inj (hw.symm.trans hd)
        exact absurd (congrArg Prod.fst heq).symm hji

omit [DecidableEq ι] in
/-- the visible events of two states, if those of the first are kept -/
lemma events_extend (hle : w.nextEvent ≤ w'.nextEvent)
    (hkeep : ∀ id, w'.tables.committed (.event id) = w.tables.committed (.event id)) :
    w.public.events <+: w'.public.events := by
  apply inOrder_extends (fun id => @h.committedBelow id) hle
  · intro id row hrow
    exact (hkeep id).trans hrow
  · intro id hnone hsome
    exact absurd ((hkeep id).trans hnone) hsome

lemma commit_events {reply : Reply} (horder : w.AppendsOnly i) : w.public.events <+: (w.commit i reply).public.events := by
  have habove : ∀ {id id' row}, w.tables.draft (.event id) = some (i, row) → w.tables.committed (.event id') ≠ none →
      id' < id := by
    intro id id' row hdraft hvisible
    obtain ⟨-, habove⟩ := horder id (h.draftBelow hdraft) (i, row) hdraft rfl
    exact habove id' (h.committedBelow hvisible) (isSome_iff_ne_none.2 hvisible)
  apply inOrder_extends (fun id => @h.committedBelow id) le_rfl
  · intro id row hrow
    rcases w.tables.view_cases i (.event id) with ⟨row', hdraft, -⟩ | ⟨-, hview⟩
    · have hvisible : w.tables.committed (.event id) ≠ none := fun hnone => by
        have := hnone.symm.trans hrow
        cases this
      exact absurd (habove hdraft hvisible) (lt_irrefl id)
    · exact hview.trans hrow
  · intro id hnone hsome id' hid'
    rcases w.tables.view_cases i (.event id) with ⟨row', hdraft, -⟩ | ⟨-, hview⟩
    · exact habove hdraft hid'
    · exact absurd (hview.trans hnone) hsome

variable (cfg) in
lemma advance_log (i : ι) :
    LogInv (w.advance cfg i) ∧ (InLogOrder cfg w (.advance i) → w.public.events <+: (w.advance cfg i).public.events) := by
  have hturn : LogTurn (w.procs i) (w.turn cfg i) := turn_logTurn _ _
  unfold World.advance
  cases hw : w.turn cfg i with
  | read =>
    rw [hw] at hturn
    exact ⟨h.goto hturn.1 fun id hid => absurd (hturn.2.1.symm.trans hid) (by simp), fun _ => events_extend h le_rfl fun _ => rfl⟩
  | take sequence next =>
    rw [hw] at hturn
    have htaken : ∀ id, (next (w.sequence sequence)).eventId = some id → id < (w.take sequence).nextEvent := by
      intro id hid
      cases sequence with
      | events =>
        have heq : w.nextEvent = id := some.inj ((hturn.2 w.nextEvent).2.symm.trans hid)
        rw [← heq]
        exact Nat.lt_succ_self _
      | oneTime => exact absurd ((hturn.2 _).1.symm.trans hid) (by simp)
    have hp : ((w.take sequence).procs i).changesLog = false := by
      rw [World.take_procs]
      cases sequence <;> exact hturn.1
    refine ⟨(h.take sequence).goto hp htaken, fun _ => events_extend h ?_ fun _ => ?_⟩
    · cases sequence
      · exact Nat.le_succ _
      · exact le_rfl
    · rw [World.goto_tables, World.take_tables]
  | write stmt atOnce =>
    rw [hw] at hturn
    obtain ⟨hp, hnext, hunique, hstmt⟩ := hturn
    refine World.write_rule (Q := fun w' => LogInv w' ∧ (_ → w.public.events <+: w'.public.events))
      ⟨h, fun _ => prefix_rfl⟩ (fun q hq => ⟨h.goto hp fun id hid => ?_, fun _ => events_extend h le_rfl fun _ => rfl⟩)
      ⟨h.stop i _, fun _ => events_extend h le_rfl fun _ => rfl⟩ fun tables hexec => ?_
    · exact absurd ((hunique q hq).1.symm.trans hid) (by simp)
    · rcases hstmt with ⟨hspare, -⟩ | ⟨hlater, hchanges, hchange⟩
      · obtain ⟨hinv, hkeep⟩ := h.spare atOnce hspare hp hnext hexec
        exact ⟨hinv, fun _ => events_extend h le_rfl hkeep⟩
      · subst hlater
        exact ⟨h.change hchange hchanges hnext hexec, fun _ => events_extend h le_rfl fun id => congrFun (done_committed hexec) _⟩
  | commit reply => exact ⟨h.commit i reply, fun hok => commit_events h (hok (by rw [hw]; rfl))⟩
  | stop reply => exact ⟨h.stop i reply, fun _ => events_extend h le_rfl fun _ => rfl⟩

omit h

lemma start_apart {request : Request} (h : request.start cfg = .ok next) : next.Apart := by
  cases request <;> simp only [Request.start] at h
  case register r | rotateInit r | publishPrekeys r =>
    obtain ⟨-, -, h⟩ := bind_ok.1 h
    cases h
    exact ⟨rfl, rfl⟩
  all_goals
    cases h
    exact ⟨rfl, rfl⟩

variable (cfg) in
lemma step_log (h : LogInv w) (o : Op ι) :
    LogInv (w.step cfg o) ∧ (InLogOrder cfg w o → w.public.events <+: (w.step cfg o).public.events) := by
  cases o with
  | start =>
    refine World.start_rule (Q := fun w' => LogInv w' ∧ (_ → w.public.events <+: w'.public.events))
      ⟨h, fun _ => prefix_rfl⟩ (fun next hp hstart => ⟨h.goto (by rw [hp]; rfl) fun id hid => ?_, fun _ => prefix_rfl⟩)
      fun error _ _ => ⟨⟨h.committedBelow, h.draftBelow, h.taken, h.holder⟩, fun _ => prefix_rfl⟩
    exact absurd ((start_apart hstart).1.symm.trans hid) (by simp)
  | advance i => exact advance_log cfg h i
  | fail =>
    exact ⟨h.release h.committedBelow (fun hd => Store.rollback_draft.1 hd) rfl rfl, fun _ => events_extend h le_rfl fun _ => rfl⟩

/-! ## Runs -/

/-- the server has just started: no request is handled and no transaction is open -/
structure World.Started (w : World ι) : Prop where
  idle : ∀ i, w.procs i = .idle
  closed : ∀ k, w.tables.draft k = none
  eventsBelow : ∀ id, w.tables.committed (.event id) ≠ none → id < w.nextEvent

open World

omit [DecidableEq ι] in
lemma World.Started.logInv (h : w.Started) : LogInv w := by
  refine ⟨fun {id} => h.eventsBelow id, fun hd => ?_, fun ht => ?_, fun hd => ?_⟩
  · rw [h.closed] at hd
    cases hd
  · rw [h.idle] at ht
    cases ht
  · rw [h.closed] at hd
    cases hd

omit [DecidableEq ι] in
/-- whether no transaction is open can be seen from the rows that were ever written -/
lemma World.started_of (h : LogInv w) (hidle : ∀ i, w.procs i = .idle)
    (hclosed : ∀ k ∈ w.tables.keys, (w.tables.draft k).isNone = true) : w.Started := by
  refine ⟨hidle, fun k => ?_, fun id => h.committedBelow⟩
  by_cases hk : k ∈ w.tables.keys
  · exact isNone_iff_eq_none.1 (hclosed k hk)
  · exact (w.tables.known k hk).2

lemma run_log (h : LogInv w) (ops : List (Op ι)) (hl : Legal (step cfg) (InLogOrder cfg) w ops) :
    LogInv (run (step cfg) w ops) ∧ w.public.events <+: (run (step cfg) w ops).public.events := by
  induction ops generalizing w with
  | nil => exact ⟨h, prefix_rfl⟩
  | cons o ops ih =>
    obtain ⟨hinv, hext⟩ := step_log cfg h o
    obtain ⟨hinv', hext'⟩ := ih hinv hl.2
    exact ⟨hinv', (hext hl.1).trans hext'⟩

lemma treeEpoch_mono {s' : Snapshot} (h : s.events <+: s'.events) : treeEpoch s ≤ treeEpoch s' := by
  apply max_le_max
  · exact lastId_mono h (inOrder_pairwise _ _)
  · rw [transparencyLeaves, transparencyLeaves, length_map, length_map]
    exact h.length_le

/-- **The log is append-only** in every run in which transactions commit in the order of their events' ids and delete no
visible event -/
theorem log_append_only (L : LogPrims Hash) (sign : Bytes → Bytes) (w : World ι) (hw : w.Started) (before after : List (Op ι))
    (hl : Legal (World.step cfg) (InLogOrder cfg) w (before ++ after)) :
    transparencyLeaves (run (World.step cfg) w before).public <+:
      transparencyLeaves (run (World.step cfg) w (before ++ after)).public ∧
    ∀ userId size proof userId' size' proof',
      getTransparencyProof L sign (run (World.step cfg) w before).public userId size = .ok proof →
      getTransparencyProof L sign (run (World.step cfg) w (before ++ after)).public userId' size' = .ok proof' →
      proof.signedTreeHead.epoch ≤ proof'.signedTreeHead.epoch := by
  obtain ⟨hbefore, hafter⟩ := legal_append.1 hl
  obtain ⟨hinv, -⟩ := run_log hw.logInv before hbefore
  obtain ⟨-, hext⟩ := run_log hinv after hafter
  rw [run_append]
  refine ⟨hext.map _, ?_⟩
  intro userId size proof userId' size' proof' hproof hproof'
  rw [proof_epoch hproof, proof_epoch hproof']
  exact treeEpoch_mono hext

omit [DecidableEq ι] in
lemma World.empty_started : (empty : World ι).Started := ⟨fun _ => rfl, fun _ => rfl, fun _ h => absurd rfl h⟩

lemma Sample.reach_logInv (ops : List (Op ι)) : LogInv (reach ops) :=
  run_inv_all LogInv (fun _ o h => (step_log config h o).1) ops empty_started.logInv

/-- two registrations, one after the other -/
theorem log_append_only_registered :
    Legal (World.step Sample.config) (InLogOrder Sample.config) World.empty
      (Sample.registered (0 : ℕ) "alice" 1 ++ Sample.registered 1 "bob" 2) ∧
    transparencyLeaves (Sample.reach (Sample.registered (0 : ℕ) "alice" 1)).public <+:
      transparencyLeaves (Sample.reach (Sample.registered (0 : ℕ) "alice" 1 ++ Sample.registered 1 "bob" 2)).public := by
  have hlegal : Legal (step Sample.config) (InLogOrder Sample.config) empty
      (Sample.registered (0 : ℕ) "alice" 1 ++ Sample.registered 1 "bob" 2) := by
    decide
  exact ⟨hlegal, (log_append_only Transparency.Sample.logPrims id empty empty_started _ _ hlegal).1⟩

/-- the epoch in the signed tree head of a response -/
def Sample.servedEpoch (s : Snapshot) (userId : String) : Except AppError ℕ :=
  (getTransparencyProof Transparency.Sample.logPrims id s userId none).map (·.signedTreeHead.epoch)

/-- **The log is rewritten.** Bob's account is deleted, and the log loses its last leaf and falls back to epoch 1. Or Bob's
registration commits before that of Alice, who got the lower id: her leaf comes in before his. -/
theorem log_rewritten :
    let both := Sample.registered (0 : ℕ) "alice" 1 ++ Sample.registered 1 "bob" 2
    let deleted := both ++ Op.start 1 (.deleteAccount "bob") :: List.replicate 3 (.advance 1)
    let late := Op.start (0 : ℕ) (.register (Sample.registration "alice" 1)) :: List.replicate 3 (.advance 0) ++
      Sample.registered 1 "bob" 2
    ¬transparencyLeaves (Sample.reach both).public <+: transparencyLeaves (Sample.reach deleted).public ∧
    Sample.servedEpoch (Sample.reach both).public "alice" = .ok 2 ∧
    Sample.servedEpoch (Sample.reach deleted).public "alice" = .ok 1 ∧
    ¬transparencyLeaves (Sample.reach late).public <+:
      transparencyLeaves (Sample.reach (late ++ [.advance 0, .advance 0])).public := by
  decide +kernel

end PqMsg.Server
