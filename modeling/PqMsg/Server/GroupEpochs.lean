/-
The epochs of a private group on the server, under every interleaving of its handlers.

A publisher reads the latest epoch and its own credential before its transaction begins. What orders competing publishers is
the primary key of the state: the one that inserts `(group, epoch)` first holds it until it ends, and whoever comes later
waits and then fails. So when a transaction commits, no other epoch has been committed since its reads, the credential it was
authorised by is still active, and the credentials it has revoked are all that were active.

- `EpochsInv.commit`: a commit adds the next epoch and moves the active credentials to it.
- `EpochsInv.step`: the invariant under one step of any handler.
- `epochs_in_order`: the epochs of a group are 1 to n, each published with an active credential of the epoch before, and
  exactly the credentials of epoch n are active.
-/
import PqMsg.Server.PrivateGroups

namespace PqMsg.Server.PrivateGroups

open Lib Function List Option Store

variable {ι : Type} [DecidableEq ι] {d : Deps} {x : Option CredentialRow} {job : PublishJob}

/-! ## The invariant -/

/-- rows of the tables of states and credentials -/
def Key.ofEpochs : Key → Prop
  | .state _ _ | .credential _ => True
  | _ => False

/-- what a publisher has read before its transaction: the latest epoch, if any, and a credential of it -/
def Cleared (d : Deps) (s : Tables ι) (job : PublishJob) : Option ℕ → Prop
  | none => job.epoch = 1
  | some latest =>
    (s.committed (.state job.groupId latest)).isSome ∧ job.epoch = latest + 1 ∧
      ∃ row, s.committed (.credential job.handle) = some row ∧ row.groupId = job.groupId ∧ row.epoch = latest ∧
        row.publishKeySha256 = some (d.keySha256 job.publishKey)

/-- the process has revoked every active credential of the previous epoch -/
def Revoked (s : Tables ι) (i : ι) (job : PublishJob) (latest : Option ℕ) : Prop :=
  ∀ h row, s.committed (.credential h) = some row → row.groupId = job.groupId → some row.epoch = latest →
    row.revokedAt = none → ∃ t, s.draft (.credential h) = some (i, some { row with revokedAt := some t })

/-- the members that are still to be stored are members of the request -/
def PublishStep.Within (job : PublishJob) : PublishStep → Prop
  | .insertMembers rest => rest ⊆ job.members
  | _ => True

def PhaseOk (d : Deps) (s : Tables ι) (i : ι) : Phase → Prop
  | .publishCredential job latest => (s.committed (.state job.groupId latest)).isSome ∧ job.epoch = latest + 1
  | .publishRevoke job latest => Cleared d s job (some latest)
  | .publishing job latest step =>
    Cleared d s job latest ∧ Revoked s i job latest ∧ step.Within job ∧
      (step ≠ .insertState → s.draft (.state job.groupId job.epoch) = some (i, some job.stateRow))
  | _ => True

/-- a state that a process has written: it is the one of its request, and not yet stored -/
def OwnState (s : Tables ι) (phase : Phase) (g : String) (e : ℕ) (x : Option StateRow) : Prop :=
  s.committed (.state g e) = none ∧ ∃ job latest step, phase = .publishing job latest step ∧ step ≠ .insertState ∧
    g = job.groupId ∧ e = job.epoch ∧ x = some job.stateRow

/-- a credential that a process has written: an active one of the previous epoch, revoked, or a new one of its request -/
def OwnCredential (s : Tables ι) (phase : Phase) (h : String) (x : Option CredentialRow) : Prop :=
  ∃ job latest step, phase = .publishing job latest step ∧
    ((∃ row t, s.committed (.credential h) = some row ∧ row.groupId = job.groupId ∧ some row.epoch = latest ∧
        x = some { row with revokedAt := some t }) ∨
      (step ≠ .insertState ∧ s.committed (.credential h) = none ∧
        ∃ m ∈ job.members, m.membershipHandleSha256 = h ∧ x = some (job.credentialRow m)))

/-- the stored epochs are 1 to `n`, and the active credentials are those of epoch `n` -/
structure EpochsUpTo (s : Tables ι) (g : String) (n : ℕ) : Prop where
  states : ∀ e, (s.committed (.state g e)).isSome ↔ 1 ≤ e ∧ e ≤ n
  credentials : ∀ h row, s.committed (.credential h) = some row → row.groupId = g →
    1 ≤ row.epoch ∧ row.epoch ≤ n ∧ (row.revokedAt = none ↔ row.epoch = n)

/-- published with the publish key of a credential of the epoch before that was still active -/
def Publication.Authorized (d : Deps) (p : Publication) : Prop :=
  ∃ row, p.authorizing = some row ∧ row.groupId = p.groupId ∧ row.epoch + 1 = p.epoch ∧ row.revokedAt = none ∧
    row.publishKeySha256 = some (d.keySha256 p.publishKey)

structure EpochsInv (d : Deps) (w : World ι) : Prop where
  epochs : ∀ g, ∃ n, EpochsUpTo w.tables g n
  phases : ∀ i, PhaseOk d w.tables i (w.handlers i)
  states : ∀ i g e x, w.tables.draft (.state g e) = some (i, x) → OwnState w.tables (w.handlers i) g e x
  credentials : ∀ i h x, w.tables.draft (.credential h) = some (i, x) → OwnCredential w.tables (w.handlers i) h x
  authorized : ∀ p ∈ w.publications, 2 ≤ p.epoch → p.Authorized d
  published : ∀ g e row, w.tables.committed (.state g e) = some row →
    ∃ p ∈ w.publications, p.groupId = g ∧ p.epoch = e ∧ p.handle = row.publishedByMembershipHandleSha256

omit [DecidableEq ι] in
lemma EpochsInv.phase {w : World ι} (hw : EpochsInv d w) {i : ι} {p : Phase} (hi : w.handlers i = p) : PhaseOk d w.tables i p :=
  hi ▸ hw.phases i

/-! ## Changes that leave what is stored -/

section Same

variable {s s' : Tables ι} {i j : ι} {g h : String} {e n : ℕ}
omit [DecidableEq ι]

lemma EpochsUpTo.congr (hu : EpochsUpTo s g n) (hc : ∀ k : Key, k.ofEpochs → s'.committed k = s.committed k) :
    EpochsUpTo s' g n := by
  constructor
  · intro e
    rw [hc (.state g e) trivial]
    exact hu.states e
  · intro h row hrow
    rw [hc (.credential h) trivial] at hrow
    exact hu.credentials h row hrow

lemma Cleared.congr {latest : Option ℕ} (hcleared : Cleared d s job latest)
    (hc : ∀ k : Key, k.ofEpochs → s'.committed k = s.committed k) : Cleared d s' job latest := by
  cases latest with
  | none => exact hcleared
  | some =>
    obtain ⟨hlatest, hepoch, row, hrow, hauthorized⟩ := hcleared
    exact ⟨(congrArg Option.isSome (hc (.state _ _) trivial)).trans hlatest, hepoch, row,
      (hc (.credential _) trivial).trans hrow, hauthorized⟩

variable {p : Phase}

/-- what a process knows and holds is not touched by a change that keeps its own rows -/
lemma PhaseOk.congr (hp : PhaseOk d s j p) (hc : ∀ k : Key, k.ofEpochs → s'.committed k = s.committed k)
    (hd : ∀ (k : Key) (x : Option (Row k)), k.ofEpochs → s.draft k = some (j, x) → s'.draft k = some (j, x)) :
    PhaseOk d s' j p := by
  cases p with
  | publishCredential =>
    obtain ⟨hlatest, hepoch⟩ := hp
    exact ⟨(congrArg Option.isSome (hc (.state _ _) trivial)).trans hlatest, hepoch⟩
  | publishRevoke job latest =>
    have hcleared : Cleared d s job (some latest) := hp
    exact hcleared.congr hc
  | publishing =>
    obtain ⟨hcleared, hrevoked, hwithin, hstate⟩ := hp
    refine ⟨hcleared.congr hc, fun h row hrow hgroup hepoch hactive => ?_, hwithin, fun hstep => ?_⟩
    · rw [hc (.credential h) trivial] at hrow
      obtain ⟨t, ht⟩ := hrevoked h row hrow hgroup hepoch hactive
      exact ⟨t, hd (.credential h) _ trivial ht⟩
    · exact hd (.state _ _) _ trivial (hstate hstep)
  | _ => trivial

lemma OwnState.congr {x : Option StateRow} (ho : OwnState s p g e x)
    (hc : ∀ k : Key, k.ofEpochs → s'.committed k = s.committed k) : OwnState s' p g e x := by
  unfold OwnState
  rw [hc (.state g e) trivial]
  exact ho

lemma OwnCredential.congr (ho : OwnCredential s p h x) (hc : ∀ k : Key, k.ofEpochs → s'.committed k = s.committed k) :
    OwnCredential s' p h x := by
  unfold OwnCredential
  rw [hc (.credential h) trivial]
  exact ho

end Same

section Steps

variable {w : World ι} {s : Tables ι} {i : ι} {p : Phase} {stmt : Stmt} {k : Key} {latest : ℕ}

/-- what a step has to show if it commits no state and no credential: its own rows and its new phase -/
lemma EpochsInv.change (hw : EpochsInv d w) (replies : List Reply)
    (hc : ∀ k : Key, k.ofEpochs → s.committed k = w.tables.committed k)
    (hd : ∀ (j : ι) (k : Key) (x : Option (Row k)), j ≠ i → k.ofEpochs →
      (s.draft k = some (j, x) ↔ w.tables.draft k = some (j, x))) (hp : PhaseOk d s i p)
    (hstate : ∀ g e x, s.draft (.state g e) = some (i, x) → OwnState s p g e x)
    (hcredential : ∀ h x, s.draft (.credential h) = some (i, x) → OwnCredential s p h x) :
    EpochsInv d ⟨s, Function.update w.handlers i p, replies, w.publications⟩ where
  epochs g := by
    obtain ⟨n, hn⟩ := hw.epochs g
    exact ⟨n, hn.congr hc⟩
  phases := (forall_update_iff w.handlers fun j p => PhaseOk d s j p).2
    ⟨hp, fun j hj => (hw.phases j).congr hc fun k x hk hx => (hd j k x hj hk).2 hx⟩
  states j g e x hx := by
    by_cases hj : j = i
    · subst hj
      simpa using hstate g e x hx
    · dsimp only
      rw [update_of_ne hj]
      exact (hw.states j g e x ((hd j (.state g e) x hj trivial).1 hx)).congr hc
  credentials j h x hx := by
    by_cases hj : j = i
    · subst hj
      simpa using hcredential h x hx
    · dsimp only
      rw [update_of_ne hj]
      exact (hw.credentials j h x ((hd j (.credential h) x hj trivial).1 hx)).congr hc
  authorized := hw.authorized
  published g e row hrow := hw.published g e row ((hc (.state g e) trivial).symm.trans hrow)

/-- the process holds no state and no credential -/
def HoldsNothing (s : Tables ι) (i : ι) : Prop := ∀ (k : Key) (x : Option (Row k)), k.ofEpochs → s.draft k ≠ some (i, x)

omit [DecidableEq ι] in
/-- outside of its transaction, a process holds nothing -/
lemma EpochsInv.holdsNothing (hw : EpochsInv d w) (hi : ∀ job latest step, w.handlers i ≠ .publishing job latest step) :
    HoldsNothing w.tables i := by
  intro k x hk hx
  cases k with
  | state g e =>
    obtain ⟨-, job, latest, step, hphase, -⟩ := hw.states i g e x hx
    exact hi job latest step hphase
  | credential h =>
    obtain ⟨job, latest, step, hphase, -⟩ := hw.credentials i h x hx
    exact hi job latest step hphase
  | invite | message => exact hk

/-- a step after which the process holds nothing -/
lemma EpochsInv.change_free (hw : EpochsInv d w) (replies : List Reply)
    (hc : ∀ k : Key, k.ofEpochs → s.committed k = w.tables.committed k)
    (hd : ∀ (j : ι) (k : Key) (x : Option (Row k)), j ≠ i → k.ofEpochs →
      (s.draft k = some (j, x) ↔ w.tables.draft k = some (j, x))) (hp : PhaseOk d s i p) (hfree : HoldsNothing s i) :
    EpochsInv d ⟨s, Function.update w.handlers i p, replies, w.publications⟩ :=
  hw.change replies hc hd hp (fun g e x hx => absurd hx (hfree (.state g e) x trivial))
    fun h x hx => absurd hx (hfree (.credential h) x trivial)

/-! ## Reads and failures -/

def NextOk (d : Deps) (s : Tables ι) (i : ι) : Next → Prop
  | .goto phase => PhaseOk d s i phase
  | .answer _ => True

/-- the process goes on, with the same tables -/
lemma EpochsInv.follow (hw : EpochsInv d w) {next : Next} (hfree : HoldsNothing w.tables i)
    (hnext : NextOk d w.tables i next) : EpochsInv d (w.follow i next) := by
  cases next with
  | goto => exact hw.change_free w.replies (fun _ _ => rfl) (fun _ _ _ _ _ => Iff.rfl) hnext hfree
  | answer => exact hw.change_free _ (fun _ _ => rfl) (fun _ _ _ _ _ => Iff.rfl) trivial hfree

lemma rollback_holdsNothing (s : Tables ι) (i : ι) : HoldsNothing (s.rollback i) i := by
  intro k x _ hx
  exact (rollback_draft.1 hx).2 rfl

/-- a transaction that fails leaves what is stored -/
lemma EpochsInv.rollback (hw : EpochsInv d w) (i : ι) (replies : List Reply) :
    EpochsInv d ⟨w.tables.rollback i, Function.update w.handlers i .idle, replies, w.publications⟩ := by
  refine hw.change_free replies (fun _ _ => rfl) (fun j k x hj _ => ?_) trivial (rollback_holdsNothing _ i)
  rw [rollback_draft]
  exact and_iff_left hj

/-! ## Statements on invites and messages -/

def Stmt.Aside : Stmt → Prop
  | .revokeInvites .. | .purgeInvites .. | .insertInvite .. | .consumeInvite .. | .insertMessage .. => True
  | _ => False

lemma writes_aside (ha : stmt.Aside) {view : RowView} (hk : k.ofEpochs) : stmt.writes view k = none := by
  cases k with
  | invite | message => cases hk
  | state | credential =>
    cases stmt with
    | revokeCredentials | insertState | insertCredential => cases ha
    | revokeInvites | purgeInvites | consumeInvite => rfl
    | insertInvite | insertMessage => exact onKey_ne (by simp) _

/-- a statement leaves a row that it does not write, and that its process has not written before -/
lemma settled_none {s s' : Tables ι} (hexec : s.exec i stmt = .done s') (atOnce : Bool)
    (hwrites : stmt.writes (s.view i) k = none) (hfree : ∀ x, s.draft k ≠ some (i, x)) :
    (World.settled i s' atOnce).committed k = s.committed k ∧
      ∀ x, (World.settled i s' atOnce).draft k = some x ↔ s.draft k = some x := by
  obtain ⟨-, -, -, rfl⟩ := exec_done hexec
  have hdraft : (s.write i stmt.new.toList (stmt.writes (s.view i))).draft k = s.draft k := write_draft_none hwrites
  cases atOnce with
  | false => exact ⟨rfl, fun x => by rw [← hdraft]; rfl⟩
  | true =>
    constructor
    · exact commit_committed_other fun x hx => hfree x (hdraft.symm.trans hx)
    · intro x
      change (commit _ i).draft k = some x ↔ _
      rw [commit_draft, hdraft]
      refine ⟨fun hx => hx.1, fun hx => ⟨hx, fun hi => hfree x.2 ?_⟩⟩
      rw [← hi]
      exact hx

/-- what a handler does outside of the transaction of a publisher -/
inductive Quiet (d : Deps) (s : Tables ι) (i : ι) : Turn → Prop
  | next {next : Next} (h : NextOk d s i next) : Quiet d s i (.next next)
  | write {stmt : Stmt} {next : Next} {onConflict : AppError} (ha : stmt.Aside) (h : ∀ s', NextOk d s' i next) :
      Quiet d s i (.write stmt true next onConflict)

lemma EpochsInv.take (hw : EpochsInv d w) {turn : Turn} (hfree : HoldsNothing w.tables i)
    (hturn : Quiet d w.tables i turn) : EpochsInv d (w.take i turn) := by
  cases hturn with
  | next h => exact hw.follow hfree h
  | @write stmt next onConflict ha h =>
    refine w.write_rule i hw (hw.rollback i _) fun s' hexec => ?_
    have hsame := fun (k : Key) hk => settled_none hexec true (writes_aside ha hk) fun x => hfree k x hk
    have hfree' : HoldsNothing (World.settled i s' true) i := fun k x hk hx => hfree k x hk (((hsame k hk).2 (i, x)).1 hx)
    have hsettled : EpochsInv d (w.withTables (World.settled i s' true)) := by
      have := hw.change_free (s := World.settled i s' true) (i := i) (p := w.handlers i) w.replies
        (fun k hk => (hsame k hk).1) (fun j k x _ hk => (hsame k hk).2 (j, x))
        ((hw.phases i).congr (fun k hk => (hsame k hk).1) fun k x hk => ((hsame k hk).2 (i, x)).2) hfree'
      rwa [update_eq_self] at this
    exact hsettled.follow hfree' (h _)

/-! ## The transaction of a publisher -/

/-- a statement of a transaction: committed rows and the rows of others stay -/
lemma EpochsInv.statement (hw : EpochsInv d w) (onConflict : AppError)
    (hdone : ∀ s', w.tables.exec i stmt = .done s' → PhaseOk d s' i p ∧
      (∀ g e x, s'.draft (.state g e) = some (i, x) → OwnState s' p g e x) ∧
      ∀ h x, s'.draft (.credential h) = some (i, x) → OwnCredential s' p h x) :
    EpochsInv d (w.write i stmt false (.goto p) onConflict) := by
  refine w.write_rule i hw (hw.rollback i _) fun s' hexec => ?_
  obtain ⟨hp, hstate, hcredential⟩ := hdone s' hexec
  refine hw.change w.replies (fun k _ => ?_) (fun j k x hj _ => done_draft_other hexec hj) hp hstate hcredential
  obtain ⟨-, -, -, rfl⟩ := exec_done hexec
  rfl

lemma HoldsNothing.view (hfree : HoldsNothing s i) (hk : k.ofEpochs) : s.view i k = s.committed k :=
  view_unheld fun x => hfree k x hk

/-- the credentials of the latest epoch are revoked -/
lemma EpochsInv.revokeCredentials (hw : EpochsInv d w) (onConflict : AppError) (hi : w.handlers i = .publishRevoke job latest) :
    EpochsInv d (w.write i (.revokeCredentials job.groupId latest job.now) false
      (.goto (.publishing job (some latest) .insertState)) onConflict) := by
  have hfree : HoldsNothing w.tables i := hw.holdsNothing fun _ _ _ h => by rw [hi] at h; cases h
  have hcleared : Cleared d w.tables job (some latest) := hw.phase hi
  refine hw.statement onConflict fun s' hexec => ?_
  obtain ⟨-, -, -, rfl⟩ := exec_done hexec
  refine ⟨⟨hcleared, fun h row hrow hgroup hepoch hactive => ?_, trivial, fun hstep => absurd rfl hstep⟩,
    fun g e x hx => ?_, fun h x hx => ?_⟩
  · have hview : w.tables.view i (.credential h) = some row := (hfree.view (k := .credential h) trivial).trans hrow
    refine ⟨job.now, write_draft_some ?_ (.inl (mem_keys_of_view hview))⟩
    simp only [Stmt.writes, onCredential, hview, update]
    rw [filter_some, if_pos (by simpa using ⟨hgroup, some.inj hepoch, hactive⟩)]
    rfl
  · rw [write_draft_none rfl] at hx
    exact absurd hx (hfree (.state g e) x trivial)
  · rcases write_draft_cases w.tables i [] ((Stmt.revokeCredentials job.groupId latest job.now).writes
      (w.tables.view i)) (.credential h) with heq | ⟨x', hwrites, heq⟩
    · exact absurd (heq.symm.trans hx) (hfree (.credential h) x trivial)
    · obtain rfl : x' = x := congrArg Prod.snd (some.inj (heq.symm.trans hx))
      obtain ⟨row, hrow, rfl⟩ := map_eq_some_iff.1 hwrites
      obtain ⟨hview, hcond⟩ := filter_eq_some_iff.1 hrow
      obtain ⟨hgroup, hepoch, -⟩ := of_decide_eq_true hcond
      exact ⟨job, some latest, .insertState, rfl,
        .inl ⟨row, job.now, (hfree.view (k := .credential h) trivial).symm.trans hview, hgroup, congrArg some hepoch, rfl⟩⟩

section Publishing

variable {job : PublishJob} {latest : Option ℕ} {step : PublishStep} (hw : EpochsInv d w)
include hw

variable (hi : w.handlers i = .publishing job latest step) {h : String} {step' : PublishStep} {g : String} {e : ℕ}
include hi

section

omit [DecidableEq ι]

lemma EpochsInv.ownState {x : Option StateRow} (hx : w.tables.draft (.state g e) = some (i, x)) :
    w.tables.committed (.state g e) = none ∧ step ≠ .insertState ∧ g = job.groupId ∧ e = job.epoch ∧ x = some job.stateRow := by
  obtain ⟨hnone, job', latest', step', hphase, hown⟩ := hw.states i g e x hx
  obtain ⟨rfl, rfl, rfl⟩ := Phase.publishing.inj (hi.symm.trans hphase)
  exact ⟨hnone, hown⟩

lemma EpochsInv.ownCredential (hx : w.tables.draft (.credential h) = some (i, x)) :
    (∃ row t, w.tables.committed (.credential h) = some row ∧ row.groupId = job.groupId ∧ some row.epoch = latest ∧
        x = some { row with revokedAt := some t }) ∨
      (step ≠ .insertState ∧ w.tables.committed (.credential h) = none ∧
        ∃ m ∈ job.members, m.membershipHandleSha256 = h ∧ x = some (job.credentialRow m)) := by
  obtain ⟨job', latest', step', hphase, hown⟩ := hw.credentials i h x hx
  obtain ⟨rfl, rfl, rfl⟩ := Phase.publishing.inj (hi.symm.trans hphase)
  exact hown

/-- what a process has written so far is its own in the next phase -/
lemma EpochsInv.ownState_next {x : Option StateRow} (hx : w.tables.draft (.state g e) = some (i, x))
    (hstep : step' ≠ .insertState) : OwnState w.tables (.publishing job latest step') g e x := by
  obtain ⟨hnone, -, hown⟩ := hw.ownState hi hx
  exact ⟨hnone, job, latest, step', rfl, hstep, hown⟩

lemma EpochsInv.ownCredential_next (hx : w.tables.draft (.credential h) = some (i, x)) (hstep : step' ≠ .insertState) :
    OwnCredential w.tables (.publishing job latest step') h x := by
  rcases hw.ownCredential hi hx with hold | ⟨-, hnew⟩
  · exact ⟨job, latest, step', rfl, .inl hold⟩
  · exact ⟨job, latest, step', rfl, .inr ⟨hstep, hnew⟩⟩

end

/-- a publisher deletes nothing: what it does not see is not stored -/
lemma EpochsInv.committed_none (hk : k.ofEpochs) (hview : w.tables.view i k = none) :
    w.tables.committed k = none ∧ ∀ x, w.tables.draft k ≠ some (i, x) := by
  rcases view_cases w.tables i k with ⟨x, hx, hv⟩ | ⟨hnot, hv⟩
  · obtain rfl : x = none := hv.symm.trans hview
    cases k with
    | state =>
      obtain ⟨-, -, -, -, hsome⟩ := hw.ownState hi hx
      cases hsome
    | credential =>
      rcases hw.ownCredential hi hx with ⟨row, t, -, -, -, hsome⟩ | ⟨-, -, m, -, -, hsome⟩ <;> cases hsome
    | invite | message => cases hk
  · exact ⟨hv.symm.trans hview, hnot⟩

omit hi

variable (onConflict : AppError)

/-- the state is inserted -/
lemma EpochsInv.insertState (hi : w.handlers i = .publishing job latest .insertState) :
    EpochsInv d (w.write i (.insertState job.groupId job.epoch job.stateRow) false
      (.goto (.publishing job latest .revokeInvites)) onConflict) := by
  obtain ⟨hcleared, hrevoked, -, -⟩ := hw.phase hi
  refine hw.statement onConflict fun s' hexec => ?_
  obtain ⟨hunseen, hcommitted, hdraft, hothers⟩ := insert_done (k := .state job.groupId job.epoch) hexec rfl rfl
  obtain ⟨hnone, -⟩ := hw.committed_none hi (k := .state job.groupId job.epoch) trivial hunseen
  have hc : ∀ k : Key, k.ofEpochs → s'.committed k = w.tables.committed k := fun k _ => by rw [hcommitted]
  refine ⟨⟨hcleared.congr hc, fun h row hrow hgroup hepoch hactive => ?_, trivial, fun _ => hdraft⟩, fun g e x hx => ?_,
    fun h x hx => ?_⟩
  · obtain ⟨t, ht⟩ := hrevoked h row ((hc (.credential h) trivial).symm.trans hrow) hgroup hepoch hactive
    exact ⟨t, (hothers (.credential h) (by simp)).trans ht⟩
  · by_cases hk : Key.state g e = .state job.groupId job.epoch
    · obtain ⟨rfl, rfl⟩ := Key.state.inj hk
      have hx := congrArg Prod.snd (some.inj (hdraft.symm.trans hx))
      exact ⟨(hc (.state _ _) trivial).trans hnone, job, latest, .revokeInvites, rfl, by simp, rfl, rfl, hx.symm⟩
    · rw [hothers _ hk] at hx
      exact (hw.ownState_next hi hx (by simp)).congr hc
  · rw [hothers (.credential h) (by simp)] at hx
    exact (hw.ownCredential_next hi hx (by simp)).congr hc

/-- the invites of earlier epochs are revoked -/
lemma EpochsInv.revokeInvites (hi : w.handlers i = .publishing job latest .revokeInvites) :
    EpochsInv d (w.write i (.revokeInvites job.groupId job.epoch job.now) false
      (.goto (.publishing job latest (.insertMembers job.members))) onConflict) := by
  obtain ⟨hcleared, hrevoked, -, hstate⟩ := hw.phase hi
  refine hw.statement onConflict fun s' hexec => ?_
  obtain ⟨-, -, -, rfl⟩ := exec_done hexec
  refine ⟨⟨hcleared, fun h row hrow hgroup hepoch hactive => ?_, List.Subset.refl _, fun _ => ?_⟩, fun g e x hx => ?_,
    fun h x hx => ?_⟩
  · obtain ⟨t, ht⟩ := hrevoked h row hrow hgroup hepoch hactive
    exact ⟨t, (write_draft_none rfl).trans ht⟩
  · exact (write_draft_none rfl).trans (hstate (by simp))
  · rw [write_draft_none rfl] at hx
    exact hw.ownState_next hi hx (by simp)
  · rw [write_draft_none rfl] at hx
    exact hw.ownCredential_next hi hx (by simp)

/-! ## The commit -/

variable (hi : w.handlers i = .publishing job latest step) {row : CredentialRow}
include hi

omit [DecidableEq ι] in
lemma EpochsInv.epoch_unstored (hstep : step ≠ .insertState) : w.tables.committed (.state job.groupId job.epoch) = none :=
  (hw.ownState hi ((hw.phase hi).2.2.2 hstep)).1

omit [DecidableEq ι] in
/-- when a publisher is about to commit, the epoch before its own is the last one that is stored -/
lemma EpochsInv.last_epoch (hstep : step ≠ .insertState) {n : ℕ} (hn : EpochsUpTo w.tables job.groupId n) :
    job.epoch = n + 1 ∧ (latest = some n ∨ latest = none ∧ n = 0) := by
  obtain ⟨hcleared, -, -, -⟩ := hw.phase hi
  have hnot : ¬(1 ≤ job.epoch ∧ job.epoch ≤ n) := by
    rw [← hn.states, hw.epoch_unstored hi hstep]
    simp
  cases latest with
  | none =>
    have hepoch : job.epoch = 1 := hcleared
    exact ⟨by omega, .inr ⟨rfl, by omega⟩⟩
  | some l =>
    obtain ⟨hl, hepoch, -⟩ := hcleared
    have hl := (hn.states l).1 hl
    obtain rfl : l = n := by omega
    exact ⟨hepoch, .inl rfl⟩

/-- the states after a commit: those before, and the new one -/
lemma EpochsInv.commit_state (hstep : step ≠ .insertState) (g : String) (e : ℕ) : (w.tables.commit i).committed (.state g e) =
      if g = job.groupId ∧ e = job.epoch then some job.stateRow else w.tables.committed (.state g e) := by
  obtain ⟨-, -, -, hstate⟩ := hw.phase hi
  split_ifs with hk
  · obtain ⟨rfl, rfl⟩ := hk
    exact view_own (hstate hstep)
  · refine commit_committed_other fun x hx => hk ?_
    obtain ⟨-, -, hg, he, -⟩ := hw.ownState hi hx
    exact ⟨hg, he⟩

lemma EpochsInv.commit_state_mono (hstep : step ≠ .insertState) (he : (w.tables.committed (.state g e)).isSome) :
    ((w.tables.commit i).committed (.state g e)).isSome := by
  rw [hw.commit_state hi hstep]
  split_ifs
  · rfl
  · exact he

/-- the credentials after a commit: revoked ones of the previous epoch, new ones, and those that the process has not written -/
lemma EpochsInv.commit_credential (hrow : (w.tables.commit i).committed (.credential h) = some row) :
    (∃ old t, w.tables.committed (.credential h) = some old ∧ old.groupId = job.groupId ∧ some old.epoch = latest ∧
        row = { old with revokedAt := some t }) ∨
      (w.tables.committed (.credential h) = none ∧ ∃ m ∈ job.members, m.membershipHandleSha256 = h ∧ row = job.credentialRow m) ∨
      (w.tables.committed (.credential h) = some row ∧ ∀ x, w.tables.draft (.credential h) ≠ some (i, x)) := by
  rcases view_cases w.tables i (.credential h) with ⟨x, hx, hview⟩ | ⟨hnot, hview⟩
  · obtain rfl : x = some row := hview.symm.trans hrow
    rcases hw.ownCredential hi hx with ⟨old, t, hold, hgroup, hepoch, heq⟩ | ⟨-, hnone, m, hm, hh, heq⟩
    · exact .inl ⟨old, t, hold, hgroup, hepoch, some.inj heq⟩
    · exact .inr (.inl ⟨hnone, m, hm, hh, some.inj heq⟩)
  · exact .inr (.inr ⟨hview.symm.trans hrow, hnot⟩)

/-- a commit keeps all credentials, and at most revokes them -/
lemma EpochsInv.commit_keeps (hrow : w.tables.committed (.credential h) = some row) :
    ∃ t, (w.tables.commit i).committed (.credential h) = some { row with revokedAt := t } := by
  rcases view_cases w.tables i (.credential h) with ⟨x, hx, hview⟩ | ⟨-, hview⟩
  · rcases hw.ownCredential hi hx with ⟨old, t, hold, -, -, heq⟩ | ⟨-, hnone, -⟩
    · obtain rfl := some.inj (hold.symm.trans hrow)
      exact ⟨some t, hview.trans heq⟩
    · rw [hnone] at hrow
      cases hrow
  · exact ⟨row.revokedAt, hview.trans hrow⟩

/-- **A commit adds the next epoch**, and the active credentials are those of it -/
lemma EpochsInv.commit_epochs (hstep : step ≠ .insertState) (g : String) {n : ℕ} (hn : EpochsUpTo w.tables g n) :
    EpochsUpTo (w.tables.commit i) g (if g = job.groupId then n + 1 else n) := by
  constructor
  · intro e
    rw [hw.commit_state hi hstep]
    split_ifs with hk hg hg
    · subst hg
      obtain ⟨hepoch, -⟩ := hw.last_epoch hi hstep hn
      obtain ⟨-, rfl⟩ := hk
      simp only [isSome_some, true_iff]
      omega
    · exact absurd hk.1 hg
    · subst hg
      obtain ⟨hepoch, -⟩ := hw.last_epoch hi hstep hn
      have hne : e ≠ job.epoch := fun he => hk ⟨rfl, he⟩
      rw [hn.states e]
      omega
    · exact hn.states e
  · intro h row hrow hgroup
    rcases hw.commit_credential hi hrow with ⟨old, t, hold, hg, hlatest, rfl⟩ | ⟨-, m, -, -, rfl⟩ | ⟨hold, hnot⟩
    · obtain rfl : g = job.groupId := hgroup.symm.trans hg
      obtain ⟨hlow, hhigh, -⟩ := hn.credentials h old hold hgroup
      rw [if_pos rfl]
      simp only [reduceCtorEq, false_iff]
      omega
    · obtain rfl : job.groupId = g := hgroup
      obtain ⟨hepoch, -⟩ := hw.last_epoch hi hstep hn
      rw [if_pos rfl]
      simp only [PublishJob.credentialRow, true_iff]
      omega
    · obtain ⟨hlow, hhigh, hactive⟩ := hn.credentials h row hold hgroup
      split_ifs with hg
      · subst hg
        refine ⟨hlow, by omega, ⟨fun hr => ?_, fun he => by omega⟩⟩
        -- an active credential of the previous epoch would have been revoked by the process
        obtain ⟨hcleared, hrevoked, -, -⟩ := hw.phase hi
        have hlast := hactive.1 hr
        obtain ⟨-, hl | ⟨-, hzero⟩⟩ := hw.last_epoch hi hstep hn
        · obtain ⟨t, ht⟩ := hrevoked h row hold hgroup (by rw [hl, hlast]) hr
          exact absurd ht (hnot _)
        · omega
      · exact ⟨hlow, hhigh, hactive⟩

/-- what another process has read stays true, and what it has to revoke does not grow -/
lemma EpochsInv.commit_phase (hstep : step ≠ .insertState) {j : ι} (hj : j ≠ i) :
    PhaseOk d (w.tables.commit i) j (w.handlers j) := by
  have hclear : ∀ job' latest', Cleared d w.tables job' latest' → Cleared d (w.tables.commit i) job' latest' := by
    intro job' latest' hc
    cases latest' with
    | none => exact hc
    | some =>
      obtain ⟨hl, hepoch, row, hrow, hgroup, he, hkey⟩ := hc
      obtain ⟨t, ht⟩ := hw.commit_keeps hi hrow
      exact ⟨hw.commit_state_mono hi hstep hl, hepoch, _, ht, hgroup, he, hkey⟩
  have hdraft : ∀ (k : Key) (x : Option (Row k)), w.tables.draft k = some (j, x) →
      (w.tables.commit i).draft k = some (j, x) := fun k x hx => commit_draft.2 ⟨hx, hj⟩
  cases hphase : w.handlers j with
  | publishCredential =>
    obtain ⟨hlatest, hepoch⟩ := hw.phase hphase
    exact ⟨hw.commit_state_mono hi hstep hlatest, hepoch⟩
  | publishRevoke job' l => exact hclear job' (some l) (hw.phase hphase)
  | publishing =>
    obtain ⟨hcleared, hrevoked, hwithin, hstate⟩ := hw.phase hphase
    refine ⟨hclear _ _ hcleared, fun h row hrow hgroup hepoch hactive => ?_, hwithin, fun hs => hdraft _ _ (hstate hs)⟩
    rcases hw.commit_credential hi hrow with ⟨old, t, -, -, -, rfl⟩ | ⟨-, m, -, -, rfl⟩ | ⟨hold, -⟩
    · cases hactive
    · -- a new credential of the other process' previous epoch: that epoch was stored before
      subst hepoch
      obtain ⟨hl, -⟩ := hcleared
      have hnone : w.tables.committed (.state (job.credentialRow m).groupId (job.credentialRow m).epoch) = none :=
        hw.epoch_unstored hi hstep
      rw [← hgroup, hnone] at hl
      cases hl
    · obtain ⟨t, ht⟩ := hrevoked h row hold hgroup hepoch hactive
      exact ⟨t, hdraft (.credential h) _ ht⟩
  | _ => trivial

omit hi

omit hw

/-- the row of a process is not changed by the commit of another -/
lemma commit_committed_held {j : ι} (hj : j ≠ i) {x : Option (Row k)} (hx : w.tables.draft k = some (j, x)) :
    (w.tables.commit i).committed k = w.tables.committed k :=
  commit_committed_other fun _ hy => hj (congrArg Prod.fst (some.inj (hx.symm.trans hy)))

/-- **The commit of a publisher** -/
lemma EpochsInv.commit (hw : EpochsInv d w) (hi : w.handlers i = .publishing job latest step)
    (hstep : step ≠ .insertState) : EpochsInv d (w.commit i job) where
  epochs g := by
    obtain ⟨n, hn⟩ := hw.epochs g
    exact ⟨_, hw.commit_epochs hi hstep g hn⟩
  phases := (forall_update_iff w.handlers fun j p => PhaseOk d (w.tables.commit i) j p).2
    ⟨trivial, fun _ hj => hw.commit_phase hi hstep hj⟩
  states j g e x hx := by
    obtain ⟨hx, hj⟩ := commit_draft.1 hx
    obtain ⟨hnone, hown⟩ := hw.states j g e x hx
    change OwnState (w.tables.commit i) (Function.update w.handlers i .idle j) g e x
    rw [update_of_ne hj]
    exact ⟨(commit_committed_held hj hx).trans hnone, hown⟩
  credentials j h x hx := by
    obtain ⟨hx, hj⟩ := commit_draft.1 hx
    have hown := hw.credentials j h x hx
    change OwnCredential (w.tables.commit i) (Function.update w.handlers i .idle j) h x
    rw [update_of_ne hj]
    unfold OwnCredential
    rw [commit_committed_held hj hx]
    exact hown
  authorized p hp htwo := by
    rcases mem_append.1 hp with hp | hp
    · exact hw.authorized p hp htwo
    · obtain rfl := mem_singleton.1 hp
      obtain ⟨n, hn⟩ := hw.epochs job.groupId
      obtain ⟨hepoch, hl | ⟨-, hzero⟩⟩ := hw.last_epoch hi hstep hn
      · obtain ⟨⟨-, -, row, hrow, hgroup, he, hkey⟩, -⟩ := hw.phase (hi.trans (by rw [hl]))
        have hactive := (hn.credentials _ row hrow hgroup).2.2.2 he
        exact ⟨row, hrow, hgroup, by rw [he, hepoch], hactive, hkey⟩
      · dsimp only at htwo
        omega
  published g e row hrow := by
    have hrow : (w.tables.commit i).committed (.state g e) = some row := hrow
    rw [hw.commit_state hi hstep] at hrow
    split_ifs at hrow with hk
    · cases hrow
      exact ⟨_, mem_append_right _ (mem_singleton.2 rfl), hk.1.symm, hk.2.symm, rfl⟩
    · obtain ⟨p, hp, hpublished⟩ := hw.published g e row hrow
      exact ⟨p, mem_append_left _ hp, hpublished⟩

end Publishing

/-! ## Steps and runs -/

section

omit [DecidableEq ι]

lemma nextOk_authorizePublish (job : PublishJob) : NextOk d s i (authorizePublish d s.keys s.committed job) := by
  refine authorizePublish_outcome job (fun _ => trivial) (fun hepoch => ?_) fun latest hlatest hepoch => ?_
  · have hrevoked : Revoked s i job none := by
      intro h row _ _ he
      cases he
    exact ⟨hepoch, hrevoked, trivial, fun hs => absurd rfl hs⟩
  · exact ⟨(latestEpoch_some hlatest).1, hepoch⟩

/-- outside of the transaction of a publisher, handlers read, or write invites and messages -/
lemma turn_quiet (hp : PhaseOk d s i p) (hrevoke : ∀ job latest, p ≠ .publishRevoke job latest)
    (hpublishing : ∀ job latest step, p ≠ .publishing job latest step) (x : Draw) :
    Quiet d s i (p.turn d s.keys s.committed x) := by
  cases p with
  | idle | readMessages => exact .next trivial
  | publishLatest job => exact .next (nextOk_authorizePublish job)
  | publishCredential =>
    -- a publisher that passes the check of its credential is cleared
    refine .next (checkCredential_outcome (fun _ => trivial) fun row hrow hkey => ?_)
    obtain ⟨hcommitted, hcond⟩ := filter_eq_some_iff.1 hrow
    obtain ⟨hgroup, hepoch, -⟩ := of_decide_eq_true hcond
    exact ⟨hp.1, hp.2, row, hcommitted, hgroup, hepoch, of_decide_eq_true hkey⟩
  | publishRevoke job latest => exact absurd rfl (hrevoke job latest)
  | publishing job latest step => exact absurd rfl (hpublishing job latest step)
  | fetchCredential | resolveLoad | consumeLoad | readCredential =>
    exact .next (ofExcept_outcome (fun _ => trivial) fun _ _ => trivial)
  | fetchState g e =>
    refine .next ?_
    cases s.committed (.state g e) <;> trivial
  | invitePurge | inviteInsert | consumeUpdate => exact .write trivial fun _ => trivial
  | inviteLatest | messageLatest => exact .next (checkLatest_outcome (fun _ => trivial) fun _ _ => trivial)
  | inviteCredential | messageCredential => exact .next (checkCredential_outcome (fun _ => trivial) fun _ _ _ => trivial)
  | resolvePurge token | consumePurge token =>
    refine .write trivial fun _ => ?_
    cases validatePrivateGroupInviteToken token <;> trivial
  | resolveLatest token invite =>
    refine .next ?_
    cases latestEpoch s.keys s.committed invite.groupId with
    | none => trivial
    | some =>
      dsimp only
      split_ifs <;> trivial
  | messageInsert =>
    unfold Phase.turn
    dsimp only
    split_ifs
    · exact .next trivial
    · exact .write trivial fun _ => trivial

lemma nextOk_first (request : Request) (now : ℕ) : NextOk d s i (request.first d now) := by
  refine first_outcome request now (fun _ => trivial) fun phase hphase => ?_
  cases phase <;> trivial

end

/-- **One step** of any handler -/
lemma EpochsInv.step (hw : EpochsInv d w) (o : Op ι) : EpochsInv d (w.step d o) := by
  cases o with
  | start i request now =>
    change EpochsInv d (w.accept i (request.first d now))
    unfold World.accept
    split_ifs with hidle
    · refine hw.follow (hw.holdsNothing fun job latest step hphase => ?_) (nextOk_first request now)
      rw [World.isIdle, hphase] at hidle
      cases hidle
    · exact hw
  | advance i x =>
    change EpochsInv d (w.take i ((w.handlers i).turn d w.tables.keys w.tables.committed x))
    by_cases hpublishing : ∃ job latest step, w.handlers i = .publishing job latest step
    · obtain ⟨job, latest, step, hi⟩ := hpublishing
      rw [hi]
      cases step with
      | insertState => exact hw.insertState _ hi
      | revokeInvites => exact hw.revokeInvites _ hi
      | insertMembers rest =>
        cases rest with
        | nil => exact hw.commit hi (by simp)
        | cons m rest =>
          -- the credential of one member is inserted
          obtain ⟨hcleared, hrevoked, hwithin, hstate⟩ := hw.phase hi
          have hmembers : m :: rest ⊆ job.members := hwithin
          refine hw.statement _ fun s' hexec => ?_
          obtain ⟨hunseen, hcommitted, hdraft, hothers⟩ := insert_done (k := .credential m.membershipHandleSha256) hexec rfl rfl
          obtain ⟨hnone, hnot⟩ := hw.committed_none hi (k := .credential m.membershipHandleSha256) trivial hunseen
          have hc : ∀ k : Key, k.ofEpochs → s'.committed k = w.tables.committed k := fun k _ => by rw [hcommitted]
          refine ⟨⟨hcleared.congr hc, fun h row hrow hgroup hepoch hactive => ?_, fun x hx => hmembers (.tail _ hx),
            fun _ => (hothers (.state _ _) (by simp)).trans (hstate (by simp))⟩, fun g e x hx => ?_, fun h x hx => ?_⟩
          · obtain ⟨t, ht⟩ := hrevoked h row ((hc (.credential h) trivial).symm.trans hrow) hgroup hepoch hactive
            refine ⟨t, (hothers (.credential h) fun hk => ?_).trans ht⟩
            obtain rfl := Key.credential.inj hk
            exact hnot _ ht
          · rw [hothers (.state g e) (by simp)] at hx
            exact (hw.ownState_next hi hx (by simp)).congr hc
          · by_cases hk : Key.credential h = .credential m.membershipHandleSha256
            · obtain rfl := Key.credential.inj hk
              have hx := congrArg Prod.snd (some.inj (hdraft.symm.trans hx))
              exact ⟨job, latest, .insertMembers rest, rfl, .inr ⟨by simp, (hc (.credential _) trivial).trans hnone, m,
                hmembers mem_cons_self, rfl, hx.symm⟩⟩
            · rw [hothers _ hk] at hx
              exact (hw.ownCredential_next hi hx (by simp)).congr hc
    · by_cases hrevoke : ∃ job latest, w.handlers i = .publishRevoke job latest
      · obtain ⟨job, latest, hi⟩ := hrevoke
        rw [hi]
        exact hw.revokeCredentials _ hi
      · have hnot : ∀ job latest step, w.handlers i ≠ .publishing job latest step :=
          fun job latest step h => hpublishing ⟨job, latest, step, h⟩
        exact hw.take (hw.holdsNothing hnot) (turn_quiet (hw.phases i) (fun job latest h => hrevoke ⟨job, latest, h⟩) hnot x)
  | fail i => exact hw.rollback i w.replies

end Steps

omit [DecidableEq ι] in
lemma EpochsInv.start : EpochsInv d (World.start (ι := ι)) where
  epochs _ := ⟨0, ⟨fun e => by simp [World.start, Tables.empty]; omega, nofun⟩⟩
  phases _ := trivial
  states _ _ _ _ h := by cases h
  credentials _ _ _ h := by cases h
  authorized _ h := by cases h
  published _ _ _ h := by cases h

lemma run_epochsInv (d : Deps) (ops : List (Op ι)) : EpochsInv d (run (World.step d) World.start ops) :=
  run_inv_all (EpochsInv d) (fun _ o h => h.step o) ops .start

/-- what the stored rows and the published epochs show of a group -/
structure EpochsInOrder (d : Deps) (w : World ι) : Prop where
  /-- epochs 1 to n are stored, and exactly the credentials of epoch n are active -/
  stored : ∀ g, ∃ n, (∀ e, (w.tables.committed (.state g e)).isSome ↔ 1 ≤ e ∧ e ≤ n) ∧
    ∀ h row, w.tables.committed (.credential h) = some row → row.groupId = g → (row.revokedAt = none ↔ row.epoch = n)
  /-- every stored epoch was published by the handle in its row -/
  published : ∀ g e row, w.tables.committed (.state g e) = some row →
    ∃ p ∈ w.publications, p.groupId = g ∧ p.epoch = e ∧ p.handle = row.publishedByMembershipHandleSha256
  /-- after the first epoch, with the publish key of an active credential of the epoch before -/
  authorized : ∀ p ∈ w.publications, 2 ≤ p.epoch → p.Authorized d

/-- **Epochs in order**: whatever the handlers do in parallel, at every moment the committed epochs of a group are 1 to n, each
later one was published with the publish key of a credential of the epoch before that was active when it was committed, and
exactly the credentials of epoch n are active -/
theorem epochs_in_order (d : Deps) (ops : List (Op ι)) : EpochsInOrder d (run (World.step d) World.start ops) := by
  have hinv := run_epochsInv d ops
  refine ⟨fun g => ?_, hinv.published, hinv.authorized⟩
  obtain ⟨n, hn⟩ := hinv.epochs g
  exact ⟨n, hn.states, fun h row hrow hgroup => (hn.credentials h row hrow hgroup).2.2⟩

end PqMsg.Server.PrivateGroups
