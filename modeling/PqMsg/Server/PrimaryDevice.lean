/-
The primary device of a user (`link_device`, `revoke_device`, `retire_current_device`,
`update_user_primary_device_after_retire` in `handlers/identity.rs`).

A retirement marks the device, selects the first of the active devices that remain, takes the lock of the user's row by
writing its update time, and only then replaces the primary device, if it is the retired one. The selection is made before
the lock is there: two retirements that overlap can each choose the device that the other one retires. Linking a device does
not look at the primary device at all.

- `mem_activeDevices`: the query finds exactly the active devices.
- `primary_stays_active`: the primary device is active whenever some device is, at any moment of every run in which a
  retirement does not start its changes during another one of the user, and a device is linked only while no retirement is
  going on and some device is active.
- `primary_retired`: two retirements that overlap leave a primary device that is retired, beside an active one.
-/
import PqMsg.Server.TransparencyLog

namespace PqMsg.Server

open Lib List Option World Store RetirePhase

variable {Secret ι : Type} [DecidableEq ι] {cfg : Config Secret} {w : World ι} {u : String}

/-! ## Rows of a user -/

inductive OfUser (u : String) : Key → Prop
  | user : OfUser u (.user u)
  | device (d : String) : OfUser u (.device u d)

def Active (rows : RowView) (u d : String) : Prop := ∃ row : DeviceRow, rows (.device u d) = some row ∧ row.active = true

/-- if the user has an active device, the primary device is active -/
def PrimaryActive (rows : RowView) (u : String) : Prop :=
  ∀ user : UserRow, rows (.user u) = some user → (∃ d, Active rows u d) → Active rows u user.deviceId

section Rows

variable {rows rows' : RowView} {u d : String}

lemma Active.congr (h : ∀ k, OfUser u k → rows' k = rows k) : Active rows' u d ↔ Active rows u d := by
  unfold Active
  rw [h _ (.device d)]

lemma PrimaryActive.congr (h : ∀ k, OfUser u k → rows' k = rows k) (hp : PrimaryActive rows u) : PrimaryActive rows' u := by
  intro user huser hsome
  obtain ⟨d, hd⟩ := hsome
  rw [h _ .user] at huser
  exact (Active.congr h).2 (hp user huser ⟨d, (Active.congr h).1 hd⟩)

/-- **The query of `update_user_primary_device_after_retire`** finds the active devices -/
lemma mem_activeDevices {s : Snapshot} (hkeys : ∀ k, s.view k ≠ none → k ∈ s.keys) :
    d ∈ s.activeDevices u ↔ Active s.view u d := by
  unfold Snapshot.activeDevices
  rw [List.mem_map]
  constructor
  · intro h
    obtain ⟨⟨linkedAt, d'⟩, hmem, rfl⟩ := h
    rw [List.mem_insertionSort, List.mem_filterMap] at hmem
    obtain ⟨k, -, hrow⟩ := hmem
    cases k with
    | device =>
      dsimp only at hrow
      split_ifs at hrow with hu
      obtain ⟨row, hfilter, heq⟩ := Option.map_eq_some_iff.1 hrow
      obtain ⟨hview, hactive⟩ := Option.filter_eq_some_iff.1 hfilter
      obtain ⟨-, rfl⟩ := Prod.mk.inj heq
      exact ⟨row, hu ▸ hview, hactive⟩
    | _ => cases hrow
  · intro h
    obtain ⟨row, hview, hactive⟩ := h
    refine ⟨(row.linkedAt, d), ?_, rfl⟩
    rw [List.mem_insertionSort, List.mem_filterMap]
    refine ⟨.device u d, hkeys _ (by rw [hview]; simp), ?_⟩
    dsimp only
    rw [if_pos rfl, hview, Option.filter_some, if_pos hactive]
    rfl

end Rows

lemma mem_activeDevices_snapshot {i : ι} {u d : String} :
    d ∈ (w.snapshot i).activeDevices u ↔ Active (w.tables.view i) u d := by
  refine mem_activeDevices fun k hk => ?_
  obtain ⟨row, hrow⟩ := ne_none_iff_exists'.1 hk
  exact mem_keys_of_view hrow

omit [DecidableEq ι] in
lemma mem_activeDevices_public {u d : String} : d ∈ w.public.activeDevices u ↔ Active w.tables.committed u d := by
  refine mem_activeDevices fun k hk => ?_
  by_contra hnot
  exact hk (w.tables.known k hnot).1

/-! ## Processes -/

/-- the transaction has retired its device -/
def RetirePhase.inside : RetirePhase → Bool
  | .ensureUser | .selectTarget | .retireRow => false
  | _ => true

namespace Proc

/-- a retirement of the user is between its first change and its end -/
def retiring (u : String) : Proc → Bool
  | .retireDevice r phase => r.userId = u ∧ phase.inside
  | _ => false

def onDevices : Proc → Bool
  | .idle | .linkDevice _ _ | .retireDevice _ _ => true
  | _ => false

end Proc

/-- the transaction has changed the row of its device and nothing else of the user -/
structure OnlyRetired (committed view : RowView) (u d : String) : Prop where
  user : view (.user u) = committed (.user u)
  devices : ∀ d', d' ≠ d → view (.device u d') = committed (.device u d')
  retired : ¬Active view u d
  before : Active committed u d

/-- what a retirement has done and knows -/
def RetireOk (committed view : RowView) (u d : String) : RetirePhase → Prop
  | .ensureUser | .selectTarget | .retireRow => True
  | .selectRemaining => OnlyRetired committed view u d
  | .touchUser replacement => OnlyRetired committed view u d ∧ (∀ x ∈ replacement, Active view u x) ∧
      (replacement = none → ∀ x, ¬Active view u x)
  | .movePrimary replacement => OnlyRetired committed view u d ∧ Active view u replacement
  | .deletePrekeys | .deleteOneTime _ | .commit => PrimaryActive view u

section RetireOk

variable {committed committed' view view' : RowView} {u d : String} {phase : RetirePhase}

lemma OnlyRetired.congr (hc : ∀ k, OfUser u k → committed' k = committed k) (hv : ∀ k, OfUser u k → view' k = view k)
    (h : OnlyRetired committed view u d) : OnlyRetired committed' view' u d := by
  refine ⟨?_, fun d' hd' => ?_, fun hactive => h.retired ((Active.congr hv).1 hactive), (Active.congr hc).2 h.before⟩
  · rw [hv _ .user, hc _ .user]
    exact h.user
  · rw [hv _ (.device d'), hc _ (.device d')]
    exact h.devices d' hd'

lemma RetireOk.congr (hc : ∀ k, OfUser u k → committed' k = committed k) (hv : ∀ k, OfUser u k → view' k = view k)
    (h : RetireOk committed view u d phase) : RetireOk committed' view' u d phase := by
  cases phase with
  | ensureUser | selectTarget | retireRow => trivial
  | selectRemaining => exact h.congr hc hv
  | touchUser =>
    exact ⟨h.1.congr hc hv, fun x hx => (Active.congr hv).2 (h.2.1 x hx),
      fun hnone x hx => h.2.2 hnone x ((Active.congr hv).1 hx)⟩
  | movePrimary => exact ⟨h.1.congr hc hv, (Active.congr hv).2 h.2⟩
  | deletePrekeys | deleteOneTime | commit => exact h.congr hv

lemma retireOk_outside (h : phase.inside = false) : RetireOk committed view u d phase := by
  cases phase with
  | ensureUser | selectTarget | retireRow => trivial
  | _ => cases h

/-- **The replacement**: the primary device was active before, so it is the retired one or still active -/
lemma OnlyRetired.primary (h : OnlyRetired committed view u d) (hp : PrimaryActive committed u) {user : UserRow}
    (huser : view (.user u) = some user) (hne : user.deviceId ≠ d) : Active view u user.deviceId := by
  rw [h.user] at huser
  obtain ⟨row, hrow, hactive⟩ := hp user huser ⟨d, h.before⟩
  exact ⟨row, (h.devices _ hne).trans hrow, hactive⟩

end RetireOk

/-! ## The invariant -/

structure PrimaryInv (u : String) (w : World ι) : Prop where
  kind : ∀ i, (w.procs i).onDevices = true
  held : ∀ {i k row}, OfUser u k → w.tables.draft k = some (i, row) → (w.procs i).retiring u = true
  solo : ∀ {i j}, (w.procs i).retiring u = true → (w.procs j).retiring u = true → i = j
  primary : PrimaryActive w.tables.committed u
  retire : ∀ {i r phase}, w.procs i = .retireDevice r phase → r.userId = u →
    RetireOk w.tables.committed (w.tables.view i) u r.deviceId phase

section Steps

variable {u : String} {w w' : World ι} {i : ι} {r : RetireRequest} {k : Key} {phase : RetirePhase} {view : RowView}
  {next : Proc} {stmt : Stmt} {v : String}

/-- **One step of a process**: what the others hold stays, and the stored rows of the user change only if no other
retirement is going on -/
lemma PrimaryInv.change (h : PrimaryInv u w) (hnext : w'.procs i = next) (hprocs : ∀ j ≠ i, w'.procs j = w.procs j)
    (hdraft : ∀ j ≠ i, ∀ k, OfUser u k → ∀ row, w'.tables.draft k = some (j, row) ↔ w.tables.draft k = some (j, row))
    (hcommitted : (∀ k, OfUser u k → w'.tables.committed k = w.tables.committed k) ∨
      ∀ j ≠ i, (w.procs j).retiring u = false) (hprimary : PrimaryActive w'.tables.committed u)
    (hkind : next.onDevices = true)
    (hown : ∀ k, OfUser u k → ∀ row, w'.tables.draft k = some (i, row) → next.retiring u = true)
    (hsolo : next.retiring u = true → (w.procs i).retiring u = true ∨ ∀ j ≠ i, (w.procs j).retiring u = false)
    (hok : ∀ r phase, next = .retireDevice r phase → r.userId = u →
      RetireOk w'.tables.committed (w'.tables.view i) u r.deviceId phase) : PrimaryInv u w' := by
  subst hnext
  refine ⟨fun j => ?_, fun {j k row} hk hd => ?_, unique_step (R := fun p : Proc => p.retiring u = true) hprocs h.solo
    fun hr => ?_, hprimary, fun {j r phase} hp hu => ?_⟩
  · by_cases hj : j = i
    · rw [hj]
      exact hkind
    · rw [hprocs j hj]
      exact h.kind j
  · by_cases hj : j = i
    · subst hj
      exact hown k hk row hd
    · rw [hprocs j hj]
      exact h.held hk ((hdraft j hj k hk row).1 hd)
  · exact (hsolo hr).imp_right fun hfree j hj => by simp [hfree j hj]
  · by_cases hj : j = i
    · subst hj
      exact hok r phase hp hu
    · rw [hprocs j hj] at hp
      rcases hcommitted with hsame | hfree
      · refine (h.retire hp hu).congr hsame fun k hk => ?_
        rcases view_cases w.tables j k with ⟨row, hd, hview⟩ | ⟨hnot, hview⟩
        · rw [hview, view_own ((hdraft j hj k hk row).2 hd)]
        · rcases view_cases w'.tables j k with ⟨row, hd, -⟩ | ⟨-, hview'⟩
          · exact absurd ((hdraft j hj k hk row).1 hd) (hnot row)
          · rw [hview', hview, hsame k hk]
      · refine retireOk_outside ?_
        have hnot := hfree j hj
        rw [hp] at hnot
        simpa [Proc.retiring, hu] using hnot

/-- a process that reads, or begins -/
lemma PrimaryInv.goto (h : PrimaryInv u w) (hkind : next.onDevices = true)
    (hretiring : next.retiring u = (w.procs i).retiring u) (hok : ∀ r phase, next = .retireDevice r phase → r.userId = u →
      RetireOk w.tables.committed (w.tables.view i) u r.deviceId phase) : PrimaryInv u (w.goto i next) := by
  refine h.change goto_self (fun j hj => goto_ne hj) (fun _ _ _ _ _ => Iff.rfl) (.inl fun _ _ => rfl) h.primary
    hkind (fun k hk row hd => ?_) (fun hr => .inl (hretiring ▸ hr)) hok
  rw [hretiring]
  exact h.held hk hd

/-- the end of a transaction that is not committed -/
lemma PrimaryInv.rollback (h : PrimaryInv u w) (htables : w'.tables = w.tables.rollback i)
    (hprocs : w'.procs = Function.update w.procs i .idle) : PrimaryInv u w' := by
  refine h.change (show w'.procs i = .idle by rw [hprocs, Function.update_self])
    (fun j hj => by rw [hprocs, Function.update_of_ne hj]) (fun j hj k _ row => ?_) (.inl fun k _ => ?_) ?_ rfl
    (fun k _ row hd => ?_) (fun hr => by cases hr) fun _ _ hp => by cases hp
  · rw [htables, rollback_draft]
    exact and_iff_left hj
  · rw [htables, rollback_committed]
  · rw [htables, rollback_committed]
    exact h.primary
  · rw [htables] at hd
    exact absurd rfl (rollback_draft.1 hd).2

lemma PrimaryInv.stop (h : PrimaryInv u w) (reply : Reply) : PrimaryInv u (w.stop i reply) := h.rollback rfl rfl

/-! ## Statements -/

/-- the user whose rows a statement of these handlers is about -/
def Stmt.subject : Stmt → Option String
  | .upsertDevice userId _ _ _ | .retireDevice userId _ | .touchUser userId | .movePrimary userId _ _
  | .deletePrekeys userId _ | .deleteOneTime _ userId _ => some userId
  | _ => none

/-- rows of other users are left -/
lemma writes_subject (h : stmt.subject = some v) (hne : v ≠ u) (hk : OfUser u k) : stmt.writes view k = none := by
  cases stmt <;> cases h <;> cases hk
  all_goals first
    | rfl
    | exact if_neg (Ne.symm hne)
    | exact if_neg fun hc => hne hc.1.symm

/-- a retirement holds rows of its own user only -/
lemma PrimaryInv.heldBy (h : PrimaryInv u w) (hp : w.procs i = .retireDevice r phase) (hk : OfUser u k)
    {row : Option (Row k)} (hd : w.tables.draft k = some (i, row)) : r.userId = u := by
  have hr := h.held hk hd
  rw [hp] at hr
  exact (of_decide_eq_true hr).1

/-- before its first change a process sees the stored rows of the user -/
lemma PrimaryInv.view_outside (h : PrimaryInv u w) (hr : (w.procs i).retiring u = false) (hk : OfUser u k) :
    w.tables.view i k = w.tables.committed k := by
  refine view_unheld fun row hd => ?_
  rw [h.held hk hd] at hr
  cases hr

/-- **A statement of a retirement** -/
lemma PrimaryInv.write (h : PrimaryInv u w) {phase next : RetirePhase} (hp : w.procs i = .retireDevice r phase)
    (hsubject : stmt.subject = some r.userId) (hnext : next.inside = true)
    (hsolo : r.userId = u → phase.inside = true ∨ ∀ j ≠ i, (w.procs j).retiring u = false)
    (hok : r.userId = u → ∀ view : RowView, (∀ k, view k = (stmt.writes (w.tables.view i) k).getD (w.tables.view i k)) →
      RetireOk w.tables.committed view u r.deviceId next) :
    PrimaryInv u (w.write i stmt false (.retireDevice r next) none) := by
  refine write_rule h (fun _ hproc => by cases hproc) (h.stop _) fun tables hexec => ?_
  have hcommitted : tables.committed = w.tables.committed := done_committed hexec
  have hretiring : (Proc.retireDevice r next).retiring u = decide (r.userId = u) := by
    simp [Proc.retiring, hnext]
  refine h.change goto_self (fun j hj => goto_ne hj) (fun j hj k _ row => done_draft_other hexec hj)
    (.inl fun k _ => congrFun hcommitted k) (h.primary.congr fun k _ => congrFun hcommitted k) rfl
    (fun k hk row hd => ?_) (fun hr => ?_) fun r' phase' hp' hu => ?_
  · rw [hretiring]
    by_contra hne
    have hne : r.userId ≠ u := by simpa using hne
    -- the row was not written, so it was held before by a retirement of the user
    have hbefore : w.tables.draft k = some (i, row) :=
      (done_draft_none hexec (writes_subject hsubject hne hk)).symm.trans hd
    exact hne (h.heldBy hp hk hbefore)
  · rw [hretiring] at hr
    have hu := of_decide_eq_true hr
    refine (hsolo hu).imp_left fun hinside => ?_
    rw [hp]
    simp [Proc.retiring, hu, hinside]
  · cases hp'
    exact RetireOk.congr (fun k _ => congrFun hcommitted k) (fun k _ => rfl) (hok hu (tables.view i) (done_view hexec))

/-- **Linking a device**, which commits at once -/
lemma PrimaryInv.link (h : PrimaryInv u w) {r : LinkDeviceRequest} (hp : w.procs i = .linkDevice r .insertDevice)
    (hok : r.userId = u → (∀ j, (w.procs j).retiring u = false) ∧ ∃ d, Active w.tables.committed u d) :
    PrimaryInv u (w.write i (.upsertDevice r.userId r.newDeviceId r.now false) true (.linkDevice r .done) none) := by
  refine write_rule h (fun _ hproc => by cases hproc) (h.stop _) fun tables hexec => ?_
  -- the process holds no row of the user, so it sees the stored ones
  have hview : ∀ k, OfUser u k → w.tables.view i k = w.tables.committed k := fun k hk =>
    h.view_outside (by rw [hp]; rfl) hk
  have hafter : ∀ k, OfUser u k → (tables.commit i).committed k =
      ((Stmt.upsertDevice r.userId r.newDeviceId r.now false).writes (w.tables.view i) k).getD (w.tables.committed k) := by
    intro k hk
    rw [Store.commit_committed, done_view hexec, hview k hk]
  have hactive : r.userId = u → ∀ d, Active w.tables.committed u d → Active (tables.commit i).committed u d := by
    rintro rfl d ⟨row, hrow, hrowActive⟩
    unfold Active
    rw [hafter _ (.device d)]
    by_cases hd : d = r.newDeviceId
    · subst hd
      have hsee : w.tables.view i (.device r.userId r.newDeviceId) = some row :=
        (hview _ (.device r.newDeviceId)).trans hrow
      simp only [Stmt.writes, onDevice, and_self, if_true, hsee]
      exact ⟨_, rfl, rfl⟩
    · rw [show (Stmt.upsertDevice r.userId r.newDeviceId r.now false).writes (w.tables.view i) (.device r.userId d) = none
        from if_neg fun hc => hd hc.2]
      exact ⟨row, hrow, hrowActive⟩
  have hsame : r.userId ≠ u → ∀ k, OfUser u k → (tables.commit i).committed k = w.tables.committed k := by
    intro hu k hk
    rw [hafter k hk, writes_subject rfl hu hk]
    rfl
  refine h.change goto_self (fun j hj => goto_ne hj)
    (fun j hj k _ row => show (tables.settle i true).draft k = _ ↔ _ from done_draft_other hexec hj) ?_ ?_ rfl
    (fun k _ row hd => absurd rfl (commit_draft.1 hd).2) (fun hr => by cases hr) fun _ _ hp => by cases hp
  · by_cases hu : r.userId = u
    · exact .inr fun j _ => (hok hu).1 j
    · exact .inl (hsame hu)
  · by_cases hu : r.userId = u
    · intro user huser _
      have huser' : (tables.commit i).committed (.user u) = w.tables.committed (.user u) := hafter _ .user
      exact hactive hu _ (h.primary user (huser'.symm.trans huser) (hok hu).2)
    · exact h.primary.congr (hsame hu)

/-- **The commit of a retirement** -/
lemma PrimaryInv.commit (h : PrimaryInv u w) (hp : w.procs i = .retireDevice r .commit) (reply : Reply) :
    PrimaryInv u (w.commit i reply) := by
  have hsame : r.userId ≠ u → ∀ k, OfUser u k → (w.tables.commit i).committed k = w.tables.committed k := fun hu k hk =>
    view_unheld fun row hd => hu (h.heldBy hp hk hd)
  refine h.change commit_self (fun j hj => commit_ne hj) (fun j hj k _ row => ?_) ?_ ?_ rfl
    (fun k _ row hd => absurd rfl (commit_draft.1 hd).2) (fun hr => by cases hr) fun _ _ hp => by cases hp
  · change (w.tables.commit i).draft k = _ ↔ _
    rw [commit_draft]
    exact and_iff_left hj
  · by_cases hu : r.userId = u
    · refine .inr fun j hj => ?_
      by_contra hr
      refine hj (h.solo (by simpa using hr) ?_)
      rw [hp]
      simp [Proc.retiring, hu, inside]
    · exact .inl (hsame hu)
  · by_cases hu : r.userId = u
    · exact (show PrimaryActive (w.tables.view i) u from h.retire hp hu)
    · exact h.primary.congr (hsame hu)

/-! ## The phases of a retirement -/

/-- the first change: the device was active and is not any more -/
lemma PrimaryInv.retireRow (h : PrimaryInv u w) (hr : (w.procs i).retiring u = false) {d : String} {row : DeviceRow}
    (hrow : (w.tables.view i (.device u d)).filter DeviceRow.active = some row)
    (hview : ∀ k, view k = ((Stmt.retireDevice u d).writes (w.tables.view i) k).getD (w.tables.view i k)) :
    OnlyRetired w.tables.committed view u d := by
  obtain ⟨hsee, hactive⟩ := filter_eq_some_iff.1 hrow
  refine ⟨?_, fun d' hd' => ?_, ?_, ⟨row, (h.view_outside hr (.device d)).symm.trans hsee, hactive⟩⟩
  · rw [hview]
    exact h.view_outside hr .user
  · rw [hview, show (Stmt.retireDevice u d).writes (w.tables.view i) (.device u d') = none from if_neg fun hc => hd' hc.2]
    exact h.view_outside hr (.device d')
  · rintro ⟨row', hrow', hactive'⟩
    rw [hview, show (Stmt.retireDevice u d).writes (w.tables.view i) (.device u d) =
      update (w.tables.view i (.device u d)) (·.active) ({ · with active := false }) from if_pos ⟨rfl, rfl⟩, update, hrow] at hrow'
    cases hrow'
    cases hactive'

/-- the update of the primary device -/
lemma OnlyRetired.move {committed before view : RowView} {d replacement : String} (h : OnlyRetired committed before u d)
    (hp : PrimaryActive committed u) (hreplacement : Active before u replacement)
    (hview : ∀ k, view k = ((Stmt.movePrimary u replacement d).writes before k).getD (before k)) : PrimaryActive view u := by
  have hdevices : ∀ x, Active before u x → Active view u x := by
    rintro x ⟨row, hrow, hactive⟩
    exact ⟨row, (hview _).trans hrow, hactive⟩
  intro user huser _
  rw [hview, show (Stmt.movePrimary u replacement d).writes before (.user u) =
    update (before (.user u)) (·.deviceId = d) ({ · with deviceId := replacement }) from if_pos rfl] at huser
  cases hbefore : before (.user u) with
  | none =>
    rw [hbefore] at huser
    cases huser
  | some user' =>
    rw [hbefore, update, filter_some] at huser
    by_cases hd : user'.deviceId = d
    · rw [if_pos (decide_eq_true hd)] at huser
      cases huser
      exact hdevices _ hreplacement
    · rw [if_neg (by simpa using hd)] at huser
      cases huser
      exact hdevices _ (h.primary hp hbefore hd)

/-- the new time of update changes nothing that matters here -/
lemma touchUser_view {before view : RowView} (hview : ∀ k, view k = ((Stmt.touchUser v).writes before k).getD (before k))
    (hk : OfUser u k) : view k = before k := by
  rw [hview]
  cases hk with
  | device => rfl
  | user =>
    by_cases hv : u = v
    · rw [show (Stmt.touchUser v).writes before (.user u) = update (before (.user u)) (fun _ => true) id from if_pos hv]
      cases before (.user u) with
      | none | some => rfl
    · rw [show (Stmt.touchUser v).writes before (.user u) = none from if_neg hv]
      rfl

lemma PrimaryInv.advanceRetire (h : PrimaryInv u w) (hp : w.procs i = .retireDevice r phase)
    (ho : phase = .retireRow → r.userId = u → ∀ j, (w.procs j).retiring u = false) : PrimaryInv u (w.advance cfg i) := by
  have hturn : w.turn cfg i = retireDevice (w.snapshot i) r phase := by
    rw [turn, hp]
    rfl
  have hok : r.userId = u → RetireOk w.tables.committed (w.tables.view i) u r.deviceId phase := h.retire hp
  have hself : (w.procs i).retiring u = (decide (r.userId = u ∧ phase.inside = true)) := by rw [hp]; rfl
  unfold advance
  rw [hturn]
  cases phase with
  | ensureUser =>
    simp only [retireDevice, ensureUserExists]
    cases (w.snapshot i).view (.user r.userId) with
    | none => exact h.stop _
    | some =>
      cases r.revoke with
      | true | false =>
        exact h.goto rfl (hself ▸ by simp [Proc.retiring, inside]) fun _ _ hr _ => by cases hr; trivial
  | selectTarget =>
    simp only [retireDevice]
    cases (w.snapshot i).view (.device r.userId r.deviceId) with
    | none => exact h.stop _
    | some target =>
      by_cases hactive : target.active = true
      · simp only [hactive, if_true]
        exact h.goto rfl (hself ▸ by simp [Proc.retiring, inside]) fun _ _ hr _ => by cases hr; trivial
      · simp only [hactive]
        exact h.stop _
  | retireRow =>
    simp only [retireDevice]
    cases hrow : ((w.snapshot i).view (.device r.userId r.deviceId)).filter DeviceRow.active with
    | none => exact h.stop _
    | some =>
      refine h.write hp rfl rfl (fun hu => .inr fun j _ => ho rfl hu j) ?_
      rintro rfl view hview
      exact h.retireRow (ho rfl rfl i) hrow hview
  | selectRemaining =>
    refine h.goto rfl (hself ▸ by simp [Proc.retiring, inside]) fun _ _ hr hu => ?_
    cases hr
    refine ⟨hok hu, fun x hx => ?_, fun hnone x hx => ?_⟩
    · subst hu
      exact mem_activeDevices_snapshot.1 (mem_of_mem_head? hx)
    · subst hu
      rw [List.head?_eq_none_iff] at hnone
      have hmem := mem_activeDevices_snapshot.2 hx
      rw [hnone] at hmem
      cases hmem
  | touchUser replacement =>
    cases replacement with
    | none =>
      refine h.write hp rfl rfl (fun _ => .inl rfl) ?_
      intro hu view hview user _ hsome
      obtain ⟨x, hx⟩ := hsome
      exact absurd ((Active.congr fun k hk => touchUser_view hview hk).1 hx) ((hok hu).2.2 rfl x)
    | some x =>
      refine h.write hp rfl rfl (fun _ => .inl rfl) ?_
      intro hu view hview
      have hsame : ∀ k, OfUser u k → view k = w.tables.view i k := fun k hk => touchUser_view hview hk
      exact ⟨(hok hu).1.congr (fun _ _ => rfl) hsame, (Active.congr hsame).2 ((hok hu).2.1 x rfl)⟩
  | movePrimary =>
    refine h.write hp rfl rfl (fun _ => .inl rfl) ?_
    rintro rfl view hview
    exact (hok rfl).1.move h.primary (hok rfl).2 hview
  | deletePrekeys =>
    refine h.write hp rfl rfl (fun _ => .inl rfl) ?_
    intro hu view hview
    refine PrimaryActive.congr (fun k hk => ?_) (hok hu)
    rw [hview]
    cases hk <;> rfl
  | deleteOneTime table =>
    cases table with
    | x25519 | mlkem768 =>
      refine h.write hp rfl rfl (fun _ => .inl rfl) ?_
      intro hu view hview
      refine PrimaryActive.congr (fun k hk => ?_) (hok hu)
      rw [hview]
      cases hk <;> rfl
  | commit => exact h.commit hp _

end Steps

/-! ## Every run -/

/-- the process is about to retire or to link a device of the user -/
def Proc.changesDevices (u : String) : Proc → Bool
  | .retireDevice r .retireRow => r.userId = u
  | .linkDevice r .insertDevice => r.userId = u
  | _ => false

def Proc.linking (u : String) : Proc → Bool
  | .linkDevice r .insertDevice => r.userId = u
  | _ => false

/-- link, revoke and retire requests -/
def Request.onDevices : Request → Bool
  | .linkDevice _ | .retireDevice _ => true
  | _ => false

def Op.onDevices : Op ι → Bool
  | .start _ request => request.onDevices
  | .advance _ | .fail _ => true

/-- a retirement or a link of the user changes devices while no retirement of the user is going on, and a device is linked
while the user has an active one -/
def DevicesInTurn (u : String) (w : World ι) : Op ι → Prop
  | .advance i => ((w.procs i).changesDevices u = true → ∀ j, (w.procs j).retiring u = false) ∧
      ((w.procs i).linking u = true → w.public.activeDevices u ≠ [])
  | .start _ _ | .fail _ => True

lemma PrimaryInv.advance (h : PrimaryInv u w) (i : ι) (ho : DevicesInTurn u w (.advance i)) :
    PrimaryInv u (w.advance cfg i) := by
  have hkind := h.kind i
  cases hp : w.procs i with
  | idle =>
    have hadvance : w.advance cfg i = w.goto i .idle := by rw [World.advance, World.turn, hp]; rfl
    rw [hadvance]
    exact h.goto rfl (by rw [hp]) fun _ _ hr => by cases hr
  | retireDevice =>
    refine h.advanceRetire hp ?_
    rintro rfl hu
    exact ho.1 (by rw [hp]; exact decide_eq_true hu)
  | linkDevice r phase =>
    have hturn : w.turn cfg i = linkDevice (w.snapshot i) r phase := by rw [World.turn, hp]; rfl
    unfold World.advance
    rw [hturn]
    cases phase with
    | ensureUser =>
      simp only [linkDevice, ensureUserExists]
      cases (w.snapshot i).view (.user r.userId) with
      | none => exact h.stop _
      | some => exact h.goto rfl (by rw [hp]; rfl) fun _ _ hr => by cases hr
    | insertDevice =>
      refine h.link hp fun hu => ⟨ho.1 (by rw [hp]; exact decide_eq_true hu), ?_⟩
      obtain ⟨d, hd⟩ := exists_mem_of_ne_nil _ (ho.2 (by rw [hp]; exact decide_eq_true hu))
      exact ⟨d, mem_activeDevices_public.1 hd⟩
    | done => exact h.stop _
  | register | rotateInit | rotateConfirm | deleteAccount | publishPrekeys | bundle | reapStaleData =>
    rw [hp] at hkind
    cases hkind

lemma PrimaryInv.step (h : PrimaryInv u w) (o : Op ι) (hdevices : o.onDevices = true) (ho : DevicesInTurn u w o) :
    PrimaryInv u (w.step cfg o) := by
  cases o with
  | advance i => exact h.advance i ho
  | fail => exact h.rollback rfl rfl
  | start i request =>
    refine start_rule h (fun next hidle hstart => ?_) fun _ _ _ => ⟨h.kind, h.held, h.solo, h.primary, h.retire⟩
    cases request with
    | linkDevice =>
      cases hstart
      exact h.goto rfl (by rw [hidle]; rfl) fun _ _ hr => by cases hr
    | retireDevice =>
      cases hstart
      exact h.goto rfl (by rw [hidle]; simp [Proc.retiring, inside]) fun _ _ hr _ => by cases hr; trivial
    | register | rotateInit | rotateConfirm | deleteAccount | resetDevUserIdentity | publishPrekeys | bundle
    | reapStaleData => cases hdevices

/-- **The primary device stays active.** From every state without open transactions in which the primary device of the user is
active if any device is, in every interleaving of link, revoke and retire requests that change the user's devices one at a
time: at every moment, if the user has an active device, the primary device is active. -/
theorem primary_stays_active (u : String) (w : World ι) (hidle : ∀ i, w.procs i = .idle)
    (hclosed : ∀ k, w.tables.draft k = none) (hprimary : PrimaryActive w.tables.committed u) (ops : List (Op ι))
    (hl : Legal (World.step cfg) (fun w o => o.onDevices = true ∧ DevicesInTurn u w o) w ops) :
    PrimaryActive (run (World.step cfg) w ops).tables.committed u := by
  have hstart : PrimaryInv u w := by
    refine ⟨fun i => ?_, fun {i k row} _ hd => ?_, fun {i j} hr => ?_, hprimary, fun {i r phase} hp => ?_⟩
    · rw [hidle i]
      rfl
    · rw [hclosed k] at hd
      cases hd
    · rw [hidle i] at hr
      cases hr
    · rw [hidle i] at hp
      cases hp
  exact (run_inv (PrimaryInv u) (fun w o h ho => h.step o ho.1 ho.2) ops hstart hl).primary

/-! ## Two retirements -/

instance DevicesInTurn.decidable [Fintype ι] (u : String) (w : World ι) : (o : Op ι) → Decidable (DevicesInTurn u w o)
  | .advance _ => inferInstanceAs (Decidable ((_ → ∀ _, _) ∧ (_ → _)))
  | .start _ _ | .fail _ => isTrue trivial

namespace Sample

def linked {ι : Type} (i : ι) (deviceId : String) (now : ℕ) : List (Op ι) :=
  .start i (.linkDevice ⟨"alice", deviceId, now⟩) :: List.replicate 3 (.advance i)

/-- alice has the primary device `phone`, and `tablet` and `laptop` -/
def threeDevices : World (Fin 2) := reach (registered 0 "alice" 1 ++ linked 0 "tablet" 1 ++ linked 0 "laptop" 2)

lemma threeDevices_started : threeDevices.Started := by
  refine started_of (reach_logInv _) (fun i => isIdle_iff.1 ?_) (by decide)
  revert i
  decide

def retirement (i : Fin 2) (deviceId : String) (revoke : Bool) : Op (Fin 2) :=
  .start i (.retireDevice ⟨"alice", deviceId, revoke⟩)

def steps (i : Fin 2) (n : ℕ) : List (Op (Fin 2)) := List.replicate n (.advance i)

/-- phone is retired, and then tablet -/
def oneAfterTheOther : List (Op (Fin 2)) :=
  [retirement 0 "phone" false] ++ steps 0 9 ++ [retirement 1 "tablet" true] ++ steps 1 10

/-- both select the device that takes over before the other one commits -/
def crossing : List (Op (Fin 2)) :=
  [retirement 0 "phone" false] ++ steps 0 3 ++ [retirement 1 "tablet" true] ++ steps 1 4 ++ steps 0 6 ++ steps 1 6

end Sample

omit [DecidableEq ι] in
/-- the property in what is stored can be read off the list of active devices -/
lemma primaryActive_public : PrimaryActive w.tables.committed u ↔
    ∀ user ∈ w.tables.committed (.user u), w.public.activeDevices u ≠ [] → user.deviceId ∈ w.public.activeDevices u := by
  constructor
  · intro h user huser hsome
    obtain ⟨d, hd⟩ := exists_mem_of_ne_nil _ hsome
    exact mem_activeDevices_public.2 (h user huser ⟨d, mem_activeDevices_public.1 hd⟩)
  · rintro h user huser ⟨d, hd⟩
    exact mem_activeDevices_public.1 (h user huser (ne_nil_of_mem (mem_activeDevices_public.2 hd)))

/-- phone is retired first, then tablet is revoked: laptop is the primary device -/
theorem primary_stays_active_alice :
    Legal (World.step Sample.config) (fun w o => o.onDevices = true ∧ DevicesInTurn "alice" w o) Sample.threeDevices
      Sample.oneAfterTheOther ∧
    (run (World.step Sample.config) Sample.threeDevices Sample.oneAfterTheOther).public.activeDevices "alice" = ["laptop"] ∧
    PrimaryActive (run (World.step Sample.config) Sample.threeDevices Sample.oneAfterTheOther).tables.committed "alice" := by
  have hprimary : PrimaryActive Sample.threeDevices.tables.committed "alice" := primaryActive_public.2 (by decide)
  have hlegal : Legal (step Sample.config) (fun w o => o.onDevices = true ∧ DevicesInTurn "alice" w o)
      Sample.threeDevices Sample.oneAfterTheOther := by
    decide
  exact ⟨hlegal, by decide, primary_stays_active "alice" Sample.threeDevices Sample.threeDevices_started.idle
      Sample.threeDevices_started.closed hprimary _ hlegal⟩

/-- **The primary device is retired.** The retirement of phone hands over to tablet and the revocation of tablet to phone. Both
are done and laptop is active, but the primary device is phone. -/
theorem primary_retired :
    PrimaryActive Sample.threeDevices.tables.committed "alice" ∧
    (∀ i, ((run (World.step Sample.config) Sample.threeDevices Sample.crossing).procs i).isIdle = true) ∧
    (run (World.step Sample.config) Sample.threeDevices Sample.crossing).public.activeDevices "alice" = ["laptop"] ∧
    ((run (World.step Sample.config) Sample.threeDevices Sample.crossing).tables.committed (.user "alice")).map (·.deviceId) =
      some "phone" ∧
    ¬PrimaryActive (run (World.step Sample.config) Sample.threeDevices Sample.crossing).tables.committed "alice" := by
  refine ⟨primaryActive_public.2 (by decide), by decide, by decide, by decide, ?_⟩
  rw [primaryActive_public]
  decide

end PqMsg.Server
