/-
One-time prekeys in bundle responses (`select_one_time_key` and `count_available_one_time_keys` in `handlers/util.rs`,
`load_bundle_response` and `publish_prekeys` in `handlers/prekeys.rs`, `reap_stale_data` in `handlers/ephemeral.rs`).

A fetch counts the unconsumed keys of a device, selects the first one and marks it, in separate statements of a transaction
at READ COMMITTED. `UPDATE … SET consumed = 1 WHERE id = $1` does not ask whether the row is still unconsumed: a second fetch
that has selected the same row waits for the first one and then hands the key out again. SPEC.md says that consumed keys are
not issued again, API.md that a reserve is kept.

- `OneTimeInv`: the rows that fetches and uploads hold, and what a fetch has counted and chosen.
- `one_time_prekeys`: no row is handed out twice, and a response with one-time keys leaves the reserve, in every run in which
  fetches and uploads of one device do not overlap, with reaper passes at any time.
- `one_time_prekey_reissued`: two fetches that overlap.
-/
import PqMsg.Server.TransparencyLog

namespace PqMsg.Server

open Lib Function List Option World

variable {Secret ι : Type} [DecidableEq ι] {cfg : Config Secret} {table : OneTimeTable} {id : ℕ}
  {row : Option OneTimeRow} {key : OneTimeKey} {w : World ι} {view : RowView}

/-! ## Rows of a device -/

def OneTimeRow.device (row : OneTimeRow) : String × String := (row.userId, row.deviceId)

/-- the unconsumed key of a device in a row -/
def Available (view : RowView) (device : String × String) (table : OneTimeTable) (id : ℕ) : Option OneTimeRow :=
  (view (.oneTime table id)).filter fun row => row.userId = device.1 ∧ row.deviceId = device.2 ∧ row.consumed = false

variable {device : String × String}

lemma available_ne_none : Available view device table id ≠ none ↔
      ∃ row, view (.oneTime table id) = some row ∧ row.device = device ∧ row.consumed = false := by
  rw [ne_none_iff_exists']
  unfold Available
  constructor
  · intro h
    obtain ⟨row, hrow⟩ := h
    obtain ⟨hview, hcond⟩ := filter_eq_some_iff.1 hrow
    obtain ⟨hu, hd, hc⟩ := of_decide_eq_true hcond
    exact ⟨row, hview, Prod.ext hu hd, hc⟩
  · intro h
    obtain ⟨row, hview, rfl, hc⟩ := h
    exact ⟨row, filter_eq_some_iff.2 ⟨hview, decide_eq_true ⟨rfl, rfl, hc⟩⟩⟩

lemma available_eq_none (h : ∀ row, view (.oneTime table id) = some row → row.device = device → row.consumed = true) :
    Available view device table id = none := by
  by_contra hne
  obtain ⟨row, hview, hdevice, hc⟩ := available_ne_none.1 hne
  rw [h row hview hdevice] at hc
  cases hc

/-- the rows that a response hands out -/
def BundleResponse.handed (response : BundleResponse) : List (OneTimeTable × ℕ) :=
  (response.oneTimePrekeyX25519.map fun key => (OneTimeTable.x25519, key.id)).toList ++
    (response.oneTimePrekeyMlkem768.map fun key => (OneTimeTable.mlkem768, key.id)).toList

def Reply.handed : Reply → List (OneTimeTable × ℕ)
  | .bundle response => response.handed
  | _ => []

def handed (replies : List Reply) : List (OneTimeTable × ℕ) := replies.flatMap Reply.handed

/-! ## Processes -/

/-- the keys of a fetch that has begun to count, and the one-time keys it has marked -/
structure Marks where
  keys : BundleKeys
  x : Option OneTimeKey
  pq : Option OneTimeKey

def Marks.of (m : Marks) : OneTimeTable → Option OneTimeKey
  | .x25519 => m.x
  | .mlkem768 => m.pq

namespace BundlePhase

def marks : BundlePhase → Option Marks
  | .load | .countX _ => none
  | .countPq keys _ | .selectX keys | .markX keys _ => some ⟨keys, none, none⟩
  | .selectPq keys x | .markPq keys x _ => some ⟨keys, x, none⟩
  | .remainingX keys x pq | .remainingPq keys x pq _ => some ⟨keys, x, pq⟩
  | .commit response => some ⟨response.keys, response.oneTimePrekeyX25519, response.oneTimePrekeyMlkem768⟩

/-- the fetch found enough one-time keys -/
def consumes : BundlePhase → Bool
  | .selectX _ | .markX _ _ | .selectPq _ _ | .markPq _ _ _ => true
  | .remainingX _ x pq | .remainingPq _ x pq _ => x.isSome || pq.isSome
  | .commit response => response.oneTimePrekeyX25519.isSome || response.oneTimePrekeyMlkem768.isSome
  | _ => false

/-- the row that is to be marked next -/
def chosen : BundlePhase → Option (OneTimeTable × OneTimeKey)
  | .markX _ x => some (.x25519, x)
  | .markPq _ _ pq => some (.mlkem768, pq)
  | _ => none

end BundlePhase

/-- an upload has begun to delete one-time keys -/
def PublishPhase.replaces : PublishPhase → Bool
  | .deleteOneTime _ .mlkem768 | .insertOneTime _ _ _ | .insertTaken _ _ _ _ | .commit _ => true
  | _ => false

namespace Proc

/-- the device whose one-time keys the process counts, marks or replaces -/
def inside : Proc → Option (String × String)
  | .bundle r phase => phase.marks.map fun m => (r.userId, m.keys.deviceId)
  | .publishPrekeys r phase => if phase.replaces then some (r.userId, r.deviceId) else none
  | _ => none

/-- the device whose one-time keys the process is about to count or to replace -/
def entering : Proc → Option (String × String)
  | .bundle r (.countX keys) => some (r.userId, keys.deviceId)
  | .publishPrekeys r (.deleteOneTime _ .x25519) => some (r.userId, r.deviceId)
  | _ => none

/-- the number that the process has taken for the row it inserts next -/
def rowId : Proc → Option (OneTimeTable × ℕ)
  | .publishPrekeys _ (.insertTaken _ [] (_ :: _) id) => some (.mlkem768, id)
  | .publishPrekeys _ (.insertTaken _ (_ :: _) _ id) => some (.x25519, id)
  | _ => none

/-- fetches, uploads and reaper passes -/
def onOneTime : Proc → Bool
  | .idle | .bundle _ _ | .publishPrekeys _ _ | .reapStaleData _ _ => true
  | _ => false

end Proc

/-! ## The invariant -/

/-- the one-time keys of a table that a fetch has marked -/
def Marked (w : World ι) (i : ι) (device : String × String) (table : OneTimeTable) : Option OneTimeKey → Prop
  | none => ∀ id row, w.tables.draft (.oneTime table id) ≠ some (i, row)
  | some key => (∃ row : OneTimeRow, w.tables.draft (.oneTime table key.id) = some (i, some row) ∧ row.consumed = true) ∧
      Available w.tables.committed device table key.id ≠ none ∧
      ∀ id row, w.tables.draft (.oneTime table id) = some (i, row) → id = key.id

structure FetchOk (cfg : Config Secret) (w : World ι) (i : ι) (device : String × String) (phase : BundlePhase)
    (m : Marks) : Prop where
  marked : ∀ table, Marked w i device table (m.of table)
  counted : ∀ keys n, phase = .countPq keys n → n = w.public.countAvailable .x25519 device.1 device.2
  enough : phase.consumes = true → ∀ table, cfg.prekeyBundleReserveCount.toNat < w.public.countAvailable table device.1 device.2
  chosen : ∀ c ∈ phase.chosen, Available w.tables.committed device c.1 c.2.id ≠ none

/-- a fetch and what it has counted, chosen and marked -/
structure BundleOk (cfg : Config Secret) (w : World ι) (i : ι) (r : BundleRequest) (phase : BundlePhase) : Prop where
  owner : ∀ keys ∈ phase.keys, keys.userId = r.userId
  fetch : ∀ m ∈ phase.marks, FetchOk cfg w i (r.userId, m.keys.deviceId) phase m

/-- a row that a process holds belongs to its device before and after -/
def HeldRow (w : World ι) (p : Proc) (table : OneTimeTable) (id : ℕ) (row : Option OneTimeRow) : Prop :=
  ∃ device, p.inside = some device ∧ (∀ old ∈ w.tables.committed (.oneTime table id), OneTimeRow.device old = device) ∧
    ∀ new ∈ row, new.device = device ∧ (new.consumed = true ∨ (table, id) ∉ handed w.replies)

/-- the number of a row that is stored, held or handed out -/
def Occupied (w : World ι) (table : OneTimeTable) (id : ℕ) : Prop :=
  w.tables.committed (.oneTime table id) ≠ none ∨ w.tables.draft (.oneTime table id) ≠ none ∨ (table, id) ∈ handed w.replies

omit [DecidableEq ι] in
lemma Occupied.stored {row : OneTimeRow} (h : w.tables.committed (.oneTime table id) = some row) : Occupied w table id :=
  .inl (by rw [h]; exact some_ne_none row)

omit [DecidableEq ι] in
lemma Occupied.drafted {x : ι × Option OneTimeRow} (h : w.tables.draft (.oneTime table id) = some x) : Occupied w table id :=
  .inr (.inl (by rw [h]; exact some_ne_none x))

structure OneTimeInv (cfg : Config Secret) (w : World ι) : Prop where
  kind : ∀ i, (w.procs i).onOneTime = true
  below : ∀ {table id}, Occupied w table id → id < w.nextOneTime table
  taken : ∀ {i table id}, (w.procs i).rowId = some (table, id) → id < w.nextOneTime table ∧ ¬Occupied w table id
  apart : ∀ {i j x}, (w.procs i).rowId = some x → (w.procs j).rowId = some x → i = j
  solo : ∀ {i j device}, (w.procs i).inside = some device → (w.procs j).inside = some device → i = j
  held : ∀ {i table id row}, w.tables.draft (.oneTime table id) = some (i, row) → HeldRow w (w.procs i) table id row
  used : ∀ {table id row}, (table, id) ∈ handed w.replies → w.tables.committed (.oneTime table id) = some row →
    OneTimeRow.consumed row = true
  once : (handed w.replies).Nodup
  bundle : ∀ {i r phase}, w.procs i = .bundle r phase → BundleOk cfg w i r phase

/-! ## What other processes notice -/

variable {m : Marks}

section Kept

variable {w w' : World ι} {i j : ι} {device : String × String}
omit [DecidableEq ι]

/-- nothing has changed for a fetch of the device -/
structure KeptFor (j : ι) (device : String × String) (w w' : World ι) : Prop where
  available : ∀ table id, Available w'.tables.committed device table id = Available w.tables.committed device table id
  draft : ∀ table id row, w'.tables.draft (.oneTime table id) = some (j, row) ↔
    w.tables.draft (.oneTime table id) = some (j, row)
  next : ∀ table, w.nextOneTime table ≤ w'.nextOneTime table

lemma count_kept
    (havailable : ∀ id, Available w'.tables.committed device table id = Available w.tables.committed device table id)
    (hnext : w.nextOneTime table ≤ w'.nextOneTime table)
    (hbelow : ∀ {table id}, Occupied w table id → id < w.nextOneTime table) :
    w'.public.countAvailable table device.1 device.2 = w.public.countAvailable table device.1 device.2 := by
  have hrows : w'.public.available table device.1 device.2 = w.public.available table device.1 device.2 := by
    calc w'.public.available table device.1 device.2
        = inOrder (w'.nextOneTime table) (Available w.tables.committed device table) :=
          inOrder_congr fun id _ => havailable id
      _ = w.public.available table device.1 device.2 := by
          refine inOrder_of_le (fun id hne => ?_) hnext
          obtain ⟨row, hrow, -⟩ := available_ne_none.1 hne
          exact hbelow (.stored hrow)
  rw [Snapshot.countAvailable, Snapshot.countAvailable, hrows]

lemma Marked.congr {key : Option OneTimeKey} (hm : Marked w j device table key)
    (havailable : ∀ id, Available w'.tables.committed device table id = Available w.tables.committed device table id)
    (hdraft : ∀ id row, w'.tables.draft (.oneTime table id) = some (j, row) ↔ w.tables.draft (.oneTime table id) = some (j, row)) :
    Marked w' j device table key := by
  cases key with
  | none => exact fun id row hd => hm id row ((hdraft _ _).1 hd)
  | some key =>
    obtain ⟨⟨row, hd, hc⟩, hunused, hothers⟩ := hm
    exact ⟨⟨row, (hdraft _ _).2 hd, hc⟩, havailable _ ▸ hunused, fun id row hd => hothers id row ((hdraft _ _).1 hd)⟩

lemma FetchOk.kept (h : KeptFor j device w w') (hbelow : ∀ {table id}, Occupied w table id → id < w.nextOneTime table)
    {phase : BundlePhase} (hok : FetchOk cfg w j device phase m) : FetchOk cfg w' j device phase m := by
  have hcount := fun table => count_kept (h.available table) (h.next table) hbelow
  refine ⟨fun table => (hok.marked table).congr (h.available table) (h.draft table), fun keys n hp => ?_, fun hc table => ?_,
    fun c hc => ?_⟩
  · rw [hcount]
    exact hok.counted keys n hp
  · rw [hcount]
    exact hok.enough hc table
  · rw [h.available]
    exact hok.chosen c hc

end Kept

/-- a step of `i` after which the same rows are stored, apart from consumed ones that are deleted -/
structure Moves (i : ι) (w w' : World ι) : Prop where
  procs : ∀ j ≠ i, w'.procs j = w.procs j
  committed : ∀ table id, w'.tables.committed (.oneTime table id) = w.tables.committed (.oneTime table id) ∨
    w'.tables.committed (.oneTime table id) = none ∧
      ∀ row, w.tables.committed (.oneTime table id) = some row → OneTimeRow.consumed row = true
  draft : ∀ j ≠ i, ∀ table id row, w'.tables.draft (.oneTime table id) = some (j, row) ↔
    w.tables.draft (.oneTime table id) = some (j, row)
  next : ∀ table, w.nextOneTime table ≤ w'.nextOneTime table
  handed : handed w'.replies = handed w.replies

section Moves

variable {w w' : World ι} {i j : ι} {device : String × String}
omit [DecidableEq ι]

lemma Moves.stored (h : Moves i w w') {row : OneTimeRow} (hrow : w'.tables.committed (.oneTime table id) = some row) :
    w.tables.committed (.oneTime table id) = some row := by
  rcases h.committed table id with heq | ⟨hnone, -⟩
  · exact heq.symm.trans hrow
  · rw [hnone] at hrow
    cases hrow

lemma Moves.available (h : Moves i w w') (table : OneTimeTable) (id : ℕ) :
    Available w'.tables.committed device table id = Available w.tables.committed device table id := by
  rcases h.committed table id with heq | ⟨hnone, hused⟩
  · rw [Available, Available, heq]
  · have hbefore : Available w.tables.committed device table id = none := available_eq_none fun row hrow _ => hused row hrow
    rw [hbefore, Available, hnone]
    rfl

lemma Moves.kept (h : Moves i w w') (hj : j ≠ i) : KeptFor j device w w' :=
  ⟨h.available, h.draft j hj, h.next⟩

lemma Moves.heldRow (h : Moves i w w') {p : Proc} (hheld : HeldRow w p table id row) : HeldRow w' p table id row := by
  obtain ⟨device, hinside, hold, hnew⟩ := hheld
  refine ⟨device, hinside, fun old ho => hold old (h.stored ho), fun new hn => ?_⟩
  rw [h.handed]
  exact hnew new hn

/-- **Steps before a commit** keep the invariant if what the process does to its own rows does -/
lemma OneTimeInv.move (h : OneTimeInv cfg w) (hm : Moves i w w') (next : Proc) (hnext : w'.procs i = next)
    (hkind : next.onOneTime = true)
    (hown : ∀ table id row, w'.tables.draft (.oneTime table id) = some (i, row) → HeldRow w next table id row ∧
      (Occupied w table id ∨ (w.procs i).rowId = some (table, id)) ∧ next.rowId ≠ some (table, id))
    (hrow : ∀ table id, next.rowId = some (table, id) → id = w.nextOneTime table ∧ w.nextOneTime table < w'.nextOneTime table)
    (hinside : ∀ device, next.inside = some device → (w.procs i).inside = some device ∨ ∀ j ≠ i, (w.procs j).inside ≠ some device)
    (hbundle : ∀ r phase, next = .bundle r phase → BundleOk cfg w' i r phase) : OneTimeInv cfg w' := by
  subst hnext
  have hoccupied : ∀ {table id}, Occupied w' table id → Occupied w table id ∨
      (w.procs i).rowId = some (table, id) ∧ (w'.procs i).rowId ≠ some (table, id) := by
    intro table id hocc
    rcases hocc with hcommitted | hdraft | hhanded
    · obtain ⟨row, hrow⟩ := ne_none_iff_exists'.1 hcommitted
      exact .inl (.stored (hm.stored hrow))
    · obtain ⟨⟨j, row⟩, hd⟩ := ne_none_iff_exists'.1 hdraft
      by_cases hj : j = i
      · subst hj
        obtain ⟨-, hocc, hnot⟩ := hown table id row hd
        exact hocc.imp_right fun hr => ⟨hr, hnot⟩
      · exact .inl (.drafted ((hm.draft j hj _ _ _).1 hd))
    · exact .inl (.inr (.inr (hm.handed ▸ hhanded)))
  have hbelow : ∀ {table id}, Occupied w' table id → id < w.nextOneTime table := by
    intro table id hocc
    rcases hoccupied hocc with hold | ⟨hr, -⟩
    · exact h.below hold
    · exact (h.taken hr).1
  refine ⟨fun j => ?_, fun hocc => (hbelow hocc).trans_le (hm.next _), fun {j table id} hr => ?_, fun {j j' x} hr hr' => ?_,
    fun {_ _ device} => unique_step (R := fun p : Proc => p.inside = some device) hm.procs h.solo (hinside device),
    fun {j table id row} hd => ?_, fun hh hc => ?_, ?_,
    fun {j r phase} hp => ?_⟩
  · by_cases hj : j = i
    · rw [hj]
      exact hkind
    · rw [hm.procs j hj]
      exact h.kind j
  · by_cases hj : j = i
    · subst hj
      obtain ⟨hid, hlt⟩ := hrow table id hr
      refine ⟨hid ▸ hlt, fun hocc => ?_⟩
      have := hbelow hocc
      omega
    · rw [hm.procs j hj] at hr
      refine ⟨(h.taken hr).1.trans_le (hm.next table), fun hocc => ?_⟩
      rcases hoccupied hocc with hold | ⟨hr', -⟩
      · exact (h.taken hr).2 hold
      · exact hj (h.apart hr hr')
  · -- a number that was just taken is above all others
    obtain ⟨table, id⟩ := x
    refine unique_step (R := fun p : Proc => p.rowId = some (table, id)) hm.procs h.apart
      (fun hr => .inr fun n _ hr' => ?_) hr hr'
    have hlt := (h.taken hr').1
    have := (hrow table id hr).1
    omega
  · by_cases hj : j = i
    · subst hj
      exact hm.heldRow (hown table id row hd).1
    · rw [hm.procs j hj]
      exact hm.heldRow (h.held ((hm.draft j hj _ _ _).1 hd))
  · exact h.used (hm.handed ▸ hh) (hm.stored hc)
  · rw [hm.handed]
    exact h.once
  · by_cases hj : j = i
    · subst hj
      exact hbundle r phase hp
    · rw [hm.procs j hj] at hp
      have hok := h.bundle hp
      exact ⟨hok.owner, fun m hmarks => (hok.fetch m hmarks).kept (hm.kept hj) h.below⟩

end Moves

/-! ## Commits -/

section Commits

variable {w : World ι} {i : ι} {reply : Reply} {table : OneTimeTable}

/-- a row that the process does not hold stays -/
lemma commit_row (h : ∀ row, w.tables.draft (.oneTime table id) ≠ some (i, row)) :
    (w.commit i reply).tables.committed (.oneTime table id) = w.tables.committed (.oneTime table id) :=
  Store.commit_committed_other h

omit [DecidableEq ι] in
lemma handed_append (replies : List Reply) (reply : Reply) : handed (replies ++ [reply]) = handed replies ++ reply.handed := by
  simp [handed]

/-- other devices do not notice a commit -/
lemma OneTimeInv.commit_kept (h : OneTimeInv cfg w) {j : ι} (hj : j ≠ i) (hdevice : (w.procs i).inside ≠ some device) :
    KeptFor j device w (w.commit i reply) := by
  refine ⟨fun table id => ?_, fun table id row => ?_, fun _ => le_rfl⟩
  · rcases Store.view_cases w.tables i _ with ⟨row, hd, hview⟩ | ⟨hnot, -⟩
    · obtain ⟨device', hinside, hold, hnew⟩ := h.held hd
      have hne : device' ≠ device := fun heq => hdevice (heq ▸ hinside)
      have hbefore : Available w.tables.committed device table id = none :=
        available_eq_none fun old ho hdev => absurd ((hold old ho).symm.trans hdev) hne
      have hafter : Available (w.commit i reply).tables.committed device table id = none := by
        apply available_eq_none
        intro new hn hdev
        rw [show (w.commit i reply).tables.committed _ = row from hview] at hn
        exact absurd ((hnew new hn).1.symm.trans hdev) hne
      rw [hbefore, hafter]
    · rw [Available, Available, commit_row hnot]
  · change (w.tables.commit i).draft _ = _ ↔ _
    rw [Store.commit_draft]
    exact and_iff_left hj

/-- **Commits**: what a process hands out are rows that it holds and has marked -/
lemma OneTimeInv.commit (h : OneTimeInv cfg w) (hnew : ∀ x ∈ reply.handed, ∃ row : OneTimeRow,
      w.tables.draft (.oneTime x.1 x.2) = some (i, some row) ∧ row.consumed = true ∧ x ∉ handed w.replies)
    (hnodup : reply.handed.Nodup) : OneTimeInv cfg (w.commit i reply) := by
  have hoccupied : ∀ {table id}, Occupied (w.commit i reply) table id → Occupied w table id := by
    intro table id hocc
    rcases hocc with hcommitted | hdraft | hhanded
    · rcases Store.view_cases w.tables i _ with ⟨row, hd, -⟩ | ⟨hnot, -⟩
      · exact .drafted hd
      · rw [commit_row hnot] at hcommitted
        exact .inl hcommitted
    · obtain ⟨x, hd⟩ := ne_none_iff_exists'.1 hdraft
      exact .drafted (Store.commit_draft.1 hd).1
    · rw [World.commit, handed_append, mem_append] at hhanded
      rcases hhanded with hold | hx
      · exact Or.inr (Or.inr hold)
      · obtain ⟨row, hd, -⟩ := hnew _ hx
        exact .drafted hd
  have hprocs : ∀ j ≠ i, (w.commit i reply).procs j = w.procs j := fun j hj => World.commit_ne hj
  have hother : ∀ {j}, (w.commit i reply).procs j ≠ .idle → j ≠ i := fun hbusy hj => hbusy (hj ▸ World.commit_self)
  refine ⟨fun j => ?_, fun hocc => h.below (hoccupied hocc), fun {j table id} hr => ?_,
    fun {_ _ x} => unique_step (R := fun p : Proc => p.rowId = some x) hprocs h.apart fun hr => ?_,
    fun {_ _ x} => unique_step (R := fun p : Proc => p.inside = some x) hprocs h.solo fun hd => ?_,
    fun {j table id row} hd => ?_, fun {table id row} hh hc => ?_, ?_, fun {j r phase} hp => ?_⟩
  · by_cases hj : j = i
    · rw [hj, World.commit_self]
      rfl
    · rw [hprocs j hj]
      exact h.kind j
  · rw [hprocs j (hother fun hidle => by rw [hidle] at hr; cases hr)] at hr
    exact ⟨(h.taken hr).1, fun hocc => (h.taken hr).2 (hoccupied hocc)⟩
  · rw [World.commit_self] at hr
    cases hr
  · rw [World.commit_self] at hd
    cases hd
  · obtain ⟨hd, hj⟩ := Store.commit_draft.1 hd
    have hnot : ∀ row', w.tables.draft (.oneTime table id) ≠ some (i, row') := by
      intro row' hd'
      rw [hd] at hd'
      exact hj (congrArg Prod.fst (some.inj hd'))
    obtain ⟨device, hdevice, hold, hnew'⟩ := h.held hd
    rw [hprocs j hj]
    refine ⟨device, hdevice, fun old ho => ?_, fun new hn => ⟨(hnew' new hn).1, ?_⟩⟩
    · rw [commit_row hnot] at ho
      exact hold old ho
    · refine (hnew' new hn).2.imp_right fun hfresh hmem => ?_
      rw [World.commit, handed_append, mem_append] at hmem
      rcases hmem with hold' | hx
      · exact hfresh hold'
      · obtain ⟨row', hd', -⟩ := hnew _ hx
        exact hnot _ hd'
  · rw [World.commit, handed_append, mem_append] at hh
    rcases Store.view_cases w.tables i _ with ⟨row', hd, hview⟩ | ⟨hnot, -⟩
    · rw [show (w.commit i reply).tables.committed _ = row' from hview] at hc
      rcases hh with hold | hx
      · obtain ⟨device, -, -, hnew'⟩ := h.held hd
        exact (hnew' row hc).2.resolve_right fun hfresh => hfresh hold
      · obtain ⟨row'', hd', hconsumed, -⟩ := hnew _ hx
        cases hd.symm.trans hd'
        cases hc
        exact hconsumed
    · rw [commit_row hnot] at hc
      rcases hh with hold | hx
      · exact h.used hold hc
      · obtain ⟨row', hd, -⟩ := hnew _ hx
        exact absurd hd (hnot _)
  · rw [World.commit, handed_append, nodup_append]
    refine ⟨h.once, hnodup, fun x hx y hy heq => ?_⟩
    obtain ⟨row, -, -, hfresh⟩ := hnew y hy
    exact hfresh (heq ▸ hx)
  · have hj : j ≠ i := hother fun hidle => by rw [hidle] at hp; cases hp
    rw [hprocs j hj] at hp
    have hok := h.bundle hp
    refine ⟨hok.owner, fun m hmarks => (hok.fetch m hmarks).kept (h.commit_kept hj fun hdevice => ?_) h.below⟩
    refine hj (h.solo ?_ hdevice)
    rw [hp]
    exact map_eq_some_iff.2 ⟨m, hmarks, rfl⟩

omit [DecidableEq ι] in
/-- a marked row is committed as unconsumed, and therefore was not handed out -/
lemma Marked.fresh (h : OneTimeInv cfg w) (hm : Marked w i device table (some key)) : ∃ row : OneTimeRow,
      w.tables.draft (.oneTime table key.id) = some (i, some row) ∧ row.consumed = true ∧ (table, key.id) ∉ handed w.replies := by
  obtain ⟨⟨row, hd, hconsumed⟩, havailable, -⟩ := hm
  refine ⟨row, hd, hconsumed, fun hmem => ?_⟩
  obtain ⟨stored, hstored, -, hunused⟩ := available_ne_none.1 havailable
  rw [h.used hmem hstored] at hunused
  cases hunused

/-- a commit of a fetch takes at most one key of a table -/
lemma Marked.count {key : Option OneTimeKey} (hm : Marked w i device table key) :
    w.public.countAvailable table device.1 device.2 ≤ (w.commit i reply).public.countAvailable table device.1 device.2 + 1 := by
  have hsame : ∀ id, (∀ row, w.tables.draft (.oneTime table id) ≠ some (i, row)) →
      Available w.tables.committed device table id = Available (w.commit i reply).tables.committed device table id := by
    intro id hnot
    rw [Available, Available, commit_row hnot]
  cases key with
  | none => exact inOrder_length_update fun id (_ : id ≠ 0) => hsame id (hm id)
  | some => exact inOrder_length_update fun id hid => hsame id fun row hd => hid (hm.2.2 id row hd)

/-- **The commit of a fetch** -/
lemma OneTimeInv.commitBundle (h : OneTimeInv cfg w) {r : BundleRequest} {response : BundleResponse}
    (hp : w.procs i = .bundle r (.commit response)) : OneTimeInv cfg (w.commit i (.bundle response)) ∧
      (response.handed ≠ [] → ∀ table, cfg.prekeyBundleReserveCount.toNat ≤
        (w.commit i (.bundle response)).public.countAvailable table response.keys.userId response.keys.deviceId) := by
  have hok := h.bundle hp
  have hfetch := hok.fetch _ rfl
  have howner : response.keys.userId = r.userId := hok.owner _ rfl
  constructor
  · refine h.commit (fun x hx => ?_) ?_
    · rcases mem_append.1 hx with hx | hx
      · obtain ⟨key, hkey, rfl⟩ := map_eq_some_iff.1 (mem_toList.1 hx)
        have hm : Marked w i _ .x25519 response.oneTimePrekeyX25519 := hfetch.marked .x25519
        rw [hkey] at hm
        exact hm.fresh h
      · obtain ⟨key, hkey, rfl⟩ := map_eq_some_iff.1 (mem_toList.1 hx)
        have hm : Marked w i _ .mlkem768 response.oneTimePrekeyMlkem768 := hfetch.marked .mlkem768
        rw [hkey] at hm
        exact hm.fresh h
    · change response.handed.Nodup
      unfold BundleResponse.handed
      cases response.oneTimePrekeyX25519 <;> cases response.oneTimePrekeyMlkem768 <;> simp
  · intro hhanded table
    have hconsumes : (BundlePhase.commit response).consumes = true := by
      by_contra hnot
      apply hhanded
      simp only [BundlePhase.consumes, Bool.or_eq_true, not_or, isSome_iff_ne_none, ne_eq, not_not] at hnot
      rw [BundleResponse.handed, hnot.1, hnot.2]
      rfl
    have henough := hfetch.enough hconsumes table
    rw [howner]
    have hcount : w.public.countAvailable table r.userId response.keys.deviceId ≤
        (w.commit i (.bundle response)).public.countAvailable table r.userId response.keys.deviceId + 1 :=
      (hfetch.marked table).count
    exact Nat.lt_succ_iff.1 (henough.trans_le hcount)

end Commits

/-! ## Steps -/

/-- a step that answers with one-time keys leaves the reserve of the device -/
def LeavesReserve (cfg : Config Secret) (w w' : World ι) : Prop :=
  ∀ response, w'.replies = w.replies ++ [.bundle response] → response.handed ≠ [] → ∀ table,
    cfg.prekeyBundleReserveCount.toNat ≤
      w'.public.countAvailable table response.keys.userId response.keys.deviceId

/-- what a step keeps -/
abbrev OneTimeStep (cfg : Config Secret) (w w' : World ι) : Prop := OneTimeInv cfg w' ∧ LeavesReserve cfg w w'

section Steps

variable {w w' : World ι} {i : ι} {next : Proc} {reply : Reply}

section

omit [DecidableEq ι]

lemma leavesReserve_same (h : w'.replies = w.replies) : LeavesReserve cfg w w' := by
  intro response heq
  rw [h] at heq
  have := congrArg List.length heq
  simp at this

lemma leavesReserve_other (h : w'.replies = w.replies ++ [reply]) (hreply : reply.handed = []) : LeavesReserve cfg w w' := by
  intro response heq hhanded
  rw [h] at heq
  have : reply = .bundle response := by simpa using heq
  rw [this] at hreply
  exact absurd hreply hhanded

/-- a process that is not inside holds no rows -/
lemma OneTimeInv.holdsNone (h : OneTimeInv cfg w) (hi : (w.procs i).inside = none) (table : OneTimeTable) (id : ℕ)
    (row : Option OneTimeRow) : w.tables.draft (.oneTime table id) ≠ some (i, row) := by
  intro hd
  obtain ⟨device, hinside, -⟩ := h.held hd
  rw [hi] at hinside
  cases hinside

end

lemma moves_goto (w : World ι) (i : ι) (next : Proc) : Moves i w (w.goto i next) :=
  ⟨fun _ hj => goto_ne hj, fun _ _ => Or.inl rfl, fun _ _ _ _ _ => Iff.rfl, fun _ => le_rfl, rfl⟩

variable {r : BundleRequest} {phase : BundlePhase} {stmt : Stmt} {tables : Tables ι} {table : OneTimeTable}
  {phase' : PublishPhase}

omit [DecidableEq ι] in
lemma BundleOk.congr (h : BundleOk cfg w i r phase)
    (hbelow : ∀ {table id}, Occupied w table id → id < w.nextOneTime table) (hkept : ∀ device, KeptFor i device w w') :
    BundleOk cfg w' i r phase :=
  ⟨h.owner, fun m hm => (h.fetch m hm).kept (hkept _) hbelow⟩

/-- a query, or a new request -/
lemma OneTimeInv.goto (h : OneTimeInv cfg w) (hkind : next.onOneTime = true) (hrow : next.rowId = none)
    (hkeep : ∀ device, (w.procs i).inside = some device → next.inside = some device)
    (hinside : ∀ device, next.inside = some device → (w.procs i).inside = some device ∨ ∀ j ≠ i, (w.procs j).inside ≠ some device)
    (hbundle : ∀ r phase, next = .bundle r phase → BundleOk cfg w i r phase) : OneTimeInv cfg (w.goto i next) := by
  refine h.move (moves_goto w i next) next goto_self hkind (fun table id row hd => ?_) (fun table id hr => ?_) hinside
    fun r phase hp => ?_
  · rw [goto_tables] at hd
    obtain ⟨device, hdevice, hrest⟩ := h.held hd
    rw [hrow]
    exact ⟨⟨device, hkeep device hdevice, hrest⟩, Or.inl (.drafted hd), by simp⟩
  · rw [hrow] at hr
    cases hr
  · exact (hbundle r phase hp).congr h.below fun device => ⟨fun _ _ => rfl, fun _ _ _ => Iff.rfl, fun _ => le_rfl⟩

/-- the end of a request: what the process holds is given up -/
lemma OneTimeInv.released (h : OneTimeInv cfg w) (hprocs : w'.procs = Function.update w.procs i .idle)
    (htables : w'.tables = w.tables.rollback i) (hnext : w'.nextOneTime = w.nextOneTime)
    (hhanded : handed w'.replies = handed w.replies) : OneTimeInv cfg w' := by
  refine h.move ⟨fun j hj => ?_, fun table id => Or.inl ?_, fun j hj table id row => ?_, fun table => ?_, hhanded⟩
    .idle (by rw [hprocs, update_self]) rfl (fun table id row hd => ?_) nofun
    nofun nofun
  · rw [hprocs, update_of_ne hj]
  · rw [htables]
    rfl
  · rw [htables, Store.rollback_draft]
    exact and_iff_left hj
  · rw [hnext]
  · rw [htables] at hd
    exact absurd rfl (Store.rollback_draft.1 hd).2

lemma OneTimeInv.stop (h : OneTimeInv cfg w) (hreply : reply.handed = []) : OneTimeStep cfg w (w.stop i reply) := by
  refine ⟨h.released (i := i) rfl rfl rfl ?_, leavesReserve_other rfl hreply⟩
  rw [World.stop, handed_append, hreply, append_nil]

/-- a statement in a transaction -/
lemma moves_done (hexec : w.tables.exec i stmt = .done tables) (next : Proc) :
    Moves i w ({ w with tables := tables.settle i false }.goto i next) :=
  ⟨fun _ hj => goto_ne hj, fun _ _ => .inl (congrFun (done_committed hexec) _),
    fun _ hj _ _ _ => done_draft_other hexec hj, fun _ => le_rfl, rfl⟩

/-- a statement: it waits, it fails, or it runs -/
lemma oneTime_write {atOnce : Bool} (h : OneTimeInv cfg w) (hturn : w.turn cfg i = .write stmt atOnce next none)
    (hdone : ∀ tables, w.tables.exec i stmt = .done tables →
      OneTimeInv cfg ({ w with tables := tables.settle i atOnce }.goto i next)) :
    OneTimeStep cfg w (w.advance cfg i) := by
  rw [advance, hturn]
  exact write_rule (Q := OneTimeStep cfg w) ⟨h, leavesReserve_same rfl⟩ (fun _ hq => by cases hq) (h.stop rfl)
    fun tables hexec => ⟨hdone tables hexec, leavesReserve_same rfl⟩

lemma oneTime_fail {error : AppError} (h : OneTimeInv cfg w) (hturn : w.turn cfg i = .fail error) :
    OneTimeStep cfg w (w.advance cfg i) := by
  rw [advance, hturn]
  exact h.stop rfl

lemma oneTime_read (hturn : w.turn cfg i = .read next) (hgo : OneTimeInv cfg (w.goto i next)) :
    OneTimeStep cfg w (w.advance cfg i) := by
  rw [advance, hturn]
  exact ⟨hgo, leavesReserve_same rfl⟩

/-! ### Fetches -/

variable (hnone : ∀ id row, w.tables.draft (.oneTime table id) ≠ some (i, row))
include hnone

/-- without marked rows a fetch sees the stored ones -/
lemma snapshot_available (userId deviceId : String) :
    (w.snapshot i).available table userId deviceId = w.public.available table userId deviceId := by
  refine inOrder_congr fun id _ => ?_
  simp [World.snapshot, World.public, Store.view_unheld (hnone id)]

lemma snapshot_count (userId deviceId : String) :
    (w.snapshot i).countAvailable table userId deviceId = w.public.countAvailable table userId deviceId := by
  rw [Snapshot.countAvailable, Snapshot.countAvailable, snapshot_available hnone]

lemma firstAvailable_available {userId deviceId : String} (h : (w.snapshot i).firstAvailable table userId deviceId = some key) :
    Available w.tables.committed (userId, deviceId) table key.id ≠ none := by
  rw [Snapshot.firstAvailable, snapshot_available hnone] at h
  obtain ⟨e, hhead, rfl⟩ := map_eq_some_iff.1 h
  obtain ⟨-, hrow⟩ := mem_inOrder.1 (mem_of_head? hhead)
  rw [ne_none_iff_exists']
  exact ⟨e.2, hrow⟩

omit hnone

omit [DecidableEq ι] in
lemma inside_bundle (hm : phase.marks = some m) : (Proc.bundle r phase).inside = some (r.userId, m.keys.deviceId) :=
  map_eq_some_iff.2 ⟨m, hm, rfl⟩

/-- a fetch goes on inside with a query -/
lemma OneTimeInv.fetchReads (h : OneTimeInv cfg w) {phase' : BundlePhase} (hp : w.procs i = .bundle r phase)
    (hturn : w.turn cfg i = .read (.bundle r phase')) (hm : phase.marks = some m) (hm' : phase'.marks = some m)
    (hkeys : phase'.keys = phase.keys) (hcount : ∀ keys n, phase' ≠ .countPq keys n) (henough : phase'.consumes = true →
      ∀ table, cfg.prekeyBundleReserveCount.toNat < w.public.countAvailable table r.userId m.keys.deviceId)
    (hchosen : ∀ c ∈ phase'.chosen, Available w.tables.committed (r.userId, m.keys.deviceId) c.1 c.2.id ≠ none) :
    OneTimeStep cfg w (w.advance cfg i) := by
  have hbefore : (w.procs i).inside = some (r.userId, m.keys.deviceId) := by
    rw [hp]
    exact inside_bundle hm
  have hafter : (Proc.bundle r phase').inside = _ := inside_bundle hm'
  refine oneTime_read hturn (h.goto rfl rfl (fun device hd => ?_) (fun device hd => .inl ?_) fun r' phase'' heq => ?_)
  · exact hafter.trans (hbefore.symm.trans hd)
  · exact hbefore.trans (hafter.symm.trans hd)
  · cases heq
    refine ⟨fun keys hk => (h.bundle hp).owner keys (hkeys ▸ hk), fun m'' hm'' => ?_⟩
    cases hm'.symm.trans hm''
    exact ⟨((h.bundle hp).fetch m hm).marked, fun keys n heq => absurd heq (hcount keys n), henough, hchosen⟩

/-- a fetch marks the row that it has chosen -/
lemma OneTimeInv.mark (h : OneTimeInv cfg w) {phase' : BundlePhase} {m m' : Marks} (hp : w.procs i = .bundle r phase)
    (hm : phase.marks = some m) (hchosen : phase.chosen = some (table, key)) (hnone : m.of table = none)
    (hm' : phase'.marks = some m') (hof : ∀ t, m'.of t = if t = table then some key else m.of t) (hkeys : m'.keys = m.keys)
    (hkeys' : phase'.keys = phase.keys) (henough : phase.consumes = true) (hcount : ∀ keys n, phase' ≠ .countPq keys n)
    (hchosen' : phase'.chosen = none) (hexec : w.tables.exec i (.markConsumed table key.id) = .done tables) :
    OneTimeInv cfg ({ w with tables := tables.settle i false }.goto i (.bundle r phase')) := by
  have hok := (h.bundle hp).fetch m hm
  have hfree : ∀ id row, w.tables.draft (.oneTime table id) ≠ some (i, row) := by
    have := hok.marked table
    rwa [hnone] at this
  have havailable := hok.chosen _ hchosen
  -- the row that is marked is still the one that was chosen
  obtain ⟨stored, hstored, hdevice, -⟩ := available_ne_none.1 havailable
  have hview : w.tables.view i (.oneTime table key.id) = some stored := (Store.view_unheld (hfree key.id)).trans hstored
  have hothers : ∀ table' ≠ table, ∀ id', tables.draft (.oneTime table' id') = w.tables.draft (.oneTime table' id') :=
    fun table' hne id' => done_draft_none hexec (by simp [Stmt.writes, onOneTime, hne])
  have hdraft : ∀ id row, tables.draft (.oneTime table id) = some (i, row) ↔
      id = key.id ∧ row = some { stored with consumed := true } := by
    intro id row
    have hholds : w.tables.Holds i (fun k => ∃ n, k = .oneTime table n) fun _ => none := by
      intro k hk row
      obtain ⟨n, rfl⟩ := hk
      simp [hfree n row]
    rw [done_holds hexec hholds (.oneTime table id) ⟨id, rfl⟩ row]
    simp only [Stmt.writes, onOneTime, if_pos, or_none]
    by_cases hid : id = key.id
    · have hwrite : update (some stored) (fun _ => true) (fun row : OneTimeRow => { row with consumed := true }) =
          some (some { stored with consumed := true }) := rfl
      rw [if_pos hid, hid, hview, hwrite]
      simp [eq_comm]
    · simp [hid]
  have hbefore : (w.procs i).inside = some (r.userId, m.keys.deviceId) := by
    rw [hp]
    exact inside_bundle hm
  have hafter : (Proc.bundle r phase').inside = some (r.userId, m.keys.deviceId) := hkeys ▸ inside_bundle hm'
  have hmoves := moves_done hexec (.bundle r phase')
  refine h.move hmoves _ goto_self rfl (fun table' id row hd => ⟨?_, ?_, by simp [Proc.rowId]⟩) (fun _ _ hr => by cases hr)
    (fun device hd => .inl ?_) fun r' phase'' hp' => ?_
  · by_cases ht : table' = table
    · subst ht
      obtain ⟨rfl, rfl⟩ := (hdraft id row).1 hd
      refine ⟨_, hafter, fun old ho => ?_, fun new hn => ?_⟩
      · cases hstored.symm.trans ho
        exact hdevice
      · cases hn
        exact ⟨hdevice, .inl rfl⟩
    · obtain ⟨device, hinside, hrest⟩ := h.held ((hothers table' ht id).symm.trans hd)
      exact ⟨device, hafter.trans (hbefore.symm.trans hinside), hrest⟩
  · by_cases ht : table' = table
    · subst ht
      obtain ⟨rfl, -⟩ := (hdraft id row).1 hd
      exact .inl (.stored hstored)
    · exact .inl (.drafted ((hothers table' ht id).symm.trans hd))
  · exact hbefore.trans (hafter.symm.trans hd)
  · cases hp'
    refine ⟨fun keys hk => (h.bundle hp).owner keys (hkeys' ▸ hk), fun m'' hm'' => ?_⟩
    cases hm'.symm.trans hm''
    rw [hkeys]
    refine ⟨fun t => ?_, fun keys n heq => absurd heq (hcount keys n), fun _ t => ?_, fun c hc => ?_⟩
    · rw [hof]
      by_cases ht : t = table
      · subst ht
        rw [if_pos rfl]
        refine ⟨⟨_, (hdraft key.id _).2 ⟨rfl, rfl⟩, rfl⟩, ?_, fun id row hd => ((hdraft id row).1 hd).1⟩
        rw [hmoves.available]
        exact havailable
      · rw [if_neg ht]
        exact (hok.marked t).congr (hmoves.available t) fun id row => (hothers t ht id).congr_left
    · exact (count_kept (hmoves.available t) le_rfl h.below).symm ▸ hok.enough henough t
    · rw [hchosen'] at hc
      cases hc

lemma loadBundleKeys_owner {s : Snapshot} {keys : BundleKeys} (h : loadBundleKeys s r = .ok keys) : keys.userId = r.userId := by
  unfold loadBundleKeys at h
  split at h
  · cases h
  · split at h
    · cases h
    · cases h
    · cases h
    · cases h
      rfl

variable (h : OneTimeInv cfg w) {now : ℕ}
include h

lemma loadBundleResponse_oneTime (hp : w.procs i = .bundle r phase)
    (henter : ∀ device ∈ (w.procs i).entering, ∀ j ≠ i, (w.procs j).inside ≠ some device) :
    OneTimeStep cfg w (w.advance cfg i) := by
  have hturn : w.turn cfg i = loadBundleResponse cfg (w.snapshot i) r phase := by rw [turn, hp]; rfl
  have hok := h.bundle hp
  cases phase with
  | load =>
    simp only [loadBundleResponse] at hturn
    split at hturn
    · exact oneTime_fail h hturn
    · rename_i keys hload
      refine oneTime_read hturn (h.goto rfl rfl (fun device hd => ?_) (fun device hd => ?_) fun r' phase' heq => ?_)
      · rw [hp] at hd
        cases hd
      · cases hd
      · cases heq
        refine ⟨fun keys' hk => ?_, fun m hm => ?_⟩
        · cases hk
          exact loadBundleKeys_owner hload
        · cases hm
  | countX =>
    have hnone := h.holdsNone (i := i) (by rw [hp]; rfl)
    refine oneTime_read hturn (h.goto rfl rfl (fun device hd => ?_) (fun device hd => .inr ?_) fun r' phase' heq => ?_)
    · rw [hp] at hd
      cases hd
    · cases hd
      exact henter _ (by rw [hp]; rfl)
    · cases heq
      refine ⟨hok.owner, fun m hm => ?_⟩
      cases hm
      refine ⟨fun table => ?_, fun keys' n heq => ?_, fun hc => ?_, fun c hc => ?_⟩
      · cases table <;> exact hnone _
      · cases heq
        exact snapshot_count (hnone _) _ _
      · cases hc
      · cases hc
  | countPq keys =>
    have hfetch := hok.fetch _ rfl
    have hx := hfetch.counted _ _ rfl
    have hpq := snapshot_count (hfetch.marked .mlkem768) r.userId keys.deviceId
    simp only [loadBundleResponse] at hturn
    split_ifs at hturn with henough
    · refine h.fetchReads hp hturn rfl rfl rfl (fun _ _ hc => by cases hc) (fun _ table => ?_) (fun _ hc => by cases hc)
      cases table with
      | x25519 => exact hx ▸ henough.1
      | mlkem768 => exact hpq ▸ henough.2
    · exact h.fetchReads hp hturn rfl rfl rfl (fun _ _ hc => by cases hc) (fun hc => by cases hc) fun _ hc => by cases hc
  | selectX | selectPq =>
    have hfetch := hok.fetch _ rfl
    simp only [loadBundleResponse] at hturn
    split at hturn
    · rename_i hfirst
      refine h.fetchReads hp hturn rfl rfl rfl (fun _ _ hc => by cases hc) (fun _ => hfetch.enough rfl) (fun c hc => ?_)
      cases hc
      first
      | exact firstAvailable_available (hfetch.marked .x25519) hfirst
      | exact firstAvailable_available (hfetch.marked .mlkem768) hfirst
    · exact h.fetchReads hp hturn rfl rfl rfl (fun _ _ hc => by cases hc) (fun _ => hfetch.enough rfl) fun _ hc => by cases hc
  | markX | markPq =>
    refine oneTime_write h hturn fun tables hexec => ?_
    refine h.mark hp rfl rfl rfl rfl (fun t => ?_) rfl rfl rfl (fun _ _ hc => by cases hc) rfl hexec
    cases t <;> rfl
  | remainingX | remainingPq =>
    exact h.fetchReads hp hturn rfl rfl rfl (fun _ _ hc => by cases hc) (hok.fetch _ rfl).enough fun _ hc => by cases hc
  | commit response =>
    obtain ⟨hinv, hreserve⟩ := h.commitBundle hp
    rw [advance, hturn]
    refine ⟨hinv, fun response' (hreplies : (w.commit i _).replies = _) hhanded => ?_⟩
    have hsame : response = response' := by simpa [commit] using hreplies
    exact hsame ▸ hreserve (hsame ▸ hhanded)

/-! ### Uploads -/

/-- a statement of an upload -/
lemma OneTimeInv.upload {r : PublishPrekeysRequest} {phase : PublishPhase} (hp : w.procs i = .publishPrekeys r phase)
    (hrow : (Proc.publishPrekeys r phase').rowId = none) (hkeep : phase.replaces = true → phase'.replaces = true)
    (henter : phase'.replaces = true → phase.replaces = true ∨ ∀ j ≠ i, (w.procs j).inside ≠ some (r.userId, r.deviceId))
    (hexec : w.tables.exec i stmt = .done tables)
    (hwrites : ∀ table id row, stmt.writes (w.tables.view i) (.oneTime table id) = some row →
      HeldRow w (.publishPrekeys r phase') table id row ∧ (Occupied w table id ∨ (w.procs i).rowId = some (table, id))) :
    OneTimeInv cfg ({ w with tables := tables.settle i false }.goto i (.publishPrekeys r phase')) := by
  have hinside : ∀ {phase device}, (Proc.publishPrekeys r phase).inside = some device ↔
      phase.replaces = true ∧ device = (r.userId, r.deviceId) := by
    intro phase device
    simp only [Proc.inside]
    split_ifs with hc <;> simp [hc, eq_comm]
  refine h.move (moves_done hexec _) _ goto_self rfl
    (fun table id row hd => ?_) (fun table id hr => ?_) (fun device hd => ?_) nofun
  · rw [hrow]
    rcases done_draft_cases hexec _ with heq | ⟨row', hw, heq⟩
    · have hd' : w.tables.draft (.oneTime table id) = some (i, row) := heq.symm.trans hd
      obtain ⟨device, hdevice, hrest⟩ := h.held hd'
      rw [hp, hinside] at hdevice
      exact ⟨⟨device, hinside.2 ⟨hkeep hdevice.1, hdevice.2⟩, hrest⟩, .inl (.drafted hd'), by simp⟩
    · cases heq.symm.trans hd
      obtain ⟨hheld, hocc⟩ := hwrites table id row hw
      exact ⟨hheld, hocc, by simp⟩
  · rw [hrow] at hr
    cases hr
  · obtain ⟨hreplaces, rfl⟩ := hinside.1 hd
    refine (henter hreplaces).imp_left fun hbefore => ?_
    rw [hp, hinside]
    exact ⟨hbefore, rfl⟩

/-- an upload deletes rows of its own device -/
lemma OneTimeInv.deleted {r : PublishPrekeysRequest} {phase : PublishPhase} (hp : w.procs i = .publishPrekeys r phase)
    (hreplaces : phase'.replaces = true) {deleting : OneTimeTable}
    (hw : (Stmt.deleteOneTime deleting r.userId (.only r.deviceId)).writes (w.tables.view i) (.oneTime table id) = some row) :
    HeldRow w (.publishPrekeys r phase') table id row ∧ (Occupied w table id ∨ (w.procs i).rowId = some (table, id)) := by
  simp only [Stmt.writes, onOneTime] at hw
  split_ifs at hw with htable
  subst htable
  obtain ⟨seen, hfilter, rfl⟩ := map_eq_some_iff.1 hw
  obtain ⟨hview, hcond⟩ := filter_eq_some_iff.1 hfilter
  obtain ⟨huser, hdevice⟩ := of_decide_eq_true hcond
  have hinside : (Proc.publishPrekeys r phase').inside = some (r.userId, r.deviceId) := if_pos hreplaces
  rcases Store.view_cases w.tables i _ with ⟨row', hd, -⟩ | ⟨-, hsame⟩
  · obtain ⟨device, hbefore, hold, -⟩ := h.held hd
    have heq : device = (r.userId, r.deviceId) := by
      rw [hp] at hbefore
      simp only [Proc.inside] at hbefore
      split_ifs at hbefore
      exact (some.inj hbefore).symm
    exact ⟨⟨_, hinside, fun old ho => (hold old ho).trans heq, fun _ hn => by cases hn⟩, .inl (.drafted hd)⟩
  · have hstored : w.tables.committed (.oneTime table id) = some seen := hsame.symm.trans hview
    refine ⟨⟨_, hinside, fun old ho => ?_, fun _ hn => by cases hn⟩, .inl (.stored hstored)⟩
    cases hstored.symm.trans ho
    exact Prod.ext huser (of_decide_eq_true hdevice)

/-- an upload inserts a row under a number of its own -/
lemma OneTimeInv.inserted {r : PublishPrekeysRequest} (hreplaces : phase'.replaces = true) {inserting : OneTimeTable}
    {n id : ℕ} {prekey : Bytes} (hrow : (w.procs i).rowId = some (inserting, n))
    (hw : (Stmt.insertOneTime inserting n ⟨r.userId, r.deviceId, prekey, false⟩).writes (w.tables.view i)
      (.oneTime table id) = some row) :
    HeldRow w (.publishPrekeys r phase') table id row ∧ (Occupied w table id ∨ (w.procs i).rowId = some (table, id)) := by
  simp only [Stmt.writes, onOneTime] at hw
  split_ifs at hw with htable hid
  subst htable hid
  cases hw
  have hfree := (h.taken hrow).2
  refine ⟨⟨(r.userId, r.deviceId), if_pos hreplaces, fun old ho => ?_, fun new hn => ?_⟩, Or.inr hrow⟩
  · exact absurd (.stored ho) hfree
  · cases hn
    exact ⟨rfl, Or.inr fun hmem => hfree (Or.inr (Or.inr hmem))⟩

/-- an upload takes the number of its next row -/
lemma OneTimeInv.takes {r : PublishPrekeysRequest} {phase : PublishPhase} (hp : w.procs i = .publishPrekeys r phase)
    (hrow : (Proc.publishPrekeys r phase').rowId = some (table, w.nextOneTime table))
    (hreplaces : phase.replaces = true) (hreplaces' : phase'.replaces = true) :
    OneTimeInv cfg ((w.take (.oneTime table)).goto i (.publishPrekeys r phase')) := by
  have hnext : (w.take (.oneTime table)).nextOneTime = Function.update w.nextOneTime table (w.nextOneTime table + 1) := rfl
  have hbefore : (w.procs i).inside = some (r.userId, r.deviceId) := by
    rw [hp]
    exact if_pos hreplaces
  have hafter : (Proc.publishPrekeys r phase').inside = some (r.userId, r.deviceId) := if_pos hreplaces'
  have hmoves : Moves i w ((w.take (.oneTime table)).goto i (.publishPrekeys r phase')) := by
    refine ⟨fun _ hj => goto_ne hj, fun _ _ => .inl rfl, fun _ _ _ _ _ => Iff.rfl, fun table' => ?_, rfl⟩
    rw [goto_nextOneTime, hnext]
    by_cases ht : table' = table
    · subst ht
      rw [update_self]
      exact Nat.le_succ _
    · rw [update_of_ne ht]
  refine h.move hmoves _ goto_self rfl (fun table' id row hd => ?_) (fun table' id hr => ?_)
    (fun device hd => .inl (hbefore.trans (hafter.symm.trans hd))) nofun
  · change w.tables.draft _ = _ at hd
    have hocc : Occupied w table' id := .drafted hd
    obtain ⟨device, hdevice, hrest⟩ := h.held hd
    rw [hrow]
    refine ⟨⟨device, hafter.trans (hbefore.symm.trans hdevice), hrest⟩, .inl hocc, fun heq => ?_⟩
    cases heq
    exact absurd (h.below hocc) (lt_irrefl _)
  · rw [hrow] at hr
    cases hr
    refine ⟨rfl, ?_⟩
    rw [goto_nextOneTime, hnext, update_self]
    exact Nat.lt_succ_self _

lemma publishPrekeys_oneTime {r : PublishPrekeysRequest} {phase : PublishPhase} (hp : w.procs i = .publishPrekeys r phase)
    (henter : ∀ device ∈ (w.procs i).entering, ∀ j ≠ i, (w.procs j).inside ≠ some device) :
    OneTimeStep cfg w (w.advance cfg i) := by
  have hturn : w.turn cfg i = publishPrekeys cfg (w.snapshot i) r phase := by rw [turn, hp]; rfl
  -- a query of an upload
  have hread : ∀ {phase'}, w.turn cfg i = .read (.publishPrekeys r phase') → phase'.replaces = phase.replaces →
      (Proc.publishPrekeys r phase').rowId = none →
      OneTimeStep cfg w (w.advance cfg i) := by
    intro phase' ht hreplaces hrow
    have hsame : (Proc.publishPrekeys r phase').inside = (w.procs i).inside := by
      rw [hp]
      simp [Proc.inside, hreplaces]
    exact oneTime_read ht (h.goto rfl hrow (fun device hd => hsame.trans hd) (fun device hd => .inl (hsame.symm.trans hd))
      fun _ _ heq => by cases heq)
  have htake : ∀ {table} {phase' : ℕ → PublishPhase},
      w.turn cfg i = .take (.oneTime table) (fun id => .publishPrekeys r (phase' id)) → phase.replaces = true →
      (∀ id, (phase' id).replaces = true ∧ (Proc.publishPrekeys r (phase' id)).rowId = some (table, id)) →
      OneTimeStep cfg w (w.advance cfg i) := by
    intro table phase' ht hreplaces hnext
    rw [advance, ht]
    exact ⟨h.takes hp (hnext _).2 hreplaces (hnext _).1, leavesReserve_same rfl⟩
  cases phase with
  | selectUser =>
    simp only [publishPrekeys] at hturn
    split at hturn
    · exact oneTime_fail h hturn
    · split at hturn
      · exact oneTime_fail h hturn
      · unfold Turn.check at hturn
        split at hturn
        · exact hread hturn rfl rfl
        · exact oneTime_fail h hturn
  | upsertPrekeys =>
    refine oneTime_write h hturn fun tables hexec => ?_
    exact h.upload hp rfl (fun hc => by cases hc) (fun hc => by cases hc) hexec fun _ _ _ hw => by cases hw
  | deleteOneTime current table =>
    refine oneTime_write h hturn fun tables hexec => ?_
    cases table with
    | x25519 =>
      refine h.upload hp rfl (fun hc => ?_) (fun _ => .inr (henter _ ?_)) hexec fun table id row hw => h.deleted hp rfl hw
      · cases hc
      · rw [hp]
        rfl
    | mlkem768 =>
      exact h.upload hp rfl (fun _ => rfl) (fun _ => .inl rfl) hexec fun table id row hw => h.deleted hp rfl hw
  | insertOneTime current x pq =>
    cases x with
    | nil =>
      cases pq with
      | nil => exact hread hturn rfl rfl
      | cons => exact htake hturn rfl fun id => ⟨rfl, rfl⟩
    | cons => exact htake hturn rfl fun id => ⟨rfl, rfl⟩
  | insertTaken current x pq id =>
    cases x with
    | nil =>
      cases pq with
      | nil => exact hread hturn rfl rfl
      | cons =>
        refine oneTime_write h hturn fun tables hexec => ?_
        exact h.upload hp rfl (fun _ => rfl) (fun _ => .inl rfl) hexec fun table id row hw =>
          h.inserted rfl (by rw [hp]; rfl) hw
    | cons =>
      refine oneTime_write h hturn fun tables hexec => ?_
      exact h.upload hp rfl (fun _ => rfl) (fun _ => .inl rfl) hexec fun table id row hw =>
        h.inserted rfl (by rw [hp]; cases pq <;> rfl) hw
  | commit =>
    rw [advance, hturn]
    refine ⟨h.commit (fun x hx => ?_) nodup_nil, leavesReserve_other rfl rfl⟩
    cases hx

/-! ### Reaper passes -/

/-- a statement of the reaper deletes consumed rows, and commits at once -/
lemma OneTimeInv.reaped {phase phase' : ReapPhase} (hp : w.procs i = .reapStaleData now phase)
    (hexec : w.tables.exec i stmt = .done tables)
    (hwrites : ∀ table id x, stmt.writes (w.tables.view i) (.oneTime table id) = some x →
      x = none ∧ ∃ row, w.tables.view i (.oneTime table id) = some row ∧ OneTimeRow.consumed row = true) :
    OneTimeInv cfg ({ w with tables := tables.settle i true }.goto i (.reapStaleData now phase')) := by
  have hnone := h.holdsNone (i := i) (by rw [hp]; rfl)
  have hmoves : Moves i w ({ w with tables := tables.settle i true }.goto i (.reapStaleData now phase')) := by
    refine ⟨fun _ hj => goto_ne hj, fun table id => ?_, fun j hj table id row => ?_, fun _ => le_rfl, rfl⟩
    rotate_left
    · change (tables.settle i true).draft (.oneTime table id) = some (j, row) ↔ _
      exact done_draft_other hexec hj
    change tables.view i (.oneTime table id) = _ ∨ tables.view i (.oneTime table id) = none ∧ _
    rcases Store.view_cases tables i _ with ⟨row, hd, hview⟩ | ⟨-, hview⟩
    · rcases done_draft_cases hexec (.oneTime table id) with heq | ⟨row', hw, heq⟩
      · exact absurd (heq.symm.trans hd) (hnone table id row)
      · cases heq.symm.trans hd
        obtain ⟨rfl, seen, hseen, hconsumed⟩ := hwrites table id _ hw
        refine .inr ⟨hview, fun stored hstored => ?_⟩
        cases hstored.symm.trans ((Store.view_unheld (hnone table id)).symm.trans hseen)
        exact hconsumed
    · exact .inl (hview.trans (congrFun (done_committed hexec) _))
  exact h.move hmoves _ goto_self rfl (fun _ _ _ hd => absurd rfl (Store.commit_draft.1 hd).2) nofun nofun nofun

lemma reapStaleData_oneTime {phase : ReapPhase} (hp : w.procs i = .reapStaleData now phase) :
    OneTimeStep cfg w (w.advance cfg i) := by
  have hturn : w.turn cfg i = reapStaleData now phase := by rw [turn, hp]; rfl
  cases phase with
  | oneTime table =>
    refine oneTime_write h hturn fun tables hexec => ?_
    have hwrites : ∀ table' id x, (Stmt.reapOneTime table).writes (w.tables.view i) (.oneTime table' id) = some x →
        x = none ∧ ∃ row, w.tables.view i (.oneTime table' id) = some row ∧ OneTimeRow.consumed row = true := by
      intro table' id x hw
      simp only [Stmt.writes, onOneTime] at hw
      split_ifs at hw with htable
      subst htable
      obtain ⟨row, hfilter, rfl⟩ := map_eq_some_iff.1 hw
      obtain ⟨hview, hconsumed⟩ := filter_eq_some_iff.1 hfilter
      exact ⟨rfl, row, hview, hconsumed⟩
    cases table with
    | x25519 | mlkem768 => exact h.reaped hp hexec hwrites
  | challenges =>
    refine oneTime_write h hturn fun tables hexec => h.reaped hp hexec fun table id x hw => ?_
    cases hw
  | done =>
    rw [advance, hturn]
    exact h.stop rfl

end Steps

/-! ## Runs -/

def Request.onOneTime : Request → Bool
  | .bundle _ | .publishPrekeys _ | .reapStaleData _ => true
  | _ => false

/-- the requests are fetches, uploads and reaper passes -/
def OnOneTime : Op ι → Prop
  | .start _ request => request.onOneTime
  | _ => True

/-- no fetch begins to count, and no upload begins to replace keys, while another one of the same device is at it -/
def OneByOne (w : World ι) : Op ι → Prop
  | .advance i => ∀ device ∈ (w.procs i).entering, ∀ j ≠ i, (w.procs j).inside ≠ some device
  | _ => True

variable (cfg) in
lemma step_oneTime (h : OneTimeInv cfg w) (o : Op ι) (hon : OnOneTime o) (hone : OneByOne w o) :
    OneTimeStep cfg w (w.step cfg o) := by
  cases o with
  | start i request =>
    refine start_rule (Q := OneTimeStep cfg w) ⟨h, leavesReserve_same rfl⟩
      (fun next hp hstart => ⟨?_, leavesReserve_same rfl⟩) fun error hp _ => ⟨?_, leavesReserve_other rfl rfl⟩
    · -- a new process
      have hnext : next.onOneTime = true ∧ next.rowId = none ∧ next.inside = none ∧
          ∀ r phase, next = .bundle r phase → BundleOk cfg w i r phase := by
        cases request <;> simp only [Request.start] at hstart <;> try cases hon
        case bundle r =>
          cases hstart
          refine ⟨rfl, rfl, rfl, fun r' phase heq => ?_⟩
          cases heq
          refine ⟨fun keys hk => ?_, fun m hm => ?_⟩
          · cases hk
          · cases hm
        case publishPrekeys r =>
          obtain ⟨-, -, hstart⟩ := bind_ok.1 hstart
          cases hstart
          refine ⟨rfl, rfl, rfl, fun r' phase heq => ?_⟩
          cases heq
        case reapStaleData now =>
          cases hstart
          refine ⟨rfl, rfl, rfl, fun r' phase heq => ?_⟩
          cases heq
      obtain ⟨hkind, hrow, hinside, hbundle⟩ := hnext
      refine h.goto hkind hrow (fun device hd => ?_) (fun device hd => ?_) hbundle
      · rw [hp] at hd
        cases hd
      · rw [hinside] at hd
        cases hd
    · have hmoves : Moves i w { w with replies := w.replies ++ [.failed error] } := by
        refine ⟨fun _ _ => rfl, fun _ _ => Or.inl rfl, fun _ _ _ _ _ => Iff.rfl, fun _ => le_rfl, ?_⟩
        rw [handed_append]
        exact append_nil _
      exact h.move hmoves _ hp rfl (fun table id row hd => absurd hd (h.holdsNone (by rw [hp]; rfl) table id row))
        (fun _ _ hr => by cases hr) (fun _ hd => by cases hd) fun _ _ hb => by cases hb
  | advance i =>
    change OneTimeStep cfg w (w.advance cfg i)
    have hkind := h.kind i
    cases hp : w.procs i with
    | idle =>
      rw [advance_idle hp]
      exact ⟨h, leavesReserve_same rfl⟩
    | bundle => exact loadBundleResponse_oneTime h hp hone
    | publishPrekeys => exact publishPrekeys_oneTime h hp hone
    | reapStaleData => exact reapStaleData_oneTime h hp
    | _ =>
      rw [hp] at hkind
      cases hkind
  | fail i => exact ⟨h.released (i := i) rfl rfl rfl rfl, leavesReserve_same rfl⟩

/-- **One-time prekeys are one-time**: in every run of fetches, uploads and reaper passes in which fetches and uploads of one
device do not overlap, no row is in two responses, and after a response with one-time keys the device has its reserve -/
theorem one_time_prekeys (w : World ι) (hw : w.Started)
    (hrows : ∀ table id, w.tables.committed (.oneTime table id) ≠ none → id < w.nextOneTime table)
    (hreplies : handed w.replies = []) (ops : List (Op ι))
    (hl : Legal (World.step cfg) (fun w o => OnOneTime o ∧ OneByOne w o) w ops) :
    (handed (run (World.step cfg) w ops).replies).Nodup ∧
    ∀ before o after, ops = before ++ o :: after →
      LeavesReserve cfg (run (World.step cfg) w before) (run (World.step cfg) w (before ++ [o])) := by
  have hinv : OneTimeInv cfg w := by
    refine ⟨fun i => ?_, fun {table id} hocc => ?_, fun {i _ _} hr => ?_, fun {i _ _} hr => ?_, fun {i _ _} hd => ?_,
      fun hd => ?_, fun hh => ?_, ?_, fun {i _ _} hp => ?_⟩
    · rw [hw.idle]
      rfl
    · rcases hocc with hcommitted | hdraft | hhanded
      · exact hrows table id hcommitted
      · rw [hw.closed] at hdraft
        exact absurd rfl hdraft
      · rw [hreplies] at hhanded
        cases hhanded
    · rw [hw.idle] at hr
      cases hr
    · rw [hw.idle] at hr
      cases hr
    · rw [hw.idle] at hd
      cases hd
    · rw [hw.closed] at hd
      cases hd
    · rw [hreplies] at hh
      cases hh
    · rw [hreplies]
      exact nodup_nil
    · rw [hw.idle] at hp
      cases hp
  have hrun : ∀ ops, Legal (step cfg) (fun w o => OnOneTime o ∧ OneByOne w o) w ops →
      OneTimeInv cfg (run (step cfg) w ops) := fun ops hl =>
    run_inv (OneTimeInv cfg) (fun s o hs hok => (step_oneTime cfg hs o hok.1 hok.2).1) ops hinv hl
  refine ⟨(hrun ops hl).once, fun before o after heq => ?_⟩
  rw [heq] at hl
  obtain ⟨hbefore, hnext⟩ := legal_append.1 hl
  have hstep := step_oneTime cfg (hrun before hbefore) o hnext.1.1 hnext.1.2
  rw [run_append]
  exact hstep.2

/-! ## Two fetches of one device -/

instance : (o : Op ι) → Decidable (OnOneTime o)
  | .start _ _ => inferInstanceAs (Decidable (_ = _))
  | .advance _ | .fail _ => isTrue trivial

instance [Fintype ι] (w : World ι) : (o : Op ι) → Decidable (OneByOne w o)
  | .advance i => inferInstanceAs (Decidable (∀ device ∈ _, ∀ j ≠ i, _))
  | .start _ _ | .fail _ => isTrue trivial

namespace Sample

/-- an upload with two one-time keys of each kind -/
def replenished (i : Fin 2) : List (Op (Fin 2)) :=
  .start i (.publishPrekeys ⟨"alice", "phone", .replicate 32 0, .replicate 64 1, [], .replicate 64 1, .replicate 3309 1,
    .replicate 3309 1, [.replicate 32 1, .replicate 32 2], [[1], [2]]⟩) :: List.replicate 14 (.advance i)

def account : World (Fin 2) := reach (registered 0 "alice" 1)

lemma account_started : account.Started := by
  refine started_of (reach_logInv _) (fun i => isIdle_iff.1 ?_) (by decide)
  revert i
  decide

def Key.isOneTime : Key → Bool
  | .oneTime _ _ => true
  | _ => false

lemma account_rows (table : OneTimeTable) (id : ℕ) (h : account.tables.committed (.oneTime table id) ≠ none) :
    id < account.nextOneTime table := by
  have hkeys : ∀ k ∈ account.tables.keys, Key.isOneTime k = false := by decide
  by_cases hk : Key.oneTime table id ∈ account.tables.keys
  · cases hkeys _ hk
  · exact absurd (account.tables.known _ hk).1 h

/-- a fetch with one-time keys, from its first to its last step -/
def fetchedOneTime (i : Fin 2) : List (Op (Fin 2)) := .start i (.bundle ⟨"alice", none⟩) :: List.replicate 10 (.advance i)

/-- both fetches have selected a row before one of them marks it -/
def fetchedTogether : List (Op (Fin 2)) :=
  [.start 0 (.bundle ⟨"alice", none⟩), .start 1 (.bundle ⟨"alice", none⟩)] ++ List.replicate 4 (.advance 0) ++
    List.replicate 4 (.advance 1) ++ List.replicate 6 (.advance 0) ++ List.replicate 6 (.advance 1)

end Sample

/-- an upload, two fetches and a reaper pass between them -/
theorem one_time_prekeys_fetched :
    let ops := Sample.replenished 0 ++ Sample.fetchedOneTime 0 ++
      (.start 1 (.reapStaleData 0) :: List.replicate 4 (.advance 1)) ++ Sample.fetchedOneTime 1
    Legal (World.step Sample.config) (fun w o => OnOneTime o ∧ OneByOne w o) Sample.account ops ∧
    handed (run (World.step Sample.config) Sample.account ops).replies =
      [(.x25519, 1), (.mlkem768, 1), (.x25519, 2), (.mlkem768, 2)] ∧
    (handed (run (World.step Sample.config) Sample.account ops).replies).Nodup := by
  intro ops
  have hlegal : Legal (step Sample.config) (fun w o => OnOneTime o ∧ OneByOne w o) Sample.account ops := by
    decide
  exact ⟨hlegal, by decide, (one_time_prekeys Sample.account Sample.account_started Sample.account_rows
    (by decide) ops hlegal).1⟩

/-- **A one-time key is handed out twice.** The second fetch has selected the row that the first one marks; its own update
waits and then marks the row again. -/
theorem one_time_prekey_reissued :
    let ops := Sample.replenished 0 ++ Sample.fetchedTogether
    handed (run (World.step Sample.config) Sample.account ops).replies =
      [(.x25519, 1), (.mlkem768, 1), (.x25519, 1), (.mlkem768, 2)] ∧
    ¬(handed (run (World.step Sample.config) Sample.account ops).replies).Nodup := by
  decide +kernel

end PqMsg.Server
