/-
Backups and avatars (`handlers/backups.rs`, `handlers/profile.rs`): a row in the database names a blob in the blob store.

An upload puts its blob under a new key, reads the row that is there, replaces it by its own, and deletes the blob of the old
row. A read takes the row and then fetches the blob. Nothing is locked in between. The two kinds of uploads are the same but
for the rows, for avatars that may be absent, for the test before the old blob is deleted, and for user names that may be
taken; a slot is the backup or the profile of a user.

- `blobs_readable`: with new keys, a stored row always names a blob that is there. If moreover no blob is deleted while a read
  has taken its row and not yet fetched it, then every read that begins when the row exists returns a row that was current
  during the read, with the blob that was uploaded for it.
- `backup_lost`: a read that takes its row before an upload replaces it, and fetches after the upload has deleted the old blob,
  finds no backup.

The checks of requests can only turn requests away and are left out, as is what a reader who is no contact does not see. The
blob store is the one in memory.
-/
import PqMsg.Lib.Run
import PqMsg.Server.Validation

namespace PqMsg.Server.StoredBlobs

open Lib Function List Option

/-! ## Rows -/

/-- a row that names a blob -/
inductive Slot where
  | backup (userId : String)
  | profile (userId : String)
deriving DecidableEq

def Slot.userId : Slot → String
  | .backup userId | .profile userId => userId

structure BackupRow where
  backupId : String
  deviceId : String
  backupVersion : ℤ
  blobObjectKey : String
  byteLen : ℕ
  recoveryHint : Option String
  updatedAt : ℕ
deriving DecidableEq

structure ProfileRow where
  displayName : Option String
  username : Option String
  usernameLookupEnabled : Bool
  avatarMime : Option String
  avatarObjectKey : Option String
  updatedAt : ℕ
deriving DecidableEq

abbrev Row : Slot → Type
  | .backup _ => BackupRow
  | .profile _ => ProfileRow

instance Row.decidableEq : (s : Slot) → DecidableEq (Row s)
  | .backup _ => inferInstanceAs (DecidableEq BackupRow)
  | .profile _ => inferInstanceAs (DecidableEq ProfileRow)

def objectKey : (s : Slot) → Row s → Option String
  | .backup _, row => some row.blobObjectKey
  | .profile _, row => row.avatarObjectKey

/-- the blob that is deleted when `row` has replaced `previous` -/
def discarded : (s : Slot) → (row previous : Row s) → Option String
  | .backup _, row, previous =>
    if previous.blobObjectKey ≠ row.blobObjectKey ∨ previous.backupId ≠ row.backupId then some previous.blobObjectKey
    else none
  | .profile _, row, previous => previous.avatarObjectKey.filter fun key => row.avatarObjectKey ≠ some key

/-- only the blob of the previous row is deleted -/
lemma objectKey_of_discarded {s : Slot} {row previous : Row s} {k : String} (h : discarded s row previous = some k) :
    objectKey s previous = some k := by
  cases s with
  | backup => exact (ite_none_right_eq_some.1 h).2
  | profile => exact (filter_eq_some_iff.1 h).1

/-! ## Uploads -/

/-- a request that passed its checks -/
inductive Upload where
  | backup (userId deviceId : String) (backupVersion : ℤ) (blob : Bytes) (recoveryHint : Option String)
  | profile (userId : String) (displayName username : Option String) (usernameLookupEnabled : Bool)
      (avatarMime : Option String) (avatar : Option Bytes)

namespace Upload

def slot : Upload → Slot
  | .backup userId .. => .backup userId
  | .profile userId .. => .profile userId

def blob : Upload → Option Bytes
  | .backup _ _ _ blob _ => some blob
  | .profile _ _ _ _ _ avatar => avatar

/-- with a new id -/
def key (id : String) : Upload → Option String
  | .backup userId .. => some ("backups/" ++ userId ++ "/" ++ id ++ ".bin")
  | .profile userId _ _ _ _ avatar => avatar.map fun _ => "avatars/" ++ userId ++ "/" ++ id

def row (id : String) (now : ℕ) : (u : Upload) → Row u.slot
  | .backup userId deviceId backupVersion blob recoveryHint =>
    ⟨id, deviceId, backupVersion, "backups/" ++ userId ++ "/" ++ id ++ ".bin", blob.length, recoveryHint, now⟩
  | .profile userId displayName username lookUp avatarMime avatar =>
    ⟨displayName, username, lookUp, avatarMime, avatar.map fun _ => "avatars/" ++ userId ++ "/" ++ id, now⟩

/-- the blob is put under the key that the row will name -/
lemma objectKey_row (id : String) (now : ℕ) (u : Upload) : objectKey u.slot (u.row id now) = u.key id := by
  cases u <;> rfl

/-- there is a key exactly if there is a blob -/
lemma blob_of_key {id k : String} {u : Upload} (h : u.key id = some k) : ∃ v, u.blob = some v := by
  cases u with
  | backup => exact ⟨_, rfl⟩
  | profile =>
    obtain ⟨v, hv, -⟩ := map_eq_some_iff.1 h
    exact ⟨v, hv⟩

end Upload

/-! ## Handlers -/

inductive Phase where
  | idle
  | put (upload : Upload)
  | select (slot : Slot) (row : Row slot)
  | swap (slot : Slot) (row : Row slot) (previous : Option (Row slot))
  | delete (slot : Slot) (row : Row slot) (previous : Option (Row slot))
  /-- a read that began when version `since` of the row was the present one -/
  | readRow (slot : Slot) (since : ℕ)
  | fetch (slot : Slot) (since : ℕ) (row : Row slot)

/-- what a read returns: a row and its blob, or no profile -/
abbrev ReadResult (s : Slot) := Except AppError (Option (Row s × Option Bytes))

inductive Reply where
  | failed (error : AppError)
  | uploaded (slot : Slot) (row : Row slot)
  /-- with the versions that were present when the read began and when it ended -/
  | read (slot : Slot) (since upTo : ℕ) (result : ReadResult slot)
deriving DecidableEq

variable {ι : Type} {phase : Phase} {key : Option String}

structure World (ι : Type) where
  users : List String
  rows : ∀ s, Option (Row s)
  blobs : String → Option Bytes
  handlers : ι → Phase
  replies : List Reply
  /-- all versions of each row, the present one last -/
  versions : ∀ s, List (Option (Row s))
  /-- all blobs that were ever put -/
  puts : List (String × Bytes)

open StoredBlobs.World

def World.start (users : List String) : World ι :=
  ⟨users, fun _ => none, fun _ => none, fun _ => .idle, [], fun _ => [none], []⟩

/-- the time, and a new id -/
structure Draw where
  now : ℕ
  id : String

inductive Op (ι : Type) where
  | upload (i : ι) (upload : Upload)
  | read (i : ι) (slot : Slot)
  /-- the next statement or blob operation of a handler -/
  | advance (i : ι) (x : Draw)
  /-- the server or the connection fails -/
  | fail (i : ι)

/-- a read without a row -/
def missing : (s : Slot) → ReadResult s
  | .backup _ => .error (.notFound "backup not found")
  | .profile _ => .ok none

/-- a read whose blob is gone -/
def dangling : Slot → AppError
  | .backup _ => .notFound "backup not found"
  | .profile _ => .notFound "profile avatar not found"

namespace World

variable [DecidableEq ι] (w : World ι) (i : ι)

/-- the unique index on user names -/
def usernameTaken : (s : Slot) → Row s → Bool
  | .backup _, _ => false
  | .profile userId, row => row.username.isSome &&
      w.users.any fun u => u ≠ userId ∧ ((w.rows (.profile u)).bind (·.username)) = row.username

def goto (phase : Phase) : World ι := { w with handlers := Function.update w.handlers i phase }

def answer (reply : Reply) : World ι := { w.goto i .idle with replies := w.replies ++ [reply] }

/-- the number of the present version -/
def present (s : Slot) : ℕ := (w.versions s).length - 1

def putBlob (key : Option String) (blob : Option Bytes) : World ι :=
  match key, blob with
  | some k, some v => { w with blobs := Function.update w.blobs k (some v), puts := w.puts ++ [(k, v)] }
  | _, _ => w

def setRow (s : Slot) (row : Row s) : World ι :=
  { w with rows := Function.update w.rows s (some row),
           versions := Function.update w.versions s (w.versions s ++ [some row]) }

def deleteBlob (key : Option String) : World ι :=
  match key with
  | some k => { w with blobs := Function.update w.blobs k none }
  | none => w

/-- the blob of a row -/
def fetched (s : Slot) (row : Row s) : ReadResult s :=
  match objectKey s row with
  | none => .ok (some (row, none))
  | some k => match w.blobs k with
    | some v => .ok (some (row, some v))
    | none => .error (dangling s)

def advance (x : Draw) : World ι :=
  match w.handlers i with
  | .idle => w
  | .put upload => (w.putBlob (upload.key x.id) upload.blob).goto i (.select upload.slot (upload.row x.id x.now))
  | .select s row => w.goto i (.swap s row (w.rows s))
  | .swap s row previous =>
    if w.usernameTaken s row then w.answer i (.failed (.conflict "username is already claimed on this server"))
    else (w.setRow s row).goto i (.delete s row previous)
  | .delete s row previous => (w.deleteBlob (previous.bind (discarded s row))).answer i (.uploaded s row)
  | .readRow s since => match w.rows s with
    | none => w.answer i (.read s since (w.present s) (missing s))
    | some row => w.goto i (.fetch s since row)
  | .fetch s since row => w.answer i (.read s since (w.present s) (w.fetched s row))

def isIdle : Bool :=
  match w.handlers i with
  | .idle => true
  | _ => false

/-- a request for a user who does not exist is turned away -/
def step (w : World ι) : Op ι → World ι
  | .upload i upload => if w.isIdle i ∧ upload.slot.userId ∈ w.users then w.goto i (.put upload) else w
  | .read i s => if w.isIdle i ∧ s.userId ∈ w.users then w.goto i (.readRow s (w.present s)) else w
  | .advance i x => w.advance i x
  | .fail i => w.goto i .idle

end World

/-! ## What is claimed -/

/-- the key in a stored row names a blob that is there -/
def KeysExist (w : World ι) : Prop :=
  ∀ s row k, w.rows s = some row → objectKey s row = some k → (w.blobs k).isSome

/-- once an upload has succeeded there is a row -/
def UploadsStay (w : World ι) : Prop :=
  ∀ s row, Reply.uploaded s row ∈ w.replies → (w.rows s).isSome

/-- what was uploaded with a row -/
def IsContent (w : World ι) : Option String → Option Bytes → Prop
  | none, blob => blob = none
  | some k, blob => ∃ v, blob = some v ∧ (k, v) ∈ w.puts

/-- every read that began when the row existed returns a version that was present during the read, with its blob -/
def ReadsCurrent (w : World ι) : Prop :=
  ∀ s since upTo result, Reply.read s since upTo result ∈ w.replies →
    (∃ row, (w.versions s)[since]? = some (some row)) →
      ∃ n row blob, since ≤ n ∧ n ≤ upTo ∧ (w.versions s)[n]? = some (some row) ∧ result = .ok (some (row, blob)) ∧
        IsContent w (objectKey s row) blob

/-- the upload that a handler is about to put -/
def Phase.putting : Phase → Option Upload
  | .put upload => some upload
  | _ => none

/-- the blob that a handler is about to delete -/
def Phase.discards : Phase → Option String
  | .delete s row previous => previous.bind (discarded s row)
  | _ => none

/-- the blob that a read is about to fetch -/
def Phase.fetching : Phase → Option String
  | .fetch s _ row => objectKey s row
  | _ => none

/-- a blob is put under a key that was never used -/
def FreshKey (w : World ι) : Op ι → Prop
  | .advance i x => ∀ upload ∈ (w.handlers i).putting, ∀ k ∈ upload.key x.id, k ∉ w.puts.map Prod.fst
  | _ => True

/-- a blob is deleted while no read is about to fetch it -/
def NoReader (w : World ι) : Op ι → Prop
  | .advance i _ => ∀ k ∈ (w.handlers i).discards, ∀ j, (w.handlers j).fetching ≠ some k
  | _ => True

instance FreshKey.decidable (w : World ι) : ∀ o, Decidable (FreshKey w o)
  | .advance _ _ => inferInstanceAs (Decidable (∀ _ ∈ _, _))
  | .upload _ _ | .read _ _ | .fail _ => isTrue trivial

instance NoReader.decidable [Fintype ι] (w : World ι) : ∀ o, Decidable (NoReader w o)
  | .advance _ _ => inferInstanceAs (Decidable (∀ _ ∈ _, _))
  | .upload _ _ | .read _ _ | .fail _ => isTrue trivial

/-! ## Keys -/

section Keys

/-- some version of some row names the blob -/
def Published (w : World ι) (k : String) : Prop := ∃ s row, some row ∈ w.versions s ∧ objectKey s row = some k

/-- the present row names the blob -/
def Current (w : World ι) (s : Slot) (k : String) : Prop := ∃ row, w.rows s = some row ∧ objectKey s row = some k

/-- the blob of an upload that has not yet set its row -/
def Phase.pending : Phase → Option String
  | .select s row | .swap s row _ => objectKey s row
  | _ => none

/-- the row that an upload will replace, and its blob -/
def Phase.replaces : Phase → Option (Slot × String)
  | .swap s _ previous => (previous.bind (objectKey s)).map (s, ·)
  | _ => none

/-- what the keys in rows and handlers say about the blob store -/
structure KeyInv (w : World ι) : Prop where
  /-- the present row is the last version -/
  last : ∀ s, (w.versions s).getLast? = some (w.rows s)
  /-- rows are not removed -/
  kept : ∀ s row, some row ∈ w.versions s → (w.rows s).isSome
  /-- blobs are what was put -/
  stored : ∀ k v, w.blobs k = some v → (k, v) ∈ w.puts
  /-- a row is set only after its blob was put -/
  known : ∀ k, Published w k → k ∈ w.puts.map Prod.fst
  current : ∀ s k, Current w s k → (w.blobs k).isSome
  apart : ∀ s s' k, Current w s k → Current w s' k → s = s'
  /-- an upload has its blob to itself until it sets its row -/
  pending : ∀ i k, (w.handlers i).pending = some k → (w.blobs k).isSome ∧ ¬Published w k
  owner : ∀ i j k, (w.handlers i).pending = some k → (w.handlers j).pending = some k → i = j
  replaces : ∀ i s k, (w.handlers i).replaces = some (s, k) → Published w k ∧ ∀ s', Current w s' k → s' = s
  /-- what is deleted is named by no row any more -/
  discards : ∀ i k, (w.handlers i).discards = some k → Published w k ∧ ∀ s, ¬Current w s k

variable {w : World ι} {i : ι} {s : Slot} {row : Row s} {k : String}

lemma KeyInv.published (h : KeyInv w) (hk : Current w s k) : Published w k := by
  obtain ⟨row, hrow, hkey⟩ := hk
  exact ⟨s, row, hrow ▸ mem_of_getLast? (h.last s), hkey⟩

/-- a blob that is there was put -/
lemma KeyInv.put_of_isSome (h : KeyInv w) (hk : (w.blobs k).isSome) : k ∈ w.puts.map Prod.fst := by
  obtain ⟨v, hv⟩ := isSome_iff_exists.1 hk
  exact mem_map.2 ⟨(k, v), h.stored k v hv, rfl⟩

lemma KeyInv.start (users : List String) : KeyInv (World.start users : World ι) where
  last _ := rfl
  kept s row hmem := by simp [World.start] at hmem
  stored _ _ h := nomatch h
  known := by
    rintro k ⟨s, row, hmem, -⟩
    simp [World.start] at hmem
  current _ _ h := by simp [Current, World.start] at h
  apart _ _ _ h := by simp [Current, World.start] at h
  pending _ _ h := nomatch h
  owner _ _ _ h := nomatch h
  replaces _ _ _ h := nomatch h
  discards _ _ h := nomatch h

/-- putting a blob removes none -/
lemma isSome_putBlob (key : Option String) (blob : Option Bytes) (hk : (w.blobs k).isSome) :
    ((w.putBlob key blob).blobs k).isSome := by
  cases key <;> cases blob
  case some.some =>
    simp only [putBlob, update_apply]
    split_ifs
    · rfl
    · exact hk
  all_goals exact hk

/-- deleting a blob removes no other -/
lemma isSome_deleteBlob (hne : key ≠ some k) (hk : (w.blobs k).isSome) : ((w.deleteBlob key).blobs k).isSome := by
  cases key with
  | none => exact hk
  | some k' =>
    have hne' : k ≠ k' := fun heq => hne (congrArg some heq.symm)
    simpa only [deleteBlob, update_of_ne hne'] using hk

lemma KeyInv.putBlob (h : KeyInv w) (k : String) (v : Bytes) : KeyInv (w.putBlob (some k) (some v)) := by
  refine ⟨h.last, h.kept, fun k' v' hv => ?_, fun k' hk' => ?_, fun s k' hk' => isSome_putBlob _ _ (h.current s k' hk'),
    h.apart, fun j k' hj => ⟨isSome_putBlob _ _ (h.pending j k' hj).1, (h.pending j k' hj).2⟩, h.owner, h.replaces,
    h.discards⟩
  · simp only [World.putBlob, update_apply, mem_append, mem_singleton] at hv ⊢
    split_ifs at hv with heq
    · exact .inr (by rw [heq, some.inj hv])
    · exact .inl (h.stored k' v' hv)
  · exact map_subset _ (subset_append_left _ _) (h.known k' hk')

lemma published_setRow : Published (w.setRow s row) k ↔ Published w k ∨ objectKey s row = some k := by
  constructor
  · rintro ⟨s', row', hmem, hkey⟩
    rcases eq_or_ne s' s with rfl | hne
    · simp only [setRow, update_self, mem_append, mem_singleton, some.injEq] at hmem
      rcases hmem with hmem | rfl
      · exact .inl ⟨s', row', hmem, hkey⟩
      · exact .inr hkey
    · simp only [setRow, update_of_ne hne] at hmem
      exact .inl ⟨s', row', hmem, hkey⟩
  · rintro (⟨s', row', hmem, hkey⟩ | hkey)
    · refine ⟨s', row', ?_, hkey⟩
      rcases eq_or_ne s' s with rfl | hne
      · simp [setRow, hmem]
      · simpa only [setRow, update_of_ne hne] using hmem
    · exact ⟨s, row, by simp [setRow], hkey⟩

lemma current_setRow {s' : Slot} (hk : Current (w.setRow s row) s' k) :
    (s' = s ∧ objectKey s row = some k) ∨ (s' ≠ s ∧ Current w s' k) := by
  obtain ⟨row', hrow, hkey⟩ := hk
  rcases eq_or_ne s' s with rfl | hne
  · simp only [setRow, update_self, some.injEq] at hrow
    exact .inl ⟨rfl, hrow ▸ hkey⟩
  · simp only [setRow, update_of_ne hne] at hrow
    exact .inr ⟨hne, row', hrow, hkey⟩

/-- a row is set whose blob is there and which nobody else names -/
lemma KeyInv.setRow (h : KeyInv w) (s : Slot) (row : Row s)
    (hrow : ∀ k, objectKey s row = some k → (w.blobs k).isSome ∧ ¬Published w k ∧ ∀ j, (w.handlers j).pending ≠ some k) :
    KeyInv (w.setRow s row) where
  last s' := by
    rcases eq_or_ne s' s with rfl | hne
    · simp [World.setRow]
    · simpa only [World.setRow, update_of_ne hne] using h.last s'
  kept s' row' hmem := by
    rcases eq_or_ne s' s with rfl | hne
    · simp [World.setRow]
    · simp only [World.setRow, update_of_ne hne] at hmem ⊢
      exact h.kept s' row' hmem
  stored := h.stored
  known k hk := by
    rcases published_setRow.1 hk with hold | hnew
    · exact h.known k hold
    · exact h.put_of_isSome (hrow k hnew).1
  current s' k hk := by
    rcases current_setRow hk with ⟨-, hnew⟩ | ⟨-, hold⟩
    · exact (hrow k hnew).1
    · exact h.current s' k hold
  apart s₁ s₂ k h₁ h₂ := by
    -- the key of the new row is not published, so no other row has it
    rcases current_setRow h₁ with ⟨rfl, hnew⟩ | ⟨-, hold⟩ <;> rcases current_setRow h₂ with ⟨rfl, hnew'⟩ | ⟨-, hold'⟩
    · rfl
    · exact absurd (h.published hold') (hrow k hnew).2.1
    · exact absurd (h.published hold) (hrow k hnew').2.1
    · exact h.apart s₁ s₂ k hold hold'
  pending j k hj := by
    refine ⟨(h.pending j k hj).1, fun hk => ?_⟩
    rcases published_setRow.1 hk with hold | hnew
    · exact (h.pending j k hj).2 hold
    · exact (hrow k hnew).2.2 j hj
  owner := h.owner
  replaces j s₁ k hj := by
    obtain ⟨hpub, honly⟩ := h.replaces j s₁ k hj
    refine ⟨published_setRow.2 (.inl hpub), fun s' hk => ?_⟩
    rcases current_setRow hk with ⟨-, hnew⟩ | ⟨-, hold⟩
    · exact absurd hpub (hrow k hnew).2.1
    · exact honly s' hold
  discards j k hj := by
    obtain ⟨hpub, hnone⟩ := h.discards j k hj
    refine ⟨published_setRow.2 (.inl hpub), fun s' hk => ?_⟩
    rcases current_setRow hk with ⟨-, hnew⟩ | ⟨-, hold⟩
    · exact (hrow k hnew).2.1 hpub
    · exact hnone s' hold

/-- a blob is deleted that no row and no upload in progress needs -/
lemma KeyInv.deleteBlob (h : KeyInv w) (k : String) (hpub : Published w k) (hnone : ∀ s, ¬Current w s k) :
    KeyInv (w.deleteBlob (some k)) := by
  refine ⟨h.last, h.kept, fun k' v hv => ?_, h.known, fun s k' hk' => ?_, h.apart, fun j k' hj => ?_, h.owner, h.replaces,
    h.discards⟩
  · simp only [World.deleteBlob, update_apply] at hv
    split_ifs at hv with heq
    exact h.stored k' v hv
  · exact isSome_deleteBlob (fun heq => hnone s (some.inj heq ▸ hk')) (h.current s k' hk')
  · obtain ⟨hblob, hunpub⟩ := h.pending j k' hj
    exact ⟨isSome_deleteBlob (fun heq => hunpub (some.inj heq ▸ hpub)) hblob, hunpub⟩

variable [DecidableEq ι]

lemma handlers_goto (w : World ι) (i j : ι) (phase : Phase) :
    (w.goto i phase).handlers j = if j = i then phase else w.handlers j :=
  update_apply ..

/-- what a phase may say about keys in the present world, for the handler `i` -/
structure PhaseOk (w : World ι) (i : ι) (phase : Phase) : Prop where
  pending : ∀ k, phase.pending = some k →
    (w.blobs k).isSome ∧ ¬Published w k ∧ ∀ j, j ≠ i → (w.handlers j).pending ≠ some k
  replaces : ∀ s k, phase.replaces = some (s, k) → Published w k ∧ ∀ s', Current w s' k → s' = s
  discards : ∀ k, phase.discards = some k → Published w k ∧ ∀ s, ¬Current w s k

omit [DecidableEq ι] in
/-- a phase without keys -/
lemma PhaseOk.silent (hpending : phase.pending = none) (hreplaces : phase.replaces = none)
    (hdiscards : phase.discards = none) : PhaseOk w i phase where
  pending _ h := nomatch hpending.symm.trans h
  replaces _ _ h := nomatch hreplaces.symm.trans h
  discards _ h := nomatch hdiscards.symm.trans h

variable (h : KeyInv w) {previous : Option (Row s)}
include h

/-- a handler enters a phase whose keys are in order -/
lemma KeyInv.goto (hphase : PhaseOk w i phase) : KeyInv (w.goto i phase) where
  last := h.last
  kept := h.kept
  stored := h.stored
  known := h.known
  current := h.current
  apart := h.apart
  pending j k hj := by
    rw [handlers_goto] at hj
    split_ifs at hj with hji
    · exact ⟨(hphase.pending k hj).1, (hphase.pending k hj).2.1⟩
    · exact h.pending j k hj
  owner j j' k hj hj' := by
    rw [handlers_goto] at hj hj'
    split_ifs at hj hj' with h1 h2 h2
    · exact h1.trans h2.symm
    · exact absurd hj' ((hphase.pending k hj).2.2 j' h2)
    · exact absurd hj ((hphase.pending k hj').2.2 j h1)
    · exact h.owner j j' k hj hj'
  replaces j s k hj := by
    rw [handlers_goto] at hj
    split_ifs at hj with hji
    · exact hphase.replaces s k hj
    · exact h.replaces j s k hj
  discards j k hj := by
    rw [handlers_goto] at hj
    split_ifs at hj with hji
    · exact hphase.discards k hj
    · exact h.discards j k hj

/-- replies say nothing about keys -/
lemma KeyInv.answer (reply : Reply) : KeyInv (w.answer i reply) :=
  have hidle : PhaseOk w i .idle := .silent rfl rfl rfl
  have h' := h.goto hidle
  ⟨h'.last, h'.kept, h'.stored, h'.known, h'.current, h'.apart, h'.pending, h'.owner, h'.replaces, h'.discards⟩

/-- an upload sets its row -/
lemma KeyInv.advanceSwap (hi : w.handlers i = .swap s row previous) :
    KeyInv ((w.setRow s row).goto i (.delete s row previous)) := by
  -- before the row is set, the handler gives up its claim on the blob
  have hw : (w.setRow s row).goto i (.delete s row previous) =
      ((w.goto i .idle).setRow s row).goto i (.delete s row previous) := by
    simp [World.setRow, World.goto]
  have hown : ∀ k, objectKey s row = some k → (w.handlers i).pending = some k := fun k hk => by rw [hi]; exact hk
  have hset : KeyInv ((w.goto i .idle).setRow s row) := by
    refine (h.goto (PhaseOk.silent rfl rfl rfl)).setRow s row fun k hk => ?_
    refine ⟨(h.pending i k (hown k hk)).1, (h.pending i k (hown k hk)).2, fun j hj => ?_⟩
    rw [handlers_goto] at hj
    split_ifs at hj with hji
    · cases hj
    · exact hji (h.owner j i k hj (hown k hk))
  rw [hw]
  refine hset.goto ⟨nofun, nofun, fun k hk => ?_⟩
  obtain ⟨old, hold, hdisc⟩ := bind_eq_some_iff.1 hk
  have hrep : (w.handlers i).replaces = some (s, k) := by
    rw [hi, Phase.replaces, hold, bind_some, objectKey_of_discarded hdisc]
    rfl
  obtain ⟨hpub, honly⟩ := h.replaces i s k hrep
  refine ⟨published_setRow.2 (.inl hpub), fun s' hcur => ?_⟩
  rcases current_setRow hcur with ⟨-, hnew⟩ | ⟨hne, hcur'⟩
  · exact (h.pending i k (hown k hnew)).2 hpub
  · exact hne (honly s' hcur')

omit [DecidableEq ι] in
/-- an upload deletes the blob of the row that it replaced -/
lemma KeyInv.advanceDelete (hi : w.handlers i = .delete s row previous) :
    KeyInv (w.deleteBlob (previous.bind (discarded s row))) := by
  cases hk : previous.bind (discarded s row) with
  | none => exact h
  | some k =>
    obtain ⟨hpub, hnone⟩ := h.discards i k (by rw [hi]; exact hk)
    exact h.deleteBlob k hpub hnone

lemma KeyInv.step (o : Op ι) (hfresh : FreshKey w o) : KeyInv (w.step o) := by
  cases o with
  | upload | read =>
    simp only [World.step]
    split_ifs
    · exact h.goto (PhaseOk.silent rfl rfl rfl)
    · exact h
  | fail => exact h.goto (PhaseOk.silent rfl rfl rfl)
  | advance i x =>
    simp only [World.step, World.advance]
    split
    next => exact h
    next u hi =>
      -- an upload puts its blob under a new key
      have hfresh : ∀ k ∈ u.key x.id, k ∉ w.puts.map Prod.fst := hfresh u (by rw [hi]; rfl)
      cases hkey : u.key x.id with
      | none => exact h.goto (PhaseOk.silent ((u.objectKey_row ..).trans hkey) rfl rfl)
      | some k =>
        obtain ⟨v, hv⟩ := u.blob_of_key hkey
        rw [hv]
        refine (h.putBlob k v).goto ⟨fun k' hk' => ?_, nofun, nofun⟩
        obtain rfl : k = k' := some.inj (hkey.symm.trans ((u.objectKey_row ..).symm.trans hk'))
        refine ⟨by simp [World.putBlob], fun hpub => hfresh k hkey (h.known k hpub), fun j _ hj => ?_⟩
        exact hfresh k hkey (h.put_of_isSome (h.pending j k hj).1)
    next s row hi =>
      -- it reads the row that it will replace
      refine h.goto ⟨fun k hk => ?_, fun s' k hk => ?_, nofun⟩
      · have hik : (w.handlers i).pending = some k := by rw [hi]; exact hk
        exact ⟨(h.pending i k hik).1, (h.pending i k hik).2, fun j hne hj => hne (h.owner j i k hj hik)⟩
      · obtain ⟨k', hk', heq⟩ := map_eq_some_iff.1 hk
        obtain ⟨rfl, rfl⟩ := Prod.mk.inj heq
        have hcur : Current w s k' := bind_eq_some_iff.1 hk'
        exact ⟨h.published hcur, fun s' hs' => h.apart s' s k' hs' hcur⟩
    next s row previous hi =>
      split_ifs
      · exact h.answer _
      · exact h.advanceSwap hi
    next s row previous hi => exact (h.advanceDelete hi).answer _
    next s since hi =>
      split
      · exact h.answer _
      · exact h.goto (PhaseOk.silent rfl rfl rfl)
    next s since row hi => exact h.answer _

end Keys

/-! ## Reads -/

section Reads

/-- a change of the tables: they grow, blobs apart, and the handlers stay where they are -/
structure Grows (w w' : World ι) : Prop where
  handlers : w'.handlers = w.handlers
  replies : w'.replies = w.replies
  versions : ∀ s, w.versions s <+: w'.versions s
  rows : ∀ s, (w.rows s).isSome → (w'.rows s).isSome
  puts : w.puts ⊆ w'.puts

variable {w w' : World ι} {i : ι}

lemma Grows.refl (w : World ι) : Grows w w := ⟨rfl, rfl, fun _ => prefix_rfl, fun _ => id, List.Subset.refl _⟩

lemma Grows.putBlob (w : World ι) (key : Option String) (blob : Option Bytes) : Grows w (w.putBlob key blob) := by
  cases key <;> cases blob
  case some.some => exact ⟨rfl, rfl, fun _ => prefix_rfl, fun _ => id, subset_append_left _ _⟩
  all_goals exact .refl w

lemma Grows.deleteBlob (w : World ι) (key : Option String) : Grows w (w.deleteBlob key) := by
  cases key <;> exact ⟨rfl, rfl, fun _ => prefix_rfl, fun _ => id, List.Subset.refl _⟩

lemma Grows.setRow (w : World ι) (s : Slot) (row : Row s) : Grows w (w.setRow s row) := by
  refine ⟨rfl, rfl, fun s' => ?_, fun s' h => ?_, List.Subset.refl _⟩ <;> rcases eq_or_ne s' s with rfl | hne
  · simp [World.setRow]
  · simp [World.setRow, update_of_ne hne]
  · simp [World.setRow]
  · simpa only [World.setRow, update_of_ne hne] using h

variable {s : Slot} {n since : ℕ} {row : Row s}

lemma Grows.version (h : Grows w w') {row : Option (Row s)} (hn : (w.versions s)[n]? = some row) :
    (w'.versions s)[n]? = some row := by
  obtain ⟨t, ht⟩ := h.versions s
  obtain ⟨hlt, -⟩ := List.getElem?_eq_some_iff.1 hn
  rw [← ht, List.getElem?_append_left hlt, hn]

lemma Grows.content (h : Grows w w') {blob : Option Bytes} (hc : IsContent w key blob) : IsContent w' key blob := by
  cases key with
  | none => exact hc
  | some =>
    obtain ⟨v, hv, hmem⟩ := hc
    exact ⟨v, hv, h.puts hmem⟩

/-- an upload that has set its row has a row -/
def Phase.UploadOk (w : World ι) : Phase → Prop
  | .delete s _ _ => (w.rows s).isSome
  | _ => True

def Reply.UploadOk (w : World ι) : Reply → Prop
  | .uploaded s _ => (w.rows s).isSome
  | _ => True

structure UploadInv (w : World ι) : Prop where
  handlers : ∀ i, (w.handlers i).UploadOk w
  replies : ∀ reply ∈ w.replies, reply.UploadOk w

/-- a read holds a version that was present since it began, and its blob is there -/
def Phase.ReadOk (w : World ι) : Phase → Prop
  | .readRow s since => since < (w.versions s).length
  | .fetch s since row => (∀ k, objectKey s row = some k → (w.blobs k).isSome) ∧
      ∃ n, since ≤ n ∧ (w.versions s)[n]? = some (some row)
  | _ => True

/-- what a read returned is right -/
def Reply.ReadOk (w : World ι) : Reply → Prop
  | .read s since upTo result => since < (w.versions s).length ∧
      ((∃ row, (w.versions s)[since]? = some (some row)) →
        ∃ n row blob, since ≤ n ∧ n ≤ upTo ∧ (w.versions s)[n]? = some (some row) ∧ result = .ok (some (row, blob)) ∧
          IsContent w (objectKey s row) blob)
  | _ => True

structure ReadInv (w : World ι) : Prop where
  handlers : ∀ i, (w.handlers i).ReadOk w
  replies : ∀ reply ∈ w.replies, reply.ReadOk w

lemma UploadInv.start (users : List String) : UploadInv (start users : World ι) :=
  ⟨fun _ => trivial, nofun⟩

lemma ReadInv.start (users : List String) : ReadInv (start users : World ι) :=
  ⟨fun _ => trivial, nofun⟩

lemma UploadInv.grows (h : UploadInv w) (hgrows : Grows w w') : UploadInv w' where
  handlers j := by
    have hj := h.handlers j
    rw [hgrows.handlers]
    cases hphase : w.handlers j <;> rw [hphase] at hj
    case delete s row previous => exact hgrows.rows s hj
    all_goals trivial
  replies reply hmem := by
    have hreply := h.replies reply (hgrows.replies ▸ hmem)
    cases reply with
    | uploaded s => exact hgrows.rows s hreply
    | failed | read => trivial

/-- the tables change, and no blob goes that a read is about to fetch -/
lemma ReadInv.grows (h : ReadInv w) (hgrows : Grows w w')
    (hblobs : ∀ j k, (w.handlers j).fetching = some k → (w.blobs k).isSome → (w'.blobs k).isSome) : ReadInv w' where
  handlers j := by
    have hj := h.handlers j
    have hkeep := hblobs j
    rw [hgrows.handlers]
    cases hphase : w.handlers j <;> rw [hphase] at hj hkeep
    case readRow s since => exact Nat.lt_of_lt_of_le hj (hgrows.versions s).length_le
    case fetch s since row =>
      obtain ⟨hblob, n, hle, hn⟩ := hj
      exact ⟨fun k hk => hkeep k hk (hblob k hk), n, hle, hgrows.version hn⟩
    all_goals trivial
  replies reply hmem := by
    have hreply := h.replies reply (hgrows.replies ▸ hmem)
    cases reply with
    | read s =>
      obtain ⟨hlt, hok⟩ := hreply
      refine ⟨hlt.trans_le (hgrows.versions s).length_le, fun hrow => ?_⟩
      rw [hgrows.version (List.getElem?_eq_getElem hlt), ← List.getElem?_eq_getElem hlt] at hrow
      obtain ⟨n, row, blob, hle, hle', hn, hres, hc⟩ := hok hrow
      exact ⟨n, row, blob, hle, hle', hgrows.version hn, hres, hgrows.content hc⟩
    | failed | uploaded => trivial

/-- the present version is the present row -/
lemma KeyInv.version_present (h : KeyInv w) (s : Slot) : (w.versions s)[w.present s]? = some (w.rows s) := by
  rw [present, ← List.getLast?_eq_getElem?, h.last s]

lemma KeyInv.present_lt (h : KeyInv w) (s : Slot) : w.present s < (w.versions s).length :=
  (List.getElem?_eq_some_iff.1 (h.version_present s)).1

lemma le_present (hn : n < (w.versions s).length) : n ≤ w.present s := Nat.le_sub_one_of_lt hn

variable [DecidableEq ι] {reply : Reply}

lemma goto_rule {P : Phase → Prop} (h : ∀ j, P (w.handlers j)) (hphase : P phase) (j : ι) :
    P ((w.goto i phase).handlers j) := by
  rw [handlers_goto]
  split_ifs
  · exact hphase
  · exact h j

lemma UploadInv.goto (h : UploadInv w) (hphase : phase.UploadOk w) : UploadInv (w.goto i phase) where
  handlers := goto_rule h.handlers hphase
  replies := h.replies

lemma ReadInv.goto (h : ReadInv w) (hphase : phase.ReadOk w) : ReadInv (w.goto i phase) where
  handlers := goto_rule h.handlers hphase
  replies := h.replies

lemma UploadInv.answer (h : UploadInv w) (hreply : reply.UploadOk w) : UploadInv (w.answer i reply) where
  handlers := goto_rule h.handlers (show Phase.UploadOk w .idle from trivial)
  replies := forall_mem_append.2 ⟨h.replies, forall_mem_singleton.2 hreply⟩

lemma ReadInv.answer (h : ReadInv w) (hreply : reply.ReadOk w) : ReadInv (w.answer i reply) where
  handlers := goto_rule h.handlers (show Phase.ReadOk w .idle from trivial)
  replies := forall_mem_append.2 ⟨h.replies, forall_mem_singleton.2 hreply⟩

lemma UploadInv.step (h : UploadInv w) (o : Op ι) : UploadInv (w.step o) := by
  cases o with
  | upload | read =>
    simp only [World.step]
    split_ifs
    · exact h.goto trivial
    · exact h
  | fail =>
    simp only [World.step]
    exact h.goto trivial
  | advance i =>
    simp only [World.step, World.advance]
    split
    next => exact h
    next u hi => exact (h.grows (.putBlob w _ _)).goto trivial
    next s row hi => exact h.goto trivial
    next s row previous hi =>
      split_ifs
      · exact h.answer trivial
      · exact (h.grows (.setRow w s row)).goto (by simp [Phase.UploadOk, World.setRow])
    next s row previous hi =>
      have hset : (w.rows s).isSome := by simpa only [hi, Phase.UploadOk] using h.handlers i
      exact (h.grows (.deleteBlob w _)).answer ((Grows.deleteBlob w _).rows s hset)
    next s since hi =>
      split
      · exact h.answer trivial
      · exact h.goto trivial
    next s since row hi => exact h.answer trivial

lemma ReadInv.step (h : ReadInv w) (hkeys : KeyInv w) (o : Op ι) (hquiet : NoReader w o) : ReadInv (w.step o) := by
  cases o with
  | upload =>
    simp only [World.step]
    split_ifs
    · exact h.goto trivial
    · exact h
  | read i s =>
    simp only [World.step]
    split_ifs
    · exact h.goto (hkeys.present_lt s)
    · exact h
  | fail =>
    simp only [World.step]
    exact h.goto trivial
  | advance i =>
    simp only [World.step, World.advance]
    split
    next => exact h
    next u hi => exact (h.grows (.putBlob w _ _) fun j k _ hk => isSome_putBlob _ _ hk).goto trivial
    next s row hi => exact h.goto trivial
    next s row previous hi =>
      split_ifs
      · exact h.answer trivial
      · exact (h.grows (.setRow w s row) fun _ _ _ hk => hk).goto trivial
    next s row previous hi =>
      refine (h.grows (.deleteBlob w _) fun j k hfetch hk => ?_).answer trivial
      exact isSome_deleteBlob (fun heq => hquiet k (by rw [hi]; exact heq) j hfetch) hk
    next s since hi =>
      have hbegan : since < (w.versions s).length := by simpa only [hi, Phase.ReadOk] using h.handlers i
      split
      next hrow =>
        -- there was no row either when the read began
        refine h.answer ⟨hbegan, fun ⟨row, hversion⟩ => ?_⟩
        have hsome := hkeys.kept s row (mem_of_getElem? hversion)
        rw [hrow] at hsome
        cases hsome
      next row hrow =>
        exact h.goto ⟨fun k hk => hkeys.current s k ⟨row, hrow, hk⟩, w.present s, le_present hbegan,
          hrow ▸ hkeys.version_present s⟩
    next s since row hi =>
      -- the read returns its row and the blob of this row
      have hread : (Phase.fetch s since row).ReadOk w := hi ▸ h.handlers i
      obtain ⟨hblob, n, hle, hn⟩ := hread
      have hlt : n < (w.versions s).length := (List.getElem?_eq_some_iff.1 hn).1
      obtain ⟨blob, hres, hc⟩ : ∃ blob, w.fetched s row = .ok (some (row, blob)) ∧ IsContent w (objectKey s row) blob := by
        cases hkey : objectKey s row with
        | none => exact ⟨none, by rw [fetched, hkey], rfl⟩
        | some k =>
          obtain ⟨v, hv⟩ := isSome_iff_exists.1 (hblob k hkey)
          exact ⟨some v, by simp [fetched, hkey, hv], v, rfl, hkeys.stored k v hv⟩
      exact h.answer ⟨hle.trans_lt hlt, fun _ => ⟨n, row, blob, hle, le_present hlt, hn, hres, hc⟩⟩

end Reads

variable [DecidableEq ι]

/-- **Blobs can be read.** In every run with new keys, a stored row names a blob that is there, and a row is there once an
upload has succeeded. If no blob is deleted while a read has its row and is about to fetch the blob, every read that begins
when there is a row returns a row that was present during the read, with the blob that was uploaded for it. -/
theorem blobs_readable (users : List String) (ops : List (Op ι)) (hfresh : Legal World.step FreshKey (World.start users) ops) :
    KeysExist (run World.step (World.start users) ops) ∧ UploadsStay (run World.step (World.start users) ops) ∧
      (Legal World.step NoReader (World.start users) ops → ReadsCurrent (run World.step (World.start users) ops)) := by
  have hkeys : KeyInv (run step (start users) ops) :=
    run_inv KeyInv (fun _ o h ho => h.step o ho) ops (.start users) hfresh
  have hup : UploadInv (run step (start users) ops) :=
    run_inv_all UploadInv (fun _ o h => h.step o) ops (.start users)
  refine ⟨fun s row k hrow hk => hkeys.current s k ⟨row, hrow, hk⟩, fun s row hmem => hup.replies _ hmem, fun hquiet => ?_⟩
  have hreads : KeyInv (run step (start users) ops) ∧ ReadInv (run step (start users) ops) :=
    run_inv (fun w => KeyInv w ∧ ReadInv w) (fun _ o h ho => ⟨h.1.step o ho.1, h.2.step h.1 o ho.2⟩) ops
      ⟨.start users, .start users⟩ (hfresh.and hquiet)
  exact fun s since upTo result hmem => (hreads.2.replies _ hmem).2

/-! ## Two runs -/

namespace Sample

def advance (i : Bool) (steps : ℕ) (id : String) : List (Op Bool) := List.replicate steps (.advance i ⟨0, id⟩)

def upload (version : ℤ) (blob : Bytes) : Op Bool := .upload false (.backup "alice" "phone" version blob none)

def read : Op Bool := .read true (.backup "alice")

/-- two uploads, then a read -/
def oneAfterTheOther : List (Op Bool) :=
  upload 1 [1] :: advance false 4 "x" ++ upload 2 [2] :: advance false 4 "y" ++ read :: advance true 2 ""

/-- the second upload is between the two steps of the read -/
def between : List (Op Bool) :=
  upload 1 [1] :: advance false 4 "x" ++ read :: advance true 1 "" ++ upload 2 [2] :: advance false 4 "y" ++
    advance true 1 ""

def row (version : ℤ) (id : String) : BackupRow :=
  ⟨id, "phone", version, "backups/alice/" ++ id ++ ".bin", 1, none, 0⟩

lemma runs_state : Legal step FreshKey (start ["alice"]) oneAfterTheOther ∧
    Legal step NoReader (start ["alice"]) oneAfterTheOther ∧
    (run step (start ["alice"]) oneAfterTheOther).replies =
      [.uploaded (.backup "alice") (row 1 "x"), .uploaded (.backup "alice") (row 2 "y"),
        .read (.backup "alice") 2 2 (.ok (some (row 2 "y", some [2])))] ∧
    Legal step FreshKey (start ["alice"]) between ∧
    (run step (start ["alice"]) between).replies =
      [.uploaded (.backup "alice") (row 1 "x"), .uploaded (.backup "alice") (row 2 "y"),
        .read (.backup "alice") 1 2 (.error (.notFound "backup not found"))] ∧
    (run step (start ["alice"]) between).versions (.backup "alice") = [none, some (row 1 "x"), some (row 2 "y")] := by
  decide

end Sample

open StoredBlobs.Sample in
/-- the read returns what was uploaded last -/
theorem blobs_readable_oneAfterTheOther :
    Legal World.step FreshKey (World.start ["alice"]) oneAfterTheOther ∧
    (run World.step (World.start ["alice"]) oneAfterTheOther).replies =
      [.uploaded (.backup "alice") (row 1 "x"), .uploaded (.backup "alice") (row 2 "y"),
        .read (.backup "alice") 2 2 (.ok (some (row 2 "y", some [2])))] ∧
    KeysExist (run World.step (World.start ["alice"]) oneAfterTheOther) ∧
    ReadsCurrent (run World.step (World.start ["alice"]) oneAfterTheOther) := by
  obtain ⟨hfresh, hquiet, hreplies, -⟩ := runs_state
  obtain ⟨hkeys, -, hreads⟩ := blobs_readable ["alice"] oneAfterTheOther hfresh
  exact ⟨hfresh, hreplies, hkeys, hreads hquiet⟩

open StoredBlobs.Sample in
/-- at every moment of the read there is a backup, and the read finds none -/
theorem backup_lost :
    Legal World.step FreshKey (World.start ["alice"]) between ∧
    (run World.step (World.start ["alice"]) between).replies =
      [.uploaded (.backup "alice") (row 1 "x"), .uploaded (.backup "alice") (row 2 "y"),
        .read (.backup "alice") 1 2 (.error (.notFound "backup not found"))] ∧
    ¬ReadsCurrent (run World.step (World.start ["alice"]) between) := by
  obtain ⟨-, -, -, hfresh, hreplies, hversions⟩ := runs_state
  refine ⟨hfresh, hreplies, fun h => ?_⟩
  obtain ⟨n, found, blob, -, -, -, hres, -⟩ :=
    h (.backup "alice") 1 2 (.error (.notFound "backup not found")) (by rw [hreplies]; simp) ⟨row 1 "x", by rw [hversions]; rfl⟩
  cases hres

end PqMsg.Server.StoredBlobs
