/-
The signatures in served prekey bundles (`publish_prekeys`, `load_bundle_response` and `rotate_confirm` in
`handlers/prekeys.rs`).

The signatures of prekeys are checked when they are uploaded, under the identity keys that are stored then. A bundle joins the
stored prekeys of a device with the identity keys that are stored when it is fetched. A rotation replaces the keys and deletes
the prekeys of all devices but the new one, which may be the device that had prekeys before; and an upload that has checked
its signatures may commit after the rotation.

- `PrekeyInv`: stored prekeys fit the stored keys of their user; what a transaction holds of both tables.
- `bundles_verify`: every bundle that is answered carries signatures that verify under its own identity keys, in every run in
  which a rotation leaves no prekeys of the user when it commits, and prekeys commit while the keys they were checked with
  are stored.
- `bundle_unverified`: a rotation that keeps the device, and an upload that commits after a rotation.
-/
import PqMsg.Server.IdentityLog

namespace PqMsg.Server

open Lib List Option World Store

variable {Secret ι : Type} [DecidableEq ι] {cfg : Config Secret} {stmt : Stmt} {p next : Proc}

/-! ## Prekeys that fit a user's keys -/

def BundleKeys.verify (cfg : Config Secret) (keys : BundleKeys) : Except AppError Unit :=
  verifyHybridPrekeySignatures cfg keys.identitySigPub keys.identityPqSigPub keys.signedPrekeyX25519Pub keys.sigOverSpk
    keys.pqSignedPrekeyPubMlkem768 keys.sigOverPqspk keys.pqSigOverSpk keys.pqSigOverPqspk

/-- prekeys with both ML-DSA signatures belong to a user with an ML-DSA key, and all signatures verify -/
def Fits (cfg : Config Secret) (user : UserRow) (prekeys : PrekeyRow) : Prop :=
  ∀ pqSigOverSpk ∈ prekeys.pqSigOverSpk, ∀ pqSigOverPqspk ∈ prekeys.pqSigOverPqspk, ∃ identityPq ∈ user.identityPqSigPub,
    verifyHybridPrekeySignatures cfg user.identitySigPub identityPq prekeys.signedPrekeyX25519Pub prekeys.sigOverSpk
      prekeys.pqSignedPrekeyPubMlkem768 prekeys.sigOverPqspk pqSigOverSpk pqSigOverPqspk = .ok ()

/-- every row of prekeys belongs to a user whose keys it fits -/
def StoredFit (cfg : Config Secret) (view : RowView) : Prop :=
  ∀ u d prekeys, view (.prekey u d) = some prekeys → ∃ user, view (.user u) = some user ∧ Fits cfg user prekeys

structure SameKeys (user user' : UserRow) : Prop where
  sig : user'.identitySigPub = user.identitySigPub
  pq : user'.identityPqSigPub = user.identityPqSigPub

lemma Fits.congr {user user' : UserRow} {prekeys : PrekeyRow} (h : Fits cfg user prekeys) (hsame : SameKeys user user') :
    Fits cfg user' prekeys := by
  intro pqSigOverSpk hs pqSigOverPqspk hp
  rw [hsame.sig, hsame.pq]
  exact h _ hs _ hp

/-- what the query of `load_bundle_response` lets through -/
lemma loadBundleKeys_verify {s : Snapshot} (h : StoredFit cfg s.view) {r : BundleRequest} {keys : BundleKeys}
    (hload : loadBundleKeys s r = .ok keys) : keys.verify cfg = .ok () := by
  unfold loadBundleKeys at hload
  split at hload
  · cases hload
  · rename_i deviceId user prekeys hrow
    unfold Snapshot.bundleRow at hrow
    obtain ⟨user', huser, hrow⟩ := bind_eq_some_iff.1 hrow
    obtain ⟨device, -, hrow⟩ := bind_eq_some_iff.1 hrow
    obtain ⟨prekeys', hprekeys, hrow⟩ := bind_eq_some_iff.1 hrow
    cases hrow
    split at hload
    · cases hload
    · cases hload
    · cases hload
    · rename_i hpq hspk hpqspk
      cases hload
      obtain ⟨owner, howner, hfits⟩ := h _ _ _ hprekeys
      obtain ⟨identityPq, hkey, hverify⟩ := hfits _ hspk _ hpqspk
      cases huser.symm.trans howner
      cases hpq.symm.trans hkey
      exact hverify

/-! ## Processes -/

def PublishPhase.current : PublishPhase → Option SigKeys
  | .selectUser => none
  | .upsertPrekeys current | .deleteOneTime current _ | .insertOneTime current _ _ | .insertTaken current _ _ _
  | .commit current => some current

/-- the prekeys are written -/
def PublishPhase.written : PublishPhase → Option SigKeys
  | .selectUser | .upsertPrekeys _ => none
  | .deleteOneTime current _ | .insertOneTime current _ _ | .insertTaken current _ _ _ | .commit current => some current

namespace Proc

/-- the user whose keys the process has replaced -/
def rotates : Proc → Option String
  | .rotateConfirm r phase => if phase.holdsUser then some r.userId else none
  | _ => none

/-- the prekeys that the process has written, and the keys it has checked them with -/
def publishes : Proc → Option (PublishPrekeysRequest × SigKeys)
  | .publishPrekeys r phase => phase.written.map fun current => (r, current)
  | _ => none

/-- the process changes users or prekeys in a transaction -/
def transacts : Proc → Bool
  | .rotateConfirm _ _ | .publishPrekeys _ _ | .retireDevice _ _ => true
  | _ => false

/-- no account is deleted, and signatures are checked -/
def Checked (cfg : Config Secret) : Proc → Prop
  | .publishPrekeys r phase => ∀ current ∈ phase.current, verifyPublished cfg r current = .ok ()
  | .bundle _ phase => ∀ keys ∈ phase.keys, keys.verify cfg = .ok ()
  | .deleteAccount _ _ => False
  | _ => True

end Proc

/-- a reply with a bundle has one that verifies -/
def Reply.Verified (cfg : Config Secret) : Reply → Prop
  | .bundle response => response.keys.verify cfg = .ok ()
  | _ => True

/-- the process goes on without a change to users or prekeys -/
structure GoesOn (cfg : Config Secret) (p next : Proc) : Prop where
  checked : next.Checked cfg
  transacts : next.transacts = p.transacts
  rotates : next.rotates = p.rotates
  publishes : next.publishes = p.publishes

/-- what a statement has to do with users and prekeys, depending on the process that runs it -/
def StmtOk (cfg : Config Secret) (p next : Proc) (atOnce : Bool) : Stmt → Prop
  | .insertUser _ _ | .upgradePq _ _ => atOnce = true ∧ GoesOn cfg p next
  | .rotateUser u _ _ _ _ => atOnce = false ∧ next.Checked cfg ∧ next.transacts = true ∧ p.rotates = none ∧
      next.rotates = some u ∧ next.publishes = p.publishes
  | .upsertPrekeys u _ row => atOnce = false ∧ next.Checked cfg ∧ next.transacts = true ∧ next.rotates = p.rotates ∧
      p.publishes = none ∧ ∃ r current, next.publishes = some (r, current) ∧ u = r.userId ∧ row = r.row
  | .touchUser _ | .movePrimary _ _ _ | .deletePrekeys _ _ => p.transacts = true ∧ GoesOn cfg p next
  | .deleteUser _ => False
  | _ => GoesOn cfg p next

def PrekeyTurn (cfg : Config Secret) (p : Proc) : Turn → Prop
  | .read next => GoesOn cfg p next
  | .take _ next => ∀ id, GoesOn cfg p (next id)
  | .write stmt atOnce next onUnique =>
    StmtOk cfg p next atOnce stmt ∧ (atOnce = true → p.transacts = false) ∧ ∀ q ∈ onUnique, GoesOn cfg p q
  | .commit reply | .stop reply => reply.Verified cfg

lemma PrekeyTurn.write (h : StmtOk cfg p next false stmt) : PrekeyTurn cfg p (.write stmt false next none) := by
  refine ⟨h, fun hn => ?_, fun q hq => ?_⟩
  · cases hn
  · cases hq

lemma PrekeyTurn.writeAtOnce (h : StmtOk cfg p next true stmt) (hp : p.transacts = false) :
    PrekeyTurn cfg p (.write stmt true next none) := by
  refine ⟨h, fun _ => hp, fun q hq => ?_⟩
  cases hq

variable (s : Snapshot) {row : Option UserRow} {view : RowView} {x : Option UserRow} {w : World ι}

lemma registerUser_prekeyTurn (r : RegisterUserRequest) (phase : RegisterPhase) :
    PrekeyTurn cfg (.register r phase) (registerUser s r phase) := by
  have hgo : ∀ phase', GoesOn cfg (.register r phase) (.register r phase') := fun _ => ⟨trivial, rfl, rfl, rfl⟩
  cases phase with
  | insertUser =>
    refine ⟨⟨rfl, hgo _⟩, fun _ => rfl, fun q hq => ?_⟩
    cases hq
    exact hgo _
  | selectExisting =>
    simp only [registerUser]
    split
    · trivial
    · split_ifs
      · trivial
      · exact hgo _
      · exact hgo _
  | upgradePq => exact .writeAtOnce ⟨rfl, hgo _⟩ rfl
  | relinkDevice | insertDevice => exact .writeAtOnce (hgo _) rfl
  | relinked => trivial
  | takeEventId => exact fun id => hgo _
  | insertEvent => exact .write (hgo _)
  | commitEvent => trivial

lemma rotateInit_prekeyTurn (r : RotateInitRequest) (phase : RotateInitPhase) :
    PrekeyTurn cfg (.rotateInit r phase) (rotateInit s r phase) := by
  have hgo : ∀ phase', GoesOn cfg (.rotateInit r phase) (.rotateInit r phase') := fun _ => ⟨trivial, rfl, rfl, rfl⟩
  cases phase with
  | selectUser =>
    simp only [rotateInit]
    split
    · trivial
    · split_ifs
      · trivial
      · trivial
      · exact hgo _
  | insertChallenge => exact .writeAtOnce (hgo _) rfl
  | done => trivial

lemma rotateConfirm_prekeyTurn (r : RotateConfirmRequest) (phase : RotateConfirmPhase) :
    PrekeyTurn cfg (.rotateConfirm r phase) (rotateConfirm cfg s r phase) := by
  have hgo : ∀ phase', phase'.holdsUser = phase.holdsUser → GoesOn cfg (.rotateConfirm r phase) (.rotateConfirm r phase') := by
    intro phase' heq
    refine ⟨trivial, rfl, ?_, rfl⟩
    simp [Proc.rotates, heq]
  cases phase with
  | selectChallenge =>
    simp only [rotateConfirm]
    split
    · trivial
    · split_ifs
      · trivial
      · split
        · trivial
        · exact hgo _ rfl
  | selectUser =>
    simp only [rotateConfirm]
    split
    · trivial
    · split
      · trivial
      · unfold Turn.check
        split
        · exact hgo _ rfl
        · trivial
  | consume =>
    simp only [rotateConfirm]
    split
    · trivial
    · exact .write (hgo _ rfl)
  | updateUser => exact .write ⟨rfl, trivial, rfl, rfl, rfl, rfl⟩
  | retireDevices | insertDevice | insertEvent => exact .write (hgo _ rfl)
  | deletePrekeys => exact .write ⟨rfl, hgo _ rfl⟩
  | deleteOneTime table =>
    cases table with
    | x25519 | mlkem768 => exact .write (hgo _ rfl)
  | selectVersion =>
    simp only [rotateConfirm]
    split_ifs
    · exact hgo _ rfl
    · trivial
  | takeEventId => exact fun id => hgo _ rfl
  | commit => trivial

lemma publishPrekeys_prekeyTurn (r : PublishPrekeysRequest) (phase : PublishPhase)
    (hchecked : (Proc.publishPrekeys r phase).Checked cfg) :
    PrekeyTurn cfg (.publishPrekeys r phase) (publishPrekeys cfg s r phase) := by
  have hgo : ∀ phase', phase'.current = phase.current → phase'.written = phase.written →
      GoesOn cfg (.publishPrekeys r phase) (.publishPrekeys r phase') := by
    intro phase' hcurrent hwritten
    refine ⟨fun current hc => hchecked current (hcurrent ▸ hc), rfl, rfl, ?_⟩
    simp [Proc.publishes, hwritten]
  cases phase with
  | selectUser =>
    simp only [publishPrekeys]
    split
    · trivial
    · split
      · trivial
      · unfold Turn.check
        split
        · rename_i hverify
          refine ⟨fun current hc => ?_, rfl, rfl, rfl⟩
          cases hc
          exact hverify
        · trivial
  | upsertPrekeys current => exact .write ⟨rfl, hchecked, rfl, rfl, rfl, r, current, rfl, rfl, rfl⟩
  | deleteOneTime current table =>
    cases table with
    | x25519 | mlkem768 => exact .write (hgo _ rfl rfl)
  | insertOneTime current x pq =>
    cases x with
    | nil =>
      cases pq with
      | nil => exact hgo _ rfl rfl
      | cons => exact fun id => hgo _ rfl rfl
    | cons => exact fun id => hgo _ rfl rfl
  | insertTaken current x pq =>
    cases x with
    | nil =>
      cases pq with
      | nil => exact hgo _ rfl rfl
      | cons => exact .write (hgo _ rfl rfl)
    | cons => exact .write (hgo _ rfl rfl)
  | commit => trivial

lemma linkDevice_prekeyTurn (r : LinkDeviceRequest) (phase : LinkPhase) :
    PrekeyTurn cfg (.linkDevice r phase) (linkDevice s r phase) := by
  have hgo : ∀ phase', GoesOn cfg (.linkDevice r phase) (.linkDevice r phase') := fun _ => ⟨trivial, rfl, rfl, rfl⟩
  cases phase with
  | ensureUser =>
    simp only [linkDevice, ensureUserExists]
    split
    · trivial
    · exact hgo _
  | insertDevice => exact .writeAtOnce (hgo _) rfl
  | done => trivial

lemma retireDevice_prekeyTurn (r : RetireRequest) (phase : RetirePhase) :
    PrekeyTurn cfg (.retireDevice r phase) (retireDevice s r phase) := by
  have hgo : ∀ phase', GoesOn cfg (.retireDevice r phase) (.retireDevice r phase') := fun _ => ⟨trivial, rfl, rfl, rfl⟩
  cases phase with
  | ensureUser =>
    simp only [retireDevice, ensureUserExists]
    split
    · trivial
    · exact hgo _
  | selectTarget =>
    simp only [retireDevice]
    split
    · trivial
    · split_ifs
      · exact hgo _
      · trivial
  | retireRow =>
    simp only [retireDevice]
    split
    · trivial
    · exact .write (hgo _)
  | selectRemaining => exact hgo _
  | touchUser replacement =>
    cases replacement with
    | some | none => exact .write ⟨rfl, hgo _⟩
  | movePrimary | deletePrekeys => exact .write ⟨rfl, hgo _⟩
  | deleteOneTime table =>
    cases table with
    | x25519 | mlkem768 => exact .write (hgo _)
  | commit => trivial

lemma loadBundleResponse_prekeyTurn (hfit : StoredFit cfg s.view) (r : BundleRequest) (phase : BundlePhase)
    (hchecked : (Proc.bundle r phase).Checked cfg) :
    PrekeyTurn cfg (.bundle r phase) (loadBundleResponse cfg s r phase) := by
  have hgo : ∀ phase', phase'.keys = phase.keys → GoesOn cfg (.bundle r phase) (.bundle r phase') :=
    fun phase' heq => ⟨fun keys hk => hchecked keys (heq ▸ hk), rfl, rfl, rfl⟩
  cases phase with
  | load =>
    simp only [loadBundleResponse]
    split
    · trivial
    · rename_i keys hload
      refine ⟨fun keys' hk => ?_, rfl, rfl, rfl⟩
      cases hk
      exact loadBundleKeys_verify hfit hload
  | countX | remainingX | remainingPq => exact hgo _ rfl
  | countPq =>
    simp only [loadBundleResponse]
    split_ifs
    · exact hgo _ rfl
    · exact hgo _ rfl
  | selectX | selectPq =>
    simp only [loadBundleResponse]
    split
    · exact hgo _ rfl
    · exact hgo _ rfl
  | markX | markPq => exact .write (hgo _ rfl)
  | commit response => exact hchecked response.keys rfl

lemma reapStaleData_prekeyTurn (now : ℕ) (phase : ReapPhase) :
    PrekeyTurn cfg (.reapStaleData now phase) (reapStaleData now phase) := by
  have hgo : ∀ phase', GoesOn cfg (.reapStaleData now phase) (.reapStaleData now phase') := fun _ => ⟨trivial, rfl, rfl, rfl⟩
  cases phase with
  | oneTime table =>
    cases table with
    | x25519 | mlkem768 => exact .writeAtOnce (hgo _) rfl
  | challenges => exact .writeAtOnce (hgo _) rfl
  | done => trivial

lemma turn_prekeyTurn {s : Snapshot} {p : Proc} (hchecked : p.Checked cfg)
    (hfit : p.rotates = none → p.publishes = none → StoredFit cfg s.view) : PrekeyTurn cfg p (p.turn cfg s) := by
  cases p with
  | idle => exact ⟨trivial, rfl, rfl, rfl⟩
  | register r phase => exact registerUser_prekeyTurn s r phase
  | rotateInit r phase => exact rotateInit_prekeyTurn s r phase
  | rotateConfirm r phase => exact rotateConfirm_prekeyTurn s r phase
  | deleteAccount => exact hchecked.elim
  | publishPrekeys r phase => exact publishPrekeys_prekeyTurn s r phase hchecked
  | linkDevice r phase => exact linkDevice_prekeyTurn s r phase
  | retireDevice r phase => exact retireDevice_prekeyTurn s r phase
  | bundle r phase => exact loadBundleResponse_prekeyTurn s (hfit rfl rfl) r phase hchecked
  | reapStaleData now phase => exact reapStaleData_prekeyTurn now phase

/-! ## Statements on users and prekeys -/

lemma update_same {cond : UserRow → Bool} {f : UserRow → UserRow} (h : update row cond f = some x)
    (hf : ∀ user, SameKeys user (f user)) : ∃ user user', row = some user ∧ x = some user' ∧ SameKeys user user' := by
  obtain ⟨user, hfilter, heq⟩ := map_eq_some_iff.1 h
  obtain ⟨hrow, -⟩ := filter_eq_some_iff.1 hfilter
  exact ⟨user, f user, hrow, heq.symm, hf user⟩

lemma writes_user {u : String} (h : stmt.writes view (.user u) = some x) : (∃ user, stmt = .insertUser u user ∧ x = some user) ∨
    (∃ pq user user', stmt = .upgradePq u pq ∧ view (.user u) = some user ∧ user.identityPqSigPub = none ∧ x = some user') ∨
    (∃ x25519 sig pq deviceId user', stmt = .rotateUser u x25519 sig pq deviceId ∧ x = some user') ∨
    stmt = .deleteUser u ∨
    (stmt = .touchUser u ∨ ∃ replacement retired, stmt = .movePrimary u replacement retired) ∧
      ∃ user user', view (.user u) = some user ∧ x = some user' ∧ SameKeys user user' := by
  cases stmt with
  | insertUser userId user =>
    simp only [Stmt.writes, onUser] at h
    split_ifs at h with heq
    subst heq
    exact .inl ⟨user, rfl, (some.inj h).symm⟩
  | upgradePq userId pq =>
    simp only [Stmt.writes, onUser] at h
    split_ifs at h with heq
    subst heq
    obtain ⟨user, hfilter, hx⟩ := map_eq_some_iff.1 h
    obtain ⟨hview, hnone⟩ := filter_eq_some_iff.1 hfilter
    exact .inr (.inl ⟨pq, user, _, rfl, hview, isNone_iff_eq_none.1 hnone, hx.symm⟩)
  | rotateUser =>
    simp only [Stmt.writes, onUser] at h
    split_ifs at h with heq
    subst heq
    obtain ⟨user, -, hx⟩ := map_eq_some_iff.1 h
    exact .inr (.inr (.inl ⟨_, _, _, _, _, rfl, hx.symm⟩))
  | touchUser =>
    simp only [Stmt.writes, onUser] at h
    split_ifs at h with heq
    subst heq
    exact .inr (.inr (.inr (.inr ⟨.inl rfl, update_same h fun _ => ⟨rfl, rfl⟩⟩)))
  | movePrimary =>
    simp only [Stmt.writes, onUser] at h
    split_ifs at h with heq
    subst heq
    exact .inr (.inr (.inr (.inr ⟨.inr ⟨_, _, rfl⟩, update_same h fun _ => ⟨rfl, rfl⟩⟩)))
  | deleteUser userId =>
    obtain ⟨-, row, -, howner⟩ := deleteUser_writes h
    change u = userId at howner
    subst howner
    exact .inr (.inr (.inr (.inl rfl)))
  | insertEvent =>
    simp only [Stmt.writes] at h
    split_ifs at h
    cases h
  | _ => cases h

lemma writes_prekey {u d : String} {x : Option PrekeyRow} (h : stmt.writes view (.prekey u d) = some x) :
    x = none ∧ ((∃ devices, stmt = .deletePrekeys u devices) ∨ stmt = .deleteUser u) ∨
      ∃ row, stmt = .upsertPrekeys u d row ∧ x = some row := by
  cases stmt with
  | upsertPrekeys userId deviceId row =>
    simp only [Stmt.writes, onPrekey] at h
    split_ifs at h with heq
    obtain ⟨rfl, rfl⟩ := heq
    exact .inr ⟨row, rfl, (some.inj h).symm⟩
  | deletePrekeys userId devices =>
    simp only [Stmt.writes, onPrekey] at h
    split_ifs at h with heq
    obtain ⟨rfl, -⟩ := heq
    obtain ⟨row, -, hx⟩ := map_eq_some_iff.1 h
    exact .inl ⟨hx.symm, .inl ⟨devices, rfl⟩⟩
  | deleteUser userId =>
    obtain ⟨hx, row, -, howner⟩ := deleteUser_writes h
    change u = userId at howner
    subst howner
    exact .inl ⟨hx, .inr rfl⟩
  | insertEvent =>
    simp only [Stmt.writes] at h
    split_ifs at h
    cases h
  | _ => cases h

/-! ## The invariant -/

/-- what a process may hold of the users: rows with the same keys, or with new ones of the user that it rotates -/
def UserDraftOk (w : World ι) (p : Proc) (u : String) (row : Option UserRow) : Prop :=
  p.transacts = true ∧ ∃ user', row = some user' ∧
    (p.rotates = some u ∨ ∃ user, w.tables.committed (.user u) = some user ∧ SameKeys user user')

/-- what a process may hold of the prekeys: deleted rows, or the ones that it publishes -/
def PrekeyDraftOk (p : Proc) (u : String) (row : Option PrekeyRow) : Prop :=
  p.transacts = true ∧
    (row = none ∨ ∃ r current, p.publishes = some (r, current) ∧ u = r.userId ∧ row = some r.row)

structure PrekeyInv (cfg : Config Secret) (w : World ι) : Prop where
  fit : StoredFit cfg w.tables.committed
  users : ∀ {i u row}, w.tables.draft (.user u) = some (i, row) → UserDraftOk w (w.procs i) u row
  prekeys : ∀ {i u d row}, w.tables.draft (.prekey u d) = some (i, row) → PrekeyDraftOk (w.procs i) u row
  checked : ∀ i, (w.procs i).Checked cfg
  replies : ∀ reply ∈ w.replies, reply.Verified cfg

/-- the transaction sees no prekeys of the user -/
def PrekeysGone (w : World ι) (i : ι) (userId : String) : Prop :=
  ∀ d, w.tables.view i (.prekey userId d) = none

section Steps

variable {w w' : World ι} {i : ι} {p next : Proc} {u : String}

omit [DecidableEq ι] in
lemma UserDraftOk.kept (h : UserDraftOk w p u row) (hcommitted : w'.tables.committed (.user u) = w.tables.committed (.user u))
    (htransacts : p.transacts = true → next.transacts = true) (hrotates : p.rotates = some u → next.rotates = some u) :
    UserDraftOk w' next u row := by
  obtain ⟨ht, user', hrow, hkeys⟩ := h
  refine ⟨htransacts ht, user', hrow, ?_⟩
  rcases hkeys with hr | ⟨user, huser, hsame⟩
  · exact .inl (hrotates hr)
  · exact .inr ⟨user, hcommitted.trans huser, hsame⟩

lemma PrekeyDraftOk.kept {row : Option PrekeyRow} (h : PrekeyDraftOk p u row)
    (htransacts : p.transacts = true → next.transacts = true)
    (hpublishes : ∀ x, p.publishes = some x → next.publishes = some x) : PrekeyDraftOk next u row := by
  obtain ⟨ht, hrow⟩ := h
  refine ⟨htransacts ht, ?_⟩
  rcases hrow with hnone | ⟨r, current, hp, hu, hrow⟩
  · exact .inl hnone
  · exact .inr ⟨r, current, hpublishes _ hp, hu, hrow⟩

variable (h : PrekeyInv cfg w) {reply : Reply} {tables : Tables ι}
include h

lemma PrekeyInv.checkedAfter (hnext : next.Checked cfg) : ∀ j, (Function.update w.procs i next j).Checked cfg :=
  (Function.forall_update_iff w.procs fun _ p => p.Checked cfg).2 ⟨hnext, fun j _ => h.checked j⟩

/-- a process goes on -/
lemma PrekeyInv.goto (hgo : GoesOn cfg (w.procs i) next) : PrekeyInv cfg (w.goto i next) := by
  refine ⟨h.fit, fun {j u row} hd => ?_, fun {j u d row} hd => ?_, h.checkedAfter hgo.checked, h.replies⟩
  · by_cases hj : j = i
    · subst hj
      rw [goto_self]
      exact (h.users hd).kept rfl (fun ht => hgo.transacts.trans ht) fun hr => hgo.rotates.trans hr
    · rw [goto_ne hj]
      exact h.users hd
  · by_cases hj : j = i
    · subst hj
      rw [goto_self]
      exact (h.prekeys hd).kept (fun ht => hgo.transacts.trans ht) fun x hx => hgo.publishes.trans hx
    · rw [goto_ne hj]
      exact h.prekeys hd

omit [DecidableEq ι] in
lemma PrekeyInv.take (sequence : Sequence) : PrekeyInv cfg (w.take sequence) := by
  cases sequence <;> exact ⟨h.fit, h.users, h.prekeys, h.checked, h.replies⟩

/-- a new request: its process holds nothing -/
lemma PrekeyInv.start (hp : w.procs i = .idle) (hnext : next.Checked cfg) : PrekeyInv cfg (w.goto i next) := by
  have hother : ∀ {j}, (w.procs j).transacts = true → j ≠ i := by
    intro j ht hj
    rw [hj, hp] at ht
    cases ht
  refine ⟨h.fit, fun {j u row} hd => ?_, fun {j u d row} hd => ?_, h.checkedAfter hnext, h.replies⟩
  · rw [goto_ne (hother (h.users hd).1)]
    exact h.users hd
  · rw [goto_ne (hother (h.prekeys hd).1)]
    exact h.prekeys hd

/-- the end of a transaction: the process holds nothing any more, and others hold what they held -/
lemma PrekeyInv.ended (hfit : StoredFit cfg w'.tables.committed) (hprocs : w'.procs = Function.update w.procs i next)
    (hnext : next.Checked cfg) (hdraft : ∀ k x, w'.tables.draft k = some x → w.tables.draft k = some x ∧ x.1 ≠ i)
    (hcommitted : ∀ k x, w.tables.draft k = some x → x.1 ≠ i → w'.tables.committed k = w.tables.committed k)
    (hreplies : ∀ reply ∈ w'.replies, reply.Verified cfg) : PrekeyInv cfg w' := by
  have hother : ∀ j ≠ i, w'.procs j = w.procs j := by
    intro j hj
    rw [hprocs, Function.update_of_ne hj]
  refine ⟨hfit, fun {j u row} hd => ?_, fun {j u d row} hd => ?_, hprocs ▸ h.checkedAfter hnext, hreplies⟩
  · obtain ⟨hd, hj⟩ := hdraft _ _ hd
    rw [hother j hj]
    exact (h.users hd).kept (hcommitted _ _ hd hj) id id
  · obtain ⟨hd, hj⟩ := hdraft _ _ hd
    rw [hother j hj]
    exact h.prekeys hd

omit [DecidableEq ι] in
lemma PrekeyInv.answered (hreply : reply.Verified cfg) : ∀ r ∈ w.replies ++ [reply], r.Verified cfg :=
  forall_mem_append.2 ⟨h.replies, forall_mem_singleton.2 hreply⟩

lemma PrekeyInv.stop (hreply : reply.Verified cfg) : PrekeyInv cfg (w.stop i reply) :=
  h.ended (i := i) h.fit rfl trivial (fun _ _ hd => rollback_draft.1 hd) (fun _ _ _ _ => rfl) (h.answered hreply)

lemma PrekeyInv.fail (i : ι) : PrekeyInv cfg (w.step cfg (.fail i)) :=
  h.ended (i := i) h.fit rfl trivial (fun _ _ hd => rollback_draft.1 hd) (fun _ _ _ _ => rfl) h.replies

/-- the rows that a transaction sees fit, if it leaves no prekeys of a user it rotates, and the keys are still stored with
which it has checked prekeys -/
lemma PrekeyInv.viewFit (hgone : ∀ u ∈ (w.procs i).rotates, PrekeysGone w i u)
    (hstored : ∀ x ∈ (w.procs i).publishes, StoredKeys w x.1.userId x.2) : StoredFit cfg (w.tables.view i) := by
  -- the keys of a user with prekeys are the committed ones
  have huser : ∀ {u user}, w.tables.committed (.user u) = some user → (w.procs i).rotates ≠ some u →
      ∃ user', w.tables.view i (.user u) = some user' ∧ SameKeys user user' := by
    intro u user hcommitted hnot
    rcases view_cases w.tables i (.user u) with ⟨row, hdraft, hview⟩ | ⟨-, hview⟩
    · obtain ⟨-, user', hrow, hkeys⟩ := h.users hdraft
      rcases hkeys with hr | ⟨user'', huser'', hsame⟩
      · exact absurd hr hnot
      · cases hcommitted.symm.trans huser''
        exact ⟨user', hview.trans hrow, hsame⟩
    · exact ⟨user, hview.trans hcommitted, rfl, rfl⟩
  intro u d prekeys hprekeys
  have hnot : (w.procs i).rotates ≠ some u := by
    intro hr
    rw [hgone u hr d] at hprekeys
    cases hprekeys
  rcases view_cases w.tables i (.prekey u d) with ⟨row, hdraft, hview⟩ | ⟨-, hview⟩
  · obtain ⟨-, hrow⟩ := h.prekeys hdraft
    rcases hrow with hnone | ⟨r, current, hp, hu, hrow⟩
    · rw [hview, hnone] at hprekeys
      cases hprekeys
    · rw [hview, hrow] at hprekeys
      cases hprekeys
      subst hu
      obtain ⟨user, hcommitted, hsig, hpq⟩ := hstored _ hp
      obtain ⟨user', huser', hsame⟩ := huser hcommitted hnot
      have hverify : verifyPublished cfg r current = .ok () := by
        have hchecked := h.checked i
        cases hproc : w.procs i with
        | publishPrekeys r' phase =>
          rw [hproc] at hp hchecked
          obtain ⟨current', hwritten, heq⟩ := map_eq_some_iff.1 hp
          cases heq
          apply hchecked
          cases phase <;> first | cases hwritten; done | exact hwritten
        | _ =>
          rw [hproc] at hp
          cases hp
      refine ⟨user', huser', Fits.congr (fun pqSigOverSpk hs pqSigOverPqspk hp => ?_) hsame⟩
      cases hs
      cases hp
      refine ⟨_, hpq, ?_⟩
      rw [hsig]
      exact hverify
  · rw [hview] at hprekeys
    obtain ⟨user, hcommitted, hfits⟩ := h.fit u d prekeys hprekeys
    obtain ⟨user', huser', hsame⟩ := huser hcommitted hnot
    exact ⟨user', huser', hfits.congr hsame⟩

lemma PrekeyInv.commit (hfit : StoredFit cfg (w.tables.view i)) (hreply : reply.Verified cfg) :
    PrekeyInv cfg (w.commit i reply) := by
  refine h.ended (i := i) hfit rfl trivial (fun _ _ hd => commit_draft.1 hd) (fun k x hd hx => ?_) (h.answered hreply)
  refine commit_committed_other fun row hrow => hx ?_
  rw [hd] at hrow
  exact congrArg Prod.fst (some.inj hrow)

omit h

lemma StmtOk.kept {atOnce : Bool} (h : StmtOk cfg p next atOnce stmt) :
    next.Checked cfg ∧ (p.transacts = true → next.transacts = true) ∧ (∀ u, p.rotates = some u → next.rotates = some u) ∧
      ∀ x, p.publishes = some x → next.publishes = some x := by
  have hgo : GoesOn cfg p next → next.Checked cfg ∧ (p.transacts = true → next.transacts = true) ∧
      (∀ u, p.rotates = some u → next.rotates = some u) ∧ ∀ x, p.publishes = some x → next.publishes = some x :=
    fun hgo => ⟨hgo.checked, fun ht => hgo.transacts.trans ht, fun u hr => hgo.rotates.trans hr,
      fun x hx => hgo.publishes.trans hx⟩
  cases stmt with
  | insertUser | upgradePq | touchUser | movePrimary | deletePrekeys => exact hgo h.2
  | rotateUser u =>
    obtain ⟨-, hchecked, ht, hnone, -, hpublishes⟩ := h
    refine ⟨hchecked, fun _ => ht, fun u hr => ?_, fun x hx => hpublishes.trans hx⟩
    rw [hnone] at hr
    cases hr
  | upsertPrekeys u =>
    obtain ⟨-, hchecked, ht, hrotates, hnone, -⟩ := h
    refine ⟨hchecked, fun _ => ht, fun u hr => hrotates.trans hr, fun x hx => ?_⟩
    rw [hnone] at hx
    cases hx
  | deleteUser => exact h.elim
  | _ => exact hgo h

/-- a row of a user that a statement in a transaction writes -/
lemma PrekeyInv.userWritten (h : PrekeyInv cfg w) (hok : StmtOk cfg (w.procs i) next false stmt)
    (hw : stmt.writes (w.tables.view i) (.user u) = some row) : UserDraftOk w next u row := by
  obtain ⟨-, htransacts, hrotates, -⟩ := hok.kept
  rcases writes_user hw with ⟨user, rfl, -⟩ | ⟨pq, -, -, rfl, -⟩ | ⟨_, _, _, _, user', rfl, hrow⟩ | rfl |
    ⟨hstmt, user, user', hview, hrow, hsame⟩
  · cases hok.1
  · cases hok.1
  · obtain ⟨-, -, ht, -, hr, -⟩ := hok
    exact ⟨ht, user', hrow, .inl hr⟩
  · exact hok.elim
  · have ht : (w.procs i).transacts = true := by
      rcases hstmt with rfl | ⟨_, _, rfl⟩
      · exact hok.1
      · exact hok.1
    refine ⟨htransacts ht, user', hrow, ?_⟩
    rcases view_cases w.tables i (.user u) with ⟨row', hdraft, hview'⟩ | ⟨-, hview'⟩
    · obtain ⟨-, user'', hrow', hkeys⟩ := h.users hdraft
      cases hview.symm.trans (hview'.trans hrow')
      rcases hkeys with hr | ⟨stored, hstored, hsame'⟩
      · exact .inl (hrotates u hr)
      · exact .inr ⟨stored, hstored, hsame.sig.trans hsame'.sig, hsame.pq.trans hsame'.pq⟩
    · exact .inr ⟨user, hview'.symm.trans hview, hsame⟩

/-- a statement in a transaction -/
lemma PrekeyInv.change (h : PrekeyInv cfg w) (hok : StmtOk cfg (w.procs i) next false stmt)
    (hexec : w.tables.exec i stmt = .done tables) :
    PrekeyInv cfg ({ w with tables := tables.settle i false }.goto i next) := by
  obtain ⟨hchecked, htransacts, hrotates, hpublishes⟩ := hok.kept
  have hcommitted : ∀ k, ({ w with tables := tables.settle i false }.goto i next).tables.committed k = w.tables.committed k :=
    fun k => congrFun (done_committed hexec) k
  refine ⟨?_, fun {j u row} hd => ?_, fun {j u d row} hd => ?_, h.checkedAfter hchecked, h.replies⟩
  · intro u d prekeys hprekeys
    rw [hcommitted] at hprekeys ⊢
    exact h.fit u d prekeys hprekeys
  · by_cases hj : j = i
    · subst hj
      rw [goto_self]
      rcases done_draft_cases hexec (.user u) with heq | ⟨row', hw, heq⟩
      · exact (h.users (heq.symm.trans hd)).kept (hcommitted _) htransacts (hrotates u)
      · cases heq.symm.trans hd
        exact (h.userWritten hok hw).kept (hcommitted _) id id
    · rw [goto_ne hj]
      exact (h.users ((done_draft_other hexec hj).1 hd)).kept (hcommitted _) id id
  · by_cases hj : j = i
    · subst hj
      rw [goto_self]
      rcases done_draft_cases hexec (.prekey u d) with heq | ⟨row', hw, heq⟩
      · exact (h.prekeys (heq.symm.trans hd)).kept htransacts hpublishes
      · cases heq.symm.trans hd
        rcases writes_prekey hw with ⟨hnone, ⟨devices, rfl⟩ | rfl⟩ | ⟨prekeys, rfl, hrow⟩
        · exact ⟨htransacts hok.1, .inl hnone⟩
        · exact hok.elim
        · obtain ⟨-, -, ht, -, -, r, current, hpublishes, hu, hr⟩ := hok
          exact ⟨ht, .inr ⟨r, current, hpublishes, hu, hrow.trans (congrArg some hr)⟩⟩
    · rw [goto_ne hj]
      exact h.prekeys ((done_draft_other hexec hj).1 hd)

/-- a statement that commits at once, of a process that holds nothing -/
lemma PrekeyInv.changeAtOnce (h : PrekeyInv cfg w) (hok : StmtOk cfg (w.procs i) next true stmt)
    (hnot : (w.procs i).transacts = false) (hexec : w.tables.exec i stmt = .done tables) :
    PrekeyInv cfg ({ w with tables := tables.settle i true }.goto i next) := by
  have husers : ∀ u row, w.tables.draft (.user u) ≠ some (i, row) := by
    intro u row hd
    have := (h.users hd).1
    rw [hnot] at this
    cases this
  have hprekeys : ∀ u d row, w.tables.draft (.prekey u d) ≠ some (i, row) := by
    intro u d row hd
    have := (h.prekeys hd).1
    rw [hnot] at this
    cases this
  refine h.ended (i := i) ?_ rfl hok.kept.1 (fun k x hd => ?_) (fun k x hd hx => ?_) h.replies
  · intro u d prekeys hview
    change tables.view i (.prekey u d) = some prekeys at hview
    have hstored : w.tables.committed (.prekey u d) = some prekeys := by
      rcases view_cases tables i (.prekey u d) with ⟨row, hd, -⟩ | ⟨-, heq⟩
      · rcases done_draft_cases hexec (.prekey u d) with hold | ⟨row', hw, -⟩
        · exact absurd (hold.symm.trans hd) (hprekeys u d row)
        · rcases writes_prekey hw with ⟨-, ⟨devices, rfl⟩ | rfl⟩ | ⟨row, rfl, -⟩
          · exact absurd hok.1 (by rw [hnot]; simp)
          · exact hok.elim
          · cases hok.1
      · rw [← done_committed hexec, ← heq]
        exact hview
    obtain ⟨user, huser, hfits⟩ := h.fit u d prekeys hstored
    have hseen : w.tables.view i (.user u) = some user := (view_unheld (husers u)).trans huser
    change ∃ user, tables.view i (.user u) = some user ∧ _
    rcases view_cases tables i (.user u) with ⟨row, hd, hown⟩ | ⟨-, heq⟩
    · rcases done_draft_cases hexec (.user u) with hold | ⟨row', hw, hnew⟩
      · exact absurd (hold.symm.trans hd) (husers u row)
      · cases hnew.symm.trans hd
        rcases writes_user hw with ⟨user', rfl, -⟩ | ⟨pq, legacy, user', rfl, hlegacy, hnone, hrow⟩ | ⟨_, _, _, _, _, rfl, -⟩ |
          rfl | ⟨rfl | ⟨_, _, rfl⟩, -⟩
        · -- a user with prekeys is there already
          obtain ⟨-, -, hclash, -⟩ := exec_done hexec
          simp only [Stmt.clashes, hseen] at hclash
          cases hclash
        · -- prekeys of a user without an ML-DSA key lack a signature
          refine ⟨user', hown.trans hrow, fun a ha b hb => ?_⟩
          obtain ⟨identityPq, hkey, -⟩ := hfits a ha b hb
          cases hseen.symm.trans hlegacy
          rw [hnone] at hkey
          cases hkey
        · cases hok.1
        · exact hok.elim
        all_goals exact absurd hok.1 (by rw [hnot]; simp)
    · exact ⟨user, heq.trans ((congrFun (done_committed hexec) _).trans huser), hfits⟩
  · obtain ⟨hd, hx⟩ := commit_draft.1 hd
    obtain ⟨j, row⟩ := x
    have : (tables.settle i false).draft k = some (j, row) := hd
    exact ⟨(done_draft_other hexec hx).1 this, hx⟩
  · obtain ⟨j, row⟩ := x
    have hd' : (tables.settle i false).draft k = some (j, row) := (done_draft_other hexec hx).2 hd
    change tables.draft k = some (j, row) at hd'
    refine (commit_committed_other fun row' hrow => hx ?_).trans (congrFun (done_committed hexec) k)
    rw [hd'] at hrow
    exact congrArg Prod.fst (some.inj hrow)

end Steps

/-! ## Runs -/

/-- a commit leaves prekeys that fit: a rotation leaves none of the user, and prekeys are published while the keys are stored
that they were checked with -/
def CommitsFitting (cfg : Config Secret) (w : World ι) : Op ι → Prop
  | .advance i => (w.turn cfg i).commits = true →
      (∀ u ∈ (w.procs i).rotates, PrekeysGone w i u) ∧ ∀ x ∈ (w.procs i).publishes, StoredKeys w x.1.userId x.2
  | _ => True

def Request.keepsUsers : Request → Bool
  | .deleteAccount _ | .resetDevUserIdentity _ => false
  | _ => true

/-- all requests but those that delete accounts -/
def KeepsUsers : Op ι → Prop
  | .start _ request => request.keepsUsers
  | _ => True

lemma start_checked {request : Request} {next : Proc} (hkeeps : request.keepsUsers = true)
    (h : request.start cfg = .ok next) : next.Checked cfg := by
  cases request <;> simp only [Request.start, Request.keepsUsers] at h hkeeps
  case register r | rotateInit r =>
    obtain ⟨-, -, h⟩ := bind_ok.1 h
    cases h
    trivial
  case publishPrekeys r =>
    obtain ⟨-, -, h⟩ := bind_ok.1 h
    cases h
    intro current hc
    cases hc
  case bundle r =>
    cases h
    intro keys hk
    cases hk
  case rotateConfirm r | linkDevice r | retireDevice r | reapStaleData now =>
    cases h
    trivial
  all_goals cases hkeeps

variable (cfg) in
lemma step_prekeys (h : PrekeyInv cfg w) (o : Op ι) (hkeeps : KeepsUsers o) (hfit : CommitsFitting cfg w o) :
    PrekeyInv cfg (w.step cfg o) := by
  cases o with
  | start =>
    exact start_rule h (fun next hp hstart => h.start hp (start_checked hkeeps hstart))
      fun error _ _ => ⟨h.fit, h.users, h.prekeys, h.checked, h.answered (show (Reply.failed error).Verified cfg from trivial)⟩
  | advance i =>
    change PrekeyInv cfg (w.advance cfg i)
    have hturn : PrekeyTurn cfg (w.procs i) (w.turn cfg i) := by
      refine turn_prekeyTurn (h.checked i) fun hr hp => h.viewFit (fun u hu => ?_) fun x hx => ?_
      · rw [hr] at hu
        cases hu
      · rw [hp] at hx
        cases hx
    unfold advance
    cases ht : w.turn cfg i with
    | read =>
      rw [ht] at hturn
      exact h.goto hturn
    | take sequence =>
      rw [ht] at hturn
      refine (h.take sequence).goto ?_
      rw [take_procs]
      exact hturn (w.sequence sequence)
    | write stmt atOnce =>
      rw [ht] at hturn
      obtain ⟨hok, honce, hunique⟩ := hturn
      refine write_rule h (fun q hq => h.goto (hunique q hq)) (h.stop trivial) fun tables hexec => ?_
      cases atOnce with
      | false => exact h.change hok hexec
      | true => exact h.changeAtOnce hok (honce rfl) hexec
    | commit =>
      rw [ht] at hturn
      obtain ⟨hgone, hstored⟩ := hfit (by rw [ht]; rfl)
      exact h.commit (h.viewFit hgone hstored) hturn
    | stop =>
      rw [ht] at hturn
      exact h.stop hturn
  | fail i => exact h.fail i

/-- **Served bundles verify**: in every run of all requests but deletions of accounts, interleaved at any statement and with
failures anywhere, in which a rotation leaves no prekeys of the user and prekeys commit while the keys they were checked with
are stored, every bundle carries signatures that verify under its own identity keys -/
theorem bundles_verify (w : World ι) (hw : w.Started) (hfit : StoredFit cfg w.tables.committed)
    (hreplies : w.replies = []) (ops : List (Op ι))
    (hl : Legal (World.step cfg) (fun w o => KeepsUsers o ∧ CommitsFitting cfg w o) w ops) (response : BundleResponse)
    (hserved : .bundle response ∈ (run (World.step cfg) w ops).replies) : response.keys.verify cfg = .ok () := by
  have hinv : PrekeyInv cfg w := by
    refine ⟨hfit, fun hd => ?_, fun hd => ?_, fun i => ?_, fun reply hr => ?_⟩
    · rw [hw.closed] at hd
      cases hd
    · rw [hw.closed] at hd
      cases hd
    · rw [hw.idle]
      trivial
    · rw [hreplies] at hr
      cases hr
  have hrun := run_inv (PrekeyInv cfg) (fun s o hs hok => step_prekeys cfg hs o hok.1 hok.2) ops hinv hl
  exact hrun.replies _ hserved

/-! ## Rotations and uploads of one device -/

def Key.prekeyOf (userId : String) : Key → Bool
  | .prekey u _ => u = userId
  | _ => false

lemma prekeysGone_iff {i : ι} {userId : String} :
    PrekeysGone w i userId ↔ ∀ k ∈ w.tables.keys, k.prekeyOf userId = true → (w.tables.view i k).isNone = true := by
  constructor
  · intro h k _ hk
    cases k with
    | prekey u d =>
      cases of_decide_eq_true hk
      exact isNone_iff_eq_none.2 (h d)
    | _ => cases hk
  · intro h d
    rw [eq_none_iff_forall_ne_some]
    intro row hrow
    have hnone := h _ (mem_keys_of_view hrow) (decide_eq_true rfl)
    rw [hrow] at hnone
    cases hnone

instance (w : World ι) (i : ι) (userId : String) : Decidable (PrekeysGone w i userId) :=
  decidable_of_iff' _ prekeysGone_iff

instance (cfg : Config Secret) (w : World ι) : (o : Op ι) → Decidable (CommitsFitting cfg w o)
  | .advance _ => inferInstanceAs (Decidable (_ → (∀ u ∈ _, _) ∧ ∀ x ∈ _, _))
  | .start _ _ | .fail _ => isTrue trivial

instance : (o : Op ι) → Decidable (KeepsUsers o)
  | .start _ _ => inferInstanceAs (Decidable (_ = _))
  | .advance _ | .fail _ => isTrue trivial

def Reply.served : Reply → Option BundleResponse
  | .bundle response => some response
  | _ => none

namespace Sample

/-- prekeys of a device, signed by `key` -/
def upload (deviceId : String) (key : UInt8) : Request :=
  .publishPrekeys ⟨"alice", deviceId, .replicate 32 0, .replicate 64 key, [], .replicate 64 key, .replicate 3309 key,
    .replicate 3309 key, [], []⟩

/-- `publish_prekeys` without one-time prekeys, from its first to its last step -/
def uploaded {ι : Type} (i : ι) (deviceId : String) (key : UInt8) : List (Op ι) :=
  .start i (upload deviceId key) :: List.replicate 6 (.advance i)

def fetched {ι : Type} (i : ι) : List (Op ι) := .start i (.bundle ⟨"alice", none⟩) :: List.replicate 6 (.advance i)

def rotated {ι : Type} (i : ι) (deviceId : String) : List (Op ι) := initiated i "c" deviceId 2 ++ confirmed i "c" 1 2

end Sample

omit [DecidableEq ι] in
lemma World.empty_storedFit : StoredFit cfg (World.empty : World ι).tables.committed := by
  intro u d prekeys h
  cases h

/-- a rotation to a new device, which then publishes its own prekeys -/
theorem bundles_verify_rotated :
    let ops := Sample.registered () "alice" 1 ++ Sample.uploaded () "phone" 1 ++ Sample.rotated () "tablet" ++
      Sample.uploaded () "tablet" 2 ++ Sample.fetched ()
    Legal (World.step Sample.config) (fun w o => KeepsUsers o ∧ CommitsFitting Sample.config w o) World.empty ops ∧
    ∃ response, .bundle response ∈ (Sample.reach ops).replies ∧ response.keys.verify Sample.config = .ok () := by
  intro ops
  have hlegal : Legal (step Sample.config) (fun w o => KeepsUsers o ∧ CommitsFitting Sample.config w o) empty
      ops := by decide +kernel
  have hserved : ((Sample.reach ops).replies.filterMap Reply.served).isEmpty = false := by decide +kernel
  obtain ⟨response, hresponse⟩ := exists_mem_of_ne_nil _ (isEmpty_eq_false_iff.1 hserved)
  obtain ⟨reply, hreply, heq⟩ := mem_filterMap.1 hresponse
  cases reply <;> cases heq
  exact ⟨hlegal, response, hreply, bundles_verify empty empty_started empty_storedFit rfl ops hlegal response hreply⟩

/-- **Bundles that do not verify.** A rotation that keeps the device keeps its prekeys; and prekeys that were checked before
the rotation are stored after it. -/
theorem bundle_unverified :
    (let ops := Sample.registered () "alice" 1 ++ Sample.uploaded () "phone" 1 ++ Sample.rotated () "phone" ++
      Sample.fetched ()
     ∃ response, .bundle response ∈ (Sample.reach ops).replies ∧ response.keys.verify Sample.config ≠ .ok ()) ∧
    let ops := Sample.registered false "alice" 1 ++ [.start true (Sample.upload "phone" 1), .advance true] ++
      Sample.rotated false "phone" ++ List.replicate 5 (.advance true) ++ Sample.fetched false
    ∃ response, .bundle response ∈ (Sample.reach ops).replies ∧ response.keys.verify Sample.config ≠ .ok () := by
  have hfind : ∀ {replies : List Reply}, (∃ response ∈ replies.filterMap Reply.served,
      (response.keys.verify Sample.config).isOk = false) →
      ∃ response, .bundle response ∈ replies ∧ response.keys.verify Sample.config ≠ .ok () := by
    intro replies h
    obtain ⟨response, hresponse, hfails⟩ := h
    obtain ⟨reply, hreply, heq⟩ := mem_filterMap.1 hresponse
    cases reply <;> cases heq
    refine ⟨response, hreply, fun hok => ?_⟩
    rw [hok] at hfails
    cases hfails
  exact ⟨hfind (by decide +kernel), hfind (by decide +kernel)⟩

end PqMsg.Server
