/-
Registered identities and the identity log: registration, rotation and deletion with failures and retries
(`register_user` and `delete_account` in `handlers/identity.rs`, `rotate_confirm` in `handlers/prekeys.rs`).

Requests come one at a time, and a handler may stop between any two statements. `register_user` inserts the user, the device
and the first identity event in three statements that commit one by one. A retry finds the user and answers as if all three
were there; it also stores an ML-DSA key that the user did not have, without an event.

- `IdentityInv`: the identity of a user is the one of the last event, or the user has no event at all.
- `identities_logged`: after a registration or a rotation that has succeeded, the identity of the user is the one of the
  highest version, and the versions are 1 to n, in every run in which a registration that finds its own user also finds an
  event and an ML-DSA key.
- `registered_unlogged`: a registration that stops after its first statement, and its retry, which succeeds.
-/
import PqMsg.Server.IdentityLog

namespace PqMsg.Server

open Lib Function List Option World Key

variable {Secret ι : Type} [DecidableEq ι] {cfg : Config Secret} {next : Proc} {userId : String}
  {r : RegisterUserRequest} {atOnce : Bool} {w : World ι} {reply : Reply}

/-! ## What a registration claims -/

/-- the user's identity is the one of the event with the highest version, and the versions are 1 to n -/
def InLog (s : Snapshot) (userId : String) : Prop :=
  ∃ user event, s.view (.user userId) = some user ∧ event ∈ s.eventsOf userId ∧
    (∀ e ∈ s.eventsOf userId, e.version ≤ event.version) ∧ user.identity = event.identity ∧
    (s.eventsOf userId).map EventRow.version = List.range' 1 event.version

/-- the success of a registration or rotation of `userId` that no deletion has followed -/
def Reply.standing (userId : String) (before : Bool) : Reply → Bool
  | .registered u _ _ => u = userId ∨ before
  | .rotationConfirmed r _ _ _ => r.userId = userId ∨ before
  | .accountDeleted u => u ≠ userId ∧ before
  | _ => before

def standing (userId : String) (replies : List Reply) : Bool := replies.foldl (Reply.standing userId) false

lemma standing_append (userId : String) (replies : List Reply) (reply : Reply) :
    standing userId (replies ++ [reply]) = reply.standing userId (standing userId replies) := by
  simp [standing, foldl_append]

omit [DecidableEq ι] in
lemma Logged.inLog (h : Logged w userId) : InLog w.public userId := by
  obtain ⟨user, huser, hchain⟩ := h
  obtain ⟨event, hlast, hidentity⟩ := hchain.last
  have hversion := hchain.lastVersion hlast
  refine ⟨user, event, huser, mem_of_getLast? hlast, ?_, hidentity.symm, ?_⟩
  · intro e he
    have hmem : e.version ∈ List.range' 1 _ := hchain.versions ▸ mem_map_of_mem he
    rw [mem_range'_1] at hmem
    omega
  · rw [hversion]
    exact hchain.versions

abbrev Staged (w : World ι) (i : ι) (p : Proc) : Prop := ∃ stage, p.stage = some stage ∧ StageOk w i stage

structure IdentityInv (w : World ι) : Prop extends Consistent w where
  log : LogInv w
  solo : ∀ {i j}, w.procs i ≠ .idle → w.procs j ≠ .idle → i = j
  stage : ∀ i, ∃ stage, (w.procs i).stage = some stage ∧ StageOk w i stage
  answered : ∀ userId, standing userId w.replies → Logged w userId

namespace IdentityInv

variable {w w' : World ι} {i : ι}

omit [DecidableEq ι] in
lemma others (h : IdentityInv w) (hi : w.procs i ≠ .idle) : ∀ j ≠ i, w.procs j = .idle := by
  intro j hj
  by_contra hbusy
  exact hj (h.solo hbusy hi)

omit [DecidableEq ι] in
/-- a process that is idle holds nothing -/
lemma holdsNone (h : IdentityInv w) (hi : w.procs i = .idle) : w.tables.Holds i core fun _ => none := by
  obtain ⟨stage, hstage, hok⟩ := h.stage i
  rw [hi] at hstage
  cases hstage
  exact hok

variable (hothers : ∀ j ≠ i, w.procs j = .idle)
include hothers

/-- the parts of the invariant that are about the processes, after a step of `i` -/
lemma build (hlog : LogInv w') (hprocs : w'.procs = Function.update w.procs i next) (hc : Consistent w')
    (hholds : ∀ j ≠ i, w'.tables.Holds j core fun _ => none) (hstage : Staged w' i next)
    (hanswered : ∀ userId, standing userId w'.replies → Logged w' userId) : IdentityInv w' := by
  have hidle : ∀ j ≠ i, w'.procs j = .idle := by
    intro j hj
    rw [hprocs, update_of_ne hj]
    exact hothers j hj
  refine { toConsistent := hc, log := hlog, solo := ?_, stage := ?_, answered := hanswered }
  · intro j j' hj hj'
    have heq : ∀ {n}, w'.procs n ≠ .idle → n = i := fun {n} hn => by
      by_contra hne
      exact hn (hidle n hne)
    rw [heq hj, heq hj']
  · intro j
    by_cases hj : j = i
    · rw [hj, hprocs, update_self]
      exact hstage
    · rw [hidle j hj]
      exact ⟨.apart, rfl, hholds j hj⟩

variable (h : IdentityInv w)
include h

/-- a step of `i` that leaves the committed identities -/
lemma move (hlog : LogInv w') (hprocs : w'.procs = Function.update w.procs i next) (hsame : SameLog w w')
    (hholds : ∀ j ≠ i, w'.tables.Holds j core fun _ => none) (hstage : Staged w' i next)
    (hreplies : ∀ userId, standing userId w'.replies → Logged w userId) : IdentityInv w' :=
  build hothers hlog hprocs (hsame.consistent h.toConsistent) hholds hstage fun userId hu => hsame.logged (hreplies userId hu)

lemma goto (hlog : LogInv (w.goto i next)) (hstage : Staged w i next) : IdentityInv (w.goto i next) := by
  have hsame : SameLog w (w.goto i next) := sameLog_of h.log (fun _ _ => rfl) le_rfl
  obtain ⟨stage, hnext, hok⟩ := hstage
  exact h.move hothers hlog rfl hsame (fun j hj => h.holdsNone (hothers j hj))
    ⟨stage, hnext, hsame.stageOk le_rfl (fun _ hh => hh) hok⟩ h.answered

lemma stop (hreply : ∀ userId, reply.standing userId (standing userId w.replies) → Logged w userId) :
    IdentityInv (w.stop i reply) := by
  refine h.move hothers (h.log.stop i reply) rfl (sameLog_of h.log (fun _ _ => rfl) le_rfl)
    (fun j hj => (h.holdsNone (hothers j hj)).rollback_other hj) ⟨.apart, rfl, Store.rollback_holds _ _ _⟩ fun userId hu => ?_
  apply hreply
  rwa [World.stop, standing_append] at hu

lemma fail (error : AppError) : IdentityInv (w.stop i (.failed error)) :=
  h.stop hothers fun userId hu => h.answered userId hu

variable {stmt : Stmt} {tables : Tables ι}

/-- a statement on other tables -/
lemma spare (hspare : stmt.SparesCore)
    (hexec : w.tables.exec i stmt = .done tables) (hlog : LogInv ({ w with tables := tables.settle i atOnce }.goto i next))
    (hnone : atOnce = true → w.tables.Holds i core fun _ => none) (hstage : Staged w i next) :
    IdentityInv ({ w with tables := tables.settle i atOnce }.goto i next) := by
  have hcommitted : ∀ k, k.core → (tables.settle i atOnce).committed k = w.tables.committed k := by
    intro k hk
    rw [← done_committed hexec]
    cases atOnce with
    | false => rfl
    | true =>
      have hview := (done_spares hexec hspare (hnone rfl)).view hk
      rwa [getD_none] at hview
  have hholds : ∀ writes, w.tables.Holds i core writes → (tables.settle i atOnce).Holds i core writes := by
    intro writes hh
    cases atOnce with
    | false => exact done_spares hexec hspare hh
    | true =>
      refine (Store.commit_holds tables i core).congr fun k hk => ?_
      rw [eq_none_iff_forall_ne_some]
      intro row hrow
      have := (hnone rfl k hk row).1 ((hh k hk row).2 hrow)
      cases this
  have hsame : SameLog w ({ w with tables := tables.settle i atOnce }.goto i next) := sameLog_of h.log hcommitted le_rfl
  obtain ⟨stage, hnext, hok⟩ := hstage
  exact h.move hothers hlog rfl hsame (fun j hj => done_holds_other hexec hj (h.holdsNone (hothers j hj)) atOnce)
    ⟨stage, hnext, hsame.stageOk le_rfl hholds hok⟩ h.answered

/-- a statement on identities inside a transaction -/
lemma change (hexec : w.tables.exec i stmt = .done tables) (hlog : LogInv ({ w with tables := tables }.goto i next))
    (hstage : Staged ({ w with tables := tables }.goto i next) i next) :
    IdentityInv ({ w with tables := tables }.goto i next) :=
  h.move hothers hlog rfl (sameLog_of h.log (fun k _ => congrFun (done_committed hexec) k) le_rfl)
    (fun j hj => done_holds_other hexec hj (h.holdsNone (hothers j hj)) false) hstage h.answered

/-- the first statement of a registration: the user had no row, and therefore no events -/
lemma insertUser (hnone : w.tables.Holds i core fun _ => none)
    (hexec : w.tables.exec i (.insertUser r.userId r.row) = .done tables)
    (hlog : LogInv ({ w with tables := tables.settle i true }.goto i (.register r .insertDevice))) :
    IdentityInv ({ w with tables := tables.settle i true }.goto i (.register r .insertDevice)) := by
  have hholds := done_holds hexec hnone
  have hcommitted : ∀ k, k.core → (tables.settle i true).committed k =
      ((Stmt.insertUser r.userId r.row).writes (w.tables.view i) k).getD (w.tables.committed k) := by
    intro k hk
    rw [← done_committed hexec]
    have hview := hholds.view hk
    rwa [or_none] at hview
  have hself : (tables.settle i true).committed (.user r.userId) = some r.row := by
    rw [hcommitted (.user _) trivial]
    simp [Stmt.writes, onUser]
  have hrest : ∀ k, k.core → k ≠ .user r.userId → (tables.settle i true).committed k = w.tables.committed k := by
    intro k hk hne
    rw [hcommitted k hk]
    cases k with
    | user userId =>
      have : userId ≠ r.userId := fun heq => hne (by rw [heq])
      simp [Stmt.writes, onUser, this]
    | _ => rfl
  have habsent : w.tables.committed (.user r.userId) = none := by
    obtain ⟨-, -, hclash, -, -⟩ := exec_done hexec
    rw [← holds_view hnone (k := .user r.userId) trivial]
    simpa [Stmt.clashes] using hclash
  have hevents : ∀ userId, ({ w with tables := tables.settle i true }.goto i (.register r .insertDevice)).public.eventsOf
      userId = w.public.eventsOf userId := by
    intro userId
    have heq : ({ w with tables := tables.settle i true }.goto i (.register r .insertDevice)).public.events = w.public.events :=
      inOrder_congr fun id _ => hrest (.event id) trivial (by simp)
    rw [Snapshot.eventsOf, Snapshot.eventsOf, heq]
  have hnil : w.public.eventsOf r.userId = [] := (h.sound r.userId).absent habsent
  refine build hothers hlog rfl ⟨fun userId => ?_, fun {userId version id} hindex => ?_⟩
    (fun j hj => done_holds_other hexec hj (h.holdsNone (hothers j hj)) true)
    ⟨.created r none, rfl, Store.commit_holds _ _ _, ⟨⟨r.row, hself, rfl⟩, (hevents _).trans hnil⟩, by simp⟩ ?_
  · by_cases heq : userId = r.userId
    · subst heq
      exact ⟨fun hn => absurd (hself.symm.trans hn) (by simp), fun _ _ => .inl ((hevents _).trans hnil)⟩
    · exact (h.sound userId).congr (hrest _ trivial (by simpa using heq)) (hevents _)
  · have hindex' : w.tables.committed (.version userId version) = some id :=
      (hrest (.version userId version) trivial (by simp)).symm.trans hindex
    obtain ⟨event, hevent, heq⟩ := h.index hindex'
    exact ⟨event, (hrest (.event id) trivial (by simp)).trans hevent, heq⟩
  · intro userId hu
    have hlogged := h.answered userId hu
    have hne : userId ≠ r.userId := by
      rintro rfl
      obtain ⟨user, huser, -⟩ := hlogged
      rw [habsent] at huser
      cases huser
    exact hlogged.congr (hrest _ trivial (by simpa using hne)) (hevents _)

end IdentityInv

/-! ## Commits -/

section Commits

variable {w : World ι} {i : ι} {writes : Writes Row} (reply : Reply) (h : IdentityInv w) (hothers : ∀ j ≠ i, w.procs j = .idle)
include h hothers

lemma IdentityInv.commitEvent {id : ℕ} {event : EventRow}
    {user : UserRow} (hholds : w.tables.Holds i core writes) (hadds : AddsEvent w writes id event user)
    (hreply : ∀ u before, reply.standing u before = decide (event.userId = u ∨ before = true)) :
    IdentityInv (w.commit i reply) := by
  obtain ⟨hc, hlogged, hkeep⟩ := h.toConsistent.commitEvent reply hholds hadds
  refine build hothers (h.log.commit i reply) rfl hc (fun j hj => (h.holdsNone (hothers j hj)).commit_other hj)
    ⟨.apart, rfl, Store.commit_holds _ _ _⟩ fun u hu => ?_
  rw [commit, standing_append, hreply, decide_eq_true_eq] at hu
  by_cases heq : u = event.userId
  · rw [heq]
    exact hlogged
  · exact hkeep u heq (h.answered u (hu.resolve_left (Ne.symm heq)))

/-- a commit that deletes an account -/
lemma IdentityInv.commitDelete (hholds : w.tables.Holds i core ((Stmt.deleteUser userId).writes w.tables.committed)) :
    IdentityInv (w.commit i (.accountDeleted userId)) := by
  have hcommitted : ∀ k, k.core → (w.commit i (.accountDeleted userId)).tables.committed k =
      (w.tables.committed k).filter fun row => k.owner row ≠ userId := by
    intro k hk
    rw [commit_committed (.accountDeleted userId) hholds hk]
    simp only [Stmt.writes]
    cases w.tables.committed k with
    | none => rfl
    | some row => by_cases howner : k.owner row = userId <;> simp [Option.filter, howner]
  have hevents : ∀ u, (w.commit i (.accountDeleted userId)).public.eventsOf u =
      if u = userId then [] else w.public.eventsOf u := by
    intro u
    have heq : (w.commit i (.accountDeleted userId)).public.events = w.public.events.filter fun e => e.2.userId ≠ userId := by
      refine Eq.trans ?_ (inOrder_filter fun event : EventRow => event.userId ≠ userId)
      exact inOrder_congr fun id _ => hcommitted (.event id) trivial
    rw [Snapshot.eventsOf, Snapshot.eventsOf, heq, List.filter_filter]
    split_ifs with hu
    · rw [List.map_eq_nil_iff, List.filter_eq_nil_iff]
      intro e _
      simp [hu]
    · congr 1
      apply List.filter_congr
      intro e _
      by_cases he : e.2.userId = u <;> simp [he, hu]
  have huser : ∀ u, (w.commit i (.accountDeleted userId)).tables.committed (.user u) =
      if u = userId then none else w.tables.committed (.user u) := by
    intro u
    rw [hcommitted (.user u) trivial]
    cases w.tables.committed (.user u) with
    | none => simp
    | some => by_cases hu : u = userId <;> simp [Option.filter, owner, hu]
  refine build hothers (h.log.commit i _) rfl ⟨fun u => ?_, fun {u v n} hindex => ?_⟩
    (fun j hj => (h.holdsNone (hothers j hj)).commit_other hj) ⟨.apart, rfl, Store.commit_holds _ _ _⟩ fun u hu => ?_
  · by_cases hu : u = userId
    · exact ⟨fun _ => by rw [hevents, if_pos hu], fun _ _ => .inl (by rw [hevents, if_pos hu])⟩
    · exact (h.sound u).congr ((huser u).trans (if_neg hu)) ((hevents u).trans (if_neg hu))
  · rw [hcommitted (.version u v) trivial, Option.filter_eq_some_iff] at hindex
    obtain ⟨hindex, howner⟩ := hindex
    obtain ⟨event, hevent, hu, hv⟩ := h.index hindex
    refine ⟨event, ?_, hu, hv⟩
    have hne : event.userId ≠ userId := hu ▸ of_decide_eq_true howner
    rw [hcommitted (.event n) trivial, hevent]
    simp [Option.filter, owner, hne]
  · rw [commit, standing_append] at hu
    obtain ⟨hne, hbefore⟩ : userId ≠ u ∧ standing u w.replies = true := by simpa [Reply.standing] using hu
    exact (h.answered u hbefore).congr ((huser u).trans (if_neg hne.symm)) ((hevents u).trans (if_neg hne.symm))

end Commits

/-! ## Every step -/

section Turns

variable {w : World ι} {i : ι} (h : IdentityInv w)
include h

variable (hothers : ∀ j ≠ i, w.procs j = .idle) {stmt : Stmt}
include hothers

lemma IdentityInv.readTurn (hturn : w.turn cfg i = .read next) (hstage : Staged w i next) : IdentityInv (w.advance cfg i) := by
  have hlog := (advance_log cfg h.log i).1
  rw [advance, hturn] at hlog ⊢
  exact h.goto hothers hlog hstage

lemma IdentityInv.stopTurn (hturn : w.turn cfg i = .stop reply)
    (hreply : ∀ u, reply.standing u (standing u w.replies) → Logged w u) : IdentityInv (w.advance cfg i) := by
  rw [advance, hturn]
  exact h.stop hothers hreply

lemma IdentityInv.failTurn {error : AppError} (hturn : w.turn cfg i = .fail error) : IdentityInv (w.advance cfg i) :=
  h.stopTurn hothers hturn fun u hu => h.answered u hu

/-- a statement: what it does when it runs is left to the caller -/
lemma IdentityInv.writeTurn {onUnique : Option Proc} (hturn : w.turn cfg i = .write stmt atOnce next onUnique)
    (hunique : ∀ q ∈ onUnique, Staged w i q)
    (hdone : ∀ tables, w.tables.exec i stmt = .done tables → LogInv ({ w with tables := tables.settle i atOnce }.goto i next) →
      IdentityInv ({ w with tables := tables.settle i atOnce }.goto i next)) : IdentityInv (w.advance cfg i) := by
  have hlog := (advance_log cfg h.log i).1
  rw [advance, hturn] at hlog ⊢
  revert hlog
  exact write_rule (Q := fun w' => LogInv w' → IdentityInv w') (fun _ => h)
    (fun q hq hlog => h.goto hothers hlog (hunique q hq)) (fun _ => h.fail hothers _) hdone

/-- a statement on other tables, in a transaction or while nothing is held -/
lemma IdentityInv.spareTurn (hturn : w.turn cfg i = .write stmt atOnce next none) (hspare : stmt.SparesCore)
    (hnone : atOnce = true → w.tables.Holds i core fun _ => none) (hstage : Staged w i next) :
    IdentityInv (w.advance cfg i) :=
  h.writeTurn hothers hturn (by simp) fun _ hexec hlog => h.spare hothers hspare hexec hlog hnone hstage

end Turns

/-- a registration that finds its own user also finds an event and an ML-DSA key -/
def RetryFindsAll (w : World ι) (r : RegisterUserRequest) : Prop :=
  ∀ user ∈ w.tables.committed (.user r.userId), r.differs user = false →
    user.identityPqSigPub ≠ none ∧ w.public.eventsOf r.userId ≠ []

instance (w : World ι) (r : RegisterUserRequest) : Decidable (RetryFindsAll w r) :=
  inferInstanceAs (Decidable (∀ user ∈ w.tables.committed (.user r.userId), _))

section Handlers

variable {w : World ι} {i : ι} (h : IdentityInv w)
include h

lemma registerUser_identity {phase : RegisterPhase} (hp : w.procs i = .register r phase)
    (hok : phase = .selectExisting → RetryFindsAll w r) : IdentityInv (w.advance cfg i) := by
  have hothers := h.others (i := i) (by rw [hp]; simp)
  obtain ⟨stage, hstage, hs⟩ := h.stage i
  have hturn : w.turn cfg i = registerUser (w.snapshot i) r phase := by rw [turn, hp]; rfl
  rw [hp] at hstage
  cases phase with
  | insertUser =>
    cases hstage
    refine h.writeTurn hothers hturn ?_ fun tables hexec hlog => h.insertUser hothers hs hexec hlog
    intro q hq
    cases hq
    exact ⟨.apart, rfl, hs⟩
  | selectExisting =>
    cases hstage
    simp only [registerUser, snapshot] at hturn
    have hview : w.tables.view i (.user r.userId) = w.tables.committed (.user r.userId) := holds_view hs trivial
    cases huser : w.tables.committed (.user r.userId) with
    | none =>
      simp only [hview, huser] at hturn
      exact h.failTurn hothers hturn
    | some user =>
      simp only [hview, huser] at hturn
      by_cases hdiffers : r.differs user = true
      · rw [if_pos hdiffers] at hturn
        exact h.failTurn hothers hturn
      · obtain ⟨hpq, hevents⟩ := hok rfl user huser (by simpa using hdiffers)
        have hpq' : ¬user.identityPqSigPub.isNone = true := by simpa using hpq
        rw [if_neg hdiffers, if_neg hpq'] at hturn
        have hlogged : Logged w r.userId := by
          rcases (h.sound r.userId).stored user huser with hnil | hchain
          · exact absurd hnil hevents
          · exact ⟨user, huser, hchain⟩
        exact h.readTurn hothers hturn ⟨.logged r.userId, rfl, hs, hlogged⟩
  | upgradePq => cases hstage
  | relinkDevice =>
    cases hstage
    exact h.spareTurn hothers hturn (spares_core trivial) (fun _ => hs.1) ⟨.logged r.userId, rfl, hs⟩
  | relinked =>
    cases hstage
    refine h.stopTurn hothers hturn fun u hu => ?_
    by_cases heq : r.userId = u
    · rw [← heq]
      exact hs.2
    · exact h.answered u (by simpa [Reply.standing, heq] using hu)
  | insertDevice =>
    cases hstage
    exact h.spareTurn hothers hturn (spares_core trivial) (fun _ => hs.1) ⟨.created r none, rfl, hs⟩
  | takeEventId =>
    cases hstage
    have hlog := (advance_log cfg h.log i).1
    rw [advance, hturn] at hlog ⊢
    have hsame : SameLog w ((w.take .events).goto i (.register r (.insertEvent w.nextEvent))) :=
      sameLog_of h.log (fun _ _ => rfl) (Nat.le_succ w.nextEvent)
    refine h.move hothers hlog rfl hsame (fun j hj => h.holdsNone (hothers j hj)) ⟨.created r (some w.nextEvent), rfl,
      hsame.stageOk (Nat.le_succ w.nextEvent) (fun _ hh => hh) ⟨hs.1, hs.2.1, ?_⟩⟩ h.answered
    intro id hid
    cases hid
    exact fun id hid => h.log.committedBelow hid
  | insertEvent id =>
    cases hstage
    obtain ⟨hnone, hunlogged, habove⟩ := hs
    -- the index has no entry, since the user has no events
    have hfree : w.tables.view i (.version r.userId 1) = none := by
      rw [holds_view hnone (k := .version r.userId 1) trivial, eq_none_iff_forall_ne_some]
      intro n hn
      obtain ⟨event, hevent, hu, -⟩ := h.index hn
      have hmem : event ∈ w.public.eventsOf event.userId :=
        mem_map.2 ⟨(_, event), mem_filter.2 ⟨mem_events h.log hevent, by simp⟩, rfl⟩
      rw [hu, hunlogged.2] at hmem
      cases hmem
    refine h.writeTurn hothers hturn (by simp) fun tables hexec hlog => h.change hothers hexec hlog ?_
    have hsame : SameLog w ({ w with tables := tables }.goto i (.register r .commitEvent)) :=
      sameLog_of h.log (fun k _ => congrFun (done_committed hexec) k) le_rfl
    refine ⟨.logging r, rfl, id, ?_, hsame.unlogged hunlogged, hsame.above (habove id rfl), h.log.taken (i := i) (by rw [hp]; rfl)⟩
    refine (done_holds hexec hnone).congr fun k _ => ?_
    have hwrites : (Stmt.insertEvent id r.event true).writes (w.tables.view i) = onEvent id r.event := by
      simp only [Stmt.writes]
      rw [if_neg]
      simp [RegisterUserRequest.event, hfree]
    rw [hwrites, or_none]
  | commitEvent =>
    cases hstage
    obtain ⟨id, hholds, ⟨⟨user, huser, hidentity⟩, hnil⟩, habove, hlt⟩ := hs
    rw [advance, hturn]
    have hadds : AddsEvent w (onEvent id r.event) id r.event user := by
      refine ⟨fun _ => rfl, fun _ _ => rfl, fun _ _ => rfl, huser, hidentity, ?_, ?_, habove, hlt⟩
      · change List.map EventRow.version (w.public.eventsOf r.userId) = List.range' 1 (w.public.eventsOf r.userId).length
        rw [hnil]
        rfl
      · change 1 = (w.public.eventsOf r.userId).length + 1
        rw [hnil]
        rfl
    exact h.commitEvent _ hothers hholds hadds fun _ _ => rfl

lemma rotateInit_identity {r : RotateInitRequest} {phase : RotateInitPhase}
    (hp : w.procs i = .rotateInit r phase) : IdentityInv (w.advance cfg i) := by
  have hothers := h.others (i := i) (by rw [hp]; simp)
  obtain ⟨stage, hstage, hs⟩ := h.stage i
  have hturn : w.turn cfg i = rotateInit (w.snapshot i) r phase := by rw [turn, hp]; rfl
  rw [hp] at hstage
  cases hstage
  cases phase with
  | selectUser =>
    simp only [rotateInit] at hturn
    split at hturn
    · exact h.failTurn hothers hturn
    · split_ifs at hturn
      · exact h.failTurn hothers hturn
      · exact h.failTurn hothers hturn
      · exact h.readTurn hothers hturn ⟨.apart, rfl, hs⟩
  | insertChallenge =>
    exact h.spareTurn hothers hturn (spares_core trivial) (fun _ => hs) ⟨.apart, rfl, hs⟩
  | done => exact h.stopTurn hothers hturn fun u hu => h.answered u hu

lemma deleteAccount_identity {phase : DeletePhase} (hp : w.procs i = .deleteAccount userId phase) :
    IdentityInv (w.advance cfg i) := by
  have hothers := h.others (i := i) (by rw [hp]; simp)
  obtain ⟨stage, hstage, hs⟩ := h.stage i
  have hturn : w.turn cfg i = deleteAccount (w.snapshot i) userId phase := by rw [turn, hp]; rfl
  rw [hp] at hstage
  cases phase with
  | ensureUser =>
    cases hstage
    simp only [deleteAccount, ensureUserExists] at hturn
    split at hturn
    · exact h.failTurn hothers hturn
    · exact h.readTurn hothers hturn ⟨.apart, rfl, hs⟩
  | deleteUser =>
    cases hstage
    refine h.writeTurn hothers hturn (by simp) fun tables hexec hlog => h.change hothers hexec hlog ?_
    refine ⟨.deleting userId, rfl, ?_⟩
    have hcommitted : (tables.settle i false).committed = w.tables.committed := done_committed hexec
    refine (done_holds hexec hs).congr fun k hk => ?_
    simp [Stmt.writes, hcommitted, holds_view hs hk]
  | commit =>
    cases hstage
    rw [advance, hturn]
    exact h.commitDelete hothers hs

lemma rotateConfirm_identity {r : RotateConfirmRequest} {phase : RotateConfirmPhase}
    (hp : w.procs i = .rotateConfirm r phase) : IdentityInv (w.advance cfg i) := by
  have hothers := h.others (i := i) (by rw [hp]; simp)
  have hlog := (advance_log cfg h.log i).1
  have hstage := h.stage i
  rw [hp] at hstage
  suffices LogInv (w.advance cfg i) → IdentityInv (w.advance cfg i) from this hlog
  refine rotateConfirm_cases (P := fun w' => LogInv w' → IdentityInv w') h.toConsistent h.log hp hstage (fun _ => h)
    (fun error _ => h.fail hothers error) (fun w' phase' hstep hlog' => ?_) fun challenge newPq current version id _ hs _ => ?_
  · exact h.move hothers hlog' hstep.procs (hstep.sameLog h.log) (fun j hj => hstep.holds hj (h.holdsNone (hothers j hj)))
      hstep.stage (by rw [hstep.replies]; exact h.answered)
  · obtain ⟨writes, user, hholds, hadds⟩ := hs.addsEvent h.toConsistent
    exact h.commitEvent _ hothers hholds hadds fun _ _ => rfl

end Handlers

/-! ## Runs -/

def Request.onIdentity : Request → Bool
  | .register _ | .rotateInit _ | .rotateConfirm _ | .deleteAccount _ | .resetDevUserIdentity _ => true
  | _ => false

/-- one request at a time, of the kinds that change identities -/
def OneAtATime (w : World ι) : Op ι → Prop
  | .start _ request => (∀ j, (w.procs j).isIdle) ∧ request.onIdentity
  | _ => True

/-- a registration that looks at the user it has found -/
def Proc.retry : Proc → Option RegisterUserRequest
  | .register r .selectExisting => some r
  | _ => none

def LoggedRetry (w : World ι) : Op ι → Prop
  | .advance i => ∀ r ∈ (w.procs i).retry, RetryFindsAll w r
  | _ => True

instance [Fintype ι] (w : World ι) : (o : Op ι) → Decidable (OneAtATime w o)
  | .start _ _ => inferInstanceAs (Decidable ((∀ _, _) ∧ _))
  | .advance _ | .fail _ => isTrue trivial

instance (w : World ι) : (o : Op ι) → Decidable (LoggedRetry w o)
  | .advance _ => inferInstanceAs (Decidable (∀ r ∈ _, _))
  | .start _ _ | .fail _ => isTrue trivial

lemma start_stage {request : Request} (hon : request.onIdentity = true) (h : request.start cfg = .ok next) :
    next.stage = some .apart := by
  cases request <;> simp only [Request.start, Request.onIdentity] at h hon
  case register r | rotateInit r =>
    obtain ⟨-, -, h⟩ := bind_ok.1 h
    cases h
    rfl
  case rotateConfirm r | deleteAccount userId | resetDevUserIdentity userId =>
    cases h
    rfl
  all_goals cases hon

variable (cfg) in
lemma step_identity (h : IdentityInv w) (o : Op ι) (hone : OneAtATime w o) (hretry : LoggedRetry w o) :
    IdentityInv (w.step cfg o) := by
  cases o with
  | start i request =>
    obtain ⟨hidle, hon⟩ := hone
    have hothers : ∀ j ≠ i, w.procs j = .idle := fun j _ => isIdle_iff.1 (hidle j)
    have hlog := (step_log cfg h.log (.start i request)).1
    revert hlog
    refine start_rule (Q := fun w' => LogInv w' → IdentityInv w') (fun _ => h) (fun next hp hstart hlog => ?_)
      fun error _ _ hlog => ?_
    · exact h.goto hothers hlog ⟨.apart, start_stage hon hstart, h.holdsNone hp⟩
    · have hsame : SameLog w { w with replies := w.replies ++ [.failed error] } := sameLog_of h.log (fun _ _ => rfl) le_rfl
      refine h.move hothers hlog (update_eq_self i w.procs).symm hsame (fun j hj => h.holdsNone (hothers j hj))
        ⟨.apart, ?_, h.holdsNone (isIdle_iff.1 (hidle i))⟩ fun u hu => h.answered u ?_
      · rw [isIdle_iff.1 (hidle i)]
        rfl
      · rwa [standing_append] at hu
  | advance i =>
    change IdentityInv (w.advance cfg i)
    obtain ⟨stage, hstage, -⟩ := h.stage i
    cases hp : w.procs i with
    | idle =>
      rw [advance_idle hp]
      exact h
    | register r =>
      apply registerUser_identity h hp
      intro hphase
      exact hretry r (by rw [hp, hphase]; rfl)
    | rotateInit => exact rotateInit_identity h hp
    | rotateConfirm => exact rotateConfirm_identity h hp
    | deleteAccount => exact deleteAccount_identity h hp
    | publishPrekeys | linkDevice | retireDevice | bundle | reapStaleData =>
      rw [hp] at hstage
      cases hstage
  | fail i =>
    have hlog := (step_log cfg h.log (.fail i)).1
    have hsame : SameLog w (w.step cfg (.fail i)) := sameLog_of h.log (fun _ _ => rfl) le_rfl
    have hprocs : ∀ j ≠ i, (w.step cfg (.fail i)).procs j = w.procs j := fun j hj => update_of_ne hj _ _
    have hidle : (w.step cfg (.fail i)).procs i = .idle := update_self ..
    have hbusy : ∀ {j}, (w.step cfg (.fail i)).procs j ≠ .idle → w.procs j ≠ .idle := by
      intro j hj
      have hne : j ≠ i := fun heq => hj (heq ▸ hidle)
      rwa [hprocs j hne] at hj
    refine { toConsistent := hsame.consistent h.toConsistent, log := hlog, solo := fun hj hj' => h.solo (hbusy hj) (hbusy hj'),
             stage := fun j => ?_, answered := fun u hu => hsame.logged (h.answered u hu) }
    by_cases hj : j = i
    · rw [hj, hidle]
      exact ⟨.apart, rfl, Store.rollback_holds _ _ _⟩
    · rw [hprocs j hj]
      obtain ⟨stage, hstage, hs⟩ := h.stage j
      exact ⟨stage, hstage, hsame.stageOk le_rfl (fun _ hh => hh.rollback_other hj) hs⟩

omit [DecidableEq ι] in
lemma World.Started.identityInv (hw : w.Started) (hc : Consistent w) (hreplies : w.replies = []) : IdentityInv w := by
  refine { toConsistent := hc, log := hw.logInv, solo := fun {i _} hi _ => absurd (hw.idle i) hi, stage := fun i => ?_,
           answered := fun u hu => ?_ }
  · rw [hw.idle]
    refine ⟨.apart, rfl, fun k _ row => ?_⟩
    rw [hw.closed]
    simp
  · rw [hreplies] at hu
    cases hu

/-- **Registered identities are in the log**: one request at a time, with failures between any two statements, if a
registration that finds its own user also finds an event and an ML-DSA key -/
theorem identities_logged (w : World ι) (hw : w.Started) (hc : Consistent w) (hreplies : w.replies = []) (ops : List (Op ι))
    (hl : Legal (World.step cfg) (fun w o => OneAtATime w o ∧ LoggedRetry w o) w ops) (userId : String)
    (hsuccess : standing userId (run (World.step cfg) w ops).replies) : InLog (run (World.step cfg) w ops).public userId := by
  have hrun := run_inv IdentityInv (fun s o hs hok => step_identity cfg hs o hok.1 hok.2) ops (hw.identityInv hc hreplies) hl
  exact (hrun.answered userId hsuccess).inLog

/-- a registration and its retry -/
theorem identities_logged_retried :
    Legal (World.step Sample.config) (fun w o => OneAtATime w o ∧ LoggedRetry w o) World.empty
      (Sample.registered () "alice" 1 ++ Sample.registered () "alice" 1) ∧
    InLog (Sample.reach (Sample.registered () "alice" 1 ++ Sample.registered () "alice" 1)).public "alice" := by
  have hlegal : Legal (step Sample.config) (fun w o => OneAtATime w o ∧ LoggedRetry w o) empty
      (Sample.registered () "alice" 1 ++ Sample.registered () "alice" 1) := by
    decide +kernel
  exact ⟨hlegal, identities_logged empty empty_started empty_consistent rfl _ hlegal "alice" (by decide +kernel)⟩

/-- **A registration succeeds without an event.** The first try stops after the user is inserted; the retry finds the user and
answers. Its identity is in no event. -/
theorem registered_unlogged :
    let ops := [Op.start () (.register (Sample.registration "alice" 1)), .advance (), .fail ()] ++
      Sample.registered () "alice" 1
    standing "alice" (Sample.reach ops).replies = true ∧ (Sample.reach ops).public.events = [] ∧
      ¬InLog (Sample.reach ops).public "alice" := by
  have hevents : (Sample.reach ([Op.start () (.register (Sample.registration "alice" 1)), .advance (), .fail ()] ++
      Sample.registered () "alice" 1)).public.events = [] := by decide +kernel
  refine ⟨by decide +kernel, hevents, ?_⟩
  intro h
  obtain ⟨-, event, -, hmem, -⟩ := h
  rw [Snapshot.eventsOf, hevents] at hmem
  cases hmem

end PqMsg.Server
