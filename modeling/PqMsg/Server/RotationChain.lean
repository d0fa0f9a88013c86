/-
The chain of identity rotations of one user (`rotate_confirm` in `handlers/prekeys.rs`).

A confirmation reads the challenge and the user's current keys, checks the signatures, consumes the challenge, and only then
updates the user's row. The update waits for another confirmation that holds the row, but it does not look at the keys again:
two confirmations that have both read the keys of version v are accepted one after the other, the second as version v+2 with
signatures by the keys of version v. THREAT_MODEL.md describes a rotation as signed by both the current and the new keys.

- `RotationInv`: what each confirmation has checked and what it holds; at most one of them has updated the user.
- `rotation_chain`: every event that is added was accepted with signatures by the keys of the version before, and no challenge
  is confirmed twice, in every interleaving in which the keys that a confirmation has read are still stored when it updates
  the row.
- `rotation_forked`: two confirmations that overlap.
-/
import PqMsg.Server.Registration

namespace PqMsg.Server

open Lib Function List Option World

variable {Secret ι : Type} [DecidableEq ι]

/-! ## What is claimed of a run -/

/-- the challenge that a reply confirms -/
def Reply.confirms : Reply → Option String
  | .rotationConfirmed r _ _ _ => some r.challengeId
  | _ => none

/-- the event is the first one, or was accepted with signatures by the keys of the version before it -/
def AcceptedByPrevious (cfg : Config Secret) (w : World ι) (id : ℕ) (event : EventRow) : Prop :=
  ∃ r challenge newPq, .rotationConfirmed r challenge event.version id ∈ w.replies ∧
    event = rotationEvent r challenge newPq event.version ∧
    (event.version = 1 ∨ ∃ idBefore before pqBefore, w.tables.committed (.event idBefore) = some before ∧
      before.userId = event.userId ∧ before.version + 1 = event.version ∧ before.identityPqSigPub = some pqBefore ∧
      verifyRotation cfg r challenge newPq ⟨before.identitySigPub, pqBefore⟩ = .ok ())

/-! ## What a confirmation has checked and what it holds -/

structure ConfirmOk (cfg : Config Secret) (w : World ι) (userId : String) (i : ι) (r : RotateConfirmRequest)
    (phase : RotateConfirmPhase) : Prop where
  ofUser : r.userId = userId
  stage : ∃ stage, (Proc.rotateConfirm r phase).stage = some stage ∧ StageOk w i stage
  verified : ∀ x ∈ phase.checked, verifyRotation cfg r x.challenge x.newPq x.current = .ok ()
  fresh : phase.hasConsumed = false → w.tables.Holds i Key.isChallenge fun _ => none
  consumed : phase.hasConsumed = true →
    (∃ c : ChallengeRow, w.tables.Holds i Key.isChallenge (putChallenge r.challengeId c) ∧ c.consumed = true) ∧
      ∃ c : ChallengeRow, w.tables.committed (.challenge r.challengeId) = some c ∧ c.consumed = false
  stored : phase.holdsUser = true → ∀ x ∈ phase.checked, StoredKeys w userId x.current

/-- a process is idle, or a confirmation for the user -/
def ProcOk (cfg : Config Secret) (w : World ι) (userId : String) (i : ι) : Proc → Prop
  | .idle => (w.tables.Holds i Key.core fun _ => none) ∧ w.tables.Holds i Key.isChallenge fun _ => none
  | .rotateConfirm r phase => ConfirmOk cfg w userId i r phase
  | _ => False

structure RotationInv (cfg : Config Secret) (start : World ι) (userId : String) (w : World ι) : Prop extends Consistent w where
  log : LogInv w
  proc : ∀ i, ProcOk cfg w userId i (w.procs i)
  accepted : ∀ id event, w.tables.committed (.event id) = some event → start.tables.committed (.event id) = none →
    AcceptedByPrevious cfg w id event
  once : (w.replies.filterMap Reply.confirms).Nodup
  spent : ∀ c ∈ w.replies.filterMap Reply.confirms,
    ∃ row : ChallengeRow, w.tables.committed (.challenge c) = some row ∧ row.consumed = true

variable {cfg : Config Secret} {start w w' : World ι} {userId : String} {i : ι}

/-! ## Steps that commit nothing -/

omit [DecidableEq ι] in
/-- the other processes do not notice such a step -/
lemma Uncommitted.procOk (h : Uncommitted i w w') (hlog : LogInv w) {j : ι} (hj : j ≠ i) {p : Proc}
    (hok : ProcOk cfg w userId j p) : ProcOk cfg w' userId j p := by
  cases p with
  | idle => exact ⟨h.holds hj hok.1, h.holds hj hok.2⟩
  | rotateConfirm =>
    refine ⟨hok.ofUser, ?_, hok.verified, fun hf => h.holds hj (hok.fresh hf), fun hc => ?_, fun hu x hx => ?_⟩
    · obtain ⟨stage, hstage, hs⟩ := hok.stage
      exact ⟨stage, hstage, (h.sameLog hlog).stageOk h.next (fun _ hh => h.holds hj hh) hs⟩
    · obtain ⟨⟨c, hholds, hconsumed⟩, hbefore⟩ := hok.consumed hc
      rw [h.committed]
      exact ⟨⟨c, h.holds hj hholds, hconsumed⟩, hbefore⟩
    · have hstored := hok.stored hu x hx
      unfold StoredKeys at hstored ⊢
      rwa [h.committed]
  | _ => exact hok

lemma RotationInv.move (h : RotationInv cfg start userId w) (hlog : LogInv w') (hstep : Uncommitted i w w') {next : Proc}
    (hprocs : w'.procs = Function.update w.procs i next) (hi : ProcOk cfg w' userId i next) {rest : List Reply}
    (hreplies : w'.replies = w.replies ++ rest) (hrest : rest.filterMap Reply.confirms = []) :
    RotationInv cfg start userId w' := by
  have hconfirms : w'.replies.filterMap Reply.confirms = w.replies.filterMap Reply.confirms := by
    rw [hreplies, filterMap_append, hrest, append_nil]
  refine { toConsistent := (hstep.sameLog h.log).consistent h.toConsistent, log := hlog, proc := ?_, accepted := ?_,
           once := hconfirms ▸ h.once, spent := ?_ }
  · intro j
    by_cases hj : j = i
    · rw [hj, hprocs, update_self]
      exact hi
    · rw [hprocs, update_of_ne hj]
      exact hstep.procOk h.log hj (h.proc j)
  · intro id event hevent hnew
    rw [hstep.committed] at hevent
    obtain ⟨r, challenge, newPq, hreply, heq, hbefore⟩ := h.accepted id event hevent hnew
    refine ⟨r, challenge, newPq, ?_, heq, ?_⟩
    · rw [hreplies]
      exact mem_append_left _ hreply
    · rw [hstep.committed]
      exact hbefore
  · intro c hc
    rw [hconfirms] at hc
    rw [hstep.committed]
    exact h.spent c hc

lemma RotationInv.stop (h : RotationInv cfg start userId w) (i : ι) (error : AppError) :
    RotationInv cfg start userId (w.stop i (.failed error)) :=
  h.move (h.log.stop i _) (uncommitted_stop w i _) rfl ⟨Store.rollback_holds _ _ _, Store.rollback_holds _ _ _⟩ rfl rfl

/-- a confirmation goes on to another phase -/
lemma ConfirmOk.step {r : RotateConfirmRequest} {phase phase' : RotateConfirmPhase}
    (hok : ConfirmOk cfg w userId i r phase) (hstep : ConfirmStep cfg w w' i r phase phase')
    (hkeys : ∀ c pq current, phase = .updateUser c pq current →
      (∀ j row, w.tables.draft (.user r.userId) = some (j, row) → j = i) → StoredKeys w userId current) :
    ConfirmOk cfg w' userId i r phase' := by
  have hkept : ∀ {current}, StoredKeys w userId current → StoredKeys w' userId current := by
    intro current hstored
    unfold StoredKeys
    rwa [hstep.committed]
  refine ⟨hok.ofUser, hstep.stage, fun x hx => ?_, fun hf => ?_, fun hc => ?_, fun hu x hx => ?_⟩
  · rcases hstep.checks with heq | hverified
    · exact hok.verified x (heq ▸ hx)
    · exact hverified.2 x hx
  · rcases hstep.consumes with ⟨heq, hholds⟩ | ⟨-, hconsumed, -⟩
    · exact hholds _ (hok.fresh (heq ▸ hf))
    · rw [hconsumed] at hf
      cases hf
  · rw [hstep.committed]
    rcases hstep.consumes with ⟨heq, hholds⟩ | ⟨hbefore, -, c, hview, hunused, hholds⟩
    · obtain ⟨⟨c, hc', hconsumed⟩, hbefore⟩ := hok.consumed (heq ▸ hc)
      exact ⟨⟨c, hholds _ hc', hconsumed⟩, hbefore⟩
    · have hnone := hok.fresh hbefore
      have hcommitted : w.tables.committed (.challenge r.challengeId) = some c := by
        rw [hnone.view (k := Key.challenge r.challengeId) trivial] at hview
        exact hview
      exact ⟨⟨_, hholds hnone, rfl⟩, c, hcommitted, hunused⟩
  · rcases hstep.updates with heq | ⟨⟨y, -, hphase, hchecked⟩, hfree⟩
    · rcases hstep.checks with hchecked | hverified
      · exact hkept (hok.stored (heq ▸ hu) x (hchecked ▸ hx))
      · rw [hverified.1] at hu
        cases hu
    · rw [hchecked] at hx
      cases hx
      exact hkept (hkeys _ _ _ hphase hfree)

/-! ## Commits -/

section Commits

variable {r : RotateConfirmRequest} {phase : RotateConfirmPhase} {challenge : ChallengeRow} {newPq : PqSigPubKey}
  {current : SigKeys} {version id : ℕ}

section

omit [DecidableEq ι]

/-- a confirmation that has updated the user's row holds it -/
lemma ConfirmOk.holder (hok : ConfirmOk cfg w userId i r phase) (hholds : phase.holdsUser = true) :
    ∃ row, w.tables.draft (.user userId) = some (i, row) := by
  obtain ⟨stage, hstage, hs⟩ := hok.stage
  have hrotated : ∀ {identity version eventId}, StageOk w i (.rotated r.userId identity version eventId) →
      ∃ row, w.tables.draft (.user userId) = some (i, row) := by
    intro identity version eventId hs
    obtain ⟨user, hholds, -⟩ := hs
    exact ⟨some user, (hholds (.user userId) trivial _).2 (if_pos hok.ofUser.symm)⟩
  cases phase with
  | selectChallenge | selectUser | consume | updateUser => cases hholds
  | commit =>
    cases hstage
    obtain ⟨user, hholds, -⟩ := hs
    refine ⟨some user, (hholds (.user userId) trivial _).2 ?_⟩
    simp [onEvent, putUser, onUser, rotationEvent, hok.ofUser]
  | _ =>
    cases hstage
    exact hrotated hs

/-- the stages before the update -/
lemma ConfirmOk.quiet (hok : ConfirmOk cfg w userId i r phase) (hnot : phase.holdsUser = false) :
    (w.tables.Holds i Key.core fun _ => none) ∧
      ((Proc.rotateConfirm r phase).stage = some .apart ∨ (Proc.rotateConfirm r phase).stage = some (.present userId)) := by
  obtain ⟨stage, hstage, hs⟩ := hok.stage
  rw [← hok.ofUser]
  cases phase with
  | selectChallenge | selectUser =>
    cases hstage
    exact ⟨hs, .inl rfl⟩
  | consume | updateUser =>
    cases hstage
    exact ⟨hs.1, .inr rfl⟩
  | _ => cases hnot

/-- the last event of a user has the keys that are stored -/
lemma Consistent.previous (hc : Consistent w) (hstored : StoredKeys w userId current) :
    w.public.eventsOf userId = [] ∨ ∃ id before, w.tables.committed (.event id) = some before ∧ before.userId = userId ∧
      before.version = (w.public.eventsOf userId).length ∧ before.identitySigPub = current.identitySigPub ∧
      before.identityPqSigPub = some current.identityPqSigPub := by
  obtain ⟨user, huser, hsig, hpq⟩ := hstored
  rcases (hc.sound userId).stored user huser with hnil | hchain
  · exact .inl hnil
  · obtain ⟨before, hlast, hidentity⟩ := hchain.last
    have hversion := hchain.lastVersion hlast
    obtain ⟨⟨id, event⟩, hmem, heq⟩ := mem_map.1 (mem_of_getLast? hlast)
    obtain ⟨hmem, hu⟩ := mem_filter.1 hmem
    cases heq
    obtain ⟨-, hevent⟩ := mem_inOrder.1 hmem
    exact .inr ⟨id, event, hevent, of_decide_eq_true hu, hversion, (congrArg IdentityKeys.sig hidentity).trans hsig,
      (congrArg IdentityKeys.pqSig hidentity).trans hpq⟩

end

/-- another confirmation, after a commit by the one that holds the user's row -/
lemma ConfirmOk.commit_other {j : ι} (hother : ConfirmOk cfg w userId j r phase) (reply : Reply) (hj : j ≠ i)
    {row : Option UserRow} (hholder : w.tables.draft (.user userId) = some (i, row))
    (hpresent : (w.commit i reply).tables.committed (.user userId) ≠ none) :
    ConfirmOk cfg (w.commit i reply) userId j r phase := by
  have hnot : phase.holdsUser = false := by
    by_contra hu
    obtain ⟨row', hrow'⟩ := hother.holder (by simpa using hu)
    rw [hholder] at hrow'
    exact hj (congrArg Prod.fst (some.inj hrow')).symm
  obtain ⟨hnone, hstage⟩ := hother.quiet hnot
  have hnone' : (w.commit i reply).tables.Holds j Key.core fun _ => none := hnone.commit_other hj
  refine ⟨hother.ofUser, ?_, hother.verified, fun hf => (hother.fresh hf).commit_other hj, fun hc => ?_, fun hu => ?_⟩
  · rcases hstage with hstage | hstage
    · exact ⟨_, hstage, hnone'⟩
    · exact ⟨_, hstage, hnone', hpresent⟩
  · obtain ⟨⟨c, hholds, hconsumed⟩, before, hbefore, hunused⟩ := hother.consumed hc
    refine ⟨⟨c, hholds.commit_other hj, hconsumed⟩, before, ?_, hunused⟩
    -- it holds the row of its challenge, so that the commit leaves it
    have hdraft := (hholds (.challenge r.challengeId) trivial (some c)).2 (if_pos rfl)
    refine (Store.commit_committed_other fun row hrow => ?_).trans hbefore
    rw [hdraft] at hrow
    exact hj (congrArg Prod.fst (some.inj hrow))
  · rw [hnot] at hu
    cases hu

lemma RotationInv.commit (h : RotationInv cfg start userId w)
    (hp : w.procs i = .rotateConfirm r (.commit challenge newPq current version id)) :
    RotationInv cfg start userId (w.commit i (.rotationConfirmed r challenge version id)) := by
  have hok : ConfirmOk cfg w userId i r (.commit challenge newPq current version id) := by
    have := h.proc i
    rwa [hp] at this
  obtain ⟨row, hholder⟩ := hok.holder rfl
  obtain ⟨⟨c, hchallenge, hused⟩, before, hbefore, hunused⟩ := hok.consumed rfl
  obtain ⟨stage, hstage, hs⟩ := hok.stage
  cases hstage
  obtain ⟨writes, user, hholds, hadds⟩ := hs.addsEvent h.toConsistent
  have hofUser : (rotationEvent r challenge newPq version).userId = userId := hok.ofUser
  obtain ⟨hc, hlogged, -⟩ := h.toConsistent.commitEvent _ hholds hadds
  have hevents : ∀ id', (w.commit i (.rotationConfirmed r challenge version id)).tables.committed (.event id') =
      if id' = id then some (rotationEvent r challenge newPq version) else w.tables.committed (.event id') := by
    intro id'
    rw [commit_committed _ hholds (k := .event id') trivial, hadds.events]
    split_ifs <;> rfl
  have hkept : ∀ {id' event}, w.tables.committed (.event id') = some event →
      (w.commit i (.rotationConfirmed r challenge version id)).tables.committed (.event id') = some event := by
    intro id' event hevent
    rw [hevents, if_neg (Nat.ne_of_lt (hadds.above id' (by rw [hevent]; simp)))]
    exact hevent
  have hchallenges : ∀ c', (w.commit i (.rotationConfirmed r challenge version id)).tables.committed (.challenge c') =
      if c' = r.challengeId then some c else w.tables.committed (.challenge c') := by
    intro c'
    have hview := hchallenge.view (k := Key.challenge c') trivial
    simp only [putChallenge, onChallenge] at hview
    refine hview.trans ?_
    split_ifs <;> rfl
  have hconfirms : (w.commit i (.rotationConfirmed r challenge version id)).replies.filterMap Reply.confirms =
      w.replies.filterMap Reply.confirms ++ [r.challengeId] := by
    rw [World.commit, filterMap_append]
    rfl
  refine { toConsistent := hc, log := h.log.commit i _, proc := fun j => ?_, accepted := fun id' event hevent hnew => ?_,
           once := ?_, spent := fun c' hc' => ?_ }
  · by_cases hj : j = i
    · rw [hj, World.commit_self]
      exact ⟨Store.commit_holds _ _ _, Store.commit_holds _ _ _⟩
    · rw [World.commit_ne hj]
      have hother := h.proc j
      cases hpj : w.procs j with
      | idle =>
        rw [hpj] at hother
        exact ⟨hother.1.commit_other hj, hother.2.commit_other hj⟩
      | rotateConfirm =>
        rw [hpj] at hother
        refine ConfirmOk.commit_other hother _ hj hholder ?_
        obtain ⟨user', huser', -⟩ := hlogged
        rw [hofUser] at huser'
        rw [huser']
        simp
      | _ =>
        rw [hpj] at hother
        exact hother
  · rw [hevents] at hevent
    by_cases hid : id' = id
    · rw [if_pos hid] at hevent
      cases hevent
      subst hid
      refine ⟨r, challenge, newPq, ?_, rfl, ?_⟩
      · exact mem_append_right _ (mem_singleton.2 rfl)
      · -- the keys of the version before are those that are stored, and the signatures were checked with them
        have hnext : version = (w.public.eventsOf userId).length + 1 := hofUser ▸ hadds.next
        rcases h.toConsistent.previous (hok.stored rfl _ rfl) with hnil | ⟨idBefore, prior, hprior, hu, hv, hsig, hpq⟩
        · refine .inl ?_
          change version = 1
          rw [hnext, hnil]
          rfl
        · refine .inr ⟨idBefore, prior, current.identityPqSigPub, hkept hprior, hu.trans hofUser.symm, ?_, hpq, ?_⟩
          · rw [hv]
            exact hnext.symm
          · rw [hsig]
            exact hok.verified _ rfl
    · rw [if_neg hid] at hevent
      obtain ⟨r', challenge', newPq', hreply, heq, hprior⟩ := h.accepted id' event hevent hnew
      refine ⟨r', challenge', newPq', mem_append_left _ hreply, heq, ?_⟩
      rcases hprior with hone | ⟨idBefore, prior, pqBefore, hprior, hrest⟩
      · exact .inl hone
      · exact .inr ⟨idBefore, prior, pqBefore, hkept hprior, hrest⟩
  · rw [hconfirms, nodup_append]
    refine ⟨h.once, nodup_singleton _, fun c₁ h₁ c₂ h₂ heq => ?_⟩
    -- a challenge that was confirmed before is stored as consumed
    rw [mem_singleton.1 h₂] at heq
    obtain ⟨row, hrow, hconsumed⟩ := h.spent c₁ h₁
    rw [heq, hbefore] at hrow
    cases hrow
    rw [hunused] at hconsumed
    cases hconsumed
  · rw [hconfirms, mem_append, mem_singleton] at hc'
    rw [hchallenges]
    by_cases heq : c' = r.challengeId
    · exact ⟨c, if_pos heq, hused⟩
    · rw [if_neg heq]
      exact h.spent c' (hc'.resolve_right heq)

end Commits

/-! ## Runs -/

def Request.confirmsFor (userId : String) : Request → Bool
  | .rotateConfirm r => r.userId = userId
  | _ => false

/-- the only requests are confirmations for one user -/
def ConfirmsOnly (userId : String) : Op ι → Prop
  | .start _ request => request.confirmsFor userId
  | _ => True

/-- a confirmation that is about to update the user's row, and the keys it has read -/
def Proc.updating : Proc → Option (String × SigKeys)
  | .rotateConfirm r (.updateUser _ _ current) => some (r.userId, current)
  | _ => none

/-- the keys that a confirmation has read are still stored when it gets the row -/
def KeysUnchanged (w : World ι) : Op ι → Prop
  | .advance i => ∀ x ∈ (w.procs i).updating, w.tables.draft (.user x.1) = none → StoredKeys w x.1 x.2
  | _ => True

variable (cfg) in
lemma step_rotation (h : RotationInv cfg start userId w) (o : Op ι) (honly : ConfirmsOnly userId o)
    (hkeys : KeysUnchanged w o) : RotationInv cfg start userId (w.step cfg o) := by
  have hlog := (step_log cfg h.log o).1
  cases o with
  | start i request =>
    cases request <;> try cases honly
    case rotateConfirm r =>
      revert hlog
      refine start_rule (Q := fun w' => LogInv w' → RotationInv cfg start userId w') (fun _ => h)
        (fun next hp hstart hlog => ?_) fun error _ hstart => nomatch hstart
      cases hstart
      have hidle := h.proc i
      rw [hp] at hidle
      refine h.move hlog (uncommitted_goto w i _) rfl ?_ (append_nil _).symm rfl
      refine ⟨of_decide_eq_true honly, ⟨.apart, rfl, hidle.1⟩, fun x hx => ?_, fun _ => hidle.2, fun hc => ?_, fun hu => ?_⟩
      · cases hx
      · cases hc
      · cases hu
  | advance i =>
    change RotationInv cfg start userId (w.advance cfg i)
    change LogInv (w.advance cfg i) at hlog
    have hproc := h.proc i
    cases hp : w.procs i with
    | idle =>
      rw [advance_idle hp]
      exact h
    | rotateConfirm r phase =>
      rw [hp] at hproc
      have hok : ConfirmOk cfg w userId i r phase := hproc
      revert hlog
      refine rotateConfirm_cases (P := fun w' => LogInv w' → RotationInv cfg start userId w') h.toConsistent h.log hp hok.stage
        (fun _ => h) (fun error _ => h.stop i error) (fun w' phase' hstep hlog => ?_) fun c pq current version id hphase _ _ => ?_
      · refine h.move hlog hstep.toUncommitted hstep.procs (hok.step hstep fun c pq current hphase hfree => ?_)
          (hstep.replies.trans (append_nil _).symm) rfl
        subst hphase
        rw [← hok.ofUser]
        refine hkeys (r.userId, current) (by rw [hp]; rfl) ?_
        -- the confirmation holds nothing yet
        rw [eq_none_iff_forall_ne_some]
        intro x hx
        obtain ⟨j, row⟩ := x
        rw [hfree j row hx] at hx
        have := ((hok.quiet rfl).1 (.user r.userId) trivial row).1 hx
        cases this
      · exact h.commit (hphase ▸ hp)
    | _ =>
      rw [hp] at hproc
      exact hproc.elim
  | fail i =>
    refine h.move hlog ⟨rfl, fun j hj k row => ?_, le_rfl⟩ rfl ⟨Store.rollback_holds _ _ _, Store.rollback_holds _ _ _⟩
      (append_nil _).symm rfl
    change (w.tables.rollback i).draft k = some (j, row) ↔ _
    rw [Store.rollback_draft]
    exact and_iff_left hj

/-- **The chain of rotations**: in every interleaving of confirmations for one user, if the keys that a confirmation has read
are still stored when it updates the user's row, then each new event was accepted with signatures by the keys of the version
before it, and no challenge is confirmed twice -/
theorem rotation_chain (w : World ι) (hw : w.Started) (hc : Consistent w)
    (hreplies : w.replies.filterMap Reply.confirms = []) (userId : String) (ops : List (Op ι))
    (hl : Legal (World.step cfg) (fun w o => ConfirmsOnly userId o ∧ KeysUnchanged w o) w ops) :
    (∀ id event, (run (World.step cfg) w ops).tables.committed (.event id) = some event →
      w.tables.committed (.event id) = none → AcceptedByPrevious cfg (run (World.step cfg) w ops) id event) ∧
    ((run (World.step cfg) w ops).replies.filterMap Reply.confirms).Nodup := by
  have hinv : RotationInv cfg w userId w := by
    refine { toConsistent := hc, log := hw.logInv, proc := fun i => ?_, accepted := fun id event hevent hnew => ?_, once := ?_,
             spent := fun c hc' => ?_ }
    · rw [hw.idle]
      have hnone : ∀ P, w.tables.Holds i P fun _ => none := by
        intro P k _ row
        rw [hw.closed]
        simp
      exact ⟨hnone _, hnone _⟩
    · rw [hnew] at hevent
      cases hevent
    · rw [hreplies]
      exact nodup_nil
    · rw [hreplies] at hc'
      cases hc'
  have hrun := run_inv (RotationInv cfg w userId) (fun s o hs hok => step_rotation cfg hs o hok.1 hok.2) ops hinv hl
  exact ⟨hrun.accepted, hrun.once⟩

/-! ## Two confirmations of one user -/

namespace Sample

/-- a user and two challenges -/
def challenged : List (Op (Fin 2)) :=
  registered 0 "alice" 1 ++ initiated 0 "c1" "phone" 2 ++ initiated 0 "c2" "phone" 3

/-- the second confirmation has checked its signatures before the first one begins -/
def overlapping : List (Op (Fin 2)) :=
  [.start 1 (confirmation "c2" 1 3), .advance 1, .advance 1] ++ confirmed 0 "c1" 1 2 ++ List.replicate 11 (.advance 1)

lemma challenged_identityInv : IdentityInv (reach challenged) :=
  run_inv IdentityInv (fun _ o hs hok => step_identity config hs o hok.1 hok.2) challenged
    (empty_started.identityInv empty_consistent rfl)
    (by decide : Legal (step config) (fun w o => OneAtATime w o ∧ LoggedRetry w o) empty challenged)

lemma challenged_started : (reach challenged).Started := by
  refine started_of (reach_logInv challenged) (fun i => isIdle_iff.1 ?_) (by decide)
  revert i
  decide

end Sample

instance (userId : String) : (o : Op ι) → Decidable (ConfirmsOnly userId o)
  | .start _ _ => inferInstanceAs (Decidable (_ = _))
  | .advance _ | .fail _ => isTrue trivial

instance (w : World ι) : (o : Op ι) → Decidable (KeysUnchanged w o)
  | .advance _ => inferInstanceAs (Decidable (∀ x ∈ _, _ → _))
  | .start _ _ | .fail _ => isTrue trivial

/-- two confirmations, the second signed by the keys of the first -/
theorem rotation_chain_confirmed :
    let ops := Sample.confirmed 0 "c1" 1 2 ++ Sample.confirmed 1 "c2" 2 3
    let w := run (World.step Sample.config) (Sample.reach Sample.challenged) ops
    Legal (World.step Sample.config) (fun w o => ConfirmsOnly "alice" o ∧ KeysUnchanged w o)
      (Sample.reach Sample.challenged) ops ∧
    w.public.events.map (fun e => e.2.version) = [1, 2, 3] ∧
    (∀ id event, w.tables.committed (.event id) = some event →
      (Sample.reach Sample.challenged).tables.committed (.event id) = none → AcceptedByPrevious Sample.config w id event) := by
  have hlegal : Legal (step Sample.config) (fun w o => ConfirmsOnly "alice" o ∧ KeysUnchanged w o)
      (Sample.reach Sample.challenged) (Sample.confirmed 0 "c1" 1 2 ++ Sample.confirmed 1 "c2" 2 3) := by
    decide +kernel
  exact ⟨hlegal, by decide +kernel, (rotation_chain _ Sample.challenged_started Sample.challenged_identityInv.toConsistent
    (by decide) "alice" _ hlegal).1⟩

/-- the reply of a confirmation that added the event `id`, with signatures that verify under `keys` -/
def Reply.signedBy (cfg : Config Secret) (id : ℕ) (newPq : PqSigPubKey) (keys : SigKeys) : Reply → Bool
  | .rotationConfirmed r challenge _ id' => id' = id ∧ (verifyRotation cfg r challenge newPq keys).isOk
  | _ => false

/-- **The third version is not signed by the second.** The second confirmation has checked its signatures with the keys of
version 1; the first one makes its keys version 2, and the second one becomes version 3. -/
theorem rotation_forked :
    let w := run (World.step Sample.config) (Sample.reach Sample.challenged) Sample.overlapping
    (Sample.reach Sample.challenged).tables.committed (.event 3) = none ∧
    ∃ event, w.tables.committed (.event 3) = some event ∧ event.version = 3 ∧ ¬AcceptedByPrevious Sample.config w 3 event := by
  intro w
  have hlog : LogInv w := run_inv_all LogInv (fun _ o h => (step_log Sample.config h o).1) Sample.overlapping
    (Sample.reach_logInv Sample.challenged)
  have hthird : (w.tables.committed (.event 3)).map (fun e => (e.version, e.identityPqSigPub)) =
      some (3, some (.replicate 1952 3)) := by decide +kernel
  have hsecond : ∀ e ∈ w.public.events, e.2.version = 2 →
      e.2.identitySigPub = .replicate 32 2 ∧ e.2.identityPqSigPub = some (.replicate 1952 2) := by decide +kernel
  have hunsigned : ∀ reply ∈ w.replies,
      ¬reply.signedBy Sample.config 3 (.replicate 1952 3) ⟨.replicate 32 2, .replicate 1952 2⟩ := by decide +kernel
  obtain ⟨event, hevent, hkeys⟩ := map_eq_some_iff.1 hthird
  obtain ⟨hversion, hpq⟩ := Prod.mk.inj hkeys
  refine ⟨by decide, event, hevent, hversion, fun haccepted => ?_⟩
  obtain ⟨r, challenge, newPq, hreply, heq, hprevious⟩ := haccepted
  have hnewPq : newPq = .replicate 1952 3 := by
    rw [heq] at hpq
    exact some.inj hpq
  rcases hprevious with hone | ⟨id, before, pqBefore, hbefore, -, hnext, hpqBefore, hverify⟩
  · rw [hversion] at hone
    cases hone
  · have htwo : before.version = 2 := by
      rw [hversion] at hnext
      exact Nat.succ.inj hnext
    obtain ⟨hsig, hpq'⟩ := hsecond (id, before) (mem_events hlog hbefore) htwo
    rw [hpqBefore] at hpq'
    apply hunsigned _ hreply
    rw [hnewPq, hsig, some.inj hpq'] at hverify
    simp only [Reply.signedBy, hverify]
    rfl

end PqMsg.Server
