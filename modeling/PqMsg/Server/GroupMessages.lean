/-
Messages of a private group while its epochs change.

A message is checked against the latest epoch and then inserted, in two statements; it is fetched with an active credential,
and only the messages of the credential's epoch are returned. So a message gets lost for a member who stays in the group in
two ways: its epoch ends between the check and the insertion, or its epoch ends before the member has fetched it.

- `fetchable_iff`: when a fetch returns a message.
- `step_cases`: what a step can do to messages, credentials and states.
- `messages_survive`: if neither happens (`inTime`), every message that was accepted has been fetched or can be fetched, by
  every member who has a credential of its epoch and of all later ones.
- `message_lost`: a message that is accepted and that no member of the next epoch can fetch.
-/
import PqMsg.Server.GroupEpochs

namespace PqMsg.Server.PrivateGroups

open Lib List Option PrivateGroups.World Store

variable {ι : Type} [DecidableEq ι] {d : Deps} {stmt : Stmt} {row : MessageRow} {g : String}

/-! ## Members -/

/-- a member: their membership handle and fetch key in each epoch of a group -/
abbrev Member := String → ℕ → Option (String × Bytes)

/-- the credential of the epoch is stored -/
def holdsCredential (d : Deps) (s : Tables ι) (m : Member) (g : String) (e : ℕ) : Bool :=
  (m g e).any fun c => (s.committed (.credential c.1)).any fun row =>
    row.groupId = g ∧ row.epoch = e ∧ row.fetchKeySha256 = d.keySha256 c.2

/-- a member of the epoch and of all later ones -/
def Stays (d : Deps) (s : Tables ι) (m : Member) (g : String) (e : ℕ) : Prop :=
  ∀ e', e ≤ e' → (s.committed (.state g e')).isSome → holdsCredential d s m g e'

/-- the ids that `fetch_private_group_messages` returns if nothing else happens -/
def fetchNow (d : Deps) (s : Tables ι) (handle : String) (fetchKey : Bytes) (since : ℕ) : List ℕ :=
  match resolveFetchCredential d s.committed handle fetchKey with
  | .ok (g, e) => (messagesAfter s.keys s.committed g e since).map Prod.fst
  | .error _ => []

/-- one of the member's credentials fetches the message, from every position before it -/
def Fetchable (d : Deps) (s : Tables ι) (m : Member) (g : String) (id : ℕ) : Prop :=
  ∃ e handle fetchKey, m g e = some (handle, fetchKey) ∧ ∀ since < id, id ∈ fetchNow d s handle fetchKey since

/-- a fetch with one of the member's credentials was answered with the message -/
def fetched (w : World ι) (m : Member) (g : String) (id : ℕ) : Bool :=
  w.replies.any fun reply => match reply with
    | .messages handle g' e messages => g' = g ∧ (m g e).any (·.1 = handle) ∧ id ∈ messages.map Prod.fst
    | _ => false

/-- every message that was accepted has been fetched, or can be, by the member if they stay -/
def MessagesSurvive (d : Deps) (m : Member) (w : World ι) : Prop :=
  ∀ id g e t, Reply.message id g e t ∈ w.replies → Stays d w.tables m g e →
    fetched w m g id ∨ Fetchable d w.tables m g id

/-- the request stores a credential of the member -/
def PublishJob.includes (d : Deps) (job : PublishJob) (m : Member) : Bool :=
  (m job.groupId job.epoch).any fun c => job.members.any fun r =>
    r.membershipHandleSha256 = c.1 ∧ r.fetchKeySha256 = d.keySha256 c.2

/-- a message is inserted while its epoch is the latest, and an epoch ends when those who stay have fetched its messages -/
def inTime (d : Deps) (m : Member) (w : World ι) : Op ι → Bool
  | .advance i _ => match w.handlers i with
    | .messageInsert job => latestEpoch w.tables.keys w.tables.committed job.groupId = some job.epoch
    | .publishing job _ (.insertMembers []) =>
      if holdsCredential d w.tables m job.groupId (job.epoch - 1) ∧ job.includes d m then
        (messagesAfter w.tables.keys w.tables.committed job.groupId (job.epoch - 1) 0).all fun x =>
          fetched w m job.groupId x.1
      else true
    | _ => true
  | _ => true

/-! ## When a message can be fetched -/

section Fetch

variable {s s' : Tables ι} {m : Member} {g : String} {e id : ℕ} {since : ℕ}
omit [DecidableEq ι]

lemma mem_messagesAfter : (id, row) ∈ messagesAfter s.keys s.committed g e since ↔
      s.committed (.message id) = some row ∧ row.groupId = g ∧ row.epoch = e ∧ since < id := by
  rw [messagesAfter, mem_mergeSort, mem_filterMap]
  constructor
  · intro h
    obtain ⟨k, -, hk⟩ := h
    cases k with
    | state | credential | invite => cases hk
    | message =>
      obtain ⟨row', hrow, heq⟩ := map_eq_some_iff.1 hk
      obtain ⟨rfl, rfl⟩ := Prod.mk.inj heq
      obtain ⟨hcommitted, hcond⟩ := filter_eq_some_iff.1 hrow
      exact ⟨hcommitted, of_decide_eq_true hcond⟩
  · intro h
    obtain ⟨hcommitted, hcond⟩ := h
    refine ⟨.message id, ?_, ?_⟩
    · rw [mem_dedup]
      by_contra hk
      rw [(s.known _ hk).1] at hcommitted
      cases hcommitted
    · refine map_eq_some_iff.2 ⟨row, ?_, rfl⟩
      exact filter_eq_some_iff.2 ⟨hcommitted, decide_eq_true hcond⟩

lemma mem_fetchNow {handle : String} {fetchKey : Bytes} : id ∈ fetchNow d s handle fetchKey since ↔
      ∃ credential message, s.committed (.credential handle) = some credential ∧ credential.revokedAt = none ∧
        credential.fetchKeySha256 = d.keySha256 fetchKey ∧ s.committed (.message id) = some message ∧
        message.groupId = credential.groupId ∧ message.epoch = credential.epoch ∧ since < id := by
  unfold fetchNow resolveFetchCredential
  cases hactive : (s.committed (.credential handle)).filter fun row => row.revokedAt = none with
  | none =>
    simp only [List.not_mem_nil, false_iff]
    intro h
    obtain ⟨credential, message, hrow, hrevoked, -⟩ := h
    rw [Option.filter_eq_none_iff] at hactive
    exact hactive credential hrow (decide_eq_true hrevoked)
  | some credential =>
    obtain ⟨hrow, hrevoked⟩ := Option.filter_eq_some_iff.1 hactive
    have hrevoked := of_decide_eq_true hrevoked
    dsimp only
    split_ifs with hkey
    · simp only [List.not_mem_nil, false_iff]
      intro h
      obtain ⟨credential', message, hrow', -, hkey', -⟩ := h
      obtain rfl := Option.some.inj (hrow.symm.trans hrow')
      exact hkey hkey'
    · simp only [List.mem_map, Prod.exists, exists_and_right, exists_eq_right]
      constructor
      · intro h
        obtain ⟨message, hmem⟩ := h
        obtain ⟨hmessage, hg, he, hsince⟩ := mem_messagesAfter.1 hmem
        exact ⟨credential, message, hrow, hrevoked, of_not_not hkey, hmessage, hg, he, hsince⟩
      · intro h
        obtain ⟨credential', message, hrow', -, -, hmessage, hg, he, hsince⟩ := h
        obtain rfl := Option.some.inj (hrow.symm.trans hrow')
        exact ⟨message, mem_messagesAfter.2 ⟨hmessage, hg, he, hsince⟩⟩

/-- **What can be fetched**: a message of the epoch of an active credential -/
lemma fetchable_iff (hid : 0 < id) :
    Fetchable d s m g id ↔ ∃ e handle fetchKey credential message, m g e = some (handle, fetchKey) ∧
      s.committed (.credential handle) = some credential ∧ credential.revokedAt = none ∧
      credential.fetchKeySha256 = d.keySha256 fetchKey ∧ s.committed (.message id) = some message ∧
      message.groupId = credential.groupId ∧ message.epoch = credential.epoch := by
  constructor
  · intro h
    obtain ⟨e, handle, fetchKey, hm, hfetch⟩ := h
    obtain ⟨credential, message, hrow, hrevoked, hkey, hmessage, hg, he, -⟩ := mem_fetchNow.1 (hfetch 0 hid)
    exact ⟨e, handle, fetchKey, credential, message, hm, hrow, hrevoked, hkey, hmessage, hg, he⟩
  · intro h
    obtain ⟨e, handle, fetchKey, credential, message, hm, hrow, hrevoked, hkey, hmessage, hg, he⟩ := h
    exact ⟨e, handle, fetchKey, hm, fun since hsince =>
      mem_fetchNow.2 ⟨credential, message, hrow, hrevoked, hkey, hmessage, hg, he, hsince⟩⟩

lemma holdsCredential_iff : holdsCredential d s m g e ↔ ∃ handle fetchKey credential, m g e = some (handle, fetchKey) ∧
      s.committed (.credential handle) = some credential ∧ credential.groupId = g ∧ credential.epoch = e ∧
      credential.fetchKeySha256 = d.keySha256 fetchKey := by
  simp only [holdsCredential, Option.any_eq_true, decide_eq_true_eq, Prod.exists]
  constructor
  · intro h
    obtain ⟨handle, fetchKey, hm, credential, hrow, hg, he, hkey⟩ := h
    exact ⟨handle, fetchKey, credential, hm, hrow, hg, he, hkey⟩
  · intro h
    obtain ⟨handle, fetchKey, credential, hm, hrow, hg, he, hkey⟩ := h
    exact ⟨handle, fetchKey, hm, credential, hrow, hg, he, hkey⟩

lemma Stays.congr (hstays : Stays d s' m g e) (hs : ∀ g e, s'.committed (.state g e) = s.committed (.state g e))
    (hc : ∀ handle, s'.committed (.credential handle) = s.committed (.credential handle)) : Stays d s m g e := by
  intro e' he' hstate
  have hsame : holdsCredential d s m g e' = holdsCredential d s' m g e' := by simp [holdsCredential, hc]
  rw [hsame]
  exact hstays e' he' (by rw [hs]; exact hstate)

end Fetch

omit [DecidableEq ι] in
lemma fetched_mono {w w' : World ι} {m : Member} {id : ℕ} (h : fetched w m g id) (hsub : w.replies ⊆ w'.replies) :
    fetched w' m g id := by
  obtain ⟨reply, hmem, hreply⟩ := any_eq_true.1 h
  exact any_eq_true.2 ⟨reply, hsub hmem, hreply⟩

/-! ## What a step can do -/

/-- nothing is accepted, and what is stored of states, credentials and messages stays -/
structure Calm (w w' : World ι) : Prop where
  states : ∀ g e, w'.tables.committed (.state g e) = w.tables.committed (.state g e)
  credentials : ∀ h, w'.tables.committed (.credential h) = w.tables.committed (.credential h)
  messages : ∀ id, w'.tables.committed (.message id) = w.tables.committed (.message id)
  replies : w.replies ⊆ w'.replies
  accepted : ∀ id g e t, Reply.message id g e t ∈ w'.replies → Reply.message id g e t ∈ w.replies
  drafts : ∀ id, w'.tables.draft (.message id) = none

/-- a message is accepted -/
structure Accepted (w w' : World ι) (job : MessageJob) (id t : ℕ) : Prop where
  states : ∀ g e, w'.tables.committed (.state g e) = w.tables.committed (.state g e)
  credentials : ∀ h, w'.tables.committed (.credential h) = w.tables.committed (.credential h)
  others : ∀ id', id' ≠ id → w'.tables.committed (.message id') = w.tables.committed (.message id')
  fresh : w.tables.committed (.message id) = none
  message : w'.tables.committed (.message id) = some (job.row t)
  epoch : (w.tables.committed (.state job.groupId job.epoch)).isSome
  positive : 0 < id
  replies : w'.replies = w.replies ++ [.message id job.groupId job.epoch t]
  drafts : ∀ id, w'.tables.draft (.message id) = none

omit [DecidableEq ι] in
lemma Accepted.other {w w' : World ι} {job : MessageJob} {id id' t : ℕ} (h : Accepted w w' job id t)
    (hrow : w.tables.committed (.message id') = some row) : id' ≠ id := by
  rintro rfl
  rw [h.fresh] at hrow
  cases hrow

/-- an answer that accepts no message -/
def Next.Mute : Next → Prop
  | .answer (.message ..) => False
  | _ => True

def Stmt.LeavesMessages : Stmt → Prop
  | .insertMessage .. => False
  | _ => True

lemma writes_leavesMessages (h : stmt.LeavesMessages) (view : RowView) (id : ℕ) : stmt.writes view (.message id) = none := by
  cases stmt with
  | insertMessage => cases h
  | revokeCredentials | revokeInvites | purgeInvites | consumeInvite => rfl
  | insertState | insertCredential | insertInvite => exact onKey_ne (by simp) _

/-- a turn that accepts no message, and ends no epoch -/
def Turn.Mute : Turn → Prop
  | .next n => n.Mute
  | .write stmt _ n _ => stmt.LeavesMessages ∧ n.Mute
  | .commit _ => False

section Mute

variable {keys : List Key} {rows : RowView}

lemma turn_mute {p : Phase} (hmessage : ∀ job, p ≠ .messageInsert job)
    (hcommit : ∀ job latest, p ≠ .publishing job latest (.insertMembers [])) (x : Draw) :
    (p.turn d keys rows x).Mute := by
  cases p with
  | idle => trivial
  | publishLatest job =>
    exact authorizePublish_outcome (P := Next.Mute) job (fun _ => trivial) (fun _ => trivial) fun _ _ _ => trivial
  | publishCredential | inviteCredential | messageCredential =>
    exact checkCredential_outcome (P := Next.Mute) (fun _ => trivial) fun _ _ _ => trivial
  | publishRevoke | invitePurge | inviteInsert | consumeUpdate => exact ⟨trivial, trivial⟩
  | publishing job latest step =>
    cases step with
    | insertState | revokeInvites => exact ⟨trivial, trivial⟩
    | insertMembers rest =>
      cases rest with
      | nil => exact absurd rfl (hcommit job latest)
      | cons => exact ⟨trivial, trivial⟩
  | fetchCredential | resolveLoad | consumeLoad | readCredential =>
    exact ofExcept_outcome (P := Next.Mute) (fun _ => trivial) fun _ _ => trivial
  | fetchState g e =>
    unfold Phase.turn
    dsimp only
    cases rows (.state g e) <;> trivial
  | inviteLatest | messageLatest => exact checkLatest_outcome (P := Next.Mute) (fun _ => trivial) fun _ _ => trivial
  | resolvePurge token | consumePurge token =>
    refine ⟨trivial, ?_⟩
    cases validatePrivateGroupInviteToken token <;> trivial
  | resolveLatest token invite =>
    unfold Phase.turn
    dsimp only
    cases latestEpoch keys rows invite.groupId with
    | none => trivial
    | some =>
      dsimp only
      split_ifs <;> trivial
  | messageInsert job => exact absurd rfl (hmessage job)
  | readMessages => trivial

lemma first_mute (request : Request) (now : ℕ) : (request.first d now).Mute :=
  first_outcome request now (fun _ => trivial) fun _ _ => trivial

end Mute

section Steps

variable {w : World ι} {i : ι} {next : Next} {s : Tables ι} {job : MessageJob}

/-- the tables may change, as long as the three kinds of rows stay -/
lemma calm_withTables (hs : ∀ g e, s.committed (.state g e) = w.tables.committed (.state g e))
    (hc : ∀ h, s.committed (.credential h) = w.tables.committed (.credential h))
    (hm : ∀ id, s.committed (.message id) = w.tables.committed (.message id)) (hd : ∀ id, s.draft (.message id) = none)
    (hmute : next.Mute) : Calm w ((w.withTables s).follow i next) := by
  cases next with
  | goto => exact ⟨hs, hc, hm, List.Subset.refl _, fun _ _ _ _ h => h, hd⟩
  | answer =>
    refine ⟨hs, hc, hm, subset_append_left _ _, fun id g e t h => ?_, hd⟩
    rcases mem_append.1 h with h | h
    · exact h
    · obtain rfl := mem_singleton.1 h
      exact hmute.elim

section

variable (hd : ∀ id, w.tables.draft (.message id) = none)
include hd

lemma calm_follow (hmute : next.Mute) : Calm w (w.follow i next) :=
  calm_withTables (fun _ _ => rfl) (fun _ => rfl) (fun _ => rfl) hd hmute

omit [DecidableEq ι] in
lemma calm_refl : Calm w w :=
  ⟨fun _ _ => rfl, fun _ => rfl, fun _ => rfl, List.Subset.refl _, fun _ _ _ _ h => h, hd⟩

lemma calm_rollback (hmute : next.Mute) : Calm w ((w.withTables (w.tables.rollback i)).follow i next) :=
  calm_withTables (s := w.tables.rollback i) (fun _ _ => rfl) (fun _ => rfl) (fun _ => rfl)
    (fun id => rollback_draft_none (hd id)) hmute

/-- a statement that leaves the three kinds of rows -/
lemma calm_write {atOnce : Bool} (onConflict : AppError) (hmute : next.Mute) (hdone : ∀ s, w.tables.exec i stmt = .done s →
      (∀ g e, (settled i s atOnce).committed (.state g e) = w.tables.committed (.state g e)) ∧
      (∀ h, (settled i s atOnce).committed (.credential h) = w.tables.committed (.credential h)) ∧
      (∀ id, (settled i s atOnce).committed (.message id) = w.tables.committed (.message id)) ∧
      ∀ id, (settled i s atOnce).draft (.message id) = none) : Calm w (w.write i stmt atOnce next onConflict) := by
  have hfail : (Next.fail onConflict).Mute := trivial
  refine w.write_rule i (calm_refl hd) (calm_rollback hd hfail) fun s hexec => ?_
  obtain ⟨hs, hc, hm, hd'⟩ := hdone s hexec
  exact calm_withTables hs hc hm hd' hmute

/-- messages stay, also in the drafts, under a statement that does not insert one -/
lemma settled_messages (hstmt : stmt.LeavesMessages) (hexec : w.tables.exec i stmt = .done s) (atOnce : Bool) (id : ℕ) :
    (settled i s atOnce).committed (.message id) = w.tables.committed (.message id) ∧
      (settled i s atOnce).draft (.message id) = none := by
  obtain ⟨hcommitted, hdraft⟩ := settled_none hexec atOnce (writes_leavesMessages hstmt (w.tables.view i) id)
    fun x => by rw [hd id]; simp
  refine ⟨hcommitted, eq_none_iff_forall_ne_some.2 fun x hx => ?_⟩
  rw [hdraft, hd id] at hx
  cases hx

/-- a statement of an open transaction -/
lemma calm_write_open (hstmt : stmt.LeavesMessages)
    (onConflict : AppError) (hmute : next.Mute) : Calm w (w.write i stmt false next onConflict) := by
  refine calm_write hd onConflict hmute fun s hexec => ?_
  have hmessages := settled_messages hd hstmt hexec false
  refine ⟨fun g e => ?_, fun h => ?_, fun id => (hmessages id).1, fun id => (hmessages id).2⟩ <;>
    obtain ⟨-, -, -, rfl⟩ := exec_done hexec <;> rfl

/-- the insertion of a message -/
lemma accepted_insert (hfree : HoldsNothing w.tables i) {id : ℕ+}
    {t : ℕ} (hexec : w.tables.exec i (.insertMessage id (job.row t)) = .done s) :
    Accepted w ((w.withTables (settled i s true)).follow i (.answer (.message id job.groupId job.epoch t))) job id t := by
  obtain ⟨hunseen, hcommitted, hdraft, hothers⟩ := insert_done (k := .message id) hexec rfl rfl
  have hkeep : ∀ k : Key, k ≠ .message id → (∀ x, w.tables.draft k ≠ some (i, x)) →
      (s.commit i).committed k = w.tables.committed k := by
    intro k hk hnot
    rw [commit_committed_other fun x hx => hnot x ((hothers k hk).symm.trans hx), hcommitted]
  have hnone : ∀ id' x, w.tables.draft (.message id') ≠ some (i, x) := by
    intro id' x hx
    rw [hd id'] at hx
    cases hx
  obtain ⟨-, -, hparent, -⟩ := exec_done hexec
  exact {
    states := fun g e => hkeep (.state g e) (by simp) fun x => hfree (.state g e) x trivial
    credentials := fun h => hkeep (.credential h) (by simp) fun x => hfree (.credential h) x trivial
    others := fun id' hid => hkeep (.message id') (by simpa using hid) (hnone id')
    fresh := (view_free (hd id)).symm.trans hunseen
    message := view_own hdraft
    epoch := by
      have hsome := hparent (.state job.groupId job.epoch) rfl
      rw [hfree.view (k := .state job.groupId job.epoch) trivial] at hsome
      exact isSome_iff_ne_none.2 hsome
    positive := id.pos
    replies := rfl
    drafts := by
      intro id'
      refine eq_none_iff_forall_ne_some.2 fun x hx => ?_
      obtain ⟨hx, hne⟩ := commit_draft.1 hx
      by_cases hid : id' = id
      · subst hid
        exact hne (congrArg Prod.fst (some.inj (hdraft.symm.trans hx))).symm
      · rw [hothers _ (by simpa using hid), hd id'] at hx
        cases hx }

/-- **What a step can do**: nothing that matters here, accept a message, or end an epoch -/
lemma step_cases (hw : EpochsInv d w) (o : Op ι) : Calm w (w.step d o) ∨
      (∃ i x job, o = .advance i x ∧ w.handlers i = .messageInsert job ∧ Accepted w (w.step d o) job x.messageId x.now) ∨
      ∃ i x job latest, o = .advance i x ∧ w.handlers i = .publishing job latest (.insertMembers []) ∧
        w.step d o = w.commit i job := by
  cases o with
  | start i request now =>
    refine .inl ?_
    change Calm w (w.accept i (request.first d now))
    unfold accept
    split_ifs
    · exact calm_follow hd (first_mute request now)
    · exact calm_refl hd
  | fail =>
    have hidle : (Next.goto .idle).Mute := trivial
    exact .inl (calm_rollback hd hidle)
  | advance i x =>
    change Calm w (w.take i ((w.handlers i).turn d w.tables.keys w.tables.committed x)) ∨ _
    by_cases hpublishing : ∃ job latest step, w.handlers i = .publishing job latest step
    · obtain ⟨job, latest, step, hi⟩ := hpublishing
      rw [hi]
      cases step with
      | insertState | revokeInvites => refine .inl (calm_write_open hd ?_ _ ?_) <;> trivial
      | insertMembers rest =>
        cases rest with
        | cons => refine .inl (calm_write_open hd ?_ _ ?_) <;> trivial
        | nil =>
          refine .inr (.inr ⟨i, x, job, latest, rfl, hi, ?_⟩)
          change w.take i ((w.handlers i).turn d w.tables.keys w.tables.committed x) = _
          rw [hi]
          rfl
    · have hnot : ∀ job latest step, w.handlers i ≠ .publishing job latest step :=
        fun job latest step h => hpublishing ⟨job, latest, step, h⟩
      have hfree := hw.holdsNothing hnot
      by_cases hrevoke : ∃ job latest, w.handlers i = .publishRevoke job latest
      · obtain ⟨job, latest, hi⟩ := hrevoke
        rw [hi]
        refine .inl (calm_write_open hd ?_ _ ?_) <;> trivial
      by_cases hmessage : ∃ job, w.handlers i = .messageInsert job
      · obtain ⟨job, hi⟩ := hmessage
        have hturn : (w.handlers i).turn d w.tables.keys w.tables.committed x =
            if job.sentAtUnixMs.toNat ≥ 2 ^ 63 then .next (Next.fail (.badRequest "sent_at_unix_ms is too large"))
            else .write (.insertMessage x.messageId (job.row x.now)) true
              (.answer (.message x.messageId job.groupId job.epoch x.now)) .database := by
          rw [hi]
          rfl
        split_ifs at hturn with hlarge
        · rw [hturn]
          have hfail : (Next.fail (.badRequest "sent_at_unix_ms is too large")).Mute := trivial
          exact .inl (calm_follow hd hfail)
        · have hfail : (Next.fail .database).Mute := trivial
          rcases w.write_rule i (Q := fun w' => Calm w w' ∨ Accepted w w' job x.messageId x.now) (.inl (calm_refl hd))
            (.inl (calm_rollback hd hfail)) fun s hexec => .inr (accepted_insert hd hfree hexec) with h | h
          · refine .inl ?_
            rw [hturn]
            exact h
          · refine .inr (.inl ⟨i, x, job, rfl, hi, ?_⟩)
            change Accepted w (w.take i ((w.handlers i).turn d w.tables.keys w.tables.committed x)) _ _ _
            rw [hturn]
            exact h
      · refine .inl ?_
        have hquiet : Quiet d w.tables i ((w.handlers i).turn d w.tables.keys w.tables.committed x) :=
          turn_quiet (hw.phases i) (fun job latest h => hrevoke ⟨job, latest, h⟩) hnot x
        have hmute : ((w.handlers i).turn d w.tables.keys w.tables.committed x).Mute :=
          turn_mute (fun job h => hmessage ⟨job, h⟩) (fun job latest h => hnot job latest _ h) x
        generalize (w.handlers i).turn d w.tables.keys w.tables.committed x = turn at hquiet hmute
        cases hquiet with
        | next => exact calm_follow hd hmute
        | write ha =>
          -- a statement on invites
          refine calm_write hd _ hmute.2 fun s hexec => ?_
          have hsame := fun (k : Key) hk => (settled_none hexec true (writes_aside ha hk) fun x => hfree k x hk).1
          have hmessages := settled_messages hd hmute.1 hexec true
          exact ⟨fun g e => hsame (.state g e) trivial, fun h => hsame (.credential h) trivial, fun id => (hmessages id).1,
            fun id => (hmessages id).2⟩

end

/-! ## Messages survive -/

structure MessagesInv (d : Deps) (m : Member) (w : World ι) : Prop where
  epochs : EpochsInv d w
  drafts : ∀ id, w.tables.draft (.message id) = none
  /-- what was accepted is stored, under its group and epoch -/
  stored : ∀ id g e t, Reply.message id g e t ∈ w.replies →
    0 < id ∧ (w.tables.committed (.state g e)).isSome ∧
      ∃ row, w.tables.committed (.message id) = some row ∧ row.groupId = g ∧ row.epoch = e
  survive : MessagesSurvive d m w

variable {m : Member} {w' : World ι}

section

omit [DecidableEq ι]

lemma MessagesInv.calm (hw : MessagesInv d m w) (he : EpochsInv d w') (hcalm : Calm w w') : MessagesInv d m w' where
  epochs := he
  drafts := hcalm.drafts
  stored id g e t h := by
    obtain ⟨hid, hstate, row, hrow, hrest⟩ := hw.stored id g e t (hcalm.accepted id g e t h)
    exact ⟨hid, by rw [hcalm.states]; exact hstate, row, (hcalm.messages id).trans hrow, hrest⟩
  survive id g e t h hstays := by
    have h := hcalm.accepted id g e t h
    obtain ⟨hid, -⟩ := hw.stored id g e t h
    rcases hw.survive id g e t h (hstays.congr hcalm.states hcalm.credentials) with hfetched | hfetchable
    · exact .inl (fetched_mono hfetched hcalm.replies)
    · refine .inr ((fetchable_iff hid).2 ?_)
      simp only [hcalm.credentials, hcalm.messages]
      exact (fetchable_iff hid).1 hfetchable

/-- only messages of the last epoch can be fetched -/
lemma EpochsInv.fetchable_last (hw : EpochsInv d w) {id e : ℕ} (hid : 0 < id) (h : Fetchable d w.tables m g id)
    (hrow : w.tables.committed (.message id) = some row) (he : (w.tables.committed (.state row.groupId e)).isSome) :
    e ≤ row.epoch := by
  obtain ⟨e', handle, fetchKey, credential, message, -, hcredential, hactive, -, hmessage, hmg, hme⟩ :=
    (fetchable_iff hid).1 h
  obtain rfl := some.inj (hrow.symm.trans hmessage)
  obtain ⟨n, hn⟩ := hw.epochs row.groupId
  have hlast := (hn.credentials handle credential hcredential hmg.symm).2.2.1 hactive
  have hle := ((hn.states e).1 he).2
  omega

/-- a message is accepted while its epoch is the latest -/
lemma MessagesInv.accepted (hw : MessagesInv d m w) (he : EpochsInv d w') {id t : ℕ} (haccepted : Accepted w w' job id t)
    (hlatest : latestEpoch w.tables.keys w.tables.committed job.groupId = some job.epoch) : MessagesInv d m w' where
  epochs := he
  drafts := haccepted.drafts
  stored id' g e t' h := by
    rw [haccepted.replies] at h
    rcases mem_append.1 h with h | h
    · obtain ⟨hid, hstate, row, hrow, hrest⟩ := hw.stored id' g e t' h
      have hne := haccepted.other hrow
      exact ⟨hid, by rw [haccepted.states]; exact hstate, row, (haccepted.others id' hne).trans hrow, hrest⟩
    · obtain ⟨rfl, rfl, rfl, -⟩ := Reply.message.inj (mem_singleton.1 h)
      exact ⟨haccepted.positive, by rw [haccepted.states]; exact haccepted.epoch, _, haccepted.message, rfl, rfl⟩
  survive id' g e t' h hstays := by
    have hstays := hstays.congr haccepted.states haccepted.credentials
    rw [haccepted.replies] at h
    rcases mem_append.1 h with h | h
    · obtain ⟨hid, -, row, hrow, -⟩ := hw.stored id' g e t' h
      have hne := haccepted.other hrow
      rcases hw.survive id' g e t' h hstays with hfetched | hfetchable
      · refine .inl (fetched_mono hfetched ?_)
        rw [haccepted.replies]
        exact subset_append_left _ _
      · refine .inr ((fetchable_iff hid).2 ?_)
        simp only [haccepted.credentials, haccepted.others id' hne]
        exact (fetchable_iff hid).1 hfetchable
    · obtain ⟨rfl, rfl, rfl, -⟩ := Reply.message.inj (mem_singleton.1 h)
      -- its epoch is the last one, so the member's credential is active
      obtain ⟨n, hn⟩ := hw.epochs.epochs job.groupId
      have hlast : job.epoch = n := by
        obtain ⟨hstored, hmax⟩ := latestEpoch_some hlatest
        have h1 := (hn.states job.epoch).1 hstored
        have h2 := hmax n ((hn.states n).2 (by omega))
        omega
      obtain ⟨handle, fetchKey, row, hm, hrow, hgroup, hepoch, hkey⟩ :=
        holdsCredential_iff.1 (hstays job.epoch le_rfl haccepted.epoch)
      refine .inr ((fetchable_iff haccepted.positive).2 ⟨job.epoch, handle, fetchKey, row, _, hm, ?_, ?_, hkey,
        haccepted.message, hgroup.symm, hepoch.symm⟩)
      · exact (haccepted.credentials handle).trans hrow
      · exact (hn.credentials handle row hrow hgroup).2.2.2 (hepoch.trans hlast)

end

section Commit

variable {job : PublishJob} {latest : Option ℕ} {step : PublishStep} {g : String} {e : ℕ}

/-- an epoch ends after those who stay have fetched its messages -/
lemma MessagesInv.commit (hw : MessagesInv d m w) (hi : w.handlers i = .publishing job latest step)
    (hstep : step ≠ .insertState)
    (htime : holdsCredential d w.tables m job.groupId (job.epoch - 1) → job.includes d m →
      ∀ x ∈ messagesAfter w.tables.keys w.tables.committed job.groupId (job.epoch - 1) 0, fetched w m job.groupId x.1) :
    MessagesInv d m (w.commit i job) := by
  have he := hw.epochs
  have hreplies : ∀ id g e t, Reply.message id g e t ∈ (w.commit i job).replies → Reply.message id g e t ∈ w.replies :=
    fun id g e t h => (mem_append.1 h).resolve_right fun h => nomatch mem_singleton.1 h
  refine ⟨he.commit hi hstep, fun id => ?_, fun id g e t h => ?_, fun id g e t h hstays => ?_⟩
  · exact commit_draft_none (hw.drafts id)
  · obtain ⟨hid, hstate, row, hrow, hrest⟩ := hw.stored id g e t (hreplies id g e t h)
    exact ⟨hid, he.commit_state_mono hi hstep hstate, row, (view_free (hw.drafts id)).trans hrow, hrest⟩
  · have h := hreplies id g e t h
    obtain ⟨hid, hstate, row, hrow, rfl, rfl⟩ := hw.stored id g e t h
    have hbefore : Stays d w.tables m row.groupId row.epoch := by
      intro e' hle hs
      obtain ⟨handle, fetchKey, new, hm, hnew, hgroup, hepoch, hkey⟩ :=
        holdsCredential_iff.1 (hstays e' hle (he.commit_state_mono hi hstep hs))
      rcases he.commit_credential hi hnew with ⟨old, t, hold, -, -, rfl⟩ | ⟨-, r, -, -, rfl⟩ | ⟨hold, -⟩
      · exact holdsCredential_iff.2 ⟨handle, fetchKey, old, hm, hold, hgroup, hepoch, hkey⟩
      · have hnone : w.tables.committed (.state (job.credentialRow r).groupId (job.credentialRow r).epoch) = none :=
          he.epoch_unstored hi hstep
        rw [← hgroup, ← hepoch, hnone] at hs
        cases hs
      · exact holdsCredential_iff.2 ⟨handle, fetchKey, new, hm, hold, hgroup, hepoch, hkey⟩
    rcases hw.survive id _ _ t h hbefore with hfetched | hfetchable
    · exact .inl (fetched_mono hfetched (subset_append_left _ _))
    · by_cases hg : row.groupId = job.groupId
      · -- the message is one of the epoch that ends
        rw [hg] at hstate hstays hbefore ⊢
        obtain ⟨n, hn⟩ := he.epochs job.groupId
        obtain ⟨hepoch, -⟩ := he.last_epoch hi hstep hn
        have hlow := (hn.states row.epoch).1 hstate
        have hlast : n ≤ row.epoch := he.fetchable_last hid hfetchable hrow (by rw [hg]; exact (hn.states n).2 (by omega))
        have hprev : job.epoch - 1 = row.epoch := by omega
        have hnew : ((w.tables.commit i).committed (.state job.groupId job.epoch)).isSome := by
          rw [he.commit_state hi hstep, if_pos ⟨rfl, rfl⟩]
          rfl
        refine .inl (fetched_mono ?_ (subset_append_left _ _))
        refine htime ?_ ?_ (id, row) (mem_messagesAfter.2 ⟨hrow, hg, hprev.symm, hid⟩)
        · rw [hprev]
          exact hbefore row.epoch le_rfl hstate
        · -- whoever holds a credential of the new epoch is included in the request
          obtain ⟨handle, fetchKey, credential, hm, hcredential, hgroup, hof, hkey⟩ :=
            holdsCredential_iff.1 (hstays job.epoch (by omega) hnew)
          rcases he.commit_credential hi hcredential with ⟨old, t, hold, -, -, rfl⟩ | ⟨-, r, hr, hh, rfl⟩ | ⟨hold, -⟩
          · have hle := (hn.credentials _ _ hold hgroup).2.1
            dsimp only at hof
            omega
          · simp only [PublishJob.includes, Option.any_eq_true, List.any_eq_true, decide_eq_true_eq, Prod.exists]
            exact ⟨handle, fetchKey, hm, r, hr, hh, hkey⟩
          · have hle := (hn.credentials _ _ hold hgroup).2.1
            omega
      · -- in another group, what can be fetched stays
        obtain ⟨e', handle, fetchKey, credential, message, hm, hcredential, hactive, hkey, hmessage, hmg, hme⟩ :=
          (fetchable_iff hid).1 hfetchable
        obtain rfl := some.inj (hrow.symm.trans hmessage)
        refine .inr ((fetchable_iff hid).2 ⟨e', handle, fetchKey, credential, row, hm, ?_, hactive, hkey,
          (view_free (hw.drafts id)).trans hrow, hmg, hme⟩)
        refine (commit_committed_other fun x hx => ?_).trans hcredential
        rcases he.ownCredential hi hx with ⟨old, t', hold, hog, -, -⟩ | ⟨-, hnone, -⟩
        · obtain rfl := some.inj (hold.symm.trans hcredential)
          exact hg (hmg.trans hog)
        · rw [hnone] at hcredential
          cases hcredential

end Commit

lemma MessagesInv.step (hw : MessagesInv d m w) (o : Op ι) (htime : inTime d m w o = true) : MessagesInv d m (w.step d o) := by
  have hnext := hw.epochs.step o
  rcases step_cases hw.drafts hw.epochs o with hcalm | ⟨i, x, job, rfl, hi, haccepted⟩ | ⟨i, x, job, latest, rfl, hi, heq⟩
  · exact hw.calm hnext hcalm
  · refine hw.accepted hnext haccepted ?_
    simpa [inTime, hi] using htime
  · rw [heq]
    refine hw.commit hi (by simp) fun hholds hincludes => ?_
    simpa [inTime, hi, hholds, hincludes] using htime

end Steps

omit [DecidableEq ι] in
lemma MessagesInv.start (m : Member) : MessagesInv d m (start (ι := ι)) where
  epochs := .start
  drafts _ := rfl
  stored _ _ _ _ h := by cases h
  survive _ _ _ _ h := by cases h

/-- **Messages survive epoch changes in time**: if every message is inserted while its epoch is the latest, and no epoch ends
before the member who stays has fetched its messages, then every accepted message has been fetched by the member or can be
fetched, as long as they have a credential of its epoch and of every later one -/
theorem messages_survive (d : Deps) (m : Member) (ops : List (Op ι))
    (htime : Legal (World.step d) (fun w o => inTime d m w o = true) World.start ops) :
    MessagesSurvive d m (run (World.step d) World.start ops) :=
  (run_inv (MessagesInv d m) (fun _ o h ho => h.step o ho) ops (.start m) htime).survive

/-! ## Two runs -/

namespace Sample

/-- some base64 texts, and keys that are their own hashes -/
def deps : Deps where
  base64Decode s :=
    if s = "nonce" then some (List.replicate ciphertextNonceLen 0)
    else if s = "signature" then some (List.replicate 65 0)
    else if s = "alice publishes" then some (List.replicate authKeyLen 0xaa)
    else if s = "alice fetches" then some (List.replicate authKeyLen 0xbb)
    else if s = "bob fetches" then some (List.replicate authKeyLen 0xcc)
    else some [0]
  sha256 b := b

/-- sixty-four times the same digit -/
def hex (c : Char) : String := String.ofList (List.replicate sha256HexLen c)

def ciphertext : CiphertextFields := ⟨"nonce", "ciphertext", "aad"⟩

/-- alice and bob, with a handle and a fetch key each; only alice may publish -/
def members (alice bob : Char) : List MemberRecord :=
  [⟨hex alice, hex '0', hex 'b', some (hex 'a')⟩, ⟨hex bob, hex '0', hex 'c', none⟩]

/-- alice publishes an epoch with her credential of the first one -/
def publish (epoch : UInt64) (members : List MemberRecord) : Request :=
  .publishState ⟨"g", epoch, hex '0', ciphertext, hex '1', "alice publishes", members⟩

/-- bob sends a message -/
def send (epoch : UInt64) (handle : Char) : Request :=
  .publishMessage ⟨"g", epoch, 0, ciphertext, "signature", hex handle, "bob fetches"⟩

def fetch (handle : Char) : Request := .fetchMessages (hex handle) "alice fetches" none

def publishJob (epoch : ℕ) (members : List MemberRecord) : PublishJob :=
  ⟨"g", epoch, hex '0', ciphertext, hex '1', List.replicate authKeyLen 0xaa, members, 0⟩

def sendJob (epoch : ℕ) (handle : Char) : MessageJob :=
  ⟨"g", epoch, 0, ciphertext, "signature", hex handle, List.replicate authKeyLen 0xcc⟩

def advance (i : Bool) (steps : ℕ) (messageId : ℕ+) : List (Op Bool) := List.replicate steps (.advance i ⟨0, "t", messageId⟩)

def digits : List Char := ['0', '1', '2', '3', '4', 'a', 'b', 'c']

lemma hex_injective {c c' : Char} (h : hex c = hex c') : c = c' := by
  have hlist := congrArg String.toList h
  simp only [hex, String.toList_ofList] at hlist
  exact (replicate_inj.1 hlist).2.resolve_left (by decide)

lemma hex_ok {c : Char} (hc : c ∈ digits) (field : String) : validateSha256Hex field (hex c) = .ok (hex c) := by
  have hall : (digits.all fun c => c.utf8Size = 1 ∧ isWhitespace c = false ∧ c.toLower = c ∧ isAsciiHexdigit c) = true := by
    decide
  obtain ⟨hsize, hspace, hlower, hdigit⟩ := of_decide_eq_true (all_eq_true.1 hall c hc)
  have hlen : len (hex c) = sha256HexLen := by
    rw [← length_utf8, utf8_eq, hex, String.toList_ofList, length_flatMap]
    simp [hsize]
  have htrim : trim (hex c) = hex c := by
    unfold trim hex
    rw [String.toList_ofList]
    simp [List.rdropWhile, hspace]
  have hnormal : String.ofList ((hex c).toList.map Char.toLower) = hex c := by
    rw [hex, String.toList_ofList, map_replicate, hlower]
  have hdigits : (hex c).toList.all isAsciiHexdigit = true := by
    rw [hex, String.toList_ofList]
    simp [hdigit]
  simp [validateSha256Hex, htrim, hnormal, hlen, hdigits]

lemma member_ok {handle fetchKey : Char} (hhandle : handle ∈ digits) (hfetch : fetchKey ∈ digits) {publishKey : Option String}
    (hpublish : publishKey.mapM (validateSha256Hex "members[].publish_key_sha256") = .ok publishKey) :
    normalizeMember ⟨hex handle, hex '0', hex fetchKey, publishKey⟩ = .ok ⟨hex handle, hex '0', hex fetchKey, publishKey⟩ :=
  bind_ok.2 ⟨_, hex_ok hhandle _, bind_ok.2 ⟨_, hex_ok (by decide) _, bind_ok.2 ⟨_, hex_ok hfetch _,
    bind_ok.2 ⟨_, hpublish, rfl⟩⟩⟩⟩

lemma members_ok {alice bob : Char} (halice : alice ∈ digits) (hbob : bob ∈ digits) (hne : hex bob ≠ hex alice) :
    normalizePrivateGroupMembers (members alice bob) = .ok (members alice bob) := by
  have hpublish : (some (hex 'a')).mapM (validateSha256Hex "members[].publish_key_sha256") = .ok (some (hex 'a')) := by
    rw [mapM_some, hex_ok (by decide)]
    rfl
  have hrest : normalizeMembers [hex alice] [⟨hex bob, hex '0', hex 'c', none⟩] = .ok [⟨hex bob, hex '0', hex 'c', none⟩] :=
    bind_ok.2 ⟨_, member_ok hbob (by decide) rfl, (if_neg (by simpa using hne)).trans (bind_ok.2 ⟨_, rfl, rfl⟩)⟩
  unfold normalizePrivateGroupMembers
  rw [if_neg (by simp [members]), if_neg (by simp [members, maxGroupMembers])]
  exact bind_ok.2 ⟨_, member_ok halice (by decide) hpublish, (if_neg (by simp)).trans (bind_ok.2 ⟨_, hrest, rfl⟩)⟩

/-- the texts of the requests pass their checks -/
lemma texts_ok : (validateId "group_id" "g" = .ok () ∧ trim "g" = "g" ∧ trim "signature" = "signature") ∧
    checkCiphertext deps "" ciphertext = .ok ciphertext ∧
    decodeBase64Exact deps "authorizing_publish_key_base64" "alice publishes" authKeyLen = .ok (List.replicate authKeyLen 0xaa) ∧
    decodeBase64Exact deps "fetch_key_base64" "alice fetches" authKeyLen = .ok (List.replicate authKeyLen 0xbb) ∧
    decodeBase64Exact deps "authorizing_fetch_key_base64" "bob fetches" authKeyLen = .ok (List.replicate authKeyLen 0xcc) ∧
    decodeBase64Range deps "sender_hybrid_signature_base64" "signature" 65 hybridSignatureMaxBytes =
      .ok (List.replicate 65 0) := by
  decide

lemma publish_first {epoch : UInt64} {n : ℕ} (hepoch : validatePrivateGroupEpoch epoch = .ok n) {ms : List MemberRecord}
    (hms : normalizePrivateGroupMembers ms = .ok ms) :
    (publish epoch ms).first deps 0 = .goto (.publishLatest (publishJob n ms)) := by
  obtain ⟨⟨hgroup, htrim, -⟩, hciphertext, hkey, -⟩ := texts_ok
  have hcheck : checkPublishState deps ⟨"g", epoch, hex '0', ciphertext, hex '1', "alice publishes", ms⟩ 0 =
      .ok ⟨trim "g", n, hex '0', ciphertext, hex '1', List.replicate authKeyLen 0xaa, ms, 0⟩ :=
    bind_ok.2 ⟨_, hgroup, bind_ok.2 ⟨_, hepoch, bind_ok.2 ⟨_, hex_ok (by decide) _, bind_ok.2 ⟨_, hex_ok (by decide) _,
      bind_ok.2 ⟨_, hciphertext, bind_ok.2 ⟨_, hkey, bind_ok.2 ⟨_, hms, rfl⟩⟩⟩⟩⟩⟩⟩
  simp [Request.first, publish, hcheck, Next.ofExcept, htrim, publishJob]

lemma send_first {epoch : UInt64} {n : ℕ} (hepoch : validatePrivateGroupEpoch epoch = .ok n) {handle : Char}
    (hhandle : handle ∈ digits) : (send epoch handle).first deps 0 = .goto (.messageLatest (sendJob n handle)) := by
  obtain ⟨⟨hgroup, htrim, hsigned⟩, hciphertext, -, -, hkey, hsignature⟩ := texts_ok
  have hcheck : checkPublishMessage deps ⟨"g", epoch, 0, ciphertext, "signature", hex handle, "bob fetches"⟩ =
      .ok ⟨trim "g", n, 0, ciphertext, trim "signature", hex handle, List.replicate authKeyLen 0xcc⟩ :=
    bind_ok.2 ⟨_, hgroup, bind_ok.2 ⟨_, hepoch, bind_ok.2 ⟨_, hex_ok hhandle _, bind_ok.2 ⟨_, hciphertext,
      bind_ok.2 ⟨_, hsignature, bind_ok.2 ⟨_, hkey, rfl⟩⟩⟩⟩⟩⟩
  simp [Request.first, send, hcheck, Next.ofExcept, htrim, hsigned, sendJob]

lemma fetch_first {handle : Char} (hhandle : handle ∈ digits) :
    (fetch handle).first deps 0 = .goto (.readCredential ⟨hex handle, List.replicate authKeyLen 0xbb, 0⟩) := by
  obtain ⟨-, -, -, hkey, -⟩ := texts_ok
  have hcheck : checkFetchMessages deps (hex handle) "alice fetches" none = .ok ⟨hex handle, List.replicate authKeyLen 0xbb, 0⟩ :=
    bind_ok.2 ⟨(hex handle, List.replicate authKeyLen 0xbb), bind_ok.2 ⟨_, hex_ok hhandle _, bind_ok.2 ⟨_, hkey, rfl⟩⟩, rfl⟩
  simp [Request.first, fetch, hcheck, Next.ofExcept]

/-- alice, in both epochs with the same fetch key -/
def alice : Member := fun g e =>
  if g ≠ "g" then none
  else if e = 1 then some (hex '1', List.replicate authKeyLen 0xbb)
  else if e = 2 then some (hex '3', List.replicate authKeyLen 0xbb)
  else none

/-- alice fetches bob's message before she ends the first epoch; a second message is sent in the second epoch -/
def fetchedInTime : List (Op Bool) :=
  .start false (publish 1 (members '1' '2')) 0 :: advance false 6 1 ++ .start true (send 1 '2') 0 :: advance true 3 1 ++
    .start false (fetch '1') 0 :: advance false 2 1 ++ .start false (publish 2 (members '3' '4')) 0 :: advance false 8 1 ++
    .start true (send 2 '4') 0 :: advance true 3 2

/-- alice ends the first epoch when bob's message has been checked and not yet inserted -/
def raced : List (Op Bool) :=
  .start false (publish 1 (members '1' '2')) 0 :: advance false 6 1 ++ .start true (send 1 '2') 0 :: advance true 2 1 ++
    .start false (publish 2 (members '3' '4')) 0 :: (advance false 8 1 ++ advance true 1 1)

section

variable {w : World Bool} {i : Bool} {request : Request} {next : Next}

/-- a request is replaced by the outcome of its checks -/
lemma run_start (h : request.first deps 0 = next) (ops : List (Op Bool)) :
    run (step deps) w (.start i request 0 :: ops) = run (step deps) (w.accept i next) ops := by
  rw [← h]
  rfl

lemma legal_start (h : request.first deps 0 = next) (ops : List (Op Bool)) :
    Legal (step deps) (fun w o => inTime deps alice w o = true) w (.start i request 0 :: ops) ↔
      Legal (step deps) (fun w o => inTime deps alice w o = true) (w.accept i next) ops := by
  rw [← h]
  exact and_iff_right rfl

end

lemma firstEpoch_first : (publish 1 (members '1' '2')).first deps 0 = .goto (.publishLatest (publishJob 1 (members '1' '2'))) :=
  publish_first (by decide) (members_ok (by decide) (by decide) (fun h => absurd (hex_injective h) (by decide)))

lemma secondEpoch_first :
    (publish 2 (members '3' '4')).first deps 0 = .goto (.publishLatest (publishJob 2 (members '3' '4'))) :=
  publish_first (by decide) (members_ok (by decide) (by decide) (fun h => absurd (hex_injective h) (by decide)))

lemma firstMessage_first : (send 1 '2').first deps 0 = .goto (.messageLatest (sendJob 1 '2')) :=
  send_first (by decide) (by decide)

lemma secondMessage_first : (send 2 '4').first deps 0 = .goto (.messageLatest (sendJob 2 '4')) :=
  send_first (by decide) (by decide)

lemma fetchedInTime_legal : Legal (step deps) (fun w o => inTime deps alice w o = true) start fetchedInTime := by
  simp only [fetchedInTime, legal_append, run_append, legal_start firstEpoch_first, run_start firstEpoch_first,
    legal_start firstMessage_first, run_start firstMessage_first, legal_start secondEpoch_first, run_start secondEpoch_first,
    legal_start secondMessage_first, legal_start (fetch_first (by decide : '1' ∈ digits)),
    run_start (fetch_first (by decide : '1' ∈ digits))]
  decide +kernel

/-- the race, from the checked requests -/
def racedWorld : World Bool :=
  run (World.step deps) ((run (World.step deps) ((run (World.step deps)
    (World.start.accept false (.goto (.publishLatest (publishJob 1 (members '1' '2'))))) (advance false 6 1)).accept true
    (.goto (.messageLatest (sendJob 1 '2')))) (advance true 2 1)).accept false
    (.goto (.publishLatest (publishJob 2 (members '3' '4'))))) (advance false 8 1 ++ advance true 1 1)

lemma run_raced : run (step deps) start raced = racedWorld := by
  rw [raced, run_append, run_append, run_start firstEpoch_first, run_start firstMessage_first, run_start secondEpoch_first]
  rfl

lemma racedWorld_state : (latestEpoch racedWorld.tables.keys racedWorld.tables.committed "g" = some 2 ∧
      holdsCredential deps racedWorld.tables alice "g" 1 = true ∧ holdsCredential deps racedWorld.tables alice "g" 2 = true) ∧
    (racedWorld.tables.committed (.message 1)).map (fun row => (row.groupId, row.epoch)) = some ("g", 1) ∧
    Reply.message 1 "g" 1 0 ∈ racedWorld.replies ∧ fetched racedWorld alice "g" 1 = false := by
  decide

end Sample

open PrivateGroups.Sample in
/-- both messages are accepted, and alice has fetched the first one in time -/
theorem messages_survive_alice :
    Legal (World.step deps) (fun w o => inTime deps alice w o = true) World.start fetchedInTime ∧
    MessagesSurvive deps alice (run (World.step deps) World.start fetchedInTime) :=
  ⟨fetchedInTime_legal, messages_survive deps alice fetchedInTime fetchedInTime_legal⟩

open PrivateGroups.Sample in
/-- bob's message is accepted in epoch 1, of which alice had a credential, after epoch 2 was published, of which she has one
too; she has not fetched it, and no credential of hers fetches it -/
theorem message_lost :
    Reply.message 1 "g" 1 0 ∈ (run (World.step deps) World.start raced).replies ∧
    Stays deps (run (World.step deps) World.start raced).tables alice "g" 1 ∧
    fetched (run (World.step deps) World.start raced) alice "g" 1 = false ∧
    ¬Fetchable deps (run (World.step deps) World.start raced).tables alice "g" 1 := by
  have hinv := run_epochsInv deps raced
  rw [run_raced] at hinv ⊢
  obtain ⟨⟨hlatest, hfirst, hsecond⟩, hmessage, hreply, hfetched⟩ := racedWorld_state
  have hstates := latestEpoch_some hlatest
  refine ⟨hreply, fun e hlow hstate => ?_, hfetched, fun h => ?_⟩
  · have hhigh := hstates.2 e hstate
    obtain rfl | rfl : e = 1 ∨ e = 2 := by omega
    · exact hfirst
    · exact hsecond
  · obtain ⟨row, hrow, heq⟩ := map_eq_some_iff.1 hmessage
    obtain ⟨hgroup, hepoch⟩ := Prod.mk.inj heq
    have hle := hinv.fetchable_last (by decide) h hrow (by rw [hgroup]; exact hstates.1)
    omega

end PqMsg.Server.PrivateGroups
