/-
Invites to private groups: how often one is consumed, and which epoch a resolved one is for.

`consume_private_group_invite` looks the invite up and then revokes it, in two statements that commit at once. The `UPDATE`
asks for an invite that is not revoked, but the handler does not ask how many rows it has changed: whoever has found the
invite before somebody else revokes it is told that they have consumed it.

- `invites_single_use`: if no request looks an invite up while another one is about to revoke it, and tokens are not drawn
  twice, then no invite is consumed twice; and every invite that was resolved was one of the latest epoch of its group when
  the handler compared the two.
- `consumed_twice`: two requests that look the same invite up before either revokes it are both told that it is consumed.
-/
import PqMsg.Server.GroupMessages

namespace PqMsg.Server.PrivateGroups

open Lib Function List Option PrivateGroups.World Store

variable {ι : Type} [DecidableEq ι] {d : Deps} {rows : RowView} {keys : List Key} {p : Phase} {stmt : Stmt}
  {w w' : World ι} {next : Next}

/-! ## Invites in replies -/

def Reply.invitedToken : Reply → Option String
  | .invited token .. => some token
  | _ => none

def Reply.consumedToken : Reply → Option String
  | .consumed token _ => some token
  | _ => none

/-- the invites that were created -/
def invitedTokens (w : World ι) : List String := w.replies.filterMap Reply.invitedToken

/-- the invite of each request that was answered with `consumed: true` -/
def consumedTokens (w : World ι) : List String := w.replies.filterMap Reply.consumedToken

/-- the invite that a handler has found and is about to revoke -/
def Phase.consuming : Phase → Option String
  | .consumeUpdate token => some token
  | _ => none

/-- the invite that a handler is about to look up in order to consume it -/
def Phase.looking : Phase → Option String
  | .consumeLoad token => some token
  | _ => none

def Phase.isInviteInsert : Phase → Bool
  | .inviteInsert _ => true
  | _ => false

/-- an invite is looked up while nobody is about to revoke it, and a new token was never drawn before -/
def OneConsumer (w : World ι) : Op ι → Prop
  | .advance i x => (∀ token ∈ (w.handlers i).looking, ∀ j, (w.handlers j).consuming ≠ some token) ∧
      ((w.handlers i).isInviteInsert → x.inviteToken ∉ invitedTokens w)
  | _ => True

instance OneConsumer.decidable [Fintype ι] (w : World ι) : ∀ o, Decidable (OneConsumer w o)
  | .advance _ _ => inferInstanceAs (Decidable (_ ∧ _))
  | .start _ _ _ | .fail _ => isTrue trivial

/-- every resolved invite was one of the latest epoch at a moment of its request: the handler was busy, and answers next -/
def ResolvedCurrent (d : Deps) (ops : List (Op ι)) : Prop :=
  ∀ n token invite, (run (World.step d) World.start ops).replies[n]? = some (.resolved token invite) →
    ∃ before i x after, ops = before ++ .advance i x :: after ∧
      (run (World.step d) World.start before).replies.length = n ∧
      (run (World.step d) World.start before).isIdle i = false ∧
      latestEpoch (run (World.step d) World.start before).tables.keys
        (run (World.step d) World.start before).tables.committed invite.groupId = some invite.epoch

/-! ## Rows of invites -/

/-- every invite that is stored afterwards was stored before, or is revoked; and so for what is to be committed -/
structure Aged (issued : List String) (s s' : Tables ι) : Prop where
  committed : ∀ t row, s'.committed (.invite t) = some row →
    s.committed (.invite t) = some row ∨ t ∈ issued ∧ row.revokedAt ≠ none
  draft : ∀ t j row, s'.draft (.invite t) = some (j, some row) → t ∈ issued ∧ row.revokedAt ≠ none

/-- a statement writes invites only to revoke or delete them -/
def Stmt.Ages (stmt : Stmt) : Prop :=
  ∀ (view : RowView) t row, stmt.writes view (.invite t) = some (some row) →
    (view (.invite t)).isSome ∧ row.revokedAt ≠ none

lemma ages_of_none (h : ∀ (view : RowView) t, stmt.writes view (.invite t) = none) : stmt.Ages := by
  intro view t row hrow
  rw [h view t] at hrow
  cases hrow

lemma update_some {α : Type} {row new : Option α} {cond : α → Bool} {f : α → α} (h : update row cond f = some new) :
    ∃ old, row = some old ∧ cond old = true ∧ new = some (f old) := by
  obtain ⟨old, hold, rfl⟩ := map_eq_some_iff.1 h
  obtain ⟨hrow, hcond⟩ := filter_eq_some_iff.1 hold
  exact ⟨old, hrow, hcond, rfl⟩

lemma ages_revokeInvites (groupId : String) (epoch now : ℕ) : (Stmt.revokeInvites groupId epoch now).Ages := by
  intro view t row hrow
  obtain ⟨old, hold, -, heq⟩ := update_some hrow
  rw [hold, some.inj heq]
  exact ⟨rfl, by simp⟩

lemma ages_purgeInvites (now : ℕ) : (Stmt.purgeInvites now).Ages := by
  intro view t row hrow
  obtain ⟨old, -, heq⟩ := map_eq_some_iff.1 hrow
  cases heq

lemma ages_consumeInvite (token : String) (now : ℕ) : (Stmt.consumeInvite token now).Ages := by
  intro view t row hrow
  simp only [Stmt.writes, onInvite, ite_none_right_eq_some] at hrow
  obtain ⟨old, hold, -, heq⟩ := update_some hrow.2
  rw [hold, some.inj heq]
  exact ⟨rfl, by simp⟩

section Rows

variable {issued : List String} {s s' : Tables ι} {i : ι}

lemma Aged.commit (h : Aged issued s s') (i : ι) : Aged issued s (s'.commit i) where
  committed t row hrow := by
    rcases view_cases s' i (.invite t) with ⟨x, hdraft, hview⟩ | ⟨-, hview⟩
    · obtain rfl : x = some row := hview.symm.trans hrow
      exact .inr (h.draft t i row hdraft)
    · exact h.committed t row (hview.symm.trans hrow)
  draft t j row hrow := h.draft t j row (commit_draft.1 hrow).1

lemma Aged.settled (h : Aged issued s s') (i : ι) (atOnce : Bool) : Aged issued s (settled i s' atOnce) := by
  cases atOnce with
  | false => exact h
  | true => exact h.commit i

/-- a statement that ages invites -/
lemma Aged.exec (hstored : ∀ t, (s.committed (.invite t)).isSome → t ∈ issued) (hs : Aged issued s s) (hages : stmt.Ages)
    (hexec : s.exec i stmt = .done s') : Aged issued s s' := by
  obtain ⟨-, -, -, rfl⟩ := exec_done hexec
  refine ⟨fun t row hrow => .inl hrow, fun t j row hrow => ?_⟩
  rcases write_draft_cases s i stmt.new.toList (stmt.writes (s.view i)) (.invite t) with heq | ⟨x, hwrites, heq⟩
  · exact hs.draft t j row (heq.symm.trans hrow)
  · obtain ⟨-, rfl⟩ := Prod.mk.inj (some.inj (heq.symm.trans hrow))
    obtain ⟨hseen, hrevoked⟩ := hages _ _ _ hwrites
    refine ⟨?_, hrevoked⟩
    -- the row that is revoked is one that the process sees
    obtain ⟨old, hold⟩ := isSome_iff_exists.1 hseen
    rcases view_cases s i (.invite t) with ⟨x, hdraft, hview⟩ | ⟨-, hview⟩
    · obtain rfl : x = some old := hview.symm.trans hold
      exact (hs.draft t i old hdraft).1
    · exact hstored t (by rw [← hview, hold]; rfl)

end Rows

/-! ## The invariant -/

/-- what holds of invites in every run in which consumers do not meet -/
structure InvitesInv (w : World ι) : Prop where
  stored : ∀ t, (w.tables.committed (.invite t)).isSome → t ∈ invitedTokens w
  drafts : ∀ t j row, w.tables.draft (.invite t) = some (j, some row) → t ∈ invitedTokens w ∧ row.revokedAt ≠ none
  consuming : ∀ i t, (w.handlers i).consuming = some t → t ∈ invitedTokens w ∧ t ∉ consumedTokens w
  alone : ∀ i j t, (w.handlers i).consuming = some t → (w.handlers j).consuming = some t → i = j
  spent : ∀ t ∈ consumedTokens w, t ∈ invitedTokens w ∧ ∀ row, w.tables.committed (.invite t) = some row → row.revokedAt ≠ none
  once : (consumedTokens w).Nodup

omit [DecidableEq ι] in
lemma InvitesInv.start : InvitesInv (start (ι := ι)) where
  stored _ h := by cases h
  drafts _ _ _ h := by cases h
  consuming _ _ h := by cases h
  alone _ _ _ h := by cases h
  spent _ h := by cases h
  once := nodup_nil

omit [DecidableEq ι] in
lemma InvitesInv.aged {w : World ι} (hw : InvitesInv w) : Aged (invitedTokens w) w.tables w.tables :=
  ⟨fun _ _ hrow => Or.inl hrow, hw.drafts⟩

/-- invites are created and consumed, and others are revoked or deleted -/
structure Changes (w w' : World ι) (created spent : List String) : Prop where
  invited : invitedTokens w' = invitedTokens w ++ created
  consumed : consumedTokens w' = consumedTokens w ++ spent
  rows : ∀ t row, w'.tables.committed (.invite t) = some row →
    (w.tables.committed (.invite t) = some row ∧ t ∉ spent) ∨ t ∈ created ∨ t ∈ invitedTokens w ∧ row.revokedAt ≠ none
  draft : ∀ t j row, w'.tables.draft (.invite t) = some (j, some row) → t ∈ invitedTokens w ∧ row.revokedAt ≠ none
  handlers : ∀ j t, (w'.handlers j).consuming = some t → (w.handlers j).consuming = some t ∧ t ∉ spent

omit [DecidableEq ι] in
lemma InvitesInv.changes (hw : InvitesInv w) (created spent : List String) (h : Changes w w' created spent)
    (hcreated : ∀ t ∈ created, t ∉ invitedTokens w) (hspent : ∀ t ∈ spent, t ∈ invitedTokens w ∧ t ∉ consumedTokens w)
    (hnodup : spent.Nodup) : InvitesInv w' where
  stored t ht := by
    obtain ⟨row, hrow⟩ := isSome_iff_exists.1 ht
    rw [h.invited, mem_append]
    rcases h.rows t row hrow with ⟨hold, -⟩ | hnew | ⟨hissued, -⟩
    · exact Or.inl (hw.stored t (by rw [hold]; rfl))
    · exact Or.inr hnew
    · exact Or.inl hissued
  drafts t j row hrow := by
    rw [h.invited]
    exact (h.draft t j row hrow).imp_left (mem_append_left _)
  consuming i t hi := by
    obtain ⟨hold, hnot⟩ := h.handlers i t hi
    obtain ⟨hissued, hunconsumed⟩ := hw.consuming i t hold
    rw [h.invited, h.consumed]
    exact ⟨mem_append_left _ hissued, fun ht => (mem_append.1 ht).elim hunconsumed hnot⟩
  alone i j t hi hj := hw.alone i j t (h.handlers i t hi).1 (h.handlers j t hj).1
  spent t ht := by
    have hissued : t ∈ invitedTokens w := by
      rw [h.consumed, mem_append] at ht
      exact ht.elim (fun ht => (hw.spent t ht).1) fun ht => (hspent t ht).1
    rw [h.invited]
    refine ⟨mem_append_left _ hissued, fun row hrow => ?_⟩
    rcases h.rows t row hrow with ⟨hold, hnot⟩ | hnew | ⟨-, hrevoked⟩
    · rw [h.consumed, mem_append] at ht
      exact (hw.spent t (ht.resolve_right hnot)).2 row hold
    · exact absurd hissued (hcreated t hnew)
    · exact hrevoked
  once := by
    rw [h.consumed]
    exact nodup_append.2 ⟨hw.once, hnodup, fun a ha b hb hab => (hspent b hb).2 (hab ▸ ha)⟩

/-- a step that creates and consumes no invite, and after which nobody new is about to consume one -/
structure Uneventful (w w' : World ι) : Prop where
  tables : Aged (invitedTokens w) w.tables w'.tables
  handlers : ∀ j t, (w'.handlers j).consuming = some t → (w.handlers j).consuming = some t
  invited : invitedTokens w' = invitedTokens w
  consumed : consumedTokens w' = consumedTokens w

omit [DecidableEq ι] in
lemma InvitesInv.uneventful (hw : InvitesInv w) (h : Uneventful w w') : InvitesInv w' := by
  have hchanges : Changes w w' [] [] := {
    invited := by simp [h.invited]
    consumed := by simp [h.consumed]
    rows := fun t row hrow => (h.tables.committed t row hrow).imp (⟨·, by simp⟩) Or.inr
    draft := h.tables.draft
    handlers := fun j t hj => ⟨h.handlers j t hj, by simp⟩ }
  exact hw.changes _ _ hchanges (by simp) (by simp) nodup_nil

/-! ## Steps that do nothing to invites but revoke and delete them -/

/-- a next move of a handler in phase `p` that creates and consumes no invite, and resolves one only if it is current -/
def Next.Plain (p : Phase) (keys : List Key) (rows : RowView) : Next → Prop
  | .goto (.consumeUpdate _) | .answer (.invited ..) | .answer (.consumed ..) => False
  | .answer (.resolved token invite) =>
    p = .resolveLatest token invite ∧ latestEpoch keys rows invite.groupId = some invite.epoch
  | _ => True

def Turn.Plain (p : Phase) (keys : List Key) (rows : RowView) : Turn → Prop
  | .next n => n.Plain p keys rows
  | .write stmt _ n _ => stmt.Ages ∧ n.Plain p keys rows
  | .commit _ => True

/-- every turn but those that create an invite or consume one -/
lemma turn_plain (hinsert : ∀ job, p ≠ .inviteInsert job) (hload : ∀ token, p ≠ .consumeLoad token)
    (hupdate : ∀ token, p ≠ .consumeUpdate token) (x : Draw) : (p.turn d keys rows x).Plain p keys rows := by
  cases p with
  | idle => trivial
  | publishLatest job =>
    exact authorizePublish_outcome (P := Next.Plain _ keys rows) job (fun _ => trivial) (fun _ => trivial) fun _ _ _ => trivial
  | publishCredential | inviteCredential | messageCredential =>
    exact checkCredential_outcome (P := Next.Plain _ keys rows) (fun _ => trivial) fun _ _ _ => trivial
  | publishRevoke => exact ⟨ages_of_none fun _ _ => rfl, trivial⟩
  | publishing job latest step =>
    cases step with
    | insertState => exact ⟨ages_of_none fun _ _ => onKey_ne (by simp) _, trivial⟩
    | revokeInvites => exact ⟨ages_revokeInvites _ _ _, trivial⟩
    | insertMembers rest =>
      cases rest with
      | nil => trivial
      | cons => exact ⟨ages_of_none fun _ _ => onKey_ne (by simp) _, trivial⟩
  | fetchCredential | readCredential | resolveLoad =>
    exact ofExcept_outcome (P := Next.Plain _ keys rows) (fun _ => trivial) fun _ _ => trivial
  | fetchState g e =>
    unfold Phase.turn
    dsimp only
    cases rows (.state g e) <;> trivial
  | invitePurge => exact ⟨ages_purgeInvites _, trivial⟩
  | inviteLatest | messageLatest =>
    exact checkLatest_outcome (P := Next.Plain _ keys rows) (fun _ => trivial) fun _ _ => trivial
  | inviteInsert job => exact absurd rfl (hinsert job)
  | resolvePurge token | consumePurge token =>
    refine ⟨ages_purgeInvites _, ?_⟩
    cases validatePrivateGroupInviteToken token <;> trivial
  | resolveLatest token invite =>
    unfold Phase.turn
    dsimp only
    cases hlatest : latestEpoch keys rows invite.groupId with
    | none => trivial
    | some =>
      dsimp only
      split_ifs with hepoch
      · trivial
      · exact ⟨rfl, by rw [hlatest, of_not_not hepoch]⟩
  | consumeLoad token => exact absurd rfl (hload token)
  | consumeUpdate token => exact absurd rfl (hupdate token)
  | messageInsert =>
    unfold Phase.turn
    dsimp only
    split_ifs
    · trivial
    · exact ⟨ages_of_none fun _ _ => onKey_ne (by simp) _, trivial⟩
  | readMessages => trivial

section Steps

variable {w : World ι} {i : ι} {turn : Turn}

lemma goto_consuming {j : ι} {t : String} (hp : p.consuming = none)
    (h : (Function.update w.handlers i p j).consuming = some t) : (w.handlers j).consuming = some t := by
  by_cases hj : j = i
  · subst hj
    rw [update_self, hp] at h
    cases h
  · rwa [update_of_ne hj] at h

lemma invitedTokens_answer (s : Tables ι) (reply : Reply) :
    invitedTokens ((w.withTables s).answer i reply) = invitedTokens w ++ reply.invitedToken.toList := by
  simp only [invitedTokens, answer, withTables, goto, filterMap_append]
  cases h : reply.invitedToken <;> simp [h]

lemma consumedTokens_answer (s : Tables ι) (reply : Reply) :
    consumedTokens ((w.withTables s).answer i reply) = consumedTokens w ++ reply.consumedToken.toList := by
  simp only [consumedTokens, answer, withTables, goto, filterMap_append]
  cases h : reply.consumedToken <;> simp [h]

/-- the tables change, and the handler makes a plain move -/
lemma uneventful_follow {s : Tables ι} (hs : Aged (invitedTokens w) w.tables s) (hnext : next.Plain p keys rows) :
    Uneventful w ((w.withTables s).follow i next) := by
  cases next with
  | goto phase =>
    refine ⟨hs, fun j t hj => goto_consuming ?_ hj, rfl, rfl⟩
    cases phase with
    | consumeUpdate => cases hnext
    | _ => rfl
  | answer reply =>
    have htokens : reply.invitedToken = none ∧ reply.consumedToken = none := by
      cases reply with
      | invited | consumed => cases hnext
      | _ => exact ⟨rfl, rfl⟩
    refine ⟨hs, fun j t hj => goto_consuming rfl hj, (invitedTokens_answer s reply).trans ?_,
      (consumedTokens_answer s reply).trans ?_⟩
    · simp [htokens.1]
    · simp [htokens.2]

lemma InvitesInv.rollback (hw : InvitesInv w) (i : ι) : Aged (invitedTokens w) w.tables (w.tables.rollback i) :=
  ⟨fun _ _ hrow => Or.inl hrow, fun t j row hrow => hw.drafts t j row (rollback_draft.1 hrow).1⟩

lemma InvitesInv.uneventful_take (hw : InvitesInv w) (hturn : turn.Plain p keys rows) : Uneventful w (w.take i turn) := by
  cases turn with
  | next => exact uneventful_follow (s := w.tables) hw.aged hturn
  | write stmt atOnce n onConflict =>
    have hfail : (Next.fail onConflict).Plain p keys rows := trivial
    exact w.write_rule i ⟨hw.aged, fun _ _ h => h, rfl, rfl⟩ (uneventful_follow (hw.rollback i) hfail) fun s hexec =>
      uneventful_follow ((hw.aged.exec hw.stored hturn.1 hexec).settled i atOnce) hturn.2
  | commit =>
    exact ⟨hw.aged.commit i, fun j t hj => goto_consuming rfl hj, (invitedTokens_answer (i := i) _ _).trans (append_nil _),
      (consumedTokens_answer (i := i) _ _).trans (append_nil _)⟩

/-! ## Creating and consuming -/

variable {token : String} {row : InviteRow} {now : ℕ} {error : AppError}

/-- a statement of its own, with an answer -/
lemma InvitesInv.write (hw : InvitesInv w) {reply : Reply}
    (hdone : ∀ s, w.tables.exec i stmt = .done s → InvitesInv ((w.withTables (s.commit i)).answer i reply)) :
    InvitesInv (w.write i stmt true (.answer reply) error) := by
  have hfail : (Next.fail error).Plain .idle [] (fun _ => none) := trivial
  exact w.write_rule i hw (hw.uneventful (uneventful_follow (hw.rollback i) hfail)) hdone

/-- a new invite: nobody has consumed its token, and nobody is about to -/
lemma InvitesInv.insert (hw : InvitesInv w) {groupId : String} {epoch expiresAt createdAt : ℕ}
    (hfresh : token ∉ invitedTokens w) :
    InvitesInv (w.write i (.insertInvite token row) true (.answer (.invited token groupId epoch expiresAt createdAt)) error) := by
  refine hw.write fun s hexec => ?_
  obtain ⟨-, hcommitted, hdraft, hothers⟩ := insert_done (k := .invite token) hexec rfl rfl
  have hother : ∀ t, t ≠ token → s.draft (.invite t) = w.tables.draft (.invite t) :=
    fun t ht => hothers (.invite t) (by simpa using ht)
  refine hw.changes [token] [] ⟨invitedTokens_answer _ _, consumedTokens_answer _ _,
    fun t row' hrow => ?_, fun t j row' hrow => ?_, fun j t hj => ⟨goto_consuming rfl hj, by simp⟩⟩ (by simpa using hfresh)
    (by simp) nodup_nil
  · by_cases htoken : t = token
    · exact .inr (.inl (mem_singleton.2 htoken))
    · -- every other row is as it was, or as it was about to be
      rcases view_cases s i (.invite t) with ⟨x, hd, hview⟩ | ⟨-, hview⟩
      · obtain rfl : x = some row' := hview.symm.trans hrow
        exact .inr (.inr (hw.drafts t i row' ((hother t htoken).symm.trans hd)))
      · rw [← hcommitted]
        exact .inl ⟨hview.symm.trans hrow, by simp⟩
  · obtain ⟨hd, hne⟩ := commit_draft.1 hrow
    refine hw.drafts t j row' ((hother t ?_).symm.trans hd)
    rintro rfl
    exact hne (congrArg Prod.fst (some.inj (hdraft.symm.trans hd))).symm

/-- an invite is found that nobody is about to revoke -/
lemma InvitesInv.load (hw : InvitesInv w) (hrow : w.tables.committed (.invite token) = some row)
    (hactive : row.revokedAt = none) (halone : ∀ j, (w.handlers j).consuming ≠ some token) :
    InvitesInv (w.goto i (.consumeUpdate token)) := by
  have hcases : ∀ j t, ((w.goto i (.consumeUpdate token)).handlers j).consuming = some t →
      (j = i ∧ t = token) ∨ (w.handlers j).consuming = some t := by
    intro j t hj
    by_cases hji : j = i
    · subst hji
      simp only [goto, update_self, Phase.consuming, some.injEq] at hj
      exact .inl ⟨rfl, hj.symm⟩
    · simp only [goto, update_of_ne hji] at hj
      exact .inr hj
  refine ⟨hw.stored, hw.drafts, fun j t hj => ?_, fun j k t hj hk => ?_, hw.spent, hw.once⟩
  · rcases hcases j t hj with ⟨-, rfl⟩ | hold
    · exact ⟨hw.stored t (by rw [hrow]; rfl), fun hspent => (hw.spent t hspent).2 row hrow hactive⟩
    · exact hw.consuming j t hold
  · rcases hcases j t hj with ⟨rfl, rfl⟩ | hjold
    · rcases hcases k t hk with ⟨rfl, -⟩ | hkold
      · rfl
      · exact absurd hkold (halone k)
    · rcases hcases k t hk with ⟨-, rfl⟩ | hkold
      · exact absurd hjold (halone j)
      · exact hw.alone j k t hjold hkold

lemma writes_consumeInvite (view : RowView) (token : String) (now : ℕ) :
    (Stmt.consumeInvite token now).writes view (.invite token) =
      update (view (.invite token)) (fun row => row.revokedAt = none) ({ · with revokedAt := some now }) :=
  if_pos rfl

/-- the `UPDATE` leaves no invite of the token that is not revoked -/
lemma consumed_row {s s' : Tables ι} (hexec : s.exec i (.consumeInvite token now) = .done s')
    (hrow : (s'.commit i).committed (.invite token) = some row) : row.revokedAt ≠ none := by
  obtain ⟨-, -, -, rfl⟩ := exec_done hexec
  rw [commit_committed] at hrow
  cases hwrites : (Stmt.consumeInvite token now).writes (s.view i) (.invite token) with
  | some =>
    obtain ⟨old, hold, -, rfl⟩ := update_some ((writes_consumeInvite _ _ _).symm.trans hwrites)
    rw [write_view_some hwrites (Or.inl (mem_keys_of_view hold))] at hrow
    rw [← some.inj hrow]
    simp
  | none =>
    -- no row is changed: the process sees none, or a revoked one
    rw [write_view_none hwrites] at hrow
    intro hactive
    rw [writes_consumeInvite, update, map_eq_none_iff, filter_eq_none_iff] at hwrites
    exact hwrites row hrow (decide_eq_true hactive)

/-- a request is answered with `consumed: true`, for the first time -/
lemma InvitesInv.consume (hw : InvitesInv w) (hi : w.handlers i = .consumeUpdate token) :
    InvitesInv (w.write i (.consumeInvite token now) true (.answer (.consumed token now)) error) := by
  refine hw.write fun s hexec => ?_
  have haged := (hw.aged.exec hw.stored (ages_consumeInvite token now) hexec).commit i
  have hconsuming : (w.handlers i).consuming = some token := by rw [hi]; rfl
  refine hw.changes [] [token] ⟨invitedTokens_answer _ _, consumedTokens_answer _ _,
    fun t row hrow => ?_, haged.draft, fun j t hj => ⟨goto_consuming rfl hj, ?_⟩⟩ (by simp)
    (by simpa using hw.consuming i token hconsuming) (nodup_singleton token)
  · by_cases htoken : t = token
    · subst htoken
      exact .inr (.inr ⟨(hw.consuming i t hconsuming).1, consumed_row hexec hrow⟩)
    · exact (haged.committed t row hrow).imp (⟨·, by simpa using htoken⟩) Or.inr
  · rw [mem_singleton]
    rintro rfl
    -- only this handler was about to revoke the invite, and it is done
    obtain rfl := hw.alone j i t (goto_consuming rfl hj) hconsuming
    simp [answer, goto, Phase.consuming] at hj

/-! ## Steps and runs -/

lemma loadInviteRecord_ok (h : loadInviteRecord rows token now = .ok row) :
    rows (.invite token) = some row ∧ row.revokedAt = none := by
  unfold loadInviteRecord at h
  cases hrow : (rows (.invite token)).filter fun row => now < row.expiresAt ∧ row.revokedAt = none with
  | none =>
    rw [hrow] at h
    cases h
  | some =>
    rw [hrow] at h
    cases h
    obtain ⟨hfound, hcond⟩ := filter_eq_some_iff.1 hrow
    exact ⟨hfound, (of_decide_eq_true hcond).2⟩

/-- a step from which no invite is created or consumed -/
lemma first_plain (request : Request) (now : ℕ) : (request.first d now).Plain .idle [] (fun _ => none) := by
  refine first_outcome request now (fun _ => trivial) fun phase hphase => ?_
  cases phase <;> trivial

/-- **One step** of any handler -/
lemma InvitesInv.step (hw : InvitesInv w) (o : Op ι) (hone : OneConsumer w o) : InvitesInv (w.step d o) := by
  cases o with
  | start i request now =>
    change InvitesInv (w.accept i (request.first d now))
    unfold accept
    split_ifs
    · exact hw.uneventful (uneventful_follow (s := w.tables) hw.aged (first_plain request now))
    · exact hw
  | fail i =>
    have hidle : (Next.goto .idle).Plain .idle [] (fun _ => none) := trivial
    exact hw.uneventful (uneventful_follow (hw.rollback i) hidle)
  | advance i x =>
    change InvitesInv (w.take i ((w.handlers i).turn d w.tables.keys w.tables.committed x))
    by_cases hinsert : ∃ job, w.handlers i = .inviteInsert job
    · obtain ⟨job, hi⟩ := hinsert
      rw [hi]
      exact hw.insert (hone.2 (by rw [hi]; rfl))
    by_cases hload : ∃ token, w.handlers i = .consumeLoad token
    · obtain ⟨token, hi⟩ := hload
      rw [hi]
      refine ofExcept_outcome (P := fun next => InvitesInv (w.follow i next)) (fun e => ?_) fun row hrow => ?_
      · have hfail : (Next.fail e).Plain .idle [] (fun _ => none) := trivial
        exact hw.uneventful (uneventful_follow (s := w.tables) hw.aged hfail)
      · obtain ⟨hfound, hactive⟩ := loadInviteRecord_ok hrow
        exact hw.load hfound hactive (hone.1 token (by rw [hi]; rfl))
    by_cases hupdate : ∃ token, w.handlers i = .consumeUpdate token
    · obtain ⟨token, hi⟩ := hupdate
      rw [hi]
      exact hw.consume hi
    exact hw.uneventful (hw.uneventful_take (turn_plain (fun job h => hinsert ⟨job, h⟩) (fun token h => hload ⟨token, h⟩)
      (fun token h => hupdate ⟨token, h⟩) x))

/-! ## Resolutions -/

/-- an answer of a handler in phase `p` that resolves an invite only if it is current -/
def Next.Current (p : Phase) (keys : List Key) (rows : RowView) : Next → Prop
  | .answer (.resolved token invite) =>
    p = .resolveLatest token invite ∧ latestEpoch keys rows invite.groupId = some invite.epoch
  | _ => True

def Turn.Current (p : Phase) (keys : List Key) (rows : RowView) : Turn → Prop
  | .next n | .write _ _ n _ => n.Current p keys rows
  | .commit _ => True

section Current

variable {p : Phase} {keys : List Key} {rows : RowView}

lemma Next.Plain.current {n : Next} (h : n.Plain p keys rows) : n.Current p keys rows := by
  cases n with
  | goto => trivial
  | answer reply =>
    cases reply with
    | resolved => exact h
    | _ => trivial

lemma turn_current (p : Phase) (x : Draw) : (p.turn d keys rows x).Current p keys rows := by
  by_cases hinsert : ∃ job, p = .inviteInsert job
  · obtain ⟨job, rfl⟩ := hinsert
    trivial
  by_cases hload : ∃ token, p = .consumeLoad token
  · obtain ⟨token, rfl⟩ := hload
    exact ofExcept_outcome (P := Next.Current _ keys rows) (fun _ => trivial) fun _ _ => trivial
  by_cases hupdate : ∃ token, p = .consumeUpdate token
  · obtain ⟨token, rfl⟩ := hupdate
    trivial
  have hplain : (p.turn d keys rows x).Plain p keys rows :=
    turn_plain (fun job h => hinsert ⟨job, h⟩) (fun token h => hload ⟨token, h⟩) (fun token h => hupdate ⟨token, h⟩) x
  cases hturn : p.turn d keys rows x with
  | next =>
    rw [hturn] at hplain
    exact Next.Plain.current hplain
  | write =>
    rw [hturn] at hplain
    exact Next.Plain.current hplain.2
  | commit => trivial

/-- a turn gives one answer at most -/
lemma take_replies (hturn : turn.Current p keys rows) : (w.take i turn).replies = w.replies ∨
      ∃ reply, (w.take i turn).replies = w.replies ++ [reply] ∧ (Next.answer reply).Current p keys rows := by
  have hfollow : ∀ (s : Tables ι) (n : Next), n.Current p keys rows → ((w.withTables s).follow i n).replies = w.replies ∨
        ∃ reply, ((w.withTables s).follow i n).replies = w.replies ++ [reply] ∧ (Next.answer reply).Current p keys rows := by
    intro s n hn
    cases n with
    | goto => exact .inl rfl
    | answer reply => exact .inr ⟨reply, rfl, hn⟩
  cases turn with
  | next n => exact hfollow w.tables n hturn
  | write stmt atOnce n error =>
    exact w.write_rule i (Q := fun w' => w'.replies = w.replies ∨ ∃ reply, w'.replies = w.replies ++ [reply] ∧
      (Next.answer reply).Current p keys rows) (.inl rfl) (hfollow _ (Next.fail error) trivial) fun s _ => hfollow _ n hturn
  | commit => exact .inr ⟨_, rfl, trivial⟩

end Current

/-- a step answers at most one request, and a resolution only if the invite is current -/
lemma step_replies (w : World ι) (o : Op ι) :
    (w.step d o).replies = w.replies ∨ ∃ reply, (w.step d o).replies = w.replies ++ [reply] ∧
      ∀ token invite, reply = .resolved token invite → ∃ i x, o = .advance i x ∧ w.isIdle i = false ∧
        latestEpoch w.tables.keys w.tables.committed invite.groupId = some invite.epoch := by
  cases o with
  | start i request now =>
    change (w.accept i (request.first d now)).replies = _ ∨ ∃ reply, (w.accept i (request.first d now)).replies = _ ∧ _
    unfold accept
    split_ifs
    · have hcurrent : (Turn.next (request.first d now)).Current .idle [] (fun _ => none) := (first_plain request now).current
      rcases take_replies (w := w) (i := i) hcurrent with heq | ⟨reply, heq, hreply⟩
      · exact .inl heq
      · refine .inr ⟨reply, heq, ?_⟩
        rintro token invite rfl
        cases hreply.1
    · exact .inl rfl
  | fail => exact .inl rfl
  | advance i x =>
    rcases take_replies (w := w) (i := i) (turn_current (d := d) (w.handlers i) x) with heq | ⟨reply, heq, hcurrent⟩
    · exact .inl heq
    · refine .inr ⟨reply, heq, ?_⟩
      rintro token invite rfl
      obtain ⟨hphase, hlatest⟩ := hcurrent
      exact ⟨i, x, rfl, by rw [isIdle, hphase], hlatest⟩

end Steps

lemma resolved_current (d : Deps) (ops : List (Op ι)) : ResolvedCurrent d ops := by
  induction ops using List.reverseRecOn with
  | nil =>
    intro n token invite h
    cases h
  | append_singleton ops o ih =>
    intro n token invite h
    rw [run_append] at h
    -- the last step has given the answer, or it was there before
    have hbefore : (run (step d) start ops).replies[n]? = some (.resolved token invite) →
        ∃ before i x after, ops ++ [o] = before ++ .advance i x :: after ∧ (run (step d) start before).replies.length = n ∧
          (run (step d) start before).isIdle i = false ∧
          latestEpoch (run (step d) start before).tables.keys
            (run (step d) start before).tables.committed invite.groupId = some invite.epoch := by
      intro hold
      obtain ⟨before, i, x, after, hops, hcurrent⟩ := ih n token invite hold
      exact ⟨before, i, x, after ++ [o], by rw [hops, append_assoc, cons_append], hcurrent⟩
    rcases step_replies (d := d) (run (step d) start ops) o with heq | ⟨reply, heq, hresolved⟩
    · rw [run_cons, run_nil, heq] at h
      exact hbefore h
    · rw [run_cons, run_nil, heq] at h
      rcases Nat.lt_or_ge n (run (step d) start ops).replies.length with hn | hn
      · rw [List.getElem?_append_left hn] at h
        exact hbefore h
      · rw [List.getElem?_append_right hn] at h
        obtain ⟨hzero, rfl⟩ : n = (run (step d) start ops).replies.length ∧ reply = .resolved token invite := by
          obtain ⟨hlt, hget⟩ := List.getElem?_eq_some_iff.1 h
          rw [length_singleton] at hlt
          exact ⟨by omega, by simpa using hget⟩
        obtain ⟨i, x, rfl, hbusy, hlatest⟩ := hresolved token invite rfl
        exact ⟨ops, i, x, [], rfl, hzero.symm, hbusy, hlatest⟩

/-- **Invites are consumed once, and resolved while they are current.** In every run in which an invite is looked up only
while nobody is about to revoke it, and no token is drawn twice, no two requests are told that they have consumed the same
invite. Every resolved invite was one of the latest epoch of its group while its request was handled, in any run. -/
theorem invites_single_use (d : Deps) (ops : List (Op ι)) (hone : Legal (World.step d) OneConsumer World.start ops) :
    (consumedTokens (run (World.step d) World.start ops)).Nodup ∧ ResolvedCurrent d ops :=
  ⟨(run_inv InvitesInv (fun _ o h ho => h.step o ho) ops .start hone).once, resolved_current d ops⟩

/-! ## Two runs -/

namespace Sample

def one : ℕ+ := ⟨1, Nat.one_pos⟩

def invite : Request := .createInvite ⟨"g", 1, hex '0', ciphertext, hex '1', "alice publishes", none⟩

def inviteJob : InviteJob :=
  ⟨"g", 1, hex '0', ciphertext, hex '1', List.replicate authKeyLen 0xaa, inviteDefaultTtlSecs⟩

/-- alice publishes the first epoch, and creates an invite -/
def invitation : List (Op Bool) :=
  .start false (publish 1 (members '1' '2')) 0 :: advance false 6 one ++ .start false invite 0 :: advance false 4 one

/-- the invite is resolved and consumed; a second request to consume it comes too late -/
def oneAfterTheOther : List (Op Bool) :=
  .start true (.resolveInvite "t") 0 :: advance true 3 one ++ .start true (.consumeInvite "t") 0 :: advance true 3 one ++
    .start false (.consumeInvite "t") 0 :: advance false 2 one

/-- both requests look the invite up before one of them revokes it -/
def atOnce : List (Op Bool) :=
  .start false (.consumeInvite "t") 0 :: .start true (.consumeInvite "t") 0 :: (advance false 2 one ++ advance true 2 one ++
    advance false 1 one ++ advance true 1 one)

lemma invite_first : invite.first deps 0 = .goto (.invitePurge inviteJob) := by
  obtain ⟨⟨hgroup, htrim, -⟩, -, hkey, -⟩ := texts_ok
  have hciphertext : checkCiphertext deps "invite_" ciphertext = .ok ciphertext := by decide
  have hcheck : checkCreateInvite deps ⟨"g", 1, hex '0', ciphertext, hex '1', "alice publishes", none⟩ =
      .ok ⟨trim "g", 1, hex '0', ciphertext, hex '1', List.replicate authKeyLen 0xaa, inviteDefaultTtlSecs⟩ :=
    bind_ok.2 ⟨_, hgroup, bind_ok.2 ⟨1, by decide, bind_ok.2 ⟨_, hex_ok (by decide) _, bind_ok.2 ⟨_, hex_ok (by decide) _,
      bind_ok.2 ⟨_, hciphertext, bind_ok.2 ⟨_, hkey, bind_ok.2 ⟨inviteDefaultTtlSecs, by decide, rfl⟩⟩⟩⟩⟩⟩⟩
  simp [Request.first, invite, hcheck, Next.ofExcept, htrim, inviteJob]

/-- the group with its invite, from the checked requests -/
def invitedWorld : World Bool :=
  run (World.step deps) ((run (World.step deps)
    (World.start.accept false (.goto (.publishLatest (publishJob 1 (members '1' '2'))))) (advance false 6 one)).accept false
    (.goto (.invitePurge inviteJob))) (advance false 4 one)

lemma run_invitation : run (step deps) start invitation = invitedWorld := by
  rw [invitation, run_append, run_start firstEpoch_first, run_start invite_first]
  rfl

lemma legal_startOne {w : World Bool} {i : Bool} {request : Request} (h : request.first deps 0 = next) (ops : List (Op Bool)) :
    Legal (step deps) OneConsumer w (.start i request 0 :: ops) ↔ Legal (step deps) OneConsumer (w.accept i next) ops := by
  rw [← h]
  exact and_iff_right trivial

lemma invitation_legal : Legal (step deps) OneConsumer start invitation := by
  rw [invitation, legal_append, legal_startOne firstEpoch_first, run_start firstEpoch_first, legal_startOne invite_first]
  decide

lemma invitedWorld_state : Legal (step deps) OneConsumer invitedWorld oneAfterTheOther ∧
    consumedTokens (run (step deps) invitedWorld oneAfterTheOther) = ["t"] ∧
    consumedTokens (run (step deps) invitedWorld atOnce) = ["t", "t"] := by
  decide

end Sample

open PrivateGroups.Sample in
/-- the invite is resolved and consumed once -/
theorem invites_single_use_oneAfterTheOther :
    consumedTokens (run (World.step deps) World.start (invitation ++ oneAfterTheOther)) = ["t"] ∧
    Legal (World.step deps) OneConsumer World.start (invitation ++ oneAfterTheOther) ∧
    (consumedTokens (run (World.step deps) World.start (invitation ++ oneAfterTheOther))).Nodup ∧
    ResolvedCurrent deps (invitation ++ oneAfterTheOther) := by
  have hlegal : Legal (step deps) OneConsumer start (invitation ++ oneAfterTheOther) := by
    rw [legal_append, run_invitation]
    exact ⟨invitation_legal, invitedWorld_state.1⟩
  refine ⟨?_, hlegal, invites_single_use deps _ hlegal⟩
  rw [run_append, run_invitation]
  exact invitedWorld_state.2.1

open PrivateGroups.Sample in
/-- two requests that meet are both told that they have consumed the invite -/
theorem consumed_twice :
    consumedTokens (run (World.step deps) World.start (invitation ++ atOnce)) = ["t", "t"] := by
  rw [run_append, run_invitation]
  exact invitedWorld_state.2.2

end PqMsg.Server.PrivateGroups
