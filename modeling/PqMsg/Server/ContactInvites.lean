/-
Contact invites at the server (`handlers/invites.rs`), and the tickets for contact discovery that carry one
(`create_contact_discovery_ticket`).

An invite is for sharing by hand, or for contact discovery. A new invite for sharing takes the place of the old one. A ticket
takes the invite that the user has, if there is one that has not expired; otherwise all invites of the kind are deleted and a
new one is inserted. Look-up, deletion and insertion are three statements, and each commits at once.

- `invites_stay_valid`: if a ticket request looks for an invite only while no other ticket request of the user is between its
  look-up and its insertion, then every invite in a ticket can be resolved until it expires, and a user has at most one invite
  for discovery that has not expired.
- `first_tickets_race`: two first requests; the first ticket carries an invite that the second request deletes, or both invites
  are stored.

Accounts are not deleted. Rate limits and the authentication of requests can only turn requests away and are left out. The
time that a statement is bound to was read before the statement is run: it is any time up to the present.
-/
import PqMsg.Lib.KeyedTable
import PqMsg.Server.PrivateGroups

namespace PqMsg.Server.ContactInvites

open Lib Function List Option KeyedTable
open PrivateGroups (isAsciiAlphanumeric nanosPerSecond)

/-! ## Invites -/

def contactInviteTtlDays : ℕ := 14

inductive ContactInvitePurpose where
  | manual
  | discoveryBootstrap
deriving DecidableEq, Repr

def ContactInvitePurpose.ttl : ContactInvitePurpose → ℕ
  | .manual | .discoveryBootstrap => contactInviteTtlDays * 24 * 60 * 60 * nanosPerSecond

structure InviteRow where
  userId : String
  purpose : ContactInvitePurpose
  createdAt : ℕ
  expiresAt : ℕ
deriving DecidableEq

structure ContactInviteRecord where
  inviteToken : String
  userId : String
  expiresAt : ℕ
deriving DecidableEq

def validateContactInviteToken (inviteToken : String) : Except AppError String :=
  let trimmed := trim inviteToken
  if len trimmed = 0 ∨ len trimmed > 128 then .error (.badRequest "invite token must be 1..=128 characters")
  else if trimmed.toList.all (fun c => isAsciiAlphanumeric c || c = '-' || c = '_') = false then
    .error (.badRequest "invite token contains invalid characters")
  else .ok trimmed

/-- the token of a new invite: 32 hexadecimal digits, so that it passes the check of tokens as it is -/
def FreshToken := { token : String // validateContactInviteToken token = .ok token }

abbrev Invites := KeyedTable String InviteRow

def purgeExpiredContactInvites (invites : Invites) (now : ℕ) : Invites := invites.delete fun _ row => row.expiresAt ≤ now

variable (users : List String)

def ensureUserExists (userId : String) : Except AppError Unit :=
  if userId ∉ users then .error (.notFound ("user '" ++ userId ++ "' not found")) else .ok ()

def loadContactInviteRecord (invites : Invites) (inviteToken : String) (now : ℕ) : Except AppError ContactInviteRecord :=
  match (invites.get inviteToken).filter fun row => now < row.expiresAt with
  | none => .error (.notFound "contact invite not found or expired")
  | some row => do
    ensureUserExists users row.userId
    return ⟨inviteToken, row.userId, row.expiresAt⟩

/-- `ORDER BY created_at DESC LIMIT 1` -/
def loadActiveContactInviteForPurpose (invites : Invites) (userId : String) (purpose : ContactInvitePurpose) (now : ℕ) :
    Option ContactInviteRecord :=
  ((invites.rows.filter fun r => r.2.userId = userId ∧ r.2.purpose = purpose ∧ now < r.2.expiresAt).argmax
    fun r => r.2.createdAt).map fun r => ⟨r.1, r.2.userId, r.2.expiresAt⟩

/-- `resolve_contact_invite`, if nothing else happens -/
def resolveContactInvite (invites : Invites) (inviteToken : String) (now : ℕ) : Except AppError ContactInviteRecord := do
  let invites := purgeExpiredContactInvites invites now
  let token ← validateContactInviteToken inviteToken
  loadContactInviteRecord users invites token now

/-! ## Tickets -/

inductive TicketPurpose where
  | upload
  | match_
deriving DecidableEq, Repr

def TicketPurpose.parse (raw : String) : Except AppError TicketPurpose :=
  let lower := String.ofList ((trim raw).toList.map Char.toLower)
  if lower = "upload" then .ok .upload
  else if lower = "match" then .ok .match_
  else .error (.badRequest "contact discovery ticket purpose must be 'upload' or 'match'")

def TicketPurpose.maxUses : TicketPurpose → UInt8
  | .upload => 3
  | .match_ => 2

def ticketTtl : ℕ := 5 * 60 * nanosPerSecond

/-- what the server signs -/
structure ContactDiscoveryTicketPayload where
  userId : String
  deviceId : String
  purpose : TicketPurpose
  manifestContractSha256 : String
  contactInviteToken : String
  contactInviteExpiresAt : ℕ
  issuedAt : ℕ
  expiresAt : ℕ
  maxUses : UInt8
  nonce : String
deriving DecidableEq

structure Config where
  contactDiscoveryServiceOrigin : Option String
  contactDiscoveryExpectedManifestContractSha256 : Option String

/-! ## Handlers -/

inductive Request where
  | createContactDiscoveryTicket (userId deviceId purpose : String)
  | createContactInvite (userId : String)
  | resolveContactInvite (inviteToken : String)

/-- what `ensure_contact_invite_for_purpose` is called for -/
inductive Job where
  | ticket (userId deviceId : String) (purpose : TicketPurpose)
  | invite (userId : String)
deriving DecidableEq

def Job.userId : Job → String
  | .ticket userId _ _ | .invite userId => userId

def Job.purpose : Job → ContactInvitePurpose
  | .ticket .. => .discoveryBootstrap
  | .invite _ => .manual

def Job.rotateExisting : Job → Bool
  | .ticket .. => false
  | .invite _ => true

inductive Phase where
  | idle
  | purge (job : Job)
  | lookUp (job : Job)
  | delete (job : Job)
  | insert (job : Job) (inviteToken : String) (row : InviteRow)
  | respond (job : Job) (record : ContactInviteRecord)
  | resolvePurge (inviteToken : String)
  | resolveLoad (inviteToken : String)

inductive Reply where
  | failed (error : AppError)
  | ticket (serviceOrigin : String) (payload : ContactDiscoveryTicketPayload)
  | invite (record : ContactInviteRecord)
  | resolved (record : ContactInviteRecord)
deriving DecidableEq

variable {ι : Type} [DecidableEq ι]

structure World (ι : Type) where
  clock : ℕ
  users : List String
  invites : Invites
  handlers : ι → Phase
  replies : List Reply

open ContactInvites.World

def World.start : World ι := ⟨0, [], .empty, fun _ => .idle, []⟩

/-- the time that was read, and what the random number generator returns -/
structure Draw where
  now : ℕ
  inviteToken : FreshToken
  nonce : String

inductive Op (ι : Type) where
  | tick (n : ℕ)
  | register (userId : String)
  | start (i : ι) (request : Request)
  /-- the next statement of a handler -/
  | advance (i : ι) (x : Draw)
  /-- the server or the connection fails -/
  | fail (i : ι)

/-- the checks of a request before `ensure_contact_invite_for_purpose` -/
def Request.first (config : Config) (users : List String) : Request → Except AppError Phase
  | .createContactDiscoveryTicket userId deviceId purpose =>
    if config.contactDiscoveryServiceOrigin = none then .error (.forbidden
      "private contact discovery service is not configured; use manual contacts or invite links")
    else do
      validateId "user_id" userId
      ensureUserExists users userId
      let purpose ← TicketPurpose.parse purpose
      return .purge (.ticket userId deviceId purpose)
  | .createContactInvite userId => do
    validateId "user_id" userId
    ensureUserExists users userId
    return .purge (.invite userId)
  | .resolveContactInvite inviteToken => .ok (.resolvePurge inviteToken)

/-- the rest of a request, when it has its invite -/
def Job.reply (config : Config) (record : ContactInviteRecord) (now : ℕ) (nonce : String) : Job → Reply
  | .invite _ => .invite record
  | .ticket userId deviceId purpose =>
    match config.contactDiscoveryExpectedManifestContractSha256, config.contactDiscoveryServiceOrigin with
    | some contract, some origin => .ticket origin ⟨userId, deviceId, purpose, contract, record.inviteToken, record.expiresAt,
        now, now + ticketTtl, purpose.maxUses, nonce⟩
    | _, _ => .failed (.forbidden
        "private contact discovery manifest contract hash is not configured; use manual contacts or invite links")

namespace World

variable (w : World ι) (i : ι)

def goto (phase : Phase) : World ι := { w with handlers := Function.update w.handlers i phase }

def answer (reply : Reply) : World ι := { w.goto i .idle with replies := w.replies ++ [reply] }

def withInvites (invites : Invites) : World ι := { w with invites := invites }

/-- the next statement of `ensure_contact_invite_for_purpose`, or of a resolution; `now` was read before it -/
def advance (config : Config) (x : Draw) (now : ℕ) : World ι :=
  match w.handlers i with
  | .idle => w
  | .purge job => (w.withInvites (purgeExpiredContactInvites w.invites now)).goto i
      (if job.rotateExisting then .delete job else .lookUp job)
  | .lookUp job => match loadActiveContactInviteForPurpose w.invites job.userId job.purpose now with
    | some existing => w.goto i (.respond job existing)
    | none => w.goto i (.delete job)
  | .delete job =>
    (w.withInvites (w.invites.delete fun _ row => row.userId = job.userId ∧ row.purpose = job.purpose)).goto i
      (.insert job x.inviteToken.1 ⟨job.userId, job.purpose, now, now + job.purpose.ttl⟩)
  | .insert job token row => match w.invites.insert token row with
    | some invites => (w.withInvites invites).goto i (.respond job ⟨token, row.userId, row.expiresAt⟩)
    | none => w.answer i (.failed .database)
  | .respond job record => w.answer i (job.reply config record now x.nonce)
  | .resolvePurge token => match validateContactInviteToken token with
    | .ok token => (w.withInvites (purgeExpiredContactInvites w.invites now)).goto i (.resolveLoad token)
    | .error e => (w.withInvites (purgeExpiredContactInvites w.invites now)).answer i (.failed e)
  | .resolveLoad token => match loadContactInviteRecord w.users w.invites token now with
    | .ok record => w.answer i (.resolved record)
    | .error e => w.answer i (.failed e)

def begin (config : Config) (request : Request) : World ι :=
  match w.handlers i with
  | .idle => match request.first config w.users with
    | .ok phase => w.goto i phase
    | .error e => w.answer i (.failed e)
  | _ => w

def step (config : Config) (w : World ι) : Op ι → World ι
  | .tick n => { w with clock := w.clock + n }
  | .register userId => { w with users := userId :: w.users }
  | .start i request => w.begin i config request
  | .advance i x => w.advance i config x (min x.now w.clock)
  | .fail i => w.goto i .idle

end World

/-! ## What is claimed -/

/-- every invite in a ticket can be resolved until it expires -/
def TicketsResolve (w : World ι) : Prop :=
  ∀ origin payload, Reply.ticket origin payload ∈ w.replies → w.clock < payload.contactInviteExpiresAt →
    resolveContactInvite w.users w.invites payload.contactInviteToken w.clock =
      .ok ⟨payload.contactInviteToken, payload.userId, payload.contactInviteExpiresAt⟩

/-- the invites of a user for discovery that have not expired -/
def activeBootstrap (w : World ι) (userId : String) : List (String × InviteRow) :=
  w.invites.rows.filter fun r =>
    r.2.userId = userId ∧ r.2.purpose = .discoveryBootstrap ∧ w.clock < r.2.expiresAt

/-- the user for whom a ticket request has found no invite and has not inserted one -/
def Phase.creating : Phase → Option String
  | .delete (.ticket userId _ _) | .insert (.ticket userId _ _) _ _ => some userId
  | _ => none

/-- the user for whom a ticket request is about to look for an invite -/
def Phase.looking : Phase → Option String
  | .lookUp (.ticket userId _ _) => some userId
  | _ => none

/-- a ticket request looks for an invite while no other one of the user is creating an invite -/
def Alone (w : World ι) : Op ι → Prop
  | .advance i _ => ∀ userId ∈ (w.handlers i).looking, ∀ j, (w.handlers j).creating ≠ some userId
  | _ => True

instance Alone.decidable [Fintype ι] (w : World ι) : ∀ o, Decidable (Alone w o)
  | .advance _ _ => inferInstanceAs (Decidable (∀ _ ∈ _, _))
  | .tick _ | .register _ | .start _ _ | .fail _ => isTrue trivial

/-! ## The invariant -/

/-- until it expires, the invite is stored for the user -/
def Backed (w : World ι) (token userId : String) (expiresAt : ℕ) : Prop :=
  w.clock < expiresAt → ∃ createdAt, (token, ⟨userId, .discoveryBootstrap, createdAt, expiresAt⟩) ∈ w.invites.rows

def PhaseOk (w : World ι) : Phase → Prop
  | .purge job | .lookUp job | .delete job => job.userId ∈ w.users
  | .insert job token row => job.userId ∈ w.users ∧ row.userId = job.userId ∧ row.purpose = job.purpose ∧
      validateContactInviteToken token = .ok token
  | .respond (.ticket userId _ _) record => Backed w record.inviteToken userId record.expiresAt
  | _ => True

structure TicketInv (w : World ι) : Prop where
  oneCreator : ∀ i j userId, (w.handlers i).creating = some userId → (w.handlers j).creating = some userId → i = j
  /-- whoever creates an invite has no other one -/
  creating : ∀ i userId, (w.handlers i).creating = some userId → ∀ r ∈ w.invites.rows, r.2.userId = userId →
    r.2.purpose = .discoveryBootstrap → r.2.expiresAt ≤ w.clock
  one : ∀ r ∈ w.invites.rows, ∀ r' ∈ w.invites.rows, r.2.purpose = .discoveryBootstrap →
    r'.2.purpose = .discoveryBootstrap → r.2.userId = r'.2.userId → w.clock < r.2.expiresAt → w.clock < r'.2.expiresAt → r = r'
  rows : ∀ r ∈ w.invites.rows, r.2.userId ∈ w.users ∧ validateContactInviteToken r.1 = .ok r.1
  phases : ∀ i, PhaseOk w (w.handlers i)
  tickets : ∀ origin payload, Reply.ticket origin payload ∈ w.replies →
    Backed w payload.contactInviteToken payload.userId payload.contactInviteExpiresAt

omit [DecidableEq ι] in
lemma TicketInv.start : TicketInv (start (ι := ι)) where
  oneCreator _ _ _ h := by cases h
  creating _ _ h := by cases h
  one _ h := by cases h
  rows _ h := by cases h
  phases _ := trivial
  tickets _ _ h := by cases h

section Consequences

variable {w : World ι}
omit [DecidableEq ι]

/-- a stored invite that has not expired is resolved -/
lemma TicketInv.resolves (hw : TicketInv w) : TicketsResolve w := by
  intro origin payload hreply hclock
  obtain ⟨createdAt, hrow⟩ := hw.tickets origin payload hreply hclock
  obtain ⟨huser, htoken⟩ := hw.rows _ hrow
  have hkept : (purgeExpiredContactInvites w.invites w.clock).get payload.contactInviteToken =
      some ⟨payload.userId, .discoveryBootstrap, createdAt, payload.contactInviteExpiresAt⟩ :=
    get_eq_some.2 (mem_delete.2 ⟨hrow, by simpa using hclock⟩)
  unfold resolveContactInvite
  refine bind_ok.2 ⟨_, htoken, ?_⟩
  rw [loadContactInviteRecord, hkept, filter_some_pos (by simpa using hclock)]
  exact bind_ok.2 ⟨(), if_neg (not_not.2 huser), rfl⟩

lemma TicketInv.activeBootstrap_length (hw : TicketInv w) (userId : String) : (activeBootstrap w userId).length ≤ 1 := by
  have hnodup : (activeBootstrap w userId).Nodup := w.invites.keys_nodup.of_map.filter _
  have hsame : ∀ r ∈ activeBootstrap w userId, ∀ r' ∈ activeBootstrap w userId, r = r' := by
    intro r hr r' hr'
    obtain ⟨hmem, hcond⟩ := mem_filter.1 hr
    obtain ⟨hmem', hcond'⟩ := mem_filter.1 hr'
    obtain ⟨huser, hpurpose, hclock⟩ := of_decide_eq_true hcond
    obtain ⟨huser', hpurpose', hclock'⟩ := of_decide_eq_true hcond'
    exact hw.one r hmem r' hmem' hpurpose hpurpose' (huser.trans huser'.symm) hclock hclock'
  cases hlist : activeBootstrap w userId with
  | nil => exact Nat.zero_le 1
  | cons a l =>
    cases l with
    | nil => exact le_rfl
    | cons b =>
      rw [hlist] at hnodup hsame
      have hab := hsame a mem_cons_self b (mem_cons_of_mem _ mem_cons_self)
      exact absurd (hab ▸ mem_cons_self) (nodup_cons.1 hnodup).1

end Consequences

/-! ## Steps -/

section Steps

variable {w : World ι} {i : ι} {config : Config} {invites : Invites} {userId : String} {p : Phase} {now : ℕ} {job : Job}
  {purpose : ContactInvitePurpose} {replies : List Reply} {token : String}

omit [DecidableEq ι] in
lemma Backed.keep {handlers : ι → Phase} {expiresAt : ℕ} (h : Backed w token userId expiresAt)
    (hkeep : ∀ r ∈ w.invites.rows, r.2.purpose = .discoveryBootstrap → w.clock < r.2.expiresAt → r ∈ invites.rows) :
    Backed ⟨w.clock, w.users, invites, handlers, replies⟩ token userId expiresAt := by
  intro hclock
  obtain ⟨createdAt, hrow⟩ := h hclock
  exact ⟨createdAt, hkeep _ hrow rfl hclock⟩

omit [DecidableEq ι] in
/-- what a handler relies on: its user, and the invite that it has found -/
lemma PhaseOk.mono {w' : World ι} (h : PhaseOk w p) (husers : w.users ⊆ w'.users)
    (hbacked : ∀ token userId expiresAt, Backed w token userId expiresAt → Backed w' token userId expiresAt) :
    PhaseOk w' p := by
  cases p with
  | purge | lookUp | delete => exact husers h
  | insert => exact ⟨husers h.1, h.2⟩
  | respond job =>
    cases job with
    | ticket => exact hbacked _ _ _ h
    | invite => trivial
  | idle | resolvePurge | resolveLoad => trivial

/-- who is creating an invite after a step of handler `i` -/
lemma creating_cases {j : ι} (h : (Function.update w.handlers i p j).creating = some userId) :
    (j = i ∧ p.creating = some userId) ∨ (j ≠ i ∧ (w.handlers j).creating = some userId) := by
  by_cases hj : j = i
  · subst hj
    rw [update_self] at h
    exact Or.inl ⟨rfl, h⟩
  · rw [update_of_ne hj] at h
    exact Or.inr ⟨hj, h⟩

lemma update_phases (hw : ∀ j, PhaseOk w (w.handlers j)) {w' : World ι} (hp : PhaseOk w' p)
    (hkeep : ∀ q, PhaseOk w q → PhaseOk w' q) : ∀ j, PhaseOk w' (Function.update w.handlers i p j) :=
  (forall_update_iff w.handlers fun _ q => PhaseOk w' q).2 ⟨hp, fun j _ => hkeep _ (hw j)⟩

/-- a step that adds no invite, and removes none for discovery that is still valid -/
lemma TicketInv.shrink (hw : TicketInv w) (hsub : ∀ r ∈ invites.rows, r ∈ w.invites.rows)
    (hkeep : ∀ r ∈ w.invites.rows, r.2.purpose = .discoveryBootstrap → w.clock < r.2.expiresAt → r ∈ invites.rows)
    (hp : PhaseOk w p) (hcreating : ∀ userId, p.creating = some userId → (w.handlers i).creating = some userId)
    (hreplies : ∀ origin payload, Reply.ticket origin payload ∈ replies →
      Backed w payload.contactInviteToken payload.userId payload.contactInviteExpiresAt) :
    TicketInv ⟨w.clock, w.users, invites, Function.update w.handlers i p, replies⟩ := by
  have hold : ∀ j userId, (Function.update w.handlers i p j).creating = some userId → (w.handlers j).creating = some userId := by
    intro j userId h
    rcases creating_cases h with ⟨rfl, hnew⟩ | ⟨-, hold⟩
    · exact hcreating userId hnew
    · exact hold
  have hbacked : ∀ token userId expiresAt, Backed w token userId expiresAt →
      Backed ⟨w.clock, w.users, invites, Function.update w.handlers i p, replies⟩ token userId expiresAt :=
    fun _ _ _ h => h.keep hkeep
  refine ⟨fun j k userId hj hk => ?_, fun j userId hj r hr => ?_, fun r hr r' hr' => ?_, fun r hr => hw.rows r (hsub r hr),
    update_phases hw.phases (hp.mono (List.Subset.refl _) hbacked) fun q hq => hq.mono (List.Subset.refl _) hbacked,
    fun origin payload h => hbacked _ _ _ (hreplies origin payload h)⟩
  · exact hw.oneCreator j k userId (hold j userId hj) (hold k userId hk)
  · exact hw.creating j userId (hold j userId hj) r (hsub r hr)
  · exact hw.one r (hsub r hr) r' (hsub r' hr')

/-- a step that leaves the invites -/
lemma TicketInv.follow (hw : TicketInv w) (hp : PhaseOk w p) (hcreating : p.creating = none) : TicketInv (w.goto i p) :=
  hw.shrink (fun _ h => h) (fun _ h _ _ => h) hp (fun userId h => by rw [hcreating] at h; cases h) hw.tickets

lemma TicketInv.answer (hw : TicketInv w) {reply : Reply} (hreply : ∀ origin payload, reply = .ticket origin payload →
      Backed w payload.contactInviteToken payload.userId payload.contactInviteExpiresAt) : TicketInv (w.answer i reply) := by
  refine hw.shrink (fun _ h => h) (fun _ h _ _ => h) trivial (fun _ h => by cases h) fun origin payload h => ?_
  rcases mem_append.1 h with h | h
  · exact hw.tickets origin payload h
  · exact hreply origin payload (mem_singleton.1 h).symm

lemma TicketInv.refuse (hw : TicketInv w) (e : AppError) : TicketInv (w.answer i (.failed e)) :=
  hw.answer fun _ _ h => by cases h

lemma purge_sub : ∀ r ∈ (purgeExpiredContactInvites invites now).rows, r ∈ invites.rows :=
  fun _ hr => mem_of_mem_filter hr

omit [DecidableEq ι] in
/-- what has not expired is not purged -/
lemma purge_keep (hnow : now ≤ w.clock) : ∀ r ∈ w.invites.rows, r.2.purpose = .discoveryBootstrap →
    w.clock < r.2.expiresAt → r ∈ (purgeExpiredContactInvites w.invites now).rows := by
  intro r hr _ hclock
  have hlate : ¬r.2.expiresAt ≤ now := by omega
  exact mem_delete.2 ⟨hr, decide_eq_false hlate⟩

lemma loadActive_some {record : ContactInviteRecord}
    (h : loadActiveContactInviteForPurpose invites userId purpose now = some record) :
    ∃ createdAt, (record.inviteToken, ⟨userId, purpose, createdAt, record.expiresAt⟩) ∈ invites.rows := by
  obtain ⟨⟨token, row⟩, hmax, rfl⟩ := map_eq_some_iff.1 h
  obtain ⟨hmem, hcond⟩ := mem_filter.1 (argmax_mem hmax)
  obtain ⟨rfl, rfl, -⟩ := of_decide_eq_true hcond
  exact ⟨row.createdAt, hmem⟩

lemma loadActive_none (h : loadActiveContactInviteForPurpose invites userId purpose now = none) :
    ∀ r ∈ invites.rows, r.2.userId = userId → r.2.purpose = purpose → r.2.expiresAt ≤ now := by
  intro r hr huser hpurpose
  have hempty := argmax_eq_none.1 (map_eq_none_iff.1 h)
  by_contra hlate
  have hmem : r ∈ invites.rows.filter fun r => r.2.userId = userId ∧ r.2.purpose = purpose ∧ now < r.2.expiresAt :=
    mem_filter.2 ⟨hr, decide_eq_true ⟨huser, hpurpose, not_le.1 hlate⟩⟩
  rw [hempty] at hmem
  cases hmem

/-- no invite was found, and nobody else is creating one -/
lemma TicketInv.create (hw : TicketInv w) (hp : job.userId ∈ w.users)
    (halone : ∀ userId, (Phase.delete job).creating = some userId → ∀ j, (w.handlers j).creating ≠ some userId)
    (hnone : ∀ r ∈ w.invites.rows, r.2.userId = job.userId → r.2.purpose = job.purpose → r.2.expiresAt ≤ w.clock) :
    TicketInv (w.goto i (.delete job)) := by
  have hjob : ∀ userId, (Phase.delete job).creating = some userId → userId = job.userId ∧ job.purpose = .discoveryBootstrap := by
    intro userId h
    cases job with
    | ticket => exact ⟨(some.inj h).symm, rfl⟩
    | invite => cases h
  refine ⟨fun j k userId hj hk => ?_, fun j userId hj r hr huser hpurpose => ?_, hw.one, hw.rows,
    update_phases hw.phases hp fun q hq => hq.mono (List.Subset.refl _) fun _ _ _ h => h, hw.tickets⟩
  · rcases creating_cases hj with ⟨rfl, hnew⟩ | ⟨-, hjold⟩
    · rcases creating_cases hk with ⟨rfl, -⟩ | ⟨-, hkold⟩
      · rfl
      · exact absurd hkold (halone userId hnew k)
    · rcases creating_cases hk with ⟨rfl, hnew⟩ | ⟨-, hkold⟩
      · exact absurd hjold (halone userId hnew j)
      · exact hw.oneCreator j k userId hjold hkold
  · rcases creating_cases hj with ⟨rfl, hnew⟩ | ⟨-, hold⟩
    · obtain ⟨rfl, hbootstrap⟩ := hjob userId hnew
      exact hnone r hr huser (hpurpose.trans hbootstrap.symm)
    · exact hw.creating j userId hold r hr huser hpurpose

/-- the deletion before an insertion removes nothing that is still valid for discovery -/
lemma TicketInv.delete (hw : TicketInv w) (hi : w.handlers i = .delete job) (token : FreshToken) (now : ℕ) :
    TicketInv ((w.withInvites (w.invites.delete fun _ row => row.userId = job.userId ∧ row.purpose = job.purpose)).goto i
      (.insert job token.1 ⟨job.userId, job.purpose, now, now + job.purpose.ttl⟩)) := by
  have hp := hw.phases i
  rw [hi] at hp
  refine hw.shrink (fun _ h => mem_of_mem_filter h) (fun r hr hpurpose hclock => ?_) ⟨hp, rfl, rfl, token.2⟩
    (fun userId h => ?_) hw.tickets
  · refine mem_delete.2 ⟨hr, decide_eq_false fun hcond => ?_⟩
    obtain ⟨huser, hkind⟩ := hcond
    cases job with
    | invite =>
      rw [hpurpose] at hkind
      cases hkind
    | ticket userId =>
      have hexpired := hw.creating i userId (by rw [hi]; rfl) r hr huser hpurpose
      omega
  · rw [hi]
    cases job with
    | invite => cases h
    | ticket => exact h

/-- the only invite of the user for discovery is inserted -/
lemma TicketInv.insert (hw : TicketInv w) {row : InviteRow} (hi : w.handlers i = .insert job token row)
    (hinsert : w.invites.insert token row = some invites) :
    TicketInv ((w.withInvites invites).goto i (.respond job ⟨token, row.userId, row.expiresAt⟩)) := by
  have hp := hw.phases i
  rw [hi] at hp
  obtain ⟨huser, hrowuser, hrowpurpose, htoken⟩ := hp
  have hkeep : ∀ r ∈ w.invites.rows, r.2.purpose = .discoveryBootstrap → w.clock < r.2.expiresAt → r ∈ invites.rows :=
    fun r hr _ _ => (mem_insert hinsert).2 (Or.inl hr)
  have hrows : ∀ r ∈ invites.rows, r ∈ w.invites.rows ∨ r = (token, row) := by
    intro r hr
    rcases (mem_insert hinsert).1 hr with h | ⟨h, h'⟩
    · exact Or.inl h
    · exact Or.inr (Prod.ext h h')
  -- a new invite for discovery is one of the user who was creating it
  have hnew : row.purpose = .discoveryBootstrap → (w.handlers i).creating = some row.userId := by
    intro h
    rw [hi, hrowuser]
    cases job with
    | invite =>
      rw [h] at hrowpurpose
      cases hrowpurpose
    | ticket => rfl
  have hnone : ∀ j userId, (Function.update w.handlers i (.respond job ⟨token, row.userId, row.expiresAt⟩) j).creating =
      some userId → j ≠ i ∧ (w.handlers j).creating = some userId := by
    intro j userId h
    rcases creating_cases h with ⟨-, h⟩ | h
    · cases h
    · exact h
  have hfirst : ∀ r ∈ w.invites.rows, r.2.purpose = .discoveryBootstrap → row.purpose = .discoveryBootstrap →
      r.2.userId = row.userId → r.2.expiresAt ≤ w.clock :=
    fun r hr hr' hpurpose hsame => hw.creating i row.userId (hnew hpurpose) r hr hsame hr'
  refine ⟨fun j k userId hj hk => ?_, fun j userId hj r hr hruser hpurpose => ?_,
    fun r hr r' hr' hpurpose hpurpose' hsame hclock hclock' => ?_, fun r hr => ?_,
    update_phases hw.phases ?_ fun q hq => hq.mono (List.Subset.refl _) fun _ _ _ h => h.keep hkeep,
    fun origin payload h => (hw.tickets origin payload h).keep hkeep⟩
  · exact hw.oneCreator j k userId (hnone j userId hj).2 (hnone k userId hk).2
  · obtain ⟨hne, hj⟩ := hnone j userId hj
    rcases hrows r hr with hold | rfl
    · exact hw.creating j userId hj r hold hruser hpurpose
    · exact absurd (hw.oneCreator j i userId hj (hruser ▸ hnew hpurpose)) hne
  · rcases hrows r hr with hold | rfl
    · rcases hrows r' hr' with hold' | rfl
      · exact hw.one r hold r' hold' hpurpose hpurpose' hsame hclock hclock'
      · exact absurd (hfirst r hold hpurpose hpurpose' hsame) (not_le.2 hclock)
    · rcases hrows r' hr' with hold' | rfl
      · exact absurd (hfirst r' hold' hpurpose' hpurpose hsame.symm) (not_le.2 hclock')
      · rfl
  · rcases hrows r hr with hold | rfl
    · exact hw.rows r hold
    · exact ⟨hrowuser ▸ huser, htoken⟩
  · cases job with
    | invite => trivial
    | ticket userId =>
      intro _
      refine ⟨row.createdAt, (mem_insert hinsert).2 (Or.inr ⟨rfl, ?_⟩)⟩
      have huserid : row.userId = userId := hrowuser
      have hbootstrap : row.purpose = .discoveryBootstrap := hrowpurpose
      rw [← huserid, ← hbootstrap]

/-- the next statement of a handler -/
lemma TicketInv.advance (hw : TicketInv w) (x : Draw) (hnow : now ≤ w.clock)
    (halone : ∀ userId ∈ (w.handlers i).looking, ∀ j, (w.handlers j).creating ≠ some userId) :
    TicketInv (w.advance i config x now) := by
  have hp := hw.phases i
  unfold World.advance
  cases hi : w.handlers i with
  | idle => exact hw
  | purge job =>
    rw [hi] at hp
    refine hw.shrink purge_sub (purge_keep hnow) ?_ (fun userId h => ?_) hw.tickets
    · cases job <;> exact hp
    · cases job <;> cases h
  | lookUp job =>
    rw [hi] at hp halone
    dsimp only
    cases hload : loadActiveContactInviteForPurpose w.invites job.userId job.purpose now with
    | some =>
      refine hw.follow ?_ rfl
      cases job with
      | invite => trivial
      | ticket => exact fun _ => loadActive_some hload
    | none =>
      refine hw.create hp (fun userId h => halone userId ?_) fun r hr huser hpurpose =>
        (loadActive_none hload r hr huser hpurpose).trans hnow
      cases job with
      | invite => cases h
      | ticket => exact h
  | delete => exact hw.delete hi x.inviteToken now
  | insert job token row =>
    dsimp only
    cases hinsert : w.invites.insert token row with
    | some => exact hw.insert hi hinsert
    | none => exact hw.refuse _
  | respond job =>
    rw [hi] at hp
    refine hw.answer fun origin payload h => ?_
    cases job with
    | invite => cases h
    | ticket =>
      simp only [Job.reply] at h
      split at h
      · obtain ⟨-, rfl⟩ := Reply.ticket.inj h
        exact hp
      · cases h
  | resolvePurge token =>
    dsimp only
    cases validateContactInviteToken token with
    | ok => exact hw.shrink purge_sub (purge_keep hnow) trivial (fun _ h => by cases h) hw.tickets
    | error =>
      refine hw.shrink purge_sub (purge_keep hnow) trivial (fun _ h => by cases h) fun origin payload h => ?_
      rcases mem_append.1 h with h | h
      · exact hw.tickets origin payload h
      · cases mem_singleton.1 h
  | resolveLoad token =>
    dsimp only
    cases loadContactInviteRecord w.users w.invites token now with
    | ok => exact hw.answer fun _ _ h => by cases h
    | error e => exact hw.refuse e

lemma ensureUserExists_ok {users : List String} {u : Unit} : ensureUserExists users userId = .ok u ↔ userId ∈ users := by
  simp [ensureUserExists]

omit [DecidableEq ι] in
/-- a request that begins is one of a user who exists -/
lemma first_ok {request : Request} {phase : Phase} (h : request.first config w.users = .ok phase) :
    PhaseOk w phase ∧ phase.creating = none := by
  cases request with
  | resolveContactInvite =>
    cases h
    exact ⟨trivial, rfl⟩
  | createContactInvite =>
    simp only [Request.first, bind_ok, ensureUserExists_ok] at h
    obtain ⟨-, -, -, huser, hphase⟩ := h
    cases hphase
    exact ⟨huser, rfl⟩
  | createContactDiscoveryTicket =>
    simp only [Request.first, check_ok, bind_ok, ensureUserExists_ok] at h
    obtain ⟨-, -, -, -, huser, purpose', -, hphase⟩ := h
    cases hphase
    exact ⟨huser, rfl⟩

lemma TicketInv.begin (hw : TicketInv w) (request : Request) : TicketInv (w.begin i config request) := by
  unfold World.begin
  cases w.handlers i with
  | idle =>
    dsimp only
    cases hfirst : request.first config w.users with
    | error e => exact hw.refuse e
    | ok =>
      obtain ⟨hphase, hcreating⟩ := first_ok hfirst
      exact hw.follow hphase hcreating
  | _ => exact hw

omit [DecidableEq ι] in
/-- time passes: what has not expired later has not expired now -/
lemma TicketInv.tick (hw : TicketInv w) (n : ℕ) : TicketInv { w with clock := w.clock + n } := by
  have hbacked : ∀ token userId expiresAt, Backed w token userId expiresAt →
      Backed { w with clock := w.clock + n } token userId expiresAt :=
    fun _ _ _ h hclock => h (lt_of_le_of_lt (Nat.le_add_right _ _) hclock)
  refine ⟨hw.oneCreator, fun i userId hi r hr huser hpurpose => ?_, fun r hr r' hr' h h' hsame hclock hclock' => ?_, hw.rows,
    fun i => (hw.phases i).mono (.refl _) hbacked, fun origin payload h => hbacked _ _ _ (hw.tickets origin payload h)⟩
  · exact (hw.creating i userId hi r hr huser hpurpose).trans (Nat.le_add_right _ _)
  · exact hw.one r hr r' hr' h h' hsame (lt_of_le_of_lt (Nat.le_add_right _ _) hclock)
      (lt_of_le_of_lt (Nat.le_add_right _ _) hclock')

omit [DecidableEq ι] in
lemma TicketInv.register (hw : TicketInv w) (userId : String) : TicketInv { w with users := userId :: w.users } := by
  refine ⟨hw.oneCreator, hw.creating, hw.one, fun r hr => ?_,
    fun i => (hw.phases i).mono (subset_cons_self _ _) fun _ _ _ h => h, hw.tickets⟩
  exact ⟨.tail _ (hw.rows r hr).1, (hw.rows r hr).2⟩

lemma TicketInv.step (hw : TicketInv w) (o : Op ι) (halone : Alone w o) : TicketInv (w.step config o) := by
  cases o with
  | tick n => exact hw.tick n
  | register userId => exact hw.register userId
  | start i request => exact hw.begin request
  | advance i x => exact hw.advance x (min_le_right _ _) halone
  | fail => exact hw.follow trivial rfl

end Steps

/-- **Invites in tickets stay valid.** In every run in which a ticket request looks for an invite only while no other ticket
request of the user is creating one, every invite in a ticket is resolved until it expires, and no user has two invites for
discovery that have not expired. -/
theorem invites_stay_valid (config : Config) (ops : List (Op ι)) (halone : Legal (World.step config) Alone World.start ops) :
    TicketsResolve (run (World.step config) World.start ops) ∧
      ∀ userId, (activeBootstrap (run (World.step config) World.start ops) userId).length ≤ 1 := by
  have hinv := run_inv TicketInv (fun _ o h ho => h.step o ho) ops .start halone
  exact ⟨hinv.resolves, hinv.activeBootstrap_length⟩

/-! ## Three runs -/

namespace Sample

def config : Config := ⟨some "origin", some "contract"⟩

lemma tokens_ok : validateContactInviteToken "t1" = .ok "t1" ∧ validateContactInviteToken "t2" = .ok "t2" := by
  decide

def advance (i : Bool) (steps : ℕ) : List (Op Bool) :=
  List.replicate steps (.advance i ⟨0, if i then ⟨"t2", tokens_ok.2⟩ else ⟨"t1", tokens_ok.1⟩, "nonce"⟩)

def ask (i : Bool) : Op Bool := .start i (.createContactDiscoveryTicket "alice" "phone" "match")

/-- the second ticket takes the invite of the first -/
def oneAfterTheOther : List (Op Bool) :=
  .register "alice" :: ask false :: advance false 5 ++ ask true :: advance true 3

/-- two requests that both find no invite -/
def together : List (Op Bool) := .register "alice" :: ask false :: ask true :: advance false 2 ++ advance true 2

/-- the first request is done before the second deletes -/
def deleted : List (Op Bool) := together ++ advance false 3 ++ advance true 1

/-- both requests delete before one inserts -/
def stored : List (Op Bool) := together ++ advance false 1 ++ advance true 1 ++ advance false 1 ++ advance true 1

def ticket (token : String) : ContactDiscoveryTicketPayload :=
  ⟨"alice", "phone", .match_, "contract", token, ContactInvitePurpose.discoveryBootstrap.ttl, 0, ticketTtl, 2, "nonce"⟩

lemma runs_state : Legal (step config) Alone start oneAfterTheOther ∧ (run (step config) start oneAfterTheOther).replies =
      [.ticket "origin" (ticket "t1"), .ticket "origin" (ticket "t1")] ∧
    (run (step config) start deleted).replies = [.ticket "origin" (ticket "t1")] ∧
    (run (step config) start deleted).clock = 0 ∧
    (run (step config) start deleted).invites.rows = [] ∧
    (activeBootstrap (run (step config) start stored) "alice").length = 2 := by
  decide

end Sample

open ContactInvites.Sample in
/-- both tickets carry the same invite, and it is resolved -/
theorem invites_stay_valid_oneAfterTheOther :
    (run (World.step config) World.start oneAfterTheOther).replies =
      [.ticket "origin" (ticket "t1"), .ticket "origin" (ticket "t1")] ∧
    Legal (World.step config) Alone World.start oneAfterTheOther ∧
    TicketsResolve (run (World.step config) World.start oneAfterTheOther) ∧
    ∀ userId, (activeBootstrap (run (World.step config) World.start oneAfterTheOther) userId).length ≤ 1 := by
  obtain ⟨hlegal, hreplies, -⟩ := runs_state
  exact ⟨hreplies, hlegal, invites_stay_valid config oneAfterTheOther hlegal⟩

open ContactInvites.Sample in
/-- the invite of the first ticket is deleted before it expires; or two invites are stored -/
theorem first_tickets_race :
    ¬TicketsResolve (run (World.step config) World.start deleted) ∧
    (activeBootstrap (run (World.step config) World.start stored) "alice").length = 2 := by
  obtain ⟨-, -, hreplies, hclock, hrows, hstored⟩ := runs_state
  refine ⟨fun h => ?_, hstored⟩
  have hresolved := h "origin" (ticket "t1") (by rw [hreplies]; exact mem_singleton.2 rfl) (by rw [hclock]; decide)
  -- nothing is stored, so that nothing is found
  have hget : (purgeExpiredContactInvites (run (step config) start deleted).invites 0).get "t1" = none := by
    rw [eq_none_iff_forall_ne_some]
    intro row hrow
    have hmem := purge_sub _ (get_eq_some.1 hrow)
    rw [hrows] at hmem
    cases hmem
  rw [hclock, resolveContactInvite] at hresolved
  obtain ⟨token, htoken, hload⟩ := bind_ok.1 hresolved
  obtain rfl : "t1" = token := Except.ok.inj (tokens_ok.1.symm.trans htoken)
  rw [loadContactInviteRecord, hget] at hload
  cases hload

end PqMsg.Server.ContactInvites
