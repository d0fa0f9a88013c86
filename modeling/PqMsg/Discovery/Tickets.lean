/-
Tickets of the contact discovery service (`pqmsg-discovery/src/main.rs`): what a ticket is checked for, how its uses are
counted, and what the three kinds of requests do with the registry.

A request reads the clock, checks its ticket with that time, and then waits for the lock of the registry. Under the lock,
records of tickets that have expired are dropped, by the time that the request has read before it waited. A request whose
ticket has expired while it waited still counts as in time; if somebody else has dropped the record of the ticket by then, it
starts a new one.

- `consume_cases`: what one use of a ticket does to the records.
- `tickets_keep_budget`: if every request gets the lock before its ticket expires, and tickets with one nonce have the same
  terms, then no nonce is granted more uses than its ticket allows.
- `third_use`: a ticket for two uses is used a third time.

The signature, base64, JSON, times and the group of the OPRF are parameters. Times are in nanoseconds. The proofs that come
with evaluated elements are left out.
-/
import PqMsg.Server.PrivateGroups

namespace PqMsg.Discovery

open Lib Server Function List Option
open Server.PrivateGroups (isAsciiHexdigit isAsciiAlphanumeric)

/-! ## Tickets -/

structure TicketClaims where
  v : UInt8
  userId : String
  deviceId : String
  purpose : String
  manifestContractSha256 : String
  contactInviteToken : String
  contactInviteExpiresAt : String
  issuedAt : String
  expiresAt : String
  maxUses : UInt8
  nonce : String
deriving DecidableEq

/-- third-party code, and the configuration of the service -/
structure Deps where
  base64Decode : String → Option Bytes
  base64Encode : Bytes → String
  /-- with the key of the ticket issuer -/
  ed25519Verify : Bytes → Bytes → Bool
  parseClaims : Bytes → Option TicketClaims
  parseFromRfc3339 : String → Option ℤ
  currentManifestContractSha256 : String
  /-- a compressed point times the secret scalar, if the point is valid -/
  evaluate : Bytes → Option Bytes

def ticketMaxTtlSeconds : ℤ := 300
def ticketMaxUses : UInt8 := 6
def ticketUploadMaxUses : UInt8 := 3
def ticketMatchMaxUses : UInt8 := 2
def maxDiscoveryHashesPerRequest : ℕ := 2048
def nanosPerSecond : ℤ := 10 ^ 9

/-- `anyhow::bail!` under a condition -/
def bail (c : Prop) [Decidable c] (message : String) : Except String Unit := if c then .error message else .ok ()

/-- `Option::context` -/
def context {α : Type} (o : Option α) (message : String) : Except String α :=
  match o with
  | some a => .ok a
  | none => .error message

def toAsciiLowercase (value : String) : String := String.ofList (value.toList.map Char.toLower)

def isSha256Hex (value : String) : Bool := len value = 64 && value.toList.all isAsciiHexdigit

def validateSha256Hex (name value : String) : Except String String := do
  bail (isSha256Hex (toAsciiLowercase (trim value)) = false) (name ++ " must be a 64-character SHA-256 hex string")
  return toAsciiLowercase (trim value)

/-- the uses that a ticket may allow for its purpose -/
def checkPurpose (c : TicketClaims) : Except String Unit :=
  if c.purpose = "upload" then
    bail (c.maxUses ≠ ticketUploadMaxUses) "contact discovery ticket max_uses is invalid for upload purpose"
  else if c.purpose = "match" then
    bail (c.maxUses ≠ ticketMatchMaxUses) "contact discovery ticket max_uses is invalid for match purpose"
  else .error "contact discovery ticket purpose is invalid"

/-- the checks of `verify_contact_discovery_ticket` on the claims -/
def checkClaims (d : Deps) (c : TicketClaims) (now : ℤ) : Except String TicketClaims := do
  bail (c.v ≠ 1) "unsupported contact discovery ticket version"
  bail (trim c.userId = "" ∨ trim c.deviceId = "") "contact discovery ticket is missing user or device identity"
  checkPurpose c
  bail (trim c.contactInviteToken = "" ∨ len c.contactInviteToken > 128 ∨
      c.contactInviteToken.toList.all (fun x => isAsciiAlphanumeric x || x = '-' || x = '_') = false)
    "contact discovery ticket is missing a valid bootstrap invite token"
  bail (trim c.nonce = "" ∨ len c.nonce > 128) "contact discovery ticket nonce is invalid"
  let issuedAt ← context (d.parseFromRfc3339 c.issuedAt) "parse contact discovery ticket issued_at"
  let expiresAt ← context (d.parseFromRfc3339 c.expiresAt) "parse contact discovery ticket expires_at"
  let inviteExpiresAt ← context (d.parseFromRfc3339 c.contactInviteExpiresAt)
    "parse contact discovery ticket bootstrap invite expires_at"
  bail (expiresAt ≤ issuedAt) "contact discovery ticket expires_at must be after issued_at"
  bail (inviteExpiresAt ≤ issuedAt) "contact discovery ticket bootstrap invite expires_at must be after issued_at"
  bail (c.maxUses = 0 ∨ c.maxUses > ticketMaxUses) "contact discovery ticket max_uses is invalid"
  let _ ← validateSha256Hex "contact discovery ticket manifest_contract_sha256" c.manifestContractSha256
  bail ((expiresAt - issuedAt).tdiv nanosPerSecond > ticketMaxTtlSeconds) "contact discovery ticket exceeds max ttl"
  bail (expiresAt ≤ now) "contact discovery ticket expired"
  return c

/-- the two parts of a ticket -/
def splitTicket (ticket : String) : Except String (String × String) :=
  match ticket.toList.splitOn '.' with
  | [payload, signature] => .ok (String.ofList payload, String.ofList signature)
  | [] | [_] => .error "ticket signature missing"
  | _ => .error "ticket must contain exactly one separator"

def verifyContactDiscoveryTicket (d : Deps) (ticket : String) (now : ℤ) : Except String TicketClaims := do
  bail (trim ticket = "" ∨ len (trim ticket) > 4096) "ticket must be 1..=4096 characters"
  let (payloadPart, signaturePart) ← splitTicket (trim ticket)
  let payload ← context (d.base64Decode payloadPart) "decode contact discovery ticket payload"
  let signature ← context (d.base64Decode signaturePart) "decode contact discovery ticket signature"
  bail (signature.length ≠ 64) "contact discovery ticket signature must be 64 bytes"
  bail (d.ed25519Verify payload signature = false) "verify contact discovery ticket signature"
  let claims ← context (d.parseClaims payload) "parse contact discovery ticket payload"
  checkClaims d claims now

/-! ## The registry -/

structure TicketUsage where
  expiresAt : ℤ
  used : UInt8
  maxUses : UInt8
deriving DecidableEq

inductive HandleKind where
  | phone
  | email
deriving DecidableEq, Repr

structure StoredHandle where
  tokenSha256 : String
  handleKind : HandleKind
deriving DecidableEq

structure StoredUserHandles where
  contactInviteToken : String
  contactInviteExpiresAt : String
  handles : List StoredHandle
deriving DecidableEq

structure DiscoveryRegistry where
  userHandles : List (String × StoredUserHandles)
  ticketUsage : String → Option TicketUsage

structure DiscoveryMatchItem where
  tokenSha256 : String
  contactInviteToken : String
  handleKind : HandleKind
deriving DecidableEq

namespace DiscoveryRegistry

/-- an invite that is still valid -/
def inviteValid (d : Deps) (now : ℤ) (stored : StoredUserHandles) : Bool :=
  (d.parseFromRfc3339 stored.contactInviteExpiresAt).any (now < ·)

variable (r : DiscoveryRegistry)

def purgeExpiredHandles (d : Deps) (now : ℤ) : DiscoveryRegistry :=
  { r with userHandles := r.userHandles.filter fun x => inviteValid d now x.2 }

/-- `retain(|_, usage| usage.expires_at > now)` -/
def retainUsage (now : ℤ) : DiscoveryRegistry :=
  { r with ticketUsage := fun nonce => (r.ticketUsage nonce).filter (now < ·.expiresAt) }

def setUsage (nonce : String) (usage : TicketUsage) : DiscoveryRegistry :=
  { r with ticketUsage := Function.update r.ticketUsage nonce (some usage) }

/-- the record of a nonce, or a new one -/
def usageOr (nonce : String) (usage : TicketUsage) : TicketUsage :=
  (r.ticketUsage nonce).getD usage

/-- on an error, the registry keeps what was retained and inserted before -/
def consumeTicketUse (d : Deps) (claims : TicketClaims) (now : ℤ) : DiscoveryRegistry × Except String Unit :=
  match d.parseFromRfc3339 claims.expiresAt with
  | none => (r.retainUsage now, .error "contact discovery ticket expires_at is invalid")
  | some expiresAt =>
    let entry := (r.retainUsage now).usageOr claims.nonce ⟨expiresAt, 0, claims.maxUses⟩
    if entry.expiresAt ≠ expiresAt ∨ entry.maxUses ≠ claims.maxUses then
      ((r.retainUsage now).setUsage claims.nonce entry,
        .error "contact discovery ticket nonce reuse detected with conflicting contract")
    else if entry.maxUses ≤ entry.used then
      ((r.retainUsage now).setUsage claims.nonce entry, .error "contact discovery ticket exceeded max uses")
    else ((r.retainUsage now).setUsage claims.nonce { entry with used := entry.used + 1 }, .ok ())

def replaceTokens (claims : TicketClaims) (phoneTokens emailTokens : List String) : DiscoveryRegistry :=
  let stored : StoredUserHandles := ⟨claims.contactInviteToken, claims.contactInviteExpiresAt,
    phoneTokens.map (⟨·, .phone⟩) ++ emailTokens.map (⟨·, .email⟩)⟩
  { r with userHandles := (claims.userId, stored) :: r.userHandles.filter fun x => x.1 ≠ claims.userId }

/-- by token, invite and kind; `"email" < "phone"` -/
def matchLe (a b : DiscoveryMatchItem) : Bool :=
  if a.tokenSha256 ≠ b.tokenSha256 then a.tokenSha256 < b.tokenSha256
  else if a.contactInviteToken ≠ b.contactInviteToken then a.contactInviteToken < b.contactInviteToken
  else a.handleKind = .email ∨ b.handleKind = .phone

def matchTokens (d : Deps) (requesterUserId : String) (queryTokens : List String) (now : ℤ) : List DiscoveryMatchItem :=
  (r.userHandles.flatMap fun x =>
    if x.1 = requesterUserId ∨ inviteValid d now x.2 = false then []
    else (x.2.handles.filter fun h => h.tokenSha256 ∈ queryTokens).map fun h =>
      ⟨h.tokenSha256, x.2.contactInviteToken, h.handleKind⟩).mergeSort matchLe

end DiscoveryRegistry

/-! ## Requests -/

inductive Call where
  | evaluateBlindedElements (blindedElementsBase64 : List String)
  | uploadHandles (phoneTokensSha256 emailTokensSha256 : List String)
  | matchHandles (tokensSha256 : List String)

structure Request where
  ticket : String
  call : Call

inductive Reply where
  /-- a bad request -/
  | failed (detail : String)
  | evaluated (userId deviceId ticketNonce : String) (evaluatedElementsBase64 : List String)
  | uploaded (userId deviceId ticketNonce : String) (phoneTokens emailTokens : ℕ)
  | matched (userId ticketNonce : String) (items : List DiscoveryMatchItem)

/-- `ensure_ticket_purpose_allowed`, for each call -/
def Call.allowedPurposes : Call → List String
  | .evaluateBlindedElements _ => ["upload", "match"]
  | .uploadHandles _ _ => ["upload"]
  | .matchHandles _ => ["match"]

/-- everything before the lock -/
def checkRequest (d : Deps) (request : Request) (now : ℤ) : Except String TicketClaims := do
  let claims ← verifyContactDiscoveryTicket d request.ticket now
  bail (claims.manifestContractSha256 ≠ d.currentManifestContractSha256)
    "contact discovery ticket manifest contract does not match the current service contract"
  bail (claims.purpose ∉ request.call.allowedPurposes)
    ("contact discovery ticket purpose '" ++ claims.purpose ++ "' is not valid for this operation")
  return claims

def tooMany (field : String) : String :=
  field ++ " must contain at most " ++ toString maxDiscoveryHashesPerRequest ++ " values"

def normalizeSha256HexValues (field : String) (values : List String) : Except String (List String) := do
  bail (values.length > maxDiscoveryHashesPerRequest) (tooMany field)
  let normalized := values.map fun value => toAsciiLowercase (trim value)
  bail (normalized.all isSha256Hex = false) (field ++ " entries must be 64-character SHA-256 hex strings")
  return (normalized.mergeSort fun a b => decide (a ≤ b)).destutter (· ≠ ·)

def evaluateElement (d : Deps) (field value : String) : Except String String := do
  let decoded ← context (d.base64Decode (trim value))
    (field ++ " entries must be base64-encoded 32-byte compressed ristretto points")
  bail (decoded.length ≠ 32) (field ++ " entries must decode to 32 bytes")
  let evaluated ← context (d.evaluate decoded) (field ++ " entries must decode to valid compressed ristretto points")
  return d.base64Encode evaluated

/-- `normalize_blinded_elements`, and the evaluation of each element -/
def evaluateElements (d : Deps) (field : String) (values : List String) : Except String (List String) := do
  bail (values.length > maxDiscoveryHashesPerRequest) (tooMany field)
  values.mapM (evaluateElement d field)

/-- everything after a use of the ticket was granted; `now` is the time that the request has read, `clock` the present -/
def finish (d : Deps) (r : DiscoveryRegistry) (claims : TicketClaims) (now clock : ℤ) :
    Call → DiscoveryRegistry × Except String Reply
  | .evaluateBlindedElements values =>
    (r, (evaluateElements d "blinded_elements_base64" values).map
      (.evaluated claims.userId claims.deviceId claims.nonce))
  | .uploadHandles phone email =>
    match normalizeSha256HexValues "phone_tokens_sha256" phone, normalizeSha256HexValues "email_tokens_sha256" email with
    | .ok phone, .ok email => ((r.purgeExpiredHandles d clock).replaceTokens claims phone email,
        .ok (.uploaded claims.userId claims.deviceId claims.nonce phone.length email.length))
    | .error e, _ | .ok _, .error e => (r, .error e)
  | .matchHandles tokens =>
    (r.purgeExpiredHandles d now, (normalizeSha256HexValues "tokens_sha256" tokens).map fun tokens =>
      .matched claims.userId claims.nonce ((r.purgeExpiredHandles d now).matchTokens d claims.userId tokens clock))

/-! ## Runs -/

inductive Phase where
  | idle
  /-- the ticket is checked; the request waits for the lock -/
  | waiting (claims : TicketClaims) (call : Call) (now : ℤ)

variable {ι : Type} [DecidableEq ι] {n : String}

structure World (ι : Type) where
  clock : ℤ
  registry : DiscoveryRegistry
  handlers : ι → Phase
  replies : List Reply
  /-- the ticket of each use that was granted -/
  grants : List TicketClaims

open World

def World.start (clock : ℤ) : World ι := ⟨clock, ⟨[], fun _ => none⟩, fun _ => .idle, [], []⟩

inductive Op (ι : Type) where
  | tick (n : ℕ)
  | receive (i : ι) (request : Request)
  /-- the handler gets the lock -/
  | acquire (i : ι)
  | fail (i : ι)

namespace World

variable (w : World ι) (i : ι)

def goto (phase : Phase) : World ι := { w with handlers := Function.update w.handlers i phase }

def answer (reply : Reply) : World ι := { w.goto i .idle with replies := w.replies ++ [reply] }

def answerResult (result : Except String Reply) : World ι :=
  match result with
  | .ok reply => w.answer i reply
  | .error detail => w.answer i (.failed detail)

def receive (d : Deps) (request : Request) : World ι :=
  match w.handlers i with
  | .waiting .. => w
  | .idle => match checkRequest d request w.clock with
    | .ok claims => w.goto i (.waiting claims request.call w.clock)
    | .error detail => w.answer i (.failed detail)

def withRegistry (r : DiscoveryRegistry) : World ι := { w with registry := r }

/-- a use is granted, and the request goes on -/
def grant (d : Deps) (r : DiscoveryRegistry) (claims : TicketClaims) (call : Call) (now : ℤ) : World ι :=
  let finished := finish d r claims now w.clock call
  { (w.withRegistry finished.1).answerResult i finished.2 with grants := w.grants ++ [claims] }

def acquire (d : Deps) : World ι :=
  match w.handlers i with
  | .idle => w
  | .waiting claims call now =>
    match w.registry.consumeTicketUse d claims now with
    | (r, .ok ()) => w.grant i d r claims call now
    | (r, .error detail) => (w.withRegistry r).answer i (.failed detail)

def step (d : Deps) (w : World ι) : Op ι → World ι
  | .tick n => { w with clock := w.clock + n }
  | .receive i request => w.receive i d request
  | .acquire i => w.acquire i d
  | .fail i => w.goto i .idle

end World

/-- the uses that were granted for a nonce -/
def uses (w : World ι) (nonce : String) : ℕ := w.grants.countP (·.nonce = nonce)

/-- the lock is taken before the ticket expires, and the ticket has the terms of those with its nonce that were granted -/
def onTime (d : Deps) (w : World ι) : Op ι → Bool
  | .acquire i => match w.handlers i with
    | .waiting claims _ _ => (d.parseFromRfc3339 claims.expiresAt).all (w.clock < ·) &&
        w.grants.all fun c => c.nonce = claims.nonce →
          d.parseFromRfc3339 c.expiresAt = d.parseFromRfc3339 claims.expiresAt ∧ c.maxUses = claims.maxUses
    | .idle => true
  | _ => true

/-! ## Records of uses -/

section Records

open DiscoveryRegistry

variable {d : Deps} {r r' : DiscoveryRegistry} {claims : TicketClaims} {now : ℤ}

/-- records are dropped only if they have expired, and new ones have no uses -/
structure Lapsed (now : ℤ) (r r' : DiscoveryRegistry) : Prop where
  kept : ∀ n u, r.ticketUsage n = some u → now < u.expiresAt → r'.ticketUsage n = some u
  new : ∀ n u, r'.ticketUsage n = some u → r.ticketUsage n = some u ∨ u.used = 0

lemma retainUsage_some {u : TicketUsage} :
    (r.retainUsage now).ticketUsage n = some u ↔ r.ticketUsage n = some u ∧ now < u.expiresAt := by
  simp [retainUsage, filter_eq_some_iff]

lemma setUsage_self (n : String) (u : TicketUsage) : (r.setUsage n u).ticketUsage n = some u := by
  simp [setUsage]

lemma setUsage_ne {n m : String} (h : m ≠ n) (u : TicketUsage) : (r.setUsage n u).ticketUsage m = r.ticketUsage m := by
  simp [setUsage, h]

/-- the record that is used is one that was there, or a new one -/
lemma usageOr_cases (r : DiscoveryRegistry) (n : String) (u : TicketUsage) :
    r.ticketUsage n = some (r.usageOr n u) ∨ r.ticketUsage n = none ∧ r.usageOr n u = u := by
  unfold usageOr
  cases r.ticketUsage n with
  | none => exact .inr ⟨rfl, rfl⟩
  | some => exact .inl rfl

lemma lapsed_retain (r : DiscoveryRegistry) (now : ℤ) : Lapsed now r (r.retainUsage now) where
  kept _ _ hu hnow := retainUsage_some.2 ⟨hu, hnow⟩
  new _ _ hu := .inl (retainUsage_some.1 hu).1

lemma lapsed_insert (r : DiscoveryRegistry) (now expiresAt : ℤ) (n : String) (maxUses : UInt8) :
    Lapsed now r ((r.retainUsage now).setUsage n ((r.retainUsage now).usageOr n ⟨expiresAt, 0, maxUses⟩)) := by
  have hentry := usageOr_cases (r.retainUsage now) n ⟨expiresAt, 0, maxUses⟩
  refine ⟨fun m u hu hnow => ?_, fun m u hu => ?_⟩
  · have hkept := (lapsed_retain r now).kept m u hu hnow
    by_cases hm : m = n
    · subst hm
      rcases hentry with h | ⟨h, -⟩
      · rw [setUsage_self, ← h, hkept]
      · rw [hkept] at h
        cases h
    · rw [setUsage_ne hm, hkept]
  · by_cases hm : m = n
    · subst hm
      rw [setUsage_self] at hu
      cases hu
      rcases hentry with h | ⟨-, h⟩
      · exact (lapsed_retain r now).new m _ h
      · exact .inr (by rw [h])
    · rw [setUsage_ne hm] at hu
      exact (lapsed_retain r now).new m u hu

/-- **One use**: refused, and records only lapse; or granted, and the record of the nonce counts one use more -/
lemma consume_cases (r : DiscoveryRegistry) (d : Deps) (claims : TicketClaims) (now : ℤ) :
    (∃ r' detail, r.consumeTicketUse d claims now = (r', .error detail) ∧ Lapsed now r r') ∨
    ∃ r' expiresAt entry, r.consumeTicketUse d claims now = (r', .ok ()) ∧
      d.parseFromRfc3339 claims.expiresAt = some expiresAt ∧ entry.expiresAt = expiresAt ∧
      entry.maxUses = claims.maxUses ∧ entry.used < entry.maxUses ∧
      ((r.ticketUsage claims.nonce = some entry ∧ now < expiresAt) ∨
        ((∀ u, r.ticketUsage claims.nonce = some u → u.expiresAt ≤ now) ∧ entry.used = 0)) ∧
      r'.ticketUsage claims.nonce = some { entry with used := entry.used + 1 } ∧
      ∀ n, n ≠ claims.nonce → r'.ticketUsage n = (r.retainUsage now).ticketUsage n := by
  unfold consumeTicketUse
  cases htime : d.parseFromRfc3339 claims.expiresAt with
  | none => exact .inl ⟨_, _, rfl, lapsed_retain r now⟩
  | some expiresAt =>
    dsimp only
    split_ifs with hterms hused
    · exact .inl ⟨_, _, rfl, lapsed_insert r now expiresAt claims.nonce claims.maxUses⟩
    · exact .inl ⟨_, _, rfl, lapsed_insert r now expiresAt claims.nonce claims.maxUses⟩
    · rw [not_or, not_not, not_not] at hterms
      refine .inr ⟨_, expiresAt, _, rfl, rfl, hterms.1, hterms.2, UInt8.not_le.1 hused, ?_, setUsage_self _ _,
        fun n hn => setUsage_ne hn _⟩
      rcases usageOr_cases (r.retainUsage now) claims.nonce ⟨expiresAt, 0, claims.maxUses⟩ with h | ⟨hnone, h⟩
      · have hkept := retainUsage_some.1 h
        exact .inl ⟨hkept.1, hterms.1 ▸ hkept.2⟩
      · refine .inr ⟨fun u hu => ?_, by rw [h]⟩
        by_contra hnow
        rw [retainUsage_some.2 ⟨hu, not_le.1 hnow⟩] at hnone
        cases hnone

/-- the rest of a request leaves the records -/
lemma finish_usage (d : Deps) (r : DiscoveryRegistry) (claims : TicketClaims) (now clock : ℤ) (call : Call) :
    (finish d r claims now clock call).1.ticketUsage = r.ticketUsage := by
  cases call with
  | evaluateBlindedElements | matchHandles => rfl
  | uploadHandles phone email =>
    simp only [finish]
    cases normalizeSha256HexValues "phone_tokens_sha256" phone with
    | error => rfl
    | ok => cases normalizeSha256HexValues "email_tokens_sha256" email <;> rfl

end Records

/-! ## The invariant -/

/-- as long as a ticket has not expired, its record counts all uses of its nonce -/
structure BudgetInv (d : Deps) (w : World ι) : Prop where
  past : ∀ i claims call now, w.handlers i = .waiting claims call now → now ≤ w.clock
  counted : ∀ n u, w.registry.ticketUsage n = some u → u.used.toNat ≤ uses w n
  current : ∀ c ∈ w.grants, ∀ expiresAt, d.parseFromRfc3339 c.expiresAt = some expiresAt → w.clock < expiresAt →
    ∃ u, w.registry.ticketUsage c.nonce = some u ∧ u.expiresAt = expiresAt ∧ u.used.toNat = uses w c.nonce
  budget : ∀ c ∈ w.grants, uses w c.nonce ≤ c.maxUses.toNat

omit [DecidableEq ι] in
lemma BudgetInv.start (d : Deps) (clock : ℤ) : BudgetInv d (start (ι := ι) clock) where
  past _ _ _ _ h := by cases h
  counted _ _ h := by cases h
  current _ h := by cases h
  budget _ h := by cases h

section Steps

variable {d : Deps} {w : World ι} {i : ι} {r : DiscoveryRegistry} {now expiresAt : ℤ} {entry : TicketUsage} {p : Phase}

/-- handlers that go on are those that waited before, or have just read the clock -/
lemma goto_past (hw : BudgetInv d w) (hp : ∀ claims call now, p = .waiting claims call now → now ≤ w.clock) (j : ι)
    (claims : TicketClaims) (call : Call) (now : ℤ) (h : update w.handlers i p j = .waiting claims call now) :
    now ≤ w.clock := by
  by_cases hj : j = i
  · subst hj
    rw [update_self] at h
    exact hp claims call now h
  · rw [update_of_ne hj] at h
    exact hw.past j claims call now h

/-- a step that grants nothing -/
lemma BudgetInv.keep (hw : BudgetInv d w) {now : ℤ} (hnow : now ≤ w.clock) (hr : Lapsed now w.registry r)
    (hp : ∀ claims call now, p = .waiting claims call now → now ≤ w.clock) (replies : List Reply) :
    BudgetInv d ⟨w.clock, r, update w.handlers i p, replies, w.grants⟩ where
  past := goto_past hw hp
  counted n u hu := by
    rcases hr.new n u hu with hold | hzero
    · exact hw.counted n u hold
    · rw [hzero]
      exact Nat.zero_le _
  current c hc expiresAt htime hclock := by
    obtain ⟨u, hu, hexpires, hused⟩ := hw.current c hc expiresAt htime hclock
    refine ⟨u, hr.kept c.nonce u hu ?_, hexpires, hused⟩
    rw [hexpires]
    exact lt_of_le_of_lt hnow hclock
  budget := hw.budget

lemma lapsed_refl (now : ℤ) (r : DiscoveryRegistry) : Lapsed now r r := ⟨fun _ _ h _ => h, fun _ _ h => .inl h⟩

omit [DecidableEq ι] in
lemma uses_pos : 0 < uses w n ↔ ∃ c ∈ w.grants, c.nonce = n := by
  simp [uses, countP_pos_iff]

section Grant

variable (hw : BudgetInv d w) {claims : TicketClaims} (htime : d.parseFromRfc3339 claims.expiresAt = some expiresAt)
  (hclock : w.clock < expiresAt) (hnow : now ≤ w.clock)
  (hterms : ∀ c ∈ w.grants, c.nonce = claims.nonce →
    d.parseFromRfc3339 c.expiresAt = d.parseFromRfc3339 claims.expiresAt ∧ c.maxUses = claims.maxUses)
  (hentry : (w.registry.ticketUsage claims.nonce = some entry ∧ now < expiresAt) ∨
    ((∀ u, w.registry.ticketUsage claims.nonce = some u → u.expiresAt ≤ now) ∧ entry.used = 0))
include hw htime hclock hnow hterms hentry

omit [DecidableEq ι] in
/-- a record that is used on time counts all uses before -/
lemma BudgetInv.entry_used : entry.used.toNat = uses w claims.nonce := by
  rcases Nat.eq_zero_or_pos (uses w claims.nonce) with hzero | hpos
  · -- the first use: the record is new, or was never used
    rcases hentry with ⟨hu, -⟩ | ⟨-, hused⟩
    · have := hw.counted claims.nonce entry hu
      omega
    · rw [hzero, hused]
      rfl
  · obtain ⟨c, hc, hnonce⟩ := uses_pos.1 hpos
    obtain ⟨u, hu, hexpires, hused⟩ := hw.current c hc expiresAt ((hterms c hc hnonce).1.trans htime) hclock
    rw [hnonce] at hu hused
    rcases hentry with ⟨hentry, -⟩ | ⟨hlapsed, -⟩
    · obtain rfl := some.inj (hu.symm.trans hentry)
      exact hused
    · -- the record cannot have been dropped, since the ticket has not expired
      have := hlapsed u hu
      omega

/-- a use is granted on time -/
lemma BudgetInv.grant {call : Call} (hexpires : entry.expiresAt = expiresAt) (hmax : entry.maxUses = claims.maxUses)
    (hless : entry.used < entry.maxUses) (hself : r.ticketUsage claims.nonce = some { entry with used := entry.used + 1 })
    (hothers : ∀ n, n ≠ claims.nonce → r.ticketUsage n = (w.registry.retainUsage now).ticketUsage n) :
    BudgetInv d (w.grant i d r claims call now) := by
  obtain ⟨hwclock, hregistry, hhandlers⟩ : (w.grant i d r claims call now).clock = w.clock ∧
      (w.grant i d r claims call now).registry = (finish d r claims now w.clock call).1 ∧
      (w.grant i d r claims call now).handlers = update w.handlers i .idle := by
    simp only [World.grant]
    cases (finish d r claims now w.clock call).2 <;> exact ⟨rfl, rfl, rfl⟩
  have husage : (w.grant i d r claims call now).registry.ticketUsage = r.ticketUsage := by
    rw [hregistry, finish_usage]
  have huses (n : String) : uses (w.grant i d r claims call now) n = uses w n + if claims.nonce = n then 1 else 0 := by
    simp [uses, World.grant, countP_append, countP_singleton]
  have hused := hw.entry_used htime hclock hnow hterms hentry
  have hnext : (entry.used + 1).toNat = uses w claims.nonce + 1 := by
    have hlt := UInt8.lt_iff_toNat_lt.1 hless
    have hbound := entry.maxUses.toNat_lt
    rw [UInt8.toNat_add, UInt8.toNat_one, ← hused]
    omega
  have hroom : uses w claims.nonce + 1 ≤ claims.maxUses.toNat := by
    have hlt := UInt8.lt_iff_toNat_lt.1 hless
    rw [hmax] at hlt
    omega
  -- a use of the same nonce is on the same terms, any other use was there before
  have hmem : ∀ c ∈ w.grants ++ [claims], (c.nonce = claims.nonce →
      d.parseFromRfc3339 c.expiresAt = d.parseFromRfc3339 claims.expiresAt ∧ c.maxUses = claims.maxUses) ∧
      (c.nonce ≠ claims.nonce → c ∈ w.grants) :=
    forall_mem_append.2 ⟨fun c hc => ⟨hterms c hc, fun _ => hc⟩,
      forall_mem_singleton.2 ⟨fun _ => ⟨rfl, rfl⟩, fun h => absurd rfl h⟩⟩
  refine ⟨?_, fun n u hu => ?_, fun c hc e hce hlt => ?_, fun c hc => ?_⟩
  · rw [hwclock, hhandlers]
    exact goto_past hw nofun
  · rw [husage] at hu
    rw [huses]
    by_cases hn : n = claims.nonce
    · subst hn
      obtain rfl := some.inj (hself.symm.trans hu)
      rw [if_pos rfl, hnext]
    · rw [hothers n hn] at hu
      have := hw.counted n u (retainUsage_some.1 hu).1
      omega
  · rw [hwclock] at hlt
    rw [husage, huses]
    by_cases hn : c.nonce = claims.nonce
    · have he : e = expiresAt := some.inj (hce.symm.trans (((hmem c hc).1 hn).1.trans htime))
      rw [hn, if_pos rfl]
      exact ⟨_, hself, hexpires.trans he.symm, hnext⟩
    · obtain ⟨u, hu, hue, hcount⟩ := hw.current c ((hmem c hc).2 hn) e hce hlt
      refine ⟨u, ?_, hue, by rw [if_neg (Ne.symm hn)]; exact hcount⟩
      rw [hothers c.nonce hn, retainUsage_some]
      exact ⟨hu, by omega⟩
  · rw [huses]
    by_cases hn : c.nonce = claims.nonce
    · rw [hn, if_pos rfl, ((hmem c hc).1 hn).2]
      exact hroom
    · rw [if_neg (Ne.symm hn)]
      exact hw.budget c ((hmem c hc).2 hn)

end Grant

lemma BudgetInv.acquire (hw : BudgetInv d w) (i : ι) (htime : onTime d w (.acquire i) = true) :
    BudgetInv d (w.acquire i d) := by
  unfold World.acquire
  cases hi : w.handlers i with
  | idle => exact hw
  | waiting claims call now =>
    have hnow := hw.past i claims call now hi
    simp only [onTime, hi, Bool.and_eq_true, List.all_eq_true, decide_eq_true_eq] at htime
    obtain ⟨hclock, hterms⟩ := htime
    dsimp only
    rcases consume_cases w.registry d claims now with ⟨r, detail, hconsume, hlapsed⟩ |
      ⟨r, expiresAt, entry, hconsume, hparse, hexpires, hmax, hless, hentry, hself, hothers⟩
    · rw [hconsume]
      exact hw.keep hnow hlapsed (fun _ _ _ h => by cases h) _
    · rw [hconsume]
      rw [hparse, Option.all_some, decide_eq_true_eq] at hclock
      exact hw.grant hparse hclock hnow hterms hentry hexpires hmax hless hself hothers

lemma BudgetInv.step (hw : BudgetInv d w) (o : Op ι) (htime : onTime d w o = true) : BudgetInv d (w.step d o) := by
  cases o with
  | tick n =>
    have hle : w.clock ≤ w.clock + n := by omega
    exact ⟨fun i claims call now h => le_trans (hw.past i claims call now h) hle, hw.counted,
      fun c hc e he hlt => hw.current c hc e he (lt_of_le_of_lt hle hlt), hw.budget⟩
  | receive i request =>
    change BudgetInv d (w.receive i d request)
    unfold receive
    cases w.handlers i with
    | waiting => exact hw
    | idle =>
      dsimp only
      cases checkRequest d request w.clock with
      | error => exact hw.keep le_rfl (lapsed_refl _ _) (fun _ _ _ h => by cases h) _
      | ok =>
        refine hw.keep le_rfl (lapsed_refl _ _) (fun c call now h => ?_) _
        obtain ⟨-, -, rfl⟩ := Phase.waiting.inj h
        exact le_rfl
  | acquire i => exact hw.acquire i htime
  | fail => exact hw.keep le_rfl (lapsed_refl _ _) (fun _ _ _ h => by cases h) _

end Steps

/-- **Tickets keep their budget on time.** In every run in which each request gets the lock while the clock is before the end
of its ticket, and tickets with one nonce have the same terms, the uses that are granted for a nonce are never more than its
ticket allows. -/
theorem tickets_keep_budget (d : Deps) (clock : ℤ) (ops : List (Op ι))
    (htime : Legal (World.step d) (fun w o => onTime d w o = true) (World.start clock) ops) :
    ∀ c ∈ (run (World.step d) (World.start clock) ops).grants,
      uses (run (World.step d) (World.start clock) ops) c.nonce ≤ c.maxUses.toNat :=
  (run_inv (BudgetInv d) (fun _ o h ho => h.step o ho) ops (.start d clock) htime).budget

/-! ## Two runs -/

namespace Sample

def contract : String := "0000000000000000000000000000000000000000000000000000000000000000"

/-- a ticket for matching, for two uses -/
def claims (nonce expiresAt : String) : TicketClaims :=
  ⟨1, "alice", "phone", "match", contract, "t", "later", "0", expiresAt, ticketMatchMaxUses, nonce⟩

/-- payloads are named by one letter, and every signature is valid -/
def deps : Deps where
  base64Decode s := if s = "signature" then some (List.replicate 64 0) else some (Handshake.utf8 s)
  base64Encode _ := ""
  ed25519Verify _ _ := true
  parseClaims b := if b = [97] then some (claims "first" "soon") else some (claims "second" "later")
  parseFromRfc3339 s :=
    if s = "0" then some 0 else if s = "soon" then some (100 * nanosPerSecond) else some (200 * nanosPerSecond)
  currentManifestContractSha256 := contract
  evaluate _ := none

def first : Request := ⟨"a.signature", .matchHandles []⟩

def second : Request := ⟨"b.signature", .matchHandles []⟩

/-- both uses of the first ticket, and one of the second after the first has expired -/
def inTime : List (Op Bool) :=
  [.receive false first, .acquire false, .receive true first, .acquire true, .tick 100000000000, .receive true second,
    .acquire true]

/-- the first ticket is used twice; a third request waits for the lock until the second ticket has been used -/
def late : List (Op Bool) :=
  [.receive false first, .acquire false, .receive false first, .acquire false, .receive true first, .tick 100000000000,
    .receive false second, .acquire false, .acquire true]

lemma runs_state : Legal (step deps) (fun w o => onTime deps w o = true) (start 0) inTime ∧
    uses (run (step deps) (start 0) inTime) "first" = 2 ∧
    (run (step deps) (start 0) late).grants.map (fun c => (c.nonce, c.maxUses)) =
      [("first", 2), ("first", 2), ("second", 2), ("first", 2)] ∧
    uses (run (step deps) (start 0) late) "first" = 3 := by
  decide

end Sample

open Discovery.Sample in
/-- both uses are granted, and no more -/
theorem tickets_keep_budget_inTime :
    uses (run (World.step deps) (World.start 0) inTime) "first" = 2 ∧
    Legal (World.step deps) (fun w o => onTime deps w o = true) (World.start 0) inTime ∧
    ∀ c ∈ (run (World.step deps) (World.start 0) inTime).grants,
      uses (run (World.step deps) (World.start 0) inTime) c.nonce ≤ c.maxUses.toNat := by
  obtain ⟨hlegal, huses, -, -⟩ := runs_state
  exact ⟨huses, hlegal, tickets_keep_budget deps 0 inTime hlegal⟩

open Discovery.Sample in
/-- the third use of a ticket for two, after its record was dropped while the request waited -/
theorem third_use :
    (run (World.step deps) (World.start 0) late).grants.map (fun c => (c.nonce, c.maxUses)) =
      [("first", 2), ("first", 2), ("second", 2), ("first", 2)] ∧
    uses (run (World.step deps) (World.start 0) late) "first" = 3 :=
  runs_state.2.2

end PqMsg.Discovery
