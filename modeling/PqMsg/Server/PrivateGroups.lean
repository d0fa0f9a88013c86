/-
Private groups at the server (`handlers/private_groups.rs`): epochs of group states, credentials, invites and messages.

The server knows no members. Publishing the state of an epoch stores one credential for each member, under the hash of a
membership handle, with the hashes of its fetch key and (for those who may publish) of its publish key. Every later request
names a handle and shows a key.

A handler is a process over the tables, one statement at a time, as in `PqMsg.Server.Handlers`: reads see committed rows, a
statement waits while another transaction holds a row that it writes, a process may stop at any time. Only publishing a state
takes a transaction; authorisation is read before it begins. Base64 and SHA-256 are parameters. Rate limits can only turn
requests away and are left out; the id of a new message and the token of a new invite are any that are not taken.

- `exec_done`: when a statement runs, and what it does.
- `write_cases`: what becomes of a handler at a statement.
- `checkLatest_outcome` and its like: a check fails the request, or leads to one phase.
- `latestEpoch_some`: what `MAX(epoch)` is.
-/
import PqMsg.Lib.Run
import PqMsg.Server.Database
import PqMsg.Server.Validation

namespace PqMsg.Server.PrivateGroups

open Lib Option

/-! ## Requests -/

/-- third-party code -/
structure Deps where
  base64Decode : String → Option Bytes
  sha256 : Bytes → Bytes

def ciphertextNonceLen : ℕ := 12
def authKeyLen : ℕ := 32
def maxCiphertextBytes : ℕ := 512 * 1024
def maxAadBytes : ℕ := 4096
def hybridSignatureMaxBytes : ℕ := 4096
def inviteDefaultTtlSecs : ℕ := 7 * 24 * 60 * 60
def inviteMaxTtlSecs : ℕ := 30 * 24 * 60 * 60
def maxGroupMembers : ℕ := 512
def sha256HexLen : ℕ := 64
def nanosPerSecond : ℕ := 10 ^ 9

/-- `PrivateGroupMemberCredentialRecord` -/
structure MemberRecord where
  membershipHandleSha256 : String
  memberCommitmentSha256 : String
  fetchKeySha256 : String
  publishKeySha256 : Option String
deriving DecidableEq

structure CiphertextFields where
  nonceBase64 : String
  ciphertextBase64 : String
  aadBase64 : String
deriving DecidableEq

structure PublishStateRequest where
  groupId : String
  epoch : UInt64
  stateCommitmentSha256 : String
  ciphertext : CiphertextFields
  authorizingMembershipHandleSha256 : String
  authorizingPublishKeyBase64 : String
  members : List MemberRecord

structure CreateInviteRequest where
  groupId : String
  epoch : UInt64
  inviteCommitmentSha256 : String
  inviteCiphertext : CiphertextFields
  authorizingMembershipHandleSha256 : String
  authorizingPublishKeyBase64 : String
  expiresInSeconds : Option UInt32

structure PublishMessageRequest where
  groupId : String
  epoch : UInt64
  sentAtUnixMs : UInt64
  ciphertext : CiphertextFields
  senderHybridSignatureBase64 : String
  authorizingMembershipHandleSha256 : String
  authorizingFetchKeyBase64 : String

inductive Request where
  | publishState (request : PublishStateRequest)
  | fetchState (membershipHandleSha256 fetchKeyBase64 : String)
  | createInvite (request : CreateInviteRequest)
  | resolveInvite (inviteToken : String)
  | consumeInvite (inviteToken : String)
  | publishMessage (request : PublishMessageRequest)
  | fetchMessages (membershipHandleSha256 fetchKeyBase64 : String) (sinceMessageId : Option ℤ)

/-! ## Checks -/

def isAsciiHexdigit (c : Char) : Bool := ('0' ≤ c && c ≤ '9') || ('a' ≤ c && c ≤ 'f') || ('A' ≤ c && c ≤ 'F')

def isAsciiAlphanumeric (c : Char) : Bool := ('0' ≤ c && c ≤ '9') || ('a' ≤ c && c ≤ 'z') || ('A' ≤ c && c ≤ 'Z')

def validateSha256Hex (field value : String) : Except AppError String :=
  let normalized := String.ofList ((trim value).toList.map Char.toLower)
  if len normalized ≠ sha256HexLen then .error (.badRequest (field ++ " value must be 64 hex characters"))
  else if normalized.toList.all isAsciiHexdigit = false then .error (.badRequest (field ++ " value must be lowercase hex"))
  else .ok normalized

def validatePrivateGroupEpoch (epoch : UInt64) : Except AppError ℕ :=
  if epoch = 0 then .error (.badRequest "private group epoch must be >= 1")
  else if epoch.toNat ≥ 2 ^ 63 then .error (.badRequest "private group epoch is too large")
  else .ok epoch.toNat

def validatePrivateGroupInviteTtl (expiresInSeconds : UInt32) : Except AppError ℕ :=
  if expiresInSeconds.toNat < 60 ∨ expiresInSeconds.toNat > inviteMaxTtlSecs then
    .error (.badRequest ("private group invite expiry must be between 60 and " ++ toString inviteMaxTtlSecs ++ " seconds"))
  else .ok expiresInSeconds.toNat

def validatePrivateGroupInviteToken (inviteToken : String) : Except AppError String :=
  let trimmed := trim inviteToken
  if len trimmed = 0 ∨ len trimmed > 128 then
    .error (.badRequest "private group invite token must be 1..=128 characters")
  else if trimmed.toList.all (fun c => isAsciiAlphanumeric c || c = '-' || c = '_') = false then
    .error (.badRequest "private group invite token contains invalid characters")
  else .ok trimmed

def normalizeMember (m : MemberRecord) : Except AppError MemberRecord := do
  let handle ← validateSha256Hex "members[].membership_handle_sha256" m.membershipHandleSha256
  let commitment ← validateSha256Hex "members[].member_commitment_sha256" m.memberCommitmentSha256
  let fetchKey ← validateSha256Hex "members[].fetch_key_sha256" m.fetchKeySha256
  let publishKey ← m.publishKeySha256.mapM (validateSha256Hex "members[].publish_key_sha256")
  return ⟨handle, commitment, fetchKey, publishKey⟩

/-- the loop over the members; `seen` are the handles so far -/
def normalizeMembers (seen : List String) : List MemberRecord → Except AppError (List MemberRecord)
  | [] => .ok []
  | m :: ms => do
    let member ← normalizeMember m
    if member.membershipHandleSha256 ∈ seen then
      .error (.badRequest "private group membership handles must be unique")
    else do
      let members ← normalizeMembers (member.membershipHandleSha256 :: seen) ms
      return member :: members

def normalizePrivateGroupMembers (rawMembers : List MemberRecord) : Except AppError (List MemberRecord) :=
  if rawMembers = [] then .error (.badRequest "private group members cannot be empty")
  else if rawMembers.length > maxGroupMembers then
    .error (.badRequest ("private group members cannot exceed " ++ toString maxGroupMembers))
  else normalizeMembers [] rawMembers

section

variable (d : Deps) (field value : String)

def decodeBase64Range (minLen maxLen : ℕ) : Except AppError Bytes :=
  if len value = 0 then .error (.badRequest (field ++ " cannot be empty"))
  else if len value > (maxLen + 2) / 3 * 4 + 8 then .error (.badRequest (field ++ " is too large"))
  else
    match d.base64Decode value with
    | none => .error (.badRequest (field ++ " is not valid base64"))
    | some decoded =>
      if decoded.length < minLen ∨ decoded.length > maxLen then
        .error (.badRequest
          (field ++ " decoded length must be between " ++ toString minLen ++ " and " ++ toString maxLen))
      else .ok decoded

def decodeBase64Exact (expectedLen : ℕ) : Except AppError Bytes :=
  decodeBase64Range d field value expectedLen expectedLen

def decodeBase64Max (maxLen : ℕ) : Except AppError Bytes := decodeBase64Range d field value 1 maxLen

/-- the checks of the three ciphertext fields, whose names start with `field`; the trimmed texts are stored -/
def checkCiphertext (field : String) (c : CiphertextFields) : Except AppError CiphertextFields := do
  let _ ← decodeBase64Exact d (field ++ "ciphertext_nonce_base64") c.nonceBase64 ciphertextNonceLen
  let _ ← decodeBase64Max d (field ++ "ciphertext_base64") c.ciphertextBase64 maxCiphertextBytes
  let _ ← decodeBase64Max d (field ++ "ciphertext_aad_base64") c.aadBase64 maxAadBytes
  return ⟨trim c.nonceBase64, trim c.ciphertextBase64, trim c.aadBase64⟩

/-- `hex::encode(Sha256::digest(key))` -/
def Deps.keySha256 (key : Bytes) : String := hexEncode (d.sha256 key)

/-! ## Jobs: requests that passed their checks -/

structure PublishJob where
  groupId : String
  epoch : ℕ
  stateCommitmentSha256 : String
  ciphertext : CiphertextFields
  handle : String
  publishKey : Bytes
  members : List MemberRecord
  now : ℕ
deriving DecidableEq

structure InviteJob where
  groupId : String
  epoch : ℕ
  inviteCommitmentSha256 : String
  ciphertext : CiphertextFields
  handle : String
  publishKey : Bytes
  expiresInSeconds : ℕ

structure MessageJob where
  groupId : String
  epoch : ℕ
  sentAtUnixMs : UInt64
  ciphertext : CiphertextFields
  senderHybridSignatureBase64 : String
  handle : String
  fetchKey : Bytes
deriving DecidableEq

structure FetchJob where
  handle : String
  fetchKey : Bytes
  sinceMessageId : ℕ
deriving DecidableEq

def checkPublishState (r : PublishStateRequest) (now : ℕ) : Except AppError PublishJob := do
  validateId "group_id" r.groupId
  let epoch ← validatePrivateGroupEpoch r.epoch
  let commitment ← validateSha256Hex "state_commitment_sha256" r.stateCommitmentSha256
  let handle ← validateSha256Hex "authorizing_membership_handle_sha256" r.authorizingMembershipHandleSha256
  let ciphertext ← checkCiphertext d "" r.ciphertext
  let publishKey ← decodeBase64Exact d "authorizing_publish_key_base64" r.authorizingPublishKeyBase64 authKeyLen
  let members ← normalizePrivateGroupMembers r.members
  return ⟨trim r.groupId, epoch, commitment, ciphertext, handle, publishKey, members, now⟩

def checkFetchKey (membershipHandleSha256 fetchKeyBase64 : String) : Except AppError (String × Bytes) := do
  let handle ← validateSha256Hex "membership_handle_sha256" membershipHandleSha256
  let fetchKey ← decodeBase64Exact d "fetch_key_base64" fetchKeyBase64 authKeyLen
  return (handle, fetchKey)

def checkCreateInvite (r : CreateInviteRequest) : Except AppError InviteJob := do
  validateId "group_id" r.groupId
  let epoch ← validatePrivateGroupEpoch r.epoch
  let commitment ← validateSha256Hex "invite_commitment_sha256" r.inviteCommitmentSha256
  let handle ← validateSha256Hex "authorizing_membership_handle_sha256" r.authorizingMembershipHandleSha256
  let ciphertext ← checkCiphertext d "invite_" r.inviteCiphertext
  let publishKey ← decodeBase64Exact d "authorizing_publish_key_base64" r.authorizingPublishKeyBase64 authKeyLen
  let ttl ← validatePrivateGroupInviteTtl (r.expiresInSeconds.getD (UInt32.ofNat inviteDefaultTtlSecs))
  return ⟨trim r.groupId, epoch, commitment, ciphertext, handle, publishKey, ttl⟩

def checkPublishMessage (r : PublishMessageRequest) : Except AppError MessageJob := do
  validateId "group_id" r.groupId
  let epoch ← validatePrivateGroupEpoch r.epoch
  let handle ← validateSha256Hex "authorizing_membership_handle_sha256" r.authorizingMembershipHandleSha256
  let ciphertext ← checkCiphertext d "" r.ciphertext
  let _ ← decodeBase64Range d "sender_hybrid_signature_base64" r.senderHybridSignatureBase64 65 hybridSignatureMaxBytes
  let fetchKey ← decodeBase64Exact d "authorizing_fetch_key_base64" r.authorizingFetchKeyBase64 authKeyLen
  return ⟨trim r.groupId, epoch, r.sentAtUnixMs, ciphertext, trim r.senderHybridSignatureBase64, handle, fetchKey⟩

def checkFetchMessages (membershipHandleSha256 fetchKeyBase64 : String) (sinceMessageId : Option ℤ) :
    Except AppError FetchJob := do
  let (handle, fetchKey) ← checkFetchKey d membershipHandleSha256 fetchKeyBase64
  let since := sinceMessageId.getD 0
  if since < 0 then .error (.badRequest "since_message_id must be >= 0")
  else .ok ⟨handle, fetchKey, since.toNat⟩

end

/-! ## Tables -/

inductive Key where
  | state (groupId : String) (epoch : ℕ)
  | credential (membershipHandleSha256 : String)
  | invite (inviteToken : String)
  | message (messageId : ℕ)
deriving DecidableEq

structure StateRow where
  stateCommitmentSha256 : String
  ciphertext : CiphertextFields
  publishedByMembershipHandleSha256 : String
  publishedAt : ℕ
deriving DecidableEq

structure CredentialRow where
  groupId : String
  epoch : ℕ
  memberCommitmentSha256 : String
  fetchKeySha256 : String
  publishKeySha256 : Option String
  createdAt : ℕ
  revokedAt : Option ℕ
deriving DecidableEq

structure InviteRow where
  groupId : String
  epoch : ℕ
  inviteCommitmentSha256 : String
  ciphertext : CiphertextFields
  createdByMembershipHandleSha256 : String
  createdAt : ℕ
  expiresAt : ℕ
  revokedAt : Option ℕ
deriving DecidableEq

structure MessageRow where
  groupId : String
  epoch : ℕ
  sentAtUnixMs : UInt64
  ciphertext : CiphertextFields
  senderHybridSignatureBase64 : String
  receivedAt : ℕ
deriving DecidableEq

abbrev Row : Key → Type
  | .state _ _ => StateRow
  | .credential _ => CredentialRow
  | .invite _ => InviteRow
  | .message _ => MessageRow

abbrev RowView := ∀ k, Option (Row k)

def PublishJob.stateRow (job : PublishJob) : StateRow :=
  ⟨job.stateCommitmentSha256, job.ciphertext, job.handle, job.now⟩

def PublishJob.credentialRow (job : PublishJob) (m : MemberRecord) : CredentialRow :=
  ⟨job.groupId, job.epoch, m.memberCommitmentSha256, m.fetchKeySha256, m.publishKeySha256, job.now, none⟩

def InviteJob.row (job : InviteJob) (now : ℕ) : InviteRow :=
  ⟨job.groupId, job.epoch, job.inviteCommitmentSha256, job.ciphertext, job.handle, now,
    now + job.expiresInSeconds * nanosPerSecond, none⟩

def MessageJob.row (job : MessageJob) (now : ℕ) : MessageRow :=
  ⟨job.groupId, job.epoch, job.sentAtUnixMs, job.ciphertext, job.senderHybridSignatureBase64, now⟩

/-! ## Statements -/

inductive Stmt where
  /-- `SET revoked_at = $1 WHERE group_id = $2 AND epoch = $3 AND revoked_at IS NULL` -/
  | revokeCredentials (groupId : String) (epoch now : ℕ)
  | insertState (groupId : String) (epoch : ℕ) (row : StateRow)
  /-- `SET revoked_at = $1 WHERE group_id = $2 AND epoch < $3 AND revoked_at IS NULL` -/
  | revokeInvites (groupId : String) (epoch now : ℕ)
  | insertCredential (membershipHandleSha256 : String) (row : CredentialRow)
  /-- `DELETE … WHERE expires_at <= $1 OR revoked_at IS NOT NULL` -/
  | purgeInvites (now : ℕ)
  | insertInvite (inviteToken : String) (row : InviteRow)
  | consumeInvite (inviteToken : String) (now : ℕ)
  | insertMessage (messageId : ℕ) (row : MessageRow)

def onCredential (f : String → Option (Option CredentialRow)) : Writes Row
  | .credential handle => f handle
  | _ => none

def onInvite (f : String → Option (Option InviteRow)) : Writes Row
  | .invite token => f token
  | _ => none

/-- a row that is inserted -/
def onKey (k : Key) (row : Row k) : Writes Row := fun k' => if h : k' = k then some (some (h ▸ row)) else none

/-- the rows that a statement writes, on what its transaction sees -/
def Stmt.writes (view : RowView) : Stmt → Writes Row
  | .revokeCredentials groupId epoch now => onCredential fun h => update (view (.credential h))
      (fun row => row.groupId = groupId ∧ row.epoch = epoch ∧ row.revokedAt = none) ({ · with revokedAt := some now })
  | .insertState groupId epoch row => onKey (.state groupId epoch) row
  | .revokeInvites groupId epoch now => onInvite fun t => update (view (.invite t))
      (fun row => row.groupId = groupId ∧ row.epoch < epoch ∧ row.revokedAt = none) ({ · with revokedAt := some now })
  | .insertCredential handle row => onKey (.credential handle) row
  | .purgeInvites now => onInvite fun t => delete (view (.invite t)) fun row => row.expiresAt ≤ now ∨ row.revokedAt ≠ none
  | .insertInvite token row => onKey (.invite token) row
  | .consumeInvite token now => onInvite fun t => if t = token then
      update (view (.invite t)) (fun row => row.revokedAt = none) ({ · with revokedAt := some now }) else none
  | .insertMessage messageId row => onKey (.message messageId) row

/-- the row that a statement adds -/
def Stmt.new : Stmt → Option Key
  | .insertState groupId epoch _ => some (.state groupId epoch)
  | .insertCredential handle _ => some (.credential handle)
  | .insertInvite token _ => some (.invite token)
  | .insertMessage messageId _ => some (.message messageId)
  | _ => none

/-- the group state that an inserted row refers to -/
def Stmt.parent : Stmt → Option Key
  | .insertCredential _ row => some (.state row.groupId row.epoch)
  | .insertInvite _ row => some (.state row.groupId row.epoch)
  | .insertMessage _ row => some (.state row.groupId row.epoch)
  | _ => none

variable {ι : Type} [DecidableEq ι]

abbrev Tables (ι : Type) := Store ι Key Row

def Tables.empty : Tables ι := ⟨[], fun _ => none, fun _ => none, fun _ _ => ⟨rfl, rfl⟩⟩

inductive Outcome (ι : Type) where
  | waits
  /-- a primary key or a foreign key fails -/
  | conflict
  | done (tables : Tables ι)

/-- states are never deleted, so that a foreign key takes no lock that matters -/
def Tables.exec (s : Tables ι) (i : ι) (stmt : Stmt) : Outcome ι :=
  if ¬s.Free i (stmt.writes (s.view i)) then .waits
  else if stmt.new.any fun k => (s.view i k).isSome then .conflict
  else if stmt.parent.any fun k => (s.view i k).isNone then .conflict
  else .done (s.write i stmt.new.toList (stmt.writes (s.view i)))

section Exec

variable {s s' : Tables ι} {i : ι} {stmt : Stmt}

lemma exec_done (h : s.exec i stmt = .done s') :
    s.Free i (stmt.writes (s.view i)) ∧ (∀ k ∈ stmt.new, s.view i k = none) ∧ (∀ k ∈ stmt.parent, s.view i k ≠ none) ∧
      s' = s.write i stmt.new.toList (stmt.writes (s.view i)) := by
  unfold Tables.exec at h
  split_ifs at h with hfree hnew hparent
  · refine ⟨hfree, fun k hk => ?_, fun k hk hnone => hparent ?_, (Outcome.done.inj h).symm⟩
    · rw [mem_def.1 hk, any_some] at hnew
      simpa using hnew
    · rw [mem_def.1 hk, any_some, hnone]
      rfl

/-- row locks: a statement leaves what other processes have written -/
lemma done_draft_other (h : s.exec i stmt = .done s') {j : ι} (hj : j ≠ i) {k : Key} {x : Option (Row k)} :
    s'.draft k = some (j, x) ↔ s.draft k = some (j, x) := by
  obtain ⟨hfree, -, -, rfl⟩ := exec_done h
  constructor
  · intro hd
    rcases Store.write_draft_cases s i stmt.new.toList (stmt.writes (s.view i)) k with heq | ⟨x', -, heq⟩
    · exact heq.symm.trans hd
    · have := some.inj (heq.symm.trans hd)
      exact absurd (congrArg Prod.fst this).symm hj
  · intro hd
    exact Store.write_draft_other hfree hd hj

lemma onKey_self (k : Key) (row : Row k) : onKey k row k = some (some row) := dif_pos rfl

lemma onKey_ne {k k' : Key} (h : k' ≠ k) (row : Row k) : onKey k row k' = none := dif_neg h

/-- an `INSERT` writes its row, which the process did not see before, and no other -/
lemma insert_done {k : Key} {row : Row k} (h : s.exec i stmt = .done s') (hnew : stmt.new = some k)
    (hwrites : stmt.writes (s.view i) = onKey k row) :
    s.view i k = none ∧ s'.committed = s.committed ∧ s'.draft k = some (i, some row) ∧
      ∀ k', k' ≠ k → s'.draft k' = s.draft k' := by
  obtain ⟨-, hunseen, -, rfl⟩ := exec_done h
  rw [hwrites, hnew]
  refine ⟨hunseen k hnew, rfl, Store.write_draft_some (onKey_self k row) (.inr (List.mem_singleton.2 rfl)), ?_⟩
  intro k' hk'
  exact Store.write_draft_none (onKey_ne hk' row)

end Exec

/-! ## Reads -/

/-- `SELECT MAX(epoch) FROM private_group_states WHERE group_id = $1` -/
def latestEpoch (keys : List Key) (rows : RowView) (groupId : String) : Option ℕ :=
  (keys.filterMap fun k => match k with
    | .state g e => if g = groupId ∧ (rows (.state g e)).isSome then some e else none
    | _ => none).max?

omit [DecidableEq ι] in
/-- the latest epoch is stored, and no stored epoch is later -/
lemma latestEpoch_some {s : Tables ι} {groupId : String} {n : ℕ} (h : latestEpoch s.keys s.committed groupId = some n) :
    (s.committed (.state groupId n)).isSome ∧ ∀ e, (s.committed (.state groupId e)).isSome → e ≤ n := by
  obtain ⟨hmem, hmax⟩ := List.max?_eq_some_iff.1 h
  constructor
  · obtain ⟨k, -, hk⟩ := List.mem_filterMap.1 hmem
    cases k with
    | state =>
      simp only [ite_none_right_eq_some, some.injEq] at hk
      obtain ⟨⟨rfl, hsome⟩, rfl⟩ := hk
      exact hsome
    | credential | invite | message => cases hk
  · intro e he
    refine hmax e (List.mem_filterMap.2 ⟨.state groupId e, ?_, if_pos ⟨rfl, he⟩⟩)
    by_contra hk
    rw [(s.known _ hk).1] at he
    cases he

/-- the credential of an epoch that is not revoked -/
def activeCredential (rows : RowView) (handle groupId : String) (epoch : ℕ) : Option CredentialRow :=
  (rows (.credential handle)).filter fun row => row.groupId = groupId ∧ row.epoch = epoch ∧ row.revokedAt = none

/-- `resolve_private_group_fetch_credential` -/
def resolveFetchCredential (d : Deps) (rows : RowView) (handle : String) (fetchKey : Bytes) : Except AppError (String × ℕ) :=
  match (rows (.credential handle)).filter fun row => row.revokedAt = none with
  | none => .error (.notFound "private group state not found")
  | some row =>
    if row.fetchKeySha256 ≠ d.keySha256 fetchKey then .error (.forbidden "private group fetch credential is invalid")
    else .ok (row.groupId, row.epoch)

/-- the messages of an epoch after `since`, by their ids -/
def messagesAfter (keys : List Key) (rows : RowView) (groupId : String) (epoch since : ℕ) : List (ℕ × MessageRow) :=
  (keys.dedup.filterMap fun k => match k with
    | .message id => ((rows (.message id)).filter fun row =>
        row.groupId = groupId ∧ row.epoch = epoch ∧ since < id).map fun row => (id, row)
    | _ => none).mergeSort fun a b => decide (a.1 ≤ b.1)

/-- `load_private_group_invite_record` -/
def loadInviteRecord (rows : RowView) (token : String) (now : ℕ) : Except AppError InviteRow :=
  match (rows (.invite token)).filter fun row => now < row.expiresAt ∧ row.revokedAt = none with
  | none => .error (.notFound "private group invite not found or expired")
  | some row => .ok row

/-! ## Handlers -/

inductive PublishStep where
  | insertState
  | revokeInvites
  | insertMembers (rest : List MemberRecord)
deriving DecidableEq

inductive Phase where
  | idle
  | publishLatest (job : PublishJob)
  | publishCredential (job : PublishJob) (latest : ℕ)
  | publishRevoke (job : PublishJob) (latest : ℕ)
  | publishing (job : PublishJob) (latest : Option ℕ) (step : PublishStep)
  | fetchCredential (handle : String) (fetchKey : Bytes)
  | fetchState (groupId : String) (epoch : ℕ)
  | invitePurge (job : InviteJob)
  | inviteLatest (job : InviteJob)
  | inviteCredential (job : InviteJob) (latest : ℕ)
  | inviteInsert (job : InviteJob)
  | resolvePurge (inviteToken : String)
  | resolveLoad (inviteToken : String)
  | resolveLatest (inviteToken : String) (invite : InviteRow)
  | consumePurge (inviteToken : String)
  | consumeLoad (inviteToken : String)
  | consumeUpdate (inviteToken : String)
  | messageLatest (job : MessageJob)
  | messageCredential (job : MessageJob) (latest : ℕ)
  | messageInsert (job : MessageJob)
  | readCredential (job : FetchJob)
  | readMessages (job : FetchJob) (groupId : String) (epoch : ℕ)

inductive Reply where
  | failed (error : AppError)
  | published (groupId : String) (epoch storedMemberCount publishedAt : ℕ)
  | state (groupId : String) (epoch : ℕ) (row : StateRow)
  | invited (inviteToken groupId : String) (epoch expiresAt createdAt : ℕ)
  | resolved (inviteToken : String) (invite : InviteRow)
  | consumed (inviteToken : String) (revokedAt : ℕ)
  | message (messageId : ℕ) (groupId : String) (epoch receivedAt : ℕ)
  /-- with the handle of the request -/
  | messages (handle groupId : String) (epoch : ℕ) (messages : List (ℕ × MessageRow))
deriving DecidableEq

inductive Next where
  | goto (phase : Phase)
  | answer (reply : Reply)

/-- what a handler does next; a statement that is not `atOnce` is one of an open transaction -/
inductive Turn where
  | next (next : Next)
  | write (stmt : Stmt) (atOnce : Bool) (next : Next) (onConflict : AppError)
  | commit (job : PublishJob)

def Next.fail (error : AppError) : Next := .answer (.failed error)

/-- an error answers the request -/
def Next.ofExcept {α : Type} (result : Except AppError α) (next : α → Next) : Next :=
  match result with
  | .ok a => next a
  | .error error => Next.fail error

/-- the clock, and what the database or the random number generator chooses -/
structure Draw where
  now : ℕ
  inviteToken : String
  messageId : ℕ+

section Turns

variable (d : Deps) (keys : List Key) (rows : RowView)

/-- `load_latest_private_group_epoch`, and the comparison with the epoch of the request -/
def checkLatest (groupId : String) (epoch : ℕ) (stale : String) (next : ℕ → Phase) : Next :=
  match latestEpoch keys rows groupId with
  | none => Next.fail (.notFound "private group state not found")
  | some latest => if epoch ≠ latest then Next.fail (.conflict stale) else .goto (next latest)

/-- the credential of the latest epoch, and the comparison with the key of the request -/
def checkCredential (handle groupId : String) (latest : ℕ) (fits : CredentialRow → Bool) (invalid : String) (next : Phase) :
    Next :=
  match activeCredential rows handle groupId latest with
  | none =>
    Next.fail (.forbidden "authorizing private group membership handle is not active for the latest epoch")
  | some row => if fits row then .goto next else Next.fail (.forbidden invalid)

/-- the first part of `publish_private_group_state`, up to its transaction -/
def authorizePublish (job : PublishJob) : Next :=
  match latestEpoch keys rows job.groupId with
  | none =>
    if job.epoch ≠ 1 then Next.fail (.badRequest "private group bootstrap publish must start at epoch 1")
    else
      match job.members.find? (·.membershipHandleSha256 = job.handle) with
      | none => Next.fail (.forbidden
          "bootstrap private group publish requires the authorizing membership handle in the member set")
      | some record =>
        if record.publishKeySha256 ≠ some (d.keySha256 job.publishKey) then Next.fail (.forbidden
          "bootstrap private group publish key does not match the authorizing member credential")
        else .goto (.publishing job none .insertState)
  | some latest =>
    if job.epoch ≠ latest + 1 then Next.fail (.badRequest "private group epoch must advance exactly by one")
    else .goto (.publishCredential job latest)

/-- the transaction of `publish_private_group_state`, after the credentials of the previous epoch are revoked -/
def publishTurn (job : PublishJob) (latest : Option ℕ) : PublishStep → Turn
  | .insertState => .write (.insertState job.groupId job.epoch job.stateRow) false
      (.goto (.publishing job latest .revokeInvites)) (.conflict "private group state for this epoch already exists")
  | .revokeInvites => .write (.revokeInvites job.groupId job.epoch job.now) false
      (.goto (.publishing job latest (.insertMembers job.members))) .database
  | .insertMembers (m :: rest) => .write (.insertCredential m.membershipHandleSha256 (job.credentialRow m)) false
      (.goto (.publishing job latest (.insertMembers rest))) (.conflict "private group membership handle already exists")
  | .insertMembers [] => .commit job

def Phase.turn (x : Draw) : Phase → Turn
  | .idle => .next (.goto .idle)
  | .publishLatest job => .next (authorizePublish d keys rows job)
  | .publishCredential job latest => .next (checkCredential rows job.handle job.groupId latest
      (fun row => row.publishKeySha256 = some (d.keySha256 job.publishKey))
      "authorizing private group publish key is invalid" (.publishRevoke job latest))
  | .publishRevoke job latest => .write (.revokeCredentials job.groupId latest job.now) false
      (.goto (.publishing job (some latest) .insertState)) .database
  | .publishing job latest step => publishTurn job latest step
  | .fetchCredential handle fetchKey => .next
      (Next.ofExcept (resolveFetchCredential d rows handle fetchKey) fun c => .goto (.fetchState c.1 c.2))
  | .fetchState groupId epoch => .next (match rows (.state groupId epoch) with
      | none => Next.fail (.notFound "private group state not found")
      | some row => .answer (.state groupId epoch row))
  | .invitePurge job => .write (.purgeInvites x.now) true (.goto (.inviteLatest job)) .database
  | .inviteLatest job => .next (checkLatest keys rows job.groupId job.epoch
      "private group invite epoch is stale; refresh state first" (.inviteCredential job))
  | .inviteCredential job latest => .next (checkCredential rows job.handle job.groupId latest
      (fun row => row.publishKeySha256 = some (d.keySha256 job.publishKey))
      "authorizing private group publish key is invalid" (.inviteInsert job))
  | .inviteInsert job => .write (.insertInvite x.inviteToken (job.row x.now)) true
      (.answer (.invited x.inviteToken job.groupId job.epoch (job.row x.now).expiresAt x.now))
      (.conflict "private group invite token already exists")
  | .resolvePurge token => .write (.purgeInvites x.now) true
      (Next.ofExcept (validatePrivateGroupInviteToken token) fun token => .goto (.resolveLoad token)) .database
  | .resolveLoad token => .next
      (Next.ofExcept (loadInviteRecord rows token x.now) fun invite => .goto (.resolveLatest token invite))
  | .resolveLatest token invite => .next (match latestEpoch keys rows invite.groupId with
      | none => Next.fail (.notFound "private group state not found")
      | some latest => if invite.epoch ≠ latest then
          Next.fail (.conflict "private group invite is stale; fetch a newer invite package")
        else .answer (.resolved token invite))
  | .consumePurge token => .write (.purgeInvites x.now) true
      (Next.ofExcept (validatePrivateGroupInviteToken token) fun token => .goto (.consumeLoad token)) .database
  | .consumeLoad token => .next
      (Next.ofExcept (loadInviteRecord rows token x.now) fun _ => .goto (.consumeUpdate token))
  | .consumeUpdate token => .write (.consumeInvite token x.now) true (.answer (.consumed token x.now)) .database
  | .messageLatest job => .next (checkLatest keys rows job.groupId job.epoch
      "private group epoch is stale; refresh state first" (.messageCredential job))
  | .messageCredential job latest => .next (checkCredential rows job.handle job.groupId latest
      (fun row => row.fetchKeySha256 = d.keySha256 job.fetchKey)
      "private group fetch credential is invalid" (.messageInsert job))
  | .messageInsert job =>
    if job.sentAtUnixMs.toNat ≥ 2 ^ 63 then .next (Next.fail (.badRequest "sent_at_unix_ms is too large"))
    else .write (.insertMessage x.messageId (job.row x.now)) true
      (.answer (.message x.messageId job.groupId job.epoch x.now)) .database
  | .readCredential job => .next
      (Next.ofExcept (resolveFetchCredential d rows job.handle job.fetchKey) fun c => .goto (.readMessages job c.1 c.2))
  | .readMessages job groupId epoch => .next
      (.answer (.messages job.handle groupId epoch (messagesAfter keys rows groupId epoch job.sinceMessageId)))

end Turns

/-! ## Outcomes of the checks -/

section Outcomes

variable {d : Deps} {keys : List Key} {rows : RowView} {P : Next → Prop}

lemma ofExcept_outcome {α : Type} {result : Except AppError α} {next : α → Next} (hfail : ∀ e, P (Next.fail e))
    (hok : ∀ a, result = .ok a → P (next a)) : P (Next.ofExcept result next) := by
  cases result with
  | ok a => exact hok a rfl
  | error e => exact hfail e

lemma checkLatest_outcome {groupId stale : String} {epoch : ℕ} {next : ℕ → Phase} (hfail : ∀ e, P (Next.fail e))
    (hok : ∀ latest, latestEpoch keys rows groupId = some latest → P (.goto (next latest))) :
    P (checkLatest keys rows groupId epoch stale next) := by
  unfold checkLatest
  cases hlatest : latestEpoch keys rows groupId with
  | none => exact hfail _
  | some latest =>
    dsimp only
    split_ifs
    · exact hfail _
    · exact hok latest hlatest

lemma checkCredential_outcome {handle groupId invalid : String} {latest : ℕ} {fits : CredentialRow → Bool} {next : Phase}
    (hfail : ∀ e, P (Next.fail e))
    (hok : ∀ row, activeCredential rows handle groupId latest = some row → fits row = true → P (.goto next)) :
    P (checkCredential rows handle groupId latest fits invalid next) := by
  unfold checkCredential
  cases hactive : activeCredential rows handle groupId latest with
  | none => exact hfail _
  | some row =>
    dsimp only
    split_ifs with hfits
    · exact hok row hactive hfits
    · exact hfail _

lemma authorizePublish_outcome (job : PublishJob) (hfail : ∀ e, P (Next.fail e))
    (hfirst : job.epoch = 1 → P (.goto (.publishing job none .insertState)))
    (hlater : ∀ latest, latestEpoch keys rows job.groupId = some latest → job.epoch = latest + 1 →
      P (.goto (.publishCredential job latest))) : P (authorizePublish d keys rows job) := by
  unfold authorizePublish
  cases hlatest : latestEpoch keys rows job.groupId with
  | none =>
    dsimp only
    split_ifs with hepoch
    · exact hfail _
    · cases job.members.find? (·.membershipHandleSha256 = job.handle) with
      | none => exact hfail _
      | some =>
        dsimp only
        split_ifs
        · exact hfail _
        · exact hfirst (of_not_not hepoch)
  | some latest =>
    dsimp only
    split_ifs with hepoch
    · exact hfail _
    · exact hlater latest hlatest (of_not_not hepoch)

end Outcomes

/-! ## Runs -/

/-- an epoch that was published: the handle and the key that authorised it, and the credential of the handle as it was
committed when the transaction ended -/
structure Publication where
  groupId : String
  epoch : ℕ
  handle : String
  publishKey : Bytes
  authorizing : Option CredentialRow

structure World (ι : Type) where
  tables : Tables ι
  handlers : ι → Phase
  replies : List Reply
  publications : List Publication

/-- an empty database, and no request -/
def World.start : World ι := ⟨Tables.empty, fun _ => .idle, [], []⟩

inductive Op (ι : Type) where
  | start (i : ι) (request : Request) (now : ℕ)
  /-- the next statement of a handler -/
  | advance (i : ι) (x : Draw)
  /-- the server or the connection fails -/
  | fail (i : ι)

/-- the checks at the start of a request -/
def Request.first (d : Deps) (now : ℕ) : Request → Next
  | .publishState r => Next.ofExcept (checkPublishState d r now) fun job => .goto (.publishLatest job)
  | .fetchState handle key => Next.ofExcept (checkFetchKey d handle key) fun c => .goto (.fetchCredential c.1 c.2)
  | .createInvite r => Next.ofExcept (checkCreateInvite d r) fun job => .goto (.invitePurge job)
  | .resolveInvite token => .goto (.resolvePurge token)
  | .consumeInvite token => .goto (.consumePurge token)
  | .publishMessage r => Next.ofExcept (checkPublishMessage d r) fun job => .goto (.messageLatest job)
  | .fetchMessages handle key since => Next.ofExcept (checkFetchMessages d handle key since) fun job =>
      .goto (.readCredential job)

/-- the phases in which a request begins -/
def Phase.isFirst : Phase → Bool
  | .publishLatest _ | .fetchCredential _ _ | .invitePurge _ | .resolvePurge _ | .consumePurge _ | .messageLatest _
  | .readCredential _ => true
  | _ => false

/-- a request is refused, or begins -/
lemma first_outcome {d : Deps} {P : Next → Prop} (request : Request) (now : ℕ) (hfail : ∀ e, P (Next.fail e))
    (hok : ∀ phase : Phase, phase.isFirst → P (.goto phase)) : P (request.first d now) := by
  cases request with
  | publishState | fetchState | createInvite | publishMessage | fetchMessages =>
    rw [Request.first]
    exact ofExcept_outcome hfail fun _ _ => hok _ rfl
  | resolveInvite token => exact hok (.resolvePurge token) rfl
  | consumeInvite token => exact hok (.consumePurge token) rfl

namespace World

variable (w : World ι) (i : ι)

def goto (phase : Phase) : World ι := { w with handlers := Function.update w.handlers i phase }

def answer (reply : Reply) : World ι := { w.goto i .idle with replies := w.replies ++ [reply] }

def follow : Next → World ι
  | .goto phase => w.goto i phase
  | .answer reply => w.answer i reply

def withTables (s : Tables ι) : World ι := { w with tables := s }

/-- a statement outside of a transaction commits at once -/
def settled (s : Tables ι) (atOnce : Bool) : Tables ι := if atOnce then s.commit i else s

def write (stmt : Stmt) (atOnce : Bool) (next : Next) (onConflict : AppError) : World ι :=
  match w.tables.exec i stmt with
  | .waits => w
  | .conflict => (w.withTables (w.tables.rollback i)).follow i (Next.fail onConflict)
  | .done s => (w.withTables (settled i s atOnce)).follow i next

/-- a statement waits, fails, or runs -/
lemma write_rule {Q : World ι → Prop} {stmt : Stmt} {atOnce : Bool} {next : Next} {onConflict : AppError} (hwait : Q w)
    (hconflict : Q ((w.withTables (w.tables.rollback i)).follow i (Next.fail onConflict)))
    (hdone : ∀ s, w.tables.exec i stmt = .done s → Q ((w.withTables (settled i s atOnce)).follow i next)) :
    Q (w.write i stmt atOnce next onConflict) := by
  unfold write
  cases hexec : w.tables.exec i stmt with
  | waits => exact hwait
  | conflict => exact hconflict
  | done s => exact hdone s hexec

def commit (job : PublishJob) : World ι :=
  { (w.withTables (w.tables.commit i)).answer i (.published job.groupId job.epoch job.members.length job.now) with
    publications := w.publications ++
      [⟨job.groupId, job.epoch, job.handle, job.publishKey, w.tables.committed (.credential job.handle)⟩] }

def take : Turn → World ι
  | .next next => w.follow i next
  | .write stmt atOnce next onConflict => w.write i stmt atOnce next onConflict
  | .commit job => w.commit i job

def isIdle : Bool :=
  match w.handlers i with
  | .idle => true
  | _ => false

/-- a process takes one request at a time -/
def accept (next : Next) : World ι := if w.isIdle i then w.follow i next else w

def step (d : Deps) (w : World ι) : Op ι → World ι
  | .start i request now => w.accept i (request.first d now)
  | .advance i x => w.take i ((w.handlers i).turn d w.tables.keys w.tables.committed x)
  | .fail i => (w.withTables (w.tables.rollback i)).goto i .idle

end World

end PqMsg.Server.PrivateGroups
