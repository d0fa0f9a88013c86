/-
The handlers of identities, devices and prekeys as processes over the database (`handlers/identity.rs`,
`handlers/prekeys.rs`, `handlers/util.rs`, `reap_stale_data` in `handlers/ephemeral.rs`, `validation.rs`).

A process is one request that is being handled. Its next step depends on what its transaction sees: a query, a statement, a
commit, or the answer. Processes interleave freely between statements; a statement that has to wait for another
transaction leaves everything as it is, and may be tried again. A process may stop at any time (the server crashes, a
statement fails), and what it has not committed is then rolled back. Statements outside of a transaction commit at once,
apart from the one that inserts the initial identity event: its id is taken when it starts and it is visible when it commits.

Requests are taken decoded and authenticated: the checks that come first (rate limits, proof of work, request signatures,
the minimal interval between uploads) can only turn requests away. What handlers only put into a response or a security
event is left out, and so are the tables that hold messages, tokens and profiles.

- `write_rule`, `start_rule`: everything that a statement of a handler and a new request can do.
-/
import PqMsg.Handshake.Pqxdh
import PqMsg.Lib.Run
import PqMsg.Lib.Sequence
import PqMsg.Server.Database
import PqMsg.Server.Validation

namespace PqMsg.Server

open Lib Handshake Function

/-! ## Checks -/

/-- signatures and the settings that the handlers read -/
structure Config (Secret : Type) where
  prims : HandshakePrims Secret
  /-- `VerifyingKey::from_bytes` accepts the key -/
  ed25519PublicKeyValid : SigPubKey → Bool
  prekeyBundleReserveCount : ℤ
  pqRatchetInterval : ℕ

variable {Secret : Type} (cfg : Config Secret)

def maxOneTimeKeys : ℕ := 256
def rotationChallengeTtlSeconds : ℕ := 10 * 60
def challengeRetentionSeconds : ℕ := 600

def rotateSigTagUserId : UInt16 := Tlv.criticalType 0x3101
def rotateSigTagChallengeId : UInt16 := Tlv.criticalType 0x3102
def rotateSigTagChallengeNonce : UInt16 := Tlv.criticalType 0x3103
def rotateSigTagNewIdentityX25519 : UInt16 := Tlv.criticalType 0x3104
def rotateSigTagNewIdentitySig : UInt16 := Tlv.criticalType 0x3105
def rotateSigTagNewDeviceId : UInt16 := Tlv.criticalType 0x3106
def rotateSigTagNewIdentityPqSig : UInt16 := Tlv.criticalType 0x3107

def validateEd25519PublicKey (identitySigPub : SigPubKey) : Except AppError Unit :=
  if cfg.ed25519PublicKeyValid identitySigPub then .ok ()
  else .error (.badRequest "identity_sig_pub is not a valid Ed25519 public key")

def verifyEd25519Signature (publicKey : SigPubKey) (signature : Ed25519Sig) (message : Bytes) (field : String) :
    Except AppError Unit := do
  validateEd25519PublicKey cfg publicKey
  if cfg.prims.ed25519Verify publicKey message signature then .ok ()
  else .error (.badRequest (field ++ " verification failed"))

def verifyMlDsaSignature (publicKey : PqSigPubKey) (signature : PqSig) (message : Bytes) (field : String) :
    Except AppError Unit :=
  (cfg.prims.mlDsaVerify publicKey.1 message signature.1).mapError fun _ => .badRequest (field ++ " verification failed")

def validateOneTimeCount (field : String) (count : ℕ) : Except AppError Unit :=
  if count > maxOneTimeKeys then .error (.badRequest (field ++ " cannot contain more than 256 items")) else .ok ()

def rotationSignatureMessage (userId challengeId : String) (challengeNonce : Bytes) (newIdentityX25519 : X25519Key)
    (newIdentitySig : SigPubKey) (newIdentityPqSig : PqSigPubKey) (newDeviceId : String) : Except AppError Bytes :=
  (Tlv.encode
    [⟨rotateSigTagUserId, utf8 userId⟩, ⟨rotateSigTagChallengeId, utf8 challengeId⟩,
      ⟨rotateSigTagChallengeNonce, challengeNonce⟩, ⟨rotateSigTagNewIdentityX25519, newIdentityX25519.1⟩,
      ⟨rotateSigTagNewIdentitySig, newIdentitySig.1⟩, ⟨rotateSigTagNewIdentityPqSig, newIdentityPqSig.1⟩,
      ⟨rotateSigTagNewDeviceId, utf8 newDeviceId⟩]).mapError
    fun _ => .internal "rotation signature transcript encoding failed"

def verifyHybridPrekeySignatures (identitySigPub : SigPubKey) (identityPqSigPub : PqSigPubKey)
    (signedPrekeyX25519Pub : X25519Key) (sigOverSpk : Ed25519Sig) (pqSignedPrekeyPubMlkem768 : Bytes)
    (sigOverPqspk : Ed25519Sig) (pqSigOverSpk pqSigOverPqspk : PqSig) : Except AppError Unit := do
  validateEd25519PublicKey cfg identitySigPub
  let spkMessage ← (signedPrekeySignatureMessage protocolVersionV1 signedPrekeyX25519Pub).mapError
    fun _ => .badRequest "failed to build SPK signature transcript"
  verifyEd25519Signature cfg identitySigPub sigOverSpk spkMessage "sig_over_spk"
  let pqMessage ← (pqSignedPrekeySignatureMessage protocolVersionV1 pqSignedPrekeyPubMlkem768).mapError
    fun _ => .badRequest "failed to build PQSPK signature transcript"
  verifyEd25519Signature cfg identitySigPub sigOverPqspk pqMessage "sig_over_pqspk"
  verifyMlDsaSignature cfg identityPqSigPub pqSigOverSpk spkMessage "pq_sig_over_spk"
  verifyMlDsaSignature cfg identityPqSigPub pqSigOverPqspk pqMessage "pq_sig_over_pqspk"

/-! ## Requests -/

/-- `now` is read from the clock when the handler starts -/
structure RegisterUserRequest where
  userId : String
  deviceId : String
  identityX25519Pub : X25519Key
  identitySigPub : SigPubKey
  identityPqSigPub : PqSigPubKey
  now : ℕ

/-- with the challenge that the handler draws and the time it reads -/
structure RotateInitRequest where
  userId : String
  newIdentityX25519Pub : X25519Key
  newIdentitySigPub : SigPubKey
  newIdentityPqSigPub : PqSigPubKey
  newDeviceId : String
  challengeId : String
  nonce : Bytes
  createdAt : ℕ

structure RotateConfirmRequest where
  userId : String
  challengeId : String
  sigByCurrentIdentity : Ed25519Sig
  sigByNewIdentity : Ed25519Sig
  pqSigByCurrentIdentity : PqSig
  pqSigByNewIdentity : PqSig
  now : ℕ
  rotatedAt : ℕ

/-- `publish_prekeys` of the authenticated device -/
structure PublishPrekeysRequest where
  userId : String
  deviceId : String
  signedPrekeyX25519Pub : X25519Key
  sigOverSpk : Ed25519Sig
  pqSignedPrekeyPubMlkem768 : Bytes
  sigOverPqspk : Ed25519Sig
  pqSigOverSpk : PqSig
  pqSigOverPqspk : PqSig
  oneTimePrekeysX25519 : List X25519Key
  oneTimePrekeysMlkem768 : List Bytes

structure LinkDeviceRequest where
  userId : String
  newDeviceId : String
  now : ℕ

/-- `revoke_device` of another device, or `retire_current_device` -/
structure RetireRequest where
  userId : String
  deviceId : String
  revoke : Bool

/-- `load_bundle_response` -/
structure BundleRequest where
  userId : String
  deviceId : Option String

inductive Request where
  | register (r : RegisterUserRequest)
  | rotateInit (r : RotateInitRequest)
  | rotateConfirm (r : RotateConfirmRequest)
  | deleteAccount (userId : String)
  | resetDevUserIdentity (userId : String)
  | publishPrekeys (r : PublishPrekeysRequest)
  | linkDevice (r : LinkDeviceRequest)
  | retireDevice (r : RetireRequest)
  | bundle (r : BundleRequest)
  | reapStaleData (now : ℕ)

/-! ## Answers -/

/-- what the query of `load_bundle_response` returns and its checks let through -/
structure BundleKeys where
  userId : String
  deviceId : String
  identityX25519Pub : X25519Key
  identitySigPub : SigPubKey
  identityPqSigPub : PqSigPubKey
  signedPrekeyX25519Pub : X25519Key
  sigOverSpk : Ed25519Sig
  pqSignedPrekeyPubMlkem768 : Bytes
  sigOverPqspk : Ed25519Sig
  pqSigOverSpk : PqSig
  pqSigOverPqspk : PqSig
  identityKeyVersion : ℕ
deriving DecidableEq

/-- a one-time prekey with the id of its row -/
structure OneTimeKey where
  id : ℕ
  prekey : Bytes
deriving DecidableEq

/-- the response has the keys without their row ids -/
structure BundleResponse where
  keys : BundleKeys
  oneTimePrekeyX25519 : Option OneTimeKey
  oneTimePrekeyMlkem768 : Option OneTimeKey
  remainingOneTimePrekeysX25519 : ℕ
  remainingOneTimePrekeysMlkem768 : ℕ
deriving DecidableEq

inductive Reply where
  | registered (userId deviceId : String) (registeredAt : ℕ)
  | rotationInitiated (userId challengeId : String) (nonce : Bytes)
  /-- the request and the challenge it confirmed, the new version and the id of its event -/
  | rotationConfirmed (r : RotateConfirmRequest) (challenge : ChallengeRow) (version eventId : ℕ)
  | accountDeleted (userId : String)
  | prekeysPublished (userId deviceId : String)
  | deviceLinked (userId deviceId : String)
  | deviceRetired (userId deviceId : String)
  | bundle (response : BundleResponse)
  | reaped
  | failed (error : AppError)

/-! ## Processes -/

/-- the identity keys that a handler has read for checking signatures -/
structure SigKeys where
  identitySigPub : SigPubKey
  identityPqSigPub : PqSigPubKey
deriving DecidableEq

inductive RegisterPhase where
  | insertUser
  | selectExisting
  | upgradePq (createdAt : ℕ)
  | relinkDevice (createdAt : ℕ)
  | relinked (createdAt : ℕ)
  | insertDevice
  | takeEventId
  | insertEvent (id : ℕ)
  | commitEvent

inductive RotateInitPhase where
  | selectUser
  | insertChallenge
  | done

inductive RotateConfirmPhase where
  | selectChallenge
  | selectUser (challenge : ChallengeRow) (newPq : PqSigPubKey)
  | consume (challenge : ChallengeRow) (newPq : PqSigPubKey) (current : SigKeys)
  | updateUser (challenge : ChallengeRow) (newPq : PqSigPubKey) (current : SigKeys)
  -- the transaction holds the user's row from here on
  | retireDevices (challenge : ChallengeRow) (newPq : PqSigPubKey) (current : SigKeys)
  | insertDevice (challenge : ChallengeRow) (newPq : PqSigPubKey) (current : SigKeys)
  | deletePrekeys (challenge : ChallengeRow) (newPq : PqSigPubKey) (current : SigKeys)
  | deleteOneTime (table : OneTimeTable) (challenge : ChallengeRow) (newPq : PqSigPubKey) (current : SigKeys)
  | selectVersion (challenge : ChallengeRow) (newPq : PqSigPubKey) (current : SigKeys)
  | takeEventId (challenge : ChallengeRow) (newPq : PqSigPubKey) (current : SigKeys) (version : ℕ)
  | insertEvent (challenge : ChallengeRow) (newPq : PqSigPubKey) (current : SigKeys) (version id : ℕ)
  | commit (challenge : ChallengeRow) (newPq : PqSigPubKey) (current : SigKeys) (version id : ℕ)

inductive DeletePhase where
  | ensureUser
  | deleteUser
  | commit

inductive PublishPhase where
  | selectUser
  | upsertPrekeys (current : SigKeys)
  | deleteOneTime (current : SigKeys) (table : OneTimeTable)
  | insertOneTime (current : SigKeys) (x : List X25519Key) (pq : List Bytes)
  | insertTaken (current : SigKeys) (x : List X25519Key) (pq : List Bytes) (id : ℕ)
  | commit (current : SigKeys)

inductive LinkPhase where
  | ensureUser
  | insertDevice
  | done

inductive RetirePhase where
  | ensureUser
  | selectTarget
  | retireRow
  | selectRemaining
  | touchUser (replacement : Option String)
  | movePrimary (replacement : String)
  | deletePrekeys
  | deleteOneTime (table : OneTimeTable)
  | commit

inductive BundlePhase where
  | load
  | countX (keys : BundleKeys)
  | countPq (keys : BundleKeys) (remainingX : ℕ)
  | selectX (keys : BundleKeys)
  | markX (keys : BundleKeys) (x : OneTimeKey)
  | selectPq (keys : BundleKeys) (x : Option OneTimeKey)
  | markPq (keys : BundleKeys) (x : Option OneTimeKey) (pq : OneTimeKey)
  | remainingX (keys : BundleKeys) (x pq : Option OneTimeKey)
  | remainingPq (keys : BundleKeys) (x pq : Option OneTimeKey) (remainingX : ℕ)
  | commit (response : BundleResponse)

/-- what a fetch has loaded -/
def BundlePhase.keys : BundlePhase → Option BundleKeys
  | .load => none
  | .countX keys | .countPq keys _ | .selectX keys | .markX keys _ | .selectPq keys _ | .markPq keys _ _
  | .remainingX keys _ _ | .remainingPq keys _ _ _ => some keys
  | .commit response => some response.keys

inductive ReapPhase where
  | oneTime (table : OneTimeTable)
  | challenges
  | done

inductive Proc where
  | idle
  | register (r : RegisterUserRequest) (phase : RegisterPhase)
  | rotateInit (r : RotateInitRequest) (phase : RotateInitPhase)
  | rotateConfirm (r : RotateConfirmRequest) (phase : RotateConfirmPhase)
  | deleteAccount (userId : String) (phase : DeletePhase)
  | publishPrekeys (r : PublishPrekeysRequest) (phase : PublishPhase)
  | linkDevice (r : LinkDeviceRequest) (phase : LinkPhase)
  | retireDevice (r : RetireRequest) (phase : RetirePhase)
  | bundle (r : BundleRequest) (phase : BundlePhase)
  | reapStaleData (now : ℕ) (phase : ReapPhase)

def Proc.isIdle : Proc → Bool
  | .idle => true
  | _ => false

lemma isIdle_iff {p : Proc} : p.isIdle = true ↔ p = .idle := by
  cases p <;> simp [Proc.isIdle]

inductive Sequence where
  | events
  | oneTime (table : OneTimeTable)
deriving DecidableEq

/-- what a process does next -/
inductive Turn where
  | read (next : Proc)
  /-- `nextval` of the sequence -/
  | take (sequence : Sequence) (next : ℕ → Proc)
  /-- a statement, which commits at once outside of a transaction; `onUnique` if the handler looks at unique violations -/
  | write (stmt : Stmt) (atOnce : Bool) (next : Proc) (onUnique : Option Proc)
  | commit (reply : Reply)
  /-- the handler returns, and a transaction that is open is rolled back -/
  | stop (reply : Reply)

def Turn.fail (error : AppError) : Turn := .stop (.failed error)

/-- go on if a check passes -/
def Turn.check (result : Except AppError Unit) (next : Proc) : Turn :=
  match result with
  | .ok () => .read next
  | .error error => .fail error

/-! ## Queries -/

/-- what a query can see, and how far the sequences have come -/
structure Snapshot where
  view : RowView
  keys : List Key
  nextEvent : ℕ
  nextOneTime : OneTimeTable → ℕ

namespace Snapshot

variable (s : Snapshot)

/-- `SELECT … FROM identity_events ORDER BY id ASC` -/
def events : List (ℕ × EventRow) := inOrder s.nextEvent fun id => s.view (.event id)

/-- `COALESCE(MAX(version), 0)` -/
def maxVersion (userId : String) : ℕ :=
  ((s.events.filter fun e => e.2.userId = userId).map fun e => e.2.version).foldr max 0

variable (table : OneTimeTable) (userId deviceId : String)

/-- `WHERE user_id = $1 AND device_id = $2 AND consumed = 0 ORDER BY id ASC` -/
def available : List (ℕ × OneTimeRow) :=
  inOrder (s.nextOneTime table) fun id => (s.view (.oneTime table id)).filter fun row =>
    row.userId = userId ∧ row.deviceId = deviceId ∧ row.consumed = false

/-- `count_available_one_time_keys` -/
def countAvailable : ℕ := (s.available table userId deviceId).length

/-- the query of `select_one_time_key` -/
def firstAvailable : Option OneTimeKey :=
  (s.available table userId deviceId).head?.map fun e => ⟨e.1, e.2.prekey⟩

/-- `WHERE user_id = $1 AND active = 1 ORDER BY linked_at ASC, device_id ASC` -/
def activeDevices (userId : String) : List String :=
  let devices := s.keys.filterMap fun k =>
    match k with
    | .device u d => if u = userId then ((s.view (.device u d)).filter (·.active)).map fun row => (row.linkedAt, d) else none
    | _ => none
  (devices.insertionSort fun a b => a.1 < b.1 ∨ a.1 = b.1 ∧ a.2 ≤ b.2).map Prod.snd

/-- the join of `load_bundle_response`, for the device that is asked for or the first one that has prekeys -/
def bundleRow (r : BundleRequest) : Option (String × UserRow × PrekeyRow) := do
  let user ← s.view (.user r.userId)
  let devices := (s.activeDevices r.userId).filter fun d =>
    (s.view (.prekey r.userId d)).isSome && r.deviceId.all (· = d)
  let deviceId ← devices.head?
  let prekeys ← s.view (.prekey r.userId deviceId)
  return (deviceId, user, prekeys)

end Snapshot

/-! ## Handlers -/

def RegisterUserRequest.row (r : RegisterUserRequest) : UserRow :=
  ⟨r.identityX25519Pub, r.identitySigPub, some r.identityPqSigPub, r.deviceId, r.now⟩

def RegisterUserRequest.event (r : RegisterUserRequest) : EventRow :=
  ⟨r.userId, 1, r.identityX25519Pub, r.identitySigPub, some r.identityPqSigPub, r.deviceId, .initial, r.now⟩

/-- the stored identity is not the one of the request -/
def RegisterUserRequest.differs (r : RegisterUserRequest) (existing : UserRow) : Bool :=
  existing.identityX25519Pub ≠ r.identityX25519Pub ∨ existing.identitySigPub ≠ r.identitySigPub ∨
    existing.deviceId ≠ r.deviceId ∨ existing.identityPqSigPub.any (· ≠ r.identityPqSigPub)

/-- `register_user` -/
def registerUser (s : Snapshot) (r : RegisterUserRequest) : RegisterPhase → Turn
  | .insertUser =>
    .write (.insertUser r.userId r.row) true (.register r .insertDevice) (some (.register r .selectExisting))
  | .selectExisting =>
    match s.view (.user r.userId) with
    | none => .fail (.internal "unique constraint raced with missing user row")
    | some existing =>
      if r.differs existing then .fail (.conflict "user_id is already registered with an immutable identity")
      else if existing.identityPqSigPub.isNone then .read (.register r (.upgradePq existing.createdAt))
      else .read (.register r (.relinkDevice existing.createdAt))
  | .upgradePq createdAt =>
    .write (.upgradePq r.userId r.identityPqSigPub) true (.register r (.relinkDevice createdAt)) none
  | .relinkDevice createdAt =>
    .write (.upsertDevice r.userId r.deviceId createdAt false) true (.register r (.relinked createdAt)) none
  | .relinked createdAt => .stop (.registered r.userId r.deviceId createdAt)
  | .insertDevice => .write (.upsertDevice r.userId r.deviceId r.now false) true (.register r .takeEventId) none
  | .takeEventId => .take .events fun id => .register r (.insertEvent id)
  | .insertEvent id => .write (.insertEvent id r.event true) false (.register r .commitEvent) none
  | .commitEvent => .commit (.registered r.userId r.deviceId r.now)

def RotateInitRequest.challenge (r : RotateInitRequest) : ChallengeRow :=
  ⟨r.userId, r.nonce, r.newIdentityX25519Pub, r.newIdentitySigPub, some r.newIdentityPqSigPub, r.newDeviceId, r.createdAt,
    r.createdAt + rotationChallengeTtlSeconds, false⟩

/-- `rotate_init` -/
def rotateInit (s : Snapshot) (r : RotateInitRequest) : RotateInitPhase → Turn
  | .selectUser =>
    match s.view (.user r.userId) with
    | none => .fail (.notFound "user not found")
    | some user =>
      if user.identityPqSigPub.isNone then
        .fail (.conflict "rotation requires an existing PQ identity key; re-register first")
      else if user.identityX25519Pub = r.newIdentityX25519Pub ∧ user.identitySigPub = r.newIdentitySigPub ∧
          user.identityPqSigPub = some r.newIdentityPqSigPub ∧ user.deviceId = r.newDeviceId then
        .fail (.badRequest "rotation request matches current identity material")
      else .read (.rotateInit r .insertChallenge)
  | .insertChallenge => .write (.insertChallenge r.challengeId r.challenge) true (.rotateInit r .done) none
  | .done => .stop (.rotationInitiated r.userId r.challengeId r.nonce)

/-- the signature checks of `rotate_confirm` -/
def verifyRotation (r : RotateConfirmRequest) (challenge : ChallengeRow) (newPq : PqSigPubKey) (current : SigKeys) :
    Except AppError Unit := do
  let message ← rotationSignatureMessage r.userId r.challengeId challenge.nonce challenge.newIdentityX25519Pub
    challenge.newIdentitySigPub newPq challenge.newDeviceId
  verifyEd25519Signature cfg current.identitySigPub r.sigByCurrentIdentity message "sig_by_current_identity"
  verifyEd25519Signature cfg challenge.newIdentitySigPub r.sigByNewIdentity message "sig_by_new_identity"
  verifyMlDsaSignature cfg current.identityPqSigPub r.pqSigByCurrentIdentity message "pq_sig_by_current_identity"
  verifyMlDsaSignature cfg newPq r.pqSigByNewIdentity message "pq_sig_by_new_identity"

/-- the event of a confirmed rotation -/
def rotationEvent (r : RotateConfirmRequest) (challenge : ChallengeRow) (newPq : PqSigPubKey) (version : ℕ) : EventRow :=
  ⟨r.userId, version, challenge.newIdentityX25519Pub, challenge.newIdentitySigPub, some newPq, challenge.newDeviceId,
    .rotation, r.rotatedAt⟩

/-- `rotate_confirm` -/
def rotateConfirm (s : Snapshot) (r : RotateConfirmRequest) : RotateConfirmPhase → Turn
  | .selectChallenge =>
    match (s.view (.challenge r.challengeId)).filter fun c => c.userId = r.userId ∧ c.consumed = false with
    | none => .fail (.notFound "rotation challenge not found")
    | some challenge =>
      if challenge.expiresAt < r.now then .fail (.badRequest "rotation challenge expired")
      else
        match challenge.newIdentityPqSigPub with
        | none => .fail (.conflict "rotation challenge missing PQ identity key; restart rotation")
        | some newPq => .read (.rotateConfirm r (.selectUser challenge newPq))
  | .selectUser challenge newPq =>
    match s.view (.user r.userId) with
    | none => .fail (.notFound "user not found")
    | some user =>
      match user.identityPqSigPub with
      | none => .fail (.conflict "current identity is missing PQ key material; re-register first")
      | some currentPq =>
        .check (verifyRotation cfg r challenge newPq ⟨user.identitySigPub, currentPq⟩)
          (.rotateConfirm r (.consume challenge newPq ⟨user.identitySigPub, currentPq⟩))
  | .consume challenge newPq current =>
    -- `rows_affected() != 1`
    match (s.view (.challenge r.challengeId)).filter fun c => c.userId = r.userId ∧ c.consumed = false with
    | none => .fail (.conflict "rotation challenge already consumed")
    | some _ =>
      .write (.consumeChallenge r.challengeId r.userId) false (.rotateConfirm r (.updateUser challenge newPq current)) none
  | .updateUser challenge newPq current =>
    .write (.rotateUser r.userId challenge.newIdentityX25519Pub challenge.newIdentitySigPub newPq challenge.newDeviceId)
      false (.rotateConfirm r (.retireDevices challenge newPq current)) none
  | .retireDevices challenge newPq current =>
    .write (.retireDevices r.userId) false (.rotateConfirm r (.insertDevice challenge newPq current)) none
  | .insertDevice challenge newPq current =>
    .write (.upsertDevice r.userId challenge.newDeviceId r.rotatedAt true) false
      (.rotateConfirm r (.deletePrekeys challenge newPq current)) none
  | .deletePrekeys challenge newPq current =>
    .write (.deletePrekeys r.userId (.except challenge.newDeviceId)) false
      (.rotateConfirm r (.deleteOneTime .x25519 challenge newPq current)) none
  | .deleteOneTime table challenge newPq current =>
    .write (.deleteOneTime table r.userId (.except challenge.newDeviceId)) false
      (match table with
        | .x25519 => .rotateConfirm r (.deleteOneTime .mlkem768 challenge newPq current)
        | .mlkem768 => .rotateConfirm r (.selectVersion challenge newPq current)) none
  | .selectVersion challenge newPq current =>
    if s.maxVersion r.userId + 1 < 2 ^ 32 then
      .read (.rotateConfirm r (.takeEventId challenge newPq current (s.maxVersion r.userId + 1)))
    else .fail (.internal "identity version overflow")
  | .takeEventId challenge newPq current version =>
    .take .events fun id => .rotateConfirm r (.insertEvent challenge newPq current version id)
  | .insertEvent challenge newPq current version id =>
    .write (.insertEvent id (rotationEvent r challenge newPq version) false) false
      (.rotateConfirm r (.commit challenge newPq current version id)) none
  | .commit challenge _ _ version id => .commit (.rotationConfirmed r challenge version id)

/-- `ensure_user_exists` -/
def ensureUserExists (s : Snapshot) (userId : String) (next : Proc) : Turn :=
  match s.view (.user userId) with
  | none => .fail (.notFound ("user '" ++ userId ++ "' not found"))
  | some _ => .read next

/-- `delete_account`, and `reset_dev_user_identity` from its second statement on -/
def deleteAccount (s : Snapshot) (userId : String) : DeletePhase → Turn
  | .ensureUser => ensureUserExists s userId (.deleteAccount userId .deleteUser)
  | .deleteUser => .write (.deleteUser userId) false (.deleteAccount userId .commit) none
  | .commit => .commit (.accountDeleted userId)

variable (r : PublishPrekeysRequest)

def PublishPrekeysRequest.row : PrekeyRow :=
  ⟨r.signedPrekeyX25519Pub, r.sigOverSpk, r.pqSignedPrekeyPubMlkem768, r.sigOverPqspk, some r.pqSigOverSpk,
    some r.pqSigOverPqspk⟩

def verifyPublished (current : SigKeys) : Except AppError Unit :=
  verifyHybridPrekeySignatures cfg current.identitySigPub current.identityPqSigPub r.signedPrekeyX25519Pub r.sigOverSpk
    r.pqSignedPrekeyPubMlkem768 r.sigOverPqspk r.pqSigOverSpk r.pqSigOverPqspk

/-- the checks of `publish_prekeys` before it looks at the user -/
def PublishPrekeysRequest.validate : Except AppError Unit := do
  validateOneTimeCount "one_time_prekeys_x25519" r.oneTimePrekeysX25519.length
  validateOneTimeCount "one_time_prekeys_mlkem768" r.oneTimePrekeysMlkem768.length
  if cfg.pqRatchetInterval > 0 ∧ r.oneTimePrekeysMlkem768 = [] then
    .error (.badRequest "PQ one-time prekeys required when pq_ratchet_interval > 0")
  else .ok ()

/-- `publish_prekeys` -/
def publishPrekeys (s : Snapshot) (r : PublishPrekeysRequest) : PublishPhase → Turn
  | .selectUser =>
    match s.view (.user r.userId) with
    | none => .fail (.notFound "user not found")
    | some user =>
      match user.identityPqSigPub with
      | none => .fail (.conflict "user must re-register with a PQ identity key before publishing prekeys")
      | some currentPq =>
        .check (verifyPublished cfg r ⟨user.identitySigPub, currentPq⟩)
          (.publishPrekeys r (.upsertPrekeys ⟨user.identitySigPub, currentPq⟩))
  | .upsertPrekeys current =>
    .write (.upsertPrekeys r.userId r.deviceId r.row) false (.publishPrekeys r (.deleteOneTime current .x25519)) none
  | .deleteOneTime current table =>
    .write (.deleteOneTime table r.userId (.only r.deviceId)) false
      (match table with
        | .x25519 => .publishPrekeys r (.deleteOneTime current .mlkem768)
        | .mlkem768 => .publishPrekeys r (.insertOneTime current r.oneTimePrekeysX25519 r.oneTimePrekeysMlkem768)) none
  | .insertOneTime current [] [] => .read (.publishPrekeys r (.commit current))
  | .insertOneTime current [] (key :: pq) =>
    .take (.oneTime .mlkem768) fun id => .publishPrekeys r (.insertTaken current [] (key :: pq) id)
  | .insertOneTime current (key :: x) pq =>
    .take (.oneTime .x25519) fun id => .publishPrekeys r (.insertTaken current (key :: x) pq id)
  | .insertTaken current [] [] _ => .read (.publishPrekeys r (.commit current))
  | .insertTaken current [] (key :: pq) id =>
    .write (.insertOneTime .mlkem768 id ⟨r.userId, r.deviceId, key, false⟩) false
      (.publishPrekeys r (.insertOneTime current [] pq)) none
  | .insertTaken current (key :: x) pq id =>
    .write (.insertOneTime .x25519 id ⟨r.userId, r.deviceId, key.1, false⟩) false
      (.publishPrekeys r (.insertOneTime current x pq)) none
  | .commit _ => .commit (.prekeysPublished r.userId r.deviceId)

/-- `link_device` -/
def linkDevice (s : Snapshot) (r : LinkDeviceRequest) : LinkPhase → Turn
  | .ensureUser => ensureUserExists s r.userId (.linkDevice r .insertDevice)
  | .insertDevice => .write (.upsertDevice r.userId r.newDeviceId r.now false) true (.linkDevice r .done) none
  | .done => .stop (.deviceLinked r.userId r.newDeviceId)

/-- `revoke_device` and `retire_current_device`, with `update_user_primary_device_after_retire` and
`cleanup_retired_device_state` -/
def retireDevice (s : Snapshot) (r : RetireRequest) : RetirePhase → Turn
  | .ensureUser => ensureUserExists s r.userId (.retireDevice r (if r.revoke then .selectTarget else .retireRow))
  | .selectTarget =>
    match s.view (.device r.userId r.deviceId) with
    | none => .fail (.notFound "target device not found")
    | some target =>
      if target.active then .read (.retireDevice r .retireRow)
      else .fail (.conflict "target device is already revoked")
  | .retireRow =>
    -- `rows_affected() != 1`
    match (s.view (.device r.userId r.deviceId)).filter (·.active) with
    | none => .fail (.conflict (if r.revoke then "target device is already revoked" else "current device is already revoked"))
    | some _ => .write (.retireDevice r.userId r.deviceId) false (.retireDevice r .selectRemaining) none
  | .selectRemaining => .read (.retireDevice r (.touchUser (s.activeDevices r.userId).head?))
  | .touchUser replacement =>
    .write (.touchUser r.userId) false
      (match replacement with
        | some deviceId => .retireDevice r (.movePrimary deviceId)
        | none => .retireDevice r .deletePrekeys) none
  | .movePrimary replacement =>
    .write (.movePrimary r.userId replacement r.deviceId) false (.retireDevice r .deletePrekeys) none
  | .deletePrekeys =>
    .write (.deletePrekeys r.userId (.only r.deviceId)) false (.retireDevice r (.deleteOneTime .x25519)) none
  | .deleteOneTime table =>
    .write (.deleteOneTime table r.userId (.only r.deviceId)) false
      (match table with
        | .x25519 => .retireDevice r (.deleteOneTime .mlkem768)
        | .mlkem768 => .retireDevice r .commit) none
  | .commit => .commit (.deviceRetired r.userId r.deviceId)

/-- the mandatory columns of the query of `load_bundle_response` -/
def loadBundleKeys (s : Snapshot) (r : BundleRequest) : Except AppError BundleKeys :=
  match s.bundleRow r with
  | none => .error (.notFound "bundle not found")
  | some (deviceId, user, prekeys) =>
    match user.identityPqSigPub, prekeys.pqSigOverSpk, prekeys.pqSigOverPqspk with
    | none, _, _ => .error (.conflict "bundle missing mandatory PQ identity key; user must re-register")
    | some _, none, _ =>
      .error (.conflict "bundle missing mandatory PQ signature over signed prekey; user must republish prekeys")
    | some _, some _, none =>
      .error (.conflict "bundle missing mandatory PQ signature over PQ signed prekey; user must republish prekeys")
    | some identityPq, some pqSigOverSpk, some pqSigOverPqspk =>
      .ok ⟨r.userId, deviceId, user.identityX25519Pub, user.identitySigPub, identityPq, prekeys.signedPrekeyX25519Pub,
        prekeys.sigOverSpk, prekeys.pqSignedPrekeyPubMlkem768, prekeys.sigOverPqspk, pqSigOverSpk, pqSigOverPqspk,
        max (s.maxVersion r.userId) 1⟩

/-- `load_bundle_response` -/
def loadBundleResponse (s : Snapshot) (r : BundleRequest) : BundlePhase → Turn
  | .load =>
    match loadBundleKeys s r with
    | .error error => .fail error
    | .ok keys => .read (.bundle r (.countX keys))
  | .countX keys => .read (.bundle r (.countPq keys (s.countAvailable .x25519 r.userId keys.deviceId)))
  | .countPq keys remainingX =>
    let reserveCount := cfg.prekeyBundleReserveCount.toNat
    if remainingX > reserveCount ∧ s.countAvailable .mlkem768 r.userId keys.deviceId > reserveCount then
      .read (.bundle r (.selectX keys))
    else .read (.bundle r (.remainingX keys none none))
  | .selectX keys =>
    match s.firstAvailable .x25519 r.userId keys.deviceId with
    | some x => .read (.bundle r (.markX keys x))
    | none => .read (.bundle r (.selectPq keys none))
  | .markX keys x => .write (.markConsumed .x25519 x.id) false (.bundle r (.selectPq keys (some x))) none
  | .selectPq keys x =>
    match s.firstAvailable .mlkem768 r.userId keys.deviceId with
    | some pq => .read (.bundle r (.markPq keys x pq))
    | none => .read (.bundle r (.remainingX keys x none))
  | .markPq keys x pq => .write (.markConsumed .mlkem768 pq.id) false (.bundle r (.remainingX keys x (some pq))) none
  | .remainingX keys x pq =>
    .read (.bundle r (.remainingPq keys x pq (s.countAvailable .x25519 r.userId keys.deviceId)))
  | .remainingPq keys x pq remainingX =>
    .read (.bundle r (.commit ⟨keys, x, pq, remainingX, s.countAvailable .mlkem768 r.userId keys.deviceId⟩))
  | .commit response => .commit (.bundle response)

/-- the statements of `reap_stale_data` on these tables -/
def reapStaleData (now : ℕ) : ReapPhase → Turn
  | .oneTime table =>
    .write (.reapOneTime table) true
      (match table with
        | .x25519 => .reapStaleData now (.oneTime .mlkem768)
        | .mlkem768 => .reapStaleData now .challenges) none
  | .challenges => .write (.reapChallenges (now - challengeRetentionSeconds)) true (.reapStaleData now .done) none
  | .done => .stop .reaped

/-- the checks that a handler makes before its first statement -/
def Request.start : Request → Except AppError Proc
  | .register r => do
    validateEd25519PublicKey cfg r.identitySigPub
    .ok (.register r .insertUser)
  | .rotateInit r => do
    validateEd25519PublicKey cfg r.newIdentitySigPub
    .ok (.rotateInit r .selectUser)
  | .rotateConfirm r => .ok (.rotateConfirm r .selectChallenge)
  | .deleteAccount userId => .ok (.deleteAccount userId .ensureUser)
  | .resetDevUserIdentity userId => .ok (.deleteAccount userId .deleteUser)
  | .publishPrekeys r => do
    r.validate cfg
    .ok (.publishPrekeys r .selectUser)
  | .linkDevice r => .ok (.linkDevice r .ensureUser)
  | .retireDevice r => .ok (.retireDevice r .ensureUser)
  | .bundle r => .ok (.bundle r .load)
  | .reapStaleData now => .ok (.reapStaleData now (.oneTime .x25519))

def Proc.turn (s : Snapshot) : Proc → Turn
  | .idle => .read .idle
  | .register r phase => registerUser s r phase
  | .rotateInit r phase => Server.rotateInit s r phase
  | .rotateConfirm r phase => Server.rotateConfirm cfg s r phase
  | .deleteAccount userId phase => Server.deleteAccount s userId phase
  | .publishPrekeys r phase => Server.publishPrekeys cfg s r phase
  | .linkDevice r phase => Server.linkDevice s r phase
  | .retireDevice r phase => Server.retireDevice s r phase
  | .bundle r phase => loadBundleResponse cfg s r phase
  | .reapStaleData now phase => Server.reapStaleData now phase

/-! ## The server -/

structure World (ι : Type) where
  tables : Tables ι
  procs : ι → Proc
  nextEvent : ℕ
  nextOneTime : OneTimeTable → ℕ
  /-- the answers so far -/
  replies : List Reply

inductive Op (ι : Type) where
  | start (i : ι) (request : Request)
  | advance (i : ι)
  /-- the handler stops: its connection is lost, or a statement fails -/
  | fail (i : ι)

namespace World

variable {ι : Type} [DecidableEq ι]

def snapshot (w : World ι) (i : ι) : Snapshot := ⟨w.tables.view i, w.tables.keys, w.nextEvent, w.nextOneTime⟩

def goto (w : World ι) (i : ι) (next : Proc) : World ι := { w with procs := Function.update w.procs i next }

def stop (w : World ι) (i : ι) (reply : Reply) : World ι :=
  { w with
    tables := w.tables.rollback i
    procs := Function.update w.procs i .idle
    replies := w.replies ++ [reply] }

def commit (w : World ι) (i : ι) (reply : Reply) : World ι :=
  { w with
    tables := w.tables.commit i
    procs := Function.update w.procs i .idle
    replies := w.replies ++ [reply] }

def sequence (w : World ι) : Sequence → ℕ
  | .events => w.nextEvent
  | .oneTime table => w.nextOneTime table

/-- `nextval` -/
def take (w : World ι) : Sequence → World ι
  | .events => { w with nextEvent := w.nextEvent + 1 }
  | .oneTime table => { w with nextOneTime := Function.update w.nextOneTime table (w.nextOneTime table + 1) }

def write (w : World ι) (i : ι) (stmt : Stmt) (atOnce : Bool) (next : Proc) (onUnique : Option Proc) : World ι :=
  match w.tables.exec i stmt with
  | .waits => w
  | .uniqueViolation =>
    match onUnique with
    | some proc => w.goto i proc
    | none => w.stop i (.failed .database)
  | .foreignKeyViolation => w.stop i (.failed .database)
  | .done tables => { w with tables := tables.settle i atOnce }.goto i next

def turn (w : World ι) (i : ι) : Turn := (w.procs i).turn cfg (w.snapshot i)

def advance (w : World ι) (i : ι) : World ι :=
  match w.turn cfg i with
  | .read next => w.goto i next
  | .take sequence next => (w.take sequence).goto i (next (w.sequence sequence))
  | .write stmt atOnce next onUnique => w.write i stmt atOnce next onUnique
  | .commit reply => w.commit i reply
  | .stop reply => w.stop i reply

def step (w : World ι) : Op ι → World ι
  | .start i request =>
    match w.procs i with
    | .idle =>
      match request.start cfg with
      | .ok next => w.goto i next
      | .error error => { w with replies := w.replies ++ [.failed error] }
    | _ => w
  | .advance i => w.advance cfg i
  | .fail i => { w with tables := w.tables.rollback i, procs := Function.update w.procs i .idle }

/-! ## What a step can do -/

variable {cfg} {w : World ι} {i : ι} {next : Proc} {Q : World ι → Prop} {sequence : Sequence} {reply : Reply}

@[simp] lemma goto_self : (w.goto i next).procs i = next := update_self ..
lemma goto_ne {j : ι} (h : j ≠ i) : (w.goto i next).procs j = w.procs j := update_of_ne h ..
@[simp] lemma commit_self : (w.commit i reply).procs i = .idle := update_self ..
lemma commit_ne {j : ι} (h : j ≠ i) : (w.commit i reply).procs j = w.procs j := update_of_ne h ..
@[simp] lemma goto_tables : (w.goto i next).tables = w.tables := rfl
@[simp] lemma goto_nextOneTime : (w.goto i next).nextOneTime = w.nextOneTime := rfl
omit [DecidableEq ι] in
@[simp] lemma take_tables : (w.take sequence).tables = w.tables := by cases sequence <;> rfl
omit [DecidableEq ι] in
@[simp] lemma take_procs : (w.take sequence).procs = w.procs := by cases sequence <;> rfl

/-- **A statement** waits, the handler goes on after a unique violation, it fails, or it runs -/
lemma write_rule {stmt : Stmt} {atOnce : Bool} {onUnique : Option Proc} (hwait : Q w)
    (hunique : ∀ proc ∈ onUnique, Q (w.goto i proc)) (hfail : Q (w.stop i (.failed .database)))
    (hdone : ∀ tables, w.tables.exec i stmt = .done tables → Q ({ w with tables := tables.settle i atOnce }.goto i next)) :
    Q (w.write i stmt atOnce next onUnique) := by
  unfold write
  cases hexec : w.tables.exec i stmt with
  | waits => exact hwait
  | uniqueViolation =>
    cases onUnique with
    | none => exact hfail
    | some proc => exact hunique proc rfl
  | foreignKeyViolation => exact hfail
  | done tables => exact hdone tables hexec

lemma advance_idle (h : w.procs i = .idle) : w.advance cfg i = w := by
  simp only [advance, turn, h, Proc.turn, goto]
  rw [← h, update_eq_self]

/-- **A new request**: its process is busy, its handler starts, or the request is turned away -/
lemma start_rule {request : Request} (hbusy : Q w)
    (hgo : ∀ next, w.procs i = .idle → request.start cfg = .ok next → Q (w.goto i next))
    (hrefuse : ∀ error, w.procs i = .idle → request.start cfg = .error error →
      Q { w with replies := w.replies ++ [.failed error] }) : Q (w.step cfg (.start i request)) := by
  simp only [step]
  cases hp : w.procs i
  case idle =>
    cases hstart : request.start cfg with
    | ok next => exact hgo next hp hstart
    | error error => exact hrefuse error hp hstart
  all_goals exact hbusy

end World

/-! ## A sample instance -/

/-- a new server -/
def World.empty {ι : Type} : World ι := ⟨Tables.empty, fun _ => .idle, 1, fun _ => 1, []⟩

namespace Sample

/-- a signature is accepted if it begins with the same byte as the key -/
def config : Config UInt32 where
  prims := { Handshake.Sample.handshakePrims with
    ed25519Verify := fun publicKey _ signature => publicKey.1.head? = signature.1.head?
    mlDsaVerify := fun publicKey _ signature =>
      if publicKey.head? = signature.head? then .ok () else .error .signatureVerificationFailed }
  ed25519PublicKeyValid := fun _ => true
  prekeyBundleReserveCount := 0
  pqRatchetInterval := 0

def registration (userId : String) (key : UInt8) : RegisterUserRequest :=
  ⟨userId, "phone", .replicate 32 key, .replicate 32 key, .replicate 1952 key, 0⟩

/-- a registration from its first to its last step -/
def registered {ι : Type} (i : ι) (userId : String) (key : UInt8) : List (Op ι) :=
  .start i (.register (registration userId key)) :: List.replicate 5 (.advance i)

def reach {ι : Type} [DecidableEq ι] (ops : List (Op ι)) : World ι := run (World.step config) World.empty ops

end Sample

end PqMsg.Server
