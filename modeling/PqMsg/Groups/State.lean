/-
The state of a private group on its members' devices (`groups.rs`): members and attributes, epoch transitions, credentials,
snapshots, and the keys of an epoch.

The message key and the snapshot key of an epoch are derived from the root secret of the group, its id and the number of the
epoch. The root secret is drawn when the group is created; no transition replaces it.

- `never_locked_out`: after the removal of a member, the keys of the next epoch are derivable from the state before it.
- `removed_member_keys`: the same for one removal, with a key derivation that is injective.
- `epochContract_iff`: every change opens a new epoch and every transition gives each member a fresh credential, exactly in
  the states before the last epoch.

`Secret` and the primitives are as in `PqMsg.Core.Primitives`; what is drawn from the random number generator is an argument.
Sending and reading of messages, invitation links and the JSON of states are left out.
-/
import PqMsg.Server.Text
import PqMsg.Session.Replay

namespace PqMsg.Groups

open Lib Tlv Wire Handshake List Except

variable {Secret : Type}

def snapshotAadLabel : String := "pqmsg-private-group-snapshot-v1"
def groupMessageKeyLabel : String := "pqmsg-private-group-message-key-v1"

def tlvOwnerUserId : UInt16 := criticalType 0x3001
def tlvGroupTitle : UInt16 := criticalType 0x3002
def tlvGroupDescription : UInt16 := 0x3003
def tlvGroupAvatarHash : UInt16 := 0x3004
def tlvGroupTimerSeconds : UInt16 := 0x3005
def tlvGroupCreatedAt : UInt16 := criticalType 0x3006
def tlvGroupUpdatedAt : UInt16 := criticalType 0x3007
def tlvGroupMembers : UInt16 := criticalType 0x3008

/-! ## States -/

structure PrivateGroupAttributes where
  title : String
  description : Option String
  avatarHashSha256 : Option String
  disappearingMessageTimerSeconds : Option UInt32
deriving DecidableEq

inductive PrivateGroupRole where
  | owner
  | admin
  | member
deriving DecidableEq

/-- `PrivateGroupRole::to_byte` -/
def PrivateGroupRole.toByte : PrivateGroupRole → UInt8
  | .owner => 1
  | .admin => 2
  | .member => 3

structure PrivateGroupMember where
  userId : String
  role : PrivateGroupRole
deriving DecidableEq

structure PrivateGroupState (Secret : Type) where
  groupId : String
  epoch : UInt64
  rootSecret : Secret
  attributes : PrivateGroupAttributes
  members : List PrivateGroupMember
  createdAtUnixSeconds : UInt64
  updatedAtUnixSeconds : UInt64

open PrivateGroupState

structure PrivateGroupMemberCredential (Secret : Type) where
  groupId : String
  epoch : UInt64
  memberUserId : String
  role : PrivateGroupRole
  credentialSecret : Secret

structure PrivateGroupEncryptedSnapshot where
  groupId : String
  epoch : UInt64
  stateCommitmentSha256 : Bytes
  ciphertext : Aead.CiphertextEnvelope

structure PrivateGroupInvitePackage (Secret : Type) where
  groupId : String
  epoch : UInt64
  rootSecret : Secret
  snapshot : PrivateGroupEncryptedSnapshot

structure PrivateGroupJoinPackage (Secret : Type) where
  invite : PrivateGroupInvitePackage Secret
  memberCredential : PrivateGroupMemberCredential Secret

structure PrivateGroupEpochTransition (Secret : Type) where
  nextState : PrivateGroupState Secret
  memberCredentials : List (PrivateGroupMemberCredential Secret)
  addedMemberJoinPackage : Option (PrivateGroupJoinPackage Secret)

/-! ## Checks -/

def isAsciiHexDigit (b : UInt8) : Bool := (48 ≤ b && b ≤ 57) || (65 ≤ b && b ≤ 70) || (97 ≤ b && b ≤ 102)

def isSha256Hex (value : String) : Bool :=
  let bytes := utf8 (Server.trim value)
  bytes.length = 64 && bytes.all isAsciiHexDigit

def validateGroupAttributes (attributes : PrivateGroupAttributes) : Except CoreError Unit :=
  if Server.len (Server.trim attributes.title) = 0 then .error (.policyViolation "private group title cannot be blank")
  else if attributes.avatarHashSha256.any (!isSha256Hex ·) then
    .error (.policyViolation "private group avatar hash must be a 64-character hex SHA-256")
  else .ok ()

def validateUserId (userId : String) : Except CoreError Unit :=
  if Server.len (Server.trim userId) = 0 then .error (.policyViolation "private group member user_id cannot be blank")
  else .ok ()

/-! ## Changes of the state -/

namespace PrivateGroupState

variable (s : PrivateGroupState Secret)

def ownerUserId : String :=
  match s.members.find? (·.role = .owner) with
  | some m => m.userId
  | none => ""

/-- `saturating_add` -/
def nextEpoch (epoch : UInt64) : UInt64 := if epoch.toNat + 1 < 2 ^ 64 then epoch + 1 else epoch

def bumpEpoch (updatedAt : UInt64) : PrivateGroupState Secret :=
  { s with epoch := nextEpoch s.epoch, updatedAtUnixSeconds := updatedAt }

/-- the role of the first member with the id is changed -/
def setRole (userId : String) (role : PrivateGroupRole) : List PrivateGroupMember → List PrivateGroupMember
  | [] => []
  | m :: ms => if m.userId = userId then { m with role := role } :: ms else m :: setRole userId role ms

variable (userId : String)

/-- the owner keeps their role -/
def roleFor (role : PrivateGroupRole) : PrivateGroupRole :=
  if userId = s.ownerUserId then .owner else role

/-- the new state, and whether something changed -/
def addMember (role : PrivateGroupRole) (updatedAt : UInt64) : Except CoreError (PrivateGroupState Secret × Bool) := do
  validateUserId userId
  let nextRole := s.roleFor userId role
  match s.members.find? (·.userId = userId) with
  | some existing =>
    if existing.role = nextRole then .ok (s, false)
    else .ok (bumpEpoch { s with members := setRole userId nextRole s.members } updatedAt, true)
  | none =>
    let members := (s.members ++ [PrivateGroupMember.mk userId nextRole]).mergeSort fun a b => decide (a.userId ≤ b.userId)
    .ok (bumpEpoch { s with members := members } updatedAt, true)

def removeMember (updatedAt : UInt64) : Except CoreError (PrivateGroupState Secret × Bool) :=
  if userId = s.ownerUserId then .error (.policyViolation "private group owner cannot be removed")
  else
    let members := s.members.filter (·.userId ≠ userId)
    if members.length = s.members.length then .ok (s, false)
    else .ok (bumpEpoch { s with members := members } updatedAt, true)

def updateAttributes (attributes : PrivateGroupAttributes) (updatedAt : UInt64) :
    Except CoreError (PrivateGroupState Secret × Bool) := do
  validateGroupAttributes attributes
  if s.attributes = attributes then .ok (s, false)
  else .ok (bumpEpoch { s with attributes := attributes } updatedAt, true)

def issueMemberCredential (memberUserId : String) (role : PrivateGroupRole) (credentialSecret : Secret) :
    Except CoreError (PrivateGroupMemberCredential Secret) := do
  validateUserId memberUserId
  return ⟨s.groupId, s.epoch, memberUserId, s.roleFor memberUserId role, credentialSecret⟩

/-- one credential for each member; `draw` numbers what is drawn -/
def issueMemberCredentials (s : PrivateGroupState Secret) (draw : ℕ → Secret) :
    ℕ → List PrivateGroupMember → Except CoreError (List (PrivateGroupMemberCredential Secret))
  | _, [] => .ok []
  | i, m :: ms => do
    let credential ← s.issueMemberCredential m.userId m.role (draw i)
    let credentials ← s.issueMemberCredentials draw (i + 1) ms
    return credential :: credentials

def issueMemberCredentialsForAllMembers (draw : ℕ → Secret) : Except CoreError (List (PrivateGroupMemberCredential Secret)) :=
  s.issueMemberCredentials draw 0 s.members

def prepareRemoveMemberTransition (updatedAt : UInt64) (draw : ℕ → Secret) :
    Except CoreError (PrivateGroupEpochTransition Secret) := do
  let (nextState, removed) ← s.removeMember userId updatedAt
  if removed = false then .error (.policyViolation "private group member is not present")
  else do
    let memberCredentials ← nextState.issueMemberCredentialsForAllMembers draw
    return ⟨nextState, memberCredentials, none⟩

end PrivateGroupState

/-! ## Keys -/

section

variable (P : Primitives Secret)

def deriveMessageKey (rootSecret : Secret) (groupId : String) (epoch : UInt64) : Secret :=
  hkdfSha256_32 P rootSecret none (groupMessageKeyLabel ++ ":" ++ groupId ++ ":" ++ toString epoch)

def deriveSnapshotKey (rootSecret : Secret) (groupId : String) (epoch : UInt64) : Secret :=
  hkdfSha256_32 P rootSecret none (snapshotAadLabel ++ ":key:" ++ groupId ++ ":" ++ toString epoch)

variable (s : PrivateGroupState Secret)

/-- the key that messages of the epoch are encrypted under -/
def PrivateGroupState.messageKey : Secret := deriveMessageKey P s.rootSecret s.groupId s.epoch

/-- the key that snapshots of the state are encrypted under -/
def PrivateGroupState.snapshotKey : Secret := deriveSnapshotKey P s.rootSecret s.groupId s.epoch

/-! ## Snapshots -/

def encodeMember (m : PrivateGroupMember) : Except CoreError Bytes := do
  validateUserId m.userId
  let userId := utf8 m.userId
  if userId.length > u16Max then .error (.invalidLength "private_group.member.user_id" u16Max userId.length)
  else .ok (be16 (UInt16.ofNat userId.length) ++ userId ++ [m.role.toByte])

def encodeMembers (members : List PrivateGroupMember) : Except CoreError Bytes :=
  if members.length > u16Max then .error (.invalidLength "private_group.members" u16Max members.length)
  else do
    let encoded ← members.mapM encodeMember
    return be16 (UInt16.ofNat members.length) ++ encoded.flatten

def encodeGroupPayload : Except CoreError Bytes := do
  let members ← encodeMembers s.members
  Tlv.encode ([⟨tlvOwnerUserId, utf8 s.ownerUserId⟩, ⟨tlvGroupTitle, utf8 s.attributes.title⟩,
      ⟨tlvGroupCreatedAt, beU64 s.createdAtUnixSeconds⟩, ⟨tlvGroupUpdatedAt, beU64 s.updatedAtUnixSeconds⟩,
      ⟨tlvGroupMembers, members⟩] ++
    optRecord tlvGroupDescription (s.attributes.description.map utf8) ++
    optRecord tlvGroupAvatarHash (s.attributes.avatarHashSha256.map utf8) ++
    optRecord tlvGroupTimerSeconds (s.attributes.disappearingMessageTimerSeconds.map be32))

def snapshotAad (groupId : String) (epoch : UInt64) : Bytes :=
  utf8 (snapshotAadLabel ++ ":" ++ groupId ++ ":" ++ toString epoch)

def encryptedSnapshot (nonce : Nonce) : Except CoreError PrivateGroupEncryptedSnapshot := do
  let payload ← encodeGroupPayload s
  let ciphertext ← Aead.encrypt P (s.snapshotKey P) (Aead.padPlaintext payload Aead.paddingBlockSize)
    (snapshotAad s.groupId s.epoch) nonce
  return ⟨s.groupId, s.epoch, P.sha256 payload, ciphertext⟩

/-! ## Adding a member -/

def exportInvitePackage (nonce : Nonce) : Except CoreError (PrivateGroupInvitePackage Secret) := do
  let snapshot ← encryptedSnapshot P s nonce
  return ⟨s.groupId, s.epoch, s.rootSecret, snapshot⟩

def exportJoinPackageForMemberCredential (credential : PrivateGroupMemberCredential Secret) (nonce : Nonce) :
    Except CoreError (PrivateGroupJoinPackage Secret) :=
  if credential.groupId ≠ s.groupId then
    .error (.policyViolation "private group join package credential group_id mismatch")
  else if credential.epoch ≠ s.epoch then
    .error (.policyViolation "private group join package credential epoch mismatch")
  else
    match s.members.find? (·.userId = credential.memberUserId) with
    | none => .error (.policyViolation "private group join package member missing from state")
    | some m =>
      if m.role ≠ credential.role then
        .error (.policyViolation "private group join package credential role mismatch")
      else do
        let invite ← exportInvitePackage P s nonce
        return ⟨invite, credential⟩

def prepareAddMemberTransition (userId : String) (role : PrivateGroupRole) (updatedAt : UInt64) (draw : ℕ → Secret)
    (nonce : Nonce) : Except CoreError (PrivateGroupEpochTransition Secret) := do
  let (nextState, changed) ← s.addMember userId role updatedAt
  if changed = false then .error (.policyViolation "private group member already has requested role")
  else do
    let memberCredentials ← nextState.issueMemberCredentialsForAllMembers draw
    match memberCredentials.find? (·.memberUserId = userId) with
    | none => .error (.policyViolation "private group added member credential missing from transition")
    | some credential => do
      let package ← exportJoinPackageForMemberCredential P nextState credential nonce
      return ⟨nextState, memberCredentials, some package⟩

end

/-! ## What changes keep -/

/-- two states of one group that share the root secret -/
def SameRoot (s s' : PrivateGroupState Secret) : Prop := s'.rootSecret = s.rootSecret ∧ s'.groupId = s.groupId

inductive GroupOp where
  | addMember (userId : String) (role : PrivateGroupRole) (updatedAt : UInt64)
  | removeMember (userId : String) (updatedAt : UInt64)
  | updateAttributes (attributes : PrivateGroupAttributes) (updatedAt : UInt64)

/-- a change that fails leaves the state as it is -/
def PrivateGroupState.step (s : PrivateGroupState Secret) (o : GroupOp) : PrivateGroupState Secret :=
  let result := match o with
    | .addMember userId role updatedAt => s.addMember userId role updatedAt
    | .removeMember userId updatedAt => s.removeMember userId updatedAt
    | .updateAttributes attributes updatedAt => s.updateAttributes attributes updatedAt
  match result with
  | .ok (s', _) => s'
  | .error _ => s

/-- the new state, and whether something changed -/
def PrivateGroupState.mutate (s : PrivateGroupState Secret) : GroupOp → Except CoreError (PrivateGroupState Secret × Bool)
  | .addMember userId role updatedAt => s.addMember userId role updatedAt
  | .removeMember userId updatedAt => s.removeMember userId updatedAt
  | .updateAttributes attributes updatedAt => s.updateAttributes attributes updatedAt

/-- the members and attributes that a change can leave -/
inductive Change (s : PrivateGroupState Secret) : List PrivateGroupMember → PrivateGroupAttributes → Prop
  | role {userId : String} {role : PrivateGroupRole} {existing : PrivateGroupMember}
      (hfind : s.members.find? (·.userId = userId) = some existing) (hrole : existing.role ≠ s.roleFor userId role) :
      Change s (PrivateGroupState.setRole userId (s.roleFor userId role) s.members) s.attributes
  | add {userId : String} {role : PrivateGroupRole} (hvalid : validateUserId userId = .ok ())
      (hfind : s.members.find? (·.userId = userId) = none) :
      Change s ((s.members ++ [PrivateGroupMember.mk userId (s.roleFor userId role)]).mergeSort
        fun a b => decide (a.userId ≤ b.userId)) s.attributes
  | remove {userId : String} (howner : userId ≠ s.ownerUserId)
      (hlength : (s.members.filter (·.userId ≠ userId)).length ≠ s.members.length) :
      Change s (s.members.filter (·.userId ≠ userId)) s.attributes
  | attributes {attributes : PrivateGroupAttributes} (hvalid : validateGroupAttributes attributes = .ok ())
      (hattributes : s.attributes ≠ attributes) : Change s s.members attributes

section

variable {s s' : PrivateGroupState Secret} {o : GroupOp} {changed : Bool}

/-- **What a change can do**: nothing, or one of the changes, in the next epoch -/
lemma mutate_ok (h : s.mutate o = .ok (s', changed)) :
    (changed = false ∧ s' = s) ∨ changed = true ∧ ∃ members attributes updatedAt, Change s members attributes ∧
      s' = bumpEpoch { s with members := members, attributes := attributes } updatedAt := by
  cases o with
  | addMember userId role updatedAt =>
    obtain ⟨_, hvalid, h⟩ := bind_ok.1 h
    cases hfind : s.members.find? (·.userId = userId) with
    | none =>
      simp only [hfind] at h
      obtain ⟨rfl, rfl⟩ := Prod.mk.inj (Except.ok.inj h)
      exact .inr ⟨rfl, _, _, updatedAt, .add hvalid hfind, rfl⟩
    | some =>
      simp only [hfind] at h
      split_ifs at h with hrole <;> obtain ⟨rfl, rfl⟩ := Prod.mk.inj (Except.ok.inj h)
      · exact .inl ⟨rfl, rfl⟩
      · exact .inr ⟨rfl, _, _, updatedAt, .role hfind hrole, rfl⟩
  | removeMember userId updatedAt =>
    simp only [mutate, removeMember, check_ok] at h
    obtain ⟨howner, h⟩ := h
    split_ifs at h with hlength <;> obtain ⟨rfl, rfl⟩ := Prod.mk.inj (Except.ok.inj h)
    · exact .inl ⟨rfl, rfl⟩
    · exact .inr ⟨rfl, _, _, updatedAt, .remove howner hlength, rfl⟩
  | updateAttributes attributes updatedAt =>
    obtain ⟨_, hvalid, h⟩ := bind_ok.1 h
    split_ifs at h with hsame <;> obtain ⟨rfl, rfl⟩ := Prod.mk.inj (Except.ok.inj h)
    · exact .inl ⟨rfl, rfl⟩
    · exact .inr ⟨rfl, _, _, updatedAt, .attributes hvalid hsame, rfl⟩

lemma mutate_root (h : s.mutate o = .ok (s', changed)) : SameRoot s s' := by
  rcases mutate_ok h with ⟨-, rfl⟩ | ⟨-, _, _, _, -, rfl⟩ <;> exact ⟨rfl, rfl⟩

end

lemma step_mutate (s : PrivateGroupState Secret) (o : GroupOp) :
    (∃ e, s.mutate o = .error e ∧ s.step o = s) ∨ ∃ changed, s.mutate o = .ok (s.step o, changed) := by
  have hstep : s.step o = match s.mutate o with
      | .ok (s', _) => s'
      | .error _ => s := by
    unfold step mutate
    cases o <;> rfl
  cases h : s.mutate o with
  | error e => exact .inl ⟨e, rfl, by rw [hstep, h]⟩
  | ok r => exact .inr ⟨r.2, by rw [hstep, h]⟩

/-! ## Epochs -/

section

open PrivateGroupState

variable {s s' : PrivateGroupState Secret}

lemma lt_nextEpoch {epoch : UInt64} : epoch < nextEpoch epoch ↔ epoch.toNat + 1 < 2 ^ 64 := by
  unfold nextEpoch
  split_ifs with h
  · simp only [UInt64.lt_iff_toNat_lt, UInt64.toNat_add, h, iff_true]
    rw [show (1 : UInt64).toNat = 1 from rfl, Nat.mod_eq_of_lt h]
    exact Nat.lt_succ_self _
  · exact iff_of_false (UInt64.lt_irrefl epoch) h

lemma setRole_userIds (userId : String) (role : PrivateGroupRole) (members : List PrivateGroupMember) :
    (setRole userId role members).map (·.userId) = members.map (·.userId) := by
  induction members with
  | nil => rfl
  | cons m ms ih =>
    simp only [setRole]
    split_ifs with h
    · rfl
    · simp [ih]

lemma setRole_find (userId : String) (role : PrivateGroupRole) (members : List PrivateGroupMember) :
    (setRole userId role members).find? (·.userId = userId) =
      (members.find? (·.userId = userId)).map fun m => { m with role := role } := by
  induction members with
  | nil => rfl
  | cons m ms ih =>
    simp only [setRole]
    split_ifs with h <;> simp [h, ih]

variable {members : List PrivateGroupMember} {attributes : PrivateGroupAttributes}

lemma Change.ne (h : Change s members attributes) : members ≠ s.members ∨ attributes ≠ s.attributes := by
  cases h with
  | @role userId role existing hfind hrole =>
    refine .inl fun hsame => hrole ?_
    have h := setRole_find userId (s.roleFor userId role) s.members
    rw [hsame, hfind] at h
    exact congrArg PrivateGroupMember.role (Option.some.inj h)
  | add hvalid hfind => exact .inl fun hsame => by simpa using congrArg List.length hsame
  | remove howner hlength => exact .inl fun hsame => hlength (congrArg List.length hsame)
  | attributes hvalid hattributes => exact .inr hattributes.symm

/-- no two members with the same id -/
def DistinctMembers (s : PrivateGroupState Secret) : Prop := (s.members.map (·.userId)).Nodup

lemma Change.nodup (h : Change s members attributes) (hs : DistinctMembers s) : (members.map (·.userId)).Nodup := by
  cases h with
  | role hfind hrole =>
    rw [setRole_userIds]
    exact hs
  | add hvalid hfind =>
    refine ((mergeSort_perm _ _).map _).nodup_iff.2 ?_
    rw [map_append, map_singleton]
    refine nodup_append.2 ⟨hs, nodup_singleton _, ?_⟩
    simpa using hfind
  | remove howner hlength => exact hs.sublist (filter_sublist.map _)
  | attributes hvalid hattributes => exact hs

lemma roleFor_self {m : PrivateGroupMember} (hs : DistinctMembers s) (hm : m ∈ s.members) (hid : m.userId ≠ "") :
    s.roleFor m.userId m.role = m.role := by
  unfold roleFor ownerUserId
  cases hfind : s.members.find? (·.role = .owner) with
  | none => exact if_neg hid
  | some o =>
    split_ifs with howner
    · obtain rfl := inj_on_of_nodup_map hs hm (mem_of_find?_eq_some hfind) howner
      have hrole := List.find?_some hfind
      exact (of_decide_eq_true hrole).symm
    · rfl

lemma issueMemberCredentials_ok {draw : ℕ → Secret} (hs : DistinctMembers s) {ms : List PrivateGroupMember} :
    ∀ {i : ℕ} {credentials}, ms ⊆ s.members → s.issueMemberCredentials draw i ms = .ok credentials →
      credentials = ms.mapIdx fun j m => ⟨s.groupId, s.epoch, m.userId, m.role, draw (i + j)⟩ := by
  induction ms with
  | nil =>
    intro i credentials _ h
    exact (ok.inj h).symm
  | cons m ms ih =>
    intro i credentials hms h
    obtain ⟨credential, hcredential, h⟩ := bind_ok.1 h
    obtain ⟨rest, hrest, h⟩ := bind_ok.1 h
    obtain rfl := ok.inj h
    obtain ⟨⟨⟩, hvalid, hcredential⟩ := bind_ok.1 hcredential
    obtain rfl := ok.inj hcredential
    have hid : m.userId ≠ "" := by
      intro hid
      rw [hid] at hvalid
      exact absurd hvalid (by decide)
    rw [mapIdx_cons, roleFor_self hs (hms (.head _)) hid, ih (fun _ hm => hms (.tail _ hm)) hrest]
    simp [Nat.add_right_comm, Nat.add_assoc]

/-- the next state is in a later epoch, with a credential for each of its members -/
def FreshCredentials (s : PrivateGroupState Secret) (draw : ℕ → Secret) (t : PrivateGroupEpochTransition Secret) : Prop :=
  s.epoch < t.nextState.epoch ∧ t.memberCredentials = t.nextState.members.mapIdx fun i m =>
    ⟨t.nextState.groupId, t.nextState.epoch, m.userId, m.role, draw i⟩

/-- what callers of the changes and transitions rely on -/
structure EpochContract (P : Primitives Secret) (s : PrivateGroupState Secret) : Prop where
  changed : ∀ o s' changed, s.mutate o = .ok (s', changed) →
    (changed = true ↔ s'.members ≠ s.members ∨ s'.attributes ≠ s.attributes) ∧ (changed = true → s.epoch < s'.epoch) ∧
    (changed = false → s' = s)
  failed : ∀ o e, s.mutate o = .error e → s.step o = s
  added : ∀ userId role updatedAt draw nonce t,
    prepareAddMemberTransition P s userId role updatedAt draw nonce = .ok t → FreshCredentials s draw t
  removed : ∀ userId updatedAt draw t, s.prepareRemoveMemberTransition userId updatedAt draw = .ok t →
    FreshCredentials s draw t

lemma mutate_fresh {o : GroupOp} {draw : ℕ → Secret} {t : PrivateGroupEpochTransition Secret}
    (hs : DistinctMembers s) (hepoch : s.epoch.toNat + 1 < 2 ^ 64) (hstate : s.mutate o = .ok (t.nextState, true))
    (hissue : t.nextState.issueMemberCredentialsForAllMembers draw = .ok t.memberCredentials) :
    FreshCredentials s draw t := by
  rcases mutate_ok hstate with ⟨h, -⟩ | ⟨-, members, attributes, updatedAt, hchange, hnext⟩
  · cases h
  have hdistinct : DistinctMembers t.nextState := by
    rw [hnext]
    exact hchange.nodup hs
  refine ⟨?_, ?_⟩
  · rw [hnext]
    exact lt_nextEpoch.2 hepoch
  · rw [issueMemberCredentials_ok hdistinct (.refl _) hissue]
    simp

/-- **Every change that changes something opens a new epoch**, exactly in the states before the last epoch -/
theorem epochContract_iff (P : Primitives Secret) (s : PrivateGroupState Secret) (hs : DistinctMembers s) :
    EpochContract P s ↔ s.epoch.toNat + 1 < 2 ^ 64 := by
  constructor
  · intro h
    -- one of two titles is not the title of the group
    obtain ⟨title, htitle, hvalid⟩ : ∃ title, s.attributes ≠ ⟨title, none, none, none⟩ ∧
        validateGroupAttributes ⟨title, none, none, none⟩ = .ok () := by
      by_cases ha : s.attributes = ⟨"a", none, none, none⟩
      · exact ⟨"b", by rw [ha]; decide, by decide⟩
      · exact ⟨"a", ha, by decide⟩
    have hstep : s.mutate (.updateAttributes ⟨title, none, none, none⟩ 0) =
        .ok (bumpEpoch { s with attributes := ⟨title, none, none, none⟩ } 0, true) := by
      simp [mutate, updateAttributes, hvalid, bind, Except.bind, htitle]
    exact lt_nextEpoch.1 ((h.changed _ _ _ hstep).2.1 rfl)
  · intro hepoch
    refine ⟨?_, ?_, ?_, ?_⟩
    · intro o s' changed h
      rcases mutate_ok h with ⟨rfl, rfl⟩ | ⟨rfl, members, attributes, updatedAt, hchange, rfl⟩
      · simp
      · exact ⟨iff_of_true rfl hchange.ne, fun _ => lt_nextEpoch.2 hepoch, nofun⟩
    · intro o e he
      rcases step_mutate s o with ⟨_, -, hstep⟩ | ⟨_, h⟩
      · exact hstep
      · rw [he] at h
        cases h
    · intro userId role updatedAt draw nonce t h
      obtain ⟨⟨nextState, changed⟩, hadd, h⟩ := bind_ok.1 h
      obtain ⟨hchanged, h⟩ := check_ok.1 h
      obtain ⟨credentials, hissue, h⟩ := bind_ok.1 h
      split at h
      · cases h
      · obtain ⟨package, -, h⟩ := bind_ok.1 h
        obtain rfl := ok.inj h
        rw [Bool.not_eq_false] at hchanged
        exact mutate_fresh (o := .addMember userId role updatedAt) hs hepoch (hchanged ▸ hadd) hissue
    · intro userId updatedAt draw t h
      obtain ⟨⟨nextState, removed⟩, hremove, h⟩ := bind_ok.1 h
      obtain ⟨hremoved, h⟩ := check_ok.1 h
      obtain ⟨credentials, hissue, h⟩ := bind_ok.1 h
      obtain rfl := ok.inj h
      rw [Bool.not_eq_false] at hremoved
      exact mutate_fresh (o := .removeMember userId updatedAt) hs hepoch (hremoved ▸ hremove) hissue

end

/-! ## What a removed member can compute -/

section

variable {P : Primitives Secret}

/-- the keys of the group, of any epoch, that the holder of a state can derive -/
inductive Derivable (P : Primitives Secret) (s : PrivateGroupState Secret) : Secret → Prop
  | message (epoch : UInt64) : Derivable P s (deriveMessageKey P s.rootSecret s.groupId epoch)
  | snapshot (epoch : UInt64) : Derivable P s (deriveSnapshotKey P s.rootSecret s.groupId epoch)

/-- neither key of the next state is derivable from the old one -/
def LockedOut (P : Primitives Secret) (s next : PrivateGroupState Secret) : Prop :=
  ¬Derivable P s (next.messageKey P) ∧ ¬Derivable P s (next.snapshotKey P)

lemma SameRoot.derivable {s next : PrivateGroupState Secret} (h : SameRoot s next) :
    Derivable P s (next.messageKey P) ∧ Derivable P s (next.snapshotKey P) := by
  obtain ⟨hroot, hgroup⟩ := h
  unfold messageKey snapshotKey
  rw [hroot, hgroup]
  exact ⟨.message next.epoch, .snapshot next.epoch⟩

/-- **No removed member is locked out**: both keys of the next epoch are derivable from the state before the removal -/
theorem never_locked_out (P : Primitives Secret) (s : PrivateGroupState Secret) (userId : String) (updatedAt : UInt64)
    (draw : ℕ → Secret) (t : PrivateGroupEpochTransition Secret)
    (h : s.prepareRemoveMemberTransition userId updatedAt draw = .ok t) :
    Derivable P s (t.nextState.messageKey P) ∧ Derivable P s (t.nextState.snapshotKey P) := by
  obtain ⟨⟨nextState, removed⟩, hremove, h⟩ := bind_ok.1 h
  obtain ⟨-, h⟩ := check_ok.1 h
  obtain ⟨credentials, -, h⟩ := bind_ok.1 h
  cases h
  exact (mutate_root (o := .removeMember userId updatedAt) hremove).derivable

end

/-! ## One removal -/

namespace Sample

/-- alice's group with bob, in its third epoch -/
def group : PrivateGroupState Session.Term where
  groupId := "6f"
  epoch := 3
  rootSecret := .atom 0
  attributes := ⟨"climbing", none, none, some 3600⟩
  members := [⟨"alice", .owner⟩, ⟨"bob", .member⟩]
  createdAtUnixSeconds := 100
  updatedAtUnixSeconds := 200

/-- alice removes bob -/
def removal : PrivateGroupEpochTransition Session.Term where
  nextState := { group with epoch := 4, members := [⟨"alice", .owner⟩], updatedAtUnixSeconds := 300 }
  memberCredentials := [⟨"6f", 4, "alice", .owner, .atom 1⟩]
  addedMemberJoinPackage := none

lemma group_removal : group.prepareRemoveMemberTransition "bob" 300 (fun i => .atom (i + 1)) = .ok removal := by
  rfl

end Sample

/-- no two calls of the KDF give the same key -/
def KdfInjective (P : Primitives Secret) : Prop :=
  ∀ ikm ikm' salt salt' info info' n n' i i', P.hkdf ikm salt info n i = P.hkdf ikm' salt' info' n' i' →
    ikm = ikm' ∧ salt = salt' ∧ info = info' ∧ n = n' ∧ i = i'

lemma term_kdfInjective : KdfInjective Session.Term.primitives := by
  intro ikm ikm' salt salt' info info' n n' i i' h
  cases salt with
  | none =>
    cases salt' with
    | none =>
      obtain ⟨rfl, rfl, rfl, rfl⟩ := Session.Term.kdf.inj h
      exact ⟨rfl, rfl, rfl, rfl, rfl⟩
    | some => cases h
  | some =>
    cases salt' with
    | none => cases h
    | some =>
      obtain ⟨rfl, rfl, rfl, rfl, rfl⟩ := Session.Term.kdfSalted.inj h
      exact ⟨rfl, rfl, rfl, rfl, rfl⟩

open Groups.Sample in
/-- bob held the state of epoch 3 and derives the keys of epoch 4 from it -/
theorem never_locked_out_bob :
    group.prepareRemoveMemberTransition "bob" 300 (fun i => .atom (i + 1)) = .ok removal ∧
    Derivable Session.Term.primitives group (removal.nextState.messageKey Session.Term.primitives) ∧
    Derivable Session.Term.primitives group (removal.nextState.snapshotKey Session.Term.primitives) :=
  ⟨group_removal, never_locked_out _ group "bob" 300 _ removal group_removal⟩

open Groups.Sample in
/-- with an injective KDF, bob is removed and not locked out -/
theorem removed_member_keys :
    KdfInjective Session.Term.primitives ∧
    group.prepareRemoveMemberTransition "bob" 300 (fun i => .atom (i + 1)) = .ok removal ∧
    ¬LockedOut Session.Term.primitives group removal.nextState :=
  ⟨term_kdfInjective, group_removal, fun h => h.1 (Derivable.message removal.nextState.epoch)⟩

/-- alice's group meets the contract in its third epoch -/
theorem epochContract_iff_alice : DistinctMembers Sample.group ∧ EpochContract Session.Term.primitives Sample.group :=
  ⟨by unfold DistinctMembers; decide, (epochContract_iff _ _ (by unfold DistinctMembers; decide)).2 (by decide)⟩

/-- in the last epoch a new title is reported as a change, and the epoch stays -/
theorem last_epoch_stays : ∃ s', { Sample.group with epoch := 2 ^ 64 - 1 }.mutate
      (.updateAttributes ⟨"bouldering", none, none, none⟩ 300) = .ok (s', true) ∧
    s'.attributes ≠ Sample.group.attributes ∧ s'.epoch = 2 ^ 64 - 1 :=
  ⟨_, rfl, by decide, by decide +kernel⟩

end PqMsg.Groups
