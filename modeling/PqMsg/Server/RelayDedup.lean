/-
Deduplication of relayed messages (`observe_relay_dedup` in `handlers/util.rs`, `relay_message` and `relay_sealed_message` in
`handlers/messaging.rs`, `relay_ephemeral_message` in `handlers/ephemeral.rs`).

A handler first records the hash of sender, recipient and message in `relay_dedup`, and then checks that the users exist,
that the delivery token is right and that the recipient has a device, before it stores the message. The record stays when
one of these checks fails, when a statement fails, or when the server stops: the request is then answered as a duplicate of
one that was never stored. The hashed text joins ids with colons, and ids may have colons.

Handlers interleave between statements. Users, tokens and devices may change at any time. A request has passed its checks of
form and its authentication. SHA-256 is taken to be injective.

- `dedupInput_inj`: the hashed text tells requests with plain ids apart.
- `duplicate_means_stored`: the answers in every run in which a request that was recorded goes on to be stored before the same
  message comes again.
- `duplicate_not_stored`: a message to a user without an account, sent again, and two users whose ids share one text.
-/
import PqMsg.Lib.Run
import PqMsg.Lib.Separated
import PqMsg.Server.Validation

namespace PqMsg.Server

open Lib Handshake Function List Option

/-! ## Requests -/

def relayDedupTtlSeconds : ℕ := 900
def sealedDeliveryTokenLen : ℕ := 12

inductive RelayRequest where
  | relay (senderUserId deviceId recipientUserId : String) (blob : Bytes)
  | sealed (recipientUserId : String) (deliveryToken : ByteArr sealedDeliveryTokenLen) (blob : Bytes)
  | ephemeral (senderUserId deviceId recipientUserId : String) (ttlSeconds : ℕ) (blob : Bytes)
deriving DecidableEq

open RelayRequest

/-- kind, sender, recipient, token and message -/
inductive RelayIdentity where
  | relay (senderUserId recipientUserId : String) (blob : Bytes)
  | sealed (recipientUserId : String) (deliveryToken : ByteArr sealedDeliveryTokenLen) (blob : Bytes)
  | ephemeral (senderUserId recipientUserId : String) (blob : Bytes)
deriving DecidableEq

namespace RelayRequest

def identity : RelayRequest → RelayIdentity
  | .relay sender _ recipient blob => .relay sender recipient blob
  | .sealed recipient token blob => .sealed recipient token blob
  | .ephemeral sender _ recipient _ blob => .ephemeral sender recipient blob

def recipientUserId : RelayRequest → String
  | .relay _ _ recipient _ | .sealed recipient _ _ | .ephemeral _ _ recipient _ _ => recipient

/-- what is put into the hasher -/
def dedupInput : RelayRequest → Bytes
  | .relay sender _ recipient blob => utf8 sender ++ utf8 ":" ++ utf8 recipient ++ utf8 ":" ++ blob
  | .sealed recipient token blob => utf8 "sealed:" ++ utf8 recipient ++ utf8 ":" ++ token.1 ++ utf8 ":" ++ blob
  | .ephemeral sender _ recipient _ blob =>
    utf8 "ephemeral:" ++ utf8 sender ++ utf8 ":" ++ utf8 recipient ++ utf8 ":" ++ blob

def duplicateError : RelayRequest → AppError
  | .relay _ _ _ _ => .conflict "duplicate message detected"
  | .sealed _ _ _ => .conflict "duplicate sealed message detected"
  | .ephemeral _ _ _ _ _ => .conflict "duplicate ephemeral message detected"

def noDevicesError : RelayRequest → AppError
  | .relay _ _ _ _ | .sealed _ _ _ => .notFound "recipient has no active linked devices to deliver"
  | .ephemeral _ _ _ _ _ => .notFound "recipient has no active linked devices"

end RelayRequest

/-! ## Handlers -/

/-- a row of `users`, with the active devices of the user -/
structure Account where
  sealedDeliveryToken : Option Bytes
  activeDevices : List String

/-- where a handler is; `now` is the time that `observe_relay_dedup` has read -/
inductive RelayPhase where
  | idle
  | arrived (request : RelayRequest)
  | insert (request : RelayRequest) (now : ℕ)
  | recipient (request : RelayRequest) (now : ℕ)
  | permit (request : RelayRequest) (now : ℕ)
  | devices (request : RelayRequest) (now : ℕ)
  | store (request : RelayRequest) (now : ℕ) (deviceIds : List String)

def RelayPhase.isIdle : RelayPhase → Bool
  | .idle => true
  | _ => false

/-- answers in the order they are given, with the time the message was stored, or the time `observe_relay_dedup` has read -/
inductive RelayReply where
  | accepted (request : RelayRequest) (deviceIds : List String) (storedAt : ℕ)
  | duplicate (request : RelayRequest) (now : ℕ) (error : AppError)
  | failed (request : RelayRequest) (error : AppError)
deriving DecidableEq

structure RelayServer (ι : Type) where
  now : ℕ
  users : String → Option Account
  /-- `relay_dedup`: the `expires_at_unix` of a key -/
  dedup : String → Option ℕ
  handlers : ι → RelayPhase
  replies : List RelayReply

open RelayServer

inductive DedupOp (ι : Type) where
  | start (i : ι) (request : RelayRequest)
  /-- the next statement of a handler; `purge` is `rand::random::<u8>() < 5` -/
  | advance (i : ι) (purge : Bool)
  | fail (i : ι)
  | tick
  | account (userId : String) (account : Option Account)

variable {ι : Type} [DecidableEq ι] (sha256 : Bytes → Bytes)

def RelayRequest.dedupKey (r : RelayRequest) : String := hexEncode (sha256 r.dedupInput)

namespace RelayServer

variable (w : RelayServer ι) (i : ι)

def goto (phase : RelayPhase) : RelayServer ι := { w with handlers := Function.update w.handlers i phase }

def answer (reply : RelayReply) : RelayServer ι := { w.goto i .idle with replies := w.replies ++ [reply] }

/-- `ensure_user_exists` -/
def ensureUserExists (userId : String) : Except AppError Unit :=
  match w.users userId with
  | some _ => .ok ()
  | none => .error (.notFound ("user '" ++ userId ++ "' not found"))

/-- a check that the request passes, or that answers it -/
def check (r : RelayRequest) (result : Except AppError Unit) (next : RelayPhase) : RelayServer ι :=
  match result with
  | .ok () => w.goto i next
  | .error error => w.answer i (.failed r error)

/-- `DELETE FROM relay_dedup WHERE expires_at_unix <= $1` -/
def purged (purge : Bool) : RelayServer ι :=
  if purge then { w with dedup := fun key => (w.dedup key).filter fun expiresAt => w.now < expiresAt } else w

/-- the row is inserted, or a row that has expired is updated -/
def record (r : RelayRequest) (now : ℕ) : RelayServer ι :=
  { w with dedup := Function.update w.dedup (r.dedupKey sha256) (some (now + relayDedupTtlSeconds)) }.goto i
    (.recipient r now)

/-- `INSERT … ON CONFLICT DO UPDATE … WHERE relay_dedup.expires_at_unix <= now` -/
def observe (r : RelayRequest) (now : ℕ) : RelayServer ι :=
  if ∃ expiresAt ∈ w.dedup (r.dedupKey sha256), now < expiresAt then w.answer i (.duplicate r now r.duplicateError)
  else w.record sha256 i r now

/-- the comparison of the delivery token with the stored one -/
def checkToken (recipientUserId : String) (deliveryToken : Bytes) : Except AppError Unit :=
  match (w.users recipientUserId).bind Account.sealedDeliveryToken with
  | none => .error (.conflict "recipient is missing a sealed delivery token")
  | some stored => if stored = deliveryToken then .ok () else .error (.forbidden "invalid sealed delivery token")

/-- the second check: the sender exists, or the token is right -/
def permit : RelayRequest → Except AppError Unit
  | .relay sender _ _ _ | .ephemeral sender _ _ _ _ => w.ensureUserExists sender
  | .sealed recipient token _ => w.checkToken recipient token.1

/-- `load_active_device_ids` -/
def loadActiveDeviceIds (userId : String) : List String := ((w.users userId).map Account.activeDevices).getD []

def advance (purge : Bool) : RelayServer ι :=
  match w.handlers i with
  | .idle => w
  | .arrived r => (w.purged purge).goto i (.insert r w.now)
  | .insert r now => w.observe sha256 i r now
  | .recipient r now => w.check i r (w.ensureUserExists r.recipientUserId) (.permit r now)
  | .permit r now => w.check i r (w.permit r) (.devices r now)
  | .devices r now =>
    let deviceIds := w.loadActiveDeviceIds r.recipientUserId
    if deviceIds = [] then w.answer i (.failed r r.noDevicesError) else w.goto i (.store r now deviceIds)
  | .store r _ deviceIds => w.answer i (.accepted r deviceIds w.now)

@[simp] lemma goto_self (phase : RelayPhase) : (w.goto i phase).handlers i = phase := update_self ..

lemma goto_ne {j : ι} (hj : j ≠ i) (phase : RelayPhase) : (w.goto i phase).handlers j = w.handlers j :=
  update_of_ne hj ..

def step (w : RelayServer ι) : DedupOp ι → RelayServer ι
  | .start i request => if (w.handlers i).isIdle then w.goto i (.arrived request) else w
  | .advance i purge => w.advance sha256 i purge
  | .fail i => w.goto i .idle
  | .tick => { w with now := w.now + 1 }
  | .account userId account => { w with users := Function.update w.users userId account }

end RelayServer

/-! ## What is hashed -/

/-- ids without colons; the sender of a plain relay is not one of the words that the other kinds start with -/
def RelayRequest.Plain : RelayRequest → Prop
  | .relay sender _ recipient _ =>
    ':' ∉ sender.toList ∧ ':' ∉ recipient.toList ∧ sender ≠ "sealed" ∧ sender ≠ "ephemeral"
  | .sealed recipient _ _ => ':' ∉ recipient.toList
  | .ephemeral sender _ recipient _ _ => ':' ∉ sender.toList ∧ ':' ∉ recipient.toList

lemma utf8_inj_of_separated {s t : String} {x y : Bytes} (hs : ':' ∉ s.toList) (ht : ':' ∉ t.toList)
    (h : utf8 s ++ colon :: x = utf8 t ++ colon :: y) : s = t ∧ x = y := by
  obtain ⟨hst, hxy⟩ := separated_inj (fun hc => hs (colon_mem_utf8.1 hc)) (fun hc => ht (colon_mem_utf8.1 hc)) h
  exact ⟨utf8_injective hst, hxy⟩

section Inputs

variable (sender recipient device : String) (token : ByteArr sealedDeliveryTokenLen) (ttl : ℕ) (blob : Bytes)

lemma dedupInput_relay : (relay sender device recipient blob).dedupInput =
      utf8 sender ++ colon :: (utf8 recipient ++ colon :: blob) := by
  simp [dedupInput, show utf8 ":" = [colon] from rfl]

lemma dedupInput_sealed : (sealed recipient token blob).dedupInput =
      utf8 "sealed" ++ colon :: (utf8 recipient ++ colon :: (token.1 ++ colon :: blob)) := by
  simp [dedupInput, show utf8 ":" = [colon] from rfl, show utf8 "sealed:" = utf8 "sealed" ++ [colon] from rfl]

lemma dedupInput_ephemeral : (ephemeral sender device recipient ttl blob).dedupInput =
      utf8 "ephemeral" ++ colon :: (utf8 sender ++ colon :: (utf8 recipient ++ colon :: blob)) := by
  simp [dedupInput, show utf8 ":" = [colon] from rfl, show utf8 "ephemeral:" = utf8 "ephemeral" ++ [colon] from rfl]

end Inputs

variable {r : RelayRequest} {phase : RelayPhase} {reply : RelayReply} {w : RelayServer ι} {r' : RelayRequest} {t0 now : ℕ}

/-- **The hashed text tells plain requests apart** -/
lemma dedupInput_inj (hr : r.Plain) (hr' : r'.Plain) (h : r.dedupInput = r'.dedupInput) : r.identity = r'.identity := by
  have hsealed : ':' ∉ "sealed".toList := by decide
  have hephemeral : ':' ∉ "ephemeral".toList := by decide
  cases r with
  | relay =>
    rw [dedupInput_relay] at h
    cases r' with
    | relay =>
      rw [dedupInput_relay] at h
      obtain ⟨rfl, hrest⟩ := utf8_inj_of_separated hr.1 hr'.1 h
      obtain ⟨rfl, rfl⟩ := utf8_inj_of_separated hr.2.1 hr'.2.1 hrest
      rfl
    | sealed =>
      rw [dedupInput_sealed] at h
      exact absurd (utf8_inj_of_separated hr.1 hsealed h).1 hr.2.2.1
    | ephemeral =>
      rw [dedupInput_ephemeral] at h
      exact absurd (utf8_inj_of_separated hr.1 hephemeral h).1 hr.2.2.2
  | sealed recipient token =>
    rw [dedupInput_sealed] at h
    cases r' with
    | relay =>
      rw [dedupInput_relay] at h
      exact absurd (utf8_inj_of_separated hsealed hr'.1 h).1.symm hr'.2.2.1
    | sealed recipient' token' =>
      rw [dedupInput_sealed] at h
      obtain ⟨-, hrest⟩ := utf8_inj_of_separated hsealed hsealed h
      obtain ⟨rfl, htail⟩ := utf8_inj_of_separated hr hr' hrest
      -- tokens have one length
      obtain ⟨htoken, hblob⟩ := append_inj htail (token.2.trans token'.2.symm)
      obtain rfl := Subtype.ext htoken
      obtain ⟨-, rfl⟩ := List.cons.inj hblob
      rfl
    | ephemeral =>
      rw [dedupInput_ephemeral] at h
      exact absurd (utf8_inj_of_separated hsealed hephemeral h).1 (by decide)
  | ephemeral =>
    rw [dedupInput_ephemeral] at h
    cases r' with
    | relay =>
      rw [dedupInput_relay] at h
      exact absurd (utf8_inj_of_separated hephemeral hr'.1 h).1.symm hr'.2.2.2
    | sealed =>
      rw [dedupInput_sealed] at h
      exact absurd (utf8_inj_of_separated hephemeral hsealed h).1 (by decide)
    | ephemeral =>
      rw [dedupInput_ephemeral] at h
      obtain ⟨-, hrest⟩ := utf8_inj_of_separated hephemeral hephemeral h
      obtain ⟨rfl, htail⟩ := utf8_inj_of_separated hr.1 hr'.1 hrest
      obtain ⟨rfl, rfl⟩ := utf8_inj_of_separated hr.2 hr'.2 htail
      rfl

variable {sha256} in
lemma dedupKey_inj (hsha : Injective sha256) (hr : r.Plain) (hr' : r'.Plain) (h : r.dedupKey sha256 = r'.dedupKey sha256) :
    r.identity = r'.identity :=
  dedupInput_inj hr hr' (hsha (hexEncode_injective h))

/-! ## Every row of the table belongs to a request -/

/-- the request of a handler that has made its record and has not stored its message yet -/
def RelayPhase.recorded : RelayPhase → Option (RelayRequest × ℕ)
  | .recipient r now | .permit r now | .devices r now | .store r now _ => some (r, now)
  | .idle | .arrived _ | .insert _ _ => none

/-- the request of a handler that is about to make its record -/
def RelayPhase.inserting : RelayPhase → Option RelayRequest
  | .insert r _ => some r
  | _ => none

/-- the request is plain, and its time lies between `t0` and now -/
def PhaseOk (t0 now : ℕ) : RelayPhase → Prop
  | .idle => True
  | .arrived r => r.Plain
  | .insert r t | .recipient r t | .permit r t | .devices r t | .store r t _ => r.Plain ∧ t0 ≤ t ∧ t ≤ now

lemma PhaseOk.of_recorded {t : ℕ} (h : PhaseOk t0 now phase) (hrec : phase.recorded = some (r, t)) :
    r.Plain ∧ t0 ≤ t ∧ t ≤ now := by
  cases phase with
  | idle | arrived | insert => cases hrec
  | recipient | permit | devices | store =>
    obtain ⟨rfl, rfl⟩ := Prod.mk.inj (some.inj hrec)
    exact h

lemma PhaseOk.tick (h : PhaseOk t0 now phase) : PhaseOk t0 (now + 1) phase := by
  cases phase with
  | idle => trivial
  | arrived => exact h
  | insert | recipient | permit | devices | store => exact ⟨h.1, h.2.1, h.2.2.trans (Nat.le_succ _)⟩

/-- an earlier request with the same identity was accepted, and stored less than the window ago -/
def Backed (replies : List RelayReply) (r : RelayRequest) (now : ℕ) : Prop :=
  ∃ r' deviceIds storedAt, RelayReply.accepted r' deviceIds storedAt ∈ replies ∧ r'.identity = r.identity ∧
    now < storedAt + relayDedupTtlSeconds

/-- every duplicate that was answered is backed by an answer before it -/
def AllBacked (replies : List RelayReply) : Prop :=
  ∀ k r now error, replies[k]? = some (.duplicate r now error) → Backed (replies.take k) r now

/-- why a row may be in the table -/
inductive Explained (sha256 : Bytes → Bytes) (t0 : ℕ) (w : RelayServer ι) (key : String) (expiresAt : ℕ) : Prop where
  | old (h : expiresAt ≤ t0)
  | recorded (i : ι) (r : RelayRequest) (now : ℕ) (hi : (w.handlers i).recorded = some (r, now))
      (hkey : r.dedupKey sha256 = key) (h : expiresAt = now + relayDedupTtlSeconds)
  | accepted (r : RelayRequest) (deviceIds : List String) (storedAt : ℕ)
      (hr : RelayReply.accepted r deviceIds storedAt ∈ w.replies) (hplain : r.Plain)
      (hkey : r.dedupKey sha256 = key) (h : expiresAt ≤ storedAt + relayDedupTtlSeconds)

structure DedupInv (sha256 : Bytes → Bytes) (t0 : ℕ) (w : RelayServer ι) : Prop where
  started : t0 ≤ w.now
  phases : ∀ i, PhaseOk t0 w.now (w.handlers i)
  rows : ∀ key expiresAt, w.dedup key = some expiresAt → Explained sha256 t0 w key expiresAt
  backed : AllBacked w.replies

lemma AllBacked.append {replies : List RelayReply} (h : AllBacked replies)
    (hnew : ∀ r now error, reply = .duplicate r now error → Backed replies r now) : AllBacked (replies ++ [reply]) := by
  intro k r now error hk
  rcases Nat.lt_or_ge k replies.length with hlt | hge
  · rw [List.getElem?_append_left hlt] at hk
    rw [take_append_of_le_length hlt.le]
    exact h k r now error hk
  · rw [List.getElem?_append_right hge] at hk
    have hzero : k - replies.length = 0 := by
      have := (List.getElem?_eq_some_iff.1 hk).1
      simpa using this
    rw [hzero] at hk
    rw [take_append_of_le_length (by omega), take_of_length_le hge]
    exact hnew r now error (some.inj hk)

section Steps

variable {sha256} {t0 : ℕ} {w : RelayServer ι} {i : ι}

omit [DecidableEq ι] in
/-- rows stay explained when handlers keep their records and answers are added -/
lemma Explained.mono {w' : RelayServer ι} {key : String} {expiresAt : ℕ} (h : Explained sha256 t0 w key expiresAt)
    (hrec : ∀ i r now, (w.handlers i).recorded = some (r, now) → (w'.handlers i).recorded = some (r, now))
    (hreplies : w.replies ⊆ w'.replies) : Explained sha256 t0 w' key expiresAt := by
  cases h with
  | old h => exact .old h
  | recorded i r now hi hkey h => exact .recorded i r now (hrec i r now hi) hkey h
  | accepted r deviceIds storedAt hr hplain hkey h => exact .accepted r deviceIds storedAt (hreplies hr) hplain hkey h

variable {phase : RelayPhase} {r : RelayRequest} {now : ℕ}

lemma goto_recorded (hrec : ∀ r now, (w.handlers i).recorded = some (r, now) → phase.recorded = some (r, now)) (j : ι)
    (r : RelayRequest) (now : ℕ) (hj : (w.handlers j).recorded = some (r, now)) :
    ((w.goto i phase).handlers j).recorded = some (r, now) := by
  by_cases hji : j = i
  · subst hji
    rw [goto_self]
    exact hrec r now hj
  · rw [goto_ne w i hji]
    exact hj

lemma goto_phases (h : ∀ j, PhaseOk t0 w.now (w.handlers j)) (hphase : PhaseOk t0 w.now phase) (j : ι) :
    PhaseOk t0 w.now ((w.goto i phase).handlers j) := by
  by_cases hji : j = i
  · subst hji
    rw [goto_self]
    exact hphase
  · rw [goto_ne w i hji]
    exact h j

lemma DedupInv.goto (h : DedupInv sha256 t0 w) (hphase : PhaseOk t0 w.now phase)
    (hrec : ∀ r now, (w.handlers i).recorded = some (r, now) → phase.recorded = some (r, now)) :
    DedupInv sha256 t0 (w.goto i phase) where
  started := h.started
  phases := goto_phases h.phases hphase
  rows key expiresAt hrow := (h.rows key expiresAt hrow).mono (goto_recorded hrec) (.refl _)
  backed := h.backed

/-- **A message is stored**: the record of the handler becomes that of an accepted request -/
lemma DedupInv.stored (h : DedupInv sha256 t0 w) {deviceIds : List String}
    (hi : w.handlers i = .store r now deviceIds) : DedupInv sha256 t0 (w.answer i (.accepted r deviceIds w.now)) := by
  have hphase := h.phases i
  rw [hi] at hphase
  refine ⟨h.started, goto_phases h.phases trivial, fun key expiresAt hrow => ?_, h.backed.append nofun⟩
  cases h.rows key expiresAt hrow with
  | old hold => exact .old hold
  | recorded j r' now' hj hkey he =>
    by_cases hji : j = i
    · rw [hji, hi] at hj
      obtain ⟨rfl, rfl⟩ := Prod.mk.inj (some.inj hj)
      have hle := hphase.2.2
      exact .accepted r deviceIds w.now (mem_append_right _ (.head _)) hphase.1 hkey (by omega)
    · refine .recorded j r' now' ?_ hkey he
      rw [answer, goto_ne w i hji]
      exact hj
  | accepted r' deviceIds' storedAt hr' hplain hkey he =>
    exact .accepted r' deviceIds' storedAt (mem_append_left _ hr') hplain hkey he

/-- a handler that has no record answers -/
lemma DedupInv.answer (h : DedupInv sha256 t0 w) (hi : (w.handlers i).recorded = none)
    (hnew : ∀ r now error, reply = .duplicate r now error → Backed w.replies r now) :
    DedupInv sha256 t0 (w.answer i reply) where
  started := h.started
  phases := goto_phases h.phases trivial
  rows key expiresAt hrow := by
    refine (h.rows key expiresAt hrow).mono (goto_recorded fun r now hrec => ?_) (subset_append_left _ _)
    rw [hi] at hrec
    cases hrec
  backed := h.backed.append hnew

/-- the record is made -/
lemma DedupInv.record (h : DedupInv sha256 t0 w) (hi : w.handlers i = .insert r now) :
    DedupInv sha256 t0 (w.record sha256 i r now) := by
  have hphase := h.phases i
  rw [hi] at hphase
  have hkept : ∀ j r' now', (w.handlers j).recorded = some (r', now') →
      ((w.goto i (.recipient r now)).handlers j).recorded = some (r', now') := by
    refine goto_recorded fun r' now' hrec => ?_
    rw [hi] at hrec
    cases hrec
  refine ⟨h.started, goto_phases h.phases hphase, fun key expiresAt hrow => ?_, h.backed⟩
  change Function.update w.dedup (r.dedupKey sha256) (some (now + relayDedupTtlSeconds)) key = some expiresAt at hrow
  by_cases hkey : key = r.dedupKey sha256
  · subst hkey
    rw [update_self] at hrow
    refine .recorded i r now ?_ rfl (some.inj hrow).symm
    rw [RelayServer.record, RelayServer.goto_self]
    rfl
  · rw [update_of_ne hkey] at hrow
    exact (h.rows key expiresAt hrow).mono hkept (.refl _)

/-- the same message is not on its way in another handler -/
def NotOnItsWay (w : RelayServer ι) (r : RelayRequest) : Prop :=
  ∀ j, ∀ entry ∈ (w.handlers j).recorded, entry.1.identity ≠ r.identity

/-- **Observing**: an unexpired row belongs to an accepted request with the same identity -/
lemma DedupInv.observe (hsha : Injective sha256) (h : DedupInv sha256 t0 w)
    (hi : w.handlers i = .insert r now) (hfree : NotOnItsWay w r) : DedupInv sha256 t0 (w.observe sha256 i r now) := by
  have hphase := h.phases i
  rw [hi] at hphase
  unfold RelayServer.observe
  split_ifs with hrow
  · obtain ⟨expiresAt, hrow, hlt⟩ := hrow
    refine h.answer (by rw [hi]; rfl) fun r' now' error heq => ?_
    obtain ⟨rfl, rfl, -⟩ := RelayReply.duplicate.inj heq
    cases h.rows _ _ hrow with
    | old =>
      have hstart := hphase.2.1
      omega
    | recorded j r' now' hj hkey =>
      have hplain := (h.phases j).of_recorded hj
      exact absurd (dedupKey_inj hsha hplain.1 hphase.1 hkey) (hfree j (r', now') hj)
    | accepted r' deviceIds storedAt hr' hplain hkey =>
      exact ⟨r', deviceIds, storedAt, hr', dedupKey_inj hsha hplain hphase.1 hkey, by omega⟩
  · exact h.record hi

/-- a check that is passed -/
lemma DedupInv.pass (h : DedupInv sha256 t0 w) {result : Except AppError Unit}
    (hi : (w.handlers i).recorded = some (r, now)) (hresult : result = .ok ()) (hnext : phase.recorded = some (r, now))
    (hphase : PhaseOk t0 w.now phase) :
    DedupInv sha256 t0 (w.check i r result phase) := by
  rw [hresult]
  refine h.goto hphase fun r' now' hrec => ?_
  rw [← hrec, hnext, hi]

omit [DecidableEq ι] in
lemma DedupInv.purged (h : DedupInv sha256 t0 w) (purge : Bool) : DedupInv sha256 t0 (w.purged purge) := by
  cases purge with
  | false => exact h
  | true =>
    refine ⟨h.started, h.phases, fun key expiresAt hrow => ?_, h.backed⟩
    have hkept : w.dedup key = some expiresAt := (filter_eq_some_iff.1 hrow).1
    exact (h.rows key expiresAt hkept).mono (fun _ _ _ hj => hj) (.refl _)

end Steps

/-! ## Runs -/

/-- the recipient exists and has a device, the sender exists, and the token is the recipient's -/
def Deliverable (w : RelayServer ι) (r : RelayRequest) : Prop :=
  w.ensureUserExists r.recipientUserId = .ok () ∧ w.permit r = .ok () ∧ w.loadActiveDeviceIds r.recipientUserId ≠ []

/-- a request has plain ids; it does not make its record while the same message is on its way; and once it has made it, it is
deliverable and its handler does not stop -/
def Orderly (w : RelayServer ι) : DedupOp ι → Prop
  | .start _ request => request.Plain
  | .advance i _ =>
    (∀ r ∈ (w.handlers i).inserting, NotOnItsWay w r) ∧ ∀ entry ∈ (w.handlers i).recorded, Deliverable w entry.1
  | .fail i => (w.handlers i).recorded = none
  | .tick | .account _ _ => True

lemma step_dedup {sha256 : Bytes → Bytes} (hsha : Injective sha256) {t0 : ℕ} (h : DedupInv sha256 t0 w) (o : DedupOp ι)
    (ho : Orderly w o) : DedupInv sha256 t0 (w.step sha256 o) := by
  cases o with
  | start i request =>
    rw [step]
    split_ifs with hidle
    · refine h.goto (show PhaseOk t0 w.now (.arrived request) from ho) fun r now hrec => ?_
      cases hi : w.handlers i with
      | idle =>
        rw [hi] at hrec
        cases hrec
      | arrived | insert | recipient | permit | devices | store =>
        rw [hi] at hidle
        cases hidle
    · exact h
  | advance i purge =>
    have hphase := h.phases i
    rw [step]
    unfold advance
    cases hi : w.handlers i with
    | idle => exact h
    | arrived r =>
      rw [hi] at hphase
      have hpurged := h.purged purge
      have hnow : (w.purged purge).now = w.now := by cases purge <;> rfl
      have hsame : (w.purged purge).handlers i = .arrived r := by cases purge <;> exact hi
      refine hpurged.goto ⟨hphase, h.started, hnow.ge⟩ fun r' now' hrec => ?_
      rw [hsame] at hrec
      cases hrec
    | insert r => exact h.observe hsha hi (ho.1 r (by rw [hi]; rfl))
    | recipient r now =>
      rw [hi] at hphase
      have hrec : (w.handlers i).recorded = some (r, now) := by rw [hi]; rfl
      obtain ⟨hrecipient, -, -⟩ := ho.2 (r, now) hrec
      exact h.pass hrec hrecipient rfl hphase
    | permit r now =>
      rw [hi] at hphase
      have hrec : (w.handlers i).recorded = some (r, now) := by rw [hi]; rfl
      obtain ⟨-, hpermit, -⟩ := ho.2 (r, now) hrec
      exact h.pass hrec hpermit rfl hphase
    | devices r now =>
      rw [hi] at hphase
      have hrec : (w.handlers i).recorded = some (r, now) := by rw [hi]; rfl
      obtain ⟨-, -, hdevices⟩ := ho.2 (r, now) hrec
      dsimp only
      rw [if_neg hdevices]
      refine h.goto hphase fun r' now' hrec' => ?_
      rw [← hrec', hrec]
      rfl
    | store => exact h.stored hi
  | fail i =>
    refine h.goto trivial fun r now hrec => ?_
    rw [show (w.handlers i).recorded = none from ho] at hrec
    cases hrec
  | tick =>
    refine ⟨h.started.trans (Nat.le_succ _), fun i => ?_, fun key expiresAt hrow =>
      (h.rows key expiresAt hrow).mono (fun _ _ _ hj => hj) (.refl _), h.backed⟩
    exact (h.phases i).tick
  | account =>
    exact ⟨h.started, h.phases, fun key expiresAt hrow =>
      (h.rows key expiresAt hrow).mono (fun _ _ _ hj => hj) (.refl _), h.backed⟩

/-- **Duplicate means stored**: in every orderly run, a request that is answered as a duplicate comes after one with the same
kind, sender, recipient, token and message that was accepted and stored within the window -/
theorem duplicate_means_stored {sha256 : Bytes → Bytes} (hsha : Injective sha256) (w : RelayServer ι)
    (hidle : ∀ i, w.handlers i = .idle) (hreplies : w.replies = [])
    (hrows : ∀ key expiresAt, w.dedup key = some expiresAt → expiresAt ≤ w.now) (ops : List (DedupOp ι))
    (hl : Legal (RelayServer.step sha256) Orderly w ops) :
    ∀ k r now error, (run (RelayServer.step sha256) w ops).replies[k]? = some (.duplicate r now error) →
      ∃ r' deviceIds storedAt,
        RelayReply.accepted r' deviceIds storedAt ∈ (run (RelayServer.step sha256) w ops).replies.take k ∧
        r'.identity = r.identity ∧ now < storedAt + relayDedupTtlSeconds := by
  have hinv : DedupInv sha256 w.now w := by
    refine ⟨le_rfl, fun i => ?_, fun key expiresAt hrow => .old (hrows key expiresAt hrow), fun k r now error hk => ?_⟩
    · rw [hidle i]
      trivial
    · rw [hreplies] at hk
      cases hk
  exact (run_inv (DedupInv sha256 w.now) (fun _ o h ho => step_dedup hsha h o ho) ops hinv hl).backed

/-! ## Messages that were never stored -/

instance RelayRequest.decidablePlain : (r : RelayRequest) → Decidable r.Plain
  | .relay _ _ _ _ => inferInstanceAs (Decidable (_ ∧ _ ∧ _ ∧ _))
  | .sealed _ _ _ => inferInstanceAs (Decidable (_ ∉ _))
  | .ephemeral _ _ _ _ _ => inferInstanceAs (Decidable (_ ∧ _))

instance (w : RelayServer ι) (r : RelayRequest) : Decidable (Deliverable w r) :=
  inferInstanceAs (Decidable (_ ∧ _ ∧ _))

instance [Fintype ι] (w : RelayServer ι) (r : RelayRequest) : Decidable (NotOnItsWay w r) :=
  inferInstanceAs (Decidable (∀ j, ∀ entry ∈ (w.handlers j).recorded, entry.1.identity ≠ r.identity))

instance [Fintype ι] (w : RelayServer ι) : (o : DedupOp ι) → Decidable (Orderly w o)
  | .start _ request => inferInstanceAs (Decidable request.Plain)
  | .advance _ _ => inferInstanceAs (Decidable ((∀ r ∈ _, _) ∧ ∀ entry ∈ _, _))
  | .fail _ => inferInstanceAs (Decidable (_ = _))
  | .tick | .account _ _ => isTrue trivial

namespace Sample

/-- `alice` and the user `a:b` have accounts, `bob` has none -/
def relayServer : RelayServer (Fin 2) where
  now := 1000
  users userId := if userId = "bob" then none else some ⟨none, ["phone"]⟩
  dedup _ := none
  handlers _ := .idle
  replies := []

/-- a request that is handled from its first to its last step -/
def handled (i : Fin 2) (request : RelayRequest) : List (DedupOp (Fin 2)) :=
  .start i request :: List.replicate 6 (.advance i false)

def fromAlice (recipient : String) : RelayRequest := .relay "alice" "phone" recipient [1]

end Sample

/-- the same message twice -/
theorem duplicate_means_stored_carol :
    let ops := Sample.handled 0 (Sample.fromAlice "carol") ++ Sample.handled 1 (Sample.fromAlice "carol")
    let replies := (run (RelayServer.step id) Sample.relayServer ops).replies
    replies = [.accepted (Sample.fromAlice "carol") ["phone"] 1000,
      .duplicate (Sample.fromAlice "carol") 1000 (.conflict "duplicate message detected")] ∧
    ∃ r' deviceIds storedAt, RelayReply.accepted r' deviceIds storedAt ∈ replies.take 1 ∧
      r'.identity = (Sample.fromAlice "carol").identity ∧ 1000 < storedAt + relayDedupTtlSeconds := by
  intro ops replies
  have hreplies : replies = [.accepted (Sample.fromAlice "carol") ["phone"] 1000,
      .duplicate (Sample.fromAlice "carol") 1000 (.conflict "duplicate message detected")] := by
    decide
  refine ⟨hreplies, duplicate_means_stored injective_id Sample.relayServer (fun _ => rfl) rfl
    nofun ops (by decide) 1 _ _ (.conflict "duplicate message detected") ?_⟩
  rw [show (run (step id) Sample.relayServer ops).replies = _ from hreplies]
  rfl

/-- **Duplicates of nothing.** A message to `bob` fails because `bob` has no account; when the account is there, the same
message is turned away as a duplicate. And a message of `a` to `b` is turned away because of one of `a:b` to `c`. -/
theorem duplicate_not_stored :
    (run (RelayServer.step id) Sample.relayServer (Sample.handled 0 (Sample.fromAlice "bob") ++
      [.account "bob" (some ⟨none, ["phone"]⟩)] ++ Sample.handled 0 (Sample.fromAlice "bob"))).replies =
        [.failed (Sample.fromAlice "bob") (.notFound "user 'bob' not found"),
          .duplicate (Sample.fromAlice "bob") 1000 (.conflict "duplicate message detected")] ∧
    (run (RelayServer.step id) Sample.relayServer
      (Sample.handled 0 (.relay "a:b" "phone" "c" [1]) ++
        Sample.handled 0 (.relay "a" "phone" "b" (utf8 "c:" ++ [1])))).replies =
        [.accepted (.relay "a:b" "phone" "c" [1]) ["phone"] 1000,
          .duplicate (.relay "a" "phone" "b" (utf8 "c:" ++ [1])) 1000 (.conflict "duplicate message detected")] := by
  decide

end PqMsg.Server
