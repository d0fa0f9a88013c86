/-
The sparse post-quantum ratchet (`ratchet/pq.rs`).

A sender step encapsulates to the remote KEM key, mixes the shared secret into the root key and generates the next
local key pair; `commitLocalKeyRotation` then moves the old local key into a bounded history, newest first. A receiver
step looks the addressed local key up by the hash of its public key, decapsulates, mixes, and takes over the advertised
next remote key if the message is not older than the one that set the current remote key.

`pqKeys_order_independent`: the keys after any sequence of receiver steps and local rotations.
-/
import PqMsg.Core.Primitives

namespace PqMsg.Ratchet

open List

variable {Secret : Type}

def infoPqStep : String := "pqmsg-ratchet-pq-step"

def defaultPqRatchetInterval : UInt32 := 1
def defaultPqRatchetKeyHistory : ℕ := 4

/-- a local KEM key pair; the source's `PqLocalKeyRecord` and the current `local_public_key`, `local_secret_key` -/
abbrev PqLocalKeyRecord (Secret : Type) := KemKeyPair Secret

structure PqRatchetState (Secret : Type) where
  interval : UInt32
  localKey : PqLocalKeyRecord Secret
  remotePublicKey : Bytes
  localKeyHistory : List (PqLocalKeyRecord Secret)
  maxKeyHistory : ℕ
  lastRemoteUpdateMsgNum : UInt32

open PqRatchetState

structure PqStepOutput (Secret : Type) where
  ciphertext : Bytes
  rootKey : Secret
  targetPublicKeyHash : Bytes
  nextLocalKeypair : KemKeyPair Secret

def hashPublicKey (P : Primitives Secret) (publicKey : Bytes) : Bytes := P.sha256 publicKey

def mixRootWithPq (P : Primitives Secret) (rootKey ssPq : Secret) : Secret :=
  hkdfSha256_32 P ssPq (some rootKey) infoPqStep

namespace PqRatchetState

def shouldStep (st : PqRatchetState Secret) (msgNum : UInt32) : Bool :=
  decide (st.interval > 0) && ((msgNum + 1) % st.interval == 0)

def commitLocalKeyRotation (st : PqRatchetState Secret) (next : KemKeyPair Secret) : PqRatchetState Secret :=
  { st with localKeyHistory := (st.localKey :: st.localKeyHistory).take st.maxKeyHistory, localKey := next }

def applyRemotePublicKeyUpdate (st : PqRatchetState Secret) (nextRemotePublicKey : Bytes) (msgNum : UInt32) :
    PqRatchetState Secret :=
  if msgNum ≥ st.lastRemoteUpdateMsgNum then
    { st with remotePublicKey := nextRemotePublicKey, lastRemoteUpdateMsgNum := msgNum }
  else st

def resetRemoteUpdateTracking (st : PqRatchetState Secret) : PqRatchetState Secret :=
  { st with lastRemoteUpdateMsgNum := 0 }

/-- without a target hash the current key is used; else the first key with that hash, current key first -/
def selectLocalSecretKey (P : Primitives Secret) (st : PqRatchetState Secret) (target : Option Bytes) : Except CoreError Secret :=
  match target with
  | none => .ok st.localKey.secretKey
  | some h =>
    match (st.localKey :: st.localKeyHistory).find? (fun r => hashPublicKey P r.publicKey = h) with
    | some r => .ok r.secretKey
    | none => .error (.messageParsing "pq ratchet target key unavailable")

end PqRatchetState

/-- `sender_step`; `encapsRng` and `keypairRng` are what the KEM draws -/
def senderStep (P : Primitives Secret) (st : PqRatchetState Secret) (kem : Kem Secret) (rootKey : Secret)
    (msgNum : UInt32) (encapsRng keypairRng : Bytes) : Except CoreError (Option (PqStepOutput Secret)) :=
  if st.shouldStep msgNum = false then .ok none
  else
    match kem.encapsulate st.remotePublicKey encapsRng with
    | .error e => .error e
    | .ok encapsulated =>
      match kem.keypair keypairRng with
      | .error e => .error e
      | .ok next => .ok (some ⟨encapsulated.ciphertext, mixRootWithPq P rootKey encapsulated.sharedSecret,
          hashPublicKey P st.remotePublicKey, next⟩)

/-- `receiver_step`: the next root key and the updated ratchet state -/
def receiverStep (P : Primitives Secret) (st : PqRatchetState Secret) (kem : Kem Secret) (rootKey : Secret)
    (ciphertext : Bytes) (target nextRemote : Option Bytes) (msgNum : UInt32) :
    Except CoreError (Secret × PqRatchetState Secret) :=
  match st.selectLocalSecretKey P target with
  | .error e => .error e
  | .ok secretKey =>
    match kem.decapsulate secretKey ciphertext with
    | .error e => .error e
    | .ok ssPq =>
      .ok (mixRootWithPq P rootKey ssPq, nextRemote.elim st (st.applyRemotePublicKeyUpdate · msgNum))

/-! ## What a step does -/

variable {P : Primitives Secret} {st : PqRatchetState Secret} {kem : Kem Secret} {rk : Secret} {n : UInt32} {r1 r2 : Bytes}

lemma senderStep_none (h : senderStep P st kem rk n r1 r2 = .ok none) : st.shouldStep n = false := by
  unfold senderStep at h
  split_ifs at h with hs
  · exact hs
  · split at h
    · cases h
    · split at h <;> cases h

lemma receiverStep_ok {st' : PqRatchetState Secret} {rk' : Secret} {ct : Bytes} {target next : Option Bytes}
    (h : receiverStep P st kem rk ct target next n = .ok (rk', st')) :
    ∃ sk ss, st.selectLocalSecretKey P target = .ok sk ∧ kem.decapsulate sk ct = .ok ss ∧
      rk' = mixRootWithPq P rk ss ∧ st' = next.elim st (st.applyRemotePublicKeyUpdate · n) := by
  unfold receiverStep at h
  split at h
  · cases h
  · rename_i sk hsk
    split at h
    · cases h
    · rename_i ss hss
      simp only [Except.ok.injEq, Prod.mk.injEq] at h
      exact ⟨sk, ss, hsk, hss, h.1.symm, h.2.symm⟩

/-! ## Many steps -/

/-- a PQ step of the other party: what the message carries -/
structure PqMessage where
  ciphertext : Bytes
  target : Option Bytes
  nextRemote : Bytes
  msgNum : UInt32
deriving DecidableEq

inductive PqEvent (Secret : Type) where
  | receive (m : PqMessage)
  | rotate (next : KemKeyPair Secret)

variable (P kem) in
/-- ratchet state and root key after an event; the root key does not matter for what follows -/
def PqEvent.step (s : PqRatchetState Secret × Secret) : PqEvent Secret → Except CoreError (PqRatchetState Secret × Secret)
  | .receive m => do
    let (rootKey, st) ← receiverStep P s.1 kem s.2 m.ciphertext m.target (some m.nextRemote) m.msgNum
    return (st, rootKey)
  | .rotate next => .ok (s.1.commitLocalKeyRotation next, s.2)

def received (events : List (PqEvent Secret)) : List PqMessage :=
  events.filterMap fun | .receive m => some m | .rotate _ => none

def rotated (events : List (PqEvent Secret)) : List (KemKeyPair Secret) :=
  events.filterMap fun | .rotate next => some next | .receive _ => none

/-- the local keys, newest first -/
def PqRatchetState.localKeys (st : PqRatchetState Secret) : List (PqLocalKeyRecord Secret) := st.localKey :: st.localKeyHistory

variable {s s' : PqRatchetState Secret × Secret} {events : List (PqEvent Secret)}

lemma step_receive {m : PqMessage} (h : PqEvent.step P kem s (.receive m) = .ok s') :
    s'.1 = s.1.applyRemotePublicKeyUpdate m.nextRemote m.msgNum := by
  obtain ⟨⟨rootKey, st⟩, hstep, hnext⟩ := bind_ok.1 h
  obtain ⟨-, -, -, -, -, hst⟩ := receiverStep_ok hstep
  cases hnext
  exact hst

/-- the remote key is the one of the highest number so far -/
lemma run_remote (h : events.foldlM (PqEvent.step P kem) s = .ok s') :
    (∀ m ∈ received events, m.msgNum ≤ s'.1.lastRemoteUpdateMsgNum) ∧
    s.1.lastRemoteUpdateMsgNum ≤ s'.1.lastRemoteUpdateMsgNum ∧
    ((∃ m ∈ received events, m.msgNum = s'.1.lastRemoteUpdateMsgNum ∧ m.nextRemote = s'.1.remotePublicKey) ∨
      s'.1.lastRemoteUpdateMsgNum = s.1.lastRemoteUpdateMsgNum ∧ s'.1.remotePublicKey = s.1.remotePublicKey ∧
        ∀ m ∈ received events, m.msgNum < s.1.lastRemoteUpdateMsgNum) := by
  induction events generalizing s with
  | nil =>
    cases h
    exact ⟨nofun, UInt32.le_refl _, .inr ⟨rfl, rfl, nofun⟩⟩
  | cons event events ih =>
    obtain ⟨next, hstep, hrest⟩ := bind_ok.1 h
    obtain ⟨hle, hmono, hlast⟩ := ih hrest
    cases event with
    | rotate key =>
      cases hstep
      exact ⟨hle, hmono, hlast⟩
    | receive m =>
      have hreceived : received (.receive m :: events) = m :: received events := rfl
      simp only [step_receive hstep, applyRemotePublicKeyUpdate] at hmono hlast
      simp only [hreceived, forall_mem_cons, exists_mem_cons_iff]
      split_ifs at hmono hlast with hnew
      · refine ⟨⟨hmono, hle⟩, UInt32.le_trans hnew hmono, .inl ?_⟩
        rcases hlast with hm | ⟨hnum, hkey, -⟩
        · exact .inr hm
        · exact .inl ⟨hnum.symm, hkey.symm⟩
      · have hlt := UInt32.not_le.1 hnew
        refine ⟨⟨UInt32.le_trans (UInt32.le_of_lt hlt) hmono, hle⟩, hmono, ?_⟩
        rcases hlast with hm | ⟨hnum, hkey, hall⟩
        · exact .inl (.inr hm)
        · exact .inr ⟨hnum, hkey, hlt, hall⟩

/-- the local keys are the newest ones of all that there were -/
lemma run_localKeys (h : events.foldlM (PqEvent.step P kem) s = .ok s') (hs : s.1.localKeyHistory.length ≤ s.1.maxKeyHistory) :
    s'.1.localKeys = ((rotated events).reverse ++ s.1.localKeys).take (s.1.maxKeyHistory + 1) := by
  induction events generalizing s with
  | nil =>
    cases h
    exact (take_of_length_le (Nat.succ_le_succ hs)).symm
  | cons event events ih =>
    obtain ⟨next, hstep, hrest⟩ := bind_ok.1 h
    cases event with
    | receive m =>
      have hsame : next.1.localKey = s.1.localKey ∧ next.1.localKeyHistory = s.1.localKeyHistory ∧
          next.1.maxKeyHistory = s.1.maxKeyHistory := by
        rw [step_receive hstep, applyRemotePublicKeyUpdate]
        split_ifs <;> exact ⟨rfl, rfl, rfl⟩
      obtain ⟨hkey, hhistory, hmax⟩ := hsame
      rw [ih hrest (by rwa [hhistory, hmax]), hmax, localKeys, hkey, hhistory]
      rfl
    | rotate key =>
      cases hstep
      rw [ih hrest (by simp [commitLocalKeyRotation])]
      have hrotated : rotated (.rotate key :: events) = key :: rotated events := rfl
      rw [hrotated, reverse_cons, append_assoc, singleton_append, localKeys,
        commitLocalKeyRotation, ← take_succ_cons, take_append, take_append, take_take,
        min_eq_left (Nat.sub_le ..)]
      rfl

/-- **Order does not matter for PQ keys.** From the start of a DH epoch, with any events whose receiver steps succeed and whose
message numbers differ: the remote key is the one that the highest number advertised, and the secrets that can be selected are
those of the current key and of the last rotated-out ones, newest first. -/
theorem pqKeys_order_independent (P : Primitives Secret) (kem : Kem Secret) (st st' : PqRatchetState Secret) (rk rk' : Secret)
    (events : List (PqEvent Secret)) (hs : st.localKeyHistory.length ≤ st.maxKeyHistory)
    (hnums : ((received events).map PqMessage.msgNum).Nodup)
    (h : events.foldlM (PqEvent.step P kem) (st.resetRemoteUpdateTracking, rk) = .ok (st', rk')) :
    (∀ m ∈ received events, (∀ m' ∈ received events, m'.msgNum ≤ m.msgNum) → st'.remotePublicKey = m.nextRemote) ∧
    (received events = [] → st'.remotePublicKey = st.remotePublicKey) ∧
    st'.selectLocalSecretKey P none = .ok (((rotated events).reverse ++ [st.localKey]).head (by simp)).secretKey ∧
    ∀ hash sk, st'.selectLocalSecretKey P (some hash) = .ok sk ↔ ∃ key,
      (((rotated events).reverse ++ st.localKeys).take (st.maxKeyHistory + 1)).find? (hashPublicKey P ·.publicKey = hash) =
        some key ∧ key.secretKey = sk := by
  obtain ⟨hle, -, hlast⟩ := run_remote h
  have hkeys := run_localKeys h hs
  refine ⟨fun m hm hmax => ?_, fun hnil => ?_, ?_, fun hash sk => ?_⟩
  · rcases hlast with ⟨m', hm', hnum, hkey⟩ | ⟨-, -, hall⟩
    · have hsame : m'.msgNum = m.msgNum := UInt32.le_antisymm (hmax m' hm') (hnum ▸ hle m hm)
      rw [← hkey, inj_on_of_nodup_map hnums hm' hm hsame]
    · exact absurd (hall m hm) (UInt32.not_lt.2 (UInt32.zero_le))
  · rcases hlast with ⟨m, hm, -⟩ | ⟨-, hkey, -⟩
    · rw [hnil] at hm
      cases hm
    · exact hkey
  · have hhead := congrArg List.head? hkeys
    rw [List.head?_take, if_neg (Nat.succ_ne_zero _)] at hhead
    change some st'.localKey = _ at hhead
    have : ((rotated events).reverse ++ [st.localKey]).head? = some st'.localKey := by
      rw [hhead]
      cases (rotated events).reverse <;> rfl
    rw [List.head?_eq_some_head (by simp)] at this
    rw [Option.some.inj this]
    rfl
  · change _ ↔ ∃ key, (((rotated events).reverse ++ st.resetRemoteUpdateTracking.localKeys).take
      (st.resetRemoteUpdateTracking.maxKeyHistory + 1)).find? _ = some key ∧ _
    rw [← hkeys]
    simp only [selectLocalSecretKey]
    change (match st'.localKeys.find? _ with | some r => _ | none => _) = _ ↔ _
    cases st'.localKeys.find? (fun r => decide (hashPublicKey P r.publicKey = hash)) <;> simp

/-- a key rotation, and two messages that arrive out of order -/
def crossed : List (PqEvent UInt32) := [.rotate ⟨[3], 3⟩, .receive ⟨[4], none, [5], 5⟩, .receive ⟨[6], none, [7], 3⟩]

theorem pqKeys_order_independent_crossed :
    ∃ s, crossed.foldlM (PqEvent.step Sample.primitives Sample.kem) (⟨1, ⟨[1], 1⟩, [2], [], 2, 0⟩, 0) = .ok s ∧
      s.1.remotePublicKey = [5] := by
  obtain ⟨s, h⟩ := isOk_iff.1 (show (crossed.foldlM (PqEvent.step Sample.primitives Sample.kem)
    (⟨1, ⟨[1], 1⟩, [2], [], 2, 0⟩, 0)).isOk = true by decide)
  exact ⟨s, h, (pqKeys_order_independent _ _ ⟨1, ⟨[1], 1⟩, [2], [], 2, 0⟩ _ _ _ _ (Nat.zero_le _) (by decide) h).1
    ⟨[4], none, [5], 5⟩ (by decide) (by decide)⟩

end PqMsg.Ratchet
