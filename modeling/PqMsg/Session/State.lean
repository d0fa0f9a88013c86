/-
Session state and its operations (`session.rs`): construction from a handshake, snapshots, `encrypt` and `decrypt`.

Both operations mutate the session and may fail half-way; they are modelled as functions that return the session as it
is left, together with the result. The stages of the source are separate definitions, in its order:

- `encrypt`: `nextMessageKey` of the sending chain, the PQ sender step (`pqSend`), then `sealMessage` (associated data,
  padding, AEAD, framing), which does not touch the session.
- `decrypt`: `decodeWireMessage`, `incomingFields` (for version 2 through `decryptV2Header`), the suite check, the DH
  ratchet when the sender's DH key is new (`ratchetIfNew`), `takeMessageKey`, `openMessage` (associated data, AEAD,
  padding) and the PQ receiver step (`pqReceive`).

What `OsRng` draws is an argument: the KEM randomness and the nonce of `encrypt` (`EncryptRng`), the new DH secret of
`decrypt`.
-/
import PqMsg.Core.Aead
import PqMsg.Core.Wire
import PqMsg.Ratchet.Chain
import PqMsg.Ratchet.Pq

namespace PqMsg.Session

open Lib Tlv Wire Ratchet

variable {Secret : Type}

def infoInitiatorSend : String := "pqmsg-session-initiator-send"
def infoInitiatorRecv : String := "pqmsg-session-initiator-recv"
def infoInitiatorSendHk : String := "pqmsg-session-initiator-send-hk"
def infoInitiatorRecvHk : String := "pqmsg-session-initiator-recv-hk"

def adTagProtocolVersion : UInt16 := criticalType 0x1101
def adTagSuiteId : UInt16 := criticalType 0x1102
def adTagExternalAd : UInt16 := criticalType 0x1103
def adTagSenderDhPub : UInt16 := criticalType 0x1104
def adTagMsgNum : UInt16 := criticalType 0x1105
def adTagPrevChainLen : UInt16 := criticalType 0x1106
def adTagPqStepCt : UInt16 := criticalType 0x1107
def adTagPqTargetPubHash : UInt16 := criticalType 0x1108
def adTagPqNextPub : UInt16 := criticalType 0x1109

inductive SessionRole where
  | initiator
  | responder
deriving DecidableEq, Repr

structure SessionState (Secret : Type) where
  version : UInt16
  suiteId : UInt16
  negotiatedWireVersion : UInt16
  rootKey : Secret
  sendingChain : ChainState Secret
  receivingChain : ChainState Secret
  localDh : DhKeyPair Secret
  remoteDhPub : DhPublicKey
  prevChainLen : UInt32
  skipped : SkippedMessageKeys Secret
  pqState : Option (PqRatchetState Secret)
  pqKem : Option (Kem Secret)
  sendingHeaderKey : Option Secret
  receivingHeaderKey : Option Secret
  prevReceivingHeaderKey : Option Secret

/-! ## Construction -/

/-- the labels of the sending and the receiving chain -/
def SessionRole.chainInfo : SessionRole → String × String
  | .initiator => (infoInitiatorSend, infoInitiatorRecv)
  | .responder => (infoInitiatorRecv, infoInitiatorSend)

/-- the labels of the sending and the receiving header key -/
def SessionRole.headerInfo : SessionRole → String × String
  | .initiator => (infoInitiatorSendHk, infoInitiatorRecvHk)
  | .responder => (infoInitiatorRecvHk, infoInitiatorSendHk)

variable (P : Primitives Secret)

/-- `from_handshake_with_suite_and_wire_version` -/
def fromHandshake (role : SessionRole) (handshakeRootKey : Secret) (localDh : DhKeyPair Secret)
    (remoteDhPub : DhPublicKey) (suiteId wireVersion : UInt16) (maxSkipped : ℕ) : SessionState Secret where
  version := Wire.wireVersion
  suiteId := suiteId
  negotiatedWireVersion := wireVersion
  rootKey := handshakeRootKey
  sendingChain := ChainState.new (hkdfSha256_32 P handshakeRootKey none role.chainInfo.1)
  receivingChain := ChainState.new (hkdfSha256_32 P handshakeRootKey none role.chainInfo.2)
  localDh := localDh
  remoteDhPub := remoteDhPub
  prevChainLen := 0
  skipped := SkippedMessageKeys.new maxSkipped
  pqState := none
  pqKem := none
  sendingHeaderKey :=
    if wireVersion ≥ wireVersionV2 then some (hkdfSha256_32 P handshakeRootKey none role.headerInfo.1) else none
  receivingHeaderKey :=
    if wireVersion ≥ wireVersionV2 then some (hkdfSha256_32 P handshakeRootKey none role.headerInfo.2) else none
  prevReceivingHeaderKey := none

variable (s : SessionState Secret)

def SessionState.enablePqRatchet (state : PqRatchetState Secret) (kem : Kem Secret) : SessionState Secret :=
  { s with pqState := some state, pqKem := some kem }

/-- `from_handshake_with_suite_and_wire_version_with_pq_ratchet` -/
def fromHandshakeWithPqRatchet (role : SessionRole) (handshakeRootKey : Secret) (localDh : DhKeyPair Secret)
    (remoteDhPub : DhPublicKey) (suiteId wireVersion : UInt16) (maxSkipped : ℕ) (pqRatchet : PqRatchetState Secret)
    (pqKem : Kem Secret) : SessionState Secret :=
  (fromHandshake P role handshakeRootKey localDh remoteDhPub suiteId wireVersion maxSkipped).enablePqRatchet
    pqRatchet pqKem

/-! ## Snapshots -/

/-- the session's fields without the KEM object; the skipped keys as a list -/
structure SessionSnapshot (Secret : Type) where
  version : UInt16
  suiteId : UInt16
  negotiatedWireVersion : UInt16
  rootKey : Secret
  sendingChain : ChainState Secret
  receivingChain : ChainState Secret
  localDh : DhKeyPair Secret
  remoteDhPub : DhPublicKey
  prevChainLen : UInt32
  maxSkipped : ℕ
  skipped : List (SkippedKeyId × Secret)
  pqRatchet : Option (PqRatchetState Secret)
  sendingHeaderKey : Option Secret
  receivingHeaderKey : Option Secret
  prevReceivingHeaderKey : Option Secret

def SessionState.snapshot : SessionSnapshot Secret where
  version := s.version
  suiteId := s.suiteId
  negotiatedWireVersion := s.negotiatedWireVersion
  rootKey := s.rootKey
  sendingChain := s.sendingChain
  receivingChain := s.receivingChain
  localDh := s.localDh
  remoteDhPub := s.remoteDhPub
  prevChainLen := s.prevChainLen
  maxSkipped := s.skipped.maxEntries
  skipped := s.skipped.entries
  pqRatchet := s.pqState
  sendingHeaderKey := s.sendingHeaderKey
  receivingHeaderKey := s.receivingHeaderKey
  prevReceivingHeaderKey := s.prevReceivingHeaderKey

def fromSnapshotWithKem (snapshot : SessionSnapshot Secret) (kem : Option (Kem Secret)) : SessionState Secret where
  version := snapshot.version
  suiteId := snapshot.suiteId
  negotiatedWireVersion := snapshot.negotiatedWireVersion
  rootKey := snapshot.rootKey
  sendingChain := snapshot.sendingChain
  receivingChain := snapshot.receivingChain
  localDh := snapshot.localDh
  remoteDhPub := snapshot.remoteDhPub
  prevChainLen := snapshot.prevChainLen
  skipped := SkippedMessageKeys.fromEntries snapshot.maxSkipped snapshot.skipped
  pqState := snapshot.pqRatchet
  pqKem := kem
  sendingHeaderKey := snapshot.sendingHeaderKey
  receivingHeaderKey := snapshot.receivingHeaderKey
  prevReceivingHeaderKey := snapshot.prevReceivingHeaderKey

/-! ## Associated data -/

/-- the three optional PQ fields of a message -/
structure PqFields where
  stepCt : Option Bytes
  targetPubHash : Option Bytes
  nextPublicKey : Option Bytes
deriving DecidableEq, Repr

def PqFields.none : PqFields := ⟨.none, .none, .none⟩

/-- the header fields that the associated data binds -/
structure AdHeader where
  version : UInt16
  suiteId : UInt16
  senderDhPub : DhPublicKey
  msgNum : UInt32
  prevChainLen : UInt32
  pq : PqFields
deriving DecidableEq, Repr

def AdHeader.records (h : AdHeader) (externalAd : Bytes) : List TlvRecord :=
  [⟨adTagProtocolVersion, be16 h.version⟩, ⟨adTagSuiteId, be16 h.suiteId⟩, ⟨adTagSenderDhPub, h.senderDhPub.1⟩,
    ⟨adTagMsgNum, be32 h.msgNum⟩, ⟨adTagPrevChainLen, be32 h.prevChainLen⟩, ⟨adTagExternalAd, externalAd⟩] ++
  optRecord adTagPqStepCt h.pq.stepCt ++ optRecord adTagPqTargetPubHash h.pq.targetPubHash ++
  optRecord adTagPqNextPub h.pq.nextPublicKey

def sessionAssociatedData (h : AdHeader) (externalAd : Bytes) : Except CoreError Bytes :=
  Tlv.encode (h.records externalAd)

/-! ## Encryption -/

/-- what one `encrypt` call draws: KEM encapsulation and key generation randomness, and the AEAD nonce -/
structure EncryptRng where
  encaps : Bytes
  keypair : Bytes
  nonce : Nonce
deriving DecidableEq, Repr

/-- the PQ part of `encrypt`: the updated session and the PQ fields of the message -/
def SessionState.pqSend (rng : EncryptRng) (msgNum : UInt32) : Except CoreError (SessionState Secret × PqFields) :=
  match s.pqState, s.pqKem with
  | some state, some kem =>
    match senderStep P state kem s.rootKey msgNum rng.encaps rng.keypair with
    | .error e => .error e
    | .ok none => .ok (s, .none)
    | .ok (some step) =>
      .ok ({ s with rootKey := step.rootKey, pqState := some (state.commitLocalKeyRotation step.nextLocalKeypair) },
        ⟨some step.ciphertext, some step.targetPublicKeyHash, some step.nextLocalKeypair.publicKey⟩)
  | _, _ => .ok (s, .none)

def SessionState.adHeader (msgNum : UInt32) (pq : PqFields) : AdHeader :=
  ⟨s.version, s.suiteId, s.localDh.publicKey, msgNum, s.prevChainLen, pq⟩

/-- the rest of `encrypt`: associated data, padding, AEAD and framing -/
def SessionState.sealMessage (nonce : Nonce) (messageKey : Secret) (msgNum : UInt32) (pq : PqFields)
    (message ad : Bytes) : Except CoreError Bytes :=
  match sessionAssociatedData (s.adHeader msgNum pq) ad with
  | .error e => .error e
  | .ok associatedData =>
    let plaintext :=
      if s.negotiatedWireVersion ≥ wireVersionV2 then Aead.padPlaintext message Aead.paddingBlockSize else message
    match Aead.encrypt P messageKey plaintext associatedData nonce with
    | .error e => .error e
    | .ok envelope =>
      if s.negotiatedWireVersion ≥ wireVersionV2 then
        match (⟨s.localDh.publicKey, msgNum, s.prevChainLen, pq.stepCt, pq.targetPubHash, pq.nextPublicKey⟩ :
            HeaderPlaintext).encode with
        | .error e => .error e
        | .ok headerBytes =>
          let headerBytes := match s.sendingHeaderKey with
            | some hk => encryptHeader P hk headerBytes
            | none => headerBytes
          (⟨wireVersionV2, s.suiteId, headerBytes, envelope.nonce, envelope.ciphertext⟩ : WireMessageV2).encode
      else
        (⟨s.version, s.suiteId, s.localDh.publicKey, msgNum, s.prevChainLen, pq.stepCt, pq.targetPubHash,
          pq.nextPublicKey, envelope.nonce, envelope.ciphertext⟩ : WireMessage).encode

def SessionState.encrypt (rng : EncryptRng) (message ad : Bytes) : SessionState Secret × Except CoreError Bytes :=
  match s.sendingChain.nextMessageKey P with
  | .error e => (s, .error e)
  | .ok (msgNum, messageKey, chain) =>
    match SessionState.pqSend P { s with sendingChain := chain } rng msgNum with
    | .error e => ({ s with sendingChain := chain }, .error e)
    | .ok (s', pq) => (s', s'.sealMessage P rng.nonce messageKey msgNum pq message ad)

/-! ## Decryption -/

/-- the fields `decrypt` extracts from either wire version, and whether the message was framed as version 2 -/
structure Incoming where
  header : AdHeader
  aeadNonce : Nonce
  ciphertext : Bytes
  isV2 : Bool
deriving DecidableEq, Repr

/-- the current receiving header key, then the previous one, then the header as plaintext -/
def SessionState.decryptV2Header (encryptedHeader : Bytes) : Except CoreError HeaderPlaintext :=
  match s.receivingHeaderKey.bind (fun hk => tryDecryptHeader P hk encryptedHeader) with
  | some header => .ok header
  | none =>
    match s.prevReceivingHeaderKey.bind (fun hk => tryDecryptHeader P hk encryptedHeader) with
    | some header => .ok header
    | none => HeaderPlaintext.decode encryptedHeader

def SessionState.incomingFields : DecodedWireMessage → Except CoreError Incoming
  | .v1 w => .ok ⟨⟨w.version, w.suiteId, w.senderDhPub, w.msgNum, w.prevChainLen,
      ⟨w.pqStepCt, w.pqTargetPubHash, w.pqNextPublicKey⟩⟩, w.aeadNonce, w.ciphertext, false⟩
  | .v2 w =>
    match s.decryptV2Header P w.encryptedHeader with
    | .error e => .error e
    | .ok h => .ok ⟨⟨Wire.wireVersion, w.suiteId, h.senderDhPub, h.msgNum, h.prevChainLen,
        ⟨h.pqStepCt, h.pqTargetPubHash, h.pqNextPublicKey⟩⟩, w.aeadNonce, w.ciphertext, true⟩

/-- `skip_until`: cache the receiving keys below `untilMsgNum` under `dhPub` -/
def SessionState.skipUntil (dhPub : DhPublicKey) (untilMsgNum : UInt32) : SessionState Secret × Except CoreError Unit :=
  match skipLoop P dhPub (untilMsgNum.toNat - s.receivingChain.nextMsgNum.toNat) s.receivingChain s.skipped with
  | ((chain, skipped), r) => ({ s with receivingChain := chain, skipped := skipped }, r)

variable (newSecret : Secret)

/-- `apply_dh_ratchet`; `newSecret` is the secret of the key pair it generates -/
def SessionState.applyDhRatchet (newRemoteDhPub : DhPublicKey) : SessionState Secret :=
  let recvStep := dhRootStep P s.rootKey s.localDh.secret newRemoteDhPub
  let localDh := generateKeypair P newSecret
  let sendStep := dhRootStep P recvStep.rootKey localDh.secret newRemoteDhPub
  { s with
    rootKey := sendStep.rootKey
    receivingChain := ChainState.new recvStep.chainKey
    prevReceivingHeaderKey := s.receivingHeaderKey
    receivingHeaderKey := some recvStep.headerKey
    prevChainLen := s.sendingChain.nextMsgNum
    remoteDhPub := newRemoteDhPub
    pqState := s.pqState.map PqRatchetState.resetRemoteUpdateTracking
    localDh := localDh
    sendingChain := ChainState.new sendStep.chainKey
    sendingHeaderKey := some sendStep.headerKey }

/-- the DH ratchet of `decrypt`, taken when the sender's DH key is not the one held -/
def SessionState.ratchetIfNew (h : AdHeader) : SessionState Secret × Except CoreError Unit :=
  if h.senderDhPub ≠ s.remoteDhPub then
    match s.skipUntil P s.remoteDhPub h.prevChainLen with
    | (s', .error e) => (s', .error e)
    | (s', .ok ()) => (s'.applyDhRatchet P newSecret h.senderDhPub, .ok ())
  else (s, .ok ())

/-- the message key: from the cache below the receiving chain, else from the chain after skipping up to it -/
def SessionState.takeMessageKey (h : AdHeader) : SessionState Secret × Except CoreError Secret :=
  if h.msgNum < s.receivingChain.nextMsgNum then
    match s.skipped.take ⟨h.senderDhPub, h.msgNum⟩ with
    | (some key, skipped) => ({ s with skipped := skipped }, .ok key)
    | (none, skipped) => ({ s with skipped := skipped }, .error .messageKeyUnavailable)
  else
    match s.skipUntil P h.senderDhPub h.msgNum with
    | (s', .error e) => (s', .error e)
    | (s', .ok ()) =>
      match s'.receivingChain.nextMessageKey P with
      | .error e => (s', .error e)
      | .ok (_, key, chain) => ({ s' with receivingChain := chain }, .ok key)

/-- associated data, AEAD and padding removal of `decrypt` -/
def openMessage (messageKey : Secret) (inc : Incoming) (ad : Bytes) : Except CoreError Bytes :=
  match sessionAssociatedData inc.header ad with
  | .error e => .error e
  | .ok aad =>
    match Aead.decrypt P messageKey ⟨inc.aeadNonce, inc.ciphertext, aad⟩ with
    | .error e => .error e
    | .ok decrypted => if inc.isV2 then Aead.unpadPlaintext decrypted else .ok decrypted

/-- the PQ receiver step of `decrypt` -/
def SessionState.pqReceive (h : AdHeader) : Except CoreError (SessionState Secret) :=
  match h.pq.stepCt with
  | none => .ok s
  | some ct =>
    match s.pqState, s.pqKem with
    | some state, some kem =>
      match receiverStep P state kem s.rootKey ct h.pq.targetPubHash h.pq.nextPublicKey h.msgNum with
      | .error e => .error e
      | .ok (rootKey, state') => .ok { s with rootKey := rootKey, pqState := some state' }
    | _, _ => .error .pqRatchetDisabled

/-- `decrypt` after the fields are known -/
def SessionState.decryptIncoming (inc : Incoming) (ad : Bytes) : SessionState Secret × Except CoreError Bytes :=
  if inc.header.suiteId ≠ s.suiteId then (s, .error (.unsupportedAlgorithm "wire.suite_id"))
  else
    match s.ratchetIfNew P newSecret inc.header with
    | (s1, .error e) => (s1, .error e)
    | (s1, .ok ()) =>
      match s1.takeMessageKey P inc.header with
      | (s2, .error e) => (s2, .error e)
      | (s2, .ok messageKey) =>
        match openMessage P messageKey inc ad with
        | .error e => (s2, .error e)
        | .ok plaintext =>
          match s2.pqReceive P inc.header with
          | .error e => (s2, .error e)
          | .ok s3 => (s3, .ok plaintext)

def SessionState.decrypt (wireBytes ad : Bytes) : SessionState Secret × Except CoreError Bytes :=
  match decodeWireMessage wireBytes with
  | .error e => (s, .error e)
  | .ok decoded =>
    match s.incomingFields P decoded with
    | .error e => (s, .error e)
    | .ok inc => s.decryptIncoming P newSecret inc ad

end PqMsg.Session
