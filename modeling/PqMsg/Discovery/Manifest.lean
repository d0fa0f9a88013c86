/-
The manifest of the contact discovery service, and the three programs that hash and sign or check it: the service
(`pqmsg-discovery/src/main.rs`), the web client (`crypto.ts`) and the Android library (`pqmsg-android/src/lib.rs`).

The service signs the text of its manifest and of its attestation. The clients write the values that they have received as a
text again and check the signature over that. The contract of a manifest is the manifest without its two times; its hash is
in the attestation, in tickets and in the capabilities of the app server, and each side computes it on its own.

The service writes a struct, field by field. The web client writes an object literal with the fields in the same order. The
Android library writes the manifest and the attestation from structs with the fields in the same order, but the contract
from `json!`, whose map is sorted by key.

- `webManifestPayload_eq`, `webContractPayload_eq`, `webAttestationPayload_eq`: the web client writes what the service has
  written, for every configuration.
- `androidContract_ne`: the Android library never does, for the contract.
- `contracts_agree_iff`: the hashes of the three agree on no manifest; those of the service and the web client agree on
  every manifest, and both clients accept the signatures of the service.

Reading JSON gives the values that were written: a `null` that Gson leaves out is read as `None`, and the numbers of a manifest
are small. The other checks of the clients compare with expected values and times and are left out.
-/
import PqMsg.Lib.JsonText
import PqMsg.Server.Text

namespace PqMsg.Discovery.Manifest

open Lib.JsonText Handshake List

/-! ## The configuration of the service -/

/-- the registers that `normalize_attestation_pcr_key` lets through -/
inductive Pcr where
  | pcr0
  | pcr1
  | pcr2
  | pcr3
  | pcr4
  | pcr8
deriving DecidableEq

def Pcr.name : Pcr → String
  | .pcr0 => "pcr0"
  | .pcr1 => "pcr1"
  | .pcr2 => "pcr2"
  | .pcr3 => "pcr3"
  | .pcr4 => "pcr4"
  | .pcr8 => "pcr8"

/-- the `BTreeMap` that `parse_optional_attestation_pcrs_sha384_env` returns -/
structure PcrMap where
  entries : List (Pcr × String)
  sorted : entries.Pairwise fun a b => a.1.name < b.1.name
  nonempty : entries ≠ []

def PcrMap.pairs (pcrs : PcrMap) : List (String × String) := pcrs.entries.map fun e => (e.1.name, e.2)

/-- third-party code -/
structure Deps where
  sha256 : Bytes → Bytes
  base64Encode : Bytes → String
  /-- `base64::STANDARD` -/
  base64Decode : String → Option Bytes
  /-- `base64ToBytes` of the web client -/
  base64ToBytes : String → Option Bytes
  ed25519PublicKey : ByteArr 32 → ByteArr 32
  ed25519Sign : ByteArr 32 → Bytes → ByteArr 64
  /-- `VerifyingKey::from_bytes` accepts the key -/
  dalekKeyValid : ByteArr 32 → Bool
  /-- `ed25519_dalek`: key, message, signature -/
  dalekVerify : ByteArr 32 → Bytes → ByteArr 64 → Bool
  /-- `@noble/curves`: signature, message, key -/
  nobleVerify : Bytes → Bytes → Bytes → Bool
  /-- `localeCompare`, as "not greater" -/
  localeLe : String → String → Bool

structure AppState where
  ticketIssuerKey : ByteArr 32
  manifestSigningKey : ByteArr 32
  attestationMode : String
  attestationVerifier : Option String
  enclaveMeasurementHex : Option String
  attestationPcrsSha384 : Option PcrMap
  attestationDocumentBase64 : Option String
  attestationDocumentSha256 : Option String
  oprfPublicKeyRistretto255B64 : String
  hostReleaseId : String
  enclaveReleaseId : String

def ticketMaxTtlSeconds : ℕ := 300
def lookupProtocol : String := "attested_enclave_voprf_directory_v1"
def privacyMode : String := "enclave_backed_private_discovery_v1"
def matchResultFormat : String := "contact_invite_token"
def oprfSuite : String := "ristretto255-sha512-v1"
def evaluationProofMode : String := "dleq_per_element_v1"
def attestationDocumentFormat : String := "opaque_b64_v1"
def attestationChallengeMode : String := "nonce_b64_required_v1"
def directoryBackend : String := "attested_enclave_directory_v1"
def hostEnclaveProtocolVersion : ℕ := 1

/-! ## Payloads -/

structure ManifestPayload where
  service : String
  protocolVersion : ℕ
  attestationMode : String
  attestationVerifier : Option String
  enclaveMeasurementHex : Option String
  attestationPcrsSha384 : Option PcrMap
  attestationDocumentFormat : Option String
  attestationDocumentSha256 : Option String
  attestationChallengeMode : Option String
  ticketFormat : String
  ticketIssuerEd25519Pub : String
  ticketMaxTtlSeconds : ℕ
  lookupProtocol : String
  privacyMode : String
  directoryBackend : String
  hostEnclaveProtocolVersion : ℕ
  hostReleaseId : String
  enclaveReleaseId : String
  matchResultFormat : String
  oprfSuite : String
  evaluationProofMode : String
  oprfPublicKeyRistretto255 : String
  signedAt : String
  expiresAt : String

structure ManifestResponse where
  payload : ManifestPayload
  manifestIssuerEd25519Pub : String
  manifestSignatureEd25519 : String

structure AttestationPayload where
  attestationMode : String
  attestationVerifier : String
  enclaveMeasurementHex : String
  attestedPcrsSha384 : Option PcrMap
  directoryBackend : String
  hostEnclaveProtocolVersion : ℕ
  hostReleaseId : String
  enclaveReleaseId : String
  manifestContractSha256 : String
  attestedOprfPublicKeyRistretto255 : String
  documentFormat : String
  documentBase64 : String
  documentSha256 : String
  publishedAt : String
  challengeNonceBase64 : String

structure AttestationResponse where
  payload : AttestationPayload
  attestationSignatureEd25519 : String

def pcrValue : Option PcrMap → Value
  | none => .null
  | some pcrs => .map pcrs.pairs

/-- the fields of a contract, in the order in which all three programs list them -/
def contractObject (p : ManifestPayload) (pcrs : Value) : Object :=
  [("service", .text p.service),
    ("protocol_version", .number p.protocolVersion),
    ("attestation_mode", .text p.attestationMode),
    ("attestation_verifier", .ofOption p.attestationVerifier),
    ("enclave_measurement_hex", .ofOption p.enclaveMeasurementHex),
    ("attestation_pcrs_sha384", pcrs),
    ("attestation_document_format", .ofOption p.attestationDocumentFormat),
    ("attestation_document_sha256", .ofOption p.attestationDocumentSha256),
    ("attestation_challenge_mode", .ofOption p.attestationChallengeMode),
    ("ticket_format", .text p.ticketFormat),
    ("ticket_issuer_ed25519_pub", .text p.ticketIssuerEd25519Pub),
    ("ticket_max_ttl_seconds", .number p.ticketMaxTtlSeconds),
    ("lookup_protocol", .text p.lookupProtocol),
    ("privacy_mode", .text p.privacyMode),
    ("directory_backend", .text p.directoryBackend),
    ("host_enclave_protocol_version", .number p.hostEnclaveProtocolVersion),
    ("host_release_id", .text p.hostReleaseId),
    ("enclave_release_id", .text p.enclaveReleaseId),
    ("match_result_format", .text p.matchResultFormat),
    ("oprf_suite", .text p.oprfSuite),
    ("evaluation_proof_mode", .text p.evaluationProofMode),
    ("oprf_public_key_ristretto255", .text p.oprfPublicKeyRistretto255)]

def manifestObject (p : ManifestPayload) (pcrs : Value) : Object :=
  contractObject p pcrs ++ [("signed_at", .text p.signedAt), ("expires_at", .text p.expiresAt)]

def attestationObject (p : AttestationPayload) (pcrs : Value) : Object :=
  [("attestation_mode", .text p.attestationMode),
    ("attestation_verifier", .text p.attestationVerifier),
    ("enclave_measurement_hex", .text p.enclaveMeasurementHex),
    ("attested_pcrs_sha384", pcrs),
    ("directory_backend", .text p.directoryBackend),
    ("host_enclave_protocol_version", .number p.hostEnclaveProtocolVersion),
    ("host_release_id", .text p.hostReleaseId),
    ("enclave_release_id", .text p.enclaveReleaseId),
    ("manifest_contract_sha256", .text p.manifestContractSha256),
    ("attested_oprf_public_key_ristretto255", .text p.attestedOprfPublicKeyRistretto255),
    ("document_format", .text p.documentFormat),
    ("document_base64", .text p.documentBase64),
    ("document_sha256", .text p.documentSha256),
    ("published_at", .text p.publishedAt),
    ("challenge_nonce_base64", .text p.challengeNonceBase64)]

/-- the struct `ManifestContractPayload` -/
def ManifestPayload.contractFields (p : ManifestPayload) : Object := contractObject p (pcrValue p.attestationPcrsSha384)

/-- the struct `ManifestPayload`, and `ContactDiscoveryManifestPayloadRecord` of the Android library -/
def ManifestPayload.fields (p : ManifestPayload) : Object := manifestObject p (pcrValue p.attestationPcrsSha384)

/-- the struct `AttestationPayload`, and `ContactDiscoveryAttestationPayloadRecord` of the Android library -/
def AttestationPayload.fields (p : AttestationPayload) : Object := attestationObject p (pcrValue p.attestedPcrsSha384)

/-- `serde_json::to_vec` -/
def toVec (fields : Object) : Bytes := utf8 (String.ofList (render serdeQuote fields))

/-- `utf8ToBytes(JSON.stringify(…))` -/
def stringify (fields : Object) : Bytes := utf8 (String.ofList (render jsQuote fields))

/-! ## The service -/

section Service

variable (d : Deps) (s : AppState)

/-- the payload that `manifest`, `attestation` and `current_manifest_contract_sha256` build, with their times -/
def manifestPayload (signedAt expiresAt : String) : ManifestPayload where
  service := "pqmsg-discovery"
  protocolVersion := 1
  attestationMode := s.attestationMode
  attestationVerifier := s.attestationVerifier
  enclaveMeasurementHex := s.enclaveMeasurementHex
  attestationPcrsSha384 := s.attestationPcrsSha384
  attestationDocumentFormat := s.attestationDocumentSha256.map fun _ => attestationDocumentFormat
  attestationDocumentSha256 := s.attestationDocumentSha256
  attestationChallengeMode := s.attestationDocumentSha256.map fun _ => attestationChallengeMode
  ticketFormat := "base64(json-payload).base64(ed25519-signature)"
  ticketIssuerEd25519Pub := d.base64Encode s.ticketIssuerKey.1
  ticketMaxTtlSeconds := ticketMaxTtlSeconds
  lookupProtocol := lookupProtocol
  privacyMode := privacyMode
  directoryBackend := directoryBackend
  hostEnclaveProtocolVersion := hostEnclaveProtocolVersion
  hostReleaseId := s.hostReleaseId
  enclaveReleaseId := s.enclaveReleaseId
  matchResultFormat := matchResultFormat
  oprfSuite := oprfSuite
  evaluationProofMode := evaluationProofMode
  oprfPublicKeyRistretto255 := s.oprfPublicKeyRistretto255B64
  signedAt := signedAt
  expiresAt := expiresAt

def manifestIssuerPublicKeyB64 : String := d.base64Encode (d.ed25519PublicKey s.manifestSigningKey).1

/-- `base64(sign(…))` with the key of the manifest -/
def signB64 (message : Bytes) : String := d.base64Encode (d.ed25519Sign s.manifestSigningKey message).1

def manifest (signedAt expiresAt : String) : ManifestResponse :=
  let payload := manifestPayload d s signedAt expiresAt
  ⟨payload, manifestIssuerPublicKeyB64 d s, signB64 d s (toVec payload.fields)⟩

def manifestContractSha256Hex (p : ManifestPayload) : String := Server.hexEncode (d.sha256 (toVec p.contractFields))

def currentManifestContractSha256 (signedAt expiresAt : String) : String :=
  manifestContractSha256Hex d (manifestPayload d s signedAt expiresAt)

/-- `ok_or_else(|| bad_request(…))` -/
def required (o : Option String) (detail : String) : Except String String :=
  match o with
  | some v => .ok v
  | none => .error detail

def normalizeAttestationNonce (name value : String) : Except String String :=
  let trimmed := Server.trim value
  if Server.len trimmed = 0 ∨ Server.len trimmed > 256 then .error (name ++ " must be 1..=256 base64 characters")
  else match d.base64Decode trimmed with
    | none => .error (name ++ " must be valid base64-encoded bytes")
    | some decoded =>
      if decoded.length < 16 ∨ 64 < decoded.length then .error (name ++ " must decode to 16..=64 bytes")
      else .ok trimmed

def attestation (nonceB64 signedAt expiresAt publishedAt : String) : Except String AttestationResponse := do
  let verifier ← required s.attestationVerifier "discovery attestation is not configured"
  let measurement ← required s.enclaveMeasurementHex "discovery attestation is not configured"
  let documentBase64 ← required s.attestationDocumentBase64 "discovery attestation is not configured"
  let documentSha256 ← required s.attestationDocumentSha256 "discovery attestation is not configured"
  let challengeNonceBase64 ← normalizeAttestationNonce d "nonce_b64" nonceB64
  let payload : AttestationPayload := {
    attestationMode := s.attestationMode
    attestationVerifier := verifier
    enclaveMeasurementHex := measurement
    attestedPcrsSha384 := s.attestationPcrsSha384
    directoryBackend := directoryBackend
    hostEnclaveProtocolVersion := hostEnclaveProtocolVersion
    hostReleaseId := s.hostReleaseId
    enclaveReleaseId := s.enclaveReleaseId
    manifestContractSha256 := manifestContractSha256Hex d (manifestPayload d s signedAt expiresAt)
    attestedOprfPublicKeyRistretto255 := s.oprfPublicKeyRistretto255B64
    documentFormat := attestationDocumentFormat
    documentBase64 := documentBase64
    documentSha256 := documentSha256
    publishedAt := publishedAt
    challengeNonceBase64 := challengeNonceBase64 }
  return ⟨payload, signB64 d s (toVec payload.fields)⟩

end Service

/-! ## The web client -/

section Web

variable (d : Deps)

def normalizeContactDiscoveryPcrsSha384 (pcrs : Option (List (String × String))) : Value :=
  match pcrs with
  | none => .null
  | some pcrs =>
    let entries := pcrs.insertionSort fun a b => d.localeLe a.1 b.1
    if entries = [] then .null else .map entries

/-- the object in `contactDiscoveryManifestContractSha256` -/
def webContractPayload (m : ManifestPayload) : Object :=
  contractObject m (normalizeContactDiscoveryPcrsSha384 d (m.attestationPcrsSha384.map PcrMap.pairs))

/-- the object in `verifyContactDiscoveryManifest` -/
def webManifestPayload (m : ManifestPayload) : Object :=
  manifestObject m (normalizeContactDiscoveryPcrsSha384 d (m.attestationPcrsSha384.map PcrMap.pairs))

/-- the object in `verifyContactDiscoveryAttestationDocument` -/
def webAttestationPayload (r : AttestationPayload) : Object :=
  attestationObject r (normalizeContactDiscoveryPcrsSha384 d (r.attestedPcrsSha384.map PcrMap.pairs))

def contactDiscoveryManifestContractSha256 (m : ManifestPayload) : String :=
  Server.hexEncode (d.sha256 (stringify (webContractPayload d m)))

/-- `ed25519.verify(base64ToBytes(…), payloadBytes, base64ToBytes(…))`; text that is no base64 throws -/
def webSignatureAccepted (signatureB64 : String) (payloadBytes : Bytes) (issuerB64 : String) : Bool :=
  match d.base64ToBytes signatureB64, d.base64ToBytes issuerB64 with
  | some signature, some key => d.nobleVerify signature payloadBytes key
  | _, _ => false

/-- the end of `verifyContactDiscoveryManifest` -/
def webManifestAccepted (r : ManifestResponse) (expectedManifestIssuerPubB64 : String) : Bool :=
  webSignatureAccepted d r.manifestSignatureEd25519 (stringify (webManifestPayload d r.payload)) expectedManifestIssuerPubB64

/-- the signature check of `verifyContactDiscoveryAttestationDocument` -/
def webAttestationAccepted (r : AttestationResponse) (expectedManifestIssuerPubB64 : String) : Bool :=
  webSignatureAccepted d r.attestationSignatureEd25519 (stringify (webAttestationPayload d r.payload))
    expectedManifestIssuerPubB64

end Web

/-! ## The Android library -/

section Android

variable (d : Deps)

/-- the map that `json!` builds in `contact_discovery_manifest_contract_sha256` -/
def androidContractPayload (m : ManifestPayload) : Object :=
  sortKeys (contractObject m (pcrValue m.attestationPcrsSha384))

/-- `contact_discovery_manifest_contract_sha256` -/
def androidManifestContractSha256 (m : ManifestPayload) : String :=
  Server.hexEncode (d.sha256 (toVec (androidContractPayload m)))

def decodeB64 (field value : String) : Except String Bytes :=
  match d.base64Decode value with
  | some bytes => .ok bytes
  | none => .error ("invalid base64 for field '" ++ field ++ "'")

def decodeB64_32 (field value : String) : Except String (ByteArr 32) := do
  let bytes ← decodeB64 d field value
  (Wire.parseArr 32 bytes field).mapError fun _ =>
    "field '" ++ field ++ "' must decode to 32 bytes (got " ++ toString bytes.length ++ ")"

/-- the signature checks of the two functions below, for a `manifest` or an `attestation` -/
def verifySigned (what signatureB64 : String) (payloadBytes : Bytes) (issuerB64 : String) : Except String Bool := do
  let signatureBytes ← decodeB64 d ("contact_discovery_" ++ what ++ "." ++ what ++ "_signature_ed25519") signatureB64
  let signature ← (Wire.parseArr 64 signatureBytes "").mapError fun _ =>
    "contact discovery " ++ what ++ " signature must decode to 64 bytes"
  let key ← decodeB64_32 d ("contact_discovery_" ++ what ++ ".manifest_issuer_ed25519_pub") issuerB64
  if d.dalekKeyValid key = false then .error "invalid contact discovery manifest issuer public key"
  else if d.dalekVerify key payloadBytes signature = false then
    .error ("contact discovery " ++ what ++ " signature verification failed")
  else return true

/-- the end of `verify_contact_discovery_manifest` -/
def androidVerifyManifestSignature (r : ManifestResponse) (expectedManifestIssuerEd25519Pub : String) : Except String Bool :=
  verifySigned d "manifest" r.manifestSignatureEd25519 (toVec r.payload.fields) expectedManifestIssuerEd25519Pub

def verifyContactDiscoveryAttestationResponseSignature (r : AttestationResponse)
    (expectedManifestIssuerEd25519Pub expectedChallengeNonceBase64 : String) : Except String Bool :=
  let expected := Server.trim expectedChallengeNonceBase64
  if Server.len expected = 0 then .error "expected_challenge_nonce_base64 must not be empty"
  else if r.payload.challengeNonceBase64 ≠ expected then
    .error "contact discovery attestation challenge nonce mismatch"
  else verifySigned d "attestation" r.attestationSignatureEd25519 (toVec r.payload.fields) expectedManifestIssuerEd25519Pub

end Android

/-! ## Two writers of one text -/

/-- what the third-party code does on the values of the service -/
structure Deps.Correct (d : Deps) : Prop where
  sha256_injective : Function.Injective d.sha256
  base64Decode_encode : ∀ bytes, d.base64Decode (d.base64Encode bytes) = some bytes
  base64ToBytes_encode : ∀ bytes, d.base64ToBytes (d.base64Encode bytes) = some bytes
  dalekKeyValid : ∀ secretKey, d.dalekKeyValid (d.ed25519PublicKey secretKey) = true
  dalekVerify_sign : ∀ secretKey message,
    d.dalekVerify (d.ed25519PublicKey secretKey) message (d.ed25519Sign secretKey message) = true
  nobleVerify_sign : ∀ secretKey message,
    d.nobleVerify (d.ed25519Sign secretKey message).1 message (d.ed25519PublicKey secretKey).1 = true
  /-- `localeCompare` orders the registers by their digit -/
  localeLe_name : ∀ a b : Pcr, a.name < b.name → d.localeLe a.name b.name = true

lemma stringify_eq (fields : Object) : stringify fields = toVec fields := by
  rw [stringify, toVec, serdeQuote_eq_jsQuote]

variable {d : Deps}

/-- a map in the order of its keys is not changed -/
lemma normalize_pairs (hd : d.Correct) (pcrs : Option PcrMap) :
    normalizeContactDiscoveryPcrsSha384 d (pcrs.map PcrMap.pairs) = pcrValue pcrs := by
  cases pcrs with
  | none => rfl
  | some pcrs =>
    have hsorted : pcrs.pairs.Pairwise fun a b => d.localeLe a.1 b.1 = true := by
      rw [PcrMap.pairs, pairwise_map]
      exact pcrs.sorted.imp fun {a b} hlt => hd.localeLe_name a.1 b.1 hlt
    have hsame : pcrs.pairs.insertionSort (fun a b => d.localeLe a.1 b.1 = true) = pcrs.pairs :=
      hsorted.insertionSort_eq
    have hne : pcrs.pairs ≠ [] := by
      rw [PcrMap.pairs, ne_eq, map_eq_nil_iff]
      exact pcrs.nonempty
    simp [normalizeContactDiscoveryPcrsSha384, hsame, if_neg hne, pcrValue]

lemma webContractPayload_eq (hd : d.Correct) (m : ManifestPayload) : webContractPayload d m = m.contractFields := by
  rw [webContractPayload, normalize_pairs hd, ManifestPayload.contractFields]

lemma webManifestPayload_eq (hd : d.Correct) (m : ManifestPayload) : webManifestPayload d m = m.fields := by
  rw [webManifestPayload, normalize_pairs hd, ManifestPayload.fields]

lemma webAttestationPayload_eq (hd : d.Correct) (r : AttestationPayload) : webAttestationPayload d r = r.fields := by
  rw [webAttestationPayload, normalize_pairs hd, AttestationPayload.fields]

/-- the map begins with the smallest key -/
lemma androidContractPayload_head (m : ManifestPayload) : ∃ rest, androidContractPayload m =
    ("attestation_challenge_mode", Value.ofOption m.attestationChallengeMode) :: rest := by
  refine sortKeys_head (by simp [contractObject]) fun g hg => ?_
  simp only [contractObject, mem_cons, not_mem_nil, or_false] at hg
  -- one of the 22 fields is the smallest itself
  repeat' rcases hg with rfl | hg
  case inr.inr.inr.inr.inr.inr.inr.inr.inl => exact .inl rfl
  all_goals
    right
    dsimp only
    decide

/-- the contract begins with another key than its sorted copy -/
lemma androidContract_ne (m : ManifestPayload) : toVec (androidContractPayload m) ≠ toVec m.contractFields := by
  obtain ⟨rest, hrest⟩ := androidContractPayload_head m
  have hsorted : 1 < (serdeQuote "attestation_challenge_mode").length := by decide
  have hlisted : 1 < (serdeQuote "service").length := by decide
  have hletter : (serdeQuote "attestation_challenge_mode")[1]? ≠ (serdeQuote "service")[1]? := by decide
  intro heq
  have hchars : render serdeQuote (androidContractPayload m) = render serdeQuote m.contractFields :=
    String.ofList_injective (utf8_injective heq)
  rw [hrest] at hchars
  exact render_ne hsorted hlisted hletter hchars

/-! ## Hashes and signatures -/

lemma webContract_eq (hd : d.Correct) (m : ManifestPayload) :
    contactDiscoveryManifestContractSha256 d m = manifestContractSha256Hex d m := by
  rw [contactDiscoveryManifestContractSha256, manifestContractSha256Hex, webContractPayload_eq hd, stringify_eq]

lemma androidManifestContract_ne (hd : d.Correct) (m : ManifestPayload) :
    androidManifestContractSha256 d m ≠ manifestContractSha256Hex d m := by
  intro h
  exact androidContract_ne m (hd.sha256_injective (Server.hexEncode_injective h))

/-- what the service has signed is accepted by the web client -/
lemma webSignatureAccepted_signB64 (hd : d.Correct) (s : AppState) (message : Bytes) :
    webSignatureAccepted d (signB64 d s message) message (manifestIssuerPublicKeyB64 d s) = true := by
  rw [webSignatureAccepted, signB64, manifestIssuerPublicKeyB64, hd.base64ToBytes_encode, hd.base64ToBytes_encode]
  exact hd.nobleVerify_sign _ _

lemma parseArr_val_mapError {ε : Type} {n : ℕ} (a : ByteArr n) (field : String) (f : CoreError → ε) :
    (Wire.parseArr n a.1 field).mapError f = .ok a :=
  mapError_ok.2 (Wire.parseArr_val a field)

/-- what the service has signed is accepted by the Android library -/
lemma verifySigned_signB64 (hd : d.Correct) (s : AppState) (what : String) (message : Bytes) :
    verifySigned d what (signB64 d s message) message (manifestIssuerPublicKeyB64 d s) = .ok true := by
  have hdecode : ∀ field bytes, decodeB64 d field (d.base64Encode bytes) = .ok bytes := fun field bytes => by
    rw [decodeB64, hd.base64Decode_encode]
  refine bind_ok.2 ⟨_, hdecode _ _, bind_ok.2 ⟨_, parseArr_val_mapError _ _ _, ?_⟩⟩
  refine bind_ok.2 ⟨_, bind_ok.2 ⟨_, hdecode _ _, parseArr_val_mapError _ _ _⟩, check_ok.2 ⟨?_, check_ok.2 ⟨?_, rfl⟩⟩⟩
  · rw [hd.dalekKeyValid]
    decide
  · rw [hd.dalekVerify_sign]
    decide

/-! ## Agreement -/

/-- both clients accept what the service has signed: its manifest, and every attestation that it gives -/
def SignaturesAccepted (d : Deps) (s : AppState) (signedAt expiresAt : String) : Prop :=
  webManifestAccepted d (manifest d s signedAt expiresAt) (manifestIssuerPublicKeyB64 d s) = true ∧
  androidVerifyManifestSignature d (manifest d s signedAt expiresAt) (manifestIssuerPublicKeyB64 d s) = .ok true ∧
  ∀ nonceB64 publishedAt r, attestation d s nonceB64 signedAt expiresAt publishedAt = .ok r →
    webAttestationAccepted d r (manifestIssuerPublicKeyB64 d s) = true ∧
    verifyContactDiscoveryAttestationResponseSignature d r (manifestIssuerPublicKeyB64 d s) nonceB64 = .ok true

/-- the three hashes of the contract are one text, and the signatures are accepted -/
def Agree (d : Deps) (s : AppState) (signedAt expiresAt : String) : Prop :=
  contactDiscoveryManifestContractSha256 d (manifest d s signedAt expiresAt).payload =
    currentManifestContractSha256 d s signedAt expiresAt ∧
  androidManifestContractSha256 d (manifest d s signedAt expiresAt).payload =
    currentManifestContractSha256 d s signedAt expiresAt ∧
  SignaturesAccepted d s signedAt expiresAt

lemma signaturesAccepted (hd : d.Correct) (s : AppState) (signedAt expiresAt : String) :
    SignaturesAccepted d s signedAt expiresAt := by
  refine ⟨?_, verifySigned_signB64 hd s _ _, fun nonceB64 publishedAt r hr => ?_⟩
  · rw [webManifestAccepted, webManifestPayload_eq hd, stringify_eq]
    exact webSignatureAccepted_signB64 hd s _
  · -- an attestation carries the nonce of the request, and the signature of the service
    simp only [attestation, bind_ok] at hr
    obtain ⟨verifier, -, measurement, -, documentBase64, -, documentSha256, -, nonce, hnonce, hr⟩ := hr
    cases hr
    obtain ⟨hlen, hnonce⟩ := check_ok.1 hnonce
    rw [not_or] at hlen
    split at hnonce
    · cases hnonce
    · obtain ⟨-, hnonce⟩ := check_ok.1 hnonce
      cases hnonce
      constructor
      · rw [webAttestationAccepted, webAttestationPayload_eq hd, stringify_eq]
        exact webSignatureAccepted_signB64 hd s _
      · exact check_ok.2 ⟨hlen.1, check_ok.2 ⟨not_not.2 rfl, verifySigned_signB64 hd s _ _⟩⟩

/-- **The contract hash of Android is never that of the service.** For every configuration and all times, the three programs do
not agree; the web client and the service have the same hash, and both clients accept all signatures of the service. -/
theorem contracts_agree_iff (d : Deps) (hd : d.Correct) (s : AppState) (signedAt expiresAt : String) :
    (Agree d s signedAt expiresAt ↔ False) ∧
    contactDiscoveryManifestContractSha256 d (manifest d s signedAt expiresAt).payload =
      currentManifestContractSha256 d s signedAt expiresAt ∧
    SignaturesAccepted d s signedAt expiresAt :=
  ⟨iff_false_intro fun h => androidManifestContract_ne hd _ h.2.1, webContract_eq hd _, signaturesAccepted hd s signedAt expiresAt⟩

/-! ## One service -/

namespace Sample

/-- a character for each byte -/
def encode (bytes : Bytes) : String := String.ofList (bytes.map fun b => Char.ofNat b.toNat)

def decode (text : String) : Option Bytes := some (text.toList.map fun c => UInt8.ofNat c.toNat)

lemma decode_encode (bytes : Bytes) : decode (encode bytes) = some bytes := by
  have hbyte : ∀ b : UInt8, UInt8.ofNat (Char.ofNat b.toNat).toNat = b := by
    intro b
    have hvalid : b.toNat.isValidChar := .inl (b.toNat_lt.trans (by decide))
    rw [Char.ofNat, dif_pos hvalid]
    exact UInt8.ofNat_toNat
  have hid : (fun c : Char => UInt8.ofNat c.toNat) ∘ (fun b : UInt8 => Char.ofNat b.toNat) = id := funext hbyte
  rw [decode, encode, String.toList_ofList, map_map, hid, map_id]

def deps : Deps where
  sha256 := id
  base64Encode := encode
  base64Decode := decode
  base64ToBytes := decode
  ed25519PublicKey key := key
  ed25519Sign key _ := ⟨key.1 ++ key.1, by rw [length_append, key.2]⟩
  dalekKeyValid _ := true
  dalekVerify key _ signature := signature.1 = key.1 ++ key.1
  nobleVerify signature _ key := signature = key ++ key
  localeLe a b := a ≤ b

lemma deps_correct : deps.Correct where
  sha256_injective := Function.injective_id
  base64Decode_encode := decode_encode
  base64ToBytes_encode := decode_encode
  dalekKeyValid _ := rfl
  dalekVerify_sign _ _ := decide_eq_true rfl
  nobleVerify_sign _ _ := decide_eq_true rfl
  localeLe_name _ _ h := decide_eq_true h.le

def state : AppState where
  ticketIssuerKey := ByteArr.replicate 32 1
  manifestSigningKey := ByteArr.replicate 32 2
  attestationMode := "attested_enclave_v1"
  attestationVerifier := some "nitro"
  enclaveMeasurementHex := some "ab"
  attestationPcrsSha384 := some ⟨[(.pcr0, "ef"), (.pcr8, "12")], by decide, by decide⟩
  attestationDocumentBase64 := some "document"
  attestationDocumentSha256 := some "cd"
  oprfPublicKeyRistretto255B64 := "oprf"
  hostReleaseId := "host"
  enclaveReleaseId := "enclave"

end Sample

open Manifest.Sample in
/-- the web client agrees with this service, the Android library does not -/
theorem contracts_agree_iff_sample :
    deps.Correct ∧ (Agree deps state "now" "later" ↔ False) ∧
    contactDiscoveryManifestContractSha256 deps (manifest deps state "now" "later").payload =
      currentManifestContractSha256 deps state "now" "later" ∧
    SignaturesAccepted deps state "now" "later" :=
  ⟨deps_correct, contracts_agree_iff deps deps_correct state "now" "later"⟩

open Manifest.Sample in
/-- the Android library computes another hash than this service -/
theorem android_contract_differs :
    deps.Correct ∧
    androidManifestContractSha256 deps (manifest deps state "now" "later").payload ≠
      currentManifestContractSha256 deps state "now" "later" ∧
    ¬Agree deps state "now" "later" := by
  have hne := androidManifestContract_ne deps_correct (manifest deps state "now" "later").payload
  exact ⟨deps_correct, hne, fun h => hne h.2.1⟩

end PqMsg.Discovery.Manifest
