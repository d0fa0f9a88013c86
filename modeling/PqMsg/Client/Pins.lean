/-
Peer identity pins of the web client (`app.ts`) and the Android client (`ChatActivity.kt`, `MessagingCoordinator.kt`).

A client pins the identity keys of a peer the first time it sees them, together with a fingerprint. Later bundles are
compared with the pin through the fingerprint only; where it differs the user is asked.

- web, `webEnforceIdentityPin`: an equal fingerprint keeps the pin as it is;
- Android, `androidEnforceIdentityPin`: an equal fingerprint with other keys or another version rewrites the pin.

The fingerprint of a bundle is the one the server put into it, if any; else it is computed from the X25519 and the ML-DSA
key (`webBundleFingerprint`, `bundleIdentityFingerprint`).

One local user is fixed, so a pin store is a function from peers. The answers of the user to the prompt are arguments.
-/
import PqMsg.Transparency.WebClient

namespace PqMsg.Client

inductive ClientKind where
  | web
  | android
deriving DecidableEq

/-- functions of the two platforms: `trim` and `lowercase` of strings, the base64 decoders of the browser and of
`java.util.Base64` (`none` where they throw), and SHA-256 in hexadecimal -/
structure Platform where
  trim : String → String
  lowercase : String → String
  atob : String → Option Bytes
  javaDecode : String → Option Bytes
  sha256Hex : Bytes → String

inductive ClientError where
  /-- the server answered with an error -/
  | server (message : String)
  | invalidBase64
  /-- `throw new Error`, `error` or `check` of the client itself -/
  | error (message : String)
  | verifier (e : Transparency.WasmError)
deriving DecidableEq

/-- the answer to a bundle request -/
structure BundleResponse where
  userId : String
  identityX25519Pub : String
  identitySigPub : String
  identityPqSigPub : String
  signedPrekeyX25519Pub : String
  sigOverSpk : String
  pqSignedPrekeyPubMlkem768 : String
  sigOverPqspk : String
  pqSigOverSpk : String
  pqSigOverPqspk : String
  oneTimePrekeyX25519 : Option String
  oneTimePrekeyMlkem768 : Option String
  identityFingerprintSha256 : Option String
  identityKeyVersion : Option ℤ
  bundleGeneratedAt : String
deriving DecidableEq

structure IdentityPin where
  fingerprintSha256 : String
  identityKeyVersion : Option ℤ
  identityX25519Pub : String
  identitySigPub : String
  identityPqSigPub : String
  observedAt : String
deriving DecidableEq

/-- the pins of the local user -/
abbrev PinStore := String → Option IdentityPin

def writeIdentityPin (pins : PinStore) (peerUserId : String) (pin : IdentityPin) : PinStore :=
  Function.update pins peerUserId (some pin)

def decodeWith (d : String → Option Bytes) (value : String) : Except ClientError Bytes :=
  match d value with
  | some bytes => .ok bytes
  | none => .error .invalidBase64

section

variable (C : Platform)

/-! ## The web client -/

/-- `identityFingerprint`; an empty ML-DSA key is falsy -/
def identityFingerprint (identityX25519Pub identityPqSigPub : String) : Except ClientError String := do
  let x25519 ← decodeWith C.atob identityX25519Pub
  if identityPqSigPub = "" then return C.sha256Hex x25519
  else do
    let pqSig ← decodeWith C.atob identityPqSigPub
    return C.sha256Hex (x25519 ++ pqSig)

variable (bundle : BundleResponse)

/-- `bundle.identity_fingerprint_sha256 || identityFingerprint(…)` -/
def webBundleFingerprint : Except ClientError String :=
  match bundle.identityFingerprintSha256 with
  | some fromServer =>
    if fromServer = "" then identityFingerprint C bundle.identityX25519Pub bundle.identityPqSigPub else .ok fromServer
  | none => identityFingerprint C bundle.identityX25519Pub bundle.identityPqSigPub

/-- the pin that the web client writes -/
def webPin (fingerprint : String) : IdentityPin :=
  ⟨fingerprint, bundle.identityKeyVersion, bundle.identityX25519Pub, bundle.identitySigPub, bundle.identityPqSigPub,
    bundle.bundleGeneratedAt⟩

variable (pins : PinStore) (peerUserId : String)

/-- `enforceIdentityPin`; `accepted` is the user's answer to the prompt -/
def webEnforceIdentityPin (bundle : BundleResponse) (fingerprint : String) (accepted : Bool) : Except ClientError PinStore :=
  match pins peerUserId with
  | none => .ok (writeIdentityPin pins peerUserId (webPin bundle fingerprint))
  | some existing =>
    if existing.fingerprintSha256 = fingerprint then .ok pins
    else if accepted then .ok (writeIdentityPin pins peerUserId (webPin bundle fingerprint))
    else .error (.error ("identity changed for " ++ peerUserId ++ "; action blocked"))

/-- the bundle's fingerprint and then `enforceIdentityPin`, as every caller does -/
def webEnforceBundle (bundle : BundleResponse) (accepted : Bool) : Except ClientError PinStore := do
  let fingerprint ← webBundleFingerprint C bundle
  webEnforceIdentityPin pins peerUserId bundle fingerprint accepted

/-- `pin?.identityPqSigPub?.trim()` is truthy -/
def hasPqSigPub (pin : IdentityPin) : Bool := C.trim pin.identityPqSigPub ≠ ""

/-- `ensurePeerIdentityPinForTrust`; `bundle` is the cached invite bundle or the server's answer -/
def ensurePeerIdentityPinForTrust (bundle : Except ClientError BundleResponse) (accepted : Bool) :
    Except ClientError (PinStore × IdentityPin) :=
  match (pins peerUserId).filter (hasPqSigPub C) with
  | some existing => .ok (pins, existing)
  | none => do
    let bundle ← bundle
    let pins' ← webEnforceBundle C pins peerUserId bundle accepted
    match pins' peerUserId with
    | some refreshed => .ok (pins', refreshed)
    | none => .error (.error ("Unable to pin identity for " ++ peerUserId))

/-! ## The Android client -/

def computeIdentityFingerprint (identityX25519Pub identityPqSigPub : String) : Except ClientError String := do
  let x25519 ← decodeWith C.javaDecode identityX25519Pub
  if C.trim identityPqSigPub = "" then return C.sha256Hex x25519
  else do
    let pqSig ← decodeWith C.javaDecode (C.trim identityPqSigPub)
    return C.sha256Hex (x25519 ++ pqSig)

def bundleIdentityFingerprint : Except ClientError String :=
  match bundle.identityFingerprintSha256 with
  | some value =>
    if C.lowercase (C.trim value) = "" then
      computeIdentityFingerprint C bundle.identityX25519Pub bundle.identityPqSigPub
    else .ok (C.lowercase (C.trim value))
  | none => computeIdentityFingerprint C bundle.identityX25519Pub bundle.identityPqSigPub

/-- the pin that the Android client writes; a missing version is read as 1 -/
def androidPin (fingerprint : String) : IdentityPin :=
  ⟨fingerprint, some (bundle.identityKeyVersion.getD 1), bundle.identityX25519Pub, bundle.identitySigPub,
    bundle.identityPqSigPub, bundle.bundleGeneratedAt⟩

/-- the pinned version and keys are those of the bundle -/
def androidPinCurrent (existing : IdentityPin) (bundle : BundleResponse) : Bool :=
  existing.identityKeyVersion = some (bundle.identityKeyVersion.getD 1) &&
    existing.identityX25519Pub = bundle.identityX25519Pub && existing.identitySigPub = bundle.identitySigPub &&
    existing.identityPqSigPub = bundle.identityPqSigPub

/-- `enforceIdentityPin` -/
def androidEnforceIdentityPin (bundle : BundleResponse) (accepted : Bool) : Except ClientError PinStore := do
  let fingerprint ← bundleIdentityFingerprint C bundle
  match pins peerUserId with
  | none => .ok (writeIdentityPin pins peerUserId (androidPin bundle fingerprint))
  | some existing =>
    if existing.fingerprintSha256 = fingerprint then
      if androidPinCurrent existing bundle then .ok pins
      else .ok (writeIdentityPin pins peerUserId (androidPin bundle fingerprint))
    else if accepted then .ok (writeIdentityPin pins peerUserId (androidPin bundle fingerprint))
    else .error (.error ("identity key changed for " ++ peerUserId ++ "; send blocked"))

/-- `ensurePeerIdentityPinForTransparency`; `bundle` is the override or the server's answer -/
def ensurePeerIdentityPinForTransparency (bundle : Except ClientError BundleResponse) :
    Except ClientError (PinStore × IdentityPin) :=
  match (pins peerUserId).filter (hasPqSigPub C) with
  | some existing => .ok (pins, existing)
  | none => do
    let bundle ← bundle
    let fingerprint ← bundleIdentityFingerprint C bundle
    let observed := androidPin bundle fingerprint
    match pins peerUserId with
    | none => .ok (writeIdentityPin pins peerUserId observed, observed)
    | some existing =>
      if C.lowercase (C.trim existing.fingerprintSha256) ≠ fingerprint then
        .error (.error ("identity key changed for " ++ peerUserId ++ "; transparency check blocked"))
      else .ok (writeIdentityPin pins peerUserId observed, observed)

end

end PqMsg.Client
