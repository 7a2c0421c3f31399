import Machbus.Common.Checks
/-!
# TIM authentication

One side of the handshake: a chain of certificates is accepted, a secret
is agreed on with the key that the chain certifies, each side sends a
challenge, and the peer is authenticated by the code it returns for ours.
What the cryptography computes is a parameter.
-/

namespace Machbus.Tim

def randomChallengeLen : ℕ := 32
def signedChallengeLen : ℕ := 16
def cmacLen : ℕ := 16

inductive AuthError
  | participantBusy
  | certificateFormatNotSupported
  | rootCertificateSignatureInvalid
  | manufacturerCertificateSignatureInvalid
  | deviceCertificateSignatureInvalid
  | challengesDoNotMatch
  | internalError
  | rootCertificateDataCorrupt
  | manufacturerCertificateDataCorrupt
  | deviceCertificateDataCorrupt
  | authenticationStatusLost
  | authenticationStatusInvalid
  | certificateChainInvalid
  | eccPublicKeyValidationFailed
  | rootCertificateRevoked
  | labCertificateRevoked
  | manufacturerCertificateRevoked
  | manufacturerSeriesCertificateRevoked
  | deviceCertificateRevoked
  | challengeLengthInvalid
  | challengeDataCorrupt
  deriving DecidableEq, Repr

/-! ## Certificates -/

inductive CertificateRole
  | root
  | testLab
  | manufacturer
  | manufacturerSeries
  | device
  deriving DecidableEq, Repr

namespace CertificateRole

/-- The roles in issuing order. -/
def chain : List CertificateRole := [root, testLab, manufacturer, manufacturerSeries, device]

/-- The role of a certificate by its place in a chain. -/
def ofIndex (index : ℕ) : CertificateRole := chain[index]?.getD device

def signatureError : CertificateRole → AuthError
  | root | testLab => .rootCertificateSignatureInvalid
  | manufacturer | manufacturerSeries => .manufacturerCertificateSignatureInvalid
  | device => .deviceCertificateSignatureInvalid

def revokedError : CertificateRole → AuthError
  | root => .rootCertificateRevoked
  | testLab => .labCertificateRevoked
  | manufacturer => .manufacturerCertificateRevoked
  | manufacturerSeries => .manufacturerSeriesCertificateRevoked
  | device => .deviceCertificateRevoked

end CertificateRole

/-- What is looked at in a certificate. Names and the key info stand for
their DER encoding. -/
structure Certificate where
  subject : List UInt8
  issuer : List UInt8
  serialNumber : List UInt8
  subjectPublicKeyInfo : List UInt8
  algorithm : List UInt8
  subjectPublicKey : Option (List UInt8)
  deriving DecidableEq, Repr

/-- Issuer and serial number of the certificates that are revoked. -/
abbrev CertificateRevocationList := List (List UInt8 × List UInt8)

/-- **What the cryptography computes.** -/
structure Primitives where
  /-- The signature of the second certificate under the key of the first. -/
  verifyLink : Certificate → Certificate → Bool
  publicKey : List UInt8 → List UInt8
  diffieHellman : List UInt8 → List UInt8 → List UInt8
  wasContributory : List UInt8 → Bool
  sha256 : List UInt8 → List UInt8
  cmac : List UInt8 → List UInt8 → List UInt8

/-- Root first. -/
abbrev CertificateChain := List Certificate

namespace CertificateChain

variable (P : Primitives) (chain : CertificateChain)

/-- Each certificate with the one it is to have issued. -/
def links : List (Certificate × Certificate) := List.zip chain (List.tail chain)

def checkIssuerLinkage : Except AuthError Unit :=
  require (∀ link ∈ chain.links, link.1.subject = link.2.issuer) .certificateChainInvalid

def verifySignatures (trustAnchor : List UInt8) : Except AuthError Unit := do
  let root ← given (List.head? chain) .deviceCertificateDataCorrupt
  require (root.subjectPublicKeyInfo = trustAnchor) CertificateRole.root.signatureError
  match chain.links.zipIdx.find? fun e => !P.verifyLink e.1.1 e.1.2 with
  | some (_, index) => .error (CertificateRole.ofIndex (index + 1)).signatureError
  | none => .ok ()

def revokedRole (revoked : CertificateRevocationList) : Option CertificateRole :=
  (List.zipIdx chain).findSome? fun (c, index) =>
    if (c.issuer, c.serialNumber) ∈ revoked then some (CertificateRole.ofIndex index) else none

def oidX25519 : List UInt8 := [0x2B, 0x65, 0x6E]

def deviceX25519PublicKey : Except AuthError (List UInt8) := do
  let device ← given (List.getLast? chain) .deviceCertificateDataCorrupt
  require (device.algorithm = oidX25519) .eccPublicKeyValidationFailed
  let key ← given device.subjectPublicKey .eccPublicKeyValidationFailed
  require (key.length = 32) .eccPublicKeyValidationFailed
  .ok key

end CertificateChain

/-! ## Handshake -/

inductive AuthState
  | unauthenticated
  | certificatesExchanged
  | keyAgreed
  | challengeIssued
  | authenticated
  | failed (error : AuthError)
  deriving DecidableEq, Repr

inductive TimRole
  | client
  | server
  deriving DecidableEq, Repr

structure TimAuthentication where
  role : TimRole
  state : AuthState := .unauthenticated
  secret : Option (List UInt8) := none
  shared : Option (List UInt8) := none
  ownChallenge : List UInt8 := []
  peerChallenge : List UInt8 := []
  peerEcdhPublic : Option (List UInt8) := none
  deriving DecidableEq, Repr

/-- `u16::to_be_bytes`. -/
def beBytes16 (n : ℕ) : List UInt8 := [UInt8.ofNat (n / 256), UInt8.ofNat n]

/-- The keys for what we send and for what we receive. The challenges go
in in an order that both sides agree on; which half is whose follows from
the role. -/
def deriveKeys (P : Primitives) (role : TimRole) (shared own peer : List UInt8) :
    List UInt8 × List UInt8 :=
  let (first, second) := if own < peer then (own, peer) else (peer, own)
  let derived := P.sha256 ([0, 0, 0, 1] ++ shared ++
    "machbus-tim-lwa".toList.map (fun c => UInt8.ofNat c.toNat) ++
    beBytes16 first.length ++ first ++ beBytes16 second.length ++ second)
  match role with
  | .client => (derived.take 16, derived.drop 16)
  | .server => (derived.drop 16, derived.take 16)

/-- Tags are compared without stopping at the first difference. -/
def constantTimeEq (a b : List UInt8) : Bool :=
  if a.length ≠ b.length then false
  else (a.zip b).foldl (fun diff (x, y) => diff ||| (x ^^^ y)) 0 == 0

namespace TimAuthentication

def withRole (role : TimRole) : TimAuthentication := { role }

variable (P : Primitives) (s : TimAuthentication)

/-- Whatever is refused ends the handshake, and leaves the rest as it
is. -/
def attempt (r : Except AuthError TimAuthentication) : TimAuthentication × Except AuthError Unit :=
  match r with
  | .ok t => (t, .ok ())
  | .error e => ({ s with state := .failed e }, .error e)

def acceptChain (chain : CertificateChain) (trustAnchor : List UInt8)
    (revoked : CertificateRevocationList) : TimAuthentication × Except AuthError Unit :=
  s.attempt do
    require (chain ≠ []) .deviceCertificateDataCorrupt
    chain.checkIssuerLinkage
    chain.verifySignatures P trustAnchor
    match chain.revokedRole revoked with
    | some role => .error role.revokedError
    | none =>
      let key ← chain.deviceX25519PublicKey
      .ok { s with peerEcdhPublic := some key, state := .certificatesExchanged }

/-- With the public key to send. -/
def beginKeyAgreement (privateBytes : List UInt8) : TimAuthentication × List UInt8 :=
  ({ s with secret := some privateBytes }, P.publicKey privateBytes)

def completeKeyAgreement : TimAuthentication × Except AuthError Unit :=
  s.attempt do
    require (s.state = .certificatesExchanged ∨ s.state = .keyAgreed) .internalError
    let secret ← given s.secret .internalError
    let peerPublic ← given s.peerEcdhPublic .eccPublicKeyValidationFailed
    let shared := P.diffieHellman secret peerPublic
    require (P.wasContributory shared) .eccPublicKeyValidationFailed
    .ok { s with shared := some shared, state := .keyAgreed }

def directionalKeys : Except AuthError (List UInt8 × List UInt8) := do
  let shared ← given s.shared .internalError
  require (¬(s.ownChallenge = [] ∨ s.peerChallenge = [])) .internalError
  require (s.ownChallenge ≠ s.peerChallenge) .challengesDoNotMatch
  .ok (deriveKeys P s.role shared s.ownChallenge s.peerChallenge)

variable (challenge : List UInt8)

def validChallenge : Except AuthError Unit :=
  require (challenge.length = randomChallengeLen ∨ challenge.length = signedChallengeLen)
    .challengeLengthInvalid

def issueChallenge : TimAuthentication × Except AuthError Unit :=
  s.attempt do
    validChallenge challenge
    require s.shared.isSome .internalError
    .ok { s with ownChallenge := challenge, state := .challengeIssued }

def acceptPeerChallenge : TimAuthentication × Except AuthError Unit :=
  s.attempt do
    validChallenge challenge
    require s.shared.isSome .internalError
    .ok { s with peerChallenge := challenge }

def computeResponse : Except AuthError (List UInt8) := do
  let keys ← s.directionalKeys P
  .ok (P.cmac keys.1 s.peerChallenge)

def expectedPeerResponse : Except AuthError (List UInt8) := do
  let keys ← s.directionalKeys P
  .ok (P.cmac keys.2 s.ownChallenge)

def verifyResponse (peerResponse : List UInt8) : TimAuthentication × Except AuthError Unit :=
  s.attempt do
    require (s.state = .challengeIssued) .internalError
    let expected ← s.expectedPeerResponse P
    require (peerResponse.length = cmacLen ∧ constantTimeEq expected peerResponse)
      .challengesDoNotMatch
    .ok { s with state := .authenticated }

/-- The key of the peer stays. -/
def reset : TimAuthentication :=
  { s with
    state := .unauthenticated
    secret := none
    shared := none
    ownChallenge := []
    peerChallenge := [] }

end TimAuthentication

/-! ## Runs -/

/-- The calls that change a handshake. -/
inductive AuthCall
  | acceptChain (chain : CertificateChain) (trustAnchor : List UInt8)
      (revoked : CertificateRevocationList)
  | beginKeyAgreement (privateBytes : List UInt8)
  | completeKeyAgreement
  | issueChallenge (challenge : List UInt8)
  | acceptPeerChallenge (challenge : List UInt8)
  | verifyResponse (peerResponse : List UInt8)
  | reset
  deriving DecidableEq, Repr

namespace TimAuthentication

variable (P : Primitives)

def call (s : TimAuthentication) : AuthCall → TimAuthentication × Except AuthError Unit
  | .acceptChain chain trustAnchor revoked => s.acceptChain P chain trustAnchor revoked
  | .beginKeyAgreement privateBytes => ((s.beginKeyAgreement P privateBytes).1, .ok ())
  | .completeKeyAgreement => s.completeKeyAgreement P
  | .issueChallenge challenge => s.issueChallenge challenge
  | .acceptPeerChallenge challenge => s.acceptPeerChallenge challenge
  | .verifyResponse peerResponse => s.verifyResponse P peerResponse
  | .reset => (s.reset, .ok ())

def step (s : TimAuthentication) (a : AuthCall) : TimAuthentication := (s.call P a).1

end TimAuthentication

end Machbus.Tim
