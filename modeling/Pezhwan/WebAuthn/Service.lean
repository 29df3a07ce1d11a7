import Pezhwan.Atomic.Trace
import Pezhwan.WebAuthn.Verifier

-- The ceremonies over the challenge store and the credential collection.
namespace Pezhwan.WebAuthn
open Atomic Prog

structure WebAuthnConfig where
  rpName : String
  rpId : String
  origins : List String
  requireUserVerification : Option Bool
  requireResidentKey : Option Bool
  attestation : Option AttestationConveyance
  challengeTtlMs : Option Nat
  deriving DecidableEq, Repr

structure WebAuthnChallenge where
  challenge : String
  userId : Option String
  expiresAt : Nat
  deriving DecidableEq, Repr

structure WebAuthnCredentialDoc where
  tenantId : String
  userId : String
  credentialId : String
  publicKey : String
  counter : Nat
  transports : List String
  attestationFormat : Option String
  nickname : Option String
  aaguid : Option String
  discoverable : Bool
  userVerified : Bool
  isRevoked : Bool
  revokedAt : Option Nat
  lastUsedAt : Option Nat
  createdAt : Nat
  deriving DecidableEq, Repr

structure WebAuthnCredentialSummary where
  credentialId : String
  nickname : Option String
  transports : List String
  attestationFormat : Option String
  aaguid : Option String
  discoverable : Bool
  createdAt : Nat
  lastUsedAt : Option Nat
  deriving DecidableEq, Repr

-- The documents stand under their _id. The challenge store is one for all
-- services of the process.
structure World where
  base : Base
  challengeStore : Dict String WebAuthnChallenge
  credentials : Dict String WebAuthnCredentialDoc

-- What a call fails with: an error of the application or of the driver, or one
-- that JavaScript throws.
inductive Failure where
  | error (raised : Error)
  | native (message : String)
  deriving DecidableEq, Repr

abbrev Program := Prog CallId World Failure

def raise (kind : ErrorClass) (message code : String) : Program α := Prog.throw (.error (.pezhwan kind message code))

def lift : Except String α → Program α
  | .ok value => pure value
  | .error message => Prog.throw (.native message)

def operation (f : CallId → World → Except MongoError (α × World)) : Program α :=
  Prog.tryAtomic fun i w => match w.base.fault with
    | some e => .error (.error (.mongo e))
    | none => (f i w).mapError fun e => .error (.mongo e)

abbrev Entry := String × WebAuthnCredentialDoc

-- Without a sort, a query meets the documents in the order of their insertion.
def findOne (p : WebAuthnCredentialDoc → Bool) (w : World) : Option Entry := w.credentials.entries.find? fun entry => p entry.2

def updateById (id : String) (change : WebAuthnCredentialDoc → WebAuthnCredentialDoc) (w : World) : World :=
  {w with credentials := w.credentials.modify id change}

-- With the number of the documents that matched.
def updateOne (p : WebAuthnCredentialDoc → Bool) (change : WebAuthnCredentialDoc → WebAuthnCredentialDoc) (w : World) : Nat × World :=
  match findOne p w with
  | none => (0,w)
  | some entry => (1,updateById entry.1 change w)

def deleteOne (p : WebAuthnCredentialDoc → Bool) (w : World) : Nat × World :=
  match findOne p w with
  | none => (0,w)
  | some entry => (1,{w with credentials := w.credentials.erase entry.1})

-- The unique indexes: the id, and the credential id.
def insert (id : String) (doc : WebAuthnCredentialDoc) (w : World) : Except MongoError World :=
  if (w.credentials.get? id).isSome ∨ w.credentials.values.any (fun other => other.credentialId = doc.credentialId) then
    .error duplicateKey
  else .ok {w with credentials := w.credentials.set id doc}

def DEFAULT_CHALLENGE_TTL_MS : Nat := 5 * 60000

structure WebAuthnService where
  rpName : String
  rpId : String
  origins : List String
  requireUserVerification : Bool
  requireResidentKey : Bool
  attestation : AttestationConveyance
  challengeTtlMs : Nat
  named : rpId ≠ ""
  allowed : origins ≠ []
  deriving DecidableEq

def WebAuthnService.of (config : WebAuthnConfig) : Except Error WebAuthnService :=
  if unnamed : config.rpId = "" then .error (.pezhwan .validation "WebAuthn requires an rpId" "INVALID_CONFIG")
  else if none : config.origins = [] then
    .error (.pezhwan .validation "WebAuthn requires at least one allowed origin" "INVALID_CONFIG")
  else .ok {
    rpName := config.rpName
    rpId := config.rpId
    origins := config.origins
    requireUserVerification := config.requireUserVerification.getD false
    requireResidentKey := config.requireResidentKey.getD false
    attestation := config.attestation.getD .none
    challengeTtlMs := config.challengeTtlMs.getD DEFAULT_CHALLENGE_TTL_MS
    named := unnamed
    allowed := none}

structure RegisterOptionsResult where
  options : PublicKeyCredentialCreationOptions
  expectedChallenge : String
  deriving DecidableEq, Repr

structure AuthenticateOptionsResult where
  options : PublicKeyCredentialRequestOptions
  expectedChallenge : String
  deriving DecidableEq, Repr

-- One slash at the end does not count.
def normalized (origin : String) : String :=
  if origin.toList.getLast? = some '/' then String.ofList origin.toList.dropLast else origin

def allows (origin : String) (allowedOrigins : List String) : Bool :=
  allowedOrigins.any fun o => normalized o = normalized origin

def toSummary (doc : WebAuthnCredentialDoc) : WebAuthnCredentialSummary :=
  ⟨doc.credentialId,doc.nickname,doc.transports,doc.attestationFormat,doc.aaguid,doc.discoverable,doc.createdAt,doc.lastUsedAt⟩

-- A challenge is drawn and stored in one stretch.
def remember (node : Node) (ttl : Nat) (userId : String) (i : CallId) (w : World) : String × World :=
  let challenge := node.random.fresh w.base.draws.length
  (challenge,{w with
    base := {w.base with draws := w.base.draws ++ [i]}
    challengeStore := w.challengeStore.set challenge ⟨challenge,some userId,w.base.now + ttl⟩})

def takeChallenge (challenge : String) (w : World) : Option WebAuthnChallenge × World :=
  ((w.challengeStore.get? challenge).filter fun pending => !decide (pending.expiresAt < w.base.now),
    {w with challengeStore := w.challengeStore.erase challenge})

-- Whose challenge it was, if anyone's.
def claimant (pending : Option WebAuthnChallenge) : Option String := truthy (pending.bind WebAuthnChallenge.userId)

def usable (credentialId : String) (doc : WebAuthnCredentialDoc) : Bool := doc.credentialId = credentialId && !doc.isRevoked

def owned (userId credentialId : String) (doc : WebAuthnCredentialDoc) : Bool :=
  doc.userId = userId && doc.credentialId = credentialId

-- The fields that completeAuthentication hands to the verifier.
def handed (doc : WebAuthnCredentialDoc) : WebAuthnCredential :=
  ⟨doc.credentialId,doc.publicKey,doc.counter,doc.transports,doc.createdAt⟩

def used (newCounter now : Nat) (doc : WebAuthnCredentialDoc) : WebAuthnCredentialDoc :=
  {doc with counter := newCounter,lastUsedAt := some now}

namespace WebAuthnService
variable (node : Node) (verifySignature : SignatureCheck) (service : WebAuthnService)

def userVerification : UserVerification := if service.requireUserVerification then .required else .preferred

def residentKey : ResidentKey := if service.requireResidentKey then .required else .preferred

def beginRegistration (userId userName userDisplayName : String) (existingCredentialIds : List String) :
    Program RegisterOptionsResult := do
  let challenge ← Prog.atomic (remember node service.challengeTtlMs userId)
  pure ⟨generateRegistrationOptions challenge service.rpName (some service.rpId) userId userName userDisplayName
    existingCredentialIds service.userVerification service.residentKey service.attestation 60000,challenge⟩

-- The time of the creation is set when the document is stored.
def credentialOf (userId : String) (registrationResult : RegistrationResult) (credentialId : String)
    (verification : WebAuthnVerificationResult) : WebAuthnCredentialDoc where
  tenantId := userId
  userId := userId
  credentialId := credentialId
  publicKey := verification.credentialPublicKey.getD ""
  counter := verification.newCounter.getD 0
  transports := registrationResult.getTransports.getD []
  attestationFormat := some (verification.attestationFormat.getD (match service.attestation with
    | .none => "none"
    | .indirect => "indirect"
    | .direct => "direct"))
  nickname := none
  aaguid := none
  discoverable := service.requireResidentKey
  userVerified := service.requireUserVerification
  isRevoked := false
  revokedAt := none
  lastUsedAt := none
  createdAt := 0

-- A document without a public key does not pass the schema.
def create (node : Node) (doc : WebAuthnCredentialDoc) : Program WebAuthnCredentialDoc :=
  if doc.publicKey = "" then
    Prog.throw (.native "WebAuthnCredential validation failed: publicKey: Path `publicKey` is required.")
  else operation fun i w =>
    let stored := {doc with createdAt := w.base.now}
    (insert (node.random.fresh w.base.draws.length) stored {w with base := {w.base with draws := w.base.draws ++ [i]}}).map
      fun t => (stored,t)

def completeRegistration (registrationResult : RegistrationResult) (expectedChallenge origin : String) :
    Program WebAuthnCredentialSummary := do
  if !allows origin service.origins then raise .authentication "Origin not allowed" "WEB_AUTHN_ORIGIN"
  else match claimant (← Prog.atomic fun _ w => takeChallenge expectedChallenge w) with
    | none => raise .authentication "Unknown or expired challenge" "WEB_AUTHN_CHALLENGE"
    | some userId =>
      let verification ← lift (verifyRegistrationResponse node expectedChallenge origin service.rpId registrationResult)
      match verification.verified,truthy verification.credentialId with
      | true,some credentialId =>
        let existing ← operation fun _ w =>
          .ok (w.credentials.values.countP (fun doc => doc.credentialId = credentialId),w)
        if 0 < existing then raise .validation "Credential already registered" "WEB_AUTHN_DUPLICATE"
        else
          let credential ← create node (service.credentialOf userId registrationResult credentialId verification)
          pure (toSummary credential)
      | _,_ => raise .authentication (verification.error.getD "Registration verification failed") "WEB_AUTHN_INVALID"

def listCredentialIds (userId : String) : Program (List String) :=
  operation fun _ w =>
    .ok ((w.credentials.values.filter fun doc => doc.userId = userId && !doc.isRevoked).map WebAuthnCredentialDoc.credentialId,w)

def allowCredentials (userId : String) : Option (List String) → Program (List String)
  | some (first :: rest) => pure (first :: rest)
  | _ => listCredentialIds userId

def beginAuthentication (userId : String) (credentialIds : Option (List String)) : Program AuthenticateOptionsResult := do
  let allowed ← allowCredentials userId credentialIds
  let challenge ← Prog.atomic (remember node service.challengeTtlMs userId)
  pure ⟨generateAuthenticationOptions challenge (some service.rpId) allowed service.userVerification 60000,challenge⟩

def completeAuthentication (authenticationResult : AuthenticationResult) (expectedChallenge origin : String) : Program Bool := do
  if !allows origin service.origins then raise .authentication "Origin not allowed" "WEB_AUTHN_ORIGIN"
  else match claimant (← Prog.atomic fun _ w => takeChallenge expectedChallenge w) with
    | none => raise .authentication "Unknown or expired challenge" "WEB_AUTHN_CHALLENGE"
    | some _ => match ← operation fun _ w => .ok (findOne (usable authenticationResult.id) w,w) with
      | none => raise .authentication "Unknown credential" "WEB_AUTHN_UNKNOWN"
      | some (id,credential) =>
        let verification ← lift
          (verifyAuthenticationResponse node verifySignature expectedChallenge origin service.rpId authenticationResult
            (handed credential))
        if !verification.verified then pure false
        else
          let newCounter := verification.newCounter.getD credential.counter
          if 0 < credential.counter ∧ newCounter ≤ credential.counter then pure false
          else
            operation fun _ w => .ok ((),updateById id (used newCounter w.base.now) w)
            pure true

-- An update or a deletion that has to find its document.
def required (change : World → Nat × World) : Program Unit := do
  let matched ← operation fun _ w => .ok (change w)
  if matched = 0 then raise .validation "Credential not found" "WEB_AUTHN_NOT_FOUND"
  else pure ()

def renameCredential (userId credentialId nickname : String) : Program Unit :=
  required (updateOne (owned userId credentialId) fun doc => {doc with nickname := some (node.trim nickname)})

def deleteCredential (userId credentialId : String) : Program Unit := required (deleteOne (owned userId credentialId))

def revokeCredential (userId credentialId : String) : Program Unit :=
  required fun w => updateOne (owned userId credentialId) (fun doc => {doc with isRevoked := true,revokedAt := some w.base.now}) w

end WebAuthnService

inductive Call where
  | beginRegistration (userId userName userDisplayName : String) (existingCredentialIds : List String)
  | completeRegistration (registrationResult : RegistrationResult) (expectedChallenge origin : String)
  | beginAuthentication (userId : String) (credentialIds : Option (List String))
  | completeAuthentication (authenticationResult : AuthenticationResult) (expectedChallenge origin : String)
  | renameCredential (userId credentialId nickname : String)
  | deleteCredential (userId credentialId : String)
  | revokeCredential (userId credentialId : String)
  deriving DecidableEq

inductive Reply where
  | creation (options : RegisterOptionsResult)
  | summary (credential : WebAuthnCredentialSummary)
  | request (options : AuthenticateOptionsResult)
  | accepted (answer : Bool)
  | done
  deriving DecidableEq

-- A call on one of the services of the process.
structure Asked where
  service : WebAuthnService
  call : Call
  deriving DecidableEq

def program (node : Node) (verifySignature : SignatureCheck) (asked : Asked) : Program Reply :=
  match asked.call with
  | .beginRegistration userId userName userDisplayName existing =>
    Reply.creation <$> asked.service.beginRegistration node userId userName userDisplayName existing
  | .completeRegistration registration challenge origin =>
    Reply.summary <$> asked.service.completeRegistration node registration challenge origin
  | .beginAuthentication userId credentialIds => Reply.request <$> asked.service.beginAuthentication node userId credentialIds
  | .completeAuthentication assertion challenge origin =>
    Reply.accepted <$> asked.service.completeAuthentication node verifySignature assertion challenge origin
  | .renameCredential userId credentialId nickname =>
    (fun _ => Reply.done) <$> WebAuthnService.renameCredential node userId credentialId nickname
  | .deleteCredential userId credentialId => (fun _ => Reply.done) <$> WebAuthnService.deleteCredential userId credentialId
  | .revokeCredential userId credentialId => (fun _ => Reply.done) <$> WebAuthnService.revokeCredential userId credentialId

end Pezhwan.WebAuthn
