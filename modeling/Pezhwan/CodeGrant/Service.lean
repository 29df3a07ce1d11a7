import Pezhwan.Atomic.Dict
import Pezhwan.Atomic.Trace
import Pezhwan.Auth.World

-- The OAuth engine of the oauth package over its in-memory code store.
namespace Pezhwan.CodeGrant
open Atomic Prog
open Auth (Platform AuthMethod PkceMethod)

structure OAuthClientRecord where
  clientId : String
  redirectUris : List String
  isConfidential : Bool
  clientSecretHash : Option String
  isActive : Bool
  deriving DecidableEq, Repr

structure AuthorizationCode where
  id : String
  codeHash : String
  tenantId : String
  applicationId : String
  clientId : String
  userId : String
  sessionId : String
  redirectUri : String
  scope : List String
  codeChallenge : Option String
  codeChallengeMethod : Option PkceMethod
  nonce : Option String
  authMethod : AuthMethod
  expiresAt : Nat
  consumedAt : Option Nat
  createdAt : Nat
  deriving DecidableEq, Repr

-- `drawn` counts the random tokens taken so far.
structure World where
  now : Nat
  drawn : Nat
  clients : Dict String OAuthClientRecord
  records : Dict String AuthorizationCode
  deriving DecidableEq

abbrev Program := Prog CallId World Error

structure TokenContext where
  userId : String
  tenantId : String
  applicationId : String
  sessionId : Option String
  authMethod : AuthMethod
  scope : List String
  clientId : Option String
  deriving DecidableEq, Repr

structure OAuthTokenSet where
  accessToken : String
  idToken : Option String
  refreshToken : Option String
  expiresIn : Option Nat
  deriving DecidableEq, Repr

structure TokenResponse where
  tokens : OAuthTokenSet
  scope : String
  deriving DecidableEq, Repr

structure IssueCodeParams where
  tenantId : String
  applicationId : String
  clientId : String
  userId : String
  sessionId : String
  redirectUri : String
  scope : List String
  state : Option String
  nonce : Option String
  codeChallenge : Option String
  codeChallengeMethod : Option PkceMethod
  authMethod : AuthMethod
  deriving DecidableEq, Repr

structure IssuedCode where
  code : String
  redirectUri : String
  state : Option String
  deriving DecidableEq, Repr

structure TokenRequest where
  clientId : String
  clientSecret : Option String
  redirectUri : String
  code : String
  codeVerifier : Option String
  deriving DecidableEq, Repr

-- The callback that mints the tokens.
structure OAuthService where
  platform : Platform
  issueTokens : TokenContext → CallId → World → Except Error OAuthTokenSet

-- pkce.ts
def generateCodeChallenge (platform : Platform) (verifier : String) : PkceMethod → String
  | .plain => verifier
  | _ => platform.s256 verifier

def verifyPkce (platform : Platform) (verifier : String) (challenge : Option String) (method : Option PkceMethod) : Bool :=
  match truthy challenge,method with
  | none,_ | _,none | _,some .none => false
  | some challenge,some method => generateCodeChallenge platform verifier method = challenge

-- authorization-code.ts
namespace MemoryAuthorizationCodeStore

def create (record : AuthorizationCode) (w : World) : World := {w with records := w.records.set record.id record}

def findByHash (codeHash : String) (w : World) : Option AuthorizationCode :=
  w.records.values.find? fun record => record.codeHash = codeHash

def consume (id : String) (w : World) : Bool × World :=
  match w.records.get? id with
  | none => (false,w)
  | some record =>
    if record.consumedAt.isSome then (false,w)
    else (true,{w with records := w.records.set id {record with consumedAt := some w.now}})

end MemoryAuthorizationCodeStore
open MemoryAuthorizationCodeStore

def DEFAULT_CODE_TTL_MS : Nat := 5 * 60 * 1000

def recordOf (platform : Platform) (params : IssueCodeParams) (w : World) : AuthorizationCode where
  id := platform.random.fresh (w.drawn + 1)
  codeHash := platform.sha256 (platform.random.fresh w.drawn)
  tenantId := params.tenantId
  applicationId := params.applicationId
  clientId := params.clientId
  userId := params.userId
  sessionId := params.sessionId
  redirectUri := params.redirectUri
  scope := params.scope
  codeChallenge := params.codeChallenge
  codeChallengeMethod := params.codeChallengeMethod
  nonce := params.nonce
  authMethod := params.authMethod
  expiresAt := w.now + DEFAULT_CODE_TTL_MS
  consumedAt := none
  createdAt := w.now

-- The tokens, the time and the record: nothing is awaited between them.
def issue (platform : Platform) (params : IssueCodeParams) : Program String :=
  Prog.atomic fun _ w => (platform.random.fresh w.drawn,create (recordOf platform params w) {w with drawn := w.drawn + 2})

-- The checks of redeem after the lookup, and the store's answer to consume.
def use (record : AuthorizationCode) (w : World) : Bool × World :=
  if record.consumedAt.isSome ∨ record.expiresAt ≤ w.now then (false,w) else consume record.id w

def redeem (platform : Platform) (rawCode : String) : Program (Option AuthorizationCode) := do
  match ← Prog.atomic fun _ w => (findByHash (platform.sha256 rawCode) w,w) with
  | none => pure none
  | some record =>
    let consumed ← Prog.atomic fun _ w => use record w
    pure (if consumed then some record else none)

-- oauth.service.ts
def CLIENT_AUTH_FAILED : String := "CLIENT_AUTHENTICATION_FAILED"

def raise (kind : ErrorClass) (message code : String) : Program α := Prog.throw (.pezhwan kind message code)

namespace OAuthService
variable (service : OAuthService)

def loadClient (clientId : String) : Program (Option OAuthClientRecord) :=
  Prog.atomic fun _ w => (w.clients.get? clientId,w)

def requireActiveClient (clientId : String) : Program OAuthClientRecord := do
  match ← loadClient clientId with
  | none => raise .token "Unknown OAuth client" "UNKNOWN_CLIENT"
  | some client =>
    if !client.isActive then raise .token "OAuth client is disabled" "CLIENT_DISABLED"
    else pure client

def authenticateClient (client : OAuthClientRecord) (clientSecret : Option String) : Program Unit :=
  if !client.isConfidential then pure ()
  else match truthy client.clientSecretHash,truthy clientSecret with
    | some stored,some secret =>
      if service.platform.sha256 secret ≠ stored then
        raise .authorization "Client authentication failed" CLIENT_AUTH_FAILED
      else pure ()
    | _,_ => raise .authorization "Client authentication failed" CLIENT_AUTH_FAILED

def redirectMismatch (kind : ErrorClass) : Program α := raise kind "Redirect URI mismatch" "OAUTH_REDIRECT_URI_MISMATCH"

def issueCode (params : IssueCodeParams) : Program IssuedCode := do
  let client ← requireActiveClient params.clientId
  if !client.redirectUris.contains params.redirectUri then redirectMismatch .validation
  else
    let code ← issue service.platform params
    pure ⟨code,params.redirectUri,params.state⟩

def mint (context : TokenContext) : Program OAuthTokenSet :=
  Prog.tryAtomic fun i w => (service.issueTokens context i w).map fun tokens => (tokens,w)

def exchangeAuthorizationCode (request : TokenRequest) : Program TokenResponse := do
  let client ← requireActiveClient request.clientId
  service.authenticateClient client request.clientSecret
  if !client.redirectUris.contains request.redirectUri then redirectMismatch .token
  else match ← redeem service.platform request.code with
    | none => raise .token "Invalid authorization code" "INVALID_AUTHORIZATION_CODE"
    | some record =>
      if record.redirectUri ≠ request.redirectUri then redirectMismatch .token
      else if (truthy record.codeChallenge).isSome ∧
          verifyPkce service.platform (request.codeVerifier.getD "") record.codeChallenge record.codeChallengeMethod = false then
        raise .token "PKCE verification failed" "PKCE_VERIFICATION_FAILED"
      else
        let tokens ← service.mint
          ⟨record.userId,record.tenantId,record.applicationId,some record.sessionId,record.authMethod,record.scope,
            some record.clientId⟩
        pure ⟨tokens," ".intercalate record.scope⟩

def clientCredentials (clientId : String) (clientSecret : Option String) (scope : Option (List String)) :
    Program TokenResponse := do
  let client ← requireActiveClient clientId
  if !client.isConfidential then raise .authorization "Public clients cannot use client_credentials" CLIENT_AUTH_FAILED
  else
    service.authenticateClient client clientSecret
    let scope := scope.getD ["service"]
    let tokens ← service.mint ⟨client.clientId,"system","system",none,.service,scope,some client.clientId⟩
    pure ⟨tokens," ".intercalate scope⟩

end OAuthService

inductive Call where
  | issueCode (params : IssueCodeParams)
  | exchange (request : TokenRequest)
  | clientCredentials (clientId : String) (clientSecret : Option String) (scope : Option (List String))
  deriving DecidableEq

inductive Reply where
  | code (issued : IssuedCode)
  | tokens (response : TokenResponse)
  deriving DecidableEq

def program (service : OAuthService) : Call → Program Reply
  | .issueCode params => Reply.code <$> service.issueCode params
  | .exchange request => Reply.tokens <$> service.exchangeAuthorizationCode request
  | .clientCredentials clientId clientSecret scope => Reply.tokens <$> service.clientCredentials clientId clientSecret scope

end Pezhwan.CodeGrant
