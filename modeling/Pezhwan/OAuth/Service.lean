import Pezhwan.Auth.Engine
import Pezhwan.Json

namespace Pezhwan.OAuth
open Atomic Auth

structure OAuthService where
  platform : Platform
  tokens : TokenService
  sessions : Session.SessionService
  issuer : String

def note (entries : List OAuthEntry) (w : World) : World := {w with oauthLog := w.oauthLog ++ entries}

-- split(/\s+/): a run of blanks separates, and one at either end leaves an
-- empty word there.
def splitSpaces : (word rest : List Char) → List (List Char)
  | word,[] => [word.reverse]
  | word,c :: rest =>
    if isSpace c then
      if rest.head?.any isSpace then splitSpaces word rest else word.reverse :: splitSpaces [] rest
    else splitSpaces (c :: word) rest

def words (text : String) : List String := (splitSpaces [] text.toList).map String.ofList

def scopeText (scope : List String) : String :=
  let joined := " ".intercalate scope
  if joined = "" then "openid" else joined

-- Clients.
structure RegisterClientInput where
  tenantId : String
  applicationId : String
  name : String
  redirectUris : List String
  grants : Option (List OAuthGrant)
  scopes : Option (List String)
  confidential : Option Bool
  clientSecret : Option String
  deriving DecidableEq

structure RegisteredClient where
  clientId : String
  clientSecret : Option String
  deriving DecidableEq

structure AuthorizeInput where
  clientId : String
  redirectUri : String
  scope : String
  nonce : Option String
  userId : String
  sessionId : String
  applicationId : String
  tenantId : String
  authMethod : AuthMethod
  codeChallenge : Option String
  codeChallengeMethod : Option String
  deriving DecidableEq

structure IssuedCode where
  code : String
  expiresIn : Nat
  deriving DecidableEq

structure ExchangeInput where
  grantType : String
  clientId : String
  clientSecret : Option String
  code : Option String
  redirectUri : Option String
  codeVerifier : Option String
  refreshToken : Option String
  scope : Option String
  tenantId : String
  applicationId : String
  device : DeviceInfo
  deriving DecidableEq

-- The claims of an ID token; the signature is not modelled.
structure IdToken where
  iss : String
  sub : String
  aud : String
  iat : Nat
  exp : Nat
  auth_time : Nat
  nonce : Option String
  tenantId : String
  applicationId : String
  sessionId : String
  deriving DecidableEq

structure OAuthTokens where
  accessToken : AccessToken
  refreshToken : Option String
  idToken : Option IdToken
  expiresIn : Nat
  scope : String
  deriving DecidableEq

namespace OAuthService
variable (service : OAuthService)

def findClient (clientId tenantId applicationId : String) : Program (Option OAuthClientDoc) :=
  op fun i w =>
    let found := w.clients.find? fun client =>
      client.clientId = clientId && client.tenantId = tenantId && client.applicationId = applicationId
    .ok (found,note (found.toList.map (.found i)) w)

def clientSecretFor (input : RegisterClientInput) : Program String :=
  match input.clientSecret with
  | some secret => pure secret
  | none => base (draw service.platform.random)

def createClient (client : OAuthClientDoc) : Program Unit :=
  op fun i w =>
    let client := {client with id := service.platform.random.fresh w.base.draws.length,updatedAt := w.base.now}
    if w.clients.any (fun other => other.clientId = client.clientId) then .error duplicateKey
    else .ok ((),note [.registered i client]
      {w with base := {w.base with draws := w.base.draws ++ [i]},clients := w.clients ++ [client]})

def registerClient (input : RegisterClientInput) : Program RegisteredClient := do
  let suffix ← base (draw service.platform.random)
  let clientId := "client_" ++ suffix
  let secret ← service.clientSecretFor input
  let isPublic := input.confidential = some false
  service.createClient
    {id := "",tenantId := input.tenantId,applicationId := input.applicationId,name := input.name,clientId,
     clientSecretHash := if isPublic then none else some (service.platform.sha256 secret),
     redirectUris := input.redirectUris,grants := input.grants.getD [.authorization_code,.refresh_token],
     pkceMethods := if isPublic then [.S256] else [.S256,.plain],
     scopes := input.scopes.getD ["openid","profile","email"],isActive := true,isConfidential := !isPublic,
     tokenEndpointAuthMethod := if isPublic then .none else .client_secret_post}
  pure ⟨clientId,if isPublic then none else some secret⟩

def invalidClient : Program α := authenticationError "Invalid client" "INVALID_CLIENT"

def authenticateClientAtTokenEndpoint (clientId : String) (clientSecret : Option String)
    (tenantId applicationId : String) : Program OAuthClientDoc := do
  match ← findClient clientId tenantId applicationId with
  | none => invalidClient
  | some client =>
    if !client.isActive then invalidClient
    else if client.tokenEndpointAuthMethod = .none then pure client
    else match truthy clientSecret with
      | none => authenticationError "Client authentication required" "INVALID_CLIENT"
      | some secret =>
        if (truthy client.clientSecretHash).any (fun stored => service.platform.sha256 secret = stored) then pure client
        else invalidClient

-- Authorization codes.
def CODE_TTL_SECONDS : Nat := 10 * 60

def createCode (code : AuthorizationCodeDoc) : Program Unit :=
  op fun i w =>
    let code := {code with id := service.platform.random.fresh w.base.draws.length}
    if w.codes.any (fun other => other.codeHash = code.codeHash) then .error duplicateKey
    else .ok ((),note [.issued i code]
      {w with base := {w.base with draws := w.base.draws ++ [i]},codes := w.codes ++ [code]})

def requestedScope (scope : String) : List String := if scope = "" then ["openid"] else words scope

def unknownClient : Program α := raise .validation "Unknown client" "UNKNOWN_CLIENT"

def issueCode (input : AuthorizeInput) (challenge : String) (method : String) : Program IssuedCode := do
  let raw ← base (draw service.platform.random)
  let now ← base clock
  service.createCode
    {id := "",codeHash := service.platform.sha256 raw,tenantId := input.tenantId,applicationId := input.applicationId,
     clientId := input.clientId,userId := input.userId,sessionId := input.sessionId,redirectUri := input.redirectUri,
     scope := requestedScope input.scope,codeChallenge := some challenge,
     codeChallengeMethod := some (if method = "plain" then .plain else .S256),nonce := input.nonce,
     authMethod := input.authMethod,expiresAt := now + CODE_TTL_SECONDS * 1000,consumedAt := none}
  pure ⟨raw,CODE_TTL_SECONDS⟩

def authorizeCode (input : AuthorizeInput) : Program IssuedCode := do
  match ← findClient input.clientId input.tenantId input.applicationId with
  | none => unknownClient
  | some client =>
    let method := input.codeChallengeMethod.getD "S256"
    if !client.isActive then unknownClient
    else if client.tenantId ≠ input.tenantId ∨ client.applicationId ≠ input.applicationId then invalidClient
    else if !client.redirectUris.contains input.redirectUri then
      raise .validation "Invalid redirect_uri" "INVALID_REDIRECT_URI"
    else if !client.grants.contains .authorization_code then
      raise .validation "Client does not allow authorization_code grant" "UNSUPPORTED_GRANT"
    else if (requestedScope input.scope).any (fun scope => !client.scopes.contains scope) then
      raise .validation "Invalid scope" "INVALID_SCOPE"
    else match truthy input.codeChallenge with
      | none => raise .validation "code_challenge is required" "PKCE_REQUIRED"
      | some challenge =>
        if !(client.pkceMethods.map PkceMethod.name).contains method then
          raise .validation "Unsupported code_challenge_method" "INVALID_PKCE_METHOD"
        else service.issueCode input challenge method

-- The transformation verifyPkce compares with the stored challenge.
def transformed (verifier : String) (method : Option PkceMethod) : String :=
  if method = some .S256 then service.platform.s256 verifier else verifier

def verifyPkce (verifier challenge : String) (method : Option PkceMethod) : Bool :=
  service.transformed verifier method = challenge

def selectsCode (hashed clientId tenantId applicationId : String) (code : AuthorizationCodeDoc) : Bool :=
  code.codeHash = hashed && code.clientId = clientId && code.tenantId = tenantId &&
    code.applicationId = applicationId && code.consumedAt.isNone

def findCode (hashed clientId tenantId applicationId : String) : Program (Option AuthorizationCodeDoc) :=
  op fun i w =>
    let found := w.codes.find? (selectsCode hashed clientId tenantId applicationId)
    .ok (found,note (found.toList.map (.presented i)) w)

-- new Date() of the expiry check
def checkTime : Program Nat := Prog.atomic fun i w => (w.base.now,note [.timed i w.base.now] w)

def consumeCode (id hashed clientId tenantId applicationId : String) : Program (Option AuthorizationCodeDoc) :=
  op fun i w =>
    let live := fun code => decide (code.id = id) && selectsCode hashed clientId tenantId applicationId code
    let use := fun code : AuthorizationCodeDoc => {code with consumedAt := some w.base.now}
    let found := (w.codes.find? live).map use
    .ok (found,note (found.toList.map (.consumed i)) {w with codes := Collection.updateOne live use w.codes})

def invalidGrant (message : String) : Program α := authenticationError message "INVALID_GRANT"

def checkPkce (code : AuthorizationCodeDoc) (codeVerifier : Option String) : Program Unit :=
  match truthy code.codeChallenge with
  | none => pure ()
  | some challenge => match truthy codeVerifier with
    | none => invalidGrant "code_verifier required"
    | some verifier =>
      if service.verifyPkce verifier challenge code.codeChallengeMethod then pure ()
      else do
        session (Session.revoke code.sessionId)
        invalidGrant "PKCE verification failed"

def signIdToken (code : AuthorizationCodeDoc) (sessionId : String) : Program IdToken := do
  let now ← base clock
  pure {iss := service.tokens.issuer,sub := code.userId,aud := code.clientId,iat := now/1000,
        exp := now/1000 + service.tokens.accessTokenTtlMs/1000,auth_time := now/1000,nonce := code.nonce,
        tenantId := code.tenantId,applicationId := code.applicationId,sessionId}

def idTokenFor (code : AuthorizationCodeDoc) (sessionId : String) : Program (Option IdToken) :=
  if code.scope.contains "openid" then some <$> service.signIdToken code sessionId else pure none

def issueForCode (code : AuthorizationCodeDoc) (device : DeviceInfo) : Program OAuthTokens := do
  let created ← session (Session.create service.sessions
    ⟨code.userId,code.tenantId,code.applicationId,device.ip,device.userAgent,device.deviceLabel⟩)
  let accessToken ← signAccessToken service.platform service.tokens
    ⟨code.userId,code.tenantId,code.applicationId,created.sessionId,[],[],code.authMethod⟩
    (some (scopeText code.scope)) (some code.clientId) none
  let idToken ← service.idTokenFor code created.sessionId
  pure ⟨accessToken,some created.refreshToken,idToken,service.tokens.accessTokenTtlMs,scopeText code.scope⟩

def exchangeAuthorizationCode (client : OAuthClientDoc) (input : ExchangeInput) : Program OAuthTokens :=
  match truthy input.code with
  | none => raise .validation "code is required" "INVALID_GRANT"
  | some presented => do
    let hashed := service.platform.sha256 presented
    match ← findCode hashed client.clientId input.tenantId input.applicationId with
    | none => invalidGrant "Invalid or expired code"
    | some code =>
      let now ← checkTime
      if code.expiresAt < now then invalidGrant "Code expired"
      else if input.redirectUri ≠ some code.redirectUri then invalidGrant "redirect_uri mismatch"
      else
        service.checkPkce code input.codeVerifier
        match ← consumeCode code.id hashed client.clientId input.tenantId input.applicationId with
        | none => invalidGrant "Code already used"
        | some _ => service.issueForCode code input.device

def exchangeRefreshToken (client : OAuthClientDoc) (input : ExchangeInput) : Program OAuthTokens :=
  if !client.grants.contains .refresh_token then
    raise .validation "Client does not allow refresh_token grant" "UNSUPPORTED_GRANT"
  else match truthy input.refreshToken with
    | none => raise .validation "refresh_token required" "INVALID_GRANT"
    | some refreshToken => do
      let created ← session (Session.refresh service.sessions refreshToken
        ⟨input.device.ip,input.device.userAgent,input.device.deviceLabel,some input.tenantId,some input.applicationId⟩)
      let accessToken ← signAccessToken service.platform service.tokens
        ⟨created.userId,created.tenantId,created.applicationId,created.sessionId,[],[],.oauth⟩
        none (some client.clientId) none
      pure ⟨accessToken,some created.refreshToken,none,service.tokens.accessTokenTtlMs,"openid"⟩

def exchangeClientCredentials (client : OAuthClientDoc) (input : ExchangeInput) : Program OAuthTokens :=
  if !client.grants.contains .client_credentials then
    raise .validation "Client does not allow client_credentials grant" "UNSUPPORTED_GRANT"
  else
    let requested := words (service.platform.trim (input.scope.getD "default"))
    if requested.any (fun scope => !client.scopes.contains scope) then raise .validation "Invalid scope" "INVALID_SCOPE"
    else do
      let sessionId ← base (draw service.platform.random)
      let accessToken ← signAccessToken service.platform service.tokens
        ⟨"client:" ++ client.clientId,input.tenantId,input.applicationId,sessionId,["SERVICE"],[],.service⟩
        (some (" ".intercalate requested)) (some client.clientId) none
      pure ⟨accessToken,none,none,900," ".intercalate requested⟩

def exchange (input : ExchangeInput) : Program OAuthTokens := do
  let client ← service.authenticateClientAtTokenEndpoint input.clientId input.clientSecret input.tenantId
    input.applicationId
  if client.tenantId ≠ input.tenantId ∨ client.applicationId ≠ input.applicationId then invalidClient
  else match input.grantType with
    | "authorization_code" => service.exchangeAuthorizationCode client input
    | "refresh_token" => service.exchangeRefreshToken client input
    | "client_credentials" => service.exchangeClientCredentials client input
    | _ => raise .validation "Unsupported grant type" "UNSUPPORTED_GRANT"

end OAuthService

-- Ordinary logins, logouts and rotations act on the same sessions.
inductive Call where
  | registerClient (input : RegisterClientInput)
  | authorizeCode (input : AuthorizeInput)
  | exchange (input : ExchangeInput)
  | session (call : Session.Call)
  deriving DecidableEq

inductive Reply where
  | client (registered : RegisteredClient)
  | code (issued : IssuedCode)
  | tokens (issued : OAuthTokens)
  | session (reply : Session.Reply)
  deriving DecidableEq

def program (service : OAuthService) : Call → Program Reply
  | .registerClient input => Reply.client <$> service.registerClient input
  | .authorizeCode input => Reply.code <$> service.authorizeCode input
  | .exchange input => Reply.tokens <$> service.exchange input
  | .session call => Reply.session <$> Auth.session (Session.program service.sessions call)

end Pezhwan.OAuth
