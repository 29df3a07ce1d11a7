import Pezhwan.Session.Service

namespace Pezhwan.Auth
open Atomic

-- Channel and purpose of a one-time passcode. The routes pass on any text.
inductive Channel where
  | email | phone | other (name : String)
  deriving DecidableEq, Repr

def Channel.name : Channel → String
  | .email => "email"
  | .phone => "phone"
  | .other name => name

inductive OtpPurpose where
  | login | verify_email | verify_phone | password_reset | change_email | change_phone | other (name : String)
  deriving DecidableEq, Repr

inductive VerificationTokenKind where
  | email_verification | password_reset | magic_link | email_change | phone_change
  deriving DecidableEq, Repr

inductive AuthMethod where
  | password | email_otp | phone_otp | oauth | oidc | passkey | mfa_totp | magic_link | api_key | service
  deriving DecidableEq, Repr

-- What a filter on _id is cast to: an ObjectId prints in lower case, and its
-- digits may come in either.
def objectId (text : String) : String :=
  if text.length = 24 ∧ text.all (fun c => c.isDigit || 'a' ≤ c.toLower && c.toLower ≤ 'f') then text.map Char.toLower else text

structure UserDoc where
  id : String
  tenantId : String
  email : Option String
  phone : Option String
  emailVerified : Bool
  phoneVerified : Bool
  isActive : Bool
  tokenVersion : Nat
  passwordHash : Option String
  failedLoginAttempts : Nat
  loginLockUntil : Option Nat
  mfaEnabled : Bool
  mfaSecret : Option String
  mfaSecretVerifiedAt : Option Nat
  mfaFailedAttempts : Nat
  mfaLockUntil : Option Nat
  deriving DecidableEq, Repr

structure OtpDoc where
  id : String
  tenantId : String
  applicationId : String
  channel : Channel
  target : String
  purpose : OtpPurpose
  codeHash : String
  expiresAt : Nat
  attempts : Nat
  consumed : Bool
  deriving DecidableEq, Repr

structure VerificationTokenDoc where
  id : String
  kind : VerificationTokenKind
  tenantId : String
  applicationId : String
  userId : String
  tokenHash : String
  target : Option String
  redirectUri : Option String
  expiresAt : Nat
  consumedAt : Option Nat
  deriving DecidableEq, Repr

structure BackupCodeDoc where
  id : String
  userId : String
  tenantId : String
  codeHash : String
  usedAt : Option Nat
  deriving DecidableEq, Repr

structure RoleDoc where
  id : String
  tenantId : String
  applicationId : String
  name : String
  description : Option String
  permissionIds : List String
  isSystem : Bool
  deriving DecidableEq, Repr

structure UserRoleAssignment where
  userId : String
  tenantId : String
  applicationId : String
  roleId : String
  deriving DecidableEq, Repr

structure PermissionDoc where
  id : String
  name : String
  tenantId : String
  applicationId : String
  deriving DecidableEq, Repr

inductive OAuthGrant where
  | authorization_code | refresh_token | client_credentials
  deriving DecidableEq, Repr

inductive PkceMethod where
  | S256 | plain | none
  deriving DecidableEq, Repr

def PkceMethod.name : PkceMethod → String
  | .S256 => "S256"
  | .plain => "plain"
  | .none => "none"

inductive TokenEndpointAuthMethod where
  | client_secret_basic | client_secret_post | none
  deriving DecidableEq, Repr

structure OAuthClientDoc where
  id : String
  tenantId : String
  applicationId : String
  name : String
  clientId : String
  clientSecretHash : Option String
  redirectUris : List String
  grants : List OAuthGrant
  pkceMethods : List PkceMethod
  scopes : List String
  isActive : Bool
  isConfidential : Bool
  tokenEndpointAuthMethod : TokenEndpointAuthMethod
  updatedAt : Nat := 0
  deriving DecidableEq, Repr

structure AuthorizationCodeDoc where
  id : String
  codeHash : String
  tenantId : String
  applicationId : String
  clientId : String
  userId : String
  sessionId : String
  redirectUri : String
  scope : List String
  codeChallenge : Option String
  codeChallengeMethod : Option PkceMethod
  nonce : Option String
  authMethod : AuthMethod
  expiresAt : Nat
  consumedAt : Option Nat
  deriving DecidableEq, Repr

-- History of the OAuth collections. No operation reads it.
inductive OAuthEntry where
  | registered (call : CallId) (client : OAuthClientDoc)
  | found (call : CallId) (client : OAuthClientDoc)
  | issued (call : CallId) (code : AuthorizationCodeDoc)
  | presented (call : CallId) (code : AuthorizationCodeDoc)
  | timed (call : CallId) (now : Nat)
  | consumed (call : CallId) (code : AuthorizationCodeDoc)
  deriving DecidableEq, Repr

def OAuthEntry.call : OAuthEntry → CallId
  | .registered call _ | .found call _ | .issued call _ | .presented call _ | .timed call _ | .consumed call _ => call

structure Delivery where
  channel : Channel
  target : String
  code : String
  purpose : OtpPurpose
  deriving DecidableEq, Repr

-- Every collection the identity services share.
structure World where
  base : Base
  sessions : Session.Store
  users : List UserDoc
  otps : List OtpDoc
  verificationTokens : List VerificationTokenDoc
  backupCodes : List BackupCodeDoc
  roles : List RoleDoc
  assignments : List UserRoleAssignment
  permissions : List PermissionDoc
  clients : List OAuthClientDoc
  codes : List AuthorizationCodeDoc
  oauthLog : List OAuthEntry
  deliveries : List Delivery

def baseLens : Lens World Base :=
  ⟨World.base,fun b w => {w with base := b},fun _ _ => rfl,fun _ => rfl,fun _ _ _ => rfl⟩

def sessionLens : Lens World Session.World :=
  ⟨fun w => ⟨w.base,w.sessions⟩,fun s w => {w with base := s.base,sessions := s.store},
    fun _ _ => rfl,fun _ => rfl,fun _ _ _ => rfl⟩

abbrev Program (α : Type) := Prog CallId World Error α

def base (p : Prog CallId Base Error α) : Program α := p.zoom baseLens

def session (p : Session.Program α) : Program α := p.zoom sessionLens

def op (f : CallId → World → Except MongoError (α × World)) : Program α := mongo World.base f

def read (f : World → α) : Program α := op fun _ w => .ok (f w,w)

def write (f : World → World) : Program Unit := op fun _ w => .ok ((),f w)

def raise (kind : ErrorClass) (message code : String) : Program α := Prog.throw (.pezhwan kind message code)

-- The functions the services take from Node.js, argon2 and @pezhwan/crypto.
structure Platform where
  random : Random
  toLowerCase : String → String
  trim : String → String
  sha256 : String → String
  sha256_injective : Function.Injective sha256
  -- the digest in base64url
  s256 : String → String
  hashPassword : (plaintext salt : String) → String
  verifyPassword : (plaintext hash : String) → Bool
  generateOtp : (length : Nat) → (entropy : String) → String
  -- MfaService.unwrap under the configured key, and verifyTotp
  unwrap : String → Except Error String
  verifyTotp : (code secret : String) → (nowSeconds : Nat) → Bool

def isArgon2Hash (hash : String) : Bool := "$argon2".toList.isPrefixOf hash.toList

-- Setters of the user schema; they also run on query values.
def Platform.emailSetter (platform : Platform) (text : String) : String := platform.toLowerCase (platform.trim text)
def Platform.phoneSetter (platform : Platform) (text : String) : String := platform.trim text

structure DeviceInfo where
  ip : Option String
  userAgent : Option String
  deviceLabel : Option String
  deriving DecidableEq, Repr

-- The claims of an access token; the signature is not modelled.
structure AccessToken where
  sub : String
  tenantId : String
  applicationId : String
  sessionId : String
  roles : List String
  permissions : List String
  authMethod : AuthMethod
  iss : String
  aud : String
  iat : Nat
  exp : Nat
  jti : String
  scope : Option String
  clientId : Option String
  tokenVersion : Option Nat
  deriving DecidableEq, Repr

structure TokenService where
  issuer : String
  audience : String
  accessTokenTtlMs : Nat

structure IdentityContext where
  userId : String
  tenantId : String
  applicationId : String
  sessionId : String
  roles : List String
  permissions : List String
  authMethod : AuthMethod
  deriving DecidableEq, Repr

def signAccessToken (platform : Platform) (tokens : TokenService) (context : IdentityContext)
    (scope clientId : Option String) (tokenVersion : Option Nat) : Program AccessToken := do
  let now ← base clock
  let jti ← base (draw platform.random)
  pure {sub := context.userId,tenantId := context.tenantId,applicationId := context.applicationId,
        sessionId := context.sessionId,roles := context.roles,permissions := context.permissions,
        authMethod := context.authMethod,iss := tokens.issuer,aud := tokens.audience,iat := now/1000,
        exp := now/1000 + tokens.accessTokenTtlMs/1000,jti,scope,clientId,tokenVersion}

end Pezhwan.Auth
