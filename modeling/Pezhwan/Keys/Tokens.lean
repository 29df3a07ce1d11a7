import Pezhwan.Keys.Service
import Pezhwan.Auth.World

-- Access tokens: signed with the current key, verified with the key named.
namespace Pezhwan.Keys
open Atomic
open Pezhwan.Auth (AuthMethod)

-- The payload as JSON has it: a claim that is undefined is left out.
structure TokenClaims where
  sub : Option String
  tenantId : Option String
  applicationId : Option String
  sessionId : Option String
  roles : Option (List String)
  permissions : Option (List String)
  authMethod : Option AuthMethod
  kid : Option String
  iss : Option String
  aud : List String
  iat : Option Int
  exp : Option Int
  nbf : Option Int
  jti : Option String
  scope : Option String
  clientId : Option String
  tokenVersion : Option Nat
  deriving DecidableEq

structure Header where
  alg : JwtSigningAlgorithm
  kid : Option String
  pqcKid : Option String
  deriving DecidableEq

-- A compact token that decodes, with its signature segments.
structure Token where
  header : Header
  claims : TokenClaims
  signatures : List String
  deriving DecidableEq

-- The signature primitives. A classical key pair signs what it verifies; an
-- ML-DSA key verifies exactly the signatures of its own private half.
structure Scheme (crypto : Crypto) where
  sign : JwtAlgorithm → String → Header → TokenClaims → Except String String
  verify : JwtAlgorithm → String → Header → TokenClaims → String → Bool
  pqSign : PqAlgorithm → String → Header → TokenClaims → String
  pqVerify : PqAlgorithm → String → Header → TokenClaims → String → Bool
  pqKey : String → String
  pqPublicOf : PqAlgorithm → String → String
  signed_nonempty : ∀ {algorithm priv header claims signature}, sign algorithm priv header claims = .ok signature → signature ≠ ""
  verifies : ∀ {algorithm pub priv spki header claims signature}, crypto.createPublicKey pub = .ok spki →
    crypto.createPrivateKey priv = .ok spki → sign algorithm priv header claims = .ok signature →
    verify algorithm pub header claims signature = true
  pqVerifies : ∀ algorithm pub priv header claims, pqVerify algorithm pub header claims (pqSign algorithm priv header claims) = true ↔
    pqKey pub = pqPublicOf algorithm priv
  pqGenerated : ∀ algorithm seed, pqKey (crypto.keygen algorithm seed).1 = pqPublicOf algorithm (crypto.keygen algorithm seed).2

inductive VerifyError where
  | TokenExpiredError (message : String)
  | NotBeforeError (message : String)
  | JsonWebTokenError (message : String)

structure VerifyOptions where
  issuer : String
  audience : String
  maxAge : Int

def assertJwtClaims (nowSec : Int) (claims : TokenClaims) (options : VerifyOptions) : Except VerifyError Unit :=
  if claims.exp.any (· ≤ nowSec) then .error (.TokenExpiredError "jwt expired")
  else if claims.nbf.any (nowSec < ·) then .error (.NotBeforeError "jwt not active")
  else if claims.iat.any (options.maxAge < nowSec - ·) then .error (.TokenExpiredError "maxAge exceeded")
  else if claims.iss ≠ some options.issuer then .error (.JsonWebTokenError s!"jwt issuer invalid. expected: {options.issuer}")
  else if options.audience ∉ claims.aud then .error (.JsonWebTokenError s!"jwt audience invalid. expected: {options.audience}")
  else .ok ()

-- Those of jsonwebtoken: an option that is empty or zero is not checked.
def libraryClaims (nowSec : Int) (claims : TokenClaims) (options : VerifyOptions) : Except VerifyError Unit :=
  if claims.nbf.any (nowSec < ·) then .error (.NotBeforeError "jwt not active")
  else if claims.exp.any (· ≤ nowSec) then .error (.TokenExpiredError "jwt expired")
  else if options.audience ≠ "" ∧ options.audience ∉ claims.aud then
    .error (.JsonWebTokenError s!"jwt audience invalid. expected: {options.audience}")
  else if options.issuer ≠ "" ∧ claims.iss ≠ some options.issuer then
    .error (.JsonWebTokenError s!"jwt issuer invalid. expected: {options.issuer}")
  else if options.maxAge = 0 then .ok ()
  else match claims.iat with
    | none => .error (.JsonWebTokenError "iat required when maxAge is specified")
    | some iat => if iat + options.maxAge ≤ nowSec then .error (.TokenExpiredError "maxAge exceeded") else .ok ()

def leg : Option String → Except String String
  | some text => .ok text
  | none => .error "The first argument must be of type string"

variable {crypto : Crypto} (scheme : Scheme crypto)

def signToken (key : SigningKey) (claims : TokenClaims) : Except String Token :=
  match key.algorithm with
  | .pure algorithm => do
    let priv ← leg key.pqPrivateKey
    let header := ⟨key.algorithm,some key.kid,none⟩
    .ok ⟨header,claims,[scheme.pqSign algorithm priv header claims]⟩
  | .classical algorithm => do
    let priv ← leg key.privateKey
    let header := ⟨key.algorithm,some key.kid,none⟩
    let signature ← scheme.sign algorithm priv header claims
    .ok ⟨header,claims,[signature]⟩
  | hybrid => do
    let priv ← leg key.privateKey
    let pqPriv ← leg key.pqPrivateKey
    let header := ⟨key.algorithm,some key.kid,some (key.kid ++ "-pqc")⟩
    let classical ← scheme.sign (classicalAlgorithmOf hybrid) priv header claims
    .ok ⟨header,claims,[classical,scheme.pqSign .MLDSA65 pqPriv header claims]⟩

def malformed : VerifyError := .JsonWebTokenError "jwt malformed"
def invalidAlgorithm : VerifyError := .JsonWebTokenError "invalid algorithm"
def invalidSignature : VerifyError := .JsonWebTokenError "invalid signature"

def refuse (condition : Prop) [Decidable condition] (e : VerifyError) : Except VerifyError Unit :=
  if condition then .error e else .ok ()

-- Both ways a check of a signature fails: the key is not there, or it does not match.
def checked (value : Option String) (matching : String → Bool) : Except VerifyError Unit :=
  if value.any matching then .ok () else .error invalidSignature

def verifyToken (token : Token) (key : SigningKey) (nowSec : Int) (options : VerifyOptions) : Except VerifyError TokenClaims :=
  match key.algorithm,token.signatures with
  | .pure algorithm,[signature] => do
    refuse (token.header.alg ≠ key.algorithm) invalidAlgorithm
    checked key.pqPublicKey fun pub => scheme.pqVerify algorithm pub token.header token.claims signature
    assertJwtClaims nowSec token.claims options
    .ok token.claims
  | .classical .EdDSA,[signature] => do
    refuse (signature = "") malformed
    refuse (token.header.alg ≠ key.algorithm) invalidAlgorithm
    checked key.publicKey fun pub => scheme.verify .EdDSA pub token.header token.claims signature
    assertJwtClaims nowSec token.claims options
    .ok token.claims
  | .classical algorithm,[signature] => do
    refuse (signature = "") (.JsonWebTokenError "jwt signature is required")
    refuse (token.header.alg ≠ key.algorithm) invalidAlgorithm
    checked key.publicKey fun pub => scheme.verify algorithm pub token.header token.claims signature
    libraryClaims nowSec token.claims options
    .ok token.claims
  | .hybridRS256,[classical,pq] => do
    refuse (token.header.alg ≠ key.algorithm ∨ token.header.pqcKid ≠ some (key.kid ++ "-pqc")) invalidAlgorithm
    checked key.publicKey fun pub => scheme.verify .RS256 pub token.header token.claims classical
    checked key.pqPublicKey fun pub => scheme.pqVerify .MLDSA65 pub token.header token.claims pq
    assertJwtClaims nowSec token.claims options
    .ok token.claims
  | .hybridES256,[classical,pq] => do
    refuse (token.header.alg ≠ key.algorithm ∨ token.header.pqcKid ≠ some (key.kid ++ "-pqc")) invalidAlgorithm
    checked key.publicKey fun pub => scheme.verify .ES256 pub token.header token.claims classical
    checked key.pqPublicKey fun pub => scheme.pqVerify .MLDSA65 pub token.header token.claims pq
    assertJwtClaims nowSec token.claims options
    .ok token.claims
  | _,_ => .error malformed

structure TokenService where
  issuer : String
  audience : String
  accessTokenTtlMs : Int

structure IdentityContext where
  userId : String
  tenantId : String
  applicationId : String
  sessionId : String
  roles : List String
  permissions : List String
  authMethod : AuthMethod
  tokenVersion : Option Nat
  scope : Option String
  clientId : Option String
  deriving DecidableEq

structure TokenError where
  message : String
  code : String
  details : Option (String × String)

namespace TokenService
variable (tokens : TokenService)

def maxAge : Int := tokens.accessTokenTtlMs/1000

def claimsOf (context : IdentityContext) (kid jti : String) (now : Int) : TokenClaims where
  sub := some context.userId
  tenantId := some context.tenantId
  applicationId := some context.applicationId
  sessionId := some context.sessionId
  roles := some context.roles
  permissions := some context.permissions
  authMethod := some context.authMethod
  kid := some kid
  iss := some tokens.issuer
  aud := [tokens.audience]
  iat := some (now/1000)
  exp := some (now/1000 + tokens.maxAge)
  nbf := none
  jti := some jti
  scope := context.scope
  clientId := context.clientId
  tokenVersion := context.tokenVersion

def signAccessToken (context : IdentityContext) (draw : Draw) (jti : String) (now : Int) : M crypto Token := do
  let key ← KeyStoreService.current draw now
  match signToken scheme key (tokens.claimsOf context key.kid jti now) with
  | .ok token => pure token
  | .error e => throw e

def options : VerifyOptions := ⟨tokens.issuer,tokens.audience,tokens.maxAge⟩

def reason : VerifyError → String
  | .TokenExpiredError _ => "TOKEN_EXPIRED"
  | .NotBeforeError _ => "TOKEN_NOT_ACTIVE"
  | .JsonWebTokenError _ => "INVALID_SIGNATURE"

def required (claims : TokenClaims) : List (String × Option String) :=
  [("sub",claims.sub),("tenantId",claims.tenantId),("applicationId",claims.applicationId),("sessionId",claims.sessionId)]

def identityOf (claims : TokenClaims) : Except TokenError (IdentityContext × Int) :=
  match (required claims).find? fun entry => (present entry.2).isNone with
  | some (name,_) => .error ⟨"Access token missing required claim","INVALID_JWT",some ("claim",name)⟩
  | none => match claims.iat with
    | none => .error ⟨"Access token missing iat claim","INVALID_JWT",none⟩
    | some iat => .ok (⟨claims.sub.getD "",claims.tenantId.getD "",claims.applicationId.getD "",claims.sessionId.getD "",
        claims.roles.getD [],claims.permissions.getD [],claims.authMethod.getD .password,claims.tokenVersion,claims.scope,
        claims.clientId⟩,iat*1000)

-- The identity and when it was authenticated; a text that does not decode is no token.
def verifyAccessToken (store : KeyStore crypto) (now : Int) (token : Option Token) : Except TokenError (IdentityContext × Int) :=
  match token with
  | none => .error ⟨"Malformed access token","INVALID_JWT",none⟩
  | some token => match present token.header.kid with
    | none => .error ⟨"Access token missing kid header","INVALID_JWT",none⟩
    | some kid => match store.byKid now kid with
      | none => .error ⟨"Unknown signing key","UNKNOWN_KEY",some ("kid",kid)⟩
      | some key => match verifyToken scheme token key (now/1000) tokens.options with
        | .error e => .error ⟨"Invalid access token",reason e,none⟩
        | .ok claims => identityOf claims

end TokenService
end Pezhwan.Keys
