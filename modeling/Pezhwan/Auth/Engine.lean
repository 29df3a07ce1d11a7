import Pezhwan.Auth.Services

namespace Pezhwan.Auth
open Atomic

structure UserLookupInput where
  tenantId : Option String
  email : Option String
  phone : Option String
  userId : Option String

-- The application's own lookup: it finds documents of the collection, by the
-- id it is given and inside the tenant it is given.
structure LookupUser where
  find : UserLookupInput → List UserDoc → Option UserDoc
  stored : ∀ {input docs user}, find input docs = some user → user ∈ docs
  named : ∀ {input docs user userId}, find input docs = some user → truthy input.userId = some userId → user.id = userId
  inTenant : ∀ {input docs user tenantId}, find input docs = some user → input.tenantId = some tenantId →
    user.tenantId = tenantId

structure AuthEngine where
  platform : Platform
  tokens : TokenService
  sessions : Session.SessionService
  tenantId : String
  applicationId : String
  issuer : String
  passwordPolicy : PasswordPolicy
  otp : OtpService
  mfa : Bool
  verificationTokens : VerificationTokenService
  lookupUser : Option LookupUser

structure IssuedTokens where
  accessToken : AccessToken
  refreshToken : String
  session : Session.CreatedSession
  deriving DecidableEq

inductive LoginResult where
  | mfaRequired (userId : String) (user : UserDoc)
  | complete (user : UserDoc) (tokens : IssuedTokens)
  deriving DecidableEq

def authenticationError (message code : String) : Program α := raise .authentication message code

-- Helpers.
def withAccountStore (p : Program α) : Program α := do
  match ← p.attempt with
  | .ok value => pure value
  | .error e =>
    if e.isPezhwanError then Prog.throw e
    else raise .securityDependency "Account store unavailable" "FAILED_SECURITY_DEPENDENCY"

namespace AuthEngine
variable (engine : AuthEngine)

def selects (input : UserLookupInput) (user : UserDoc) : Bool :=
  user.tenantId = engine.tenantId &&
    match truthy input.userId with
    | some userId => decide (user.id = userId)
    | none => match truthy input.email with
      | some email => decide (user.email = some (engine.platform.emailSetter (engine.platform.toLowerCase email)))
      | none => match truthy input.phone with
        | some phone => decide (user.phone = some (engine.platform.phoneSetter phone))
        | none => true

def userFor (input : UserLookupInput) (users : List UserDoc) : Option UserDoc :=
  match engine.lookupUser with
  | some lookup => lookup.find {input with tenantId := some engine.tenantId} users
  | none => users.find? (engine.selects input)

def byHandle (email phone : Option String) : UserLookupInput := ⟨none,email,phone,none⟩
def byId (userId : String) : UserLookupInput := ⟨none,none,none,some userId⟩

def findUser (input : UserLookupInput) : Program (Option UserDoc) := read fun w => engine.userFor input w.users

def findUserById (userId : String) : Program (Option UserDoc) :=
  read fun w => w.users.find? fun user => user.id = userId && user.tenantId = engine.tenantId

-- updateOne({ _id, tenantId }, ...)
def updateUser (userId : String) (f : World → UserDoc → UserDoc) : Program Unit :=
  write fun w => w.updateUser (fun user => user.id = userId && user.tenantId = engine.tenantId) (f w)

def mintTokens (userId : String) (tokenVersion : Nat) (created : Session.CreatedSession) (applicationId : String)
    (authMethod : AuthMethod) : Program IssuedTokens := do
  let identity ← buildIdentityContext userId engine.tenantId applicationId created.sessionId authMethod
  let accessToken ← signAccessToken engine.platform engine.tokens identity none none (some tokenVersion)
  pure ⟨accessToken,created.refreshToken,created⟩

def openSession (userId tenantId applicationId : String) (device : DeviceInfo) : Program Session.CreatedSession :=
  session (Session.create engine.sessions
    ⟨userId,tenantId,applicationId,device.ip,device.userAgent,device.deviceLabel⟩)

def hashPassword (password : String) : Program String := do
  let salt ← base (draw engine.platform.random)
  pure (engine.platform.hashPassword password salt)

-- Registration.
structure RegisterInput where
  tenantId : String
  applicationId : String
  email : Option String
  phone : Option String
  password : Option String
  device : DeviceInfo

def handleTaken (doc other : UserDoc) : Bool :=
  doc.id = other.id || (doc.tenantId = other.tenantId &&
    ((doc.email.isSome && decide (doc.email = other.email)) || (doc.phone.isSome && decide (doc.phone = other.phone))))

def createUser (doc : UserDoc) : Program UserDoc :=
  op fun i w =>
    let doc := {doc with id := engine.platform.random.fresh w.base.draws.length}
    if w.users.any (handleTaken doc) then .error duplicateKey
    else .ok (doc,{w with base := {w.base with draws := w.base.draws ++ [i]},users := w.users ++ [doc]})

def requirePassword (input : RegisterInput) : Program Unit :=
  match truthy input.password with
  | some password => checkPassword password engine.passwordPolicy
  | none =>
    if (truthy input.phone).isNone then
      raise .validation "Password is required for email registration" "PASSWORD_REQUIRED"
    else pure ()

def initialPasswordHash (password : Option String) : Program (Option String) :=
  match truthy password with
  | some password => some <$> engine.hashPassword password
  | none => pure none

def register (input : RegisterInput) : Program (UserDoc × IssuedTokens) := do
  if (truthy input.email).isNone ∧ (truthy input.phone).isNone then
    raise .validation "At least one identity handle (email or phone) is required" "IDENTITY_HANDLE_REQUIRED"
  else
    engine.requirePassword input
    let passwordHash ← engine.initialPasswordHash input.password
    let doc ← engine.createUser
      {id := "",tenantId := input.tenantId,
       email := input.email.map fun email => engine.platform.emailSetter (engine.platform.toLowerCase email),
       phone := input.phone.map engine.platform.phoneSetter,emailVerified := false,phoneVerified := false,
       isActive := true,tokenVersion := 0,passwordHash,failedLoginAttempts := 0,loginLockUntil := none,
       mfaEnabled := false,mfaSecret := none,mfaSecretVerifiedAt := none,mfaFailedAttempts := 0,mfaLockUntil := none}
    let created ← engine.openSession doc.id input.tenantId input.applicationId input.device
    let tokens ← engine.mintTokens doc.id doc.tokenVersion created input.applicationId
      (if (truthy input.password).isSome then .password else .phone_otp)
    pure (doc,tokens)

-- Login.
def completeLogin (user : UserDoc) (authMethod : AuthMethod) (applicationId : String) (device : DeviceInfo) :
    Program LoginResult := do
  let created ← engine.openSession user.id engine.tenantId applicationId device
  let tokens ← engine.mintTokens user.id user.tokenVersion created applicationId authMethod
  pure (.complete user tokens)

def recordFailedLogin (user : UserDoc) : Program Unit := do
  let next := user.failedLoginAttempts + 1
  -- the clock is read only for a lock
  let lockAt ← (if 5 ≤ next then (fun now => some (now + 15 * 60000)) <$> base clock else pure none)
  engine.updateUser user.id fun _ doc => {doc with failedLoginAttempts := next,loginLockUntil := lockAt}

def clearFailedLogin (user : UserDoc) : Program Unit :=
  engine.updateUser user.id fun _ doc => {doc with failedLoginAttempts := 0,loginLockUntil := none}

-- this.deps.mfa && (await ...isEnabled(user))
def mfaGateway (check : Program Bool) : Program Bool := if engine.mfa then check else pure false

structure LoginInput where
  applicationId : String
  email : Option String
  phone : Option String
  password : String
  device : DeviceInfo

def invalidCredentials : Program α := authenticationError "Invalid credentials" "INVALID_CREDENTIALS"

def loginPassword (input : LoginInput) : Program LoginResult := do
  match ← withAccountStore (engine.findUser (byHandle input.email input.phone)) with
  | none => invalidCredentials
  | some user =>
    let now ← base clock
    if user.loginLockUntil.any (fun until_ => now < until_) then
      authenticationError "Account temporarily locked" "ACCOUNT_LOCKED"
    else match (truthy user.passwordHash).filter isArgon2Hash with
      | none => invalidCredentials
      | some passwordHash =>
        if engine.platform.verifyPassword input.password passwordHash then
          if user.isActive then
            withAccountStore (engine.clearFailedLogin user)
            let pending ← engine.mfaGateway (withAccountStore (isEnabled user.id))
            if pending then pure (.mfaRequired user.id user)
            else engine.completeLogin user .password input.applicationId input.device
          else authenticationError "Account disabled" "ACCOUNT_DISABLED"
        else
          withAccountStore (engine.recordFailedLogin user)
          invalidCredentials

structure LoginOtpInput where
  applicationId : String
  channel : Channel
  target : String
  email : Option String
  phone : Option String
  code : String
  device : DeviceInfo

def invalidOtp : Program α := authenticationError "Invalid or expired code" "INVALID_OTP"

def loginOtp (input : LoginOtpInput) : Program LoginResult := do
  if ← verifyOtp engine.platform engine.otp input.channel input.target .login input.code then
    match ← engine.findUser (byHandle input.email input.phone) with
    | none => invalidOtp
    | some user =>
      if user.isActive then
        let pending ← engine.mfaGateway (isEnabled user.id)
        if pending then pure (.mfaRequired user.id user)
        else engine.completeLogin user .email_otp input.applicationId input.device
      else authenticationError "Account disabled" "ACCOUNT_DISABLED"
  else invalidOtp

structure VerifyMfaInput where
  userId : String
  applicationId : String
  code : String
  device : DeviceInfo

def verifyMfaLogin (input : VerifyMfaInput) : Program (UserDoc × IssuedTokens) := do
  if engine.mfa then
    match (← engine.findUser (byId input.userId)).filter UserDoc.isActive with
    | none => authenticationError "Account disabled" "ACCOUNT_DISABLED"
    | some _ =>
      if ← verifyMfa engine.platform input.userId input.code then
        match ← engine.findUser (byId input.userId) with
        | none => authenticationError "User not found" "USER_NOT_FOUND"
        | some userDoc =>
          let created ← engine.openSession input.userId engine.tenantId input.applicationId input.device
          let tokens ← engine.mintTokens userDoc.id userDoc.tokenVersion created input.applicationId .mfa_totp
          pure (userDoc,tokens)
      else authenticationError "Invalid MFA code" "INVALID_MFA_CODE"
  else authenticationError "MFA is not configured on this server" "MFA_NOT_CONFIGURED"

-- Sessions.
def refreshSession (presentedRefreshToken : String) (device : DeviceInfo) : Program IssuedTokens := do
  let created ← session (Session.refresh engine.sessions presentedRefreshToken
    ⟨device.ip,device.userAgent,device.deviceLabel,none,none⟩)
  if created.tenantId ≠ engine.tenantId ∨ created.applicationId ≠ engine.applicationId then
    authenticationError "Session context is invalid" "SESSION_CONTEXT_INVALID"
  else
    let identity ← buildIdentityContext created.userId engine.tenantId engine.applicationId created.sessionId .password
    let user ← engine.findUserById created.userId
    let accessToken ← signAccessToken engine.platform engine.tokens identity none none
      (some ((user.map UserDoc.tokenVersion).getD 0))
    pure ⟨accessToken,created.refreshToken,created⟩

-- Password change and reset.
structure ChangePasswordInput where
  userId : String
  applicationId : String
  currentPassword : String
  newPassword : String

def changePassword (input : ChangePasswordInput) : Program Unit := do
  checkPassword input.newPassword engine.passwordPolicy
  match ← engine.findUserById input.userId with
  | none => authenticationError "User not found" "USER_NOT_FOUND"
  | some user =>
    if (truthy user.passwordHash).any (engine.platform.verifyPassword input.currentPassword) then
      let newHash ← engine.hashPassword input.newPassword
      engine.updateUser user.id fun _ doc =>
        {doc with passwordHash := some newHash,tokenVersion := user.tokenVersion + 1}
      invalidate user.id
    else authenticationError "Current password is incorrect" "INVALID_CURRENT_PASSWORD"

-- The common end of both resets.
def finishReset (user : UserDoc) (applicationId newPassword : String) (device : DeviceInfo) (authMethod : AuthMethod) :
    Program (UserDoc × IssuedTokens) := do
  let newHash ← engine.hashPassword newPassword
  engine.updateUser user.id fun _ doc => {doc with
    passwordHash := some newHash,tokenVersion := user.tokenVersion + 1,failedLoginAttempts := 0,loginLockUntil := none}
  invalidate user.id
  session (Session.revokeAll user.id (some applicationId) none)
  let created ← engine.openSession user.id engine.tenantId applicationId device
  let tokens ← engine.mintTokens user.id user.tokenVersion created applicationId authMethod
  pure (user,tokens)

structure ResetPasswordInput where
  applicationId : String
  channel : Channel
  target : String
  code : String
  newPassword : String
  device : DeviceInfo

def resetHandle (channel : Channel) (target : String) : UserLookupInput :=
  byHandle (if channel = .email then some target else none) (if channel = .phone then some target else none)

def resetPassword (input : ResetPasswordInput) : Program (UserDoc × IssuedTokens) := do
  checkPassword input.newPassword engine.passwordPolicy
  if ← verifyOtp engine.platform engine.otp input.channel input.target .password_reset input.code then
    match ← engine.findUser (resetHandle input.channel input.target) with
    | none => invalidOtp
    | some user => engine.finishReset user input.applicationId input.newPassword input.device .password
  else invalidOtp

structure ResetWithTokenInput where
  applicationId : String
  token : String
  newPassword : String
  device : DeviceInfo

def invalidToken : Program α := authenticationError "Invalid or expired token" "INVALID_TOKEN"

def resetPasswordWithToken (input : ResetWithTokenInput) : Program (UserDoc × IssuedTokens) := do
  checkPassword input.newPassword engine.passwordPolicy
  let redeemed ← redeem engine.platform engine.verificationTokens input.token
  if redeemed.kind = .password_reset then
    match ← engine.findUser (byId redeemed.userId) with
    | none => authenticationError "User not found" "USER_NOT_FOUND"
    | some user => engine.finishReset user input.applicationId input.newPassword input.device .email_otp
  else invalidToken

-- Verification tokens and magic links.
def base64url (bytes : List Nat) : String :=
  let alphabet := "ABCDEFGHIJKLMNOPQRSTUVWXYZabcdefghijklmnopqrstuvwxyz0123456789-_".toList
  let digit := fun n => alphabet.getD (n % 64) 'A'
  let rec encode : List Nat → List Char
    | a :: b :: c :: rest =>
      digit (a/4) :: digit (a*16 + b/16) :: digit (b*4 + c/64) :: digit c :: encode rest
    | [a,b] => [digit (a/4),digit (a*16 + b/16),digit (b*4)]
    | [a] => [digit (a/4),digit (a*16)]
    | [] => []
  String.ofList (encode bytes)

def decoysFor (target : String) (now : Nat) : String :=
  let units := codeUnits target
  base64url ((List.range 16).map (fun i => units.getD (i % units.length) 0 % 256) ++
    (toString now).toList.map Char.toNat)

structure IssueInput where
  applicationId : String
  email : String
  redirectUri : Option String

structure IssueResult where
  token : String
  expiresIn : Nat
  deriving DecidableEq

def issueFor (kind : VerificationTokenKind) (input : IssueInput) (redirectUri : Option String) (decoyExpiresIn : Nat) :
    Program IssueResult := do
  let email := engine.platform.toLowerCase input.email
  match ← engine.findUser (byHandle (some email) none) with
  | none =>
    let now ← base clock
    pure ⟨decoysFor input.email now,decoyExpiresIn⟩
  | some user =>
    let (token,expiresIn) ← issue engine.platform
      ⟨kind,engine.tenantId,input.applicationId,user.id,some email,redirectUri,none⟩
    pure ⟨token,expiresIn⟩

def forgotPassword (input : IssueInput) : Program IssueResult :=
  engine.issueFor .password_reset input
    (some (input.redirectUri.getD (engine.issuer ++ "/v1/auth/password/reset/confirm"))) 900

def issueEmailVerification (input : IssueInput) : Program IssueResult :=
  engine.issueFor .email_verification input input.redirectUri 86400

def sendMagicLink (input : IssueInput) : Program IssueResult :=
  engine.issueFor .magic_link input input.redirectUri 900

def verifyEmailToken (token : String) : Program Unit := do
  let redeemed ← redeem engine.platform engine.verificationTokens token
  if redeemed.kind = .email_verification then
    engine.updateUser redeemed.userId fun _ doc => {doc with emailVerified := true}
  else invalidToken

structure MagicLinkResult where
  user : UserDoc
  tokens : IssuedTokens
  redirectUri : Option String
  deriving DecidableEq

def redeemMagicLink (token : String) (device : DeviceInfo) : Program MagicLinkResult := do
  let redeemed ← redeem engine.platform engine.verificationTokens token
  if redeemed.kind = .magic_link then
    match ← engine.findUser (byId redeemed.userId) with
    | none => authenticationError "User not found" "USER_NOT_FOUND"
    | some user =>
      if user.isActive then
        let created ← engine.openSession user.id redeemed.tenantId redeemed.applicationId device
        let tokens ← engine.mintTokens user.id user.tokenVersion created redeemed.applicationId .magic_link
        pure ⟨user,tokens,redeemed.redirectUri⟩
      else authenticationError "Account disabled" "ACCOUNT_DISABLED"
  else invalidToken

def verifyEmail (email code : String) : Program Unit := do
  if ← verifyOtp engine.platform engine.otp .email email .verify_email code then
    match ← read fun w => w.users.find? fun user => user.tenantId = engine.tenantId &&
        decide (user.email = some (engine.platform.emailSetter (engine.platform.toLowerCase email))) with
    | none => authenticationError "User not found" "USER_NOT_FOUND"
    | some user => engine.updateUser user.id fun _ doc => {doc with emailVerified := true}
  else invalidOtp

end AuthEngine

-- The calls that can end in tokens.
inductive Call where
  | register (input : AuthEngine.RegisterInput)
  | loginPassword (input : AuthEngine.LoginInput)
  | loginOtp (input : AuthEngine.LoginOtpInput)
  | verifyMfaLogin (input : AuthEngine.VerifyMfaInput)
  | refreshSession (presentedRefreshToken : String) (device : DeviceInfo)
  | resetPassword (input : AuthEngine.ResetPasswordInput)
  | resetPasswordWithToken (input : AuthEngine.ResetWithTokenInput)
  | redeemMagicLink (token : String) (device : DeviceInfo)

inductive Reply where
  | mfaRequired (userId : String) (user : UserDoc)
  | issued (user : Option UserDoc) (tokens : IssuedTokens)
  deriving DecidableEq

def LoginResult.reply : LoginResult → Reply
  | .mfaRequired userId user => .mfaRequired userId user
  | .complete user tokens => .issued (some user) tokens

def program (engine : AuthEngine) : Call → Program Reply
  | .register input => (fun result => .issued (some result.1) result.2) <$> engine.register input
  | .loginPassword input => LoginResult.reply <$> engine.loginPassword input
  | .loginOtp input => LoginResult.reply <$> engine.loginOtp input
  | .verifyMfaLogin input => (fun result => .issued (some result.1) result.2) <$> engine.verifyMfaLogin input
  | .refreshSession token device => Reply.issued none <$> engine.refreshSession token device
  | .resetPassword input => (fun result => .issued (some result.1) result.2) <$> engine.resetPassword input
  | .resetPasswordWithToken input =>
    (fun result => .issued (some result.1) result.2) <$> engine.resetPasswordWithToken input
  | .redeemMagicLink token device =>
    (fun result => .issued (some result.user) result.tokens) <$> engine.redeemMagicLink token device

end Pezhwan.Auth
