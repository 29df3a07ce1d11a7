import Pezhwan.Auth.World

namespace Pezhwan.Auth
open Atomic

structure PasswordPolicy where
  minLength : Nat
  maxLength : Nat
  maxBytes : Nat
  requireLowercase : Bool
  requireUppercase : Bool
  requireDigit : Bool
  requireSymbol : Bool
  maxRepeatedRun : Nat
  deriving DecidableEq, Repr

def DEFAULT_PASSWORD_POLICY : PasswordPolicy := ⟨8,128,72,true,true,true,false,4⟩

-- UTF-16 code units, as JavaScript counts a string and as its patterns read it.
def codeUnits (text : String) : List Nat :=
  text.toList.flatMap fun c =>
    if c.toNat < 0x10000 then [c.toNat]
    else [0xD800 + (c.toNat - 0x10000) / 0x400,0xDC00 + (c.toNat - 0x10000) % 0x400]

def unitIn (low high unit : Nat) : Bool := low ≤ unit && unit ≤ high
def isLowercase : Nat → Bool := unitIn 97 122
def isUppercase : Nat → Bool := unitIn 65 90
def isDigit : Nat → Bool := unitIn 48 57
def isLineTerminator (unit : Nat) : Bool := [10,13,0x2028,0x2029].contains unit

-- /(.)\1{3,}/
def hasRepeatedRun : List Nat → Bool
  | a :: b :: c :: d :: rest =>
    (!isLineTerminator a && a = b && b = c && c = d) || hasRepeatedRun (b :: c :: d :: rest)
  | _ => false

def evaluatePassword (password : String) (policy : PasswordPolicy) : List String :=
  let units := codeUnits password
  (if policy.maxBytes < password.utf8ByteSize then
    ["Password must be at most " ++ toString policy.maxBytes ++ " bytes (UTF-8)."] else []) ++
  (if units.length < policy.minLength then
    ["Password must be at least " ++ toString policy.minLength ++ " characters."] else []) ++
  (if policy.maxLength < units.length then
    ["Password must be at most " ++ toString policy.maxLength ++ " characters."] else []) ++
  (if policy.requireLowercase && !units.any isLowercase then ["Password must contain a lowercase letter."] else []) ++
  (if policy.requireUppercase && !units.any isUppercase then ["Password must contain an uppercase letter."] else []) ++
  (if policy.requireDigit && !units.any isDigit then ["Password must contain a digit."] else []) ++
  (if policy.requireSymbol && !units.any (fun u => !isLowercase u && !isUppercase u && !isDigit u) then
    ["Password must contain a symbol."] else []) ++
  -- the captured group is one code unit long
  (if hasRepeatedRun units && policy.maxRepeatedRun ≤ 1 then
    ["Password must not contain long repeated runs."] else [])

def checkPassword (password : String) (policy : PasswordPolicy) : Program Unit :=
  match evaluatePassword password policy with
  | [] => pure ()
  | errors => raise .validation (" ".intercalate errors) "PASSWORD_POLICY"

-- Users by id, as it prints.
def userById (userId : String) (w : World) : Option UserDoc := Collection.lookup UserDoc.id userId w.users

def World.updateUser (w : World) (p : UserDoc → Bool) (f : UserDoc → UserDoc) : World :=
  {w with users := Collection.updateOne p f w.users}

def World.updateOtp (w : World) (p : OtpDoc → Bool) (f : OtpDoc → OtpDoc) : World :=
  {w with otps := Collection.updateOne p f w.otps}

def World.updateBackupCode (w : World) (p : BackupCodeDoc → Bool) (f : BackupCodeDoc → BackupCodeDoc) : World :=
  {w with backupCodes := Collection.updateOne p f w.backupCodes}

structure OtpService where
  tenantId : String
  applicationId : String
  codeLength : Nat
  ttlMs : Nat
  maxAttempts : Nat
  resendCooldownMs : Nat
  attemptsWindowMs : Nat
  smsConfigured : Bool
  deriving DecidableEq

def ceilSeconds (ms : Nat) : Nat := (ms + 999) / 1000

def cachedNumber : Option CacheValue → Option Nat
  | some (.number value) => some value
  | _ => none

def OtpService.selects (otp : OtpService) (channel : Channel) (target : String) (purpose : OtpPurpose) (doc : OtpDoc) : Bool :=
  doc.tenantId = otp.tenantId && doc.applicationId = otp.applicationId && doc.purpose = purpose &&
    doc.channel = channel && doc.target = target

def deliver (delivery : Delivery) : Program Unit :=
  Prog.atomic fun _ w => ((),{w with deliveries := w.deliveries ++ [delivery]})

def requestOtp (platform : Platform) (otp : OtpService) (channel : Channel) (target : String) (purpose : OtpPurpose) :
    Program (Option Nat) := do
  let lowered := platform.toLowerCase target
  let cooldown := cachedNumber (← base (cacheGet (.otpCooldown channel.name lowered)))
  let now ← base clock
  match cooldown with
  | some until_ => if now < until_ then return some (ceilSeconds (until_ - now))
  | none => pure ()
  let attempts := (cachedNumber (← base (cacheGet (.otpAttempts channel.name lowered)))).getD 0
  if otp.maxAttempts ≤ attempts then return some (ceilSeconds otp.attemptsWindowMs)
  let code := platform.generateOtp otp.codeLength (← base (draw platform.random))
  op fun i w =>
    let fresh := fun doc : OtpDoc =>
      {doc with codeHash := platform.sha256 code,expiresAt := w.base.now + otp.ttlMs,consumed := false}
    match w.otps.find? (otp.selects channel lowered purpose) with
    | some _ => .ok ((),w.updateOtp (otp.selects channel lowered purpose) fresh)
    | none => .ok ((),{w with
        base := {w.base with draws := w.base.draws ++ [i]},
        otps := w.otps ++ [fresh ⟨platform.random.fresh w.base.draws.length,otp.tenantId,otp.applicationId,channel,
          lowered,purpose,"",0,0,false⟩]})
  let sent ← base clock
  base (cacheSet (.otpCooldown channel.name lowered) (.number (sent + otp.resendCooldownMs))
    (ceilSeconds otp.resendCooldownMs))
  if channel ≠ .email ∧ !otp.smsConfigured then
    raise .validation "Phone OTP is not configured" "PHONE_OTP_UNSUPPORTED"
  deliver ⟨channel,target,code,purpose⟩
  return none

def verifyOtp (platform : Platform) (otp : OtpService) (channel : Channel) (target : String) (purpose : OtpPurpose)
    (code : String) : Program Bool := do
  let lowered := platform.toLowerCase target
  let attempts := (cachedNumber (← base (cacheGet (.otpAttempts channel.name lowered)))).getD 0
  if otp.maxAttempts ≤ attempts then pure false
  else
    match ← read fun w => w.otps.find? (otp.selects channel lowered purpose) with
    | none => pure false
    | some doc =>
      let now ← base clock
      if doc.expiresAt < now || doc.consumed then pure false
      else if platform.sha256 code = doc.codeHash then
        write fun w => w.updateOtp (fun other => other.id = doc.id)
          (fun other => {other with consumed := true,attempts := doc.attempts + 1})
        base (cacheDel (.otpAttempts channel.name lowered))
        base (cacheDel (.otpCooldown channel.name lowered))
        pure true
      else
        write fun w => w.updateOtp (fun other => other.id = doc.id)
          (fun other => {other with attempts := other.attempts + 1})
        base (cacheSet (.otpAttempts channel.name lowered) (.number (attempts + 1)) (ceilSeconds otp.attemptsWindowMs))
        pure false

def MFA_MAX_ATTEMPTS : Nat := 5
def MFA_LOCK_MS : Nat := 15 * 60000

def isEnabled (userId : String) : Program Bool := read fun w => ((userById userId w).map UserDoc.mfaEnabled).getD false

def mfaLocked (userId : String) : Program Bool := do
  match ← read (userById userId) with
  | none => pure false
  | some user =>
    let now ← base clock
    match user.mfaLockUntil with
    | none => pure false
    | some until_ =>
      if 0 < until_ ∧ now < until_ then pure true
      else if 0 < until_ then
        write fun w => w.updateUser (fun user => user.id = userId)
          (fun user => {user with mfaFailedAttempts := 0,mfaLockUntil := none})
        pure false
      else pure false

def touchVerified (userId : String) : Program Unit :=
  write fun w => w.updateUser (fun user => user.id = userId)
    (fun user => {user with mfaSecretVerifiedAt := some w.base.now})

def resetMfaFailures (userId : String) : Program Unit :=
  write fun w => w.updateUser (fun user => user.id = userId && decide (0 < user.mfaFailedAttempts))
    (fun user => {user with mfaFailedAttempts := 0,mfaLockUntil := none})

def recordMfaFailure (userId : String) : Program Unit := do
  let attempts ← op fun _ w => .ok ((userById userId w).map fun user => user.mfaFailedAttempts + 1,
    w.updateUser (fun user => user.id = userId) (fun user => {user with mfaFailedAttempts := user.mfaFailedAttempts + 1}))
  match attempts with
  | none => pure ()
  | some attempts =>
    if MFA_MAX_ATTEMPTS ≤ attempts then
      write fun w => w.updateUser (fun user => user.id = userId)
        (fun user => {user with mfaLockUntil := some (w.base.now + MFA_LOCK_MS)})

def tryBackupCode (platform : Platform) (userId code : String) : Program Bool := do
  let rows ← read fun w => w.backupCodes.filter fun row => row.userId = userId && row.usedAt.isNone
  match rows.find? fun row => row.codeHash = platform.sha256 code with
  | none => pure false
  | some row =>
    write fun w => w.updateBackupCode (fun other => other.id = row.id)
      (fun other => {other with usedAt := some w.base.now})
    pure true

def acceptMfa (userId : String) : Program Bool := do
  touchVerified userId
  resetMfaFailures userId
  pure true

-- verifyMfa past the lock, with the stored secret when MFA is enabled.
def challenge (platform : Platform) (userId code : String) : Option String → Program Bool
  | none => pure false
  | some wrapped => match platform.unwrap wrapped with
    | .error e => Prog.throw e
    | .ok secret => do
      let now ← base clock
      if platform.verifyTotp code secret (now/1000) then acceptMfa userId
      else if ← tryBackupCode platform userId code then acceptMfa userId
      else
        recordMfaFailure userId
        pure false

def verifyMfa (platform : Platform) (userId code : String) : Program Bool := do
  if ← mfaLocked userId then pure false
  else
    let user ← read (userById userId)
    challenge platform userId code (user.bind fun user => if user.mfaEnabled then truthy user.mfaSecret else none)

def ACCOUNT_STATE_TTL_SECONDS : Nat := 30

def AccountState.passes (state : AccountState) : Bool := state.exists && state.isActive && state.tokenVersionMatch

def validate (userId : String) (tokenVersion : Nat) : Program Bool := do
  match ← base (cacheGet (.accountState userId)) with
  | some (.account state) => pure (AccountState.passes state)
  | _ =>
    match ← (read (userById userId)).attempt with
    | .error _ => raise .securityDependency "Account state could not be verified" "FAILED_SECURITY_DEPENDENCY"
    | .ok doc =>
      let state : AccountState := ⟨doc.isSome,(doc.map UserDoc.isActive).getD false,
        (doc.map fun user => decide (user.tokenVersion = tokenVersion)).getD false⟩
      base (cacheSet (.accountState userId) (.account state) ACCOUNT_STATE_TTL_SECONDS)
      pure (AccountState.passes state)

def invalidate (userId : String) : Program Unit := base (cacheDel (.accountState userId))

structure VerificationTokenService where
  tenantId : String
  applicationId : String
  deriving DecidableEq, Repr

structure IssueTokenInput where
  kind : VerificationTokenKind
  tenantId : String
  applicationId : String
  userId : String
  target : Option String
  redirectUri : Option String
  ttlMs : Option Nat
  deriving DecidableEq, Repr

structure RedeemResult where
  userId : String
  kind : VerificationTokenKind
  tenantId : String
  applicationId : String
  target : Option String
  redirectUri : Option String
  deriving DecidableEq, Repr

def DEFAULT_TTL_MS : Nat := 15 * 60 * 1000

def IssueTokenInput.supersedes (input : IssueTokenInput) (doc : VerificationTokenDoc) : Bool :=
  doc.tenantId = input.tenantId && doc.applicationId = input.applicationId && doc.userId = input.userId &&
    doc.kind = input.kind && doc.consumedAt.isNone

def VerificationTokenDoc.use (now : Nat) (doc : VerificationTokenDoc) : VerificationTokenDoc :=
  {doc with consumedAt := some now}

def issue (platform : Platform) (input : IssueTokenInput) : Program (String × Nat) := do
  write fun w => {w with
    verificationTokens := Collection.updateMany input.supersedes (.use w.base.now) w.verificationTokens}
  let token ← base (draw platform.random)
  let ttlMs := input.ttlMs.getD DEFAULT_TTL_MS
  op fun i w =>
    if w.verificationTokens.any (fun doc => doc.tokenHash = platform.sha256 token) then .error duplicateKey
    else .ok ((),{w with
      base := {w.base with draws := w.base.draws ++ [i]},
      verificationTokens := w.verificationTokens ++ [⟨platform.random.fresh w.base.draws.length,input.kind,input.tenantId,
        input.applicationId,input.userId,platform.sha256 token,input.target,input.redirectUri,
        w.base.now + ttlMs,none⟩]})
  pure (token,ttlMs/1000)

def live (platform : Platform) (token : String) (doc : VerificationTokenDoc) : Bool :=
  doc.tokenHash = platform.sha256 token && doc.consumedAt.isNone

-- findOneAndUpdate({ tokenHash, consumedAt: null }, { consumedAt })
def consume (platform : Platform) (token : String) : Program (Option VerificationTokenDoc) :=
  op fun _ w => .ok ((w.verificationTokens.find? (live platform token)).map (.use w.base.now),
    {w with verificationTokens := Collection.updateOne (live platform token) (.use w.base.now) w.verificationTokens})

def redeem (platform : Platform) (service : VerificationTokenService) (token : String) : Program RedeemResult := do
  match ← consume platform token with
  | none => raise .token "Token is invalid or already used" "INVALID_TOKEN"
  | some doc =>
    if doc.tenantId ≠ service.tenantId then raise .token "Token tenant mismatch" "INVALID_TOKEN"
    else
      let now ← base clock
      if doc.expiresAt < now then raise .token "Token expired" "TOKEN_EXPIRED"
      else if doc.applicationId ≠ service.applicationId then
        raise .notFound "Token application mismatch" "INVALID_TOKEN"
      else pure ⟨doc.userId,doc.kind,doc.tenantId,doc.applicationId,doc.target,doc.redirectUri⟩

def getUserRoles (userId tenantId applicationId : String) : Program (List RoleDoc) := do
  let roleIds ← read fun w => (w.assignments.filter fun a =>
    a.userId = userId && a.tenantId = tenantId && a.applicationId = applicationId).map UserRoleAssignment.roleId
  if roleIds.isEmpty then pure []
  else read fun w => w.roles.filter fun role => roleIds.contains role.id

def getUserPermissions (userId tenantId applicationId : String) : Program (List String) := do
  let roles ← getUserRoles userId tenantId applicationId
  let permissionIds := roles.flatMap RoleDoc.permissionIds
  if permissionIds.isEmpty then pure []
  else read fun w => (w.permissions.filter fun p => permissionIds.contains p.id && decide (p.tenantId = tenantId) &&
    decide (p.applicationId = applicationId)).map PermissionDoc.name

def buildIdentityContext (userId tenantId applicationId sessionId : String) (authMethod : AuthMethod) :
    Program IdentityContext := do
  let roles ← getUserRoles userId tenantId applicationId
  let permissions ← getUserPermissions userId tenantId applicationId
  pure ⟨userId,tenantId,applicationId,sessionId,roles.map RoleDoc.name,permissions,authMethod⟩

end Pezhwan.Auth
