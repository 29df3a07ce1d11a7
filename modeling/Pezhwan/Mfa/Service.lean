import Pezhwan.Atomic.Script
import Pezhwan.Auth.Services

-- The MFA service: setup, challenges and removal, and their scripts.
namespace Pezhwan.Mfa
open Atomic Prog Auth Script

structure MfaService where
  platform : Platform
  tenantId : String
  -- generateToptSecretBytes(32), encodeBase32, buildOtpauthUri, generateBackupCodes(10, 10)
  generateSecret : (entropy : String) → String
  encodeBase32 : (secret : String) → String
  buildOtpauthUri : (issuer accountName secret : String) → String
  generateBackupCodes : (entropy : String) → List String
  -- wrapEnvelope under the configured key, with its random salt and iv
  wrapEnvelope : (secret entropy : String) → String

structure MfaSetupResult where
  secret : String
  otpauthUri : String
  backupCodes : List String
  deriving DecidableEq, Repr

-- insertMany in order: it stops at the first hash that the unique index has.
def insertBackupCodes (service : MfaService) (userId : String) (i : CallId) : List String → World → Bool × World
  | [],w => (true,w)
  | code :: rest,w =>
    let codeHash := service.platform.sha256 code
    if w.backupCodes.any (fun row => row.codeHash = codeHash) then (false,w)
    else insertBackupCodes service userId i rest {w with
      base := {w.base with draws := w.base.draws ++ [i]},
      backupCodes := w.backupCodes ++
        [⟨service.platform.random.fresh w.base.draws.length,userId,service.tenantId,codeHash,none⟩]}

def beginSetup (service : MfaService) (userId : String) : Program MfaSetupResult := do
  match ← read (userById userId) with
  | none => raise .validation "User not found" "USER_NOT_FOUND"
  | some user =>
    if user.mfaEnabled then raise .validation "MFA is already enabled" "MFA_ALREADY_ENABLED"
    else
      let secret := service.generateSecret (← base (draw service.platform.random))
      let wrapped := service.wrapEnvelope secret (← base (draw service.platform.random))
      write fun w => w.updateUser (fun user => user.id = userId)
        (fun user => {user with mfaSecret := some wrapped,mfaSecretVerifiedAt := none})
      let backupCodes := service.generateBackupCodes (← base (draw service.platform.random))
      write fun w => {w with
        backupCodes := w.backupCodes.filter fun row => !(row.userId = userId && row.tenantId = service.tenantId)}
      if ← op fun i w => .ok (insertBackupCodes service userId i backupCodes w) then
        pure ⟨service.encodeBase32 secret,service.buildOtpauthUri service.tenantId (user.email.getD userId) secret,backupCodes⟩
      else Prog.throw (.mongo duplicateKey)

def enable (service : MfaService) (userId code : String) : Program Unit := do
  let user ← read (userById userId)
  match truthy (user.bind UserDoc.mfaSecret) with
  | none => raise .validation "No pending MFA setup" "MFA_SETUP_REQUIRED"
  | some wrapped =>
    if (user.map UserDoc.mfaEnabled).getD false then raise .validation "MFA is already enabled" "MFA_ALREADY_ENABLED"
    else match service.platform.unwrap wrapped with
      | .error e => Prog.throw e
      | .ok secret =>
        let now ← base clock
        if service.platform.verifyTotp code secret (now/1000) then
          write fun w => w.updateUser (fun user => user.id = userId)
            (fun user => {user with mfaEnabled := true,mfaSecretVerifiedAt := some w.base.now})
        else raise .authentication "Invalid authenticator code" "INVALID_TOTP"

def switchOff (userId : String) : Program Unit := do
  resetMfaFailures userId
  write fun w => w.updateUser (fun user => user.id = userId)
    (fun user => {user with mfaEnabled := false,mfaSecret := none,mfaSecretVerifiedAt := none})
  write fun w => {w with backupCodes := w.backupCodes.filter fun row => row.userId ≠ userId}

def disableByBackup (service : MfaService) (userId code : String) : Program Unit := do
  if ← tryBackupCode service.platform userId code then switchOff userId
  else
    recordMfaFailure userId
    raise .authentication "Invalid code" "INVALID_TOTP"

def disable (service : MfaService) (userId code : String) : Program Unit := do
  let user ← read (userById userId)
  if !(user.map UserDoc.mfaEnabled).getD false then raise .validation "MFA is not enabled" "MFA_NOT_ENABLED"
  else if ← mfaLocked userId then raise .authentication "Invalid code" "INVALID_TOTP"
  else
    match truthy (user.bind UserDoc.mfaSecret) with
    | none => disableByBackup service userId code
    | some wrapped => match service.platform.unwrap wrapped with
      | .error e => Prog.throw e
      | .ok secret =>
        let now ← base clock
        if service.platform.verifyTotp code secret (now/1000) then switchOff userId
        else disableByBackup service userId code

inductive Step where
  | look | time | rows | draw
  -- reading the time by which a code is compared with the secret
  | totp (secret : String)
  | mark (row : BackupCodeDoc)
  | expire | touch | clear | count | lock
  | switchOff | removeCodes | switchOn
  | storeSecret (wrapped : String)
  | dropCodes
  | storeCodes (codes : List String)
  deriving DecidableEq, Repr

-- The steps of an attempt, but for the use of a backup code.
def Step.plain : Step → Bool
  | .look | .time | .rows | .totp _ | .expire | .touch | .clear | .count | .lock | .switchOff | .removeCodes => true
  | .mark _ | .draw | .switchOn | .storeSecret _ | .dropCodes | .storeCodes _ => false

def Step.update (service : MfaService) (userId : String) (i : CallId) : Step → World → World
  | .look,w | .time,w | .rows,w | .totp _,w => w
  | .draw,w => {w with base := {w.base with draws := w.base.draws ++ [i]}}
  | .mark row,w => w.updateBackupCode (fun other => other.id = row.id) (fun other => {other with usedAt := some w.base.now})
  | .expire,w => w.updateUser (fun user => user.id = userId)
      (fun user => {user with mfaFailedAttempts := 0,mfaLockUntil := none})
  | .touch,w => w.updateUser (fun user => user.id = userId) (fun user => {user with mfaSecretVerifiedAt := some w.base.now})
  | .clear,w => w.updateUser (fun user => user.id = userId && decide (0 < user.mfaFailedAttempts))
      (fun user => {user with mfaFailedAttempts := 0,mfaLockUntil := none})
  | .count,w => w.updateUser (fun user => user.id = userId)
      (fun user => {user with mfaFailedAttempts := user.mfaFailedAttempts + 1})
  | .lock,w => w.updateUser (fun user => user.id = userId)
      (fun user => {user with mfaLockUntil := some (w.base.now + MFA_LOCK_MS)})
  | .switchOff,w => w.updateUser (fun user => user.id = userId)
      (fun user => {user with mfaEnabled := false,mfaSecret := none,mfaSecretVerifiedAt := none})
  | .removeCodes,w => {w with backupCodes := w.backupCodes.filter fun row => row.userId ≠ userId}
  | .switchOn,w => w.updateUser (fun user => user.id = userId)
      (fun user => {user with mfaEnabled := true,mfaSecretVerifiedAt := some w.base.now})
  | .storeSecret wrapped,w => w.updateUser (fun user => user.id = userId)
      (fun user => {user with mfaSecret := some wrapped,mfaSecretVerifiedAt := none})
  | .dropCodes,w => {w with
      backupCodes := w.backupCodes.filter fun row => !(row.userId = userId && row.tenantId = service.tenantId)}
  | .storeCodes codes,w => (insertBackupCodes service userId i codes w).2

def Step.stored : Step → Bool
  | .time | .totp _ | .draw => false
  | _ => true

def Step.accepts (step : Step) (w : World) : Prop := step.stored = true → w.base.fault = none

instance (step : Step) (w : World) : Decidable (step.accepts w) := inferInstanceAs (Decidable (_ → _))

def Step.perform (service : MfaService) (userId : String) (i : CallId) (step : Step) (w : World) : World :=
  if step.accepts w then step.update service userId i w else w

abbrev MfaScript (α : Type) := Script World Step α

def lockedScript (userId : String) : MfaScript Bool := do
  match userById userId (← see .look) with
  | none => pure false
  | some user =>
    let clock ← see .time
    match user.mfaLockUntil with
    | none => pure false
    | some until_ =>
      if 0 < until_ ∧ clock.base.now < until_ then pure true
      else if 0 < until_ then do
        let _ ← see .expire
        pure false
      else pure false

def recordScript (userId : String) : MfaScript Unit := do
  match (userById userId (← see .count)).map fun user => user.mfaFailedAttempts + 1 with
  | none => pure ()
  | some attempts =>
    if MFA_MAX_ATTEMPTS ≤ attempts then do
      let _ ← see .lock
      pure ()
    else pure ()

def unusedRow (platform : Platform) (userId code : String) (w : World) : Option BackupCodeDoc :=
  (w.backupCodes.filter fun row => row.userId = userId && row.usedAt.isNone).find? fun row => row.codeHash = platform.sha256 code

def backupScript (platform : Platform) (userId code : String) : MfaScript Bool := do
  match unusedRow platform userId code (← see .rows) with
  | none => pure false
  | some row =>
    let _ ← see (.mark row)
    pure true

def acceptScript : MfaScript Bool := do
  let _ ← see .touch
  let _ ← see .clear
  pure true

def challengeScript (platform : Platform) (userId code : String) : Option String → MfaScript Bool
  | none => pure false
  | some wrapped => match platform.unwrap wrapped with
    | .error _ => pure false
    | .ok secret => do
      let clock ← see (.totp secret)
      if platform.verifyTotp code secret (clock.base.now/1000) then acceptScript
      else if ← backupScript platform userId code then acceptScript
      else do
        recordScript userId
        pure false

def verifyScript (platform : Platform) (userId code : String) : MfaScript Bool := do
  if ← lockedScript userId then pure false
  else
    let user := userById userId (← see .look)
    challengeScript platform userId code (user.bind fun user => if user.mfaEnabled then truthy user.mfaSecret else none)

-- The scripts of disable end in whether it succeeds.
def switchOffScript : MfaScript Bool := do
  let _ ← see .clear
  let _ ← see .switchOff
  let _ ← see .removeCodes
  pure true

def disableByBackupScript (platform : Platform) (userId code : String) : MfaScript Bool := do
  if ← backupScript platform userId code then switchOffScript
  else do
    recordScript userId
    pure false

def disableScript (platform : Platform) (userId code : String) : MfaScript Bool := do
  let user := userById userId (← see .look)
  if !(user.map UserDoc.mfaEnabled).getD false then pure false
  else if ← lockedScript userId then pure false
  else
    match truthy (user.bind UserDoc.mfaSecret) with
    | none => disableByBackupScript platform userId code
    | some wrapped => match platform.unwrap wrapped with
      | .error _ => pure false
      | .ok secret => do
        let clock ← see (.totp secret)
        if platform.verifyTotp code secret (clock.base.now/1000) then switchOffScript
        else disableByBackupScript platform userId code

end Pezhwan.Mfa
