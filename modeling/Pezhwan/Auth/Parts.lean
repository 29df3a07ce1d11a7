import Pezhwan.Auth.Roles

-- What the calls do to the parts of the world that are not their business.
namespace Pezhwan.Auth
open Atomic Prog

-- A relation that does not mind changes in these parts; texts may be drawn, but
-- none is taken back.
structure Tolerates (r : World → World → Prop) : Prop where
  idle : ∀ w, r w w
  base : ∀ w b, w.base.draws.length ≤ b.draws.length → r w {w with base := b}
  users : ∀ w users, r w {w with users}
  born : ∀ w b users, w.base.draws.length ≤ b.draws.length → r w {w with base := b,users}
  otps : ∀ w otps, r w {w with otps}
  backupCodes : ∀ w backupCodes, r w {w with backupCodes}
  verificationTokens : ∀ w verificationTokens, r w {w with verificationTokens}

section
variable {r : World → World → Prop}

theorem kept_withAccountStore {p : Program α} (keeps : p.Keeps r) : (withAccountStore p).Keeps r := by
  apply Keeps.bind keeps.attempt
  intro result
  cases result with
  | ok value => exact Keeps.pure _
  | error e =>
    dsimp only
    split
    · exact Keeps.throw _
    · exact Keeps.throw _

theorem kept_checkPassword (password : String) (policy : PasswordPolicy) : (checkPassword password policy).Keeps r := by
  unfold checkPassword
  split
  · exact Keeps.pure _
  · exact Keeps.throw _

theorem kept_requirePassword (engine : AuthEngine) (input : AuthEngine.RegisterInput) :
    (engine.requirePassword input).Keeps r := by
  unfold AuthEngine.requirePassword
  split
  · exact kept_checkPassword _ _
  · split
    · exact Keeps.throw _
    · exact Keeps.pure _

theorem kept_mfaGateway (engine : AuthEngine) {check : Program Bool} (keeps : check.Keeps r) :
    (engine.mfaGateway check).Keeps r := by
  unfold AuthEngine.mfaGateway
  split
  · exact keeps
  · exact Keeps.pure _

variable (parts : Tolerates r)
include parts

theorem kept_base {p : Prog CallId Base Error α} (keeps : p.Keeps fun a b => a.draws.length ≤ b.draws.length) :
    (base p).Keeps r :=
  keeps.zoom fun w b more => parts.base w b more

theorem kept_clock : (base clock).Keeps r := kept_base parts (Keeps.atomic fun _ _ => Nat.le_refl _)

theorem kept_draw (random : Random) : (base (draw random)).Keeps r := kept_base parts (Keeps.atomic fun _ b => by simp)

theorem kept_cacheGet (key : CacheKey) : (base (cacheGet key)).Keeps r :=
  kept_base parts (Keeps.atomic fun _ _ => Nat.le_refl _)

theorem kept_cacheSet (key : CacheKey) (value : CacheValue) (ttlSeconds : Nat) :
    (base (cacheSet key value ttlSeconds)).Keeps r := kept_base parts (Keeps.atomic fun _ _ => Nat.le_refl _)

theorem kept_cacheDel (key : CacheKey) : (base (cacheDel key)).Keeps r :=
  kept_base parts (Keeps.atomic fun _ _ => Nat.le_refl _)

theorem kept_read (f : World → α) : (read f).Keeps r := keeps_reading parts.idle f

theorem kept_write {f : World → World} (step : ∀ w, r w (f w)) : (write f).Keeps r := keeps_writing parts.idle step

theorem kept_updateUser (p : UserDoc → Bool) (f : World → UserDoc → UserDoc) :
    (write fun w => w.updateUser p (f w)).Keeps r := kept_write parts fun w => parts.users w _

theorem kept_hashPassword (engine : AuthEngine) (password : String) : (engine.hashPassword password).Keeps r :=
  Keeps.bind (kept_draw parts _) fun _ => Keeps.pure _

theorem kept_initialPasswordHash (engine : AuthEngine) (password : Option String) :
    (engine.initialPasswordHash password).Keeps r := by
  unfold AuthEngine.initialPasswordHash
  split
  · exact Keeps.bind (kept_hashPassword parts _ _) fun _ => Keeps.pure _
  · exact Keeps.pure _

theorem kept_createUser (engine : AuthEngine) (doc : UserDoc) : (engine.createUser doc).Keeps r := by
  apply keeps_operation parts.idle
  intro i w value t ran
  dsimp only at ran
  split at ran
  · cases ran
  · cases ran
    exact parts.born w _ _ (by simp)

theorem kept_recordFailedLogin (engine : AuthEngine) (user : UserDoc) : (engine.recordFailedLogin user).Keeps r := by
  refine Keeps.bind ?_ fun lockAt => kept_updateUser parts _ _
  split
  · exact Keeps.bind (kept_clock parts) fun _ => Keeps.pure _
  · exact Keeps.pure _

theorem kept_getUserRoles (userId tenantId applicationId : String) :
    (getUserRoles userId tenantId applicationId).Keeps r := by
  apply Keeps.bind (kept_read parts _)
  intro roleIds
  split
  · exact Keeps.pure _
  · exact kept_read parts _

theorem kept_buildIdentityContext (userId tenantId applicationId sessionId : String) (authMethod : AuthMethod) :
    (buildIdentityContext userId tenantId applicationId sessionId authMethod).Keeps r := by
  apply Keeps.bind (kept_getUserRoles parts _ _ _)
  intro roles
  refine Keeps.bind (Keeps.bind (kept_getUserRoles parts _ _ _) fun granted => ?_) fun permissions => Keeps.pure _
  dsimp only
  split
  · exact Keeps.pure _
  · exact kept_read parts _

theorem kept_signAccessToken (platform : Platform) (tokens : TokenService) (context : IdentityContext)
    (scope clientId : Option String) (tokenVersion : Option Nat) :
    (signAccessToken platform tokens context scope clientId tokenVersion).Keeps r :=
  Keeps.bind (kept_clock parts) fun _ => Keeps.bind (kept_draw parts _) fun _ => Keeps.pure _

theorem kept_mintTokens (engine : AuthEngine) (userId : String) (tokenVersion : Nat) (created : Session.CreatedSession)
    (applicationId : String) (authMethod : AuthMethod) :
    (engine.mintTokens userId tokenVersion created applicationId authMethod).Keeps r := by
  apply Keeps.bind (kept_buildIdentityContext parts _ _ _ _ _)
  intro identity
  exact Keeps.bind (kept_signAccessToken parts _ _ _ _ _ _) fun accessToken => Keeps.pure _

theorem kept_verifyOtp (platform : Platform) (otp : OtpService) (channel : Channel) (target : String)
    (purpose : OtpPurpose) (code : String) : (verifyOtp platform otp channel target purpose code).Keeps r := by
  apply Keeps.bind (kept_cacheGet parts _)
  intro cached
  dsimp only
  split
  · exact Keeps.pure _
  · apply Keeps.bind (kept_read parts _)
    intro found
    cases found with
    | none => exact Keeps.pure _
    | some doc =>
      apply Keeps.bind (kept_clock parts)
      intro now
      split
      · exact Keeps.pure _
      · split
        · refine Keeps.bind (kept_write parts fun w => parts.otps w _) fun _ => ?_
          apply Keeps.bind (kept_cacheDel parts _)
          intro _
          exact Keeps.bind (kept_cacheDel parts _) fun _ => Keeps.pure _
        · refine Keeps.bind (kept_write parts fun w => parts.otps w _) fun _ => ?_
          exact Keeps.bind (kept_cacheSet parts _ _ _) fun _ => Keeps.pure _

theorem kept_redeem (platform : Platform) (service : VerificationTokenService) (token : String) :
    (redeem platform service token).Keeps r := by
  refine Keeps.bind ?_ fun found => ?_
  · apply keeps_operation parts.idle
    intro i w value t ran
    cases ran
    exact parts.verificationTokens w _
  · cases found with
    | none => exact Keeps.throw _
    | some doc =>
      dsimp only
      split
      · exact Keeps.throw _
      · apply Keeps.bind (kept_clock parts)
        intro now
        split
        · exact Keeps.throw _
        · split
          · exact Keeps.throw _
          · exact Keeps.pure _

theorem kept_mfaLocked (userId : String) : (mfaLocked userId).Keeps r := by
  apply Keeps.bind (kept_read parts _)
  intro found
  cases found with
  | none => exact Keeps.pure _
  | some user =>
    apply Keeps.bind (kept_clock parts)
    intro now
    cases user.mfaLockUntil with
    | none => exact Keeps.pure _
    | some until_ =>
      dsimp only
      split
      · exact Keeps.pure _
      · split
        · exact Keeps.bind (kept_updateUser parts _ _) fun _ => Keeps.pure _
        · exact Keeps.pure _

theorem kept_acceptMfa (userId : String) : (acceptMfa userId).Keeps r :=
  Keeps.bind (kept_updateUser parts _ _) fun _ => Keeps.bind (kept_updateUser parts _ _) fun _ => Keeps.pure _

theorem kept_tryBackupCode (platform : Platform) (userId code : String) :
    (tryBackupCode platform userId code).Keeps r := by
  apply Keeps.bind (kept_read parts _)
  intro rows
  split
  · exact Keeps.pure _
  · exact Keeps.bind (kept_write parts fun w => parts.backupCodes w _) fun _ => Keeps.pure _

theorem kept_recordMfaFailure (userId : String) : (recordMfaFailure userId).Keeps r := by
  refine Keeps.bind (keeps_operation parts.idle ?_) fun attempts => ?_
  · intro i w value t ran
    cases ran
    exact parts.users w _
  · cases attempts with
    | none => exact Keeps.pure _
    | some attempts =>
      dsimp only
      split
      · exact kept_updateUser parts _ _
      · exact Keeps.pure _

theorem kept_challenge (platform : Platform) (userId code : String) (wrapped : Option String) :
    (challenge platform userId code wrapped).Keeps r := by
  cases wrapped with
  | none => exact Keeps.pure _
  | some wrapped =>
    simp only [challenge]
    split
    · exact Keeps.throw _
    · apply Keeps.bind (kept_clock parts)
      intro now
      split
      · exact kept_acceptMfa parts _
      · apply Keeps.bind (kept_tryBackupCode parts _ _ _)
        intro used
        split
        · exact kept_acceptMfa parts _
        · exact Keeps.bind (kept_recordMfaFailure parts _) fun _ => Keeps.pure _

theorem kept_verifyMfa (platform : Platform) (userId code : String) : (verifyMfa platform userId code).Keeps r := by
  apply Keeps.bind (kept_mfaLocked parts _)
  intro isLocked
  split
  · exact Keeps.pure _
  · exact Keeps.bind (kept_read parts _) fun found => kept_challenge parts _ _ _ _

end
end Pezhwan.Auth
