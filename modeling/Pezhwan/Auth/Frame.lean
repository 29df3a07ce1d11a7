import Pezhwan.Auth.Engine
import Pezhwan.Session.Frame

namespace Pezhwan.Auth
open Atomic Prog Discipline

-- What the account checks read of a user: active, token version, second
-- factor, tenant.
def standing (userId : String) (w : World) : Option (Bool × Nat × Bool × String) :=
  (userById userId w).map fun user => (user.isActive,user.tokenVersion,user.mfaEnabled,user.tenantId)

def Calm (s t : World) : Prop :=
  s.base.Calm t.base ∧ t.users.map UserDoc.id = s.users.map UserDoc.id ∧
    ∀ userId, standing userId t = standing userId s

theorem world_calm_refl (w : World) : Calm w w := ⟨calm_refl w.base,rfl,fun _ => rfl⟩

theorem world_calm_trans {a b c : World} (one : Calm a b) (two : Calm b c) : Calm a c :=
  ⟨calm_trans one.1 two.1,two.2.1.trans one.2.1,fun userId => (two.2.2 userId).trans (one.2.2 userId)⟩

-- A change away from the users and the clock.
def Aside (s t : World) : Prop := s.base.Calm t.base ∧ t.users = s.users

theorem aside_calm {s t : World} (aside : Aside s t) : Calm s t :=
  ⟨aside.1,by rw [aside.2],fun userId => by simp only [standing,userById,aside.2]⟩

theorem calm_aside {s t : World} (base : s.base.Calm t.base) (users : t.users = s.users) : Calm s t :=
  aside_calm ⟨base,users⟩

theorem aside_refl (w : World) : Aside w w := ⟨calm_refl w.base,rfl⟩

theorem aside_trans {a b c : World} (one : Aside a b) (two : Aside b c) : Aside a c :=
  ⟨calm_trans one.1 two.1,two.2.trans one.2⟩

-- Besides, nothing is drawn.
def Quiet (s t : World) : Prop := Aside s t ∧ t.base.draws = s.base.draws

theorem quiet_refl (w : World) : Quiet w w := ⟨aside_refl w,rfl⟩

theorem quiet_base {p : Prog CallId Base Error α} (keeps : p.Keeps Base.Still) : (base p).Keeps Quiet :=
  keeps.zoom fun _ _ moved => ⟨⟨moved.1,rfl⟩,moved.2⟩

theorem aside_base {p : Prog CallId Base Error α} (keeps : p.Keeps Base.Calm) : (base p).Keeps Aside :=
  keeps.zoom fun _ _ moved => ⟨moved,rfl⟩

theorem keeps_base {p : Prog CallId Base Error α} (keeps : p.Keeps Base.Calm) : (base p).Keeps Calm :=
  (aside_base keeps).mono aside_calm

theorem keeps_session {p : Session.Program α} (keeps : p.Keeps Session.Calm) : (session p).Keeps Calm :=
  keeps.zoom fun _ _ moved => calm_aside moved rfl

section
variable {r : World → World → Prop} (idle : ∀ w, r w w)
include idle

theorem keeps_operation {f : CallId → World → Except MongoError (α × World)}
    (step : ∀ i w value t, f i w = .ok (value,t) → r w t) : (op f).Keeps r :=
  keeps_mongo idle step

theorem keeps_reading (f : World → α) : (read f).Keeps r := by
  apply keeps_operation idle
  intro i w value t ran
  cases ran
  exact idle w

theorem keeps_writing {f : World → World} (step : ∀ w, r w (f w)) : (write f).Keeps r := by
  apply keeps_operation idle
  intro i w value t ran
  cases ran
  exact step w
end

-- What a token costs is taken from the shared part.
section
variable {r : World → World → Prop} (idle : ∀ w, r w w) (shared : ∀ w b, r w {w with base := b})

theorem spared_base (p : Prog CallId Base Error α) (shared : ∀ w b, r w {w with base := b}) : (base p).Keeps r :=
  (Keeps.any p).zoom fun w b _ => shared w b

include idle

theorem spared_getUserRoles (userId tenantId applicationId : String) :
    (getUserRoles userId tenantId applicationId).Keeps r := by
  refine Keeps.bind (keeps_reading idle _) fun roleIds => ?_
  split
  · exact Keeps.pure _
  · exact keeps_reading idle _

theorem spared_buildIdentityContext (userId tenantId applicationId sessionId : String) (authMethod : AuthMethod) :
    (buildIdentityContext userId tenantId applicationId sessionId authMethod).Keeps r := by
  refine Keeps.bind (spared_getUserRoles idle _ _ _) fun roles => ?_
  refine Keeps.bind ?_ fun permissions => Keeps.pure _
  refine Keeps.bind (spared_getUserRoles idle _ _ _) fun granted => ?_
  dsimp only
  split
  · exact Keeps.pure _
  · exact keeps_reading idle _

omit idle in
theorem spared_signAccessToken (platform : Platform) (tokens : TokenService) (context : IdentityContext)
    (scope clientId : Option String) (tokenVersion : Option Nat) (shared : ∀ w b, r w {w with base := b}) :
    (signAccessToken platform tokens context scope clientId tokenVersion).Keeps r := by
  refine Keeps.bind (spared_base _ shared) fun now => ?_
  exact Keeps.bind (spared_base _ shared) fun jti => Keeps.pure _

include shared

theorem spared_mintTokens (engine : AuthEngine) (userId : String) (tokenVersion : Nat) (created : Session.CreatedSession)
    (applicationId : String) (authMethod : AuthMethod) :
    (engine.mintTokens userId tokenVersion created applicationId authMethod).Keeps r := by
  refine Keeps.bind (spared_buildIdentityContext idle _ _ _ _ _) fun identity => ?_
  exact Keeps.bind (spared_signAccessToken _ _ _ _ _ _ shared) fun accessToken => Keeps.pure _
end

theorem keeps_op {f : CallId → World → Except MongoError (α × World)}
    (step : ∀ i w value t, f i w = .ok (value,t) → Calm w t) : (op f).Keeps Calm := keeps_operation world_calm_refl step

theorem keeps_read (f : World → α) : (read f).Keeps Calm := keeps_reading world_calm_refl f

theorem keeps_write {f : World → World} (step : ∀ w, Calm w (f w)) : (write f).Keeps Calm :=
  keeps_writing world_calm_refl step

theorem keeps_withAccountStore {p : Program α} (keeps : p.Keeps Calm) : (withAccountStore p).Keeps Calm := by
  refine Keeps.bind keeps.attempt fun result => ?_
  cases result with
  | ok value => exact Keeps.pure _
  | error e =>
    dsimp only
    split
    · exact Keeps.throw _
    · exact Keeps.throw _

-- An update of fields no account check reads.
def Harmless (f : UserDoc → UserDoc) : Prop :=
  ∀ user, (f user).id = user.id ∧ (f user).isActive = user.isActive ∧ (f user).tokenVersion = user.tokenVersion ∧
    (f user).mfaEnabled = user.mfaEnabled ∧ (f user).tenantId = user.tenantId

theorem updateOne_ids {f : UserDoc → UserDoc} (kept : ∀ user, (f user).id = user.id) (p : UserDoc → Bool)
    (users : List UserDoc) : (Collection.updateOne p f users).map UserDoc.id = users.map UserDoc.id :=
  Collection.map_updateOne kept users

theorem calm_updateUser (harmless : Harmless f) (p : UserDoc → Bool) (w : World) : Calm w (w.updateUser p f) := by
  refine ⟨calm_refl w.base,updateOne_ids (fun user => (harmless user).1) p w.users,fun userId => ?_⟩
  apply Collection.lookup_updateOne
  · intro user
    exact (harmless user).1
  · intro user
    obtain ⟨_,active,version,mfa,tenant⟩ := harmless user
    rw [active,version,mfa,tenant]

theorem keeps_updateUser (engine : AuthEngine) (userId : String) {f : World → UserDoc → UserDoc}
    (harmless : ∀ w, Harmless (f w)) : (engine.updateUser userId f).Keeps Calm :=
  keeps_write fun w => calm_updateUser (harmless w) _ w

theorem keeps_buildIdentityContext (userId tenantId applicationId sessionId : String) (authMethod : AuthMethod) :
    (buildIdentityContext userId tenantId applicationId sessionId authMethod).Keeps Calm :=
  spared_buildIdentityContext world_calm_refl _ _ _ _ _

theorem keeps_signAccessToken (platform : Platform) (tokens : TokenService) (context : IdentityContext)
    (scope clientId : Option String) (tokenVersion : Option Nat) :
    (signAccessToken platform tokens context scope clientId tokenVersion).Keeps Calm := by
  refine Keeps.bind (keeps_base keeps_clock) fun now => ?_
  exact Keeps.bind (keeps_base (keeps_draw _)) fun jti => Keeps.pure _

theorem keeps_mintTokens (engine : AuthEngine) (userId : String) (tokenVersion : Nat) (created : Session.CreatedSession)
    (applicationId : String) (authMethod : AuthMethod) :
    (engine.mintTokens userId tokenVersion created applicationId authMethod).Keeps Calm := by
  refine Keeps.bind (keeps_buildIdentityContext _ _ _ _ _) fun identity => ?_
  exact Keeps.bind (keeps_signAccessToken _ _ _ _ _ _) fun accessToken => Keeps.pure _

theorem keeps_openSession (engine : AuthEngine) (userId tenantId applicationId : String) (device : DeviceInfo) :
    (engine.openSession userId tenantId applicationId device).Keeps Calm := keeps_session (Session.keeps_create _ _)

theorem keeps_hashPassword (engine : AuthEngine) (password : String) : (engine.hashPassword password).Keeps Calm :=
  Keeps.bind (keeps_base (keeps_draw _)) fun _ => Keeps.pure _

theorem keeps_clearFailedLogin (engine : AuthEngine) (user : UserDoc) : (engine.clearFailedLogin user).Keeps Calm :=
  keeps_updateUser engine user.id fun _ _ => ⟨rfl,rfl,rfl,rfl,rfl⟩

theorem keeps_checkPassword (password : String) (policy : PasswordPolicy) : (checkPassword password policy).Keeps Calm := by
  unfold checkPassword
  split
  · exact Keeps.pure _
  · exact Keeps.throw _

theorem keeps_requirePassword (engine : AuthEngine) (input : AuthEngine.RegisterInput) :
    (engine.requirePassword input).Keeps Calm := by
  unfold AuthEngine.requirePassword
  split
  · exact keeps_checkPassword _ _
  · split
    · exact Keeps.throw _
    · exact Keeps.pure _

theorem keeps_initialPasswordHash (engine : AuthEngine) (password : Option String) :
    (engine.initialPasswordHash password).Keeps Calm := by
  unfold AuthEngine.initialPasswordHash
  split
  · exact Keeps.bind (keeps_hashPassword _ _) fun _ => Keeps.pure _
  · exact Keeps.pure _

theorem quiet_verifyOtp (platform : Platform) (otp : OtpService) (channel : Channel) (target : String)
    (purpose : OtpPurpose) (code : String) : (verifyOtp platform otp channel target purpose code).Keeps Quiet := by
  refine Keeps.bind (quiet_base (still_cacheGet _)) fun cached => ?_
  dsimp only
  split
  · exact Keeps.pure _
  · refine Keeps.bind (keeps_reading quiet_refl _) fun found => ?_
    cases found with
    | none => exact Keeps.pure _
    | some doc =>
      refine Keeps.bind (quiet_base still_clock) fun now => ?_
      split
      · exact Keeps.pure _
      · split
        · refine Keeps.bind (keeps_writing quiet_refl fun w => ⟨⟨calm_refl _,rfl⟩,rfl⟩) fun _ => ?_
          refine Keeps.bind (quiet_base (still_cacheDel rfl)) fun _ => ?_
          exact Keeps.bind (quiet_base (still_cacheDel rfl)) fun _ => Keeps.pure _
        · refine Keeps.bind (keeps_writing quiet_refl fun w => ⟨⟨calm_refl _,rfl⟩,rfl⟩) fun _ => ?_
          exact Keeps.bind (quiet_base (still_cacheSet rfl _ _)) fun _ => Keeps.pure _

theorem aside_verifyOtp (platform : Platform) (otp : OtpService) (channel : Channel) (target : String)
    (purpose : OtpPurpose) (code : String) : (verifyOtp platform otp channel target purpose code).Keeps Aside :=
  (quiet_verifyOtp platform otp channel target purpose code).mono And.left

theorem keeps_verifyOtp (platform : Platform) (otp : OtpService) (channel : Channel) (target : String)
    (purpose : OtpPurpose) (code : String) : (verifyOtp platform otp channel target purpose code).Keeps Calm :=
  (aside_verifyOtp platform otp channel target purpose code).mono aside_calm

theorem keeps_writeUser (p : UserDoc → Bool) {f : World → UserDoc → UserDoc} (harmless : ∀ w, Harmless (f w)) :
    (write fun w => w.updateUser p (f w)).Keeps Calm := keeps_write fun w => calm_updateUser (harmless w) p w

theorem keeps_mfaLocked (userId : String) : (mfaLocked userId).Keeps Calm := by
  refine Keeps.bind (keeps_read _) fun found => ?_
  cases found with
  | none => exact Keeps.pure _
  | some user =>
    refine Keeps.bind (keeps_base keeps_clock) fun now => ?_
    cases user.mfaLockUntil with
    | none => exact Keeps.pure _
    | some until_ =>
      dsimp only
      split
      · exact Keeps.pure _
      · split
        · exact Keeps.bind (keeps_writeUser _ fun _ _ => ⟨rfl,rfl,rfl,rfl,rfl⟩) fun _ => Keeps.pure _
        · exact Keeps.pure _

theorem keeps_tryBackupCode (platform : Platform) (userId code : String) :
    (tryBackupCode platform userId code).Keeps Calm := by
  refine Keeps.bind (keeps_read _) fun rows => ?_
  split
  · exact Keeps.pure _
  · exact Keeps.bind (keeps_write fun w => calm_aside (calm_refl _) rfl) fun _ => Keeps.pure _

theorem keeps_recordMfaFailure (userId : String) : (recordMfaFailure userId).Keeps Calm := by
  refine Keeps.bind (keeps_op ?_) fun attempts => ?_
  · intro i w value t ran
    cases ran
    refine calm_updateUser ?_ _ w
    intro user
    exact ⟨rfl,rfl,rfl,rfl,rfl⟩
  · cases attempts with
    | none => exact Keeps.pure _
    | some attempts =>
      dsimp only
      split
      · exact keeps_writeUser _ fun _ _ => ⟨rfl,rfl,rfl,rfl,rfl⟩
      · exact Keeps.pure _

theorem keeps_challenge (platform : Platform) (userId code : String) (wrapped : Option String) :
    (challenge platform userId code wrapped).Keeps Calm := by
  have passed : (acceptMfa userId).Keeps Calm := by
    refine Keeps.bind (keeps_writeUser _ fun _ _ => ⟨rfl,rfl,rfl,rfl,rfl⟩) fun _ => ?_
    exact Keeps.bind (keeps_writeUser _ fun _ _ => ⟨rfl,rfl,rfl,rfl,rfl⟩) fun _ => Keeps.pure _
  cases wrapped with
  | none => exact Keeps.pure _
  | some wrapped =>
    simp only [challenge]
    split
    · exact Keeps.throw _
    · refine Keeps.bind (keeps_base keeps_clock) fun now => ?_
      split
      · exact passed
      · refine Keeps.bind (keeps_tryBackupCode _ _ _) fun used => ?_
        split
        · exact passed
        · exact Keeps.bind (keeps_recordMfaFailure _) fun _ => Keeps.pure _

theorem keeps_verifyMfa (platform : Platform) (userId code : String) : (verifyMfa platform userId code).Keeps Calm := by
  refine Keeps.bind (keeps_mfaLocked _) fun isLocked => ?_
  split
  · exact Keeps.pure _
  · exact Keeps.bind (keeps_read _) fun found => keeps_challenge _ _ _ _

theorem quiet_redeem (platform : Platform) (service : VerificationTokenService) (token : String) :
    (redeem platform service token).Keeps Quiet := by
  refine Keeps.bind ?_ fun found => ?_
  · apply keeps_operation quiet_refl
    intro i w value t ran
    cases ran
    exact ⟨⟨calm_refl _,rfl⟩,rfl⟩
  · cases found with
    | none => exact Keeps.throw _
    | some doc =>
      dsimp only
      split
      · exact Keeps.throw _
      · refine Keeps.bind (quiet_base still_clock) fun now => ?_
        split
        · exact Keeps.throw _
        · split
          · exact Keeps.throw _
          · exact Keeps.pure _

theorem aside_redeem (platform : Platform) (service : VerificationTokenService) (token : String) :
    (redeem platform service token).Keeps Aside := (quiet_redeem platform service token).mono And.left

theorem keeps_redeem (platform : Platform) (service : VerificationTokenService) (token : String) :
    (redeem platform service token).Keeps Calm := (aside_redeem platform service token).mono aside_calm

end Pezhwan.Auth
