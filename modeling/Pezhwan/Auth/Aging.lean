import Pezhwan.Auth.Parts
import Pezhwan.Session.Aging

namespace Pezhwan.Auth
open Atomic Prog

-- The sessions are as they were, and no text drawn has been taken back.
def Spared (s t : World) : Prop := t.sessions = s.sessions ∧ s.base.draws.length ≤ t.base.draws.length

theorem spared_refl (w : World) : Spared w w := ⟨rfl,Nat.le_refl _⟩

theorem spared_trans (one : Spared s t) (two : Spared t u) : Spared s u := ⟨two.1.trans one.1,Nat.le_trans one.2 two.2⟩

theorem spared_parts : Tolerates Spared :=
  ⟨spared_refl,fun _ _ more => ⟨rfl,more⟩,fun _ _ => ⟨rfl,Nat.le_refl _⟩,fun _ _ _ more => ⟨rfl,more⟩,
    fun _ _ => ⟨rfl,Nat.le_refl _⟩,fun _ _ => ⟨rfl,Nat.le_refl _⟩,fun _ _ => ⟨rfl,Nat.le_refl _⟩⟩

-- Whole calls.
section
variable {sessions : Session.SessionService}

def Evolves (sessions : Session.SessionService) (s t : World) : Prop :=
  Session.Evolves sessions ⟨s.base,s.sessions⟩ ⟨t.base,t.sessions⟩

theorem evolves_refl (w : World) : Evolves sessions w w := Session.evolves_refl _

theorem evolves_trans (one : Evolves sessions s t) (two : Evolves sessions t u) : Evolves sessions s u :=
  Session.evolves_trans one two

theorem spared_evolves (spared : Spared s t) : Evolves sessions s t := by
  apply Session.aged_evolves
  apply Session.aged_docs spared.2
  rw [spared.1]
  exact fun doc member => ⟨doc,member,Session.ages_refl doc⟩

theorem evolves_spared {p : Program α} (keeps : p.Keeps Spared) : p.Moves (Evolves sessions) :=
  (keeps.moves spared_refl spared_trans).mono spared_evolves

theorem evolves_session {p : Session.Program α} (moves : p.Moves (Session.Evolves sessions)) :
    (session p).Moves (Evolves sessions) := moves.zoom fun _ _ evolves => evolves

theorem evolves_throw (e : Error) : (Prog.throw e : Program α).Moves (Evolves sessions) := Moves.throw evolves_refl e

theorem evolves_pure (value : α) : (Pure.pure value : Program α).Moves (Evolves sessions) := Moves.pure evolves_refl value

theorem evolves_bind {p : Program α} {f : α → Program β} (first : p.Moves (Evolves sessions))
    (rest : ∀ value, (f value).Moves (Evolves sessions)) : (p >>= f).Moves (Evolves sessions) :=
  first.bind evolves_trans rest

theorem evolves_before {p : Program α} {f : α → Program β} (first : p.Keeps Spared)
    (rest : ∀ value, (f value).Moves (Evolves sessions)) : (p >>= f).Moves (Evolves sessions) :=
  evolves_bind (evolves_spared first) rest

variable (engine : AuthEngine) (shared : engine.sessions = sessions)
include shared

-- A session is opened and tokens are minted for it.
theorem evolves_issued {finish : IssuedTokens → α} (userId tenantId applicationId : String) (device : DeviceInfo)
    (subject : String) (tokenVersion : Nat) (authMethod : AuthMethod) :
    (engine.openSession userId tenantId applicationId device >>= fun created =>
      engine.mintTokens subject tokenVersion created applicationId authMethod >>= fun tokens =>
        Pure.pure (finish tokens)).Moves (Evolves sessions) := by
  subst shared
  apply evolves_bind (evolves_session (Session.evolves_create _))
  intro created
  exact evolves_before (kept_mintTokens spared_parts _ _ _ _ _ _) fun tokens => evolves_pure _

theorem evolves_register (input : AuthEngine.RegisterInput) : (engine.register input).Moves (Evolves sessions) := by
  unfold AuthEngine.register
  split
  · exact evolves_throw _
  · apply evolves_before (kept_requirePassword _ _)
    intro _
    apply evolves_before (kept_initialPasswordHash spared_parts _ _)
    intro passwordHash
    apply evolves_before (kept_createUser spared_parts _ _)
    intro doc
    exact evolves_issued engine shared _ _ _ _ _ _ _

theorem evolves_completeLogin (user : UserDoc) (authMethod : AuthMethod) (applicationId : String) (device : DeviceInfo) :
    (engine.completeLogin user authMethod applicationId device).Moves (Evolves sessions) :=
  evolves_issued engine shared _ _ _ _ _ _ _

-- After the second factor has been asked for.
theorem evolves_gate {check : Program Bool} (keeps : check.Keeps Spared) (user : UserDoc) (authMethod : AuthMethod)
    (applicationId : String) (device : DeviceInfo) : (engine.mfaGateway check >>= fun pending =>
      if pending = true then Pure.pure (.mfaRequired user.id user)
      else engine.completeLogin user authMethod applicationId device).Moves (Evolves sessions) := by
  apply evolves_before (kept_mfaGateway engine keeps)
  intro pending
  split
  · exact evolves_pure _
  · exact evolves_completeLogin engine shared _ _ _ _

theorem evolves_loginPassword (input : AuthEngine.LoginInput) : (engine.loginPassword input).Moves (Evolves sessions) := by
  apply evolves_before (kept_withAccountStore (kept_read spared_parts _))
  intro found
  cases found with
  | none => exact evolves_throw _
  | some user =>
    apply evolves_before (kept_clock spared_parts)
    intro now
    split
    · exact evolves_throw _
    · split
      · exact evolves_throw _
      · split
        · split
          · apply evolves_before (kept_withAccountStore (kept_updateUser spared_parts _ _))
            intro _
            exact evolves_gate engine shared (kept_withAccountStore (kept_read spared_parts _)) _ _ _ _
          · exact evolves_throw _
        · apply evolves_before (kept_withAccountStore (kept_recordFailedLogin spared_parts _ _))
          exact fun _ => evolves_throw _

theorem evolves_loginOtp (input : AuthEngine.LoginOtpInput) : (engine.loginOtp input).Moves (Evolves sessions) := by
  apply evolves_before (kept_verifyOtp spared_parts _ _ _ _ _ _)
  intro verified
  split
  · apply evolves_before (kept_read spared_parts _)
    intro found
    cases found with
    | none => exact evolves_throw _
    | some user =>
      dsimp only
      split
      · exact evolves_gate engine shared (kept_read spared_parts _) _ _ _ _
      · exact evolves_throw _
  · exact evolves_throw _

theorem evolves_verifyMfaLogin (input : AuthEngine.VerifyMfaInput) :
    (engine.verifyMfaLogin input).Moves (Evolves sessions) := by
  unfold AuthEngine.verifyMfaLogin
  split
  · apply evolves_before (kept_read spared_parts _)
    intro found
    split
    · exact evolves_throw _
    · apply evolves_before (kept_verifyMfa spared_parts _ _ _)
      intro passed
      split
      · apply evolves_before (kept_read spared_parts _)
        intro again
        cases again with
        | none => exact evolves_throw _
        | some user => exact evolves_issued engine shared _ _ _ _ _ _ _
      · exact evolves_throw _
  · exact evolves_throw _

theorem evolves_refreshSession (token : String) (device : DeviceInfo) :
    (engine.refreshSession token device).Moves (Evolves sessions) := by
  subst shared
  apply evolves_bind (evolves_session (Session.evolves_refresh _ _))
  intro created
  split
  · exact evolves_throw _
  · apply evolves_before (kept_buildIdentityContext spared_parts _ _ _ _ _)
    intro identity
    apply evolves_before (kept_read spared_parts _)
    intro user
    exact evolves_before (kept_signAccessToken spared_parts _ _ _ _ _ _) fun accessToken => evolves_pure _

theorem evolves_finishReset (user : UserDoc) (applicationId newPassword : String) (device : DeviceInfo)
    (authMethod : AuthMethod) :
    (engine.finishReset user applicationId newPassword device authMethod).Moves (Evolves sessions) := by
  apply evolves_before (kept_hashPassword spared_parts _ _)
  intro newHash
  apply evolves_before (kept_updateUser spared_parts _ _)
  intro _
  apply evolves_before (kept_cacheDel spared_parts _)
  intro _
  apply evolves_bind (evolves_session (Session.evolves_aged (Session.aged_revokeAll _ _ _)))
  intro _
  exact evolves_issued engine shared _ _ _ _ _ _ _

theorem evolves_resetPassword (input : AuthEngine.ResetPasswordInput) :
    (engine.resetPassword input).Moves (Evolves sessions) := by
  apply evolves_before (kept_checkPassword _ _)
  intro _
  apply evolves_before (kept_verifyOtp spared_parts _ _ _ _ _ _)
  intro verified
  split
  · apply evolves_before (kept_read spared_parts _)
    intro found
    cases found with
    | none => exact evolves_throw _
    | some user => exact evolves_finishReset engine shared _ _ _ _ _
  · exact evolves_throw _

theorem evolves_resetPasswordWithToken (input : AuthEngine.ResetWithTokenInput) :
    (engine.resetPasswordWithToken input).Moves (Evolves sessions) := by
  apply evolves_before (kept_checkPassword _ _)
  intro _
  apply evolves_before (kept_redeem spared_parts _ _ _)
  intro redeemed
  split
  · apply evolves_before (kept_read spared_parts _)
    intro found
    cases found with
    | none => exact evolves_throw _
    | some user => exact evolves_finishReset engine shared _ _ _ _ _
  · exact evolves_throw _

theorem evolves_redeemMagicLink (token : String) (device : DeviceInfo) :
    (engine.redeemMagicLink token device).Moves (Evolves sessions) := by
  apply evolves_before (kept_redeem spared_parts _ _ _)
  intro redeemed
  split
  · apply evolves_before (kept_read spared_parts _)
    intro found
    cases found with
    | none => exact evolves_throw _
    | some user =>
      dsimp only
      split
      · exact evolves_issued engine shared _ _ _ _ _ _ _
      · exact evolves_throw _
  · exact evolves_throw _

theorem evolves_program (call : Call) : (program engine call).Moves (Evolves sessions) := by
  cases call with
  | register input => exact (evolves_register engine shared input).map
  | loginPassword input => exact (evolves_loginPassword engine shared input).map
  | loginOtp input => exact (evolves_loginOtp engine shared input).map
  | verifyMfaLogin input => exact (evolves_verifyMfaLogin engine shared input).map
  | refreshSession token device => exact (evolves_refreshSession engine shared token device).map
  | resetPassword input => exact (evolves_resetPassword engine shared input).map
  | resetPasswordWithToken input => exact (evolves_resetPasswordWithToken engine shared input).map
  | redeemMagicLink token device => exact (evolves_redeemMagicLink engine shared token device).map

end

theorem spared_changePassword (engine : AuthEngine) (input : AuthEngine.ChangePasswordInput) :
    (engine.changePassword input).Keeps Spared := by
  apply Keeps.bind (kept_checkPassword _ _)
  intro _
  apply Keeps.bind (kept_read spared_parts _)
  intro found
  cases found with
  | none => exact Keeps.throw _
  | some user =>
    dsimp only
    split
    · apply Keeps.bind (kept_hashPassword spared_parts _ _)
      intro newHash
      apply Keeps.bind (kept_updateUser spared_parts _ _)
      exact fun _ => kept_cacheDel spared_parts _
    · exact Keeps.throw _

theorem spared_invalidateUserTokens (authorization : AuthorizationService) (userId : String) :
    (authorization.invalidateUserTokens userId).Keeps Spared := by
  apply Keeps.bind (kept_updateUser spared_parts _ _)
  intro _
  split
  · exact kept_cacheDel spared_parts _
  · exact Keeps.pure _

theorem spared_assignRole (authorization : AuthorizationService) (input : RoleInput) :
    (authorization.assignRole input).Keeps Spared := by
  apply Keeps.bind (kept_read spared_parts _)
  intro found
  cases found with
  | none => exact Keeps.throw _
  | some role =>
    refine Keeps.bind (kept_write spared_parts fun w => ?_) fun _ => spared_invalidateUserTokens _ _
    split
    · exact spared_refl w
    · exact ⟨rfl,Nat.le_refl _⟩

theorem spared_removeRole (authorization : AuthorizationService) (input : RoleInput) :
    (authorization.removeRole input).Keeps Spared := by
  apply Keeps.bind (kept_read spared_parts _)
  intro found
  cases found with
  | none => exact Keeps.pure _
  | some role =>
    exact Keeps.bind (kept_write spared_parts fun w => ⟨rfl,Nat.le_refl _⟩) fun _ => spared_invalidateUserTokens _ _

end Pezhwan.Auth
