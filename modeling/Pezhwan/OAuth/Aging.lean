import Pezhwan.Auth.Aging
import Pezhwan.OAuth.Service

namespace Pezhwan.OAuth
open Atomic Prog Auth

theorem spared_findClient (clientId tenantId applicationId : String) :
    (OAuthService.findClient clientId tenantId applicationId).Keeps Spared := by
  apply keeps_operation spared_refl
  intro i w value t ran
  cases ran
  exact ⟨rfl,Nat.le_refl _⟩

theorem spared_clientSecretFor (service : OAuthService) (input : RegisterClientInput) :
    (service.clientSecretFor input).Keeps Spared := by
  unfold OAuthService.clientSecretFor
  split
  · exact Keeps.pure _
  · exact kept_draw spared_parts _

theorem spared_createClient (service : OAuthService) (client : OAuthClientDoc) :
    (service.createClient client).Keeps Spared := by
  apply keeps_operation spared_refl
  intro i w value t ran
  dsimp only at ran
  split at ran
  · cases ran
  · cases ran
    exact ⟨rfl,by simp [note]⟩

theorem spared_registerClient (service : OAuthService) (input : RegisterClientInput) :
    (service.registerClient input).Keeps Spared := by
  apply Keeps.bind (kept_draw spared_parts _)
  intro suffix
  apply Keeps.bind (spared_clientSecretFor _ _)
  intro secret
  exact Keeps.bind (spared_createClient _ _) fun _ => Keeps.pure _

theorem spared_authenticate (service : OAuthService) (clientId : String) (clientSecret : Option String)
    (tenantId applicationId : String) :
    (service.authenticateClientAtTokenEndpoint clientId clientSecret tenantId applicationId).Keeps Spared := by
  apply Keeps.bind (spared_findClient _ _ _)
  intro found
  cases found with
  | none => exact Keeps.throw _
  | some client =>
    dsimp only
    split
    · exact Keeps.throw _
    · split
      · exact Keeps.pure _
      · split
        · exact Keeps.throw _
        · split
          · exact Keeps.pure _
          · exact Keeps.throw _

theorem spared_issueCode (service : OAuthService) (input : AuthorizeInput) (challenge method : String) :
    (service.issueCode input challenge method).Keeps Spared := by
  apply Keeps.bind (kept_draw spared_parts _)
  intro raw
  apply Keeps.bind (kept_clock spared_parts)
  intro now
  refine Keeps.bind (keeps_operation spared_refl ?_) fun _ => Keeps.pure _
  intro i w value t ran
  dsimp only at ran
  split at ran
  · cases ran
  · cases ran
    exact ⟨rfl,by simp [note]⟩

theorem spared_authorizeCode (service : OAuthService) (input : AuthorizeInput) : (service.authorizeCode input).Keeps Spared := by
  apply Keeps.bind (spared_findClient _ _ _)
  intro found
  cases found with
  | none => exact Keeps.throw _
  | some client =>
    -- the checks refuse one after another
    dsimp only
    repeat' split
    all_goals first
      | exact Keeps.throw _
      | exact spared_issueCode _ _ _ _

theorem spared_findCode (hashed clientId tenantId applicationId : String) :
    (OAuthService.findCode hashed clientId tenantId applicationId).Keeps Spared := by
  apply keeps_operation spared_refl
  intro i w value t ran
  cases ran
  exact ⟨rfl,Nat.le_refl _⟩

theorem spared_consumeCode (id hashed clientId tenantId applicationId : String) :
    (OAuthService.consumeCode id hashed clientId tenantId applicationId).Keeps Spared := by
  apply keeps_operation spared_refl
  intro i w value t ran
  cases ran
  exact ⟨rfl,Nat.le_refl _⟩

theorem spared_idTokenFor (service : OAuthService) (code : AuthorizationCodeDoc) (sessionId : String) :
    (service.idTokenFor code sessionId).Keeps Spared := by
  unfold OAuthService.idTokenFor
  split
  · exact Keeps.bind (Keeps.bind (kept_clock spared_parts) fun _ => Keeps.pure _) fun _ => Keeps.pure _
  · exact Keeps.pure _

section
variable {sessions : Session.SessionService} (service : OAuthService) (shared : service.sessions = sessions)

theorem evolves_checkPkce (code : AuthorizationCodeDoc) (codeVerifier : Option String) :
    (service.checkPkce code codeVerifier).Moves (Evolves sessions) := by
  unfold OAuthService.checkPkce
  split
  · exact evolves_pure _
  · split
    · exact evolves_throw _
    · split
      · exact evolves_pure _
      · apply evolves_bind (evolves_session (Session.evolves_aged (Session.aged_revoke _)))
        exact fun _ => evolves_throw _

include shared

theorem evolves_issueForCode (code : AuthorizationCodeDoc) (device : DeviceInfo) :
    (service.issueForCode code device).Moves (Evolves sessions) := by
  subst shared
  apply evolves_bind (evolves_session (Session.evolves_create _))
  intro created
  apply evolves_before (kept_signAccessToken spared_parts _ _ _ _ _ _)
  intro accessToken
  exact evolves_before (spared_idTokenFor _ _ _) fun idToken => evolves_pure _

theorem evolves_exchangeAuthorizationCode (client : OAuthClientDoc) (input : ExchangeInput) :
    (service.exchangeAuthorizationCode client input).Moves (Evolves sessions) := by
  unfold OAuthService.exchangeAuthorizationCode
  split
  · exact evolves_throw _
  · apply evolves_before (spared_findCode _ _ _ _)
    intro found
    cases found with
    | none => exact evolves_throw _
    | some code =>
      refine evolves_before (Keeps.atomic fun _ w => ⟨rfl,Nat.le_refl _⟩) fun now => ?_
      split
      · exact evolves_throw _
      · split
        · exact evolves_throw _
        · apply evolves_bind (evolves_checkPkce service _ _)
          intro _
          apply evolves_before (spared_consumeCode _ _ _ _ _)
          intro consumed
          cases consumed with
          | none => exact evolves_throw _
          | some _ => exact evolves_issueForCode service shared _ _

theorem evolves_exchangeRefreshToken (client : OAuthClientDoc) (input : ExchangeInput) :
    (service.exchangeRefreshToken client input).Moves (Evolves sessions) := by
  subst shared
  unfold OAuthService.exchangeRefreshToken
  split
  · exact evolves_throw _
  · split
    · exact evolves_throw _
    · apply evolves_bind (evolves_session (Session.evolves_refresh _ _))
      intro created
      exact evolves_before (kept_signAccessToken spared_parts _ _ _ _ _ _) fun accessToken => evolves_pure _

omit shared in
theorem spared_exchangeClientCredentials (client : OAuthClientDoc) (input : ExchangeInput) :
    (service.exchangeClientCredentials client input).Keeps Spared := by
  unfold OAuthService.exchangeClientCredentials
  split
  · exact Keeps.throw _
  · dsimp only
    split
    · exact Keeps.throw _
    · apply Keeps.bind (kept_draw spared_parts _)
      intro sessionId
      exact Keeps.bind (kept_signAccessToken spared_parts _ _ _ _ _ _) fun accessToken => Keeps.pure _

theorem evolves_exchange (input : ExchangeInput) : (service.exchange input).Moves (Evolves sessions) := by
  apply evolves_before (spared_authenticate _ _ _ _ _)
  intro client
  split
  · exact evolves_throw _
  · split
    · exact evolves_exchangeAuthorizationCode service shared _ _
    · exact evolves_exchangeRefreshToken service shared _ _
    · exact evolves_spared (spared_exchangeClientCredentials _ _ _)
    · exact evolves_throw _

theorem evolves_program (call : Call) : (program service call).Moves (Evolves sessions) := by
  cases call with
  | registerClient input => exact (evolves_spared (spared_registerClient service input)).map
  | authorizeCode input => exact (evolves_spared (spared_authorizeCode service input)).map
  | exchange input => exact (evolves_exchange service shared input).map
  | session call =>
    subst shared
    exact (evolves_session (Session.evolves_program call)).map

end
end Pezhwan.OAuth
