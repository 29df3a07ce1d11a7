import Pezhwan.OAuth.Usable
import Pezhwan.Atomic.Focus

-- A token for the client itself: what the client has to show for it.
namespace Pezhwan.OAuth
open Atomic Prog Auth

-- As registerClient leaves a client.
def AsRegistered (service : OAuthService) (client : OAuthClientDoc) : Prop :=
  client.isActive = true ∧ if client.isConfidential then
    client.tokenEndpointAuthMethod = .client_secret_post ∧
      ∃ secret, client.clientSecretHash = some (service.platform.sha256 secret)
  else client.tokenEndpointAuthMethod = .none ∧ client.clientSecretHash = none

def AllRegistered (service : OAuthService) (w : World) : Prop := ∀ client ∈ w.clients, AsRegistered service client

def Adds (service : OAuthService) (s t : World) : Prop :=
  ∀ client ∈ t.clients, client ∈ s.clients ∨ AsRegistered service client

theorem adds_same (service : OAuthService) {s t : World} (same : t.clients = s.clients) : Adds service s t := by
  intro client listed
  exact .inl (same ▸ listed)

theorem adds_trans {service : OAuthService} {s t u : World} (one : Adds service s t) (two : Adds service t u) :
    Adds service s u := by
  intro client listed
  rcases two client listed with old | made
  · exact one client old
  · exact .inr made

theorem adds_draw (service : OAuthService) : (base (draw service.platform.random)).Keeps (Adds service) := by
  refine Keeps.zoom (Keeps.atomic (r := fun _ _ => True) fun _ _ => trivial) ?_
  intro s b _
  exact adds_same service rfl

theorem adds_createClient {service : OAuthService} {client : OAuthClientDoc}
    (made : ∀ id updatedAt, AsRegistered service {client with id,updatedAt}) : (service.createClient client).Keeps (Adds service) := by
  refine keeps_operation (fun w => adds_same service rfl) ?_
  intro i w value t ran
  dsimp only at ran
  split at ran
  · cases ran
  · cases ran
    intro other listed
    rcases List.mem_append.mp listed with old | new
    · exact .inl old
    · rw [List.mem_singleton.mp new]
      exact .inr (made _ _)

theorem adds_registerClient (service : OAuthService) (input : RegisterClientInput) :
    (service.registerClient input).Keeps (Adds service) := by
  refine Keeps.bind (adds_draw service) fun suffix => ?_
  refine Keeps.bind ?_ fun secret => ?_
  · unfold OAuthService.clientSecretFor
    split
    · exact Keeps.pure _
    · exact adds_draw service
  refine Keeps.bind (adds_createClient ?_) fun _ => Keeps.pure _
  intro id updatedAt
  -- the method follows from confidentiality alone, whatever the grants are
  by_cases isPublic : input.confidential = some false
  · simp [AsRegistered,isPublic]
  · simp [AsRegistered,isPublic]

def registering (service : OAuthService) (input : RegisterClientInput) : Program RegisteredClient :=
  service.registerClient input

theorem reached_registered {service : OAuthService} {other : World → World → Prop}
    (aside : ∀ s t, other s t → t.clients = s.clients) (none : s.clients = [])
    (reached : Sequence (registering service) other (fun _ _ => True) s w) : AllRegistered service w := by
  refine Sequence.invariant ?_ ?_ ?_ reached
  · intro i input w all _ client listed
    have kept := (adds_registerClient service input).run (fun w => adds_same service rfl) adds_trans i w
    rcases kept client listed with old | made
    · exact all client old
    · exact made
  · intro s t all moved client listed
    exact all client (aside s t moved ▸ listed)
  · intro client listed
    rw [none] at listed
    cases listed

-- The client a token request names.
def clientFor (input : ExchangeInput) (w : World) : Option OAuthClientDoc :=
  w.clients.find? fun client =>
    client.clientId = input.clientId && client.tenantId = input.tenantId && client.applicationId = input.applicationId

def requestedScopes (service : OAuthService) (input : ExchangeInput) : List String :=
  words (service.platform.trim (input.scope.getD "default"))

theorem clientFor_place (found : clientFor input w = some client) :
    client.tenantId = input.tenantId ∧ client.applicationId = input.applicationId := by
  have selected := List.find?_some found
  simp only [Bool.and_eq_true,decide_eq_true_eq] at selected
  exact ⟨selected.1.2,selected.2⟩

-- What is asked of a reply with tokens.
def SecretShown (service : OAuthService) (input : ExchangeInput) (client : OAuthClientDoc) : Prop :=
  ∃ secret, input.clientSecret = some secret ∧ client.clientSecretHash = some (service.platform.sha256 secret)

def ScopeRegistered (client : OAuthClientDoc) (tokens : OAuthTokens) : Prop :=
  ∃ granted, tokens.scope = " ".intercalate granted ∧ ∀ scope ∈ granted, scope ∈ client.scopes

def Backed (service : OAuthService) (input : ExchangeInput) (w : World) (tokens : OAuthTokens) : Prop :=
  ∃ client, clientFor input w = some client ∧ SecretShown service input client ∧ ScopeRegistered client tokens

-- A public client that holds the grant asks for scopes of its own.
def Unproven (service : OAuthService) (input : ExchangeInput) (client : OAuthClientDoc) : Prop :=
  client.isConfidential = false ∧ client.grants.contains .client_credentials = true ∧
    ∀ scope ∈ requestedScopes service input, scope ∈ client.scopes

def Exposed (service : OAuthService) (input : ExchangeInput) (w : World) : Prop :=
  w.base.fault = none ∧ ∃ client, clientFor input w = some client ∧ Unproven service input client

theorem returns_authenticate {service : OAuthService}
    (returned : Returns i (service.authenticateClientAtTokenEndpoint input.clientId input.clientSecret input.tenantId
      input.applicationId) s client u) :
    s.base.fault = none ∧ clientFor input s = some client ∧
      (client.tokenEndpointAuthMethod = .none ∨ SecretShown service input client) := by
  obtain ⟨found,w,looked,rest⟩ := returns_bind.mp returned
  obtain ⟨healthy,same⟩ := returns_mongo.mp looked
  cases same
  refine ⟨healthy,?_⟩
  cases hit : clientFor input s with
  | none =>
    have missed := hit
    unfold clientFor at missed
    rw [missed] at rest
    exact absurd rest returns_throw
  | some stored =>
    have present := hit
    unfold clientFor at present
    rw [present] at rest
    dsimp only at rest
    split at rest
    · exact absurd rest returns_throw
    · split at rest
      · rename_i unproven
        obtain ⟨rfl,_⟩ := returns_pure.mp rest
        exact ⟨rfl,.inl unproven⟩
      · split at rest
        · exact absurd rest returns_throw
        · rename_i secret given
          split at rest
          · rename_i matched
            obtain ⟨rfl,_⟩ := returns_pure.mp rest
            obtain ⟨hash,kept,equal⟩ := (Option.any_eq_true _ _).mp matched
            refine ⟨rfl,.inr ⟨secret,Pezhwan.truthy_some given,?_⟩⟩
            rw [of_decide_eq_true equal]
            exact Pezhwan.truthy_some kept
          · exact absurd rest returns_throw

theorem returns_clientCredentials {service : OAuthService}
    (returned : Returns i (service.exchangeClientCredentials client input) s tokens t) :
    client.grants.contains .client_credentials = true ∧ (∀ scope ∈ requestedScopes service input, scope ∈ client.scopes) ∧
      tokens.scope = " ".intercalate (requestedScopes service input) := by
  unfold OAuthService.exchangeClientCredentials at returned
  split at returned
  · exact absurd returned returns_throw
  · rename_i granted
    dsimp only at returned
    split at returned
    · exact absurd returned returns_throw
    · rename_i own
      obtain ⟨sessionId,u,_,rest⟩ := returns_bind.mp returned
      obtain ⟨token,v,_,last⟩ := returns_bind.mp rest
      obtain ⟨rfl,_⟩ := returns_pure.mp last
      refine ⟨by simpa using granted,?_,rfl⟩
      simpa [requestedScopes] using own

theorem returns_exchange {service : OAuthService} (grant : input.grantType = "client_credentials")
    (returned : Returns i (service.exchange input) s tokens t) :
    ∃ client u, clientFor input s = some client ∧ s.base.fault = none ∧
      (client.tokenEndpointAuthMethod = .none ∨ SecretShown service input client) ∧
      Returns i (service.exchangeClientCredentials client input) u tokens t := by
  obtain ⟨client,u,authenticated,rest⟩ := returns_bind.mp returned
  obtain ⟨healthy,found,shown⟩ := returns_authenticate authenticated
  split at rest
  · exact absurd rest returns_throw
  · rw [grant] at rest
    exact ⟨client,u,found,healthy,shown,rest⟩

theorem ends_clientCredentials {service : OAuthService} (healthy : w.base.fault = none)
    (granted : client.grants.contains .client_credentials = true)
    (own : ∀ scope ∈ requestedScopes service input, scope ∈ client.scopes) :
    Ends i (service.exchangeClientCredentials client input) w fun _ _ => True := by
  unfold OAuthService.exchangeClientCredentials
  rw [granted]
  have none : (requestedScopes service input).any (fun scope => !client.scopes.contains scope) = false := by
    simpa using own
  simp only [requestedScopes] at none
  simp only [Bool.not_true,Bool.false_eq_true,if_false,none]
  refine Ends.bind (ends_base rfl fun sessionId b kept => ?_)
  exact Ends.bind (ends_signAccessToken (kept.trans healthy) fun token b _ _ => Ends.pure trivial)

theorem ends_exchange {service : OAuthService} (grant : input.grantType = "client_credentials")
    (healthy : s.base.fault = none) (found : clientFor input s = some client) (active : client.isActive = true)
    (method : client.tokenEndpointAuthMethod = .none) (granted : client.grants.contains .client_credentials = true)
    (own : ∀ scope ∈ requestedScopes service input, scope ∈ client.scopes) :
    Ends i (service.exchange input) s fun _ _ => True := by
  obtain ⟨tenant,application⟩ := clientFor_place found
  refine Ends.bind (Ends.bind (ends_mongo healthy ?_))
  have looked := found
  unfold clientFor at looked
  simp only [looked,active,method,Bool.not_true,Bool.false_eq_true,if_false,if_true]
  refine Ends.pure ?_
  simp only [tenant,application,grant,ne_eq,not_true,or_self,if_false]
  exact ends_clientCredentials healthy granted own

-- Over clients that came from registerClient: the request gets a token without
-- a secret exactly when it is exposed.
theorem client_credentials_backed_iff (service : OAuthService) (other : World → World → Prop) (s w : World)
    (aside : ∀ s t, other s t → t.clients = s.clients) (empty : s.clients = [])
    (reached : Sequence (registering service) other (fun _ _ => True) s w) (input : ExchangeInput)
    (grant : input.grantType = "client_credentials") :
    (∀ i tokens t, Returns i (service.exchange input) w tokens t → Backed service input w tokens) ↔
      ¬ Exposed service input w := by
  have all := reached_registered aside empty reached
  constructor
  · intro backed exposed
    obtain ⟨healthy,client,found,isPublic,granted,own⟩ := exposed
    obtain ⟨active,shape⟩ := all client (List.mem_of_find?_eq_some found)
    rw [isPublic] at shape
    obtain ⟨tokens,t,returned,_⟩ := ends_exchange (i := 0) grant healthy found active shape.1 granted own
    obtain ⟨same,hit,⟨secret,_,hashed⟩,_⟩ := backed 0 tokens t returned
    rw [found] at hit
    cases hit
    rw [shape.2] at hashed
    cases hashed
  · intro safe i tokens t returned
    obtain ⟨client,u,found,healthy,shown,rest⟩ := returns_exchange grant returned
    obtain ⟨granted,own,scope⟩ := returns_clientCredentials rest
    obtain ⟨active,shape⟩ := all client (List.mem_of_find?_eq_some found)
    refine ⟨client,found,?_,_,scope,own⟩
    rcases shown with method | shown
    · cases kind : client.isConfidential with
      | false => exact absurd ⟨healthy,client,found,kind,granted,own⟩ safe
      | true =>
        rw [kind] at shape
        rw [if_pos rfl,method] at shape
        cases shape.1
    · exact shown

-- A public client with the grant, and a request that names it and nothing else.
def serviceInput (confidential : Bool) : RegisterClientInput :=
  ⟨"tenant","application","reports",[],some [.client_credentials],some ["default"],some confidential,some "secret"⟩

def serviceRequest (clientId : String) (secret : Option String) : ExchangeInput :=
  ⟨"client_credentials",clientId,secret,none,none,none,none,none,"tenant","application",anyDevice⟩

def emptyWorld : World := {soleAccount sampleUser with users := []}

def afterRegistration (confidential : Bool) : World :=
  ((registering sampleOAuth (serviceInput confidential)).run 0 emptyWorld).2

theorem registration_reached (confidential : Bool) :
    Sequence (registering sampleOAuth) (fun _ _ => False) (fun _ _ => True) emptyWorld (afterRegistration confidential) :=
  Sequence.after .refl 0 trivial

def servedId (confidential : Bool) : String := ((afterRegistration confidential).clients.head?.elim "" OAuthClientDoc.clientId)

theorem public_client_served : ∃ w input, input.grantType = "client_credentials" ∧
    Sequence (registering sampleOAuth) (fun _ _ => False) (fun _ _ => True) emptyWorld w ∧ input.clientSecret = none ∧
      ∃ tokens t, Returns 1 (sampleOAuth.exchange input) w tokens t ∧ ¬ Backed sampleOAuth input w tokens := by
  have ran : endsWith 1 (sampleOAuth.exchange (serviceRequest (servedId false) none)) (afterRegistration false)
      (fun _ _ => true) = true := by decide +kernel
  obtain ⟨tokens,t,returned,_⟩ := endsWith_ends.mp ran
  refine ⟨afterRegistration false,serviceRequest (servedId false) none,rfl,registration_reached false,rfl,
    tokens,t,returned,?_⟩
  intro backed
  obtain ⟨client,_,⟨secret,shown,_⟩,_⟩ := backed
  cases shown

theorem confidential_client_backed : ∃ tokens t,
    Returns 1 (sampleOAuth.exchange (serviceRequest (servedId true) (some "secret"))) (afterRegistration true) tokens t ∧
      Backed sampleOAuth (serviceRequest (servedId true) (some "secret")) (afterRegistration true) tokens := by
  have ran : endsWith 1 (sampleOAuth.exchange (serviceRequest (servedId true) (some "secret"))) (afterRegistration true)
      (fun _ _ => true) = true := by decide +kernel
  obtain ⟨tokens,t,returned,_⟩ := endsWith_ends.mp ran
  refine ⟨tokens,t,returned,?_⟩
  refine (client_credentials_backed_iff sampleOAuth _ _ _ ?_ rfl (registration_reached true) _ rfl).mpr ?_ 1 tokens t returned
  · intro s t moved
    exact moved.elim
  · intro exposed
    obtain ⟨_,client,found,isPublic,_⟩ := exposed
    have kind : (clientFor (serviceRequest (servedId true) (some "secret")) (afterRegistration true)).any
        (fun client => client.isConfidential) = true := by decide +kernel
    rw [found,Option.any_some,isPublic] at kind
    cases kind

end Pezhwan.OAuth
