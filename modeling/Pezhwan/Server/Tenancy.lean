import Pezhwan.OAuth.Usable
import Pezhwan.Server.Homely

-- Which requests reach the documents of other tenants.
namespace Pezhwan.Server
open Atomic Prog Auth OAuth
variable {home : String} {runtime : Runtime} {caller : IdentityContext} {request : Request} {i : CallId} {w : World}

theorem kept_refused {f : CallId → World → Except MongoError (α × World)} {rest : α → Program β} (faulty : w.base.fault = some e) :
    Kept home w ((op f >>= rest).run i w).2 := by
  rw [run_bind,run_op_refused faulty]
  exact Kept.refl w

theorem served_iff {p : Program Response} {spills : Prop}
    (refused : ∀ e, w.base.fault = some e → Kept home w (p.run i w).2)
    (served : w.base.fault = none → (Kept home w (p.run i w).2 ↔ ¬ spills)) :
    Kept home w (p.run i w).2 ↔ ¬ (w.base.fault = none ∧ spills) := by
  cases fault : w.base.fault with
  | none => simp [served fault]
  | some e => simp [refused e fault]

theorem safe_iff {p : Program Response} (kept : Kept home w (p.run i w).2) :
    Kept home w (p.run i w).2 ↔ ¬ (w.base.fault = none ∧ False) := by
  simp [kept]

theorem named_iff {assigned : Bool} : Kept caller.tenantId w ((if named runtime caller request then do
      identity (roleChange runtime.authorization (namedRole runtime caller request)
        (objectId (namedRole runtime caller request).userId) assigned)
      pure ok
    else pure (invalid "userId and roleName are required") : Program Response).run i w).2 ↔ ¬ (w.base.fault = none ∧
      named runtime caller request = true ∧ SpillsRoleChange caller.tenantId (namedRole runtime caller request) assigned w) := by
  split
  · next given =>
    have tail : ∀ (p : Program Unit), Kept caller.tenantId w ((p >>= fun _ => (pure ok : Program Response)).run i w).2 ↔
        Kept caller.tenantId w (p.run i w).2 := by
      intro p
      rw [run_bind]
      rcases p.run i w with ⟨_ | _,t⟩
      · rfl
      · rfl
    rw [tail]
    cases fault : w.base.fault with
    | none => simp [roleChange_iff fault,given]
    | some e =>
      unfold identity
      rw [run_zoom,show identityLens.get w = w.identity from rfl,run_roleChange_refused fault]
      simp [Kept,identityLens]
  · next missing => simp [missing,Kept.refl]

theorem moves_getUser {userId : String} : (getUser caller userId).Moves (Kept home) := by
  unfold getUser
  apply kept_bind
  · apply moves_op
    intro i s value t ran
    cases ran
    exact Kept.refl s
  · intro found
    cases found with
    | none => exact moves_answer _
    | some user => exact moves_listing

theorem moves_postWebhook : (postWebhook request).Moves (Kept home) := by
  unfold postWebhook
  split
  · exact moves_answer _
  · exact moves_listing

theorem moves_patchSettings : (patchSettings request).Moves (Kept home) := by
  unfold patchSettings
  split
  · exact moves_listing
  · exact moves_answer _

theorem deleteClient_iff {clientId : String} : Kept home w ((deleteClient clientId).run i w).2 ↔
    ¬ (w.base.fault = none ∧ SpillsClient home clientId disable w) :=
  served_iff (fun _ faulty => kept_refused faulty) (client_iff fun _ => rfl)

theorem patchClient_iff {clientId : String} : Kept home w ((patchClient request clientId).run i w).2 ↔
    ¬ (w.base.fault = none ∧ patchesClient request = true ∧ SpillsClient home clientId (patchedClient request) w) := by
  unfold patchClient
  split
  · next given =>
    simp only [given,true_and]
    exact served_iff (fun _ faulty => kept_refused faulty) (client_iff fun _ => rfl)
  · next missing => simp [missing,Kept.refl]

theorem admin_iff (indexed : Indexed w) : Kept caller.tenantId w ((adminRoute runtime caller request).run i w).2 ↔
    ¬ (w.base.fault = none ∧ SpillsAdmin runtime caller request w) := by
  unfold adminRoute SpillsAdmin
  split
  · next method path =>
    simp only [method,path]
    exact safe_iff (moves_postUser i w)
  · next id method path =>
    simp only [method,path]
    exact safe_iff (after_patchUser indexed.users)
  · next id method path =>
    simp only [method,path]
    exact safe_iff (moves_deleteUser i w)
  · next method path =>
    simp only [method,path]
    exact safe_iff (moves_postRole i w)
  · next id method path =>
    simp only [method,path]
    exact safe_iff (moves_patchRole i w)
  · next id method path =>
    simp only [method,path]
    exact served_iff (fun _ faulty => kept_refused faulty) (role_iff indexed)
  · next method path =>
    simp only [method,path]
    exact @named_iff _ _ _ _ _ true
  · next method path =>
    simp only [method,path]
    exact @named_iff _ _ _ _ _ false
  · next method path =>
    simp only [method,path]
    exact safe_iff (moves_listing i w)
  · next method path =>
    simp only [method,path]
    exact safe_iff (moves_postClient i w)
  · next id method path =>
    simp only [method,path]
    exact deleteClient_iff
  · next id method path =>
    simp only [method,path]
    exact patchClient_iff
  · next id method path =>
    simp only [method,path]
    exact served_iff (fun _ faulty => kept_refused faulty) session_iff
  · next method path =>
    simp only [method,path]
    exact safe_iff (moves_postApiKey i w)
  · next id method path =>
    simp only [method,path]
    exact served_iff (fun _ faulty => kept_refused faulty) key_iff
  · next method path =>
    simp only [method,path]
    exact safe_iff (moves_postWebhook i w)
  · next id method path =>
    simp only [method,path]
    exact safe_iff (moves_listing i w)
  · next method path =>
    simp only [method,path]
    exact safe_iff (moves_patchSettings i w)
  · next id method path =>
    simp only [method,path]
    exact safe_iff (moves_getUser i w)
  · next method unnamed =>
    simp only [method]
    split
    · exact safe_iff (moves_listing i w)
    · exact safe_iff (moves_answer _ i w)
  -- the routes that reach another tenant are among those above
  · split
    case h_8 => exact safe_iff (moves_answer _ i w)
    all_goals simp_all

theorem moves_teamMembers {teamId : String} : (teamMembers teamId).Moves (Kept home) := by
  unfold teamMembers
  apply kept_bind
  · apply moves_op
    intro i s value t ran
    cases ran
    exact Kept.refl s
  · intro found
    cases found with
    | none => exact moves_throw _
    | some team => exact moves_answer _

theorem postMember_refused {teamId : String} (e : MongoError) (faulty : w.base.fault = some e) :
    Kept home w ((postMember request teamId).run i w).2 := by
  unfold postMember
  dsimp only
  split
  · exact Kept.refl w
  · exact kept_refused faulty

theorem cancel_refused (e : MongoError) (faulty : w.base.fault = some e) : Kept home w ((cancel request).run i w).2 := by
  unfold cancel
  dsimp only
  split
  · exact Kept.refl w
  · exact kept_refused faulty

theorem team_iff (tenant : runtime.auth.tenantId = caller.tenantId) :
    Kept caller.tenantId w ((team runtime request).run i w).2 ↔ ¬ (w.base.fault = none ∧ SpillsTeam caller request w) := by
  unfold team SpillsTeam
  split
  · next method path =>
    simp only [method,path]
    exact safe_iff (moves_listing i w)
  · next method path =>
    simp only [method,path]
    exact safe_iff (moves_postTeam tenant i w)
  · next id method path =>
    simp only [method,path]
    exact safe_iff (moves_teamMembers i w)
  · next id method path =>
    simp only [method,path]
    exact served_iff postMember_refused member_iff
  · split
    case h_2 => exact safe_iff (moves_answer _ i w)
    all_goals simp_all

theorem subscription_iff (tenant : runtime.auth.tenantId = caller.tenantId) :
    Kept caller.tenantId w ((subscription runtime request).run i w).2 ↔
      ¬ (w.base.fault = none ∧ SpillsSubscription caller request w) := by
  unfold subscription SpillsSubscription
  split
  · next method path =>
    simp only [method,path]
    exact safe_iff (moves_answer _ i w)
  · next method path =>
    simp only [method,path]
    exact safe_iff (moves_subscribe tenant i w)
  · next method path =>
    simp only [method,path]
    exact served_iff cancel_refused cancel_iff
  · next method path =>
    simp only [method,path]
    exact safe_iff (moves_listing i w)
  · next method path =>
    simp only [method,path]
    exact safe_iff (moves_listing i w)
  · split
    case h_2 => exact safe_iff (moves_answer _ i w)
    all_goals simp_all

-- A caller of one tenant, and a client of another.
def sampleRuntime : Runtime := ⟨sampleEngine,sampleOAuth,⟨true⟩,id⟩

def sampleCaller : IdentityContext := ⟨"admin","tenant","application","session",["ADMIN"],[],.password⟩

def neighbourClient : OAuthClientDoc where
  id := "neighbour"
  tenantId := "neighbours"
  applicationId := "application"
  name := "Neighbour"
  clientId := "client_neighbour"
  clientSecretHash := none
  redirectUris := ["https://neighbour.example/callback"]
  grants := [.authorization_code]
  pkceMethods := [.S256]
  scopes := ["openid"]
  isActive := true
  isConfidential := false
  tokenEndpointAuthMethod := .none

def neighbours : World := ⟨{soleAccount sampleUser with clients := [neighbourClient]},[],[],[],[],.empty⟩

def deletion (path : List String) : Request := ⟨.delete,path,[],[]⟩

theorem neighbours_indexed : Indexed neighbours := ⟨List.nodup_singleton _,List.nodup_nil⟩

end Pezhwan.Server
