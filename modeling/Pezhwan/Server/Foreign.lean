import Pezhwan.Atomic.Selection
import Pezhwan.Server.Served

-- The documents of other tenants, and the handlers that can reach them.
namespace Pezhwan.Server
open Atomic Prog Auth OAuth
variable {home : String} {runtime : Runtime} {caller : IdentityContext} {request : Request} {i : CallId} {w : World}

-- The documents whose tenant is not `home`.
structure Foreign where
  users : List UserDoc
  roles : List RoleDoc
  assignments : List UserRoleAssignment
  sessions : List Session.SessionDoc
  clients : List OAuthClientDoc
  apiKeys : List ApiKeyDoc
  teams : List TeamDoc
  subscriptions : List SubscriptionDoc

def foreign (home : String) (w : World) : Foreign where
  users := w.identity.users.filter fun user => user.tenantId ≠ home
  roles := w.identity.roles.filter fun role => role.tenantId ≠ home
  assignments := w.identity.assignments.filter fun assignment => assignment.tenantId ≠ home
  sessions := w.identity.sessions.docs.filter fun doc => doc.tenantId ≠ home
  clients := w.identity.clients.filter fun client => client.tenantId ≠ home
  apiKeys := w.apiKeys.filter fun key => key.tenantId ≠ home
  teams := w.teams.filter fun team => team.tenantId ≠ some home
  subscriptions := w.subscriptions.filter fun subscription => subscription.tenantId ≠ some home

-- What the role changes that name their tenant and their user reach.
def reachesUser (home userId : String) (w : World) : Prop :=
  ∃ user, w.identity.users.find? (fun user => user.id = userId) = some user ∧ user.tenantId ≠ home

def SpillsRoleChange (home : String) (input : RoleInput) (assigned : Bool) (w : World) : Prop :=
  ∃ role, w.identity.roles.find? input.selects = some role ∧ (input.tenantId ≠ home ∧
    (input.assignment role ∈ w.identity.assignments ↔ assigned = false) ∨ reachesUser home (objectId input.userId) w)

def SpillsClient (home clientId : String) (f : OAuthClientDoc → OAuthClientDoc) (w : World) : Prop :=
  ∃ client, w.identity.clients.find? (fun client => client.clientId = clientId) = some client ∧ client.tenantId ≠ home ∧
    touchClient f w.base.now client ≠ client

-- The handlers that write by an id alone, or to a tenant that the body names.
def SpillsAdmin (runtime : Runtime) (caller : IdentityContext) (request : Request) (w : World) : Prop :=
  match request.method,request.path with
  | .delete,["roles",id] => ∃ role, w.identity.roles.find? (ownRole caller id) = some role ∧ role.isSystem = false ∧
      ∃ assignment ∈ w.identity.assignments, assignment.roleId = role.id ∧ assignment.tenantId ≠ caller.tenantId
  | .post,["roles","assign"] => named runtime caller request = true ∧
      SpillsRoleChange caller.tenantId (namedRole runtime caller request) true w
  | .post,["roles","remove"] => named runtime caller request = true ∧
      SpillsRoleChange caller.tenantId (namedRole runtime caller request) false w
  | .delete,["clients",clientId] => SpillsClient caller.tenantId clientId disable w
  | .patch,["clients",clientId] => patchesClient request = true ∧
      SpillsClient caller.tenantId clientId (patchedClient request) w
  | .post,["sessions",id,"revoke"] => ∃ doc, w.identity.sessions.docs.find? (live id) = some doc ∧
      doc.tenantId ≠ caller.tenantId
  | .delete,["api-keys",id] => ∃ key, w.apiKeys.find? (fun key => key.id = objectId id) = some key ∧
      key.tenantId ≠ caller.tenantId ∧ key.revoke w.base.now ≠ key
  | _,_ => False

def SpillsTeam (caller : IdentityContext) (request : Request) (w : World) : Prop :=
  match request.method,request.path with
  | .post,[id,"members"] =>
    let userId := str (request.field "userId") ""
    userId ≠ "" ∧ ∃ team, w.teams.find? (fun team => team.id = objectId id) = some team ∧
      team.tenantId ≠ some caller.tenantId ∧ team.touch (memberChange request userId) w.base.now ≠ team
  | _,_ => False

def SpillsSubscription (caller : IdentityContext) (request : Request) (w : World) : Prop :=
  match request.method,request.path with
  | .post,["cancel"] =>
    let subscriptionId := str (request.field "subscriptionId") ""
    subscriptionId ≠ "" ∧ ∃ subscription, w.subscriptions.find? (fun other => other.id = objectId subscriptionId) =
      some subscription ∧ subscription.tenantId ≠ some caller.tenantId ∧ subscription.become .canceled w.base.now ≠ subscription
  | _,_ => False

def Spills (runtime : Runtime) (caller : IdentityContext) (request : Request) (limited : Bool) (w : World) : Mount → Prop
  | .admin => SpillsAdmin runtime caller request w
  | .team => limited = false ∧ SpillsTeam caller request w
  | .subscription => limited = false ∧ SpillsSubscription caller request w

-- The unique indexes on _id.
structure Indexed (w : World) : Prop where
  users : (w.identity.users.map UserDoc.id).Nodup
  roles : (w.identity.roles.map RoleDoc.id).Nodup

-- No document of another tenant has changed.
def Kept (home : String) (s t : World) : Prop := foreign home t = foreign home s

theorem Kept.refl (s : World) : Kept home s s := rfl

theorem Kept.trans {s t u : World} (one : Kept home s t) (two : Kept home t u) : Kept home s u := Eq.trans two one

theorem moves_op {f : CallId → World → Except MongoError (α × World)}
    (served : ∀ i s value t, f i s = .ok (value,t) → Kept home s t) : (op f).Moves (Kept home) :=
  fun i s => after_op (fun value t _ ran => served i s value t ran) fun _ => Kept.refl s

theorem handle_kept {p : Program Response} : Kept home w ((handle p).run i w).2 ↔ Kept home w (p.run i w).2 := by
  unfold handle
  rw [run_bind,run_attempt]
  cases (p.run i w).1 <;> rfl

theorem respond_kept {p : Program Response} : Kept home w ((respond p).run i w).2 ↔ Kept home w (p.run i w).2 := by
  unfold respond
  rw [run_bind,run_attempt]
  cases (p.run i w).1 <;> rfl

theorem kept_clients {docs : List OAuthClientDoc} : Kept home w (w.withClients docs) ↔
    docs.filter (fun client => client.tenantId ≠ home) = w.identity.clients.filter (fun client => client.tenantId ≠ home) := by
  simp [Kept,foreign,World.withClients]

theorem kept_sessions {docs : List Session.SessionDoc} : Kept home w (w.withSessions docs) ↔
    docs.filter (fun doc => doc.tenantId ≠ home) = w.identity.sessions.docs.filter (fun doc => doc.tenantId ≠ home) := by
  simp [Kept,foreign,World.withSessions]

theorem kept_keys {docs : List ApiKeyDoc} : Kept home w {w with apiKeys := docs} ↔
    docs.filter (fun key => key.tenantId ≠ home) = w.apiKeys.filter (fun key => key.tenantId ≠ home) := by
  simp [Kept,foreign]

theorem kept_teams {docs : List TeamDoc} : Kept home w {w with teams := docs} ↔
    docs.filter (fun team => team.tenantId ≠ some home) = w.teams.filter (fun team => team.tenantId ≠ some home) := by
  simp [Kept,foreign]

theorem kept_subscriptions {docs : List SubscriptionDoc} : Kept home w {w with subscriptions := docs} ↔
    docs.filter (fun subscription => subscription.tenantId ≠ some home) =
      w.subscriptions.filter (fun subscription => subscription.tenantId ≠ some home) := by
  simp [Kept,foreign]

theorem client_iff {clientId : String} {f : OAuthClientDoc → OAuthClientDoc} (same : ∀ client, (f client).tenantId = client.tenantId)
    (healthy : w.base.fault = none) :
    Kept home w ((updateClient clientId f).run i w).2 ↔ ¬ SpillsClient home clientId f w := by
  unfold updateClient
  rw [run_bind_ok (run_op healthy rfl)]
  rw [run_pure,kept_clients,Collection.filter_updateOne_iff]
  · unfold SpillsClient
    simp
  · intro client
    simp [touchClient,same]

theorem session_iff {sessionId : String} (healthy : w.base.fault = none) :
    Kept home w ((revokeSession sessionId).run i w).2 ↔
      ¬ ∃ doc, w.identity.sessions.docs.find? (live sessionId) = some doc ∧ doc.tenantId ≠ home := by
  unfold revokeSession
  rw [run_bind_ok (run_op healthy rfl)]
  rw [run_pure,kept_sessions,Collection.filter_updateOne_iff]
  · constructor
    · intro unchanged spilled
      obtain ⟨doc,found,abroad⟩ := spilled
      have revoked := unchanged doc found (by simpa using abroad)
      have active := List.find?_some (p := live sessionId) found
      have status : Session.SessionStatus.revoked = doc.status := congrArg Session.SessionDoc.status revoked
      simp [live,← status] at active
    · intro none doc found abroad
      exact absurd ⟨doc,found,by simpa using abroad⟩ none
  · intro doc
    rfl

theorem key_iff {id : String} (healthy : w.base.fault = none) : Kept home w ((deleteApiKey id).run i w).2 ↔
    ¬ ∃ key, w.apiKeys.find? (fun key => key.id = objectId id) = some key ∧ key.tenantId ≠ home ∧
      key.revoke w.base.now ≠ key := by
  unfold deleteApiKey revokeApiKey
  rw [run_bind_ok (run_op healthy rfl)]
  rw [run_pure,kept_keys,Collection.filter_updateOne_iff]
  · simp
  · intro key
    rfl

theorem memberChange_tenant (userId : String) (team : TeamDoc) : (memberChange request userId team).tenantId = team.tenantId := by
  unfold memberChange
  split
  · rfl
  · unfold TeamDoc.add
    split <;> rfl

theorem member_iff {teamId : String} (healthy : w.base.fault = none) :
    Kept home w ((postMember request teamId).run i w).2 ↔ ¬ (str (request.field "userId") "" ≠ "" ∧
      ∃ team, w.teams.find? (fun team => team.id = objectId teamId) = some team ∧ team.tenantId ≠ some home ∧
        team.touch (memberChange request (str (request.field "userId") "")) w.base.now ≠ team) := by
  unfold postMember
  dsimp only
  by_cases unnamed : str (request.field "userId") "" = ""
  · rw [if_pos unnamed]
    simp [validation,unnamed,Kept.refl]
  rw [if_neg unnamed]
  unfold findTeam
  rw [run_bind_ok (run_op healthy rfl)]
  cases found : w.teams.find? (fun team => team.id = objectId teamId) with
  | none => simp [validation,Kept.refl]
  | some team =>
    dsimp only
    unfold updateTeam
    rw [run_bind_ok (run_op healthy rfl)]
    rw [run_pure,kept_teams,Collection.filter_updateOne_iff]
    · simp [found,unnamed]
    · intro other
      simp [TeamDoc.touch,memberChange_tenant]

theorem cancel_iff (healthy : w.base.fault = none) : Kept home w ((cancel request).run i w).2 ↔
    ¬ (str (request.field "subscriptionId") "" ≠ "" ∧
      ∃ subscription, w.subscriptions.find? (fun other => other.id = objectId (str (request.field "subscriptionId") "")) =
        some subscription ∧ subscription.tenantId ≠ some home ∧ subscription.become .canceled w.base.now ≠ subscription) := by
  unfold cancel
  dsimp only
  by_cases unnamed : str (request.field "subscriptionId") "" = ""
  · rw [if_pos unnamed]
    simp [validation,unnamed,Kept.refl]
  rw [if_neg unnamed]
  unfold cancelSubscription updateStatus
  rw [run_bind_ok (run_op healthy rfl)]
  rw [run_pure,kept_subscriptions,Collection.filter_updateOne_iff]
  · simp [unnamed]
  · intro subscription
    rfl

theorem kept_assignments {docs : List UserRoleAssignment} : Kept home w (w.withAssignments docs) ↔
    docs.filter (fun assignment => assignment.tenantId ≠ home) =
      w.identity.assignments.filter (fun assignment => assignment.tenantId ≠ home) := by
  simp [Kept,foreign,World.withAssignments]

theorem kept_roles {docs : List RoleDoc} : Kept home w (w.withRoles docs) ↔
    docs.filter (fun role => role.tenantId ≠ home) = w.identity.roles.filter (fun role => role.tenantId ≠ home) := by
  simp [Kept,foreign,World.withRoles]

theorem ownRole_parts {role : RoleDoc} {roleId : String} (own : ownRole caller roleId role = true) :
    role.id = objectId roleId ∧ role.tenantId = caller.tenantId := by
  simp only [ownRole,Bool.and_eq_true,decide_eq_true_eq] at own
  exact own.1

theorem role_iff {roleId : String} (indexed : Indexed w) (healthy : w.base.fault = none) :
    Kept caller.tenantId w ((deleteRole caller roleId).run i w).2 ↔
      ¬ ∃ role, w.identity.roles.find? (ownRole caller roleId) = some role ∧ role.isSystem = false ∧
        ∃ assignment ∈ w.identity.assignments, assignment.roleId = role.id ∧ assignment.tenantId ≠ caller.tenantId := by
  unfold deleteRole
  rw [run_bind_ok (run_op healthy rfl)]
  cases found : w.identity.roles.find? (ownRole caller roleId) with
  | none => simp [Kept.refl]
  | some role =>
    dsimp only
    cases system : role.isSystem with
    | true => simp [system,Kept.refl]
    | false =>
      simp only [Bool.false_eq_true,if_false]
      rw [run_bind_ok (run_op healthy rfl)]
      generalize remaining : w.identity.assignments.filter (fun a => a.roleId ≠ role.id) = docs
      have second : (dropRole roleId).run i (w.withAssignments docs) = (.ok (),(w.withAssignments docs).withRoles
          (w.identity.roles.eraseP fun role => role.id = objectId roleId)) := run_op healthy rfl
      rw [run_bind_ok second,run_pure]
      obtain ⟨named,own⟩ := ownRole_parts (List.find?_some (p := ownRole caller roleId) found)
      have dropped : Kept caller.tenantId (w.withAssignments docs) ((w.withAssignments docs).withRoles
          (w.identity.roles.eraseP fun role => role.id = objectId roleId)) := by
        apply kept_roles.mpr
        apply Collection.filter_eraseP_other
        intro other listed same
        have equal := List.inj_on_of_nodup_map indexed.roles listed (List.mem_of_find?_eq_some found)
          ((of_decide_eq_true same).trans named.symm)
        simp [equal,own]
      rw [Kept,dropped]
      refine kept_assignments.trans ?_
      rw [← remaining,Collection.filter_filter_iff]
      constructor
      · intro spared spilled
        obtain ⟨other,same,_,assignment,listed,held,abroad⟩ := spilled
        cases same
        have kept := spared assignment listed (by simpa using abroad)
        simp [held] at kept
      · intro none assignment listed abroad
        by_contra removed
        refine none ⟨role,rfl,system,assignment,listed,by simpa using removed,by simpa using abroad⟩

theorem changed_iff {assigned : Bool} {assignment : UserRoleAssignment} {docs : List UserRoleAssignment}
    {keep : UserRoleAssignment → Bool} : (changed assigned assignment docs).filter keep = docs.filter keep ↔
      ((assignment ∈ docs ↔ assigned = false) → keep assignment = false) := by
  unfold changed
  cases assigned with
  | true =>
    by_cases listed : assignment ∈ docs
    · simp [listed]
    · rw [if_pos rfl,if_neg listed,Collection.filter_append_iff]
      simp [listed]
  | false => simp [Collection.filter_erase_iff]

theorem bump_iff {userId : String} {users : List UserDoc} :
    (bump userId users).filter (fun user => user.tenantId ≠ home) = users.filter (fun user => user.tenantId ≠ home) ↔
      ¬ ∃ user, users.find? (fun user => user.id = userId) = some user ∧ user.tenantId ≠ home := by
  unfold bump
  rw [Collection.filter_updateOne_iff]
  · constructor
    · intro same reached
      obtain ⟨user,found,abroad⟩ := reached
      have version := congrArg UserDoc.tokenVersion (same user found (by simpa using abroad))
      simp at version
    · intro none user found abroad
      exact absurd ⟨user,found,by simpa using abroad⟩ none
  · exact fun _ => rfl

theorem kept_parts {base : Base} {users : List UserDoc} {assignments : List UserRoleAssignment} :
    Kept home w (identityLens.set {w.identity with base,users,assignments} w) ↔
      users.filter (fun user => user.tenantId ≠ home) = w.identity.users.filter (fun user => user.tenantId ≠ home) ∧
      assignments.filter (fun assignment => assignment.tenantId ≠ home) =
        w.identity.assignments.filter (fun assignment => assignment.tenantId ≠ home) := by
  simp [Kept,foreign,identityLens]

theorem roleChange_iff {authorization : AuthorizationService} {input : RoleInput} {assigned : Bool} (healthy : w.base.fault = none) :
    Kept home w ((identity (roleChange authorization input (objectId input.userId) assigned)).run i w).2 ↔
      ¬ SpillsRoleChange home input assigned w := by
  unfold identity SpillsRoleChange
  rw [run_zoom]
  cases found : w.identity.roles.find? input.selects with
  | none =>
    rw [show identityLens.get w = w.identity from rfl,run_roleChange_unknown healthy found]
    simp [Kept,identityLens]
  | some role =>
    rw [show identityLens.get w = w.identity from rfl,run_roleChange healthy found]
    rw [kept_parts,bump_iff,changed_iff]
    constructor
    · intro parts spills
      obtain ⟨spared,kept⟩ := parts
      obtain ⟨other,same,reached⟩ := spills
      cases same
      rcases reached with ⟨abroad,listed⟩ | user
      · exact of_decide_eq_false (kept listed) abroad
      · exact spared user
    · intro none
      refine ⟨fun user => none ⟨role,rfl,.inr user⟩,?_⟩
      intro listed
      rw [decide_eq_false_iff_not]
      intro abroad
      exact none ⟨role,rfl,.inl ⟨abroad,listed⟩⟩

end Pezhwan.Server
