import Pezhwan.OAuth.Service
import Pezhwan.Auth.Roles
import Pezhwan.Atomic.Dict
import Pezhwan.Json

namespace Pezhwan.Server
open Atomic Auth OAuth

structure ApiKeyDoc where
  id : String
  tenantId : String
  applicationId : String
  name : String
  keyHash : String
  keyPrefix : String
  scopes : List String
  isActive : Bool
  updatedAt : Nat
  deriving DecidableEq, Repr

structure OrganizationDoc where
  id : String
  tenantId : Option String
  deriving DecidableEq, Repr

structure TeamDoc where
  id : String
  name : String
  organizationId : Option String
  tenantId : Option String
  memberIds : List String
  roleIds : List String
  updatedAt : Nat
  deriving DecidableEq, Repr

inductive SubscriptionStatus where
  | trialing | active | past_due | canceled | unpaid
  deriving DecidableEq, Repr

structure SubscriptionDoc where
  id : String
  tenantId : Option String
  applicationId : Option String
  plan : String
  status : SubscriptionStatus
  cancelAtPeriodEnd : Bool
  updatedAt : Nat
  deriving DecidableEq, Repr

-- The metadata of the user documents stand beside their other fields, by user.
structure World where
  identity : Auth.World
  apiKeys : List ApiKeyDoc
  organizations : List OrganizationDoc
  teams : List TeamDoc
  subscriptions : List SubscriptionDoc
  metadata : Dict String Json

def identityLens : Lens World Auth.World :=
  ⟨World.identity,fun v w => {w with identity := v},fun _ _ => rfl,fun _ => rfl,fun _ _ _ => rfl⟩

abbrev Program (α : Type) := Prog CallId World Error α

def identity (p : Auth.Program α) : Program α := p.zoom identityLens

def World.base (w : World) : Base := w.identity.base

def op (f : CallId → World → Except MongoError (α × World)) : Program α := mongo World.base f

def World.draw (w : World) (i : CallId) : World :=
  {w with identity := {w.identity with base := {w.identity.base with draws := w.identity.base.draws ++ [i]}}}

def World.withSessions (w : World) (docs : List Session.SessionDoc) : World :=
  {w with identity := {w.identity with sessions := {w.identity.sessions with docs}}}

def World.withRoles (w : World) (roles : List RoleDoc) : World := {w with identity := {w.identity with roles}}

def World.withAssignments (w : World) (assignments : List UserRoleAssignment) : World :=
  {w with identity := {w.identity with assignments}}

def World.withClients (w : World) (clients : List OAuthClientDoc) : World := {w with identity := {w.identity with clients}}

def World.updateUser (w : World) (p : UserDoc → Bool) (f : UserDoc → UserDoc) : World :=
  {w with identity := w.identity.updateUser p f}

def World.setMetadata (w : World) (userId : String) (value : Option Json) : World :=
  {w with metadata := match value with
    | some value => if w.identity.users.any (fun user => user.id = userId) then w.metadata.set userId value else w.metadata
    | none => w.metadata}

-- The services an HTTP request can reach.
structure Runtime where
  auth : AuthEngine
  oauth : OAuthService
  authorization : AuthorizationService
  toUpperCase : String → String

def Runtime.fresh (runtime : Runtime) (w : World) : String := runtime.auth.platform.random.fresh w.base.draws.length

inductive Method where
  | get | post | put | patch | delete
  deriving DecidableEq, Repr

-- The path is split at its slashes, the body is what the JSON parser left.
structure Request where
  method : Method
  path : List String
  query : List (String × String)
  body : List (String × Json)

def Request.field (request : Request) (name : String) : Option Json :=
  (request.body.find? fun entry => entry.1 = name).map Prod.snd

def str (value : Option Json) (fallback : String) : String :=
  match value with
  | some (.string text) => text
  | _ => fallback

def textOf : Json → Option String
  | .string text => some text
  | _ => none

def strArray : Option Json → List String
  | some (.array items) => items.filterMap textOf
  | _ => []

-- typeof value === 'boolean'
def boolean : Option Json → Option Bool
  | some (.bool value) => some value
  | _ => none

structure Response where
  status : Nat
  code : Option String
  message : Option String
  deriving DecidableEq, Repr

def Response.success (response : Response) : Bool := response.status < 400

def ok : Response := ⟨200,none,none⟩
def created : Response := ⟨201,none,none⟩
def fail (status : Nat) (code message : String) : Response := ⟨status,some code,some message⟩

def statusOf : ErrorClass → Nat
  | .authentication | .token | .session => 401
  | .authorization => 403
  | .validation => 400
  | .securityDependency => 503
  | .notFound => 404

variable (runtime : Runtime)

def KEY_PREFIX : String := "pk_live"

structure CreatedKey where
  rawKey : String
  keyPrefix : String
  keyHash : String
  deriving DecidableEq

def createApiKey (tenantId applicationId name : String) (scopes : List String) : Program CreatedKey := do
  let secret ← identity (base (draw runtime.auth.platform.random))
  let rawKey := KEY_PREFIX ++ "_" ++ secret
  let keyHash := runtime.auth.platform.sha256 rawKey
  let keyPrefix := KEY_PREFIX ++ "_" ++ String.ofList (secret.toList.take 8)
  op fun i w =>
    let doc : ApiKeyDoc := ⟨runtime.fresh w,tenantId,applicationId,name,keyHash,keyPrefix,scopes,true,w.base.now⟩
    if w.apiKeys.any (fun other => other.id = doc.id || other.keyHash = doc.keyHash) then .error duplicateKey
    else .ok ((),{w.draw i with apiKeys := w.apiKeys ++ [doc]})
  pure ⟨rawKey,keyPrefix,keyHash⟩

def ApiKeyDoc.revoke (now : Nat) (key : ApiKeyDoc) : ApiKeyDoc := {key with isActive := false,updatedAt := now}

-- updateOne({ _id }, { isActive: false })
def revokeApiKey (apiKeyId : String) : Program Unit :=
  op fun _ w => .ok ((),{w with
    apiKeys := Collection.updateOne (fun key => key.id = apiKeyId) (ApiKeyDoc.revoke w.base.now) w.apiKeys})

def createTeam (name organizationId : String) (tenantId : Option String) : Program TeamDoc := do
  match ← op fun _ w => .ok (w.organizations.find? fun organization => organization.id = objectId organizationId,w) with
  | none => Prog.throw (.pezhwan .validation "Organization not found" "ORG_NOT_FOUND")
  | some organization =>
    op fun i w =>
      let doc : TeamDoc :=
        ⟨runtime.fresh w,runtime.auth.platform.trim name,some organizationId,tenantId.or organization.tenantId,[],[],w.base.now⟩
      if w.teams.any (fun other => other.id = doc.id) then .error duplicateKey
      else .ok (doc,{w.draw i with teams := w.teams ++ [doc]})

def findTeam (teamId : String) : Program (Option TeamDoc) :=
  op fun _ w => .ok (w.teams.find? fun team => team.id = teamId,w)

def TeamDoc.add (userId : String) (team : TeamDoc) : TeamDoc :=
  if userId ∈ team.memberIds then team else {team with memberIds := team.memberIds ++ [userId]}

def TeamDoc.pull (userId : String) (team : TeamDoc) : TeamDoc :=
  {team with memberIds := team.memberIds.filter (· ≠ userId)}

def TeamDoc.touch (f : TeamDoc → TeamDoc) (now : Nat) (team : TeamDoc) : TeamDoc := {f team with updatedAt := now}

def updateTeam (teamId : String) (f : TeamDoc → TeamDoc) : Program Unit :=
  op fun _ w => .ok ((),{w with
    teams := Collection.updateOne (fun team => team.id = teamId) (TeamDoc.touch f w.base.now) w.teams})

def createSubscription (tenantId applicationId : Option String) (plan : String) (status : SubscriptionStatus) :
    Program SubscriptionDoc :=
  if plan = "" then Prog.throw (.pezhwan .validation "plan is required" "PLAN_REQUIRED")
  else op fun i w =>
    let doc : SubscriptionDoc := ⟨runtime.fresh w,tenantId,applicationId,plan,status,false,w.base.now⟩
    if w.subscriptions.any (fun other => other.id = doc.id) then .error duplicateKey
    else .ok (doc,{w.draw i with subscriptions := w.subscriptions ++ [doc]})

def SubscriptionDoc.become (status : SubscriptionStatus) (now : Nat) (subscription : SubscriptionDoc) : SubscriptionDoc :=
  {subscription with status,updatedAt := now}

def updateStatus (subscriptionId : String) (status : SubscriptionStatus) : Program Unit :=
  op fun _ w => .ok ((),{w with
    subscriptions :=
      Collection.updateOne (fun other => other.id = subscriptionId) (SubscriptionDoc.become status w.base.now) w.subscriptions})

def cancelSubscription (subscriptionId : String) : Program Unit := updateStatus subscriptionId .canceled

-- The billing service of the runtime has no provider.
def checkout (tenantId applicationId plan : String) : Program String := do
  let subscription ← createSubscription runtime (some tenantId) (some applicationId) plan .trialing
  updateStatus subscription.id .active
  pure subscription.id

end Pezhwan.Server
