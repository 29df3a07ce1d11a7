import Pezhwan.Server.World

namespace Pezhwan.Server
open Atomic Auth OAuth

section
-- The admin router. The audit trail, the tenants and the webhooks are not
-- modelled: a handler that writes to them alone changes nothing here.
variable (runtime : Runtime) (caller : IdentityContext) (request : Request)

-- handle(): what a handler throws becomes an answer.
def answerError : Error → Response
  | .pezhwan kind message _ =>
    if statusOf kind < 500 then fail (statusOf kind) "BAD_REQUEST" message else fail 500 "INTERNAL_ERROR" message
  | .mongo error => fail 500 "INTERNAL_ERROR" error.message

def handle (p : Program Response) : Program Response := do
  match ← p.attempt with
  | .ok response => pure response
  | .error e => pure (answerError e)

-- The answer gives the name of the error, which is not modelled: its message
-- stands for it.
def mongoErrorStatus : Error → Response
  | .mongo error =>
    if error.code = some 11000 then fail 409 "DUPLICATE" "A record with that value already exists"
    else fail 500 "INTERNAL_ERROR" error.message
  | .pezhwan _ message _ => fail 500 "INTERNAL_ERROR" message

def notFound (what : String) : Response := fail 404 "NOT_FOUND" (what ++ " not found")
def invalid (message : String) : Response := fail 400 "VALIDATION_ERROR" message

def listing : Program Response := op fun _ w => .ok (ok,w)

def hashPassword (password : String) : Program (Option String) :=
  match truthy (some password) with
  | some password => some <$> identity (runtime.auth.hashPassword password)
  | none => pure none

def newUser (email phone : String) (passwordHash : Option String) : UserDoc :=
  {id := "",tenantId := caller.tenantId,email := (truthy (some email)).map runtime.auth.platform.emailSetter,
   phone := (truthy (some phone)).map runtime.auth.platform.phoneSetter,
   emailVerified := boolean (request.field "emailVerified") = some true,
   phoneVerified := boolean (request.field "phoneVerified") = some true,
   isActive := boolean (request.field "isActive") ≠ some false,tokenVersion := 0,passwordHash,
   failedLoginAttempts := 0,loginLockUntil := none,mfaEnabled := false,mfaSecret := none,mfaSecretVerifiedAt := none,
   mfaFailedAttempts := 0,mfaLockUntil := none}

def roleInput (userId roleName : String) : RoleInput := ⟨userId,caller.tenantId,caller.applicationId,roleName⟩

def grantRole (userId account roleName : String) : Program Unit :=
  identity (runtime.authorization.assignRole (roleInput caller userId roleName) account)

def withdrawRole (userId account roleName : String) : Program Unit :=
  identity (runtime.authorization.removeRole (roleInput caller userId roleName) account)

def addUser (email phone : String) (passwordHash : Option String) : Program Response := do
  let doc ← identity (runtime.auth.createUser (newUser runtime caller request email phone passwordHash))
  -- a role that cannot be assigned is passed over
  Prog.forEach (fun roleName => (fun _ => ()) <$> (grantRole runtime caller doc.id doc.id roleName).attempt)
    (strArray (request.field "roles"))
  pure ok

def postUser : Program Response := do
  let email := runtime.auth.platform.toLowerCase (str (request.field "email") "")
  let phone := str (request.field "phone") ""
  let password := str (request.field "password") ""
  if email = "" ∧ phone = "" then pure (invalid "At least one of email or phone is required")
  else if email ≠ "" ∧ password = "" then pure (invalid "Password is required for email users")
  else
    let passwordHash ← hashPassword runtime password
    match ← (addUser runtime caller request email phone passwordHash).attempt with
    | .ok response => pure response
    | .error e => pure (mongoErrorStatus e)

-- typeof value === 'object' && value
def isObject : Option Json → Bool
  | some (.object _) | some (.array _) => true
  | _ => false

structure UserPatch where
  email : Option (String × Bool)
  phone : Option String
  isActive : Option Bool
  passwordHash : Option String
  metadata : Option Json

def UserPatch.apply (patch : UserPatch) (user : UserDoc) : UserDoc :=
  {user with
    email := (patch.email.map fun entry => some entry.1).getD user.email
    emailVerified := (patch.email.map Prod.snd).getD user.emailVerified
    phone := (patch.phone.map some).getD user.phone
    isActive := patch.isActive.getD user.isActive
    passwordHash := (patch.passwordHash.map some).getD user.passwordHash}

def UserPatch.sets (patch : UserPatch) : Bool :=
  patch.email.isSome || patch.phone.isSome || patch.isActive.isSome || patch.passwordHash.isSome ||
    patch.metadata.isSome

def newPassword : Option String := truthy (some (str (request.field "password") ""))

def userPatch (passwordHash : Option String) : UserPatch where
  email := (request.field "email").map fun email =>
    (runtime.auth.platform.emailSetter (runtime.auth.platform.toLowerCase (str (some email) "")),
      boolean (request.field "emailVerified") = some true)
  phone := (request.field "phone").map fun phone => runtime.auth.platform.phoneSetter (str (some phone) "")
  isActive := boolean (request.field "isActive")
  passwordHash := passwordHash
  metadata := (request.field "metadata").filter fun value => isObject (some value)

-- updateOne({ _id }, { $set }) under the unique indexes on email and phone
def setUser (userId : String) (patch : UserPatch) : Program Unit :=
  op fun _ w =>
    let users := w.identity.users
    let taken := (users.find? fun user => user.id = userId).any fun user => users.any fun other =>
      decide (other.id ≠ userId) && AuthEngine.handleTaken (patch.apply user) other
    if taken then .error duplicateKey
    else .ok ((),(w.updateUser (fun user => user.id = userId) patch.apply).setMetadata userId patch.metadata)

def selected (userId : String) (user : UserDoc) : Bool := user.id = userId && user.tenantId = caller.tenantId

theorem selected_iff : selected caller userId user = true ↔ user.id = userId ∧ user.tenantId = caller.tenantId := by
  simp [selected]

def findUser (userId : String) : Program (Option UserDoc) :=
  op fun _ w => .ok (w.identity.users.find? (selected caller userId),w)

def getUser (userId : String) : Program Response := do
  match ← findUser caller (objectId userId) with
  | none => pure (notFound "User")
  | some _ => listing

def currentNames (userId : String) : Program (List String) := do
  let roles ← identity (getUserRoles userId caller.tenantId caller.applicationId)
  pure (roles.map RoleDoc.name).dedup

-- Role updates of PATCH /users/:id: the answer says whether one was made.
def updateRoles (userId : String) : Program Bool :=
  if (request.field "roles").isNone then pure false
  else do
    let roles := strArray (request.field "roles")
    let current ← currentNames caller userId
    let added := roles.filter fun name => name ∉ current
    let removed := current.filter fun name => name ∉ roles
    Prog.forEach (grantRole runtime caller userId (objectId userId)) added
    Prog.forEach (withdrawRole runtime caller userId (objectId userId)) removed
    pure (!added.isEmpty || !removed.isEmpty)

def patchUser (userId : String) : Program Response := do
  match ← findUser caller (objectId userId) with
  | none => pure (notFound "User")
  | some _ =>
    let passwordHash ← hashPassword runtime (str (request.field "password") "")
    let patch := userPatch runtime request passwordHash
    if patch.sets then setUser (objectId userId) patch
    let changed ← updateRoles runtime caller request userId
    if boolean (request.field "isActive") = some false || (newPassword request).isSome || changed then
      identity (bumpTokenVersion (objectId userId))
    listing

def deactivate (user : UserDoc) : UserDoc := {user with isActive := false,tokenVersion := user.tokenVersion + 1}

def deleteUser (userId : String) : Program Response := do
  let matched ← op fun _ w => .ok ((w.identity.users.find? (selected caller (objectId userId))).isSome,
    w.updateUser (selected caller (objectId userId)) deactivate)
  if matched then
    op fun _ w => .ok ((),w.withSessions (Collection.updateMany
      (fun doc => doc.userId = userId && doc.tenantId = caller.tenantId && doc.status = .active)
      (Session.SessionDoc.revoke w.base.now) w.identity.sessions.docs))
    pure ok
  else pure (notFound "User")

def roleTaken (role other : RoleDoc) : Bool :=
  role.id = other.id ||
    (role.tenantId = other.tenantId && role.applicationId = other.applicationId && role.name = other.name)

def roleName (text : Option Json) : String := runtime.toUpperCase (runtime.auth.platform.trim (str text ""))

def createRole (role : RoleDoc) : Program Unit :=
  op fun i w =>
    let role := {role with id := runtime.fresh w}
    if w.identity.roles.any (roleTaken role) then .error duplicateKey
    else .ok ((),(w.draw i).withRoles (w.identity.roles ++ [role]))

def postRole : Program Response := do
  let name := roleName runtime (request.field "name")
  if name = "" then pure (invalid "name is required")
  else match ← (createRole runtime
      {id := "",tenantId := caller.tenantId,applicationId := caller.applicationId,name,
       description := some (str (request.field "description") ""),permissionIds := strArray (request.field "permissions"),
       isSystem := false}).attempt with
    | .ok _ => pure ok
    | .error e => pure (mongoErrorStatus e)

def patchFields (role : RoleDoc) : RoleDoc :=
  {role with
    description := ((request.field "description").map fun text => some (str (some text) "")).getD role.description
    permissionIds := ((request.field "permissions").map fun ids => strArray (some ids)).getD role.permissionIds}

def ownRole (roleId : String) (role : RoleDoc) : Bool :=
  role.id = objectId roleId && role.tenantId = caller.tenantId && role.applicationId = caller.applicationId

def patchRole (roleId : String) : Program Response :=
  if (request.field "description").isNone ∧ (request.field "permissions").isNone then pure (invalid "Nothing to update")
  else do
    let found ← op fun _ w => .ok ((w.identity.roles.find? (ownRole caller roleId)).isSome,
      w.withRoles (Collection.updateOne (ownRole caller roleId) (patchFields request) w.identity.roles))
    pure (if found then ok else notFound "Role")

def dropRole (roleId : String) : Program Unit :=
  op fun _ w => .ok ((),w.withRoles (w.identity.roles.eraseP fun role => role.id = objectId roleId))

def deleteRole (roleId : String) : Program Response := do
  match ← op fun _ w => .ok (w.identity.roles.find? (ownRole caller roleId),w) with
  | none => pure (notFound "Role")
  | some role =>
    if role.isSystem then pure (fail 400 "SYSTEM_ROLE" "System roles cannot be deleted")
    else
      op fun _ w => .ok ((),w.withAssignments (w.identity.assignments.filter fun a => a.roleId ≠ role.id))
      dropRole roleId
      pure ok

-- The role change that the bodies of /roles/assign and /roles/remove name.
def namedRole : RoleInput where
  userId := str (request.field "userId") ""
  tenantId := str (request.field "tenantId") caller.tenantId
  applicationId := str (request.field "applicationId") caller.applicationId
  roleName := roleName runtime (request.field "roleName")

def named : Bool := (namedRole runtime caller request).userId ≠ "" && (namedRole runtime caller request).roleName ≠ ""

def assignRole : Program Response :=
  if named runtime caller request then do
    let input := namedRole runtime caller request
    identity (runtime.authorization.assignRole input (objectId input.userId))
    pure ok
  else pure (invalid "userId and roleName are required")

def removeRole : Program Response :=
  if named runtime caller request then do
    let input := namedRole runtime caller request
    identity (runtime.authorization.removeRole input (objectId input.userId))
    pure ok
  else pure (invalid "userId and roleName are required")

def grantOf : String → Option OAuthGrant
  | "authorization_code" => some .authorization_code
  | "refresh_token" => some .refresh_token
  | "client_credentials" => some .client_credentials
  | _ => none

def unknownGrant : Error := .mongo ⟨none,"OAuthClient validation failed",false⟩

def grantsOf (names : List String) : Option (List OAuthGrant) :=
  if names.isEmpty then some [.authorization_code] else names.mapM grantOf

def postClient : Program Response := do
  let name := str (request.field "name") ""
  let redirectUris := strArray (request.field "redirectUris")
  if name = "" ∨ redirectUris = [] then pure (invalid "name and redirectUris are required")
  else match grantsOf (strArray (request.field "grants")) with
    | none => Prog.throw unknownGrant
    | some grants =>
      let _ ← identity (runtime.oauth.registerClient
        {tenantId := caller.tenantId,applicationId := caller.applicationId,name,redirectUris,grants := some grants,
         scopes := some (strArray (request.field "scopes")),
         confidential := some (boolean (request.field "confidential") ≠ some false),
         clientSecret := (request.field "clientSecret").bind textOf})
      listing

-- An update sets `updatedAt`, whatever else it does.
def touchClient (f : OAuthClientDoc → OAuthClientDoc) (now : Nat) (client : OAuthClientDoc) : OAuthClientDoc :=
  {f client with updatedAt := now}

def updateClient (clientId : String) (f : OAuthClientDoc → OAuthClientDoc) : Program Response := do
  let matched ← op fun _ w => .ok ((w.identity.clients.find? fun client => client.clientId = clientId).isSome,
    w.withClients (Collection.updateOne (fun client => client.clientId = clientId) (touchClient f w.base.now) w.identity.clients))
  pure (if matched then ok else notFound "Client")

def disable (client : OAuthClientDoc) : OAuthClientDoc := {client with isActive := false}

def deleteClient (clientId : String) : Program Response := updateClient clientId disable

def patchedClient (client : OAuthClientDoc) : OAuthClientDoc :=
  {client with
    isActive := (boolean (request.field "isActive")).getD client.isActive
    redirectUris := ((request.field "redirectUris").map fun uris => strArray (some uris)).getD client.redirectUris
    scopes := ((request.field "scopes").map fun scopes => strArray (some scopes)).getD client.scopes}

def patchesClient : Bool :=
  (boolean (request.field "isActive")).isSome || (request.field "redirectUris").isSome || (request.field "scopes").isSome

def patchClient (clientId : String) : Program Response :=
  if patchesClient request then updateClient clientId (patchedClient request) else pure (invalid "Nothing to update")

-- Sessions: updateOne({ _id, status: 'active' }, ...)
def live (sessionId : String) (doc : Session.SessionDoc) : Bool := doc.id = objectId sessionId && doc.status = .active

def revokeSession (sessionId : String) : Program Response := do
  let matched ← op fun _ w => .ok ((w.identity.sessions.docs.find? (live sessionId)).isSome,
    w.withSessions (Collection.updateOne (live sessionId) (Session.SessionDoc.revoke w.base.now) w.identity.sessions.docs))
  pure (if matched then ok else notFound "Active session")

def postApiKey : Program Response := do
  let name := str (request.field "name") ""
  if name = "" then pure (invalid "name is required")
  else
    let _ ← createApiKey runtime caller.tenantId caller.applicationId name (strArray (request.field "scopes"))
    listing

def deleteApiKey (id : String) : Program Response := do
  revokeApiKey (objectId id)
  pure ok

-- Webhooks and settings: their checks, and a write elsewhere.
def postWebhook : Program Response :=
  if str (request.field "url") "" = "" ∨ strArray (request.field "events") = [] then
    pure (invalid "url and events are required")
  else listing

def patchSettings : Program Response :=
  if isObject (request.field "settings") then listing else pure (invalid "settings object is required")

def unrouted : Response := ⟨404,none,none⟩

def listed : List String → Bool
  | ["stats"] | ["users"] | ["users",_,"roles"] | ["users",_,"permissions"] | ["roles"] | ["permissions"] | ["clients"]
  | ["sessions"] | ["audit"] | ["api-keys"] | ["webhooks"] | ["security","breaches"] | ["security","risk"] | ["settings"]
  | ["subscriptions"] => true
  | _ => false

def adminRoute : Program Response :=
  match request.method,request.path with
  | .post,["users"] => postUser runtime caller request
  | .patch,["users",id] => patchUser runtime caller request id
  | .delete,["users",id] => deleteUser caller id
  | .post,["roles"] => postRole runtime caller request
  | .patch,["roles",id] => patchRole caller request id
  | .delete,["roles",id] => deleteRole caller id
  | .post,["roles","assign"] => assignRole runtime caller request
  | .post,["roles","remove"] => removeRole runtime caller request
  | .post,["authorization","can"] => listing
  | .post,["clients"] => postClient runtime caller request
  | .delete,["clients",clientId] => deleteClient clientId
  | .patch,["clients",clientId] => patchClient request clientId
  | .post,["sessions",id,"revoke"] => revokeSession id
  | .post,["api-keys"] => postApiKey runtime caller request
  | .delete,["api-keys",id] => deleteApiKey id
  | .post,["webhooks"] => postWebhook request
  | .post,["webhooks",_,"test"] => listing
  | .patch,["settings"] => patchSettings request
  | .get,["users",id] => getUser caller id
  | .get,path => if listed path then listing else pure unrouted
  | _,_ => pure unrouted

def admin : Program Response := handle (adminRoute runtime caller request)
end

def machine : AuthMethod → Bool
  | .service | .api_key => true
  | _ => false

-- The claims that verifyAccessToken looks at; the signature is not modelled.
def accepts (tokens : TokenService) (token : AccessToken) (now : Nat) : Bool :=
  token.iss = tokens.issuer && token.aud = tokens.audience && now/1000 < token.exp &&
    now/1000 < token.iat + tokens.accessTokenTtlMs/1000 && token.sub ≠ "" && token.tenantId ≠ "" &&
    token.applicationId ≠ "" && token.sessionId ≠ ""

def identityOf (token : AccessToken) : IdentityContext :=
  ⟨token.sub,token.tenantId,token.applicationId,token.sessionId,token.roles,token.permissions,token.authMethod⟩

section
variable (runtime : Runtime)

-- createAuthenticate: what is attached to the request.
def authenticate (presented : Option AccessToken) : Program (Option IdentityContext) := do
  let now ← identity (base clock)
  match presented.filter (accepts runtime.auth.tokens · now) with
  | none => pure none
  | some token =>
    if machine token.authMethod then pure (some (identityOf token))
    else if ← identity (validate token.sub (token.tokenVersion.getD 0)) then pure (some (identityOf token))
    else pure none

def unauthenticated : Error := .pezhwan .authentication "Authentication required" "UNAUTHENTICATED"
def roleRequired (roleName : String) : Error :=
  .pezhwan .authorization ("Role \"" ++ roleName ++ "\" required") "ROLE_REQUIRED"

def respondError : Error → Response
  | .pezhwan kind message code =>
    fail (statusOf kind) code (if 500 ≤ statusOf kind then "Internal server error" else message)
  | .mongo _ => fail 500 "INTERNAL_ERROR" "Internal server error"

def respond (p : Program Response) : Program Response := do
  match ← p.attempt with
  | .ok response => pure response
  | .error e => pure (respondError e)

-- authenticate, requireAuth and requireRole before a router.
def guarded (roleName : Option String) (presented : Option AccessToken) (router : IdentityContext → Program Response) :
    Program Response :=
  respond do
    match ← authenticate runtime presented with
    | none => Prog.throw unauthenticated
    | some caller =>
      match roleName.filter (· ∉ caller.roles) with
      | some missing => Prog.throw (roleRequired missing)
      | none => router caller

variable (request : Request)

def validation (message code : String) : Program α := Prog.throw (.pezhwan .validation message code)

def postTeam : Program Response := do
  let name := str (request.field "name") ""
  let organizationId := str (request.field "organizationId") ""
  if name = "" then validation "name is required" "NAME_REQUIRED"
  else if organizationId = "" then validation "organizationId is required" "ORGANIZATION_ID_REQUIRED"
  else
    let _ ← createTeam runtime name organizationId (some runtime.auth.tenantId)
    pure created

def teamMembers (teamId : String) : Program Response := do
  match ← findTeam (objectId teamId) with
  | none => validation "Team not found" "TEAM_NOT_FOUND"
  | some _ => pure ok

def memberChange (userId : String) : TeamDoc → TeamDoc :=
  if str (request.field "action") "" = "remove" then TeamDoc.pull userId else TeamDoc.add userId

def postMember (teamId : String) : Program Response := do
  let userId := str (request.field "userId") ""
  if userId = "" then validation "userId is required" "USER_ID_REQUIRED"
  else match ← findTeam (objectId teamId) with
    | none => validation "Team not found" "TEAM_NOT_FOUND"
    | some _ =>
      updateTeam (objectId teamId) (memberChange request userId)
      pure ok

def team : Program Response :=
  match request.method,request.path with
  | .get,[] => listing
  | .post,[] => postTeam runtime request
  | .get,[id,"members"] => teamMembers id
  | .post,[id,"members"] => postMember request id
  | _,_ => pure unrouted

def PLANS : List String := ["starter","growth","enterprise"]

def subscribe : Program Response :=
  let plan := str (request.field "plan") ""
  if plan ∈ PLANS then do
    let _ ← checkout runtime runtime.auth.tenantId runtime.auth.applicationId plan
    pure created
  else validation ("plan must be one of " ++ ", ".intercalate PLANS) "PLAN_INVALID"

def cancel : Program Response :=
  let subscriptionId := str (request.field "subscriptionId") ""
  if subscriptionId = "" then validation "subscriptionId is required" "SUBSCRIPTION_ID_REQUIRED"
  else do
    cancelSubscription (objectId subscriptionId)
    pure ok

def subscription : Program Response :=
  match request.method,request.path with
  | .get,["plans"] => pure ok
  | .post,["subscribe"] => subscribe runtime request
  | .post,["cancel"] => cancel request
  | .get,["entitlements"] => listing
  | .get,[] => listing
  | _,_ => pure unrouted

inductive Mount where
  | admin | team | subscription
  deriving DecidableEq, Repr

-- `limited` is what the rate limiter of the team and subscription routers says.
def rateLimited : Response := fail 429 "RATE_LIMITED" "Too many requests"

def serve (limited : Bool) (caller : IdentityContext) : Mount → Program Response
  | .admin => admin runtime caller request
  | .team => if limited then pure rateLimited else respond (team runtime request)
  | .subscription => if limited then pure rateLimited else respond (subscription runtime request)

end

end Pezhwan.Server
