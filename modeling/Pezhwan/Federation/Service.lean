import Pezhwan.Atomic.Trace
import Pezhwan.Auth.World

-- External subjects linked to local users.
namespace Pezhwan.Federation
open Atomic Prog
open Auth (Platform)

structure LinkedIdentity where
  provider : String
  subject : String
  deriving DecidableEq, Repr

structure UserDoc extends Auth.UserDoc where
  identities : List LinkedIdentity
  deriving DecidableEq, Repr

structure World where
  base : Base
  users : List UserDoc

abbrev Program := Prog CallId World Error

structure FederatedProfile where
  provider : String
  subject : String
  email : Option String
  name : Option String
  picture : Option String
  deriving DecidableEq, Repr

structure LinkIdentityInput where
  tenantId : String
  provider : String
  subject : String
  userId : Option String
  profile : Option FederatedProfile
  autoProvision : Option Bool
  deriving DecidableEq, Repr

def LinkIdentityInput.identity (input : LinkIdentityInput) : LinkedIdentity := ⟨input.provider,input.subject⟩

structure FederatedResolution where
  user : Option UserDoc
  linked : Bool
  deriving DecidableEq, Repr

def raise (kind : ErrorClass) (message code : String) : Program α := Prog.throw (.pezhwan kind message code)

-- A condition on a path into an array holds when some element meets it; two
-- such conditions may be met by two elements.
def selects (tenantId provider subject : String) (user : UserDoc) : Bool :=
  user.tenantId = tenantId && user.identities.any (fun identity => identity.provider = provider) &&
    user.identities.any (fun identity => identity.subject = subject)

def userWithId (userId : String) (users : List UserDoc) : Option UserDoc := users.find? fun user => user.id = userId

def updateById (userId : String) (change : UserDoc → UserDoc) (users : List UserDoc) : List UserDoc :=
  Collection.updateOne (fun user => user.id = userId) change users

-- $addToSet and $pull of one identity.
def addToSet (identity : LinkedIdentity) (user : UserDoc) : UserDoc :=
  {user with identities := if user.identities.contains identity then user.identities else user.identities ++ [identity]}

def pull (identity : LinkedIdentity) (user : UserDoc) : UserDoc :=
  {user with identities := user.identities.filter fun other => other ≠ identity}

-- The new user, with the defaults of the schema.
def provisioned (platform : Platform) (id tenantId email : String) (identity : LinkedIdentity) : UserDoc where
  id := id
  tenantId := tenantId
  email := some (platform.emailSetter email)
  phone := none
  emailVerified := true
  phoneVerified := false
  isActive := true
  tokenVersion := 0
  passwordHash := none
  failedLoginAttempts := 0
  loginLockUntil := none
  mfaEnabled := false
  mfaSecret := none
  mfaSecretVerifiedAt := none
  mfaFailedAttempts := 0
  mfaLockUntil := none
  identities := [identity]

-- The unique indexes: the id, and the email within a tenant.
def taken (user : UserDoc) (users : List UserDoc) : Bool :=
  users.any fun other => other.id = user.id || (other.tenantId = user.tenantId && other.email = user.email)

-- The required fields, whose paths mongoose names, and then the indexes.
def refusal (user : UserDoc) (users : List UserDoc) : Option MongoError :=
  if user.tenantId = "" || user.identities.any (fun identity => identity.provider = "" || identity.subject = "") then
    some ⟨none,"User validation failed",false⟩
  else if taken user users then some duplicateKey
  else none

theorem refusal_free (free : refusal user users = none) : taken user users = false := by
  unfold refusal at free
  grind

structure FederatedIdentityService where
  platform : Platform

namespace FederatedIdentityService
variable (service : FederatedIdentityService)

def findByProvider (tenantId provider subject : String) : Program (Option UserDoc) :=
  mongo World.base fun _ w => .ok (w.users.find? (selects tenantId provider subject),w)

def findByIdAndUpdate (userId : String) (change : UserDoc → UserDoc) : Program (Option UserDoc) :=
  mongo World.base fun _ w =>
    .ok ((userWithId userId w.users).map change,{w with users := updateById userId change w.users})

def link (userId provider subject : String) : Program (Option UserDoc) := do
  match ← findByIdAndUpdate userId (addToSet ⟨provider,subject⟩) with
  | none => raise .validation "User not found" "USER_NOT_FOUND"
  | some user => pure (some user)

def unlink (userId provider subject : String) : Program (Option UserDoc) :=
  findByIdAndUpdate userId (pull ⟨provider,subject⟩)

def create (tenantId email : String) (identity : LinkedIdentity) : Program UserDoc :=
  mongo World.base fun i w =>
    let user := provisioned service.platform (service.platform.random.fresh w.base.draws.length) tenantId email identity
    match refusal user w.users with
    | some e => .error e
    | none => .ok (user,{w with base := {w.base with draws := w.base.draws ++ [i]},users := w.users ++ [user]})

def resolve (input : LinkIdentityInput) : Program FederatedResolution := do
  match ← findByProvider input.tenantId input.provider input.subject with
  | some existing => pure ⟨some existing,false⟩
  | none => match truthy input.userId with
    | some userId =>
      let user ← link userId input.provider input.subject
      pure ⟨user,true⟩
    | none =>
      match truthy ((input.profile.bind FederatedProfile.email).map service.platform.toLowerCase) with
      | none => raise .validation "No matching local user for federated identity" "IDENTITY_UNLINKED"
      | some email =>
        if input.autoProvision ≠ some true then
          raise .validation "No matching local user for federated identity" "IDENTITY_UNLINKED"
        else
          let user ← service.create input.tenantId email input.identity
          pure ⟨some user,true⟩

end FederatedIdentityService

inductive Call where
  | resolve (input : LinkIdentityInput)
  | link (userId provider subject : String)
  | unlink (userId provider subject : String)
  deriving DecidableEq

inductive Reply where
  | resolution (resolved : FederatedResolution)
  | user (found : Option UserDoc)
  deriving DecidableEq

def program (service : FederatedIdentityService) : Call → Program Reply
  | .resolve input => Reply.resolution <$> service.resolve input
  | .link userId provider subject => Reply.user <$> FederatedIdentityService.link userId provider subject
  | .unlink userId provider subject => Reply.user <$> FederatedIdentityService.unlink userId provider subject

end Pezhwan.Federation
