import Pezhwan.Auth.Frame

namespace Pezhwan.Auth
open Atomic Prog

-- Role changes. The account-state service is optional.
structure AuthorizationService where
  accountState : Bool

structure RoleInput where
  userId : String
  tenantId : String
  applicationId : String
  roleName : String
  deriving DecidableEq

def RoleInput.selects (input : RoleInput) (role : RoleDoc) : Bool :=
  role.tenantId = input.tenantId && role.applicationId = input.applicationId && role.name = input.roleName

def RoleInput.assignment (input : RoleInput) (role : RoleDoc) : UserRoleAssignment :=
  ⟨input.userId,input.tenantId,input.applicationId,role.id⟩

def findRole (input : RoleInput) : Program (Option RoleDoc) := read fun w => w.roles.find? input.selects

-- updateOne({ _id }, { $inc: { tokenVersion: 1 } })
def bumpTokenVersion (userId : String) : Program Unit :=
  write fun w => w.updateUser (fun user => user.id = userId)
    (fun user => {user with tokenVersion := user.tokenVersion + 1})

namespace AuthorizationService
variable (authorization : AuthorizationService)

-- `account` is the _id that `userId` is cast to: the user's own, unless it is spelled in another way.
def invalidateUserTokens (userId : String) (account : String := userId) : Program Unit := do
  bumpTokenVersion account
  if authorization.accountState then invalidate userId else pure ()

def assignRole (input : RoleInput) (account : String := input.userId) : Program Unit := do
  match ← findRole input with
  | none => raise .authorization ("Role \"" ++ input.roleName ++ "\" not found in this application") "ROLE_NOT_FOUND"
  | some role =>
    -- findOneAndUpdate with upsert: only a missing assignment is inserted
    write fun w => if input.assignment role ∈ w.assignments then w
      else {w with assignments := w.assignments ++ [input.assignment role]}
    authorization.invalidateUserTokens input.userId account

def removeRole (input : RoleInput) (account : String := input.userId) : Program Unit := do
  match ← findRole input with
  | none => pure ()
  | some role =>
    write fun w => {w with assignments := w.assignments.erase (input.assignment role)}
    authorization.invalidateUserTokens input.userId account

end AuthorizationService
end Pezhwan.Auth
