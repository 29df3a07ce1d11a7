import Pezhwan.Atomic.After
import Pezhwan.Atomic.Effect
import Pezhwan.Server.Routers

-- What one operation does, and one role change.
namespace Pezhwan.Server
open Atomic Prog Auth OAuth
variable {runtime : Runtime} {i : CallId} {w : World}

theorem run_op {f : CallId → World → Except MongoError (α × World)} (healthy : w.base.fault = none)
    (served : f i w = .ok (value,t)) : (op f).run i w = (.ok value,t) := by
  have ran : (mongo World.base f).run i w = (.ok value,t) := returns_mongo.mpr ⟨healthy,served⟩
  exact ran

theorem run_op_refused {f : CallId → World → Except MongoError (α × World)} (faulty : w.base.fault = some e) :
    (op f).run i w = (.error (.mongo e),w) := by
  simp [op,mongo,Prog.tryAtomic,run,faulty]

theorem run_op_failed {f : CallId → World → Except MongoError (α × World)} (healthy : w.base.fault = none)
    (failed : f i w = .error e) : (op f).run i w = (.error (.mongo e),w) := by
  simp [op,mongo,Prog.tryAtomic,run,healthy,failed,Except.mapError]

theorem after_op {f : CallId → World → Except MongoError (α × World)} {post : Except Error α → World → Prop}
    (served : ∀ value t, w.base.fault = none → f i w = .ok (value,t) → post (.ok value) t) (refused : ∀ e, post (.error e) w) :
    After i (op f) w post := after_mongo served fun e => refused (.mongo e)

-- A role change that is served: the assignment, a new version for the user, and the
-- cached account state dropped.
def dropped (authorization : AuthorizationService) (userId : String) (b : Base) : Base :=
  if authorization.accountState then {b with cache := b.cache.del (.accountState userId)} else b

theorem dropped_fault (authorization : AuthorizationService) (userId : String) (b : Base) :
    (dropped authorization userId b).fault = b.fault := by
  unfold dropped
  split <;> rfl

theorem run_invalidate {authorization : AuthorizationService} {userId account : String} {v : Auth.World}
    (healthy : v.base.fault = none) :
    (authorization.invalidateUserTokens userId account).run i v = (.ok (),{v with
      base := dropped authorization userId v.base
      users := Collection.updateOne (fun user => user.id = account)
        (fun user => {user with tokenVersion := user.tokenVersion + 1}) v.users}) := by
  unfold AuthorizationService.invalidateUserTokens
  have bumped : (bumpTokenVersion account).run i v = (.ok (),v.updateUser (fun user => user.id = account)
      fun user => {user with tokenVersion := user.tokenVersion + 1}) := returns_mongo.mpr ⟨healthy,rfl⟩
  rw [run_bind_ok bumped]
  unfold dropped
  split
  · unfold invalidate Auth.base cacheDel
    rw [run_zoom,run_atomic]
    rfl
  · rfl

def changed (assigned : Bool) (assignment : UserRoleAssignment) (docs : List UserRoleAssignment) : List UserRoleAssignment :=
  if assigned then if assignment ∈ docs then docs else docs ++ [assignment] else docs.erase assignment

def bump (userId : String) (users : List UserDoc) : List UserDoc :=
  Collection.updateOne (fun user => user.id = userId) (fun user => {user with tokenVersion := user.tokenVersion + 1}) users

def roleChange (authorization : AuthorizationService) (input : RoleInput) (account : String) (assigned : Bool) : Auth.Program Unit :=
  if assigned then authorization.assignRole input account else authorization.removeRole input account

theorem run_roleChange {authorization : AuthorizationService} {input : RoleInput} {account : String} {assigned : Bool} {v : Auth.World}
    (healthy : v.base.fault = none) (found : v.roles.find? input.selects = some role) :
    (roleChange authorization input account assigned).run i v = (.ok (),{v with
      base := dropped authorization input.userId v.base,users := bump account v.users
      assignments := changed assigned (input.assignment role) v.assignments}) := by
  have read : (findRole input).run i v = (.ok (some role),v) := by
    refine returns_mongo.mpr ⟨healthy,?_⟩
    dsimp only
    rw [found]
  cases assigned with
  | true =>
    unfold roleChange AuthorizationService.assignRole
    rw [if_pos rfl,run_bind_ok read]
    dsimp only
    have written : ((write fun w : Auth.World => if input.assignment role ∈ w.assignments then w
        else {w with assignments := w.assignments ++ [input.assignment role]}) : Auth.Program Unit).run i v =
          (.ok (),{v with assignments := changed true (input.assignment role) v.assignments}) := by
      refine returns_mongo.mpr ⟨healthy,?_⟩
      dsimp only [changed]
      by_cases listed : input.assignment role ∈ v.assignments <;> simp [listed]
    rw [run_bind_ok written]
    exact run_invalidate healthy
  | false =>
    unfold roleChange AuthorizationService.removeRole
    rw [if_neg (by simp),run_bind_ok read]
    dsimp only
    have written : ((write fun w : Auth.World => {w with assignments := w.assignments.erase (input.assignment role)}) :
        Auth.Program Unit).run i v = (.ok (),{v with assignments := changed false (input.assignment role) v.assignments}) :=
      returns_mongo.mpr ⟨healthy,rfl⟩
    rw [run_bind_ok written]
    exact run_invalidate healthy

def roleNotFound (name : String) : Error :=
  .pezhwan .authorization ("Role \"" ++ name ++ "\" not found in this application") "ROLE_NOT_FOUND"

theorem run_roleChange_none {authorization : AuthorizationService} {input : RoleInput} {account : String} {assigned : Bool} {v : Auth.World}
    (healthy : v.base.fault = none) (found : v.roles.find? input.selects = none) :
    (roleChange authorization input account assigned).run i v =
      (if assigned then .error (roleNotFound input.roleName) else .ok (),v) := by
  have read : (findRole input).run i v = (.ok none,v) := by
    refine returns_mongo.mpr ⟨healthy,?_⟩
    dsimp only
    rw [found]
  cases assigned with
  | true =>
    unfold roleChange AuthorizationService.assignRole
    rw [if_pos rfl,run_bind_ok read]
    rfl
  | false =>
    unfold roleChange AuthorizationService.removeRole
    rw [if_neg (by simp),run_bind_ok read]
    rfl

theorem run_roleChange_unknown {authorization : AuthorizationService} {input : RoleInput} {account : String} {assigned : Bool} {v : Auth.World}
    (healthy : v.base.fault = none) (found : v.roles.find? input.selects = none) :
    ((roleChange authorization input account assigned).run i v).2 = v := by
  rw [run_roleChange_none healthy found]

-- An identity program that touches its time, randomness and cache alone.
def Rebased (u v : Auth.World) : Prop := ∃ base, v = {u with base}

theorem rebased_base (p : Prog CallId Base Error α) : (Auth.base p).Moves Rebased := by
  intro i v
  unfold After Auth.base
  rw [run_zoom]
  exact ⟨_,rfl⟩

theorem moves_rebased {r : World → World → Prop} {p : Auth.Program α} (moves : p.Moves Rebased)
    (idle : ∀ s base, r s {s with identity := {s.identity with base}}) : (identity p).Moves r := by
  apply Moves.zoom moves
  intro s t rebased
  obtain ⟨base,rfl⟩ := rebased
  exact idle s base

theorem moves_hashPassword {r : World → World → Prop} {password : String}
    (idle : ∀ s base, r s {s with identity := {s.identity with base}}) : (hashPassword runtime password).Moves r := by
  unfold hashPassword
  split
  · apply Moves.map
    refine moves_rebased ?_ idle
    unfold AuthEngine.hashPassword
    refine Moves.bind (rebased_base _) ?_ fun salt => Moves.pure (fun u => ⟨u.base,rfl⟩) _
    intro u v x first second
    obtain ⟨one,rfl⟩ := first
    obtain ⟨two,rfl⟩ := second
    exact ⟨two,rfl⟩
  · exact Moves.pure (fun s => idle s s.identity.base) _

theorem run_roleChange_refused {authorization : AuthorizationService} {input : RoleInput} {account : String} {assigned : Bool} {v : Auth.World}
    (faulty : v.base.fault = some e) : (roleChange authorization input account assigned).run i v = (.error (.mongo e),v) := by
  have read : (findRole input).run i v = (.error (.mongo e),v) := by
    simp [findRole,Auth.read,Auth.op,mongo,Prog.tryAtomic,run,faulty]
  unfold roleChange AuthorizationService.assignRole AuthorizationService.removeRole
  split
  · rw [run_bind,read]
  · rw [run_bind,read]

theorem rebased_read {f : Auth.World → α} : (Auth.read f).Moves Rebased := by
  intro i v
  apply after_mongo
  · intro value u healthy ran
    cases ran
    exact ⟨v.base,rfl⟩
  · exact fun _ => ⟨v.base,rfl⟩

end Pezhwan.Server
