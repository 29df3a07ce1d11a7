import Mathlib.Data.List.Dedup
import Mathlib.Logic.Function.Iterate
import Pezhwan.Server.Tenancy

-- What an update of a user leaves when it ends, and when it ends in an error.
namespace Pezhwan.Server
open Atomic Prog Auth OAuth

-- PATCH /users/:id
def patchRequest (userId : String) (query : List (String × String)) (body : List (String × Json)) : Request :=
  ⟨.patch,["users",userId],query,body⟩

def requestedRoles (request : Request) : List String := strArray (request.field "roles")

section
variable (caller : IdentityContext) (userId : String)

def assignmentOf (role : RoleDoc) : UserRoleAssignment := ⟨userId,caller.tenantId,caller.applicationId,role.id⟩

-- The names of the roles that the user has in the caller's application.
def roleNames (v : Auth.World) : List String :=
  (v.roles.filter fun role => assignmentOf caller userId role ∈ v.assignments).map RoleDoc.name

def roleNamed (roles : List RoleDoc) (name : String) : Option RoleDoc := roles.find? (roleInput caller userId name).selects

-- The assignments after these names have been assigned, or removed.
def reassigned (assigned : Bool) (roles : List RoleDoc) (names : List String) (docs : List UserRoleAssignment) :
    List UserRoleAssignment :=
  names.foldl (fun docs name => ((roleNamed caller userId roles name).map fun role =>
    changed assigned (assignmentOf caller userId role) docs).getD docs) docs

end

-- The unique indexes.
structure Keyed (v : Auth.World) : Prop where
  users : (v.users.map UserDoc.id).Nodup
  roles : (v.roles.map RoleDoc.id).Nodup
  names : ∀ one ∈ v.roles,∀ two ∈ v.roles,one.tenantId = two.tenantId → one.applicationId = two.applicationId →
    one.name = two.name → one = two
  assignments : v.assignments.Nodup

section
variable {caller : IdentityContext} {userId name : String} {names : List String} {roles : List RoleDoc} {role : RoleDoc}
  {docs : List UserRoleAssignment} {doc : UserRoleAssignment}

theorem mem_roleNames {v : Auth.World} : name ∈ roleNames caller userId v ↔
    ∃ role ∈ v.roles,assignmentOf caller userId role ∈ v.assignments ∧ role.name = name := by
  simp [roleNames,and_assoc]

theorem roleNamed_some (found : roleNamed caller userId roles name = some role) : role ∈ roles ∧
    role.tenantId = caller.tenantId ∧ role.applicationId = caller.applicationId ∧ role.name = name := by
  have selected : (roleInput caller userId name).selects role = true := List.find?_some found
  unfold RoleInput.selects at selected
  rw [Bool.and_eq_true,Bool.and_eq_true] at selected
  obtain ⟨⟨tenant,application⟩,named⟩ := selected
  exact ⟨List.mem_of_find?_eq_some found,of_decide_eq_true tenant,of_decide_eq_true application,of_decide_eq_true named⟩

theorem changed_mem (distinct : docs.Nodup) (assigned : Bool) (caller : IdentityContext) (userId : String) (role : RoleDoc)
    (doc : UserRoleAssignment) : doc ∈ changed assigned (assignmentOf caller userId role) docs ↔
    if assigned then doc ∈ docs ∨ doc = assignmentOf caller userId role
    else doc ∈ docs ∧ doc ≠ assignmentOf caller userId role := by
  cases assigned with
  | true =>
    simp only [changed,if_true]
    split
    · rename_i listed
      refine (or_iff_left_of_imp ?_).symm
      rintro rfl
      exact listed
    · simp
  | false => simp [changed,distinct.mem_erase_iff,and_comm]

theorem changed_nodup (distinct : docs.Nodup) (assigned : Bool) :
    (changed assigned (assignmentOf caller userId role) docs).Nodup := by
  cases assigned with
  | true =>
    simp only [changed,if_true]
    split
    · exact distinct
    · rename_i missing
      exact List.concat_eq_append ▸ distinct.concat missing
  | false => exact distinct.erase _

theorem reassigned_nodup (distinct : docs.Nodup) (assigned : Bool) :
    (reassigned caller userId assigned roles names docs).Nodup := by
  induction names generalizing docs with
  | nil => exact distinct
  | cons name rest ih =>
    unfold reassigned at ih ⊢
    rw [List.foldl_cons]
    cases roleNamed caller userId roles name with
    | none => exact ih distinct
    | some role => exact ih (changed_nodup distinct assigned)

-- The assignments of the roles with these names.
def Names (caller : IdentityContext) (userId : String) (roles : List RoleDoc) (names : List String)
    (doc : UserRoleAssignment) : Prop :=
  ∃ name ∈ names,∃ role,roleNamed caller userId roles name = some role ∧ doc = assignmentOf caller userId role

theorem reassigned_mem (distinct : docs.Nodup) (assigned : Bool) :
    doc ∈ reassigned caller userId assigned roles names docs ↔
      if assigned then doc ∈ docs ∨ Names caller userId roles names doc
      else doc ∈ docs ∧ ¬Names caller userId roles names doc := by
  induction names generalizing docs with
  | nil => cases assigned <;> simp [reassigned,Names]
  | cons name rest ih =>
    have split : Names caller userId roles (name :: rest) doc ↔
        (∃ role,roleNamed caller userId roles name = some role ∧ doc = assignmentOf caller userId role) ∨
          Names caller userId roles rest doc := by
      simp [Names]
    unfold reassigned at ih ⊢
    rw [List.foldl_cons,split]
    cases found : roleNamed caller userId roles name with
    | none =>
      rw [Option.map_none,Option.getD_none,ih distinct]
      simp
    | some role =>
      rw [Option.map_some,Option.getD_some,ih (changed_nodup distinct assigned)]
      cases assigned with
      | true =>
        have added := changed_mem distinct true caller userId role doc
        simp only [if_true] at added ⊢
        rw [added]
        simp [or_assoc]
      | false =>
        have erased := changed_mem distinct false caller userId role doc
        simp only [Bool.false_eq_true,if_false] at erased ⊢
        rw [erased]
        simp [and_assoc]

theorem roleNamed_own {v : Auth.World} (keyed : Keyed v) (listed : role ∈ v.roles) (tenant : role.tenantId = caller.tenantId)
    (application : role.applicationId = caller.applicationId) :
    roleNamed caller userId v.roles role.name = some role := by
  cases found : roleNamed caller userId v.roles role.name with
  | none =>
    have missed := List.find?_eq_none.mp found role listed
    simp [RoleInput.selects,roleInput,tenant,application] at missed
  | some other =>
    obtain ⟨present,ownTenant,ownApplication,named⟩ := roleNamed_some found
    rw [keyed.names other present role listed (ownTenant.trans tenant.symm) (ownApplication.trans application.symm) named]

theorem names_assignment {v : Auth.World} (keyed : Keyed v) (listed : role ∈ v.roles) :
    Names caller userId v.roles names (assignmentOf caller userId role) ↔
      role.name ∈ names ∧ role.tenantId = caller.tenantId ∧ role.applicationId = caller.applicationId := by
  constructor
  · rintro ⟨name,member,other,found,same⟩
    obtain ⟨present,tenant,application,rfl⟩ := roleNamed_some found
    have equal : role = other := List.inj_on_of_nodup_map keyed.roles listed present (congrArg UserRoleAssignment.roleId same)
    rw [equal]
    exact ⟨member,tenant,application⟩
  · rintro ⟨member,tenant,application⟩
    exact ⟨role.name,member,role,roleNamed_own keyed listed tenant application,rfl⟩

-- A role of another application that the user has in this one, and that is not asked
-- for: it is not withdrawn.
def Leftover (caller : IdentityContext) (userId : String) (names : List String) (v : Auth.World) : Prop :=
  ∃ role ∈ v.roles,assignmentOf caller userId role ∈ v.assignments ∧ role.name ∉ names ∧
    ¬(role.tenantId = caller.tenantId ∧ role.applicationId = caller.applicationId)

def addedNames (caller : IdentityContext) (userId : String) (names : List String) (v : Auth.World) : List String :=
  names.filter fun name => name ∉ (roleNames caller userId v).dedup

def removedNames (caller : IdentityContext) (userId : String) (names : List String) (v : Auth.World) : List String :=
  (roleNames caller userId v).dedup.filter fun name => name ∉ names

def finalAssignments (caller : IdentityContext) (userId : String) (names : List String) (v : Auth.World) :
    List UserRoleAssignment :=
  reassigned caller userId false v.roles (removedNames caller userId names v)
    (reassigned caller userId true v.roles (addedNames caller userId names v) v.assignments)

theorem mem_final {v : Auth.World} (keyed : Keyed v) (listed : role ∈ v.roles) (names : List String) :
    assignmentOf caller userId role ∈ finalAssignments caller userId names v ↔
      (assignmentOf caller userId role ∈ v.assignments ∨ role.name ∈ addedNames caller userId names v ∧
        role.tenantId = caller.tenantId ∧ role.applicationId = caller.applicationId) ∧
      ¬(role.name ∈ removedNames caller userId names v ∧ role.tenantId = caller.tenantId ∧
        role.applicationId = caller.applicationId) := by
  unfold finalAssignments
  rw [reassigned_mem (reassigned_nodup keyed.assignments true) false,reassigned_mem keyed.assignments true,
    names_assignment keyed listed,names_assignment keyed listed]
  simp

theorem final_names {v t : Auth.World} (keyed : Keyed v) (sameRoles : t.roles = v.roles)
    (sameDocs : t.assignments = finalAssignments caller userId names v)
    (known : ∀ name ∈ addedNames caller userId names v,(roleNamed caller userId v.roles name).isSome = true) :
    (∀ name,name ∈ roleNames caller userId t ↔ name ∈ names) ↔ ¬Leftover caller userId names v := by
  have ends (name : String) : name ∈ roleNames caller userId t ↔
      ∃ role ∈ v.roles,assignmentOf caller userId role ∈ finalAssignments caller userId names v ∧ role.name = name := by
    rw [mem_roleNames,sameRoles,sameDocs]
  constructor
  · rintro exact_ ⟨role,listed,held,unasked,foreign⟩
    have stays := (mem_final keyed listed names).mpr ⟨Or.inl held,fun gone => foreign gone.2⟩
    exact unasked ((exact_ role.name).mp ((ends role.name).mpr ⟨role,listed,stays,rfl⟩))
  · intro none_ name
    rw [ends]
    constructor
    · rintro ⟨role,listed,held,rfl⟩
      obtain ⟨had,kept⟩ := (mem_final keyed listed names).mp held
      rcases had with had | ⟨added,_⟩
      · by_contra unasked
        have own : role.tenantId = caller.tenantId ∧ role.applicationId = caller.applicationId := by
          by_contra foreign
          exact none_ ⟨role,listed,had,unasked,foreign⟩
        refine kept ⟨List.mem_filter.mpr ⟨List.mem_dedup.mpr (mem_roleNames.mpr ⟨role,listed,had,rfl⟩),?_⟩,own⟩
        simpa using unasked
      · exact (List.mem_filter.mp added).1
    · intro asked
      by_cases current : name ∈ roleNames caller userId v
      · obtain ⟨role,listed,had,rfl⟩ := mem_roleNames.mp current
        refine ⟨role,listed,(mem_final keyed listed names).mpr ⟨Or.inl had,?_⟩,rfl⟩
        rintro ⟨removed,_⟩
        have unasked := (List.mem_filter.mp removed).2
        simp [asked] at unasked
      · have added : name ∈ addedNames caller userId names v :=
          List.mem_filter.mpr ⟨asked,by simpa [List.mem_dedup] using current⟩
        obtain ⟨role,found⟩ := Option.isSome_iff_exists.mp (known name added)
        obtain ⟨listed,tenant,application,rfl⟩ := roleNamed_some found
        refine ⟨role,listed,(mem_final keyed listed names).mpr ⟨Or.inr ⟨added,tenant,application⟩,?_⟩,rfl⟩
        rintro ⟨removed,_⟩
        have unasked := (List.mem_filter.mp removed).2
        simp [asked] at unasked

end

section
variable {runtime : Runtime} {caller : IdentityContext} {request : Request} {userId name : String} {names : List String}
  {assigned : Bool} {i : CallId} {w : World}

def knownNames (caller : IdentityContext) (userId : String) (names : List String) (roles : List RoleDoc) : List String :=
  names.filter fun name => (roleNamed caller userId roles name).isSome

theorem run_forEach_append {β : Type} {body : β → Program Unit} {first : List β} {t : World} (rest : List β)
    (ran : (Prog.forEach body first).run i w = (.ok (),t)) :
    (Prog.forEach body (first ++ rest)).run i w = (Prog.forEach body rest).run i t := by
  induction first generalizing w with
  | nil =>
    cases ran
    rfl
  | cons item more ih =>
    have step (items : List β) : Prog.forEach body (item :: items) = body item >>= fun _ => Prog.forEach body items := rfl
    rw [List.cons_append,step,run_bind]
    rw [step,run_bind] at ran
    cases made : (body item).run i w with
    | mk result u =>
      rw [made] at ran
      cases result with
      | ok _ => exact ih ran
      | error e => cases ran

-- What role changes leave.
def World.reassign (w : World) (base : Base) (userId : String) (n : Nat) (docs : List UserRoleAssignment) : World :=
  {w with identity := {w.identity with base,users := (bump userId)^[n] w.identity.users,assignments := docs}}

theorem reassign_twice (w : World) (base later : Base) (userId : String) (n m : Nat) (docs more : List UserRoleAssignment) :
    (w.reassign base userId n docs).reassign later userId m more = w.reassign later userId (m + n) more := by
  unfold World.reassign
  rw [Function.iterate_add_apply]

def changeRole (runtime : Runtime) (caller : IdentityContext) (userId : String) (assigned : Bool) (name : String) : Program Unit :=
  identity (roleChange runtime.authorization (roleInput caller userId name) (objectId userId) assigned)

theorem run_changeRole (runtime : Runtime) (i : CallId) (healthy : w.base.fault = none)
    (fine : assigned = true → (roleNamed caller userId w.identity.roles name).isSome = true) :
    ∃ base : Base,base.fault = none ∧ (changeRole runtime caller userId assigned name).run i w =
      (.ok (),w.reassign base (objectId userId) (knownNames caller userId [name] w.identity.roles).length
        (reassigned caller userId assigned w.identity.roles [name] w.identity.assignments)) := by
  have inner : identityLens.get w = w.identity := rfl
  unfold changeRole identity
  rw [run_zoom,inner]
  cases found : roleNamed caller userId w.identity.roles name with
  | some role =>
    have ran := @run_roleChange i role runtime.authorization (roleInput caller userId name) (objectId userId) assigned w.identity
      healthy found
    refine ⟨dropped runtime.authorization userId w.identity.base,(dropped_fault _ _ _).trans healthy,?_⟩
    have one : (knownNames caller userId [name] w.identity.roles).length = 1 := by simp [knownNames,found]
    have docs : reassigned caller userId assigned w.identity.roles [name] w.identity.assignments =
        changed assigned (assignmentOf caller userId role) w.identity.assignments := by
      simp [reassigned,found]
    rw [ran,one,docs]
    rfl
  | none =>
    have removed : assigned = false := by
      cases assigned with
      | false => rfl
      | true => simp [found] at fine
    have none_ : (knownNames caller userId [name] w.identity.roles).length = 0 := by simp [knownNames,found]
    have docs : reassigned caller userId assigned w.identity.roles [name] w.identity.assignments = w.identity.assignments := by
      simp [reassigned,found]
    refine ⟨w.identity.base,healthy,?_⟩
    rw [run_roleChange_none healthy found,none_,docs,removed]
    rfl

theorem run_changeRoles (runtime : Runtime) (i : CallId) (assigned : Bool) (names : List String) (healthy : w.base.fault = none)
    (fine : assigned = true → ∀ name ∈ names,(roleNamed caller userId w.identity.roles name).isSome = true) :
    ∃ base : Base,base.fault = none ∧ (Prog.forEach (changeRole runtime caller userId assigned) names).run i w =
      (.ok (),w.reassign base (objectId userId) (knownNames caller userId names w.identity.roles).length
        (reassigned caller userId assigned w.identity.roles names w.identity.assignments)) := by
  induction names generalizing w with
  | nil => exact ⟨w.identity.base,healthy,rfl⟩
  | cons name rest ih =>
    obtain ⟨base,still,ran⟩ := run_changeRole runtime i healthy fun assign => fine assign name (by simp)
    obtain ⟨later,still',ran'⟩ := ih (w := w.reassign base (objectId userId) (knownNames caller userId [name] w.identity.roles).length
      (reassigned caller userId assigned w.identity.roles [name] w.identity.assignments)) still
      fun assign other listed => fine assign other (List.mem_cons_of_mem _ listed)
    refine ⟨later,still',?_⟩
    have counted : (knownNames caller userId (name :: rest) w.identity.roles).length =
        (knownNames caller userId rest w.identity.roles).length + (knownNames caller userId [name] w.identity.roles).length := by
      unfold knownNames
      rw [List.filter_cons,List.filter_cons]
      split <;> simp
    unfold Prog.forEach
    refine (run_bind_ok ran).trans (ran'.trans ?_)
    rw [counted,reassign_twice]
    rfl

theorem run_changeRole_unknown (runtime : Runtime) (i : CallId) (healthy : w.base.fault = none)
    (unknown : roleNamed caller userId w.identity.roles name = none) :
    (changeRole runtime caller userId true name).run i w = (.error (roleNotFound name),w) := by
  have inner : identityLens.get w = w.identity := rfl
  unfold changeRole identity
  rw [run_zoom,inner,run_roleChange_none healthy unknown]
  rfl

theorem run_changeRoles_unknown (runtime : Runtime) (i : CallId) (rest : List String) (healthy : w.base.fault = none)
    (fine : ∀ name ∈ names,(roleNamed caller userId w.identity.roles name).isSome = true)
    (unknown : roleNamed caller userId w.identity.roles name = none) :
    ∃ base : Base,(Prog.forEach (changeRole runtime caller userId true) (names ++ name :: rest)).run i w =
      (.error (roleNotFound name),w.reassign base (objectId userId) (knownNames caller userId names w.identity.roles).length
        (reassigned caller userId true w.identity.roles names w.identity.assignments)) := by
  obtain ⟨base,still,ran⟩ := run_changeRoles runtime i true names healthy fun _ => fine
  refine ⟨base,(run_forEach_append (name :: rest) ran).trans ?_⟩
  have refused := run_changeRole_unknown (w := w.reassign base (objectId userId) (knownNames caller userId names w.identity.roles).length
    (reassigned caller userId true w.identity.roles names w.identity.assignments)) runtime i still unknown
  unfold Prog.forEach
  exact run_bind_error refused

-- The update of the document, with the salt that is drawn for the password.
def patchAt (runtime : Runtime) (request : Request) (w : World) : UserPatch :=
  userPatch runtime request ((newPassword request).map fun password =>
    runtime.auth.platform.hashPassword password (runtime.fresh w))

def World.rebase (w : World) (base : Base) : World := {w with identity := {w.identity with base}}

def afterPatch (userId : String) (patch : UserPatch) (w : World) : World :=
  (w.updateUser (fun user => user.id = userId) patch.apply).setMetadata userId patch.metadata

-- Another user has the email address or the phone number.
def Taken (userId : String) (patch : UserPatch) (w : World) : Bool :=
  (w.identity.users.find? fun user => user.id = userId).any fun user => w.identity.users.any fun other =>
    decide (other.id ≠ userId) && AuthEngine.handleTaken (patch.apply user) other

theorem run_hashPassword (runtime : Runtime) (request : Request) (i : CallId) (w : World) :
    ∃ base : Base,base.fault = w.base.fault ∧ (hashPassword runtime (str (request.field "password") "")).run i w =
      (.ok ((newPassword request).map fun password => runtime.auth.platform.hashPassword password (runtime.fresh w)),
        w.rebase base) := by
  unfold hashPassword newPassword
  cases truthy (some (str (request.field "password") "")) with
  | none => exact ⟨w.base,rfl,rfl⟩
  | some password => exact ⟨{w.base with draws := w.base.draws ++ [i]},rfl,rfl⟩

theorem run_setUser {patch : UserPatch} (healthy : w.base.fault = none) (free : Taken userId patch w = false) :
    (setUser userId patch).run i w = (.ok (),afterPatch userId patch w) := by
  refine run_op healthy ?_
  refine if_neg ?_
  exact Bool.eq_false_iff.mp free

theorem run_setUser_taken {patch : UserPatch} (healthy : w.base.fault = none) (taken : Taken userId patch w = true) :
    (setUser userId patch).run i w = (.error (.mongo duplicateKey),w) := by
  exact run_op_failed healthy (if_pos taken)

theorem run_getUserRoles {v : Auth.World} (caller : IdentityContext) (userId : String) (i : CallId) (healthy : v.base.fault = none) :
    ∃ roles,(getUserRoles userId caller.tenantId caller.applicationId).run i v = (.ok roles,v) ∧
      roles.map RoleDoc.name = roleNames caller userId v := by
  have read {β : Type} (f : Auth.World → β) : (Auth.read f).run i v = (.ok (f v),v) := returns_mongo.mpr ⟨healthy,rfl⟩
  have held (role : RoleDoc) : (((v.assignments.filter fun a => a.userId = userId && a.tenantId = caller.tenantId &&
      a.applicationId = caller.applicationId).map UserRoleAssignment.roleId).contains role.id) =
        decide (assignmentOf caller userId role ∈ v.assignments) := by
    rw [Bool.eq_iff_iff,decide_eq_true_iff,List.contains_iff_mem,List.mem_map]
    constructor
    · rintro ⟨assignment,listed,same⟩
      obtain ⟨stored,chosen⟩ := List.mem_filter.mp listed
      simp only [Bool.and_eq_true,decide_eq_true_eq] at chosen
      have equal : assignment = assignmentOf caller userId role := by
        cases assignment
        simp only [assignmentOf,UserRoleAssignment.mk.injEq]
        exact ⟨chosen.1.1,chosen.1.2,chosen.2,same⟩
      exact equal ▸ stored
    · intro stored
      exact ⟨_,List.mem_filter.mpr ⟨stored,by simp [assignmentOf]⟩,rfl⟩
  unfold getUserRoles
  rw [run_bind_ok (read _)]
  split
  · rename_i none_
    refine ⟨[],rfl,?_⟩
    have nobody (role : RoleDoc) : decide (assignmentOf caller userId role ∈ v.assignments) = false := by
      rw [← held,List.isEmpty_iff.mp none_]
      rfl
    simp [roleNames,nobody]
  · refine ⟨_,read _,?_⟩
    unfold roleNames
    exact congrArg (List.map RoleDoc.name) (List.filter_congr fun role _ => held role)

theorem run_currentNames (caller : IdentityContext) (userId : String) (i : CallId) (healthy : w.base.fault = none) : (currentNames caller userId).run i w =
    (.ok (roleNames caller userId w.identity).dedup,w) := by
  obtain ⟨roles,ran,same⟩ := run_getUserRoles (v := w.identity) caller userId i healthy
  have looked : (identity (getUserRoles userId caller.tenantId caller.applicationId)).run i w = (.ok roles,w) := by
    unfold identity
    rw [run_zoom]
    have inner : identityLens.get w = w.identity := rfl
    rw [inner,ran]
    rfl
  unfold currentNames
  rw [run_bind_ok looked,same]
  rfl

theorem grantRole_eq (runtime : Runtime) (caller : IdentityContext) (userId : String) :
    grantRole runtime caller userId (objectId userId) = changeRole runtime caller userId true := rfl

theorem withdrawRole_eq (runtime : Runtime) (caller : IdentityContext) (userId : String) :
    withdrawRole runtime caller userId (objectId userId) = changeRole runtime caller userId false := rfl

theorem run_updateRoles (runtime : Runtime) (i : CallId) (healthy : w.base.fault = none)
    (asked : (request.field "roles").isNone = false)
    (known : ∀ name ∈ addedNames caller userId (requestedRoles request) w.identity,
      (roleNamed caller userId w.identity.roles name).isSome = true) :
    ∃ (base : Base) (n : Nat),base.fault = none ∧ (updateRoles runtime caller request userId).run i w =
      (.ok (!(addedNames caller userId (requestedRoles request) w.identity).isEmpty ||
          !(removedNames caller userId (requestedRoles request) w.identity).isEmpty),
        w.reassign base (objectId userId) n (finalAssignments caller userId (requestedRoles request) w.identity)) := by
  have current := run_currentNames caller userId i healthy
  obtain ⟨base,still,granted⟩ := run_changeRoles runtime i true (addedNames caller userId (requestedRoles request) w.identity)
    healthy fun _ => known
  obtain ⟨later,still',withdrawn⟩ := run_changeRoles runtime i false
    (removedNames caller userId (requestedRoles request) w.identity)
    (w := w.reassign base (objectId userId) (knownNames caller userId (addedNames caller userId (requestedRoles request) w.identity)
        w.identity.roles).length (reassigned caller userId true w.identity.roles
          (addedNames caller userId (requestedRoles request) w.identity) w.identity.assignments)) still nofun
  unfold updateRoles
  rw [if_neg (by rw [asked]; decide),run_bind_ok current,grantRole_eq,withdrawRole_eq]
  rw [reassign_twice] at withdrawn
  exact ⟨later,_,still',(run_bind_ok granted).trans (run_bind_ok withdrawn)⟩

theorem run_updateRoles_unknown {before rest : List String} (runtime : Runtime) (request : Request) (i : CallId) (healthy : w.base.fault = none)
    (asked : (request.field "roles").isNone = false)
    (split : addedNames caller userId (requestedRoles request) w.identity = before ++ name :: rest)
    (known : ∀ name ∈ before,(roleNamed caller userId w.identity.roles name).isSome = true)
    (unknown : roleNamed caller userId w.identity.roles name = none) :
    ∃ base : Base,(updateRoles runtime caller request userId).run i w = (.error (roleNotFound name),
      w.reassign base (objectId userId) before.length
        (reassigned caller userId true w.identity.roles before w.identity.assignments)) := by
  have current := run_currentNames caller userId i healthy
  obtain ⟨base,ran⟩ := run_changeRoles_unknown runtime i rest healthy known unknown
  have all : (knownNames caller userId before w.identity.roles).length = before.length := by
    unfold knownNames
    rw [List.filter_eq_self.mpr known]
  rw [← split,all] at ran
  refine ⟨base,?_⟩
  unfold updateRoles
  rw [if_neg (by rw [asked]; decide),run_bind_ok current,grantRole_eq]
  exact run_bind_error ran

-- The roles and the version, once the document has been updated.
def afterDocument (runtime : Runtime) (caller : IdentityContext) (request : Request) (userId : String) : Program Response := do
  let changed ← updateRoles runtime caller request userId
  if boolean (request.field "isActive") = some false || (newPassword request).isSome || changed then
    identity (bumpTokenVersion (objectId userId))
  listing

theorem patchUser_parts (runtime : Runtime) (caller : IdentityContext) (request : Request) (userId : String) :
    patchUser runtime caller request userId = findUser caller (objectId userId) >>= fun found => match found with
      | none => pure (notFound "User")
      | some _ => hashPassword runtime (str (request.field "password") "") >>= fun passwordHash =>
        if (userPatch runtime request passwordHash).sets then
          setUser (objectId userId) (userPatch runtime request passwordHash) >>= fun _ => afterDocument runtime caller request userId
        else afterDocument runtime caller request userId := rfl

theorem updateOne_same {δ : Type} {p : δ → Bool} {f : δ → δ} (same : ∀ doc,f doc = doc) (docs : List δ) :
    Collection.updateOne p f docs = docs := by
  induction docs with
  | nil => rfl
  | cons doc rest ih =>
    unfold Collection.updateOne
    rw [same,ih]
    split <;> rfl

theorem afterPatch_idle {patch : UserPatch} (idle : patch.sets = false) (w : World) : afterPatch userId patch w = w := by
  obtain ⟨email,phone,isActive,passwordHash,metadata⟩ := patch
  simp only [UserPatch.sets,Bool.or_eq_false_iff,Option.isSome_eq_false_iff,Option.isNone_iff_eq_none] at idle
  obtain ⟨⟨⟨⟨rfl,rfl⟩,rfl⟩,rfl⟩,rfl⟩ := idle
  unfold afterPatch World.updateUser Auth.World.updateUser
  have unchanged : Collection.updateOne (fun user : UserDoc => user.id = userId) (UserPatch.apply ⟨none,none,none,none,none⟩)
      w.identity.users = w.identity.users := updateOne_same (fun _ => rfl) _
  rw [unchanged]
  rfl

theorem run_patchUser_found {user : UserDoc} (runtime : Runtime) (request : Request) (i : CallId) (healthy : w.base.fault = none)
    (found : w.identity.users.find? (selected caller (objectId userId)) = some user) :
    ∃ base : Base,base.fault = none ∧ (patchUser runtime caller request userId).run i w =
      (if (patchAt runtime request w).sets = true then setUser (objectId userId) (patchAt runtime request w) >>= fun _ =>
        afterDocument runtime caller request userId else afterDocument runtime caller request userId).run i (w.rebase base) := by
  obtain ⟨base,still,hashed⟩ := run_hashPassword runtime request i w
  have looked : (findUser caller (objectId userId)).run i w = (.ok (some user),w) := run_op healthy (by rw [found])
  refine ⟨base,still.trans healthy,?_⟩
  rw [patchUser_parts,run_bind_ok looked]
  dsimp only
  rw [run_bind_ok hashed]
  rfl

theorem run_patchUser {user : UserDoc} (runtime : Runtime) (i : CallId) (healthy : w.base.fault = none)
    (found : w.identity.users.find? (selected caller (objectId userId)) = some user)
    (free : ((patchAt runtime request w).sets && Taken (objectId userId) (patchAt runtime request w) w) = false) :
    ∃ base : Base,base.fault = none ∧ (patchUser runtime caller request userId).run i w =
      (afterDocument runtime caller request userId).run i ((afterPatch (objectId userId) (patchAt runtime request w) w).rebase base) := by
  obtain ⟨base,still,ran⟩ := run_patchUser_found runtime request i healthy found
  refine ⟨base,still,ran.trans ?_⟩
  split
  · rename_i sets
    rw [sets,Bool.true_and] at free
    exact run_bind_ok (run_setUser (w := w.rebase base) still free)
  · rename_i idle
    rw [afterPatch_idle (Bool.eq_false_iff.mpr idle)]

theorem run_patchUser_taken {user : UserDoc} (runtime : Runtime) (i : CallId) (healthy : w.base.fault = none)
    (found : w.identity.users.find? (selected caller (objectId userId)) = some user)
    (taken : ((patchAt runtime request w).sets && Taken (objectId userId) (patchAt runtime request w) w) = true) :
    ∃ base : Base,(patchUser runtime caller request userId).run i w = (.error (.mongo duplicateKey),w.rebase base) := by
  obtain ⟨base,still,ran⟩ := run_patchUser_found runtime request i healthy found
  rw [Bool.and_eq_true] at taken
  rw [if_pos taken.1] at ran
  exact ⟨base,ran.trans (run_bind_error (run_setUser_taken (w := w.rebase base) still taken.2))⟩

theorem run_patchUser_absent (runtime : Runtime) (request : Request) (i : CallId) (healthy : w.base.fault = none)
    (absent : w.identity.users.find? (selected caller (objectId userId)) = none) :
    (patchUser runtime caller request userId).run i w = (.ok (notFound "User"),w) := by
  have looked : (findUser caller (objectId userId)).run i w = (.ok none,w) := run_op healthy (by rw [absent])
  rw [patchUser_parts,run_bind_ok looked]
  rfl

theorem run_patchUser_faulty (runtime : Runtime) (caller : IdentityContext) (request : Request) (userId : String) (i : CallId)
    (faulty : w.base.fault = some e) : (patchUser runtime caller request userId).run i w = (.error (.mongo e),w) := by
  rw [patchUser_parts]
  exact run_bind_error (run_op_refused faulty)

-- What the request asks of the roles of the user.
def wanted (caller : IdentityContext) (request : Request) (userId : String) (v : Auth.World) : List UserRoleAssignment :=
  if (request.field "roles").isNone then v.assignments else finalAssignments caller userId (requestedRoles request) v

def Reversions (caller : IdentityContext) (request : Request) (userId : String) (v : Auth.World) : Bool :=
  boolean (request.field "isActive") = some false || (newPassword request).isSome ||
    (!(request.field "roles").isNone && (!(addedNames caller userId (requestedRoles request) v).isEmpty ||
      !(removedNames caller userId (requestedRoles request) v).isEmpty))

theorem run_bumping (i : CallId) (userId : String) (healthy : w.base.fault = none) (bumping : Bool) :
    ∃ base : Base,((if bumping then identity (bumpTokenVersion userId) >>= fun _ => listing else listing) : Program Response).run i w =
      (.ok ok,w.reassign base userId (if bumping then 1 else 0) w.identity.assignments) := by
  have listed (t : World) (fine : t.base.fault = none) : listing.run i t = (.ok ok,t) := run_op fine rfl
  cases bumping with
  | false => exact ⟨w.base,listed w healthy⟩
  | true =>
    have bumped : (identity (bumpTokenVersion userId)).run i w = (.ok (),w.reassign w.base userId 1 w.identity.assignments) := by
      have ran : (bumpTokenVersion userId).run i w.identity = (.ok (),w.identity.updateUser (fun user => user.id = userId)
        fun user => {user with tokenVersion := user.tokenVersion + 1}) := returns_mongo.mpr ⟨healthy,rfl⟩
      have inner : identityLens.get w = w.identity := rfl
      unfold identity
      rw [run_zoom,inner,ran]
      rfl
    exact ⟨w.base,(run_bind_ok bumped).trans (listed _ healthy)⟩

theorem run_afterDocument (runtime : Runtime) (caller : IdentityContext) (request : Request) (userId : String) (i : CallId) (healthy : w.base.fault = none)
    (known : (request.field "roles").isNone = false → ∀ name ∈ addedNames caller userId (requestedRoles request) w.identity,
      (roleNamed caller userId w.identity.roles name).isSome = true) :
    ∃ (base : Base) (n : Nat),(afterDocument runtime caller request userId).run i w =
        (.ok ok,w.reassign base (objectId userId) n (wanted caller request userId w.identity)) ∧
      (Reversions caller request userId w.identity = true → 0 < n) := by
  unfold afterDocument wanted Reversions
  cases asked : (request.field "roles").isNone with
  | true =>
    have same : (updateRoles runtime caller request userId).run i w = (.ok false,w) := by
      unfold updateRoles
      rw [if_pos asked]
      rfl
    rw [run_bind_ok same]
    obtain ⟨base,ran⟩ := run_bumping i (objectId userId) healthy
      (boolean (request.field "isActive") = some false || (newPassword request).isSome || false)
    refine ⟨base,_,ran,?_⟩
    intro bumped
    have bumps : (decide (boolean (request.field "isActive") = some false) || (newPassword request).isSome || false) = true := by
      simpa using bumped
    rw [if_pos bumps]
    exact Nat.one_pos
  | false =>
    obtain ⟨base,n,still,ran⟩ := run_updateRoles runtime i healthy asked (known asked)
    obtain ⟨later,ran'⟩ := run_bumping (w := w.reassign base (objectId userId) n
        (finalAssignments caller userId (requestedRoles request) w.identity)) i (objectId userId) still
      (boolean (request.field "isActive") = some false || (newPassword request).isSome ||
        (!(addedNames caller userId (requestedRoles request) w.identity).isEmpty ||
          !(removedNames caller userId (requestedRoles request) w.identity).isEmpty))
    rw [reassign_twice] at ran'
    refine ⟨later,_,(run_bind_ok ran).trans ran',?_⟩
    intro bumped
    rw [Bool.not_false,Bool.true_and] at bumped
    rw [if_pos bumped]
    omega

theorem document_reassign (w : World) (base : Base) (userId : String) (n : Nat) (docs : List UserRoleAssignment) :
    userById userId (w.reassign base userId n docs).identity =
      (userById userId w.identity).map fun user => {user with tokenVersion := user.tokenVersion + n} := by
  have one (users : List UserDoc) : Collection.lookup UserDoc.id userId (bump userId users) =
      (Collection.lookup UserDoc.id userId users).map fun user => {user with tokenVersion := user.tokenVersion + 1} :=
    Collection.lookup_updateOne_key (f := fun user : UserDoc => {user with tokenVersion := user.tokenVersion + 1})
      (fun _ => rfl) userId users
  unfold World.reassign userById
  dsimp only
  induction n with
  | zero => simp
  | succ n ih =>
    rw [Function.iterate_succ_apply',one,ih,Option.map_map]
    rfl

theorem document_afterPatch (userId : String) (patch : UserPatch) (w : World) :
    userById userId (afterPatch userId patch w).identity = (userById userId w.identity).map patch.apply :=
  Collection.lookup_updateOne_key (f := patch.apply) (fun _ => rfl) userId w.identity.users

theorem metadata_afterPatch {user : UserDoc} (stored : userById userId w.identity = some user) (patch : UserPatch) :
    (afterPatch userId patch w).metadata.get? userId = patch.metadata.or (w.metadata.get? userId) := by
  have present : (afterPatch userId patch w).identity.users.any (fun user => user.id = userId) = true := by
    have kept := document_afterPatch userId patch w
    rw [stored] at kept
    obtain ⟨listed,named⟩ := Collection.lookup_some kept
    exact List.any_eq_true.mpr ⟨_,listed,decide_eq_true named⟩
  unfold afterPatch World.setMetadata at present ⊢
  dsimp only at present ⊢
  cases patch.metadata with
  | none => rfl
  | some value =>
    dsimp only
    rw [if_pos present]
    exact Dict.get?_set_self _ _ _

-- Nothing of the user has changed.
structure Unchanged (userId : String) (w t : World) : Prop where
  document : userById (objectId userId) t.identity = userById (objectId userId) w.identity
  metadata : t.metadata.get? (objectId userId) = w.metadata.get? (objectId userId)
  assignments : t.identity.assignments = w.identity.assignments

-- The fields that are supplied are those that are stored.
structure Stored (runtime : Runtime) (request : Request) (after : UserDoc) (metadata : Option Json) : Prop where
  email : ∀ text,request.field "email" = some (.string text) →
    after.email = some (runtime.auth.platform.emailSetter (runtime.auth.platform.toLowerCase text))
  phone : ∀ text,request.field "phone" = some (.string text) → after.phone = some (runtime.auth.platform.phoneSetter text)
  isActive : ∀ value,request.field "isActive" = some (.bool value) → after.isActive = value
  password : ∀ password,newPassword request = some password →
    ∃ salt,after.passwordHash = some (runtime.auth.platform.hashPassword password salt)
  metadata : ∀ value,request.field "metadata" = some value → isObject (some value) = true → metadata = some value

-- Everything that was asked for has been done.
structure Updated (runtime : Runtime) (caller : IdentityContext) (request : Request) (userId : String) (w t : World) : Prop where
  document : ∃ before after,userById (objectId userId) w.identity = some before ∧ userById (objectId userId) t.identity = some after ∧
    Stored runtime request after (t.metadata.get? (objectId userId)) ∧
    (boolean (request.field "isActive") = some false ∨ (newPassword request).isSome = true ∨
      ¬(∀ name,name ∈ roleNames caller userId t.identity ↔ name ∈ roleNames caller userId w.identity) →
        before.tokenVersion < after.tokenVersion)
  roles : (request.field "roles").isNone = false →
    ∀ name,name ∈ roleNames caller userId t.identity ↔ name ∈ requestedRoles request

def AllOrNothing (runtime : Runtime) (caller : IdentityContext) (userId : String) (query : List (String × String))
    (body : List (String × Json)) (i : CallId) (w : World) : Prop :=
  ∃ response t,(admin runtime caller (patchRequest userId query body)).run i w = (.ok response,t) ∧
    if response.success then Updated runtime caller (patchRequest userId query body) userId w t else Unchanged userId w t

-- The fields that are supplied are those that the document has.
def Leaves (userId : String) (patch : UserPatch) (w : World) : Prop :=
  (userById userId w.identity).map patch.apply = userById userId w.identity ∧
    patch.metadata.or (w.metadata.get? userId) = w.metadata.get? userId

-- The update gets as far as the roles, and there an unknown role comes after something
-- has been changed, or a role of another application is left.
structure Halfway (runtime : Runtime) (caller : IdentityContext) (request : Request) (userId : String) (w : World) : Prop where
  healthy : w.base.fault = none
  found : (w.identity.users.find? (selected caller (objectId userId))).isSome = true
  free : ((patchAt runtime request w).sets && Taken (objectId userId) (patchAt runtime request w) w) = false
  asked : (request.field "roles").isNone = false
  stuck : (∃ name ∈ addedNames caller userId (requestedRoles request) w.identity,
        roleNamed caller userId w.identity.roles name = none) ∧
      (¬Leaves (objectId userId) (patchAt runtime request w) w ∨ ∃ name,
        (addedNames caller userId (requestedRoles request) w.identity).head? = some name ∧
          roleNamed caller userId w.identity.roles name ≠ none) ∨
    (∀ name ∈ addedNames caller userId (requestedRoles request) w.identity,
        roleNamed caller userId w.identity.roles name ≠ none) ∧
      Leftover caller userId (requestedRoles request) w.identity

theorem answerError_fails (e : Error) : (answerError e).success = false := by
  cases e with
  | mongo error => rfl
  | pezhwan kind message code => cases kind <;> rfl

theorem run_admin {result : Except Error Response} {t : World} {query : List (String × String)} {body : List (String × Json)}
    (ran : (patchUser runtime caller (patchRequest userId query body) userId).run i w = (result,t)) :
    (admin runtime caller (patchRequest userId query body)).run i w = (.ok (match result with
      | .ok response => response
      | .error e => answerError e),t) := by
  have handled : (handle (patchUser runtime caller (patchRequest userId query body) userId)).run i w = (.ok (match result with
      | .ok response => response
      | .error e => answerError e),t) := by
    unfold handle
    rw [run_bind_attempt ran]
    cases result <;> rfl
  exact handled

theorem stored_patchAt (runtime : Runtime) (request : Request) (w : World) (user : UserDoc) (n : Nat) (old : Option Json) :
    Stored runtime request {(patchAt runtime request w).apply user with
      tokenVersion := ((patchAt runtime request w).apply user).tokenVersion + n} ((patchAt runtime request w).metadata.or old) where
  email text given := by simp [patchAt,userPatch,UserPatch.apply,given,str]
  phone text given := by simp [patchAt,userPatch,UserPatch.apply,given,str]
  isActive value given := by simp [patchAt,userPatch,UserPatch.apply,given,boolean]
  password password given := by
    refine ⟨runtime.fresh w,?_⟩
    simp [patchAt,userPatch,UserPatch.apply,given]
  metadata value given object := by simp [patchAt,userPatch,given,Option.filter,object]

theorem document_found {user : UserDoc} (keyed : Keyed w.identity)
    (found : w.identity.users.find? (selected caller userId) = some user) :
    userById userId w.identity = some user := by
  rw [← ((selected_iff caller).mp (List.find?_some found)).1]
  exact Collection.lookup_member keyed.users (List.mem_of_find?_eq_some found)

theorem wanted_same {v : Auth.World} (still : (!(request.field "roles").isNone &&
    (!(addedNames caller userId (requestedRoles request) v).isEmpty ||
      !(removedNames caller userId (requestedRoles request) v).isEmpty)) = false) :
    wanted caller request userId v = v.assignments := by
  unfold wanted
  split
  · rfl
  · rename_i asked
    rw [Bool.eq_false_iff.mpr asked,Bool.not_false,Bool.true_and,Bool.or_eq_false_iff,Bool.not_eq_false',Bool.not_eq_false',
      List.isEmpty_iff,List.isEmpty_iff] at still
    unfold finalAssignments
    rw [still.1,still.2]
    rfl

theorem updated_iff {user : UserDoc} {t : World} (base : Base) (n : Nat) (keyed : Keyed w.identity)
    (found : userById (objectId userId) w.identity = some user)
    (known : (request.field "roles").isNone = false → ∀ name ∈ addedNames caller userId (requestedRoles request) w.identity,
      (roleNamed caller userId w.identity.roles name).isSome = true)
    (raised : Reversions caller request userId w.identity = true → 0 < n)
    (ends : t = (afterPatch (objectId userId) (patchAt runtime request w) w).reassign base (objectId userId) n (wanted caller request userId w.identity)) :
    Updated runtime caller request userId w t ↔
      ((request.field "roles").isNone = false → ¬Leftover caller userId (requestedRoles request) w.identity) := by
  have roles : t.identity.roles = w.identity.roles := by rw [ends]; rfl
  have docs : t.identity.assignments = wanted caller request userId w.identity := by rw [ends]; rfl
  constructor
  · intro updated asked
    have final : t.identity.assignments = finalAssignments caller userId (requestedRoles request) w.identity :=
      docs.trans (if_neg (by rw [asked]; decide))
    exact (final_names keyed roles final (known asked)).mp (updated.roles asked)
  · intro fine
    have document : userById (objectId userId) t.identity = some {(patchAt runtime request w).apply user with
        tokenVersion := ((patchAt runtime request w).apply user).tokenVersion + n} := by
      rw [ends,document_reassign,document_afterPatch,found]
      rfl
    have metadata : t.metadata.get? (objectId userId) = (patchAt runtime request w).metadata.or (w.metadata.get? (objectId userId)) := by
      rw [ends]
      exact metadata_afterPatch found _
    refine ⟨⟨user,_,found,document,?_,?_⟩,?_⟩
    · rw [metadata]
      exact stored_patchAt runtime request w user n _
    · intro reason
      have positive : 0 < n := by
        refine raised ?_
        unfold Reversions
        rcases reason with inactive | password | moved
        · simp [inactive]
        · simp [password]
        · rw [Bool.or_eq_true]
          refine Or.inr (Bool.of_not_eq_false fun still => moved fun name => ?_)
          rw [mem_roleNames,mem_roleNames,roles,docs,wanted_same still]
      have kept : ((patchAt runtime request w).apply user).tokenVersion = user.tokenVersion := rfl
      dsimp only
      omega
    · intro asked
      have final : t.identity.assignments = finalAssignments caller userId (requestedRoles request) w.identity :=
        docs.trans (if_neg (by rw [asked]; decide))
      exact (final_names keyed roles final (known asked)).mpr (fine asked)

theorem unchanged_iff {user : UserDoc} {t : World} {names : List String} (base : Base)
    (found : userById (objectId userId) w.identity = some user)
    (known : ∀ name ∈ names,(roleNamed caller userId w.identity.roles name).isSome = true)
    (ends : t = (afterPatch (objectId userId) (patchAt runtime request w) w).reassign base (objectId userId) names.length
      (reassigned caller userId true w.identity.roles names w.identity.assignments)) :
    Unchanged userId w t ↔ Leaves (objectId userId) (patchAt runtime request w) w ∧ names = [] := by
  have metadata : t.metadata.get? (objectId userId) = (patchAt runtime request w).metadata.or (w.metadata.get? (objectId userId)) := by
    rw [ends]
    exact metadata_afterPatch found _
  have document : userById (objectId userId) t.identity = some {(patchAt runtime request w).apply user with
      tokenVersion := ((patchAt runtime request w).apply user).tokenVersion + names.length} := by
    rw [ends,document_reassign,document_afterPatch,found]
    rfl
  constructor
  · intro same
    have equal := Option.some.inj (document.symm.trans (same.document.trans found))
    have none_ : names.length = 0 := by
      have version := congrArg UserDoc.tokenVersion equal
      have kept : ((patchAt runtime request w).apply user).tokenVersion = user.tokenVersion := rfl
      dsimp only at version
      omega
    rw [none_] at equal
    refine ⟨⟨?_,metadata.symm.trans same.metadata⟩,List.eq_nil_of_length_eq_zero none_⟩
    rw [found]
    exact congrArg some equal
  · rintro ⟨⟨leaves,idle⟩,rfl⟩
    refine ⟨?_,metadata.trans idle,?_⟩
    · rw [document,← leaves,found]
      rfl
    · rw [ends]
      rfl

section
variable {query : List (String × String)} {body : List (String × Json)} {t : World}
  (posed : request = patchRequest userId query body)
include posed

theorem allOrNothing_answered {response : Response}
    (ran : (patchUser runtime caller request userId).run i w = (.ok response,t)) :
    AllOrNothing runtime caller userId query body i w ↔
      if response.success then Updated runtime caller request userId w t else Unchanged userId w t := by
  subst posed
  constructor
  · rintro ⟨answered,u,ends,holds⟩
    cases ends.symm.trans (run_admin ran)
    exact holds
  · intro holds
    exact ⟨response,t,run_admin ran,holds⟩

theorem allOrNothing_thrown {e : Error}
    (ran : (patchUser runtime caller request userId).run i w = (.error e,t)) :
    AllOrNothing runtime caller userId query body i w ↔ Unchanged userId w t := by
  subst posed
  constructor
  · rintro ⟨answered,u,ends,holds⟩
    cases ends.symm.trans (run_admin ran)
    rw [answerError_fails] at holds
    exact holds
  · intro holds
    refine ⟨answerError e,t,run_admin ran,?_⟩
    rw [answerError_fails]
    exact holds

theorem allOrNothing_known {user : UserDoc} (keyed : Keyed w.identity) (healthy : w.base.fault = none)
    (found : w.identity.users.find? (selected caller (objectId userId)) = some user)
    (free : ((patchAt runtime request w).sets &&
      Taken (objectId userId) (patchAt runtime request w) w) = false)
    (known : (request.field "roles").isNone = false →
      ∀ name ∈ addedNames caller userId (requestedRoles request) w.identity,
        (roleNamed caller userId w.identity.roles name).isSome = true) :
    AllOrNothing runtime caller userId query body i w ↔ ((request.field "roles").isNone = false →
      ¬Leftover caller userId (requestedRoles request) w.identity) := by
  obtain ⟨base,still,patched⟩ := run_patchUser runtime i healthy found free
  obtain ⟨later,n,ran,raised⟩ := run_afterDocument (w := (afterPatch (objectId userId)
    (patchAt runtime request w) w).rebase base) runtime caller request userId i
      still known
  refine (allOrNothing_answered posed (patched.trans ran)).trans ?_
  exact updated_iff later n keyed (document_found keyed found) known raised rfl

theorem allOrNothing_unknown {user : UserDoc} {before rest : List String} (keyed : Keyed w.identity) (healthy : w.base.fault = none)
    (found : w.identity.users.find? (selected caller (objectId userId)) = some user)
    (free : ((patchAt runtime request w).sets &&
      Taken (objectId userId) (patchAt runtime request w) w) = false)
    (asked : (request.field "roles").isNone = false)
    (split : addedNames caller userId (requestedRoles request) w.identity = before ++ name :: rest)
    (known : ∀ name ∈ before,(roleNamed caller userId w.identity.roles name).isSome = true)
    (unknown : roleNamed caller userId w.identity.roles name = none) :
    AllOrNothing runtime caller userId query body i w ↔
      Leaves (objectId userId) (patchAt runtime request w) w ∧ before = [] := by
  obtain ⟨base,still,patched⟩ := run_patchUser runtime i healthy found free
  obtain ⟨later,ran⟩ := run_updateRoles_unknown (w := (afterPatch (objectId userId)
    (patchAt runtime request w) w).rebase base) runtime request i still asked
      split known unknown
  refine (allOrNothing_thrown posed (patched.trans (run_bind_error ran))).trans ?_
  exact unchanged_iff later (document_found keyed found) known rfl

end

end

-- A new address, and a role that is not there.
def sampleBody : List (String × Json) := [("email",.string "new@example.com"),("roles",.array [.string "GHOST"])]

theorem neighbours_keyed : Keyed neighbours.identity where
  users := List.nodup_singleton _
  roles := List.nodup_nil
  names := by
    intro one listed
    cases listed
  assignments := List.nodup_nil

def refusedUpdate : Except Error Response × World :=
  (admin sampleRuntime sampleCaller (patchRequest "user" [] sampleBody)).run 0 neighbours

end Pezhwan.Server
