import Mathlib.Data.List.Perm.Subperm
import Pezhwan.Auth.Watch
import Pezhwan.Server.Tenancy

-- The records a server makes sure of when it starts.
namespace Pezhwan.Bootstrap
open Atomic Prog Auth Server

structure TenantDoc where
  id : String
  slug : String
  name : String
  isActive : Bool
  plan : String
  deriving DecidableEq, Repr

structure ApplicationDoc where
  id : String
  tenantId : String
  name : String
  platform : String
  clientId : String
  clientSecretHash : String
  redirectUris : List String
  isActive : Bool
  deriving DecidableEq, Repr

structure Database where
  identity : Auth.World
  tenants : List TenantDoc
  applications : List ApplicationDoc

def Database.base (db : Database) : Base := db.identity.base

def identityLens : Lens Database Auth.World :=
  ⟨Database.identity,fun v db => {db with identity := v},fun _ _ => rfl,fun _ => rfl,fun _ _ _ => rfl⟩

abbrev Program (α : Type) := Prog CallId Database Error α

def identity (p : Auth.Program α) : Program α := p.zoom identityLens

def op (f : CallId → Database → Except MongoError (α × Database)) : Program α := mongo Database.base f

def find (f : Database → α) : Program α := op fun _ db => .ok (f db,db)

def Database.rebased (db : Database) (base : Base) : Database := {db with identity := {db.identity with base}}

def Database.drawn (db : Database) (i : CallId) : Database := db.rebased {db.base with draws := db.base.draws ++ [i]}

structure BootstrapOptions where
  tenantId : String
  applicationId : String
  tenantName : Option String := none
  tenantSlug : Option String := none
  adminEmail : Option String := none
  adminPassword : Option String := none

-- A required text that is empty fails before anything is written.
def invalid (model : String) : Program α := Prog.throw (.mongo ⟨none,model ++ " validation failed",false⟩)

variable (runtime : Runtime) (options : BootstrapOptions)

def fresh (db : Database) : String := runtime.auth.platform.random.fresh db.base.draws.length

namespace BootstrapOptions

def slug : String := options.tenantSlug.getD ("tenant-" ++ options.tenantId)

def isTenant (tenant : TenantDoc) : Bool := tenant.slug = options.slug

def isApplication (application : ApplicationDoc) : Bool :=
  application.tenantId = options.tenantId && application.clientId = options.applicationId

def roleInput (userId : String) : RoleInput := ⟨userId,options.tenantId,options.applicationId,"ADMIN"⟩

def isRole (role : RoleDoc) : Bool :=
  role.tenantId = options.tenantId && role.applicationId = options.applicationId && role.name = "ADMIN"

-- The setter of the user schema runs on the address that is looked for, too.
def isAdmin (email : String) (user : UserDoc) : Bool :=
  user.tenantId = options.tenantId &&
    user.email = some (runtime.auth.platform.emailSetter (runtime.auth.platform.toLowerCase email))

end BootstrapOptions

-- if (!(await Model.findOne(...))) { ... }
def unlessFound (look : Database → Option α) (make : Program Unit) : Program Unit := do
  match ← find look with
  | some _ => pure ()
  | none => make

def ensureTenant : Program Unit :=
  unlessFound (fun db => db.tenants.find? options.isTenant) (
    let name := options.tenantName.getD "Bootstrap Tenant"
    if options.slug = "" ∨ name = "" then invalid "Tenant"
    else op fun i db =>
      let doc : TenantDoc := ⟨fresh runtime db,options.slug,name,true,"pro"⟩
      if db.tenants.any fun other => other.id = doc.id || other.slug = doc.slug then .error duplicateKey
      else .ok ((),{db.drawn i with tenants := db.tenants ++ [doc]}))

def ensureApplication : Program Unit :=
  unlessFound (fun db => db.applications.find? options.isApplication) do
    let clientSecret ← identity (base (draw runtime.auth.platform.random))
    if options.tenantId = "" ∨ options.applicationId = "" then invalid "Application"
    else op fun i db =>
      let doc : ApplicationDoc := ⟨fresh runtime db,options.tenantId,"Default Application","web",options.applicationId,
        runtime.auth.platform.sha256 clientSecret,[],true⟩
      -- the client id is unique across the tenants
      if db.applications.any fun other => other.id = doc.id || other.clientId = doc.clientId then .error duplicateKey
      else .ok ((),{db.drawn i with applications := db.applications ++ [doc]})

def ensureRole : Program Unit :=
  unlessFound (fun db => db.identity.roles.find? options.isRole) (
    if options.tenantId = "" ∨ options.applicationId = "" then invalid "Role"
    else op fun i db =>
      let doc : RoleDoc := ⟨fresh runtime db,options.tenantId,options.applicationId,"ADMIN",some "Platform administrator",[],true⟩
      if db.identity.roles.any fun other => other.id = doc.id || options.isRole other then .error duplicateKey
      else .ok ((),{db.drawn i with identity := {(db.drawn i).identity with roles := db.identity.roles ++ [doc]}}))

-- A grant that fails is passed over.
def grantAdmin (userId : String) : Program Unit := do
  let _ ← (identity (runtime.authorization.assignRole (options.roleInput userId))).attempt
  pure ()

def registerInput (email password : String) : AuthEngine.RegisterInput :=
  ⟨options.tenantId,options.applicationId,some email,none,some password,⟨none,none,none⟩⟩

def ensureAdmin : Program Unit :=
  match truthy options.adminEmail,truthy options.adminPassword with
  | some email,some password => do
    match ← find fun db => db.identity.users.find? (options.isAdmin runtime email) with
    | some existing => grantAdmin runtime options existing.id
    | none =>
      match ← (identity (runtime.auth.register (registerInput options email password))).attempt with
      | .ok (user,_) => grantAdmin runtime options user.id
      | .error _ => pure ()
  | _,_ => pure ()

def ensureBootstrap : Program Unit := do
  ensureTenant runtime options
  ensureApplication runtime options
  ensureRole runtime options
  ensureAdmin runtime options

-- No user, role, assignment, tenant or application has changed.
structure Same (one other : Database) : Prop where
  users : other.identity.users = one.identity.users
  roles : other.identity.roles = one.identity.roles
  assignments : other.identity.assignments = one.identity.assignments
  tenants : other.tenants = one.tenants
  applications : other.applications = one.applications

-- Time goes by, and texts are drawn; the cache and the store's health are any.
def Later (b c : Base) : Prop := b.now ≤ c.now ∧ b.draws <+: c.draws

-- The server is started again, any number of times.
inductive Restarted (i : CallId) (db : Database) : Database → Prop where
  | refl : Restarted i db db
  | again {middle : Database} {shared : Base} (before : Restarted i db middle) (later : Later middle.base shared) :
      Restarted i db ((ensureBootstrap runtime options).run i (middle.rebased shared)).2

def Stable (i : CallId) (db : Database) : Prop := ∀ after, Restarted runtime options i db after → Same db after

-- What the first three steps look for is there.
structure Ready (db : Database) : Prop where
  tenant : (db.tenants.find? options.isTenant).isSome
  application : (db.applications.find? options.isApplication).isSome
  role : (db.identity.roles.find? options.isRole).isSome

variable {runtime options} {i : CallId} {db after : Database}

theorem Same.refl (db : Database) : Same db db := ⟨rfl,rfl,rfl,rfl,rfl⟩

theorem run_find {f : Database → α} (healthy : db.base.fault = none) : (find f).run i db = (.ok (f db),db) := by
  have ran : Returns i (find f) db (f db) db := returns_mongo.mpr ⟨healthy,rfl⟩
  exact ran

theorem run_find_refused {f : Database → α} (faulty : db.base.fault = some e) : (find f).run i db = (.error (.mongo e),db) := by
  simp [find,op,mongo,Prog.tryAtomic,run,faulty]

theorem returns_find {f : Database → α} (returned : Returns i (find f) db value after) : value = f db ∧ after = db := by
  obtain ⟨_,same⟩ := returns_mongo.mp returned
  cases same
  exact ⟨rfl,rfl⟩

theorem run_unlessFound {look : Database → Option α} {make : Program Unit} (healthy : db.base.fault = none)
    (found : (look db).isSome) : (unlessFound look make).run i db = (.ok (),db) := by
  obtain ⟨doc,there⟩ := Option.isSome_iff_exists.mp found
  rw [unlessFound,run_bind_ok (run_find healthy),there]
  rfl

theorem run_ready (healthy : db.base.fault = none) (ready : Ready options db) :
    (ensureBootstrap runtime options).run i db = (ensureAdmin runtime options).run i db := by
  have first : (ensureTenant runtime options).run i db = (.ok (),db) := run_unlessFound healthy ready.tenant
  have second : (ensureApplication runtime options).run i db = (.ok (),db) := run_unlessFound healthy ready.application
  have third : (ensureRole runtime options).run i db = (.ok (),db) := run_unlessFound healthy ready.role
  rw [ensureBootstrap,run_bind_ok first,run_bind_ok second,run_bind_ok third]

theorem run_refused (faulty : db.base.fault = some e) : (ensureBootstrap runtime options).run i db = (.error (.mongo e),db) := by
  have first : (ensureTenant runtime options).run i db = (.error (.mongo e),db) := by
    unfold ensureTenant unlessFound
    exact run_bind_error (run_find_refused faulty)
  rw [ensureBootstrap]
  exact run_bind_error first

theorem returns_unlessFound {look : Database → Option α} {make : Program Unit} (returned : Returns i (unlessFound look make) db () after) :
    (look db).isSome ∧ after = db ∨ Returns i make db () after := by
  obtain ⟨found,middle,looked,rest⟩ := returns_bind.mp returned
  obtain ⟨rfl,rfl⟩ := returns_find looked
  cases found : look middle with
  | some doc =>
    rw [found] at rest
    exact .inl ⟨rfl,(returns_pure.mp rest).2.symm⟩
  | none =>
    rw [found] at rest
    exact .inr rest

theorem ensureTenant_returns (returned : Returns i (ensureTenant runtime options) db () after) :
    (after.tenants.find? options.isTenant).isSome ∧ after.identity.users = db.identity.users := by
  rcases returns_unlessFound returned with ⟨found,rfl⟩ | rest
  · exact ⟨found,rfl⟩
  · dsimp only at rest
    split at rest
    · exact absurd rest returns_throw
    · obtain ⟨_,made⟩ := returns_mongo.mp rest
      split at made
      · cases made
      · cases made
        refine ⟨?_,rfl⟩
        simp [BootstrapOptions.isTenant]

theorem ensureApplication_returns (returned : Returns i (ensureApplication runtime options) db () after) :
    (after.applications.find? options.isApplication).isSome ∧ after.tenants = db.tenants ∧
      after.identity.users = db.identity.users := by
  rcases returns_unlessFound returned with ⟨found,rfl⟩ | rest
  · exact ⟨found,rfl,rfl⟩
  · obtain ⟨secret,drawn,made,rest⟩ := returns_bind.mp rest
    obtain ⟨v,picked,rfl⟩ := (returns_zoom identityLens).mp made
    obtain ⟨shared,_,rfl⟩ := (returns_zoom Auth.baseLens).mp picked
    dsimp only at rest
    split at rest
    · exact absurd rest returns_throw
    · obtain ⟨_,written⟩ := returns_mongo.mp rest
      split at written
      · cases written
      · cases written
        refine ⟨?_,rfl,rfl⟩
        simp [BootstrapOptions.isApplication]

theorem ensureRole_returns (returned : Returns i (ensureRole runtime options) db () after) :
    (after.identity.roles.find? options.isRole).isSome ∧ after.tenants = db.tenants ∧ after.applications = db.applications ∧
      after.identity.users = db.identity.users := by
  rcases returns_unlessFound returned with ⟨found,rfl⟩ | rest
  · exact ⟨found,rfl,rfl,rfl⟩
  · dsimp only at rest
    split at rest
    · exact absurd rest returns_throw
    · obtain ⟨_,written⟩ := returns_mongo.mp rest
      split at written
      · cases written
      · cases written
        refine ⟨?_,rfl,rfl,rfl⟩
        simp [BootstrapOptions.isRole]

-- Who has an address; the last step only adds to it, and writes no role.
def holders (v : Auth.World) : List (String × Option String) := v.users.map fun user => (user.tenantId,user.email)

structure Enlisted (v w : Auth.World) : Prop where
  roles : w.roles = v.roles
  holders : holders v <+: holders w

theorem Enlisted.refl (v : Auth.World) : Enlisted v v := ⟨rfl,List.prefix_refl _⟩

theorem enlisted_aside {v w : Auth.World} (roles : w.roles = v.roles) (users : w.users = v.users) : Enlisted v w := by
  have same : holders w = holders v := congrArg (List.map _) users
  exact ⟨roles,same ▸ List.prefix_refl _⟩

theorem enlisted_bump (v : Auth.World) (userId : String) : Enlisted v {v with users := bump userId v.users} := by
  have same : holders {v with users := bump userId v.users} = holders v := by
    unfold holders bump
    apply Collection.map_updateOne
    exact fun _ => rfl
  exact ⟨rfl,same ▸ List.prefix_refl _⟩

theorem enlisted_register (engine : AuthEngine) (input : AuthEngine.RegisterInput) : (engine.register input).Keeps Enlisted := by
  have shared : ∀ v b, Enlisted v {v with base := b} := fun v b => enlisted_aside rfl rfl
  unfold AuthEngine.register
  split
  · exact Keeps.throw _
  · refine Keeps.bind ?_ fun _ => Keeps.bind ?_ fun passwordHash => Keeps.bind ?_ fun doc => ?_
    · unfold AuthEngine.requirePassword checkPassword
      split
      · split
        · exact Keeps.pure _
        · exact Keeps.throw _
      · split
        · exact Keeps.throw _
        · exact Keeps.pure _
    · unfold AuthEngine.initialPasswordHash
      split
      · exact Keeps.bind (Keeps.bind (spared_base _ shared) fun salt => Keeps.pure _) fun hash => Keeps.pure _
      · exact Keeps.pure _
    · apply keeps_operation Enlisted.refl
      intro i v value t made
      dsimp only at made
      split at made
      · cases made
      · cases made
        refine ⟨rfl,?_⟩
        unfold holders
        rw [List.map_append]
        exact List.prefix_append _ _
    · refine Keeps.bind ((Keeps.any _).zoom fun v _ _ => enlisted_aside rfl rfl) fun created => ?_
      exact Keeps.bind (spared_mintTokens Enlisted.refl shared _ _ _ _ _ _) fun tokens => Keeps.pure _

theorem enlisted_assignRole (authorization : AuthorizationService) (input : RoleInput) :
    (authorization.assignRole input).Keeps Enlisted := by
  unfold AuthorizationService.assignRole
  refine Keeps.bind (keeps_reading Enlisted.refl _) fun found => ?_
  split
  · exact Keeps.throw _
  · refine Keeps.bind (keeps_writing Enlisted.refl fun w => ?_) fun _ => ?_
    · split
      · exact Enlisted.refl w
      · exact enlisted_aside rfl rfl
    · unfold AuthorizationService.invalidateUserTokens
      refine Keeps.bind (keeps_writing Enlisted.refl fun w => enlisted_bump w _) fun _ => ?_
      split
      · exact spared_base _ fun v b => enlisted_aside rfl rfl
      · exact Keeps.pure _

-- What the last step leaves as it is.
structure Spared (one other : Database) : Prop where
  identity : Enlisted one.identity other.identity
  tenants : other.tenants = one.tenants
  applications : other.applications = one.applications

theorem Spared.refl (db : Database) : Spared db db := ⟨Enlisted.refl _,rfl,rfl⟩

theorem Spared.trans {one two three : Database} (first : Spared one two) (second : Spared two three) : Spared one three :=
  ⟨⟨second.identity.roles.trans first.identity.roles,first.identity.holders.trans second.identity.holders⟩,
    second.tenants.trans first.tenants,second.applications.trans first.applications⟩

theorem spared_identity {p : Auth.Program α} (keeps : p.Keeps Enlisted) : (identity p).Keeps Spared :=
  keeps.zoom fun _ _ kept => ⟨kept,rfl,rfl⟩

theorem spared_find (f : Database → α) : (find f).Keeps Spared := by
  apply Keeps.tryAtomic Spared.refl
  intro i s value t ran
  split at ran
  · cases ran
  · cases ran
    exact Spared.refl s

theorem spared_grantAdmin (userId : String) : (grantAdmin runtime options userId).Keeps Spared :=
  Keeps.bind (spared_identity (enlisted_assignRole _ _)).attempt fun _ => Keeps.pure _

theorem spared_registered (result : Except Error (UserDoc × IssuedTokens)) : (match result with
    | .ok (user,_) => grantAdmin runtime options user.id
    | .error _ => pure () : Program Unit).Keeps Spared := by
  cases result with
  | ok pair => exact spared_grantAdmin _
  | error e => exact Keeps.pure _

theorem spared_ensureAdmin : (ensureAdmin runtime options).Keeps Spared := by
  unfold ensureAdmin
  split
  · refine Keeps.bind (spared_find _) fun found => ?_
    split
    · exact spared_grantAdmin _
    · exact Keeps.bind (spared_identity (enlisted_register _ _)).attempt spared_registered
  · exact Keeps.pure _

theorem moves_ensureAdmin (db : Database) : Spared db ((ensureAdmin runtime options).run i db).2 :=
  spared_ensureAdmin.run Spared.refl Spared.trans i db

theorem ready_spared {one other : Database} (spared : Spared one other) (ready : Ready options one) : Ready options other := by
  refine ⟨?_,?_,?_⟩
  · rw [spared.tenants]
    exact ready.tenant
  · rw [spared.applications]
    exact ready.application
  · rw [spared.identity.roles]
    exact ready.role

theorem completed_parts (completed : Returns i (ensureBootstrap runtime options) db () after) :
    ∃ middle, Ready options middle ∧ middle.identity.users = db.identity.users ∧
      (ensureAdmin runtime options).run i middle = (.ok (),after) := by
  obtain ⟨_,one,first,rest⟩ := returns_bind.mp completed
  obtain ⟨_,two,second,rest⟩ := returns_bind.mp rest
  obtain ⟨_,three,third,last⟩ := returns_bind.mp rest
  obtain ⟨tenant,firstUsers⟩ := ensureTenant_returns first
  obtain ⟨application,tenants,secondUsers⟩ := ensureApplication_returns second
  obtain ⟨role,tenants',applications,thirdUsers⟩ := ensureRole_returns third
  refine ⟨three,⟨?_,?_,role⟩,?_,last⟩
  · rw [tenants',tenants]
    exact tenant
  · rw [applications]
    exact application
  · rw [thirdUsers,secondUsers,firstUsers]

-- No administrator is asked for, or none is there and the password is refused.
def NoAdmin (runtime : Runtime) (options : BootstrapOptions) (users : List UserDoc) : Prop :=
  ∀ email password, truthy options.adminEmail = some email → truthy options.adminPassword = some password →
    (∀ user ∈ users, options.isAdmin runtime email user = false) ∧ evaluatePassword password runtime.auth.passwordPolicy ≠ []

theorem absent_iff {email : String} {users : List UserDoc} :
    users.find? (options.isAdmin runtime email) = none ↔ ∀ user ∈ users, options.isAdmin runtime email user = false := by
  simp [List.find?_eq_none]

theorem truthy_again (given : truthy text = some value) : truthy (some value) = some value := by
  cases truthy_some given
  exact given

theorem run_identity {p : Auth.Program α} {v : Auth.World} (ran : p.run i db.identity = (result,v)) :
    (identity p).run i db = (result,{db with identity := v}) := by
  unfold identity
  rw [run_zoom]
  exact congrArg (fun pair : Except Error α × Auth.World => (pair.1,identityLens.set pair.2 db)) ran

theorem run_register_refused {engine : AuthEngine} {input : AuthEngine.RegisterInput} {v : Auth.World}
    (email : truthy input.email = some address) (given : truthy input.password = some password)
    (refused : evaluatePassword password engine.passwordPolicy ≠ []) : ∃ e, (engine.register input).run i v = (.error e,v) := by
  unfold AuthEngine.register
  rw [if_neg (by simp [email])]
  have checked : ∃ e, (engine.requirePassword input).run i v = (.error e,v) := by
    unfold AuthEngine.requirePassword checkPassword
    rw [given]
    dsimp only
    split
    · exact absurd ‹_› refused
    · exact ⟨_,rfl⟩
  obtain ⟨e,ran⟩ := checked
  exact ⟨e,run_bind_error ran⟩

theorem run_seeded (email : truthy options.adminEmail = some address) (given : truthy options.adminPassword = some password)
    (healthy : db.base.fault = none) : (ensureAdmin runtime options).run i db =
      (match db.identity.users.find? (options.isAdmin runtime address) with
        | some existing => grantAdmin runtime options existing.id
        | none => (identity (runtime.auth.register (registerInput options address password))).attempt >>= fun result =>
          match result with
          | .ok (user,_) => grantAdmin runtime options user.id
          | .error _ => pure ()).run i db := by
  unfold ensureAdmin
  rw [email,given]
  dsimp only
  rw [run_bind_ok (run_find healthy)]

theorem run_unmade (absent : NoAdmin runtime options db.identity.users) : ((ensureAdmin runtime options).run i db).2 = db := by
  cases email : truthy options.adminEmail with
  | none => simp [ensureAdmin,email]
  | some address =>
    cases given : truthy options.adminPassword with
    | none => simp [ensureAdmin,email,given]
    | some password =>
      obtain ⟨missing,refused⟩ := absent address password email given
      cases fault : db.base.fault with
      | some e =>
        unfold ensureAdmin
        rw [email,given]
        dsimp only
        exact congrArg Prod.snd (run_bind_error (run_find_refused fault))
      | none =>
        rw [run_seeded email given fault,absent_iff.mpr missing]
        dsimp only
        obtain ⟨e,ran⟩ := @run_register_refused i address password runtime.auth (registerInput options address password)
          db.identity (truthy_again email) (truthy_again given) refused
        rw [run_bind_attempt (run_identity ran)]
        rfl

theorem spared_start (ready : Ready options db) : Spared db ((ensureBootstrap runtime options).run i db).2 := by
  cases fault : db.base.fault with
  | some e =>
    rw [run_refused fault]
    exact Spared.refl db
  | none =>
    rw [run_ready fault ready]
    exact moves_ensureAdmin db

theorem spared_rebased (db : Database) (shared : Base) : Spared db (db.rebased shared) := ⟨enlisted_aside rfl rfl,rfl,rfl⟩

theorem restarted_spared (ready : Ready options db) (restarted : Restarted runtime options i db after) : Spared db after := by
  induction restarted with
  | refl => exact Spared.refl db
  | @again middle shared before later ih =>
    have rebased := ih.trans (spared_rebased middle shared)
    exact rebased.trans (spared_start (ready_spared rebased ready))

theorem stable_absent (ready : Ready options db) (absent : NoAdmin runtime options db.identity.users) :
    Stable runtime options i db := by
  intro after restarted
  induction restarted with
  | refl => exact Same.refl db
  | @again middle shared before later ih =>
    have same : Same db (middle.rebased shared) := ⟨ih.users,ih.roles,ih.assignments,ih.tenants,ih.applications⟩
    have kept : NoAdmin runtime options (middle.rebased shared).identity.users := by
      rw [same.users]
      exact absent
    suffices unmoved : ((ensureBootstrap runtime options).run i (middle.rebased shared)).2 = middle.rebased shared by
      rw [unmoved]
      exact same
    cases fault : (middle.rebased shared).base.fault with
    | some e => rw [run_refused fault]
    | none =>
      have spared := (restarted_spared ready before).trans (spared_rebased middle shared)
      rw [run_ready fault (ready_spared spared ready)]
      exact run_unmade kept

theorem bump_moves (listed : user ∈ users) : bump user.id users ≠ users := by
  have found : ∃ first, users.find? (fun other => other.id = user.id) = some first := by
    apply Option.isSome_iff_exists.mp
    exact List.find?_isSome.mpr ⟨user,listed,decide_eq_true rfl⟩
  obtain ⟨first,found⟩ := found
  refine Collection.updateOne_moves (fun other => ?_) found
  intro same
  exact absurd (congrArg UserDoc.tokenVersion same) (Nat.succ_ne_self _)

theorem run_grantAdmin {userId : String} (healthy : db.base.fault = none) (role : (db.identity.roles.find? options.isRole).isSome) :
    ((grantAdmin runtime options userId).run i db).2.identity.users = bump userId db.identity.users := by
  obtain ⟨found,first⟩ := Option.isSome_iff_exists.mp role
  have ran := @run_roleChange i found runtime.authorization (options.roleInput userId) userId true db.identity healthy first
  have assigned : (roleChange runtime.authorization (options.roleInput userId) userId true) =
      runtime.authorization.assignRole (options.roleInput userId) := rfl
  rw [assigned] at ran
  unfold grantAdmin
  rw [run_bind_attempt (run_identity ran)]
  rfl

theorem exists_fresh (random : Random) (n : Nat) (used : List String) : ∃ k, random.fresh (n + k) ∉ used := by
  by_contra taken
  simp only [not_exists,not_not] at taken
  have distinct : ((List.range (used.length + 1)).map fun k => random.fresh (n + k)).Nodup := by
    apply List.nodup_range.map
    intro one two same
    simpa using same
  have within : ((List.range (used.length + 1)).map fun k => random.fresh (n + k)) ⊆ used := by
    intro text drawn
    obtain ⟨k,_,rfl⟩ := List.mem_map.mp drawn
    exact taken k
  have few := (List.subperm_of_subset distinct within).length_le
  simp only [List.length_map,List.length_range] at few
  omega

theorem run_createUser {engine : AuthEngine} {doc : UserDoc} {v : Auth.World} (healthy : v.base.fault = none)
    (free : v.users.any (AuthEngine.handleTaken {doc with id := engine.platform.random.fresh v.base.draws.length}) = false) :
    (engine.createUser doc).run i v = (.ok {doc with id := engine.platform.random.fresh v.base.draws.length},{v with
      base := {v.base with draws := v.base.draws ++ [i]}
      users := v.users ++ [{doc with id := engine.platform.random.fresh v.base.draws.length}]}) := by
  refine returns_mongo.mpr ⟨healthy,?_⟩
  dsimp only
  rw [free]
  rfl

theorem untouched_served (engine : AuthEngine) (input : AuthEngine.RegisterInput) (doc : UserDoc) (authMethod : AuthMethod) :
    (do
      let created ← engine.openSession doc.id input.tenantId input.applicationId input.device
      let tokens ← engine.mintTokens doc.id doc.tokenVersion created input.applicationId authMethod
      pure (doc,tokens) : Auth.Program (UserDoc × IssuedTokens)).Keeps Untouched := by
  refine Keeps.bind (untouched_openSession _ _ _ _ _) fun created => ?_
  exact Keeps.bind (untouched_mintTokens _ _ _ _ _ _) fun tokens => Keeps.pure _

theorem register_adds {engine : AuthEngine} {input : AuthEngine.RegisterInput} {v : Auth.World} (healthy : v.base.fault = none)
    (email : input.email = some address) (named : truthy input.email = some address) (phone : input.phone = none)
    (given : truthy input.password = some password) (accepted : evaluatePassword password engine.passwordPolicy = [])
    (unused : ∀ user ∈ v.users, user.id ≠ engine.platform.random.fresh (v.base.draws.length + 1))
    (absent : ∀ user ∈ v.users, ¬ (user.tenantId = input.tenantId ∧
      user.email = some (engine.platform.emailSetter (engine.platform.toLowerCase address)))) :
    ((engine.register input).run i v).2.users.length = v.users.length + 1 := by
  have checked : (engine.requirePassword input).run i v = (.ok (),v) := by
    unfold AuthEngine.requirePassword checkPassword
    rw [given]
    dsimp only
    rw [accepted]
    rfl
  have hashed : (engine.initialPasswordHash input.password).run i v =
      (.ok (some (engine.platform.hashPassword password (engine.platform.random.fresh v.base.draws.length))),
        {v with base := {v.base with draws := v.base.draws ++ [i]}}) := by
    unfold AuthEngine.initialPasswordHash
    rw [given]
    rfl
  have still : ({v with base := {v.base with draws := v.base.draws ++ [i]}} : Auth.World).base.fault = none := healthy
  have follows : ∀ {a b c : Auth.World}, Untouched a b → Untouched b c → Untouched a c :=
    fun one two => ⟨two.1.trans one.1,two.2.trans one.2⟩
  unfold AuthEngine.register
  rw [if_neg (by simp [named]),run_bind_ok checked,run_bind_ok hashed,run_bind_ok (run_createUser still ?_)]
  · refine (congrArg List.length ((untouched_served engine input _ _).run untouched_refl follows i _).1).trans ?_
    rw [List.length_append]
    rfl
  · apply List.any_eq_false.mpr
    intro user listed taken
    simp only [AuthEngine.handleTaken,phone,email,Option.map_some,Option.map_none,Option.isSome_some,Option.isSome_none,
      Bool.true_and,Bool.false_and,Bool.or_false,Bool.or_eq_true,Bool.and_eq_true,decide_eq_true_eq,List.length_append,
      List.length_singleton] at taken
    rcases taken with id | ⟨tenant,same⟩
    · exact unused user listed id.symm
    · exact absent user listed ⟨tenant.symm,same.symm⟩

-- The next start, with the store healthy and some more texts drawn.
def Database.later (db : Database) (i : CallId) (k : Nat) : Database :=
  db.rebased {db.base with fault := none,draws := db.base.draws ++ List.replicate k i}

theorem restarted_later (k : Nat) :
    Restarted runtime options i db ((ensureBootstrap runtime options).run i (db.later i k)).2 :=
  .again .refl ⟨Nat.le_refl _,List.prefix_append _ _⟩

theorem unstable_present (ready : Ready options db) (email : truthy options.adminEmail = some address)
    (given : truthy options.adminPassword = some password) (listed : user ∈ db.identity.users)
    (admin : options.isAdmin runtime address user = true) : ¬ Stable runtime options i db := by
  intro stable
  have same := (stable _ (restarted_later 0)).users
  have found : ∃ existing, db.identity.users.find? (options.isAdmin runtime address) = some existing := by
    apply Option.isSome_iff_exists.mp
    exact List.find?_isSome.mpr ⟨user,listed,admin⟩
  obtain ⟨existing,found⟩ := found
  have healthy : (db.later i 0).base.fault = none := rfl
  have looked : (db.later i 0).identity.users.find? (options.isAdmin runtime address) = some existing := found
  have still : Ready options (db.later i 0) := ⟨ready.tenant,ready.application,ready.role⟩
  rw [run_ready healthy still,run_seeded email given healthy,looked] at same
  dsimp only at same
  rw [run_grantAdmin healthy still.role] at same
  exact bump_moves (List.mem_of_find?_eq_some found) same

theorem unstable_absent (ready : Ready options db) (email : truthy options.adminEmail = some address)
    (given : truthy options.adminPassword = some password)
    (absent : ∀ user ∈ db.identity.users, options.isAdmin runtime address user = false)
    (accepted : evaluatePassword password runtime.auth.passwordPolicy = []) : ¬ Stable runtime options i db := by
  intro stable
  obtain ⟨k,unused⟩ := exists_fresh runtime.auth.platform.random (db.base.draws.length + 1) (db.identity.users.map UserDoc.id)
  have same := (stable _ (restarted_later k)).users
  have healthy : (db.later i k).base.fault = none := rfl
  have still : Ready options (db.later i k) := ⟨ready.tenant,ready.application,ready.role⟩
  have looked : (db.later i k).identity.users.find? (options.isAdmin runtime address) = none := absent_iff.mpr absent
  rw [run_ready healthy still,run_seeded email given healthy,looked] at same
  dsimp only at same
  rcases ran : (runtime.auth.register (registerInput options address password)).run i (db.later i k).identity with ⟨result,v⟩
  have added : v.users.length = db.identity.users.length + 1 := by
    have drawn : (db.later i k).identity.base.draws.length + 1 = db.base.draws.length + 1 + k := by
      simp only [Database.later,Database.rebased,List.length_append,List.length_replicate]
      omega
    have grown := @register_adds i address password runtime.auth (registerInput options address password)
      (db.later i k).identity healthy rfl (truthy_again email) rfl (truthy_again given) accepted
      (fun user listed taken => unused (List.mem_map.mpr ⟨user,listed,by rw [taken,drawn]⟩))
      (fun user listed => by simpa [BootstrapOptions.isAdmin,registerInput] using absent user listed)
    rw [ran] at grown
    exact grown
  rw [run_bind_attempt (run_identity ran)] at same
  have spared : Spared {db.later i k with identity := v} _ :=
    (@spared_registered runtime options result).run Spared.refl Spared.trans i _
  have fewer := spared.identity.holders.length_le
  simp only [holders,List.length_map] at fewer
  rw [same,added] at fewer
  exact absurd fewer (Nat.not_succ_le_self _)

-- A first start on no records, with and without an administrator.
def blank : Database := ⟨{soleAccount sampleUser with users := []},[],[]⟩

def bare : BootstrapOptions := {tenantId := "tenant",applicationId := "application"}

def seeded : BootstrapOptions := {bare with adminEmail := some "user@example.com",adminPassword := some "Passw0rd"}

def started (options : BootstrapOptions) : Database := ((ensureBootstrap sampleRuntime options).run 0 blank).2

-- What is known before the first start that tells whether the later ones leave
-- the documents as they are.
theorem restarts_keep_iff (completed : Returns i (ensureBootstrap runtime options) db () after) :
    Stable runtime options i after ↔ NoAdmin runtime options db.identity.users := by
  obtain ⟨middle,ready,users,last⟩ := completed_parts completed
  have spared : Spared middle after := by
    have moved := @moves_ensureAdmin runtime options i middle
    rw [last] at moved
    exact moved
  have later := ready_spared spared ready
  constructor
  · intro stable email password address given
    have absent : ∀ user ∈ after.identity.users, options.isAdmin runtime email user = false := by
      intro user listed
      by_contra admin
      exact unstable_present later address given listed (by simpa using admin) stable
    refine ⟨?_,fun accepted => unstable_absent later address given absent accepted stable⟩
    intro user listed
    have holds : (user.tenantId,user.email) ∈ holders after.identity := by
      apply spared.identity.holders.subset
      rw [← users] at listed
      exact List.mem_map.mpr ⟨user,listed,rfl⟩
    obtain ⟨other,kept,same⟩ := List.mem_map.mp holds
    obtain ⟨tenant,address⟩ := Prod.mk.inj same
    have missing := absent other kept
    unfold BootstrapOptions.isAdmin at missing ⊢
    rw [← tenant,← address]
    exact missing
  · intro absent
    have unmoved : after = middle := by
      have same := @run_unmade runtime options i middle (users ▸ absent)
      rw [last] at same
      exact same
    apply stable_absent later
    rw [unmoved,users]
    exact absent

theorem restarts_keep_iff_bare : Stable sampleRuntime bare 0 (started bare) := by
  have completed : Returns 0 (ensureBootstrap sampleRuntime bare) blank () (started bare) := rfl
  exact (restarts_keep_iff completed).mpr fun _ _ address => nomatch address

theorem restart_raises_version : Returns 0 (ensureBootstrap sampleRuntime seeded) blank () (started seeded) ∧
    ¬ Stable sampleRuntime seeded 0 (started seeded) := by
  refine ⟨rfl,fun stable => ?_⟩
  have again : Restarted sampleRuntime seeded 0 (started seeded)
      ((ensureBootstrap sampleRuntime seeded).run 0 ((started seeded).rebased (started seeded).base)).2 :=
    .again .refl ⟨Nat.le_refl _,List.prefix_refl _⟩
  have versions : [2] = [1] := congrArg (List.map UserDoc.tokenVersion) (stable _ again).users
  exact absurd versions (by decide)

end Pezhwan.Bootstrap
