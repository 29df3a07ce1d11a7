import Pezhwan.Atomic.Focus
import Pezhwan.Server.Onward
import Pezhwan.Server.Patching

-- What a request takes from a user, and who is let in afterwards.
namespace Pezhwan.Server
open Atomic Prog Auth OAuth
variable {runtime : Runtime} {caller : IdentityContext} {request : Request} {userId : String} {i : CallId} {w t : World}

-- The states of a run. The code does not keep what was asked: the version of the
-- token that was presented when nothing was cached of its user.
structure Watched where
  world : World
  asked : String → Nat

def worldLens : Lens Watched World :=
  ⟨Watched.world,fun w s => {s with world := w},fun _ _ => rfl,fun _ => rfl,fun _ _ _ => rfl⟩

def Watched.ask (s : Watched) (token : AccessToken) : Watched :=
  if (known token.sub s.world.base).isSome then s
  else {s with asked := Function.update s.asked token.sub (token.tokenVersion.getD 0)}

-- Runs of admin requests and of requests with a token.
inductive Call where
  | admin (caller : IdentityContext) (request : Request)
  | visit (presented : Option AccessToken)

inductive Reply where
  | answer (response : Response)
  | attached (identity : Option IdentityContext)

def program (runtime : Runtime) : Call → Prog CallId Watched Error Reply
  | .admin caller request => Reply.answer <$> (admin runtime caller request).zoom worldLens
  | .visit presented => do
    Prog.atomic fun _ s => ((),presented.elim s s.ask)
    Reply.attached <$> (authenticate runtime presented).zoom worldLens

-- Time passes and the cache drops what it likes.
inductive Surroundings : Watched → Watched → Prop where
  | tick (later : s.world.base.now ≤ now) : Surroundings s {s with world := s.world.rebase {s.world.base with now}}
  | evict (key : CacheKey) : Surroundings s
      {s with world := s.world.rebase {s.world.base with cache := s.world.base.cache.del key}}

-- A token of a user's account, minted at a version that the account has had.
structure Minted (token : AccessToken) (w : World) : Prop where
  human : machine token.authMethod = false
  printed : objectId token.sub = token.sub
  version : Reaches token.sub (token.tokenVersion.getD 0) w.identity.users

-- What a request takes from the user of a token, and what of it the token says.
def TakenRole (caller : IdentityContext) (request : Request) (userId : String) (w : World) (role : RoleDoc) : Prop :=
  roleNamed caller userId w.identity.roles role.name = some role ∧ assignmentOf caller userId role ∈ w.identity.assignments ∧
    role.name ∉ requestedRoles request

def Takes (runtime : Runtime) (caller : IdentityContext) (request : Request) (w : World) (token : AccessToken) : Prop :=
  match request.method,request.path with
  | .patch,["users",id] =>
    token.sub = objectId id ∧ (boolean (request.field "isActive") = some false ∨ (newPassword request).isSome = true) ∨
      token.sub = id ∧ (request.field "roles").isNone = false ∧ ∃ role, TakenRole caller request id w role ∧ role.name ∈ token.roles
  | .delete,["users",id] => token.sub = objectId id
  | .post,["roles","remove"] =>
    let input := namedRole runtime caller request
    token.sub = input.userId ∧ ∃ role, w.identity.roles.find? input.selects = some role ∧
      input.assignment role ∈ w.identity.assignments ∧ role.name ∈ token.roles
  | _,_ => False

-- The same of a change of the role itself, when it is not refused.
def Strips (caller : IdentityContext) (request : Request) (w : World) (token : AccessToken) : Prop :=
  let held := fun role : RoleDoc => ∃ assignment ∈ w.identity.assignments, assignment.userId = token.sub ∧ assignment.roleId = role.id
  match request.method,request.path with
  | .patch,["roles",id] => ∃ role, w.identity.roles.find? (ownRole caller id) = some role ∧ held role ∧
      ∃ permission ∈ w.identity.permissions, permission.id ∈ role.permissionIds ∧
        permission.id ∉ (patchFields request role).permissionIds ∧ permission.name ∈ token.permissions
  | .delete,["roles",id] => ∃ role, w.identity.roles.find? (ownRole caller id) = some role ∧ held role ∧ role.name ∈ token.roles
  | _,_ => False

-- Whether a request is answered with success.
def Granted (runtime : Runtime) (caller : IdentityContext) (request : Request) (w : World) : Prop :=
  w.base.fault = none ∧ match request.method,request.path with
  | .patch,["users",id] =>
    (w.identity.users.find? (selected caller (objectId id))).isSome = true ∧
      ((patchAt runtime request w).sets && Taken (objectId id) (patchAt runtime request w) w) = false ∧
        ((request.field "roles").isNone = false → ∀ name ∈ addedNames caller id (requestedRoles request) w.identity,
          (roleNamed caller id w.identity.roles name).isSome = true)
  | .delete,["users",id] =>
    (w.identity.users.find? (selected caller (objectId id))).isSome = true
  | .post,["roles","remove"] => named runtime caller request = true
  | .delete,["roles",id] => ∀ role, w.identity.roles.find? (ownRole caller id) = some role → role.isSystem = false
  | _,_ => True

-- Whether it drops what is cached of the user it takes something from.
def Drops (runtime : Runtime) (caller : IdentityContext) (request : Request) (w : World) : Prop :=
  runtime.authorization.accountState = true ∧ match request.method,request.path with
  | .patch,["users",id] => objectId id = id ∧ (request.field "roles").isNone = false ∧
      ∃ name ∈ addedNames caller id (requestedRoles request) w.identity ++ removedNames caller id (requestedRoles request) w.identity,
        (roleNamed caller id w.identity.roles name).isSome = true
  | .post,["roles","remove"] => True
  | _,_ => False

-- A step is met when no token is presented that is older than the one its user's
-- cached standing was computed for, and when a request that is granted takes
-- something only from users whose cached standing it drops or who have none, and
-- changes no role that a user holds.
def Meets (runtime : Runtime) (s : Watched) : Call → Prop
  | .visit presented => ∀ token, presented = some token → machine token.authMethod = false →
      Remembered token.sub s.world.base → s.asked token.sub ≤ token.tokenVersion.getD 0
  | .admin caller request => Granted runtime caller request s.world → ∀ token, Minted token s.world →
      (Takes runtime caller request s.world token → ¬ Drops runtime caller request s.world → ¬ Remembered token.sub s.world.base) ∧
        ¬ Strips caller request s.world token

-- Whether the account of a token stands.
def Stands (userId : String) (version : Nat) (v : Auth.World) : Prop :=
  ∃ user, userById userId v = some user ∧ user.isActive = true ∧ user.tokenVersion = version

theorem stands_passes {version : Nat} {v : Auth.World} (passes : AccountState.passes ⟨(userById userId v).isSome,
      ((userById userId v).map UserDoc.isActive).getD false,
      ((userById userId v).map fun user => decide (user.tokenVersion = version)).getD false⟩ = true) :
    Stands userId version v := by
  cases found : userById userId v with
  | none =>
    rw [found] at passes
    cases passes
  | some user =>
    rw [found] at passes
    simp only [AccountState.passes,Option.isSome_some,Option.map_some,Option.getD_some,Bool.true_and,Bool.and_eq_true,
      decide_eq_true_eq] at passes
    exact ⟨user,found,passes⟩

theorem stands_bound {n version : Nat} {v : Auth.World} (unique : (v.users.map UserDoc.id).Nodup)
    (reached : Reaches userId n v.users) (stands : Stands userId version v) : n ≤ version := by
  obtain ⟨user,found,_,version⟩ := stands
  obtain ⟨other,listed,named,least⟩ := reached
  have selected := List.find?_some (p := fun user : UserDoc => user.id = userId) found
  have equal := List.inj_on_of_nodup_map unique listed (List.mem_of_find?_eq_some found)
    (named.trans (of_decide_eq_true selected).symm)
  rw [equal] at least
  omega

theorem known_set {b : Base} {state found : AccountState} {ttl : Nat}
    (hit : known userId {b with cache := b.cache.set b.now (.accountState userId) (.account state) ttl} = some found) :
    found = state := by
  unfold known Cache.get Cache.set at hit
  simp only [List.find?_cons,decide_true] at hit
  generalize (if ttl = 0 then Cache.MAX_SAFE_INTEGER else b.now + ttl * 1000) = expiresAt at hit
  by_cases lapsed : expiresAt < b.now
  · rw [if_pos lapsed] at hit
    cases hit
  · rw [if_neg lapsed] at hit
    exact (Option.some.inj hit).symm

-- What a presented token leaves remembered: no more than there was, but for its own
-- user's standing where nothing was known of it.
def Learns (userId : String) (version : Nat) (v u : Auth.World) : Prop :=
  u.users = v.users ∧ ∀ other, Remembered other u.base → Remembered other v.base ∨
    other = userId ∧ known userId v.base = none ∧ Stands userId version v

theorem Learns.refl (version : Nat) (v : Auth.World) : Learns userId version v v := ⟨rfl,fun _ => .inl⟩

theorem learns_set {version ttl : Nat} {v : Auth.World} {state : AccountState} (unknown : known userId v.base = none)
    (stands : AccountState.passes state = true → Stands userId version v) : Learns userId version v
      {v with base := {v.base with cache := v.base.cache.set v.base.now (.accountState userId) (.account state) ttl}} := by
  refine ⟨rfl,?_⟩
  intro other remembered
  by_cases same : other = userId
  · obtain ⟨found,hit,passes⟩ := remembered
    rw [same] at hit
    rw [known_set hit] at passes
    exact .inr ⟨same,unknown,stands passes⟩
  · have different : CacheKey.accountState other ≠ .accountState userId := by simpa using same
    left
    unfold Remembered known at remembered ⊢
    rw [Cache.get_set_ne _ _ _ _ _ different] at remembered
    exact remembered

theorem after_validate {version : Nat} {v : Auth.World} : After i (Auth.validate userId version) v fun result u =>
    Learns userId version v u ∧ (result = .ok true → Remembered userId v.base ∨ Stands userId version v) := by
  unfold Auth.validate
  apply After.bind
  apply After.zoom
  apply After.atomic
  dsimp only
  split
  · next state hit =>
    refine ⟨Learns.refl version v,fun passed => .inl ⟨state,?_,Except.ok.inj passed⟩⟩
    have read : v.base.cache.get v.base.now (.accountState userId) = some (.account state) := hit
    unfold known
    rw [read]
  · next missed =>
    have unknown : known userId v.base = none := by
      unfold known
      split
      · next state hit => exact absurd hit (missed state)
      · rfl
    apply After.bind
    apply After.attempt
    apply after_mongo
    · intro doc u healthy ran
      cases ran
      apply After.bind
      apply After.zoom
      apply After.atomic
      exact ⟨learns_set unknown stands_passes,fun passed => .inr (stands_passes (Except.ok.inj passed))⟩
    · intro e
      exact ⟨Learns.refl version v,fun refused => by cases refused⟩

theorem after_authenticate {token : AccessToken} : After i (authenticate runtime (some token)) w fun result t =>
    Learns token.sub (token.tokenVersion.getD 0) w.identity t.identity ∧ ∀ identity, result = .ok (some identity) →
      machine token.authMethod = false →
        Remembered token.sub w.base ∨ Stands token.sub (token.tokenVersion.getD 0) w.identity := by
  unfold authenticate
  apply After.bind
  apply After.zoom
  apply After.zoom
  apply After.atomic
  dsimp only
  split
  · exact ⟨Learns.refl _ _,fun identity attached => by cases attached⟩
  · next presented given =>
    obtain ⟨same,_⟩ := Option.filter_eq_some_iff.mp given
    cases same
    split
    · next other =>
      refine ⟨Learns.refl _ _,fun identity attached human => ?_⟩
      rw [human] at other
      cases other
    · apply After.bind
      apply After.zoom
      apply (@after_validate token.sub i (token.tokenVersion.getD 0) _).mono
      intro result v after
      obtain ⟨learnt,valid⟩ := after
      cases result with
      | error e => exact ⟨learnt,fun identity refused => by cases refused⟩
      | ok passed =>
        cases passed with
        | true => exact ⟨learnt,fun _ _ _ => valid rfl⟩
        | false => exact ⟨learnt,fun identity attached => by cases attached⟩

theorem Reaches.least {n m : Nat} {users : List UserDoc} (reached : Reaches userId m users) (least : n ≤ m) :
    Reaches userId n users := by
  obtain ⟨user,listed,named,version⟩ := reached
  exact ⟨user,listed,named,Nat.le_trans least version⟩

theorem reaches_updateOne {n : Nat} {p : UserDoc → Bool} {f : UserDoc → UserDoc} {users : List UserDoc} {user : UserDoc}
    (unique : (users.map UserDoc.id).Nodup) (reached : Reaches userId n users) (found : users.find? p = some user)
    (named : user.id = userId) (same : (f user).id = user.id) (next : (f user).tokenVersion = user.tokenVersion + 1) :
    Reaches userId (n + 1) (Collection.updateOne p f users) := by
  obtain ⟨other,listed,alike,least⟩ := reached
  have equal := List.inj_on_of_nodup_map unique listed (List.mem_of_find?_eq_some found) (alike.trans named.symm)
  rw [equal] at least
  refine ⟨f user,Collection.updateOne_found found,same.trans named,?_⟩
  omega

theorem onward_bump {users : List UserDoc} : Onward users (bump userId users) :=
  onward_updateOne fun user => ⟨rfl,Nat.le_succ user.tokenVersion⟩

theorem reaches_bump {n : Nat} {users : List UserDoc} (unique : (users.map UserDoc.id).Nodup) (reached : Reaches userId n users) :
    Reaches userId (n + 1) (bump userId users) := by
  cases found : users.find? (fun user => user.id = userId) with
  | none =>
    obtain ⟨user,listed,named,_⟩ := reached
    exact absurd named (by simpa using List.find?_eq_none.mp found user listed)
  | some user =>
    have named := List.find?_some (p := fun user : UserDoc => user.id = userId) found
    exact reaches_updateOne unique reached found (of_decide_eq_true named) rfl rfl

theorem onward_bumps {users : List UserDoc} (k : Nat) : Onward users ((bump userId)^[k] users) := by
  induction k with
  | zero => exact Onward.refl users
  | succ k ih =>
    rw [Function.iterate_succ_apply']
    exact ih.trans onward_bump

theorem reaches_bumps {n : Nat} {users : List UserDoc} (unique : (users.map UserDoc.id).Nodup) (reached : Reaches userId n users)
    (k : Nat) : Reaches userId (n + k) ((bump userId)^[k] users) := by
  induction k with
  | zero => exact reached
  | succ k ih =>
    rw [Function.iterate_succ_apply']
    exact reaches_bump ((onward_bumps k).unique unique) ih

-- What role changes do to what is remembered of the user.
structure Settles (s t : World) : Prop where
  roles : t.identity.roles = s.identity.roles
  fault : t.base.fault = s.base.fault
  cache : Recalls s.base t.base

theorem Settles.refl (s : World) : Settles s s := ⟨rfl,rfl,fun _ => id⟩

theorem Settles.trans {s t u : World} (one : Settles s t) (two : Settles t u) : Settles s u :=
  ⟨two.roles.trans one.roles,two.fault.trans one.fault,fun userId remembered => one.cache userId (two.cache userId remembered)⟩

theorem recalls_dropped {authorization : AuthorizationService} (b : Base) : Recalls b (dropped authorization userId b) := by
  unfold dropped
  split
  · exact recalls_del b _
  · exact fun _ => id

theorem forgotten_dropped {authorization : AuthorizationService} (service : authorization.accountState = true) (b : Base) :
    ¬ Remembered userId (dropped authorization userId b) := by
  unfold dropped
  rw [if_pos service]
  exact forgotten b

theorem after_changeRole {assigned : Bool} {name : String} : After i (changeRole runtime caller userId assigned name) w fun _ t =>
    Settles w t ∧ (runtime.authorization.accountState = true → w.base.fault = none →
      (roleNamed caller userId w.identity.roles name).isSome = true → ¬ Remembered userId t.base) := by
  have inner : identityLens.get w = w.identity := rfl
  unfold changeRole identity
  apply After.zoom
  unfold After
  rw [inner]
  cases fault : w.base.fault with
  | some e =>
    rw [run_roleChange_refused fault]
    refine ⟨Settles.refl w,fun _ healthy => ?_⟩
    cases healthy
  | none =>
    cases found : roleNamed caller userId w.identity.roles name with
    | none =>
      rw [run_roleChange_none fault found]
      refine ⟨Settles.refl w,fun _ _ listed => ?_⟩
      cases listed
    | some role =>
      rw [run_roleChange fault found]
      exact ⟨⟨rfl,dropped_fault _ _ _,recalls_dropped _⟩,fun service _ _ => forgotten_dropped service _⟩

theorem after_changeRoles {assigned : Bool} {names : List String} :
    After i (Prog.forEach (changeRole runtime caller userId assigned) names) w fun result t => ∀ value, result = .ok value →
      Settles w t ∧ (runtime.authorization.accountState = true → w.base.fault = none →
        (∃ name ∈ names, (roleNamed caller userId w.identity.roles name).isSome = true) → ¬ Remembered userId t.base) := by
  induction names generalizing w with
  | nil =>
    intro value _
    refine ⟨Settles.refl w,fun _ _ found => ?_⟩
    obtain ⟨name,listed,_⟩ := found
    cases listed
  | cons name rest ih =>
    apply After.bind
    apply after_changeRole.mono
    intro result t first
    obtain ⟨settled,forgets⟩ := first
    cases result with
    | error e =>
      intro value refused
      cases refused
    | ok value =>
      apply ih.mono
      intro result u second value done
      obtain ⟨further,later⟩ := second value done
      refine ⟨settled.trans further,fun service healthy found => ?_⟩
      obtain ⟨other,listed,there⟩ := found
      rcases List.mem_cons.mp listed with same | beyond
      · rw [same] at there
        exact fun remembered => forgets service healthy there (further.cache userId remembered)
      · refine later service (settled.fault.trans healthy) ⟨other,beyond,?_⟩
        rw [settled.roles]
        exact there

theorem after_ran {p : Program α} {f : α → Program β} {post : Except Error β → World → Prop} (ran : p.run i w = (.ok value,t))
    (after : After i (f value) t post) : After i (p >>= f) w post := by
  unfold After
  rw [run_bind_ok ran]
  exact after

theorem after_updateRoles (service : runtime.authorization.accountState = true) (healthy : w.base.fault = none)
    (asked : (request.field "roles").isNone = false)
    (found : ∃ name ∈ addedNames caller userId (requestedRoles request) w.identity ++
      removedNames caller userId (requestedRoles request) w.identity, (roleNamed caller userId w.identity.roles name).isSome = true) :
    After i (updateRoles runtime caller request userId) w fun result t => ∀ changed, result = .ok changed →
      ¬ Remembered userId t.base := by
  have current := run_currentNames caller userId i healthy
  unfold updateRoles
  rw [if_neg (by rw [asked]; decide),grantRole_eq,withdrawRole_eq]
  apply after_ran current
  apply After.bind
  apply after_changeRoles.mono
  intro result t first
  cases result with
  | error e =>
    intro changed refused
    cases refused
  | ok value =>
    obtain ⟨settled,forgets⟩ := first value rfl
    apply After.bind
    apply after_changeRoles.mono
    intro result u second
    cases result with
    | error e =>
      intro changed refused
      cases refused
    | ok value =>
      intro changed _
      obtain ⟨further,later⟩ := second value rfl
      obtain ⟨name,listed,there⟩ := found
      rcases List.mem_append.mp listed with added | removed
      · exact fun remembered => forgets service healthy ⟨name,added,there⟩ (further.cache userId remembered)
      · refine later service (settled.fault.trans healthy) ⟨name,removed,?_⟩
        rw [settled.roles]
        exact there

theorem after_afterDocument (service : runtime.authorization.accountState = true) (healthy : w.base.fault = none)
    (asked : (request.field "roles").isNone = false)
    (found : ∃ name ∈ addedNames caller userId (requestedRoles request) w.identity ++
      removedNames caller userId (requestedRoles request) w.identity, (roleNamed caller userId w.identity.roles name).isSome = true) :
    After i (afterDocument runtime caller request userId) w fun result t => ∀ response, result = .ok response →
      ¬ Remembered userId t.base := by
  unfold afterDocument
  apply After.bind
  apply (after_updateRoles service healthy asked found).mono
  intro result t forgets
  cases result with
  | error e =>
    intro response refused
    cases refused
  | ok changed =>
    have rest : Moves Advances (if boolean (request.field "isActive") = some false || (newPassword request).isSome || changed then
        identity (bumpTokenVersion (objectId userId)) >>= fun _ => listing else listing) := advances_last changed
    apply (rest i t).mono
    intro result u advanced response _ remembered
    exact forgets changed rfl (advanced.cache userId remembered)

theorem after_true {p : Program α} : After i p w fun _ _ => True := trivial

section
variable {id : String} {query : List (String × String)} {body : List (String × Json)} {response : Response} {n : Nat}

theorem patch_granted (ran : (patchUser runtime caller (patchRequest id query body) id).run i w = (.ok response,t))
    (success : response.success = true) : Granted runtime caller (patchRequest id query body) w := by
  cases fault : w.base.fault with
  | some e =>
    rw [run_patchUser_faulty runtime caller _ id i fault] at ran
    cases ran
  | none =>
    cases found : w.identity.users.find? (selected caller (objectId id)) with
    | none =>
      rw [run_patchUser_absent runtime _ i fault found] at ran
      cases ran
      cases success
    | some user =>
      cases free : (patchAt runtime (patchRequest id query body) w).sets &&
          Taken (objectId id) (patchAt runtime (patchRequest id query body) w) w with
      | true =>
        obtain ⟨base,refused⟩ := run_patchUser_taken runtime i fault found free
        rw [refused] at ran
        cases ran
      | false =>
        refine ⟨fault,by rw [found]; rfl,free,fun asked => ?_⟩
        cases unknown : (addedNames caller id (requestedRoles (patchRequest id query body)) w.identity).find? fun name =>
            roleNamed caller id w.identity.roles name = none with
        | none =>
          intro name listed
          have there := List.find?_eq_none.mp unknown name listed
          exact Option.isSome_iff_ne_none.mpr (by simpa using there)
        | some name =>
          obtain ⟨missing,before,rest,split,known⟩ := List.find?_eq_some_iff_append.mp unknown
          have earlier : ∀ other ∈ before,roleNamed caller id w.identity.roles other ≠ none := by
            intro other listed
            simpa using known other listed
          obtain ⟨base,still,patched⟩ := run_patchUser runtime i fault found free
          obtain ⟨later,stopped⟩ := run_updateRoles_unknown (w := (afterPatch (objectId id)
            (patchAt runtime (patchRequest id query body) w) w).rebase base) runtime (patchRequest id query body) i still asked split
              (fun other listed => Option.isSome_iff_ne_none.mpr (earlier other listed)) (of_decide_eq_true missing)
          rw [patched] at ran
          unfold afterDocument at ran
          rw [run_bind_error stopped] at ran
          cases ran

theorem takenRole_removed {role : RoleDoc} (taken : TakenRole caller request userId w role) :
    role.name ∈ removedNames caller userId (requestedRoles request) w.identity := by
  obtain ⟨found,held,gone⟩ := taken
  refine List.mem_filter.mpr ⟨List.mem_dedup.mpr (mem_roleNames.mpr ⟨role,(roleNamed_some found).1,held,rfl⟩),?_⟩
  simpa using gone

theorem patch_revokes (ran : (patchUser runtime caller (patchRequest id query body) id).run i w = (.ok response,t))
    (granted : Granted runtime caller (patchRequest id query body) w) (unique : (w.identity.users.map UserDoc.id).Nodup)
    (reached : Reaches (objectId id) n w.identity.users)
    (reverts : Reversions caller (patchRequest id query body) id w.identity = true) :
    Reaches (objectId id) (n + 1) t.identity.users ∧
      (Drops runtime caller (patchRequest id query body) w → ¬ Remembered id t.base) := by
  obtain ⟨healthy,present,free,known⟩ := granted
  obtain ⟨user,found⟩ := Option.isSome_iff_exists.mp present
  obtain ⟨base,still,patched⟩ := run_patchUser runtime i healthy found free
  obtain ⟨later,k,ended,raised⟩ := run_afterDocument (w := (afterPatch (objectId id)
    (patchAt runtime (patchRequest id query body) w) w).rebase base) runtime caller (patchRequest id query body) id i still known
  rw [patched] at ran
  constructor
  · rw [ended] at ran
    cases ran
    have edited : Onward w.identity.users (afterPatch (objectId id) (patchAt runtime (patchRequest id query body) w) w).identity.users :=
      onward_updateOne fun user => ⟨rfl,Nat.le_refl _⟩
    refine (reaches_bumps (edited.unique unique) (edited.reaches _ _ reached) k).least ?_
    have positive := raised reverts
    omega
  · intro drops
    obtain ⟨service,_,asked,there⟩ := drops
    have forgets := after_afterDocument (w := (afterPatch (objectId id) (patchAt runtime (patchRequest id query body) w) w).rebase base)
      (i := i) service still asked there
    exact forgets.returns ran response rfl

theorem delete_revokes (unique : (w.identity.users.map UserDoc.id).Nodup) (reached : Reaches (objectId id) n w.identity.users) :
    After i (deleteUser caller id) w fun result t => ∀ response, result = .ok response → response.success = true →
      (w.base.fault = none ∧ (w.identity.users.find? (selected caller (objectId id))).isSome = true) ∧
        Reaches (objectId id) (n + 1) t.identity.users := by
  unfold deleteUser
  apply After.bind
  apply after_op
  · intro value t healthy ran
    cases ran
    dsimp only
    cases found : w.identity.users.find? (selected caller (objectId id)) with
    | none =>
      intro response refused success
      cases refused
      cases success
    | some user =>
      have selected := (selected_iff caller).mp (List.find?_some found)
      have raised := reaches_updateOne (f := deactivate) unique reached found selected.1 rfl rfl
      apply After.bind
      apply after_op
      · intro value u _ ran
        cases ran
        exact fun _ _ _ => ⟨⟨healthy,rfl⟩,raised⟩
      · intro e response refused
        cases refused
  · intro e response refused
    cases refused

theorem remove_revokes {role : RoleDoc} (unique : (w.identity.users.map UserDoc.id).Nodup)
    (reached : Reaches (objectId (namedRole runtime caller request).userId) n w.identity.users)
    (found : w.identity.roles.find? (namedRole runtime caller request).selects = some role) :
    After i (removeRole runtime caller request) w fun result t => ∀ response, result = .ok response → response.success = true →
      (w.base.fault = none ∧ named runtime caller request = true) ∧
        Reaches (objectId (namedRole runtime caller request).userId) (n + 1) t.identity.users ∧
          (runtime.authorization.accountState = true → ¬ Remembered (namedRole runtime caller request).userId t.base) := by
  unfold removeRole
  split
  · next given =>
    apply After.bind
    apply After.zoom
    have removal : runtime.authorization.removeRole (namedRole runtime caller request)
        (objectId (namedRole runtime caller request).userId) = roleChange runtime.authorization (namedRole runtime caller request)
          (objectId (namedRole runtime caller request).userId) false := rfl
    have inner : identityLens.get w = w.identity := rfl
    unfold After
    rw [removal,inner]
    cases fault : w.base.fault with
    | some e =>
      rw [run_roleChange_refused fault]
      intro response refused
      cases refused
    | none =>
      rw [run_roleChange fault found]
      intro response _ _
      exact ⟨⟨rfl,given⟩,reaches_bump unique reached,fun service => forgotten_dropped service _⟩
  · intro response refused success
    cases refused
    cases success

theorem patchRole_granted : After i (patchRole caller request id) w fun result _ => ∀ response, result = .ok response →
    response.success = true → w.base.fault = none := by
  unfold patchRole
  split
  · intro response refused success
    cases refused
    cases success
  · apply After.bind
    apply after_op
    · intro value t healthy ran
      exact fun _ _ _ => healthy
    · intro e response refused
      cases refused

theorem deleteRole_granted : After i (deleteRole caller id) w fun result _ => ∀ response, result = .ok response →
    response.success = true → w.base.fault = none ∧
      ∀ role, w.identity.roles.find? (ownRole caller id) = some role → role.isSystem = false := by
  unfold deleteRole
  apply After.bind
  apply after_op
  · intro value t healthy ran
    cases ran
    dsimp only
    cases found : w.identity.roles.find? (ownRole caller id) with
    | none =>
      intro response refused success
      cases refused
      cases success
    | some role =>
      dsimp only
      cases system : role.isSystem with
      | true =>
        intro response refused success
        cases refused
        cases success
      | false =>
        have kept : ∀ other, some role = some other → other.isSystem = false := by
          intro other same
          cases same
          exact system
        exact after_true.mono fun _ _ _ _ _ _ => ⟨healthy,kept⟩
  · intro e response refused
    cases refused

end

theorem admin_answered {response : Response} (ran : (admin runtime caller request).run i w = (.ok response,t))
    (success : response.success = true) : (adminRoute runtime caller request).run i w = (.ok response,t) := by
  unfold admin handle at ran
  rw [run_bind,run_attempt] at ran
  cases ended : (adminRoute runtime caller request).run i w with
  | mk result u =>
    rw [ended] at ran
    cases result with
    | ok value =>
      cases ran
      rfl
    | error e =>
      cases ran
      rw [answerError_fails] at success
      cases success

theorem admin_revokes {response : Response} {token : AccessToken} (ran : (admin runtime caller request).run i w = (.ok response,t))
    (success : response.success = true) (unique : (w.identity.users.map UserDoc.id).Nodup) (minted : Minted token w)
    (takes : Takes runtime caller request w token) : Granted runtime caller request w ∧
      Reaches token.sub (token.tokenVersion.getD 0 + 1) t.identity.users ∧
        (Drops runtime caller request w → ¬ Remembered token.sub t.base) := by
  have routed := admin_answered ran success
  obtain ⟨method,path,query,body⟩ := request
  unfold Takes at takes
  split at takes
  · next id patching users =>
    cases patching
    cases users
    have patched : (patchUser runtime caller (patchRequest id query body) id).run i w = (.ok response,t) := routed
    have granted := patch_granted patched success
    rcases takes with ⟨named,cause⟩ | ⟨named,asked,role,taken,_⟩
    · have reverts : Reversions caller (patchRequest id query body) id w.identity = true := by
        unfold Reversions
        rcases cause with inactive | password
        · rw [decide_eq_true (show boolean ((patchRequest id query body).field "isActive") = some false from inactive)]
          rfl
        · rw [show (newPassword (patchRequest id query body)).isSome = true from password,Bool.or_true]
          rfl
      obtain ⟨raised,drops⟩ := patch_revokes patched granted unique (named ▸ minted.version) reverts
      rw [← named] at raised
      refine ⟨granted,raised,fun dropping => ?_⟩
      rw [named,dropping.2.1]
      exact drops dropping
    · have reverts : Reversions caller (patchRequest id query body) id w.identity = true := by
        have removed := List.isEmpty_eq_false_iff_exists_mem.mpr ⟨role.name,takenRole_removed taken⟩
        have given : ((patchRequest id query body).field "roles").isNone = false := asked
        unfold Reversions
        rw [given,show (removedNames caller id (requestedRoles (patchRequest id query body)) w.identity).isEmpty = false from removed]
        simp
      have printed : objectId id = token.sub := by rw [← named,minted.printed]
      obtain ⟨raised,drops⟩ := patch_revokes patched granted unique (printed ▸ minted.version) reverts
      rw [printed] at raised
      refine ⟨granted,raised,fun dropping => ?_⟩
      rw [named]
      exact drops dropping
  · next id deleting users =>
    cases deleting
    cases users
    have deleted : (deleteUser caller id).run i w = (.ok response,t) := routed
    obtain ⟨granted,raised⟩ := (delete_revokes unique (takes ▸ minted.version)).returns deleted response rfl success
    rw [← takes] at raised
    exact ⟨granted,raised,fun drops => drops.2.elim⟩
  · next posting roles =>
    cases posting
    cases roles
    obtain ⟨named,role,found,_⟩ := takes
    have removed : (removeRole runtime caller ⟨.post,["roles","remove"],query,body⟩).run i w = (.ok response,t) := routed
    have printed : objectId (namedRole runtime caller ⟨.post,["roles","remove"],query,body⟩).userId = token.sub := by
      rw [← named,minted.printed]
    obtain ⟨granted,raised,drops⟩ := (remove_revokes unique (printed ▸ minted.version) found).returns removed response rfl success
    rw [printed] at raised
    rw [← named] at drops
    exact ⟨granted,raised,fun dropping => drops dropping.1⟩
  · cases takes

theorem strips_granted {response : Response} {token : AccessToken} (ran : (admin runtime caller request).run i w = (.ok response,t))
    (success : response.success = true) (strips : Strips caller request w token) : Granted runtime caller request w := by
  have routed := admin_answered ran success
  obtain ⟨method,path,query,body⟩ := request
  unfold Strips at strips
  dsimp only at strips
  split at strips
  · have patched : (patchRole caller ⟨.patch,["roles",_],query,body⟩ _).run i w = (.ok response,t) := routed
    exact ⟨patchRole_granted.returns patched response rfl success,trivial⟩
  · have deleted : (deleteRole caller _).run i w = (.ok response,t) := routed
    exact deleteRole_granted.returns deleted response rfl success
  · cases strips

abbrev Run (runtime : Runtime) (s u : Watched) : Prop := Sequence (program runtime) Surroundings (fun _ _ => True) s u

-- The user has come past a version, and what is remembered of it was asked for by a
-- token of a later one.
structure Cut (userId : String) (version : Nat) (s : Watched) : Prop where
  unique : (s.world.identity.users.map UserDoc.id).Nodup
  raised : Reaches userId (version + 1) s.world.identity.users
  cached : Remembered userId s.world.base → version < s.asked userId

section
variable {version : Nat} {s u : Watched}

theorem ask_world (s : Watched) (token : AccessToken) : (s.ask token).world = s.world := by
  unfold Watched.ask
  split <;> rfl

theorem ask_known {token : AccessToken} (remembered : Remembered userId s.world.base) : (s.ask token).asked userId = s.asked userId := by
  unfold Watched.ask
  split
  · rfl
  · next unknown =>
    refine Function.update_of_ne ?_ _ _
    rintro rfl
    obtain ⟨state,hit,_⟩ := remembered
    rw [hit] at unknown
    exact unknown rfl

theorem ask_unknown {token : AccessToken} (unknown : known token.sub s.world.base = none) :
    (s.ask token).asked token.sub = token.tokenVersion.getD 0 := by
  unfold Watched.ask
  rw [unknown]
  exact Function.update_self _ _ _

theorem after_admin : After i (program runtime (.admin caller request)) s fun _ u => Advances s.world u.world ∧ u.asked = s.asked := by
  apply After.map
  apply After.zoom
  exact (advances_admin i s.world).mono fun _ _ advanced => ⟨advanced,rfl⟩

theorem after_visit {token : AccessToken} : After i (program runtime (.visit (some token))) s fun _ u =>
    Learns token.sub (token.tokenVersion.getD 0) s.world.identity u.world.identity ∧ u.asked = (s.ask token).asked := by
  apply After.bind
  apply After.atomic
  apply After.map
  apply After.zoom
  apply after_authenticate.mono
  intro result t after
  have learnt : Learns token.sub (token.tokenVersion.getD 0) (s.ask token).world.identity t.identity := after.1
  rw [ask_world] at learnt
  exact ⟨learnt,rfl⟩

theorem cut_call (cut : Cut userId version s) (i : CallId) (call : Call) : Cut userId version ((program runtime call).run i s).2 := by
  cases call with
  | admin caller request =>
    obtain ⟨advanced,asked⟩ := (after_admin : After i (program runtime (.admin caller request)) s _)
    refine ⟨advanced.users.unique cut.unique,advanced.users.reaches _ _ cut.raised,fun remembered => ?_⟩
    rw [asked]
    exact cut.cached (advanced.cache _ remembered)
  | visit presented =>
    cases presented with
    | none => exact cut
    | some token =>
      obtain ⟨⟨users,learnt⟩,asked⟩ := (after_visit : After i (program runtime (.visit (some token))) s _)
      refine ⟨users ▸ cut.unique,users ▸ cut.raised,fun remembered => ?_⟩
      rw [asked]
      rcases learnt userId remembered with before | ⟨rfl,unknown,stands⟩
      · rw [ask_known before]
        exact cut.cached before
      · rw [ask_unknown unknown]
        exact stands_bound cut.unique cut.raised stands

theorem recalls_tick {b : Base} {now : Nat} (later : b.now ≤ now) : Recalls b {b with now} := by
  intro userId remembered
  obtain ⟨state,hit,passes⟩ := remembered
  refine ⟨state,?_,passes⟩
  unfold known at hit ⊢
  cases read : b.cache.get now (.accountState userId) with
  | none =>
    simp only [read] at hit
    cases hit
  | some value =>
    simp only [read] at hit
    rw [Cache.get_earlier later read]
    exact hit

theorem run_cut (path : Run runtime s u) (cut : Cut userId version s) : Cut userId version u := by
  refine Sequence.invariant ?_ ?_ cut path
  · exact fun i call s cut _ => cut_call cut i call
  · intro s t cut moved
    cases moved with
    | tick later => exact ⟨cut.unique,cut.raised,fun remembered => cut.cached (recalls_tick later _ remembered)⟩
    | evict key => exact ⟨cut.unique,cut.raised,fun remembered => cut.cached (recalls_del _ key _ remembered)⟩

end

theorem revocation_immediate {w u : Watched} {s : World} {token : AccessToken} {response : Response}
    (unique : (w.world.identity.users.map UserDoc.id).Nodup)
    (met : Meets runtime w (.admin caller request)) (served : (admin runtime caller request).run i w.world = (.ok response,s))
    (success : response.success = true) (minted : Minted token w.world)
    (takes : Takes runtime caller request w.world token ∨ Strips caller request w.world token)
    (later : Run runtime {w with world := s} u) (visit : Meets runtime u (.visit (some token)))
    (j : CallId) (identity : IdentityContext) : ((authenticate runtime (some token)).run j u.world).1 ≠ .ok (some identity) := by
  intro attached
  have bare : Takes runtime caller request w.world token :=
    takes.resolve_right fun strips => (met (strips_granted served success strips) token minted).2 strips
  obtain ⟨granted,raised,drops⟩ := admin_revokes served success unique minted bare
  have advanced : Advances w.world s := advances_admin.returns served
  have forgot : ¬ Remembered token.sub s.base := by
    by_cases dropping : Drops runtime caller request w.world
    · exact drops dropping
    · exact fun remembered => (met granted token minted).1 bare dropping (advanced.cache _ remembered)
  have cut : Cut token.sub (token.tokenVersion.getD 0) {w with world := s} :=
    ⟨advanced.users.unique unique,raised,fun remembered => absurd remembered forgot⟩
  have still := run_cut later cut
  have admitted : After j (authenticate runtime (some token)) u.world _ := after_authenticate
  rcases admitted.2 identity attached minted.human with remembered | stands
  · have old := visit token rfl minted.human remembered
    have new := still.cached remembered
    omega
  · have new := stands_bound still.unique still.raised stands
    omega

def sampleToken : AccessToken where
  sub := "user"
  tenantId := "tenant"
  applicationId := "application"
  sessionId := "session"
  roles := []
  permissions := []
  authMethod := .password
  iss := "issuer"
  aud := "audience"
  iat := 0
  exp := 900
  jti := "jti"
  scope := none
  clientId := none
  tokenVersion := some 0

-- The token is presented, and again when what was remembered of its user has lapsed
-- and the user is deleted.
def watched : Watched := ⟨neighbours,fun _ => 0⟩

def visited : Watched := ((program sampleRuntime (.visit (some sampleToken))).run 0 watched).2

def lapsed : Watched := {visited with world := visited.world.rebase {visited.world.base with now := 31000}}

def afterDeletion (w : World) : World := ((admin sampleRuntime sampleCaller (deletion ["users","user"])).run 1 w).2

theorem sample_printed : objectId "user" = "user" := by decide

theorem run_visited : Run sampleRuntime watched visited := .single (.call 0 (Call.visit (some sampleToken)) trivial)

theorem sample_minted (s : Watched) (same : s.world.identity.users = neighbours.identity.users) : Minted sampleToken s.world := by
  refine ⟨rfl,sample_printed,sampleUser,?_,rfl,Nat.le_refl 0⟩
  rw [same]
  exact List.mem_singleton_self _

set_option maxRecDepth 4000 in
theorem revocation_immediate_deleted :
    ((authenticate sampleRuntime (some sampleToken)).run 2 (afterDeletion lapsed.world)).1 ≠ .ok (some (identityOf sampleToken)) := by
  have served : (admin sampleRuntime sampleCaller (deletion ["users","user"])).run 1 lapsed.world = (.ok ok,afterDeletion lapsed.world) := rfl
  have unknown : known "user" lapsed.world.base = none := by decide +kernel
  have still : known "user" (afterDeletion lapsed.world).base = none := by decide +kernel
  have met : Meets sampleRuntime lapsed (.admin sampleCaller (deletion ["users","user"])) := by
    intro _ token _
    refine ⟨fun takes _ remembered => ?_,fun strips => strips⟩
    have named : token.sub = "user" := takes.trans sample_printed
    obtain ⟨state,hit,_⟩ := remembered
    rw [named,unknown] at hit
    cases hit
  have takes : Takes sampleRuntime sampleCaller (deletion ["users","user"]) lapsed.world sampleToken := sample_printed.symm
  have visit : Meets sampleRuntime {lapsed with world := afterDeletion lapsed.world} (.visit (some sampleToken)) := by
    intro token same _ remembered
    cases same
    obtain ⟨state,hit,_⟩ := remembered
    rw [show sampleToken.sub = "user" from rfl,still] at hit
    cases hit
  exact revocation_immediate neighbours_indexed.users met served rfl (sample_minted lapsed rfl) (.inl takes) .refl visit 2 _

-- A deletion leaves what is remembered of the user.
set_option maxRecDepth 4000 in
theorem deleted_user_let_in : ∃ w s u response, Run sampleRuntime watched w ∧
    (admin sampleRuntime sampleCaller (deletion ["users","user"])).run 1 w.world = (.ok response,s) ∧ response.success = true ∧
      Minted sampleToken w.world ∧ Takes sampleRuntime sampleCaller (deletion ["users","user"]) w.world sampleToken ∧
        Run sampleRuntime {w with world := s} u ∧
          ((authenticate sampleRuntime (some sampleToken)).run 2 u.world).1 = .ok (some (identityOf sampleToken)) :=
  ⟨visited,afterDeletion visited.world,{visited with world := afterDeletion visited.world},ok,run_visited,rfl,rfl,
    sample_minted visited rfl,sample_printed.symm,.refl,rfl⟩

end Pezhwan.Server
