import Pezhwan.Atomic.Selection
import Pezhwan.Server.Served

-- The versions of the users and the standings that are remembered, and the
-- handlers that neither lower the ones nor add to the others.
namespace Pezhwan.Server
open Atomic Prog Auth OAuth
variable {runtime : Runtime} {caller : IdentityContext} {request : Request} {userId : String} {i : CallId}

-- Versions of the users: a document of this id has come to version n.
def Reaches (userId : String) (n : Nat) (users : List UserDoc) : Prop := ∃ user ∈ users, user.id = userId ∧ n ≤ user.tokenVersion

structure Onward (before after : List UserDoc) : Prop where
  unique : (before.map UserDoc.id).Nodup → (after.map UserDoc.id).Nodup
  reaches : ∀ userId n, Reaches userId n before → Reaches userId n after

theorem Onward.refl (users : List UserDoc) : Onward users users := ⟨id,fun _ _ => id⟩

theorem Onward.trans {one two three : List UserDoc} (first : Onward one two) (second : Onward two three) : Onward one three :=
  ⟨second.unique ∘ first.unique,fun userId n reached => second.reaches userId n (first.reaches userId n reached)⟩

theorem onward_updateOne {p : UserDoc → Bool} {f : UserDoc → UserDoc} {users : List UserDoc}
    (same : ∀ user, (f user).id = user.id ∧ user.tokenVersion ≤ (f user).tokenVersion) :
    Onward users (Collection.updateOne p f users) := by
  have ids : (Collection.updateOne p f users).map UserDoc.id = users.map UserDoc.id :=
    Collection.map_updateOne (fun user => (same user).1) users
  constructor
  · intro unique
    rw [ids]
    exact unique
  · intro userId n there
    obtain ⟨user,listed,named,reached⟩ := there
    rcases Collection.updateOne_carries (p := p) (f := f) listed with there | rewritten
    · exact ⟨user,there,named,reached⟩
    · exact ⟨f user,rewritten,(same user).1.trans named,Nat.le_trans reached (same user).2⟩

theorem onward_append {users : List UserDoc} {user : UserDoc} (new : ∀ other ∈ users, other.id ≠ user.id) :
    Onward users (users ++ [user]) := by
  constructor
  · intro unique
    rw [List.map_append]
    refine List.nodup_append.mpr ⟨unique,List.nodup_singleton _,?_⟩
    intro id listed other there
    obtain ⟨known,earlier,rfl⟩ := List.mem_map.mp listed
    rw [List.map_singleton,List.mem_singleton] at there
    rw [there]
    exact new known earlier
  · intro userId n there
    obtain ⟨other,listed,reached⟩ := there
    exact ⟨other,List.mem_append_left _ listed,reached⟩

-- What the cache remembers of an account.
def known (userId : String) (b : Base) : Option AccountState :=
  match b.cache.get b.now (.accountState userId) with
  | some (.account state) => some state
  | _ => none

def Remembered (userId : String) (b : Base) : Prop := ∃ state, known userId b = some state ∧ AccountState.passes state = true

def Recalls (b c : Base) : Prop := ∀ userId, Remembered userId c → Remembered userId b

theorem recalls_same {b c : Base} (now : c.now = b.now) (cache : c.cache = b.cache) : Recalls b c := by
  intro userId remembered
  unfold Remembered known at remembered ⊢
  rw [← now,← cache]
  exact remembered

theorem forgotten (b : Base) : ¬ Remembered userId {b with cache := b.cache.del (.accountState userId)} := by
  intro remembered
  obtain ⟨state,hit,_⟩ := remembered
  unfold known at hit
  rw [Cache.get_del] at hit
  cases hit

theorem recalls_del (b : Base) (key : CacheKey) : Recalls b {b with cache := b.cache.del key} := by
  intro userId remembered
  by_cases same : CacheKey.accountState userId = key
  · rw [← same] at remembered
    exact absurd remembered (forgotten b)
  · unfold Remembered known at remembered ⊢
    rw [Cache.get_del_ne _ _ same] at remembered
    exact remembered

-- What the handlers do to the users and to what is remembered of them.
structure Grows (u v : Auth.World) : Prop where
  users : Onward u.users v.users
  cache : Recalls u.base v.base

theorem Grows.refl (u : Auth.World) : Grows u u := ⟨Onward.refl _,fun _ => id⟩

theorem Grows.trans {u v x : Auth.World} (one : Grows u v) (two : Grows v x) : Grows u x :=
  ⟨one.users.trans two.users,fun userId remembered => one.cache userId (two.cache userId remembered)⟩

theorem grows_users {u : Auth.World} {users : List UserDoc} (onward : Onward u.users users) : Grows u {u with users} :=
  ⟨onward,fun _ => id⟩

def Advances (s t : World) : Prop := Grows s.identity t.identity

theorem Advances.refl (s : World) : Advances s s := Grows.refl _

theorem Advances.trans {s t u : World} (one : Advances s t) (two : Advances t u) : Advances s u := Grows.trans one two

-- A write that leaves both alone.
structure Aside (s t : World) : Prop where
  users : t.identity.users = s.identity.users
  now : t.base.now = s.base.now
  cache : t.base.cache = s.base.cache

theorem advances_same {s t : World} (aside : Aside s t) : Advances s t := by
  refine ⟨?_,recalls_same aside.now aside.cache⟩
  rw [aside.users]
  exact Onward.refl _

theorem advances_bind {p : Program α} {f : α → Program β} (first : p.Moves Advances) (rest : ∀ value, (f value).Moves Advances) :
    (p >>= f).Moves Advances := Moves.bind first Advances.trans rest

theorem advances_op {f : CallId → World → Except MongoError (α × World)}
    (served : ∀ i s value t, f i s = .ok (value,t) → Advances s t) : (op f).Moves Advances :=
  fun i s => after_op (fun value t _ ran => served i s value t ran) fun _ => Advances.refl s

theorem advances_read {f : World → α} : (op fun _ w => .ok (f w,w)).Moves Advances := by
  apply advances_op
  intro i s value t ran
  cases ran
  exact Advances.refl s

theorem advances_pure (value : α) : (pure value : Program α).Moves Advances := Moves.pure Advances.refl value

theorem advances_throw (e : Error) : (Prog.throw e : Program α).Moves Advances := Moves.throw Advances.refl e

theorem advances_caught {p : Program α} {f : Except Error α → Program β} (moves : p.Moves Advances)
    (rest : ∀ result, (f result).Moves Advances) : (p.attempt >>= f).Moves Advances := advances_bind moves.attempt rest

theorem grows_bind {p : Auth.Program α} {f : α → Auth.Program β} (first : p.Moves Grows) (rest : ∀ value, (f value).Moves Grows) :
    (p >>= f).Moves Grows := Moves.bind first Grows.trans rest

theorem advances_identity {p : Auth.Program α} (moves : p.Moves Grows) : (identity p).Moves Advances :=
  Moves.zoom moves fun _ _ grown => grown

theorem grows_op {f : CallId → Auth.World → Except MongoError (α × Auth.World)}
    (served : ∀ i v value u, f i v = .ok (value,u) → Grows v u) : (Auth.op f).Moves Grows :=
  fun i v => after_mongo (fun value u _ ran => served i v value u ran) fun _ => Grows.refl v

theorem grows_write {f : Auth.World → Auth.World} (grown : ∀ v, Grows v (f v)) : (Auth.write f).Moves Grows := by
  apply grows_op
  intro i v value u ran
  cases ran
  exact grown v

theorem grows_read {f : Auth.World → α} : (Auth.read f).Moves Grows := by
  apply grows_op
  intro i v value u ran
  cases ran
  exact Grows.refl v

theorem grows_base {p : Prog CallId Base Error α} (recalls : p.Moves Recalls) : (Auth.base p).Moves Grows :=
  Moves.zoom recalls fun u _ recalled => ⟨Onward.refl u.users,recalled⟩

theorem grows_draw {random : Random} : (Auth.base (draw random)).Moves Grows := grows_base fun _ _ _ => id

theorem grows_invalidate : (invalidate userId).Moves Grows := grows_base fun _ b => recalls_del b _

theorem grows_pure (value : α) : (pure value : Auth.Program α).Moves Grows := Moves.pure Grows.refl value

theorem grows_bump : (bumpTokenVersion userId).Moves Grows :=
  grows_write fun _ => grows_users (onward_updateOne fun user => ⟨rfl,Nat.le_succ user.tokenVersion⟩)

theorem grows_invalidateUserTokens {authorization : AuthorizationService} {account : String} :
    (authorization.invalidateUserTokens userId account).Moves Grows := by
  unfold AuthorizationService.invalidateUserTokens
  refine grows_bind grows_bump ?_
  intro _
  split
  · exact grows_invalidate
  · exact grows_pure _

theorem grows_assignRole {authorization : AuthorizationService} {input : RoleInput} {account : String} :
    (authorization.assignRole input account).Moves Grows := by
  unfold AuthorizationService.assignRole
  refine grows_bind grows_read ?_
  intro found
  cases found with
  | none => exact Moves.throw Grows.refl _
  | some role =>
    refine grows_bind (grows_write ?_) fun _ => grows_invalidateUserTokens
    intro v
    split
    · exact Grows.refl v
    · exact ⟨Onward.refl _,recalls_same rfl rfl⟩

theorem grows_removeRole {authorization : AuthorizationService} {input : RoleInput} {account : String} :
    (authorization.removeRole input account).Moves Grows := by
  unfold AuthorizationService.removeRole
  refine grows_bind grows_read ?_
  intro found
  cases found with
  | none => exact grows_pure _
  | some role => exact grows_bind (grows_write fun _ => ⟨Onward.refl _,recalls_same rfl rfl⟩) fun _ => grows_invalidateUserTokens

theorem grows_createUser {engine : AuthEngine} {doc : UserDoc} : (engine.createUser doc).Moves Grows := by
  apply grows_op
  intro i v value u ran
  dsimp only at ran
  split at ran
  · cases ran
  · next untaken =>
    cases ran
    refine ⟨onward_append ?_,recalls_same rfl rfl⟩
    intro other listed same
    refine absurd (List.any_eq_true.mpr ⟨other,listed,?_⟩) untaken
    simp [AuthEngine.handleTaken,same]

theorem grows_registerClient {service : OAuthService} {input : RegisterClientInput} : (service.registerClient input).Moves Grows := by
  unfold OAuthService.registerClient
  refine grows_bind grows_draw ?_
  intro suffix
  refine grows_bind ?_ ?_
  · unfold OAuthService.clientSecretFor
    split
    · exact grows_pure _
    · exact grows_draw
  · intro secret
    refine grows_bind (grows_op ?_) fun _ => grows_pure _
    intro i v value u ran
    dsimp only at ran
    split at ran
    · cases ran
    · cases ran
      exact ⟨Onward.refl _,recalls_same rfl rfl⟩

theorem advances_hashPassword {password : String} : (hashPassword runtime password).Moves Advances := by
  unfold hashPassword
  split
  · exact (advances_identity (grows_bind grows_draw fun _ => grows_pure _)).map
  · exact advances_pure _

theorem advances_updateUser {p : UserDoc → Bool} {f : UserDoc → UserDoc} {s : World}
    (same : ∀ user, (f user).id = user.id ∧ user.tokenVersion ≤ (f user).tokenVersion) : Advances s (s.updateUser p f) :=
  grows_users (onward_updateOne same)

theorem advances_grantRole {account name : String} : (grantRole runtime caller userId account name).Moves Advances :=
  advances_identity grows_assignRole

theorem advances_withdrawRole {account name : String} : (withdrawRole runtime caller userId account name).Moves Advances :=
  advances_identity grows_removeRole

theorem advances_postUser : (postUser runtime caller request).Moves Advances := by
  unfold postUser
  dsimp only
  split
  · exact advances_pure _
  · split
    · exact advances_pure _
    · refine advances_bind advances_hashPassword ?_
      intro passwordHash
      refine advances_caught ?_ ?_
      · unfold addUser
        refine advances_bind (advances_identity grows_createUser) ?_
        intro doc
        refine advances_bind (Moves.forEach Advances.refl Advances.trans ?_ _) fun _ => advances_pure _
        exact fun name => advances_grantRole.attempt.map
      · intro result
        cases result <;> exact advances_pure _

theorem advances_setUser {patch : UserPatch} : (setUser userId patch).Moves Advances := by
  apply advances_op
  intro i s value t ran
  dsimp only at ran
  split at ran
  · cases ran
  · cases ran
    exact advances_updateUser fun user => ⟨rfl,Nat.le_refl _⟩

theorem grows_getUserRoles {tenantId applicationId : String} : (getUserRoles userId tenantId applicationId).Moves Grows := by
  unfold getUserRoles
  refine grows_bind grows_read ?_
  intro roleIds
  split
  · exact grows_pure _
  · exact grows_read

theorem advances_updateRoles : (updateRoles runtime caller request userId).Moves Advances := by
  unfold updateRoles
  split
  · exact advances_pure _
  · dsimp only
    refine advances_bind (advances_bind (advances_identity grows_getUserRoles) fun _ => advances_pure _) ?_
    intro current
    refine advances_bind (Moves.forEach Advances.refl Advances.trans (fun _ => advances_grantRole) _) ?_
    intro _
    refine advances_bind (Moves.forEach Advances.refl Advances.trans (fun _ => advances_withdrawRole) _) ?_
    exact fun _ => advances_pure _

theorem advances_last (changed : Bool) : Moves Advances (if boolean (request.field "isActive") = some false ||
    (newPassword request).isSome || changed then identity (bumpTokenVersion (objectId userId)) >>= fun _ => listing else listing) := by
  split
  · exact advances_bind (advances_identity grows_bump) fun _ => advances_read
  · exact advances_read

theorem advances_patchUser : (patchUser runtime caller request userId).Moves Advances := by
  unfold patchUser
  refine advances_bind advances_read ?_
  intro found
  cases found with
  | none => exact advances_pure _
  | some user =>
    refine advances_bind advances_hashPassword ?_
    intro passwordHash
    dsimp only
    split
    · exact advances_bind advances_setUser fun _ => advances_bind advances_updateRoles advances_last
    · exact advances_bind advances_updateRoles advances_last

theorem advances_deleteUser : (deleteUser caller userId).Moves Advances := by
  unfold deleteUser
  refine advances_bind (advances_op ?_) ?_
  · intro i s value t ran
    cases ran
    exact advances_updateUser fun user => ⟨rfl,Nat.le_succ _⟩
  · intro matched
    split
    · refine advances_bind (advances_op ?_) fun _ => advances_pure _
      intro i s value t ran
      cases ran
      exact advances_same ⟨rfl,rfl,rfl⟩
    · exact advances_pure _

theorem advances_write {f : World → α} {g : World → World} (aside : ∀ s, Aside s (g s)) :
    (op fun _ w => .ok (f w,g w)).Moves Advances := by
  apply advances_op
  intro i s value t ran
  cases ran
  exact advances_same (aside s)

theorem advances_insert {cond : CallId → World → Bool} {e : MongoError} {f : CallId → World → α} {g : CallId → World → World}
    (aside : ∀ i s, Aside s (g i s)) :
    (op fun i w => if cond i w then .error e else .ok (f i w,g i w)).Moves Advances := by
  apply advances_op
  intro i s value t ran
  split at ran
  · cases ran
  · cases ran
    exact advances_same (aside i s)

theorem advances_postRole : (postRole runtime caller request).Moves Advances := by
  unfold postRole
  dsimp only
  split
  · exact advances_pure _
  · refine advances_caught (advances_insert fun _ _ => ⟨rfl,rfl,rfl⟩) ?_
    intro result
    cases result <;> exact advances_pure _

theorem advances_patchRole {roleId : String} : (patchRole caller request roleId).Moves Advances := by
  unfold patchRole
  split
  · exact advances_pure _
  · exact advances_bind (advances_write fun _ => ⟨rfl,rfl,rfl⟩) fun _ => advances_pure _

theorem advances_deleteRole {roleId : String} : (deleteRole caller roleId).Moves Advances := by
  unfold deleteRole
  refine advances_bind advances_read ?_
  intro found
  cases found with
  | none => exact advances_pure _
  | some role =>
    dsimp only
    split
    · exact advances_pure _
    · refine advances_bind (advances_write fun _ => ⟨rfl,rfl,rfl⟩) ?_
      intro _
      exact advances_bind (advances_write fun _ => ⟨rfl,rfl,rfl⟩) fun _ => advances_pure _

theorem advances_postClient : (postClient runtime caller request).Moves Advances := by
  unfold postClient
  dsimp only
  split
  · exact advances_pure _
  · split
    · exact advances_throw _
    · exact advances_bind (advances_identity grows_registerClient) fun _ => advances_read

theorem advances_updateClient {clientId : String} {f : OAuthClientDoc → OAuthClientDoc} : (updateClient clientId f).Moves Advances :=
  advances_bind (advances_write fun _ => ⟨rfl,rfl,rfl⟩) fun _ => advances_pure _

theorem advances_postApiKey : (postApiKey runtime caller request).Moves Advances := by
  unfold postApiKey
  dsimp only
  split
  · exact advances_pure _
  · refine advances_bind ?_ fun _ => advances_read
    unfold createApiKey
    refine advances_bind (advances_identity grows_draw) ?_
    intro secret
    exact advances_bind (advances_insert fun _ _ => ⟨rfl,rfl,rfl⟩) fun _ => advances_pure _

theorem advances_admin : (admin runtime caller request).Moves Advances := by
  unfold admin handle
  refine advances_caught ?_ ?_
  · unfold adminRoute
    split
    · exact advances_postUser
    · exact advances_patchUser
    · exact advances_deleteUser
    · exact advances_postRole
    · exact advances_patchRole
    · exact advances_deleteRole
    · unfold assignRole
      split
      · exact advances_bind (advances_identity grows_assignRole) fun _ => advances_pure _
      · exact advances_pure _
    · unfold removeRole
      split
      · exact advances_bind (advances_identity grows_removeRole) fun _ => advances_pure _
      · exact advances_pure _
    · exact advances_read
    · exact advances_postClient
    · exact advances_updateClient
    · unfold patchClient
      split
      · exact advances_updateClient
      · exact advances_pure _
    · exact advances_bind (advances_write fun _ => ⟨rfl,rfl,rfl⟩) fun _ => advances_pure _
    · exact advances_postApiKey
    · exact advances_bind (advances_write fun _ => ⟨rfl,rfl,rfl⟩) fun _ => advances_pure _
    · unfold postWebhook
      split
      · exact advances_pure _
      · exact advances_read
    · exact advances_read
    · unfold patchSettings
      split
      · exact advances_read
      · exact advances_pure _
    · refine advances_bind advances_read ?_
      intro found
      cases found with
      | none => exact advances_pure _
      | some user => exact advances_read
    · split
      · exact advances_read
      · exact advances_pure _
    · exact advances_pure _
  · intro result
    cases result <;> exact advances_pure _

end Pezhwan.Server
