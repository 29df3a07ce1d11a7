import Pezhwan.Server.Foreign

-- The handlers that leave the documents of other tenants alone.
namespace Pezhwan.Server
open Atomic Prog Auth OAuth
variable {home : String} {runtime : Runtime} {caller : IdentityContext} {request : Request} {i : CallId} {w : World}

theorem kept_bind {p : Program α} {f : α → Program β} (first : p.Moves (Kept home)) (rest : ∀ value, (f value).Moves (Kept home)) :
    (p >>= f).Moves (Kept home) := Moves.bind first Kept.trans rest

theorem moves_listing : listing.Moves (Kept home) := by
  apply moves_op
  intro i s value t ran
  cases ran
  exact Kept.refl s

theorem moves_answer (response : Response) : (pure response : Program Response).Moves (Kept home) := Moves.pure Kept.refl response

theorem moves_createRole {role : RoleDoc} (own : role.tenantId = home) : (createRole runtime role).Moves (Kept home) := by
  apply moves_op
  intro i s value t ran
  dsimp only at ran
  split at ran
  · cases ran
  · cases ran
    have added : (s.identity.roles ++ [{role with id := runtime.fresh s}]).filter (fun role => role.tenantId ≠ home) =
        s.identity.roles.filter fun role => role.tenantId ≠ home := by
      rw [Collection.filter_append_iff]
      simp [own]
    exact kept_roles.mpr added

theorem moves_postRole : (postRole runtime caller request).Moves (Kept caller.tenantId) := by
  unfold postRole
  dsimp only
  split
  · exact moves_answer _
  · apply kept_bind (moves_createRole rfl).attempt
    intro result
    cases result with
    | ok value => exact moves_answer _
    | error e => exact moves_answer _

theorem moves_patchRole {roleId : String} : (patchRole caller request roleId).Moves (Kept caller.tenantId) := by
  unfold patchRole
  split
  · exact moves_answer _
  · apply kept_bind
    · apply moves_op
      intro i s value t ran
      cases ran
      apply kept_roles.mpr
      apply Collection.filter_updateOne_other
      · intro role listed own
        simp [(ownRole_parts own).2]
      · exact fun _ => rfl
    · exact fun found => moves_answer _

theorem kept_users {p : UserDoc → Bool} {f : UserDoc → UserDoc} : Kept home w (w.updateUser p f) ↔
    (Collection.updateOne p f w.identity.users).filter (fun user => user.tenantId ≠ home) =
      w.identity.users.filter (fun user => user.tenantId ≠ home) := by
  simp [Kept,foreign,World.updateUser,Auth.World.updateUser]

theorem moves_deleteUser {userId : String} : (deleteUser caller userId).Moves (Kept caller.tenantId) := by
  unfold deleteUser
  apply kept_bind
  · apply moves_op
    intro i s value t ran
    cases ran
    apply kept_users.mpr
    apply Collection.filter_updateOne_other
    · intro user listed chosen
      simp [((selected_iff caller).mp chosen).2]
    · exact fun _ => rfl
  · intro matched
    split
    · apply kept_bind
      · apply moves_op
        intro i s value t ran
        cases ran
        apply kept_sessions.mpr
        apply Collection.filter_updateMany_other
        · intro doc selected
          simp only [Bool.and_eq_true,decide_eq_true_eq] at selected
          simp [selected.1.2]
        · exact fun _ => rfl
      · exact fun _ => moves_answer _
    · exact moves_answer _

-- The same of the identity service alone.
def KeptIn (home : String) (u v : Auth.World) : Prop := ∀ w : World, Kept home {w with identity := u} {w with identity := v}

theorem KeptIn.refl (u : Auth.World) : KeptIn home u u := fun w => Kept.refl {w with identity := u}

theorem KeptIn.trans {u v x : Auth.World} (one : KeptIn home u v) (two : KeptIn home v x) : KeptIn home u x :=
  fun w => (one w).trans (two w)

theorem moves_identity {p : Auth.Program α} (moves : p.Moves (KeptIn home)) : (identity p).Moves (Kept home) :=
  Moves.zoom moves fun s _ kept => kept s

theorem keptIn_bind {p : Auth.Program α} {f : α → Auth.Program β} (first : p.Moves (KeptIn home))
    (rest : ∀ value, (f value).Moves (KeptIn home)) : (p >>= f).Moves (KeptIn home) := Moves.bind first KeptIn.trans rest

theorem keptIn_base (p : Prog CallId Base Error α) : (Auth.base p).Moves (KeptIn home) := by
  intro i v
  unfold After Auth.base
  rw [run_zoom]
  intro w
  simp [Kept,foreign,Auth.baseLens]

theorem keptIn_op {f : CallId → Auth.World → Except MongoError (α × Auth.World)}
    (served : ∀ i v value u, f i v = .ok (value,u) → KeptIn home v u) : (Auth.op f).Moves (KeptIn home) :=
  fun i v => after_mongo (fun value u _ ran => served i v value u ran) fun _ => KeptIn.refl v

theorem moves_registerClient {input : RegisterClientInput} (own : input.tenantId = home) :
    (identity (runtime.oauth.registerClient input)).Moves (Kept home) := by
  apply moves_identity
  unfold OAuthService.registerClient
  refine keptIn_bind (keptIn_base _) ?_
  intro suffix
  dsimp only
  refine keptIn_bind ?_ ?_
  · unfold OAuthService.clientSecretFor
    split
    · exact Moves.pure KeptIn.refl _
    · exact keptIn_base _
  · intro secret
    refine keptIn_bind ?_ fun _ => Moves.pure KeptIn.refl _
    apply keptIn_op
    intro i v value u ran
    dsimp only at ran
    split at ran
    · cases ran
    · cases ran
      intro w
      simp [Kept,foreign,note,own]

theorem moves_throw (e : Error) : (Prog.throw e : Program α).Moves (Kept home) := Moves.throw Kept.refl e

theorem moves_postClient : (postClient runtime caller request).Moves (Kept caller.tenantId) := by
  unfold postClient
  dsimp only
  split
  · exact moves_answer _
  · split
    · exact moves_throw _
    · exact kept_bind (moves_registerClient rfl) fun _ => moves_listing

theorem moves_postApiKey : (postApiKey runtime caller request).Moves (Kept caller.tenantId) := by
  unfold postApiKey
  dsimp only
  split
  · exact moves_answer _
  · refine kept_bind ?_ fun _ => moves_listing
    unfold createApiKey
    refine kept_bind (moves_rebased (rebased_base _) fun _ _ => rfl) ?_
    intro secret
    refine kept_bind ?_ fun _ => Moves.pure Kept.refl _
    apply moves_op
    intro i s value t ran
    dsimp only at ran
    split at ran
    · cases ran
    · cases ran
      apply kept_keys.mpr
      apply Collection.filter_append_iff.mpr
      simp

theorem moves_postTeam (tenant : runtime.auth.tenantId = home) : (postTeam runtime request).Moves (Kept home) := by
  unfold postTeam
  dsimp only
  split
  · exact moves_throw _
  · split
    · exact moves_throw _
    · refine kept_bind ?_ fun _ => Moves.pure Kept.refl _
      unfold createTeam
      apply kept_bind
      · apply moves_op
        intro i s value t ran
        cases ran
        exact Kept.refl s
      · intro organization
        split
        · exact moves_throw _
        · apply moves_op
          intro i s value t ran
          dsimp only at ran
          split at ran
          · cases ran
          · cases ran
            apply kept_teams.mpr
            apply Collection.filter_append_iff.mpr
            simp [tenant]

-- A checkout makes the subscription active that it has created.
theorem after_createSubscription {applicationId : Option String} {plan : String} {status : SubscriptionStatus} {s : World} :
    After i (createSubscription runtime (some home) applicationId plan status) s fun result t => Kept home s t ∧
      ∀ subscription, result = .ok subscription →
        ∀ other ∈ t.subscriptions, other.id = subscription.id → other.tenantId = some home := by
  unfold createSubscription
  split
  · apply After.throw
    refine ⟨Kept.refl s,?_⟩
    intro subscription failed
    cases failed
  · apply after_op
    · intro value t healthy ran
      dsimp only at ran
      split at ran
      · cases ran
      · next untaken =>
        cases ran
        constructor
        · apply kept_subscriptions.mpr
          apply Collection.filter_append_iff.mpr
          simp
        · intro subscription created other listed same
          cases created
          rcases List.mem_append.mp listed with earlier | new
          · exact absurd (List.any_eq_true.mpr ⟨other,earlier,decide_eq_true same⟩) untaken
          · rw [List.mem_singleton.mp new]
    · intro e
      refine ⟨Kept.refl s,?_⟩
      intro subscription failed
      cases failed

theorem after_updateStatus {subscriptionId : String} {status : SubscriptionStatus} {s : World}
    (own : ∀ other ∈ s.subscriptions, other.id = subscriptionId → other.tenantId = some home) :
    After i (updateStatus subscriptionId status) s fun _ t => Kept home s t := by
  apply after_op
  · intro value t healthy ran
    cases ran
    apply kept_subscriptions.mpr
    rw [Collection.filter_updateOne_iff]
    · intro other found abroad
      have named := List.find?_some (p := fun other : SubscriptionDoc => other.id = subscriptionId) found
      have here := own other (List.mem_of_find?_eq_some found) (of_decide_eq_true named)
      exact absurd here (of_decide_eq_true abroad)
    · exact fun _ => rfl
  · exact fun _ => Kept.refl s

theorem moves_checkout {applicationId plan : String} : (checkout runtime home applicationId plan).Moves (Kept home) := by
  intro i s
  unfold checkout
  apply After.bind
  apply after_createSubscription.mono
  intro result t after
  obtain ⟨kept,own⟩ := after
  cases result with
  | error e => exact kept
  | ok subscription =>
    apply After.bind
    apply (after_updateStatus (own subscription rfl)).mono
    intro result u further
    cases result with
    | error e => exact kept.trans further
    | ok value => exact kept.trans further

theorem moves_subscribe (tenant : runtime.auth.tenantId = home) : (subscribe runtime request).Moves (Kept home) := by
  unfold subscribe
  dsimp only
  split
  · rw [tenant]
    exact kept_bind moves_checkout fun _ => moves_answer _
  · exact moves_throw _

-- The users of this id are at home, and stay there.
def Owned (home userId : String) (w : World) : Prop := ∀ user ∈ w.identity.users, user.id = userId → user.tenantId = home

def KeptOwn (home userId : String) (s t : World) : Prop := Owned home userId s → Kept home s t ∧ Owned home userId t

theorem KeptOwn.refl {userId : String} (s : World) : KeptOwn home userId s s := fun own => ⟨Kept.refl s,own⟩

theorem KeptOwn.trans {userId : String} {s t u : World} (one : KeptOwn home userId s t) (two : KeptOwn home userId t u) :
    KeptOwn home userId s u := by
  intro own
  obtain ⟨kept,still⟩ := one own
  obtain ⟨further,last⟩ := two still
  exact ⟨kept.trans further,last⟩

theorem keptOwn_bind {userId : String} {p : Program α} {f : α → Program β} (first : p.Moves (KeptOwn home userId))
    (rest : ∀ value, (f value).Moves (KeptOwn home userId)) : (p >>= f).Moves (KeptOwn home userId) :=
  Moves.bind first KeptOwn.trans rest

theorem updateOne_owned {userId : String} {p : UserDoc → Bool} {f : UserDoc → UserDoc} {users : List UserDoc}
    (same : ∀ user, (f user).id = user.id ∧ (f user).tenantId = user.tenantId)
    (own : ∀ user ∈ users, user.id = userId → user.tenantId = home) :
    ∀ user ∈ Collection.updateOne p f users, user.id = userId → user.tenantId = home := by
  induction users with
  | nil => exact own
  | cons user rest ih =>
    have tail := fun other listed => own other (List.mem_cons_of_mem user listed)
    unfold Collection.updateOne
    split
    · intro other listed named
      rcases List.mem_cons.mp listed with changed | later
      · rw [changed,(same user).1] at named
        rw [changed,(same user).2]
        exact own user List.mem_cons_self named
      · exact tail other later named
    · intro other listed named
      rcases List.mem_cons.mp listed with here | later
      · exact own other (here ▸ List.mem_cons_self) named
      · exact ih tail other later named

theorem keptOwn_users {userId : String} {f : UserDoc → UserDoc} {s : World}
    (same : ∀ user, (f user).id = user.id ∧ (f user).tenantId = user.tenantId) :
    KeptOwn home userId s (s.updateUser (fun user => user.id = userId) f) := by
  intro own
  constructor
  · apply kept_users.mpr
    rw [Collection.filter_updateOne_iff]
    · intro user found abroad
      have named := List.find?_some (p := fun user : UserDoc => user.id = userId) found
      have here := own user (List.mem_of_find?_eq_some found) (of_decide_eq_true named)
      exact absurd here (of_decide_eq_true abroad)
    · intro user
      rw [(same user).2]
  · exact updateOne_owned same own

theorem keptOwn_same {userId : String} {s t : World} (kept : Kept home s t) (users : t.identity.users = s.identity.users) :
    KeptOwn home userId s t := by
  intro own
  unfold Owned
  rw [users]
  exact ⟨kept,own⟩

theorem keptOwn_op {userId : String} {f : CallId → World → Except MongoError (α × World)}
    (served : ∀ i s value t, f i s = .ok (value,t) → KeptOwn home userId s t) : (op f).Moves (KeptOwn home userId) :=
  fun i s => after_op (fun value t _ ran => served i s value t ran) fun _ => KeptOwn.refl s

theorem keptOwn_roleChange {authorization : AuthorizationService} {input : RoleInput} {account : String} {assigned : Bool}
    (tenant : input.tenantId = home) : (identity (roleChange authorization input account assigned)).Moves (KeptOwn home account) := by
  intro i s
  unfold After identity
  rw [run_zoom,show identityLens.get s = s.identity from rfl]
  cases fault : s.identity.base.fault with
  | some e =>
    rw [run_roleChange_refused fault]
    exact KeptOwn.refl s
  | none =>
    cases found : s.identity.roles.find? input.selects with
    | none =>
      rw [run_roleChange_unknown fault found]
      exact KeptOwn.refl s
    | some role =>
      rw [run_roleChange fault found]
      intro own
      obtain ⟨kept,still⟩ := keptOwn_users (f := fun user => {user with tokenVersion := user.tokenVersion + 1})
        (fun user => ⟨rfl,rfl⟩) own
      refine ⟨kept_parts.mpr ⟨kept_users.mp kept,?_⟩,still⟩
      apply changed_iff.mpr
      intro _
      simp [RoleInput.assignment,tenant]

theorem keptOwn_rebased {userId : String} (s : World) (base : Base) :
    KeptOwn home userId s {s with identity := {s.identity with base}} := keptOwn_same rfl rfl

theorem apply_same (patch : UserPatch) (user : UserDoc) :
    (patch.apply user).id = user.id ∧ (patch.apply user).tenantId = user.tenantId := ⟨rfl,rfl⟩

theorem keptOwn_setUser {userId : String} {patch : UserPatch} : (setUser userId patch).Moves (KeptOwn home userId) := by
  apply keptOwn_op
  intro i s value t ran
  dsimp only at ran
  split at ran
  · cases ran
  · cases ran
    exact keptOwn_users (apply_same patch)

theorem keptOwn_read {userId : String} {f : World → α} : (op fun _ w => .ok (f w,w)).Moves (KeptOwn home userId) := by
  apply keptOwn_op
  intro i s value t ran
  cases ran
  exact KeptOwn.refl s

theorem keptOwn_currentNames {userId account : String} : (currentNames caller userId).Moves (KeptOwn home account) := by
  unfold currentNames
  refine keptOwn_bind ?_ fun _ => Moves.pure KeptOwn.refl _
  refine moves_rebased ?_ keptOwn_rebased
  unfold getUserRoles
  refine Moves.bind rebased_read ?_ ?_
  · intro u v x first second
    obtain ⟨one,rfl⟩ := first
    obtain ⟨two,rfl⟩ := second
    exact ⟨two,rfl⟩
  · intro roleIds
    split
    · exact Moves.pure (fun u => ⟨u.base,rfl⟩) _
    · exact rebased_read

theorem keptOwn_grantRole {userId account roleName : String} :
    (grantRole runtime caller userId account roleName).Moves (KeptOwn caller.tenantId account) :=
  @keptOwn_roleChange _ runtime.authorization (roleInput caller userId roleName) account true rfl

theorem keptOwn_withdrawRole {userId account roleName : String} :
    (withdrawRole runtime caller userId account roleName).Moves (KeptOwn caller.tenantId account) :=
  @keptOwn_roleChange _ runtime.authorization (roleInput caller userId roleName) account false rfl

theorem keptOwn_updateRoles {userId : String} :
    (updateRoles runtime caller request userId).Moves (KeptOwn caller.tenantId (objectId userId)) := by
  unfold updateRoles
  split
  · exact Moves.pure KeptOwn.refl _
  · dsimp only
    refine keptOwn_bind keptOwn_currentNames ?_
    intro current
    refine keptOwn_bind (Moves.forEach KeptOwn.refl KeptOwn.trans (fun _ => keptOwn_grantRole) _) ?_
    intro _
    refine keptOwn_bind (Moves.forEach KeptOwn.refl KeptOwn.trans (fun _ => keptOwn_withdrawRole) _) ?_
    exact fun _ => Moves.pure KeptOwn.refl _

theorem keptOwn_bump {userId : String} : (identity (bumpTokenVersion userId)).Moves (KeptOwn home userId) := by
  intro i s
  apply After.zoom
  apply after_mongo
  · intro value u healthy ran
    cases ran
    exact keptOwn_users fun user => ⟨rfl,rfl⟩
  · exact fun _ => KeptOwn.refl s

-- The user found is at home, and so are all of its id.
theorem found_owned {userId : String} {user : UserDoc} (unique : (w.identity.users.map UserDoc.id).Nodup)
    (found : w.identity.users.find? (selected caller userId) = some user) : Owned caller.tenantId userId w := by
  have selected := (selected_iff caller).mp (List.find?_some found)
  intro other listed named
  have equal := List.inj_on_of_nodup_map unique listed (List.mem_of_find?_eq_some found) (named.trans selected.1.symm)
  rw [equal]
  exact selected.2

theorem owned_kept {userId : String} {p : Program α} (moves : p.Moves (KeptOwn home userId)) (own : Owned home userId w) :
    After i p w fun _ t => Kept home w t := (moves i w).mono fun _ _ kept => (kept own).1

theorem after_patchUser {userId : String} (unique : (w.identity.users.map UserDoc.id).Nodup) :
    After i (patchUser runtime caller request userId) w fun _ t => Kept caller.tenantId w t := by
  unfold patchUser
  apply After.bind
  apply after_op
  · intro value t healthy ran
    cases ran
    dsimp only
    cases found : w.identity.users.find? (selected caller (objectId userId)) with
    | none => exact Kept.refl w
    | some user =>
      apply owned_kept ?_ (found_owned unique found)
      refine keptOwn_bind (moves_hashPassword keptOwn_rebased) ?_
      intro passwordHash
      have last : ∀ changed : Bool, Moves (KeptOwn caller.tenantId (objectId userId)) (if boolean (request.field "isActive") = some false ||
          (newPassword request).isSome || changed then
            identity (bumpTokenVersion (objectId userId)) >>= fun _ => listing else listing) := by
        intro changed
        split
        · exact keptOwn_bind keptOwn_bump fun _ => keptOwn_read
        · exact keptOwn_read
      split
      · exact keptOwn_bind keptOwn_setUser fun _ => keptOwn_bind keptOwn_updateRoles last
      · exact keptOwn_bind keptOwn_updateRoles last
  · exact fun _ => Kept.refl w

-- The user that a request creates.
theorem after_createUser {doc : UserDoc} (own : doc.tenantId = home) :
    After i (identity (runtime.auth.createUser doc)) w fun result t => Kept home w t ∧
      ∀ user, result = .ok user → Owned home user.id t := by
  apply After.zoom
  apply after_mongo
  · intro value u healthy ran
    dsimp only at ran
    split at ran
    · cases ran
    · next untaken =>
      cases ran
      constructor
      · have added : (w.identity.users ++ [{doc with id := runtime.auth.platform.random.fresh w.base.draws.length}]).filter
            (fun user => user.tenantId ≠ home) = w.identity.users.filter fun user => user.tenantId ≠ home := by
          apply Collection.filter_append_iff.mpr
          simp [own]
        exact (@kept_parts home w _ _ _).mpr ⟨added,rfl⟩
      · intro user created other listed named
        cases created
        rcases List.mem_append.mp listed with earlier | new
        · refine absurd (List.any_eq_true.mpr ⟨other,earlier,?_⟩) untaken
          simp [AuthEngine.handleTaken,named]
        · rw [List.mem_singleton.mp new]
          exact own
  · intro e
    refine ⟨Kept.refl w,?_⟩
    intro user failed
    cases failed

theorem moves_addUser {email phone : String} {passwordHash : Option String} :
    (addUser runtime caller request email phone passwordHash).Moves (Kept caller.tenantId) := by
  intro i s
  unfold addUser
  apply After.bind
  apply (@after_createUser caller.tenantId runtime i s (newUser runtime caller request email phone passwordHash) rfl).mono
  intro result t after
  obtain ⟨kept,own⟩ := after
  cases result with
  | error e => exact kept
  | ok doc =>
    refine (owned_kept ?_ (own doc rfl)).mono fun _ _ further => kept.trans further
    refine keptOwn_bind (Moves.forEach KeptOwn.refl KeptOwn.trans ?_ _) fun _ => Moves.pure KeptOwn.refl _
    exact fun roleName => Moves.map keptOwn_grantRole.attempt

theorem moves_postUser : (postUser runtime caller request).Moves (Kept caller.tenantId) := by
  unfold postUser
  dsimp only
  split
  · exact moves_answer _
  · split
    · exact moves_answer _
    · refine kept_bind (moves_hashPassword fun _ _ => rfl) ?_
      intro passwordHash
      apply kept_bind moves_addUser.attempt
      intro result
      cases result with
      | ok response => exact moves_answer _
      | error e => exact moves_answer _

end Pezhwan.Server
