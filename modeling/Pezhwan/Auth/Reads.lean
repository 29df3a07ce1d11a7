import Pezhwan.Auth.Parts
import Pezhwan.Auth.Watch

-- Role changes among the logins and refreshes of the users.
namespace Pezhwan.Auth
open Atomic Prog

inductive RoleCall where
  | removeRole (input : RoleInput)
  | assignRole (input : RoleInput)
  | loginPassword (input : AuthEngine.LoginInput)
  | loginOtp (input : AuthEngine.LoginOtpInput)
  | verifyMfaLogin (input : AuthEngine.VerifyMfaInput)
  | refreshSession (presentedRefreshToken : String) (device : DeviceInfo)

def RoleCall.isRefresh : RoleCall → Bool
  | .refreshSession _ _ => true
  | _ => false

def roleProgram (engine : AuthEngine) (authorization : AuthorizationService) : RoleCall → Program (Option Reply)
  | .removeRole input => (fun _ => none) <$> authorization.removeRole input
  | .assignRole input => (fun _ => none) <$> authorization.assignRole input
  | .loginPassword input => (fun result => some result.reply) <$> engine.loginPassword input
  | .loginOtp input => (fun result => some result.reply) <$> engine.loginOtp input
  | .verifyMfaLogin input => (fun result => some (.issued (some result.1) result.2)) <$> engine.verifyMfaLogin input
  | .refreshSession token device => (fun tokens => some (.issued none tokens)) <$> engine.refreshSession token device

abbrev RoleMoves := List (World × World)

def versionOf (userId : String) (w : World) : Option Nat := seen UserDoc.tokenVersion userId w

-- The user has the role.
def Assigned (input : RoleInput) (w : World) : Prop :=
  ∃ role ∈ w.roles, input.selects role = true ∧ input.assignment role ∈ w.assignments

instance (input : RoleInput) (w : World) : Decidable (Assigned input w) :=
  inferInstanceAs (Decidable (∃ role ∈ w.roles, input.selects role = true ∧ input.assignment role ∈ w.assignments))

-- The unique indexes of the collections; an assignment is of a role of its own
-- tenant and application.
structure Orderly (w : World) : Prop where
  users : Unique w
  assignments : w.assignments.Nodup
  roleIds : (w.roles.map RoleDoc.id).Nodup
  names : ∀ role ∈ w.roles, ∀ role' ∈ w.roles, role.tenantId = role'.tenantId → role.applicationId = role'.applicationId →
    role.name = role'.name → role = role'
  proper : ∀ assignment ∈ w.assignments, ∀ role ∈ w.roles, role.id = assignment.roleId →
    role.tenantId = assignment.tenantId ∧ role.applicationId = assignment.applicationId

def Settled (roles : List RoleDoc) (w : World) : Prop := Orderly w ∧ w.roles = roles

-- The surroundings: versions are only raised, roles stay what they are, and
-- assignments may go.
structure Around (s t : World) : Prop where
  users : Unique s → Unique t
  versions : ∀ userId version, versionOf userId s = some version →
    ∃ later, versionOf userId t = some later ∧ version ≤ later
  roles : t.roles = s.roles
  assignments : t.assignments.Sublist s.assignments

def Granted (s t : World) : Prop := t.roles = s.roles ∧ t.assignments = s.assignments

theorem granted_parts : Tolerates Granted :=
  ⟨fun _ => ⟨rfl,rfl⟩,fun _ _ _ => ⟨rfl,rfl⟩,fun _ _ => ⟨rfl,rfl⟩,fun _ _ _ _ => ⟨rfl,rfl⟩,fun _ _ => ⟨rfl,rfl⟩,
    fun _ _ => ⟨rfl,rfl⟩,fun _ _ => ⟨rfl,rfl⟩⟩

theorem granted_session (p : Session.Program α) : (session p).Keeps Granted := (Keeps.any p).zoom fun _ _ _ => ⟨rfl,rfl⟩

-- Neither the roles nor the versions are touched.
def Mild (s t : World) : Prop := Granted s t ∧ Steady UserDoc.tokenVersion s t

theorem mild_refl (w : World) : Mild w w := ⟨⟨rfl,rfl⟩,steady_untouched (untouched_refl w)⟩

theorem calm_steady (calm : Calm s t) : Steady UserDoc.tokenVersion s t := by
  refine ⟨calm.2.1,fun userId => ?_⟩
  have versions := congrArg (Option.map fun account : Bool × Nat × Bool × String => account.2.1) (calm.2.2 userId)
  simpa [standing,seen,Function.comp_def] using versions

theorem mild_both {p : Program α} (calm : p.Keeps Calm) (granted : p.Keeps Granted) : p.Keeps Mild :=
  (calm.and granted).mono fun moved => ⟨moved.2,calm_steady moved.1⟩

-- A move of a role change or of another call.
inductive Moved (call : RoleCall) (memory : RoleMoves) (s t : World) : Prop where
  | mild (same : Mild s t)
  | removed (input : RoleInput) (role : RoleDoc) (own : call = .removeRole input) (selected : input.selects role = true)
    (present : role ∈ s.roles) (second : memory.length = 1)
    (done : t = {s with assignments := s.assignments.erase (input.assignment role)})
  | added (input : RoleInput) (role : RoleDoc) (own : call = .assignRole input) (selected : input.selects role = true)
    (present : role ∈ s.roles) (done : t = if input.assignment role ∈ s.assignments then s
      else {s with assignments := s.assignments ++ [input.assignment role]})
  | bumped (userId : String) (done : t = s.updateUser (fun user => user.id = userId)
      fun user => {user with tokenVersion := user.tokenVersion + 1})

-- The removal has deleted the assignment and then raised the version.
def Removed (input : RoleInput) (moves : RoleMoves) : Prop :=
  (∃ w, moves = [(w,w)] ∧ ∀ role ∈ w.roles, input.selects role = false) ∨
    ∃ newer w w' s role, moves = newer ++ [(w,w.updateUser (fun user => user.id = input.userId)
        fun user => {user with tokenVersion := user.tokenVersion + 1}),
      (w',{w' with assignments := w'.assignments.erase (input.assignment role)}),(s,s)] ∧
      role ∈ s.roles ∧ input.selects role = true

-- Every role named was assigned when the assignments were read.
def Names (a : World) (subject tenantId applicationId : String) (roles : List String) (mid : RoleMoves) : Prop :=
  ∀ name ∈ roles, ∃ move ∈ mid, ∃ role ∈ move.1.roles, role.name = name ∧
    ∃ assignment ∈ a.assignments, assignment.userId = subject ∧ assignment.tenantId = tenantId ∧
      assignment.applicationId = applicationId ∧ assignment.roleId = role.id

-- The version was read before the assignments.
def LoggedIn (token : AccessToken) (moves : RoleMoves) : Prop :=
  ∃ newer a between b older, moves = newer ++ (a,a) :: between ++ (b,b) :: older ∧
    Names a token.sub token.tenantId token.applicationId token.roles newer ∧
    token.tokenVersion = versionOf token.sub b

def Idle (moves : RoleMoves) : Prop := ∀ move ∈ moves, move.2 = move.1

-- The assignments were read before the version; two moves come after that.
def Refreshed (token : AccessToken) (moves : RoleMoves) : Prop :=
  ∃ drawn clock b between a older, moves = drawn :: clock :: (b,b) :: between ++ (a,a) :: older ∧ Idle between ∧
    Names a token.sub token.tenantId token.applicationId token.roles between ∧
    (token.tokenVersion = versionOf token.sub b ∨ token.tokenVersion = some 0)

def Replied (call : RoleCall) (result : Except Error (Option Reply)) (moves : RoleMoves) : Prop :=
  (∀ input, call = .removeRole input → ∀ reply, result = .ok reply → Removed input moves) ∧
    ∀ user tokens, result = .ok (some (.issued user tokens)) →
      if call.isRefresh then Refreshed tokens.accessToken moves else LoggedIn tokens.accessToken moves

-- When the calls read what goes into a token.
section
variable {inv : World → Prop} {rule : RoleMoves → World → World → Prop} {memory : RoleMoves}

theorem idle_cons (idle : Idle moves) (w : World) : Idle ((w,w) :: moves) := by
  intro move listed
  rcases List.mem_cons.mp listed with rfl | older
  · rfl
  · exact idle move older

theorem idle_append (newer : Idle moves) (older : Idle moves') : Idle (moves ++ moves') := by
  intro move listed
  rcases List.mem_append.mp listed with first | second
  · exact newer move first
  · exact older move second

theorem still_read (f : World → α) : (read f).Keeps fun s t => t = s :=
  keeps_reading (r := fun s t => t = s) (fun _ => rfl) f

theorem idle_nil : Idle [] := by
  intro move listed
  cases listed

theorem idle_keeps {p : Program α} {post : Except Error α → RoleMoves → Prop} (still : ∀ moves w, rule moves w w)
    (keeps : p.Keeps fun s t => t = s) (ended : ∀ result more, Idle more → post result (more ++ memory)) :
    p.Acts inv i rule memory post := by
  apply Acts.keeps keeps (Yields.any p)
  · intro moves s t same
    subst same
    exact still _ _
  · exact fun moves same => ⟨fun e => ended _ moves same,fun value _ => ended _ moves same⟩

theorem idle_getUserRoles (userId tenantId applicationId : String) :
    (getUserRoles userId tenantId applicationId).Keeps fun s t => t = s := by
  apply Keeps.bind (still_read _)
  intro roleIds
  split
  · exact Keeps.pure _
  · exact still_read _

theorem idle_getUserPermissions (userId tenantId applicationId : String) :
    (getUserPermissions userId tenantId applicationId).Keeps fun s t => t = s := by
  apply Keeps.bind (idle_getUserRoles _ _ _)
  intro roles
  dsimp only
  split
  · exact Keeps.pure _
  · exact still_read _

theorem acts_buildIdentityContext {post : Except Error IdentityContext → RoleMoves → Prop} (still : ∀ moves w, rule moves w w)
    (userId tenantId applicationId sessionId : String) (authMethod : AuthMethod)
    (failed : ∀ e moves, post (.error e) moves)
    (ended : ∀ identity mid a, Idle mid → identity.userId = userId → identity.tenantId = tenantId →
      identity.applicationId = applicationId → Names a userId tenantId applicationId identity.roles mid →
      post (.ok identity) (mid ++ (a,a) :: memory)) :
    (buildIdentityContext userId tenantId applicationId sessionId authMethod).Acts inv i rule memory post := by
  refine Acts.bind (Acts.bind (acts_read (fun a _ _ => ⟨still _ _,?_⟩) fun a e _ _ => ⟨still _ _,failed _ _⟩))
  dsimp only
  split
  · refine Acts.bind (idle_keeps still (idle_getUserPermissions _ _ _) fun result more idle => ?_)
    cases result with
    | error e => exact failed _ _
    | ok permissions => exact ended _ more a idle rfl rfl rfl fun name listed => nomatch listed
  · refine acts_read (fun w _ _ => ⟨still _ _,?_⟩) fun w e _ _ => ⟨still _ _,failed _ _⟩
    refine Acts.bind (idle_keeps still (idle_getUserPermissions _ _ _) fun result more idle => ?_)
    cases result with
    | error e => exact failed _ _
    | ok permissions =>
      have whole : more ++ (w,w) :: (a,a) :: memory = (more ++ [(w,w)]) ++ (a,a) :: memory := by simp
      rw [whole]
      refine ended _ _ a (idle_append idle (idle_cons idle_nil w)) rfl rfl rfl ?_
      intro name listed
      obtain ⟨role,chosen,rfl⟩ := List.mem_map.mp listed
      obtain ⟨present,given⟩ := List.mem_filter.mp chosen
      refine ⟨(w,w),by simp,role,present,rfl,?_⟩
      simp only [List.contains_iff_mem,List.mem_map,List.mem_filter,Bool.and_eq_true,decide_eq_true_eq] at given
      obtain ⟨assignment,⟨held,⟨user,tenant⟩,application⟩,same⟩ := given
      exact ⟨assignment,held,user,tenant,application,same⟩

theorem Names.more (names : Names a subject tenantId applicationId roles mid) (newer : RoleMoves) :
    Names a subject tenantId applicationId roles (newer ++ mid) := by
  intro name listed
  obtain ⟨move,present,rest⟩ := names name listed
  exact ⟨move,List.mem_append_right _ present,rest⟩

theorem signAccessToken_claims (platform : Platform) (service : TokenService) (context : IdentityContext)
    (scope clientId : Option String) (tokenVersion : Option Nat) :
    (signAccessToken platform service context scope clientId tokenVersion).Yields fun token =>
      token.sub = context.userId ∧ token.tenantId = context.tenantId ∧ token.applicationId = context.applicationId ∧
        token.roles = context.roles ∧ token.tokenVersion = tokenVersion :=
  Yields.bind (Yields.any _) fun _ _ => Yields.bind (Yields.any _) fun _ _ => ⟨rfl,rfl,rfl,rfl,rfl⟩

theorem mild_signAccessToken (platform : Platform) (service : TokenService) (context : IdentityContext)
    (scope clientId : Option String) (tokenVersion : Option Nat) :
    (signAccessToken platform service context scope clientId tokenVersion).Keeps Mild :=
  mild_both (keeps_signAccessToken _ _ _ _ _ _) (kept_signAccessToken granted_parts _ _ _ _ _ _)

-- The account was read with this version.
def Looked (userId : String) (version : Nat) (moves : RoleMoves) : Prop :=
  ∃ newer b older, moves = newer ++ (b,b) :: older ∧ versionOf userId b = some version

theorem Looked.more (looked : Looked userId version moves) (newer : RoleMoves) : Looked userId version (newer ++ moves) := by
  obtain ⟨middle,b,older,rfl,known⟩ := looked
  exact ⟨newer ++ middle,b,older,by rw [List.append_assoc],known⟩

theorem looked_now (unique : Unique w) (present : user ∈ w.users) : Looked user.id user.tokenVersion ((w,w) :: memory) :=
  ⟨[],w,memory,rfl,by simp only [versionOf,seen,userById_stored unique present,Option.map_some]⟩

-- The tokens that a call answers.
def Issues (issued : α → Option IssuedTokens) (result : Except Error α) (moves : RoleMoves) : Prop :=
  ∀ value tokens, result = .ok value → issued value = some tokens → LoggedIn tokens.accessToken moves

theorem issues_error {issued : α → Option IssuedTokens} (e : Error) (moves : RoleMoves) : Issues issued (.error e) moves := by
  intro value tokens same
  cases same

variable (mild : ∀ moves s t, Mild s t → rule moves s t)
include mild

theorem acts_mild {p : Program α} {post : Except Error α → RoleMoves → Prop} (keeps : p.Keeps Mild)
    (ended : ∀ result more, post result (more ++ memory)) : p.Acts inv i rule memory post :=
  Acts.keeps keeps (Yields.any p) (fun moves s t => mild (moves ++ memory) s t) fun moves _ =>
    ⟨fun _ => ended _ moves,fun _ _ => ended _ moves⟩

theorem mild_still (moves : List (World × World)) (w : World) : rule moves w w := mild moves w w (mild_refl w)

theorem acts_issued {engine : AuthEngine} {issued : α → Option IssuedTokens} (finish : IssuedTokens → α)
    (own : ∀ tokens, issued (finish tokens) = some tokens) (owner tenantId application : String) (device : DeviceInfo)
    (authMethod : AuthMethod) (looked : Looked userId version memory) :
    (do
      let created ← engine.openSession owner tenantId application device
      let tokens ← engine.mintTokens userId version created application authMethod
      pure (finish tokens)).Acts inv i rule memory (Issues issued) := by
  have still := mild_still mild
  refine Acts.bind (acts_mild mild (mild_both (keeps_openSession _ _ _ _ _) (granted_session _)) fun result opened => ?_)
  cases result with
  | error e => exact issues_error e _
  | ok created =>
    refine Acts.bind (Acts.bind (acts_buildIdentityContext still _ _ _ _ _ (fun e moves => issues_error e moves) ?_))
    intro identity mid a _ user tenant app names
    refine Acts.bind (Acts.keeps (mild_signAccessToken _ _ _ _ _ _) (signAccessToken_claims _ _ _ _ _ _)
      (fun moves s t => mild (moves ++ _) s t) fun moves _ => ⟨fun e => issues_error e _,?_⟩)
    intro token both
    obtain ⟨sub,tenant',app',roles,known⟩ := both
    refine Acts.pure (Acts.pure ?_)
    intro value tokens same told
    cases same
    rw [own] at told
    cases told
    obtain ⟨newer,b,older,rfl,seen_⟩ := looked
    refine ⟨moves ++ mid,a,opened ++ newer,b,older,by simp,?_,?_⟩
    · rw [sub,tenant',app',roles,user,tenant,app]
      exact names.more moves
    · rw [known,sub,user,seen_]

omit mild in
theorem acts_withAccountStore {p : Program α} {post : Except Error α → RoleMoves → Prop}
    (failed : ∀ e moves, post (.error e) moves)
    (acts : p.Acts inv i rule memory fun result moves => ∀ value, result = .ok value → post (.ok value) moves) :
    (withAccountStore p).Acts inv i rule memory post := by
  refine Acts.bind (Acts.attempt (acts.mono fun result moves held => ?_))
  cases result with
  | ok value => exact Acts.pure (held value rfl)
  | error e =>
    dsimp only
    split
    · exact failed _ _
    · exact failed _ _

theorem acts_first {p : Program α} {f : α → Program β} {post : Except Error β → RoleMoves → Prop} (keeps : p.Keeps Mild)
    (failed : ∀ e moves, post (.error e) moves) (rest : ∀ value more, (f value).Acts inv i rule (more ++ memory) post) :
    (p >>= f).Acts inv i rule memory post := by
  refine Acts.bind (acts_mild mild keeps fun result more => ?_)
  cases result with
  | ok value => exact rest value more
  | error e => exact failed e _

def LoginResult.tokens : LoginResult → Option IssuedTokens
  | .mfaRequired _ _ => none
  | .complete _ tokens => some tokens

theorem acts_completeLogin {engine : AuthEngine} {user : UserDoc} (check : Program Bool) (keeps : check.Keeps Mild)
    (authMethod : AuthMethod) (application : String) (device : DeviceInfo) (looked : Looked user.id user.tokenVersion memory) :
    (do
      let pending ← engine.mfaGateway check
      if pending then pure (LoginResult.mfaRequired user.id user)
      else engine.completeLogin user authMethod application device).Acts inv i rule memory (Issues LoginResult.tokens) := by
  apply acts_first mild (kept_mfaGateway engine keeps) issues_error
  intro pending more
  split
  · rintro value tokens ⟨⟩ ⟨⟩
  · exact acts_issued mild (LoginResult.complete user) (fun _ => rfl) _ _ _ _ _ (looked.more more)

omit mild in
theorem mild_read (f : World → α) : (read f).Keeps Mild := keeps_reading mild_refl f

omit mild in
theorem mild_updateUser (engine : AuthEngine) (userId : String) {f : World → UserDoc → UserDoc}
    (harmless : ∀ w, Harmless (f w)) : (engine.updateUser userId f).Keeps Mild :=
  mild_both (keeps_updateUser engine userId harmless) (kept_updateUser granted_parts _ _)

omit mild in
theorem mild_clock : (base clock).Keeps Mild := mild_both (keeps_base keeps_clock) (kept_clock granted_parts)

omit mild in
theorem mild_recordFailedLogin (engine : AuthEngine) (user : UserDoc) : (engine.recordFailedLogin user).Keeps Mild := by
  refine Keeps.bind ?_ fun lockAt => mild_updateUser engine user.id fun _ _ => ⟨rfl,rfl,rfl,rfl,rfl⟩
  split
  · exact Keeps.bind mild_clock fun _ => Keeps.pure _
  · exact Keeps.pure _

variable (tidy : ∀ w, inv w → Unique w)
include tidy

theorem acts_login (engine : AuthEngine) (input : AuthEngine.LoginInput) :
    (engine.loginPassword input).Acts inv i rule memory (Issues LoginResult.tokens) := by
  have still := mild_still mild
  refine Acts.bind (acts_withAccountStore (fun e moves => issues_error e moves) (acts_read (fun w valid _ => ⟨still _ _,?_⟩)
    fun w e _ _ => ⟨still _ _,fun _ same => nomatch same⟩))
  intro found equal
  cases equal
  cases found : engine.userFor (AuthEngine.byHandle input.email input.phone) w.users with
  | none => exact issues_error _ _
  | some user =>
    have looked : Looked user.id user.tokenVersion ((w,w) :: memory) := looked_now (tidy w valid) (userFor_stored found)
    apply acts_first mild mild_clock issues_error
    intro now more
    split
    · exact issues_error _ _
    · split
      · exact issues_error _ _
      · split
        · split
          · have cleared : (engine.clearFailedLogin user).Keeps Mild := mild_updateUser engine user.id fun _ _ => ⟨rfl,rfl,rfl,rfl,rfl⟩
            apply acts_first mild (kept_withAccountStore cleared) issues_error
            intro _ more'
            exact acts_completeLogin mild _ (kept_withAccountStore (mild_read _)) _ _ _ ((looked.more more).more more')
          · exact issues_error _ _
        · apply acts_first mild (kept_withAccountStore (mild_recordFailedLogin engine user)) issues_error
          exact fun _ _ => issues_error _ _

theorem acts_loginOtp (engine : AuthEngine) (input : AuthEngine.LoginOtpInput) :
    (engine.loginOtp input).Acts inv i rule memory (Issues LoginResult.tokens) := by
  have still := mild_still mild
  apply acts_first mild (mild_both (keeps_verifyOtp _ _ _ _ _ _) (kept_verifyOtp granted_parts _ _ _ _ _ _)) issues_error
  intro verified more
  split
  · refine Acts.bind (acts_read (fun w valid _ => ⟨still _ _,?_⟩) fun w e _ _ => ⟨still _ _,issues_error _ _⟩)
    cases found : engine.userFor (AuthEngine.byHandle input.email input.phone) w.users with
    | none => exact issues_error _ _
    | some user =>
      have looked : Looked user.id user.tokenVersion ((w,w) :: (more ++ memory)) :=
        looked_now (tidy w valid) (userFor_stored found)
      dsimp only
      split
      · exact acts_completeLogin mild _ (mild_read _) _ _ _ looked
      · exact issues_error _ _
  · exact issues_error _ _

theorem acts_verifyMfaLogin (engine : AuthEngine) (input : AuthEngine.VerifyMfaInput) :
    (engine.verifyMfaLogin input).Acts inv i rule memory (Issues fun result => some result.2) := by
  have still := mild_still mild
  unfold AuthEngine.verifyMfaLogin
  split
  · apply acts_first mild (mild_read _) issues_error
    intro found more
    split
    · exact issues_error _ _
    · apply acts_first mild (mild_both (keeps_verifyMfa _ _ _) (kept_verifyMfa granted_parts _ _ _)) issues_error
      intro passed more'
      split
      · refine Acts.bind (acts_read (fun w valid _ => ⟨still _ _,?_⟩) fun w e _ _ => ⟨still _ _,issues_error _ _⟩)
        cases found : engine.userFor (AuthEngine.byId input.userId) w.users with
        | none => exact issues_error _ _
        | some user =>
          exact acts_issued mild (fun tokens => (user,tokens)) (fun _ => rfl) _ _ _ _ _
            (looked_now (tidy w valid) (userFor_stored found))
      · exact issues_error _ _
  · exact issues_error _ _

theorem acts_refreshSession (engine : AuthEngine) (token : String) (device : DeviceInfo) :
    (engine.refreshSession token device).Acts inv i rule memory fun result moves =>
      ∀ tokens, result = .ok tokens → Refreshed tokens.accessToken moves := by
  have still := mild_still mild
  have failed : ∀ (e : Error) (moves : RoleMoves) (tokens : IssuedTokens),
      (.error e : Except Error IssuedTokens) = .ok tokens → Refreshed tokens.accessToken moves := fun _ _ _ same => nomatch same
  apply acts_first mild (mild_both (keeps_session (Session.keeps_refresh _ _ _)) (granted_session _)) failed
  intro created more
  split
  · exact failed _ _
  · refine Acts.bind (acts_buildIdentityContext still _ _ _ _ _ failed ?_)
    intro identity mid a idle user tenant app names
    refine Acts.bind (acts_read (fun b valid _ => ⟨still _ _,?_⟩) fun b e _ _ => ⟨still _ _,failed _ _⟩)
    refine Acts.bind (Acts.bind (Acts.zoom_atomic fun w _ => ⟨mild _ _ _ (mild_refl w),?_⟩))
    refine Acts.bind (Acts.zoom_atomic fun w' _ => ⟨mild _ _ _ ⟨⟨rfl,rfl⟩,steady_untouched ⟨rfl,rfl⟩⟩,?_⟩)
    refine Acts.pure (Acts.pure ?_)
    intro tokens equal
    cases equal
    refine ⟨_,_,b,mid,a,more ++ memory,rfl,idle,?_,?_⟩
    · change Names a identity.userId identity.tenantId identity.applicationId identity.roles mid
      rw [user,tenant,app]
      exact names
    · cases found : b.users.find? fun user => user.id = created.userId && user.tenantId = engine.tenantId with
      | none => exact .inr rfl
      | some account =>
        left
        have chosen := List.find?_some found
        simp only [Bool.and_eq_true,decide_eq_true_eq] at chosen
        have known := userById_stored (tidy b valid) (List.mem_of_find?_eq_some found)
        change some account.tokenVersion = (userById identity.userId b).map UserDoc.tokenVersion
        rw [user,← chosen.1,known]
        rfl

end

section
variable {i : CallId} {authorization : AuthorizationService} {roles : List RoleDoc}

theorem mild_invalidate (userId : String) : (invalidate userId).Keeps Mild :=
  ((untouched_invalidate userId).and (kept_cacheDel granted_parts _)).mono fun moved => ⟨moved.2,steady_untouched moved.1⟩

theorem acts_raise {call : RoleCall} {memory : RoleMoves} {post : Except Error Unit → RoleMoves → Prop} (userId : String)
    (failed : ∀ e moves, post (.error e) moves)
    (ended : ∀ value more w, post (.ok value) (more ++ (w,w.updateUser (fun user => user.id = userId)
      fun user => {user with tokenVersion := user.tokenVersion + 1}) :: memory)) :
    (authorization.invalidateUserTokens userId).Acts (Settled roles) i (Moved call) memory post := by
  refine Acts.bind (acts_write (fun w _ _ => ⟨.bumped userId rfl,?_⟩) fun w e _ _ => ⟨.mild (mild_refl w),failed _ _⟩)
  apply acts_mild fun _ _ _ same => .mild same
  · split
    · exact mild_invalidate userId
    · exact Keeps.pure _
  · intro result more
    cases result with
    | ok value => exact ended value more w
    | error e => exact failed e _

theorem acts_role_removal (input : RoleInput) :
    (authorization.removeRole input).Acts (Settled roles) i (Moved (.removeRole input)) [] fun result moves =>
      ∀ value, result = .ok value → Removed input moves := by
  refine Acts.bind (acts_read (fun s settled _ => ⟨.mild (mild_refl s),?_⟩) fun s e _ _ => ⟨.mild (mild_refl s),fun _ same => nomatch same⟩)
  cases found : s.roles.find? input.selects with
  | none =>
    intro _ _
    exact .inl ⟨s,rfl,by simpa using found⟩
  | some role =>
    have present := List.mem_of_find?_eq_some found
    have selected := List.find?_some found
    refine Acts.bind (acts_write (fun w settled' _ => ⟨?_,?_⟩) fun w e _ _ => ⟨.mild (mild_refl w),fun _ same => nomatch same⟩)
    · exact .removed input role rfl selected (settled'.2.trans settled.2.symm ▸ present) rfl rfl
    · apply acts_raise
      · exact fun _ _ _ same => nomatch same
      · intro _ more u _ _
        exact .inr ⟨more,u,w,s,role,rfl,present,selected⟩

theorem acts_role_assignment (input : RoleInput) :
    (authorization.assignRole input).Acts (Settled roles) i (Moved (.assignRole input)) [] fun _ _ => True := by
  refine Acts.bind (acts_read (fun s settled _ => ⟨.mild (mild_refl s),?_⟩) fun s e _ _ => ⟨.mild (mild_refl s),trivial⟩)
  cases found : s.roles.find? input.selects with
  | none => trivial
  | some role =>
    have present := List.mem_of_find?_eq_some found
    have selected := List.find?_some found
    refine Acts.bind (acts_write (fun w settled' _ => ⟨?_,?_⟩) fun w e _ _ => ⟨.mild (mild_refl w),trivial⟩)
    · exact .added input role rfl selected (settled'.2.trans settled.2.symm ▸ present) rfl
    · exact acts_raise _ (fun _ _ => trivial) fun _ _ _ => trivial

theorem acts_reply {p : Program α} {call : RoleCall} {reply : α → Option Reply} {post : Except Error α → RoleMoves → Prop}
    (acts : p.Acts (Settled roles) i (Moved call) [] post)
    (replied : ∀ result moves, post result moves → Replied call (result.map reply) moves) :
    (reply <$> p).Acts (Settled roles) i (Moved call) [] (Replied call) := by
  refine Acts.bind (acts.mono fun result moves held => ?_)
  cases result with
  | ok value => exact Acts.pure (replied _ _ held)
  | error e => exact replied _ _ held

theorem replied_login {call : RoleCall} (login : ∀ input, call ≠ .removeRole input) (other : call.isRefresh = false)
    {issued : α → Option IssuedTokens} {reply : α → Option Reply}
    (same : ∀ value user tokens, reply value = some (.issued user tokens) → issued value = some tokens)
    {result : Except Error α} (issues : Issues issued result moves) : Replied call (result.map reply) moves := by
  refine ⟨fun input own => absurd own (login input),?_⟩
  intro user tokens told
  rw [other]
  cases result with
  | error e => cases told
  | ok value =>
    simp only [Except.map,Except.ok.injEq] at told
    exact issues value tokens rfl (same value user tokens told)

theorem roleProgram_acts (engine : AuthEngine) (i : CallId) (call : RoleCall) :
    (roleProgram engine authorization call).Acts (Settled roles) i (Moved call) [] (Replied call) := by
  have mild : ∀ (moves : RoleMoves) (s t : World), Mild s t → Moved call moves s t := fun _ _ _ same => .mild same
  have tidy : ∀ w, Settled roles w → Unique w := fun w settled => settled.1.users
  cases call with
  | removeRole input =>
    apply acts_reply (acts_role_removal input)
    intro result moves removed
    refine ⟨?_,?_⟩
    · rintro _ ⟨⟩ reply told
      cases result with
      | ok value => exact removed value rfl
      | error e => cases told
    · intro user tokens told
      cases result <;> cases told
  | assignRole input =>
    apply acts_reply (acts_role_assignment input)
    intro result moves _
    refine ⟨fun _ own => (nomatch own),?_⟩
    intro user tokens told
    cases result <;> cases told
  | loginPassword input =>
    apply acts_reply (acts_login mild tidy engine input)
    intro result moves issues
    apply replied_login (by rintro _ ⟨⟩) rfl ?_ issues
    intro value user tokens told
    cases value <;> cases told
    rfl
  | loginOtp input =>
    apply acts_reply (acts_loginOtp mild tidy engine input)
    intro result moves issues
    apply replied_login (by rintro _ ⟨⟩) rfl ?_ issues
    intro value user tokens told
    cases value <;> cases told
    rfl
  | verifyMfaLogin input =>
    apply acts_reply (acts_verifyMfaLogin mild tidy engine input)
    intro result moves issues
    apply replied_login (by rintro _ ⟨⟩) rfl ?_ issues
    intro value user tokens equal
    cases equal
    rfl
  | refreshSession token device =>
    apply acts_reply (acts_refreshSession mild tidy engine token device)
    intro result moves refreshed
    refine ⟨fun _ own => (nomatch own),?_⟩
    intro user tokens told
    cases result with
    | error e => cases told
    | ok issued =>
      cases told
      exact refreshed tokens rfl

end
end Pezhwan.Auth
