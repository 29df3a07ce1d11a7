import Pezhwan.Auth.Roles
import Pezhwan.Auth.Outcome
import Pezhwan.Atomic.Trace

namespace Pezhwan.Auth
open Atomic Prog

-- Moves that leave the users and the clock alone.
def Untouched (s t : World) : Prop := t.users = s.users ∧ t.base.now = s.base.now

theorem untouched_refl (w : World) : Untouched w w := ⟨rfl,rfl⟩

theorem untouched_base {p : Prog CallId Base Error α} (keeps : p.Keeps fun a b => b.now = a.now) : (base p).Keeps Untouched :=
  keeps.zoom fun _ _ moved => ⟨rfl,moved⟩

theorem untouched_session {p : Session.Program α} (keeps : p.Keeps Session.Calm) : (session p).Keeps Untouched :=
  keeps.zoom fun _ _ moved => ⟨rfl,moved.1⟩

theorem untouched_read (f : World → α) : (read f).Keeps Untouched := keeps_reading untouched_refl f

theorem untouched_invalidate (userId : String) : (invalidate userId).Keeps Untouched :=
  untouched_base (Keeps.atomic fun _ _ => rfl)

theorem untouched_getUserRoles (userId tenantId applicationId : String) :
    (getUserRoles userId tenantId applicationId).Keeps Untouched := by
  apply Keeps.bind (untouched_read _)
  intro roleIds
  split
  · exact Keeps.pure _
  · exact untouched_read _

theorem untouched_buildIdentityContext (userId tenantId applicationId sessionId : String) (authMethod : AuthMethod) :
    (buildIdentityContext userId tenantId applicationId sessionId authMethod).Keeps Untouched := by
  apply Keeps.bind (untouched_getUserRoles _ _ _)
  intro roles
  refine Keeps.bind (Keeps.bind (untouched_getUserRoles _ _ _) fun granted => ?_) fun permissions => Keeps.pure _
  dsimp only
  split
  · exact Keeps.pure _
  · exact untouched_read _

theorem untouched_mintTokens (engine : AuthEngine) (userId : String) (tokenVersion : Nat)
    (created : Session.CreatedSession) (applicationId : String) (authMethod : AuthMethod) :
    (engine.mintTokens userId tokenVersion created applicationId authMethod).Keeps Untouched := by
  apply Keeps.bind (untouched_buildIdentityContext _ _ _ _ _)
  intro identity
  refine Keeps.bind ?_ fun accessToken => Keeps.pure _
  apply Keeps.bind (untouched_base (Keeps.atomic fun _ _ => rfl))
  intro now
  exact Keeps.bind (untouched_base (Keeps.atomic fun _ _ => rfl)) fun jti => Keeps.pure _

theorem untouched_openSession (engine : AuthEngine) (userId tenantId applicationId : String) (device : DeviceInfo) :
    (engine.openSession userId tenantId applicationId device).Keeps Untouched := untouched_session (Session.keeps_create _ _)

section
variable {γ : Type}

-- What is looked at of one account.
def seen (view : UserDoc → γ) (userId : String) (w : World) : Option γ := (userById userId w).map view

-- The accounts keep what is looked at of them.
structure Steady (view : UserDoc → γ) (s t : World) : Prop where
  ids : t.users.map UserDoc.id = s.users.map UserDoc.id
  views : ∀ userId, seen view userId t = seen view userId s

-- One account has changed in what is looked at.
structure Rewritten (view : UserDoc → γ) (userId : String) (change : γ → γ) (s t : World) : Prop where
  ids : t.users.map UserDoc.id = s.users.map UserDoc.id
  own : seen view userId t = (seen view userId s).map change
  others : ∀ other, other ≠ userId → seen view other t = seen view other s

variable {view : UserDoc → γ}

theorem steady_untouched (same : Untouched s t) : Steady view s t := by
  refine ⟨by rw [same.1],fun userId => ?_⟩
  simp only [seen,userById,same.1]

theorem rewritten_updateUser {f : UserDoc → UserDoc} {change : γ → γ} (cond : UserDoc → Bool)
    (unique : (w.users.map UserDoc.id).Nodup) (kept : ∀ user, (f user).id = user.id)
    (changed : ∀ user, view (if cond user then f user else user) = change (view user)) (userId : String) :
    Rewritten view userId change w (w.updateUser (fun user => user.id = userId && cond user) f) := by
  have found : ∀ other, userById other (w.updateUser (fun user => user.id = userId && cond user) f) =
      if other = userId then (userById other w).map fun user => if cond user then f user else user
      else userById other w :=
    fun other => Collection.lookup_updateOne_at kept unique other userId cond
  refine ⟨updateOne_ids kept _ _,?_,?_⟩
  · simp only [seen,found,if_true,Option.map_map,Function.comp_def,changed]
  · intro other different
    simp only [seen,found,different,if_false]

end

section
variable {inv : World → Prop} {rule : List (World × World) → World → World → Prop} {memory : List (World × World)}

theorem acts_op {f : CallId → World → Except MongoError (α × World)} {post : Except Error α → List (World × World) → Prop}
    (served : ∀ w, inv w → w.base.fault = none → ∀ value t, f i w = .ok (value,t) →
      rule memory w t ∧ post (.ok value) ((w,t) :: memory))
    (refused : ∀ w e, inv w → w.base.fault = some e ∨ f i w = .error e →
      rule memory w w ∧ post (.error (.mongo e)) ((w,w) :: memory)) : (op f).Acts inv i rule memory post :=
  acts_mongo served refused

theorem acts_read {f : World → α} {post : Except Error α → List (World × World) → Prop}
    (served : ∀ w, inv w → w.base.fault = none → rule memory w w ∧ post (.ok (f w)) ((w,w) :: memory))
    (refused : ∀ w e, inv w → w.base.fault = some e → rule memory w w ∧ post (.error (.mongo e)) ((w,w) :: memory)) :
    (read f).Acts inv i rule memory post := by
  apply acts_op
  · intro w valid healthy value t ran
    cases ran
    exact served w valid healthy
  · intro w e valid why
    rcases why with fault | impossible
    · exact refused w e valid fault
    · cases impossible

theorem acts_write {f : World → World} {post : Except Error Unit → List (World × World) → Prop}
    (served : ∀ w, inv w → w.base.fault = none → rule memory w (f w) ∧ post (.ok ()) ((w,f w) :: memory))
    (refused : ∀ w e, inv w → w.base.fault = some e → rule memory w w ∧ post (.error (.mongo e)) ((w,w) :: memory)) :
    (write f).Acts inv i rule memory post := by
  apply acts_op
  · intro w valid healthy value t ran
    cases ran
    exact served w valid healthy
  · intro w e valid why
    rcases why with fault | impossible
    · exact refused w e valid fault
    · cases impossible

theorem acts_checkPassword {post : Except Error Unit → List (World × World) → Prop} (password : String)
    (policy : PasswordPolicy) (passed : post (.ok ()) memory) (failed : ∀ e, post (.error e) memory) :
    (checkPassword password policy).Acts inv i rule memory post := by
  unfold checkPassword
  split
  · exact passed
  · exact failed _

end

abbrev Unique (w : World) : Prop := (w.users.map UserDoc.id).Nodup

def Drawn (move : World × World) : Prop := move.2.base.draws ≠ move.1.base.draws

instance (move : World × World) : Decidable (Drawn move) := inferInstanceAs (Decidable (_ ≠ _))

def Silent (memory : List (World × World)) : Prop := ∀ move ∈ memory, Untouched move.1 move.2 ∧ ¬ Drawn move

theorem silent_nil : Silent [] := fun _ member => nomatch member

theorem silent_cons (silent : Silent memory) (w : World) : Silent ((w,w) :: memory) := by
  intro move member
  rcases List.mem_cons.mp member with rfl | older
  · exact ⟨untouched_refl w,fun drawn => drawn rfl⟩
  · exact silent move older

-- The write of a new password hash: the account was read when no other move had
-- done anything, then a salt was drawn.
structure Stores (engine : AuthEngine) (user : UserDoc) (f : String → UserDoc → UserDoc) (looked : World)
    (older : List (World × World)) (salt : World × World) (s t : World) : Prop where
  silent : Silent ((looked,looked) :: older)
  present : user ∈ looked.users
  own : user.tenantId = engine.tenantId
  known : Unique looked
  drawn : Drawn salt
  salted : Untouched salt.1 salt.2
  unique : Unique s
  healthy : s.base.fault = none
  stored : ∃ newHash, t = s.updateUser (fun doc => doc.id = user.id && doc.tenantId = engine.tenantId) (f newHash)

def Stored (engine : AuthEngine) (user : UserDoc) (f : String → UserDoc → UserDoc) (moves : List (World × World)) : Prop :=
  ∃ newer salt looked older s t, moves = newer ++ (s,t) :: salt :: (looked,looked) :: older ∧
    Stores engine user f looked older salt s t

-- What a reset stores.
def UserDoc.reset (user : UserDoc) (newHash : String) (doc : UserDoc) : UserDoc :=
  {doc with passwordHash := some newHash,tokenVersion := user.tokenVersion + 1,failedLoginAttempts := 0,loginLockUntil := none}

section
variable {engine : AuthEngine} {rule : List (World × World) → World → World → Prop} {memory : List (World × World)}
  (still : ∀ moves s t, Untouched s t → rule moves s t)
include still

theorem acts_rehash {f : String → UserDoc → UserDoc} {rest : Program α} {P : α → Prop} (password : String) (user : UserDoc)
    (admits : ∀ salt s t, Stores engine user f looked older salt s t → rule (salt :: (looked,looked) :: older) s t)
    (silent : Silent ((looked,looked) :: older)) (present : user ∈ looked.users) (own : user.tenantId = engine.tenantId)
    (known : Unique looked) (keeps : rest.Keeps Untouched) (yields : rest.Yields P) :
    (engine.hashPassword password >>= fun newHash =>
      engine.updateUser user.id (fun _ doc => f newHash doc) >>= fun _ => rest).Acts Unique i rule
      ((looked,looked) :: older) fun result moves => ∀ value, result = .ok value → P value ∧ Stored engine user f moves := by
  apply Acts.bind
  apply Acts.bind
  apply Acts.zoom_atomic
  intro w _
  have salted : Untouched w (baseLens.set {w.base with draws := w.base.draws ++ [i]} w) := ⟨rfl,rfl⟩
  refine ⟨still _ _ _ salted,?_⟩
  apply Acts.pure
  apply Acts.bind
  have drawn : Drawn (w,baseLens.set {w.base with draws := w.base.draws ++ [i]} w) := by simp [Drawn,baseLens]
  apply acts_write
  · intro u unique healthy
    have stores := fun newHash => (⟨silent,present,own,known,drawn,salted,unique,healthy,newHash,rfl⟩ :
      Stores engine user f looked older _ u _)
    refine ⟨admits _ _ _ (stores _),?_⟩
    apply Acts.keeps keeps yields fun moves s t same => still _ s t same
    intro moves _
    refine ⟨fun e value same => (nomatch same),?_⟩
    rintro value expected _ ⟨⟩
    exact ⟨expected,moves,_,_,_,_,_,rfl,stores _⟩
  · intro u e _ _
    exact ⟨still _ _ _ (untouched_refl u),fun value same => nomatch same⟩

theorem acts_finishReset (user : UserDoc) (applicationId newPassword : String) (device : DeviceInfo) (authMethod : AuthMethod)
    (admits : ∀ salt s t, Stores engine user user.reset looked older salt s t → rule (salt :: (looked,looked) :: older) s t)
    (silent : Silent ((looked,looked) :: older)) (present : user ∈ looked.users) (own : user.tenantId = engine.tenantId)
    (known : Unique looked) :
    (engine.finishReset user applicationId newPassword device authMethod).Acts Unique i rule ((looked,looked) :: older)
      fun result moves => ∀ value, result = .ok value → value.1 = user ∧ Stored engine user user.reset moves := by
  apply acts_rehash still (f := user.reset) newPassword user admits silent present own known
  · apply Keeps.bind (untouched_invalidate _)
    intro _
    apply Keeps.bind (untouched_session (Session.keeps_revokeAll _ _ _))
    intro _
    apply Keeps.bind (untouched_openSession _ _ _ _ _)
    intro created
    exact Keeps.bind (untouched_mintTokens _ _ _ _ _ _) fun tokens => Keeps.pure _
  · apply Yields.bind (Yields.any _)
    intro _ _
    apply Yields.bind (Yields.any _)
    intro _ _
    apply Yields.bind (Yields.any _)
    intro created _
    apply Yields.bind (Yields.any _)
    intro tokens _
    exact Yields.pure rfl

theorem acts_quiet {p : Program α} {post : Except Error α → List (World × World) → Prop} (keeps : p.Keeps Quiet)
    (returned : ∀ moves value, Silent moves → post (.ok value) moves) (failed : ∀ moves e, post (.error e) moves) :
    p.Acts Unique i rule [] post := by
  have untouched : ∀ s t, Quiet s t → Untouched s t := fun s t quiet => ⟨quiet.1.2,quiet.1.1.1⟩
  apply Acts.keeps keeps (Yields.any p) fun moves s t quiet => still _ s t (untouched s t quiet)
  intro moves quiet
  refine ⟨fun e => failed _ e,fun value _ => ?_⟩
  apply returned
  intro move member
  rw [List.append_nil] at member
  exact ⟨untouched _ _ (quiet move member),fun drawn => drawn (quiet move member).2⟩

variable (admits : ∀ user looked older salt s t, Stores engine user user.reset looked older salt s t →
  rule (salt :: (looked,looked) :: older) s t)
include admits

theorem acts_reset (input : UserLookupInput) (applicationId newPassword : String) (device : DeviceInfo)
    (authMethod : AuthMethod) (absent : Program (UserDoc × IssuedTokens))
    (missing : ∀ moves, absent.Acts Unique i rule moves fun result _ => ∀ value, result ≠ .ok value)
    (silent : Silent memory) :
    (engine.findUser input >>= fun found => match found with
      | none => absent
      | some user => engine.finishReset user applicationId newPassword device authMethod).Acts Unique i rule memory
      fun result moves => ∀ value, result = .ok value → Stored engine value.1 value.1.reset moves := by
  apply Acts.bind
  apply acts_read
  · intro w unique _
    refine ⟨still _ _ _ (untouched_refl w),?_⟩
    cases found : engine.userFor input w.users with
    | none => exact (missing _).mono fun result moves never value same => absurd same (never value)
    | some user =>
      apply (acts_finishReset still user applicationId newPassword device authMethod (admits user w memory)
        (silent_cons silent w) (userFor_stored found) (userFor_inTenant found) unique).mono
      intro result moves stored value same
      obtain ⟨rfl,moved⟩ := stored value same
      exact moved
  · intro w e _ _
    exact ⟨still _ _ _ (untouched_refl w),fun value same => nomatch same⟩

theorem acts_resetPassword (input : AuthEngine.ResetPasswordInput) :
    (engine.resetPassword input).Acts Unique i rule []
      fun result moves => ∀ value, result = .ok value → Stored engine value.1 value.1.reset moves := by
  apply Acts.bind
  apply acts_checkPassword
  · apply Acts.bind
    apply acts_quiet still (quiet_verifyOtp _ _ _ _ _ _)
    · intro moves verified silent
      cases verified with
      | true => exact acts_reset still admits _ _ _ _ _ _ (fun moves value same => nomatch same) silent
      | false => exact fun value same => nomatch same
    · exact fun moves e value same => nomatch same
  · exact fun e value same => nomatch same

theorem acts_resetPasswordWithToken (input : AuthEngine.ResetWithTokenInput) :
    (engine.resetPasswordWithToken input).Acts Unique i rule []
      fun result moves => ∀ value, result = .ok value → Stored engine value.1 value.1.reset moves := by
  apply Acts.bind
  apply acts_checkPassword
  · apply Acts.bind
    apply acts_quiet still (quiet_redeem _ _ _)
    · intro moves redeemed silent
      dsimp only
      split
      · exact acts_reset still admits _ _ _ _ _ _ (fun moves value same => nomatch same) silent
      · exact fun value same => nomatch same
    · exact fun moves e value same => nomatch same
  · exact fun e value same => nomatch same

end
end Pezhwan.Auth
