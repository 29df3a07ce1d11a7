import Pezhwan.Auth.Watch
import Pezhwan.Auth.Total
import Mathlib.Data.List.Perm.Subperm

namespace Pezhwan.Auth
open Atomic Prog Config

-- The operations that raise a token version; each answers the account it was about.
inductive Operation where
  | changePassword (input : AuthEngine.ChangePasswordInput)
  | resetPassword (input : AuthEngine.ResetPasswordInput)
  | resetPasswordWithToken (input : AuthEngine.ResetWithTokenInput)
  | assignRole (input : RoleInput)
  | removeRole (input : RoleInput)

def operate (engine : AuthEngine) (authorization : AuthorizationService) : Operation → Program String
  | .changePassword input => (fun _ => input.userId) <$> engine.changePassword input
  | .resetPassword input => (fun result => result.1.id) <$> engine.resetPassword input
  | .resetPasswordWithToken input => (fun result => result.1.id) <$> engine.resetPasswordWithToken input
  | .assignRole input => (fun _ => input.userId) <$> authorization.assignRole input
  | .removeRole input => (fun _ => input.userId) <$> authorization.removeRole input

def UserDoc.versioned (user : UserDoc) : String × Nat := (user.tenantId,user.tokenVersion)

-- Whatever else goes on leaves the versions of the accounts there are.
structure Elsewhere (s t : World) : Prop where
  unique : Unique s → Unique t
  kept : ∀ userId account, seen UserDoc.versioned userId s = some account → seen UserDoc.versioned userId t = some account

-- The call has just drawn the salt of a new password hash: its next action
-- stores the hash, and its read of the account is the move before the draw.
def Salted : List (World × World) → Prop
  | [] => False
  | salt :: older => Drawn salt ∧ ∀ move ∈ older, ¬ Drawn move

instance : (memory : List (World × World)) → Decidable (Salted memory)
  | [] => .isFalse id
  | _ :: _ => inferInstanceAs (Decidable (_ ∧ _))

def raiseTo (tenantId : String) (next : Nat) (account : String × Nat) : String × Nat :=
  if account.1 = tenantId then (account.1,next) else account

-- The move that raises a version, by the version read earlier or by the one stored.
inductive Bump (engine : AuthEngine) : List (World × World) → String → World → World → Prop where
  | set (salted : Salted (salt :: looked :: older)) (healthy : s.base.fault = none)
      (known : seen UserDoc.versioned userId looked.1 = some (engine.tenantId,held))
      (moved : Rewritten UserDoc.versioned userId (raiseTo engine.tenantId (held + 1)) s t) :
      Bump engine (salt :: looked :: older) userId s t
  | increment (moved : Rewritten UserDoc.versioned userId (fun account => (account.1,account.2 + 1)) s t) :
      Bump engine memory userId s t

-- The first such move of a call, or one that leaves all versions alone.
def First (engine : AuthEngine) (memory : List (World × World)) (userId : String) (s t : World) : Prop :=
  (∀ move ∈ memory, Steady UserDoc.versioned move.1 move.2) ∧ Bump engine memory userId s t

def Ruled (engine : AuthEngine) (memory : List (World × World)) (s t : World) : Prop :=
  Steady UserDoc.versioned s t ∨ ∃ userId, First engine memory userId s t

-- A removal that finds no role of the name has nothing to do.
def Finds : Operation → World → Prop
  | .removeRole input,w => w.roles.any input.selects = true
  | _,_ => True

instance : (operation : Operation) → (w : World) → Decidable (Finds operation w)
  | .removeRole input,w => inferInstanceAs (Decidable (w.roles.any input.selects = true))
  | .changePassword _,_ | .resetPassword _,_ | .resetPasswordWithToken _,_ | .assignRole _,_ => .isTrue trivial

def Bumped (engine : AuthEngine) (userId : String) (moves : List (World × World)) : Prop :=
  ∃ newer move older, moves = newer ++ move :: older ∧ First engine older userId move.1 move.2

def Accounted (engine : AuthEngine) (operation : Operation) (result : Except Error String)
    (moves : List (World × World)) : Prop :=
  ∀ userId, result = .ok userId → Bumped engine userId moves ∨
    ∃ move, moves = [move] ∧ move.1.base.fault = none ∧ ¬ Finds operation move.1

section
variable {engine : AuthEngine} {i : CallId} {memory : List (World × World)}

theorem silent_steady (silent : Silent memory) : ∀ move ∈ memory, Steady UserDoc.versioned move.1 move.2 :=
  fun move member => steady_untouched (silent move member).1

theorem steady_cons (steady : ∀ move ∈ memory, Steady UserDoc.versioned move.1 move.2)
    (still : Steady UserDoc.versioned s t) : ∀ move ∈ (s,t) :: memory, Steady UserDoc.versioned move.1 move.2 := by
  intro move member
  rcases List.mem_cons.mp member with rfl | older
  · exact still
  · exact steady move older

theorem ruled_untouched (same : Untouched s t) : Ruled engine memory s t := .inl (steady_untouched same)

theorem ruled_still (engine : AuthEngine) (memory : List (World × World)) (s t : World) (same : Untouched s t) :
    (fun moves => Ruled engine moves) memory s t := ruled_untouched same

theorem seen_stored (unique : Unique w) (present : user ∈ w.users) (own : user.tenantId = engine.tenantId) :
    seen UserDoc.versioned user.id w = some (engine.tenantId,user.tokenVersion) := by
  simp only [seen,userById_stored unique present,Option.map_some,UserDoc.versioned,own]

theorem rewritten_version {f : UserDoc → UserDoc} (unique : Unique w) (tenantId : String) (next : Nat)
    (sets : ∀ doc, (f doc).id = doc.id ∧ (f doc).tenantId = doc.tenantId ∧ (f doc).tokenVersion = next) (userId : String) :
    Rewritten UserDoc.versioned userId (raiseTo tenantId next) w
      (w.updateUser (fun user => user.id = userId && user.tenantId = tenantId) f) := by
  apply rewritten_updateUser (fun doc => decide (doc.tenantId = tenantId)) unique
  · intro doc
    exact (sets doc).1
  · intro doc
    obtain ⟨_,tenant,version⟩ := sets doc
    by_cases inside : doc.tenantId = tenantId <;> simp [UserDoc.versioned,raiseTo,inside,tenant,version]

-- The version stored with a new hash is the next one after that of the document read.
def Succeeds (user : UserDoc) (f : String → UserDoc → UserDoc) : Prop := ∀ newHash doc,
  (f newHash doc).id = doc.id ∧ (f newHash doc).tenantId = doc.tenantId ∧ (f newHash doc).tokenVersion = user.tokenVersion + 1

theorem succeeds_reset (user : UserDoc) : Succeeds user user.reset := fun _ _ => ⟨rfl,rfl,rfl⟩

theorem first_stored {f : String → UserDoc → UserDoc} (stores : Stores engine user f looked older salt s t)
    (sets : Succeeds user f) : First engine (salt :: (looked,looked) :: older) user.id s t := by
  obtain ⟨newHash,rfl⟩ := stores.stored
  refine ⟨steady_cons (silent_steady stores.silent) (steady_untouched stores.salted),?_⟩
  apply Bump.set ⟨stores.drawn,fun move member => (stores.silent move member).2⟩ stores.healthy
  · exact seen_stored stores.known stores.present stores.own
  · exact rewritten_version stores.unique engine.tenantId (user.tokenVersion + 1) (sets newHash) user.id

theorem bumped_stored {f : String → UserDoc → UserDoc} (stored : Stored engine user f moves)
    (sets : Succeeds user f) : Bumped engine user.id moves := by
  obtain ⟨newer,salt,looked,older,s,t,split,stores⟩ := stored
  exact ⟨newer,(s,t),_,split,first_stored stores sets⟩

theorem acts_changePassword (input : AuthEngine.ChangePasswordInput) :
    (engine.changePassword input).Acts Unique i (fun moves => Ruled engine moves) []
      fun result moves => ∀ value, result = .ok value → Bumped engine input.userId moves := by
  apply Acts.bind
  apply acts_checkPassword
  · apply Acts.bind
    apply acts_read
    · intro w unique healthy
      refine ⟨ruled_untouched (untouched_refl w),?_⟩
      cases found : w.users.find? fun user => user.id = input.userId && user.tenantId = engine.tenantId with
      | none => exact fun value same => nomatch same
      | some user =>
        have chosen := List.find?_some found
        simp only [Bool.and_eq_true,decide_eq_true_eq] at chosen
        have present := List.mem_of_find?_eq_some found
        have sets : Succeeds user fun newHash doc =>
            {doc with passwordHash := some newHash,tokenVersion := user.tokenVersion + 1} := fun _ _ => ⟨rfl,rfl,rfl⟩
        dsimp only
        split
        · apply (acts_rehash (ruled_still engine)
            (f := fun newHash doc => {doc with passwordHash := some newHash,tokenVersion := user.tokenVersion + 1})
            input.newPassword user (fun salt s t stores => .inr ⟨user.id,first_stored stores sets⟩)
            (silent_cons silent_nil w) present chosen.2 unique (untouched_invalidate _) (Yields.any _)).mono
          intro result moves stored value same
          rw [← chosen.1]
          exact bumped_stored (stored value same).2 sets
        · exact fun value same => nomatch same
    · intro w e _ _
      exact ⟨ruled_untouched (untouched_refl w),fun value same => nomatch same⟩
  · exact fun e value same => nomatch same

theorem acts_invalidateUserTokens (authorization : AuthorizationService) (userId : String) (silent : Silent memory) :
    (authorization.invalidateUserTokens userId).Acts Unique i (fun moves => Ruled engine moves) memory
      fun result moves => ∀ value, result = .ok value → Bumped engine userId moves := by
  apply Acts.bind
  apply acts_write
  · intro w unique _
    have moved : Rewritten UserDoc.versioned userId (fun account => (account.1,account.2 + 1)) w
        (w.updateUser (fun user => user.id = userId && true) fun user => {user with tokenVersion := user.tokenVersion + 1}) := by
      apply rewritten_updateUser (fun _ => true) unique
      · exact fun _ => rfl
      · exact fun _ => rfl
    simp only [Bool.and_true] at moved
    have first : First engine memory userId w _ := ⟨silent_steady silent,.increment moved⟩
    refine ⟨.inr ⟨userId,first⟩,?_⟩
    have keeps : (if authorization.accountState then invalidate userId else pure ()).Keeps Untouched := by
      split
      · exact untouched_invalidate _
      · exact Keeps.pure _
    apply Acts.keeps keeps (Yields.any _) fun moves s t same => ruled_untouched same
    intro moves _
    refine ⟨fun e value same => (nomatch same),fun value _ _ _ => ?_⟩
    exact ⟨moves,_,_,rfl,first⟩
  · intro w e _ _
    exact ⟨ruled_untouched (untouched_refl w),fun value same => nomatch same⟩

theorem acts_assignRole (authorization : AuthorizationService) (input : RoleInput) :
    (authorization.assignRole input).Acts Unique i (fun moves => Ruled engine moves) []
      fun result moves => ∀ value, result = .ok value → Bumped engine input.userId moves := by
  apply Acts.bind
  apply acts_read
  · intro w _ healthy
    refine ⟨ruled_untouched (untouched_refl w),?_⟩
    cases w.roles.find? input.selects with
    | none => exact fun value same => nomatch same
    | some role =>
      apply Acts.bind
      apply acts_write
      · intro u _ _
        have same : ∀ v : World, Untouched v (if input.assignment role ∈ v.assignments then v
            else {v with assignments := v.assignments ++ [input.assignment role]}) := by
          intro v
          split
          · exact untouched_refl v
          · exact ⟨rfl,rfl⟩
        have undrawn : ∀ v : World, ¬ Drawn (v,if input.assignment role ∈ v.assignments then v
            else {v with assignments := v.assignments ++ [input.assignment role]}) := by
          intro v drawn
          apply drawn
          dsimp only
          split <;> rfl
        refine ⟨ruled_untouched (same u),?_⟩
        apply acts_invalidateUserTokens
        intro move member
        rcases List.mem_cons.mp member with rfl | older
        · exact ⟨same u,undrawn u⟩
        · exact silent_cons silent_nil w move older
      · intro u e _ _
        exact ⟨ruled_untouched (untouched_refl u),fun value same => nomatch same⟩
  · intro w e _ _
    exact ⟨ruled_untouched (untouched_refl w),fun value same => nomatch same⟩

theorem acts_removeRole (authorization : AuthorizationService) (input : RoleInput) :
    (authorization.removeRole input).Acts Unique i (fun moves => Ruled engine moves) []
      fun result moves => ∀ value, result = .ok value → Bumped engine input.userId moves ∨
        ∃ move, moves = [move] ∧ move.1.base.fault = none ∧ ¬ Finds (.removeRole input) move.1 := by
  apply Acts.bind
  apply acts_read
  · intro w _ healthy
    refine ⟨ruled_untouched (untouched_refl w),?_⟩
    cases found : w.roles.find? input.selects with
    | none =>
      intro value _
      refine .inr ⟨(w,w),rfl,healthy,?_⟩
      simpa [Finds] using found
    | some role =>
      apply Acts.bind
      apply acts_write
      · intro u _ _
        refine ⟨ruled_untouched ⟨rfl,rfl⟩,?_⟩
        have silent : Silent [(u,{u with assignments := u.assignments.erase (input.assignment role)}),(w,w)] := by
          intro move member
          rcases List.mem_cons.mp member with rfl | older
          · exact ⟨⟨rfl,rfl⟩,fun drawn => drawn rfl⟩
          · exact silent_cons silent_nil w move older
        apply (acts_invalidateUserTokens authorization input.userId silent).mono
        exact fun result moves bumped value same => .inl (bumped value same)
      · intro u e _ _
        exact ⟨ruled_untouched (untouched_refl u),fun value same => nomatch same⟩
  · intro w e _ _
    exact ⟨ruled_untouched (untouched_refl w),fun value same => nomatch same⟩

theorem acts_answered {p : Program α} {answer : α → String} (operation : Operation)
    (acts : p.Acts Unique i (fun moves => Ruled engine moves) [] fun result moves => ∀ value, result = .ok value →
      Bumped engine (answer value) moves ∨ ∃ move, moves = [move] ∧ move.1.base.fault = none ∧ ¬ Finds operation move.1) :
    (answer <$> p).Acts Unique i (fun moves => Ruled engine moves) [] (Accounted engine operation) := by
  apply Acts.bind
  apply acts.mono
  intro result moves bumped
  cases result with
  | ok value =>
    rintro userId ⟨⟩
    exact bumped value rfl
  | error e => exact fun userId same => nomatch same

theorem acts_operate (engine : AuthEngine) (authorization : AuthorizationService) (i : CallId) (operation : Operation) :
    (operate engine authorization operation).Acts Unique i (fun moves => Ruled engine moves) []
      (Accounted engine operation) := by
  cases operation with
  | changePassword input =>
    apply acts_answered
    exact (acts_changePassword input).mono fun result moves bumped value same => .inl (bumped value same)
  | resetPassword input =>
    apply acts_answered
    apply (acts_resetPassword (ruled_still engine)
      (fun user looked older salt s t stores => .inr ⟨user.id,first_stored stores (succeeds_reset user)⟩) input).mono
    exact fun result moves stored value same => .inl (bumped_stored (stored value same) (succeeds_reset value.1))
  | resetPasswordWithToken input =>
    apply acts_answered
    apply (acts_resetPasswordWithToken (ruled_still engine)
      (fun user looked older salt s t stores => .inr ⟨user.id,first_stored stores (succeeds_reset user)⟩) input).mono
    exact fun result moves stored value same => .inl (bumped_stored (stored value same) (succeeds_reset value.1))
  | assignRole input =>
    apply acts_answered
    exact (acts_assignRole authorization input).mono fun result moves bumped value same => .inl (bumped value same)
  | removeRole input =>
    apply acts_answered
    exact acts_removeRole authorization input

end

abbrev Deed := Atomic.Event CallId Operation World

def Raises (userId : String) (event : Deed) : Prop :=
  seen UserDoc.versioned userId event.after ≠ seen UserDoc.versioned userId event.before

instance (userId : String) (event : Deed) : Decidable (Raises userId event) := inferInstanceAs (Decidable (_ ≠ _))

-- From the read of the account to the write of a new password no other operation
-- raises the account's version, and every removal finds its role.
def Apart (userId : String) : List Deed → Prop
  | [] => True
  | event :: past =>
    (Salted (mine event.who past) → event.before.base.fault = none →
      ∀ other ∈ since event.who 1 past, other.who ≠ event.who → ¬ Raises userId other) ∧
    (mine event.who past = [] → event.before.base.fault = none → Finds event.call event.before) ∧ Apart userId past

def Apart.decide (userId : String) : (past : List Deed) → Decidable (Apart userId past)
  | [] => .isTrue trivial
  | _ :: past => @instDecidableAnd _ _ inferInstance (@instDecidableAnd _ _ inferInstance (decide userId past))

instance (userId : String) (past : List Deed) : Decidable (Apart userId past) := Apart.decide userId past

abbrev Operated (engine : AuthEngine) (authorization : AuthorizationService) (initial : World) (past : List Deed)
    (c : Config CallId Operation World Error String) : Prop :=
  Traced (operate engine authorization) Elsewhere initial past c

def raisers (userId : String) (past : List Deed) : List CallId :=
  (past.filter fun event => Raises userId event).map Atomic.Event.who

section
variable {engine : AuthEngine} {past : List Deed} {event : Deed}

theorem bump_elsewhere (bump : Bump engine memory owner s t) (other : userId ≠ owner) :
    seen UserDoc.versioned userId t = seen UserDoc.versioned userId s := by
  cases bump with
  | set _ _ _ moved => exact moved.others userId other
  | increment moved => exact moved.others userId other

theorem known_still {looked salt : World × World} (linked : Linked Elsewhere initial past s)
    (own : mine i past = salt :: looked :: older) (steady : ∀ move ∈ mine i past, Steady UserDoc.versioned move.1 move.2)
    (quiet : ∀ other ∈ since i 1 past, other.who ≠ i → ¬ Raises userId other)
    (known : seen UserDoc.versioned userId looked.1 = some account) : seen UserDoc.versioned userId s = some account := by
  have found : (mine i past)[1]? = some (looked.1,looked.2) := by rw [own]; rfl
  have window : ∀ other ∈ since i 1 past, ∀ account, seen UserDoc.versioned userId other.before = some account →
      seen UserDoc.versioned userId other.after = some account := by
    intro other member account same
    by_cases ours : other.who = i
    · have listed : (other.before,other.after) ∈ mine i past :=
        List.mem_filterMap.mpr ⟨other,since_listed member,by simp [ours]⟩
      exact ((steady _ listed).views userId).trans same
    · have still := quiet other member ours
      simp only [Raises,not_not] at still
      exact still.trans same
  have kept := since_kept (r := fun s t => ∀ account, seen UserDoc.versioned userId s = some account →
      seen UserDoc.versioned userId t = some account) (fun s account same => same)
    (fun one two account same => two account (one account same)) (fun moved => moved.kept userId) linked window found
  exact kept.1 account known

theorem first_raises (linked : Linked Elsewhere initial past event.before)
    (first : First engine (mine event.who past) userId event.before event.after)
    (quiet : Salted (mine event.who past) → event.before.base.fault = none →
      ∀ other ∈ since event.who 1 past, other.who ≠ event.who → ¬ Raises userId other)
    (held : seen UserDoc.versioned userId event.before = some (tenantId,count)) :
    seen UserDoc.versioned userId event.after = some (tenantId,count + 1) := by
  obtain ⟨steady,bump⟩ := first
  generalize memory : mine event.who past = moves at bump
  cases bump with
  | set salted healthy known moved =>
    rw [memory] at quiet
    have now := known_still linked memory steady (quiet salted healthy) known
    have same := held.symm.trans now
    simp only [Option.some.injEq,Prod.mk.injEq] at same
    obtain ⟨rfl,rfl⟩ := same
    rw [moved.own,held]
    simp [raiseTo]
  | increment moved => rw [moved.own,held]; rfl

structure Counted (engine : AuthEngine) (userId tenantId : String) (count : Nat) (past : List Deed) (s : World) : Prop where
  held : seen UserDoc.versioned userId s = some (tenantId,count + (raisers userId past).length)
  once : (raisers userId past).Nodup
  grows : ∀ event ∈ past, ∃ before after, seen UserDoc.versioned userId event.before = some (tenantId,before) ∧
    seen UserDoc.versioned userId event.after = some (tenantId,after) ∧ before ≤ after
  bumps : ∀ later event earlier, past = later ++ event :: earlier →
    First engine (mine event.who earlier) userId event.before event.after → Raises userId event

theorem counted_other (counted : Counted engine userId tenantId count past s) (moves : Relation.ReflTransGen Elsewhere s t) :
    Counted engine userId tenantId count past t := by
  refine ⟨?_,counted.once,counted.grows,counted.bumps⟩
  induction moves with
  | refl => exact counted.held
  | tail _ moved ih => exact moved.kept userId _ ih

theorem along_counted (along : Along (fun _ moves => Ruled engine moves) past) (linked : Linked Elsewhere initial past s)
    (apart : Apart userId past) (stored : seen UserDoc.versioned userId initial = some (tenantId,count)) :
    Counted engine userId tenantId count past s := by
  induction past generalizing s with
  | nil =>
    have none : Counted engine userId tenantId count [] initial :=
      ⟨stored,List.nodup_nil,fun _ member => (nomatch member),fun later event earlier split => by simp at split⟩
    exact counted_other none linked
  | cons event past ih =>
    obtain ⟨ruled,earlier⟩ := along
    obtain ⟨moves,linked⟩ := linked
    obtain ⟨quiet,_,apart⟩ := apart
    have before := ih earlier linked apart
    have raises := fun (first : First engine (mine event.who past) userId event.before event.after) =>
      first_raises linked first quiet before.held
    have bumps : ∀ later other rest, event :: past = later ++ other :: rest →
        First engine (mine other.who rest) userId other.before other.after → Raises userId other := by
      intro later other rest split first
      cases later with
      | nil =>
        simp only [List.nil_append,List.cons.injEq] at split
        obtain ⟨rfl,rfl⟩ := split
        rw [Raises,raises first,before.held]
        simp
      | cons newest later =>
        simp only [List.cons_append,List.cons.injEq] at split
        exact before.bumps later other rest split.2 first
    apply counted_other ?_ moves
    by_cases raised : Raises userId event
    · obtain ⟨steady,bump⟩ : First engine (mine event.who past) userId event.before event.after := by
        rcases ruled with still | ⟨owner,first⟩
        · exact absurd (still.views userId) raised
        · by_cases own : userId = owner
          · rw [own]
            exact first
          · exact absurd (bump_elsewhere first.2 own) raised
      have after := raises ⟨steady,bump⟩
      have fresh : event.who ∉ raisers userId past := by
        intro member
        obtain ⟨other,listed,same⟩ := List.mem_map.mp member
        obtain ⟨known,acted⟩ := List.mem_filter.mp listed
        have move : (other.before,other.after) ∈ mine event.who past :=
          List.mem_filterMap.mpr ⟨other,known,by simp [same]⟩
        exact of_decide_eq_true acted ((steady _ move).views userId)
      have more : raisers userId (event :: past) = event.who :: raisers userId past := by
        simp [raisers,raised]
      refine ⟨?_,?_,?_,bumps⟩
      · rw [more,after,List.length_cons,Nat.add_assoc]
      · rw [more]
        exact List.nodup_cons.mpr ⟨fresh,before.once⟩
      · intro other member
        rcases List.mem_cons.mp member with rfl | older
        · exact ⟨_,_,before.held,after,Nat.le_succ _⟩
        · exact before.grows other older
    · have same : seen UserDoc.versioned userId event.after = seen UserDoc.versioned userId event.before := by
        simpa only [Raises,not_not] using raised
      have more : raisers userId (event :: past) = raisers userId past := by
        simp [raisers,raised]
      refine ⟨?_,?_,?_,bumps⟩
      · rw [more,same,before.held]
      · rw [more]
        exact before.once
      · intro other member
        rcases List.mem_cons.mp member with rfl | older
        · exact ⟨_,_,before.held,same.trans before.held,Nat.le_refl _⟩
        · exact before.grows other older

theorem ruled_unique (ruled : Ruled engine memory s t) (unique : Unique s) : Unique t := by
  have ids : t.users.map UserDoc.id = s.users.map UserDoc.id := by
    rcases ruled with still | ⟨owner,_,bump⟩
    · exact still.ids
    · cases bump with
      | set _ _ _ moved => exact moved.ids
      | increment moved => exact moved.ids
  unfold Unique
  rw [ids]
  exact unique

theorem operated_counted {authorization : AuthorizationService} (unique : Unique initial)
    (stored : userById userId initial = some user) (path : Operated engine authorization initial past c)
    (apart : Apart userId past) :
    Kept Unique (fun _ moves => Ruled engine moves) (Accounted engine) past c ∧
      Counted engine userId user.tenantId user.tokenVersion past c.state := by
  obtain ⟨kept,_⟩ := traced_inv (fun i operation => acts_operate engine authorization i operation)
    ruled_unique (fun moved => moved.unique) unique path
  refine ⟨kept,along_counted kept.along (traced_linked path) apart ?_⟩
  simp only [seen,stored,Option.map_some,UserDoc.versioned]

theorem apart_at (apart : Apart userId (later ++ event :: past)) (first : mine event.who past = [])
    (healthy : event.before.base.fault = none) : Finds event.call event.before := by
  induction later with
  | nil => exact apart.2.1 first healthy
  | cons newest later ih => exact ih apart.2.2

theorem finished_raised {authorization : AuthorizationService} (path : Operated engine authorization initial past c)
    (kept : Kept Unique (fun _ moves => Ruled engine moves) (Accounted engine) past c)
    (counted : Counted engine userId tenantId count past s) (apart : Apart userId past)
    (finished : c.Finished i operation (.ok userId)) : i ∈ raisers userId past := by
  rcases kept.busy i operation _ finished userId rfl with ⟨newer,move,older,split,first⟩ | ⟨move,split,healthy,nothing⟩
  · obtain ⟨later,event,earlier,rfl,rfl,rfl,own⟩ := mine_split newer split
    rw [← own] at first
    have raised := counted.bumps later event earlier rfl first
    apply List.mem_map_of_mem
    exact List.mem_filter.mpr ⟨by simp,decide_eq_true raised⟩
  · obtain ⟨later,event,earlier,rfl,rfl,rfl,own⟩ := mine_split [] split
    obtain ⟨p,running⟩ := traced_call path (List.mem_append_right later List.mem_cons_self)
    rw [finished] at running
    cases running
    exact absurd (apart_at apart own healthy) nothing

-- Operations that keep apart never lower a version, and what has succeeded has
-- raised it: once each, and by nothing else unless another one has raised it too.
theorem token_version_grows (engine : AuthEngine) (authorization : AuthorizationService) (initial : World)
    (unique : Unique initial) (userId : String) (user : UserDoc) (stored : userById userId initial = some user)
    (past : List Deed) (c : Config CallId Operation World Error String)
    (path : Operated engine authorization initial past c) (apart : Apart userId past) :
    (∀ event ∈ past, ∃ before after, (userById userId event.before).map UserDoc.tokenVersion = some before ∧
      (userById userId event.after).map UserDoc.tokenVersion = some after ∧ before ≤ after) ∧
    ∀ done : List CallId, done.Nodup → (∀ i ∈ done, ∃ operation, c.Finished i operation (.ok userId)) →
      ∃ version, (userById userId c.state).map UserDoc.tokenVersion = some version ∧
        user.tokenVersion + done.length ≤ version ∧
        ((∀ event ∈ past, Raises userId event → event.who ∈ done) → version = user.tokenVersion + done.length) := by
  have projected : ∀ (w : World) (tenantId : String) (count : Nat), seen UserDoc.versioned userId w = some (tenantId,count) →
      (userById userId w).map UserDoc.tokenVersion = some count := by
    intro w tenantId count held
    have versions := congrArg (Option.map Prod.snd) held
    simpa [seen,UserDoc.versioned,Function.comp_def] using versions
  obtain ⟨kept,counted⟩ := operated_counted unique stored path apart
  refine ⟨?_,?_⟩
  · intro event member
    obtain ⟨before,after,held,later,grows⟩ := counted.grows event member
    exact ⟨before,after,projected _ _ _ held,projected _ _ _ later,grows⟩
  · intro done nodup finished
    refine ⟨_,projected _ _ _ counted.held,?_,?_⟩
    · have all : done ⊆ raisers userId past := by
        intro i member
        obtain ⟨operation,ended⟩ := finished i member
        exact finished_raised path kept counted apart ended
      have fewer := (List.subperm_of_subset nodup all).length_le
      omega
    · intro only
      have all : raisers userId past ⊆ done := by
        intro i member
        obtain ⟨event,listed,rfl⟩ := List.mem_map.mp member
        obtain ⟨known,raised⟩ := List.mem_filter.mp listed
        exact only event known (of_decide_eq_true raised)
      have more : done ⊆ raisers userId past := by
        intro i member
        obtain ⟨operation,ended⟩ := finished i member
        exact finished_raised path kept counted apart ended
      have one := (List.subperm_of_subset nodup more).length_le
      have two := (List.subperm_of_subset counted.once all).length_le
      omega

end
def succeeded (c : Config CallId Operation World Error String) (userId : String) (i : CallId) : Bool :=
  match c.calls i with
  | some (_,.done (.ok answer)) => answer = userId
  | _ => false

theorem succeeded_finished (success : succeeded c userId i = true) : ∃ operation, c.Finished i operation (.ok userId) := by
  unfold succeeded at success
  split at success
  · rename_i operation answer found
    cases of_decide_eq_true success
    exact ⟨operation,found⟩
  · cases success

def sampleRole : RoleDoc := ⟨"role","tenant","application","ADMIN",none,[],false⟩

def accountWithRole : World := {soleAccount sampleUser with roles := [sampleRole]}

def newPassword : Operation := .changePassword ⟨"user","application","Passw0rd","N3wpassword"⟩

def promotion : Operation := .assignRole ⟨"user","tenant","application","ADMIN"⟩

-- A password change that overlaps with a role change, but not from its read to
-- its write.
theorem token_version_grows_twice : ∃ past c, Operated sampleEngine ⟨true⟩ accountWithRole past c ∧ Apart "user" past ∧
    ∃ version, (userById "user" c.state).map UserDoc.tokenVersion = some version ∧ 0 + 2 ≤ version := by
  have performed : (perform (operate sampleEngine ⟨true⟩) [] (start accountWithRole) (List.flatten [
        [.start 0 promotion],List.replicate 2 (.act 0),[.start 1 newPassword],List.replicate 3 (.act 1),
        [.act 0,.act 1,.act 0]])).any
      (fun after => decide (Apart "user" after.1) && [0,1].all (succeeded after.2 "user")) = true := by decide +kernel
  obtain ⟨past,c,traced,checked⟩ := perform_exists performed
  simp only [Bool.and_eq_true,decide_eq_true_eq,List.all_eq_true] at checked
  obtain ⟨apart,finished⟩ := checked
  have unique : Unique accountWithRole := List.nodup_singleton _
  obtain ⟨version,held,least,_⟩ := (token_version_grows sampleEngine ⟨true⟩ accountWithRole unique "user" sampleUser rfl
    past c traced apart).2 [0,1] (by decide) fun i member => succeeded_finished (finished i member)
  exact ⟨past,c,traced,apart,version,held,least⟩

-- Two role changes come between the read and the write of a password change:
-- the write takes the version back.
theorem token_version_taken_back : ∃ past c, Operated sampleEngine ⟨true⟩ accountWithRole past c ∧
    (∀ i ∈ [0,1,2], ∃ operation, c.Finished i operation (.ok "user")) ∧
    (userById "user" c.state).map UserDoc.tokenVersion = some 1 ∧
    ∃ event ∈ past, (userById "user" event.before).map UserDoc.tokenVersion = some 2 ∧
      (userById "user" event.after).map UserDoc.tokenVersion = some 1 := by
  have performed : (perform (operate sampleEngine ⟨true⟩) [] (start accountWithRole) (List.flatten [
        [.start 0 newPassword,.act 0,.start 1 promotion],List.replicate 4 (.act 1),[.start 2 promotion],
        List.replicate 4 (.act 2),List.replicate 3 (.act 0)])).any (fun after => [0,1,2].all (succeeded after.2 "user") &&
        decide ((userById "user" after.2.state).map UserDoc.tokenVersion = some 1) &&
        after.1.any (fun event => decide ((userById "user" event.before).map UserDoc.tokenVersion = some 2) &&
          decide ((userById "user" event.after).map UserDoc.tokenVersion = some 1))) = true := by decide +kernel
  obtain ⟨past,c,traced,checked⟩ := perform_exists performed
  simp only [Bool.and_eq_true,decide_eq_true_eq,List.all_eq_true,List.any_eq_true] at checked
  obtain ⟨⟨finished,held⟩,event,member,before,after⟩ := checked
  exact ⟨past,c,traced,fun i listed => succeeded_finished (finished i listed),held,event,member,before,after⟩

end Pezhwan.Auth
