import Pezhwan.Auth.Reads
import Pezhwan.Auth.Versions

-- A token with a removed role is stale.
namespace Pezhwan.Auth
open Atomic Prog Config

abbrev RoleEvent := Atomic.Event CallId RoleCall World

abbrev RoleRun (engine : AuthEngine) (authorization : AuthorizationService) (initial : World) (past : List RoleEvent)
    (c : Config CallId RoleCall World Error (Option Reply)) : Prop :=
  Traced (roleProgram engine authorization) Around initial past c

-- The refresh `i` has read the assignments before the removal `r` deletes the
-- role, and reads the account after `r` has raised the version: between the two
-- it only reads, and two steps of its own follow.
def Straddles (past : List RoleEvent) (i r : CallId) (input : RoleInput) : Prop :=
  ∃ (newest : List RoleEvent) (account : RoleEvent) (between : List RoleEvent) (bump : RoleEvent) (middle : List RoleEvent)
    (delete : RoleEvent) (earlier : List RoleEvent) (roles : RoleEvent) (oldest : List RoleEvent),
    past = newest ++ account :: (between ++ bump :: (middle ++ delete :: (earlier ++ roles :: oldest))) ∧
    account.who = i ∧ bump.who = r ∧ delete.who = r ∧ roles.who = i ∧ (mine i newest).length = 2 ∧
    (mine r (middle ++ delete :: (earlier ++ roles :: oldest))).length = 2 ∧
    (mine r (earlier ++ roles :: oldest)).length = 1 ∧ Assigned input roles.before ∧
    ∀ event ∈ account :: (between ++ bump :: (middle ++ delete :: (earlier ++ [roles]))), event.who = i →
      event.after = event.before

-- Once `r` has deleted the role, nobody assigns it again.
def NotAssignedAgain (past : List RoleEvent) (r : CallId) (input : RoleInput) : Prop :=
  ∀ newer event older, past = newer ++ event :: older → 2 ≤ (mine r older).length →
    ¬ Assigned input event.before → ¬ Assigned input event.after

section
variable {roles : List RoleDoc} {s t : World}

theorem settled_granted (settled : Settled roles s) (users : Unique t) (granted : Granted s t) : Settled roles t := by
  obtain ⟨⟨_,nodup,ids,names,proper⟩,same⟩ := settled
  refine ⟨⟨users,?_,?_,?_,?_⟩,granted.1.trans same⟩
  · rw [granted.2]; exact nodup
  · rw [granted.1]; exact ids
  · rw [granted.1]; exact names
  · rw [granted.1,granted.2]; exact proper

theorem settled_fewer (settled : Settled roles s) (users : Unique t) (same : t.roles = s.roles)
    (fewer : t.assignments.Sublist s.assignments) : Settled roles t := by
  obtain ⟨⟨_,nodup,ids,names,proper⟩,here⟩ := settled
  refine ⟨⟨users,nodup.sublist fewer,?_,?_,?_⟩,same.trans here⟩
  · rw [same]; exact ids
  · rw [same]; exact names
  · rw [same]; exact fun assignment listed => proper assignment (fewer.subset listed)

theorem roleIds_unique (orderly : Orderly s) (one : role ∈ s.roles) (other : role' ∈ s.roles) (same : role.id = role'.id) :
    role = role' := List.inj_on_of_nodup_map orderly.roleIds one other same

theorem settled_added (settled : Settled roles s) (present : role ∈ s.roles) (selected : RoleInput.selects input role = true)
    (absent : input.assignment role ∉ s.assignments) :
    Settled roles {s with assignments := s.assignments ++ [input.assignment role]} := by
  obtain ⟨orderly,same⟩ := settled
  refine ⟨⟨orderly.users,?_,orderly.roleIds,orderly.names,?_⟩,same⟩
  · apply List.nodup_append.mpr
    refine ⟨orderly.assignments,List.nodup_singleton _,?_⟩
    intro held listed new mem same
    subst same
    rw [List.mem_singleton.mp mem] at listed
    exact absent listed
  · intro assignment listed role' present' named
    rcases List.mem_append.mp listed with older | new
    · exact orderly.proper assignment older role' present' named
    · rw [List.mem_singleton.mp new] at named ⊢
      obtain rfl := roleIds_unique orderly present' present named
      simp only [RoleInput.selects,Bool.and_eq_true,decide_eq_true_eq] at selected
      exact ⟨selected.1.1,selected.1.2⟩

theorem bumped_version (unique : Unique s) (userId : String) :
    Rewritten UserDoc.tokenVersion userId (· + 1) s (s.updateUser (fun user => user.id = userId)
      fun user => {user with tokenVersion := user.tokenVersion + 1}) := by
  let raised : UserDoc → UserDoc := fun user => {user with tokenVersion := user.tokenVersion + 1}
  have moved : Rewritten UserDoc.tokenVersion userId (· + 1) s (s.updateUser (fun user => user.id = userId && true) raised) := by
    apply rewritten_updateUser (f := raised) (fun _ => true) unique
    · intro user; rfl
    · intro user; rfl
  simpa only [Bool.and_true] using moved

theorem moved_settled (moved : Moved call memory s t) (settled : Settled roles s) : Settled roles t := by
  cases moved with
  | mild same =>
    refine settled_granted settled ?_ same.1
    have users := settled.1.users
    unfold Unique at users ⊢
    rw [same.2.ids]
    exact users
  | removed input role _ _ _ _ done =>
    subst done
    exact settled_fewer settled settled.1.users rfl List.erase_sublist
  | added input role _ selected present done =>
    subst done
    split
    · exact settled
    · rename_i absent
      exact settled_added settled present selected absent
  | bumped userId done =>
    subst done
    refine settled_granted settled ?_ ⟨rfl,rfl⟩
    have users := settled.1.users
    unfold Unique at users ⊢
    rw [(bumped_version settled.1.users userId).ids]
    exact users

theorem around_settled (around : Around s t) (settled : Settled roles s) : Settled roles t :=
  settled_fewer settled (around.users settled.1.users) around.roles around.assignments

-- The version of the account has come at least this far.
def AtLeast (userId : String) (bound : Nat) (w : World) : Prop := ∃ version, versionOf userId w = some version ∧ bound ≤ version

theorem around_atLeast (around : Around s t) (reached : AtLeast userId bound s) : AtLeast userId bound t := by
  obtain ⟨version,known,enough⟩ := reached
  obtain ⟨later,known',grows⟩ := around.versions userId version known
  exact ⟨later,known',Nat.le_trans enough grows⟩

theorem moved_atLeast (moved : Moved call memory s t) (unique : Unique s) (reached : AtLeast userId bound s) :
    AtLeast userId bound t := by
  obtain ⟨version,known,enough⟩ := reached
  cases moved with
  | mild same => exact ⟨version,(same.2.views userId).trans known,enough⟩
  | removed input role _ _ _ _ done =>
    subst done
    exact ⟨version,known,enough⟩
  | added input role _ _ _ done =>
    subst done
    split
    · exact ⟨version,known,enough⟩
    · exact ⟨version,known,enough⟩
  | bumped owner done =>
    subst done
    have raised := bumped_version unique owner
    by_cases own : userId = owner
    · subst own
      exact ⟨version+1,by rw [versionOf,raised.own,← versionOf,known]; rfl,by omega⟩
    · exact ⟨version,by rw [versionOf,raised.others userId own]; exact known,enough⟩

theorem deleted_assigned (settled : Settled roles s) (present : role ∈ s.roles) (selected : input.selects role = true) :
    ¬ Assigned input {s with assignments := s.assignments.erase (input.assignment role)} := by
  intro both
  obtain ⟨role',present',selected',held⟩ := both
  simp only [RoleInput.selects,Bool.and_eq_true,decide_eq_true_eq] at selected selected'
  obtain rfl := settled.1.names role present role' present' (selected.1.1.trans selected'.1.1.symm)
    (selected.1.2.trans selected'.1.2.symm) (selected.2.trans selected'.2.symm)
  exact settled.1.assignments.not_mem_erase held

theorem around_assigned (around : Around s t) (gone : ¬ Assigned input s) : ¬ Assigned input t := by
  intro both
  obtain ⟨role,present,selected,held⟩ := both
  exact gone ⟨role,around.roles ▸ present,selected,around.assignments.subset held⟩

theorem names_assigned (settled : Settled roles a) (same : ∀ move ∈ mid, move.1.roles = roles) {input : RoleInput}
    (names : Names a input.userId input.tenantId input.applicationId listed mid) (named : input.roleName ∈ listed) :
    Assigned input a := by
  obtain ⟨move,seen,role,present,name,assignment,held,owner,tenant,application,given⟩ := names _ named
  have here : role ∈ a.roles := by
    rw [settled.2,← same move seen]
    exact present
  obtain ⟨tenant',application'⟩ := settled.1.proper assignment held role here given.symm
  refine ⟨role,here,?_,?_⟩
  · simp only [RoleInput.selects,Bool.and_eq_true,decide_eq_true_eq]
    exact ⟨⟨tenant'.trans tenant,application'.trans application⟩,name⟩
  · have own : input.assignment role = assignment := by
      cases assignment
      simp only at owner tenant application given
      simp only [RoleInput.assignment,owner,tenant,application,given]
    rw [own]
    exact held

end

section
variable {engine : AuthEngine} {authorization : AuthorizationService} {initial : World} {past : List RoleEvent}
  {c : Config CallId RoleCall World Error (Option Reply)} (orderly : Orderly initial)
  (traced : RoleRun engine authorization initial past c)
include orderly traced

theorem run_kept :
    Kept (Settled initial.roles) Moved Replied past c ∧ Settled initial.roles c.state :=
  traced_inv (fun i call => roleProgram_acts engine i call) moved_settled around_settled ⟨orderly,rfl⟩ traced

omit traced in
theorem event_settled {later earlier : List RoleEvent}
    (traced : RoleRun engine authorization initial (later ++ event :: earlier) c) : Settled initial.roles event.before := by
  obtain ⟨c',before,same⟩ := traced_before traced
  rw [← same]
  exact (run_kept orderly before).2

theorem move_settled (listed : move ∈ mine i past) : Settled initial.roles move.1 := by
  obtain ⟨event,member,_,rfl⟩ := mine_member listed
  obtain ⟨later,earlier,rfl⟩ := List.append_of_mem member
  exact event_settled orderly traced

omit traced in
theorem version_grows {later earlier : List RoleEvent}
    (traced : RoleRun engine authorization initial (later ++ event :: earlier) c) (reached : AtLeast userId bound event.after) :
    AtLeast userId bound c.state ∧ ∀ one ∈ later, AtLeast userId bound one.before := by
  apply linked_since (P := AtLeast userId bound) around_atLeast (traced_linked traced) reached
  rintro newer one older rfl before
  have whole : (newer ++ one :: older) ++ event :: earlier = newer ++ one :: (older ++ event :: earlier) := by simp
  rw [whole] at traced
  exact moved_atLeast (along_at (run_kept orderly traced).1.along).1 (event_settled orderly traced).1.users before

theorem version_kept (known : versionOf userId initial = some version) : AtLeast userId version c.state := by
  apply linked_always (P := AtLeast userId version) around_atLeast (traced_linked traced) ⟨version,known,Nat.le_refl _⟩
  intro one listed before
  obtain ⟨newer,older,rfl⟩ := List.append_of_mem listed
  exact moved_atLeast (along_at (run_kept orderly traced).1.along).1 (event_settled orderly traced).1.users before

omit traced in
theorem raise_passes {later earlier : List RoleEvent}
    (traced : RoleRun engine authorization initial (later ++ event :: earlier) c)
    (raised : event.after = event.before.updateUser (fun user => user.id = userId)
      fun user => {user with tokenVersion := user.tokenVersion + 1})
    (reached : AtLeast userId bound event.before) : AtLeast userId (bound+1) c.state := by
  apply (version_grows orderly traced ?_).1
  obtain ⟨version,known,enough⟩ := reached
  refine ⟨version+1,?_,by omega⟩
  rw [raised,versionOf,(bumped_version (event_settled orderly traced).1.users userId).own,← versionOf,known]
  rfl

omit traced in
theorem role_gone {later earlier : List RoleEvent}
    (traced : RoleRun engine authorization initial (later ++ event :: earlier) c)
    (again : NotAssignedAgain (later ++ event :: earlier) r input) (own : event.who = r) (second : (mine r earlier).length = 1)
    (present : role ∈ event.before.roles) (selected : input.selects role = true)
    (done : event.after = {event.before with assignments := event.before.assignments.erase (input.assignment role)}) :
    ∀ one ∈ later, ¬ Assigned input one.before := by
  have gone : ¬ Assigned input event.after := by
    rw [done]
    exact deleted_assigned (event_settled orderly traced) present selected
  apply (linked_since (fun around => around_assigned around) (traced_linked traced) gone ?_).2
  intro newer one older same
  subst same
  apply again newer one (older ++ event :: earlier) (by simp)
  rw [mine_append,mine_cons,if_pos own,List.length_append,List.length_cons]
  omega

-- The deletion and the raise of a removal, in a trace.
structure RemovedAt (past : List RoleEvent) (r : CallId) (input : RoleInput) (bump delete : RoleEvent)
    (newest middle oldest : List RoleEvent) : Prop where
  split : past = newest ++ bump :: (middle ++ delete :: oldest)
  raises : bump.who = r
  deletes : delete.who = r
  first : (mine r oldest).length = 1
  second : (mine r (middle ++ delete :: oldest)).length = 2
  raised : bump.after = bump.before.updateUser (fun user => user.id = input.userId)
    fun user => {user with tokenVersion := user.tokenVersion + 1}
  deleted : ∃ role ∈ delete.before.roles, input.selects role = true ∧
    delete.after = {delete.before with assignments := delete.before.assignments.erase (input.assignment role)}

theorem removed_at {newer : RoleMoves} (moves : mine r past = newer ++ [(w,w.updateUser (fun user => user.id = input.userId)
        fun user => {user with tokenVersion := user.tokenVersion + 1}),
      (w',{w' with assignments := w'.assignments.erase (input.assignment role)}),(s,s)])
    (present : role ∈ s.roles) (selected : input.selects role = true) :
    ∃ bump delete newest middle oldest, RemovedAt past r input bump delete newest middle oldest := by
  have whole : mine r past = newer ++ (w,w.updateUser (fun user => user.id = input.userId)
      fun user => {user with tokenVersion := user.tokenVersion + 1}) ::
        [(w',{w' with assignments := w'.assignments.erase (input.assignment role)}),(s,s)] := moves
  obtain ⟨newest,bump,older,split,raises,raised,rest⟩ := mine_split newer whole
  obtain ⟨middle,delete,oldest,between,deletes,deleted,last⟩ := mine_split [] rest
  subst between
  simp only [Prod.mk.injEq] at raised deleted
  refine ⟨bump,delete,newest,middle,oldest,split,raises,deletes,?_,?_,?_,role,?_,selected,?_⟩
  · rw [last]; rfl
  · rw [rest]; rfl
  · rw [← raised.2,← raised.1]
  · have then_ := move_settled orderly traced (moves ▸ List.mem_append_right newer (by simp) : (s,s) ∈ mine r past)
    have now := move_settled orderly traced (moves ▸ List.mem_append_right newer (by simp) :
      (w',{w' with assignments := w'.assignments.erase (input.assignment role)}) ∈ mine r past)
    rw [← deleted.1,now.2,← then_.2]
    exact present
  · rw [← deleted.2,← deleted.1]

theorem assigned_earlier {later earlier : List RoleEvent} (again : NotAssignedAgain past r input)
    (removed : RemovedAt past r input bump delete newest middle oldest) (here : past = later ++ event :: earlier)
    (other : event.who ≠ r) (assigned : Assigned input event.before) :
    ∃ between, oldest = between ++ event :: earlier := by
  obtain ⟨role,present,selected,done⟩ := removed.deleted
  have split : past = (newest ++ bump :: middle) ++ delete :: oldest := by rw [removed.split]; simp
  rcases compare_places (split.symm.trans here) with ⟨between,found,_⟩ | same | ⟨between,_,found⟩
  · exact ⟨between,found⟩
  · exact absurd (same ▸ removed.deletes) other
  · rw [split] at traced again
    have gone := role_gone orderly traced again removed.deletes removed.first present selected done
    exact absurd assigned (gone event (found ▸ List.mem_append_right _ List.mem_cons_self))

theorem earlier_stale {later earlier : List RoleEvent} (removed : RemovedAt past r input bump delete newest middle oldest)
    (found : middle ++ delete :: oldest = later ++ event :: earlier) (still : event.after = event.before)
    (known : versionOf input.userId event.before = some version) : AtLeast input.userId (version+1) c.state := by
  have split : past = (newest ++ bump :: later) ++ event :: earlier := by rw [removed.split,found]; simp
  have reached : AtLeast input.userId version event.after := ⟨version,still ▸ known,Nat.le_refl _⟩
  have before := (version_grows orderly (split ▸ traced) reached).2 bump (by simp)
  exact raise_passes orderly (removed.split ▸ traced) removed.raised before

omit orderly traced in
theorem passed_stale (passed : AtLeast userId (version+1) w) (stored : versionOf userId w = some later) :
    some version ≠ some later := by
  obtain ⟨now,known,enough⟩ := passed
  rw [known] at stored
  cases stored
  intro same
  cases same
  omega

omit orderly traced in
theorem idle_events {window : List RoleEvent} (idle : Idle (mine i window)) :
    ∀ event ∈ window, event.who = i → event.after = event.before := by
  intro event listed own
  exact idle (event.before,event.after) (List.mem_filterMap.mpr ⟨event,listed,if_pos own⟩)

theorem read_assigned {later earlier : List RoleEvent} {mid : RoleMoves} (split : past = later ++ event :: earlier)
    (own : ∀ move ∈ mid, move ∈ mine i past) {input : RoleInput}
    (names : Names event.before input.userId input.tenantId input.applicationId listed mid) (named : input.roleName ∈ listed) :
    Assigned input event.before := by
  apply names_assigned (event_settled orderly (split ▸ traced)) _ names named
  intro move member
  exact (move_settled orderly traced (own move member)).2

theorem login_stale {token : AccessToken} {r i : CallId} (again : NotAssignedAgain past r input)
    (removed : RemovedAt past r input bump delete newest middle oldest) (other : i ≠ r) (login : LoggedIn token (mine i past))
    (subject : token.sub = input.userId) (tenant : token.tenantId = input.tenantId)
    (application : token.applicationId = input.applicationId) (named : input.roleName ∈ token.roles)
    (stored : versionOf input.userId c.state = some version) : token.tokenVersion ≠ some version := by
  obtain ⟨newer,a,between,b,older,moves,names,versioned⟩ := login
  rw [subject,tenant,application] at names
  rw [List.append_assoc,List.cons_append] at moves
  obtain ⟨later,assignments,earlier,split,own,found,rest⟩ := mine_split newer moves
  obtain ⟨later',account,earlier',split',_,versions,_⟩ := mine_split between rest
  simp only [Prod.mk.injEq] at found versions
  rw [found.1] at names
  have assigned := read_assigned orderly traced split (fun move listed => moves ▸ List.mem_append_left _ listed) names named
  obtain ⟨gap,before⟩ := assigned_earlier orderly traced again removed split (own ▸ other) assigned
  have whole : middle ++ delete :: oldest = (middle ++ delete :: (gap ++ assignments :: later')) ++ account :: earlier' := by
    rw [before,split']; simp
  rw [versioned,subject]
  cases known : versionOf input.userId b with
  | none => exact nofun
  | some early =>
    apply passed_stale _ stored
    exact earlier_stale orderly traced removed whole (versions.2.symm.trans versions.1) (versions.1 ▸ known)

theorem refresh_stale {token : AccessToken} {r i : CallId} (again : NotAssignedAgain past r input)
    (removed : RemovedAt past r input bump delete newest middle oldest) (other : i ≠ r)
    (apart : ¬ Straddles past i r input) (refreshed : Refreshed token (mine i past))
    (subject : token.sub = input.userId) (tenant : token.tenantId = input.tenantId)
    (application : token.applicationId = input.applicationId) (named : input.roleName ∈ token.roles)
    (present : versionOf input.userId initial = some first)
    (stored : versionOf input.userId c.state = some version) : token.tokenVersion ≠ some version := by
  obtain ⟨drawn,clock,b,between,a,older,moves,idle,names,versioned⟩ := refreshed
  rw [subject,tenant,application] at names
  have whole : mine i past = [drawn,clock] ++ (b,b) :: (between ++ (a,a) :: older) := by rw [moves]; simp
  obtain ⟨later,account,earlier,split,own,versions,rest⟩ := mine_split _ whole
  obtain ⟨later',assignments,earlier',split',own',found,rest'⟩ := mine_split _ rest
  simp only [Prod.mk.injEq] at found versions
  rw [found.1] at names
  have placed : past = (later ++ account :: later') ++ assignments :: earlier' := by rw [split,split']; simp
  have assigned := read_assigned orderly traced placed (fun move listed => by rw [moves]; simp [listed]) names named
  obtain ⟨gap,before⟩ := assigned_earlier orderly traced again removed placed (own' ▸ other) assigned
  rcases compare_places (removed.split.symm.trans split) with ⟨newer,older',_⟩ | same | ⟨newer,older',_⟩
  · rcases versioned with known | missing
    · rw [known,subject]
      cases known : versionOf input.userId b with
      | none => exact nofun
      | some early =>
        apply passed_stale _ stored
        exact earlier_stale orderly traced removed older' (versions.2.symm.trans versions.1) (versions.1 ▸ known)
    · rw [missing]
      apply passed_stale _ stored
      apply raise_passes orderly (removed.split ▸ traced) removed.raised
      obtain ⟨c',ran,here⟩ := traced_before (removed.split ▸ traced)
      obtain ⟨now,known,_⟩ := version_kept orderly ran present
      exact ⟨now,here ▸ known,Nat.zero_le _⟩
  · have raises := removed.raises
    rw [same] at raises
    exact absurd (own.symm.trans raises) other
  · -- the refresh reads the account after the raise
    refine absurd ⟨later,account,newer,bump,middle,delete,gap,assignments,earlier',?_,own,removed.raises,removed.deletes,own',?_,
      ?_,?_,assigned,?_⟩ apart
    · rw [split,older',before]
    · have count := congrArg List.length whole
      rw [split,mine_append,mine_cons,if_pos own,rest] at count
      simp only [List.length_append,List.length_cons,List.length_nil] at count
      omega
    · rw [← before]; exact removed.second
    · rw [← before]; exact removed.first
    · have joined : later' ++ assignments :: earlier' =
          (newer ++ bump :: (middle ++ delete :: gap)) ++ assignments :: earlier' := by rw [← split',older',before]; simp
      obtain rfl := List.append_cancel_right joined
      apply idle_events
      have reads : mine i (newer ++ bump :: (middle ++ delete :: gap)) = between := by
        have tail : mine i (assignments :: earlier') = (a,a) :: older := by
          rw [mine_cons,if_pos own',rest',← found.1,← found.2]
        rw [split',mine_append,tail] at rest
        exact List.append_cancel_right rest
      have rearranged : account :: (newer ++ bump :: (middle ++ delete :: (gap ++ [assignments]))) =
          account :: ((newer ++ bump :: (middle ++ delete :: gap)) ++ [assignments]) := by simp
      rw [rearranged,mine_cons,if_pos own,mine_append,reads,mine_cons,if_pos own',mine_nil,← versions.1,← versions.2,
        ← found.1,← found.2]
      exact idle_cons (idle_append idle (idle_cons idle_nil a)) b

theorem replied (finished : c.Finished i call result) : Replied call result (mine i past) :=
  (run_kept orderly traced).1.busy i call _ finished

theorem named_assigned {token : AccessToken} {input : RoleInput}
    (told : if refresh = true then Refreshed token (mine i past) else LoggedIn token (mine i past))
    (subject : token.sub = input.userId) (tenant : token.tenantId = input.tenantId)
    (application : token.applicationId = input.applicationId) (named : input.roleName ∈ token.roles) :
    ∃ move ∈ mine i past, Assigned input move.1 := by
  have settled : ∀ move ∈ mine i past, Settled initial.roles move.1 := fun move => move_settled orderly traced
  cases refresh with
  | true =>
    obtain ⟨drawn,clock,b,between,a,older,moves,_,names,_⟩ := told
    rw [subject,tenant,application] at names
    rw [moves] at settled ⊢
    exact ⟨(a,a),by simp,names_assigned (settled _ (by simp)) (fun move listed => (settled move (by simp [listed])).2) names named⟩
  | false =>
    obtain ⟨newer,a,between,b,older,moves,names,_⟩ := told
    rw [subject,tenant,application] at names
    rw [moves] at settled ⊢
    exact ⟨(a,a),by simp,names_assigned (settled _ (by simp)) (fun move listed => (settled move (by simp [listed])).2) names named⟩

-- A refresh that does not straddle the removal, like every login, leaves no
-- token with the role and the version stored.
theorem removed_role_stale
    (present : versionOf input.userId initial = some first) (removal : c.Finished r (.removeRole input) (.ok none))
    (issue : c.Finished i call (.ok (some (.issued user tokens)))) (again : NotAssignedAgain past r input)
    (apart : call.isRefresh = true → ¬ Straddles past i r input)
    (subject : tokens.accessToken.sub = input.userId) (tenant : tokens.accessToken.tenantId = input.tenantId)
    (application : tokens.accessToken.applicationId = input.applicationId)
    (named : input.roleName ∈ tokens.accessToken.roles) (stored : versionOf input.userId c.state = some version) :
    tokens.accessToken.tokenVersion ≠ some version := by
  have other : i ≠ r := by
    intro same
    subst same
    cases issue.symm.trans removal
  have told := (replied orderly traced issue).2 user tokens rfl
  rcases (replied orderly traced removal).1 input rfl none rfl with ⟨w,moves,missing⟩ | ⟨newer,w,w',s,role,moves,here,selected⟩
  · -- without such a role no token has it
    obtain ⟨move,listed,role,held,selected,_⟩ := named_assigned orderly traced told subject tenant application named
    have before := move_settled orderly traced (moves ▸ List.mem_singleton_self _)
    rw [(move_settled orderly traced listed).2,← before.2] at held
    rw [missing role held] at selected
    cases selected
  · obtain ⟨bump,delete,newest,middle,oldest,removed⟩ := removed_at orderly traced moves here selected
    cases refresh : call.isRefresh with
    | true =>
      rw [refresh,if_pos rfl] at told
      exact refresh_stale orderly traced again removed other (apart refresh) told subject tenant application named present stored
    | false =>
      rw [refresh] at told
      exact login_stale orderly traced again removed other told subject tenant application named stored

def RoleCall.assigns : RoleCall → Bool
  | .assignRole _ => true
  | _ => false

theorem quiet_notAssigned (quiet : past.all (fun event => !event.call.assigns) = true) : NotAssignedAgain past r input := by
  intro newer event older rfl _ gone both
  obtain ⟨role,present,selected,held⟩ := both
  have idle : event.call.assigns = false := by simpa using List.all_eq_true.mp quiet event (by simp)
  apply gone
  cases (along_at (run_kept orderly traced).1.along).1 with
  | mild same => exact ⟨role,same.1.1 ▸ present,selected,same.1.2 ▸ held⟩
  | removed _ _ _ _ _ _ done =>
    rw [done] at present held
    exact ⟨role,present,selected,List.mem_of_mem_erase held⟩
  | added _ _ own => rw [own] at idle; cases idle
  | bumped _ done =>
    rw [done] at present held
    exact ⟨role,present,selected,held⟩

end

def removal : RoleInput := ⟨"user","tenant","application","ADMIN"⟩

-- An administrator with a live refresh token.
def accountOfAdmin : World :=
  {accountWithRole with
    assignments := [removal.assignment sampleRole]
    sessions := ⟨[⟨"session","user","tenant","application",.active,"family","#token",none,none,0,1000,none⟩],[]⟩}

theorem accountOfAdmin_orderly : Orderly accountOfAdmin where
  users := List.nodup_singleton _
  assignments := List.nodup_singleton _
  roleIds := List.nodup_singleton _
  names := by
    intro role listed role' listed' _ _ _
    rw [List.mem_singleton.mp listed,List.mem_singleton.mp listed']
  proper := by
    intro assignment held role listed _
    rw [List.mem_singleton.mp held,List.mem_singleton.mp listed]
    exact ⟨rfl,rfl⟩

def hasRemoved (c : Config CallId RoleCall World Error (Option Reply)) (r : CallId) : Bool :=
  match c.calls r with
  | some (.removeRole input,.done (.ok none)) => input = removal
  | _ => false

theorem hasRemoved_finished (done : hasRemoved c r = true) : c.Finished r (.removeRole removal) (.ok none) := by
  unfold hasRemoved at done
  split at done
  · rename_i input found
    rw [decide_eq_true_eq] at done
    exact done ▸ found
  · cases done

def hasIssued (c : Config CallId RoleCall World Error (Option Reply)) (i : CallId) (refresh : Bool) (check : AccessToken → Bool) : Bool :=
  match c.calls i with
  | some (call,.done (.ok (some (.issued _ tokens)))) => call.isRefresh = refresh && check tokens.accessToken
  | _ => false

theorem hasIssued_finished (done : hasIssued c i refresh check = true) : ∃ call user tokens,
    c.Finished i call (.ok (some (.issued user tokens))) ∧ call.isRefresh = refresh ∧ check tokens.accessToken = true := by
  unfold hasIssued at done
  split at done
  · rename_i call user tokens found
    simp only [Bool.and_eq_true,decide_eq_true_eq] at done
    exact ⟨call,user,tokens,found,done.1,done.2⟩
  · cases done

def ofAdmin (token : AccessToken) : Bool :=
  token.sub = "user" && token.tenantId = "tenant" && token.applicationId = "application" && token.roles.contains "ADMIN"

theorem removed_admin_stale : ∃ past c i call user tokens, RoleRun sampleEngine ⟨true⟩ accountOfAdmin past c ∧
    c.Finished i call (.ok (some (.issued user tokens))) ∧ "ADMIN" ∈ tokens.accessToken.roles ∧
    versionOf "user" c.state = some 1 ∧ tokens.accessToken.tokenVersion ≠ some 1 := by
  have performed : (perform (roleProgram sampleEngine ⟨true⟩) [] (start accountOfAdmin)
      (List.flatten [[.start 0 (.loginPassword ⟨"application",some "user@example.com",none,"Passw0rd",anyDevice⟩)],
        List.replicate 16 (.act 0),[.start 1 (.removeRole removal)],List.replicate 4 (.act 1)])).any
      (fun after => hasRemoved after.2 1 && hasIssued after.2 0 false ofAdmin && decide (versionOf "user" after.2.state = some 1) &&
        after.1.all (fun event => !event.call.assigns)) = true := by decide +kernel
  obtain ⟨past,c,traced,checked⟩ := perform_exists performed
  simp only [Bool.and_eq_true,decide_eq_true_eq] at checked
  obtain ⟨⟨⟨removed,issued⟩,stored⟩,quiet⟩ := checked
  obtain ⟨call,user,tokens,finished,login,shown⟩ := hasIssued_finished issued
  simp only [ofAdmin,Bool.and_eq_true,decide_eq_true_eq,List.contains_iff_mem] at shown
  obtain ⟨⟨⟨subject,tenant⟩,application⟩,named⟩ := shown
  refine ⟨past,c,0,call,user,tokens,traced,finished,named,stored,?_⟩
  exact removed_role_stale accountOfAdmin_orderly traced rfl (hasRemoved_finished removed) finished
    (quiet_notAssigned accountOfAdmin_orderly traced quiet) (fun refresh => nomatch login.symm.trans refresh) subject tenant
    application named stored

theorem removed_admin_refreshes : ∃ past c call user tokens, RoleRun sampleEngine ⟨true⟩ accountOfAdmin past c ∧
    c.Finished 1 (.removeRole removal) (.ok none) ∧ NotAssignedAgain past 1 removal ∧
    c.Finished 0 call (.ok (some (.issued user tokens))) ∧ tokens.accessToken.sub = "user" ∧
    "ADMIN" ∈ tokens.accessToken.roles ∧ tokens.accessToken.tokenVersion = some 1 ∧ versionOf "user" c.state = some 1 := by
  have performed : (perform (roleProgram sampleEngine ⟨true⟩) [] (start accountOfAdmin)
      (List.flatten [[.start 0 (.refreshSession "token" anyDevice)],List.replicate 14 (.act 0),
        [.start 1 (.removeRole removal)],List.replicate 4 (.act 1),List.replicate 3 (.act 0)])).any
      (fun after => hasRemoved after.2 1 &&
        hasIssued after.2 0 true (fun token => ofAdmin token && decide (token.tokenVersion = some 1)) &&
        decide (versionOf "user" after.2.state = some 1) && after.1.all (fun event => !event.call.assigns)) = true := by
    decide +kernel
  obtain ⟨past,c,traced,checked⟩ := perform_exists performed
  simp only [Bool.and_eq_true,decide_eq_true_eq] at checked
  obtain ⟨⟨⟨removed,issued⟩,stored⟩,quiet⟩ := checked
  obtain ⟨call,user,tokens,finished,_,shown⟩ := hasIssued_finished issued
  simp only [ofAdmin,Bool.and_eq_true,decide_eq_true_eq,List.contains_iff_mem] at shown
  obtain ⟨⟨⟨⟨subject,_⟩,_⟩,named⟩,version⟩ := shown
  exact ⟨past,c,call,user,tokens,traced,hasRemoved_finished removed,quiet_notAssigned accountOfAdmin_orderly traced quiet,finished,
    subject,named,version,stored⟩

end Pezhwan.Auth
