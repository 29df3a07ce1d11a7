import Pezhwan.Session.Conduct

namespace Pezhwan.Session
open Atomic Config

abbrev Pool := Config CallId Call World Error Reply

section
variable {service : SessionService}

abbrev Reached (service : SessionService) (permit : World → World → Prop) (now : Nat) (c : Pool) : Prop :=
  Runs (program service) Surroundings permit (start (empty now)) c

abbrev Anything : World → World → Prop := fun _ _ => True

theorem sound (service : SessionService) :
    Sound (discipline service) (program service) Surroundings ([],∅)
      (fun i call result u => Outcome service i call result u.1) where
  safe _ call := safe_program rfl call
  quiet valid moved := surroundings_quiet valid moved

theorem held_empty (service : SessionService) (now : Nat) :
    Held (discipline service) ([],∅) (fun i call result u => Outcome service i call result u.1)
      (start (empty now) : Pool) := by
  refine held_start (inv_empty now) ?_
  intro i
  simp only [discipline,view,empty,Atomic.entriesOf,Owns,List.getElem?_nil,List.filter_nil,reduceCtorEq,false_and,
    exists_false]
  rfl

theorem held (path : Reached service permit now c) :
    Held (discipline service) ([],∅) (fun i call result u => Outcome service i call result u.1) c :=
  held_runs (sound service) (held_empty service now) path

theorem reached_inv (path : Reached service permit now c) : Inv service c.state := (held path).inv

theorem finished_outcome (path : Reached service permit now c) (finished : c.Finished i call result) :
    Outcome service i call result (entriesOf i c.state.store.log) := (held path).finished finished

theorem claim_of_hash (valid : Inv service w) (one : .claimed c parent ∈ w.store.log)
    (two : .claimed d other ∈ w.store.log)
    (same : parent.currentRefreshTokenHash = other.currentRefreshTokenHash) : parent.id = other.id := by
  obtain ⟨c',birth,made,identity⟩ := valid.history.claimedBorn c parent one
  obtain ⟨d',birth',made',identity'⟩ := valid.history.claimedBorn d other two
  obtain ⟨id,hashed,_⟩ := identity_parts identity
  obtain ⟨id',hashed',_⟩ := identity_parts identity'
  rw [hashed,hashed'] at same
  rw [id,id',(born_hash valid.history made made' same).2]

theorem claimant_of_id {log : List Entry} (once : (log.filterMap claimedId).Nodup) (one : .claimed c parent ∈ log)
    (two : .claimed d other ∈ log) (same : parent.id = other.id) : c = d := by
  have entries : Entry.claimed c parent = .claimed d other :=
    Collection.filterMap_once once one two rfl (congrArg some same.symm)
  cases entries
  rfl

theorem refresh_parts (path : Reached service permit now c)
    (finished : c.Finished i (.refresh token ctx) (.ok (.session created))) :
    ∃ parent child, .claimed i parent ∈ c.state.store.log ∧ .inserted i child parent ∈ c.state.store.log ∧
      presents (service.hashRefreshToken token) ctx parent = true ∧ child.owner = parent.owner ∧
      created.Describes service child := by
  obtain ⟨parent,child,entries,presented,owner,described⟩ := finished_outcome path finished
  refine ⟨parent,child,?_,?_,presented,owner,described⟩
  · have listed : .claimed i parent ∈ entriesOf i c.state.store.log := by rw [entries]; simp
    exact (mem_entriesOf.mp listed).1
  · have listed : .inserted i child parent ∈ entriesOf i c.state.store.log := by rw [entries]; simp
    exact (mem_entriesOf.mp listed).1

-- In every interleaving and in both transaction modes a family has one live
-- refresh token, which is spent once and passes its owner on.
theorem single_live_refresh_token (service : SessionService) (now : Nat) (c : Pool)
    (path : Reached service Anything now c) :
    (∀ doc ∈ c.state.store.docs, ∀ other ∈ c.state.store.docs, doc.status = .active → other.status = .active →
      doc.familyId = other.familyId → doc = other) ∧
    (c.state.store.log.filterMap claimedId).Nodup ∧
    (∀ i j token ctx ctx' created created', c.Finished i (.refresh token ctx) (.ok (.session created)) →
      c.Finished j (.refresh token ctx') (.ok (.session created')) → i = j) ∧
    (∀ i token ctx created, c.Finished i (.refresh token ctx) (.ok (.session created)) →
      ∃ parent child, .claimed i parent ∈ c.state.store.log ∧ .inserted i child parent ∈ c.state.store.log ∧
        parent.currentRefreshTokenHash = service.hashRefreshToken token ∧
        created.sessionId = child.id ∧ service.hashRefreshToken created.refreshToken = child.currentRefreshTokenHash ∧
        child.userId = parent.userId ∧ child.tenantId = parent.tenantId ∧
        child.applicationId = parent.applicationId ∧ child.familyId = parent.familyId ∧
        created.userId = parent.userId ∧ created.tenantId = parent.tenantId ∧
        created.applicationId = parent.applicationId ∧ created.familyId = parent.familyId) := by
  have valid := reached_inv path
  have hashOf : ∀ {token ctx} {parent : SessionDoc}, presents (service.hashRefreshToken token) ctx parent = true →
      parent.currentRefreshTokenHash = service.hashRefreshToken token := by
    intro token ctx parent presented
    simp only [presents,Bool.and_eq_true,decide_eq_true_eq] at presented
    exact presented.1.1
  refine ⟨?_,valid.history.claimedOnce,?_,?_⟩
  · intro doc member other memberOther active activeOther family
    have id := valid.current.oneActive doc member other memberOther active activeOther family
    have here := Collection.lookup_member valid.current.ids member
    have there := Collection.lookup_member valid.current.ids memberOther
    rw [id,there] at here
    exact (Option.some.inj here).symm
  · intro i j token ctx ctx' created created' one two
    obtain ⟨parent,_,claimed,_,presented,_⟩ := refresh_parts path one
    obtain ⟨parent',_,claimed',_,presented',_⟩ := refresh_parts path two
    have same := claim_of_hash valid claimed claimed' ((hashOf presented).trans (hashOf presented').symm)
    exact claimant_of_id valid.history.claimedOnce claimed claimed' same
  · intro i token ctx created finished
    obtain ⟨parent,child,claimed,inserted,presented,owner,id,user,tenant,application,family,_,hashed⟩ :=
      refresh_parts path finished
    obtain ⟨sameUser,sameTenant,sameApplication,sameFamily⟩ := owner_parts owner
    exact ⟨parent,child,claimed,inserted,hashOf presented,id,hashed,sameUser,sameTenant,sameApplication,sameFamily,
      user.trans sameUser,tenant.trans sameTenant,application.trans sameApplication,family.trans sameFamily⟩

-- A small service to run schedules on.
def sampleRandom : Random where
  fresh n := String.ofList (List.replicate (n+1) 'x')
  injective n m same := by
    have lists := congrArg String.toList same
    simp only [String.toList_ofList] at lists
    simpa using congrArg List.length lists

def sampleService (transactionsSupported : Bool) : SessionService where
  random := sampleRandom
  hashRefreshToken token := String.ofList ('#' :: token.toList)
  hash_injective token other same := by
    have lists := congrArg String.toList same
    simp only [String.toList_ofList,List.cons.injEq,true_and] at lists
    exact String.ext lists
  refreshTokenTtlMs := 1000
  maxActiveSessions := 5
  transactionsSupported
  driverRetries := 1

def anyContext : RefreshContext := ⟨none,none,none,none,none⟩

-- Draws 0 and 1 are the family and the token of the created session, draw 3 the
-- token of its child.
def loggedIn : List (Move CallId Call) :=
  .start 0 (.create ⟨"user","tenant","application",none,none,none⟩) :: List.replicate 6 (.act 0)

def sampleSession (tokenDraw idDraw : Nat) (status : SessionStatus) (replacedBy : Option Nat) : SessionDoc where
  id := sampleRandom.fresh idDraw
  userId := "user"
  tenantId := "tenant"
  applicationId := "application"
  status
  familyId := sampleRandom.fresh 0
  currentRefreshTokenHash := (sampleService true).hashRefreshToken (sampleRandom.fresh tokenDraw)
  replacedBySessionId := replacedBy.map sampleRandom.fresh
  device := some ⟨"","","Unknown device"⟩
  lastActiveAt := 0
  expiresAt := 1000
  revokedAt := if status = .active then none else some 0

theorem single_live_refresh_token_rotated : ∃ c created, Reached (sampleService true) Anything 0 c ∧
    c.Finished 1 (.refresh (sampleRandom.fresh 1) anyContext) (.ok (.session created)) ∧
    (c.state.store.log.filterMap claimedId).Nodup ∧
    ∃ parent child, .claimed 1 parent ∈ c.state.store.log ∧ .inserted 1 child parent ∈ c.state.store.log ∧
      created.familyId = parent.familyId := by
  have played : (play (program (sampleService true)) (fun _ _ => true) (start (empty 0)) (List.flatten [loggedIn,
        [.start 1 (.refresh (sampleRandom.fresh 1) anyContext)],List.replicate 10 (.act 1)])).any (fun c =>
        c.finishedWith 1 (.refresh (sampleRandom.fresh 1) anyContext) (.ok (.session
          ⟨"xxxxx","user","tenant","application","x","xxxx","#xxxx",1000⟩))) = true := by decide +kernel
  obtain ⟨c,path,finished⟩ := play_exists (fun _ _ _ => trivial) played
  have done := finishedWith_finished finished
  obtain ⟨_,once,_,parts⟩ := single_live_refresh_token (sampleService true) 0 c path
  obtain ⟨parent,child,claimed,inserted,_,_,_,_,_,_,_,_,_,_,family⟩ := parts 1 _ _ _ done
  exact ⟨c,_,path,done,once,parent,child,claimed,inserted,family⟩

-- In every interleaving a session keeps the owner and the family it was created
-- with, and a family is never of two owners.
theorem sessions_keep_owner (service : SessionService) (now : Nat) (c : Pool) (path : Reached service Anything now c) :
    (c.state.store.docs.map SessionDoc.id).Nodup ∧
    (∀ doc ∈ c.state.store.docs, ∃ i root, .created i root ∈ c.state.store.log ∧ doc.owner = root.owner ∧
      Owns service.random c.state.base.draws i root.familyId) ∧
    ∀ doc ∈ c.state.store.docs, ∀ other ∈ c.state.store.docs, doc.familyId = other.familyId → doc.owner = other.owner := by
  have valid := reached_inv path
  have rooted : ∀ doc ∈ c.state.store.docs, ∃ i root, .created i root ∈ c.state.store.log ∧ doc.owner = root.owner ∧
      Owns service.random c.state.base.draws i root.familyId := by
    intro doc member
    obtain ⟨j,birth,born,same⟩ := valid.current.born doc member
    obtain ⟨i,root,created,drawn,owner⟩ := valid.history.rooted j birth born
    exact ⟨i,root,created,(identity_parts same).2.2.trans owner,drawn⟩
  refine ⟨valid.current.ids,rooted,?_⟩
  intro doc member other memberOther family
  obtain ⟨i,root,created,owner,drawn⟩ := rooted doc member
  obtain ⟨j,root',created',owner',drawn'⟩ := rooted other memberOther
  rw [← (owner_parts owner).2.2.2,family,(owner_parts owner').2.2.2] at drawn
  obtain rfl := owns_unique drawn drawn'
  rw [owner,owner',valid.history.once i root root' (.inl created) (.inl created')]

theorem sessions_keep_owner_created : ∃ c, Reached (sampleService true) Anything 0 c ∧ c.state.store.docs.length = 1 ∧
    (c.state.store.docs.map SessionDoc.id).Nodup := by
  have played : (play (program (sampleService true)) (fun _ _ => true) (start (empty 0)) loggedIn).any (fun c =>
      c.state.store.docs.length = 1) = true := by decide +kernel
  obtain ⟨c,path,one⟩ := play_exists (fun _ _ _ => trivial) played
  exact ⟨c,path,of_decide_eq_true one,(sessions_keep_owner (sampleService true) 0 c path).1⟩

end

-- Sessions obtained from each other by rotation.
def Descends (log : List Entry) : String → String → Prop :=
  Relation.ReflTransGen fun old new =>
    ∃ c child parent, .inserted c child parent ∈ log ∧ parent.id = old ∧ child.id = new

-- Once a presentation of a settled session's token has revoked the family and
-- failed, no descendant is active, then or later.
def ReuseKillsFamily (service : SessionService) (permit : World → World → Prop) : Prop :=
  ∀ now c, Reached service permit now c → ∀ i token ctx doc,
    c.Finished i (.refresh token ctx) (.error reuseDetected) → .presented i doc ∈ c.state.store.log →
    ∀ c', Runs (program service) Surroundings permit c c' → ∀ other ∈ c'.state.store.docs,
      other.familyId = doc.familyId → Descends c'.state.store.log doc.id other.id → other.status ≠ .active

-- A rotation adds its child only while its parent is still stored as rotating.
def ParentRotating (s t : World) : Prop :=
  ∀ i child parent, t.store.log = s.store.log ++ [.inserted i child parent] →
    ∃ doc ∈ s.store.docs, doc.id = parent.id ∧ doc.status = .rotating

section
variable {service : SessionService}

theorem log_grows (path : Reached service permit now c) (later : Runs (program service) Surroundings permit c c') :
    c.state.store.log <+: c'.state.store.log := by
  let further : World → Prop := fun w => c.state.store.log <+: w.store.log
  change further c'.state
  refine invariant_runs (sound service) ?_ ?_ (held path) (List.prefix_refl _) later
  · intro i s t _ before change _
    obtain ⟨_,entries,log,_⟩ := change_parts change
    exact before.trans ⟨entries,log.symm⟩
  · intro s t _ before moved
    cases moved <;> exact before

def Buried (w : World) : Prop :=
  ∀ c doc, .presented c doc ∈ w.store.log → .familyRevoked c doc.familyId ∈ w.store.log →
    ∀ other ∈ w.store.docs, other.familyId = doc.familyId → other.status.isSettled

theorem settles_settled (settles : Settles doc updated) (settled : doc.status.isSettled) : updated.status.isSettled := by
  rcases settles.2 with same | now
  · rw [same]; exact settled
  · exact now

theorem preserves_buried (valid : Inv service s) (buried : Buried s) (change : Change service i s t)
    (permitted : ParentRotating s t) : Buried t := by
  cases change with
  | quiet drawn store =>
    unfold Buried
    rw [store]
    exact buried
  | settled f entries drawn docs log settles remarks first =>
    intro c doc presented revoked other member family
    rw [log] at presented revoked
    rcases List.mem_append.mp revoked with revokedBefore | revokedNow
    · rcases List.mem_append.mp presented with before | now
      · rw [docs] at member
        obtain ⟨old,present,rfl⟩ := List.mem_map.mp member
        rw [keeps_family (settles_keeps (settles old present))] at family
        exact settles_settled (settles old present) (buried c doc before revokedBefore old present family)
      · have call : c = i := (remarks _ now).1
        exact absurd call (untouched_absent (first c doc now) revokedBefore)
    · exact (remarks _ revokedNow).2 other member family
  | created doc drawn docs log untouched id family token =>
    intro c seen presented revoked other member same
    rw [log] at presented revoked
    rw [docs] at member
    rcases List.mem_append.mp member with before | last
    · exact buried c seen (by simpa using presented) (by simpa using revoked) other before same
    · obtain ⟨c',birth,made,identity⟩ := valid.history.presentedBorn c seen (by simpa using presented)
      rw [List.mem_singleton.mp last] at same
      exact absurd same.symm
        (family_other (history_drawn valid.history drawn) family (unborn_untouched untouched) made identity)
  | claimed doc rotated f drawn docs log untouched found active same kept rotates =>
    intro c seen presented revoked other member family
    rw [log] at presented revoked
    rw [docs] at member
    obtain ⟨old,present,rfl⟩ := List.mem_map.mp member
    by_cases hit : old.id = doc.id
    · have identity := (rotates old present hit).1
      have here := Collection.lookup_member valid.current.ids present
      rw [hit,Collection.lookup_member valid.current.ids found] at here
      have equal := Option.some.inj here
      rw [(owner_parts (identity_parts identity).2.2).2.2.2,← equal] at family
      have settled := buried c seen (by simpa using presented) (by simpa using revoked) doc found family
      rw [active] at settled
      cases settled
    · rw [kept old present hit] at family ⊢
      exact buried c seen (by simpa using presented) (by simpa using revoked) old present family
  | inserted child parent f drawn docs log mine settles id owner token =>
    intro c seen presented revoked other member family
    have permitted := permitted i child parent log
    rw [log] at presented revoked
    rw [docs] at member
    have old := buried c seen (by simpa using presented) (by simpa using revoked)
    rcases List.mem_append.mp member with before | last
    · obtain ⟨doc,present,rfl⟩ := List.mem_map.mp before
      rw [keeps_family (settles_keeps (settles doc present))] at family
      exact settles_settled (settles doc present) (old doc present family)
    · obtain ⟨doc,present,named,rotating⟩ := permitted
      obtain ⟨_,birth,made,identity⟩ := valid.current.born doc present
      obtain ⟨_,birth',made',identity'⟩ := valid.history.claimedBorn i parent (claim_listed mine)
      have sameBirth : birth = birth' := by
        refine (born_id valid.history made made' ?_).2
        rw [← (identity_parts identity).1,← (identity_parts identity').1,named]
      rw [← sameBirth] at identity'
      have sameFamily : doc.familyId = seen.familyId := by
        rw [List.mem_singleton.mp last] at family
        have parentFamily := (owner_parts owner).2.2.2
        have docFamily := (owner_parts ((identity_parts identity).2.2.trans (identity_parts identity').2.2.symm)).2.2.2
        rw [docFamily,← parentFamily,family]
      have settled := old doc present sameFamily
      rw [rotating] at settled
      cases settled

theorem reached_buried (path : Reached service ParentRotating now c) : Buried c.state := by
  refine invariant_runs (sound service) preserves_buried ?_ (held_empty service now) ?_ path
  · intro s t _ buried moved
    cases moved with
    | tick | fault | cache => exact buried
    | expire kept fewer due =>
      intro c doc presented revoked other member
      exact buried c doc presented revoked other (fewer.subset member)
  · intro c doc presented
    cases presented

theorem reuse_kills_family (service : SessionService) : ReuseKillsFamily service ParentRotating := by
  intro now c path i token ctx doc finished presented c' later other member family _ active
  have listed : .presented i doc ∈ entriesOf i c.state.store.log := mem_entriesOf.mpr ⟨presented,rfl⟩
  have revoked := (finished_outcome path finished).1 rfl doc listed
  have grows := log_grows path later
  have settled := reached_buried (path.trans later) i doc (grows.subset presented)
    (grows.subset (mem_entriesOf.mp revoked).1) other member family
  rw [active] at settled
  cases settled

def parentRotating (s t : World) : Bool :=
  match t.store.log.drop s.store.log.length with
  | [.inserted _ _ parent] => s.store.docs.any fun doc => doc.id = parent.id && doc.status = .rotating
  | _ => true

theorem parentRotating_admits (s t : World) (passed : parentRotating s t = true) : ParentRotating s t := by
  intro i child parent log
  have added : t.store.log.drop s.store.log.length = [.inserted i child parent] := by rw [log]; simp
  rw [parentRotating,added] at passed
  simpa using passed

theorem reuse_kills_family_replayed : ∃ c, Reached (sampleService false) ParentRotating 0 c ∧
    c.Finished 2 (.refresh (sampleRandom.fresh 1) anyContext) (.error reuseDetected) ∧
    .presented 2 (sampleSession 1 2 .replaced (some 4)) ∈ c.state.store.log ∧
    ∀ c', Runs (program (sampleService false)) Surroundings ParentRotating c c' → ∀ other ∈ c'.state.store.docs,
      other.familyId = sampleRandom.fresh 0 →
      Descends c'.state.store.log (sampleRandom.fresh 2) other.id → other.status ≠ .active := by
  have played : (play (program (sampleService false)) parentRotating (start (empty 0)) (List.flatten [loggedIn,
        [.start 1 (.refresh (sampleRandom.fresh 1) anyContext)],List.replicate 8 (.act 1),
        [.start 2 (.refresh (sampleRandom.fresh 1) anyContext)],List.replicate 6 (.act 2)])).any (fun c =>
        c.finishedWith 2 (.refresh (sampleRandom.fresh 1) anyContext) (.error reuseDetected) &&
        decide (.presented 2 (sampleSession 1 2 .replaced (some 4)) ∈ c.state.store.log)) = true := by decide +kernel
  obtain ⟨c,path,passed⟩ := play_exists parentRotating_admits played
  simp only [Bool.and_eq_true,decide_eq_true_eq] at passed
  have done := finishedWith_finished passed.1
  exact ⟨c,path,done,passed.2,reuse_kills_family (sampleService false) 0 c path 2 _ _ _ done passed.2⟩

-- On a standalone server: the child's token is claimed by call 2, call 3
-- replays the first token, and call 2 then inserts its child.
def replayedDuringRotation : List (Move CallId Call) :=
  loggedIn ++ .start 1 (.refresh (sampleRandom.fresh 1) anyContext) :: (List.replicate 8 (.act 1) : List (Move CallId Call)) ++
    [.start 2 (.refresh (sampleRandom.fresh 3) anyContext),.act 2,
     .start 3 (.refresh (sampleRandom.fresh 1) anyContext)] ++
    (List.replicate 6 (.act 3) : List (Move CallId Call)) ++ (List.replicate 4 (.act 2) : List (Move CallId Call))

theorem reuse_spares_late_child : ¬ ReuseKillsFamily (sampleService false) Anything := by
  intro kills
  have played : (play (program (sampleService false)) (fun _ _ => true) (start (empty 0)) replayedDuringRotation).any (fun c =>
      c.finishedWith 3 (.refresh (sampleRandom.fresh 1) anyContext) (.error reuseDetected) &&
      decide (.presented 3 (sampleSession 1 2 .replaced (some 4)) ∈ c.state.store.log ∧
        .inserted 1 (sampleSession 3 4 .active none) (sampleSession 1 2 .rotating none) ∈ c.state.store.log ∧
        .inserted 2 (sampleSession 5 6 .active none) (sampleSession 3 4 .rotating none) ∈ c.state.store.log ∧
        sampleSession 5 6 .active none ∈ c.state.store.docs)) = true := by decide +kernel
  obtain ⟨c,path,passed⟩ := play_exists (fun _ _ _ => trivial) played
  simp only [Bool.and_eq_true,decide_eq_true_eq] at passed
  obtain ⟨finished,presented,firstRotation,secondRotation,member⟩ := passed
  have line : Descends c.state.store.log (sampleRandom.fresh 2) (sampleRandom.fresh 6) :=
    (Relation.ReflTransGen.single ⟨_,_,_,firstRotation,rfl,rfl⟩).tail ⟨_,_,_,secondRotation,rfl,rfl⟩
  exact kills 0 c path 3 _ _ _ (finishedWith_finished finished) presented c .refl _ member rfl line rfl

end

end Pezhwan.Session
