import Pezhwan.Session.Family

namespace Pezhwan.Session
open Atomic Config

-- When an unscoped revokeAll has returned, nothing that existed before it was
-- called, and nothing rotated out of that, is active, then or later.
def MassLogoutComplete (service : SessionService) (permit : World → World → Prop) : Prop :=
  ∀ now before, Reached service permit now before → ∀ i userId, before.calls i = none →
    ∀ c, Runs (program service) Surroundings permit before c →
      c.Finished i (.revokeAll userId none none) (.ok .done) →
      ∀ c', Runs (program service) Surroundings permit c c' →
        ∀ old ∈ before.state.store.docs, old.userId = userId → ∀ doc ∈ c'.state.store.docs,
          Descends c'.state.store.log old.id doc.id → doc.status ≠ .active

-- A rotation adds its child only if no unscoped revokeAll of its user has
-- updated the collection since the claim.
def NotOvertaken (s t : World) : Prop :=
  ∀ i child parent, t.store.log = s.store.log ++ [.inserted i child parent] →
    ∀ pre post j, s.store.log = pre ++ .allRevoked j parent.userId none none :: post → .claimed i parent ∉ pre

section
variable {service : SessionService}

theorem append_split {log entries pre post : List α} {x : α} (split : log ++ entries = pre ++ x :: post) :
    (∃ middle, log = pre ++ x :: middle ∧ post = middle ++ entries) ∨
      ∃ middle, pre = log ++ middle ∧ entries = middle ++ x :: post := by
  rcases List.append_eq_append_iff.mp split with ⟨middle,rfl,later⟩ | ⟨middle,rfl,later⟩
  · exact .inr ⟨middle,rfl,later⟩
  · cases middle with
    | nil => exact .inr ⟨[],by simp,by simpa using later.symm⟩
    | cons head tail =>
      simp only [List.cons_append,List.cons.injEq] at later
      obtain ⟨rfl,rfl⟩ := later
      exact .inl ⟨tail,rfl,rfl⟩

-- Families started before a mass logout stay without a live end after it.
def LoggedOut (w : World) : Prop :=
  ∀ pre post j userId, w.store.log = pre ++ .allRevoked j userId none none :: post →
    ∀ c root, .created c root ∈ pre → root.userId = userId →
      (∀ doc ∈ w.store.docs, doc.familyId = root.familyId → doc.status ≠ .active) ∧
      ∀ d parent, .claimed d parent ∈ post → parent.familyId ≠ root.familyId

theorem entry_split {log pre post : List Entry} (split : log ++ [entry] = pre ++ .allRevoked j userId none none :: post)
    (other : entry ≠ .allRevoked j userId none none) :
    ∃ middle, log = pre ++ .allRevoked j userId none none :: middle ∧ post = middle ++ [entry] := by
  rcases append_split split with old | ⟨middle,_,new⟩
  · exact old
  · rcases List.singleton_eq_append_iff.mp new with ⟨_,last⟩ | ⟨_,last⟩
    · simp only [List.cons.injEq] at last
      exact absurd last.1.symm other
    · cases last

theorem preserves_loggedOut (valid : Inv service s) (out : LoggedOut s) (change : Change service i s t)
    (permitted : NotOvertaken s t) : LoggedOut t := by
  cases change with
  | quiet drawn store =>
    unfold LoggedOut
    rw [store]
    exact out
  | settled f entries drawn docs log settles remarks first =>
    intro pre post j userId split c root created user
    rw [log] at split
    have noClaim : ∀ d parent, Entry.claimed d parent ∉ entries := fun d parent member => remarks _ member
    rcases append_split split with ⟨middle,old,rfl⟩ | ⟨middle,rfl,new⟩
    · obtain ⟨inactive,unclaimed⟩ := out pre middle j userId old c root created user
      constructor
      · intro doc member family active
        rw [docs] at member
        obtain ⟨before,present,rfl⟩ := List.mem_map.mp member
        have keeps := settles_keeps (settles before present)
        rw [keeps_family keeps] at family
        exact inactive before present family (keeps.2 active)
      · intro d parent claimed
        rcases List.mem_append.mp claimed with before | now
        · exact unclaimed d parent before
        · exact absurd now (noClaim d parent)
    · have remark := remarks (.allRevoked j userId none none) (by rw [new]; simp)
      have made : .created c root ∈ s.store.log := by
        rcases List.mem_append.mp created with before | now
        · exact before
        · have absurdRemark := remarks _ (by rw [new]; exact List.mem_append_left _ now)
          cases absurdRemark
      constructor
      · intro doc member family
        have present := member
        rw [docs] at present
        obtain ⟨before,inDocs,rfl⟩ := List.mem_map.mp present
        have keeps := settles_keeps (settles before inDocs)
        obtain ⟨_,birth,bornBirth,identity⟩ := valid.current.born before inDocs
        have owner : birth.owner = root.owner := by
          refine owner_of_family valid.history bornBirth (.inl made) ?_
          rw [← (owner_parts (identity_parts identity).2.2).2.2.2,← keeps_family keeps,family]
        have sameUser : (f before).userId = userId := by
          rw [(owner_parts (keeps_owner keeps)).1,(owner_parts (identity_parts identity).2.2).1,(owner_parts owner).1,user]
        exact remark.2 rfl rfl (f before) member sameUser
      · intro d parent claimed
        exact absurd (by rw [new]; exact List.mem_append_right _ (List.mem_cons_of_mem _ claimed)) (noClaim d parent)
  | created doc drawn docs log untouched id family token =>
    intro pre post j userId split c root created user
    rw [log] at split
    obtain ⟨middle,old,rfl⟩ := entry_split split (by simp)
    obtain ⟨inactive,unclaimed⟩ := out pre middle j userId old c root created user
    have made : .created c root ∈ s.store.log := by rw [old]; exact List.mem_append_left _ created
    constructor
    · intro other member same
      rw [docs] at member
      rcases List.mem_append.mp member with before | last
      · exact inactive other before same
      · rw [List.mem_singleton.mp last] at same
        exact absurd same.symm (family_other (history_drawn valid.history drawn) family (unborn_untouched untouched)
          (.inl made) rfl)
    · intro d parent claimed
      exact unclaimed d parent (by simpa using claimed)
  | claimed doc rotated f drawn docs log untouched found active same kept rotates =>
    intro pre post j userId split c root created user
    rw [log] at split
    obtain ⟨middle,old,rfl⟩ := entry_split split (by simp)
    obtain ⟨inactive,unclaimed⟩ := out pre middle j userId old c root created user
    have family : rotated.familyId = doc.familyId := (owner_parts (identity_parts same).2.2).2.2.2
    constructor
    · intro other member sameFamily live
      rw [docs] at member
      obtain ⟨before,present,rfl⟩ := List.mem_map.mp member
      by_cases hit : before.id = doc.id
      · rw [(rotates before present hit).2] at live
        cases live
      · rw [kept before present hit] at sameFamily live
        exact inactive before present sameFamily live
    · intro d parent claimed
      rcases List.mem_append.mp claimed with before | now
      · exact unclaimed d parent before
      · obtain ⟨_,rfl⟩ : d = i ∧ parent = rotated := by simpa using now
        rw [family]
        intro sameFamily
        exact inactive doc found sameFamily active
  | inserted child parent f drawn docs log mine settles id owner token =>
    intro pre post j userId split c root created user
    have permitted := permitted i child parent log
    rw [log] at split
    obtain ⟨middle,old,rfl⟩ := entry_split split (by simp)
    obtain ⟨inactive,unclaimed⟩ := out pre middle j userId old c root created user
    constructor
    · intro other member family
      rw [docs] at member
      rcases List.mem_append.mp member with before | last
      · obtain ⟨doc,present,rfl⟩ := List.mem_map.mp before
        have keeps := settles_keeps (settles doc present)
        rw [keeps_family keeps] at family
        exact fun active => inactive doc present family (keeps.2 active)
      · rw [List.mem_singleton.mp last,(owner_parts owner).2.2.2] at family
        have made : .created c root ∈ s.store.log := by rw [old]; exact List.mem_append_left _ created
        have claimed := claim_listed mine
        obtain ⟨_,birth,bornBirth,identity⟩ := valid.history.claimedBorn i parent claimed
        have sameOwner : birth.owner = root.owner := by
          refine owner_of_family valid.history bornBirth (.inl made) ?_
          rw [← (owner_parts (identity_parts identity).2.2).2.2.2,family]
        have sameUser : parent.userId = userId := by
          rw [(owner_parts (identity_parts identity).2.2).1,(owner_parts sameOwner).1,user]
        rw [old] at claimed
        rcases List.mem_append.mp claimed with early | late
        · exact absurd early (permitted pre middle j (sameUser ▸ old))
        · exact absurd family (unclaimed i parent (by simpa using late))
    · intro d other claimed
      exact unclaimed d other (by simpa using claimed)

theorem reached_loggedOut (path : Reached service NotOvertaken now c) : LoggedOut c.state := by
  refine invariant_runs (sound service) preserves_loggedOut ?_ (held_empty service now) ?_ path
  · intro s t _ out moved
    cases moved with
    | tick | fault | cache => exact out
    | expire kept fewer due =>
      intro pre post j userId split c root created user
      obtain ⟨inactive,unclaimed⟩ := out pre post j userId split c root created user
      exact ⟨fun doc member => inactive doc (fewer.subset member),unclaimed⟩
  · intro pre post j userId split
    simp [start,empty] at split

theorem descends_family (history : History service draws log) (line : Descends log old new)
    (oldBorn : Born log c birth) (oldId : birth.id = old) (newBorn : Born log d doc) (newId : doc.id = new) :
    doc.familyId = birth.familyId := by
  induction line generalizing d doc with
  | refl => rw [(born_id history oldBorn newBorn (oldId.trans newId.symm)).2]
  | tail _ edge ih =>
    obtain ⟨e,child,parent,inserted,parentId,childId⟩ := edge
    obtain ⟨claimed,owner⟩ := history.parents e child parent inserted
    obtain ⟨e',origin,originBorn,identity⟩ := history.claimedBorn e parent claimed
    have same : doc = child := (born_id history newBorn (.inr ⟨parent,inserted⟩) (newId.trans childId.symm)).2
    rw [same,(owner_parts owner).2.2.2,(owner_parts (identity_parts identity).2.2).2.2.2]
    exact ih originBorn ((identity_parts identity).1.symm.trans parentId)

theorem mass_logout_complete (service : SessionService) : MassLogoutComplete service NotOvertaken := by
  intro now before path i userId idle c toReturn finished c' later old present user doc member line
  have untouched : entriesOf i before.state.store.log = [] := congrArg Prod.fst ((held path).idle i idle)
  have outcome : entriesOf i c.state.store.log = [.allRevoked i userId none none] :=
    finished_outcome (path.trans toReturn) finished
  have listed : .allRevoked i userId none none ∈ c.state.store.log := by
    have mine : .allRevoked i userId none none ∈ entriesOf i c.state.store.log := by rw [outcome]; simp
    exact (mem_entriesOf.mp mine).1
  obtain ⟨during,logAtReturn⟩ := log_grows path toReturn
  obtain ⟨after,logNow⟩ := log_grows (path.trans toReturn) later
  rw [← logAtReturn] at listed
  have inDuring : .allRevoked i userId none none ∈ during := by
    rcases List.mem_append.mp listed with early | late
    · exact absurd (rfl : (Entry.allRevoked i userId none none).call = i) (untouched_absent untouched early)
    · exact late
  obtain ⟨first,second,rfl⟩ := List.append_of_mem inDuring
  obtain ⟨maker,birth,bornBirth,identity⟩ := (reached_inv path).current.born old present
  obtain ⟨starter,root,created,_,owner⟩ := (reached_inv path).history.rooted maker birth bornBirth
  have split : c'.state.store.log =
      (before.state.store.log ++ first) ++ .allRevoked i userId none none :: (second ++ after) := by
    rw [← logNow,← logAtReturn]
    simp
  have valid := reached_inv ((path.trans toReturn).trans later)
  obtain ⟨_,docBirth,docBorn,docIdentity⟩ := valid.current.born doc member
  have bornNow : Born c'.state.store.log maker birth := by
    rw [split,List.append_assoc]
    exact born_append.mpr (.inl bornBirth)
  have family := descends_family valid.history line bornNow (identity_parts identity).1.symm docBorn
    (identity_parts docIdentity).1.symm
  have sameUser := (owner_parts ((identity_parts identity).2.2.trans owner)).1
  have sameFamily := (owner_parts owner).2.2.2
  refine (reached_loggedOut ((path.trans toReturn).trans later) _ _ i userId split starter root
    (List.mem_append_left _ created) (sameUser.symm.trans user)).1 doc member ?_
  rw [(owner_parts (identity_parts docIdentity).2.2).2.2.2,family,sameFamily]

def notOvertaken (s t : World) : Bool :=
  match t.store.log.drop s.store.log.length with
  | [.inserted i _ parent] => (s.store.log.dropWhile (· ≠ .claimed i parent)).all fun entry => match entry with
    | .allRevoked _ userId none none => userId ≠ parent.userId
    | _ => true
  | _ => true

theorem notOvertaken_admits (s t : World) (passed : notOvertaken s t = true) : NotOvertaken s t := by
  intro i child parent log pre post j split claimed
  have added : t.store.log.drop s.store.log.length = [.inserted i child parent] := by rw [log]; simp
  rw [notOvertaken,added,split] at passed
  obtain ⟨first,last,rfl⟩ := List.append_of_mem claimed
  simp only [List.all_eq_true] at passed
  have reached : ∀ {prior rest : List Entry}, rest.dropWhile (· ≠ Entry.claimed i parent) = rest → ∀ entry ∈ rest,
      entry ∈ (prior ++ rest).dropWhile (· ≠ Entry.claimed i parent) := by
    intro prior rest start entry member
    induction prior with
    | nil => rw [List.nil_append,start]; exact member
    | cons head tail ih =>
      rw [List.cons_append,List.dropWhile_cons]
      split
      · exact ih
      · exact List.mem_cons_of_mem _ (List.mem_append_right _ member)
  have verdict := passed (.allRevoked j parent.userId none none) (by
    rw [List.append_assoc]
    refine reached ?_ _ (by simp)
    simp)
  simp at verdict

-- The logout runs between two rotations.
theorem mass_logout_complete_idle : ∃ before c, Reached (sampleService true) NotOvertaken 0 before ∧
    before.calls 1 = none ∧ sampleSession 1 2 .active none ∈ before.state.store.docs ∧
    Runs (program (sampleService true)) Surroundings NotOvertaken before c ∧
    c.Finished 1 (.revokeAll "user" none none) (.ok .done) ∧
    ∀ c', Runs (program (sampleService true)) Surroundings NotOvertaken c c' → ∀ doc ∈ c'.state.store.docs,
      Descends c'.state.store.log (sampleRandom.fresh 2) doc.id → doc.status ≠ .active := by
  have login : (play (program (sampleService true)) notOvertaken (start (empty 0)) loggedIn).any (fun before =>
      (before.calls 1).isNone && decide (sampleSession 1 2 .active none ∈ before.state.store.docs) &&
      (play (program (sampleService true)) notOvertaken before
        (.start 1 (.revokeAll "user" none none) :: List.replicate 3 (.act 1))).any (fun c =>
          c.finishedWith 1 (.revokeAll "user" none none) (.ok .done))) = true := by decide +kernel
  obtain ⟨before,path,passed⟩ := play_exists notOvertaken_admits login
  simp only [Bool.and_eq_true,decide_eq_true_eq,Option.isNone_iff_eq_none] at passed
  obtain ⟨⟨idle,present⟩,logout⟩ := passed
  obtain ⟨c,toReturn,finished⟩ := play_exists notOvertaken_admits logout
  have done := finishedWith_finished finished
  refine ⟨before,c,path,idle,present,toReturn,done,?_⟩
  intro c' later
  exact mass_logout_complete (sampleService true) 0 before path 1 "user" idle c toReturn done c' later _ present rfl

theorem mass_logout_misses_rotating (transactions : Bool) :
    (play (program (sampleService transactions)) (fun _ _ => true) (start (empty 0)) loggedIn).any (fun before =>
      (before.calls 2).isNone && decide (sampleSession 1 2 .active none ∈ before.state.store.docs) &&
      (play (program (sampleService transactions)) (fun _ _ => true) before
        (.start 1 (.refresh (sampleRandom.fresh 1) anyContext) :: .act 1 ::
          .start 2 (.revokeAll "user" none none) :: List.replicate 2 (.act 2))).any (fun c =>
          c.finishedWith 2 (.revokeAll "user" none none) (.ok .done) &&
          (play (program (sampleService transactions)) (fun _ _ => true) c (List.replicate 7 (.act 1))).any (fun c' =>
            decide (sampleSession 3 4 .active none ∈ c'.state.store.docs ∧
              .inserted 1 (sampleSession 3 4 .active none) (sampleSession 1 2 .rotating none) ∈ c'.state.store.log)))) = true := by
  cases transactions <;> decide +kernel

theorem mass_logout_incomplete : ¬ MassLogoutComplete (sampleService true) Anything ∧
    ¬ MassLogoutComplete (sampleService false) Anything := by
  have fails : ∀ transactions, ¬ MassLogoutComplete (sampleService transactions) Anything := by
    intro transactions complete
    obtain ⟨before,path,passed⟩ := play_exists (fun _ _ _ => trivial) (mass_logout_misses_rotating transactions)
    simp only [Bool.and_eq_true,decide_eq_true_eq,Option.isNone_iff_eq_none] at passed
    obtain ⟨⟨idle,present⟩,logout⟩ := passed
    obtain ⟨c,toReturn,passed⟩ := play_exists (fun _ _ _ => trivial) logout
    simp only [Bool.and_eq_true] at passed
    obtain ⟨finished,rotation⟩ := passed
    obtain ⟨c',later,passed⟩ := play_exists (fun _ _ _ => trivial) rotation
    simp only [decide_eq_true_eq] at passed
    exact complete 0 before path 2 "user" idle c toReturn (finishedWith_finished finished) c' later _ present rfl _
      passed.1 (.single ⟨_,_,_,passed.2,rfl,rfl⟩) rfl
  exact ⟨fails true,fails false⟩

end
end Pezhwan.Session
