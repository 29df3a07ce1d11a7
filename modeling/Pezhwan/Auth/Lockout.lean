import Pezhwan.Auth.Attempts

namespace Pezhwan.Auth
open Atomic Prog Config

abbrev Try := Atomic.Event CallId Attempt World

abbrev Attempted (engine : AuthEngine) (initial : World) (past : List Try) (c : Config CallId Attempt World Error Unit) : Prop :=
  Traced (attempted engine) Aloof initial past c

-- When the action that follows `past` records a failed attempt on the account,
-- the time of the failure.
def records (engine : AuthEngine) (userId : String) (event : Try) (past : List Try) : Option Nat :=
  if event.before.base.fault = none then
    (recording engine event.call (mine event.who past)).bind fun found => if found.1.id = userId then some found.2 else none
  else none

-- The failures recorded by the newest actions of a trace, newest first.
def failures (engine : AuthEngine) (userId : String) : Nat → List Try → List Nat
  | n+1,event :: past => (records engine userId event past).toList ++ failures engine userId n past
  | _,_ => []

def failedAttempts (userId : String) (w : World) : Option Nat := (userById userId w).map UserDoc.failedLoginAttempts

-- A success or a reset has taken the counter back to zero.
def Clears (userId : String) (event : Try) : Prop :=
  failedAttempts userId event.after = some 0 ∧ failedAttempts userId event.before ≠ some 0

instance (userId : String) (event : Try) : Decidable (Clears userId event) := inferInstanceAs (Decidable (_ ∧ _))

-- From an attempt's read of the account to the record of its failure no other
-- failure is recorded on the account.
def Alone (engine : AuthEngine) (userId : String) : List Try → Prop
  | [] => True
  | event :: past => ((records engine userId event past).isSome = true →
      failures engine userId (during event.who past).length past = []) ∧ Alone engine userId past

def Alone.decide (engine : AuthEngine) (userId : String) : (past : List Try) → Decidable (Alone engine userId past)
  | [] => .isTrue trivial
  | _ :: past => @instDecidableAnd _ _ inferInstance (decide engine userId past)

instance (engine : AuthEngine) (userId : String) (past : List Try) : Decidable (Alone engine userId past) :=
  Alone.decide engine userId past

section
variable {engine : AuthEngine} {past later earlier : List Try} {event : Try}

theorem failures_split (none : failures engine userId later.length (later ++ earlier) = []) (n : Nat) :
    failures engine userId n (later ++ earlier) = failures engine userId (n - later.length) earlier := by
  induction later generalizing n with
  | nil => rfl
  | cons newest later ih =>
    have parts := List.append_eq_nil_iff.mp none
    have silent : (records engine userId newest (later ++ earlier)).toList = [] := parts.1
    cases n with
    | zero => simp [failures]
    | succ n =>
      simp only [List.cons_append,failures,silent,List.nil_append,ih parts.2,List.length_cons,Nat.add_sub_add_right]

theorem failures_none (none : failures engine userId n (later ++ event :: earlier) = []) (within : later.length < n) :
    records engine userId event earlier = .none := by
  induction later generalizing n with
  | nil =>
    cases n with
    | zero => cases within
    | succ n =>
      have silent := (List.append_eq_nil_iff.mp none).1
      exact Option.toList_eq_nil_iff.mp silent
  | cons newest later ih =>
    cases n with
    | zero => cases within
    | succ n => exact ih (List.append_eq_nil_iff.mp none).2 (by simpa using within)

theorem along_now (along : Along (LockRule engine) past) (member : event ∈ past) :
    event.after.base.now = event.before.base.now := by
  obtain ⟨later,earlier,rfl⟩ := List.append_of_mem member
  exact (along_at along).1.1

theorem elapsed (along : Along (LockRule engine) (later ++ event :: earlier))
    (linked : Linked Aloof initial (later ++ event :: earlier) s) : event.before.base.now ≤ s.base.now := by
  apply linked_kept (r := fun s t => s.base.now ≤ t.base.now) (fun s => Nat.le_refl _) Nat.le_trans
    (fun moved => moved.later) linked
  intro one member
  have listed : one ∈ later ++ event :: earlier := by
    rw [List.append_cons]
    exact List.mem_append_left _ member
  exact Nat.le_of_eq (along_now along listed).symm

-- What stands behind the record of a failure.
structure Recorded (engine : AuthEngine) (userId : String) (event : Try) (past : List Try) (time : Nat) (user : UserDoc)
    (checked looked : World × World) : Prop where
  failed : ∃ input, failing engine input checked looked = some user
  moves : ∃ newer, mine event.who past = newer ++ [checked,looked]
  last : (mine event.who past).head?.map (fun move => move.1.base.now) = some time
  known : seen UserDoc.lock userId looked.1 = some user.lock
  own : user.tenantId = engine.tenantId
  moved : Rewritten UserDoc.lock userId (setLock engine.tenantId (user.failedLoginAttempts + 1) (lockAt user time))
    event.before event.after

theorem records_some (due : records engine userId event past = some time) : event.before.base.fault = none ∧
    ∃ user, recording engine event.call (mine event.who past) = some (user,time) ∧ user.id = userId := by
  unfold records at due
  split at due
  · rename_i healthy
    obtain ⟨found,recorded,named⟩ := Option.bind_eq_some_iff.mp due
    split at named
    · rename_i same
      cases named
      exact ⟨healthy,found.1,recorded,same⟩
    · cases named
  · cases due

theorem recorded_parts (ruled : LockRule engine event.call (mine event.who past) event.before event.after)
    (due : records engine userId event past = some time) :
    ∃ user checked looked, Recorded engine userId event past time user checked looked := by
  obtain ⟨healthy,user,recorded,rfl⟩ := records_some due
  have moved := ruled.2
  rw [if_pos healthy,recorded] at moved
  obtain ⟨⟨others,first,split,known⟩,own,rewritten⟩ := moved
  cases kind : event.call with
  | loginPassword input =>
    rw [kind] at recorded
    obtain ⟨newer,checked,looked,whole,failed,last⟩ := recording_failing recorded
    have joined : (newer ++ [checked]) ++ [looked] = others ++ [first] := by
      rw [List.append_assoc]
      exact whole.symm.trans split
    have same := List.append_inj_right' joined rfl
    rw [← (List.cons.inj same).1] at known
    exact ⟨user,checked,looked,⟨input,failed⟩,⟨newer,whole⟩,last,known,own,rewritten⟩
  | _ => rw [kind] at recorded; cases moves : mine event.who past <;> rw [moves] at recorded <;> cases recorded

theorem recorded_window (recorded : Recorded engine userId event past time user checked looked)
    (alone : failures engine userId (during event.who past).length past = []) :
    ∃ later first earlier, past = later ++ first :: earlier ∧ looked = (first.before,first.after) ∧
      failures engine userId (later.length + 1) past = [] := by
  obtain ⟨newer,whole⟩ := recorded.moves
  have last : mine event.who past = (newer ++ [checked]) ++ looked :: [] := by simp [whole]
  obtain ⟨later,first,earlier,rfl,who,same,none⟩ := mine_split _ last
  refine ⟨later,first,earlier,rfl,same,?_⟩
  rw [during_split who none] at alone
  simpa using alone

theorem recorded_times (recorded : Recorded engine userId event past time user checked looked)
    (along : Along (LockRule engine) past) (linked : Linked Aloof initial past event.before) :
    looked.1.base.now ≤ time ∧ time ≤ event.before.base.now := by
  obtain ⟨newer,whole⟩ := recorded.moves
  have last := recorded.last
  cases moves : mine event.who past with
  | nil => rw [moves] at last; cases last
  | cons head older =>
    rw [moves] at last whole
    cases last
    obtain ⟨later,one,earlier,rfl,who,rfl,own⟩ := mine_split [] moves
    refine ⟨?_,elapsed along linked⟩
    have present : looked ∈ mine event.who earlier := by
      rw [own]
      cases newer with
      | nil => cases whole; simp
      | cons newest newer => cases whole; simp
    obtain ⟨first,listed,_,rfl⟩ := mine_member present
    obtain ⟨between,rest,rfl⟩ := List.append_of_mem listed
    exact elapsed (along_at along).2 (linked_at linked)

-- No success or reset has taken the counter to zero in the newest actions.
def Uncleared (userId : String) (n : Nat) (past : List Try) : Prop := ∀ event ∈ past.take n, ¬ Clears userId event

instance (userId : String) (n : Nat) (past : List Try) : Decidable (Uncleared userId n past) :=
  inferInstanceAs (Decidable (∀ event ∈ past.take n, ¬ Clears userId event))

theorem uncleared_split (quiet : Uncleared userId n (later ++ earlier)) : Uncleared userId (n - later.length) earlier := by
  intro event member
  apply quiet event
  rw [List.take_append]
  exact List.mem_append_right _ member

-- The counter covers the failures, and five of them have set the lock.
structure Guarded (engine : AuthEngine) (userId tenantId : String) (past : List Try) (s : World) (count : Nat)
    (lock : Option Nat) : Prop where
  held : seen UserDoc.lock userId s = some (tenantId,count,lock)
  counted : ∀ n, Uncleared userId n past → (failures engine userId n past).length ≤ count
  timed : ∀ n, ∀ time ∈ failures engine userId n past, time ≤ s.base.now
  locked : ∀ n, Uncleared userId n past → ∀ time, (failures engine userId n past).reverse[4]? = some time →
    ∃ until_, lock = some until_ ∧ time + 15 * 60000 ≤ until_

theorem guarded_other (guarded : Guarded engine userId tenantId past s count lock)
    (moves : Relation.ReflTransGen Aloof s t) : Guarded engine userId tenantId past t count lock := by
  induction moves with
  | refl => exact guarded
  | tail _ moved ih =>
    refine ⟨moved.kept userId _ ih.held,ih.counted,?_,ih.locked⟩
    intro n time member
    exact Nat.le_trans (ih.timed n time member) moved.later

theorem window_guarded (recorded : Recorded engine userId event past time user checked looked)
    (split : past = later ++ first :: earlier) (same : looked = (first.before,first.after))
    (none : failures engine userId (later.length + 1) past = [])
    (guarded : Guarded engine userId tenantId earlier first.before count lock) :
    tenantId = engine.tenantId ∧ count = user.failedLoginAttempts ∧ lock = user.loginLockUntil ∧
      (∀ n, Uncleared userId n past → (failures engine userId n past).length ≤ user.failedLoginAttempts) ∧
      ∀ n, ∀ time ∈ failures engine userId n past, time ≤ looked.1.base.now := by
  have known := recorded.known
  rw [same,guarded.held] at known
  simp only [UserDoc.lock,Option.some.injEq,Prod.mk.injEq] at known
  obtain ⟨rfl,rfl,rfl⟩ := known
  have whole : past = (later ++ [first]) ++ earlier := by rw [split,List.append_cons]
  have many : (later ++ [first]).length = later.length + 1 := by simp
  have silent : failures engine userId (later ++ [first]).length ((later ++ [first]) ++ earlier) = [] := by
    rw [many,← whole]
    exact none
  refine ⟨recorded.own,rfl,rfl,?_,?_⟩
  · intro n quiet
    rw [whole] at quiet ⊢
    rw [failures_split silent]
    exact guarded.counted _ (uncleared_split quiet)
  · intro n time member
    rw [whole,failures_split silent] at member
    rw [same]
    exact guarded.timed _ time member

theorem silent_kept (ruled : LockRule engine event.call (mine event.who past) event.before event.after)
    (silent : records engine userId event past = none) (held : seen UserDoc.lock userId event.before = some (tenantId,count,lock)) :
    seen UserDoc.lock userId event.after = some (tenantId,count,lock) ∨
      seen UserDoc.lock userId event.after = some (tenantId,0,none) := by
  have moved := ruled.2
  have idle : Steady UserDoc.lock event.before event.after ∨ Clearing engine event.before event.after →
      seen UserDoc.lock userId event.after = some (tenantId,count,lock) ∨
        seen UserDoc.lock userId event.after = some (tenantId,0,none) := by
    rintro (still | ⟨owner,rewritten⟩)
    · exact .inl ((still.views userId).trans held)
    · by_cases own : userId = owner
      · subst own
        rw [rewritten.own,held]
        by_cases inside : tenantId = engine.tenantId
        · exact .inr (by simp [setLock,inside])
        · exact .inl (by simp [setLock,inside])
      · exact .inl ((rewritten.others userId own).trans held)
  by_cases healthy : event.before.base.fault = none
  · rw [if_pos healthy] at moved
    cases due : recording engine event.call (mine event.who past) with
    | none =>
      rw [due] at moved
      exact idle moved
    | some found =>
      rw [due] at moved
      have other : userId ≠ found.1.id := by
        rintro rfl
        simp [records,healthy,due] at silent
      exact .inl ((moved.moved.others userId other).trans held)
  · rw [if_neg healthy] at moved
    exact idle moved

theorem failedAttempts_seen (held : seen UserDoc.lock userId s = some (tenantId,count,lock)) :
    failedAttempts userId s = some count := by
  have counts := congrArg (Option.map fun account => account.2.1) held
  simpa [seen,UserDoc.lock,failedAttempts,Function.comp_def] using counts

theorem guarded_silent (guarded : Guarded engine userId tenantId past event.before count lock)
    (now : event.after.base.now = event.before.base.now)
    (ruled : LockRule engine event.call (mine event.who past) event.before event.after)
    (silent : records engine userId event past = none) :
    ∃ count lock, Guarded engine userId tenantId (event :: past) event.after count lock := by
  have same : ∀ n, failures engine userId (n + 1) (event :: past) = failures engine userId n past := by
    intro n
    simp [failures,silent]
  have timed : ∀ n, ∀ time ∈ failures engine userId n (event :: past), time ≤ event.after.base.now := by
    intro n time member
    cases n with
    | zero => cases member
    | succ n =>
      rw [same] at member
      rw [now]
      exact guarded.timed n time member
  have quieter : ∀ n, Uncleared userId (n + 1) (event :: past) → ¬ Clears userId event ∧ Uncleared userId n past :=
    fun n quiet => ⟨quiet event (by simp),fun older member => quiet older (by simp [member])⟩
  rcases silent_kept ruled silent guarded.held with kept | cleared
  · refine ⟨count,lock,kept,?_,timed,?_⟩
    · intro n quiet
      cases n with
      | zero => exact Nat.zero_le _
      | succ n =>
        rw [same]
        exact guarded.counted n (quieter n quiet).2
    · intro n quiet time fifth
      cases n with
      | zero => cases fifth
      | succ n =>
        rw [same] at fifth
        exact guarded.locked n (quieter n quiet).2 time fifth
  · have empty : ∀ n, Uncleared userId n (event :: past) → failures engine userId n (event :: past) = [] := by
      intro n quiet
      cases n with
      | zero => rfl
      | succ n =>
        obtain ⟨kept,earlier⟩ := quieter n quiet
        have none : count = 0 := by
          by_contra positive
          apply kept
          refine ⟨failedAttempts_seen cleared,?_⟩
          rw [failedAttempts_seen guarded.held]
          simpa using positive
        have few := guarded.counted n earlier
        rw [none] at few
        rw [same]
        exact List.length_eq_zero_iff.mp (Nat.le_zero.mp few)
    refine ⟨0,none,cleared,?_,timed,?_⟩
    · intro n quiet
      rw [empty n quiet]
      exact Nat.le_refl _
    · intro n quiet time fifth
      rw [empty n quiet] at fifth
      cases fifth

theorem guarded_recorded (guarded : Guarded engine userId tenantId past event.before count lock)
    (now : event.after.base.now = event.before.base.now) (due : records engine userId event past = some time)
    (recorded : Recorded engine userId event past time user checked looked) (inside : tenantId = engine.tenantId)
    (counted : ∀ n, Uncleared userId n past → (failures engine userId n past).length ≤ user.failedLoginAttempts)
    (before : ∀ n, ∀ earlier ∈ failures engine userId n past, earlier ≤ looked.1.base.now)
    (since_ : looked.1.base.now ≤ time) (late : time ≤ event.before.base.now) :
    Guarded engine userId tenantId (event :: past) event.after (user.failedLoginAttempts + 1) (lockAt user time) := by
  have more : ∀ n, failures engine userId (n + 1) (event :: past) = time :: failures engine userId n past := by
    intro n
    simp [failures,due]
  have quieter : ∀ n, Uncleared userId (n + 1) (event :: past) → Uncleared userId n past :=
    fun n quiet older member => quiet older (by simp [member])
  refine ⟨?_,?_,?_,?_⟩
  · rw [recorded.moved.own,guarded.held]
    simp [setLock,inside]
  · intro n quiet
    cases n with
    | zero => exact Nat.zero_le _
    | succ n =>
      rw [more,List.length_cons]
      exact Nat.succ_le_succ (counted n (quieter n quiet))
  · intro n other member
    cases n with
    | zero => cases member
    | succ n =>
      rw [more] at member
      rw [now]
      rcases List.mem_cons.mp member with rfl | earlier
      · exact late
      · exact guarded.timed n other earlier
  · intro n quiet other fifth
    cases n with
    | zero => cases fifth
    | succ n =>
      rw [more] at fifth
      obtain ⟨enough,_⟩ := List.getElem?_eq_some_iff.mp fifth
      have least := counted n (quieter n quiet)
      simp only [List.length_reverse,List.length_cons] at enough
      have member : other ∈ time :: failures engine userId n past := List.mem_reverse.mp (List.mem_of_getElem? fifth)
      have order : other ≤ time := by
        rcases List.mem_cons.mp member with rfl | earlier
        · exact Nat.le_refl _
        · exact Nat.le_trans (before n other earlier) since_
      refine ⟨time + 15 * 60000,?_,by omega⟩
      unfold lockAt
      rw [if_pos (by omega)]

theorem along_guarded (along : Along (LockRule engine) past) (linked : Linked Aloof initial past s)
    (alone : Alone engine userId past) (stored : seen UserDoc.lock userId initial = some (tenantId,count,lock)) :
    (∃ count lock, Guarded engine userId tenantId past s count lock) ∧
      ∀ later event earlier, past = later ++ event :: earlier →
        ∃ count lock, Guarded engine userId tenantId earlier event.before count lock := by
  induction past generalizing s with
  | nil =>
    have none : Guarded engine userId tenantId [] initial count lock := by
      refine ⟨stored,?_,?_,?_⟩
      · intro n _
        cases n <;> exact Nat.zero_le _
      · intro n time member
        cases n <;> cases member
      · intro n _ time fifth
        cases n <;> cases fifth
    exact ⟨⟨count,lock,guarded_other none linked⟩,fun later event earlier split => by simp at split⟩
  | cons event past ih =>
    obtain ⟨ruled,earlier⟩ := along
    obtain ⟨moves,linked⟩ := linked
    obtain ⟨apart,alone⟩ := alone
    obtain ⟨⟨before,locked,guarded⟩,history⟩ := ih earlier linked alone
    constructor
    · cases due : records engine userId event past with
      | none =>
        obtain ⟨after,lock,next⟩ := guarded_silent guarded ruled.1 ruled due
        exact ⟨after,lock,guarded_other next moves⟩
      | some time =>
        obtain ⟨user,checked,looked,recorded⟩ := recorded_parts ruled due
        obtain ⟨later,first,older,split,same,none⟩ := recorded_window recorded (apart (by rw [due]; rfl))
        obtain ⟨_,_,known⟩ := history later first older split
        obtain ⟨inside,_,_,counted,timed⟩ := window_guarded recorded split same none known
        obtain ⟨since_,late⟩ := recorded_times recorded earlier linked
        have next := guarded_recorded guarded ruled.1 due recorded inside counted timed since_ late
        exact ⟨_,_,guarded_other next moves⟩
    · intro later one older split
      cases later with
      | nil =>
        simp only [List.nil_append,List.cons.injEq] at split
        obtain ⟨rfl,rfl⟩ := split
        exact ⟨before,locked,guarded⟩
      | cons newest later =>
        simp only [List.cons_append,List.cons.injEq] at split
        exact history later one older split.2

theorem recorded_unlocked (along : Along (LockRule engine) past) (linked : Linked Aloof initial past event.before)
    (recorded : Recorded engine userId event past time user checked looked) (split : past = later ++ first :: earlier)
    (same : looked = (first.before,first.after)) (none : failures engine userId (later.length + 1) past = [])
    (held : seen UserDoc.lock userId event.before = some (tenantId,count,some until_)) : until_ ≤ event.before.base.now := by
  have known := recorded.known
  rw [same] at known
  subst split
  have kept : ∀ one ∈ later ++ [first], ∀ tenantId count lock, seen UserDoc.lock userId one.before = some (tenantId,count,lock) →
      ∃ count, seen UserDoc.lock userId one.after = some (tenantId,count,lock) ∨
        seen UserDoc.lock userId one.after = some (tenantId,count,.none) := by
    intro one member tenantId count lock before
    obtain ⟨newer,older,parts⟩ := List.append_of_mem member
    have whole : later ++ first :: earlier = newer ++ one :: (older ++ earlier) := by
      rw [List.append_cons,parts]
      simp
    have lengths := congrArg List.length parts
    simp only [List.length_append,List.length_cons,List.length_nil] at lengths
    rw [whole] at none along
    have silent := failures_none none (by omega)
    rcases silent_kept (along_at along).1 silent before with still | cleared
    · exact ⟨count,.inl still⟩
    · exact ⟨0,.inr cleared⟩
  have window := linked_kept (r := fun s t => ∀ tenantId count lock, seen UserDoc.lock userId s = some (tenantId,count,lock) →
      ∃ count, seen UserDoc.lock userId t = some (tenantId,count,lock) ∨ seen UserDoc.lock userId t = some (tenantId,count,.none))
    (fun s tenantId count lock before => ⟨count,.inl before⟩) (by
      intro a b c one two tenantId count lock before
      obtain ⟨count,middle | cleared⟩ := one tenantId count lock before
      · exact two tenantId count lock middle
      · obtain ⟨count,after | after⟩ := two tenantId count .none cleared
        · exact ⟨count,.inr after⟩
        · exact ⟨count,.inr after⟩)
    (fun moved tenantId count lock before => ⟨count,.inl (moved.kept userId _ before)⟩) linked kept
  obtain ⟨_,now | now⟩ := window _ _ _ known
  · rw [held] at now
    simp only [Option.some.injEq,Prod.mk.injEq] at now
    obtain ⟨input,failed⟩ := recorded.failed
    have chosen := (Option.filter_eq_some_iff.mp failed).2
    rw [← now.2.2] at chosen
    simp only [Option.any_some,Bool.and_eq_true,Bool.not_eq_true',decide_eq_false_iff_not] at chosen
    have free := Nat.le_of_not_lt chosen.1
    obtain ⟨newer,moves⟩ := recorded.moves
    have present : checked ∈ mine event.who (later ++ first :: earlier) := by rw [moves]; simp
    obtain ⟨one,listed,_,rfl⟩ := mine_member present
    obtain ⟨between,rest,parts⟩ := List.append_of_mem listed
    rw [parts] at along linked
    exact Nat.le_trans free (elapsed along linked)
  · rw [held] at now
    simp at now

end

def lockUntil (userId : String) (w : World) : Option Nat := (userById userId w).bind UserDoc.loginLockUntil

theorem lockUntil_seen (held : seen UserDoc.lock userId s = some (tenantId,count,lock)) : lockUntil userId s = lock := by
  obtain ⟨user,found,same⟩ := Option.map_eq_some_iff.mp held
  simp only [UserDoc.lock,Prod.mk.injEq] at same
  simp [lockUntil,found,same.2.2]

theorem rule_unique {attempt : Attempt} (ruled : LockRule engine attempt memory s t) (unique : Unique s) : Unique t := by
  have ids : t.users.map UserDoc.id = s.users.map UserDoc.id := by
    have moved := ruled.2
    split at moved
    · exact moved.moved.ids
    · rcases moved with still | ⟨owner,rewritten⟩
      · exact still.ids
      · exact rewritten.ids
  unfold Unique
  rw [ids]
  exact unique

theorem alone_at {later : List Try} (alone : Alone engine userId (later ++ event :: past)) (due : records engine userId event past = some time) :
    failures engine userId (during event.who past).length past = [] := by
  induction later with
  | nil => exact alone.1 (by rw [due]; rfl)
  | cons newest later ih => exact ih alone.2

-- In runs whose failures are recorded one at a time: the fifth failure since the
-- counter was cleared locks the account for its time, a lock in force is only
-- ever prolonged, a success or a reset apart, and whoever was answered after a
-- failed check has been recorded.
theorem lockout_holds (engine : AuthEngine) (initial : World) (unique : Unique initial) (userId : String) (user : UserDoc)
    (stored : userById userId initial = some user) (past : List Try) (c : Config CallId Attempt World Error Unit)
    (path : Attempted engine initial past c) (alone : Alone engine userId past) :
    (∀ n, Uncleared userId n past → ∀ time, (failures engine userId n past).reverse[4]? = some time →
      ∃ until_, lockUntil userId c.state = some until_ ∧ time + 15 * 60000 ≤ until_) ∧
    (∀ event ∈ past, ∀ until_, lockUntil userId event.before = some until_ → event.before.base.now < until_ →
      (∃ longer, lockUntil userId event.after = some longer ∧ until_ ≤ longer) ∨
        failedAttempts userId event.after = some 0) ∧
    ∀ i input newer checked looked failed, c.Finished i (.loginPassword input) (.error invalidError) →
      mine i past = newer ++ [checked,looked] → failing engine input checked looked = some failed → failed.id = userId →
      ∃ later event earlier, past = later ++ event :: earlier ∧ event.who = i ∧
        (records engine userId event earlier).isSome = true := by
  obtain ⟨kept,_⟩ := traced_inv (fun i attempt => acts_attempted engine i attempt) rule_unique
    (fun moved => moved.unique) unique path
  have linked := traced_linked path
  have first : seen UserDoc.lock userId initial = some user.lock := by simp [seen,stored]
  obtain ⟨⟨count,lock,guarded⟩,history⟩ := along_guarded kept.along linked alone first
  refine ⟨?_,?_,?_⟩
  · intro n quiet time fifth
    rw [lockUntil_seen guarded.held]
    exact guarded.locked n quiet time fifth
  · intro event member until_ locked inForce
    obtain ⟨later,earlier,rfl⟩ := List.append_of_mem member
    obtain ⟨before,lock,known⟩ := history later event earlier rfl
    have along := along_at kept.along
    have reached := linked_at linked
    rw [lockUntil_seen known.held] at locked
    subst locked
    cases due : records engine userId event earlier with
    | none =>
      rcases silent_kept along.1 due known.held with still | cleared
      · exact .inl ⟨until_,lockUntil_seen still,Nat.le_refl _⟩
      · exact .inr (failedAttempts_seen cleared)
    | some time =>
      obtain ⟨user,checked,looked,recorded⟩ := recorded_parts along.1 due
      obtain ⟨between,read,older,split,same,none⟩ := recorded_window recorded (alone_at alone due)
      have free := recorded_unlocked along.2 reached recorded split same none known.held
      omega
  · intro i input newer checked looked failed finished moves check named
    obtain ⟨move,older,time,split,healthy,due⟩ :=
      kept.busy i _ _ finished input newer checked looked failed rfl rfl moves check
    obtain ⟨later,event,earlier,rfl,rfl,rfl,own⟩ := mine_split [] split
    refine ⟨later,event,earlier,rfl,rfl,?_⟩
    obtain ⟨p,running⟩ := traced_call path (List.mem_append_right later List.mem_cons_self)
    rw [finished] at running
    simp only [Option.some.injEq,Prod.mk.injEq] at running
    rw [← own,running.1] at due
    have served : event.before.base.fault = none := healthy
    simp [records,served,due,named]

def wrongPassword : Attempt := .loginPassword ⟨"application",some "user@example.com",none,"wrong",anyDevice⟩

def refusedCall (c : Config CallId Attempt World Error Unit) (i : CallId) : Bool := match c.calls i with
  | some (_,.done (.error e)) => decide (e = invalidError)
  | _ => false

theorem refusedCall_finished (refused : refusedCall c i = true) : ∃ attempt, c.Finished i attempt (.error invalidError) := by
  unfold refusedCall at refused
  split at refused
  · rename_i attempt e found
    cases of_decide_eq_true refused
    exact ⟨attempt,found⟩
  · cases refused

-- Four failures one after another, then a fifth.
def fiveFailures : List (Cue CallId Attempt World) :=
  [0,1,2,3].flatMap (fun i => .start i wrongPassword :: List.replicate 3 (.act i)) ++
    .start 4 wrongPassword :: List.replicate 4 (.act 4)

theorem lockout_holds_five : ∃ past c, Attempted sampleEngine (soleAccount sampleUser) past c ∧
    Alone sampleEngine "user" past ∧ (failures sampleEngine "user" 16 past).reverse[4]? = some 0 ∧
    ∃ until_, lockUntil "user" c.state = some until_ ∧ 0 + 15 * 60000 ≤ until_ := by
  have performed : (perform (attempted sampleEngine) [] (start (soleAccount sampleUser)) fiveFailures).any
      (fun after => decide (Alone sampleEngine "user" after.1) && decide (Uncleared "user" 16 after.1) &&
        decide ((failures sampleEngine "user" 16 after.1).reverse[4]? = some 0)) = true := by decide +kernel
  obtain ⟨past,c,traced,checked⟩ := perform_exists performed (by simp [fiveFailures])
  simp only [Bool.and_eq_true,decide_eq_true_eq] at checked
  obtain ⟨⟨alone,quiet⟩,fifth⟩ := checked
  have unique : Unique (soleAccount sampleUser) := List.nodup_singleton _
  exact ⟨past,c,traced,alone,fifth,(lockout_holds sampleEngine (soleAccount sampleUser) unique "user" sampleUser rfl
    past c traced alone).1 16 quiet 0 fifth⟩

-- A sixth attempt has read the account before the others: its record clears the
-- lock the fifth one has set.
theorem late_failure_unlocks : ∃ past c, Attempted sampleEngine (soleAccount sampleUser) past c ∧
    (∀ i ∈ [0,1,2,3,4,5], ∃ attempt, c.Finished i attempt (.error invalidError)) ∧ c.state.base.now = 0 ∧
    lockUntil "user" c.state = none ∧ ∃ event ∈ past, event.who = 5 ∧ lockUntil "user" event.before = some 900000 ∧
      lockUntil "user" event.after = none ∧ failedAttempts "user" event.after = some 1 := by
  have performed : (perform (attempted sampleEngine) [] (start (soleAccount sampleUser)) (.start 5 wrongPassword :: .act 5 ::
      .act 5 :: fiveFailures ++ [.act 5])).any (fun after => [0,1,2,3,4,5].all (refusedCall after.2) &&
        decide (after.2.state.base.now = 0) && decide (lockUntil "user" after.2.state = none) &&
        after.1.any (fun event => decide (event.who = 5) && decide (lockUntil "user" event.before = some 900000) &&
          decide (lockUntil "user" event.after = none) && decide (failedAttempts "user" event.after = some 1))) = true := by
    decide +kernel
  obtain ⟨past,c,traced,checked⟩ := perform_exists performed (by simp [fiveFailures])
  simp only [Bool.and_eq_true,decide_eq_true_eq,List.all_eq_true,List.any_eq_true] at checked
  obtain ⟨⟨⟨refused,now⟩,open_⟩,event,member,⟨⟨who,before⟩,after⟩,counter⟩ := checked
  exact ⟨past,c,traced,fun i listed => refusedCall_finished (refused i listed),now,open_,event,member,who,before,after,counter⟩

end Pezhwan.Auth
