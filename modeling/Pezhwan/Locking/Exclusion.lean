import Pezhwan.Locking.Safety

-- The lock from the side of its holders.
namespace Pezhwan.Locking
open Atomic Prog Redis Config

-- The handle that a release or an extend is called on.
def Call.handle : Call → Option Lock
  | .acquire _ => none
  | .release held | .extend held _ => some held

structure Exclusive (lock : DistributedLock) (mode : Mode) (past : Past) (c : Config CallId Call Process Fault Answer) :
    Prop where
  apart : ∀ i j lease lease', i ≠ j → holding lock mode i past = some lease → holding lock mode j past = some lease' →
    lease.key = lease'.key → ¬ (lease.Alive c.state.world.now ∧ lease'.Alive c.state.world.now)
  granted : ∀ i options held, c.Finished i (.acquire options) (.ok (.lock (some held))) →
    ∃ later event earlier, past = later ++ event :: earlier ∧ event.who = i ∧
      holding lock mode i (event :: earlier) = some ⟨held.key,held.token,event.before.world.now + options.ttlMs⟩
  stale : ∀ i call held result, call.handle = some held → c.Finished i call result →
    (∀ event ∈ past, event.who = i → shown lock mode event.before.world held.key event.before.world.now ≠ some held.token) →
    result = .ok (.done false) ∧ ∀ event ∈ past, event.who = i → event.after.world = event.before.world

section
variable {lock : DistributedLock} {runtime : Runtime} {mode : Mode} {initial : Process} {past : Past}
  {c : Config CallId Call Process Fault Answer}

section
variable (vacant : Vacant lock mode initial)
  (traced : Traced (program lock runtime) (Passing lock mode) initial past c)
include vacant traced

omit traced in
theorem traced_step {later earlier : Past} {event : Event CallId Call Process}
    (traced : Traced (program lock runtime) (Passing lock mode) initial (later ++ event :: earlier) c)
    (fits : ∀ one ∈ later ++ event :: earlier, Fits lock mode one) :
    Rule lock runtime mode event.call (mine event.who earlier) event.before event.after ∧
      Sound lock runtime mode earlier event.before := by
  refine ⟨(along_at (traced_rules vacant traced).along).1,?_⟩
  obtain ⟨c',earliest,same⟩ := traced_before traced
  rw [← same]
  exact traced_sound vacant earliest fun one listed => fits one (by simp [listed])

omit vacant in
theorem traced_same_call (listed : event ∈ past)
    (called : c.calls event.who = some (call,p)) : event.call = call := by
  obtain ⟨_,known⟩ := traced_call traced listed
  rw [called] at known
  simp only [Option.some.injEq,Prod.mk.injEq] at known
  exact known.1.symm

theorem traced_action (fits : ∀ event ∈ past, Fits lock mode event) (called : c.calls i = some (call,p))
    (did : DidSo lock runtime mode call action (mine i past)) :
    ∃ later event earlier, past = later ++ event :: earlier ∧ event.who = i ∧ event.call = call ∧
      event.after.world = act lock mode action event.before.world ∧ Proper lock mode event.before.world action := by
  obtain ⟨newer,before,left,older,split,made,does⟩ := did
  obtain ⟨later,⟨who,call',p',q'⟩,earlier,rfl,rfl,same,rest⟩ := mine_split newer split
  obtain ⟨rfl,rfl⟩ := Prod.mk.inj same
  have calls := traced_same_call traced (List.mem_append_right _ List.mem_cons_self) called
  subst calls rest
  obtain ⟨_,sound⟩ := traced_step vacant traced fits
  exact ⟨later,_,earlier,rfl,rfl,rfl,does.1,(made_proper sound made does (fits _ (by simp))).1⟩

theorem finished_ended (finished : c.Finished i call result) :
    Ended lock runtime mode call result (mine i past) :=
  (traced_rules vacant traced).busy i call _ finished

theorem finished_granted (fits : ∀ event ∈ past, Fits lock mode event)
    (finished : c.Finished i (.acquire options) (.ok (.lock (some held)))) :
    ∃ later event earlier, past = later ++ event :: earlier ∧ event.who = i ∧
      holding lock mode i (event :: earlier) = some ⟨held.key,held.token,event.before.world.now + options.ttlMs⟩ := by
  obtain ⟨_,same,told⟩ := finished_ended vacant traced finished
  cases same
  obtain ⟨key,did⟩ := told held rfl
  obtain ⟨later,event,earlier,split,own,call,after,free⟩ := traced_action vacant traced fits finished did
  refine ⟨later,event,earlier,split,own,?_⟩
  have stored := @take_entry lock mode held.key held.token options.ttlMs event.before.world
  have before : shown lock mode event.before.world held.key event.before.world.now = none := free
  rw [← after] at stored
  have positive := ttlSeconds_positive options.ttlMs
  have lasts : event.before.world.now < event.before.world.now + ttlSecondsOf options.ttlMs * 1000 := by omega
  have shows := shown_entry stored lasts
  rw [key] at shows before
  simp only [holding,call,own,shows,before,ne_eq,reduceCtorEq,not_false_eq_true,and_self,if_true,Option.map_some,key]

omit vacant traced in
theorem handle_action (handle : call.handle = some held) (made : Made lock runtime call moves action)
    (proper : Proper lock mode w action) : shown lock mode w held.key w.now = some held.token := by
  cases made with
  | take _ => cases handle
  | drop => cases handle; exact proper
  | renew => cases handle; exact proper

omit vacant traced in
theorem handle_ended (handle : call.handle = some held) (ended : Ended lock runtime mode call result moves) :
    result = .ok (.done false) ∨ ∃ action, DidSo lock runtime mode call action moves := by
  cases call with
  | acquire _ => cases handle
  | release mine | extend mine newTtlMs =>
    obtain ⟨ok,rfl,did⟩ := ended
    cases ok with
    | false => exact .inl rfl
    | true => exact .inr ⟨_,did rfl⟩

theorem finished_stale (fits : ∀ event ∈ past, Fits lock mode event)
    (handle : call.handle = some held) (finished : c.Finished i call result)
    (stale : ∀ event ∈ past, event.who = i → shown lock mode event.before.world held.key event.before.world.now ≠ some held.token) :
    result = .ok (.done false) ∧ ∀ event ∈ past, event.who = i → event.after.world = event.before.world := by
  constructor
  · rcases handle_ended handle (finished_ended vacant traced finished) with refused | ⟨action,did⟩
    · exact refused
    · obtain ⟨later,event,earlier,rfl,own,_,_,proper⟩ := traced_action vacant traced fits finished did
      obtain ⟨_,_,_,_,_,made,_⟩ := did
      exact absurd (handle_action handle made proper) (stale event (by simp) own)
  · intro event listed own
    subst own
    have call_ := traced_same_call traced listed finished
    have unstored := stale event listed rfl
    have fit := fits event listed
    obtain ⟨later,earlier,rfl⟩ := List.append_of_mem listed
    obtain ⟨rule,sound⟩ := traced_step vacant traced fits
    obtain ⟨who,call',before,after⟩ := event
    subst call_
    change Rule lock runtime mode call' (mine who earlier) before after at rule
    cases rule with
    | idle => rfl
    | draw => rfl
    | acts made does => exact absurd (handle_action handle made (made_proper sound made does fit).1) unstored

-- Whoever holds a lock holds it alone, in every run in Redis, and in memory in
-- every run whose steps fit.

end

theorem lock_exclusive (vacant : Vacant lock mode initial)
    (traced : Traced (program lock runtime) (Passing lock mode) initial past c) (fits : ∀ event ∈ past, Fits lock mode event) :
    Exclusive lock mode past c := by
  have sound := traced_sound vacant traced fits
  refine ⟨?_,fun _ _ _ => finished_granted vacant traced fits,fun _ _ _ _ => finished_stale vacant traced fits⟩
  rintro i j lease lease' different one other same ⟨alive,alive'⟩
  exact different (sound.apart i j lease lease' one other (sound.backed.exclusive one other same alive alive'))

end

def sampleLock (client : Option Nat) : DistributedLock := ⟨⟨0,"pezhwan"⟩,client,true,"pezhwan"⟩

def sampleRuntime : Runtime := ⟨Nat.repr,Nat.repr⟩

def sampleProcess (client : Option Nat) : Process where
  world := {
    now := 5
    clients := fun _ => ⟨"ready",true,.up,0⟩
    servers := fun _ => .empty
    places := fun _ => ⟨client,.empty⟩
    mongo := .up
    counters := .empty }
  lockCounter := 0

def rotation : LockOptions where
  key := "session-rotation"

def rotationLock (n : Nat) : Lock := ⟨tokenText sampleRuntime 5 n,"pezhwan:lock:session-rotation",5,10000⟩

def bothAcquire (first second : Nat) : List (Cue CallId Call Process) :=
  .start 0 (.acquire rotation) :: List.replicate first (.act 0) ++ .start 1 (.acquire rotation) :: List.replicate second (.act 1)

theorem bothAcquire_alone (change : Process → Process) (cued : Cue.other change ∈ bothAcquire first second) :
    ∀ p, Passing lock mode p (change p) := by
  simp [bothAcquire] at cued

theorem redis_lock_exclusive : ∃ past c,
    Traced (program (sampleLock (some 0)) sampleRuntime) (Passing (sampleLock (some 0)) (.ready 0 0)) (sampleProcess (some 0)) past c ∧
      c.Finished 0 (.acquire rotation) (.ok (.lock (some (rotationLock 1)))) ∧
      c.Finished 1 (.acquire rotation) (.ok (.lock none)) ∧ Exclusive (sampleLock (some 0)) (.ready 0 0) past c := by
  have performed : (perform (program (sampleLock (some 0)) sampleRuntime) [] (start (sampleProcess (some 0))) (bothAcquire 4 3)).any
      (fun after => after.2.finishedWith 0 (.acquire rotation) (.ok (.lock (some (rotationLock 1)))) &&
        after.2.finishedWith 1 (.acquire rotation) (.ok (.lock none))) = true := by
    decide +kernel
  obtain ⟨past,c,traced,checked⟩ := perform_exists performed bothAcquire_alone
  rw [Bool.and_eq_true] at checked
  refine ⟨past,c,traced,finishedWith_finished checked.1,finishedWith_finished checked.2,?_⟩
  exact lock_exclusive ⟨⟨rfl,rfl,rfl⟩,fun _ => rfl⟩ traced fun _ _ => trivial

theorem degraded_lock_shared : ¬ ∀ (lock : DistributedLock) (runtime : Runtime) (mode : Mode) (initial : Process) (past : Past)
    (c : Config CallId Call Process Fault Answer), Vacant lock mode initial →
    Traced (program lock runtime) (Passing lock mode) initial past c → Exclusive lock mode past c := by
  intro exclusive
  have performed : (perform (program (sampleLock none) sampleRuntime) [] (start (sampleProcess none)) (bothAcquire 5 5)).any
      (fun after => decide (holding (sampleLock none) .fallback 0 after.1 = some ⟨(rotationLock 1).key,(rotationLock 1).token,10005⟩) &&
        decide (holding (sampleLock none) .fallback 1 after.1 = some ⟨(rotationLock 2).key,(rotationLock 2).token,10005⟩) &&
        decide (after.2.state.world.now = 5)) = true := by
    decide +kernel
  obtain ⟨past,c,traced,checked⟩ := perform_exists performed bothAcquire_alone
  simp only [Bool.and_eq_true,decide_eq_true_eq] at checked
  obtain ⟨⟨first,second⟩,now⟩ := checked
  have vacant : Vacant (sampleLock none) .fallback (sampleProcess none) := ⟨⟨rfl,rfl⟩,fun _ => rfl⟩
  have alone := (exclusive _ sampleRuntime _ _ past c vacant traced).apart 0 1 _ _ (by decide) first second rfl
  rw [now] at alone
  exact alone ⟨by decide,by decide⟩

end Pezhwan.Locking
