import Pezhwan.Otp.Once

-- The guessing budget of one channel and target.
namespace Pezhwan.Otp
open Atomic Prog Config Auth

-- A verification that can still count a failure, with the counter it has read.
def pending (platform : Platform) : Call → List (World × World) → Option Nat
  | .verify otp channel target purpose code,moves =>
    let counter := CacheKey.otpAttempts channel.name (platform.toLowerCase target)
    match moves with
    | [count] => if attempted counter count.1 < otp.maxAttempts then some (attempted counter count.1) else none
    | [look,count] =>
      if attempted counter count.1 < otp.maxAttempts ∧
          (look.1.otps.find? (otp.selects channel (platform.toLowerCase target) purpose)).isSome then
        some (attempted counter count.1)
      else none
    | [time,look,count] | [_,time,look,count] =>
      if wrong platform (.verify otp channel target purpose code) [time,look,count] then some (attempted counter count.1) else none
    | _ => none
  | .request .. ,_ => none

section
variable (platform : Platform) (name lowered : String)

def On (call : Call) : Prop := attemptsKey platform call = .otpAttempts name lowered

instance (call : Call) : Decidable (On platform name lowered call) := decEq _ _

-- The wrong codes that have been compared with a stored hash.
def guesses : List (Event CallId Call World) → Nat
  | [] => 0
  | event :: past => guesses past +
      if On platform name lowered event.call ∧
        wrong platform event.call ((event.before,event.after) :: mine event.who past) = true then 1 else 0

-- No verification marks a passcode.
def Unverified : List (Event CallId Call World) → Prop
  | [] => True
  | event :: past =>
    (On platform name lowered event.call → consumes platform event.call (mine event.who past) event.before = none) ∧
      Unverified past

-- A verification that finds the counter below its limit finds no other one
-- that can still count a failure.
def Single : List (Event CallId Call World) → Prop
  | [] => True
  | event :: past =>
    (On platform name lowered event.call → mine event.who past = [] →
      (pending platform event.call [(event.before,event.after)]).isSome →
      ∀ other ∈ past, On platform name lowered other.call → pending platform other.call (mine other.who past) = none) ∧
    Single past

def Unverified.decide : (past : List (Event CallId Call World)) → Decidable (Unverified platform name lowered past)
  | [] => .isTrue trivial
  | _ :: past => @instDecidableAnd _ _ inferInstance (decide past)

instance (past : List (Event CallId Call World)) : Decidable (Unverified platform name lowered past) :=
  Unverified.decide platform name lowered past

def Single.decide : (past : List (Event CallId Call World)) → Decidable (Single platform name lowered past)
  | [] => .isTrue trivial
  | event :: past =>
    have : Decidable (mine event.who past = []) := decidable_of_iff (mine event.who past).isEmpty List.isEmpty_iff
    @instDecidableAnd _ _ inferInstance (decide past)

instance (past : List (Event CallId Call World)) : Decidable (Single platform name lowered past) :=
  Single.decide platform name lowered past

end

section
variable {platform : Platform} {name lowered : String}

theorem attempted_set_ne (different : CacheKey.otpAttempts name lowered ≠ key) (s : World) (value : CacheValue) (ttl : Nat) :
    attempted (.otpAttempts name lowered) (World.withCache s (s.base.cache.set s.base.now key value ttl)) =
      attempted (.otpAttempts name lowered) s := by
  unfold attempted World.withCache
  rw [Cache.get_set_ne _ _ _ _ _ different]

theorem attempted_upsert (otp : OtpService) (channel : Channel) (target : String) (purpose : OtpPurpose) (code : String)
    (i : CallId) (s : World) (key : CacheKey) :
    attempted key (upsert platform otp channel target purpose code i s) = attempted key s := by
  unfold upsert
  dsimp only
  split <;> rfl

-- What an action does to a counter.
inductive Counts (platform : Platform) (name lowered : String) : Call → List (World × World) → World → World → Prop where
  | kept (same : attempted (.otpAttempts name lowered) t = attempted (.otpAttempts name lowered) s)
      (uncounted : On platform name lowered call → ∀ inc older, memory = inc :: older → wrong platform call older = false) :
      Counts platform name lowered call memory s t
  | cleared {last : List (World × World)} {mark : World × World} (on : On platform name lowered call)
      (healthy : mark.1.base.fault = none) (found : confirmed platform call memory = some doc) :
      Counts platform name lowered call (last ++ mark :: memory) s t
  | counted {inc time look count : World × World} (on : On platform name lowered call)
      (miss : wrong platform call [time,look,count] = true)
      (value : s.base.now ≤ Cache.MAX_SAFE_INTEGER →
        attempted (.otpAttempts name lowered) t = attempted (.otpAttempts name lowered) count.1 + 1) :
      Counts platform name lowered call [inc,time,look,count] s t

theorem request_uncounted (otp : OtpService) (channel : Channel) (target : String) (purpose : OtpPurpose)
    (memory : List (World × World)) : wrong platform (.request otp channel target purpose) memory = false := by
  by_contra miss
  obtain ⟨doc,found,_⟩ := wrong_some (by simpa using miss)
  obtain ⟨_,_,_,_,_,_,_,_,asked,_⟩ := compared_some found
  cases asked

theorem confirmed_right (found : confirmed platform call memory = some doc) : wrong platform call memory = false := by
  obtain ⟨seen,matched⟩ := confirmed_some found
  unfold wrong
  rw [seen]
  simp [matched]

theorem compared_uncounted (found : compared platform call memory = some doc) (split : memory = inc :: older) :
    wrong platform call older = false := by
  obtain ⟨_,_,_,_,_,time,look,read,_,rfl,_⟩ := compared_some found
  cases split
  exact wrong_length (by simp)

theorem does_counts (does : Does platform call memory s t) : Counts platform name lowered call memory s t := by
  cases does with
  | still s idle => exact .kept rfl fun _ => idle.uncounted
  | drew i s => exact .kept rfl fun _ _ _ _ => request_uncounted ..
  | stored i s fourth drawn => exact .kept (attempted_upsert ..) fun _ _ _ _ => request_uncounted ..
  | cooled s until_ ttl =>
    exact .kept (attempted_set_ne (by simp [cooldownKey]) ..) fun _ _ _ _ => request_uncounted ..
  | delivered s delivery => exact .kept rfl fun _ _ _ _ => request_uncounted ..
  | marked s healthy found => exact .kept rfl fun _ _ _ split => compared_uncounted (confirmed_some found).1 split
  | @cleared _ last mark memory doc key s healthy found own =>
    by_cases same : CacheKey.otpAttempts name lowered = key
    · subst same
      rcases own with on | impossible
      · exact .cleared on.symm healthy found
      · cases impossible
    · apply Counts.kept
      · unfold attempted World.withCache
        rw [Cache.get_del_ne _ _ same]
      · intro _ inc older split
        cases last with
        | nil =>
          cases split
          exact confirmed_right found
        | cons newest last =>
          cases split
          obtain ⟨_,_,_,_,_,time,look,count,_,rfl,_⟩ := compared_some (confirmed_some found).1
          have long : (last ++ mark :: [time,look,count]).length ≠ 3 := by simp
          exact wrong_length long
  | missed s found wrong => exact .kept rfl fun _ _ _ split => compared_uncounted found split
  | @counted _ inc time look count doc s found miss =>
    by_cases on : On platform name lowered call
    · refine .counted on ?_ fun date => ?_
      · unfold wrong
        rw [found]
        simp [miss]
      · unfold On at on
        rw [on]
        unfold attempted World.withCache
        dsimp only
        rw [Cache.get_set _ _ _ date]
        rfl
    · exact .kept (attempted_set_ne (fun same => on same.symm) ..) fun now => absurd now on

theorem pending_first (waits : pending platform call [move] = some n) (on : On platform name lowered call) :
    n = attempted (.otpAttempts name lowered) move.1 := by
  cases call with
  | request => cases waits
  | verify otp channel target purpose code =>
    simp only [pending] at waits
    split at waits
    · cases waits
      unfold On attemptsKey at on
      rw [← on]
      rfl
    · cases waits

theorem wrong_pending (miss : wrong platform call [time,look,count] = true) :
    pending platform call [time,look,count] = some (attempted (attemptsKey platform call) count.1) ∧
      ∀ inc, pending platform call [inc,time,look,count] = some (attempted (attemptsKey platform call) count.1) := by
  obtain ⟨doc,found,_⟩ := wrong_some miss
  obtain ⟨otp,channel,target,purpose,code,_,_,_,rfl,_⟩ := compared_some found
  simp only [pending,miss,if_true]
  exact ⟨rfl,fun _ => rfl⟩

theorem pending_earlier (waits : pending platform call (move :: moves) = some n) (further : moves ≠ []) :
    pending platform call moves = some n := by
  cases call with
  | request => cases waits
  | verify otp channel target purpose code =>
    match moves with
    | [] => exact absurd rfl further
    | [count] =>
      simp only [pending] at waits ⊢
      split at waits
      · rename_i below
        rw [if_pos below.1]
        exact waits
      · cases waits
    | [look,count] =>
      simp only [pending] at waits ⊢
      split at waits
      · rename_i miss
        obtain ⟨doc,found,_⟩ := wrong_some miss
        obtain ⟨_,_,_,_,_,_,_,_,asked,same,first,_,below⟩ := compared_some found
        cases asked
        cases same
        rw [if_pos ⟨below,by rw [first]; rfl⟩]
        exact waits
      · cases waits
    | [time,look,count] => exact waits
    | _ :: _ :: _ :: _ :: _ => cases waits

theorem pending_below (waits : pending platform call moves = some n) : n < call.otp.maxAttempts := by
  induction moves generalizing n with
  | nil => cases call <;> cases waits
  | cons move moves ih =>
    by_cases further : moves = []
    · subst further
      cases call with
      | request => cases waits
      | verify otp channel target purpose code =>
        simp only [pending] at waits
        split at waits
        · rename_i below
          cases waits
          exact below
        · cases waits
    · exact ih (pending_earlier waits further)

theorem pending_short (waits : pending platform call moves = some n) : moves.length ≤ 4 := by
  cases call with
  | request => cases waits
  | verify otp channel target purpose code =>
    unfold pending at waits
    dsimp only at waits
    split at waits <;> first | (cases waits) | (simp)

-- Call `i` can still count a failure, and has read `n`.
def Waiting (platform : Platform) (name lowered : String) (past : List (Event CallId Call World)) (i : CallId) (n : Nat) : Prop :=
  ∃ event ∈ past, event.who = i ∧ On platform name lowered event.call ∧ pending platform event.call (mine i past) = some n

-- Everyone is on one call.
def Settled (past : List (Event CallId Call World)) : Prop := ∀ a ∈ past, ∀ b ∈ past, a.who = b.who → a.call = b.call

theorem waiting_cons {event : Event CallId Call World} (settled : Settled (event :: past))
    (waits : Waiting platform name lowered (event :: past) i n) :
    (i = event.who ∧ On platform name lowered event.call ∧
      pending platform event.call ((event.before,event.after) :: mine event.who past) = some n) ∨
    (i ≠ event.who ∧ Waiting platform name lowered past i n) := by
  obtain ⟨one,listed,who,on,waits⟩ := waits
  by_cases own : i = event.who
  · subst own
    have same : one.call = event.call := settled one listed event List.mem_cons_self who
    rw [mine_cons,if_pos rfl,same] at waits
    exact .inl ⟨rfl,same ▸ on,waits⟩
  · rw [mine_cons,if_neg fun same => own same.symm] at waits
    refine .inr ⟨own,one,?_,who,on,waits⟩
    rcases List.mem_cons.mp listed with rfl | earlier
    · exact absurd who.symm own
    · exact earlier

theorem waiting_later {event : Event CallId Call World} (other : i ≠ event.who) (waits : Waiting platform name lowered past i n) :
    Waiting platform name lowered (event :: past) i n ∧ mine i (event :: past) = mine i past := by
  have moves : mine i (event :: past) = mine i past := by rw [mine_cons,if_neg fun same => other same.symm]
  obtain ⟨one,listed,who,on,waits⟩ := waits
  exact ⟨⟨one,List.mem_cons_of_mem _ listed,who,on,moves ▸ waits⟩,moves⟩

theorem waiting_own {event : Event CallId Call World} (settled : Settled (event :: past))
    (on : On platform name lowered event.call) (waits : pending platform event.call (mine event.who past) = some n) :
    Waiting platform name lowered past event.who n := by
  cases moves : mine event.who past with
  | nil =>
    rw [moves] at waits
    cases asked : event.call <;> rw [asked] at waits <;> cases waits
  | cons move older =>
    obtain ⟨one,listed,who,_⟩ := mine_member (moves ▸ List.mem_cons_self)
    have same : one.call = event.call := settled one (List.mem_cons_of_mem _ listed) event List.mem_cons_self who
    exact ⟨one,listed,who,same ▸ on,same ▸ waits⟩

-- The counter is up to date for the one verification that can still count a
-- failure, and lacks at most that failure.
structure Spent (platform : Platform) (name lowered : String) (limit begun : Nat) (past : List (Event CallId Call World))
    (s : World) : Prop where
  alone : ∀ i j n m, Waiting platform name lowered past i n → Waiting platform name lowered past j m → i = j
  current : ∀ i n, Waiting platform name lowered past i n → attempted (.otpAttempts name lowered) s = n
  count : guesses platform name lowered past + begun ≤ attempted (.otpAttempts name lowered) s ∨
    (guesses platform name lowered past + begun ≤ attempted (.otpAttempts name lowered) s + 1 ∧
      ∃ i n, Waiting platform name lowered past i n ∧ 3 ≤ (mine i past).length)
  bound : guesses platform name lowered past = 0 ∨ guesses platform name lowered past + begun ≤ limit

theorem Spent.same (spent : Spent platform name lowered limit begun past s)
    (same : attempted (.otpAttempts name lowered) t = attempted (.otpAttempts name lowered) s) :
    Spent platform name lowered limit begun past t :=
  ⟨spent.alone,same ▸ spent.current,same ▸ spent.count,spent.bound⟩

theorem guesses_same {event : Event CallId Call World} (right : ¬ (On platform name lowered event.call ∧
    wrong platform event.call ((event.before,event.after) :: mine event.who past) = true)) :
    guesses platform name lowered (event :: past) = guesses platform name lowered past := by
  change guesses platform name lowered past + _ = _
  rw [if_neg right,Nat.add_zero]

section
variable {event : Event CallId Call World} {past : List (Event CallId Call World)} {limit begun : Nat}

theorem spent_guess (spent : Spent platform name lowered limit begun past event.before) (settled : Settled (event :: past))
    (on : On platform name lowered event.call) (limited : event.call.otp.maxAttempts ≤ limit)
    (miss : wrong platform event.call ((event.before,event.after) :: mine event.who past) = true)
    (same : attempted (.otpAttempts name lowered) event.after = attempted (.otpAttempts name lowered) event.before) :
    Spent platform name lowered limit begun (event :: past) event.after := by
  obtain ⟨doc,found,_⟩ := wrong_some miss
  obtain ⟨_,_,_,_,_,time,look,count,_,shape,_⟩ := compared_some found
  obtain ⟨now,own⟩ := List.cons.inj shape
  have here := (wrong_pending (shape ▸ miss)).1
  rw [← shape] at here
  have before := pending_earlier here (by rw [own]; exact List.cons_ne_nil _ _)
  have waits := waiting_own settled on before
  have value := spent.current _ _ waits
  have below := pending_below before
  have counted : guesses platform name lowered past + begun ≤ attempted (.otpAttempts name lowered) event.before := by
    rcases spent.count with enough | ⟨_,i,n,waits',long⟩
    · exact enough
    · rw [spent.alone i event.who n _ waits' waits,own] at long
      simp at long
  have more : guesses platform name lowered (event :: past) = guesses platform name lowered past + 1 := by
    change guesses platform name lowered past + _ = _
    rw [if_pos ⟨on,miss⟩]
  have still : ∀ i n, Waiting platform name lowered (event :: past) i n → ∃ m, Waiting platform name lowered past i m ∧
      (i = event.who → n = attempted (attemptsKey platform event.call) count.1) := by
    intro i n later
    rcases waiting_cons settled later with ⟨rfl,_,waits'⟩ | ⟨other,waits'⟩
    · rw [here] at waits'
      exact ⟨_,waits,fun _ => (Option.some.inj waits').symm⟩
    · exact ⟨n,waits',fun same => absurd same other⟩
  refine ⟨?_,?_,?_,?_⟩
  · intro i j n m first second
    obtain ⟨_,first',_⟩ := still i n first
    obtain ⟨_,second',_⟩ := still j m second
    exact spent.alone i j _ _ first' second'
  · intro i n later
    obtain ⟨m,earlier,read⟩ := still i n later
    rw [same,value,read (spent.alone i event.who m _ earlier waits)]
  · right
    have now : Waiting platform name lowered (event :: past) event.who (attempted (attemptsKey platform event.call) count.1) := by
      refine ⟨event,List.mem_cons_self,rfl,on,?_⟩
      rw [mine_cons,if_pos rfl]
      exact here
    refine ⟨by omega,event.who,_,now,?_⟩
    rw [mine_cons,if_pos rfl,own]
    simp
  · right
    omega

theorem spent_kept (spent : Spent platform name lowered limit begun past event.before) (settled : Settled (event :: past))
    (single : Single platform name lowered (event :: past))
    (right : ¬ (On platform name lowered event.call ∧
      wrong platform event.call ((event.before,event.after) :: mine event.who past) = true))
    (uncounted : On platform name lowered event.call → ∀ inc older, mine event.who past = inc :: older →
      wrong platform event.call older = false)
    (same : attempted (.otpAttempts name lowered) event.after = attempted (.otpAttempts name lowered) event.before) :
    Spent platform name lowered limit begun (event :: past) event.after := by
  -- a verification that begins to wait is the only one
  have first : ∀ n i m, mine event.who past = [] → On platform name lowered event.call →
      pending platform event.call [(event.before,event.after)] = some n → ¬ Waiting platform name lowered past i m := by
    intro n i m none on waits both
    obtain ⟨other,listed,rfl,on',waits'⟩ := both
    rw [single.1 on none (by rw [waits]; rfl) other listed on'] at waits'
    cases waits'
  have earlier : ∀ n, On platform name lowered event.call → mine event.who past ≠ [] →
      pending platform event.call ((event.before,event.after) :: mine event.who past) = some n →
      Waiting platform name lowered past event.who n :=
    fun n on some_ waits => waiting_own settled on (pending_earlier waits some_)
  refine ⟨?_,?_,?_,?_⟩
  · intro i j n m one two
    rcases waiting_cons settled one with ⟨rfl,on,waits⟩ | ⟨other,waits⟩
    · rcases waiting_cons settled two with ⟨rfl,_,_⟩ | ⟨_,waits'⟩
      · rfl
      · by_cases none : mine event.who past = []
        · rw [none] at waits
          exact absurd waits' (first n j m none on waits)
        · exact spent.alone _ j n m (earlier n on none waits) waits'
    · rcases waiting_cons settled two with ⟨rfl,on,waits'⟩ | ⟨_,waits'⟩
      · by_cases none : mine event.who past = []
        · rw [none] at waits'
          exact absurd waits (first m i n none on waits')
        · exact spent.alone i _ n m waits (earlier m on none waits')
      · exact spent.alone i j n m waits waits'
  · intro i n later
    rw [same]
    rcases waiting_cons settled later with ⟨rfl,on,waits⟩ | ⟨_,waits⟩
    · by_cases none : mine event.who past = []
      · rw [none] at waits
        exact (pending_first waits on).symm
      · exact spent.current _ n (earlier n on none waits)
    · exact spent.current i n waits
  · rw [guesses_same right,same]
    rcases spent.count with enough | ⟨bound,i,n,waits,long⟩
    · exact .inl enough
    · refine .inr ⟨bound,i,n,?_⟩
      by_cases own : i = event.who
      · subst own
        obtain ⟨one,listed,who,on,waits'⟩ := waits
        have asked : one.call = event.call := settled one (List.mem_cons_of_mem _ listed) event List.mem_cons_self who
        rw [asked] at on waits'
        -- three moves, since a fourth is followed by the count
        have three := pending_short waits'
        match moves : mine event.who past,long,three with
        | [time,look,count],_,_ =>
          refine ⟨⟨event,List.mem_cons_self,rfl,on,?_⟩,by simp [moves]⟩
          rw [mine_cons,if_pos rfl,moves]
          rw [moves] at waits'
          cases shape : event.call with
          | request => rw [shape] at waits'; cases waits'
          | verify => rw [shape] at waits'; exact waits'
        | [inc,time,look,count],_,_ =>
          have missed := uncounted on inc _ moves
          rw [moves] at waits'
          cases shape : event.call with
          | request => rw [shape] at waits'; cases waits'
          | verify =>
            rw [shape] at waits' missed
            simp only [pending,missed] at waits'
            cases waits'
      · obtain ⟨stays,moves⟩ := waiting_later own waits
        exact ⟨stays,by rw [moves]; exact long⟩
  · rw [guesses_same right]
    exact spent.bound

theorem spent_counted {inc time look count : World × World}
    (spent : Spent platform name lowered limit begun past event.before) (settled : Settled (event :: past))
    (on : On platform name lowered event.call) (own : mine event.who past = [inc,time,look,count])
    (miss : wrong platform event.call [time,look,count] = true)
    (value : attempted (.otpAttempts name lowered) event.after = attempted (.otpAttempts name lowered) count.1 + 1) :
    Spent platform name lowered limit begun (event :: past) event.after := by
  have before := (wrong_pending miss).2 inc
  have key : attemptsKey platform event.call = .otpAttempts name lowered := on
  rw [key,← own] at before
  have waits := waiting_own settled on before
  have read := spent.current _ _ waits
  have nobody : ∀ i n, ¬ Waiting platform name lowered (event :: past) i n := by
    intro i n later
    rcases waiting_cons settled later with ⟨rfl,_,waits'⟩ | ⟨other,waits'⟩
    · have short := pending_short waits'
      rw [own] at short
      simp at short
    · exact other (spent.alone i event.who n _ waits' waits)
  have right : ¬ (On platform name lowered event.call ∧
      wrong platform event.call ((event.before,event.after) :: mine event.who past) = true) := by
    intro both
    obtain ⟨_,again⟩ := both
    rw [wrong_length (by simp [own])] at again
    cases again
  refine ⟨?_,?_,?_,?_⟩
  · intro i j n m one
    exact absurd one (nobody i n)
  · intro i n one
    exact absurd one (nobody i n)
  · left
    rw [guesses_same right]
    rcases spent.count with enough | ⟨bound,_⟩ <;> omega
  · rw [guesses_same right]
    exact spent.bound

end

theorem unverified_at {later earlier : List (Event CallId Call World)} {event : Event CallId Call World}
    (unverified : Unverified platform name lowered (later ++ event :: earlier)) (on : On platform name lowered event.call) :
    consumes platform event.call (mine event.who earlier) event.before = none := by
  induction later with
  | nil => exact unverified.1 on
  | cons newest later ih => exact ih unverified.2

theorem spent_event {event : Event CallId Call World} (spent : Spent platform name lowered limit begun past event.before)
    (does : Does platform event.call (mine event.who past) event.before event.after) (settled : Settled (event :: past))
    (limited : On platform name lowered event.call → event.call.otp.maxAttempts ≤ limit)
    (date : event.before.base.now ≤ Cache.MAX_SAFE_INTEGER) (unverified : Unverified platform name lowered (event :: past))
    (single : Single platform name lowered (event :: past)) :
    Spent platform name lowered limit begun (event :: past) event.after := by
  generalize own : mine event.who past = memory at does
  cases @does_counts platform name lowered event.call memory _ _ does with
  | kept same uncounted =>
    by_cases miss : On platform name lowered event.call ∧
        wrong platform event.call ((event.before,event.after) :: mine event.who past) = true
    · exact spent_guess spent settled miss.1 (limited miss.1) miss.2 same
    · exact spent_kept spent settled single miss (own ▸ uncounted) same
  | @cleared _ _ doc _ memory last mark on healthy found =>
    obtain ⟨later,marking,earlier,rfl,who,move,before⟩ := mine_split last own
    have asked : marking.call = event.call :=
      settled marking (List.mem_cons_of_mem _ (List.mem_append_right later List.mem_cons_self)) event List.mem_cons_self who
    have none := unverified_at unverified.2 (asked ▸ on)
    rw [who,before,asked] at none
    unfold consumes at none
    rw [move] at healthy
    rw [if_pos healthy,found] at none
    cases none
  | counted on miss value => exact spent_counted spent settled on own miss (value date)

theorem spent_along (along : Along (Does platform) past)
    (linked : Linked (fun s t => attempted (.otpAttempts name lowered) t = attempted (.otpAttempts name lowered) s) initial past s)
    (settled : Settled past) (limited : ∀ event ∈ past, On platform name lowered event.call → event.call.otp.maxAttempts ≤ limit)
    (dates : ∀ event ∈ past, event.before.base.now ≤ Cache.MAX_SAFE_INTEGER)
    (unverified : Unverified platform name lowered past) (single : Single platform name lowered past) :
    Spent platform name lowered limit (attempted (.otpAttempts name lowered) initial) past s := by
  have still : ∀ {past a b}, Relation.ReflTransGen (fun s t : World =>
      attempted (.otpAttempts name lowered) t = attempted (.otpAttempts name lowered) s) a b →
      Spent platform name lowered limit (attempted (.otpAttempts name lowered) initial) past a →
      Spent platform name lowered limit (attempted (.otpAttempts name lowered) initial) past b := by
    intro past a b moves spent
    induction moves with
    | refl => exact spent
    | tail _ step ih => exact ih.same step
  induction past generalizing s with
  | nil =>
    apply still linked
    refine ⟨?_,?_,.inl (Nat.le_of_eq (Nat.zero_add _)),.inl rfl⟩
    · intro i j n m both
      obtain ⟨event,listed,_⟩ := both
      cases listed
    · intro i n both
      obtain ⟨event,listed,_⟩ := both
      cases listed
  | cons event past ih =>
    have earlier : Settled past := fun a one b two => settled a (List.mem_cons_of_mem _ one) b (List.mem_cons_of_mem _ two)
    have before := ih along.2 linked.2 earlier (fun a listed => limited a (List.mem_cons_of_mem _ listed))
      (fun a listed => dates a (List.mem_cons_of_mem _ listed)) unverified.2 single.2
    exact still linked.1 (spent_event before along.1 settled (limited event List.mem_cons_self)
      (dates event List.mem_cons_self) unverified single)

theorem request_keeps (does : Does platform (.request otp channel target purpose) memory s t) (name lowered : String) :
    attempted (.otpAttempts name lowered) t = attempted (.otpAttempts name lowered) s := by
  cases @does_counts platform name lowered _ memory _ _ does with
  | kept same _ => exact same
  | cleared on healthy found =>
    obtain ⟨_,_,_,_,_,_,_,_,asked,_⟩ := compared_some (confirmed_some found).1
    cases asked
  | counted on miss value =>
    rw [request_uncounted] at miss
    cases miss

def Call.isRequest : Call → Bool
  | .request .. => true
  | .verify .. => false

def available (limit : Nat) (name lowered : String) (w : World) : Nat := limit - attempted (.otpAttempts name lowered) w

-- As long as the counter does not lapse and nobody succeeds, the wrong codes that
-- are compared stay within the budget, provided that a verification which finds
-- the counter below the limit finds no other one that can still count a failure.
theorem guessing_budget_holds {initial : World} {past : List (Event CallId Call World)} {c : Config CallId Call World Error Answer}
    (traced : Traced (program platform) (fun s t => attempted (.otpAttempts name lowered) t =
      attempted (.otpAttempts name lowered) s) initial past c) {limit : Nat}
    (limited : ∀ event ∈ past, On platform name lowered event.call → event.call.otp.maxAttempts ≤ limit)
    (dates : ∀ event ∈ past, event.before.base.now ≤ Cache.MAX_SAFE_INTEGER)
    (unverified : Unverified platform name lowered past) (single : Single platform name lowered past) :
    guesses platform name lowered past ≤ available limit name lowered initial ∧
      ∀ event ∈ past, event.call.isRequest = true →
        available limit name lowered event.after ≤ available limit name lowered event.before := by
  have kept := traced_kept (acts_program platform) (fun _ _ _ => trivial) traced
  have settled : Settled past := traced_steadfast traced
  constructor
  · have bound := (spent_along kept.along (traced_linked traced) settled limited dates unverified single).bound
    unfold available
    omega
  · intro event listed asked
    obtain ⟨later,earlier,rfl⟩ := List.append_of_mem listed
    have does := (along_at kept.along).1
    cases shape : event.call with
    | verify => rw [shape] at asked; cases asked
    | request otp channel target purpose =>
      rw [shape] at does
      exact Nat.le_of_eq (congrArg (limit - ·) (request_keeps does name lowered))

end

theorem guessing_budget_holds_twice : ∃ past c, Traced (program samplePlatform) (fun s t =>
      attempted (.otpAttempts "email" "user@example.com") t = attempted (.otpAttempts "email" "user@example.com") s)
      (soleAccount sampleUser) past c ∧ guesses samplePlatform "email" "user@example.com" past = 2 ∧ 2 ≤ 5 - 0 := by
  have performed : (perform (program samplePlatform) [] (start (soleAccount sampleUser)) (List.flatten [
        [.start 0 asking],List.replicate 8 (.act 0),[.start 1 (guessing "111111")],List.replicate 5 (.act 1),
        [.start 2 (guessing "222222")],List.replicate 5 (.act 2)])).any (fun after =>
        decide (guesses samplePlatform "email" "user@example.com" after.1 = 2) &&
        decide (Unverified samplePlatform "email" "user@example.com" after.1) &&
        decide (Single samplePlatform "email" "user@example.com" after.1) &&
        decide (∀ event ∈ after.1, event.call.otp.maxAttempts ≤ 5) &&
        decide (∀ event ∈ after.1, event.before.base.now ≤ Cache.MAX_SAFE_INTEGER)) = true := by
    rw [samplePlatform_eq]
    decide +kernel
  obtain ⟨past,c,traced,checked⟩ := perform_exists performed
  simp only [Bool.and_eq_true,decide_eq_true_eq] at checked
  obtain ⟨⟨⟨⟨two,unverified⟩,single⟩,limited⟩,dates⟩ := checked
  have bound := (guessing_budget_holds traced (fun event listed _ => limited event listed) dates unverified single).1
  exact ⟨past,c,traced,two,two ▸ bound⟩

theorem guessing_budget_exceeded : ∃ past c, Traced (program samplePlatform) (fun s t =>
      attempted (.otpAttempts "email" "user@example.com") t = attempted (.otpAttempts "email" "user@example.com") s)
      (soleAccount sampleUser) past c ∧ (∀ event ∈ past, event.call.otp.maxAttempts = 5 ∧ event.before.base.now = 0) ∧
      Unverified samplePlatform "email" "user@example.com" past ∧
      guesses samplePlatform "email" "user@example.com" past = 6 := by
  have performed : (perform (program samplePlatform) [] (start (soleAccount sampleUser)) (List.flatten [
        [.start 0 asking],List.replicate 8 (.act 0),
        [1,2,3,4,5,6].flatMap (fun i => [.start i (guessing "111111"),.act i]),
        [1,2,3,4,5,6].flatMap (fun i => List.replicate 4 (.act i))])).any (fun after =>
        decide (∀ event ∈ after.1, event.call.otp.maxAttempts = 5 ∧ event.before.base.now = 0) &&
        decide (Unverified samplePlatform "email" "user@example.com" after.1) &&
        decide (guesses samplePlatform "email" "user@example.com" after.1 = 6)) = true := by
    rw [samplePlatform_eq]
    decide +kernel
  obtain ⟨past,c,traced,checked⟩ := perform_exists performed
  simp only [Bool.and_eq_true,decide_eq_true_eq] at checked
  exact ⟨past,c,traced,checked.1.1,checked.1.2,checked.2⟩

end Pezhwan.Otp
