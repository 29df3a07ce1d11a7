import Pezhwan.Mfa.Throttle

-- The lock of a user, over attempts that overlap.
namespace Pezhwan.Mfa
open Atomic Prog Config Auth Script

-- The surroundings leave the failures and the lock of the user to the attempts.
structure Apart (userId : String) (s t : World) : Prop where
  throttle : throttle userId t = throttle userId s
  later : s.base.now ≤ t.base.now

-- The lock has not been set.
def Unset (userId : String) (s t : World) : Prop := lockUntil userId t = lockUntil userId s ∨ lockUntil userId t = none

instance (userId : String) (s t : World) : Decidable (Unset userId s t) := inferInstanceAs (Decidable (_ ∨ _))

section
variable (service : MfaService) (userId : String)

-- The step that an attempt asks for next.
def asks (call : Attempt) (memory : List (World × World)) : Option Step :=
  match script service userId call (told memory) with
  | .error step => some step
  | .ok _ => none

def finds (call : Attempt) (w : World) : Bool :=
  w.base.fault.isNone && (unusedRow service.platform userId call.code w).isSome

-- The code turns out to be neither a TOTP code nor a backup code.
def misses (call : Attempt) (memory : List (World × World)) (w : World) : Bool :=
  asks service userId call memory = some .rows && !finds service userId call w

-- A failure that is still to be counted, or whose count the store has refused.
def uncounted (call : Attempt) : List (World × World) → Bool
  | [] => false
  | move :: older => match asks service userId call older with
    | some .rows => !finds service userId call move.1
    | some .count => move.1.base.fault.isSome
    | _ => false

-- A lock that is still to be set, or that the store has refused.
def unlocked (call : Attempt) : List (World × World) → Bool
  | [] => false
  | move :: older => match asks service userId call older with
    | some .count => move.1.base.fault.isNone &&
        (throttle userId move.1).any fun held => MFA_MAX_ATTEMPTS ≤ held.failed + 1
    | some .lock => move.1.base.fault.isSome
    | _ => false

def owes (call : Attempt) (memory : List (World × World)) : Bool :=
  uncounted service userId call memory || unlocked service userId call memory

def guards (call : Attempt) (memory : List (World × World)) : Bool :=
  (asks service userId call memory).any Step.guarded

def compares (call : Attempt) (memory : List (World × World)) : Bool :=
  (asks service userId call memory).any Step.compares

-- A success or the end of a lock, as recorded.
def resets (call : Attempt) (memory : List (World × World)) (w : World) : Bool :=
  w.base.fault.isNone && (asks service userId call memory == some .clear || asks service userId call memory == some .expire)

-- The wrong codes that have been compared since the last reset.
def wrongs : List (Event CallId Attempt World) → Nat
  | [] => 0
  | event :: past =>
    if resets service userId event.call (mine event.who past) event.before then 0
    else wrongs past + if misses service userId event.call (mine event.who past) event.before then 1 else 0

-- Nobody compares a code or resets the throttle by a lock that was set after it
-- was read, or compares a code while another attempt owes its failure.
def Orderly : List (Event CallId Attempt World) → Prop
  | [] => True
  | event :: past =>
    (guards service userId event.call (mine event.who past) = true →
      ∀ other ∈ since event.who ((mine event.who past).length - event.call.checks) past, Unset userId other.before other.after) ∧
    (compares service userId event.call (mine event.who past) = true →
      ∀ other ∈ past, other.who ≠ event.who → owes service userId other.call (mine other.who past) = false) ∧
    Orderly past

def Orderly.decide : (past : List (Event CallId Attempt World)) → Decidable (Orderly service userId past)
  | [] => .isTrue trivial
  | _ :: past => @instDecidableAnd _ _ inferInstance (@instDecidableAnd _ _ inferInstance (decide past))

instance (past : List (Event CallId Attempt World)) : Decidable (Orderly service userId past) := Orderly.decide service userId past

end

section
variable {service : MfaService} {userId : String} {call : Attempt} {memory : List (World × World)}

theorem asks_some : asks service userId call memory = some step ↔ script service userId call (told memory) = .error step := by
  unfold asks
  cases script service userId call (told memory) with
  | error other => simp
  | ok pair => simp

theorem does_asks (does : Does service userId call memory s t) :
    ∃ step i, asks service userId call memory = some step ∧ t = step.perform service userId i s ∧ t.base.now = s.base.now ∧
      throttle userId t = if step.accepts s then (throttle userId s).map (step.throttles s.base.now) else throttle userId s := by
  obtain ⟨⟨step,i,asked,rfl⟩,_⟩ := does
  refine ⟨step,i,asks_some.mpr asked,rfl,now_perform step i s,?_⟩
  unfold Step.perform
  split
  · exact throttle_update step i s
  · rfl

theorem uncounted_counts (does : Does service userId call memory s t) (owed : uncounted service userId call memory = true) :
    asks service userId call memory = some .count := by
  cases memory with
  | nil => cases owed
  | cons move older =>
    unfold uncounted at owed
    dsimp only at owed
    obtain ⟨step,asked,accepted⟩ := does.accepted [] move older rfl
    rw [asks_some.mpr asked] at owed
    cases step with
    | rows =>
      have healthy : move.1.base.fault = none := accepted rfl
      have wrong : unusedRow service.platform userId call.code move.1 = none := by
        simpa [finds,healthy] using owed
      apply asks_some.mpr
      rw [told_cons]
      exact count_next wrong _ asked
    | count =>
      have healthy : move.1.base.fault = none := accepted rfl
      rw [healthy] at owed
      cases owed
    | look | time | draw | totp | mark | expire | touch | clear | lock | switchOff | removeCodes | switchOn | storeSecret
    | dropCodes | storeCodes => cases owed

theorem unlocked_locks (does : Does service userId call memory s t) (owed : unlocked service userId call memory = true) :
    asks service userId call memory = some .lock := by
  cases memory with
  | nil => cases owed
  | cons move older =>
    unfold unlocked at owed
    dsimp only at owed
    obtain ⟨step,asked,accepted⟩ := does.accepted [] move older rfl
    rw [asks_some.mpr asked] at owed
    cases step with
    | count =>
      cases found : throttle userId move.1 with
      | none => rw [found] at owed; simp at owed
      | some held =>
        rw [found] at owed
        have last : MFA_MAX_ATTEMPTS ≤ held.failed + 1 := by simpa using (Bool.and_eq_true_iff.mp owed).2
        apply asks_some.mpr
        rw [told_cons]
        exact lock_next found last _ asked
    | lock =>
      have healthy : move.1.base.fault = none := accepted rfl
      rw [healthy] at owed
      cases owed
    | look | time | draw | rows | totp | mark | expire | touch | clear | switchOff | removeCodes | switchOn | storeSecret
    | dropCodes | storeCodes => cases owed

abbrev Trail := List (Event CallId Attempt World)

theorem Unset.trans (first : Unset userId r s) (second : Unset userId s t) : Unset userId r t := by
  rcases second with same | none
  · rcases first with same' | none'
    · exact .inl (same.trans same')
    · exact .inr (same.trans none')
  · exact .inr none

theorem told_move {used more : List World} (split : told memory = used ++ s :: more) :
    ∃ move older, memory[memory.length - (used.length + 1)]? = some move ∧ move.1 = s ∧ told older = used ∧
      ∃ newer, memory = newer ++ move :: older := by
  obtain ⟨newer,move,older,rfl,rfl,rfl⟩ := told_split split
  refine ⟨move,older,?_,rfl,rfl,newer,rfl⟩
  have lengths : (newer ++ move :: older).length - ((told older).length + 1) = newer.length := by simp [told]
  rw [lengths]
  simp

section
variable {past : Trail} {initial s t : World} {i : CallId} {n : Nat} {move : World × World}

theorem now_along (along : Along (Does service userId) past) (member : event ∈ past) :
    event.after.base.now = event.before.base.now := by
  obtain ⟨later,earlier,rfl⟩ := List.append_of_mem member
  obtain ⟨_,_,_,_,now,_⟩ := does_asks (along_at along).1
  exact now

theorem move_earlier (along : Along (Does service userId) past) (linked : Linked (Apart userId) initial past s)
    (found : (mine i past)[n]? = some move) : move.1.base.now ≤ s.base.now := by
  have kept := since_kept (r := fun s t => s.base.now ≤ t.base.now) (fun _ => Nat.le_refl _) Nat.le_trans
    (fun apart => apart.later) linked (fun event member => Nat.le_of_eq (now_along along (since_listed member)).symm) found
  exact kept.1

theorem unset_since (linked : Linked (Apart userId) initial past s)
    (unset : ∀ other ∈ since i n past, Unset userId other.before other.after) (found : (mine i past)[n]? = some move) :
    Unset userId move.1 s ∧ Unset userId move.2 s := by
  apply since_kept (r := Unset userId) (fun _ => .inl rfl) Unset.trans _ linked unset found
  intro s t apart
  left
  unfold lockUntil
  rw [apart.throttle]

theorem guarded_open {step : Step} (along : Along (Does service userId) past) (linked : Linked (Apart userId) initial past s)
    (does : Does service userId call (mine i past) s t) (own : ∀ event ∈ past, event.who = i → event.call = call)
    (asked : asks service userId call (mine i past) = some step) (guarded : step.guarded = true)
    (unset : ∀ other ∈ since i ((mine i past).length - call.checks) past, Unset userId other.before other.after) :
    ¬ Locked userId s ∧ (step.compares = true → ∀ until_, lockUntil userId s = some until_ → until_ = 0) := by
  obtain ⟨look,after,⟨before,split,place,begins⟩,admitted⟩ := checked (asks_some.mp asked) guarded
  obtain ⟨move,older,found,rfl,rest⟩ := told_move split
  rw [place] at found
  obtain ⟨same,_⟩ := unset_since linked unset found
  have passed : ∀ until_ clock more, lockUntil userId move.1 = some until_ → after = clock :: more →
      until_ ≤ clock.base.now → ¬ Locked userId s := by
    intro until_ clock more lock rfl late both
    obtain ⟨until',locked,still⟩ := both
    have whole : told (mine i past) = (before ++ [move.1]) ++ clock :: more := by rw [split]; simp
    obtain ⟨read,_,read_,rfl,_⟩ := told_move whole
    have earlier := move_earlier along linked read_
    rcases same with equal | none
    · rw [equal,lock] at locked
      cases locked
      omega
    · rw [none] at locked
      cases locked
  rcases admitted with ⟨rfl,clock,until_,rfl,lock,late⟩ | never | zero | ⟨until_,clock,expired,more,lock,rfl,late,expires⟩
  · exact ⟨passed until_ clock [] lock rfl late,fun compares => nomatch compares⟩
  · have none : lockUntil userId s = none := by
      rcases same with equal | none
      · exact equal.trans never
      · exact none
    refine ⟨?_,?_⟩
    · intro both
      obtain ⟨until_,locked,_⟩ := both
      rw [none] at locked
      cases locked
    · intro _ until_ locked
      rw [none] at locked
      cases locked
  · have none : ∀ until_, lockUntil userId s = some until_ → until_ = 0 := by
      intro until_ locked
      rcases same with equal | none
      · rw [equal,zero] at locked
        exact (Option.some.inj locked).symm
      · rw [none] at locked
        cases locked
    refine ⟨?_,fun _ => none⟩
    intro both
    obtain ⟨until_,locked,still⟩ := both
    have start := none until_ locked
    omega
  · refine ⟨passed until_ clock _ lock rfl late,?_⟩
    intro _ until' locked
    -- the lock has been lifted in between, by the attempt itself
    have whole : told (mine i past) = (before ++ [move.1,clock]) ++ expired :: more := by rw [split]; simp
    obtain ⟨lift,first,place',_,asked',newer,shape⟩ := told_move whole
    have step' : script service userId call (told first) = .error .expire := by
      rw [asked']
      exact begins _ expires
    obtain ⟨other,asked'',accepted⟩ := does.accepted newer lift first shape
    rw [step'] at asked''
    cases asked''
    obtain ⟨later,event,earlier,rfl,who,rfl,moves⟩ := mine_split newer shape
    obtain ⟨_,_,asked₂,_,_,throttled⟩ := does_asks (along_at along).1
    rw [who,moves,own event (by simp) who,asks_some.mpr step'] at asked₂
    cases asked₂
    rw [if_pos accepted] at throttled
    have lifted : lockUntil userId event.after = none := by
      unfold lockUntil
      rw [throttled]
      cases throttle userId event.before <;> rfl
    have length : (before ++ [move.1,clock]).length + 1 = call.checks + 2 := by
      simp only [List.length_append,List.length_cons,List.length_nil]
      omega
    rw [length] at place'
    obtain ⟨_,fresh⟩ := unset_since linked (fun other member => unset other (since_fewer (by omega) member)) place'
    rcases fresh with equal | none
    · rw [equal,lifted] at locked
      cases locked
    · rw [none] at locked
      cases locked

-- The failures that are recorded fall short of the wrong codes by one that is
-- still owed, and the lock of an exhausted budget is set or owed.
structure Sound (service : MfaService) (userId : String) (past : Trail) (held : Throttle) : Prop where
  bounded : wrongs service userId past ≤ MFA_MAX_ATTEMPTS
  counted : wrongs service userId past ≤ held.failed ∨ (wrongs service userId past ≤ held.failed + 1 ∧
    ∃ event ∈ past, uncounted service userId event.call (mine event.who past) = true)
  locks : MFA_MAX_ATTEMPTS ≤ held.failed → (∃ until_, held.lockUntil = some until_ ∧ 0 < until_) ∨
    ∃ event ∈ past, owes service userId event.call (mine event.who past) = true

def Faithful (past : Trail) : Prop := ∀ a ∈ past, ∀ b ∈ past, a.who = b.who → a.call = b.call

variable {held : Throttle} {event : Event CallId Attempt World}

theorem still_owed {debt : Attempt → List (World × World) → Bool} (faithful : Faithful (event :: past))
    (done : debt event.call (mine event.who past) = true → False)
    (owed : ∃ other ∈ past, debt other.call (mine other.who past) = true) :
    ∃ other ∈ event :: past, debt other.call (mine other.who (event :: past)) = true := by
  obtain ⟨other,listed,owed⟩ := owed
  by_cases own : event.who = other.who
  · have same := faithful event List.mem_cons_self other (List.mem_cons_of_mem _ listed) own
    rw [← same,← own] at owed
    exact (done owed).elim
  · refine ⟨other,List.mem_cons_of_mem _ listed,?_⟩
    rw [mine_cons,if_neg own]
    exact owed

theorem own_debt {debt : Attempt → List (World × World) → Bool}
    (owed : debt event.call ((event.before,event.after) :: mine event.who past) = true) :
    ∃ other ∈ event :: past, debt other.call (mine other.who (event :: past)) = true := by
  refine ⟨event,List.mem_cons_self,?_⟩
  rw [mine_cons,if_pos rfl]
  exact owed

theorem wrongs_same (kept : resets service userId event.call (mine event.who past) event.before = false)
    (right : misses service userId event.call (mine event.who past) event.before = false) :
    wrongs service userId (event :: past) = wrongs service userId past := by
  simp [wrongs,kept,right]

theorem sound_reset (reset : resets service userId event.call (mine event.who past) event.before = true)
    (cleared : held.failed = 0) : Sound service userId (event :: past) held := by
  have none : wrongs service userId (event :: past) = 0 := by simp [wrongs,reset]
  refine ⟨by omega,by omega,?_⟩
  intro many
  rw [cleared] at many
  exact absurd many (by decide)

section
variable (sound : Sound service userId past held) (does : Does service userId event.call (mine event.who past) event.before event.after)
  (faithful : Faithful (event :: past)) {step : Step} (asked : asks service userId event.call (mine event.who past) = some step)
include sound does faithful asked

theorem sound_kept (kept : resets service userId event.call (mine event.who past) event.before = false)
    (right : misses service userId event.call (mine event.who past) event.before = false) (count : step ≠ .count) (lock : step ≠ .lock) :
    Sound service userId (event :: past) held := by
  have counts : uncounted service userId event.call (mine event.who past) = true → False := by
    intro owed
    rw [uncounted_counts does owed] at asked
    exact count (Option.some.inj asked).symm
  have owing : owes service userId event.call (mine event.who past) = true → False := by
    intro owed
    rcases Bool.or_eq_true_iff.mp owed with first | second
    · exact counts first
    · rw [unlocked_locks does second] at asked
      exact lock (Option.some.inj asked).symm
  have same := wrongs_same kept right
  refine ⟨same ▸ sound.bounded,?_,?_⟩
  · rw [same]
    exact sound.counted.imp_right fun ⟨short,owed⟩ => ⟨short,still_owed faithful counts owed⟩
  · intro many
    rcases sound.locks many with set | owed
    · exact .inl set
    · exact .inr (still_owed faithful owing owed)

omit asked in
theorem sound_miss (kept : resets service userId event.call (mine event.who past) event.before = false)
    (wrong : misses service userId event.call (mine event.who past) event.before = true)
    (alone : ∀ other ∈ past, other.who ≠ event.who → owes service userId other.call (mine other.who past) = false)
    (room : held.failed < MFA_MAX_ATTEMPTS) : Sound service userId (event :: past) held := by
  have asked : asks service userId event.call (mine event.who past) = some .rows := by
    simpa using (Bool.and_eq_true_iff.mp wrong).1
  have enough : wrongs service userId past ≤ held.failed := by
    rcases sound.counted with enough | ⟨_,other,listed,owed⟩
    · exact enough
    · by_cases own : other.who = event.who
      · have same := faithful other (List.mem_cons_of_mem _ listed) event List.mem_cons_self own
        rw [own,same] at owed
        rw [uncounted_counts does owed] at asked
        cases asked
      · have free := alone other listed own
        rw [owes,owed] at free
        cases free
  have more : wrongs service userId (event :: past) = wrongs service userId past + 1 := by simp [wrongs,kept,wrong]
  refine ⟨by omega,.inr ⟨by omega,own_debt ?_⟩,fun many => by omega⟩
  unfold uncounted
  dsimp only
  rw [asked]
  simpa [misses,asked] using wrong

omit does faithful asked in
theorem sound_count (counting : asks service userId event.call (mine event.who past) = some .count)
    (before : throttle userId event.before = some held) : Sound service userId (event :: past)
      (if Step.accepts .count event.before then ⟨held.failed + 1,held.lockUntil⟩ else held) := by
  have kept : resets service userId event.call (mine event.who past) event.before = false := by simp [resets,counting]
  have right : misses service userId event.call (mine event.who past) event.before = false := by simp [misses,counting]
  have same := wrongs_same kept right
  by_cases accepted : Step.accepts .count event.before
  · rw [if_pos accepted]
    have healthy : event.before.base.fault = none := accepted rfl
    refine ⟨same ▸ sound.bounded,?_,?_⟩
    · rw [same]
      left
      rcases sound.counted with enough | ⟨short,_⟩
      · exact Nat.le_succ_of_le enough
      · exact short
    · intro many
      right
      apply own_debt
      have last : unlocked service userId event.call ((event.before,event.after) :: mine event.who past) = true := by
        unfold unlocked
        dsimp only
        rw [counting,before,healthy]
        simpa using many
      rw [owes,last,Bool.or_true]
  · rw [if_neg accepted]
    have refused : uncounted service userId event.call ((event.before,event.after) :: mine event.who past) = true := by
      unfold uncounted
      dsimp only
      rw [counting]
      cases fault : event.before.base.fault with
      | none => exact absurd (fun _ => fault) accepted
      | some e => rfl
    refine ⟨same ▸ sound.bounded,?_,?_⟩
    · rw [same]
      rcases sound.counted with enough | ⟨short,_⟩
      · exact .inl enough
      · exact .inr ⟨short,own_debt refused⟩
    · intro _
      right
      apply own_debt
      rw [owes,refused,Bool.true_or]

omit asked in
theorem sound_lock (locking : asks service userId event.call (mine event.who past) = some .lock) (now : Nat) :
    Sound service userId (event :: past)
      (if Step.accepts .lock event.before then ⟨held.failed,some (now + MFA_LOCK_MS)⟩ else held) := by
  have kept : resets service userId event.call (mine event.who past) event.before = false := by simp [resets,locking]
  have right : misses service userId event.call (mine event.who past) event.before = false := by simp [misses,locking]
  have counts : uncounted service userId event.call (mine event.who past) = true → False := by
    intro owed
    rw [uncounted_counts does owed] at locking
    cases locking
  have same := wrongs_same kept right
  have owing := sound.counted.imp_right fun ⟨short,owed⟩ => And.intro short (still_owed faithful counts owed)
  by_cases accepted : Step.accepts .lock event.before
  · rw [if_pos accepted]
    exact ⟨same ▸ sound.bounded,same ▸ owing,fun _ => .inl ⟨_,rfl,by unfold MFA_LOCK_MS; omega⟩⟩
  · rw [if_neg accepted]
    refine ⟨same ▸ sound.bounded,same ▸ owing,?_⟩
    · intro _
      right
      apply own_debt
      have refused : unlocked service userId event.call ((event.before,event.after) :: mine event.who past) = true := by
        unfold unlocked
        dsimp only
        rw [locking]
        cases fault : event.before.base.fault with
        | none => exact absurd (fun _ => fault) accepted
        | some e => rfl
      rw [owes,refused,Bool.or_true]

end
theorem room_left (sound : Sound service userId past held) (before : throttle userId event.before = some held)
    (does : Does service userId event.call (mine event.who past) event.before event.after) (faithful : Faithful (event :: past))
    {step : Step} (asked : asks service userId event.call (mine event.who past) = some step) (compares : step.compares = true)
    (alone : ∀ other ∈ past, other.who ≠ event.who → owes service userId other.call (mine other.who past) = false)
    (admits : ∀ until_, lockUntil userId event.before = some until_ → until_ = 0) : held.failed < MFA_MAX_ATTEMPTS := by
  by_contra many
  rcases sound.locks (Nat.le_of_not_lt many) with ⟨until_,set,positive⟩ | ⟨other,listed,owed⟩
  · have start := admits until_ (by rw [lockUntil,before]; exact set)
    omega
  · by_cases own : other.who = event.who
    · have same := faithful other (List.mem_cons_of_mem _ listed) event List.mem_cons_self own
      rw [own,same] at owed
      rcases Bool.or_eq_true_iff.mp owed with first | second
      · rw [uncounted_counts does first] at asked
        cases asked
        cases compares
      · rw [unlocked_locks does second] at asked
        cases asked
        cases compares
    · rw [alone other listed own] at owed
      cases owed

theorem sound_event (sound : Sound service userId past held) (before : throttle userId event.before = some held)
    (does : Does service userId event.call (mine event.who past) event.before event.after) (faithful : Faithful (event :: past))
    {step : Step} (asked : asks service userId event.call (mine event.who past) = some step)
    (comparing : step.compares = true →
      (∀ other ∈ past, other.who ≠ event.who → owes service userId other.call (mine other.who past) = false) ∧
        ∀ until_, lockUntil userId event.before = some until_ → until_ = 0) :
    ∃ after, throttle userId event.after = some after ∧ Sound service userId (event :: past) after := by
  obtain ⟨step',_,asked',_,_,throttled⟩ := does_asks does
  rw [asked] at asked'
  cases asked'
  rw [before] at throttled
  have idle : (∀ now held, step.throttles now held = held) → throttle userId event.after = some held := by
    intro still
    rw [throttled]
    split
    · rw [Option.map_some,still]
    · rfl
  have unreset : step ≠ .clear → step ≠ .expire → resets service userId event.call (mine event.who past) event.before = false := by
    intro clear expire
    simp [resets,asked,clear,expire]
  have plain : step ≠ .rows → misses service userId event.call (mine event.who past) event.before = false := by
    intro rows
    simp [misses,asked,rows]
  have refused : ¬ step.accepts event.before → resets service userId event.call (mine event.who past) event.before = false := by
    intro refused
    cases fault : event.before.base.fault with
    | none => exact absurd (fun _ => fault) refused
    | some e => simp [resets,fault]
  have restarts : (step = .clear ∨ step = .expire) → ∃ after, throttle userId event.after = some after ∧
      Sound service userId (event :: past) after := by
    intro restart
    by_cases accepted : step.accepts event.before
    · rw [if_pos accepted,Option.map_some] at throttled
      refine ⟨_,throttled,sound_reset ?_ ?_⟩
      · have healthy : event.before.base.fault = none := accepted (by rcases restart with rfl | rfl <;> rfl)
        rcases restart with rfl | rfl <;> simp [resets,asked,healthy]
      · rcases restart with rfl | rfl
        · unfold Step.throttles
          dsimp only
          split
          · rfl
          · omega
        · rfl
    · rw [if_neg accepted] at throttled
      refine ⟨held,throttled,sound_kept sound does faithful asked (refused accepted) ?_ ?_ ?_⟩
      · exact plain (by rcases restart with rfl | rfl <;> simp)
      · rcases restart with rfl | rfl <;> simp
      · rcases restart with rfl | rfl <;> simp
  cases step with
  | clear => exact restarts (.inl rfl)
  | expire => exact restarts (.inr rfl)
  | count =>
    refine ⟨_,?_,sound_count sound asked before⟩
    rw [throttled]
    split <;> rfl
  | lock =>
    refine ⟨_,?_,sound_lock sound does faithful asked event.before.base.now⟩
    rw [throttled]
    split <;> rfl
  | rows =>
    refine ⟨held,idle fun _ _ => rfl,?_⟩
    by_cases wrong : misses service userId event.call (mine event.who past) event.before = true
    · obtain ⟨alone,admits⟩ := comparing rfl
      exact sound_miss sound does faithful (unreset (by simp) (by simp)) wrong alone
        (room_left sound before does faithful asked rfl alone admits)
    · exact sound_kept sound does faithful asked (unreset (by simp) (by simp)) (by simpa using wrong) (by simp) (by simp)
  | look | time | draw | totp | mark | touch | switchOff | removeCodes | switchOn | storeSecret | dropCodes | storeCodes =>
    refine ⟨held,idle fun _ _ => rfl,?_⟩
    exact sound_kept sound does faithful asked (unreset (by simp) (by simp)) (plain (by simp)) (by simp) (by simp)

theorem orderly_at {later earlier : Trail} (orderly : Orderly service userId (later ++ event :: earlier)) :
    Orderly service userId (event :: earlier) := by
  induction later with
  | nil => exact orderly
  | cons newest later ih => exact ih orderly.2.2

theorem sound_along (along : Along (Does service userId) past) (linked : Linked (Apart userId) initial past s)
    (faithful : Faithful past) (orderly : Orderly service userId past) (begins : throttle userId initial = some held)
    (ready : MFA_MAX_ATTEMPTS ≤ held.failed → ∃ until_, held.lockUntil = some until_ ∧ 0 < until_) :
    ∃ now, throttle userId s = some now ∧ Sound service userId past now := by
  have still : ∀ {a b}, Relation.ReflTransGen (Apart userId) a b → throttle userId b = throttle userId a := by
    intro a b moves
    induction moves with
    | refl => rfl
    | tail _ step ih => exact step.throttle.trans ih
  induction past generalizing s with
  | nil =>
    refine ⟨held,(still linked).trans begins,?_⟩
    exact ⟨Nat.zero_le _,.inl (Nat.zero_le _),fun many => .inl (ready many)⟩
  | cons event past ih =>
    obtain ⟨now,before,sound⟩ := ih along.2 linked.2
      (fun a one b two => faithful a (List.mem_cons_of_mem _ one) b (List.mem_cons_of_mem _ two)) orderly.2.2
    obtain ⟨step,_,asked,_⟩ := does_asks along.1
    have own : ∀ other ∈ past, other.who = event.who → other.call = event.call :=
      fun other listed same => faithful other (List.mem_cons_of_mem _ listed) event List.mem_cons_self same
    have comparing : step.compares = true →
        (∀ other ∈ past, other.who ≠ event.who → owes service userId other.call (mine other.who past) = false) ∧
          ∀ until_, lockUntil userId event.before = some until_ → until_ = 0 := by
      intro compares
      have guarded : step.guarded = true := by
        cases step <;> first | rfl | cases compares
      refine ⟨orderly.2.1 (by simp [Mfa.compares,asked,compares]),?_⟩
      have unset := orderly.1 (by simp [guards,asked,guarded])
      exact (guarded_open along.2 linked.2 along.1 own asked guarded unset).2 compares
    obtain ⟨after,throttled,sound⟩ := sound_event sound before along.1 faithful asked comparing
    exact ⟨after,(still linked.1).trans throttled,sound⟩

-- The lock does its work: nothing is compared or reset before it has passed or
-- when the budget is exhausted, it stays until it has passed, and the wrong codes
-- stay within the budget.
structure Upheld (service : MfaService) (userId : String) (past : Trail) : Prop where
  shut : ∀ later event earlier, past = later ++ event :: earlier →
    guards service userId event.call (mine event.who earlier) = true → ¬ Locked userId event.before
  exhausted : ∀ later event earlier, past = later ++ event :: earlier →
    compares service userId event.call (mine event.who earlier) = true →
      ∀ held, throttle userId event.before = some held → held.failed < MFA_MAX_ATTEMPTS
  lasting : ∀ event ∈ past, ∀ until_, lockUntil userId event.before = some until_ → lockUntil userId event.after = none →
    until_ ≤ event.before.base.now
  budget : wrongs service userId past ≤ MFA_MAX_ATTEMPTS

theorem lifts_guarded (does : Does service userId call memory s t) (held : lockUntil userId s = some until_)
    (lifted : lockUntil userId t = none) : guards service userId call memory = true := by
  obtain ⟨step,_,asked,_,_,throttled⟩ := does_asks does
  obtain ⟨now,before,lock⟩ := Option.bind_eq_some_iff.mp held
  rw [before] at throttled
  unfold lockUntil at lifted
  rw [throttled] at lifted
  split at lifted
  · cases step with
    | clear | expire => simp [guards,asked,Step.guarded]
    | lock => cases lifted
    | look | time | draw | rows | totp | mark | touch | count | switchOff | removeCodes | switchOn | storeSecret | dropCodes
    | storeCodes =>
      rw [Option.map_some] at lifted
      cases lock.symm.trans lifted
  · cases lock.symm.trans lifted

-- The lock is not raced or lifted, provided that it is not set between the read
-- of an attempt and what the attempt compares or resets, and that no code is
-- compared while another attempt owes the record of its failure.
theorem lock_holds {initial : World} {held : Throttle} (begins : throttle userId initial = some held)
    (ready : MFA_MAX_ATTEMPTS ≤ held.failed → ∃ until_, held.lockUntil = some until_ ∧ 0 < until_) {past : Trail}
    {c : Config CallId Attempt World Error Bool} (traced : Traced (attempt service userId) (Apart userId) initial past c)
    (orderly : Orderly service userId past) : Upheld service userId past := by
  have kept := traced_kept (acts_attempt service userId) (fun _ _ _ => trivial) traced
  have linked := traced_linked traced
  have faithful : Faithful past := traced_steadfast traced
  have sofar : ∀ {later : Trail} {event earlier}, past = later ++ event :: earlier →
      guards service userId event.call (mine event.who earlier) = true →
      ¬ Locked userId event.before ∧ (compares service userId event.call (mine event.who earlier) = true →
        ∀ held, throttle userId event.before = some held → held.failed < MFA_MAX_ATTEMPTS) := by
    rintro later event earlier rfl guarded
    obtain ⟨does,along⟩ := along_at kept.along
    have orderly' := orderly_at orderly
    have own : ∀ other ∈ earlier, other.who = event.who → other.call = event.call :=
      fun other listed same => faithful other (by simp [listed]) event (by simp) same
    obtain ⟨step,asked,admitted⟩ := (Option.any_eq_true _ _).mp guarded
    obtain ⟨unlocked,admits⟩ := guarded_open along (linked_at linked) does own asked admitted (orderly'.1 guarded)
    refine ⟨unlocked,?_⟩
    intro comparing now before
    have compares : step.compares = true := by simpa [Mfa.compares,asked] using comparing
    have faithful' : Faithful (event :: earlier) := by
      intro a one b two same
      exact faithful a (List.mem_append_right _ one) b (List.mem_append_right _ two) same
    obtain ⟨now',before',sound⟩ := sound_along along (linked_at linked)
      (fun a one b two => faithful' a (List.mem_cons_of_mem _ one) b (List.mem_cons_of_mem _ two)) orderly'.2.2 begins ready
    cases before.symm.trans before'
    exact room_left sound before does faithful' asked compares (orderly'.2.1 comparing) (admits compares)
  refine ⟨?_,?_,?_,?_⟩
  · intro later event earlier split guarded
    exact (sofar split guarded).1
  · intro later event earlier split comparing
    obtain ⟨step,asked,compared⟩ := (Option.any_eq_true _ _).mp comparing
    have guarded : guards service userId event.call (mine event.who earlier) = true := by
      unfold guards
      rw [asked]
      cases step <;> first | rfl | cases compared
    exact (sofar split guarded).2 comparing
  · intro event listed until_ locked lifted
    obtain ⟨later,earlier,split⟩ := List.append_of_mem listed
    have guarded := lifts_guarded (along_at (split ▸ kept.along)).1 locked lifted
    by_contra early
    exact (sofar split guarded).1 ⟨until_,locked,Nat.lt_of_not_le early⟩
  · obtain ⟨now,_,sound⟩ := sound_along kept.along linked faithful orderly begins ready
    exact sound.bounded

end
end

theorem lock_holds_serially : ∃ past c, Traced (attempt sampleMfa "user") (Apart "user") enrolled past c ∧
    c.Finished 0 (.verifyMfa "wrong") (.ok false) ∧ c.Finished 1 (.verifyMfa "tsecret") (.ok true) ∧
    Upheld sampleMfa "user" past := by
  have performed : (perform (attempt sampleMfa "user") [] (start enrolled) (List.flatten [
        [.start 0 (.verifyMfa "wrong")],List.replicate 6 (.act 0),[.start 1 (.verifyMfa "tsecret")],
        List.replicate 6 (.act 1)])).any (fun after =>
        after.2.finishedWith 0 (.verifyMfa "wrong") (.ok false) && after.2.finishedWith 1 (.verifyMfa "tsecret") (.ok true) &&
        decide (Orderly sampleMfa "user" after.1)) = true := by decide +kernel
  obtain ⟨past,c,traced,checked⟩ := perform_exists performed
  simp only [Bool.and_eq_true,decide_eq_true_eq] at checked
  obtain ⟨⟨first,second⟩,orderly⟩ := checked
  have begins : throttle "user" enrolled = some ⟨0,none⟩ := rfl
  refine ⟨past,c,traced,finishedWith_finished first,finishedWith_finished second,?_⟩
  exact lock_holds begins (fun many => absurd many (by decide)) traced orderly

-- A right code is compared before five wrong ones lock the user, and its success
-- lifts the lock at once.
theorem lock_lifted : ∃ past c, Traced (attempt sampleMfa "user") (Apart "user") enrolled past c ∧
    c.Finished 0 (.verifyMfa "tsecret") (.ok true) ∧ ∃ event ∈ past, ∃ until_, lockUntil "user" event.before = some until_ ∧
      lockUntil "user" event.after = none ∧ event.before.base.now < until_ := by
  have performed : (perform (attempt sampleMfa "user") [] (start enrolled) (List.flatten [
        [.start 0 (.verifyMfa "tsecret")],List.replicate 4 (.act 0),
        [1,2,3,4].flatMap (fun i => .start i (.verifyMfa "wrong") :: List.replicate 6 (.act i)),
        [.start 5 (.verifyMfa "wrong")],List.replicate 7 (.act 5),List.replicate 2 (.act 0)])).any (fun after =>
        after.2.finishedWith 0 (.verifyMfa "tsecret") (.ok true) &&
        after.1.any fun event => decide (lockUntil "user" event.before = some MFA_LOCK_MS ∧ lockUntil "user" event.after = none ∧
          event.before.base.now < MFA_LOCK_MS)) = true := by decide +kernel
  obtain ⟨past,c,traced,checked⟩ := perform_exists performed
  obtain ⟨done,lifted⟩ := Bool.and_eq_true_iff.mp checked
  obtain ⟨event,listed,found⟩ := List.any_eq_true.mp lifted
  exact ⟨past,c,traced,finishedWith_finished done,event,listed,_,of_decide_eq_true found⟩

end Pezhwan.Mfa
