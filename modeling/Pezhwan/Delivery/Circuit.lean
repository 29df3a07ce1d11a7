import Pezhwan.Delivery.Provider
import Pezhwan.Atomic.Machine
import Mathlib.Data.List.TakeWhile

namespace Pezhwan.Delivery
open Atomic

-- What is seen of a breaker from outside: sends that reach the provider,
-- deliveries that complete and the changes of its state.
inductive Happening where
  | reached
  | completed (ok : Bool)
  | moved (state : CircuitState) (time : ℤ)
  deriving DecidableEq, Repr

namespace Happening

def completion : Happening → Option Bool
  | .completed ok => some ok
  | _ => none

def move : Happening → Option (CircuitState × ℤ)
  | .moved state time => some (state,time)
  | _ => none

def isReached : Happening → Bool
  | .reached => true
  | _ => false

def isHalfOpening : Happening → Bool
  | .moved .halfOpen _ => true
  | _ => false

end Happening

-- One provider's breaker with the sends that have reached the provider and not
-- come back, the clock, and all that happened (newest first).
structure Circuit where
  breaker : Breaker := {}
  inflight : ℕ := 0
  now : ℤ := 0
  log : List Happening := []
  deriving DecidableEq, Repr

inductive CircuitEvent where
  | start
  | settle (ok : Bool)
  | clock (now : ℤ)
  deriving DecidableEq, Repr

namespace Circuit

-- `setState` does nothing for the state there is.
def moved (before after : Breaker) (time : ℤ) : List Happening :=
  if after.state = before.state then [] else [.moved after.state time]

def step (options : CircuitBreakerOptions) (c : Circuit) : CircuitEvent → Option Circuit
  | .start =>
    let (isOpen,entered) := c.breaker.isOpen options c.now
    if isOpen then some { c with breaker := entered }
    else some { c with
      breaker := entered
      inflight := c.inflight + 1
      log := .reached :: (moved c.breaker entered c.now ++ c.log) }
  | .settle ok =>
    let after := c.breaker.record options c.now ok
    if c.inflight = 0 then none
    else some { c with
      breaker := after
      inflight := c.inflight - 1
      log := moved c.breaker after c.now ++ .completed ok :: c.log }
  | .clock now => some { c with now }

def completions (log : List Happening) : List Bool := log.filterMap Happening.completion
def moves (log : List Happening) : List (CircuitState × ℤ) := log.filterMap Happening.move
def reached (log : List Happening) : ℕ := log.countP Happening.isReached
-- The deliveries completed since the breaker last became half-open.
def probes (log : List Happening) : List Bool := completions (log.takeWhile fun h => !h.isHalfOpening)

-- What a change of the breaker has to be justified by.
structure Justified (options : CircuitBreakerOptions) (before : Circuit) (after : Circuit) : Prop where
  trips : before.breaker.state = .closed → after.breaker.state = .opened →
    (completions after.log).take options.failureThreshold = List.replicate options.failureThreshold false
  cools : before.breaker.state = .opened → ∃ time, (moves before.log).head? = some (.opened,time) ∧
    (before.now - time < options.cooldownMs → after.breaker.state = .opened ∧ reached after.log = reached before.log)
  recovers : before.breaker.state ≠ .closed → after.breaker.state = .closed →
    options.successThreshold ≤ (probes after.log).length ∧ ∀ ok ∈ probes after.log, ok = true

-- A delivery succeeds only where the counters take a success in: half-open, or
-- closed after no failure.
def Careful (c : Circuit) (event : CircuitEvent) : Prop :=
  event = .settle true →
    c.breaker.state = .halfOpen ∨ (c.breaker.state = .closed ∧ c.breaker.consecutiveFailures = 0)

-- What the counters and the timestamp say about the history.
structure Counted (c : Circuit) : Prop where
  closed : c.breaker.state = .closed →
    (completions c.log).take c.breaker.consecutiveFailures = List.replicate c.breaker.consecutiveFailures false
  opened : c.breaker.state = .opened →
    c.breaker.consecutiveSuccesses = 0 ∧ (moves c.log).head? = some (.opened,c.breaker.openedAt)
  halfOpen : c.breaker.state = .halfOpen →
    c.breaker.consecutiveFailures = 0 ∧ probes c.log = List.replicate c.breaker.consecutiveSuccesses true

section
variable {log : List Happening} {time : ℤ} {ok : Bool}

@[simp] theorem completions_reached : completions (.reached :: log) = completions log := rfl
@[simp] theorem completions_completed : completions (.completed ok :: log) = ok :: completions log := rfl
@[simp] theorem completions_moved : completions (.moved state time :: log) = completions log := rfl
@[simp] theorem moves_reached : moves (.reached :: log) = moves log := rfl
@[simp] theorem moves_completed : moves (.completed ok :: log) = moves log := rfl
@[simp] theorem moves_moved : moves (.moved state time :: log) = (state,time) :: moves log := rfl
@[simp] theorem reached_reached : reached (.reached :: log) = reached log + 1 := List.countP_cons_of_pos rfl
@[simp] theorem reached_completed : reached (.completed ok :: log) = reached log := by simp [reached,Happening.isReached]
@[simp] theorem reached_moved : reached (.moved state time :: log) = reached log := by simp [reached,Happening.isReached]
@[simp] theorem probes_reached : probes (.reached :: log) = probes log := rfl
@[simp] theorem probes_completed : probes (.completed ok :: log) = ok :: probes log := rfl
@[simp] theorem probes_halfOpen : probes (.moved .halfOpen time :: log) = [] := rfl
@[simp] theorem probes_closed : probes (.moved .closed time :: log) = probes log := rfl

end

variable {options : CircuitBreakerOptions} {c d : Circuit}

theorem counted_initial : Counted {} where
  closed _ := rfl
  opened impossible := by cases impossible
  halfOpen impossible := by cases impossible

theorem settle_step (taken : step options c (.settle ok) = some d) :
    d = { c with
      breaker := c.breaker.record options c.now ok
      inflight := c.inflight - 1
      log := moved c.breaker (c.breaker.record options c.now ok) c.now ++ .completed ok :: c.log } := by
  unfold step at taken
  dsimp only at taken
  split at taken
  · cases taken
  · exact (Option.some.inj taken).symm

theorem start_cases (taken : step options c .start = some d) :
    (c.breaker.state ≠ .opened ∧ d = { c with inflight := c.inflight + 1, log := .reached :: c.log }) ∨
    (c.breaker.state = .opened ∧ options.cooldownMs ≤ c.now - c.breaker.openedAt ∧
      d = { c with
        breaker := { c.breaker with consecutiveFailures := 0, state := .halfOpen }
        inflight := c.inflight + 1
        log := .reached :: .moved .halfOpen c.now :: c.log }) ∨
    (c.breaker.state = .opened ∧ c.now - c.breaker.openedAt < options.cooldownMs ∧ d = c) := by
  unfold step Breaker.isOpen at taken
  cases state : c.breaker.state with
  | closed => simpa [state,moved] using taken.symm
  | halfOpen => simpa [state,moved] using taken.symm
  | opened =>
    by_cases cooled : options.cooldownMs ≤ c.now - c.breaker.openedAt
    · simp only [state,cooled,if_true,Bool.false_eq_true,if_false,Option.some.injEq] at taken
      exact .inr (.inl ⟨rfl,cooled,by simp [← taken,moved,state]⟩)
    · simp only [state,cooled,if_true,if_false,Option.some.injEq] at taken
      exact .inr (.inr ⟨rfl,by omega,taken.symm⟩)

theorem failure_cases (taken : step options c (.settle false) = some d) :
    (c.breaker.state = .halfOpen ∨ (c.breaker.state = .closed ∧
        options.failureThreshold ≤ c.breaker.consecutiveFailures + 1)) ∧
      d = { c with
        breaker := ⟨.opened,c.breaker.consecutiveFailures + 1,0,c.now⟩
        inflight := c.inflight - 1
        log := .moved .opened c.now :: .completed false :: c.log } ∨
    (c.breaker.state = .opened ∨ (c.breaker.state = .closed ∧
        c.breaker.consecutiveFailures + 1 < options.failureThreshold)) ∧
      d = { c with
        breaker := { c.breaker with consecutiveFailures := c.breaker.consecutiveFailures + 1, consecutiveSuccesses := 0 }
        inflight := c.inflight - 1
        log := .completed false :: c.log } := by
  rw [settle_step taken]
  unfold Breaker.record Breaker.recordFailure
  cases state : c.breaker.state with
  | opened => exact .inr ⟨.inl rfl,by simp [moved,state]⟩
  | halfOpen => exact .inl ⟨.inl rfl,by simp [moved,state]⟩
  | closed =>
    by_cases reached : options.failureThreshold ≤ c.breaker.consecutiveFailures + 1
    · exact .inl ⟨.inr ⟨rfl,reached⟩,by simp [moved,state,reached]⟩
    · exact .inr ⟨.inr ⟨rfl,by omega⟩,by simp [moved,state,reached]⟩

theorem success_cases (taken : step options c (.settle true) = some d) :
    (c.breaker.state = .closed ∨ (c.breaker.state = .halfOpen ∧
        c.breaker.consecutiveSuccesses + 1 < options.successThreshold)) ∧
      d = { c with
        breaker := { c.breaker with consecutiveSuccesses := c.breaker.consecutiveSuccesses + 1 }
        inflight := c.inflight - 1
        log := .completed true :: c.log } ∨
    (c.breaker.state = .halfOpen ∧ options.successThreshold ≤ c.breaker.consecutiveSuccesses + 1) ∧
      d = { c with
        breaker := ⟨.closed,0,c.breaker.consecutiveSuccesses + 1,c.breaker.openedAt⟩
        inflight := c.inflight - 1
        log := .moved .closed c.now :: .completed true :: c.log } ∨
    c.breaker.state = .opened ∧
      d = { c with
        breaker := { c.breaker with consecutiveSuccesses := c.breaker.consecutiveSuccesses + 1, state := .halfOpen }
        inflight := c.inflight - 1
        log := .moved .halfOpen c.now :: .completed true :: c.log } := by
  rw [settle_step taken]
  unfold Breaker.record Breaker.recordSuccess
  cases state : c.breaker.state with
  | closed => exact .inl ⟨.inl rfl,by simp [moved,state]⟩
  | opened => exact .inr (.inr ⟨rfl,by simp [moved,state]⟩)
  | halfOpen =>
    by_cases reached : options.successThreshold ≤ c.breaker.consecutiveSuccesses + 1
    · exact .inr (.inl ⟨⟨rfl,reached⟩,by simp [moved,state,reached]⟩)
    · exact .inl ⟨.inr ⟨rfl,by omega⟩,by simp [moved,state,reached]⟩

theorem trailing_le {results : List Bool} (trailing : results.take n = List.replicate n false) (fewer : m ≤ n) :
    results.take m = List.replicate m false := by
  rw [← Nat.min_eq_left fewer,← List.take_take,trailing,List.take_replicate]

theorem start_counted (counted : Counted c) (taken : step options c .start = some d) :
    Counted d ∧ Justified options c d := by
  obtain ⟨through,rfl⟩ | ⟨opened,cooled,rfl⟩ | ⟨opened,early,rfl⟩ := start_cases taken
  · refine ⟨⟨counted.closed,fun opened => absurd opened through,counted.halfOpen⟩,⟨?_,?_,?_⟩⟩
    · intro closed opened
      exact absurd opened through
    · intro opened
      exact absurd opened through
    · intro open_before closed
      exact absurd closed open_before
  · obtain ⟨fresh,since⟩ := counted.opened opened
    refine ⟨⟨by simp,by simp,?_⟩,⟨?_,?_,by simp⟩⟩
    · intro _
      simp [fresh]
    · intro closed _
      rw [opened] at closed
      cases closed
    · intro _
      exact ⟨_,since,fun early => by omega⟩
  · refine ⟨counted,⟨?_,?_,?_⟩⟩
    · intro closed _
      rw [opened] at closed
      cases closed
    · intro _
      exact ⟨_,(counted.opened opened).2,fun _ => ⟨opened,rfl⟩⟩
    · intro _ closed
      rw [opened] at closed
      cases closed

theorem failure_counted (counted : Counted c) (taken : step options c (.settle false) = some d) :
    Counted d ∧ Justified options c d := by
  obtain ⟨before,rfl⟩ | ⟨before,rfl⟩ := failure_cases taken
  · refine ⟨⟨by simp,by simp,by simp⟩,⟨?_,?_,by simp⟩⟩
    · intro closed _
      obtain half | ⟨_,reached⟩ := before
      · rw [half] at closed
        cases closed
      · refine trailing_le (n := c.breaker.consecutiveFailures + 1) ?_ reached
        simp [List.replicate_succ,counted.closed closed]
    · intro opened
      simp [opened] at before
  · refine ⟨⟨?_,?_,?_⟩,⟨?_,?_,?_⟩⟩
    · intro closed
      simp [List.replicate_succ,counted.closed closed]
    · intro opened
      exact ⟨rfl,(counted.opened opened).2⟩
    · intro half
      have half : c.breaker.state = .halfOpen := half
      simp [half] at before
    · intro closed opened
      have opened : c.breaker.state = .opened := opened
      rw [closed] at opened
      cases opened
    · intro opened
      exact ⟨_,(counted.opened opened).2,fun _ => ⟨opened,by simp⟩⟩
    · intro other closed
      exact absurd closed other

theorem success_counted (counted : Counted c) (careful : Careful c (.settle true))
    (taken : step options c (.settle true) = some d) : Counted d ∧ Justified options c d := by
  have careful := careful rfl
  obtain ⟨before,rfl⟩ | ⟨⟨half,reached⟩,rfl⟩ | ⟨opened,_⟩ := success_cases taken
  · refine ⟨⟨?_,?_,?_⟩,⟨?_,?_,?_⟩⟩
    · intro closed
      have closed : c.breaker.state = .closed := closed
      simp only [closed,reduceCtorEq,true_and,false_or] at careful
      simp [careful]
    · intro opened
      have opened : c.breaker.state = .opened := opened
      simp [opened] at before
    · intro half
      obtain ⟨none,probed⟩ := counted.halfOpen half
      exact ⟨none,by simp [probed,List.replicate_succ]⟩
    · intro closed opened
      have opened : c.breaker.state = .opened := opened
      rw [closed] at opened
      cases opened
    · intro opened
      simp [opened] at before
    · intro other closed
      exact absurd closed other
  · obtain ⟨_,probed⟩ := counted.halfOpen half
    refine ⟨⟨by simp,by simp,by simp⟩,⟨by simp,?_,?_⟩⟩
    · intro opened
      rw [half] at opened
      cases opened
    · intro _ _
      simp only [probes_closed,probes_completed,probed,List.length_cons,List.length_replicate]
      refine ⟨reached,?_⟩
      intro ok listed
      rcases List.mem_cons.mp listed with rfl | listed
      · rfl
      · exact List.eq_of_mem_replicate listed
  · simp [opened] at careful

theorem clock_counted (counted : Counted c) (taken : step options c (.clock time) = some d) :
    Counted d ∧ Justified options c d := by
  cases Option.some.inj taken
  refine ⟨⟨counted.closed,counted.opened,counted.halfOpen⟩,⟨?_,?_,?_⟩⟩
  · intro closed opened
    have opened : c.breaker.state = .opened := opened
    rw [closed] at opened
    cases opened
  · intro opened
    exact ⟨_,(counted.opened opened).2,fun _ => ⟨opened,rfl⟩⟩
  · intro other closed
    exact absurd closed other

theorem step_counted (counted : Counted c) (taken : step options c event = some d) (careful : Careful c event) :
    Counted d ∧ Justified options c d := by
  cases event with
  | start => exact start_counted counted taken
  | clock time => exact clock_counted counted taken
  | settle ok =>
    cases ok with
    | false => exact failure_counted counted taken
    | true => exact success_counted counted careful taken

-- In a run where deliveries succeed only in the half-open state or after no
-- failure in the closed one, every change of the breaker is justified.
theorem circuit_justified (options : CircuitBreakerOptions) (events : List CircuitEvent)
    (careful : Machine.Each (step options) (fun c event _ => Careful c event) {} events) :
    Machine.Each (step options) (fun c _ d => Justified options c d) {} events :=
  Machine.each_of counted_initial (fun _ _ _ counted taken careful => step_counted counted taken careful) careful

instance : Decidable (Careful c event) := inferInstanceAs (Decidable (_ → _))

def twoFailures : CircuitBreakerOptions := ⟨2,1,10⟩

def probed : List CircuitEvent := [.start,.settle false,.start,.settle false,.clock 10,.start,.settle true]
def relapse : List CircuitEvent := [.start,.settle false,.start,.settle true,.start]

theorem circuit_justified_probe :
    (Machine.run (step twoFailures) {} probed).map (·.log) = some [.moved .closed 10,.completed true,.reached,
      .moved .halfOpen 10,.moved .opened 0,.completed false,.reached,.completed false,.reached] ∧
    Machine.Each (step twoFailures) (fun c _ d => Justified twoFailures c d) {} probed :=
  ⟨by decide,circuit_justified twoFailures probed (by decide)⟩

theorem circuit_unjustified : ¬∀ (options : CircuitBreakerOptions) (events : List CircuitEvent),
    1 ≤ options.failureThreshold → 1 ≤ options.successThreshold →
    Machine.Each (step options) (fun c _ d => Justified options c d) {} events := by
  intro all
  have each := all twoFailures (relapse ++ .settle false :: []) (by decide) (by decide)
  exact absurd ((each.at rfl rfl).trips rfl rfl) (by decide)

end Circuit
end Pezhwan.Delivery
