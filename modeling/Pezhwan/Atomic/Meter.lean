import Pezhwan.Atomic.Trace

-- A shared counter that lapses, and what is let through in an interval that one of
-- its windows spans.
namespace Atomic

structure Meter where
  count : Nat
  ends : Option Nat
  deriving DecidableEq, Repr

namespace Meter
variable {length limit a b : Nat}

def live (now : Nat) (meter : Option Meter) : Option Meter := meter.filter fun meter => meter.ends.all (now < ·)

def current (now : Nat) (meter : Option Meter) : Nat := ((live now meter).map count).getD 0

-- The window begins with the first count; only its end may be moved, and not
-- closer than the length of a window.
inductive Step (length now : Nat) : Option Meter → Option Meter → Prop where
  | kept (meter : Option Meter) : Step length now meter meter
  | opened {ends : Option Nat} (lapsed : live now meter = none) (far : ∀ e, ends = some e → now + length ≤ e) :
      Step length now meter (some ⟨1,ends⟩)
  | counted (held : live now (some meter) = some meter) : Step length now (some meter) (some ⟨meter.count+1,meter.ends⟩)
  | renewed (held : live now (some meter) = some meter) (far : now + length ≤ e) :
      Step length now (some meter) (some ⟨meter.count,some e⟩)

structure Tick where
  time : Nat
  before : Option Meter
  after : Option Meter
  deriving DecidableEq, Repr

-- The steps of a counter, newest first, and its state at the present time.
inductive Metered (length : Nat) : List Tick → Option Meter → Nat → Prop where
  | start (meter : Option Meter) (now : Nat) : Metered length [] meter now
  | tick (past : Metered length ticks meter now) (step : Step length now meter next) :
      Metered length (⟨now,meter,next⟩ :: ticks) next now
  | wait (past : Metered length ticks meter now) (later : now ≤ time) : Metered length ticks meter time

-- A count that stays within the limit.
def Tick.grants (limit : Nat) (tick : Tick) : Bool :=
  current tick.time tick.before < current tick.time tick.after && current tick.time tick.after ≤ limit

def Tick.within (a b : Nat) (tick : Tick) : Bool := a ≤ tick.time && tick.time ≤ b

def countOf (meter : Option Meter) : Nat := (meter.map count).getD 0

theorem current_le (now : Nat) (meter : Option Meter) : current now meter ≤ countOf meter := by
  unfold current live countOf
  cases meter with
  | none => simp
  | some meter =>
    by_cases held : meter.ends.all (now < ·) = true
    · simp [Option.filter,held]
    · simp [Option.filter,held]

theorem current_held (held : live now (some meter) = some meter) : current now (some meter) = meter.count := by
  unfold current
  rw [held]
  rfl

theorem current_lapsed (lapsed : live now meter = none) : current now meter = 0 := by
  unfold current
  rw [lapsed]
  rfl

theorem current_opened {ends : Option Nat} (positive : 0 < length) (far : ∀ e, ends = some e → now + length ≤ e) :
    current now (some ⟨1,ends⟩) = 1 := by
  apply current_held
  cases ends with
  | none => rfl
  | some e =>
    have later := far e rfl
    simp only [live,Option.filter,Option.all_some,decide_eq_true_eq]
    rw [if_pos (by omega)]

-- A step of a window that is open: counts only go up, a granted one by one, and
-- the end stays or moves away.
structure Steady (length now : Nat) (meter next : Option Meter) : Prop where
  grows : countOf meter ≤ countOf next
  raised : current now meter < current now next → countOf meter < countOf next ∧ countOf next = current now next
  present : meter ≠ none → next ≠ none
  ends : ∀ m e, next = some m → m.ends = some e → now + length ≤ e ∨ ∃ old, meter = some old ∧ old.ends = some e
  rests : live now meter = none → next = meter

theorem step_cases (step : Step length now meter next) : Steady length now meter next ∨
    (live now meter = none ∧ ∃ ends, next = some ⟨1,ends⟩ ∧ ∀ e, ends = some e → now + length ≤ e) := by
  cases step with
  | kept =>
    left
    refine ⟨Nat.le_refl _,fun less => absurd less (Nat.lt_irrefl _),id,?_,fun _ => rfl⟩
    intro m e same ends
    exact .inr ⟨m,same,ends⟩
  | opened lapsed far => exact .inr ⟨lapsed,_,rfl,far⟩
  | @counted meter held =>
    left
    have same : live now (some ⟨meter.count+1,meter.ends⟩) = some ⟨meter.count+1,meter.ends⟩ := by
      unfold live at held ⊢
      rw [Option.filter_eq_some_iff] at held ⊢
      exact ⟨rfl,held.2⟩
    refine ⟨Nat.le_succ _,fun _ => ⟨Nat.lt_succ_self _,?_⟩,nofun,?_,fun lapsed => nomatch held.symm.trans lapsed⟩
    · rw [current_held same]
      rfl
    · rintro m e ⟨⟩ ends
      exact .inr ⟨meter,rfl,ends⟩
  | @renewed meter e held far =>
    left
    refine ⟨Nat.le_refl _,fun less => ?_,nofun,?_,fun lapsed => nomatch held.symm.trans lapsed⟩
    · have above := current_le now (some ⟨meter.count,some e⟩)
      rw [current_held held] at less
      exact absurd less (Nat.not_lt.mpr above)
    · rintro m e' ⟨⟩ ends
      rw [Option.some.injEq] at ends
      exact .inl (ends ▸ far)

-- What is let through at times of an interval.
def granted (limit a b : Nat) (ticks : List Tick) : Nat :=
  (ticks.filter fun tick => tick.within a b && tick.grants limit).length

theorem granted_cons (tick : Tick) (ticks : List Tick) : granted limit a b (tick :: ticks) =
    (if tick.within a b && tick.grants limit then 1 else 0) + granted limit a b ticks := by
  unfold granted
  rw [List.filter_cons]
  split
  · rw [List.length_cons,Nat.add_comm]
  · rw [Nat.zero_add]

theorem steady_adds (steady : Steady length now meter next) (limit : Nat) :
    (if (Tick.mk now meter next).grants limit then 1 else 0) + countOf meter ≤ countOf next ∧
      ((Tick.mk now meter next).grants limit = true → countOf next ≤ limit) := by
  by_cases grants : (Tick.mk now meter next).grants limit = true
  · obtain ⟨less,few⟩ : current now meter < current now next ∧ current now next ≤ limit := by
      simpa [Tick.grants] using grants
    obtain ⟨above,same⟩ := steady.raised less
    rw [if_pos grants]
    exact ⟨by omega,fun _ => by omega⟩
  · rw [if_neg grants]
    exact ⟨by simpa using steady.grows,fun yes => absurd yes grants⟩

-- Where an interval in which no window ends stands: nothing let through yet, in
-- its one window, or behind.
inductive Single (limit a b now grants : Nat) (meter : Option Meter) : Prop where
  | idle (none : grants = 0)
  | open (reached : a ≤ now) (few : grants ≤ limit) (counted : grants ≤ countOf meter)
      (held : ∀ m e, meter = some m → m.ends = some e → b < e) (present : meter ≠ none)
  | finished (few : grants ≤ limit) (past : b < now)

theorem single_few (single : Single limit a b now grants meter) : grants ≤ limit := by
  cases single with
  | idle none => omega
  | «open» _ few _ _ _ => exact few
  | finished few _ => exact few

def Lasts (a b : Nat) (tick : Tick) : Prop :=
  tick.within a b = true → ∀ m e, live tick.time tick.before = some m → m.ends = some e → b < e

theorem live_open (held : ∀ m e, meter = some m → m.ends = some e → now < e) (present : meter ≠ none) :
    live now meter = meter := by
  obtain ⟨m,rfl⟩ := Option.ne_none_iff_exists'.mp present
  refine Option.filter_eq_some_iff.mpr ⟨rfl,?_⟩
  cases known : m.ends with
  | none => rfl
  | some e => simpa using held m e rfl known

theorem single_tick (positive : 0 < length) (short : b < a + length) (step : Step length now meter next)
    (lasts : Lasts a b ⟨now,meter,next⟩) (single : Single limit a b now grants meter) : Single limit a b now
      ((if (Tick.mk now meter next).within a b && (Tick.mk now meter next).grants limit then 1 else 0) + grants) next := by
  by_cases inside : (Tick.mk now meter next).within a b = true
  · obtain ⟨reached,early⟩ : a ≤ now ∧ now ≤ b := by simpa [Tick.within] using inside
    have ends := lasts inside
    rw [inside,Bool.true_and]
    rcases step_cases step with steady | ⟨lapsed,e,rfl,far⟩
    · obtain ⟨adds,few'⟩ := steady_adds steady limit
      -- The window that is open at this tick stays open to the end of the interval.
      have opened : live now meter ≠ none → grants ≤ limit → grants ≤ countOf meter → Single limit a b now
          ((if (Tick.mk now meter next).grants limit then 1 else 0) + grants) next := by
        intro live_ few counted
        obtain ⟨m,known⟩ := Option.ne_none_iff_exists'.mp live_
        have same : meter = some m := (Option.filter_eq_some_iff.mp known).1
        refine .open reached ?_ (by omega) ?_ (steady.present (by simp [same]))
        · by_cases grants : (Tick.mk now meter next).grants limit = true
          · have bounded := few' grants
            rw [if_pos grants] at adds ⊢
            omega
          · rw [if_neg grants]
            omega
        · intro m' e held bounded
          rcases steady.ends m' e held bounded with far | ⟨old,old_,kept⟩
          · omega
          · rw [same] at old_
            obtain rfl := Option.some.inj old_
            exact ends m e known kept
      cases single with
      | idle none =>
        by_cases lapsed : live now meter = Option.none
        · have still : (Tick.mk now meter next).grants limit = false := by simp [Tick.grants,steady.rests lapsed]
          exact .idle (by simp [still,none])
        · exact opened lapsed (by omega) (by omega)
      | «open» _ few counted held present =>
        refine opened ?_ few counted
        rw [live_open (fun m e same bounded => Nat.lt_of_le_of_lt early (held m e same bounded)) present]
        exact present
      | finished _ behind => omega
    · have one := current_opened positive far
      cases single with
      | idle none =>
        refine .open reached ?_ ?_ ?_ nofun
        · by_cases grants : (Tick.mk now meter (some ⟨1,e⟩)).grants limit = true
          · have within : 1 ≤ limit := by
              simp only [Tick.grants,one,Bool.and_eq_true,decide_eq_true_eq] at grants
              exact grants.2
            rw [if_pos grants]
            omega
          · rw [if_neg grants]
            omega
        · change _ ≤ 1
          split <;> omega
        · rintro m e' ⟨⟩ bounded
          have later := far e' bounded
          omega
      | «open» _ _ _ held present =>
        rw [live_open (fun m e same bounded => Nat.lt_of_le_of_lt early (held m e same bounded)) present] at lapsed
        exact absurd lapsed present
      | finished _ behind => omega
  · rw [Bool.not_eq_true] at inside
    rw [inside,Bool.false_and,if_neg Bool.false_ne_true,Nat.zero_add]
    cases single with
    | idle none => exact .idle none
    | «open» reached few _ _ _ =>
      refine .finished few ?_
      simp only [Tick.within,Bool.and_eq_false_iff,decide_eq_false_iff_not] at inside
      omega
    | finished few past => exact .finished few past

theorem single_bound (positive : 0 < length) (short : b < a + length) (metered : Metered length ticks meter now)
    (lasts : ∀ tick ∈ ticks, Lasts a b tick) : granted limit a b ticks ≤ limit := by
  have single : Single limit a b now (granted limit a b ticks) meter := by
    induction metered with
    | start meter now => exact .idle rfl
    | wait _ later ih =>
      cases ih lasts with
      | idle none => exact .idle none
      | «open» reached few counted held present => exact .open (by omega) few counted held present
      | finished few past => exact .finished few (by omega)
    | tick _ step ih =>
      rw [granted_cons]
      exact single_tick positive short step (lasts _ List.mem_cons_self)
        (ih fun tick listed => lasts tick (List.mem_cons_of_mem _ listed))
  exact single_few single

section
variable {ι κ σ ε α : Type} [DecidableEq ι] {program : κ → Prog ι σ ε α} {other : σ → σ → Prop} {initial : σ}
  {view : σ → Option Meter} {time : σ → Nat}

def tickOf (view : σ → Option Meter) (time : σ → Nat) (event : Event ι κ σ) : Tick :=
  ⟨time event.before,view event.before,view event.after⟩

theorem traced_metered (traced : Config.Traced program other initial past c)
    (steps : ∀ event ∈ past, time event.after = time event.before ∧
      Step length (time event.before) (view event.before) (view event.after))
    (quiet : ∀ {s t}, other s t → view t = view s ∧ time s ≤ time t) :
    Metered length (past.map (tickOf view time)) (view c.state) (time c.state) := by
  induction traced with
  | initial => exact .start _ _
  | start _ _ _ _ ih => exact ih steps
  | @act past c call update next path i running ih =>
    obtain ⟨still,step⟩ := steps _ List.mem_cons_self
    have before := ih fun event listed => steps event (List.mem_cons_of_mem _ listed)
    change time (update i c.state) = time c.state at still
    rw [List.map_cons,still]
    exact .tick before step
  | other _ moved ih =>
    obtain ⟨same,later⟩ := quiet moved
    have before := ih steps
    change Metered length _ (view _) (time _)
    rw [same]
    exact .wait before later

end
end Meter
end Atomic
