import Mathlib.Data.Rat.Lemmas
import Mathlib.Algebra.Order.Ring.Rat
import Mathlib.Tactic.Linarith
import Pezhwan.Atomic.Dict
import Pezhwan.Atomic.Machine
import Pezhwan.Atomic.Effect

namespace Pezhwan.Regions
open Atomic

structure RegionEvent where
  id : Option String := none
  type : String
  issuedAt : Option ℚ := none
  ttlSeconds : Option ℚ := none
  deriving DecidableEq, Repr

-- Handlers are named; a handler's failure is logged and the next one runs.
structure RegionManager where
  dedupeWindowMs : ℚ := 60000
  seenEvents : Dict String ℚ := .empty
  handlers : List ℕ := []

structure Call where
  handler : ℕ
  event : RegionEvent
  failed : Bool
  deriving DecidableEq, Repr

namespace RegionManager

def subscribe (handler : ℕ) (m : RegionManager) : RegionManager :=
  if handler ∈ m.handlers then m else { m with handlers := m.handlers ++ [handler] }

def unsubscribe (handler : ℕ) (m : RegionManager) : RegionManager :=
  { m with handlers := m.handlers.filter (· ≠ handler) }

def pruneSeen (now : ℚ) (m : RegionManager) : RegionManager :=
  { m with seenEvents := m.seenEvents.filter fun _ expiresAt => !decide (expiresAt < now) }

def ttlMs (m : RegionManager) (event : RegionEvent) : ℚ :=
  match event.ttlSeconds with
  | some ttlSeconds => ttlSeconds * 1000
  | none => m.dedupeWindowMs

def expiresAt (m : RegionManager) (now : ℚ) (event : RegionEvent) : ℚ :=
  max now (event.issuedAt.getD now + m.ttlMs event)

-- `randomUUID` is what an event without an id goes by.
def isNewEvent (now : ℚ) (randomUUID : String) (event : RegionEvent) (m : RegionManager) : Bool × RegionManager :=
  let id := event.id.getD randomUUID
  let m := m.pruneSeen now
  if (m.seenEvents.get? id).any (now ≤ ·) then (false,m)
  else (true,{ m with seenEvents := m.seenEvents.set id (m.expiresAt now event) })

-- The handlers that run, in their order, or none for an event that is dropped.
def processIncoming (now : ℚ) (randomUUID : String) (fails : ℕ → Bool) (event : RegionEvent) (m : RegionManager) :
    Option (List Call) × RegionManager :=
  let (isNew,m) := m.isNewEvent now randomUUID event
  if isNew then (some (m.handlers.map fun handler => ⟨handler,event,fails handler⟩),m) else (none,m)

-- An entry of `id` that still counts at `time`.
def Seen (m : RegionManager) (id : String) (time : ℚ) : Prop := ∃ expiry, m.seenEvents.get? id = some expiry ∧ time ≤ expiry

variable {m : RegionManager} {now time : ℚ} {id randomUUID : String} {event : RegionEvent}

theorem pruneSeen_seen (later : now ≤ time) : (m.pruneSeen now).Seen id time ↔ m.Seen id time := by
  simp only [Seen,pruneSeen,Dict.get?_filter,Option.filter_eq_some_iff]
  constructor
  · intro both
    obtain ⟨expiry,⟨found,_⟩,live⟩ := both
    exact ⟨expiry,found,live⟩
  · intro both
    obtain ⟨expiry,found,live⟩ := both
    exact ⟨expiry,⟨found,by simpa using later.trans live⟩,live⟩

theorem subscribe_seen : (m.subscribe handler).Seen id time ↔ m.Seen id time := by
  unfold subscribe
  split <;> rfl

theorem isNewEvent_seen (found : m.Seen (event.id.getD randomUUID) now) :
    m.isNewEvent now randomUUID event = (false,m.pruneSeen now) := by
  obtain ⟨expiry,held,live⟩ := (pruneSeen_seen le_rfl).mpr found
  simp [isNewEvent,held,live]

theorem isNewEvent_unseen (missing : ¬m.Seen (event.id.getD randomUUID) now) :
    m.isNewEvent now randomUUID event = (true,{ m.pruneSeen now with
      seenEvents := (m.pruneSeen now).seenEvents.set (event.id.getD randomUUID) (m.expiresAt now event) }) := by
  unfold isNewEvent
  dsimp only
  rw [if_neg]
  · rfl
  · intro held
    obtain ⟨expiry,found,live⟩ := (Option.any_eq_true _ _).mp held
    exact missing ((pruneSeen_seen le_rfl).mp ⟨expiry,found,of_decide_eq_true live⟩)

theorem processIncoming_seen (found : m.Seen (event.id.getD randomUUID) now) :
    m.processIncoming now randomUUID fails event = (none,m.pruneSeen now) := by
  unfold processIncoming
  rw [isNewEvent_seen found]
  rfl

theorem processIncoming_unseen (missing : ¬m.Seen (event.id.getD randomUUID) now) :
    m.processIncoming now randomUUID fails event =
      (some (m.handlers.map fun handler => ⟨handler,event,fails handler⟩),{ m.pruneSeen now with
        seenEvents := (m.pruneSeen now).seenEvents.set (event.id.getD randomUUID) (m.expiresAt now event) }) := by
  unfold processIncoming
  rw [isNewEvent_unseen missing]
  rfl

end RegionManager

structure Delivered where
  id : String
  arrivedAt : ℚ
  issuedAt : Option ℚ
  window : ℚ
  ran : Option (List Call)
  deriving DecidableEq, Repr

namespace Delivered

def handled (d : Delivered) : Bool := d.ran.isSome
-- The end its entry gets.
def expiresAt (d : Delivered) : ℚ := max d.arrivedAt (d.issuedAt.getD d.arrivedAt + d.window)

end Delivered

-- A started manager, its clock and what it was delivered (newest first).
structure Regional where
  manager : RegionManager
  now : ℚ := 0
  log : List Delivered := []

inductive RegionStep where
  | deliver (event : RegionEvent) (randomUUID : String) (fails : ℕ → Bool)
  | subscribe (handler : ℕ)
  | unsubscribe (handler : ℕ)
  | wait (ms : ℕ)

namespace Regional

def deliver (s : Regional) (event : RegionEvent) (randomUUID : String) (fails : ℕ → Bool) : Regional :=
  let (ran,manager) := s.manager.processIncoming s.now randomUUID fails event
  { s with
    manager
    log := ⟨event.id.getD randomUUID,s.now,event.issuedAt,s.manager.ttlMs event,ran⟩ :: s.log }

def step (s : Regional) : RegionStep → Option Regional
  | .deliver event randomUUID fails => some (s.deliver event randomUUID fails)
  | .subscribe handler => some { s with manager := s.manager.subscribe handler }
  | .unsubscribe handler => some { s with manager := s.manager.unsubscribe handler }
  | .wait ms => some { s with now := s.now + ms }

end Regional

variable {log : List Delivered} {id : String} {s : Regional} {now time : ℚ} {d : Delivered}

-- The last delivery of an id that opened a window: one that came when the window
-- opened before it was over.
def opening : List Delivered → String → Option Delivered
  | [],_ => none
  | d :: older,id =>
    if d.id = id ∧ (opening older id).all (·.expiresAt < d.arrivedAt) = true then some d else opening older id

-- The same event again, less than its window after an earlier delivery of it.
def Again (newer older : Delivered) : Prop :=
  newer.id = older.id ∧ newer.arrivedAt - older.arrivedAt < older.window

def HandledOnce (log : List Delivered) : Prop := log.Pairwise fun newer older => Again newer older → newer.handled = false

-- What comes again comes before the end of the window opened last.
def InTime : List Delivered → Prop
  | [] => True
  | d :: older => ((∃ first ∈ older, Again d first) → ∃ opener ∈ opening older d.id, d.arrivedAt ≤ opener.expiresAt) ∧ InTime older

-- The handlers were left out for what came while a window was open.
def Told : List Delivered → Prop
  | [] => True
  | d :: older => (d.handled = false ↔ ∃ opener ∈ opening older d.id, d.arrivedAt ≤ opener.expiresAt) ∧ Told older

theorem told_iff (told : Told log) : HandledOnce log ↔ InTime log := by
  induction log with
  | nil => simp [HandledOnce,InTime]
  | cons d older ih =>
    obtain ⟨first,rest⟩ := told
    have same := ih rest
    unfold HandledOnce at same ⊢
    rw [List.pairwise_cons,InTime,same,← first]
    constructor
    · intro both
      obtain ⟨dropped,timely⟩ := both
      refine ⟨?_,timely⟩
      intro again
      obtain ⟨first,listed,soon⟩ := again
      exact dropped first listed soon
    · intro both
      obtain ⟨dropped,timely⟩ := both
      exact ⟨fun first listed soon => dropped ⟨first,listed,soon⟩,timely⟩

-- What the seen entries say about the deliveries.
structure Recorded (s : Regional) : Prop where
  told : Told s.log
  seen : ∀ id time, s.now ≤ time → (s.manager.Seen id time ↔ ∃ opener ∈ opening s.log id, time ≤ opener.expiresAt)

theorem recorded_initial (handlers : List ℕ) (window : ℚ) :
    Recorded { manager := { dedupeWindowMs := window, handlers } } where
  told := trivial
  seen id time _ := by simp [RegionManager.Seen,opening]

variable {event : RegionEvent} {randomUUID : String} {fails : ℕ → Bool}

def Regional.delivered (s : Regional) (event : RegionEvent) (randomUUID : String) (fails : ℕ → Bool) : Delivered :=
  ⟨event.id.getD randomUUID,s.now,event.issuedAt,s.manager.ttlMs event,
    (s.manager.processIncoming s.now randomUUID fails event).1⟩

theorem deliver_log : (s.deliver event randomUUID fails).log = s.delivered event randomUUID fails :: s.log := rfl

theorem delivered_handled (s : Regional) (event : RegionEvent) (randomUUID : String) (fails : ℕ → Bool) :
    (s.delivered event randomUUID fails).handled = false ↔
    s.manager.Seen (event.id.getD randomUUID) s.now := by
  unfold Regional.delivered Delivered.handled
  constructor
  · intro dropped
    by_contra missing
    rw [RegionManager.processIncoming_unseen missing] at dropped
    cases dropped
  · intro found
    rw [RegionManager.processIncoming_seen found]
    rfl

theorem recorded_deliver (recorded : Recorded s) : Recorded (s.deliver event randomUUID fails) where
  told := ⟨(delivered_handled s event randomUUID fails).trans (recorded.seen _ _ le_rfl),recorded.told⟩
  seen := by
    intro id time later
    have later : s.now ≤ time := later
    have open_ := recorded.seen (event.id.getD randomUUID) s.now le_rfl
    rw [deliver_log,opening]
    by_cases found : s.manager.Seen (event.id.getD randomUUID) s.now
    · have left : (s.deliver event randomUUID fails).manager = s.manager.pruneSeen s.now := by
        unfold Regional.deliver
        rw [RegionManager.processIncoming_seen found]
      rw [left,RegionManager.pruneSeen_seen later,recorded.seen id time later,if_neg]
      intro both
      obtain ⟨same,ended⟩ := both
      obtain ⟨opener,opened,covers⟩ := open_.mp found
      change event.id.getD randomUUID = id at same
      rw [← same,Option.mem_def.mp opened] at ended
      exact absurd (of_decide_eq_true ended) (not_lt.mpr covers)
    · have left : (s.deliver event randomUUID fails).manager = { s.manager.pruneSeen s.now with
          seenEvents := (s.manager.pruneSeen s.now).seenEvents.set (event.id.getD randomUUID)
            (s.manager.expiresAt s.now event) } := by
        unfold Regional.deliver
        rw [RegionManager.processIncoming_unseen found]
      rw [left]
      by_cases same : event.id.getD randomUUID = id
      · rw [if_pos]
        · simp only [RegionManager.Seen,same,Dict.get?_set_self,Option.some.injEq,exists_eq_left',Option.mem_def]
          rfl
        · refine ⟨same,?_⟩
          rw [← same,Option.all_eq_true]
          intro opener opened
          exact decide_eq_true (not_le.mp fun covers => found (open_.mpr ⟨opener,opened,covers⟩))
      · rw [if_neg (fun both => same both.1),← recorded.seen id time later]
        have pruned : (s.manager.pruneSeen s.now).Seen id time ↔ _ := RegionManager.pruneSeen_seen later
        rw [← pruned]
        simp only [RegionManager.Seen]
        rw [Dict.get?_set_ne _ _ fun equal => same equal.symm]

theorem recorded_step (recorded : Recorded s) (taken : s.step action = some t) : Recorded t := by
  cases action with
  | deliver event randomUUID fails =>
    cases taken
    exact recorded_deliver recorded
  | subscribe handler =>
    cases taken
    refine ⟨recorded.told,?_⟩
    intro id time later
    rw [RegionManager.subscribe_seen]
    exact recorded.seen id time later
  | unsubscribe handler =>
    cases taken
    exact ⟨recorded.told,recorded.seen⟩
  | wait ms =>
    cases taken
    have longer : s.now ≤ s.now + ms := by simp
    exact ⟨recorded.told,fun id time later => recorded.seen id time (longer.trans later)⟩

def started (handlers : List ℕ) (window : ℚ) : Regional := { manager := { dedupeWindowMs := window, handlers } }

theorem recorded_run (ran : Machine.run Regional.step (started handlers window) actions = some s) : Recorded s :=
  Machine.invariant (recorded_initial handlers window) (fun _ _ _ recorded taken => recorded_step recorded taken) ran

-- Over every run of a started manager the handlers run for the first delivery only
-- exactly when what comes again comes before the end of the window opened last.
theorem handled_once_iff (handlers : List ℕ) (window : ℚ) (actions : List RegionStep) (s : Regional)
    (ran : Machine.run Regional.step (started handlers window) actions = some s) :
    HandledOnce s.log ↔ InTime s.log := told_iff (recorded_run ran).told

def sessionRevoked : RegionEvent := { id := some "e", type := "SESSION_REVOKED", issuedAt := some 0 }
def never : ℕ → Bool := fun _ => false

-- Delivered at once and again 40 s later.
def promptAgain : List RegionStep :=
  [.deliver sessionRevoked "u" never,.wait 40000,.deliver sessionRevoked "v" never]

theorem handled_once_prompt_again : ∃ s, Machine.run Regional.step (started [1] 60000) promptAgain = some s ∧
    (s.log.map Delivered.handled = [false,true]) ∧ (HandledOnce s.log ↔ InTime s.log) :=
  ⟨_,rfl,by decide +kernel,handled_once_iff [1] 60000 promptAgain _ rfl⟩

-- And once more: the dropped delivery has opened no window of its own.
def thirdTime : List RegionStep := promptAgain ++ [.wait 40000,.deliver sessionRevoked "w" never]

instance : Decidable (Again newer older) := inferInstanceAs (Decidable (_ ∧ _))
instance : Decidable (HandledOnce log) := inferInstanceAs (Decidable (List.Pairwise _ _))

theorem handled_twice : ¬∀ (handlers : List ℕ) (window : ℚ) (actions : List RegionStep) (s : Regional),
    Machine.run Regional.step (started handlers window) actions = some s → HandledOnce s.log := by
  intro all
  exact absurd (all [1] 60000 thirdTime _ rfl) (by decide +kernel)

end Pezhwan.Regions
