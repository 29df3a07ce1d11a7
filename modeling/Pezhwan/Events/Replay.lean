import Pezhwan.Atomic.Dict
import Pezhwan.Events.Versions

-- Read models that are folded from a stream.
namespace Pezhwan.Events
open Atomic
variable {φ π : Type}

-- The version that was folded last, and the other fields.
structure ProjectionState (φ : Type) where
  version : Int
  fields : φ
  deriving DecidableEq

abbrev ProjectionHandler (φ π : Type) := ProjectionState φ → StoredEvent π → Option (ProjectionState φ)

structure Projector (φ π : Type) where
  handlers : Dict String (ProjectionHandler φ π)

namespace Projector

def when (projector : Projector φ π) (eventType : String) (handler : ProjectionHandler φ π) : Projector φ π :=
  ⟨projector.handlers.set eventType handler⟩

-- What the handler returns, if it returns a state; then the version moves on.
def fold (projector : Projector φ π) (current : ProjectionState φ) (event : StoredEvent π) : ProjectionState φ :=
  let handled := match projector.handlers.get? event.type with
    | some handler => (handler current event).getD current
    | none => current
  {handled with version := event.version}

def apply (projector : Projector φ π) (current : ProjectionState φ) : List (StoredEvent π) → ProjectionState φ
  | [] => current
  | event :: rest => if event.version ≤ current.version then apply projector current rest
    else apply projector (projector.fold current event) rest

def applied (version : Int) : List (StoredEvent π) → List (StoredEvent π)
  | [] => []
  | event :: rest => if event.version ≤ version then applied version rest else event :: applied event.version rest

variable {projector : Projector φ π} {current : ProjectionState φ}

theorem apply_applied (events : List (StoredEvent π)) :
    projector.apply current events = (applied current.version events).foldl projector.fold current := by
  induction events generalizing current with
  | nil => rfl
  | cons event rest ih =>
    unfold apply applied
    split
    · exact ih
    · exact ih

theorem applied_skipped {version : Int} {old : List (StoredEvent π)} (seen : ∀ event ∈ old, event.version ≤ version)
    (new : List (StoredEvent π)) : applied version (old ++ new) = applied version new := by
  induction old with
  | nil => rfl
  | cons event rest ih =>
    rw [List.cons_append,applied,if_pos (seen event List.mem_cons_self)]
    exact ih fun one listed => seen one (List.mem_cons_of_mem _ listed)

theorem applied_next {version : Int} {events : List (StoredEvent π)}
    (next : events.map (fun event => event.version) = serial version events.length) : applied version events = events := by
  induction events generalizing version with
  | nil => rfl
  | cons event rest ih =>
    rw [List.length_cons,serial_succ,List.map_cons,List.cons.injEq] at next
    obtain ⟨own,others⟩ := next
    rw [← own] at others
    rw [applied,if_neg (by omega),ih others]

theorem version_foldl {events : List (StoredEvent π)}
    (next : events.map (fun event => event.version) = serial current.version events.length) :
    (events.foldl projector.fold current).version = current.version + events.length := by
  induction events generalizing current with
  | nil => simp
  | cons event rest ih =>
    rw [List.length_cons,serial_succ,List.map_cons,List.cons.injEq] at next
    obtain ⟨own,others⟩ := next
    rw [← own] at others
    have counted := @ih (projector.fold current event) others
    rw [List.foldl_cons,counted,List.length_cons]
    change event.version + _ = _
    omega

end Projector

namespace ReplayService

-- What the backend is to return: the events above a version, in order.
def read (stream : List (StoredEvent π)) (afterVersion : Int) : List (StoredEvent π) :=
  stream.filter fun event => afterVersion < event.version

def replay (projector : Projector φ π) (stream : List (StoredEvent π)) (state : ProjectionState φ) : ProjectionState φ :=
  projector.apply state (read stream state.version)

-- `blank` stands for a state without other fields.
def replayFromZero (projector : Projector φ π) (blank : φ) (stream : List (StoredEvent π)) : ProjectionState φ :=
  replay projector stream ⟨0,blank⟩

end ReplayService
end Pezhwan.Events

-- Batches in any overlap give the state of a full replay.
namespace Pezhwan.Events
open Projector ReplayService
variable {φ π : Type} {projector : Projector φ π} {blank : φ} {stream : List (StoredEvent π)}

theorem serial_take (base : Int) {count total : Nat} (few : count ≤ total) : (serial base total).take count = serial base count := by
  obtain ⟨more,rfl⟩ := Nat.exists_eq_add_of_le few
  rw [serial_add]
  exact List.take_left' (by simp [serial])

theorem serial_drop (base : Int) {count total : Nat} (few : count ≤ total) :
    (serial base total).drop count = serial (base + count) (total - count) := by
  obtain ⟨more,rfl⟩ := Nat.exists_eq_add_of_le few
  rw [serial_add,Nat.add_sub_cancel_left]
  exact List.drop_left' (by simp [serial])

-- The versions of the stream are 1 to n, in order.
def Ordered (stream : List (StoredEvent π)) : Prop := stream.map (fun event => event.version) = serial 0 stream.length

theorem Ordered.take (ordered : Ordered stream) (count : Nat) : Ordered (stream.take count) := by
  unfold Ordered at ordered ⊢
  rw [List.map_take,ordered,List.length_take]
  by_cases few : count ≤ stream.length
  · rw [serial_take 0 few,Nat.min_eq_left few]
  · rw [Nat.min_eq_right (by omega)]
    exact List.take_of_length_le (by simp [serial]; omega)

theorem Ordered.drop (ordered : Ordered stream) {count : Nat} (few : count ≤ stream.length) :
    (stream.drop count).map (fun event => event.version) = serial count (stream.drop count).length := by
  rw [List.map_drop,ordered,serial_drop 0 few,List.length_drop,Int.zero_add]

theorem Ordered.bound (ordered : Ordered stream) (listed : event ∈ stream) : 0 < event.version ∧ event.version ≤ stream.length := by
  have member : event.version ∈ serial 0 stream.length := ordered ▸ List.mem_map_of_mem listed
  simp only [serial,List.mem_map,List.mem_range] at member
  obtain ⟨index,below,same⟩ := member
  omega

theorem read_drop (ordered : Ordered stream) {count : Nat} (few : count ≤ stream.length) :
    read stream count = stream.drop count := by
  have before : (stream.take count).filter (fun event => (count : Int) < event.version) = [] := by
    rw [List.filter_eq_nil_iff]
    intro event listed
    have bound := (ordered.take count).bound listed
    rw [List.length_take,Nat.min_eq_left few] at bound
    simp only [decide_eq_true_eq]
    omega
  have after : (stream.drop count).filter (fun event => (count : Int) < event.version) = stream.drop count := by
    rw [List.filter_eq_self]
    intro event listed
    have member : event.version ∈ serial count (stream.drop count).length := ordered.drop few ▸ List.mem_map_of_mem listed
    simp only [serial,List.mem_map,List.mem_range] at member
    obtain ⟨index,_,same⟩ := member
    simp only [decide_eq_true_eq]
    omega
  unfold ReplayService.read
  conv_lhs => rw [← List.take_append_drop count stream]
  rw [List.filter_append,before,after,List.nil_append]

theorem replayFromZero_foldl (ordered : Ordered stream) :
    replayFromZero projector blank stream = stream.foldl projector.fold ⟨0,blank⟩ := by
  have all : read stream 0 = stream := read_drop ordered (Nat.zero_le _)
  unfold replayFromZero replay
  dsimp only
  rw [all,apply_applied,applied_next ordered]

-- What has been folded so far, from any batches: slices that begin no later than
-- after the highest version, or replays of the stream as it was then. The events
-- that were folded are in order.
inductive Folded (projector : Projector φ π) (blank : φ) (stream : List (StoredEvent π)) :
    ProjectionState φ → List (StoredEvent π) → Nat → Prop where
  | start : Folded projector blank stream ⟨0,blank⟩ [] 0
  | slice {state : ProjectionState φ} {log : List (StoredEvent π)} {seen : Nat} (past : Folded projector blank stream state log seen)
      (start count : Nat) (early : start ≤ seen) (within : start + count ≤ stream.length) :
      Folded projector blank stream (projector.apply state ((stream.drop start).take count))
        (log ++ applied state.version ((stream.drop start).take count)) (max seen (start + count))
  | replay {state : ProjectionState φ} {log : List (StoredEvent π)} {seen : Nat} (past : Folded projector blank stream state log seen)
      (length : Nat) (grown : seen ≤ length) (within : length ≤ stream.length) :
      Folded projector blank stream (replay projector (stream.take length) state)
        (log ++ applied state.version (read (stream.take length) state.version)) length

-- The state after the first `seen` events.
structure Upto (projector : Projector φ π) (blank : φ) (stream : List (StoredEvent π)) (state : ProjectionState φ)
    (log : List (StoredEvent π)) (seen : Nat) : Prop where
  within : seen ≤ stream.length
  folded : state = (stream.take seen).foldl projector.fold ⟨0,blank⟩
  once : log = stream.take seen

theorem Upto.version (ordered : Ordered stream) (upto : Upto projector blank stream state log seen) : state.version = seen := by
  have counted := @version_foldl φ π projector ⟨0,blank⟩ (stream.take seen) (ordered.take seen)
  rw [upto.folded,counted,List.length_take,Nat.min_eq_left upto.within,Int.zero_add]

theorem Upto.extend (upto : Upto projector blank stream state log seen) {length : Nat} (grown : seen ≤ length)
    (within : length ≤ stream.length) :
    Upto projector blank stream (((stream.take length).drop seen).foldl projector.fold state)
      (log ++ (stream.take length).drop seen) length := by
  have whole : stream.take seen ++ (stream.take length).drop seen = stream.take length := by
    have prefix_ : (stream.take length).take seen = stream.take seen := by rw [List.take_take,Nat.min_eq_left grown]
    rw [← prefix_]
    exact List.take_append_drop seen _
  refine ⟨within,?_,?_⟩
  · rw [upto.folded,← List.foldl_append,whole]
  · rw [upto.once,whole]

theorem Ordered.after (ordered : Ordered stream) {seen length : Nat} (grown : seen ≤ length) (within : length ≤ stream.length) :
    ((stream.take length).drop seen).map (fun event => event.version) = serial seen ((stream.take length).drop seen).length := by
  apply (ordered.take length).drop
  rw [List.length_take,Nat.min_eq_left within]
  exact grown

theorem applied_slice (ordered : Ordered stream) {start count seen : Nat} (early : start ≤ seen) (known : seen ≤ stream.length)
    (within : start + count ≤ stream.length) :
    applied (seen : Int) ((stream.drop start).take count) = (stream.take (max seen (start + count))).drop seen := by
  have cut : (stream.drop start).take count = (stream.take (start + count)).drop start := by
    rw [List.drop_take,Nat.add_sub_cancel_left]
  rw [cut]
  have old : ∀ event ∈ (stream.take seen).drop start, event.version ≤ (seen : Int) := by
    intro event listed
    have bound := (ordered.take seen).bound (List.mem_of_mem_drop listed)
    rw [List.length_take,Nat.min_eq_left known] at bound
    exact bound.2
  by_cases further : seen ≤ start + count
  · have split : (stream.take (start + count)).drop start =
        (stream.take seen).drop start ++ (stream.take (start + count)).drop seen := by
      have cut : (stream.take (start + count)).take seen = stream.take seen := by rw [List.take_take,Nat.min_eq_left further]
      conv_lhs => rw [← List.take_append_drop seen (stream.take (start + count)),cut]
      apply List.drop_append_of_le_length
      rw [List.length_take,Nat.min_eq_left known]
      exact early
    rw [split,applied_skipped old,Nat.max_eq_right further,applied_next (ordered.after further within)]
  · have repeated : ∀ event ∈ (stream.take (start + count)).drop start, event.version ≤ (seen : Int) := by
      intro event listed
      have bound := (ordered.take (start + count)).bound (List.mem_of_mem_drop listed)
      rw [List.length_take,Nat.min_eq_left within] at bound
      omega
    have none : applied (seen : Int) ((stream.take (start + count)).drop start) = [] := by
      have skipped := applied_skipped repeated []
      rwa [List.append_nil] at skipped
    rw [none,Nat.max_eq_left (by omega)]
    exact (List.drop_of_length_le (by rw [List.length_take]; exact Nat.min_le_left _ _)).symm

theorem folded_upto (ordered : Ordered stream) (folded : Folded projector blank stream state log seen) :
    Upto projector blank stream state log seen := by
  induction folded with
  | start => exact ⟨Nat.zero_le _,rfl,rfl⟩
  | slice _ start count early within ih =>
    rw [apply_applied,ih.version ordered,applied_slice ordered early ih.within within]
    exact ih.extend (Nat.le_max_left _ _) (Nat.max_le.mpr ⟨ih.within,within⟩)
  | @replay state log seen _ length grown within ih =>
    have next : read (stream.take length) state.version = (stream.take length).drop seen := by
      rw [ih.version ordered]
      apply read_drop (ordered.take length)
      rw [List.length_take,Nat.min_eq_left within]
      exact grown
    unfold replay
    rw [next,apply_applied,ih.version ordered,applied_next (ordered.after grown within)]
    exact ih.extend grown within

theorem incremental_replay (ordered : Ordered stream) (folded : Folded projector blank stream state log seen) :
    state = replayFromZero projector blank (stream.take seen) ∧ log = stream.take seen ∧ log.Nodup := by
  have upto := folded_upto ordered folded
  refine ⟨?_,upto.once,?_⟩
  · rw [replayFromZero_foldl (ordered.take seen)]
    exact upto.folded
  · have distinct : (serial 0 (stream.take seen).length).Nodup := by
      apply List.nodup_range.map
      intro one two same
      dsimp only at same
      omega
    rw [upto.once]
    exact (ordered.take seen ▸ distinct).of_map

-- Accounts that count what they are told, and forget other events.
def counting : Projector Nat Unit :=
  (Projector.mk .empty).when "opened" fun state _ => some {state with fields := state.fields + 1}

def threeEvents : List (StoredEvent Unit) :=
  [⟨⟨1,"opened",(),none,0⟩,"account"⟩,⟨⟨2,"closed",(),none,0⟩,"account"⟩,⟨⟨3,"opened",(),none,0⟩,"account"⟩]

theorem overlapping_batches : ∃ state log, Folded counting 0 threeEvents state log 3 ∧
    state = replayFromZero counting 0 threeEvents ∧ state = ⟨3,2⟩ := by
  have begun : Folded counting 0 threeEvents ⟨0,0⟩ [] 0 := .start
  have folded := (((begun.slice 0 2 (by decide) (by decide)).slice 1 1 (by decide) (by decide)).slice 0 2
    (by decide) (by decide)).replay 3 (by decide) (by decide)
  have ordered : Ordered threeEvents := by
    unfold Ordered
    decide
  exact ⟨_,_,folded,(incremental_replay ordered folded).1,by decide +kernel⟩

end Pezhwan.Events
