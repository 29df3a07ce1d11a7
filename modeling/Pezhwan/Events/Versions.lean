import Pezhwan.Atomic.Trace

-- Event streams in one log.
namespace Pezhwan.Events
open Atomic Prog Config
variable {ι π : Type}

-- An event as the caller gives it. Its version is not read.
structure NewEvent (π : Type) where
  version : Int
  type : String
  payload : π
  metadata : Option π
  occurredAt : Int
  deriving DecidableEq

structure StoredEvent (π : Type) extends NewEvent π where
  streamId : String
  deriving DecidableEq

abbrev Log (π : Type) := List (StoredEvent π)

namespace EventStoreBackend

def read (streamId : String) (log : Log π) : List (StoredEvent π) := log.filter fun event => event.streamId = streamId

-- The events of a batch are of one stream.
def append (events : List (StoredEvent π)) (expectedVersion : Option Int) (log : Log π) : Except String (Unit × Log π) :=
  match events.head?,expectedVersion with
  | some first,some expected =>
    if expected = (read first.streamId log).length then .ok ((),log ++ events) else .error "version conflict"
  | _,_ => .ok ((),log ++ events)

end EventStoreBackend

namespace EventStore
open EventStoreBackend

def numbered (streamId : String) (base : Int) (events : List (NewEvent π)) : List (StoredEvent π) :=
  events.mapIdx fun index event => {event with streamId,version := base + index + 1}

def append (streamId : String) (events : List (NewEvent π)) (expectedVersion : Option Int) : Prog ι (Log π) String Unit := do
  let base ← match expectedVersion with
    | some expected => pure expected
    | none => atomic fun _ log => (((read streamId log).length : Int),log)
  tryAtomic fun _ log => EventStoreBackend.append (numbered streamId base events) expectedVersion log

end EventStore

structure Append (π : Type) where
  streamId : String
  events : List (NewEvent π)
  expectedVersion : Option Int
  deriving DecidableEq

def program (call : Append π) : Prog ι (Log π) String Unit := EventStore.append call.streamId call.events call.expectedVersion

namespace Append
open EventStoreBackend EventStore

-- What an append does: with a version given, one checked write; without, a read
-- and then a write from the version that was read.
def Does (call : Append π) (memory : List (Log π × Log π)) (s t : Log π) : Prop :=
  match call.expectedVersion,memory with
  | some expected,_ => t = s ∨ expected = (read call.streamId s).length ∧ t = s ++ numbered call.streamId expected call.events
  | none,[] => t = s
  | none,found :: _ => t = s ++ numbered call.streamId (read call.streamId found.1).length call.events

-- An append that is rejected has changed nothing.
def Ends (result : Except String Unit) (memory : List (Log π × Log π)) : Prop :=
  ∀ e, result = .error e → ∀ move ∈ memory, move.2 = move.1

theorem ends_ok (memory : List (Log π × Log π)) : Ends (.ok ()) memory := by
  intro e failed
  cases failed

theorem head_numbered (streamId : String) (base : Int) (events : List (NewEvent π)) (first : StoredEvent π)
    (head : (numbered streamId base events).head? = some first) : first.streamId = streamId := by
  cases events with
  | nil => cases head
  | cons event events =>
    simp only [numbered,List.mapIdx_cons,List.head?_cons,Option.some.injEq] at head
    rw [← head]

theorem append_checked {expected : Int} {log : Log π} (streamId : String) (events : List (NewEvent π)) :
    (∃ e, EventStoreBackend.append (numbered streamId expected events) (some expected) log = .error e) ∨
    EventStoreBackend.append (numbered streamId expected events) (some expected) log =
      .ok ((),log ++ numbered streamId expected events) ∧ (events ≠ [] → expected = (read streamId log).length) := by
  unfold EventStoreBackend.append
  cases found : (numbered streamId expected events).head? with
  | none =>
    right
    refine ⟨rfl,?_⟩
    intro some
    cases events with
    | nil => exact absurd rfl some
    | cons event events => simp [numbered] at found
  | some first =>
    have named := head_numbered _ _ _ first found
    dsimp only
    rw [named]
    by_cases same : expected = (read streamId log).length
    · rw [if_pos same]
      exact .inr ⟨rfl,fun _ => same⟩
    · rw [if_neg same]
      exact .inl ⟨_,rfl⟩

theorem acts_program (i : ι) (call : Append π) :
    (program call).Acts (fun _ => True) i call.Does [] Ends := by
  obtain ⟨streamId,events,expectedVersion⟩ := call
  cases expectedVersion with
  | some expected =>
    apply Acts.tryAtomic
    · intro s _ value t ran
      refine ⟨?_,ends_ok _⟩
      rcases @append_checked _ expected s streamId events with ⟨e,refused⟩ | ⟨written,known⟩
      · cases refused.symm.trans ran
      · cases written.symm.trans ran
        by_cases empty : events = []
        · left
          simp [empty,numbered]
        · exact .inr ⟨known empty,rfl⟩
    · intro s _ e ran
      refine ⟨.inl rfl,?_⟩
      intro _ _ move listed
      rw [List.mem_singleton.mp listed]
  | none =>
    apply Acts.bind
    apply Acts.atomic
    intro s _
    refine ⟨rfl,?_⟩
    apply Acts.tryAtomic
    · intro t _ value u ran
      refine ⟨?_,ends_ok _⟩
      unfold EventStoreBackend.append at ran
      split at ran
      · rename_i same
        cases same
      · cases ran
        rfl
    · intro t _ e ran
      unfold EventStoreBackend.append at ran
      split at ran
      · rename_i same
        cases same
      · cases ran

end Append

-- The versions of a stream under appends that overlap.
open EventStoreBackend EventStore

def versions (streamId : String) (log : Log π) : List Int := (read streamId log).map fun event => event.version

-- The next `count` versions after `base`.
def serial (base : Int) (count : Nat) : List Int := (List.range count).map fun index : Nat => base + index + 1

-- The versions are 1 to n.
def Intact (streamId : String) (log : Log π) : Prop := versions streamId log = serial 0 (read streamId log).length

theorem versions_numbered (streamId : String) (base : Int) (events : List (NewEvent π)) :
    (numbered streamId base events).map (fun event => event.version) = serial base events.length := by
  apply List.ext_getElem
  · simp [numbered,serial]
  · intro index _ _
    simp [numbered,serial]

theorem serial_add (base : Int) (one two : Nat) : serial base (one + two) = serial base one ++ serial (base + one) two := by
  simp [serial,List.range_add,Int.add_assoc]

theorem serial_succ (base : Int) (count : Nat) : serial base (count + 1) = (base + 1) :: serial (base + 1) count := by
  rw [Nat.add_comm,serial_add]
  simp [serial]

theorem serial_inj (base other : Int) (count : Nat) : serial base count = serial other count ↔ count = 0 ∨ base = other := by
  unfold serial
  rw [List.map_inj_left]
  constructor
  · intro same
    cases count with
    | zero => exact .inl rfl
    | succ count =>
      have first := same 0 (by simp)
      exact .inr (by omega)
  · rintro (rfl | rfl) index listed
    · simp at listed
    · rfl

theorem read_numbered (owner streamId : String) (base : Int) (events : List (NewEvent π)) :
    read owner (numbered streamId base events) = if owner = streamId then numbered streamId base events else [] := by
  have named : ∀ event ∈ numbered streamId base events, event.streamId = streamId := by
    intro event listed
    obtain ⟨index,_,rfl⟩ := List.mem_mapIdx.mp listed
    rfl
  unfold EventStoreBackend.read
  split
  · rename_i same
    rw [List.filter_eq_self]
    intro event listed
    simp [named event listed,same]
  · rename_i other
    rw [List.filter_eq_nil_iff]
    intro event listed
    simpa [named event listed] using fun same => other same.symm

theorem read_append (owner : String) (log more : Log π) : read owner (log ++ more) = read owner log ++ read owner more :=
  List.filter_append _ _

theorem intact_other {owner streamId : String} (other : owner ≠ streamId) (base : Int) (events : List (NewEvent π)) (log : Log π) :
    Intact owner (log ++ numbered streamId base events) ↔ Intact owner log := by
  unfold Intact versions
  rw [read_append,read_numbered,if_neg other,List.append_nil]

theorem intact_numbered {streamId : String} {log : Log π} (intact : Intact streamId log) (base : Int) (events : List (NewEvent π)) :
    Intact streamId (log ++ numbered streamId base events) ↔ events = [] ∨ base = (read streamId log).length := by
  have long : (numbered streamId base events).length = events.length := by simp [numbered]
  unfold Intact versions at intact ⊢
  rw [read_append,read_numbered,if_pos rfl,List.map_append,List.length_append,long,serial_add,intact,List.append_cancel_left_eq,
    versions_numbered,serial_inj,Int.zero_add,List.length_eq_zero_iff]

-- From its read to its write no event came into the stream.
def Fresh (event : Event ι (Append π) (Log π)) (memory : List (Log π × Log π)) : Prop :=
  event.call.expectedVersion = none → event.call.events ≠ [] → ∀ found ∈ memory.head?,
    (read event.call.streamId event.before).length = (read event.call.streamId found.1).length

def Undisturbed [DecidableEq ι] : List (Event ι (Append π) (Log π)) → Prop
  | [] => True
  | event :: past => Fresh event (mine event.who past) ∧ Undisturbed past

instance [DecidableEq π] (event : Event ι (Append π) (Log π)) (memory : List (Log π × Log π)) : Decidable (Fresh event memory) :=
  inferInstanceAs (Decidable (event.call.expectedVersion = none → event.call.events ≠ [] → ∀ found ∈ memory.head?,
    (EventStoreBackend.read event.call.streamId event.before).length =
      (EventStoreBackend.read event.call.streamId found.1).length))

def Undisturbed.decide [DecidableEq ι] [DecidableEq π] : (past : List (Event ι (Append π) (Log π))) → Decidable (Undisturbed past)
  | [] => .isTrue trivial
  | _ :: past => @instDecidableAnd _ _ inferInstance (Undisturbed.decide past)

instance [DecidableEq ι] [DecidableEq π] (past : List (Event ι (Append π) (Log π))) : Decidable (Undisturbed past) :=
  Undisturbed.decide past

theorem intact_step {event : Event ι (Append π) (Log π)} {memory : List (Log π × Log π)}
    (does : event.call.Does memory event.before event.after) (intact : ∀ streamId, Intact streamId event.before) :
    (∀ streamId, Intact streamId event.after) ↔ Fresh event memory := by
  obtain ⟨who,⟨streamId,events,expectedVersion⟩,before,after⟩ := event
  dsimp only [Append.Does] at does intact ⊢
  cases expectedVersion with
  | some expected =>
    refine iff_of_true ?_ ?_
    · intro owner
      rcases does with rfl | ⟨known,rfl⟩
      · exact intact owner
      · by_cases own : owner = streamId
        · subst own
          exact (intact_numbered (intact owner) _ _).mpr (.inr known)
        · exact (intact_other own _ _ _).mpr (intact owner)
    · intro unversioned
      cases unversioned
  | none =>
    cases memory with
    | nil =>
      subst does
      refine iff_of_true intact ?_
      intro _ _ found missing
      cases missing
    | cons found memory =>
      dsimp only at does
      subst does
      constructor
      · intro whole _ some found' same
        cases same
        rcases (intact_numbered (intact streamId) _ _).mp (whole streamId) with empty | known
        · exact absurd empty some
        · exact (Int.ofNat.inj known).symm
      · intro fresh owner
        by_cases own : owner = streamId
        · subst own
          apply (intact_numbered (intact owner) _ _).mpr
          by_cases empty : events = []
          · exact .inl empty
          · exact .inr (congrArg Int.ofNat (fresh rfl empty found rfl).symm)
        · exact (intact_other own _ _ _).mpr (intact owner)

-- Nothing else writes to the log.
def Quiet (_ _ : Log π) : Prop := False

theorem linked_same [DecidableEq ι] {past : List (Event ι (Append π) (Log π))} {initial s : Log π} (linked : Linked Quiet initial past s) :
    s = (past.head?.map Event.after).getD initial := by
  have still : ∀ {a b : Log π}, Relation.ReflTransGen Quiet a b → b = a := by
    intro a b moves
    rcases moves.cases_tail with rfl | ⟨_,_,moved⟩
    · rfl
    · exact moved.elim
  cases past with
  | nil => exact still linked
  | cons event past => exact still linked.1

theorem along_intact [DecidableEq ι] {past : List (Event ι (Append π) (Log π))} {initial s : Log π}
    (first : ∀ streamId, Intact streamId initial) (along : Along Append.Does past) (linked : Linked Quiet initial past s) :
    ((∀ event ∈ past, ∀ streamId, Intact streamId event.after) ↔ Undisturbed past) ∧
      (Undisturbed past → ∀ streamId, Intact streamId s) := by
  induction past generalizing s with
  | nil =>
    refine ⟨iff_of_true ?_ trivial,?_⟩
    · intro event listed
      cases listed
    · rw [linked_same linked]
      exact fun _ => first
  | cons event past ih =>
    obtain ⟨same,reached⟩ := ih along.2 linked.2
    have now := linked_same linked
    simp only [List.head?_cons,Option.map_some,Option.getD_some] at now
    rw [List.forall_mem_cons,same]
    have step : Undisturbed past → ((∀ streamId, Intact streamId event.after) ↔ Fresh event (mine event.who past)) :=
      fun earlier => intact_step along.1 (reached earlier)
    constructor
    · exact and_congr_left step
    · rintro ⟨fresh,earlier⟩
      rw [now]
      exact (step earlier).mpr fresh

theorem append_interleaved [DecidableEq ι] {initial : Log π} {past : List (Event ι (Append π) (Log π))}
    {c : Config ι (Append π) (Log π) String Unit} (first : ∀ streamId, Intact streamId initial)
    (traced : Traced program Quiet initial past c) :
    ((∀ event ∈ past, ∀ streamId, Intact streamId event.after) ↔ Undisturbed past) ∧
    (Undisturbed past → ∀ streamId, Intact streamId c.state) ∧
    ∀ i call e, c.Finished i call (.error e) → ∀ event ∈ past, event.who = i → event.after = event.before := by
  have kept : Kept (fun _ => True) Append.Does (fun _ => Append.Ends) past c :=
    (traced_inv Append.acts_program (fun _ _ => trivial) (fun _ _ => trivial) trivial traced).1
  obtain ⟨same,reached⟩ := along_intact first kept.along (traced_linked traced)
  refine ⟨same,reached,?_⟩
  intro i call e failed event listed own
  exact kept.busy i call _ failed e rfl (event.before,event.after) (List.mem_filterMap.mpr ⟨event,listed,by simp [own]⟩)

def opened : NewEvent Unit := ⟨0,"opened",(),none,0⟩

def unversioned : Append Unit := ⟨"account",[opened],none⟩

def versioned (expected : Int) : Append Unit := ⟨"account",[opened,opened],some expected⟩

theorem appended_in_turn : ∃ past c, Traced (ι := Nat) program Quiet ([] : Log Unit) past c ∧ (∀ streamId, Intact streamId c.state) ∧
    versions "account" c.state = [1,2,3] ∧ past.map Event.who = [2,1,1,0] := by
  have performed : (perform program [] (start ([] : Log Unit)) [.start 0 (versioned 0),.act 0,.start 1 unversioned,.act 1,.act 1,
      .start 2 (versioned 0),.act 2]).any (fun after => decide (Undisturbed after.1) &&
        decide (versions "account" after.2.state = [1,2,3]) && decide (after.1.map Event.who = [2,1,1,0])) = true := by
    decide +kernel
  obtain ⟨past,c,traced,checked⟩ := perform_exists performed
  simp only [Bool.and_eq_true,decide_eq_true_eq] at checked
  obtain ⟨⟨undisturbed,stored⟩,who⟩ := checked
  have first : ∀ streamId, Intact streamId ([] : Log Unit) := fun _ => rfl
  exact ⟨past,c,traced,(append_interleaved first traced).2.1 undisturbed,stored,who⟩

def settled (c : Config Nat (Append Unit) (Log Unit) String Unit) (i : Nat) : Bool :=
  match c.calls i with
  | some (call,.done (.ok ())) => call = unversioned
  | _ => false

theorem settled_finished (done : settled c i = true) : c.Finished i unversioned (.ok ()) := by
  unfold settled at done
  split at done
  · rename_i running
    cases of_decide_eq_true done
    exact running
  · cases done

theorem version_taken_twice : ∃ past c, Traced (ι := Nat) program Quiet ([] : Log Unit) past c ∧
    c.Finished 0 unversioned (.ok ()) ∧ c.Finished 1 unversioned (.ok ()) ∧ versions "account" c.state = [1,1] := by
  have performed : (perform program [] (start ([] : Log Unit)) [.start 0 unversioned,.start 1 unversioned,.act 0,.act 1,.act 0,
      .act 1]).any (fun after => decide (versions "account" after.2.state = [1,1]) && settled after.2 0 && settled after.2 1) =
        true := by decide +kernel
  obtain ⟨past,c,traced,checked⟩ := perform_exists performed
  simp only [Bool.and_eq_true,decide_eq_true_eq] at checked
  exact ⟨past,c,traced,settled_finished checked.1.2,settled_finished checked.2,checked.1.1⟩

end Pezhwan.Events
