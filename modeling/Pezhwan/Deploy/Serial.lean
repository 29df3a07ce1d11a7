import Pezhwan.Deploy.Once

namespace Pezhwan.Deploy
open Atomic
variable {dir later applied migrations : List String} {exportsUp : String → Bool} {s t : State}

def Phase.busy : Phase → Prop
  | .connected | .complete => False
  | .importing _ _ _ | .applying _ _ _ | .recording _ _ _ => True

-- A process reads the applied set while no other one is in its loop, and none
-- ends between an up() and its record.
def Alone (s : State) : Event → Prop
  | .find _ => ∀ j phase, s.running j = some phase → ¬phase.busy
  | .rejected i | .stop i => ∀ phase, s.running i = some phase → phase.unrecorded = none
  | _ => True

def Phase.Current (migrations : List String) : Phase → Prop
  | .importing name _ applied | .applying name _ applied => migrations ⊆ applied ∧ name ∉ applied
  | .recording _ _ applied => migrations ⊆ applied
  | .connected | .complete => True

structure Serial (s : State) : Prop where
  ended : ∀ process ∈ s.processes, process.alive = false → process.phase.unrecorded = none
  one : ∀ i j a b, s.running i = some a → s.running j = some b → a.busy → b.busy → i = j
  current : ∀ i phase, s.running i = some phase → phase.Current s.migrations

theorem Phase.Current.idle {phase : Phase} (idle : ¬phase.busy) : phase.Current migrations := by
  cases phase with
  | connected => trivial
  | complete => trivial
  | importing name later applied => exact absurd trivial idle
  | applying name later applied => exact absurd trivial idle
  | recording name later applied => exact absurd trivial idle

theorem look_current (subset : migrations ⊆ applied) : (look applied later).Current migrations := by
  induction later with
  | nil => trivial
  | cons name later ih =>
    unfold look
    split
    · exact ih
    · rename_i absent
      exact ⟨subset,absent⟩

theorem running_iff : s.running i = some phase ↔ ∃ process, s.processes[i]? = some process ∧ process.alive = true ∧
    process.phase = phase := by
  simp only [State.running,Option.map_eq_some_iff,Option.filter_eq_some_iff]
  grind

theorem running_enter (running : s.running i = some old) :
    (s.enter i new).running j = if i = j then some new else s.running j := by
  obtain ⟨process,found,alive,_⟩ := running_iff.mp running
  by_cases same : i = j
  · subst same
    simp [State.running,State.enter,found,alive]
  · simp [State.running,State.enter,same]

theorem Serial.moves {new : Phase} (serial : Serial s) (running : s.running i = some old)
    (alone : ∀ j phase, s.running j = some phase → phase.busy → j = i)
    (processes : t.processes = (s.enter i new).processes) (current : new.Current t.migrations) : Serial t := by
  have runs : ∀ j, t.running j = if i = j then some new else s.running j := by
    intro j
    rw [← running_enter running]
    simp [State.running,processes]
  have only : ∀ j phase, t.running j = some phase → phase.busy → j = i := by
    intro j phase here busy
    rw [runs] at here
    split at here
    · rename_i same
      exact same.symm
    · exact alone j phase here busy
  refine ⟨?_,?_,?_⟩
  · intro process member ended
    rw [processes] at member
    rcases mem_modify member with before | ⟨old,found,rfl⟩
    · exact serial.ended process before ended
    · obtain ⟨other,there,alive,_⟩ := running_iff.mp running
      cases found.symm.trans there
      rw [alive] at ended
      cases ended
  · intro j k a b first second busy both
    rw [only j a first busy,only k b second both]
  · intro j phase here
    by_cases busy : phase.busy
    · cases only j phase here busy
      rw [runs,if_pos rfl] at here
      cases here
      exact current
    · exact .idle busy

theorem running_exit : (s.exit i).running j = if i = j then none else s.running j := by
  by_cases same : i = j
  · subst same
    cases found : s.processes[i]? <;> simp [State.running,State.exit,found]
  · simp [State.running,State.exit,same]

theorem Serial.exit (serial : Serial s) (running : s.running i = some old) (recorded : old.unrecorded = none) :
    Serial (s.exit i) := by
  have runs : ∀ j phase, (s.exit i).running j = some phase → s.running j = some phase := by
    intro j phase here
    rw [running_exit] at here
    split at here
    · cases here
    · exact here
  refine ⟨?_,?_,?_⟩
  · intro process member ended
    rcases mem_modify member with before | ⟨other,found,rfl⟩
    · exact serial.ended process before ended
    · obtain ⟨_,there,_,same⟩ := running_iff.mp running
      cases found.symm.trans there
      exact same ▸ recorded
  · intro j k a b first second
    exact serial.one j k a b (runs j a first) (runs k b second)
  · intro j phase here
    exact serial.current j phase (runs j phase here)

theorem Serial.launch (serial : Serial s) : Serial { s with processes := s.processes ++ [{}] } := by
  have runs : ∀ j phase, State.running { s with processes := s.processes ++ [{}] } j = some phase → phase.busy →
      s.running j = some phase := by
    intro j phase here busy
    obtain ⟨process,found,alive,rfl⟩ := running_iff.mp here
    rw [List.getElem?_append] at found
    split at found
    · exact running_iff.mpr ⟨process,found,alive,rfl⟩
    · have member := List.mem_singleton.mp (List.mem_of_getElem? found)
      subst member
      exact busy.elim
  refine ⟨?_,?_,?_⟩
  · intro process member ended
    rcases List.mem_append.mp member with before | this
    · exact serial.ended process before ended
    · cases List.mem_singleton.mp this
      cases ended
  · intro j k a b first second busy both
    exact serial.one j k a b (runs j a first busy) (runs k b second both) busy both
  · intro j phase here
    by_cases busy : phase.busy
    · exact serial.current j phase (runs j phase here busy)
    · exact .idle busy

theorem serial_initial : Serial {} where
  ended := by simp
  one := by simp [State.running]
  current := by simp [State.running]

theorem serial_step (serial : Serial s) (taken : step dir exportsUp s event = some t) (alone : Alone s event) :
    Serial t := by
  cases event with
  | launch =>
    cases taken
    exact serial.launch
  | find i =>
    simp only [step] at taken
    split at taken
    · rename_i running
      cases taken
      refine serial.moves running ?_ rfl (look_current (List.Subset.refl _))
      intro j phase here busy
      exact absurd busy (alone j phase here)
    · cases taken
  | imported i =>
    simp only [step] at taken
    split at taken
    · rename_i name later applied running
      cases taken
      have current := serial.current i _ running
      refine serial.moves running (fun j phase here busy => serial.one j i _ _ here running busy trivial) rfl ?_
      split
      · exact current
      · exact current.1
    · cases taken
  | fulfilled i =>
    simp only [step] at taken
    split at taken
    · rename_i name later applied running
      cases taken
      have current := serial.current i _ running
      exact serial.moves running (fun j phase here busy => serial.one j i _ _ here running busy trivial) rfl current.1
    · cases taken
  | insert i =>
    simp only [step] at taken
    split at taken
    · rename_i name later applied running
      cases taken
      have current : s.migrations ⊆ applied := serial.current i _ running
      refine serial.moves running (fun j phase here busy => serial.one j i _ _ here running busy trivial) rfl ?_
      refine look_current ?_
      intro other member
      rcases List.mem_append.mp member with before | this
      · exact List.mem_cons_of_mem _ (current before)
      · exact List.mem_singleton.mp this ▸ List.mem_cons_self
    · cases taken
  | rejected i | stop i =>
    simp only [step] at taken
    split at taken
    · rename_i there
      obtain ⟨phase,running⟩ := Option.isSome_iff_exists.mp there
      cases taken
      exact serial.exit running (alone phase running)
    · cases taken

theorem serial_fresh (serial : Serial s) : Fresh s event := by
  intro name completing
  cases event with
  | fulfilled i =>
    obtain ⟨phase,running,underway⟩ := Option.bind_eq_some_iff.mp completing
    cases phase with
    | applying other later applied =>
      cases underway
      obtain ⟨subset,absent⟩ : s.migrations ⊆ applied ∧ name ∉ applied := serial.current i _ running
      refine ⟨fun recorded => absent (subset recorded),?_⟩
      intro process member unrecorded
      cases alive : process.alive with
      | false => simp [serial.ended process member alive] at unrecorded
      | true =>
        obtain ⟨j,found⟩ := List.mem_iff_getElem?.mp member
        have here := running_iff.mpr ⟨process,found,alive,rfl⟩
        have busy : process.phase.busy := by
          cases phase : process.phase <;> simp_all [Phase.busy,Phase.unrecorded]
        cases serial.one j i _ _ here running busy trivial
        rw [Option.some.inj (here.symm.trans running)] at unrecorded
        cases unrecorded
    | connected => cases underway
    | importing other later applied => cases underway
    | recording other later applied => cases underway
    | complete => cases underway
  | launch | find i | imported i | insert i | rejected i | stop i => cases completing

theorem alone_fresh (events : List Event) (alone : Machine.Each (step dir exportsUp) (fun s event _ => Alone s event) {} events) :
    Machine.Each (step dir exportsUp) (fun s event _ => Fresh s event) {} events :=
  Machine.each_of serial_initial
    (fun _ _ _ serial taken alone => ⟨serial_step serial taken alone,serial_fresh serial⟩) alone

-- Records and order are right in every run, and each migration runs exactly once
-- as long as no up() completes whose migration another process has recorded or has
-- completed and not recorded; so it does in deploys one after the other.
theorem migrations_once_iff (dir : List String) (exportsUp : String → Bool) (events : List Event)
    (exporting : ∀ name ∈ listMigrations dir, exportsUp name = true) :
    Machine.Each (step dir exportsUp) (fun _ _ s => Ordered dir s) {} events ∧
    (Machine.Each (step dir exportsUp) (fun _ _ s => ExactlyOnce dir s) {} events ↔
      Machine.Each (step dir exportsUp) (fun s event _ => Fresh s event) {} events) ∧
    (Machine.Each (step dir exportsUp) (fun s event _ => Alone s event) {} events →
      Machine.Each (step dir exportsUp) (fun _ _ s => ExactlyOnce dir s) {} events) := by
  have exact_ : Machine.Each (step dir exportsUp) (fun _ _ s => ExactlyOnce dir s) {} events ↔
      Machine.Each (step dir exportsUp) (fun s event _ => Fresh s event) {} events := by
    refine Machine.each_iff (fun s => Sound dir s ∧ ∀ name, s.log.count (.completed name) ≤ 1) ⟨sound_initial,by simp⟩ ?_
    intro s event t ⟨sound,once⟩ taken
    have still := step_sound exporting sound taken
    rw [← once_step sound taken once]
    exact ⟨⟨(·.once),fun once => ⟨still.toOrdered,once⟩⟩,fun after => ⟨still,after.once⟩⟩
  refine ⟨?_,exact_,fun alone => exact_.mpr (alone_fresh events alone)⟩
  refine Machine.each_of (show Sound dir {} from sound_initial) ?_ (Machine.each_of_mem fun _ _ _ => trivial)
  intro s event t sound taken _
  have still := step_sound exporting sound taken
  exact ⟨still,still.toOrdered⟩

def retried : List Event :=
  [.launch,.find 0,.imported 0,.fulfilled 0,.insert 0,.imported 0,.rejected 0,
    .launch,.find 1,.imported 1,.fulfilled 1,.insert 1]

theorem migrations_once_retried :
    (Machine.run (step ["001-a.js","002-b.js"] fun _ => true) {} retried).map (·.migrations) = some ["001-a.js","002-b.js"] ∧
      Machine.Each (step ["001-a.js","002-b.js"] fun _ => true) (fun _ _ s => ExactlyOnce ["001-a.js","002-b.js"] s) {} retried :=
  ⟨by decide +kernel,(migrations_once_iff _ _ retried fun _ _ => rfl).2.1.mpr (by decide +kernel)⟩

-- Two deploys at the same time.
def overlapping : List Event := [.launch,.launch,.find 0,.find 1,.imported 0,.imported 1,.fulfilled 0,.fulfilled 1]

theorem migrations_twice : ¬∀ (dir : List String) (exportsUp : String → Bool) (events : List Event),
    (∀ name ∈ listMigrations dir, exportsUp name = true) →
    Machine.Each (step dir exportsUp) (fun _ _ s => ExactlyOnce dir s) {} events := by
  intro all
  have each := all ["001-a.js"] (fun _ => true) overlapping fun _ _ => rfl
  have once := each.mono fun _ _ s (exactly : ExactlyOnce ["001-a.js"] s) => exactly.once "001-a.js"
  exact absurd once (by decide +kernel)

end Pezhwan.Deploy
