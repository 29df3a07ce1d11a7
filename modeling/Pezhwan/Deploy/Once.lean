import Pezhwan.Atomic.Machine
import Pezhwan.Auth.Services
import Mathlib.Data.List.Sort
import Mathlib.Data.List.Infix
import Mathlib.Data.List.Lex

namespace Pezhwan.Deploy
open Atomic
open Auth (codeUnits isDigit isLineTerminator)

-- The part of a name that .+\.(ts|mjs|js) has to match.
def hasExtension (rest : List ℕ) : Bool :=
  ([".ts",".mjs",".js"].map codeUnits).any fun extension =>
    extension.isSuffixOf rest && extension.length < rest.length &&
      (rest.take (rest.length - extension.length)).all fun unit => !isLineTerminator unit

-- /^\d{3}-.+\.(ts|mjs|js)$/
def isMigration (name : String) : Bool :=
  match codeUnits name with
  | a :: b :: c :: 45 :: rest => isDigit a && isDigit b && isDigit c && hasExtension rest
  | _ => false

-- sort() compares the names by their code units.
def listMigrations (dir : List String) : List String :=
  (dir.filter isMigration).insertionSort fun a b => codeUnits a ≤ codeUnits b

-- Where a process is: it has not read `_migrations` yet, it loads a module, the
-- module's up() is under way, or its record is.
inductive Phase where
  | connected
  | importing (name : String) (later applied : List String)
  | applying (name : String) (later applied : List String)
  | recording (name : String) (later applied : List String)
  | complete
  deriving DecidableEq, Repr

structure Process where
  phase : Phase := .connected
  alive : Bool := true
  deriving DecidableEq, Repr

inductive Record where
  | applying (name : String)
  | completed (name : String)
  deriving DecidableEq, Repr

-- `migrations` holds the names in `_migrations`; the log is newest first.
structure State where
  migrations : List String := []
  processes : List Process := []
  log : List Record := []
  deriving DecidableEq, Repr

-- The loop, up to its next await.
def look (applied : List String) : List String → Phase
  | [] => .complete
  | name :: later => if name ∈ applied then look applied later else .importing name later applied

def Phase.announced : Phase → List Record
  | .importing name _ _ => [.applying name]
  | _ => []

namespace State

def running (s : State) (i : ℕ) : Option Phase := (s.processes[i]?.filter (·.alive)).map (·.phase)

def enter (s : State) (i : ℕ) (phase : Phase) : State :=
  { s with processes := s.processes.modify i fun process => { process with phase } }

def proceed (s : State) (i : ℕ) (phase : Phase) : State :=
  { s.enter i phase with log := phase.announced ++ s.log }

def finished (s : State) (name : String) : State := { s with log := .completed name :: s.log }

def insertOne (s : State) (name : String) : State := { s with migrations := s.migrations ++ [name] }

def exit (s : State) (i : ℕ) : State :=
  { s with processes := s.processes.modify i fun process => { process with alive := false } }

end State

-- What happens next in one of the processes. A rejection anywhere ends its
-- process, as a stop does.
inductive Event where
  | launch
  | find (i : ℕ)
  | imported (i : ℕ)
  | fulfilled (i : ℕ)
  | insert (i : ℕ)
  | rejected (i : ℕ)
  | stop (i : ℕ)
  deriving DecidableEq, Repr

def step (dir : List String) (exportsUp : String → Bool) (s : State) : Event → Option State
  | .launch => some { s with processes := s.processes ++ [{}] }
  | .find i =>
    match s.running i with
    | some .connected => some (s.proceed i (look s.migrations (listMigrations dir)))
    | _ => none
  | .imported i =>
    match s.running i with
    | some (.importing name later applied) =>
      some (s.enter i (if exportsUp name then .applying name later applied else .recording name later applied))
    | _ => none
  | .fulfilled i =>
    match s.running i with
    | some (.applying name later applied) => some ((s.finished name).enter i (.recording name later applied))
    | _ => none
  | .insert i =>
    match s.running i with
    | some (.recording name later applied) => some ((s.insertOne name).proceed i (look (name :: applied) later))
    | _ => none
  | .rejected i | .stop i => if (s.running i).isSome then some (s.exit i) else none

open Auth (codeUnits isDigit)
variable {dir files later applied : List String} {exportsUp : String → Bool} {s t : State} {log : List Record}

-- The number a migration's name starts with.
def number (name : String) : ℕ :=
  match codeUnits name with
  | a :: b :: c :: _ => (a - 48) * 100 + (b - 48) * 10 + (c - 48)
  | _ => 0

structure Ordered (dir : List String) (s : State) : Prop where
  recorded : ∀ name ∈ s.migrations, .completed name ∈ s.log
  ordered : ∀ older name, .applying name :: older <:+ s.log →
    ∀ lower ∈ listMigrations dir, number lower < number name → .completed lower ∈ older

structure ExactlyOnce (dir : List String) (s : State) : Prop extends Ordered dir s where
  once : ∀ name, s.log.count (.completed name) ≤ 1

-- A process that has completed an up() and has not recorded it keeps it in its
-- phase, also when it is stopped.
def Phase.unrecorded : Phase → Option String
  | .recording name _ _ => some name
  | _ => none

def Phase.underway : Phase → Option String
  | .applying name _ _ => some name
  | _ => none

def State.completing (s : State) : Event → Option String
  | .fulfilled i => (s.running i).bind Phase.underway
  | _ => none

-- The migration is neither in `_migrations` nor left unrecorded by a process.
def State.fresh (s : State) (name : String) : Prop :=
  name ∉ s.migrations ∧ ∀ process ∈ s.processes, process.phase.unrecorded ≠ some name

instance : Decidable (s.fresh name) := inferInstanceAs (Decidable (_ ∧ _))

def Fresh (s : State) (event : Event) : Prop := ∀ name ∈ s.completing event, s.fresh name

instance : Decidable (Fresh s event) := inferInstanceAs (Decidable (∀ name ∈ s.completing event, _))

theorem isMigration_digits (migration : isMigration name = true) :
    ∃ a b c rest, codeUnits name = a :: b :: c :: rest ∧ isDigit a = true ∧ isDigit b = true ∧ isDigit c = true := by
  unfold isMigration at migration
  split at migration
  · rename_i a b c rest units
    simp only [Bool.and_eq_true] at migration
    exact ⟨a,b,c,_,units,migration.1.1.1,migration.1.1.2,migration.1.2⟩
  · cases migration

theorem number_le (one : isMigration a = true) (two : isMigration b = true) (le : codeUnits a ≤ codeUnits b) :
    number a ≤ number b := by
  obtain ⟨a₁,a₂,a₃,_,ua,da₁,da₂,da₃⟩ := isMigration_digits one
  obtain ⟨b₁,b₂,b₃,_,ub,db₁,db₂,db₃⟩ := isMigration_digits two
  simp only [isDigit,Auth.unitIn,Bool.and_eq_true,decide_eq_true_eq] at da₁ da₂ da₃ db₁ db₂ db₃
  have ordered := List.not_lt.mp (not_lt.mpr le)
  simp only [ua,ub,List.cons_le_cons_iff] at ordered
  simp only [number,ua,ub]
  omega

instance : Std.Total fun a b : String => codeUnits a ≤ codeUnits b := ⟨fun _ _ => le_total _ _⟩
instance : IsTrans String fun a b => codeUnits a ≤ codeUnits b := ⟨fun _ _ _ => le_trans⟩

theorem mem_listMigrations : name ∈ listMigrations dir ↔ name ∈ dir ∧ isMigration name = true := by
  simp [listMigrations,List.mem_insertionSort]

theorem lower_earlier (left : name :: later <:+ listMigrations dir) (listed : lower ∈ listMigrations dir)
    (less : number lower < number name) : lower ∉ name :: later := by
  intro member
  have sorted := (List.pairwise_insertionSort (fun a b => codeUnits a ≤ codeUnits b) (dir.filter isMigration)).sublist
    left.sublist
  have migration := mem_listMigrations.mp (left.subset List.mem_cons_self)
  rcases List.mem_cons.mp member with rfl | behind
  · omega
  · have le := number_le migration.2 (mem_listMigrations.mp listed).2 ((List.pairwise_cons.mp sorted).1 lower behind)
    omega

-- The migrations a process has behind it and those it takes as applied are done.
structure Ahead (files : List String) (log : List Record) (later applied : List String) : Prop where
  left : later <:+ files
  earlier : ∀ name ∈ files, name ∉ later → .completed name ∈ log
  applied : ∀ name ∈ applied, .completed name ∈ log

theorem Ahead.mono (ahead : Ahead files log later applied) (grown : log ⊆ more) : Ahead files more later applied where
  left := ahead.left
  earlier name listed behind := grown (ahead.earlier name listed behind)
  applied name taken := grown (ahead.applied name taken)

theorem Ahead.next (ahead : Ahead files log (name :: later) applied) (done : .completed name ∈ log) :
    Ahead files log later applied where
  left := (List.suffix_cons name later).trans ahead.left
  earlier other listed behind := by
    by_cases same : other = name
    · exact same ▸ done
    · exact ahead.earlier other listed (by simp [same,behind])
  applied := ahead.applied

def Phase.Sound (files : List String) (log : List Record) : Phase → Prop
  | .connected | .complete => True
  | .importing name later applied | .applying name later applied => Ahead files log (name :: later) applied
  | .recording name later applied => Ahead files log (name :: later) applied ∧ .completed name ∈ log

theorem Phase.Sound.mono {phase : Phase} (sound : phase.Sound files log) (grown : log ⊆ more) :
    phase.Sound files more := by
  cases phase with
  | connected => trivial
  | complete => trivial
  | importing name later applied => exact Ahead.mono sound grown
  | applying name later applied => exact Ahead.mono sound grown
  | recording name later applied => exact ⟨sound.1.mono grown,grown sound.2⟩

theorem look_sound (ahead : Ahead files log later applied) : (look applied later).Sound files log := by
  induction later with
  | nil => trivial
  | cons name later ih =>
    unfold look
    split
    · rename_i taken
      exact ih (ahead.next (ahead.applied name taken))
    · exact ahead

structure Sound (dir : List String) (s : State) : Prop extends Ordered dir s where
  phases : ∀ process ∈ s.processes, process.phase.Sound (listMigrations dir) s.log
  known : ∀ name, .completed name ∈ s.log → ¬s.fresh name

theorem not_fresh : ¬s.fresh name ↔ name ∈ s.migrations ∨ ∃ process ∈ s.processes, process.phase.unrecorded = some name := by
  unfold State.fresh
  grind

theorem sound_initial : Sound dir {} where
  recorded := by simp
  ordered := by simp
  phases := by simp
  known := by simp

theorem running_some (running : s.running i = some phase) :
    ∃ process, s.processes[i]? = some process ∧ process.phase = phase := by
  obtain ⟨process,found,same⟩ := Option.map_eq_some_iff.mp running
  exact ⟨process,(Option.filter_eq_some_iff.mp found).1,same⟩

theorem mem_modify {l : List α} {f : α → α} (member : x ∈ l.modify i f) :
    x ∈ l ∨ ∃ y, l[i]? = some y ∧ x = f y := by
  obtain ⟨j,found⟩ := List.mem_iff_getElem?.mp member
  rw [List.getElem?_modify] at found
  by_cases same : i = j
  · subst same
    simp only [if_true,Option.map_eq_map,Option.map_eq_some_iff] at found
    obtain ⟨y,there,rfl⟩ := found
    exact .inr ⟨y,there,rfl⟩
  · simp only [same,if_false,Option.map_eq_map,Option.map_eq_some_iff] at found
    obtain ⟨y,there,rfl⟩ := found
    exact .inl (List.mem_of_getElem? there)

theorem modify_mem {l : List α} (f : α → α) (member : x ∈ l) : x ∈ l.modify i f ∨ l[i]? = some x := by
  obtain ⟨j,found⟩ := List.mem_iff_getElem?.mp member
  by_cases same : i = j
  · exact .inr (same ▸ found)
  · refine .inl (List.mem_of_getElem? (i := j) ?_)
    simp [same,found]

theorem mem_modify_self {l : List α} (f : α → α) (found : l[i]? = some x) : f x ∈ l.modify i f := by
  refine List.mem_of_getElem? (i := i) ?_
  simp [found]

theorem enter_known (running : s.running i = some old) (known : ¬s.fresh name)
    (kept : old.unrecorded = some name → name ∈ s.migrations ∨ new.unrecorded = some name) :
    ¬(s.enter i new).fresh name := by
  obtain ⟨process,found,same⟩ := running_some running
  rw [not_fresh] at known ⊢
  rcases known with recorded | ⟨other,member,holds⟩
  · exact .inl recorded
  · rcases modify_mem (fun process : Process => { process with phase := new }) member with still | this
    · exact .inr ⟨other,still,holds⟩
    · cases found.symm.trans this
      rcases kept (same ▸ holds) with recorded | entered
      · exact .inl recorded
      · exact .inr ⟨_,mem_modify_self _ found,entered⟩

theorem enter_phases (phases : ∀ process ∈ s.processes, process.phase.Sound files log) (placed : new.Sound files log) :
    ∀ process ∈ (s.enter i new).processes, process.phase.Sound files log := by
  intro process member
  rcases mem_modify member with old | ⟨_,_,rfl⟩
  · exact phases process old
  · exact placed

theorem Sound.enter (sound : Sound dir s) (running : s.running i = some old)
    (placed : new.Sound (listMigrations dir) s.log)
    (kept : ∀ name, old.unrecorded = some name → name ∈ s.migrations ∨ new.unrecorded = some name) :
    Sound dir (s.enter i new) where
  toOrdered := ⟨sound.recorded,sound.ordered⟩
  phases := enter_phases sound.phases placed
  known name completed := enter_known running (sound.known name completed) (kept name)

theorem Sound.announce {new : Phase} (sound : Sound dir s) (placed : new.Sound (listMigrations dir) s.log) :
    Sound dir { s with log := new.announced ++ s.log } := by
  cases new with
  | importing name later applied =>
    have grown : s.log ⊆ .applying name :: s.log := List.subset_cons_self _ _
    refine ⟨⟨?_,?_⟩,?_,?_⟩
    · intro other recorded
      exact grown (sound.recorded other recorded)
    · intro older other started lower listed less
      rcases List.suffix_cons_iff.mp started with same | before
      · cases same
        exact Ahead.earlier placed lower listed (lower_earlier (Ahead.left placed) listed less)
      · exact sound.ordered older other before lower listed less
    · intro process member
      exact (sound.phases process member).mono grown
    · intro other completed
      exact sound.known other (by simpa [Phase.announced] using completed)
  | connected => exact sound
  | applying name later applied => exact sound
  | recording name later applied => exact sound
  | complete => exact sound

theorem Sound.proceed (sound : Sound dir s) (running : s.running i = some old)
    (placed : new.Sound (listMigrations dir) s.log)
    (kept : ∀ name, old.unrecorded = some name → name ∈ s.migrations ∨ new.unrecorded = some name) :
    Sound dir (s.proceed i new) :=
  (sound.enter running placed kept).announce placed

theorem Sound.finish (sound : Sound dir s) (running : s.running i = some (.applying name later applied)) :
    Sound dir ((s.finished name).enter i (.recording name later applied)) := by
  obtain ⟨process,found,same⟩ := running_some running
  have ahead := sound.phases process (List.mem_of_getElem? found)
  rw [same] at ahead
  have grown : s.log ⊆ .completed name :: s.log := List.subset_cons_self _ _
  refine ⟨⟨?_,?_⟩,?_,?_⟩
  · intro other recorded
    exact grown (sound.recorded other recorded)
  · intro older other started lower listed less
    rcases List.suffix_cons_iff.mp started with same | before
    · cases same
    · exact sound.ordered older other before lower listed less
  · refine enter_phases (fun process member => (sound.phases process member).mono grown) ?_
    exact ⟨Ahead.mono ahead grown,List.mem_cons_self⟩
  · intro other completed
    rcases List.mem_cons.mp completed with this | before
    · cases this
      exact not_fresh.mpr (.inr ⟨_,mem_modify_self _ found,rfl⟩)
    · exact enter_known (s := s) running (sound.known other before) (by simp [Phase.unrecorded])

theorem Sound.insertOne (sound : Sound dir s) (completed : .completed name ∈ s.log) :
    Sound dir (s.insertOne name) where
  recorded other member := by
    rcases List.mem_append.mp member with before | this
    · exact sound.recorded other before
    · cases List.mem_singleton.mp this
      exact completed
  ordered := sound.ordered
  phases := sound.phases
  known other done fresh := sound.known other done ⟨fun member => fresh.1 (List.mem_append_left _ member),fresh.2⟩

theorem Sound.exit (sound : Sound dir s) : Sound dir (s.exit i) where
  toOrdered := ⟨sound.recorded,sound.ordered⟩
  phases process member := by
    rcases mem_modify member with before | ⟨old,found,rfl⟩
    · exact sound.phases process before
    · exact sound.phases old (List.mem_of_getElem? found)
  known name completed fresh := by
    refine sound.known name completed ⟨fresh.1,?_⟩
    intro process member
    rcases modify_mem (fun process : Process => { process with alive := false }) member with still | this
    · exact fresh.2 process still
    · exact fresh.2 { process with alive := false } (mem_modify_self (fun process => { process with alive := false }) this)

theorem Sound.launch (sound : Sound dir s) : Sound dir { s with processes := s.processes ++ [{}] } where
  toOrdered := ⟨sound.recorded,sound.ordered⟩
  phases process member := by
    rcases List.mem_append.mp member with before | this
    · exact sound.phases process before
    · cases List.mem_singleton.mp this
      trivial
  known name completed fresh :=
    sound.known name completed ⟨fresh.1,fun process member => fresh.2 process (List.mem_append_left _ member)⟩

theorem running_sound (sound : Sound dir s) (running : s.running i = some phase) :
    phase.Sound (listMigrations dir) s.log := by
  obtain ⟨process,found,rfl⟩ := running_some running
  exact sound.phases process (List.mem_of_getElem? found)

theorem step_sound (exporting : ∀ name ∈ listMigrations dir, exportsUp name = true) (sound : Sound dir s)
    (taken : step dir exportsUp s event = some t) : Sound dir t := by
  cases event with
  | launch =>
    cases taken
    exact sound.launch
  | find i =>
    simp only [step] at taken
    split at taken
    · rename_i running
      cases taken
      refine sound.proceed running (look_sound ⟨List.suffix_refl _,?_,sound.recorded⟩) (by simp [Phase.unrecorded])
      intro name listed absent
      exact absurd listed absent
    · cases taken
  | imported i =>
    simp only [step] at taken
    split at taken
    · rename_i running
      cases taken
      have ahead := running_sound sound running
      rw [exporting _ (Ahead.left ahead |>.subset List.mem_cons_self)]
      exact sound.enter running ahead (by simp [Phase.unrecorded])
    · cases taken
  | fulfilled i =>
    simp only [step] at taken
    split at taken
    · rename_i name later applied running
      cases taken
      exact sound.finish running
    · cases taken
  | insert i =>
    simp only [step] at taken
    split at taken
    · rename_i name later applied running
      cases taken
      obtain ⟨ahead,completed⟩ := running_sound sound running
      have still : (s.insertOne name).running i = some (.recording name later applied) := running
      refine (sound.insertOne completed).proceed still (look_sound ?_) ?_
      · refine ⟨(ahead.next completed).left,(ahead.next completed).earlier,?_⟩
        intro other member
        rcases List.mem_cons.mp member with rfl | before
        · exact completed
        · exact ahead.applied other before
      · intro other same
        cases same
        exact .inl (List.mem_append_right _ (List.mem_singleton_self _))
    · cases taken
  | rejected i | stop i =>
    simp only [step] at taken
    split at taken
    · cases taken
      exact sound.exit
    · cases taken

theorem known_completed (sound : Sound dir s) (known : ¬s.fresh name) : .completed name ∈ s.log := by
  rcases not_fresh.mp known with recorded | ⟨process,member,unrecorded⟩
  · exact sound.recorded name recorded
  · have placed := sound.phases process member
    cases phase : process.phase with
    | recording other later applied =>
      rw [phase] at placed unrecorded
      cases unrecorded
      exact placed.2
    | connected => simp [phase,Phase.unrecorded] at unrecorded
    | importing other later applied | applying other later applied | complete => simp [phase,Phase.unrecorded] at unrecorded

theorem proceed_count {phase : Phase} : (s.proceed i phase).log.count (.completed name) = s.log.count (.completed name) := by
  cases phase <;> simp [State.proceed,State.enter,Phase.announced]

theorem step_count (taken : step dir exportsUp s event = some t) :
    t.log.count (.completed name) = s.log.count (.completed name) + if s.completing event = some name then 1 else 0 := by
  cases event with
  | launch =>
    cases taken
    simp [State.completing]
  | fulfilled i =>
    simp only [step] at taken
    split at taken
    · rename_i other later applied running
      cases taken
      simp [State.completing,running,Phase.underway,State.enter,State.finished,List.count_cons]
    · cases taken
  | find i | imported i | insert i | rejected i | stop i =>
    simp only [step] at taken
    split at taken
    · cases taken
      first | exact proceed_count | rfl
    · cases taken

-- An up() that completes does so for the first time if and only if it is fresh.
theorem once_step (sound : Sound dir s) (taken : step dir exportsUp s event = some t)
    (once : ∀ name, s.log.count (.completed name) ≤ 1) :
    (∀ name, t.log.count (.completed name) ≤ 1) ↔ Fresh s event := by
  constructor
  · intro after name completing
    by_contra known
    have again := after name
    have before := List.count_pos_iff.mpr (known_completed sound known)
    rw [step_count taken,if_pos (Option.mem_def.mp completing)] at again
    omega
  · intro fresh name
    rw [step_count taken]
    split
    · rename_i completing
      have none := List.count_eq_zero.mpr fun completed => sound.known name completed (fresh name completing)
      omega
    · exact once name

end Pezhwan.Deploy
