import Pezhwan.Plugins.Manager
import Pezhwan.Atomic.Dict
import Pezhwan.Atomic.Machine

namespace Pezhwan.Plugins
open Atomic
variable {η : Type} {loader : PluginLoader} {manager : PluginManager η}

-- The function-valued entries of a module, and those under one name.
def Exports.functions («exports» : Exports η) : List (String × η) :=
  «exports».candidate.entries.filterMap fun entry => entry.2.function?.map fun handler => (entry.1,handler)

def under (name : String) (functions : List (String × η)) : List η :=
  (functions.filter fun entry => entry.1 = name).map Prod.snd

def PluginStatus.provides (name : String) (status : PluginStatus η) : List η :=
  if status.state = .active then under name status.exports.functions else []

namespace PluginManager

-- What the active plugins have under a name.
def provided (manager : PluginManager η) (name : String) : List η :=
  manager.statuses.values.flatMap (·.provides name)

end PluginManager

-- Hooks.run invokes what the active plugins provide.
def Mirrors (completes : η → Bool) (manager : PluginManager η) : Prop :=
  ∀ name, (manager.hooks.run completes name).1.Perm (manager.provided name)

-- No handler that has others behind it throws.
def Unhindered (completes : η → Bool) (manager : PluginManager η) : Prop :=
  ∀ name, ∀ handler ∈ (manager.hooks.handlers name).dropLast, completes handler = true

-- An active plugin with function-valued entries has the name.
def PluginManager.inUse (manager : PluginManager η) (name : String) : Prop :=
  ∃ status ∈ manager.statuses.get? name, status.state = .active ∧ status.exports.functions ≠ []

def Spares (manager : PluginManager η) : Event η → Prop
  | .load mult _ => ¬manager.inUse mult.name
  | .enable _ => True
  | .disable name => ¬manager.inUse name

theorem handlers_register (hooks : Hooks η) (name : String) (handler : η) (other : String) :
    (hooks.register name handler).handlers other = hooks.handlers other ++ if other = name then [handler] else [] := by
  unfold Hooks.handlers Hooks.register
  rw [Dict.get?_set]
  split
  · rename_i same
    subst same
    rfl
  · simp

theorem handlers_activate (hooks : Hooks η) («exports» : Exports η) (name : String) :
    (PluginManager.activateHooks hooks «exports»).handlers name = hooks.handlers name ++ under name «exports».functions := by
  unfold PluginManager.activateHooks Exports.functions
  induction «exports».candidate.entries generalizing hooks with
  | nil => simp [under]
  | cons entry rest ih =>
    obtain ⟨hookName,value⟩ := entry
    rw [List.foldl_cons,ih]
    cases value with
    | function handler =>
      simp only [handlers_register,Value.function?,List.filterMap_cons,Option.map_some,under,List.filter_cons]
      by_cases same : hookName = name
      · simp [same]
      · simp [same,Ne.symm same]
    | other => simp [Value.function?,under]

theorem invoke_all {completes : η → Bool} {handlers : List η} (steady : ∀ handler ∈ handlers.dropLast, completes handler = true) :
    (Hooks.invoke completes handlers).1 = handlers := by
  induction handlers with
  | nil => rfl
  | cons handler rest ih =>
    unfold Hooks.invoke
    cases rest with
    | nil =>
      split
      · rfl
      · rfl
    | cons next rest =>
      have here := steady handler (by simp)
      rw [if_pos here,ih fun later listed => steady later (by simp [listed])]

-- The bus is exact.
def Exact (manager : PluginManager η) : Prop :=
  ∀ name, (manager.hooks.handlers name).Perm (manager.provided name)

-- What an operation does to one plugin and adds to the bus.
structure Turns (manager after : PluginManager η) (name : String) (new : PluginStatus η) (added : List (String × η)) :
    Prop where
  statuses : after.statuses = manager.statuses.set name new
  bus : ∀ hook, after.hooks.handlers hook = manager.hooks.handlers hook ++ under hook added
  provides : ∀ hook, new.provides hook = under hook added

def Idle (manager : PluginManager η) (name : String) : Prop :=
  ∀ status ∈ manager.statuses.get? name, ∀ hook, status.provides hook = []

theorem under_nil {functions : List (String × η)} (empty : ∀ hook, under hook functions = []) : functions = [] := by
  cases functions with
  | nil => rfl
  | cons entry rest =>
    have absurd_ := empty entry.1
    simp [under] at absurd_

theorem provides_inactive {status : PluginStatus η} (inactive : status.state ≠ .active) (hook : String) :
    status.provides hook = [] := if_neg inactive

theorem idle_iff : Idle manager name ↔ ¬manager.inUse name := by
  constructor
  · intro idle used
    obtain ⟨status,found,active,some_⟩ := used
    refine some_ (under_nil fun hook => ?_)
    have none := idle status found hook
    unfold PluginStatus.provides at none
    rwa [if_pos active] at none
  · intro free status found hook
    by_cases active : status.state = .active
    · have none : status.exports.functions = [] := by
        by_contra some_
        exact free ⟨status,found,active,some_⟩
      unfold PluginStatus.provides
      rw [if_pos active,none]
      rfl
    · exact provides_inactive active hook

-- A plugin that was never loaded has nothing to register.
def Backed (manager : PluginManager η) : Prop :=
  ∀ name status, manager.statuses.get? name = some status → manager.loadedPlugins.get? name = none →
    status.exports.functions = []

def Settled (manager : PluginManager η) : Prop := Exact manager ∧ Backed manager

theorem backed_set {statuses : Dict String (PluginStatus η)} (backed : Backed manager)
    (set : statuses = manager.statuses.set name new)
    (own : manager.loadedPlugins.get? name = none → new.exports.functions = []) :
    Backed { manager with statuses } := by
  intro other status found unloaded
  dsimp only at found unloaded
  rw [set,Dict.get?_set] at found
  split at found
  · rename_i same
    cases found
    exact own (same ▸ unloaded)
  · exact backed other status found unloaded

theorem load_turns (manager : PluginManager η) (loader : PluginLoader) (mult : PluginManifest)
    (imported : Except String (Module η)) :
    ∃ new added, Turns manager (manager.load loader mult imported) mult.name new added := by
  unfold PluginManager.load
  split
  · rename_i module_ cache resolved
    by_cases active : (PluginManager.loadedStatus (loadedPlugin mult module_)).state = .active
    · refine ⟨_,(loadedPlugin mult module_).exports.functions,rfl,?_,?_⟩
      · intro hook
        simp only [PluginManager.keep,active,if_true]
        exact handlers_activate _ _ hook
      · intro hook
        exact if_pos active
    · refine ⟨_,[],rfl,?_,?_⟩
      · intro hook
        simp [PluginManager.keep,active,under]
      · intro hook
        exact provides_inactive active hook
  · refine ⟨_,[],rfl,?_,?_⟩
    · intro hook
      simp [under]
    · intro hook
      exact provides_inactive (by simp [PluginManager.broken]) hook

theorem load_backed (backed : Backed manager) (mult : PluginManifest) (imported : Except String (Module η)) :
    Backed (manager.load loader mult imported) := by
  unfold PluginManager.load
  split
  · rename_i module_ cache resolved
    intro name status found unloaded
    simp only [PluginManager.keep,Dict.get?_set,loadedPlugin] at found unloaded
    split at unloaded
    · cases unloaded
    · rename_i other
      rw [if_neg other] at found
      exact backed name status found unloaded
  · exact backed_set backed rfl fun _ => rfl

theorem disable_turns (found : manager.statuses.get? name = some status) :
    Turns manager (manager.disable name) name { status with state := .disabled } [] := by
  unfold PluginManager.disable
  rw [found]
  refine ⟨rfl,?_,?_⟩
  · intro hook
    simp [under]
  · intro hook
    exact provides_inactive (by simp) hook

theorem enable_turns (backed : Backed manager) (found : manager.statuses.get? name = some status)
    (inactive : status.state ≠ .active) : ∃ new added, Turns manager (manager.enable name) name new added := by
  unfold PluginManager.enable
  rw [found]
  simp only [inactive,ne_eq,not_false_eq_true,if_true]
  cases loaded : manager.loadedPlugins.get? name with
  | some fresh =>
    refine ⟨_,fresh.exports.functions,rfl,?_,?_⟩
    · intro hook
      exact handlers_activate _ _ hook
    · intro hook
      exact if_pos rfl
  | none =>
    refine ⟨_,[],rfl,?_,?_⟩
    · intro hook
      simp [PluginManager.reactivate,under]
    · intro hook
      have nothing := backed name status found loaded
      simp [PluginManager.enabled,PluginStatus.provides,nothing]

theorem enable_backed (backed : Backed manager) (name : String) : Backed (manager.enable name) := by
  unfold PluginManager.enable
  split
  · exact backed
  · rename_i status found
    split
    · refine backed_set backed rfl ?_
      intro unloaded
      rw [unloaded]
      exact backed name status found unloaded
    · exact backed

theorem disable_backed (backed : Backed manager) (name : String) : Backed (manager.disable name) := by
  unfold PluginManager.disable
  split
  · exact backed
  · rename_i status found
    exact backed_set backed rfl fun unloaded => backed name status found unloaded

theorem backed_step (backed : Backed manager) (event : Event η) : Backed (perform loader manager event) := by
  cases event with
  | load mult imported => exact load_backed backed mult imported
  | enable name => exact enable_backed backed name
  | disable name => exact disable_backed backed name

section
variable [DecidableEq η]

theorem count_provided (manager : PluginManager η) (name : String) (handler : η) :
    (manager.provided name).count handler = manager.statuses.total fun status => (status.provides name).count handler := by
  simp [PluginManager.provided,Dict.values,Dict.total,List.count_flatMap,Function.comp_def]

theorem turns_exact {after : PluginManager η} (exact_ : Exact manager) (turns : Turns manager after name new added) :
    Exact after ↔ Idle manager name := by
  have counts : ∀ hook handler, (after.provided hook).count handler +
      ((manager.statuses.get? name).map fun status => (status.provides hook).count handler).getD 0 =
        (after.hooks.handlers hook).count handler := by
    intro hook handler
    have set := Dict.total_set (f := fun status => (status.provides hook).count handler) manager.statuses name new
    rw [turns.provides hook] at set
    rw [count_provided,turns.statuses,set,turns.bus,List.count_append,(exact_ hook).count_eq,count_provided]
  constructor
  · intro after_ status found hook
    refine List.eq_nil_iff_forall_not_mem.mpr ?_
    intro handler listed
    have count := counts hook handler
    rw [(after_ hook).count_eq,Option.mem_def.mp found,Option.map_some,Option.getD_some] at count
    have positive := List.count_pos_iff.mpr listed
    omega
  · intro idle hook
    refine List.perm_iff_count.mpr ?_
    intro handler
    rw [← counts]
    cases found : manager.statuses.get? name with
    | none => simp
    | some status => simp [idle status found hook]

theorem exact_step (loader : PluginLoader) (exact_ : Exact manager) (backed : Backed manager) (event : Event η) :
    Exact (perform loader manager event) ↔ Spares manager event := by
  cases event with
  | load mult imported =>
    obtain ⟨new,added,turns⟩ := load_turns manager loader mult imported
    exact (turns_exact exact_ turns).trans idle_iff
  | enable name =>
    refine iff_of_true ?_ trivial
    cases found : manager.statuses.get? name with
    | none =>
      have still : manager.enable name = manager := by simp [PluginManager.enable,found]
      rw [perform,still]
      exact exact_
    | some status =>
      by_cases active : status.state = .active
      · have still : manager.enable name = manager := by simp [PluginManager.enable,found,active]
        rw [perform,still]
        exact exact_
      · obtain ⟨new,added,turns⟩ := enable_turns backed found active
        refine (turns_exact exact_ turns).mpr ?_
        intro other known hook
        cases found.symm.trans known
        exact provides_inactive active hook
  | disable name =>
    cases found : manager.statuses.get? name with
    | none =>
      have still : manager.disable name = manager := by simp [PluginManager.disable,found]
      refine iff_of_true ?_ ?_
      · rw [perform,still]
        exact exact_
      · intro used
        obtain ⟨status,known,_⟩ := used
        cases found.symm.trans known
    | some status => exact (turns_exact exact_ (disable_turns found)).trans idle_iff

-- The bus mirrors the active plugins as long as none with handlers is disabled
-- or loaded again and no handler throws that has others behind it.
theorem hooks_mirror (loader : PluginLoader) (cache : Dict String (Module η)) (completes : η → Bool) (events : List (Event η)) :
    (Machine.Each (step loader) (fun manager event after => Spares manager event ∧ Unhindered completes after)
        { cache } events →
      Machine.Each (step loader) (fun _ _ after => Mirrors completes after) { cache } events) ∧
    ((∀ handler, completes handler = true) →
      Machine.Each (step loader) (fun _ _ after => Mirrors completes after) { cache } events →
      Machine.Each (step loader) (fun manager event _ => Spares manager event) { cache } events) := by
  have first : Settled ({ cache } : PluginManager η) := by
    refine ⟨fun name => .refl _,?_⟩
    intro name status found
    cases found
  constructor
  · refine Machine.each_of first ?_
    intro manager event after held taken careful
    cases taken
    have mirrored := (exact_step loader held.1 held.2 event).mpr careful.1
    refine ⟨⟨mirrored,backed_step held.2 event⟩,?_⟩
    intro name
    have whole : (Hooks.run completes (perform loader manager event).hooks name).1 = _ := invoke_all (careful.2 name)
    rw [whole]
    exact mirrored name
  · intro steady
    refine Machine.each_of first ?_
    intro manager event after held taken mirrors
    cases taken
    have exact_ : Exact (perform loader manager event) := by
      intro name
      have whole : (Hooks.run completes (perform loader manager event).hooks name).1 = _ :=
        invoke_all fun handler _ => steady handler
      rw [← whole]
      exact mirrors name
    exact ⟨⟨exact_,backed_step held.2 event⟩,(exact_step loader held.1 held.2 event).mp exact_⟩

end

-- A plugin with one handler, loaded and disabled.
def auditPlugin : PluginManifest := ⟨"audit","1.0.0","./audit.js",none⟩

def auditModule : Module ℕ := ⟨some (.object (some (.object [("login",.function 7)]))),.other⟩

def anyLoader : PluginLoader := ⟨false,.ok⟩

theorem hooks_outlive_plugin : ¬∀ (loader : PluginLoader) (cache : Dict String (Module ℕ)) (completes : ℕ → Bool)
    (events : List (Event ℕ)), Machine.Each (step loader) (fun _ _ after => Mirrors completes after) { cache } events := by
  intro all
  have each := all anyLoader .empty (fun _ => true) [.load auditPlugin (.ok auditModule),.disable "audit"]
  have login := each.mono fun _ _ manager (mirrors : Mirrors (fun _ => true) manager) => mirrors "login"
  exact absurd login (by decide +kernel)

end Pezhwan.Plugins
