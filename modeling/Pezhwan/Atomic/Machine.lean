import Mathlib.Logic.Basic
import Mathlib.Data.List.Basic

namespace Atomic.Machine
variable {σ κ : Type} {step : σ → κ → Option σ} {p q : σ → κ → σ → Prop}

-- A machine takes one event at a time; an event it refuses ends the run.
def run (step : σ → κ → Option σ) : σ → List κ → Option σ
  | s,[] => some s
  | s,event :: rest => (step s event).bind fun t => run step t rest

-- Every step of the run is as `p` wants it.
def Each (step : σ → κ → Option σ) (p : σ → κ → σ → Prop) : σ → List κ → Prop
  | _,[] => True
  | s,event :: rest => ∀ t, step s event = some t → p s event t ∧ Each step p t rest

theorem Each.at (each : Each step p s (past ++ event :: rest)) (ran : run step s past = some t)
    (taken : step t event = some u) : p t event u := by
  induction past generalizing s with
  | nil =>
    cases ran
    exact (each u taken).1
  | cons first past ih =>
    obtain ⟨middle,moved,onward⟩ := Option.bind_eq_some_iff.mp ran
    exact ih (each middle moved).2 onward

theorem each_none (refused : step s event = none) : Each step p s (event :: rest) := by
  intro t taken
  rw [refused] at taken
  cases taken

theorem each_some (taken : step s event = some t) :
    Each step p s (event :: rest) ↔ p s event t ∧ Each step p t rest := by
  constructor
  · intro each
    exact each t taken
  · intro both u moved
    cases taken.symm.trans moved
    exact both

instance decidableEach [∀ s event t, Decidable (p s event t)] : ∀ s events, Decidable (Each step p s events)
  | _,[] => .isTrue trivial
  | s,event :: rest =>
    match taken : step s event with
    | none => .isTrue (each_none taken)
    | some t => @decidable_of_iff _ _ (each_some taken).symm (@instDecidableAnd _ _ _ (decidableEach t rest))

theorem each_of {inv : σ → Prop} (first : inv s)
    (kept : ∀ s event t, inv s → step s event = some t → p s event t → inv t ∧ q s event t)
    (each : Each step p s events) : Each step q s events := by
  induction events generalizing s with
  | nil => trivial
  | cons event rest ih =>
    intro t taken
    obtain ⟨wanted,onward⟩ := each t taken
    obtain ⟨valid,good⟩ := kept s event t first taken wanted
    exact ⟨good,ih valid onward⟩

theorem each_iff (inv : σ → Prop) (first : inv s)
    (kept : ∀ s event t, inv s → step s event = some t → (p s event t ↔ q s event t) ∧ (p s event t → inv t)) :
    Each step p s events ↔ Each step q s events := by
  constructor
  · refine each_of first ?_
    intro s event t valid taken wanted
    obtain ⟨same,after⟩ := kept s event t valid taken
    exact ⟨after wanted,same.mp wanted⟩
  · refine each_of first ?_
    intro s event t valid taken wanted
    obtain ⟨same,after⟩ := kept s event t valid taken
    exact ⟨after (same.mpr wanted),same.mpr wanted⟩

theorem each_of_mem {good : σ → κ → Prop} (holds : ∀ event ∈ events, ∀ s, good s event) :
    Each step (fun s event _ => good s event) s events := by
  induction events generalizing s with
  | nil => trivial
  | cons event rest ih =>
    intro t _
    exact ⟨holds event (by simp) s,ih fun other listed => holds other (List.mem_cons_of_mem _ listed)⟩

theorem Each.mono (each : Each step p s events) (weaken : ∀ s event t, p s event t → q s event t) :
    Each step q s events := by
  induction events generalizing s with
  | nil => trivial
  | cons event rest ih =>
    intro t taken
    obtain ⟨strong,onward⟩ := each t taken
    exact ⟨weaken s event t strong,ih onward⟩

theorem invariant {inv : σ → Prop} (first : inv s) (kept : ∀ s event t, inv s → step s event = some t → inv t)
    (ran : run step s events = some t) : inv t := by
  induction events generalizing s with
  | nil =>
    cases ran
    exact first
  | cons event rest ih =>
    obtain ⟨middle,moved,onward⟩ := Option.bind_eq_some_iff.mp ran
    exact ih (kept s event middle first moved) onward

end Atomic.Machine
