import Pezhwan.Atomic.Program

namespace Atomic
variable {ι κ σ ε α υ : Type} [DecidableEq ι]

-- Any number of calls over one state. A finished call keeps its result, so a
-- configuration also records what has been returned so far.
structure Config (ι κ σ ε α : Type) where
  state : σ
  calls : ι → Option (κ × Prog ι σ ε α)

namespace Config

def start (s : σ) : Config ι κ σ ε α := ⟨s,fun _ => none⟩

def Finished (c : Config ι κ σ ε α) (i : ι) (call : κ) (result : Except ε α) : Prop :=
  c.calls i = some (call,.done result)

-- One move: a call starts, a started call performs its next action, or the
-- surroundings change the state. `permit` restricts the runs considered.
inductive Step (program : κ → Prog ι σ ε α) (other permit : σ → σ → Prop) :
    Config ι κ σ ε α → Config ι κ σ ε α → Prop where
  | start (i : ι) (call : κ) (free : c.calls i = none) :
      Step program other permit c {c with calls := Function.update c.calls i (some (call,program call))}
  | act {c : Config ι κ σ ε α} {call : κ} {update : ι → σ → σ} {next : ι → σ → Prog ι σ ε α} (i : ι)
      (running : c.calls i = some (call,.act update next)) (permitted : permit c.state (update i c.state)) :
      Step program other permit c ⟨update i c.state,Function.update c.calls i (some (call,next i c.state))⟩
  | other (moved : other c.state s) : Step program other permit c {c with state := s}

abbrev Runs (program : κ → Prog ι σ ε α) (other permit : σ → σ → Prop) :=
  Relation.ReflTransGen (Step program other permit)

variable {program : κ → Prog ι σ ε α} {other permit : σ → σ → Prop}

theorem Step.free (step : Step program other permit c c') (free : c'.calls i = none) : c.calls i = none := by
  cases step with
  | start j call _ | act j _ _ =>
    by_cases same : i = j
    · subst same; simp at free
    · simpa [same] using free
  | other _ => exact free

theorem Step.finished (step : Step program other permit c c') (finished : c.Finished i call result) :
    c'.Finished i call result := by
  unfold Finished at finished ⊢
  cases step with
  | start j started free =>
    have other : i ≠ j := by rintro rfl; simp [free] at finished
    simpa [other] using finished
  | act j running _ =>
    have other : i ≠ j := by rintro rfl; simp [running] at finished
    simpa [other] using finished
  | other _ => exact finished

theorem Runs.finished (path : Runs program other permit c c') (finished : c.Finished i call result) :
    c'.Finished i call result := by
  induction path with
  | refl => exact finished
  | tail _ step ih => exact step.finished ih

-- The rule for whole pools. Calls start with an untouched view, and the
-- surroundings respect the discipline as the calls do.
structure Sound (d : Discipline ι σ υ) (program : κ → Prog ι σ ε α) (other : σ → σ → Prop)
    (blank : υ) (post : ι → κ → Except ε α → υ → Prop) : Prop where
  safe : ∀ i call, d.Safe i (program call) blank (post i call)
  quiet : ∀ {s t}, d.inv s → other s t → d.inv t ∧ ∀ i, d.view i t = d.view i s

structure Held (d : Discipline ι σ υ) (blank : υ) (post : ι → κ → Except ε α → υ → Prop)
    (c : Config ι κ σ ε α) : Prop where
  inv : d.inv c.state
  idle : ∀ i, c.calls i = none → d.view i c.state = blank
  busy : ∀ i call p, c.calls i = some (call,p) → d.Safe i p (d.view i c.state) (post i call)

variable {d : Discipline ι σ υ} {blank : υ} {post : ι → κ → Except ε α → υ → Prop}

theorem held_step (sound : Sound d program other blank post) (held : Held d blank post c)
    (step : Step program other permit c c') : Held d blank post c' := by
  cases step with
  | start i call free =>
    refine ⟨held.inv,?_,?_⟩
    · intro j none
      by_cases same : j = i
      · subst same; simp at none
      · exact held.idle j (by simpa [same] using none)
    · intro j call' p running
      by_cases same : j = i
      · subst same
        simp only [Function.update_self,Option.some.injEq,Prod.mk.injEq] at running
        obtain ⟨rfl,rfl⟩ := running
        rw [held.idle j free]
        exact sound.safe j call
      · exact held.busy j call' p (by simpa [same] using running)
  | @act c call update next i running permitted =>
    obtain ⟨changed,rest⟩ := held.busy i call _ running c.state held.inv rfl
    refine ⟨d.keeps held.inv changed,?_,?_⟩
    · intro j none
      by_cases same : j = i
      · subst same; simp at none
      · rw [d.frame held.inv changed same]
        exact held.idle j (by simpa [same] using none)
    · intro j call' p continued
      by_cases same : j = i
      · subst same
        simp only [Function.update_self,Option.some.injEq,Prod.mk.injEq] at continued
        obtain ⟨rfl,rfl⟩ := continued
        exact rest
      · rw [d.frame held.inv changed same]
        exact held.busy j call' p (by simpa [same] using continued)
  | other moved =>
    obtain ⟨kept,same⟩ := sound.quiet held.inv moved
    refine ⟨kept,?_,?_⟩
    · intro i none; rw [same i]; exact held.idle i none
    · intro i call p running; rw [same i]; exact held.busy i call p running

theorem held_runs (sound : Sound d program other blank post) (held : Held d blank post c)
    (path : Runs program other permit c c') : Held d blank post c' := by
  induction path with
  | refl => exact held
  | tail _ step ih => exact held_step sound ih step

omit [DecidableEq ι] in
theorem held_start (valid : d.inv s) (untouched : ∀ i, d.view i s = blank) :
    Held d blank post (start s : Config ι κ σ ε α) := by
  refine ⟨valid,fun i _ => untouched i,?_⟩
  intro i call p running
  simp [start] at running

omit [DecidableEq ι] in
theorem Held.finished (held : Held d blank post c) (finished : c.Finished i call result) :
    post i call result (d.view i c.state) :=
  held.busy i call _ finished

omit [DecidableEq ι] in
theorem Held.foreseen (held : Held d blank post c) (running : c.calls i = some (call,p)) :
    ∃ result t, post i call result (d.view i t) ∧ Relation.ReflTransGen (d.change i) c.state t := by
  obtain ⟨ended,path⟩ := (held.busy i call p running).run held.inv
  exact ⟨_,_,ended,path⟩

theorem invariant_runs {further : σ → Prop} (sound : Sound d program other blank post)
    (kept : ∀ {i s t}, d.inv s → further s → d.change i s t → permit s t → further t)
    (quiet : ∀ {s t}, d.inv s → further s → other s t → further t)
    (held : Held d blank post c) (initial : further c.state) (path : Runs program other permit c c') :
    further c'.state := by
  induction path with
  | refl => exact initial
  | @tail middle last path step ih =>
    have heldMiddle := held_runs sound held path
    cases step with
    | start i call free => exact ih
    | @act _ call update next i running permitted =>
      obtain ⟨changed,_⟩ := heldMiddle.busy i call _ running _ heldMiddle.inv rfl
      exact kept heldMiddle.inv ih changed permitted
    | other moved => exact quiet heldMiddle.inv ih moved

-- A concrete schedule, to exhibit a run.
inductive Move (ι κ : Type) where
  | start (i : ι) (call : κ)
  | act (i : ι)

variable (program) in
def advance (allowed : σ → σ → Bool) (c : Config ι κ σ ε α) : Move ι κ → Option (Config ι κ σ ε α)
  | .start i call => match c.calls i with
    | none => some {c with calls := Function.update c.calls i (some (call,program call))}
    | some _ => none
  | .act i => match c.calls i with
    | some (call,.act update next) =>
      if allowed c.state (update i c.state) then
        some ⟨update i c.state,Function.update c.calls i (some (call,next i c.state))⟩
      else none
    | _ => none

variable (program) in
def play (allowed : σ → σ → Bool) (c : Config ι κ σ ε α) : List (Move ι κ) → Option (Config ι κ σ ε α)
  | [] => some c
  | move :: rest => (advance program allowed c move).bind (play allowed · rest)

theorem advance_step (admits : ∀ s t, allowed s t = true → permit s t)
    (advanced : advance program allowed c move = some c') : Step program other permit c c' := by
  cases move with
  | start i call =>
    simp only [advance] at advanced
    split at advanced
    · rename_i free; cases advanced; exact .start i call free
    · cases advanced
  | act i =>
    simp only [advance] at advanced
    split at advanced
    · rename_i running
      split at advanced
      · rename_i fine; cases advanced; exact .act i running (admits _ _ fine)
      · cases advanced
    · cases advanced

theorem play_runs (admits : ∀ s t, allowed s t = true → permit s t)
    (played : play program allowed c moves = some c') : Runs program other permit c c' := by
  induction moves generalizing c with
  | nil => cases played; exact .refl
  | cons move rest ih =>
    obtain ⟨next,first,remaining⟩ := Option.bind_eq_some_iff.mp played
    exact .head (advance_step admits first) (ih remaining)

theorem play_exists {check : Config ι κ σ ε α → Bool} (admits : ∀ s t, allowed s t = true → permit s t)
    (passed : (play program allowed c moves).any check = true) :
    ∃ c', Runs program other permit c c' ∧ check c' = true := by
  cases played : play program allowed c moves with
  | none => rw [played] at passed; cases passed
  | some c' =>
    rw [played] at passed
    exact ⟨c',play_runs admits played,passed⟩

def finishedWith [DecidableEq κ] [DecidableEq ε] [DecidableEq α] (c : Config ι κ σ ε α) (i : ι) (call : κ)
    (result : Except ε α) : Bool :=
  match c.calls i with
  | some (call',.done result') => decide (call' = call) && decide (result' = result)
  | _ => false

omit [DecidableEq ι] in
theorem finishedWith_finished [DecidableEq κ] [DecidableEq ε] [DecidableEq α] {c : Config ι κ σ ε α}
    (finished : c.finishedWith i call result = true) : c.Finished i call result := by
  unfold finishedWith at finished
  split at finished
  · rename_i call' result' running
    simp only [Bool.and_eq_true,decide_eq_true_eq] at finished
    rw [finished.1,finished.2] at running
    exact running
  · cases finished

end Config
end Atomic
