import Mathlib.Logic.Basic
import Pezhwan.Atomic.Focus
import Pezhwan.Atomic.Trace

namespace Atomic.Prog
variable {ι σ τ ε α : Type}

-- An operation that may have had its effect although it reports an error.
def effect (f : ι → σ → Except ε α × σ) : Prog ι σ ε α := act (fun i s => (f i s).2) (fun i s => done (f i s).1)

@[simp] theorem run_effect (i : ι) (f : ι → σ → Except ε α × σ) (s : σ) : (effect f).run i s = f i s := rfl

theorem Keeps.effect {f : ι → σ → Except ε α × σ} {r : σ → σ → Prop} (step : ∀ i s, r s (f i s).2) :
    (Prog.effect f).Keeps r := fun i s => ⟨step i s,trivial⟩

theorem Acts.effect {inv : σ → Prop} {rule : List (σ × σ) → σ → σ → Prop} {f : ι → σ → Except ε α × σ}
    {post : Except ε α → List (σ × σ) → Prop}
    (step : ∀ s, inv s → rule memory s (f i s).2 ∧ post (f i s).1 ((s,(f i s).2) :: memory)) :
    Acts inv i rule (Prog.effect f) memory post := step

-- The moves of a zoomed program, and what they are in its part.
def Framed (l : Lens σ τ) (moves : List (σ × σ)) : Prop := ∀ move ∈ moves, move.2 = l.set (l.get move.2) move.1

def parts (l : Lens σ τ) (moves : List (σ × σ)) : List (τ × τ) := moves.map fun move => (l.get move.1,l.get move.2)

theorem Acts.zoom_after {l : Lens σ τ} {inv : σ → Prop} {valid : τ → Prop} {rule : List (σ × σ) → σ → σ → Prop}
    {step : List (τ × τ) → τ → τ → Prop} {p : Prog ι τ ε α} {post : Except ε α → List (σ × σ) → Prop}
    {ended : Except ε α → List (τ × τ) → Prop} (made : List (σ × σ)) (framed : Framed l made)
    (acts : p.Acts valid i step (parts l made) ended) (part : ∀ s, inv s → valid (l.get s))
    (lift : ∀ more s t, Framed l more → step (parts l more) (l.get s) t → rule (more ++ memory) s (l.set t s))
    (finish : ∀ result more, Framed l more → ended result (parts l more) → post result (more ++ memory)) :
    Acts inv i rule (p.zoom l) (made ++ memory) post := by
  induction p generalizing made with
  | done result => exact finish result made framed acts
  | act update next ih =>
    intro s holds
    obtain ⟨stepped,rest⟩ := acts (l.get s) (part s holds)
    refine ⟨lift made s _ framed stepped,ih i (l.get s) ((s,l.set (update i (l.get s)) s) :: made) ?_ ?_⟩
    · intro move listed
      rcases List.mem_cons.mp listed with rfl | earlier
      · exact congrArg (l.set · s) (l.get_set _ _).symm
      · exact framed move earlier
    · simpa only [parts,List.map_cons,l.get_set] using rest

theorem Acts.zoom {l : Lens σ τ} {inv : σ → Prop} {valid : τ → Prop} {rule : List (σ × σ) → σ → σ → Prop}
    {step : List (τ × τ) → τ → τ → Prop} {p : Prog ι τ ε α} {post : Except ε α → List (σ × σ) → Prop}
    {ended : Except ε α → List (τ × τ) → Prop} (acts : p.Acts valid i step [] ended) (part : ∀ s, inv s → valid (l.get s))
    (lift : ∀ more s t, Framed l more → step (parts l more) (l.get s) t → rule (more ++ memory) s (l.set t s))
    (finish : ∀ result more, Framed l more → ended result (parts l more) → post result (more ++ memory)) :
    Acts inv i rule (p.zoom l) memory post :=
  Acts.zoom_after [] (fun _ listed => nomatch listed) acts part lift finish

theorem run_bind_ok {p : Prog ι σ ε α} {f : α → Prog ι σ ε β} (ran : p.run i s = (.ok value,t)) :
    (p >>= f).run i s = (f value).run i t := by
  rw [run_bind,ran]

theorem run_bind_error {p : Prog ι σ ε α} {f : α → Prog ι σ ε β} (ran : p.run i s = (.error e,t)) :
    (p >>= f).run i s = (.error e,t) := by
  rw [run_bind,ran]

theorem run_bind_attempt {p : Prog ι σ ε α} {f : Except ε α → Prog ι σ ε β} (ran : p.run i s = (result,t)) :
    (p.attempt >>= f).run i s = (f result).run i t := by
  rw [run_bind,run_attempt,ran]

@[simp] theorem run_map (i : ι) (g : α → β) (p : Prog ι σ ε α) (s : σ) :
    (g <$> p).run i s = ((p.run i s).1.map g,(p.run i s).2) := by
  change (p >>= fun value => Pure.pure (g value)).run i s = _
  rw [run_bind]
  cases p.run i s with
  | mk result t => cases result <;> rfl

-- Execution by call `i` amid surroundings that move before each of its actions,
-- the next one being the `n`-th.
def amid (i : ι) (surroundings : Nat → σ → σ) : Prog ι σ ε α → Nat → σ → Except ε α × σ
  | done result,_,s => (result,s)
  | act update next,n,s => (next i (surroundings n s)).amid i surroundings (n+1) (update i (surroundings n s))

section
variable {surroundings : Nat → σ → σ}

@[simp] theorem amid_pure (value : α) (n : Nat) (s : σ) :
    (pure value : Prog ι σ ε α).amid i surroundings n s = (.ok value,s) := rfl

@[simp] theorem amid_throw (e : ε) (n : Nat) (s : σ) :
    (throw e : Prog ι σ ε α).amid i surroundings n s = (.error e,s) := rfl

@[simp] theorem amid_atomic (f : ι → σ → α × σ) (n : Nat) (s : σ) :
    (atomic f : Prog ι σ ε α).amid i surroundings n s = (.ok (f i (surroundings n s)).1,(f i (surroundings n s)).2) := rfl

theorem amid_atomic_bind (f : ι → σ → α × σ) (g : α → Prog ι σ ε β) (n : Nat) (s : σ) :
    (atomic f >>= g).amid i surroundings n s =
      (g (f i (surroundings n s)).1).amid i surroundings (n+1) (f i (surroundings n s)).2 := rfl

@[simp] theorem amid_effect (f : ι → σ → Except ε α × σ) (n : Nat) (s : σ) :
    (effect f).amid i surroundings n s = f i (surroundings n s) := rfl

theorem amid_effect_bind (f : ι → σ → Except ε α × σ) (g : α → Prog ι σ ε β) (n : Nat) (s : σ) :
    (effect f >>= g).amid i surroundings n s = match f i (surroundings n s) with
      | (.ok value,t) => (g value).amid i surroundings (n+1) t
      | (.error e,t) => (.error e,t) := by
  change ((done (f i (surroundings n s)).1).bind g).amid i surroundings (n+1) (f i (surroundings n s)).2 = _
  cases f i (surroundings n s) with
  | mk result t => cases result <;> rfl

theorem amid_attempt_bind {P : Except ε β × σ → Prop} {p : Prog ι σ ε α} {g : Except ε α → Prog ι σ ε β} {n : Nat} {s : σ}
    (rest : ∀ m, P ((g (p.amid i surroundings n s).1).amid i surroundings m (p.amid i surroundings n s).2)) :
    P ((p.attempt >>= g).amid i surroundings n s) := by
  induction p generalizing n s with
  | done result => exact rest n
  | act update next ih => exact ih i (surroundings n s) rest

end

end Atomic.Prog

namespace Atomic
variable {κ σ ρ : Type}

-- A call that has been made: what it found, what it answered, what it left.
structure Entry (κ σ ρ : Type) where
  call : κ
  found : σ
  answer : ρ
  left : σ

-- Calls one after another, with all of them (newest first); the surroundings
-- move between two calls.
inductive History (perform : κ → σ → ρ × σ) (other : σ → σ → Prop) (initial : σ → Prop) :
    List (Entry κ σ ρ) → σ → Prop where
  | start (first : initial s) : History perform other initial [] s
  | call (past : History perform other initial log s) (call : κ) :
      History perform other initial (⟨call,s,(perform call s).1,(perform call s).2⟩ :: log) (perform call s).2
  | other (past : History perform other initial log s) (moved : other s t) : History perform other initial log t

namespace History
variable {perform : κ → σ → ρ × σ} {other : σ → σ → Prop} {initial : σ → Prop} {log : List (Entry κ σ ρ)}

theorem invariant {inv : List (Entry κ σ ρ) → σ → Prop} (first : ∀ s, initial s → inv [] s)
    (step : ∀ log s call, inv log s → inv (⟨call,s,(perform call s).1,(perform call s).2⟩ :: log) (perform call s).2)
    (quiet : ∀ log s t, inv log s → other s t → inv log t) (history : History perform other initial log s) :
    inv log s := by
  induction history with
  | start begun => exact first _ begun
  | call _ call ih => exact step _ _ call ih
  | other _ moved ih => exact quiet _ _ _ ih moved

theorem always {inv : σ → Prop} (first : ∀ s, initial s → inv s) (step : ∀ s call, inv s → inv (perform call s).2)
    (quiet : ∀ s t, inv s → other s t → inv t) (history : History perform other initial log s) : inv s :=
  history.invariant first (fun _ s call => step s call) (fun _ s t => quiet s t)

theorem before {newer older : List (Entry κ σ ρ)} {entry : Entry κ σ ρ}
    (history : History perform other initial (newer ++ entry :: older) s) :
    History perform other initial older entry.found ∧ entry.answer = (perform entry.call entry.found).1 ∧
      entry.left = (perform entry.call entry.found).2 := by
  generalize whole : newer ++ entry :: older = log at history
  induction history generalizing newer with
  | start _ => simp at whole
  | call past call ih =>
    cases newer with
    | nil =>
      simp only [List.nil_append,List.cons.injEq] at whole
      obtain ⟨rfl,rfl⟩ := whole
      exact ⟨past,rfl,rfl⟩
    | cons newest newer =>
      simp only [List.cons_append,List.cons.injEq] at whole
      exact ih whole.2
  | other _ _ ih => exact ih whole

end History

theorem find_split {p : α → Bool} {log : List α} (found : log.find? p = some entry) :
    ∃ newer older, log = newer ++ entry :: older ∧ p entry = true ∧ ∀ one ∈ newer, p one = false := by
  obtain ⟨hit,newer,older,split,missed⟩ := List.find?_eq_some_iff_append.mp found
  exact ⟨newer,older,split,hit,fun one listed => by simpa using missed one listed⟩

end Atomic

-- Calls on a state that may throw and keep what they have done so far.
namespace Atomic
variable {ε σ α β : Type}

abbrev Fallible (ε σ α : Type) := ExceptT ε (StateM σ) α

namespace Fallible

theorem bind_run (p : Fallible ε σ α) (f : α → Fallible ε σ β) (s : σ) :
    (p >>= f) s = match p s with
      | (.ok value,after) => f value after
      | (.error e,after) => (.error e,after) := by
  change (ExceptT.bindCont f (p s).1) (p s).2 = _
  cases p s with
  | mk result after => cases result <;> rfl

theorem map_run (p : Fallible ε σ α) (f : α → β) (s : σ) : ((f <$> p) s).2 = (p s).2 := by
  change ((p >>= fun value => Pure.pure (f value)) s).2 = _
  rw [bind_run]
  cases p s with
  | mk result after => cases result <;> rfl

theorem map_ok {p : Fallible ε σ α} {f : α → β} (told : ((f <$> p) s).1 = .ok reply) :
    ∃ value, (p s).1 = .ok value ∧ reply = f value := by
  change ((p >>= fun value => Pure.pure (f value)) s).1 = _ at told
  rw [bind_run] at told
  cases ran : p s with
  | mk result after =>
    rw [ran] at told
    cases result with
    | ok value =>
      cases told
      exact ⟨value,rfl,rfl⟩
    | error e => cases told

-- A property of the state that a call does not destroy.
def Keeps (P : σ → Prop) (p : Fallible ε σ α) : Prop := ∀ s, P s → P (p s).2

variable {P : σ → Prop}

theorem Keeps.pure (value : α) : Keeps P (Pure.pure value : Fallible ε σ α) := fun _ held => held

theorem Keeps.throw (e : ε) : Keeps P (MonadExcept.throw e : Fallible ε σ α) := fun _ held => held

theorem Keeps.bind {p : Fallible ε σ α} {f : α → Fallible ε σ β} (first : Keeps P p) (rest : ∀ value, Keeps P (f value)) :
    Keeps P (p >>= f) := by
  intro s held
  rw [bind_run]
  have after := first s held
  cases ran : p s with
  | mk result next =>
    rw [ran] at after
    cases result with
    | ok value => exact rest value next after
    | error e => exact after

end Fallible
end Atomic
