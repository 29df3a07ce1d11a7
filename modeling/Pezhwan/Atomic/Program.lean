import Mathlib.Tactic.Common
import Mathlib.Logic.Relation

namespace Atomic

-- A call is a finite tree of atomic actions on a shared state. An action sees
-- the identity of the call that runs it and the state it finds; between two
-- actions of one call any other call may act.
inductive Prog (ι σ ε α : Type) where
  | done (result : Except ε α)
  | act (update : ι → σ → σ) (next : ι → σ → Prog ι σ ε α)

namespace Prog
variable {ι σ τ ε α β γ υ : Type}

def bind : Prog ι σ ε α → (α → Prog ι σ ε β) → Prog ι σ ε β
  | done (.ok value),f => f value
  | done (.error e),_ => done (.error e)
  | act update next,f => act update (fun i s => (next i s).bind f)

instance : Monad (Prog ι σ ε) where
  pure value := done (.ok value)
  bind := bind

def throw (e : ε) : Prog ι σ ε α := done (.error e)

-- The error of the body as a value, for callers that inspect it.
def attempt : Prog ι σ ε α → Prog ι σ ε (Except ε α)
  | done result => done (.ok result)
  | act update next => act update (fun i s => (next i s).attempt)

def atomic (f : ι → σ → α × σ) : Prog ι σ ε α :=
  act (fun i s => (f i s).2) (fun i s => done (.ok (f i s).1))

-- An operation that may be refused: a refused operation has no effect.
def tryAtomic (f : ι → σ → Except ε (α × σ)) : Prog ι σ ε α :=
  act (fun i s => match f i s with | .ok (_,s') => s' | .error _ => s)
    (fun i s => match f i s with | .ok (value,_) => done (.ok value) | .error e => done (.error e))

def forEach (body : β → Prog ι σ ε Unit) : List β → Prog ι σ ε Unit
  | [] => done (.ok ())
  | item :: rest => (body item).bind (fun _ => forEach body rest)

theorem bind_def (p : Prog ι σ ε α) (f : α → Prog ι σ ε β) : p >>= f = p.bind f := rfl

theorem bind_pure (p : Prog ι σ ε α) : p >>= Pure.pure = p := by
  induction p with
  | done result => cases result <;> rfl
  | act update next ih =>
    refine congrArg (act update) ?_
    funext i s
    exact ih i s

theorem map_bind (p : Prog ι σ ε α) (f : α → Prog ι σ ε β) (g : β → γ) :
    g <$> (p >>= f) = p >>= fun value => g <$> f value := by
  induction p with
  | done result => cases result <;> rfl
  | act update next ih =>
    refine congrArg (act update) ?_
    funext i s
    exact ih i s

-- Uninterrupted execution by call `i`.
def run (i : ι) : Prog ι σ ε α → σ → Except ε α × σ
  | done result,s => (result,s)
  | act update next,s => (next i s).run i (update i s)

def Returns (i : ι) (p : Prog ι σ ε α) (s : σ) (value : α) (t : σ) : Prop := p.run i s = (.ok value,t)

@[simp] theorem run_done (i : ι) (result : Except ε α) (s : σ) : (done result).run i s = (result,s) := rfl
@[simp] theorem run_pure (i : ι) (value : α) (s : σ) :
    (pure value : Prog ι σ ε α).run i s = (.ok value,s) := rfl
@[simp] theorem run_throw (i : ι) (e : ε) (s : σ) : (throw e : Prog ι σ ε α).run i s = (.error e,s) := rfl
@[simp] theorem run_atomic (i : ι) (f : ι → σ → α × σ) (s : σ) :
    (atomic f : Prog ι σ ε α).run i s = (.ok (f i s).1,(f i s).2) := rfl

theorem run_bind (i : ι) (p : Prog ι σ ε α) (f : α → Prog ι σ ε β) (s : σ) :
    (p >>= f).run i s = match p.run i s with
      | (.ok value,t) => (f value).run i t
      | (.error e,t) => (.error e,t) := by
  induction p generalizing s with
  | done result => cases result <;> rfl
  | act update next ih => exact ih i s (update i s)

theorem run_attempt (i : ι) (p : Prog ι σ ε α) (s : σ) :
    p.attempt.run i s = (.ok (p.run i s).1,(p.run i s).2) := by
  induction p generalizing s with
  | done result => rfl
  | act update next ih => exact ih i s (update i s)

theorem returns_bind {p : Prog ι σ ε α} {f : α → Prog ι σ ε β} :
    Returns i (p >>= f) s value t ↔ ∃ middle u, Returns i p s middle u ∧ Returns i (f middle) u value t := by
  unfold Returns
  rw [run_bind]
  constructor
  · intro returned
    split at returned
    · rename_i middle u first
      exact ⟨middle,u,first,returned⟩
    · cases returned
  · rintro ⟨middle,u,first,second⟩
    rw [first]
    exact second

theorem returns_pure {value result : α} :
    Returns i (pure value : Prog ι σ ε α) s result t ↔ value = result ∧ s = t := by
  simp [Returns]

theorem returns_throw {result : α} : ¬ Returns i (throw e : Prog ι σ ε α) s result t := by
  simp [Returns]

theorem returns_tryAtomic {f : ι → σ → Except ε (α × σ)} :
    Returns i (tryAtomic f) s value t ↔ f i s = .ok (value,t) := by
  simp only [Returns,tryAtomic,run]
  split
  · rename_i result s' ran
    simp [ran,Prod.ext_iff]
  · rename_i e ran
    simp [ran]

end Prog

variable {ι σ τ ε α β υ : Type}

-- What every action of every call is held to: a state invariant, the changes
-- call `i` may make, and the part of the state only call `i` itself changes.
structure Discipline (ι σ υ : Type) where
  inv : σ → Prop
  change : ι → σ → σ → Prop
  view : ι → σ → υ
  keeps : ∀ {i s t}, inv s → change i s t → inv t
  frame : ∀ {i j s t}, inv s → change i s t → j ≠ i → view j t = view j s

namespace Discipline
variable (d : Discipline ι σ υ)

-- `Safe i p v post`: started with view `v`, call `i` running `p` makes only
-- allowed changes, whatever the other calls do in between, and ends in `post`.
def Safe (i : ι) : Prog ι σ ε α → υ → (Except ε α → υ → Prop) → Prop
  | .done result,v,post => post result v
  | .act update next,v,post => ∀ s, d.inv s → d.view i s = v →
      d.change i s (update i s) ∧ Safe i (next i s) (d.view i (update i s)) post

variable {d}

theorem Safe.mono {p : Prog ι σ ε α} {v : υ} {post weaker : Except ε α → υ → Prop}
    (safe : d.Safe i p v post) (weaken : ∀ result u, post result u → weaker result u) :
    d.Safe i p v weaker := by
  induction p generalizing v with
  | done result => exact weaken _ _ safe
  | act update next ih =>
    intro s valid seen
    obtain ⟨changed,rest⟩ := safe s valid seen
    exact ⟨changed,ih _ _ rest⟩

theorem Safe.bind {p : Prog ι σ ε α} {f : α → Prog ι σ ε β} {v : υ} {post : Except ε β → υ → Prop}
    (safe : d.Safe i p v (fun result u => match result with
      | .ok value => d.Safe i (f value) u post
      | .error e => post (.error e) u)) :
    d.Safe i (p >>= f) v post := by
  induction p generalizing v with
  | done result => cases result <;> exact safe
  | act update next ih =>
    intro s valid seen
    obtain ⟨changed,rest⟩ := safe s valid seen
    exact ⟨changed,ih _ _ rest⟩

theorem Safe.map {p : Prog ι σ ε α} {f : α → β} {v : υ} {post : Except ε β → υ → Prop}
    (safe : d.Safe i p v (fun result u => post (f <$> result) u)) : d.Safe i (f <$> p) v post := by
  refine Safe.bind (safe.mono ?_)
  intro result u after
  cases result with
  | ok value => exact after
  | error e => exact after

theorem Safe.attempt {p : Prog ι σ ε α} {v : υ} {post : Except ε (Except ε α) → υ → Prop}
    (safe : d.Safe i p v (fun result u => post (.ok result) u)) : d.Safe i p.attempt v post := by
  induction p generalizing v with
  | done result => exact safe
  | act update next ih =>
    intro s valid seen
    obtain ⟨changed,rest⟩ := safe s valid seen
    exact ⟨changed,ih _ _ rest⟩

theorem Safe.pure {value : α} {v : υ} {post : Except ε α → υ → Prop} (holds : post (.ok value) v) :
    d.Safe i (Pure.pure value : Prog ι σ ε α) v post := holds

theorem Safe.throw {e : ε} {v : υ} {post : Except ε α → υ → Prop} (holds : post (.error e) v) :
    d.Safe i (Prog.throw e : Prog ι σ ε α) v post := holds

theorem Safe.atomic {f : ι → σ → α × σ} {v : υ} {post : Except ε α → υ → Prop}
    (step : ∀ s, d.inv s → d.view i s = v →
      d.change i s (f i s).2 ∧ post (.ok (f i s).1) (d.view i (f i s).2)) :
    d.Safe i (Prog.atomic f : Prog ι σ ε α) v post := step

theorem Safe.tryAtomic {f : ι → σ → Except ε (α × σ)} {v : υ} {post : Except ε α → υ → Prop}
    (idle : ∀ s, d.inv s → d.change i s s)
    (step : ∀ s, d.inv s → d.view i s = v → ∀ value t, f i s = .ok (value,t) →
      d.change i s t ∧ post (.ok value) (d.view i t))
    (refused : ∀ s, d.inv s → d.view i s = v → ∀ e, f i s = .error e → post (.error e) v) :
    d.Safe i (Prog.tryAtomic f) v post := by
  intro s valid seen
  cases ran : f i s with
  | ok result =>
    simp only [ran]
    exact step s valid seen _ _ ran
  | error e =>
    simp only [ran]
    exact ⟨idle s valid,seen.symm ▸ refused s valid seen e ran⟩

theorem Safe.forEach {body : β → Prog ι σ ε Unit} {items : List β} {v : υ}
    {post : Except ε Unit → υ → Prop} (holds : post (.ok ()) v)
    (each : ∀ item, d.Safe i (body item) v (fun result u => match result with
      | .ok _ => u = v
      | .error e => post (.error e) u)) :
    d.Safe i (Prog.forEach body items) v post := by
  induction items with
  | nil => exact holds
  | cons item rest ih =>
    refine Safe.bind ((each item).mono ?_)
    intro result u after
    cases result with
    | error e => exact after
    | ok value => cases after; exact ih

theorem Safe.run {p : Prog ι σ ε α} {post : Except ε α → υ → Prop} (valid : d.inv s)
    (safe : d.Safe i p (d.view i s) post) :
    post (p.run i s).1 (d.view i (p.run i s).2) ∧ Relation.ReflTransGen (d.change i) s (p.run i s).2 := by
  induction p generalizing s with
  | done result => exact ⟨safe,.refl⟩
  | act update next ih =>
    obtain ⟨changed,rest⟩ := safe s valid rfl
    obtain ⟨ended,path⟩ := ih i s (d.keeps valid changed) rest
    exact ⟨ended,.head changed path⟩

-- Interference: between the actions of call `i` the rest of the world moves
-- the state by `other`.
inductive Exec (other : σ → σ → Prop) (i : ι) : Prog ι σ ε α → σ → Except ε α → σ → Prop where
  | done : Exec other i (.done result) s result s
  | other : other s s' → Exec other i p s' result t → Exec other i p s result t
  | act : Exec other i (next i s) (update i s) result t → Exec other i (.act update next) s result t

theorem Safe.exec {p : Prog ι σ ε α} {post : Except ε α → υ → Prop}
    (quiet : ∀ {s t}, d.inv s → other s t → d.inv t ∧ d.view i t = d.view i s)
    (ran : Exec other i p s result t) (valid : d.inv s) (safe : d.Safe i p (d.view i s) post) :
    post result (d.view i t) := by
  induction ran with
  | done => exact safe
  | other moved _ ih =>
    obtain ⟨kept,same⟩ := quiet valid moved
    exact ih kept (same ▸ safe)
  | act _ ih =>
    obtain ⟨changed,rest⟩ := safe _ valid rfl
    exact ih (d.keeps valid changed) rest

theorem exec_run (i : ι) (p : Prog ι σ ε α) (s : σ) (other : σ → σ → Prop) :
    Exec other i p s (p.run i s).1 (p.run i s).2 := by
  induction p generalizing s with
  | done result => exact .done
  | act update next ih => exact .act (ih i s _)

end Discipline

end Atomic
