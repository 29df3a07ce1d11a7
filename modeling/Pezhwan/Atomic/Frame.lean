import Pezhwan.Atomic.Focus
import Mathlib.Logic.Relation

namespace Atomic.Prog
variable {ι σ τ ε α β : Type}

-- Every action of the program, in whatever state it runs, moves the state by `r`.
def Keeps (r : σ → σ → Prop) : Prog ι σ ε α → Prop
  | done _ => True
  | act update next => ∀ i s, r s (update i s) ∧ Keeps r (next i s)

variable {r : σ → σ → Prop}

theorem Keeps.mono {q : σ → σ → Prop} {p : Prog ι σ ε α} (keeps : p.Keeps r) (weaken : ∀ {s t}, r s t → q s t) :
    p.Keeps q := by
  induction p with
  | done result => trivial
  | act update next ih =>
    intro i s
    exact ⟨weaken (keeps i s).1,ih i s (keeps i s).2⟩

theorem Keeps.and {q : σ → σ → Prop} {p : Prog ι σ ε α} (one : p.Keeps r) (other : p.Keeps q) :
    p.Keeps fun s t => r s t ∧ q s t := by
  induction p with
  | done result => trivial
  | act update next ih =>
    intro i s
    exact ⟨⟨(one i s).1,(other i s).1⟩,ih i s (one i s).2 (other i s).2⟩

theorem Keeps.bind {p : Prog ι σ ε α} {f : α → Prog ι σ ε β} (first : p.Keeps r) (rest : ∀ value, (f value).Keeps r) :
    (p >>= f).Keeps r := by
  induction p with
  | done result =>
    cases result with
    | ok value => exact rest value
    | error e => trivial
  | act update next ih =>
    intro i s
    exact ⟨(first i s).1,ih i s (first i s).2⟩

theorem Keeps.attempt {p : Prog ι σ ε α} (keeps : p.Keeps r) : p.attempt.Keeps r := by
  induction p with
  | done result => trivial
  | act update next ih =>
    intro i s
    exact ⟨(keeps i s).1,ih i s (keeps i s).2⟩

theorem Keeps.pure (value : α) : (Pure.pure value : Prog ι σ ε α).Keeps r := trivial

theorem Keeps.throw (e : ε) : (Prog.throw e : Prog ι σ ε α).Keeps r := trivial

theorem Keeps.any (p : Prog ι σ ε α) : p.Keeps fun _ _ => True := by
  induction p with
  | done result => trivial
  | act update next ih => exact fun i s => ⟨trivial,ih i s⟩

theorem Keeps.atomic {f : ι → σ → α × σ} (step : ∀ i s, r s (f i s).2) : (Prog.atomic f : Prog ι σ ε α).Keeps r :=
  fun i s => ⟨step i s,trivial⟩

theorem Keeps.tryAtomic {f : ι → σ → Except ε (α × σ)} (idle : ∀ s, r s s)
    (step : ∀ i s value t, f i s = .ok (value,t) → r s t) : (Prog.tryAtomic f).Keeps r := by
  intro i s
  cases ran : f i s with
  | ok result =>
    simp only [ran]
    exact ⟨step i s _ _ ran,trivial⟩
  | error e =>
    simp only [ran]
    exact ⟨idle s,trivial⟩

theorem Keeps.forEach {body : β → Prog ι σ ε Unit} (each : ∀ item, (body item).Keeps r) (items : List β) :
    (Prog.forEach body items).Keeps r := by
  induction items with
  | nil => trivial
  | cons item rest ih => exact Keeps.bind (each item) fun _ => ih

theorem Keeps.run {p : Prog ι σ ε α} (keeps : p.Keeps r) (refl : ∀ s, r s s) (trans : ∀ {a b c}, r a b → r b c → r a c)
    (i : ι) (s : σ) : r s (p.run i s).2 := by
  induction p generalizing s with
  | done result => exact refl s
  | act update next ih => exact trans (keeps i s).1 (ih i s (keeps i s).2 _)

variable {l : Lens σ τ}

theorem Keeps.zoom {q : τ → τ → Prop} {p : Prog ι τ ε α} (keeps : p.Keeps q)
    (lift : ∀ s t, q (l.get s) t → r s (l.set t s)) : (p.zoom l).Keeps r := by
  induction p with
  | done result => trivial
  | act update next ih =>
    intro i s
    obtain ⟨moved,rest⟩ := keeps i (l.get s)
    exact ⟨lift s _ moved,ih i (l.get s) rest⟩

theorem Keeps.buffered {p : Prog ι σ ε α} (keeps : p.Keeps r)
    (blind : ∀ a b s t, r (l.set a s) t → r s (l.set b t)) (copy : τ) : (p.buffered l copy).Keeps r := by
  induction p generalizing copy with
  | done result => cases result <;> trivial
  | act update next ih =>
    intro i s
    obtain ⟨moved,rest⟩ := keeps i (l.set copy s)
    exact ⟨blind copy _ s _ moved,ih i _ rest _⟩

theorem Keeps.buffered_part {p : Prog ι σ ε α} (keeps : p.Keeps r)
    (blind : ∀ a b s t, r (l.set a s) t → r s (l.set b t)) (copy : τ) :
    (p.buffered l copy).Keeps fun s t => r s t ∧ l.get t = l.get s := by
  induction p generalizing copy with
  | done result => cases result <;> trivial
  | act update next ih =>
    intro i s
    obtain ⟨moved,rest⟩ := keeps i (l.set copy s)
    exact ⟨⟨blind copy _ s _ moved,by simp⟩,ih i _ rest _⟩

theorem Keeps.transaction {p : Prog ι σ ε α} {commit : τ → τ → Prog ι σ ε Unit} (keeps : p.Keeps r)
    (idle : ∀ s, r s s) (blind : ∀ a b s t, r (l.set a s) t → r s (l.set b t))
    (commits : ∀ snapshot copy, (commit snapshot copy).Keeps r) : (p.transaction l commit).Keeps r := by
  refine Keeps.bind (Keeps.atomic fun _ s => idle s) fun snapshot => ?_
  refine Keeps.bind (keeps.buffered blind snapshot) fun result => ?_
  exact Keeps.bind (commits _ _) fun _ => Keeps.pure _

-- Every value the program can return satisfies `P`.
def Yields (P : α → Prop) : Prog ι σ ε α → Prop
  | done (.ok value) => P value
  | done (.error _) => True
  | act _ next => ∀ i s, Yields P (next i s)

theorem Yields.bind {P : α → Prop} {Q : β → Prop} {p : Prog ι σ ε α} {f : α → Prog ι σ ε β} (first : p.Yields P)
    (rest : ∀ value, P value → (f value).Yields Q) : (p >>= f).Yields Q := by
  induction p with
  | done result =>
    cases result with
    | ok value => exact rest value first
    | error e => trivial
  | act update next ih =>
    intro i s
    exact ih i s (first i s)

theorem Yields.any (p : Prog ι σ ε α) : p.Yields fun _ => True := by
  induction p with
  | done result => cases result <;> trivial
  | act update next ih => exact ih

theorem Yields.tryAtomic {f : ι → σ → Except ε (α × σ)} {P : α → Prop}
    (step : ∀ i s value t, f i s = .ok (value,t) → P value) : (Prog.tryAtomic f).Yields P := by
  intro i s
  cases ran : f i s with
  | ok result =>
    simp only [ran]
    exact step i s _ _ ran
  | error e =>
    simp only [ran]
    trivial

theorem Yields.pure {P : α → Prop} {value : α} (holds : P value) : (Pure.pure value : Prog ι σ ε α).Yields P := holds

theorem Yields.throw {P : α → Prop} (e : ε) : (Prog.throw e : Prog ι σ ε α).Yields P := trivial

theorem Yields.buffered_tryAtomic {f : ι → σ → Except ε (α × σ)} {copy : τ} {P : α × τ → Prop}
    (step : ∀ i s value t, f i (l.set copy s) = .ok (value,t) → P (value,l.get t)) :
    ((Prog.tryAtomic f).buffered l copy).Yields P := by
  intro i s
  cases ran : f i (l.set copy s) with
  | ok result =>
    simp only [ran]
    exact step i s _ _ ran
  | error e =>
    simp only [ran]
    trivial

theorem Yields.zoom {P : α → Prop} {p : Prog ι τ ε α} (yields : p.Yields P) : (p.zoom l).Yields P := by
  induction p with
  | done result => cases result <;> exact yields
  | act update next ih => exact fun i s => ih i (l.get s) (yields i (l.get s))

end Atomic.Prog

-- Executions with interference, taken apart.
namespace Atomic.Discipline
open Relation
variable {ι σ τ ε α β : Type} {other : σ → σ → Prop}

theorem exec_others {p : Prog ι σ ε α} (moved : ReflTransGen other s w) (ran : Exec other i p w result t) :
    Exec other i p s result t := by
  induction moved using ReflTransGen.head_induction_on with
  | refl => exact ran
  | head step _ ih => exact .other step ih

theorem exec_trailing {p : Prog ι σ ε α} (ran : Exec other i p s result u) (moved : ReflTransGen other u t) :
    Exec other i p s result t := by
  induction ran with
  | done => exact exec_others moved .done
  | other step _ ih => exact .other step (ih moved)
  | act _ ih => exact .act (ih moved)

theorem exec_done (ran : Exec other i (.done expected : Prog ι σ ε α) s result t) :
    result = expected ∧ ReflTransGen other s t := by
  generalize same : (Prog.done expected : Prog ι σ ε α) = p at ran
  induction ran with
  | done => cases same; exact ⟨rfl,.refl⟩
  | other moved _ ih =>
    obtain ⟨equal,rest⟩ := ih same
    exact ⟨equal,.head moved rest⟩
  | act _ _ => cases same

theorem exec_act {update : ι → σ → σ} {next : ι → σ → Prog ι σ ε α}
    (ran : Exec other i (.act update next) s result t) :
    ∃ w, ReflTransGen other s w ∧ Exec other i (next i w) (update i w) result t := by
  generalize same : Prog.act update next = p at ran
  induction ran with
  | done => cases same
  | other moved _ ih =>
    obtain ⟨w,path,rest⟩ := ih same
    exact ⟨w,.head moved path,rest⟩
  | act rest _ => cases same; exact ⟨_,.refl,rest⟩

theorem exec_bind {p : Prog ι σ ε α} {f : α → Prog ι σ ε β} (ran : Exec other i (p >>= f) s (.ok value) t) :
    ∃ middle u, Exec other i p s (.ok middle) u ∧ Exec other i (f middle) u (.ok value) t := by
  induction p generalizing s with
  | done result =>
    cases result with
    | ok middle => exact ⟨middle,s,.done,ran⟩
    | error e => cases (exec_done ran).1
  | act update next ih =>
    obtain ⟨w,path,rest⟩ := exec_act ran
    obtain ⟨middle,u,first,second⟩ := ih i w rest
    exact ⟨middle,u,exec_others path (.act first),second⟩

theorem exec_pure {value : α} (ran : Exec other i (pure expected : Prog ι σ ε α) s (.ok value) t) :
    value = expected ∧ ReflTransGen other s t := by
  obtain ⟨same,path⟩ := exec_done ran
  exact ⟨Except.ok.inj same,path⟩

theorem exec_throw {value : α} : ¬ Exec other i (Prog.throw e : Prog ι σ ε α) s (.ok value) t := by
  intro ran
  cases (exec_done ran).1

theorem exec_attempt {p : Prog ι σ ε α} (ran : Exec other i p.attempt s (.ok result) t) : Exec other i p s result t := by
  induction p generalizing s with
  | done expected =>
    obtain ⟨same,path⟩ := exec_done ran
    cases same
    exact exec_others path .done
  | act update next ih =>
    obtain ⟨w,path,rest⟩ := exec_act ran
    exact exec_others path (.act (ih i w rest))

theorem exec_tryAtomic {f : ι → σ → Except ε (α × σ)} (ran : Exec other i (Prog.tryAtomic f) s (.ok value) t) :
    ∃ w u, ReflTransGen other s w ∧ f i w = .ok (value,u) ∧ ReflTransGen other u t := by
  obtain ⟨w,path,rest⟩ := exec_act ran
  cases served : f i w with
  | ok result =>
    simp only [served] at rest
    obtain ⟨same,after⟩ := exec_done rest
    cases same
    exact ⟨w,result.2,path,served,after⟩
  | error e =>
    simp only [served] at rest
    cases (exec_done rest).1

theorem exec_yields {p : Prog ι σ ε α} {P : α → Prop} (yields : p.Yields P) (ran : Exec other i p s (.ok value) t) :
    P value := by
  induction p generalizing s with
  | done expected =>
    obtain ⟨same,_⟩ := exec_done ran
    cases same
    exact yields
  | act update next ih =>
    obtain ⟨w,_,rest⟩ := exec_act ran
    exact ih i w (yields i w) rest

theorem returns_exec {p : Prog ι σ ε α} (ran : Prog.Returns i p s value t) : Exec other i p s (.ok value) t := by
  have whole := exec_run i p s other
  rw [ran] at whole
  exact whole

theorem others_alone (path : ReflTransGen (fun _ _ : σ => False) s t) : t = s := by
  induction path with
  | refl => rfl
  | tail _ step _ => exact step.elim

theorem exec_alone {p : Prog ι σ ε α} (ran : Exec (fun _ _ => False) i p s result t) : p.run i s = (result,t) := by
  induction ran with
  | done => rfl
  | other moved _ _ => exact moved.elim
  | act _ ih => exact ih

-- What the call's own actions and the interference have in common.
structure Link (own other r : σ → σ → Prop) : Prop where
  refl : ∀ s, r s s
  trans : ∀ {a b c}, r a b → r b c → r a c
  own : ∀ {s t}, own s t → r s t
  other : ∀ {s t}, other s t → r s t

variable {own r : σ → σ → Prop}

theorem Link.others (link : Link own other r) (path : ReflTransGen other s t) : r s t := by
  induction path with
  | refl => exact link.refl _
  | tail _ step ih => exact link.trans ih (link.other step)

theorem Link.exec (link : Link own other r) {p : Prog ι σ ε α} (keeps : p.Keeps own)
    (ran : Exec other i p s result t) : r s t := by
  induction ran with
  | done => exact link.refl _
  | other moved _ ih => exact link.trans (link.other moved) (ih keeps)
  | act _ ih =>
    obtain ⟨moved,rest⟩ := keeps _ _
    exact link.trans (link.own moved) (ih rest)

end Atomic.Discipline
