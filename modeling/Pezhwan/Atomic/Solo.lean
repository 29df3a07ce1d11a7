import Pezhwan.Atomic.Frame
import Pezhwan.Atomic.Pool

namespace Atomic
variable {ι σ τ ε α β υ : Type} [DecidableEq ι]

-- The first action of a call.
def Prog.opening (i : ι) : Prog ι σ ε α → σ → Prog ι σ ε α × σ
  | .done result,s => (.done result,s)
  | .act update next,s => (next i s,update i s)

namespace Discipline

omit [DecidableEq ι] in
theorem exec_first {other : σ → σ → Prop} {p : Prog ι σ ε α}
    (ran : Exec other i (p.opening i s).1 (p.opening i s).2 result t) : Exec other i p s result t := by
  cases p with
  | done expected => exact ran
  | act update next => exact .act ran

-- One call on a part of the state that nobody else touches while it runs.
def solo (i : ι) (part : σ → υ) (blank : υ) : Discipline ι σ υ where
  inv _ := True
  change j _ _ := j = i
  view j s := if j = i then part s else blank
  keeps _ _ := trivial
  frame := by
    intro j k s t _ mine other
    subst mine
    rw [if_neg other,if_neg other]

section
variable {i : ι} {part : σ → υ} {blank : υ} {v : υ}

@[simp] theorem solo_view (s : σ) : (solo i part blank).view i s = part s := if_pos rfl

theorem Safe.solo_exec {other : σ → σ → Prop} {p : Prog ι σ ε α} {post : Except ε α → υ → Prop}
    (quiet : ∀ {s t}, other s t → part t = part s) (ran : Exec other i p s result t)
    (safe : (solo i part blank).Safe i p (part s) post) : post result (part t) := by
  have seen : (solo i part blank).view i s = part s := solo_view s
  rw [← seen] at safe
  have ended := safe.exec (fun _ moved => ⟨trivial,by simp [quiet moved]⟩) ran trivial
  simpa using ended

theorem Safe.solo_keeps {p : Prog ι σ ε α} (keeps : p.Keeps fun s t => part t = part s) :
    (solo i part blank).Safe i p v fun _ u => u = v := by
  induction p with
  | done result => exact rfl
  | act update next ih =>
    intro s _ seen
    obtain ⟨same,rest⟩ := keeps i s
    rw [solo_view] at seen ⊢
    rw [same,seen]
    exact ⟨rfl,ih i s rest⟩

theorem Safe.solo_zoom {l : Lens σ τ} {part : τ → υ} {p : Prog ι τ ε α} {post : Except ε α → υ → Prop}
    (safe : (solo i part blank).Safe i p v post) :
    (solo i (fun s => part (l.get s)) blank).Safe i (p.zoom l) v post := by
  induction p generalizing v with
  | done result => exact safe
  | act update next ih =>
    intro s _ seen
    rw [solo_view] at seen ⊢
    obtain ⟨_,rest⟩ := safe (l.get s) trivial (by rw [solo_view]; exact seen)
    rw [solo_view] at rest
    rw [l.get_set]
    exact ⟨rfl,ih i _ rest⟩

theorem Safe.solo_transaction {l : Lens σ υ} {commit : υ → υ → Prog ι σ ε Unit} {body : Prog ι σ ε α}
    {ends : υ → α × υ → Prop} {post : Except ε α → υ → Prop} (yields : (body.buffered l v).Yields (ends v))
    (undone : ∀ e, post (.error e) v) (commits : ∀ result, ends v result →
      (solo i l.get blank).Safe i (commit v result.2) v fun done u => match done with
        | .ok _ => post (.ok result.1) u
        | .error e => post (.error e) u) :
    (solo i l.get blank).Safe i (body.transaction l commit) v post := by
  have private_ : ∀ copy, (body.buffered l copy).Yields (ends v) →
      (solo i l.get blank).Safe i (body.buffered l copy) v fun result u => u = v ∧ ∀ value, result = .ok value → ends v value := by
    clear yields
    induction body with
    | done result =>
      intro copy yields
      cases result with
      | ok value => exact ⟨rfl,fun _ same => Except.ok.inj same ▸ yields⟩
      | error e => exact ⟨rfl,fun _ same => nomatch same⟩
    | act update next ih =>
      intro copy yields s _ seen
      rw [solo_view] at seen ⊢
      rw [l.get_set,seen]
      exact ⟨rfl,ih i _ _ (yields i s)⟩
  refine Safe.bind (Safe.atomic ?_)
  intro s _ seen
  rw [solo_view] at seen ⊢
  refine ⟨rfl,?_⟩
  rw [seen]
  refine Safe.bind ((private_ v yields).mono ?_)
  intro result u holds
  obtain ⟨rfl,ended⟩ := holds
  cases result with
  | error e => exact undone e
  | ok value =>
    refine Safe.bind ((commits value (ended value rfl)).mono ?_)
    intro done w after
    cases done with
    | ok _ => exact after
    | error e => exact after

end
end Discipline
end Atomic

namespace Atomic
open Prog
variable {ι κ σ ε α β : Type}

namespace Prog
variable {i : ι} {s : σ}

theorem run_opening (p : Prog ι σ ε α) : p.run i s = (p.opening i s).1.run i (p.opening i s).2 := by
  cases p with
  | done result => rfl
  | act update next => rfl

theorem Yields.const {P : Prop} (holds : P) (p : Prog ι σ ε α) : p.Yields fun _ => P := by
  induction p with
  | done result => cases result with
    | ok value => exact holds
    | error e => trivial
  | act update next ih => exact fun i s => ih i s

theorem Yields.mono {P Q : α → Prop} {p : Prog ι σ ε α} (yields : p.Yields P) (weaken : ∀ {value}, P value → Q value) :
    p.Yields Q := by
  induction p with
  | done result => cases result with
    | ok value => exact weaken yields
    | error e => trivial
  | act update next ih => exact fun i s => ih i s (yields i s)

end Prog

namespace Config
variable [DecidableEq ι] {program : κ → Prog ι σ ε α} {other permit : σ → σ → Prop} {c c' : Config ι κ σ ε α}

theorem Runs.yields {P : α → Prop} (path : Runs program other permit c c') (running : c.calls i = some (call,p))
    (yields : p.Yields P) : ∃ q, c'.calls i = some (call,q) ∧ q.Yields P := by
  induction path with
  | refl => exact ⟨p,running,yields⟩
  | tail _ step ih =>
    obtain ⟨q,here,keeps⟩ := ih
    cases step with
    | start j started free =>
      have different : i ≠ j := by
        intro same
        subst same
        rw [free] at here
        cases here
      exact ⟨q,by simpa [different] using here,keeps⟩
    | act j moving _ =>
      by_cases same : i = j
      · subst same
        cases moving.symm.trans here
        exact ⟨_,Function.update_self _ _ _,keeps i _⟩
      · exact ⟨q,by simpa [same] using here,keeps⟩
    | other _ => exact ⟨q,here,keeps⟩

theorem Runs.returned {P : α → Prop} (path : Runs program other permit c c') (running : c.calls i = some (call,p))
    (yields : p.Yields P) (finished : c'.Finished i call (.ok value)) : P value := by
  obtain ⟨q,here,holds⟩ := path.yields running yields
  cases finished.symm.trans here
  exact holds

theorem runs_alone (running : c.calls i = some (call,p)) : ∃ c', Runs program other (fun _ _ => True) c c' ∧
    c'.Finished i call (p.run i c.state).1 := by
  induction p generalizing c with
  | done result => exact ⟨c,.refl,running⟩
  | act update next ih =>
    obtain ⟨c',path,finished⟩ := ih i c.state (c := ⟨update i c.state,
      Function.update c.calls i (some (call,next i c.state))⟩) (by simp)
    exact ⟨c',.head (.act i running trivial) path,finished⟩

end Config
end Atomic
