import Pezhwan.Atomic.Trace

-- Two runs of one schedule, of which the second leaves some calls out.
namespace Atomic
open Relation
variable {ι κ σ τ ε α β : Type}

namespace Prog

-- `Blind r g i s p post`: from `s` on, call `i` does the same in states that `r`
-- relates, whatever moves by `g` come in between.
def Blind (r g : σ → σ → Prop) (i : ι) : σ → Prog ι σ ε α → (Except ε α → σ → Prop) → Prop
  | s,done result,post => post result s
  | s,act update next,post => ∀ t t', g s t → r t t' →
      r (update i t) (update i t') ∧ next i t = next i t' ∧ Blind r g i (update i t) (next i t) post

section
variable {r g : σ → σ → Prop} {i : ι} {s t : σ}

theorem Blind.mono {p : Prog ι σ ε α} {post weaker : Except ε α → σ → Prop} (blind : Blind r g i s p post)
    (weaken : ∀ result t, post result t → weaker result t) : Blind r g i s p weaker := by
  induction p generalizing s with
  | done result => exact weaken _ _ blind
  | act update next ih =>
    intro t t' moved related
    obtain ⟨after,same,rest⟩ := blind t t' moved related
    exact ⟨after,same,ih _ _ rest⟩

theorem Blind.later {p : Prog ι σ ε α} {post : Except ε α → σ → Prop} (trans : ∀ {a b c}, g a b → g b c → g a c)
    (blind : Blind r g i s p post) (stable : ∀ result s t, g s t → post result s → post result t) (moved : g s t) :
    Blind r g i t p post := by
  cases p with
  | done result => exact stable _ _ _ moved blind
  | act update next => exact fun u u' further related => blind u u' (trans moved further) related

theorem Blind.bind {p : Prog ι σ ε α} {f : α → Prog ι σ ε β} {post : Except ε β → σ → Prop}
    (blind : Blind r g i s p fun result t => match result with
      | .ok value => Blind r g i t (f value) post
      | .error e => post (.error e) t) : Blind r g i s (p >>= f) post := by
  induction p generalizing s with
  | done result => cases result <;> exact blind
  | act update next ih =>
    intro t t' moved related
    obtain ⟨after,same,rest⟩ := blind t t' moved related
    exact ⟨after,congrArg (Prog.bind · f) same,ih _ _ rest⟩

theorem Blind.zoom_atomic {l : Lens σ τ} {f : ι → τ → α × τ} {post : Except ε α → σ → Prop}
    (step : ∀ t t', g s t → r t t' → r (l.set (f i (l.get t)).2 t) (l.set (f i (l.get t')).2 t') ∧
      (f i (l.get t)).1 = (f i (l.get t')).1 ∧ post (.ok (f i (l.get t)).1) (l.set (f i (l.get t)).2 t)) :
    Blind r g i s ((Prog.atomic f : Prog ι τ ε α).zoom l) post := by
  intro t t' moved related
  obtain ⟨after,same,rest⟩ := step t t' moved related
  refine ⟨after,?_,rest⟩
  exact congrArg (fun value => done (.ok value)) same

theorem Blind.atomic {f : ι → σ → α × σ} {post : Except ε α → σ → Prop}
    (step : ∀ t t', g s t → r t t' → r (f i t).2 (f i t').2 ∧ (f i t).1 = (f i t').1 ∧ post (.ok (f i t).1) (f i t).2) :
    Blind r g i s (Prog.atomic f : Prog ι σ ε α) post := by
  intro t t' moved related
  obtain ⟨after,same,rest⟩ := step t t' moved related
  refine ⟨after,?_,rest⟩
  exact congrArg (fun value => done (.ok value)) same

theorem Blind.tryAtomic {f : ι → σ → Except ε (α × σ)} {post : Except ε α → σ → Prop}
    (step : ∀ t t', g s t → r t t' →
      (∃ value u u', f i t = .ok (value,u) ∧ f i t' = .ok (value,u') ∧ r u u' ∧ post (.ok value) u) ∨
      ∃ e, f i t = .error e ∧ f i t' = .error e ∧ post (.error e) t) : Blind r g i s (Prog.tryAtomic f) post := by
  intro t t' moved related
  rcases step t t' moved related with ⟨value,u,u',served,served',after,rest⟩ | ⟨e,refused,refused',rest⟩
  · simp only [served,served']
    exact ⟨after,trivial,rest⟩
  · simp only [refused,refused']
    exact ⟨related,trivial,rest⟩

end
end Prog

namespace Config
variable [DecidableEq ι] (program : κ → Prog ι σ ε α) (own : ι → Bool) (forget : σ → σ → σ)

abbrev Past (ι κ σ ε α : Type) := List (Event ι κ σ) × Config ι κ σ ε α

-- A cue that does not apply is passed over.
def heed (run : Past ι κ σ ε α) (first : Cue ι κ σ) : Past ι κ σ ε α := (cue program run.1 run.2 first).getD run

-- The second run takes the cues of the calls it keeps and those of the
-- surroundings. In place of another call's action it has `forget`, given the
-- state of the first run.
def beside (first : Past ι κ σ ε α) (second : Past ι κ σ ε α) : Cue ι κ σ → Past ι κ σ ε α
  | .start i call => if own i then heed program second (.start i call) else second
  | .act i =>
    if own i then heed program second (.act i) else (second.1,{second.2 with state := forget first.2.state second.2.state})
  | .other change => heed program second (.other change)

-- Both runs of a schedule, given with its latest cue first.
def together (initial : σ) : List (Cue ι κ σ) → Past ι κ σ ε α × Past ι κ σ ε α
  | [] => (([],start initial),([],start initial))
  | latest :: cues =>
    let before := together initial cues
    let first := heed program before.1 latest
    (first,beside program own forget first before.2 latest)

variable {program own forget} {other : σ → σ → Prop} {initial : σ}

theorem heed_traced {run : Past ι κ σ ε α} {latest : Cue ι κ σ}
    (allowed : ∀ change, latest = .other change → ∀ s, other s (change s)) (traced : Traced program other initial run.1 run.2) :
    Traced program other initial (heed program run latest).1 (heed program run latest).2 := by
  unfold heed
  cases cued : cue program run.1 run.2 latest with
  | none => exact traced
  | some after => exact cue_traced allowed traced cued

theorem together_traced {cues : List (Cue ι κ σ)} (allowed : ∀ change, .other change ∈ cues → ∀ s, other s (change s)) :
    Traced program other initial (together program own forget initial cues).1.1
      (together program own forget initial cues).1.2 := by
  induction cues with
  | nil => exact .initial
  | cons latest cues ih =>
    apply heed_traced
    · intro change same
      exact allowed change (same ▸ List.mem_cons_self)
    · exact ih fun change member => allowed change (List.mem_cons_of_mem _ member)

-- Related runs: related states, and the kept calls at the same point in both.
structure Related (own : ι → Bool) (r g : σ → σ → Prop) (first second : Config ι κ σ ε α) : Prop where
  states : r first.state second.state
  calls : ∀ i, own i = true → first.calls i = second.calls i
  blind : ∀ i call p, own i = true → first.calls i = some (call,p) → p.Blind r g i first.state fun _ _ => True

section
variable {r g : σ → σ → Prop} {first second : Config ι κ σ ε α}

omit [DecidableEq ι] in
theorem Related.moved (related : Related own r g first second) (trans : ∀ {a b c}, g a b → g b c → g a c)
    (states : r s t) (grown : g first.state s) : Related own r g {first with state := s} {second with state := t} := by
  refine ⟨states,related.calls,?_⟩
  intro i call p mine running
  exact (related.blind i call p mine running).later trans (fun _ _ _ _ _ => trivial) grown

theorem Related.start (related : Related own r g first second) (free : first.calls i = none)
    (blind : own i = true → (program call).Blind r g i first.state fun _ _ => True) :
    Related own r g {first with calls := Function.update first.calls i (some (call,program call))}
      (if own i then {second with calls := Function.update second.calls i (some (call,program call))} else second) := by
  by_cases mine : own i = true
  · rw [if_pos mine]
    refine ⟨related.states,?_,?_⟩
    · intro j kept
      by_cases same : j = i
      · subst same
        simp
      · simpa [same] using related.calls j kept
    · intro j call' p kept running
      by_cases same : j = i
      · subst same
        simp only [Function.update_self,Option.some.injEq,Prod.mk.injEq] at running
        obtain ⟨rfl,rfl⟩ := running
        exact blind mine
      · exact related.blind j call' p kept (by simpa [same] using running)
  · rw [if_neg mine]
    refine ⟨related.states,?_,?_⟩
    · intro j kept
      have different : j ≠ i := fun same => mine (same ▸ kept)
      simpa [different] using related.calls j kept
    · intro j call' p kept running
      have different : j ≠ i := fun same => mine (same ▸ kept)
      exact related.blind j call' p kept (by simpa [different] using running)

theorem Related.act {update : ι → σ → σ} {next : ι → σ → Prog ι σ ε α} (related : Related own r g first second)
    (trans : ∀ {a b c}, g a b → g b c → g a c) (refl : ∀ s, g s s) (mine : own i = true)
    (running : first.calls i = some (call,.act update next)) (grown : g first.state (update i first.state)) :
    Related own r g ⟨update i first.state,Function.update first.calls i (some (call,next i first.state))⟩
      ⟨update i second.state,Function.update second.calls i (some (call,next i second.state))⟩ := by
  obtain ⟨after,same,rest⟩ := related.blind i call _ mine running first.state second.state (refl _) related.states
  refine ⟨after,?_,?_⟩
  · intro j kept
    by_cases equal : j = i
    · subst equal
      simp [same]
    · simpa [equal] using related.calls j kept
  · intro j call' p kept continued
    by_cases equal : j = i
    · subst equal
      simp only [Function.update_self,Option.some.injEq,Prod.mk.injEq] at continued
      obtain ⟨rfl,rfl⟩ := continued
      exact rest
    · have running' : first.calls j = some (call',p) := by simpa [equal] using continued
      exact (related.blind j call' p kept running').later trans (fun _ _ _ _ _ => trivial) grown

theorem Related.hidden {update : ι → σ → σ} {next : ι → σ → Prog ι σ ε α} (related : Related own r g first second)
    (trans : ∀ {a b c}, g a b → g b c → g a c) (other : ¬ own i = true) (states : r (update i first.state) t)
    (grown : g first.state (update i first.state)) :
    Related own r g ⟨update i first.state,Function.update first.calls i (some (call,next i first.state))⟩
      {second with state := t} := by
  refine ⟨states,?_,?_⟩
  · intro j kept
    have different : j ≠ i := fun same => other (same ▸ kept)
    simpa [different] using related.calls j kept
  · intro j call' p kept continued
    have different : j ≠ i := fun same => other (same ▸ kept)
    have running : first.calls j = some (call',p) := by simpa [different] using continued
    exact (related.blind j call' p kept running).later trans (fun _ _ _ _ _ => trivial) grown

end

end Config
end Atomic
