import Pezhwan.Atomic.Trace

-- Programs read as scripts: which action comes next, by the states in which the
-- earlier ones were made.
namespace Atomic
variable {ι σ τ υ ε α β : Type}

-- A script goes through the states that a call has met, oldest first. It asks for
-- the next action or has come to its end, with the states that are left over.
def Script (σ τ α : Type) := List σ → Except τ (α × List σ)

namespace Script

protected def pure (value : α) : Script σ τ α := fun states => .ok (value,states)

protected def bind (script : Script σ τ α) (further : α → Script σ τ β) : Script σ τ β := fun states =>
  match script states with
  | .ok (value,rest) => further value rest
  | .error step => .error step

instance : Monad (Script σ τ) where
  pure := Script.pure
  bind := Script.bind

-- The action `step`, and the state in which it is made.
def see (step : τ) : Script σ τ σ
  | [] => .error step
  | s :: rest => .ok (s,rest)

theorem bind_apply (script : Script σ τ α) (further : α → Script σ τ β) (states : List σ) :
    (script >>= further) states = match script states with
      | .ok (value,rest) => further value rest
      | .error step => .error step := rfl

theorem see_bind (step : τ) (further : σ → Script σ τ α) (s : σ) (rest : List σ) :
    (see step >>= further) (s :: rest) = further s rest := rfl

theorem bind_ok {script : Script σ τ α} {further : α → Script σ τ β} :
    (script >>= further) states = .ok (value,rest) ↔
      ∃ middle left, script states = .ok (middle,left) ∧ further middle left = .ok (value,rest) := by
  rw [bind_apply]
  cases script states with
  | error step => exact ⟨nofun,fun ⟨_,_,asked,_⟩ => nomatch asked⟩
  | ok pair =>
    obtain ⟨middle,left⟩ := pair
    constructor
    · exact fun ended => ⟨middle,left,rfl,ended⟩
    · rintro ⟨_,_,same,ended⟩
      cases same
      exact ended

theorem bind_error {script : Script σ τ α} {further : α → Script σ τ β} {step : τ} :
    (script >>= further) states = .error step ↔ script states = .error step ∨
      ∃ middle left, script states = .ok (middle,left) ∧ further middle left = .error step := by
  rw [bind_apply]
  cases script states with
  | error step' =>
    constructor
    · rintro ⟨⟩
      exact .inl rfl
    · rintro (⟨⟨⟩⟩ | ⟨_,_,over_,_⟩)
      · rfl
      · cases over_
  | ok pair =>
    obtain ⟨middle,left⟩ := pair
    constructor
    · exact fun asked => .inr ⟨middle,left,rfl,asked⟩
    · rintro (same | ⟨_,_,same,asked⟩)
      · cases same
      · cases same
        exact asked

theorem see_ok {step : τ} {states : List σ} : see step states = .ok (s,rest) ↔ states = s :: rest := by
  cases states with
  | nil => exact ⟨nofun,nofun⟩
  | cons head tail =>
    constructor
    · rintro ⟨⟩
      rfl
    · rintro ⟨⟩
      rfl

theorem see_error {step asked : τ} {states : List σ} : see step states = .error asked ↔ states = [] ∧ step = asked := by
  cases states with
  | nil =>
    constructor
    · rintro ⟨⟩
      exact ⟨rfl,rfl⟩
    · rintro ⟨_,rfl⟩
      rfl
  | cons head tail => exact ⟨nofun,nofun⟩

-- A script that takes its states one by one: what it has taken decides, and the
-- rest is left over.
def Local (script : Script σ τ α) : Prop :=
  ∀ states value rest, script states = .ok (value,rest) →
    ∃ used, states = used ++ rest ∧ ∀ more, script (used ++ more) = .ok (value,more)

theorem local_pure (value : α) : Local (pure value : Script σ τ α) := by
  intro states value' rest ended
  cases ended
  exact ⟨[],rfl,fun _ => rfl⟩

theorem local_see (step : τ) : Local (see step : Script σ τ σ) := by
  intro states s rest ended
  cases see_ok.mp ended
  exact ⟨[s],rfl,fun _ => rfl⟩

theorem local_bind {script : Script σ τ α} {further : α → Script σ τ β} (first : Local script)
    (rest : ∀ value, Local (further value)) : Local (script >>= further) := by
  intro states value left ended
  obtain ⟨middle,between,one,two⟩ := bind_ok.mp ended
  obtain ⟨used,split,again⟩ := first states middle between one
  obtain ⟨used',split',again'⟩ := rest middle between value left two
  refine ⟨used ++ used',by rw [split,split',List.append_assoc],?_⟩
  intro more
  rw [bind_apply,List.append_assoc,again]
  exact again' more

-- What is known of every step a script asks for, by the states before it.
def Asks (P : List σ → τ → Prop) (script : Script σ τ α) : Prop := ∀ states step, script states = .error step → P states step

theorem asks_pure {P : List σ → τ → Prop} (value : α) : Asks P (pure value : Script σ τ α) := by
  intro states step asked
  cases asked

theorem asks_see {P : List σ → τ → Prop} {step : τ} (holds : P [] step) : Asks P (see step : Script σ τ σ) := by
  intro states asked none
  obtain ⟨rfl,rfl⟩ := see_error.mp none
  exact holds

theorem asks_bind {P : List σ → τ → Prop} (closed : ∀ used rest step, P rest step → P (used ++ rest) step)
    {script : Script σ τ α} {further : α → Script σ τ β} (first : Local script) (asks : Asks P script)
    (rest : ∀ value, Asks P (further value)) : Asks P (script >>= further) := by
  intro states step asked
  rcases bind_error.mp asked with here | ⟨middle,left,ended,later⟩
  · exact asks states step here
  · obtain ⟨used,split,_⟩ := first states middle left ended
    rw [split]
    exact closed used left step (rest middle left step later)

-- After `step` in state `s` comes `next`.
def Leads (step : τ) (s : σ) (next : τ) (script : Script σ τ α) : Prop :=
  ∀ states, script states = .error step → script (states ++ [s]) = .error next

theorem leads_pure {step next : τ} (value : α) : Leads step s next (pure value : Script σ τ α) := by
  intro states asked
  cases asked

theorem leads_see {step next other : τ} (different : other ≠ step) : Leads step s next (see other : Script σ τ σ) := by
  intro states asked
  exact absurd (see_error.mp asked).2 different

theorem leads_bind {step next : τ} {script : Script σ τ α} {further : α → Script σ τ β} (first : Local script)
    (leads : Leads step s next script) (rest : ∀ value, Leads step s next (further value)) :
    Leads step s next (script >>= further) := by
  intro states asked
  rcases bind_error.mp asked with here | ⟨middle,left,ended,later⟩
  · rw [bind_apply,leads states here]
  · obtain ⟨used,split,again⟩ := first states middle left ended
    rw [split,bind_apply,List.append_assoc,again]
    exact rest middle left later

theorem leads_last {step next : τ} {script : Script σ τ α} {further : α → Script σ τ β} (first : Local script)
    (last : ∀ states, script states = .error step → ∃ value, script (states ++ [s]) = .ok (value,[]) ∧ further value [] = .error next)
    (rest : ∀ value, Leads step s next (further value)) : Leads step s next (script >>= further) := by
  intro states asked
  rcases bind_error.mp asked with here | ⟨middle,left,ended,later⟩
  · obtain ⟨value,halted,begins⟩ := last states here
    rw [bind_apply,halted]
    exact begins
  · obtain ⟨used,split,again⟩ := first states middle left ended
    rw [split,bind_apply,List.append_assoc,again]
    exact rest middle left later

-- A script that ends in `true` has gone through a step that satisfies `P`.
def Passes (P : τ → Prop) (script : Script σ τ Bool) : Prop := ∀ states rest, script states = .ok (true,rest) →
  ∃ used s more step, states = used ++ s :: more ∧ script used = .error step ∧ P step

theorem passes_false {P : τ → Prop} : Passes P (pure false : Script σ τ Bool) := by
  intro states rest ended
  cases ended

theorem passes_bind {P : τ → Prop} {script : Script σ τ α} {further : α → Script σ τ Bool} (first : Local script)
    (passes : ∀ value, Passes P (further value)) : Passes P (script >>= further) := by
  intro states rest ended
  obtain ⟨middle,left,one,two⟩ := bind_ok.mp ended
  obtain ⟨used,split,again⟩ := first states middle left one
  obtain ⟨used',s,more,step,split',asked,holds⟩ := passes middle left rest two
  refine ⟨used ++ used',s,more,step,by rw [split,split',List.append_assoc],?_,holds⟩
  rw [bind_apply,again]
  exact asked

theorem passes_first {P : τ → Prop} {script : Script σ τ Bool} {further : Bool → Script σ τ Bool} (first : Local script)
    (passes : Passes P script) (else_ : Passes P (further false)) : Passes P (script >>= further) := by
  intro states rest ended
  obtain ⟨middle,left,one,two⟩ := bind_ok.mp ended
  cases middle with
  | true =>
    obtain ⟨used,s,more,step,split,asked,holds⟩ := passes states left one
    refine ⟨used,s,more,step,split,?_,holds⟩
    rw [bind_apply,asked]
  | false =>
    obtain ⟨used,split,again⟩ := first states false left one
    obtain ⟨used',s,more,step,split',asked,holds⟩ := else_ left rest two
    refine ⟨used ++ used',s,more,step,by rw [split,split',List.append_assoc],?_,holds⟩
    rw [bind_apply,again]
    exact asked

end Script

namespace Prog

-- `p` makes the actions its script asks for and returns what the script ends in.
-- A call whose action is not accepted fails, and nothing is said of it then.
def Follows (perform : ι → τ → σ → σ) (accepts : τ → σ → Prop) (i : ι) : Prog ι σ ε α → Script σ τ α → Prop
  | done (.ok value),script => ∀ more, script more = .ok (value,more)
  | done (.error _),_ => True
  | act update next,script => ∀ s, (∃ step, script [] = .error step ∧ update i s = perform i step s ∧
        (accepts step s ∨ ∃ e, next i s = done (.error e))) ∧
      Follows perform accepts i (next i s) fun more => script (s :: more)

section
variable {perform : ι → τ → σ → σ} {accepts : τ → σ → Prop} {i : ι}

theorem Follows.pure (value : α) : Follows perform accepts i (Pure.pure value : Prog ι σ ε α) (Pure.pure value) := fun _ => rfl

theorem Follows.throw {script : Script σ τ α} (e : ε) : Follows perform accepts i (Prog.throw e : Prog ι σ ε α) script := trivial

theorem Follows.bind {p : Prog ι σ ε α} {f : α → Prog ι σ ε β} {script : Script σ τ α} {further : α → Script σ τ β}
    (first : Follows perform accepts i p script) (rest : ∀ value, Follows perform accepts i (f value) (further value)) :
    Follows perform accepts i (p >>= f) (script >>= further) := by
  induction p generalizing script with
  | done result =>
    cases result with
    | error e => trivial
    | ok value =>
      have same : script >>= further = further value := by
        funext states
        rw [Script.bind_apply,first states]
      rw [same]
      exact rest value
  | act update next ih =>
    intro s
    obtain ⟨⟨step,asked,moved,served⟩,later⟩ := first s
    refine ⟨⟨step,by rw [Script.bind_apply,asked],moved,?_⟩,ih i s later⟩
    rcases served with accepted | ⟨e,failed⟩
    · exact .inl accepted
    · exact .inr ⟨e,congrArg (Prog.bind · f) failed⟩

theorem Follows.zoom_atomic {l : Lens σ υ} {f : ι → υ → α × υ} {step : τ} {rest : α → Prog ι σ ε β}
    {further : σ → Script σ τ β} (moves : ∀ s, l.set (f i (l.get s)).2 s = perform i step s ∧ accepts step s ∧
      Follows perform accepts i (rest (f i (l.get s)).1) (further s)) :
    Follows perform accepts i ((Prog.atomic f : Prog ι υ ε α).zoom l >>= rest) (Script.see step >>= further) := by
  intro s
  exact ⟨⟨step,rfl,(moves s).1,.inl (moves s).2.1⟩,(moves s).2.2⟩

theorem Follows.tryAtomic {f : ι → σ → Except ε (α × σ)} {step : τ} {rest : α → Prog ι σ ε β} {further : σ → Script σ τ β}
    (served : ∀ s value t, f i s = .ok (value,t) → t = perform i step s ∧ accepts step s ∧
      Follows perform accepts i (rest value) (further s))
    (refused : ∀ s e, f i s = .error e → perform i step s = s) :
    Follows perform accepts i (Prog.tryAtomic f >>= rest) (Script.see step >>= further) := by
  intro s
  cases ran : f i s with
  | ok result =>
    obtain ⟨same,accepted,follows⟩ := served s _ _ ran
    refine ⟨⟨step,rfl,?_,.inl accepted⟩,?_⟩
    · simp only [ran]
      exact same
    · simp only [ran]
      exact follows
  | error e =>
    refine ⟨⟨step,rfl,?_,.inr ⟨e,?_⟩⟩,?_⟩
    · simp only [ran]
      exact (refused s e ran).symm
    · simp only [ran]
      rfl
    · simp only [ran]
      trivial

end

-- The states in which a call has made its moves, oldest first.
def told (memory : List (σ × σ)) : List σ := (memory.map Prod.fst).reverse

theorem told_cons (move : σ × σ) (memory : List (σ × σ)) : told (move :: memory) = told memory ++ [move.1] := by
  simp [told]

theorem told_split {memory : List (σ × σ)} (split : told memory = used ++ s :: more) :
    ∃ newer move older, memory = newer ++ move :: older ∧ used = told older ∧ s = move.1 := by
  have turned : memory.map Prod.fst = more.reverse ++ s :: used.reverse := by
    rw [← List.reverse_reverse (memory.map Prod.fst)]
    exact (congrArg List.reverse split).trans (by simp)
  obtain ⟨newer,rest,rfl,_,tail⟩ := List.map_eq_append_iff.mp turned
  obtain ⟨move,older,rfl,rfl,states⟩ := List.map_eq_cons_iff.mp tail
  exact ⟨newer,move,older,rfl,by rw [told,states,List.reverse_reverse],rfl⟩

-- Every move of the call was the step asked for, and accepted.
def Accepted (accepts : τ → σ → Prop) (script : Script σ τ α) (memory : List (σ × σ)) : Prop :=
  ∀ newer move older, memory = newer ++ move :: older → ∃ step, script (told older) = .error step ∧ accepts step move.1

-- What an action of a scripted call does.
structure Scripted (perform : ι → τ → σ → σ) (accepts : τ → σ → Prop) (script : Script σ τ α) (memory : List (σ × σ))
    (s t : σ) : Prop where
  does : ∃ step i, script (told memory) = .error step ∧ t = perform i step s
  accepted : Accepted accepts script memory

theorem Follows.acts {perform : ι → τ → σ → σ} {accepts : τ → σ → Prop} {inv : σ → Prop} {p : Prog ι σ ε α}
    {whole script : Script σ τ α} (follows : Follows perform accepts i p script) (memory : List (σ × σ))
    (left : ∀ more, whole (told memory ++ more) = script more) (accepted : Accepted accepts whole memory) :
    p.Acts inv i (Scripted perform accepts whole) memory fun result moves => ∀ value, result = .ok value →
      whole (told moves) = .ok (value,[]) ∧ Accepted accepts whole moves := by
  induction p generalizing memory script with
  | done result =>
    rintro value rfl
    have ended := (left []).trans (follows [])
    rw [List.append_nil] at ended
    exact ⟨ended,accepted⟩
  | act update next ih =>
    intro s _
    obtain ⟨⟨step,asked,moved,served⟩,later⟩ := follows s
    have here : whole (told memory) = .error step := by
      have next := (left []).trans asked
      rwa [List.append_nil] at next
    refine ⟨⟨⟨step,i,here,moved⟩,accepted⟩,?_⟩
    rcases served with fine | ⟨e,failed⟩
    · apply ih i s later
      · intro more
        rw [told_cons,List.append_assoc]
        exact left (s :: more)
      · intro newer move older split
        cases newer with
        | nil =>
          cases split
          exact ⟨step,here,fine⟩
        | cons newest newer =>
          simp only [List.cons_append,List.cons.injEq] at split
          exact accepted newer move older split.2
    · rw [failed]
      intro value same
      cases same

end Prog
end Atomic
