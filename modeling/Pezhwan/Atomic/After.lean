import Pezhwan.Atomic.Frame

namespace Atomic.Prog
variable {ι σ τ ε α β : Type}

-- Undisturbed, call `i` running `p` comes to an end in `post`, be it by a value
-- or by an error.
def After (i : ι) (p : Prog ι σ ε α) (s : σ) (post : Except ε α → σ → Prop) : Prop :=
  post (p.run i s).1 (p.run i s).2

theorem After.mono {p : Prog ι σ ε α} {post weaker : Except ε α → σ → Prop} (after : After i p s post)
    (weaken : ∀ result t, post result t → weaker result t) : After i p s weaker := weaken _ _ after

theorem After.both {p : Prog ι σ ε α} {post other : Except ε α → σ → Prop} (one : After i p s post) (two : After i p s other) :
    After i p s fun result t => post result t ∧ other result t := ⟨one,two⟩

theorem After.bind {p : Prog ι σ ε α} {f : α → Prog ι σ ε β} {post : Except ε β → σ → Prop}
    (after : After i p s fun result t => match result with
      | .ok value => After i (f value) t post
      | .error e => post (.error e) t) : After i (p >>= f) s post := by
  unfold After at after ⊢
  rw [run_bind]
  rcases ran : p.run i s with ⟨result,t⟩
  rw [ran] at after
  cases result with
  | ok value => exact after
  | error e => exact after

theorem After.map {p : Prog ι σ ε α} {f : α → β} {post : σ → Prop} (after : After i p s fun _ t => post t) :
    After i (f <$> p) s fun _ t => post t := by
  refine After.bind (after.mono ?_)
  intro result t holds
  cases result with
  | ok value => exact holds
  | error e => exact holds

theorem After.pure {value : α} {post : Except ε α → σ → Prop} (holds : post (.ok value) s) :
    After i (Pure.pure value : Prog ι σ ε α) s post := holds

theorem After.throw {e : ε} {post : Except ε α → σ → Prop} (holds : post (.error e) s) :
    After i (Prog.throw e : Prog ι σ ε α) s post := holds

theorem After.atomic {f : ι → σ → α × σ} {post : Except ε α → σ → Prop} (holds : post (.ok (f i s).1) (f i s).2) :
    After i (Prog.atomic f : Prog ι σ ε α) s post := holds

theorem After.tryAtomic {f : ι → σ → Except ε (α × σ)} {post : Except ε α → σ → Prop}
    (served : ∀ value t, f i s = .ok (value,t) → post (.ok value) t)
    (refused : ∀ e, f i s = .error e → post (.error e) s) : After i (Prog.tryAtomic f) s post := by
  unfold After
  simp only [Prog.tryAtomic,run]
  cases ran : f i s with
  | ok result => exact served _ _ ran
  | error e => exact refused e ran

theorem After.attempt {p : Prog ι σ ε α} {post : Except ε (Except ε α) → σ → Prop}
    (after : After i p s fun result t => post (.ok result) t) : After i p.attempt s post := by
  unfold After
  rw [run_attempt]
  exact after

theorem After.zoom {l : Lens σ τ} {p : Prog ι τ ε α} {post : Except ε α → σ → Prop}
    (after : After i p (l.get s) fun result t => post result (l.set t s)) : After i (p.zoom l) s post := by
  unfold After
  rw [run_zoom]
  exact after

theorem After.forEach {body : β → Prog ι σ ε Unit} {items : List β} {post : Except ε Unit → σ → Prop}
    (inv : List β → σ → Prop) (holds : inv items s) (finish : ∀ t, inv [] t → post (.ok ()) t)
    (each : ∀ item rest t, inv (item :: rest) t → After i (body item) t fun result u => match result with
      | .ok _ => inv rest u
      | .error e => post (.error e) u) : After i (Prog.forEach body items) s post := by
  induction items generalizing s with
  | nil => exact finish s holds
  | cons item rest ih =>
    refine After.bind ((each item rest s holds).mono ?_)
    intro result t after
    cases result with
    | ok value => exact ih after
    | error e => exact after

theorem run_buffered (l : Lens σ τ) (i : ι) (p : Prog ι σ ε α) (copy : τ) (s : σ) :
    (p.buffered l copy).run i s = match p.run i (l.set copy s) with
      | (.ok value,t) => (.ok (value,l.get t),l.set (l.get s) t)
      | (.error e,t) => (.error e,l.set (l.get s) t) := by
  induction p generalizing copy s with
  | done result => cases result <;> simp [buffered]
  | act update next ih =>
    simp only [buffered,run]
    rw [ih]
    simp

theorem After.transaction {l : Lens σ τ} {p : Prog ι σ ε α} {commit : τ → τ → Prog ι σ ε Unit}
    {post : Except ε α → σ → Prop} (after : After i p s fun result t => match result with
      | .ok value => After i (commit (l.get s) (l.get t)) (l.set (l.get s) t) fun done u => match done with
        | .ok _ => post (.ok value) u
        | .error e => post (.error e) u
      | .error e => post (.error e) (l.set (l.get s) t)) : After i (p.transaction l commit) s post := by
  refine After.bind (After.atomic ?_)
  refine After.bind ?_
  unfold After at after ⊢
  rw [run_buffered]
  simp only [Lens.set_get]
  rcases ran : p.run i s with ⟨result,t⟩
  rw [ran] at after
  cases result with
  | error e => exact after
  | ok value =>
    have committed : After i (commit (l.get s) (l.get t)) (l.set (l.get s) t) (fun done u => match done with
      | .ok _ => post (.ok value) u
      | .error e => post (.error e) u) := after
    change After i (commit (l.get s) (l.get t) >>= fun _ => Pure.pure value) (l.set (l.get s) t) post
    refine After.bind (committed.mono ?_)
    intro done u holds
    cases done with
    | ok _ => exact holds
    | error e => exact holds

theorem After.returns {p : Prog ι σ ε α} {post : Except ε α → σ → Prop} (after : After i p s post)
    (returned : Returns i p s value t) : post (.ok value) t := by
  unfold After at after
  rw [returned] at after
  exact after

-- Whatever state it starts in, an undisturbed run moves the state by `r`.
def Moves (r : σ → σ → Prop) (p : Prog ι σ ε α) : Prop := ∀ i s, After i p s fun _ t => r s t

section
variable {r : σ → σ → Prop}

theorem Keeps.moves {p : Prog ι σ ε α} (keeps : p.Keeps r) (refl : ∀ s, r s s)
    (trans : ∀ {a b c}, r a b → r b c → r a c) : p.Moves r := keeps.run refl trans

theorem Moves.mono {q : σ → σ → Prop} {p : Prog ι σ ε α} (moves : p.Moves r) (weaken : ∀ {s t}, r s t → q s t) :
    p.Moves q := fun i s => weaken (moves i s)

theorem Moves.bind {p : Prog ι σ ε α} {f : α → Prog ι σ ε β} (first : p.Moves r)
    (trans : ∀ {a b c}, r a b → r b c → r a c) (rest : ∀ value, (f value).Moves r) : (p >>= f).Moves r := by
  intro i s
  apply After.bind
  apply (first i s).mono
  intro result t moved
  cases result with
  | ok value => exact (rest value i t).mono fun _ _ further => trans moved further
  | error e => exact moved

theorem Moves.map {p : Prog ι σ ε α} {f : α → β} (moves : p.Moves r) : (f <$> p).Moves r := fun i s => (moves i s).map

theorem Moves.attempt {p : Prog ι σ ε α} (moves : p.Moves r) : p.attempt.Moves r := fun i s => (moves i s).attempt

theorem Moves.forEach {body : β → Prog ι σ ε Unit} (refl : ∀ s, r s s) (trans : ∀ {a b c}, r a b → r b c → r a c)
    (each : ∀ item, (body item).Moves r) (items : List β) : (Prog.forEach body items).Moves r := by
  induction items with
  | nil => exact fun _ s => refl s
  | cons item rest ih => exact Moves.bind (each item) trans fun _ => ih

theorem Moves.pure (refl : ∀ s, r s s) (value : α) : (Pure.pure value : Prog ι σ ε α).Moves r := fun _ s => refl s

theorem Moves.throw (refl : ∀ s, r s s) (e : ε) : (Prog.throw e : Prog ι σ ε α).Moves r := fun _ s => refl s

theorem Moves.zoom {l : Lens σ τ} {q : τ → τ → Prop} {p : Prog ι τ ε α} (moves : p.Moves q)
    (lift : ∀ s t, q (l.get s) t → r s (l.set t s)) : (p.zoom l).Moves r :=
  fun i s => After.zoom ((moves i (l.get s)).mono fun _ t moved => lift s t moved)

theorem Moves.returns {p : Prog ι σ ε α} (moves : p.Moves r) (returned : Returns i p s value t) : r s t :=
  (moves i s).returns returned
end

end Atomic.Prog
