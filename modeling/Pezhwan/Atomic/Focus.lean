import Pezhwan.Atomic.Program

namespace Atomic
variable {ι σ τ ε α β υ : Type}

-- A part of the state that can be read and replaced on its own.
structure Lens (σ τ : Type) where
  get : σ → τ
  set : τ → σ → σ
  get_set : ∀ t s, get (set t s) = t
  set_get : ∀ s, set (get s) s = s
  set_set : ∀ t t' s, set t (set t' s) = set t s

attribute [simp] Lens.get_set Lens.set_get Lens.set_set

namespace Prog
variable (l : Lens σ τ)

-- A program over the part, run on the whole.
def zoom : Prog ι τ ε α → Prog ι σ ε α
  | done result => done result
  | act update next => act (fun i s => l.set (update i (l.get s)) s) (fun i s => (next i (l.get s)).zoom)

theorem run_zoom (i : ι) (p : Prog ι τ ε α) (s : σ) :
    (p.zoom l).run i s = ((p.run i (l.get s)).1,l.set (p.run i (l.get s)).2 s) := by
  induction p generalizing s with
  | done result => simp [zoom]
  | act update next ih =>
    simp only [zoom,run]
    rw [ih]
    simp

theorem returns_zoom {p : Prog ι τ ε α} :
    Returns i (p.zoom l) s value t ↔ ∃ u, Returns i p (l.get s) value u ∧ t = l.set u s := by
  unfold Returns
  rw [run_zoom]
  constructor
  · intro ran
    exact ⟨(p.run i (l.get s)).2,by simpa [Prod.ext_iff] using congrArg Prod.fst ran,
      (congrArg Prod.snd ran).symm⟩
  · rintro ⟨u,ran,rfl⟩
    rw [ran]

-- Reads and writes of the part go to a private copy; the rest of the state
-- stays shared. The copy is handed back with the result.
def buffered : Prog ι σ ε α → τ → Prog ι σ ε (α × τ)
  | done (.ok value),copy => done (.ok (value,copy))
  | done (.error e),_ => done (.error e)
  | act update next,copy => act (fun i s => l.set (l.get s) (update i (l.set copy s)))
      (fun i s => (next i (l.set copy s)).buffered (l.get (update i (l.set copy s))))

theorem buffered_bind (p : Prog ι σ ε α) (f : α → Prog ι σ ε β) (copy : τ) :
    (p >>= f).buffered l copy = (p.buffered l copy) >>= fun result => (f result.1).buffered l result.2 := by
  induction p generalizing copy with
  | done result => cases result <;> rfl
  | act update next ih =>
    simp only [bind_def,bind,buffered,act.injEq,true_and]
    funext i s
    exact ih i _ _

-- Snapshot, private work, then one commit that may refuse. A body that throws
-- never reaches the commit, so it has no effect on the part.
def transaction (commit : τ → τ → Prog ι σ ε Unit) (body : Prog ι σ ε α) : Prog ι σ ε α :=
  atomic (fun _ s => (l.get s,s)) >>= fun snapshot =>
    body.buffered l snapshot >>= fun result =>
      commit snapshot result.2 >>= fun _ => pure result.1

end Prog

namespace Discipline
variable {d : Discipline ι σ υ} {l : Lens σ τ}

theorem Safe.zoom {p : Prog ι τ ε α} {v : υ} {post : Except ε α → υ → Prop}
    (local_ : ∀ s t, d.inv s → d.view i s = v → d.change i s (l.set t s) ∧ d.view i (l.set t s) = v)
    (holds : ∀ result, post result v) : d.Safe i (p.zoom l) v post := by
  induction p with
  | done result => exact holds result
  | act update next ih =>
    intro s valid seen
    obtain ⟨changed,same⟩ := local_ s (update i (l.get s)) valid seen
    exact ⟨changed,same ▸ ih i (l.get s)⟩

theorem Safe.lift {whole : Discipline ι σ (υ × ν)} {part : Discipline ι τ υ} {l : Lens σ τ} {p : Prog ι τ ε α}
    {v : υ × ν} {post : Except ε α → υ → Prop} (grows : ν → ν → Prop) (still : ∀ u, grows u u)
    (further : ∀ u u' u'', grows u u' → grows u' u'' → grows u u'')
    (inv : ∀ s, whole.inv s → part.inv (l.get s)) (seen : ∀ s, (whole.view i s).1 = part.view i (l.get s))
    (change : ∀ s t, whole.inv s → part.change i (l.get s) t →
      whole.change i s (l.set t s) ∧ grows (whole.view i s).2 (whole.view i (l.set t s)).2)
    (safe : part.Safe i p v.1 post) :
    whole.Safe i (p.zoom l) v (fun result u => post result u.1 ∧ grows v.2 u.2) := by
  induction p generalizing v with
  | done result => exact ⟨safe,still _⟩
  | act update next ih =>
    intro s valid same
    have before : part.view i (l.get s) = v.1 := by rw [← seen,same]
    obtain ⟨changed,rest⟩ := safe (l.get s) (inv s valid) before
    obtain ⟨moved,grown⟩ := change s _ valid changed
    refine ⟨moved,?_⟩
    have after : (whole.view i (l.set (update i (l.get s)) s)).1 = part.view i (update i (l.get s)) := by
      rw [seen,l.get_set]
    rw [← after] at rest
    refine (ih i (l.get s) rest).mono ?_
    intro result u ended
    rw [same] at grown
    exact ⟨ended.1,further _ _ _ grown ended.2⟩

theorem Safe.buffered_tryAtomic {f : ι → σ → Except ε (α × σ)} {copy : τ} {v : υ}
    {post : Except ε (α × τ) → υ → Prop} (idle : ∀ s, d.inv s → d.change i s s)
    (step : ∀ s, d.inv s → d.view i s = v → ∀ value t, f i (l.set copy s) = .ok (value,t) →
      d.change i s (l.set (l.get s) t) ∧ post (.ok (value,l.get t)) (d.view i (l.set (l.get s) t)))
    (refused : ∀ s, d.inv s → d.view i s = v → ∀ e, f i (l.set copy s) = .error e → post (.error e) v) :
    d.Safe i ((Prog.tryAtomic f).buffered l copy) v post := by
  intro s valid seen
  cases ran : f i (l.set copy s) with
  | ok result =>
    simp only [ran]
    exact step s valid seen _ _ ran
  | error e =>
    simp only [ran,Lens.set_set,Lens.set_get]
    exact ⟨idle s valid,seen.symm ▸ refused s valid seen e ran⟩

end Discipline
end Atomic

namespace Atomic.Prog
variable {ι σ τ ε α β : Type} {post : α → σ → Prop}

-- Undisturbed, call `i` running `p` returns a value and ends in `post`.
def Ends (i : ι) (p : Prog ι σ ε α) (s : σ) (post : α → σ → Prop) : Prop :=
  ∃ value t, Returns i p s value t ∧ post value t

-- The same as a test on a concrete run.
def endsWith (i : ι) (p : Prog ι σ ε α) (s : σ) (check : α → σ → Bool) : Bool :=
  match p.run i s with
  | (.ok value,t) => check value t
  | (.error _,_) => false

theorem endsWith_ends {p : Prog ι σ ε α} {check : α → σ → Bool} :
    endsWith i p s check = true ↔ Ends i p s fun value t => check value t = true := by
  unfold endsWith
  constructor
  · intro passed
    split at passed
    · rename_i value t ran
      exact ⟨value,t,ran,passed⟩
    · cases passed
  · intro ⟨value,t,returned,passed⟩
    rw [returned]
    exact passed

theorem Ends.mono {p : Prog ι σ ε α} {weaker : α → σ → Prop} (ends : Ends i p s post)
    (weaken : ∀ value t, post value t → weaker value t) : Ends i p s weaker := by
  obtain ⟨value,t,returned,holds⟩ := ends
  exact ⟨value,t,returned,weaken value t holds⟩

theorem Ends.bind {p : Prog ι σ ε α} {f : α → Prog ι σ ε β} {post : β → σ → Prop}
    (ends : Ends i p s fun value t => Ends i (f value) t post) : Ends i (p >>= f) s post := by
  obtain ⟨middle,u,first,result,t,second,holds⟩ := ends
  exact ⟨result,t,returns_bind.mpr ⟨middle,u,first,second⟩,holds⟩

theorem Ends.pure {value : α} (holds : post value s) : Ends i (Pure.pure value : Prog ι σ ε α) s post :=
  ⟨value,s,rfl,holds⟩

theorem Ends.atomic {f : ι → σ → α × σ} (holds : post (f i s).1 (f i s).2) :
    Ends i (Prog.atomic f : Prog ι σ ε α) s post := ⟨_,_,rfl,holds⟩

theorem Ends.tryAtomic {f : ι → σ → Except ε (α × σ)} (served : f i s = .ok (value,t)) (holds : post value t) :
    Ends i (Prog.tryAtomic f) s post := ⟨value,t,returns_tryAtomic.mpr served,holds⟩

theorem Ends.attempt {p : Prog ι σ ε α} {post : Except ε α → σ → Prop}
    (ends : Ends i p s fun value t => post (.ok value) t) : Ends i p.attempt s post := by
  obtain ⟨value,t,returned,holds⟩ := ends
  refine ⟨.ok value,t,?_,holds⟩
  unfold Returns
  rw [run_attempt,returned]

theorem Ends.zoom {l : Lens σ τ} {p : Prog ι τ ε α}
    (ends : Ends i p (l.get s) fun value t => post value (l.set t s)) : Ends i (p.zoom l) s post := by
  obtain ⟨value,t,returned,holds⟩ := ends
  exact ⟨value,l.set t s,(returns_zoom l).mpr ⟨t,returned,rfl⟩,holds⟩

theorem returns_buffered {l : Lens σ τ} {p : Prog ι σ ε α} (returned : Returns i p (l.set copy s) value t) :
    Returns i (p.buffered l copy) s (value,l.get t) (l.set (l.get s) t) := by
  unfold Returns at returned ⊢
  induction p generalizing copy s with
  | done result =>
    cases returned
    simp [buffered]
  | act update next ih =>
    simp only [buffered,run] at returned ⊢
    have resumed : (next i (l.set copy s)).run i (l.set (l.get (update i (l.set copy s)))
        (l.set (l.get s) (update i (l.set copy s)))) = (.ok value,t) := by simpa using returned
    simpa using ih i (l.set copy s) resumed

theorem Ends.transaction {l : Lens σ τ} {p : Prog ι σ ε α} {commit : τ → τ → Prog ι σ ε Unit}
    (ends : Ends i p s fun value t =>
      Ends i (commit (l.get s) (l.get t)) (l.set (l.get s) t) fun _ u => post value u) :
    Ends i (p.transaction l commit) s post := by
  obtain ⟨value,t,returned,committed⟩ := ends
  refine Ends.bind (Ends.atomic ?_)
  refine Ends.bind ⟨_,_,returns_buffered (by simpa using returned),?_⟩
  refine Ends.bind (committed.mono ?_)
  intro _ u holds
  exact Ends.pure holds

end Atomic.Prog

namespace Atomic
variable {ι κ σ ε α : Type}

-- Calls one after another, each left alone from its start to its end; the
-- surroundings move between calls. `permit` restricts the runs considered.
inductive Turn (program : κ → Prog ι σ ε α) (other : σ → σ → Prop) (permit : σ → κ → Prop) : σ → σ → Prop where
  | call (i : ι) (call : κ) (permitted : permit s call) : Turn program other permit s ((program call).run i s).2
  | other (moved : other s t) : Turn program other permit s t

abbrev Sequence (program : κ → Prog ι σ ε α) (other : σ → σ → Prop) (permit : σ → κ → Prop) :=
  Relation.ReflTransGen (Turn program other permit)

namespace Sequence
variable {program : κ → Prog ι σ ε α} {other : σ → σ → Prop} {permit : σ → κ → Prop} {inv : σ → Prop}

theorem invariant (kept : ∀ i call s, inv s → permit s call → inv ((program call).run i s).2)
    (quiet : ∀ s t, inv s → other s t → inv t) (initial : inv s) (path : Sequence program other permit s t) :
    inv t := by
  induction path with
  | refl => exact initial
  | tail _ turn ih =>
    cases turn with
    | call i call permitted => exact kept i call _ ih permitted
    | other moved => exact quiet _ _ ih moved

theorem after (path : Sequence program other permit s t) (i : ι) (permitted : permit t call) :
    Sequence program other permit s ((program call).run i t).2 := path.tail (.call i call permitted)

end Sequence
end Atomic
