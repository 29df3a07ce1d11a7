import Pezhwan.Atomic.Pool
import Pezhwan.Atomic.Frame

namespace Atomic
open Relation
variable {ι κ σ τ ε α β : Type}

-- One action that was taken, by a call of which kind, and what it did.
structure Event (ι κ σ : Type) where
  who : ι
  call : κ
  before : σ
  after : σ

section
variable [DecidableEq ι] {call : ε → ι}

-- What call `i` wrote to a log.
def entriesOf (call : ε → ι) (i : ι) (log : List ε) : List ε := log.filter (call · = i)

theorem mem_entriesOf : entry ∈ entriesOf call i log ↔ entry ∈ log ∧ call entry = i := by
  simp [entriesOf]

theorem entriesOf_append : entriesOf call i (log ++ entries) = entriesOf call i log ++ entriesOf call i entries :=
  List.filter_append ..

end

namespace Prog
variable {inv : σ → Prop} {rule : List (σ × σ) → σ → σ → Prop} {i : ι} {memory : List (σ × σ)}

-- `Acts inv i rule p memory post`: call `i`, having made the moves in `memory`
-- (newest first), takes every further action by `rule` and ends in `post`,
-- whatever the others do to the state in between.
def Acts (inv : σ → Prop) (i : ι) (rule : List (σ × σ) → σ → σ → Prop) :
    Prog ι σ ε α → List (σ × σ) → (Except ε α → List (σ × σ) → Prop) → Prop
  | done result,memory,post => post result memory
  | act update next,memory,post => ∀ s, inv s →
      rule memory s (update i s) ∧ Acts inv i rule (next i s) ((s,update i s) :: memory) post

theorem Acts.mono {p : Prog ι σ ε α} {post weaker : Except ε α → List (σ × σ) → Prop}
    (acts : Acts inv i rule p memory post) (weaken : ∀ result moves, post result moves → weaker result moves) :
    Acts inv i rule p memory weaker := by
  induction p generalizing memory with
  | done result => exact weaken _ _ acts
  | act update next ih =>
    intro s valid
    obtain ⟨ruled,rest⟩ := acts s valid
    exact ⟨ruled,ih _ _ rest⟩

theorem Acts.bind {p : Prog ι σ ε α} {f : α → Prog ι σ ε β} {post : Except ε β → List (σ × σ) → Prop}
    (acts : Acts inv i rule p memory fun result moves => match result with
      | .ok value => Acts inv i rule (f value) moves post
      | .error e => post (.error e) moves) : Acts inv i rule (p >>= f) memory post := by
  induction p generalizing memory with
  | done result => cases result <;> exact acts
  | act update next ih =>
    intro s valid
    obtain ⟨ruled,rest⟩ := acts s valid
    exact ⟨ruled,ih _ _ rest⟩

theorem Acts.attempt {p : Prog ι σ ε α} {post : Except ε (Except ε α) → List (σ × σ) → Prop}
    (acts : Acts inv i rule p memory fun result moves => post (.ok result) moves) :
    Acts inv i rule p.attempt memory post := by
  induction p generalizing memory with
  | done result => exact acts
  | act update next ih =>
    intro s valid
    obtain ⟨ruled,rest⟩ := acts s valid
    exact ⟨ruled,ih _ _ rest⟩

theorem Acts.pure {value : α} {post : Except ε α → List (σ × σ) → Prop} (holds : post (.ok value) memory) :
    Acts inv i rule (Pure.pure value : Prog ι σ ε α) memory post := holds

theorem Acts.throw {e : ε} {post : Except ε α → List (σ × σ) → Prop} (holds : post (.error e) memory) :
    Acts inv i rule (Prog.throw e : Prog ι σ ε α) memory post := holds

theorem Acts.atomic {f : ι → σ → α × σ} {post : Except ε α → List (σ × σ) → Prop}
    (step : ∀ s, inv s → rule memory s (f i s).2 ∧ post (.ok (f i s).1) ((s,(f i s).2) :: memory)) :
    Acts inv i rule (Prog.atomic f : Prog ι σ ε α) memory post := step

theorem Acts.tryAtomic {f : ι → σ → Except ε (α × σ)} {post : Except ε α → List (σ × σ) → Prop}
    (served : ∀ s, inv s → ∀ value t, f i s = .ok (value,t) → rule memory s t ∧ post (.ok value) ((s,t) :: memory))
    (refused : ∀ s, inv s → ∀ e, f i s = .error e → rule memory s s ∧ post (.error e) ((s,s) :: memory)) :
    Acts inv i rule (Prog.tryAtomic f) memory post := by
  intro s valid
  cases ran : f i s with
  | ok result =>
    simp only [ran]
    exact served s valid _ _ ran
  | error e =>
    simp only [ran]
    exact refused s valid e ran

theorem Acts.zoom_atomic {l : Lens σ τ} {f : ι → τ → α × τ} {post : Except ε α → List (σ × σ) → Prop}
    (step : ∀ s, inv s → rule memory s (l.set (f i (l.get s)).2 s) ∧
      post (.ok (f i (l.get s)).1) ((s,l.set (f i (l.get s)).2 s) :: memory)) :
    Acts inv i rule ((Prog.atomic f : Prog ι τ ε α).zoom l) memory post := step

theorem Acts.keeps {r : σ → σ → Prop} {p : Prog ι σ ε α} {P : α → Prop} {post : Except ε α → List (σ × σ) → Prop}
    (keeps : p.Keeps r) (yields : p.Yields P) (harmless : ∀ moves s t, r s t → rule (moves ++ memory) s t)
    (ended : ∀ moves, (∀ move ∈ moves, r move.1 move.2) →
      (∀ e, post (.error e) (moves ++ memory)) ∧ ∀ value, P value → post (.ok value) (moves ++ memory)) :
    Acts inv i rule p memory post := by
  induction p generalizing memory with
  | done result =>
    obtain ⟨failed,returned⟩ := ended [] (by simp)
    cases result with
    | ok value => exact returned value yields
    | error e => exact failed e
  | act update next ih =>
    intro s _
    obtain ⟨moved,rest⟩ := keeps i s
    have whole : ∀ moves, moves ++ (s,update i s) :: memory = (moves ++ [(s,update i s)]) ++ memory := by simp
    refine ⟨harmless [] s _ moved,ih i s rest (yields i s) ?_ ?_⟩
    · intro moves u t step
      rw [whole]
      exact harmless _ u t step
    · intro moves kept
      rw [whole]
      apply ended
      intro move member
      rcases List.mem_append.mp member with earlier | last
      · exact kept move earlier
      · cases List.mem_singleton.mp last
        exact moved

theorem Acts.free {p : Prog ι σ ε α} {post : Except ε α → List (σ × σ) → Prop} (lax : ∀ moves s t, rule moves s t)
    (ended : ∀ result moves, post result moves) : Acts inv i rule p memory post := by
  induction p generalizing memory with
  | done result => exact ended _ _
  | act update next ih => exact fun s _ => ⟨lax _ _ _,ih _ _⟩

end Prog

namespace Config
variable [DecidableEq ι] {program : κ → Prog ι σ ε α} {other : σ → σ → Prop} {initial : σ}

-- Runs from an initial state with the list of the actions taken, newest first.
inductive Traced (program : κ → Prog ι σ ε α) (other : σ → σ → Prop) (initial : σ) :
    List (Event ι κ σ) → Config ι κ σ ε α → Prop where
  | initial : Traced program other initial [] (start initial)
  | start (path : Traced program other initial past c) (i : ι) (call : κ) (free : c.calls i = none) :
      Traced program other initial past {c with calls := Function.update c.calls i (some (call,program call))}
  | act {call : κ} {update : ι → σ → σ} {next : ι → σ → Prog ι σ ε α} (path : Traced program other initial past c)
      (i : ι) (running : c.calls i = some (call,.act update next)) :
      Traced program other initial (⟨i,call,c.state,update i c.state⟩ :: past)
        ⟨update i c.state,Function.update c.calls i (some (call,next i c.state))⟩
  | other (path : Traced program other initial past c) (moved : other c.state s) :
      Traced program other initial past {c with state := s}

theorem traced_runs (traced : Traced program other initial past c) :
    Runs program other (fun _ _ => True) (start initial) c := by
  induction traced with
  | initial => exact .refl
  | start _ i call free ih => exact ih.tail (.start i call free)
  | act _ i running ih => exact ih.tail (.act i running trivial)
  | other _ moved ih => exact ih.tail (.other moved)

theorem runs_traced (path : Runs program other (fun _ _ => True) (start initial) c) :
    ∃ past, Traced program other initial past c := by
  induction path with
  | refl => exact ⟨[],.initial⟩
  | tail _ step ih =>
    obtain ⟨past,traced⟩ := ih
    cases step with
    | start i call free => exact ⟨past,traced.start i call free⟩
    | act i running _ => exact ⟨_,traced.act i running⟩
    | other moved => exact ⟨past,traced.other moved⟩

theorem traced_call (traced : Traced program other initial past c) (member : event ∈ past) :
    ∃ p, c.calls event.who = some (event.call,p) := by
  induction traced with
  | initial => cases member
  | start _ i call free ih =>
    obtain ⟨p,running⟩ := ih member
    have other : event.who ≠ i := by
      rintro rfl
      rw [free] at running
      cases running
    exact ⟨p,by simpa [other] using running⟩
  | @act past c call update next path i running ih =>
    rcases List.mem_cons.mp member with rfl | earlier
    · exact ⟨_,Function.update_self i _ c.calls⟩
    · obtain ⟨p,known⟩ := ih earlier
      by_cases same : event.who = i
      · rw [same,running] at known
        simp only [Option.some.injEq,Prod.mk.injEq] at known
        rw [same,← known.1]
        exact ⟨_,Function.update_self i _ c.calls⟩
      · exact ⟨p,by simpa [same] using known⟩
  | other _ _ ih => exact ih member

theorem traced_steadfast (traced : Traced program other initial past c) :
    ∀ a ∈ past, ∀ b ∈ past, a.who = b.who → a.call = b.call := by
  intro a one b two same
  obtain ⟨p,running⟩ := traced_call traced one
  obtain ⟨q,running'⟩ := traced_call traced two
  rw [same,running'] at running
  exact (congrArg Prod.fst (Option.some.inj running)).symm

theorem traced_before {later earlier : List (Event ι κ σ)}
    (traced : Traced program other initial (later ++ event :: earlier) c) :
    ∃ c', Traced program other initial earlier c' ∧ c'.state = event.before := by
  generalize whole : later ++ event :: earlier = past at traced
  induction traced generalizing later with
  | initial => simp at whole
  | start _ _ _ _ ih => exact ih whole
  | act path _ _ ih =>
    cases later with
    | nil =>
      simp only [List.nil_append,List.cons.injEq] at whole
      obtain ⟨rfl,rfl⟩ := whole
      exact ⟨_,path,rfl⟩
    | cons latest later =>
      simp only [List.cons_append,List.cons.injEq] at whole
      exact ih whole.2
  | other _ _ ih => exact ih whole

theorem traced_events {P : Event ι κ σ → Prop}
    (step : ∀ past c i call update next, Traced program other initial past c →
      c.calls i = some (call,.act update next) → P ⟨i,call,c.state,update i c.state⟩)
    (traced : Traced program other initial past c) : ∀ event ∈ past, P event := by
  induction traced with
  | initial => simp
  | start _ _ _ _ ih => exact ih
  | @act past c call update next path i running ih =>
    intro event member
    rcases List.mem_cons.mp member with rfl | earlier
    · exact step past c i call update next path running
    · exact ih event earlier
  | other _ _ ih => exact ih

-- The moves of one call.
def mine (i : ι) (past : List (Event ι κ σ)) : List (σ × σ) :=
  past.filterMap fun event => if event.who = i then some (event.before,event.after) else none

@[simp] theorem mine_nil (i : ι) : mine i ([] : List (Event ι κ σ)) = [] := rfl

@[simp] theorem mine_cons (i : ι) (event : Event ι κ σ) (past : List (Event ι κ σ)) :
    mine i (event :: past) = if event.who = i then (event.before,event.after) :: mine i past else mine i past := by
  by_cases own : event.who = i <;> simp [mine,own]

theorem mine_append (i : ι) (newer older : List (Event ι κ σ)) : mine i (newer ++ older) = mine i newer ++ mine i older :=
  List.filterMap_append

theorem mine_split {past : List (Event ι κ σ)} (newer : List (σ × σ)) (split : mine i past = newer ++ move :: older) :
    ∃ later event earlier, past = later ++ event :: earlier ∧ event.who = i ∧
      move = (event.before,event.after) ∧ mine i earlier = older := by
  induction past generalizing newer with
  | nil => simp at split
  | cons event past ih =>
    by_cases own : event.who = i
    · rw [mine_cons,if_pos own] at split
      cases newer with
      | nil =>
        simp only [List.nil_append,List.cons.injEq] at split
        exact ⟨[],event,past,rfl,own,split.1.symm,split.2⟩
      | cons newest newer =>
        simp only [List.cons_append,List.cons.injEq] at split
        obtain ⟨later,found,earlier,rfl,rest⟩ := ih newer split.2
        exact ⟨event :: later,found,earlier,rfl,rest⟩
    · rw [mine_cons,if_neg own] at split
      obtain ⟨later,found,earlier,rfl,rest⟩ := ih _ split
      exact ⟨event :: later,found,earlier,rfl,rest⟩

-- Every action of the trace followed the rule of its call.
def Along (rule : κ → List (σ × σ) → σ → σ → Prop) : List (Event ι κ σ) → Prop
  | [] => True
  | event :: past => rule event.call (mine event.who past) event.before event.after ∧ Along rule past

-- What is known of every call at the end of a trace.
structure Kept (inv : σ → Prop) (rule : κ → List (σ × σ) → σ → σ → Prop)
    (post : κ → Except ε α → List (σ × σ) → Prop) (past : List (Event ι κ σ)) (c : Config ι κ σ ε α) : Prop where
  along : Along rule past
  idle : ∀ i, c.calls i = none → mine i past = []
  busy : ∀ i call p, c.calls i = some (call,p) → p.Acts inv i (rule call) (mine i past) (post call)

section
variable {inv : σ → Prop} {rule : κ → List (σ × σ) → σ → σ → Prop} {post : κ → Except ε α → List (σ × σ) → Prop}

theorem Kept.start {past : List (Event ι κ σ)} {c : Config ι κ σ ε α} (kept : Kept inv rule post past c) (i : ι) (call : κ)
    (free : c.calls i = none) (acts : (program call).Acts inv i (rule call) [] (post call)) :
    Kept inv rule post past {c with calls := Function.update c.calls i (some (call,program call))} := by
  refine ⟨kept.along,?_,?_⟩
  · intro j none
    by_cases same : j = i
    · subst same; simp at none
    · exact kept.idle j (by simpa [same] using none)
  · intro j call' p running
    by_cases same : j = i
    · subst same
      simp only [Function.update_self,Option.some.injEq,Prod.mk.injEq] at running
      obtain ⟨rfl,rfl⟩ := running
      rw [kept.idle j free]
      exact acts
    · exact kept.busy j call' p (by simpa [same] using running)

theorem Kept.act {past : List (Event ι κ σ)} {c : Config ι κ σ ε α} {update : ι → σ → σ} {next : ι → σ → Prog ι σ ε α}
    (kept : Kept inv rule post past c) (valid : inv c.state) (i : ι) {call : κ}
    (running : c.calls i = some (call,.act update next)) :
    rule call (mine i past) c.state (update i c.state) ∧ Kept inv rule post (⟨i,call,c.state,update i c.state⟩ :: past)
      ⟨update i c.state,Function.update c.calls i (some (call,next i c.state))⟩ := by
  obtain ⟨ruled,rest⟩ := kept.busy i call _ running c.state valid
  refine ⟨ruled,⟨ruled,kept.along⟩,?_,?_⟩
  · intro j none
    by_cases same : j = i
    · subst same; simp at none
    · have others : i ≠ j := fun equal => same equal.symm
      simp only [mine_cons,others,if_false]
      exact kept.idle j (by simpa [same] using none)
  · intro j call' p continued
    by_cases same : j = i
    · subst same
      simp only [Function.update_self,Option.some.injEq,Prod.mk.injEq] at continued
      obtain ⟨rfl,rfl⟩ := continued
      simpa using rest
    · have others : i ≠ j := fun equal => same equal.symm
      simp only [mine_cons,others,if_false]
      exact kept.busy j call' p (by simpa [same] using continued)

theorem Kept.empty : Kept inv rule post [] (Config.start initial : Config ι κ σ ε α) := by
  refine ⟨trivial,fun i _ => rfl,?_⟩
  intro i call p running
  simp [Config.start] at running

theorem traced_kept (acts : ∀ i call, (program call).Acts inv i (rule call) [] (post call))
    (valid : ∀ past c, Traced program other initial past c → inv c.state)
    (traced : Traced program other initial past c) : Kept inv rule post past c := by
  induction traced with
  | initial => exact .empty
  | start _ i call free ih => exact ih.start i call free (acts i call)
  | @act past c call update next path i running ih => exact (ih.act (valid past c path) i running).2
  | other path moved ih => exact ⟨ih.along,ih.idle,ih.busy⟩

theorem traced_inv (acts : ∀ i call, (program call).Acts inv i (rule call) [] (post call))
    (own : ∀ {call memory s t}, rule call memory s t → inv s → inv t) (quiet : ∀ {s t}, other s t → inv s → inv t)
    (first : inv initial) (traced : Traced program other initial past c) : Kept inv rule post past c ∧ inv c.state := by
  induction traced with
  | initial => exact ⟨.empty,first⟩
  | start _ i call free ih => exact ⟨ih.1.start i call free (acts i call),ih.2⟩
  | act _ i running ih =>
    obtain ⟨ruled,kept⟩ := ih.1.act ih.2 i running
    exact ⟨kept,own ruled ih.2⟩
  | other path moved ih => exact ⟨⟨ih.1.along,ih.1.idle,ih.1.busy⟩,quiet moved ih.2⟩

end

-- How the states of a trace hang together: the surroundings move the state
-- between two actions and after the last one.
def Linked (other : σ → σ → Prop) (initial : σ) : List (Event ι κ σ) → σ → Prop
  | [],s => ReflTransGen other initial s
  | event :: past,s => ReflTransGen other event.after s ∧ Linked other initial past event.before

omit [DecidableEq ι] in
theorem linked_other {past : List (Event ι κ σ)} (linked : Linked other initial past s) (moved : other s t) :
    Linked other initial past t := by
  cases past with
  | nil => exact linked.tail moved
  | cons event past => exact ⟨linked.1.tail moved,linked.2⟩

theorem traced_linked (traced : Traced program other initial past c) : Linked other initial past c.state := by
  induction traced with
  | initial => exact .refl
  | start _ _ _ _ ih => exact ih
  | act _ i _ ih => exact ⟨.refl,ih⟩
  | other _ moved ih => exact linked_other ih moved

-- The events since move number `n` of call `i`, counted back from its latest
-- one as number 0, that move included.
def since (i : ι) : Nat → List (Event ι κ σ) → List (Event ι κ σ)
  | _,[] => []
  | n,event :: past => event :: if event.who = i then (match n with | 0 => [] | n+1 => since i n past) else since i n past

theorem since_listed {past : List (Event ι κ σ)} (member : event ∈ since i n past) : event ∈ past := by
  induction past generalizing n with
  | nil => cases member
  | cons head past ih =>
    rcases List.mem_cons.mp member with rfl | earlier
    · exact List.mem_cons_self
    · apply List.mem_cons_of_mem
      split at earlier
      · cases n with
        | zero => cases earlier
        | succ n => exact ih earlier
      · exact ih earlier

theorem since_fewer {past : List (Event ι κ σ)} (fewer : m ≤ n) (member : event ∈ since i m past) : event ∈ since i n past := by
  induction past generalizing m n with
  | nil => cases member
  | cons head past ih =>
    rcases List.mem_cons.mp member with rfl | earlier
    · exact List.mem_cons_self
    · apply List.mem_cons_of_mem
      split at earlier
      · rename_i own
        rw [if_pos own]
        cases m with
        | zero => cases earlier
        | succ m =>
          cases n with
          | zero => omega
          | succ n => exact ih (Nat.le_of_succ_le_succ fewer) earlier
      · rename_i other
        rw [if_neg other]
        exact ih fewer earlier

-- The events since the first move of call `i`, that move included.
def during (i : ι) : List (Event ι κ σ) → List (Event ι κ σ)
  | [] => []
  | event :: past => if event.who = i ∨ mine i past ≠ [] then event :: during i past else []

theorem since_during {past : List (Event ι κ σ)} (found : (mine i past)[n]? = some move) (member : event ∈ since i n past) :
    event ∈ during i past := by
  induction past generalizing n with
  | nil => simp at found
  | cons head past ih =>
    by_cases own : head.who = i
    · simp only [during,own,true_or,if_true]
      simp only [since,own,if_true,List.mem_cons] at member
      rcases member with rfl | member
      · exact List.mem_cons_self
      · cases n with
        | zero => cases member
        | succ n =>
          simp only [mine_cons,own,if_true,List.getElem?_cons_succ] at found
          exact List.mem_cons_of_mem _ (ih found member)
    · simp only [mine_cons,own,if_false] at found
      have acted : mine i past ≠ [] := by
        rintro none
        simp [none] at found
      simp only [during,acted,ne_eq,not_false_eq_true,or_true,if_true]
      simp only [since,own,if_false,List.mem_cons] at member
      rcases member with rfl | member
      · exact List.mem_cons_self
      · exact List.mem_cons_of_mem _ (ih found member)

theorem since_kept {past : List (Event ι κ σ)} {r : σ → σ → Prop} (refl : ∀ s, r s s) (trans : ∀ {a b c}, r a b → r b c → r a c)
    (quiet : ∀ {s t}, other s t → r s t) (linked : Linked other initial past s)
    (kept : ∀ event ∈ since i n past, r event.before event.after) (found : (mine i past)[n]? = some (before,after)) :
    r before s ∧ r after s := by
  have still : ∀ {a b}, ReflTransGen other a b → r a b := by
    intro a b moves
    induction moves with
    | refl => exact refl a
    | tail _ step ih => exact trans ih (quiet step)
  induction past generalizing n s with
  | nil => simp at found
  | cons event past ih =>
    obtain ⟨moves,earlier⟩ := linked
    have last : r event.before s := trans (kept event (by simp [since])) (still moves)
    by_cases own : event.who = i
    · cases n with
      | zero =>
        simp only [mine_cons,own,if_true,List.getElem?_cons_zero,Option.some.injEq,Prod.mk.injEq] at found
        rw [← found.1,← found.2]
        exact ⟨last,still moves⟩
      | succ n =>
        simp only [mine_cons,own,if_true,List.getElem?_cons_succ] at found
        obtain ⟨first,second⟩ := ih earlier (fun older member => kept older (by simp [since,own,member])) found
        exact ⟨trans first last,trans second last⟩
    · simp only [mine_cons,own,if_false] at found
      obtain ⟨first,second⟩ := ih earlier (fun older member => kept older (by simp [since,own,member])) found
      exact ⟨trans first last,trans second last⟩

omit [DecidableEq ι] in
theorem linked_at {later earlier : List (Event ι κ σ)} (linked : Linked other initial (later ++ event :: earlier) s) :
    Linked other initial earlier event.before := by
  induction later generalizing s with
  | nil => exact linked.2
  | cons newest later ih => exact ih linked.2

omit [DecidableEq ι] in
theorem linked_kept {later earlier : List (Event ι κ σ)} {r : σ → σ → Prop} (refl : ∀ s, r s s)
    (trans : ∀ {a b c}, r a b → r b c → r a c) (quiet : ∀ {s t}, other s t → r s t)
    (linked : Linked other initial (later ++ event :: earlier) s)
    (kept : ∀ one ∈ later ++ [event], r one.before one.after) : r event.before s := by
  have still : ∀ {a b}, ReflTransGen other a b → r a b := by
    intro a b moves
    induction moves with
    | refl => exact refl a
    | tail _ step ih => exact trans ih (quiet step)
  induction later generalizing s with
  | nil => exact trans (kept event (by simp)) (still linked.1)
  | cons newest later ih =>
    have before := ih linked.2 fun one member => kept one (List.mem_cons_of_mem _ member)
    exact trans before (trans (kept newest (by simp)) (still linked.1))

omit [DecidableEq ι] in
theorem linked_since {later earlier : List (Event ι κ σ)} {P : σ → Prop} (quiet : ∀ {s t}, other s t → P s → P t)
    (linked : Linked other initial (later ++ event :: earlier) s) (first : P event.after)
    (kept : ∀ newer one older, later = newer ++ one :: older → P one.before → P one.after) :
    P s ∧ ∀ one ∈ later, P one.before := by
  have still : ∀ {a b}, ReflTransGen other a b → P a → P b := by
    intro a b moves holds
    induction moves with
    | refl => exact holds
    | tail _ step ih => exact quiet step ih
  induction later generalizing s with
  | nil => exact ⟨still linked.1 first,fun _ none => nomatch none⟩
  | cons newest later ih =>
    obtain ⟨before,earlier⟩ := ih linked.2 fun newer one older split => kept (newest :: newer) one older (by rw [split]; rfl)
    refine ⟨still linked.1 (kept [] newest later rfl before),?_⟩
    intro one listed
    rcases List.mem_cons.mp listed with rfl | older
    · exact before
    · exact earlier one older

omit [DecidableEq ι] in
theorem linked_always {past : List (Event ι κ σ)} {P : σ → Prop} (quiet : ∀ {s t}, other s t → P s → P t)
    (linked : Linked other initial past s) (first : P initial) (kept : ∀ one ∈ past, P one.before → P one.after) : P s := by
  have still : ∀ {a b}, ReflTransGen other a b → P a → P b := by
    intro a b moves holds
    induction moves with
    | refl => exact holds
    | tail _ step ih => exact quiet step ih
  induction past generalizing s with
  | nil => exact still linked first
  | cons newest past ih =>
    have before := ih linked.2 fun one listed => kept one (List.mem_cons_of_mem _ listed)
    exact still linked.1 (kept newest List.mem_cons_self before)

omit [DecidableEq ι] in
theorem compare_places {newer older newer' older' : List (Event ι κ σ)} {one other : Event ι κ σ}
    (same : newer ++ one :: older = newer' ++ other :: older') :
    (∃ middle, older = middle ++ other :: older' ∧ newer' = newer ++ one :: middle) ∨ one = other ∨
      ∃ middle, older' = middle ++ one :: older ∧ newer = newer' ++ other :: middle := by
  rcases List.append_eq_append_iff.mp same with ⟨between,rfl,split⟩ | ⟨between,rfl,split⟩
  · cases between with
    | nil =>
      simp only [List.nil_append,List.cons.injEq] at split
      exact .inr (.inl split.1)
    | cons first middle =>
      simp only [List.cons_append,List.cons.injEq] at split
      obtain ⟨rfl,rfl⟩ := split
      exact .inl ⟨middle,rfl,rfl⟩
  · cases between with
    | nil =>
      simp only [List.nil_append,List.cons.injEq] at split
      exact .inr (.inl split.1.symm)
    | cons first middle =>
      simp only [List.cons_append,List.cons.injEq] at split
      obtain ⟨rfl,rfl⟩ := split
      exact .inr (.inr ⟨middle,rfl,rfl⟩)

theorem along_at {rule : κ → List (σ × σ) → σ → σ → Prop} {later earlier : List (Event ι κ σ)}
    (along : Along rule (later ++ event :: earlier)) :
    rule event.call (mine event.who earlier) event.before event.after ∧ Along rule earlier := by
  induction later with
  | nil => exact along
  | cons newest later ih => exact ih along.2

theorem during_split {later earlier : List (Event ι κ σ)} (own : event.who = i) (first : mine i earlier = []) :
    during i (later ++ event :: earlier) = later ++ [event] := by
  induction later with
  | nil =>
    have nothing : during i earlier = [] := by
      cases earlier with
      | nil => rfl
      | cons head rest =>
        by_cases mineToo : head.who = i
        · simp [mineToo] at first
        · have older : mine i rest = [] := by simpa [mineToo] using first
          simp [during,mineToo,older]
    simp [during,own,nothing]
  | cons newest later ih =>
    have acted : mine i (later ++ event :: earlier) ≠ [] := by
      have listed : (event.before,event.after) ∈ mine i (later ++ event :: earlier) :=
        List.mem_filterMap.mpr ⟨event,by simp,by simp [own]⟩
      exact List.ne_nil_of_mem listed
    simp only [List.cons_append,during,ne_eq,acted,not_false_eq_true,or_true,if_true,ih]

theorem mine_member {past : List (Event ι κ σ)} (member : move ∈ mine i past) :
    ∃ event ∈ past, event.who = i ∧ move = (event.before,event.after) := by
  obtain ⟨event,listed,same⟩ := List.mem_filterMap.mp member
  split at same
  · rename_i own
    exact ⟨event,listed,own,(Option.some.inj same).symm⟩
  · cases same

-- Calls one at a time, told by who acted (newest first): whoever has acted
-- before was also the last one to act.
def Serial : List ι → Prop
  | [] => True
  | i :: rest => (i ∈ rest → rest.head? = some i) ∧ Serial rest

def Serial.decide : (ids : List ι) → Decidable (Serial ids)
  | [] => .isTrue trivial
  | _ :: rest => @instDecidableAnd _ _ inferInstance (decide rest)

instance (ids : List ι) : Decidable (Serial ids) := Serial.decide ids

theorem serial_last {past : List (Event ι κ σ)} (serial : Serial (i :: past.map Event.who))
    (own : mine i past = move :: older) : ∃ event rest, past = event :: rest ∧ event.who = i ∧
      move = (event.before,event.after) ∧ mine i rest = older ∧ Serial (i :: rest.map Event.who) := by
  obtain ⟨event,listed,who,_⟩ := mine_member (own ▸ List.mem_cons_self)
  have acted : i ∈ past.map Event.who := who ▸ List.mem_map_of_mem listed
  have head := serial.1 acted
  cases past with
  | nil => cases head
  | cons event rest =>
    have same : event.who = i := by simpa using head
    rw [mine_cons,if_pos same,List.cons.injEq] at own
    refine ⟨event,rest,rfl,same,own.1.symm,own.2,?_⟩
    have further := serial.2
    rw [List.map_cons,same] at further
    exact further

-- A concrete schedule with what the surroundings do in between.
inductive Cue (ι κ σ : Type) where
  | start (i : ι) (call : κ)
  | act (i : ι)
  | other (change : σ → σ)

variable (program) in
def cue (past : List (Event ι κ σ)) (c : Config ι κ σ ε α) : Cue ι κ σ → Option (List (Event ι κ σ) × Config ι κ σ ε α)
  | .start i call => match c.calls i with
    | none => some (past,{c with calls := Function.update c.calls i (some (call,program call))})
    | some _ => none
  | .act i => match c.calls i with
    | some (call,.act update next) => some (⟨i,call,c.state,update i c.state⟩ :: past,
        ⟨update i c.state,Function.update c.calls i (some (call,next i c.state))⟩)
    | _ => none
  | .other change => some (past,{c with state := change c.state})

variable (program) in
def perform : List (Event ι κ σ) → Config ι κ σ ε α → List (Cue ι κ σ) → Option (List (Event ι κ σ) × Config ι κ σ ε α)
  | past,c,[] => some (past,c)
  | past,c,first :: rest => (cue program past c first).bind fun after => perform after.1 after.2 rest

theorem cue_traced (allowed : ∀ change, first = .other change → ∀ s, other s (change s))
    (traced : Traced program other initial past c) (cued : cue program past c first = some after) :
    Traced program other initial after.1 after.2 := by
  cases first with
  | start i call =>
    simp only [cue] at cued
    split at cued
    · rename_i free; cases cued; exact traced.start i call free
    · cases cued
  | act i =>
    simp only [cue] at cued
    split at cued
    · rename_i running; cases cued; exact traced.act i running
    · cases cued
  | other change =>
    cases cued
    exact traced.other (allowed change rfl c.state)

theorem perform_traced {cues : List (Cue ι κ σ)}
    (allowed : ∀ change, .other change ∈ cues → ∀ s, other s (change s))
    (traced : Traced program other initial past c) (performed : perform program past c cues = some after) :
    Traced program other initial after.1 after.2 := by
  induction cues generalizing past c with
  | nil => cases performed; exact traced
  | cons first rest ih =>
    obtain ⟨middle,cued,remaining⟩ := Option.bind_eq_some_iff.mp performed
    refine ih ?_ (cue_traced ?_ traced cued) remaining
    · intro change member
      exact allowed change (List.mem_cons_of_mem _ member)
    · intro change same
      exact allowed change (same ▸ List.mem_cons_self)

theorem perform_exists {cues : List (Cue ι κ σ)} {check : List (Event ι κ σ) × Config ι κ σ ε α → Bool}
    (passed : (perform program [] (start initial) cues).any check = true)
    (allowed : ∀ change, .other change ∈ cues → ∀ s, other s (change s) := by simp) :
    ∃ past c, Traced program other initial past c ∧ check (past,c) = true := by
  obtain ⟨⟨past,c⟩,performed,checked⟩ := (Option.any_eq_true _ _).mp passed
  exact ⟨past,c,perform_traced allowed .initial performed,checked⟩

end Config
end Atomic
