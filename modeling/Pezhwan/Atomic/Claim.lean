import Pezhwan.Atomic.Trace

-- Calls that look at a resource and claim it in a later action.
namespace Atomic.Config
open Relation
variable {ι κ σ ρ : Type} [DecidableEq ι]

section
variable (claims : κ → List (σ × σ) → σ → Option ρ)

-- What an event claims, by the moves its call has made before.
def claim (past : List (Event ι κ σ)) (event : Event ι κ σ) : Option ρ :=
  claims event.call (mine event.who past) event.before

-- All that the events of a trace claim.
def claimed : List (Event ι κ σ) → List ρ
  | [] => []
  | event :: past => (claim claims past event).toList ++ claimed past

-- Another call has claimed `r` since call `i` made its move number `n`.
def Rivalled (n : Nat) (r : ρ) (i : ι) : List (Event ι κ σ) → Prop
  | [] => False
  | event :: past => n ≤ (mine i past).length ∧
      ((event.who ≠ i ∧ claim claims past event = some r) ∨ Rivalled n r i past)

-- The number of the move with which a call has looked at what it claims next.
variable (look : List (σ × σ) → Nat)

-- Nobody claims what another call has claimed since the look.
def Unrivalled : List (Event ι κ σ) → Prop
  | [] => True
  | event :: past =>
    (∀ r ∈ claim claims past event, ¬ Rivalled claims (look (mine event.who past)) r event.who past) ∧ Unrivalled past

variable {claims look}

def Rivalled.decide [DecidableEq ρ] (claims : κ → List (σ × σ) → σ → Option ρ) (n : Nat) (r : ρ) (i : ι) :
    (past : List (Event ι κ σ)) → Decidable (Rivalled claims n r i past)
  | [] => .isFalse id
  | _ :: past => @instDecidableAnd _ _ inferInstance (@instDecidableOr _ _ inferInstance (decide claims n r i past))

instance [DecidableEq ρ] (r : ρ) (i : ι) (past : List (Event ι κ σ)) : Decidable (Rivalled claims n r i past) :=
  Rivalled.decide claims n r i past

def Unrivalled.decide [DecidableEq ρ] (claims : κ → List (σ × σ) → σ → Option ρ) (look : List (σ × σ) → Nat) :
    (past : List (Event ι κ σ)) → Decidable (Unrivalled claims look past)
  | [] => .isTrue trivial
  | event :: past =>
    have : Decidable (∀ r ∈ claim claims past event, ¬ Rivalled claims (look (mine event.who past)) r event.who past) :=
      match claimed : claim claims past event with
      | none => .isTrue (by simp)
      | some r => decidable_of_iff (¬ Rivalled claims (look (mine event.who past)) r event.who past) (by simp)
    @instDecidableAnd _ _ this (decide claims look past)

instance [DecidableEq ρ] (past : List (Event ι κ σ)) : Decidable (Unrivalled claims look past) :=
  Unrivalled.decide claims look past

theorem claimed_at {later earlier : List (Event ι κ σ)} (found : claim claims earlier event = some r) :
    r ∈ claimed claims (later ++ event :: earlier) := by
  induction later with
  | nil => simp [claimed,found]
  | cons newest later ih => exact List.mem_append_right _ ih

theorem claimed_again {later earlier : List (Event ι κ σ)} (once : (claimed claims (later ++ event :: earlier)).Nodup)
    (found : claim claims earlier event = some r) : r ∉ claimed claims earlier := by
  induction later with
  | nil =>
    simp only [List.nil_append,claimed,found,Option.toList_some,List.singleton_append,List.nodup_cons] at once
    exact once.1
  | cons newest later ih => exact ih (List.nodup_append.mp once).2.1

omit [DecidableEq ι] in
theorem event_order {later earlier later' earlier' : List (Event ι κ σ)}
    (same : later ++ event :: earlier = later' ++ event' :: earlier') :
    (event = event' ∧ earlier = earlier') ∨ (∃ between, earlier = between ++ event' :: earlier') ∨
      ∃ between, earlier' = between ++ event :: earlier := by
  rcases List.append_eq_append_iff.mp same with ⟨between,_,tail⟩ | ⟨between,_,tail⟩
  · cases between with
    | nil =>
      simp only [List.nil_append,List.cons.injEq] at tail
      exact .inl tail
    | cons head between =>
      simp only [List.cons_append,List.cons.injEq] at tail
      exact .inr (.inl ⟨between,tail.2⟩)
  · cases between with
    | nil =>
      simp only [List.nil_append,List.cons.injEq] at tail
      exact .inl ⟨tail.1.symm,tail.2.symm⟩
    | cons head between =>
      simp only [List.cons_append,List.cons.injEq] at tail
      exact .inr (.inr ⟨between,tail.2⟩)

theorem claimed_once {later earlier later' earlier' : List (Event ι κ σ)} (once : (claimed claims past).Nodup)
    (whole : past = later ++ event :: earlier) (whole' : past = later' ++ event' :: earlier')
    (found : claim claims earlier event = some r) (found' : claim claims earlier' event' = some r) :
    event = event' ∧ earlier = earlier' := by
  rcases event_order (whole.symm.trans whole') with same | ⟨between,split⟩ | ⟨between,split⟩
  · exact same
  · rw [whole] at once
    refine absurd ?_ (claimed_again once found)
    rw [split]
    exact claimed_at found'
  · rw [whole'] at once
    refine absurd ?_ (claimed_again once found')
    rw [split]
    exact claimed_at found

theorem mine_longer {later earlier : List (Event ι κ σ)} : (mine i earlier).length ≤ (mine i (later ++ earlier)).length := by
  unfold mine
  rw [List.filterMap_append,List.length_append]
  omega

theorem rivalled_at {later earlier : List (Event ι κ σ)} (other : event.who ≠ i) (claimed : claim claims earlier event = some r)
    (looked : n ≤ (mine i earlier).length) : Rivalled claims n r i (later ++ event :: earlier) := by
  induction later with
  | nil => exact ⟨looked,.inl ⟨other,claimed⟩⟩
  | cons newest later ih =>
    refine ⟨?_,.inr ih⟩
    have longer := @mine_longer ι κ σ _ i (later ++ [event]) earlier
    rw [List.append_assoc] at longer
    exact Nat.le_trans looked longer

theorem unrivalled_at {later earlier : List (Event ι κ σ)} (unrivalled : Unrivalled claims look (later ++ event :: earlier))
    (claimed : claim claims earlier event = some r) :
    ¬ Rivalled claims (look (mine event.who earlier)) r event.who earlier := by
  induction later with
  | nil => exact unrivalled.1 r claimed
  | cons newest later ih => exact ih unrivalled.2

end

-- `live r s`: in state `s` the resource can be looked at. A claim ends that, and
-- what has been live does not become live again.
structure Expendable (live : ρ → σ → Prop) (claims : κ → List (σ × σ) → σ → Option ρ) (look : List (σ × σ) → Nat)
    (other : σ → σ → Prop) (past : List (Event ι κ σ)) : Prop where
  seen : ∀ later event earlier r, past = later ++ event :: earlier → claim claims earlier event = some r →
    ∃ newer move older, mine event.who earlier = newer ++ move :: older ∧
      older.length + 1 = look (mine event.who earlier) ∧ live r move.1
  spent : ∀ later event earlier r, past = later ++ event :: earlier → claim claims earlier event = some r → ¬ live r event.after
  settled : ∀ later event earlier r, past = later ++ event :: earlier → (∃ old ∈ earlier, live r old.before) →
    ¬ live r event.before → ¬ live r event.after
  quiet : ∀ r s t, other s t → ¬ live r s → ¬ live r t

-- What has been live and is so no more does not become live again.
structure Mortal (live : ρ → σ → Prop) (other : σ → σ → Prop) (past : List (Event ι κ σ)) : Prop where
  settled : ∀ later event earlier r, past = later ++ event :: earlier → (∃ old ∈ earlier, live r old.before) →
    ¬ live r event.before → ¬ live r event.after
  quiet : ∀ r s t, other s t → ¬ live r s → ¬ live r t

section
variable {live : ρ → σ → Prop} {claims : κ → List (σ × σ) → σ → Option ρ} {look : List (σ × σ) → Nat}
  {other : σ → σ → Prop} {past : List (Event ι κ σ)} {initial : σ}

omit [DecidableEq ι] in
theorem Mortal.gone_stays {later middle earlier : List (Event ι κ σ)} (mortal : Mortal live other past)
    (whole : past = later ++ (middle ++ event :: earlier)) (linked : Linked other initial (middle ++ event :: earlier) s)
    (once : ∃ old ∈ event :: earlier, live r old.before) (gone : ¬ live r event.after) : ¬ live r s := by
  have still : ∀ {a b}, ReflTransGen other a b → ¬ live r a → ¬ live r b := by
    intro a b moves dead
    induction moves with
    | refl => exact dead
    | tail _ step ih => exact mortal.quiet r _ _ step ih
  induction middle generalizing later s with
  | nil => exact still linked.1 gone
  | cons newest middle ih =>
    have before : ¬ live r newest.before := @ih newest.before (later ++ [newest]) (by simp [whole]) linked.2
    obtain ⟨old,listed,alive⟩ := once
    have after := mortal.settled later newest (middle ++ event :: earlier) r whole
      ⟨old,List.mem_append_right _ listed,alive⟩ before
    exact still linked.1 after

theorem Expendable.mortal (expendable : Expendable live claims look other past) : Mortal live other past :=
  ⟨expendable.settled,expendable.quiet⟩

theorem Expendable.second_claim {later middle earlier : List (Event ι κ σ)} {second first : Event ι κ σ}
    (expendable : Expendable live claims look other past) (linked : Linked other initial past s)
    (unrivalled : Unrivalled claims look past) (whole : past = later ++ second :: (middle ++ first :: earlier))
    (claimed : claim claims (middle ++ first :: earlier) second = some r) (before : claim claims earlier first = some r) :
    second.who = first.who := by
  by_contra different
  rw [whole] at unrivalled
  have free := unrivalled_at unrivalled claimed
  have short : (mine second.who earlier).length < look (mine second.who (middle ++ first :: earlier)) := by
    by_contra long
    exact free (rivalled_at (fun same => different same.symm) before (by omega))
  obtain ⟨newer,move,older,own,position,alive⟩ := expendable.seen _ _ _ _ whole claimed
  obtain ⟨front,looked,rest,split,who,rfl,same⟩ := mine_split newer own
  have gone : ¬ live r first.after :=
    expendable.spent (later ++ second :: middle) first earlier r (by simp [whole]) before
  have once : ∃ old ∈ first :: earlier, live r old.before := by
    obtain ⟨newer',move',older',own',_,alive'⟩ :=
      expendable.seen (later ++ second :: middle) first earlier r (by simp [whole]) before
    obtain ⟨old,listed,_,same'⟩ := mine_member (own' ▸ List.mem_append_right newer' List.mem_cons_self)
    cases same'
    exact ⟨old,List.mem_cons_of_mem _ listed,alive'⟩
  rcases event_order split with ⟨rfl,_⟩ | ⟨between,rfl⟩ | ⟨between,rfl⟩
  · exact different who.symm
  · have longer : (mine second.who (looked :: rest)).length ≤ (mine second.who (between ++ looked :: rest)).length :=
      mine_longer
    rw [mine_cons,if_pos who,same,List.length_cons] at longer
    omega
  · have placed : past = (later ++ second :: front) ++ looked :: (between ++ first :: earlier) := by
      rw [whole,split]
      simp
    have before : past = (later ++ second :: front ++ [looked]) ++ (between ++ first :: earlier) := by
      rw [placed]
      simp
    exact expendable.mortal.gone_stays before (linked_at (placed ▸ linked)) once gone alive

theorem Expendable.claims_once {later earlier later' earlier' : List (Event ι κ σ)} {event event' : Event ι κ σ}
    (expendable : Expendable live claims look other past) (linked : Linked other initial past s)
    (unrivalled : Unrivalled claims look past) (whole : past = later ++ event :: earlier)
    (whole' : past = later' ++ event' :: earlier') (claimed : claim claims earlier event = some r)
    (claimed' : claim claims earlier' event' = some r) : event.who = event'.who := by
  rcases event_order (whole.symm.trans whole') with same | ⟨between,rfl⟩ | ⟨between,rfl⟩
  · rw [same.1]
  · exact expendable.second_claim linked unrivalled whole claimed claimed'
  · exact (expendable.second_claim linked unrivalled whole' claimed' claimed).symm

end
end Atomic.Config
