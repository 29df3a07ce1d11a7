import Mathlib.Data.List.Chain
import Mathlib.Tactic.Common

-- Counters that start over when a window has passed: the window is fixed at the
-- first count, or moves on with each count.
namespace Atomic

structure Window where
  count : Nat
  ends : Nat
  deriving DecidableEq, Repr

namespace Window
variable {length limit : Nat}

def fixed (length time : Nat) : Option Window → Window
  | some w => if time < w.ends then ⟨w.count+1,w.ends⟩ else ⟨1,time+length⟩
  | none => ⟨1,time+length⟩

def sliding (length time : Nat) : Option Window → Window
  | some w => if time ≤ w.ends then ⟨w.count+1,time+length⟩ else ⟨1,time+length⟩
  | none => ⟨1,time+length⟩

theorem fixed_begun (length time : Nat) (state : Option Window) : 0 < (fixed length time state).count := by
  unfold fixed
  split
  · split <;> simp
  · simp

theorem sliding_begun (length time : Nat) (state : Option Window) : 0 < (sliding length time state).count := by
  unfold sliding
  split
  · split <;> simp
  · simp

-- The counts that requests at these times are answered with.
def counts (step : Nat → Option Window → Window) : Option Window → List Nat → List Nat
  | _,[] => []
  | state,time :: times => (step time state).count :: counts step (some (step time state)) times

def allowed (limit : Nat) (step : Nat → Option Window → Window) (times : List Nat) : List Bool :=
  (counts step none times).map (· ≤ limit)

-- Among requests that follow each other within a window's length, those beyond
-- the limit come less than that length after the first.
def Calm (length limit : Nat) (times : List Nat) : Prop :=
  ∀ first middle last, first :: middle ++ [last] <:+: times →
    (first :: middle ++ [last]).IsChain (fun s t => t ≤ s + length) → limit ≤ middle.length + 1 → last < first + length

-- The state after requests, given newest first.
def after (step : Nat → Option Window → Window) : List Nat → Option Window
  | [] => none
  | time :: past => some (step time (after step past))

def countOf (step : Nat → Option Window → Window) (past : List Nat) : Nat := ((after step past).map Window.count).getD 0

theorem counts_agree {one two : Nat → Option Window → Window} {p q : Nat → Bool} (past times : List Nat) :
    (counts one (after one past) times).map p = (counts two (after two past) times).map q ↔
      ∀ recent, recent <:+ times.reverse ++ past → past.length < recent.length →
        p (countOf one recent) = q (countOf two recent) := by
  induction times generalizing past with
  | nil =>
    simp only [counts,List.map_nil,List.reverse_nil,List.nil_append,true_iff]
    intro recent suffix longer
    exact absurd suffix.length_le (by omega)
  | cons time times ih =>
    have further := ih (time :: past)
    simp only [List.reverse_cons,List.append_assoc,List.singleton_append] at further ⊢
    simp only [counts,List.map_cons,List.cons.injEq]
    change (p (countOf one (time :: past)) = q (countOf two (time :: past)) ∧
      (counts one (after one (time :: past)) times).map p = (counts two (after two (time :: past)) times).map q) ↔ _
    rw [further]
    constructor
    · rintro ⟨now,later⟩ recent suffix longer
      by_cases same : recent.length = past.length + 1
      · have equal : recent = time :: past := by
          refine (List.suffix_of_suffix_length_le suffix (List.suffix_append _ _) ?_).eq_of_length ?_ <;> simp [same]
        rw [equal]
        exact now
      · refine later recent suffix ?_
        simp only [List.length_cons]
        omega
    · intro all
      refine ⟨all _ (List.suffix_append _ _) (by simp),?_⟩
      intro recent suffix longer
      simp only [List.length_cons] at longer
      exact all recent suffix (by omega)

-- The requests that a sliding and a fixed window count, newest first.
def stretch (length : Nat) : List Nat → List Nat
  | [] => []
  | time :: past => match past with
    | [] => [time]
    | last :: _ => if time ≤ last + length then time :: stretch length past else [time]

def counted (length : Nat) : List Nat → List Nat
  | [] => []
  | time :: past => match (counted length past).getLast? with
    | none => [time]
    | some first => if time < first + length then time :: counted length past else [time]

@[simp] theorem stretch_single (length time : Nat) : stretch length [time] = [time] := rfl

theorem stretch_cons (length time last : Nat) (past : List Nat) : stretch length (time :: last :: past) =
    if time ≤ last + length then time :: stretch length (last :: past) else [time] := rfl

theorem stretch_ne_nil (length time : Nat) (past : List Nat) : stretch length (time :: past) ≠ [] := by
  cases past with
  | nil => simp
  | cons last past =>
    rw [stretch_cons]
    split <;> simp

theorem counted_cons (length time : Nat) (past : List Nat) : counted length (time :: past) =
    match (counted length past).getLast? with
    | none => [time]
    | some first => if time < first + length then time :: counted length past else [time] := rfl

theorem after_sliding (length time : Nat) (past : List Nat) : after (sliding length) (time :: past) =
    some ⟨(stretch length (time :: past)).length,time + length⟩ := by
  induction past generalizing time with
  | nil => rfl
  | cons last past ih =>
    unfold after
    rw [ih,stretch_cons]
    unfold sliding
    dsimp only
    split <;> simp

theorem after_fixed (length time : Nat) (past : List Nat) : ∃ first, (counted length (time :: past)).getLast? = some first ∧
    after (fixed length) (time :: past) = some ⟨(counted length (time :: past)).length,first + length⟩ := by
  induction past generalizing time with
  | nil => exact ⟨time,rfl,rfl⟩
  | cons last past ih =>
    obtain ⟨first,begun,state⟩ := ih last
    rw [counted_cons,begun]
    unfold after
    rw [state]
    unfold fixed
    dsimp only
    split
    · refine ⟨first,?_,by simp⟩
      rw [List.getLast?_cons,begun]
      rfl
    · exact ⟨time,rfl,rfl⟩

theorem countOf_sliding (length : Nat) (past : List Nat) : countOf (sliding length) past = (stretch length past).length := by
  cases past with
  | nil => rfl
  | cons time past => simp [countOf,after_sliding]

theorem countOf_fixed (length : Nat) (past : List Nat) : countOf (fixed length) past = (counted length past).length := by
  cases past with
  | nil => rfl
  | cons time past =>
    obtain ⟨first,_,state⟩ := after_fixed length time past
    simp [countOf,state]

-- Newest first, the times of a run only grow.
abbrev Sorted (past : List Nat) : Prop := past.Pairwise (· ≥ ·)

theorem stretch_leads (length : Nat) (past : List Nat) : stretch length past <+: past := by
  induction past with
  | nil => exact List.prefix_rfl
  | cons time past ih =>
    cases past with
    | nil => exact List.prefix_rfl
    | cons last past =>
      rw [stretch_cons]
      split
      · exact List.cons_prefix_cons.mpr ⟨rfl,ih⟩
      · exact ⟨last :: past,rfl⟩

-- Requests that follow each other closely and end with the newest one.
abbrev Close (length : Nat) (recent : List Nat) : Prop := recent.IsChain fun t s => t ≤ s + length

theorem stretch_close (length : Nat) (past : List Nat) : Close length (stretch length past) := by
  induction past with
  | nil => exact .nil
  | cons time past ih =>
    cases past with
    | nil => exact .singleton _
    | cons last past =>
      rw [stretch_cons]
      split
      · rename_i near
        refine List.isChain_cons.mpr ⟨?_,ih⟩
        intro next newest
        obtain ⟨more,whole⟩ := stretch_leads length (last :: past)
        rw [Option.mem_def] at newest
        obtain ⟨tail,shape⟩ := List.head?_eq_some_iff.mp newest
        rw [shape,List.cons_append,List.cons.injEq] at whole
        rw [whole.1]
        exact near
      · exact .singleton _

theorem close_prefix (close : Close length recent) (start : recent <+: past) : recent <+: stretch length past := by
  induction past generalizing recent with
  | nil => exact start
  | cons time past ih =>
    cases recent with
    | nil => exact List.nil_prefix
    | cons head recent =>
      obtain ⟨rfl,rest⟩ := List.cons_prefix_cons.mp start
      cases past with
      | nil => exact start
      | cons last past =>
        rw [stretch_cons]
        cases recent with
        | nil =>
          split
          · exact List.cons_prefix_cons.mpr ⟨rfl,List.nil_prefix⟩
          · exact List.prefix_rfl
        | cons second recent =>
          obtain ⟨near,closer⟩ := List.isChain_cons_cons.mp close
          obtain ⟨rfl,_⟩ := List.cons_prefix_cons.mp rest
          rw [if_pos near]
          exact List.cons_prefix_cons.mpr ⟨rfl,ih closer rest⟩

theorem counted_leads (sorted : Sorted past) : counted length past <+: stretch length past := by
  induction past with
  | nil => exact List.prefix_rfl
  | cons time past ih =>
    obtain ⟨_,rest⟩ := List.pairwise_cons.mp sorted
    have kept := ih rest
    cases past with
    | nil => exact List.prefix_rfl
    | cons last past =>
      obtain ⟨first,begun,_⟩ := after_fixed length last past
      have listed : first ∈ last :: past :=
        (stretch_leads length _).subset (kept.subset (List.mem_of_getLast? begun))
      have within : first ≤ last := by
        rcases List.mem_cons.mp listed with rfl | older
        · exact Nat.le_refl _
        · exact (List.pairwise_cons.mp rest).1 first older
      rw [counted_cons,begun,stretch_cons]
      dsimp only
      by_cases inside : time < first + length
      · have near : time ≤ last + length := by omega
        rw [if_pos inside,if_pos near]
        exact List.cons_prefix_cons.mpr ⟨rfl,kept⟩
      · rw [if_neg inside]
        split
        · exact List.cons_prefix_cons.mpr ⟨rfl,List.nil_prefix⟩
        · exact List.prefix_rfl

theorem counted_within (positive : 0 < length) (begun : (counted length (time :: past)).getLast? = some first) :
    time < first + length := by
  rw [counted_cons] at begun
  split at begun
  · simp only [List.getLast?_singleton,Option.some.injEq] at begun
    omega
  · rename_i start known
    split at begun
    · rename_i inside
      rw [List.getLast?_cons,known,Option.getD_some,Option.some.injEq] at begun
      omega
    · simp only [List.getLast?_singleton,Option.some.injEq] at begun
      omega

theorem counted_stretch (positive : 0 < length) (sorted : Sorted (time :: past))
    (oldest : (stretch length (time :: past)).getLast? = some first) :
    counted length (time :: past) = stretch length (time :: past) ↔ time < first + length := by
  constructor
  · intro same
    rw [← same] at oldest
    exact counted_within positive oldest
  · induction past generalizing time with
    | nil =>
      intro _
      rfl
    | cons last past ih =>
      intro inside
      obtain ⟨later,rest⟩ := List.pairwise_cons.mp sorted
      obtain ⟨start,begun,_⟩ := after_fixed length last past
      rw [stretch_cons] at oldest
      rw [counted_cons,begun,stretch_cons]
      dsimp only
      split at oldest
      · rename_i near
        obtain ⟨old,known⟩ := Option.ne_none_iff_exists'.mp
          (fun none => stretch_ne_nil length last past (List.getLast?_eq_none_iff.mp none))
        rw [List.getLast?_cons,known,Option.getD_some,Option.some.injEq] at oldest
        subst oldest
        have older : last ≤ time := later last List.mem_cons_self
        have same := ih rest known (by omega)
        rw [same] at begun ⊢
        rw [known,Option.some.injEq] at begun
        rw [if_pos (by omega),if_pos near]
      · rename_i far
        have within : start ≤ last := by
          have listed := (stretch_leads length _).subset ((counted_leads rest).subset (List.mem_of_getLast? begun))
          rcases List.mem_cons.mp listed with rfl | older
          · exact Nat.le_refl _
          · exact (List.pairwise_cons.mp rest).1 start older
        rw [if_neg (by omega),if_neg far]

-- Both windows let the same requests pass as long as the sliding one has not
-- counted beyond the limit what the fixed one has forgotten.
def Tame (length limit : Nat) (past : List Nat) : Prop :=
  (stretch length past).length ≤ limit ∨ counted length past = stretch length past

theorem tame_agrees (sorted : Sorted past) (tame : Tame length limit past) :
    (stretch length past).length ≤ limit ↔ (counted length past).length ≤ limit := by
  rcases tame with few | same
  · have fewer : (counted length past).length ≤ (stretch length past).length := (counted_leads sorted).length_le
    exact ⟨fun _ => by omega,fun _ => few⟩
  · rw [same]

theorem agreement_tame (one : 1 ≤ limit) (sorted : Sorted past)
    (agree : ∀ recent, recent <:+ past → 0 < recent.length →
      ((stretch length recent).length ≤ limit ↔ (counted length recent).length ≤ limit)) : Tame length limit past := by
  induction past with
  | nil => exact .inr rfl
  | cons time past ih =>
    have earlier := ih (List.pairwise_cons.mp sorted).2 fun recent suffix => agree recent (suffix.trans (List.suffix_cons _ _))
    have now := agree (time :: past) List.suffix_rfl (by simp)
    unfold Tame at earlier ⊢
    by_contra differ
    obtain ⟨many,other⟩ := not_or.mp differ
    have beyond : ¬ (counted length (time :: past)).length ≤ limit := fun few => many (now.mpr few)
    cases past with
    | nil => exact other rfl
    | cons last past =>
      obtain ⟨start,begun,_⟩ := after_fixed length last past
      have shorter : counted length (last :: past) <+: stretch length (last :: past) :=
        counted_leads (List.pairwise_cons.mp sorted).2
      rw [counted_cons,begun] at beyond other
      rw [stretch_cons] at many other
      dsimp only at beyond other
      split at beyond
      · rename_i inside
        rw [if_pos inside] at other
        split at many
        · rename_i near
          rw [if_pos near] at other
          simp only [List.length_cons] at many beyond
          rcases earlier with few | same
          · have equal := shorter.eq_of_length (by have := shorter.length_le; omega)
            exact other (by rw [equal])
          · exact other (by rw [same])
        · exact absurd one (by simpa using many)
      · exact absurd one (by simpa using beyond)

theorem calm_tame (positive : 0 < length) (sorted : Sorted times.reverse) :
    Calm length limit times ↔ ∀ recent, recent <:+ times.reverse → 0 < recent.length → Tame length limit recent := by
  constructor
  · intro calm recent suffix nonempty
    cases recent with
    | nil => cases nonempty
    | cons time past =>
      by_cases many : (stretch length (time :: past)).length ≤ limit
      · exact .inl many
      right
      have here := sorted.sublist suffix.sublist
      obtain ⟨first,oldest⟩ := Option.ne_none_iff_exists'.mp
        (fun none => stretch_ne_nil length time past (List.getLast?_eq_none_iff.mp none))
      apply (counted_stretch positive here oldest).mpr
      obtain ⟨newer,shape⟩ := List.getLast?_eq_some_iff.mp oldest
      have listed : stretch length (time :: past) <:+: times.reverse :=
        (stretch_leads length _).isInfix.trans suffix.isInfix
      have close := stretch_close length (time :: past)
      obtain ⟨more,whole⟩ := stretch_leads length (time :: past)
      rw [shape] at listed close whole many
      cases newer with
      | nil =>
        rw [List.nil_append,List.singleton_append,List.cons.injEq] at whole
        omega
      | cons head newer =>
        simp only [List.cons_append,List.cons.injEq] at whole
        obtain ⟨rfl,_⟩ := whole
        have turned : (head :: newer ++ [first]).reverse = first :: newer.reverse ++ [head] := by simp
        refine calm first newer.reverse head ?_ ?_ ?_
        · rw [← turned,← List.reverse_reverse times]
          exact List.reverse_infix.mpr listed
        · rw [← turned]
          exact List.isChain_reverse.mpr close
        · simp only [List.length_append,List.length_cons,List.length_nil] at many
          rw [List.length_reverse]
          omega
  · intro tame first middle last listed close many
    have turned : (first :: middle ++ [last]).reverse = last :: (middle.reverse ++ [first]) := by simp
    have infixed : last :: (middle.reverse ++ [first]) <:+: times.reverse := by
      rw [← turned]
      exact List.reverse_infix.mpr listed
    have closed : Close length (last :: (middle.reverse ++ [first])) := by
      rw [← turned]
      exact List.isChain_reverse.mpr close
    obtain ⟨recent,start,suffix⟩ := List.infix_iff_prefix_suffix.mp infixed
    have kept := close_prefix closed start
    have here := sorted.sublist suffix.sublist
    obtain ⟨tail,rfl⟩ := start
    have long : limit < (stretch length (last :: (middle.reverse ++ [first]) ++ tail)).length := by
      have shorter := kept.length_le
      simp only [List.length_cons,List.length_append,List.length_reverse,List.length_nil] at shorter ⊢
      omega
    rcases tame _ suffix (by simp) with few | same
    · omega
    · obtain ⟨oldest,known⟩ := Option.ne_none_iff_exists'.mp
        (fun none => stretch_ne_nil length last _ (List.getLast?_eq_none_iff.mp none))
      have inside := (counted_stretch positive here known).mp same
      have member : first ∈ stretch length (last :: (middle.reverse ++ [first]) ++ tail) := kept.subset (by simp)
      have ordered : Sorted (stretch length (last :: (middle.reverse ++ [first]) ++ tail)) :=
        here.sublist (stretch_leads length _).sublist
      obtain ⟨newer,shape⟩ := List.getLast?_eq_some_iff.mp known
      change stretch length (last :: (middle.reverse ++ [first]) ++ tail) = newer ++ [oldest] at shape
      rw [shape] at member ordered
      rcases List.mem_append.mp member with among | final
      · have below := (List.pairwise_append.mp ordered).2.2 first among oldest (by simp)
        omega
      · rw [List.mem_singleton] at final
        omega

theorem allowed_agree (one : 1 ≤ limit) (positive : 0 < length) (sorted : times.Pairwise (· ≤ ·)) :
    allowed limit (sliding length) times = allowed limit (fixed length) times ↔ Calm length limit times := by
  have backwards : Sorted times.reverse := List.pairwise_reverse.mpr sorted
  have agree := @counts_agree (sliding length) (fixed length) (decide <| · ≤ limit) (decide <| · ≤ limit) [] times
  rw [calm_tame positive backwards]
  unfold allowed
  refine agree.trans ?_
  simp only [List.append_nil,countOf_sliding,countOf_fixed,List.length_nil,decide_eq_decide]
  constructor
  · intro all recent suffix nonempty
    exact agreement_tame one (backwards.sublist suffix.sublist) fun newer ends =>
      all newer (ends.trans suffix)
  · intro tame recent suffix nonempty
    exact tame_agrees (backwards.sublist suffix.sublist) (tame recent suffix nonempty)

end Window
end Atomic
