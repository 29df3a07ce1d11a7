import Mathlib.Data.Int.Notation
import Mathlib.Data.List.Nodup
import Mathlib.Data.List.Perm.Basic
import Mathlib.Order.Lattice
import Mathlib.Tactic.Common

-- Slices of a list between two bounds, which count from its end when they are negative.
namespace Numeric.Slice
variable {α : Type} {l : List α}

def bound (n : ℕ) (k : ℤ) : ℕ := if k < 0 then (n + k).toNat else min k.toNat n

def slice (l : List α) (start stop : ℤ) : List α := (l.take (bound l.length stop)).drop (bound l.length start)

theorem bound_le (n : ℕ) (k : ℤ) : bound n k ≤ n := by
  unfold bound
  split <;> omega

theorem segment_eq_iff (distinct : l.Nodup) {e f e' f' : ℕ} (inside : e ≤ l.length) (inside' : e' ≤ l.length) :
    (l.take e).drop f = (l.take e').drop f' ↔ e ≤ f ∧ e' ≤ f' ∨ f = f' ∧ e = e' := by
  constructor
  · intro same
    have sizes := congrArg List.length same
    simp only [List.length_drop,List.length_take] at sizes
    by_cases empty : e ≤ f
    · exact .inl ⟨empty,by omega⟩
    · have first := congrArg (fun part : List α => part[0]?) same
      have here : f < l.length := by omega
      have there : f' < l.length := by omega
      simp only [List.getElem?_drop,List.getElem?_take,Nat.add_zero] at first
      rw [if_pos (by omega),if_pos (by omega),List.getElem?_eq_getElem here,List.getElem?_eq_getElem there] at first
      have place := (distinct.getElem_inj_iff).mp (Option.some.inj first)
      exact .inr ⟨place,by omega⟩
  · rintro (⟨one,other⟩ | ⟨rfl,rfl⟩)
    · rw [List.drop_eq_nil_of_le (by rw [List.length_take]; omega),List.drop_eq_nil_of_le (by rw [List.length_take]; omega)]
    · rfl

theorem part_segment (l : List α) (place count : ℕ) :
    (l.drop place).take count = (l.take (min (place + count) l.length)).drop place := by
  rw [List.drop_take,List.take_eq_take_iff,List.length_drop]
  omega

theorem parts_flatten (l : List α) (count m : ℕ) :
    ((List.range m).flatMap fun k => (l.drop (k * count)).take count) = l.take (m * count) := by
  induction m with
  | zero => simp
  | succ m ih =>
    rw [List.range_succ,List.flatMap_append,ih,List.flatMap_singleton,Nat.succ_mul,List.take_add]

theorem part_filter (p : α → Bool) (l : List α) (place count : ℕ)
    (here : ∀ i (inside : i < l.length), p l[i] = true ↔ place ≤ i ∧ i < place + count) :
    (l.drop place).take count = l.filter p := by
  induction l generalizing place count with
  | nil => rw [List.drop_nil,List.take_nil,List.filter_nil]
  | cons x rest ih =>
    have first := here 0 (Nat.succ_pos _)
    have behind := fun i (inside : i < rest.length) => here (i + 1) (Nat.succ_lt_succ inside)
    simp only [List.getElem_cons_zero,List.getElem_cons_succ] at first behind
    cases place with
    | succ place =>
      have other : ¬p x = true := fun held => absurd (first.mp held).1 (Nat.not_succ_le_zero place)
      rw [List.drop_succ_cons,List.filter_cons_of_neg other]
      exact ih place count fun i inside => (behind i inside).trans (by omega)
    | zero =>
      cases count with
      | zero =>
        have other : ¬p x = true := fun held => absurd (first.mp held).2 (Nat.lt_irrefl 0)
        have rest := ih 0 0 fun i inside => (behind i inside).trans (by omega)
        rw [List.take_zero] at rest ⊢
        rw [List.filter_cons_of_neg other]
        exact rest
      | succ count =>
        have held : p x = true := first.mpr (by omega)
        rw [List.drop_zero,List.take_succ_cons,List.filter_cons_of_pos held]
        exact congrArg (x :: ·) (ih 0 count fun i inside => (behind i inside).trans (by omega))

theorem parts_perm (l : List α) (f : α → ℕ) (m : ℕ) :
    ((List.range m).flatMap fun k => l.filter fun x => f x = k).Perm (l.filter fun x => f x < m) := by
  induction m with
  | zero => simp
  | succ m ih =>
    rw [List.range_succ,List.flatMap_append,List.flatMap_singleton]
    have split := List.filter_append_perm (fun x => decide (f x < m)) (l.filter fun x => f x < m + 1)
    rw [List.filter_filter,List.filter_filter] at split
    have low : (l.filter fun x => decide (f x < m) && decide (f x < m + 1)) = l.filter fun x => f x < m := by
      refine List.filter_congr fun x _ => ?_
      rw [← Bool.decide_and,decide_eq_decide]
      omega
    have last : (l.filter fun x => !decide (f x < m) && decide (f x < m + 1)) = l.filter fun x => f x = m := by
      refine List.filter_congr fun x _ => ?_
      rw [← decide_not,← Bool.decide_and,decide_eq_decide]
      omega
    rw [low,last] at split
    exact (ih.append_right _).trans split

theorem first_count (p : α → Bool) (l : List α) (ordered : l.Pairwise fun a b => p b = true → p a = true) (i : ℕ)
    (inside : i < l.length) : p l[i] = true ↔ i < l.countP p := by
  induction l generalizing i with
  | nil => exact absurd inside (Nat.not_lt_zero i)
  | cons x rest ih =>
    obtain ⟨first,behind⟩ := List.pairwise_cons.mp ordered
    by_cases held : p x = true
    · rw [List.countP_cons_of_pos held]
      cases i with
      | zero => exact ⟨fun _ => Nat.succ_pos _,fun _ => held⟩
      | succ i =>
        rw [List.getElem_cons_succ,Nat.succ_lt_succ_iff]
        exact ih behind i (Nat.lt_of_succ_lt_succ inside)
    · have no : ∀ y ∈ rest, ¬p y = true := fun y listed found => held (first y listed found)
      rw [List.countP_cons_of_neg held,List.countP_eq_zero.mpr no]
      cases i with
      | zero => exact ⟨fun found => absurd found held,fun found => absurd found (Nat.lt_irrefl 0)⟩
      | succ i => exact ⟨fun found => absurd found (no _ (List.getElem_mem _)),fun found => absurd found (Nat.not_lt_zero _)⟩

-- Ranks in descending order. Elements that tie have the places from `above` on, up
-- to `upto`.
section
variable {κ : Type} [LinearOrder κ] (key : α → κ)

def Descending (l : List α) : Prop := l.Pairwise fun a b => key b ≤ key a

def above (l : List α) (x : α) : ℕ := l.countP fun y => key x < key y

def upto (l : List α) (x : α) : ℕ := l.countP fun y => key x ≤ key y

theorem upto_le (l : List α) (x : α) : upto key l x ≤ l.length := List.countP_le_length

theorem above_iff (descending : Descending key l) (x : α) (i : ℕ) (inside : i < l.length) : key x < key l[i] ↔ i < above key l x := by
  have first := first_count (fun y => decide (key x < key y)) l
    (descending.imp fun before held => decide_eq_true (lt_of_lt_of_le (of_decide_eq_true held) before)) i inside
  rw [decide_eq_true_iff] at first
  exact first

theorem upto_iff (descending : Descending key l) (x : α) (i : ℕ) (inside : i < l.length) : key x ≤ key l[i] ↔ i < upto key l x := by
  have first := first_count (fun y => decide (key x ≤ key y)) l
    (descending.imp fun before held => decide_eq_true (le_trans (of_decide_eq_true held) before)) i inside
  rw [decide_eq_true_iff] at first
  exact first

theorem place_rank (descending : Descending key l) (i : ℕ) (inside : i < l.length) :
    above key l l[i] ≤ i ∧ i < upto key l l[i] :=
  ⟨Nat.le_of_not_lt fun low => lt_irrefl _ ((above_iff key descending l[i] i inside).mpr low),
    (upto_iff key descending l[i] i inside).mp le_rfl⟩

theorem rank_key (descending : Descending key l) (x : α) (i : ℕ) (inside : i < l.length) (low : above key l x ≤ i)
    (high : i < upto key l x) : key l[i] = key x :=
  le_antisymm (le_of_not_gt fun more => absurd ((above_iff key descending x i inside).mp more) (Nat.not_lt_of_le low))
    ((upto_iff key descending x i inside).mpr high)

theorem above_perm {l' : List α} (same : l.Perm l') (x : α) : above key l x = above key l' x := same.countP_eq _

theorem upto_perm {l' : List α} (same : l.Perm l') (x : α) : upto key l x = upto key l' x := same.countP_eq _

theorem descending_exists (l : List α) : ∃ sorted : List α, sorted.Perm l ∧ Descending key sorted := by
  refine ⟨l.mergeSort fun a b => decide (key b ≤ key a),List.mergeSort_perm _ _,?_⟩
  have sorted := @List.pairwise_mergeSort α (fun a b => decide (key b ≤ key a))
    (fun a b c one two => decide_eq_true (le_trans (of_decide_eq_true two) (of_decide_eq_true one)))
    (fun a b => by simpa using le_total (key b) (key a)) l
  exact sorted.imp fun before => of_decide_eq_true before

-- A page of some order: those that tie may stand in another order each time.
def Page (rows : List α) (skip count : ℕ) (page : List α) : Prop :=
  ∃ sorted : List α, sorted.Perm rows ∧ Descending key sorted ∧ page = (sorted.drop skip).take count

-- No end of a page falls between elements that tie.
def Whole (rows : List α) (count : ℕ) : Prop := ∀ x ∈ rows, ∀ k, ¬(above key rows x < k * count ∧ k * count < upto key rows x)

theorem whole_page {rows page : List α} (whole : Whole key rows count) (positive : 0 < count) (k : ℕ)
    (found : Page key rows (k * count) count page) : page.Perm (rows.filter fun x => above key rows x / count = k) := by
  obtain ⟨sorted,same,descending,rfl⟩ := found
  have part := part_filter (fun x => decide (above key rows x / count = k)) sorted (k * count) count fun i inside => by
    obtain ⟨low,high⟩ := place_rank key descending i inside
    rw [above_perm key same] at low
    rw [upto_perm key same] at high
    have block : above key rows sorted[i] / count = i / count := by
      refine Nat.le_antisymm (Nat.div_le_div_right low) (Nat.le_of_not_lt fun less => ?_)
      refine whole _ (same.subset (List.getElem_mem inside)) (i / count) ⟨?_,?_⟩
      · exact (Nat.div_lt_iff_lt_mul positive).mp less
      · exact Nat.lt_of_le_of_lt (Nat.div_mul_le_self i count) high
    rw [decide_eq_true_iff,block,Nat.div_eq_iff positive]
    omega
  rw [part]
  exact same.filter _

theorem pages_perm {rows : List α} {pages : ℕ → List α} (whole : Whole key rows count) (positive : 0 < count)
    (found : ∀ k < m, Page key rows (k * count) count (pages k)) (enough : rows.length ≤ m * count) :
    ((List.range m).flatMap pages).Perm rows := by
  have each : ∀ k ∈ List.range m, (pages k).Perm (rows.filter fun x => above key rows x / count = k) :=
    fun k listed => whole_page key whole positive k (found k (List.mem_range.mp listed))
  have all : ∀ x ∈ rows, decide (above key rows x / count < m) = true := by
    intro x listed
    obtain ⟨sorted,same,descending⟩ := descending_exists key rows
    obtain ⟨i,inside,rfl⟩ := List.getElem_of_mem (same.mem_iff.mpr listed)
    have low := (place_rank key descending i inside).1
    rw [above_perm key same] at low
    have size := same.length_eq
    exact decide_eq_true ((Nat.div_lt_iff_lt_mul positive).mpr (by omega))
  have parts := (List.Perm.flatMap_left _ each).trans (parts_perm rows (fun x => above key rows x / count) m)
  rw [List.filter_eq_self.mpr all] at parts
  exact parts

theorem part_mem (l : List α) (i : ℕ) (inside : i < l.length) (low : place ≤ i) (high : i < place + count) :
    l[i] ∈ (l.drop place).take count := by
  have short : i - place < ((l.drop place).take count).length := by
    rw [List.length_take,List.length_drop]
    omega
  have same : ((l.drop place).take count)[i - place] = l[i] := by
    rw [List.getElem_take,List.getElem_drop]
    congr 1
    omega
  exact same ▸ List.getElem_mem short

theorem swapped {before after : List α} {x y : α} (descending : Descending key (before ++ x :: y :: after)) (tie : key x = key y) :
    Descending key (before ++ y :: x :: after) := by
  unfold Descending at descending ⊢
  simp only [List.pairwise_append,List.pairwise_cons,List.mem_cons,forall_eq_or_imp] at descending ⊢
  obtain ⟨front,⟨⟨_,first⟩,second,rest⟩,across⟩ := descending
  refine ⟨front,⟨⟨le_of_eq tie,second⟩,first,rest⟩,fun a listed => ?_⟩
  obtain ⟨one,two,more⟩ := across a listed
  exact ⟨two,one,more⟩

theorem split_repeats {rows : List α} (distinct : rows.Nodup) (positive : 0 < count) (enough : rows.length ≤ m * count)
    (x : α) (low : above key rows x < k * count) (high : k * count < upto key rows x) :
    ∃ pages : ℕ → List α, (∀ k, Page key rows (k * count) count (pages k)) ∧ ¬((List.range m).flatMap pages).Perm rows := by
  obtain ⟨sorted,same,descending⟩ := descending_exists key rows
  have size := same.length_eq
  have most := upto_le key rows x
  rw [← above_perm key same] at low
  rw [← upto_perm key same] at high most
  obtain ⟨i,place⟩ : ∃ i, k * count = i + 1 := ⟨k * count - 1,by omega⟩
  have here : i < sorted.length := by omega
  have next : i + 1 < sorted.length := by omega
  have tie : key sorted[i] = key sorted[i + 1] := by
    rw [rank_key key descending x i here (by omega) (by omega),rank_key key descending x (i + 1) next (by omega) (by omega)]
  have cut : sorted = sorted.take i ++ sorted[i] :: sorted[i + 1] :: sorted.drop (i + 2) := by
    rw [List.getElem_cons_drop,List.getElem_cons_drop,List.take_append_drop]
  let other := sorted.take i ++ sorted[i + 1] :: sorted[i] :: sorted.drop (i + 2)
  have otherDescending : Descending key other := swapped key (cut ▸ descending) tie
  have otherSame : other.Perm sorted := by
    conv_rhs => rw [cut]
    exact (List.Perm.swap _ _ _).append_left _
  have moved : other[i + 1]? = some sorted[i] := by
    rw [List.getElem?_append_right (by rw [List.length_take]; omega),List.length_take,Nat.min_eq_left (Nat.le_of_lt here)]
    simp
  refine ⟨fun j => ((if j = k then other else sorted).drop (j * count)).take count,fun j => ?_,fun perm => ?_⟩
  · refine ⟨if j = k then other else sorted,?_,?_,rfl⟩
    · split
      · exact otherSame.trans same
      · exact same
    · split
      · exact otherDescending
      · exact descending
  · obtain ⟨before,rfl⟩ : ∃ before, k = before + 1 := ⟨k - 1,by cases k <;> omega⟩
    have early : sorted[i] ∈ (sorted.drop (before * count)).take count :=
      part_mem sorted i here (by rw [Nat.succ_mul] at place; omega) (by rw [Nat.succ_mul] at place; omega)
    have late : sorted[i] ∈ (other.drop ((before + 1) * count)).take count := by
      obtain ⟨inside,found⟩ := List.getElem?_eq_some_iff.mp moved
      rw [place,← found]
      exact part_mem other (i + 1) inside (Nat.le_refl _) (by omega)
    have inRange : before + 1 < m := by
      by_contra outside
      have least := Nat.mul_le_mul_right count (Nat.le_of_not_lt outside)
      omega
    have apart := (List.nodup_flatMap.mp (perm.nodup_iff.mpr distinct)).2
    have disjoint := List.pairwise_iff_getElem.mp apart before (before + 1) (by rw [List.length_range]; omega)
      (by rw [List.length_range]; exact inRange) (Nat.lt_succ_self before)
    simp only [Function.onFun,List.getElem_range,if_true,Nat.ne_of_lt (Nat.lt_succ_self before),if_false] at disjoint
    exact disjoint early late

end

end Numeric.Slice
