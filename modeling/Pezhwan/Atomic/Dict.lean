import Mathlib.Algebra.BigOperators.Group.List.Basic
import Mathlib.Algebra.Ring.Nat
import Pezhwan.Atomic.Collection

namespace Atomic
variable {κ ν : Type}

-- A map that keeps its keys in the order in which they were added.
structure Dict (κ ν : Type) where
  entries : List (κ × ν)
  distinct : (entries.map Prod.fst).Nodup

namespace Dict

instance [DecidableEq κ] [DecidableEq ν] : DecidableEq (Dict κ ν) := fun a b =>
  decidable_of_iff (a.entries = b.entries) (by cases a; cases b; simp)

def empty : Dict κ ν := ⟨[],List.nodup_nil⟩

def values (d : Dict κ ν) : List ν := d.entries.map Prod.snd

def size (d : Dict κ ν) : Nat := d.entries.length

def filter (d : Dict κ ν) (p : κ → ν → Bool) : Dict κ ν :=
  ⟨d.entries.filter fun entry => p entry.1 entry.2,(List.filter_sublist.map Prod.fst).nodup d.distinct⟩

-- Without the `n` keys that were added first.
def drop (d : Dict κ ν) (n : Nat) : Dict κ ν :=
  ⟨d.entries.drop n,((List.drop_sublist n d.entries).map Prod.fst).nodup d.distinct⟩

theorem size_filter (d : Dict κ ν) (p : κ → ν → Bool) : (d.filter p).size ≤ d.size := List.length_filter_le _ _

theorem size_drop (d : Dict κ ν) (n : Nat) : (d.drop n).size = d.size - n := List.length_drop

variable [DecidableEq κ]

def get? (d : Dict κ ν) (k : κ) : Option ν := (Collection.lookup Prod.fst k d.entries).map Prod.snd

def erase (d : Dict κ ν) (k : κ) : Dict κ ν := d.filter fun key _ => key ≠ k

def rewritten (k : κ) (f : ν → ν) (entry : κ × ν) : κ × ν := if entry.1 = k then (entry.1,f entry.2) else entry

theorem rewritten_fst (k : κ) (f : ν → ν) (entry : κ × ν) : (rewritten k f entry).1 = entry.1 := by
  unfold rewritten
  split <;> rfl

theorem map_rewritten (k : κ) (f : ν → ν) (entries : List (κ × ν)) :
    (entries.map (rewritten k f)).map Prod.fst = entries.map Prod.fst := by
  rw [List.map_map]
  exact List.map_congr_left fun entry _ => rewritten_fst k f entry

def modify (d : Dict κ ν) (k : κ) (f : ν → ν) : Dict κ ν :=
  ⟨d.entries.map (rewritten k f),(map_rewritten k f d.entries).symm ▸ d.distinct⟩

theorem get?_none {d : Dict κ ν} : d.get? k = none ↔ k ∉ d.entries.map Prod.fst := by
  simp only [get?,Option.map_eq_none_iff]
  exact Collection.lookup_none

def append (d : Dict κ ν) (k : κ) (v : ν) (absent : d.get? k = none) : Dict κ ν where
  entries := d.entries ++ [(k,v)]
  distinct := by
    rw [List.map_append,List.map_singleton,List.nodup_append]
    refine ⟨d.distinct,List.nodup_singleton _,?_⟩
    rintro key old _ new rfl
    rw [List.mem_singleton.mp new] at old
    exact get?_none.mp absent old

-- An old key keeps its place, a new one comes last.
def set (d : Dict κ ν) (k : κ) (v : ν) : Dict κ ν :=
  if absent : d.get? k = none then d.append k v absent else d.modify k fun _ => v

@[simp] theorem get?_empty (k : κ) : (empty : Dict κ ν).get? k = none := rfl

theorem get?_append {d : Dict κ ν} (absent : d.get? k = none) (v : ν) (key : κ) :
    (d.append k v absent).get? key = if key = k then some v else d.get? key := by
  unfold get? append
  rw [Collection.lookup_append]
  by_cases same : key = k
  · subst same
    have missing : Collection.lookup Prod.fst key d.entries = none := Collection.lookup_none.mpr (get?_none.mp absent)
    rw [missing,if_pos rfl]
    simp [Collection.lookup]
  · have other : ¬ k = key := fun equal => same equal.symm
    have nothing : Collection.lookup Prod.fst key [(k,v)] = none := by simp [Collection.lookup,other]
    rw [nothing,if_neg same,Option.or_none]

theorem get?_modify (d : Dict κ ν) (k : κ) (f : ν → ν) (key : κ) :
    (d.modify k f).get? key = if key = k then (d.get? key).map f else d.get? key := by
  unfold get? modify
  rw [Collection.lookup_map (rewritten_fst k f)]
  cases found : Collection.lookup Prod.fst key d.entries with
  | none => simp
  | some entry =>
    have named : entry.1 = key := (Collection.lookup_some found).2
    by_cases same : key = k
    · simp [rewritten,named,same]
    · simp [rewritten,named,same]

theorem get?_set (d : Dict κ ν) (k : κ) (v : ν) (key : κ) :
    (d.set k v).get? key = if key = k then some v else d.get? key := by
  unfold set
  split
  · exact get?_append _ v key
  · rename_i present
    rw [get?_modify]
    split
    · rename_i same
      subst same
      obtain ⟨old,found⟩ := Option.ne_none_iff_exists'.mp present
      rw [found,Option.map_some]
    · rfl

@[simp] theorem get?_set_self (d : Dict κ ν) (k : κ) (v : ν) : (d.set k v).get? k = some v := by
  rw [get?_set,if_pos rfl]

theorem get?_set_ne {key k : κ} (d : Dict κ ν) (v : ν) (other : key ≠ k) : (d.set k v).get? key = d.get? key := by
  rw [get?_set,if_neg other]

theorem get?_iff {d : Dict κ ν} : d.get? k = some v ↔ (k,v) ∈ d.entries := by
  unfold get?
  constructor
  · intro found
    obtain ⟨entry,looked,rfl⟩ := Option.map_eq_some_iff.mp found
    obtain ⟨listed,rfl⟩ := Collection.lookup_some looked
    exact listed
  · intro listed
    rw [Collection.lookup_member d.distinct listed]
    rfl

theorem set_same {d : Dict κ ν} (found : d.get? k = some v) : d.set k v = d := by
  unfold set
  rw [dif_neg (by simp [found])]
  have kept : d.entries.map (rewritten k fun _ => v) = d.entries := by
    refine (List.map_congr_left ?_).trans (List.map_id d.entries)
    intro entry listed
    unfold rewritten
    split
    · rename_i named
      subst named
      cases found.symm.trans (get?_iff.mpr listed)
      rfl
    · rfl
  cases d
  simpa [modify] using kept

theorem mem_values {d : Dict κ ν} : v ∈ d.values ↔ ∃ k, d.get? k = some v := by
  simp only [values,List.mem_map]
  constructor
  · rintro ⟨⟨k,v⟩,listed,rfl⟩
    exact ⟨k,get?_iff.mpr listed⟩
  · rintro ⟨k,found⟩
    exact ⟨(k,v),get?_iff.mp found,rfl⟩

theorem get?_filter (d : Dict κ ν) (p : κ → ν → Bool) (k : κ) : (d.filter p).get? k = (d.get? k).filter (p k) := by
  apply Option.ext
  intro v
  rw [get?_iff,Option.filter_eq_some_iff,get?_iff]
  exact List.mem_filter

theorem get?_erase (d : Dict κ ν) (k key : κ) : (d.erase k).get? key = if key = k then none else d.get? key := by
  unfold erase
  rw [get?_filter]
  by_cases same : key = k
  · rw [if_pos same]
    exact Option.filter_eq_none_iff.mpr fun v _ => by simp [same]
  · rw [if_neg same]
    cases d.get? key <;> simp [Option.filter,same]

theorem get?_drop {d : Dict κ ν} (found : (d.drop n).get? k = some v) : d.get? k = some v :=
  get?_iff.mpr (List.mem_of_mem_drop (get?_iff.mp found))

theorem size_set (d : Dict κ ν) (k : κ) (v : ν) : (d.set k v).size = if d.get? k = none then d.size + 1 else d.size := by
  unfold set
  split
  · exact List.length_append
  · exact List.length_map _

section
variable {f : ν → ℕ}

-- A number for each value of a map, summed up.
def total (f : ν → ℕ) (d : Dict κ ν) : ℕ := (d.entries.map fun entry => f entry.2).sum

theorem total_append (d : Dict κ ν) (v : ν) (absent : d.get? k = none) : (d.append k v absent).total f = d.total f + f v := by
  simp [total,append]

theorem sum_rewritten {entries : List (κ × ν)} (distinct : (entries.map Prod.fst).Nodup) (listed : (k,old) ∈ entries) (v : ν) :
    ((entries.map (rewritten k fun _ => v)).map fun entry => f entry.2).sum + f old =
      (entries.map fun entry => f entry.2).sum + f v := by
  induction entries with
  | nil => cases listed
  | cons head rest ih =>
    simp only [List.map_cons,List.nodup_cons] at distinct
    rcases List.mem_cons.mp listed with same | later
    · subst same
      have kept : rest.map (rewritten k fun _ => v) = rest := by
        refine (List.map_congr_left ?_).trans (List.map_id rest)
        intro entry member
        have other : entry.1 ≠ k := by
          intro same
          exact distinct.1 (List.mem_map.mpr ⟨entry,member,same⟩)
        simp [rewritten,other]
      rw [List.map_cons,kept,List.map_cons,List.map_cons,List.sum_cons,List.sum_cons]
      simp only [rewritten,if_true]
      omega
    · have other : head.1 ≠ k := fun same => distinct.1 (same ▸ List.mem_map_of_mem later)
      have tail := ih distinct.2 later
      have same : rewritten k (fun _ => v) head = head := if_neg other
      rw [List.map_cons,same,List.map_cons,List.map_cons,List.sum_cons,List.sum_cons]
      omega

theorem total_set (d : Dict κ ν) (k : κ) (v : ν) :
    (d.set k v).total f + ((d.get? k).map f).getD 0 = d.total f + f v := by
  unfold set
  split
  · rename_i absent
    rw [total_append,absent]
    rfl
  · rename_i present
    obtain ⟨old,found⟩ := Option.ne_none_iff_exists'.mp present
    rw [found]
    exact sum_rewritten d.distinct (get?_iff.mp found) v
end

end Dict
end Atomic
