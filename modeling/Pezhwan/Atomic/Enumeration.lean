import Mathlib.Data.List.Induction
import Mathlib.Data.List.Nodup

namespace Atomic
variable {κ ν μ : Type}

-- Which keys are enumerated before which others; the rest keep the order in
-- which they were added.
structure Rank (κ : Type) where
  before : κ → κ → Bool
  irrefl : ∀ a, before a a = false
  trans : ∀ a b c, before a b = true → before b c = true → before a c = true
  weak : ∀ a b c, before a b = true → before c b = false → before a c = true

namespace Rank

theorem asymm (rank : Rank κ) (one : rank.before a b = true) : rank.before b a = false := by
  cases other : rank.before b a with
  | false => rfl
  | true =>
    have self := rank.trans a b a one other
    rw [rank.irrefl] at self
    cases self

-- The order in which the properties of an object are enumerated.
def Ordered (rank : Rank κ) (entries : List (κ × ν)) : Prop :=
  (entries.map Prod.fst).Nodup ∧ entries.Pairwise fun one later => rank.before later.1 one.1 = false

theorem Ordered.left {rank : Rank κ} {entries more : List (κ × ν)} (ordered : rank.Ordered (entries ++ more)) : rank.Ordered entries := by
  obtain ⟨names,sorted⟩ := ordered
  rw [List.map_append] at names
  exact ⟨(List.nodup_append.mp names).1,(List.pairwise_append.mp sorted).1⟩

theorem Ordered.map {rank : Rank κ} {entries : List (κ × ν)} {f : κ × ν → κ × μ} (same : ∀ entry, (f entry).1 = entry.1)
    (ordered : rank.Ordered entries) : rank.Ordered (entries.map f) := by
  have keys : Prod.fst ∘ f = (Prod.fst : κ × ν → κ) := funext same
  refine ⟨?_,?_⟩
  · rw [List.map_map,keys]
    exact ordered.1
  · rw [List.pairwise_map]
    simpa only [same] using ordered.2

section
variable [DecidableEq κ] {rank : Rank κ}

-- A property that exists keeps its place, a new one comes behind all that it
-- does not precede.
def place (rank : Rank κ) (entry : κ × ν) : List (κ × ν) → List (κ × ν)
  | [] => [entry]
  | first :: rest =>
    if first.1 = entry.1 then entry :: rest
    else if rank.before entry.1 first.1 then entry :: first :: rest
    else first :: place rank entry rest

def enumerate (rank : Rank κ) (entries : List (κ × ν)) : List (κ × ν) :=
  entries.foldl (fun placed entry => place rank entry placed) []

theorem enumerate_concat (rank : Rank κ) (entries : List (κ × ν)) (entry : κ × ν) :
    enumerate rank (entries ++ [entry]) = place rank entry (enumerate rank entries) := by
  unfold enumerate
  rw [List.foldl_append]
  rfl

theorem place_mem (listed : other ∈ place rank entry entries) : other = entry ∨ other ∈ entries := by
  induction entries with
  | nil => exact .inl (List.mem_singleton.mp listed)
  | cons first rest ih =>
    unfold place at listed
    split at listed
    · rcases List.mem_cons.mp listed with same | later
      · exact .inl same
      · exact .inr (List.mem_cons_of_mem _ later)
    · split at listed
      · exact List.mem_cons.mp listed
      · rcases List.mem_cons.mp listed with rfl | later
        · exact .inr (List.mem_cons_self ..)
        · rcases ih later with same | rested
          · exact .inl same
          · exact .inr (List.mem_cons_of_mem _ rested)

theorem place_absent (absent : entry.1 ∉ entries.map Prod.fst) : (place rank entry entries).Perm (entry :: entries) := by
  induction entries with
  | nil => exact List.Perm.refl _
  | cons first rest ih =>
    rw [List.map_cons,List.mem_cons,not_or] at absent
    unfold place
    rw [if_neg (Ne.symm absent.1)]
    split
    · exact List.Perm.refl _
    · exact ((ih absent.2).cons first).trans (List.Perm.swap ..)

theorem place_concat (ordered : rank.Ordered (entries ++ [entry])) : place rank entry entries = entries ++ [entry] := by
  induction entries with
  | nil => rfl
  | cons first rest ih =>
    obtain ⟨names,sorted⟩ := ordered
    rw [List.cons_append,List.map_cons,List.nodup_cons] at names
    rw [List.cons_append,List.pairwise_cons] at sorted
    have other : first.1 ≠ entry.1 := by
      intro same
      exact names.1 (by simp [same])
    have behind := sorted.1 entry (by simp)
    unfold place
    rw [if_neg other,behind,ih ⟨names.2,sorted.2⟩]
    rfl

theorem enumerate_ordered {entries : List (κ × ν)} (ordered : rank.Ordered entries) : enumerate rank entries = entries := by
  induction entries using List.reverseRecOn with
  | nil => rfl
  | append_singleton entries entry ih => rw [enumerate_concat,ih ordered.left,place_concat ordered]

theorem ordered_place (entry : κ × ν) {entries : List (κ × ν)} (ordered : rank.Ordered entries) : rank.Ordered (place rank entry entries) := by
  induction entries with
  | nil => exact ⟨List.nodup_singleton _,List.pairwise_singleton _ _⟩
  | cons first rest ih =>
    obtain ⟨names,sorted⟩ := ordered
    rw [List.map_cons,List.nodup_cons] at names
    rw [List.pairwise_cons] at sorted
    unfold place
    split
    · rename_i same
      refine ⟨?_,?_⟩
      · rw [List.map_cons,List.nodup_cons,← same]
        exact names
      · rw [List.pairwise_cons,← same]
        exact sorted
    · rename_i other
      split
      · rename_i earlier
        have ahead : ∀ later ∈ rest, rank.before later.1 entry.1 = false := by
          intro later listed
          cases precedes : rank.before later.1 entry.1 with
          | false => rfl
          | true =>
            have through := rank.trans _ _ _ precedes earlier
            rw [sorted.1 later listed] at through
            cases through
        refine ⟨?_,?_⟩
        · rw [List.map_cons,List.nodup_cons,List.map_cons,List.mem_cons,not_or,List.nodup_cons]
          refine ⟨⟨Ne.symm other,?_⟩,names⟩
          intro listed
          obtain ⟨later,found,same⟩ := List.mem_map.mp listed
          have not_ := sorted.1 later found
          rw [same,earlier] at not_
          cases not_
        · rw [List.pairwise_cons,List.pairwise_cons]
          refine ⟨?_,sorted⟩
          intro later listed
          rcases List.mem_cons.mp listed with rfl | listed
          · exact rank.asymm earlier
          · exact ahead later listed
      · rename_i behind
        obtain ⟨names',sorted'⟩ := ih ⟨names.2,sorted.2⟩
        refine ⟨?_,?_⟩
        · rw [List.map_cons,List.nodup_cons]
          refine ⟨?_,names'⟩
          intro listed
          obtain ⟨later,found,same⟩ := List.mem_map.mp listed
          rcases place_mem found with rfl | found
          · exact other same.symm
          · exact names.1 (List.mem_map.mpr ⟨later,found,same⟩)
        · rw [List.pairwise_cons]
          refine ⟨?_,sorted'⟩
          intro later listed
          rcases place_mem listed with rfl | listed
          · simpa using behind
          · exact sorted.1 later listed

theorem ordered_enumerate (entries : List (κ × ν)) : rank.Ordered (enumerate rank entries) := by
  induction entries using List.reverseRecOn with
  | nil => exact ⟨List.nodup_nil,List.Pairwise.nil⟩
  | append_singleton entries entry ih =>
    rw [enumerate_concat]
    exact ordered_place entry ih

theorem enumerate_mem (listed : other ∈ enumerate rank entries) : other ∈ entries := by
  induction entries using List.reverseRecOn with
  | nil => cases listed
  | append_singleton entries entry ih =>
    rw [enumerate_concat] at listed
    rw [List.mem_append,List.mem_singleton]
    rcases place_mem listed with same | old
    · exact .inr same
    · exact .inl (ih old)

theorem enumerate_perm (names : (entries.map Prod.fst).Nodup) : (enumerate rank entries).Perm entries := by
  induction entries using List.reverseRecOn with
  | nil => exact List.Perm.refl _
  | append_singleton entries entry ih =>
    rw [List.map_append,List.map_singleton,List.nodup_append] at names
    obtain ⟨names,_,apart⟩ := names
    have old := ih names
    have absent : entry.1 ∉ (enumerate rank entries).map Prod.fst := by
      intro listed
      rw [(old.map Prod.fst).mem_iff] at listed
      exact apart _ listed _ (List.mem_singleton_self _) rfl
    rw [enumerate_concat]
    exact (place_absent absent).trans ((old.cons entry).trans (List.perm_append_singleton entry entries).symm)

theorem place_front {entry : κ × ν} {entries : List (κ × ν)} (all : ∀ other ∈ entries, rank.before entry.1 other.1 = true) : place rank entry entries = entry :: entries := by
  cases entries with
  | nil => rfl
  | cons first rest =>
    have ahead := all first (List.mem_cons_self ..)
    have other : first.1 ≠ entry.1 := by
      intro same
      rw [same,rank.irrefl] at ahead
      cases ahead
    rw [place,if_neg other,if_pos ahead]

theorem place_filter (keep : κ → Bool) (entry : κ × ν) {entries : List (κ × ν)} (ordered : rank.Ordered entries) :
    (place rank entry entries).filter (fun entry => keep entry.1) =
      if keep entry.1 then place rank entry (entries.filter fun entry => keep entry.1) else entries.filter fun entry => keep entry.1 := by
  induction entries with
  | nil =>
    unfold place
    rw [List.filter_cons,List.filter_nil]
  | cons first rest ih =>
    obtain ⟨names,sorted⟩ := ordered
    rw [List.map_cons,List.nodup_cons] at names
    rw [List.pairwise_cons] at sorted
    have onward := ih ⟨names.2,sorted.2⟩
    by_cases same : first.1 = entry.1
    · rw [place,if_pos same,List.filter_cons,List.filter_cons,same]
      split
      · rw [place,if_pos same]
      · rfl
    · by_cases earlier : rank.before entry.1 first.1 = true
      · have ahead : ∀ other ∈ (first :: rest).filter fun entry => keep entry.1, rank.before entry.1 other.1 = true := by
          intro other listed
          rcases List.mem_cons.mp (List.mem_filter.mp listed).1 with rfl | later
          · exact earlier
          · exact rank.weak _ _ _ earlier (sorted.1 other later)
        have front := place_front ahead
        rw [place,if_neg same,if_pos earlier,List.filter_cons,front]
      · rw [place,if_neg same,if_neg earlier,List.filter_cons,onward,List.filter_cons]
        split
        · split
          · rw [place,if_neg same,if_neg earlier]
          · rfl
        · rfl

theorem enumerate_filter (rank : Rank κ) (keep : κ → Bool) (entries : List (κ × ν)) :
    (enumerate rank entries).filter (fun entry => keep entry.1) = enumerate rank (entries.filter fun entry => keep entry.1) := by
  induction entries using List.reverseRecOn with
  | nil => rfl
  | append_singleton entries entry ih =>
    rw [enumerate_concat,place_filter keep entry (ordered_enumerate entries),ih,List.filter_append,List.filter_cons,List.filter_nil]
    split
    · rw [enumerate_concat]
    · rw [List.append_nil]

end
end Rank

-- A loop over entries with different keys, each of which touches what is kept
-- under its own key.
variable {σ : Type} {step : σ → κ × ν → Option σ} {view : σ → κ → Option μ} {outcome : κ × ν → Option μ → Option (Option μ)}

structure Apart (step : σ → κ × ν → Option σ) (view : σ → κ → Option μ) (outcome : κ × ν → Option μ → Option (Option μ)) : Prop where
  own : ∀ state entry, (step state entry).map (fun next => view next entry.1) = outcome entry (view state entry.1)
  others : ∀ state entry next, step state entry = some next → ∀ key, key ≠ entry.1 → view next key = view state key

namespace Apart

theorem frame (apart : Apart step view outcome) {entries : List (κ × ν)} {state final : σ} (run : entries.foldlM step state = some final)
    {key : κ} (absent : key ∉ entries.map Prod.fst) : view final key = view state key := by
  induction entries generalizing state with
  | nil =>
    cases run
    rfl
  | cons first rest ih =>
    rw [List.map_cons,List.mem_cons,not_or] at absent
    rw [List.foldlM_cons] at run
    obtain ⟨middle,one,onward⟩ := Option.bind_eq_some_iff.mp run
    rw [ih onward absent.2,apart.others state first middle one key absent.1]

theorem outcomes (apart : Apart step view outcome) {entries : List (κ × ν)} (keys : (entries.map Prod.fst).Nodup) {state final : σ}
    (run : entries.foldlM step state = some final) : ∀ entry ∈ entries, outcome entry (view state entry.1) = some (view final entry.1) := by
  induction entries generalizing state with
  | nil =>
    intro entry listed
    cases listed
  | cons first rest ih =>
    rw [List.map_cons,List.nodup_cons] at keys
    rw [List.foldlM_cons] at run
    obtain ⟨middle,one,onward⟩ := Option.bind_eq_some_iff.mp run
    intro entry listed
    rcases List.mem_cons.mp listed with rfl | later
    · rw [← apart.own,one,Option.map_some,apart.frame onward keys.1]
    · have other : entry.1 ≠ first.1 := by
        intro same
        exact keys.1 (List.mem_map.mpr ⟨entry,later,same⟩)
      rw [← ih keys.2 onward entry later,apart.others state first middle one entry.1 other]

theorem runs (apart : Apart step view outcome) {entries : List (κ × ν)} (keys : (entries.map Prod.fst).Nodup) {state : σ}
    (all : ∀ entry ∈ entries, outcome entry (view state entry.1) ≠ none) : ∃ final, entries.foldlM step state = some final := by
  induction entries generalizing state with
  | nil => exact ⟨state,rfl⟩
  | cons first rest ih =>
    rw [List.map_cons,List.nodup_cons] at keys
    have here := all first (List.mem_cons_self ..)
    rw [← apart.own] at here
    cases one : step state first with
    | none => simp [one] at here
    | some middle =>
      have later : ∀ entry ∈ rest, outcome entry (view middle entry.1) ≠ none := by
        intro entry listed
        have other : entry.1 ≠ first.1 := by
          intro same
          exact keys.1 (List.mem_map.mpr ⟨entry,listed,same⟩)
        rw [apart.others state first middle one entry.1 other]
        exact all entry (List.mem_cons_of_mem _ listed)
      obtain ⟨final,onward⟩ := ih keys.2 later
      refine ⟨final,?_⟩
      rw [List.foldlM_cons,one]
      exact onward

end Apart

end Atomic
