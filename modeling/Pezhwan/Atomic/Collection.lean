import Mathlib.Data.List.Nodup
import Mathlib.Tactic.Common

namespace Atomic.Collection
variable {δ κ : Type} [DecidableEq κ] (key : δ → κ)

-- A collection is the list of its documents in the order a scan meets them.
def updateOne (p : δ → Bool) (f : δ → δ) : List δ → List δ
  | [] => []
  | doc :: rest => if p doc then f doc :: rest else doc :: updateOne p f rest

def updateMany (p : δ → Bool) (f : δ → δ) (docs : List δ) : List δ :=
  docs.map fun doc => if p doc then f doc else doc

def lookup (k : κ) (docs : List δ) : Option δ := docs.find? fun doc => key doc = k

-- The document with key `k` rewritten, every other one kept.
def rewrite (k : κ) (f : δ → δ) (docs : List δ) : List δ :=
  docs.map fun doc => if key doc = k then f doc else doc

omit [DecidableEq κ] in
theorem filterMap_once {name : δ → Option κ} {log : List δ} (once : (log.filterMap name).Nodup) (one : entry ∈ log)
    (two : other ∈ log) (named : name entry = some subject) (also : name other = some subject) : entry = other := by
  induction log with
  | nil => cases one
  | cons head rest ih =>
    have listed : ∀ {later}, later ∈ rest → name later = some subject → subject ∈ rest.filterMap name :=
      fun member same => List.mem_filterMap.mpr ⟨_,member,same⟩
    rcases List.mem_cons.mp one with rfl | inRest
    · rcases List.mem_cons.mp two with rfl | later
      · rfl
      · simp only [List.filterMap_cons,named,List.nodup_cons] at once
        exact absurd (listed later also) once.1
    · rcases List.mem_cons.mp two with rfl | later
      · simp only [List.filterMap_cons,also,List.nodup_cons] at once
        exact absurd (listed inRest named) once.1
      · refine ih ?_ inRest later
        simp only [List.filterMap_cons] at once
        split at once
        · exact once
        · exact (List.nodup_cons.mp once).2

omit [DecidableEq κ] in
theorem updateOne_none (f : δ → δ) (missing : docs.find? p = none) : updateOne p f docs = docs := by
  induction docs with
  | nil => rfl
  | cons doc rest ih =>
    simp only [List.find?_cons] at missing
    split at missing
    · cases missing
    · rename_i fails
      simp [updateOne,fails,ih missing]

omit [DecidableEq κ] in
theorem updateOne_moves (moved : ∀ doc, f doc ≠ doc) (found : docs.find? p = some doc) : updateOne p f docs ≠ docs := by
  induction docs with
  | nil => cases found
  | cons head rest ih =>
    unfold updateOne
    by_cases hit : p head = true
    · rw [if_pos hit]
      intro same
      exact moved head (List.cons.inj same).1
    · rw [if_neg hit]
      intro same
      rw [List.find?_cons_of_neg hit] at found
      exact ih found (List.cons.inj same).2

omit [DecidableEq κ] in
theorem updateOne_append (f : δ → δ) (found : docs.find? p = some doc) :
    updateOne p f (docs ++ rest) = updateOne p f docs ++ rest := by
  induction docs with
  | nil => cases found
  | cons head tail ih =>
    simp only [List.find?_cons] at found
    split at found
    · rename_i matched
      simp [updateOne,matched]
    · rename_i fails
      simp [updateOne,fails,ih found]

omit [DecidableEq κ] in
theorem map_updateOne {g : δ → γ} (kept : ∀ doc, g (f doc) = g doc) (docs : List δ) :
    (updateOne p f docs).map g = docs.map g := by
  induction docs with
  | nil => rfl
  | cons doc rest ih =>
    unfold updateOne
    split
    · simp [kept]
    · simp [ih]

omit [DecidableEq κ] in
theorem mem_updateOne (member : doc ∈ updateOne p f docs) : doc ∈ docs ∨ ∃ old, docs.find? p = some old ∧ doc = f old := by
  induction docs with
  | nil => cases member
  | cons head rest ih =>
    unfold updateOne at member
    split at member
    · rename_i hit
      rcases List.mem_cons.mp member with rfl | old
      · exact .inr ⟨head,by simp [hit],rfl⟩
      · exact .inl (List.mem_cons_of_mem _ old)
    · rename_i miss
      rcases List.mem_cons.mp member with rfl | old
      · exact .inl List.mem_cons_self
      · rcases ih old with kept | ⟨found,first,rfl⟩
        · exact .inl (List.mem_cons_of_mem _ kept)
        · exact .inr ⟨found,by simp [miss,first],rfl⟩

omit [DecidableEq κ] in
theorem filter_updateOne {keep : δ → Bool} (held : ∀ doc ∈ docs, p doc = true → keep doc = true)
    (same : ∀ doc, keep (f doc) = keep doc) : (updateOne p f docs).filter keep = updateOne p f (docs.filter keep) := by
  induction docs with
  | nil => rfl
  | cons doc rest ih =>
    have tail := ih fun doc listed => held doc (List.mem_cons_of_mem _ listed)
    by_cases hit : p doc = true
    · have kept := held doc List.mem_cons_self hit
      simp [updateOne,hit,same,kept]
    · by_cases kept : keep doc = true
      · simp [updateOne,hit,kept,tail]
      · simp [updateOne,hit,kept,tail]

omit [DecidableEq κ] in
theorem filter_updateOne_other {keep : δ → Bool} (foreign : ∀ doc ∈ docs, p doc = true → keep doc = false)
    (same : ∀ doc, keep (f doc) = keep doc) : (updateOne p f docs).filter keep = docs.filter keep := by
  induction docs with
  | nil => rfl
  | cons doc rest ih =>
    have tail := ih fun doc listed => foreign doc (List.mem_cons_of_mem _ listed)
    by_cases hit : p doc = true
    · have dropped := foreign doc List.mem_cons_self hit
      simp [updateOne,hit,same,dropped]
    · by_cases kept : keep doc = true
      · simp [updateOne,hit,kept,tail]
      · simp [updateOne,hit,kept,tail]

omit [DecidableEq κ] in
theorem length_filter_updateOne {keep : δ → Bool} (kept : ∀ doc ∈ docs, p doc = true → keep (f doc) = true → keep doc = true) :
    ((updateOne p f docs).filter keep).length ≤ (docs.filter keep).length := by
  induction docs with
  | nil => exact Nat.le_refl _
  | cons doc rest ih =>
    have tail := ih fun other listed => kept other (List.mem_cons_of_mem _ listed)
    have head := kept doc List.mem_cons_self
    unfold updateOne
    by_cases hit : p doc = true
    · rw [if_pos hit,List.filter_cons,List.filter_cons]
      split
      · rename_i entered
        rw [if_pos (head hit entered)]
        exact Nat.le_refl _
      · split
        · exact Nat.le_succ _
        · exact Nat.le_refl _
    · rw [if_neg hit,List.filter_cons,List.filter_cons]
      split
      · exact Nat.succ_le_succ tail
      · exact tail

omit [DecidableEq κ] in
theorem length_filter_updateOne_succ (keep : δ → Bool) (docs : List δ) :
    ((updateOne p f docs).filter keep).length ≤ (docs.filter keep).length + 1 := by
  induction docs with
  | nil => exact Nat.zero_le _
  | cons doc rest ih =>
    unfold updateOne
    by_cases hit : p doc = true
    · rw [if_pos hit,List.filter_cons,List.filter_cons]
      have bound := Nat.le_succ (rest.filter keep).length
      split
      · split
        · exact Nat.le_succ _
        · exact Nat.le_refl _
      · split
        · exact Nat.le_succ_of_le bound
        · exact bound
    · rw [if_neg hit,List.filter_cons,List.filter_cons]
      split
      · exact Nat.succ_le_succ ih
      · exact ih

omit [DecidableEq κ] in
theorem length_filter_updateMany {keep : δ → Bool} (kept : ∀ doc ∈ docs, p doc = true → keep (f doc) = true → keep doc = true) :
    ((updateMany p f docs).filter keep).length ≤ (docs.filter keep).length := by
  induction docs with
  | nil => exact Nat.le_refl _
  | cons doc rest ih =>
    have tail := ih fun other listed => kept other (List.mem_cons_of_mem _ listed)
    have head := kept doc List.mem_cons_self
    unfold updateMany at tail ⊢
    rw [List.map_cons,List.filter_cons,List.filter_cons]
    by_cases hit : p doc = true
    · rw [if_pos hit]
      split
      · rename_i entered
        rw [if_pos (head hit entered)]
        exact Nat.succ_le_succ tail
      · split
        · exact Nat.le_succ_of_le tail
        · exact tail
    · rw [if_neg hit]
      split
      · exact Nat.succ_le_succ tail
      · exact tail

omit [DecidableEq κ] in
theorem updateOne_spares (member : doc ∈ docs) (other : p doc = false) (f : δ → δ) : doc ∈ updateOne p f docs := by
  induction docs with
  | nil => cases member
  | cons head rest ih =>
    unfold updateOne
    rcases List.mem_cons.mp member with rfl | older
    · rw [if_neg (by simp [other])]
      exact List.mem_cons_self
    · split
      · exact List.mem_cons_of_mem _ older
      · exact List.mem_cons_of_mem _ (ih older)

omit [DecidableEq κ] in
theorem map_updateMany {g : δ → γ} (kept : ∀ doc, g (f doc) = g doc) (p : δ → Bool) (docs : List δ) :
    (updateMany p f docs).map g = docs.map g := by
  unfold updateMany
  rw [List.map_map]
  apply List.map_congr_left
  intro doc _
  rw [Function.comp_apply]
  split
  · exact kept doc
  · rfl

variable {key}

theorem rewrite_absent (f : δ → δ) (absent : k ∉ docs.map key) : rewrite key k f docs = docs := by
  unfold rewrite
  conv_rhs => rw [← List.map_id docs]
  refine List.map_congr_left fun doc member => ?_
  have other : key doc ≠ k := fun same => absent (same ▸ List.mem_map_of_mem member)
  simp [other]

theorem updateOne_rewrite (f : δ → δ) (unique : (docs.map key).Nodup) (found : docs.find? p = some doc) :
    updateOne p f docs = rewrite key (key doc) f docs := by
  induction docs with
  | nil => simp at found
  | cons head rest ih =>
    simp only [List.map_cons,List.nodup_cons] at unique
    simp only [List.find?_cons] at found
    split at found
    · rename_i matched
      cases found
      have kept := rewrite_absent f unique.1
      simp only [rewrite] at kept
      simp [updateOne,matched,rewrite,kept]
    · rename_i fails
      have member : key doc ∈ rest.map key := List.mem_map_of_mem (List.mem_of_find?_eq_some found)
      have other : key head ≠ key doc := fun same => unique.1 (same ▸ member)
      have tail := ih unique.2 found
      simp only [rewrite] at tail ⊢
      simp [updateOne,fails,other,tail]

theorem mem_rewrite : doc ∈ rewrite key k f docs ↔
    ∃ old ∈ docs, doc = if key old = k then f old else old := by
  simp [rewrite,eq_comm]

omit [DecidableEq κ] in
theorem mem_updateMany : doc ∈ updateMany p f docs ↔ ∃ old ∈ docs, doc = if p old then f old else old := by
  simp only [updateMany,List.mem_map]
  exact ⟨fun ⟨old,member,same⟩ => ⟨old,member,same.symm⟩,fun ⟨old,member,same⟩ => ⟨old,member,same.symm⟩⟩

theorem lookup_member (unique : (docs.map key).Nodup) (member : doc ∈ docs) :
    lookup key (key doc) docs = some doc := by
  induction docs with
  | nil => cases member
  | cons head rest ih =>
    simp only [List.map_cons,List.nodup_cons] at unique
    rcases List.mem_cons.mp member with rfl | old
    · simp [lookup]
    · have other : key head ≠ key doc := fun same => unique.1 (same ▸ List.mem_map_of_mem old)
      have tail := ih unique.2 old
      simp only [lookup] at tail ⊢
      simp [other,tail]

theorem lookup_some (found : lookup key k docs = some doc) : doc ∈ docs ∧ key doc = k := by
  refine ⟨List.mem_of_find?_eq_some found,?_⟩
  simpa using List.find?_some found

theorem lookup_none : lookup key k docs = none ↔ k ∉ docs.map key := by
  simp [lookup,List.find?_eq_none]

theorem lookup_map (kept : ∀ doc, key (f doc) = key doc) (k : κ) (docs : List δ) :
    lookup key k (docs.map f) = (lookup key k docs).map f := by
  simp only [lookup,List.find?_map,Function.comp_def,kept]

theorem lookup_append (k : κ) (docs more : List δ) :
    lookup key k (docs ++ more) = (lookup key k docs).or (lookup key k more) := by
  simp only [lookup,List.find?_append]

theorem lookup_removed {docs : List δ} (other : k ≠ gone) :
    lookup key k (docs.filter fun doc => key doc ≠ gone) = lookup key k docs := by
  simp only [lookup,List.find?_filter]
  congr 1
  funext doc
  by_cases named : key doc = k
  · simp [named,other]
  · simp [named]

theorem lookup_rewrite (kept : ∀ doc, key (f doc) = key doc) (k p : κ) (docs : List δ) :
    lookup key k (rewrite key p f docs) = if k = p then (lookup key k docs).map f else lookup key k docs := by
  have same : ∀ doc, key (if key doc = p then f doc else doc) = key doc := by
    intro doc; split <;> simp [kept]
  simp only [lookup,rewrite,List.find?_map,Function.comp_def,same]
  cases found : docs.find? fun doc => key doc = k with
  | none => simp
  | some doc =>
    have named : key doc = k := by simpa using List.find?_some found
    by_cases hit : k = p <;> simp [named,hit]

theorem lookup_updateOne {g : δ → γ} (kept : ∀ doc, key (f doc) = key doc) (same : ∀ doc, g (f doc) = g doc) :
    (lookup key k (updateOne p f docs)).map g = (lookup key k docs).map g := by
  induction docs with
  | nil => rfl
  | cons doc rest ih =>
    by_cases hit : p doc = true
    · by_cases named : key doc = k <;> simp [updateOne,hit,lookup,kept,named,same]
    · by_cases named : key doc = k
      · simp [updateOne,hit,lookup,named]
      · simp only [lookup] at ih
        simp [updateOne,hit,lookup,named,ih]

theorem lookup_updateOne_ne (kept : ∀ doc, key (f doc) = key doc)
    (other : ∀ doc, docs.find? p = some doc → key doc ≠ k) : lookup key k (updateOne p f docs) = lookup key k docs := by
  induction docs with
  | nil => rfl
  | cons head rest ih =>
    by_cases hit : p head = true
    · have different : key head ≠ k := other head (by simp [hit])
      simp [updateOne,hit,lookup,kept,different]
    · have tail := ih fun doc found => other doc (by simpa [hit] using found)
      simp only [lookup] at tail
      by_cases named : key head = k
      · simp [updateOne,hit,lookup,named]
      · simp [updateOne,hit,lookup,named,tail]

theorem lookup_updateOne_at (kept : ∀ doc, key (f doc) = key doc) (unique : (docs.map key).Nodup) (k p : κ)
    (cond : δ → Bool) : lookup key k (updateOne (fun doc => key doc = p && cond doc) f docs) =
      if k = p then (lookup key k docs).map fun doc => if cond doc then f doc else doc else lookup key k docs := by
  induction docs with
  | nil => simp [updateOne,lookup]
  | cons head rest ih =>
    simp only [List.map_cons,List.nodup_cons] at unique
    have tail := ih unique.2
    simp only [lookup] at tail
    by_cases here : key head = p
    · have absent : k = p → rest.find? (fun doc => key doc = k) = none := by
        rintro rfl
        exact lookup_none.mpr (here ▸ unique.1)
      by_cases met : cond head = true
      · by_cases named : key head = k
        · have same : k = p := named.symm.trans here
          simp [updateOne,lookup,here,met,kept,same]
        · have other : k ≠ p := fun same => named (here.trans same.symm)
          simp [updateOne,lookup,here,met,kept,other,other.symm]
      · by_cases named : key head = k
        · have same : k = p := named.symm.trans here
          simp [updateOne,lookup,here,met,same]
        · have other : k ≠ p := fun same => named (here.trans same.symm)
          simp only [updateOne,here,decide_true,met,Bool.and_false,Bool.false_eq_true,if_false]
          simp only [lookup,List.find?_cons,named,decide_false,tail,other,if_false]
    · by_cases named : key head = k
      · have other : k ≠ p := fun same => here (named.trans same)
        simp [updateOne,lookup,named,other]
      · simp only [updateOne,here,decide_false,Bool.false_and,Bool.false_eq_true,if_false]
        simp only [lookup,List.find?_cons,named,decide_false,tail]

-- The first document with a key is the one that an update aimed at the key tries.
theorem lookup_updateOne_own (kept : ∀ doc, key (f doc) = key doc) (k : κ) (cond : δ → Bool) (docs : List δ) :
    lookup key k (updateOne (fun doc => key doc = k && cond doc) f docs) =
      (lookup key k docs).map fun doc => if cond doc then f doc else doc := by
  induction docs with
  | nil => rfl
  | cons head rest ih =>
    simp only [lookup] at ih
    by_cases here : key head = k
    · by_cases met : cond head = true
      · simp [updateOne,lookup,here,met,kept]
      · simp [updateOne,lookup,here,met]
    · simp [updateOne,lookup,here,ih]

theorem lookup_updateOne_key (kept : ∀ doc, key (f doc) = key doc) (k : κ) (docs : List δ) :
    lookup key k (updateOne (fun doc => key doc = k) f docs) = (lookup key k docs).map f := by
  have tried := lookup_updateOne_own kept k (fun _ => true) docs
  simpa using tried

theorem lookup_updateMany (kept : ∀ doc, key (f doc) = key doc) (p : δ → Bool) (k : κ) (docs : List δ) :
    lookup key k (updateMany p f docs) = (lookup key k docs).map fun doc => if p doc then f doc else doc := by
  have same : ∀ doc, key (if p doc then f doc else doc) = key doc := by
    intro doc
    split
    · exact kept doc
    · rfl
  exact lookup_map same k docs

section Snapshot
variable [DecidableEq δ]

variable (key) in
def changed (snapshot copy : List δ) (k : κ) : Bool := lookup key k copy ≠ lookup key k snapshot

variable (key) in
-- First committer wins: a document written by the transaction must not have
-- been touched since the snapshot, and an inserted one must not violate the
-- unique index `clash`.
def merge (clash : δ → δ → Bool) (snapshot copy current : List δ) : Option (List δ) :=
  let inserted := copy.filter fun doc => key doc ∉ snapshot.map key
  if (copy.all fun doc => !changed key snapshot copy (key doc) ||
        decide (lookup key (key doc) current = lookup key (key doc) snapshot)) &&
      inserted.all fun doc => current.all fun old => !clash doc old
  then some ((current.map fun doc =>
    if changed key snapshot copy (key doc) then (lookup key (key doc) copy).getD doc else doc) ++ inserted)
  else none

omit [DecidableEq δ] in
theorem lookup_copy {child : δ} (kept : ∀ doc, key (f doc) = key doc) (absent : key child ∉ snapshot.map key) :
    lookup key k (rewrite key p f snapshot ++ [child]) =
      if k = key child then some child
      else if k = p then (lookup key k snapshot).map f else lookup key k snapshot := by
  have mapped := lookup_rewrite kept k p snapshot
  simp only [lookup,List.find?_append] at mapped ⊢
  rw [mapped]
  by_cases fresh : k = key child
  · subst fresh
    have none : snapshot.find? (fun doc => key doc = key child) = none := lookup_none.mpr absent
    simp [none]
  · have other : ¬ key child = k := fun same => fresh same.symm
    simp [fresh,other]

omit [DecidableEq δ] in
theorem lookup_inserted {snapshot : List δ} (copy : List δ) (absent : k ∉ snapshot.map key) :
    lookup key k (copy.filter fun doc => key doc ∉ snapshot.map key) = lookup key k copy := by
  simp only [lookup,List.find?_filter]
  congr 1
  funext doc
  by_cases named : key doc = k
  · simp only [named,decide_true,decide_not,absent,decide_false,Bool.not_false,and_self]
  · simp [named]

theorem mem_merge {clash : δ → δ → Bool} (merged : merge key clash snapshot copy current = some docs)
    (member : doc ∈ docs) : doc ∈ copy ∨ doc ∈ current := by
  unfold merge at merged
  dsimp only at merged
  split at merged
  · cases merged
    rcases List.mem_append.mp member with kept | inserted
    · obtain ⟨old,present,rfl⟩ := List.mem_map.mp kept
      split
      · cases found : lookup key (key old) copy with
        | none => exact .inr present
        | some written => exact .inl (lookup_some found).1
      · exact .inr present
    · exact .inl (List.mem_filter.mp inserted).1
  · cases merged

theorem lookup_merge {clash : δ → δ → Bool} (merged : merge key clash snapshot copy snapshot = some docs) :
    lookup key k docs = (lookup key k copy).or (lookup key k snapshot) := by
  simp only [merge] at merged
  split at merged
  · cases merged
    have same : ∀ doc, key (if changed key snapshot copy (key doc) then (lookup key (key doc) copy).getD doc else doc) =
        key doc := by
      intro doc
      split
      · cases found : lookup key (key doc) copy with
        | none => rfl
        | some written => exact (lookup_some found).2
      · rfl
    rw [lookup_append,lookup_map same]
    cases found : lookup key k snapshot with
    | none =>
      rw [lookup_inserted copy (lookup_none.mp found)]
      simp
    | some doc =>
      have named := (lookup_some found).2
      by_cases rewritten : changed key snapshot copy k = true
      · cases written : lookup key k copy <;> simp [named,rewritten,written]
      · have equal : lookup key k copy = some doc := by simpa [changed,found] using rewritten
        simp [named,rewritten,equal]
  · cases merged

-- The one shape of transaction used with this: one document rewritten and one
-- new document inserted.
theorem merge_rewrite_insert {child parent : δ} {clash : δ → δ → Bool} (kept : ∀ doc, key (f doc) = key doc)
    (found : lookup key p snapshot = some parent) (differs : f parent ≠ parent)
    (absent : key child ∉ snapshot.map key)
    (merged : merge key clash snapshot (rewrite key p f snapshot ++ [child]) current = some result) :
    lookup key p current = some parent ∧ key child ∉ current.map key ∧
      (∀ old ∈ current, clash child old = false) ∧ result = rewrite key p (fun _ => f parent) current ++ [child] := by
  have named : key parent = p := (lookup_some found).2
  have present : p ∈ snapshot.map key := named ▸ List.mem_map_of_mem (lookup_some found).1
  have other : p ≠ key child := fun same => absent (same ▸ present)
  have keys : ∀ doc, key (if key doc = p then f doc else doc) = key doc := by
    intro doc; split <;> simp [kept]
  have inserted : (rewrite key p f snapshot ++ [child]).filter (fun doc => key doc ∉ snapshot.map key) = [child] := by
    have none : (rewrite key p f snapshot).filter (fun doc => key doc ∉ snapshot.map key) = [] := by
      rw [List.filter_eq_nil_iff]
      intro doc member
      obtain ⟨old,present,rfl⟩ := mem_rewrite.mp member
      simp [keys old,List.mem_map_of_mem present]
    rw [List.filter_append,none]
    simpa using absent
  have parentChanged : changed key snapshot (rewrite key p f snapshot ++ [child]) p = true := by
    simp [changed,lookup_copy kept absent,other,found,differs]
  have childChanged : changed key snapshot (rewrite key p f snapshot ++ [child]) (key child) = true := by
    simp [changed,lookup_copy kept absent,lookup_none.mpr absent]
  have restSame : ∀ k, k ≠ p → k ≠ key child →
      changed key snapshot (rewrite key p f snapshot ++ [child]) k = false := by
    intro k notParent notChild
    simp [changed,lookup_copy kept absent,notParent,notChild]
  unfold merge at merged
  simp only [inserted] at merged
  split at merged
  · rename_i admitted
    cases merged
    simp only [Bool.and_eq_true,List.all_eq_true,Bool.or_eq_true,Bool.not_eq_true',decide_eq_true_eq,
      List.mem_singleton] at admitted
    obtain ⟨untouched,unique⟩ := admitted
    have childFree : lookup key (key child) current = none := by
      rcases untouched child (by simp) with same | same
      · rw [childChanged] at same; cases same
      · rw [same]; exact lookup_none.mpr absent
    have parentKept : lookup key p current = some parent := by
      have member : f parent ∈ rewrite key p f snapshot ++ [child] := by
        refine List.mem_append_left _ (mem_rewrite.mpr ⟨parent,(lookup_some found).1,?_⟩)
        simp [named]
      rcases untouched _ member with same | same
      · rw [kept,named,parentChanged] at same; cases same
      · rw [kept,named] at same; rw [same]; exact found
    refine ⟨parentKept,lookup_none.mp childFree,unique child rfl,?_⟩
    congr 1
    refine List.map_congr_left fun doc member => ?_
    by_cases hit : key doc = p
    · simp [hit,parentChanged,lookup_copy kept absent,other,found]
    · have notChild : key doc ≠ key child := by
        intro same
        exact lookup_none.mp childFree (same ▸ List.mem_map_of_mem member)
      simp [hit,restSame _ hit notChild]
  · cases merged

end Snapshot
end Atomic.Collection
