import Pezhwan.Atomic.Collection

-- What a change of a collection leaves of the documents that are kept apart.
namespace Atomic.Collection
variable {δ : Type} {docs : List δ} {p keep : δ → Bool} {f : δ → δ}

theorem filter_updateOne_iff (same : ∀ doc, keep (f doc) = keep doc) :
    (updateOne p f docs).filter keep = docs.filter keep ↔
      ∀ doc, docs.find? p = some doc → keep doc = true → f doc = doc := by
  induction docs with
  | nil => simp [updateOne]
  | cons doc rest ih =>
    unfold updateOne
    rw [List.find?_cons]
    by_cases hit : p doc = true
    · by_cases kept : keep doc = true
      · simp [hit,kept,same]
      · simp [hit,kept,same]
    · by_cases kept : keep doc = true
      · simp [hit,kept,ih]
      · simp [hit,kept,ih]

theorem updateOne_carries (member : doc ∈ docs) : doc ∈ updateOne p f docs ∨ f doc ∈ updateOne p f docs := by
  induction docs with
  | nil => cases member
  | cons first rest ih =>
    unfold updateOne
    rcases List.mem_cons.mp member with here | later
    · subst here
      split
      · exact .inr List.mem_cons_self
      · exact .inl List.mem_cons_self
    · split
      · exact .inl (List.mem_cons_of_mem _ later)
      · exact (ih later).imp (List.mem_cons_of_mem _) (List.mem_cons_of_mem _)

theorem updateOne_found (found : docs.find? p = some doc) : f doc ∈ updateOne p f docs := by
  induction docs with
  | nil => cases found
  | cons first rest ih =>
    unfold updateOne
    by_cases hit : p first = true
    · rw [List.find?_cons_of_pos hit] at found
      cases found
      rw [if_pos hit]
      exact List.mem_cons_self
    · rw [List.find?_cons_of_neg hit] at found
      rw [if_neg hit]
      exact List.mem_cons_of_mem _ (ih found)

theorem filter_updateMany_other (foreign : ∀ doc, p doc = true → keep doc = false) (same : ∀ doc, keep (f doc) = keep doc)
    (docs : List δ) : (updateMany p f docs).filter keep = docs.filter keep := by
  induction docs with
  | nil => rfl
  | cons doc rest ih =>
    unfold updateMany at ih ⊢
    rw [List.map_cons]
    by_cases hit : p doc = true
    · have dropped := foreign doc hit
      have changed := (same doc).trans dropped
      rw [if_pos hit,List.filter_cons_of_neg (by simp [changed]),List.filter_cons_of_neg (by simp [dropped]),ih]
    · rw [if_neg hit,List.filter_cons,List.filter_cons,ih]

theorem filter_append_iff {doc : δ} : (docs ++ [doc]).filter keep = docs.filter keep ↔ keep doc = false := by
  rw [List.filter_append]
  by_cases kept : keep doc = true <;> simp [kept]

theorem filter_filter_iff {q : δ → Bool} :
    (docs.filter q).filter keep = docs.filter keep ↔ ∀ doc ∈ docs, keep doc = true → q doc = true := by
  constructor
  · intro same doc listed kept
    have there : doc ∈ (docs.filter q).filter keep := same ▸ List.mem_filter.mpr ⟨listed,kept⟩
    exact (List.mem_filter.mp (List.mem_filter.mp there).1).2
  · intro spared
    rw [List.filter_filter]
    apply List.filter_congr
    intro doc listed
    by_cases kept : keep doc = true
    · simp [kept,spared doc listed kept]
    · simp [kept]

theorem filter_eraseP_other (foreign : ∀ doc ∈ docs, p doc = true → keep doc = false) :
    (docs.eraseP p).filter keep = docs.filter keep := by
  induction docs with
  | nil => rfl
  | cons doc rest ih =>
    have tail := ih fun other listed => foreign other (List.mem_cons_of_mem _ listed)
    by_cases hit : p doc = true
    · have dropped := foreign doc List.mem_cons_self hit
      rw [List.eraseP_cons_of_pos hit,List.filter_cons_of_neg (by simp [dropped])]
    · rw [List.eraseP_cons_of_neg hit,List.filter_cons,List.filter_cons,tail]

theorem filter_erase_iff [DecidableEq δ] {doc : δ} :
    (docs.erase doc).filter keep = docs.filter keep ↔ (doc ∈ docs → keep doc = false) := by
  constructor
  · intro same listed
    by_contra kept
    rw [Bool.not_eq_false] at kept
    have fewer := congrArg (List.count doc) same
    rw [List.count_filter kept,List.count_filter kept,List.count_erase_self] at fewer
    have some_ := List.count_pos_iff.mpr listed
    omega
  · intro foreign
    rw [List.erase_eq_eraseP]
    apply filter_eraseP_other
    intro other listed same
    have equal : doc = other := by simpa using same
    subst equal
    exact foreign listed

end Atomic.Collection
