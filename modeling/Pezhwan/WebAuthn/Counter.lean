import Pezhwan.WebAuthn.Ceremony

-- The signature counters of the stored credentials.
namespace Pezhwan.WebAuthn
open Atomic Prog Config
variable {node : Node} {verifySignature : SignatureCheck} {asked : Asked} {s t u w : World} {id : String}

-- An id that is still to be drawn names no credential.
def Named (node : Node) (w : World) : Prop :=
  ∀ n, w.base.draws.length ≤ n → w.credentials.get? (node.random.fresh n) = none

-- No counter is less than it was; other documents have been created since.
structure Grown (node : Node) (s t : World) : Prop where
  draws : s.base.draws.length ≤ t.base.draws.length
  counters : ∀ id doc', t.credentials.get? id = some doc' →
    (∃ doc, s.credentials.get? id = some doc ∧ doc.counter ≤ doc'.counter) ∨
      ∃ n, s.base.draws.length ≤ n ∧ id = node.random.fresh n

-- The surroundings leave the counters alone and create no credential.
structure Steady (s t : World) : Prop where
  draws : s.base.draws.length ≤ t.base.draws.length
  counters : Counters s t

-- The update of a counter finds the credential as the call has read it.
def Undisturbed (node : Node) (verifySignature : SignatureCheck) (asked : Asked) (memory : List (World × World)) (s _t : World) :
    Prop :=
  ∀ request challenge origin find take entry newCounter,
    asked.call = .completeAuthentication request challenge origin → memory = [find,take] →
      findOne (usable request.id) find.1 = some entry →
        Asserted node verifySignature challenge origin asked.service.rpId request (handed entry.2) newCounter →
          ∃ doc, s.credentials.get? entry.1 = some doc ∧ doc.counter = entry.2.counter

theorem Grown.refl (node : Node) (w : World) : Grown node w w :=
  ⟨Nat.le_refl _,fun _ doc stored => .inl ⟨doc,stored,Nat.le_refl _⟩⟩

theorem Grown.trans (one : Grown node s t) (two : Grown node t u) : Grown node s u := by
  refine ⟨Nat.le_trans one.draws two.draws,?_⟩
  intro id doc'' stored
  rcases two.counters id doc'' stored with ⟨doc',between,grown⟩ | ⟨n,late,named⟩
  · rcases one.counters id doc' between with ⟨doc,first,before⟩ | new
    · exact .inl ⟨doc,first,Nat.le_trans before grown⟩
    · exact .inr new
  · exact .inr ⟨n,Nat.le_trans one.draws late,named⟩

theorem grown_counters (draws : s.base.draws.length ≤ t.base.draws.length) (counters : Counters s t) : Grown node s t := by
  refine ⟨draws,?_⟩
  intro id doc' stored
  obtain ⟨doc,before,same⟩ := counters id doc' stored
  exact .inl ⟨doc,before,Nat.le_of_eq same⟩

theorem named_counters (named : Named node s) (draws : s.base.draws.length ≤ t.base.draws.length) (counters : Counters s t) :
    Named node t := by
  intro n late
  cases stored : t.credentials.get? (node.random.fresh n) with
  | none => rfl
  | some doc' =>
    obtain ⟨doc,before,_⟩ := counters _ doc' stored
    rw [named n (Nat.le_trans draws late)] at before
    cases before

theorem same_counters (same : t.credentials = s.credentials) : Counters s t :=
  fun _ doc' stored => ⟨doc',same ▸ stored,rfl⟩

theorem insert_credentials {doc : WebAuthnCredentialDoc} (made : insert id doc s = .ok t) :
    t.credentials = s.credentials.set id doc := by
  unfold insert at made
  split at made
  · cases made
  · cases made
    rfl

theorem updateById_get {entry : Entry} {newCounter : Nat} {doc' : WebAuthnCredentialDoc}
    (stored : (updateById entry.1 (used newCounter w.base.now) w).credentials.get? id = some doc') :
    ∃ doc, w.credentials.get? id = some doc ∧ doc'.counter = if id = entry.1 then newCounter else doc.counter := by
  unfold updateById at stored
  dsimp only at stored
  rw [Dict.get?_modify] at stored
  split at stored
  · obtain ⟨doc,found,rfl⟩ := Option.map_eq_some_iff.mp stored
    rename_i same
    exact ⟨doc,found,by rw [if_pos same]; rfl⟩
  · rename_i differs
    exact ⟨doc',stored,by rw [if_neg differs]⟩

theorem acted_named (named : Named node s) (acted : Acted node verifySignature asked memory s t) : Named node t := by
  have draws := acted.stored.draws
  cases acted with
  | idle same => exact same ▸ named
  | issued userId i asks made => exact named_counters named draws (same_counters (by rw [made]; rfl))
  | took challenge asks first made => exact named_counters named draws (same_counters (by rw [made]; rfl))
  | registered i doc made =>
    intro n late
    have more : t.base.draws.length = s.base.draws.length + 1 := by
      rw [(insert_rest made).2]
      simp
    rw [insert_credentials made,Dict.get?_set_ne]
    · exact named n (by omega)
    · intro same
      have equal := node.random.injective same
      omega
  | counted request challenge origin find take entry newCounter asks own found asserted made =>
    subst made
    intro n late
    cases stored : (updateById entry.1 (used newCounter s.base.now) s).credentials.get? (node.random.fresh n) with
    | none => rfl
    | some doc' =>
      obtain ⟨doc,before,_⟩ := updateById_get stored
      rw [named n late] at before
      cases before
  | managed store base counters => exact named_counters named draws counters

theorem acted_grown (acted : Acted node verifySignature asked memory s t)
    (undisturbed : Undisturbed node verifySignature asked memory s t) : Grown node s t := by
  have draws := acted.stored.draws
  cases acted with
  | idle same => exact same ▸ .refl node s
  | issued userId i asks made => exact grown_counters draws (same_counters (by rw [made]; rfl))
  | took challenge asks first made => exact grown_counters draws (same_counters (by rw [made]; rfl))
  | registered i doc made =>
    refine ⟨draws,?_⟩
    intro id doc' stored
    rw [insert_credentials made,Dict.get?_set] at stored
    split at stored
    · rename_i new
      exact .inr ⟨_,Nat.le_refl _,new⟩
    · exact .inl ⟨doc',stored,Nat.le_refl _⟩
  | counted request challenge origin find take entry newCounter asks own found asserted made =>
    refine ⟨draws,?_⟩
    subst made
    intro id doc' stored
    obtain ⟨doc,before,counter⟩ := updateById_get stored
    refine .inl ⟨doc,before,?_⟩
    rw [counter]
    split
    · rename_i same
      obtain ⟨current,present,read⟩ := undisturbed request challenge origin find take entry newCounter asks own found asserted
      rw [same,present] at before
      cases before
      rw [read]
      rcases asserted.increased with zero | less
      · exact Nat.le_trans (Nat.le_of_eq zero) (Nat.zero_le _)
      · exact Nat.le_of_lt less
    · exact Nat.le_refl _
  | managed store base counters => exact grown_counters draws counters

section
variable {past : History} {other : World → World → Prop} {initial : World}

theorem named_along (steady : ∀ s t, other s t → Steady s t) (named : Named node initial)
    (along : Along (Acted node verifySignature) past) (linked : Linked other initial past s) : Named node s := by
  have each : ∀ event ∈ past, Named node event.before → Named node event.after := by
    intro event listed before
    obtain ⟨later,earlier,rfl⟩ := List.append_of_mem listed
    exact acted_named before (along_at along).1
  refine linked_always ?_ linked named each
  intro s t moved before
  exact named_counters before (steady s t moved).draws (steady s t moved).counters

theorem grown_since {later earlier : History} {event : Event CallId Asked World} (steady : ∀ s t, other s t → Steady s t)
    (along : Along (Acted node verifySignature) (later ++ event :: earlier))
    (undisturbed : Along (Undisturbed node verifySignature) (later ++ event :: earlier))
    (linked : Linked other initial (later ++ event :: earlier) s) :
    Grown node event.after s ∧ ∀ one ∈ later, Grown node event.after one.before := by
  refine linked_since ?_ linked (.refl node _) ?_
  · intro s t moved grown
    exact grown.trans (grown_counters (steady s t moved).draws (steady s t moved).counters)
  · intro newer one older split grown
    rw [split,List.append_assoc] at along undisturbed
    exact grown.trans (acted_grown (along_at along).1 (along_at undisturbed).1)

theorem grown_document (grown : Grown node s t) (named : Named node s) (before : s.credentials.get? id = some doc)
    (after : t.credentials.get? id = some doc') : doc.counter ≤ doc'.counter := by
  rcases grown.counters id doc' after with ⟨old,stored,less⟩ | ⟨n,late,rfl⟩
  · rw [before] at stored
    cases stored
    exact less
  · rw [named n late] at before
    cases before

theorem counters_grow (steady : ∀ s t, other s t → Steady s t) (named : Named node initial)
    {c : Config CallId Asked World Failure Reply} (traced : Traced (program node verifySignature) other initial past c)
    (undisturbed : Along (Undisturbed node verifySignature) past) {later earlier : History} {event : Event CallId Asked World}
    (split : past = later ++ event :: earlier) (before : event.before.credentials.get? id = some doc)
    (after : c.state.credentials.get? id = some doc') : doc.counter ≤ doc'.counter := by
  have along := (kept_program traced).along
  have linked := traced_linked traced
  subst split
  have own := acted_grown (along_at along).1 (along_at undisturbed).1
  have since := (grown_since steady along undisturbed linked).1
  exact grown_document (own.trans since) (named_along steady named (along_at along).2 (linked_at linked)) before after

theorem accepted_stored {later earlier : History} {event : Event CallId Asked World} {take find update : World × World}
    {entry : Entry}
    (accepted : Accepted node verifySignature service request challenge origin moves take find update userId entry newCounter)
    (asks : event.call = ⟨service,.completeAuthentication request challenge origin⟩)
    (moved : update = (event.before,event.after)) (own : mine event.who earlier = [find,take])
    (undisturbed : Along (Undisturbed node verifySignature) (later ++ event :: earlier)) :
    (∃ doc, event.before.credentials.get? entry.1 = some doc ∧ doc.counter = entry.2.counter) ∧
      ∃ doc, event.after.credentials.get? entry.1 = some doc ∧ doc.counter = newCounter := by
  have current := (along_at undisturbed).1 request challenge origin find take entry newCounter (by rw [asks]) own accepted.found
    (asks ▸ accepted.asserted)
  refine ⟨current,?_⟩
  obtain ⟨doc,present,_⟩ := current
  have updated := accepted.updated
  rw [moved] at updated
  dsimp only at updated
  refine ⟨used newCounter event.before.base.now doc,?_,rfl⟩
  rw [updated]
  unfold updateById
  dsimp only
  rw [Dict.get?_modify,if_pos rfl,present]
  rfl

theorem accepted_event {c : Config CallId Asked World Failure Reply} (traced : Traced (program node verifySignature) other initial past c)
    (finished : c.Finished i ⟨service,.completeAuthentication request challenge origin⟩ result)
    (accepted : Accepted node verifySignature service request challenge origin (mine i past) take find update userId entry n) :
    ∃ later event earlier, past = later ++ event :: earlier ∧ event.who = i ∧
      event.call = ⟨service,.completeAuthentication request challenge origin⟩ ∧ update = (event.before,event.after) ∧
      mine event.who earlier = [find,take] := by
  obtain ⟨later,event,earlier,split,own,moved,rest⟩ := mine_split [] accepted.steps
  have listed : event ∈ past := by simp [split]
  obtain ⟨p,running⟩ := traced_call traced listed
  unfold Config.Finished at finished
  rw [own,finished] at running
  simp only [Option.some.injEq,Prod.mk.injEq] at running
  exact ⟨later,event,earlier,split,own,running.1.symm,moved,own ▸ rest⟩

theorem later_presents (steady : ∀ s t, other s t → Steady s t) (named : Named node initial)
    (along : Along (Acted node verifySignature) past) (undisturbed : Along (Undisturbed node verifySignature) past)
    (linked : Linked other initial past s) {later earlier : History} {one two : Event CallId Asked World} {entry : Entry}
    (split : past = later ++ one :: earlier) (after : two ∈ later)
    (stored : ∃ doc, one.after.credentials.get? entry.1 = some doc ∧ doc.counter = n)
    (read : ∃ doc, two.before.credentials.get? entry.1 = some doc ∧ doc.counter = entry.2.counter)
    (asserted : Asserted node verifySignature challenge origin rpId request (handed entry.2) m) : m = 0 ∨ n < m := by
  subst split
  have grown := (grown_since steady along undisturbed linked).2 two after
  have known := acted_named (named_along steady named (along_at along).2 (linked_at linked)) (along_at along).1
  obtain ⟨doc,first,rfl⟩ := stored
  obtain ⟨doc',second,same⟩ := read
  have less := grown_document grown known first second
  have increased : entry.2.counter = 0 ∨ entry.2.counter < m := asserted.increased
  omega

theorem counters_distinct (steady : ∀ s t, other s t → Steady s t) (named : Named node initial)
    {c : Config CallId Asked World Failure Reply} (traced : Traced (program node verifySignature) other initial past c)
    (undisturbed : Along (Undisturbed node verifySignature) past)
    (first : c.Finished i ⟨service,.completeAuthentication request challenge origin⟩ (.ok (.accepted true)))
    (second : c.Finished j ⟨service',.completeAuthentication request' challenge' origin'⟩ (.ok (.accepted true)))
    (accepted : Accepted node verifySignature service request challenge origin (mine i past) take find update userId entry n)
    (accepted' : Accepted node verifySignature service' request' challenge' origin' (mine j past) take' find' update' userId'
      entry' n) (same : entry.1 = entry'.1) (positive : 0 < n) : i = j := by
  have along := (kept_program traced).along
  have linked := traced_linked traced
  obtain ⟨later,one,earlier,split,own,asks,moved,moves⟩ := accepted_event traced first accepted
  obtain ⟨later',two,earlier',split',own',asks',moved',moves'⟩ := accepted_event traced second accepted'
  obtain ⟨read,stored⟩ := accepted_stored accepted asks moved moves (split ▸ undisturbed)
  obtain ⟨read',stored'⟩ := accepted_stored accepted' asks' moved' moves' (split' ▸ undisturbed)
  rcases compare_places (split.symm.trans split') with ⟨middle,_,rest⟩ | equal | ⟨middle,_,rest⟩
  · rw [← same] at stored'
    have more := later_presents steady named along undisturbed linked split' (by simp [rest]) stored' read accepted.asserted
    omega
  · rw [← own,← own',equal]
  · rw [same] at stored
    have more := later_presents steady named along undisturbed linked split (by simp [rest]) stored read' accepted'.asserted
    omega

end

theorem sample_fresh : Named sampleNode sampleWorld := by
  intro n _
  apply (Dict.get?_set_ne _ _ ?_).trans rfl
  intro same
  have letters := congrArg String.toList same
  change (String.ofList (List.replicate (n+1) 'x')).toList = ['i','d'] at letters
  rw [String.toList_ofList,List.replicate_succ] at letters
  cases letters

-- No credential changes between the reading of a call and its update.
def untouched : History → Bool
  | [] => true
  | event :: past => untouched past && match mine event.who past with
    | [find,_] => event.before.credentials = find.1.credentials
    | _ => true

theorem untouched_undisturbed (kept : untouched past = true) : Along (Undisturbed node verifySignature) past := by
  induction past with
  | nil => trivial
  | cons event past ih =>
    unfold untouched at kept
    rw [Bool.and_eq_true] at kept
    refine ⟨?_,ih kept.1⟩
    intro request challenge origin find take entry newCounter asks own found asserted
    have same := kept.2
    rw [own] at same
    simp only [decide_eq_true_eq] at same
    rw [same]
    exact ⟨entry.2,Dict.get?_iff.mpr (List.mem_of_find?_eq_some found),rfl⟩

end Pezhwan.WebAuthn
