import Pezhwan.Session.Lineage
import Pezhwan.Atomic.Pool

namespace Pezhwan.Session
open Atomic

def Settles (doc updated : SessionDoc) : Prop :=
  updated.identity = doc.identity ∧ (updated.status = doc.status ∨ updated.status.isSettled)

theorem settles_keeps (settles : Settles doc updated) : Keeps doc updated := by
  refine ⟨settles.1,fun active => ?_⟩
  rcases settles.2 with same | settled
  · exact same ▸ active
  · rw [active] at settled; cases settled

theorem settles_refl (doc : SessionDoc) : Settles doc doc := ⟨rfl,.inl rfl⟩

-- What a remark in the log asserts about the collection before and after.
def Remark (i : CallId) (before after : List SessionDoc) : Entry → Prop
  | .presented c doc => c = i ∧ doc ∈ before
  | .familyRevoked c familyId => c = i ∧ ∀ doc ∈ after, doc.familyId = familyId → doc.status.isSettled
  | .allRevoked c userId applicationId tenantId => c = i ∧
      (applicationId = none → tenantId = none → ∀ doc ∈ after, doc.userId = userId → doc.status ≠ .active)
  | _ => False

def Drawn (i : CallId) (s t : World) : Prop :=
  t.base.draws = s.base.draws ∨ t.base.draws = s.base.draws ++ [i]

section
variable (service : SessionService)

-- The five things one action of call `i` can do to the sessions.
inductive Change (i : CallId) (s t : World) : Prop where
  | quiet (drawn : Drawn i s t) (store : t.store = s.store)
  | settled (f : SessionDoc → SessionDoc) (entries : List Entry) (drawn : Drawn i s t)
      (docs : t.store.docs = s.store.docs.map f) (log : t.store.log = s.store.log ++ entries)
      (settles : ∀ doc ∈ s.store.docs, Settles doc (f doc))
      (remarks : ∀ entry ∈ entries, Remark i s.store.docs t.store.docs entry)
      (first : ∀ c doc, .presented c doc ∈ entries → entriesOf i s.store.log = [])
  | created (doc : SessionDoc) (drawn : Drawn i s t)
      (docs : t.store.docs = s.store.docs ++ [doc]) (log : t.store.log = s.store.log ++ [.created i doc])
      (untouched : entriesOf i s.store.log = [])
      (id : Owns service.random t.base.draws i doc.id) (family : Owns service.random t.base.draws i doc.familyId)
      (token : ∃ token, Owns service.random t.base.draws i token ∧
        service.hashRefreshToken token = doc.currentRefreshTokenHash)
  | claimed (doc rotated : SessionDoc) (f : SessionDoc → SessionDoc) (drawn : Drawn i s t)
      (docs : t.store.docs = s.store.docs.map f) (log : t.store.log = s.store.log ++ [.claimed i rotated])
      (untouched : entriesOf i s.store.log = [])
      (found : doc ∈ s.store.docs) (active : doc.status = .active) (same : rotated.identity = doc.identity)
      (kept : ∀ other ∈ s.store.docs, other.id ≠ doc.id → f other = other)
      (rotates : ∀ other ∈ s.store.docs, other.id = doc.id →
        (f other).identity = other.identity ∧ (f other).status = .rotating)
  | inserted (child parent : SessionDoc) (f : SessionDoc → SessionDoc) (drawn : Drawn i s t)
      (docs : t.store.docs = s.store.docs.map f ++ [child])
      (log : t.store.log = s.store.log ++ [.inserted i child parent])
      (mine : entriesOf i s.store.log = [.claimed i parent])
      (settles : ∀ doc ∈ s.store.docs, Settles doc (f doc))
      (id : Owns service.random t.base.draws i child.id) (owner : child.owner = parent.owner)
      (token : ∃ token, Owns service.random t.base.draws i token ∧
        service.hashRefreshToken token = child.currentRefreshTokenHash)

variable {service}

theorem history_drawn (history : History service s.base.draws log) (drawn : Drawn i s t) :
    History service t.base.draws log := by
  rcases drawn with same | more
  · rw [same]; exact history
  · rw [more]; exact history_draws history

theorem id_absent (current : Current docs log) (history : History service draws log)
    (owns : Owns service.random draws i text) (unborn : ∀ doc, ¬ Born log i doc) :
    text ∉ docs.map SessionDoc.id := by
  intro member
  obtain ⟨doc,present,rfl⟩ := List.mem_map.mp member
  obtain ⟨c,birth,made,same⟩ := current.born doc present
  rw [(identity_parts same).1] at owns
  have call := owns_unique owns (history.drawn c birth made).1
  exact unborn birth (call ▸ made)

theorem claim_other (history : History service draws log) (owns : Owns service.random draws i text)
    (unborn : ∀ doc, ¬ Born log i doc) (claimed : .claimed c parent ∈ log) : parent.id ≠ text := by
  intro same
  subst same
  obtain ⟨c',birth,made,same⟩ := history.claimedBorn c parent claimed
  rw [(identity_parts same).1] at owns
  have call := owns_unique owns (history.drawn c' birth made).1
  exact unborn birth (call ▸ made)

theorem family_other {doc : SessionDoc} (history : History service draws log) (owns : Owns service.random draws i familyId)
    (unborn : ∀ doc, ¬ Born log i doc) (made : Born log c birth) (same : doc.identity = birth.identity) :
    doc.familyId ≠ familyId := by
  intro same
  subst same
  obtain ⟨c',root,created,ownsRoot,owner⟩ := history.rooted c birth made
  have family : doc.familyId = root.familyId :=
    (owner_parts ((identity_parts same).2.2.trans owner)).2.2.2
  rw [family] at owns
  have call := owns_unique owns ownsRoot
  exact unborn root (call ▸ .inl created)

theorem unborn_untouched (untouched : entriesOf i log = []) (doc : SessionDoc) : ¬ Born log i doc := by
  intro either
  rcases either with made | ⟨parent,made⟩
  · exact untouched_absent untouched made rfl
  · exact untouched_absent untouched made rfl

theorem unborn_claimed (mine : entriesOf i log = [.claimed i parent]) (doc : SessionDoc) : ¬ Born log i doc := by
  intro either
  rcases either with made | ⟨origin,made⟩
  · cases claim_only mine made rfl
  · cases claim_only mine made rfl

theorem preserves_inv (valid : Inv service s) (change : Change service i s t) : Inv service t := by
  obtain ⟨history,current⟩ := valid
  cases change with
  | quiet drawn store =>
    rw [← store] at history current
    exact ⟨history_drawn history drawn,current⟩
  | settled f entries drawn docs log settles remarks first =>
    have remark : ∀ entry ∈ entries, entry.isRemark = true := by
      intro entry member
      have holds := remarks entry member
      cases entry <;> first | rfl | cases holds
    constructor
    · rw [log]
      refine history_remarks (history_drawn history drawn) remark ?_
      intro c doc presented
      exact current.born doc (remarks _ presented).2
    · rw [docs,log]
      refine current_noted (current_kept current fun doc member => settles_keeps (settles doc member)) ?_
      intro entry member c doc parent
      have holds := remark entry member
      constructor <;> rintro rfl <;> cases holds
  | created doc drawn docs log untouched id family token =>
    have drawnHistory := history_drawn history drawn
    have unborn := unborn_untouched untouched
    have after := history_created drawnHistory untouched id family token
    refine ⟨log ▸ after,?_⟩
    rw [docs,log]
    have noted : Current s.store.docs (s.store.log ++ [.created i doc]) := current_noted current (by simp)
    refine current_joined noted (id_absent current drawnHistory id unborn) ⟨i,doc,.inl (by simp),rfl⟩ ?_ ?_ ?_
    · intro c parent claimed
      exact claim_other drawnHistory id unborn (by simpa using claimed)
    · intro other member _
      obtain ⟨c,birth,made,same⟩ := current.born other member
      exact family_other drawnHistory family unborn made same
    · intro c parent pending
      obtain ⟨c',birth,made,same⟩ := drawnHistory.claimedBorn c parent (by simpa using pending.1)
      exact family_other drawnHistory family unborn made same
  | claimed doc rotated f drawn docs log untouched found active same kept rotates =>
    have named : rotated.id = doc.id := (identity_parts same).1
    have family : rotated.familyId = doc.familyId := (owner_parts (identity_parts same).2.2).2.2.2
    have keeps := rotates_keeps kept rotates
    have spent : ∀ other ∈ s.store.docs.map f, other.id = doc.id → other.status ≠ .active := by
      intro other member hit live
      obtain ⟨old,present,rfl⟩ := List.mem_map.mp member
      rw [keeps_id (keeps old present)] at hit
      rw [(rotates old present hit).2] at live
      cases live
    constructor
    · rw [log]
      refine history_claimed (history_drawn history drawn) untouched ?_ ?_
      · intro c parent claimed sameId
        exact current.spent c parent claimed doc found (named.symm.trans sameId.symm) active
      · obtain ⟨c,birth,made,identity⟩ := current.born doc found
        exact ⟨c,birth,made,same.trans identity⟩
    · rw [docs,log]
      refine current_claimed (current_kept current keeps) ?_ (by rw [named]; exact spent) ?_
      · intro other member live sameFamily
        obtain ⟨old,present,rfl⟩ := List.mem_map.mp member
        have wasActive := (keeps old present).2 live
        rw [keeps_family (keeps old present),family] at sameFamily
        have hit := current.oneActive old present doc found wasActive active sameFamily
        exact spent (f old) member ((keeps_id (keeps old present)).trans hit) live
      · intro c parent pending
        rw [family]
        exact current.activeOrPending doc found active c parent pending
  | inserted child parent f drawn docs log mine settles id owner token =>
    have drawnHistory := history_drawn history drawn
    have unborn := unborn_claimed mine
    have after := history_inserted drawnHistory mine id owner token
    have family : child.familyId = parent.familyId := (owner_parts owner).2.2.2
    have pending : Pending s.store.log i parent := by
      refine ⟨claim_listed mine,fun child origin member => ?_⟩
      cases claim_only mine member rfl
    have kept : Current (s.store.docs.map f) s.store.log :=
      current_kept current fun doc member => settles_keeps (settles doc member)
    refine ⟨log ▸ after,?_⟩
    rw [docs,log]
    refine current_joined (current_answered kept) (id_absent kept drawnHistory id unborn)
      ⟨i,child,.inr ⟨parent,by simp⟩,rfl⟩ ?_ ?_ ?_
    · intro c origin claimed
      exact claim_other drawnHistory id unborn (by simpa using claimed)
    · intro other member live
      rw [family]
      exact (kept.activeOrPending other member live i parent pending).symm
    · intro c origin waiting sameFamily
      obtain ⟨before,other⟩ := pending_inserted waiting
      rw [family] at sameFamily
      exact other (current.onePending c origin i parent before pending sameFamily)

-- Only call `i` adds to its own entries and to its own draws.
abbrev View := List Entry × Set String

def view (random : Random) (i : CallId) (w : World) : View :=
  (entriesOf i w.store.log,{text | Owns random w.base.draws i text})

theorem owns_drawn (drawn : Drawn i s t) (different : j ≠ i) :
    Owns random t.base.draws j text ↔ Owns random s.base.draws j text := by
  rcases drawn with same | more
  · rw [same]
  · rw [more]
    constructor
    · intro both
      obtain ⟨n,drew,rfl⟩ := both
      rcases Nat.lt_or_ge n s.base.draws.length with inside | beyond
      · rw [List.getElem?_append_left inside] at drew
        exact ⟨n,drew,rfl⟩
      · rw [List.getElem?_append_right beyond] at drew
        have last := List.getElem?_eq_some_iff.mp drew
        simp at last
        exact absurd last.2.symm different
    · exact owns_append

theorem change_parts (change : Change service i s t) : Drawn i s t ∧
    ∃ entries, t.store.log = s.store.log ++ entries ∧ ∀ entry ∈ entries, entry.call = i := by
  cases change with
  | quiet drawn store => exact ⟨drawn,[],by simp [store],by simp⟩
  | settled f entries drawn docs log settles remarks first =>
    refine ⟨drawn,entries,log,fun entry member => ?_⟩
    have holds := remarks entry member
    cases entry <;> first | exact holds.1 | cases holds
  | created doc drawn docs log => exact ⟨drawn,_,log,by simp [Entry.call]⟩
  | claimed doc rotated f drawn docs log => exact ⟨drawn,_,log,by simp [Entry.call]⟩
  | inserted child parent f drawn docs log => exact ⟨drawn,_,log,by simp [Entry.call]⟩

theorem change_frame (change : Change service i s t) (different : j ≠ i) :
    view service.random j t = view service.random j s := by
  obtain ⟨drawn,entries,log,mine⟩ := change_parts change
  have none : entriesOf j entries = [] := by
    rw [entriesOf,Atomic.entriesOf,List.filter_eq_nil_iff]
    intro entry member
    simp [mine entry member,different.symm]
  have owns : {text | Owns service.random t.base.draws j text} = {text | Owns service.random s.base.draws j text} := by
    ext text
    exact owns_drawn drawn different
  simp only [view,log,entriesOf_append,none,List.append_nil,owns]

variable (service) in
def discipline : Discipline CallId World View where
  inv := Inv service
  change := Change service
  view := view service.random
  keeps := preserves_inv
  frame _ := change_frame

end
end Pezhwan.Session
