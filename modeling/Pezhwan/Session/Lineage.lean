import Pezhwan.Session.Service

namespace Pezhwan.Session
open Atomic

structure Owner where
  userId : String
  tenantId : String
  applicationId : String
  familyId : String
  deriving DecidableEq

def SessionDoc.owner (doc : SessionDoc) : Owner := ⟨doc.userId,doc.tenantId,doc.applicationId,doc.familyId⟩

-- The fields no operation rewrites.
def SessionDoc.identity (doc : SessionDoc) : String × String × Owner :=
  (doc.id,doc.currentRefreshTokenHash,doc.owner)

theorem identity_parts {doc other : SessionDoc} (same : doc.identity = other.identity) :
    doc.id = other.id ∧ doc.currentRefreshTokenHash = other.currentRefreshTokenHash ∧ doc.owner = other.owner := by
  simpa [SessionDoc.identity] using same

theorem owner_parts {doc other : SessionDoc} (same : doc.owner = other.owner) :
    doc.userId = other.userId ∧ doc.tenantId = other.tenantId ∧
      doc.applicationId = other.applicationId ∧ doc.familyId = other.familyId := by
  simpa [SessionDoc.owner] using same

-- Call `c` drew the text from the random stream.
def Owns (random : Random) (draws : List CallId) (c : CallId) (text : String) : Prop :=
  ∃ n, draws[n]? = some c ∧ text = random.fresh n

theorem owns_append (owns : Owns random draws c text) : Owns random (draws ++ more) c text := by
  obtain ⟨n,drew,rfl⟩ := owns
  have bound : n < draws.length := (List.getElem?_eq_some_iff.mp drew).1
  exact ⟨n,by rw [List.getElem?_append_left bound]; exact drew,rfl⟩

theorem owns_last (random : Random) (draws : List CallId) (i : CallId) :
    Owns random (draws ++ [i]) i (random.fresh draws.length) := ⟨draws.length,by simp,rfl⟩

theorem owns_unique (one : Owns random draws c text) (two : Owns random draws d text) : c = d := by
  obtain ⟨n,drewOne,rfl⟩ := one
  obtain ⟨m,drewTwo,same⟩ := two
  rw [random.fresh_inj] at same
  rw [same,drewTwo] at drewOne
  exact (Option.some.inj drewOne).symm

-- History facts read off the log.
def Born (log : List Entry) (c : CallId) (doc : SessionDoc) : Prop :=
  .created c doc ∈ log ∨ ∃ parent, .inserted c doc parent ∈ log

def Pending (log : List Entry) (c : CallId) (parent : SessionDoc) : Prop :=
  .claimed c parent ∈ log ∧ ∀ child parent, Entry.inserted c child parent ∉ log

abbrev entriesOf : CallId → List Entry → List Entry := Atomic.entriesOf Entry.call

def claimedId : Entry → Option String
  | .claimed _ doc => some doc.id
  | _ => none

theorem born_append : Born (log ++ entries) c doc ↔ Born log c doc ∨ Born entries c doc := by
  simp only [Born,List.mem_append]
  grind

-- Entries that record a remark on the collection rather than a new session.
def Entry.isRemark : Entry → Bool
  | .presented .. | .familyRevoked .. | .allRevoked .. => true
  | _ => false

section
variable (service : SessionService)

-- What the log and the draws say about each other.
structure History (draws : List CallId) (log : List Entry) : Prop where
  drawn : ∀ c doc, Born log c doc → Owns service.random draws c doc.id ∧
    ∃ token, Owns service.random draws c token ∧ service.hashRefreshToken token = doc.currentRefreshTokenHash
  once : ∀ c doc other, Born log c doc → Born log c other → doc = other
  rooted : ∀ c doc, Born log c doc → ∃ c' root, .created c' root ∈ log ∧
    Owns service.random draws c' root.familyId ∧ doc.owner = root.owner
  claimedOnce : (log.filterMap claimedId).Nodup
  claimant : ∀ c parent other, .claimed c parent ∈ log → .claimed c other ∈ log → parent = other
  claimedBorn : ∀ c parent, .claimed c parent ∈ log → ∃ c' birth, Born log c' birth ∧ parent.identity = birth.identity
  presentedBorn : ∀ c doc, .presented c doc ∈ log → ∃ c' birth, Born log c' birth ∧ doc.identity = birth.identity
  parents : ∀ c child parent, .inserted c child parent ∈ log → .claimed c parent ∈ log ∧ child.owner = parent.owner

-- What the collection holds at the moment, against the log. The last three
-- fields say that a family has at most one live end: an active session or a
-- claim whose child is still to be inserted.
structure Current (docs : List SessionDoc) (log : List Entry) : Prop where
  ids : (docs.map SessionDoc.id).Nodup
  born : ∀ doc ∈ docs, ∃ c birth, Born log c birth ∧ doc.identity = birth.identity
  spent : ∀ c parent, .claimed c parent ∈ log → ∀ doc ∈ docs, doc.id = parent.id → doc.status ≠ .active
  oneActive : ∀ doc ∈ docs, ∀ other ∈ docs, doc.status = .active → other.status = .active →
    doc.familyId = other.familyId → doc.id = other.id
  activeOrPending : ∀ doc ∈ docs, doc.status = .active → ∀ c parent, Pending log c parent →
    parent.familyId ≠ doc.familyId
  onePending : ∀ c parent d other, Pending log c parent → Pending log d other →
    parent.familyId = other.familyId → c = d

structure Inv (w : World) : Prop where
  history : History service w.base.draws w.store.log
  current : Current w.store.docs w.store.log

variable {service}

theorem inv_empty (now : Nat) : Inv service (empty now) := by
  constructor <;> constructor <;> simp [empty,Born,Pending]

theorem born_id (history : History service draws log) (one : Born log c doc) (two : Born log d other)
    (same : doc.id = other.id) : c = d ∧ doc = other := by
  have owns := (history.drawn c doc one).1
  rw [same] at owns
  have call := owns_unique owns (history.drawn d other two).1
  subst call
  exact ⟨rfl,history.once c doc other one two⟩

theorem born_hash (history : History service draws log) (one : Born log c doc) (two : Born log d other)
    (same : doc.currentRefreshTokenHash = other.currentRefreshTokenHash) : c = d ∧ doc = other := by
  obtain ⟨token,owns,hashed⟩ := (history.drawn c doc one).2
  obtain ⟨token',owns',hashed'⟩ := (history.drawn d other two).2
  have tokens : token = token' := service.hash_injective (hashed.trans (same.trans hashed'.symm))
  subst tokens
  have call := owns_unique owns owns'
  subst call
  exact ⟨rfl,history.once c doc other one two⟩

theorem owner_of_family (history : History service draws log) (one : Born log c doc) (two : Born log d other)
    (same : doc.familyId = other.familyId) : doc.owner = other.owner := by
  obtain ⟨c',root,made,owns,owner⟩ := history.rooted c doc one
  obtain ⟨d',root',made',owns',owner'⟩ := history.rooted d other two
  have families : root.familyId = root'.familyId := by
    rw [← (owner_parts owner).2.2.2,← (owner_parts owner').2.2.2,same]
  rw [families] at owns
  have call := owns_unique owns owns'
  subst call
  rw [owner,owner',history.once _ root root' (.inl made) (.inl made')]

theorem history_draws (history : History service draws log) : History service (draws ++ more) log where
  drawn c doc born := by
    obtain ⟨owns,token,ownsToken,hashed⟩ := history.drawn c doc born
    exact ⟨owns_append owns,token,owns_append ownsToken,hashed⟩
  once := history.once
  rooted c doc born := by
    obtain ⟨c',root,made,owns,owner⟩ := history.rooted c doc born
    exact ⟨c',root,made,owns_append owns,owner⟩
  claimedOnce := history.claimedOnce
  claimant := history.claimant
  claimedBorn := history.claimedBorn
  presentedBorn := history.presentedBorn
  parents := history.parents

variable (service) in
-- What new entries have to satisfy for the history to go on.
structure Extends (draws : List CallId) (log entries : List Entry) : Prop where
  drawn : ∀ c doc, Born entries c doc → Owns service.random draws c doc.id ∧
    ∃ token, Owns service.random draws c token ∧ service.hashRefreshToken token = doc.currentRefreshTokenHash
  once : ∀ c doc, Born entries c doc → (∀ other, ¬ Born log c other) ∧ ∀ other, Born entries c other → doc = other
  rooted : ∀ c doc, Born entries c doc → ∃ c' root, .created c' root ∈ log ++ entries ∧
    Owns service.random draws c' root.familyId ∧ doc.owner = root.owner
  claimedOnce : ((log ++ entries).filterMap claimedId).Nodup
  claimant : ∀ c parent, .claimed c parent ∈ entries → (∀ other, Entry.claimed c other ∉ log) ∧
    ∀ other, .claimed c other ∈ entries → parent = other
  known : ∀ c doc, .claimed c doc ∈ entries ∨ .presented c doc ∈ entries →
    ∃ c' birth, Born log c' birth ∧ doc.identity = birth.identity
  parents : ∀ c child parent, .inserted c child parent ∈ entries → .claimed c parent ∈ log ∧ child.owner = parent.owner

theorem history_append (history : History service draws log)
    (extended : Extends service draws log entries) : History service draws (log ++ entries) := by
  have carried : ∀ doc : SessionDoc, (∃ c birth, Born log c birth ∧ doc.identity = birth.identity) →
      ∃ c birth, Born (log ++ entries) c birth ∧ doc.identity = birth.identity := by
    intro doc both
    obtain ⟨c,birth,made,same⟩ := both
    exact ⟨c,birth,born_append.mpr (.inl made),same⟩
  refine ⟨?_,?_,?_,extended.claimedOnce,?_,?_,?_,?_⟩
  · intro c doc made
    rcases born_append.mp made with before | added
    · exact history.drawn c doc before
    · exact extended.drawn c doc added
  · intro c doc other madeOne madeTwo
    rcases born_append.mp madeOne with one | one <;> rcases born_append.mp madeTwo with two | two
    · exact history.once c doc other one two
    · exact absurd one ((extended.once c other two).1 doc)
    · exact absurd two ((extended.once c doc one).1 other)
    · exact (extended.once c doc one).2 other two
  · intro c doc made
    rcases born_append.mp made with before | added
    · obtain ⟨c',root,created,rest⟩ := history.rooted c doc before
      exact ⟨c',root,List.mem_append_left _ created,rest⟩
    · exact extended.rooted c doc added
  · intro c parent other claimedOne claimedTwo
    rcases List.mem_append.mp claimedOne with one | one <;> rcases List.mem_append.mp claimedTwo with two | two
    · exact history.claimant c parent other one two
    · exact absurd one ((extended.claimant c other two).1 parent)
    · exact absurd two ((extended.claimant c parent one).1 other)
    · exact (extended.claimant c parent one).2 other two
  · intro c parent claimed
    apply carried
    rcases List.mem_append.mp claimed with before | added
    · exact history.claimedBorn c parent before
    · exact extended.known c parent (.inl added)
  · intro c doc presented
    apply carried
    rcases List.mem_append.mp presented with before | added
    · exact history.presentedBorn c doc before
    · exact extended.known c doc (.inr added)
  · intro c child parent inserted
    rcases List.mem_append.mp inserted with before | added
    · obtain ⟨claimed,owner⟩ := history.parents c child parent before
      exact ⟨List.mem_append_left _ claimed,owner⟩
    · obtain ⟨claimed,owner⟩ := extended.parents c child parent added
      exact ⟨List.mem_append_left _ claimed,owner⟩

theorem history_remarks (history : History service draws log)
    (remarks : ∀ entry ∈ entries, entry.isRemark = true)
    (presented : ∀ c doc, .presented c doc ∈ entries → ∃ c' birth, Born log c' birth ∧ doc.identity = birth.identity) :
    History service draws (log ++ entries) := by
  have unborn : ∀ c doc, ¬ Born entries c doc := by
    intro c doc either
    rcases either with made | ⟨parent,made⟩
    · cases remarks _ made
    · cases remarks _ made
  have unclaimed : ∀ c parent, Entry.claimed c parent ∉ entries := by
    intro c parent claimed
    cases remarks _ claimed
  have noClaim : entries.filterMap claimedId = [] := by
    rw [List.filterMap_eq_nil_iff]
    intro entry member
    have remark := remarks entry member
    cases entry <;> first | rfl | cases remark
  refine history_append history ⟨?_,?_,?_,?_,?_,?_,?_⟩
  · intro c doc made; exact absurd made (unborn c doc)
  · intro c doc made; exact absurd made (unborn c doc)
  · intro c doc made; exact absurd made (unborn c doc)
  · rw [List.filterMap_append,noClaim,List.append_nil]
    exact history.claimedOnce
  · intro c parent claimed; exact absurd claimed (unclaimed c parent)
  · intro c doc either
    rcases either with claimed | shown
    · exact absurd claimed (unclaimed c doc)
    · exact presented c doc shown
  · intro c child parent inserted; cases remarks _ inserted

theorem born_created : Born [.created i doc] c other ↔ c = i ∧ other = doc := by simp [Born]
theorem born_claimed : ¬ Born [.claimed i doc] c other := by simp [Born]
theorem born_inserted : Born [.inserted i child parent] c other ↔ c = i ∧ other = child := by simp [Born]

theorem untouched_absent (untouched : entriesOf i log = []) (member : entry ∈ log) : entry.call ≠ i := by
  intro call
  have listed : entry ∈ entriesOf i log := mem_entriesOf.mpr ⟨member,call⟩
  rw [untouched] at listed
  cases listed

theorem claim_only (mine : entriesOf i log = [.claimed i parent]) (member : entry ∈ log) (call : entry.call = i) :
    entry = .claimed i parent := by
  have listed : entry ∈ entriesOf i log := mem_entriesOf.mpr ⟨member,call⟩
  rw [mine] at listed
  exact List.mem_singleton.mp listed

theorem claim_listed (mine : entriesOf i log = [.claimed i parent]) : .claimed i parent ∈ log := by
  have listed : .claimed i parent ∈ entriesOf i log := by rw [mine]; exact List.mem_singleton_self _
  exact (mem_entriesOf.mp listed).1

theorem history_created (history : History service draws log) (untouched : entriesOf i log = [])
    (id : Owns service.random draws i doc.id) (family : Owns service.random draws i doc.familyId)
    (token : ∃ token, Owns service.random draws i token ∧ service.hashRefreshToken token = doc.currentRefreshTokenHash) :
    History service draws (log ++ [.created i doc]) := by
  refine history_append history ⟨?_,?_,?_,?_,?_,?_,?_⟩
  · intro c other made
    obtain ⟨rfl,rfl⟩ := born_created.mp made
    exact ⟨id,token⟩
  · intro c other made
    obtain ⟨rfl,rfl⟩ := born_created.mp made
    refine ⟨?_,fun another also => (born_created.mp also).2.symm⟩
    intro another either
    rcases either with before | ⟨parent,before⟩
    · exact untouched_absent untouched before rfl
    · exact untouched_absent untouched before rfl
  · intro c other made
    obtain ⟨rfl,rfl⟩ := born_created.mp made
    exact ⟨c,other,by simp,family,rfl⟩
  · have old := history.claimedOnce
    simpa [List.filterMap_cons,claimedId] using old
  · simp
  · simp
  · simp

theorem history_claimed (history : History service draws log) (untouched : entriesOf i log = [])
    (first : ∀ c parent, .claimed c parent ∈ log → parent.id ≠ doc.id)
    (known : ∃ c birth, Born log c birth ∧ doc.identity = birth.identity) :
    History service draws (log ++ [.claimed i doc]) := by
  have fresh : doc.id ∉ log.filterMap claimedId := by
    intro member
    obtain ⟨entry,inLog,named⟩ := List.mem_filterMap.mp member
    cases entry with
    | claimed c parent => exact first c parent inLog (Option.some.inj named)
    | _ => cases named
  refine history_append history ⟨?_,?_,?_,?_,?_,?_,?_⟩
  · intro c other made; exact absurd made born_claimed
  · intro c other made; exact absurd made born_claimed
  · intro c other made; exact absurd made born_claimed
  · have old := history.claimedOnce
    have last : [Entry.claimed i doc].filterMap claimedId = [doc.id] := rfl
    rw [List.filterMap_append,last,← List.concat_eq_append]
    exact List.Nodup.concat fresh old
  · intro c parent claimed
    obtain ⟨rfl,rfl⟩ : c = i ∧ parent = doc := by simpa using claimed
    refine ⟨?_,fun other also => by simpa using Eq.symm (by simpa using also)⟩
    intro other before
    exact untouched_absent untouched before rfl
  · intro c other either
    rcases either with claimed | shown
    · obtain ⟨rfl,rfl⟩ : c = i ∧ other = doc := by simpa using claimed
      exact known
    · simp at shown
  · simp

theorem history_inserted (history : History service draws log) (mine : entriesOf i log = [.claimed i parent])
    (id : Owns service.random draws i child.id) (owner : child.owner = parent.owner)
    (token : ∃ token, Owns service.random draws i token ∧ service.hashRefreshToken token = child.currentRefreshTokenHash) :
    History service draws (log ++ [.inserted i child parent]) := by
  refine history_append history ⟨?_,?_,?_,?_,?_,?_,?_⟩
  · intro c other made
    obtain ⟨rfl,rfl⟩ := born_inserted.mp made
    exact ⟨id,token⟩
  · intro c other made
    obtain ⟨rfl,rfl⟩ := born_inserted.mp made
    refine ⟨?_,fun another also => (born_inserted.mp also).2.symm⟩
    intro another either
    rcases either with before | ⟨origin,before⟩
    · cases claim_only mine before rfl
    · cases claim_only mine before rfl
  · intro c other made
    obtain ⟨rfl,rfl⟩ := born_inserted.mp made
    obtain ⟨c',birth,bornBirth,same⟩ := history.claimedBorn _ _ (claim_listed mine)
    obtain ⟨c'',root,created,owns,rooted⟩ := history.rooted c' birth bornBirth
    have chain : other.owner = root.owner := owner.trans ((identity_parts same).2.2.trans rooted)
    exact ⟨c'',root,List.mem_append_left _ created,owns,chain⟩
  · have old := history.claimedOnce
    simpa [List.filterMap_cons,claimedId] using old
  · simp
  · simp
  · intro c other origin inserted
    obtain ⟨rfl,rfl,rfl⟩ : c = i ∧ other = child ∧ origin = parent := by simpa using inserted
    exact ⟨claim_listed mine,owner⟩

-- An update that touches no identity and activates nothing.
def Keeps (doc updated : SessionDoc) : Prop :=
  updated.identity = doc.identity ∧ (updated.status = .active → doc.status = .active)

theorem keeps_id (keeps : Keeps doc updated) : updated.id = doc.id := (identity_parts keeps.1).1
theorem keeps_owner (keeps : Keeps doc updated) : updated.owner = doc.owner := (identity_parts keeps.1).2.2
theorem keeps_family (keeps : Keeps doc updated) : updated.familyId = doc.familyId :=
  (owner_parts (keeps_owner keeps)).2.2.2

theorem rotates_keeps {docs : List SessionDoc} {key : String} {f : SessionDoc → SessionDoc}
    (kept : ∀ other ∈ docs, other.id ≠ key → f other = other)
    (rotates : ∀ other ∈ docs, other.id = key → (f other).identity = other.identity ∧ (f other).status = .rotating) :
    ∀ other ∈ docs, Keeps other (f other) := by
  intro other member
  by_cases hit : other.id = key
  · obtain ⟨identity,status⟩ := rotates other member hit
    exact ⟨identity,fun live => by rw [status] at live; cases live⟩
  · rw [kept other member hit]; exact ⟨rfl,id⟩

theorem current_kept (current : Current docs log) (keeps : ∀ doc ∈ docs, Keeps doc (f doc)) :
    Current (docs.map f) log := by
  have ids : (docs.map f).map SessionDoc.id = docs.map SessionDoc.id := by
    rw [List.map_map]
    exact List.map_congr_left fun doc member => keeps_id (keeps doc member)
  refine ⟨ids ▸ current.ids,?_,?_,?_,?_,current.onePending⟩
  · intro doc member
    obtain ⟨old,present,rfl⟩ := List.mem_map.mp member
    obtain ⟨c,birth,made,same⟩ := current.born old present
    exact ⟨c,birth,made,(keeps old present).1.trans same⟩
  · intro c parent claimed doc member named active
    obtain ⟨old,present,rfl⟩ := List.mem_map.mp member
    rw [keeps_id (keeps old present)] at named
    exact current.spent c parent claimed old present named ((keeps old present).2 active)
  · intro doc member other memberOther active activeOther family
    obtain ⟨old,present,rfl⟩ := List.mem_map.mp member
    obtain ⟨old',present',rfl⟩ := List.mem_map.mp memberOther
    rw [keeps_id (keeps old present),keeps_id (keeps old' present')]
    rw [keeps_family (keeps old present),keeps_family (keeps old' present')] at family
    exact current.oneActive old present old' present' ((keeps old present).2 active)
      ((keeps old' present').2 activeOther) family
  · intro doc member active c parent pending
    obtain ⟨old,present,rfl⟩ := List.mem_map.mp member
    rw [keeps_family (keeps old present)]
    exact current.activeOrPending old present ((keeps old present).2 active) c parent pending

theorem current_sublist (current : Current docs log) (fewer : List.Sublist kept docs) : Current kept log where
  ids := current.ids.sublist (fewer.map _)
  born doc member := current.born doc (fewer.subset member)
  spent c parent claimed doc member := current.spent c parent claimed doc (fewer.subset member)
  oneActive doc member other memberOther :=
    current.oneActive doc (fewer.subset member) other (fewer.subset memberOther)
  activeOrPending doc member := current.activeOrPending doc (fewer.subset member)
  onePending := current.onePending

theorem current_noted (current : Current docs log)
    (plain : ∀ entry ∈ entries, ∀ c doc parent, entry ≠ .claimed c doc ∧ entry ≠ .inserted c doc parent) :
    Current docs (log ++ entries) := by
  have claims : ∀ c parent, .claimed c parent ∈ log ++ entries → .claimed c parent ∈ log := by
    intro c parent member
    rcases List.mem_append.mp member with before | added
    · exact before
    · exact absurd rfl (plain _ added c parent parent).1
  have pendings : ∀ c parent, Pending (log ++ entries) c parent → Pending log c parent := by
    intro c parent pending
    exact ⟨claims c parent pending.1,fun child origin member => pending.2 child origin (List.mem_append_left _ member)⟩
  refine ⟨current.ids,?_,?_,current.oneActive,?_,?_⟩
  · intro doc member
    obtain ⟨c,birth,made,same⟩ := current.born doc member
    exact ⟨c,birth,born_append.mpr (.inl made),same⟩
  · intro c parent claimed
    exact current.spent c parent (claims c parent claimed)
  · intro doc member active c parent pending
    exact current.activeOrPending doc member active c parent (pendings c parent pending)
  · intro c parent d other one two
    exact current.onePending c parent d other (pendings c parent one) (pendings d other two)

theorem pending_claimed (pending : Pending (log ++ [.claimed i doc]) c parent) :
    Pending log c parent ∨ (c = i ∧ parent = doc) := by
  rcases List.mem_append.mp pending.1 with before | last
  · exact .inl ⟨before,fun child origin member => pending.2 child origin (List.mem_append_left _ member)⟩
  · right; simpa using last

theorem current_claimed (current : Current docs log)
    (alone : ∀ other ∈ docs, other.status = .active → other.familyId ≠ doc.familyId)
    (spent : ∀ other ∈ docs, other.id = doc.id → other.status ≠ .active)
    (settled : ∀ c parent, Pending log c parent → parent.familyId ≠ doc.familyId) :
    Current docs (log ++ [.claimed i doc]) := by
  refine ⟨current.ids,?_,?_,current.oneActive,?_,?_⟩
  · intro other member
    obtain ⟨c,birth,made,same⟩ := current.born other member
    exact ⟨c,birth,born_append.mpr (.inl made),same⟩
  · intro c parent claimed
    rcases List.mem_append.mp claimed with before | last
    · exact current.spent c parent before
    · obtain ⟨rfl,rfl⟩ : c = i ∧ parent = doc := by simpa using last
      exact spent
  · intro other member active c parent pending
    rcases pending_claimed pending with before | ⟨rfl,rfl⟩
    · exact current.activeOrPending other member active c parent before
    · exact (alone other member active).symm
  · intro c parent d other one two family
    rcases pending_claimed one with beforeOne | ⟨rfl,rfl⟩ <;>
      rcases pending_claimed two with beforeTwo | ⟨rfl,rfl⟩
    · exact current.onePending c parent d other beforeOne beforeTwo family
    · exact absurd family (settled c parent beforeOne)
    · exact absurd family.symm (settled d other beforeTwo)
    · rfl

theorem pending_inserted (pending : Pending (log ++ [.inserted i child origin]) c parent) :
    Pending log c parent ∧ c ≠ i := by
  refine ⟨⟨by simpa using pending.1,fun child origin member => pending.2 child origin (List.mem_append_left _ member)⟩,?_⟩
  intro same
  subst same
  exact pending.2 child origin (by simp)

theorem current_answered (current : Current docs log) : Current docs (log ++ [.inserted i child parent]) := by
  refine ⟨current.ids,?_,?_,current.oneActive,?_,?_⟩
  · intro other member
    obtain ⟨c,birth,made,same⟩ := current.born other member
    exact ⟨c,birth,born_append.mpr (.inl made),same⟩
  · intro c other claimed
    exact current.spent c other (by simpa using claimed)
  · intro other member active c origin pending
    exact current.activeOrPending other member active c origin (pending_inserted pending).1
  · intro c one d two pendingOne pendingTwo
    exact current.onePending c one d two (pending_inserted pendingOne).1 (pending_inserted pendingTwo).1

theorem current_joined (current : Current docs log) (absent : doc.id ∉ docs.map SessionDoc.id)
    (born : ∃ c birth, Born log c birth ∧ doc.identity = birth.identity)
    (unclaimed : ∀ c parent, .claimed c parent ∈ log → parent.id ≠ doc.id)
    (alone : ∀ other ∈ docs, other.status = .active → other.familyId ≠ doc.familyId)
    (settled : ∀ c parent, Pending log c parent → parent.familyId ≠ doc.familyId) :
    Current (docs ++ [doc]) log := by
  refine ⟨?_,?_,?_,?_,?_,current.onePending⟩
  · rw [List.map_append,List.map_singleton,← List.concat_eq_append]
    exact List.Nodup.concat absent current.ids
  · intro other member
    rcases List.mem_append.mp member with before | last
    · exact current.born other before
    · rw [List.mem_singleton.mp last]; exact born
  · intro c parent claimed other member named
    rcases List.mem_append.mp member with before | last
    · exact current.spent c parent claimed other before named
    · rw [List.mem_singleton.mp last] at named
      exact absurd named.symm (unclaimed c parent claimed)
  · intro one memberOne two memberTwo activeOne activeTwo family
    rcases List.mem_append.mp memberOne with beforeOne | lastOne <;>
      rcases List.mem_append.mp memberTwo with beforeTwo | lastTwo
    · exact current.oneActive one beforeOne two beforeTwo activeOne activeTwo family
    · rw [List.mem_singleton.mp lastTwo] at family
      exact absurd family (alone one beforeOne activeOne)
    · rw [List.mem_singleton.mp lastOne] at family
      exact absurd family.symm (alone two beforeTwo activeTwo)
    · rw [List.mem_singleton.mp lastOne,List.mem_singleton.mp lastTwo]
  · intro other member active c parent pending
    rcases List.mem_append.mp member with before | last
    · exact current.activeOrPending other before active c parent pending
    · rw [List.mem_singleton.mp last]; exact settled c parent pending

end
end Pezhwan.Session
