import Pezhwan.Session.Protocol

namespace Pezhwan.Session
open Atomic Discipline

section
variable {service : SessionService} {i : CallId} {v : View} {post : Except Error Unit → View → Prop}

theorem change_idle (s : World) : Change service i s s := .quiet (.inl rfl) rfl

theorem safe_op {f : CallId → World → Except MongoError (α × World)} {post : Except Error α → View → Prop}
    (step : ∀ s, Inv service s → view service.random i s = v → ∀ value t, f i s = .ok (value,t) →
      Change service i s t ∧ post (.ok value) (view service.random i t))
    (failed : ∀ e, post (.error (.mongo e)) v) : (discipline service).Safe i (op f) v post :=
  safe_mongo (fun s _ => change_idle s) step failed

theorem safe_read {f : List SessionDoc → α} {post : Except Error α → View → Prop}
    (holds : ∀ value, post (.ok value) v) (failed : ∀ e, post (.error (.mongo e)) v) :
    (discipline service).Safe i (read f) v post := by
  refine safe_op ?_ failed
  intro s valid seen value t ran
  cases ran
  exact ⟨change_idle s,seen.symm ▸ holds _⟩

theorem safe_base {f : CallId → Base → α × Base} {post : Except Error α → View → Prop}
    (draws : ∀ b, (f i b).2.draws = b.draws) (holds : ∀ value, post (.ok value) v) :
    (discipline service).Safe i (base (Prog.atomic f)) v post := by
  intro s valid seen
  refine ⟨.quiet (.inl (draws s.base)) rfl,?_⟩
  have same : view service.random i {s with base := (f i s.base).2} = v := by
    have before : view service.random i s = v := seen
    rw [← before]
    simp only [view,draws]
  change post (.ok (f i s.base).1) (view service.random i {s with base := (f i s.base).2})
  rw [same]
  exact holds _

theorem safe_draw {post : Except Error String → View → Prop}
    (holds : ∀ token u, u.1 = v.1 → v.2 ⊆ u.2 → token ∈ u.2 → post (.ok token) u) :
    (discipline service).Safe i (base (draw service.random)) v post := by
  intro s valid seen
  refine ⟨.quiet (.inr rfl) rfl,holds _ _ ?_ ?_ ?_⟩
  · rw [← seen]; rfl
  · rw [← seen]
    intro text owns
    exact owns_append owns
  · exact owns_last service.random s.base.draws i

theorem safe_cacheLiveness (holds : post (.ok ()) v) :
    (discipline service).Safe i (cacheLiveness sessionId) v post := safe_base (fun _ => rfl) fun _ => holds

theorem safe_cacheDel (holds : post (.ok ()) v) :
    (discipline service).Safe i (base (cacheDel key)) v post := safe_base (fun _ => rfl) fun _ => holds

-- An update by id, with ids unique, maps the whole collection.
theorem updateOne_id (unique : (docs.map SessionDoc.id).Nodup) (f : SessionDoc → SessionDoc) :
    Collection.updateOne (fun doc => doc.id = sessionId) f docs = Collection.rewrite SessionDoc.id sessionId f docs := by
  cases found : docs.find? fun doc => doc.id = sessionId with
  | none =>
    have absent : sessionId ∉ docs.map SessionDoc.id := Collection.lookup_none.mp found
    rw [Collection.updateOne_none f found,Collection.rewrite_absent f absent]
  | some doc =>
    have named : doc.id = sessionId := by simpa using List.find?_some found
    rw [Collection.updateOne_rewrite f unique found,named]

theorem settles_rewrite {f : SessionDoc → SessionDoc} (settles : ∀ doc, Settles doc (f doc)) (doc : SessionDoc) :
    Settles doc (if doc.id = sessionId then f doc else doc) := by
  split
  · exact settles doc
  · exact settles_refl doc

theorem safe_updateById {f : Nat → SessionDoc → SessionDoc}
    (settles : ∀ now doc, Settles doc (f now doc)) (holds : post (.ok ()) v)
    (failed : ∀ e, post (.error (.mongo e)) v) : (discipline service).Safe i (updateById sessionId f) v post := by
  refine safe_op ?_ failed
  intro s valid seen value t ran
  cases ran
  constructor
  · refine .settled (fun doc => if doc.id = sessionId then f s.base.now doc else doc) [] (.inl rfl) ?_ rfl ?_ (by simp) (by simp)
    · exact updateOne_id valid.current.ids _
    · intro doc _
      exact settles_rewrite (settles s.base.now) doc
  · have same : view service.random i (s.withDocs (Collection.updateOne (fun doc => doc.id = sessionId)
        (f s.base.now) s.store.docs) []) = v := by
      rw [← seen]
      simp [view,World.withDocs]
    exact same ▸ holds

theorem settles_revoke (now : Nat) (doc : SessionDoc) : Settles doc (doc.revoke now) := ⟨rfl,.inr rfl⟩
theorem settles_replace (childId : String) (now : Nat) (doc : SessionDoc) : Settles doc (doc.replace childId now) :=
  ⟨rfl,.inr rfl⟩

theorem safe_revoke (holds : post (.ok ()) v)
    (failed : ∀ e, post (.error (.mongo e)) v) : (discipline service).Safe i (revoke sessionId) v post :=
  Safe.bind (safe_updateById settles_revoke (safe_cacheDel holds) failed)

theorem safe_enforceSessionLimit (holds : post (.ok ()) v)
    (failed : ∀ e, post (.error (.mongo e)) v) :
    (discipline service).Safe i (enforceSessionLimit service userId applicationId) v post := by
  refine Safe.bind (safe_read (fun count => ?_) failed)
  dsimp only
  split
  · refine Safe.bind (safe_read (fun found => ?_) failed)
    cases found with
    | some doc => exact safe_revoke holds failed
    | none => exact Safe.pure holds
  · exact Safe.pure holds

theorem insertStep_parts (ran : insertStep random doc entry i w = .ok (born,w')) :
    born = {doc with id := random.fresh w.base.draws.length} ∧ (∀ old ∈ w.store.docs, clash born old = false) ∧
      w' = ⟨{w.base with draws := w.base.draws ++ [i]},⟨w.store.docs ++ [born],w.store.log ++ [entry i born]⟩⟩ := by
  unfold insertStep at ran
  dsimp only at ran
  split at ran
  · cases ran
  · rename_i free
    cases ran
    refine ⟨rfl,?_,rfl⟩
    intro old member
    simp only [List.any_eq_true,not_exists,not_and,Bool.not_eq_true] at free
    exact free old member

theorem view_inserted (docs : List SessionDoc) (seen : view random i s = v) (mine : entry.call = i) :
    let t : World := ⟨{s.base with draws := s.base.draws ++ [i]},⟨docs,s.store.log ++ [entry]⟩⟩
    (view random i t).1 = v.1 ++ [entry] ∧ v.2 ⊆ (view random i t).2 := by
  rw [← seen]
  constructor
  · simp [view,Atomic.entriesOf,mine]
  · intro text owns
    exact owns_append owns

-- What the caller is told about a session it obtained.
def CreatedSession.Describes (created : CreatedSession) (service : SessionService) (doc : SessionDoc) : Prop :=
  created.sessionId = doc.id ∧ created.userId = doc.userId ∧ created.tenantId = doc.tenantId ∧
    created.applicationId = doc.applicationId ∧ created.familyId = doc.familyId ∧
    created.refreshTokenHash = doc.currentRefreshTokenHash ∧
    service.hashRefreshToken created.refreshToken = doc.currentRefreshTokenHash

def Started (service : SessionService) (ctx : SessionContext) (i : CallId) (created : CreatedSession)
    (entries : List Entry) : Prop :=
  ∃ doc, entries = [.created i doc] ∧ created.Describes service doc ∧
    doc.userId = ctx.userId ∧ doc.tenantId = ctx.tenantId ∧ doc.applicationId = ctx.applicationId

theorem safe_create (untouched : v.1 = []) :
    (discipline service).Safe i (create service ctx) v (fun result u => match result with
      | .ok created => Started service ctx i created u.1
      | .error _ => u.1 = []) := by
  refine Safe.bind (safe_enforceSessionLimit ?_ fun _ => untouched)
  refine Safe.bind (safe_draw fun familyId v1 same1 _ drewFamily => ?_)
  refine Safe.bind (safe_draw fun token v2 same2 grew2 drewToken => ?_)
  refine Safe.bind (safe_base (fun _ => rfl) fun now => ?_)
  have mine : v2.1 = [] := same2.trans (same1.trans untouched)
  refine Safe.bind (safe_op ?_ fun _ => mine)
  intro s valid seen doc t ran
  obtain ⟨rfl,free,rfl⟩ := insertStep_parts ran
  have owned : ∀ text ∈ v2.2, Owns service.random s.base.draws i text := by
    intro text member
    rw [← seen] at member
    exact member
  have untouchedNow : entriesOf i s.store.log = [] := by
    rw [← seen] at mine
    exact mine
  obtain ⟨entries,_⟩ := view_inserted (s.store.docs ++ [_]) seen (rfl : (Entry.created i _).call = i)
  constructor
  · exact .created _ (.inr rfl) rfl rfl untouchedNow (owns_last _ _ _) (owns_append (owned _ (grew2 drewFamily)))
      ⟨token,owns_append (owned token drewToken),rfl⟩
  · refine Safe.bind (safe_cacheLiveness ?_)
    refine Safe.pure ?_
    rw [mine] at entries
    exact ⟨_,entries,⟨rfl,rfl,rfl,rfl,rfl,rfl,rfl⟩,rfl,rfl,rfl⟩

theorem safe_revokeMany {p : SessionDoc → Bool} {entry : CallId → Entry}
    (mine : (entry i).call = i) (plain : ∀ c doc, entry i ≠ .presented c doc)
    (remark : ∀ before after : List SessionDoc, (∀ doc ∈ after, ∃ old now,
      old ∈ before ∧ doc = if p old then old.revoke now else old) → Remark i before after (entry i))
    (holds : ∀ u : View, u.1 = v.1 ++ [entry i] → post (.ok ()) u) (failed : ∀ e, post (.error (.mongo e)) v) :
    (discipline service).Safe i (op fun i w => .ok ((),w.withDocs (Collection.updateMany p
      (SessionDoc.revoke w.base.now) w.store.docs) [entry i])) v post := by
  refine safe_op ?_ failed
  intro s valid seen value t ran
  cases ran
  constructor
  · refine .settled (fun doc => if p doc then doc.revoke s.base.now else doc) [entry i] (.inl rfl) rfl rfl ?_ ?_ ?_
    · intro doc _
      split
      · exact settles_revoke _ doc
      · exact settles_refl doc
    · intro noted member
      rw [List.mem_singleton.mp member]
      refine remark _ _ fun doc present => ?_
      obtain ⟨old,before,same⟩ := Collection.mem_updateMany.mp present
      exact ⟨old,s.base.now,before,same⟩
    · intro c doc member
      exact absurd (List.mem_singleton.mp member).symm (plain c doc)
  · apply holds
    rw [← seen]
    simp [view,World.withDocs,Atomic.entriesOf,mine]

theorem safe_revokeFamily (holds : ∀ u : View, u.1 = v.1 ++ [.familyRevoked i familyId] → post (.ok ()) u)
    (failed : ∀ e, post (.error (.mongo e)) v) :
    (discipline service).Safe i (revokeFamily familyId) v post := by
  refine Safe.bind (safe_read (fun sessions => ?_) failed)
  refine Safe.bind (safe_revokeMany rfl (by simp) ?_ (fun u noted => ?_) failed)
  · intro before after from_
    refine ⟨rfl,fun doc member family => ?_⟩
    obtain ⟨old,now,_,rfl⟩ := from_ doc member
    split
    · rfl
    · rename_i other
      rw [if_neg other] at family
      exact absurd (by simpa using family) other
  · exact Safe.forEach (holds u noted) fun doc => safe_cacheDel rfl

theorem safe_revokeAll
    (holds : ∀ u : View, u.1 = v.1 ++ [.allRevoked i userId (truthy applicationId) (truthy tenantId)] → post (.ok ()) u)
    (failed : ∀ e, post (.error (.mongo e)) v) :
    (discipline service).Safe i (revokeAll userId applicationId tenantId) v post := by
  refine Safe.bind (safe_read (fun docs => ?_) failed)
  refine Safe.bind (safe_revokeMany rfl (by simp) ?_ (fun u noted => ?_) failed)
  · intro before after from_
    refine ⟨rfl,fun anyApplication anyTenant doc member user active => ?_⟩
    obtain ⟨old,now,_,rfl⟩ := from_ doc member
    split at active
    · cases active
    · rename_i other
      rw [if_neg other] at user
      exact other (by simp [ownedBy,user,active,anyApplication,anyTenant])
  · exact Safe.forEach (holds u noted) fun doc => safe_cacheDel rfl

-- The claim: exactly one active session with the presented hash turns rotating.
theorem safe_claim {post : Except Error (Option SessionDoc) → View → Prop} (untouched : v.1 = [])
    (won : ∀ (u : View) parent, u.1 = [.claimed i parent] → presents hashed ctx parent = true →
      post (.ok (some parent)) u)
    (lost : post (.ok none) v) (failed : ∀ e, post (.error (.mongo e)) v) :
    (discipline service).Safe i (claim hashed ctx) v post := by
  refine safe_op ?_ failed
  intro s valid seen value t ran
  have mine : entriesOf i s.store.log = [] := by
    rw [← seen] at untouched
    exact untouched
  dsimp only at ran
  split at ran
  · rename_i doc found
    cases ran
    have matched := List.find?_some found
    simp only [Bool.and_eq_true,decide_eq_true_eq] at matched
    constructor
    · refine .claimed doc _ (fun other => if other.id = doc.id then
          {other with status := .rotating,revokedAt := some s.base.now} else other) (.inl rfl) ?_ rfl mine
        (List.mem_of_find?_eq_some found) matched.2 rfl ?_ ?_
      · exact Collection.updateOne_rewrite _ valid.current.ids found
      · intro other _ different
        simp [different]
      · intro other _ same
        simp [same,SessionDoc.identity,SessionDoc.owner]
    · refine won _ _ ?_ matched.1
      simp [view,World.withDocs,entriesOf_append,mine]
      simp [Atomic.entriesOf,Entry.call]
  · cases ran
    exact ⟨change_idle s,seen.symm ▸ lost⟩

theorem safe_findPresented {post : Except Error (Option SessionDoc) → View → Prop} (untouched : v.1 = [])
    (none : post (.ok none) v)
    (found : ∀ (u : View) doc, u.1 = (if doc.status.isSettled then [.presented i doc] else []) →
      post (.ok (some doc)) u)
    (failed : ∀ e, post (.error (.mongo e)) v) :
    (discipline service).Safe i (findPresented hashed ctx) v post := by
  refine safe_op ?_ failed
  intro s valid seen value t ran
  have mine : entriesOf i s.store.log = [] := by
    rw [← seen] at untouched
    exact untouched
  split at ran
  · rename_i doc hit
    cases ran
    constructor
    · refine .settled id _ (.inl rfl) (by simp [World.withDocs]) rfl (fun doc _ => settles_refl doc) ?_
        fun _ _ _ => mine
      intro entry member
      split at member
      · rw [List.mem_singleton.mp member]
        exact ⟨rfl,List.mem_of_find?_eq_some hit⟩
      · cases member
    · refine found _ doc ?_
      simp only [view,World.withDocs,entriesOf_append,mine]
      split <;> simp [Atomic.entriesOf,Entry.call]
  · cases ran
    exact ⟨change_idle s,seen.symm ▸ none⟩

-- Rotation. `Holding` is the state of a call between its claim and the
-- insertion of the child, `Rotated` the state after it.
def Holding (service : SessionService) (i : CallId) (parent : SessionDoc) (hashed : String) (u : View) : Prop :=
  u.1 = [.claimed i parent] ∧ ∃ token ∈ u.2, service.hashRefreshToken token = hashed

def Rotated (i : CallId) (parent : SessionDoc) (hashed childId : String) (u : View) : Prop :=
  ∃ child, u.1 = [.claimed i parent,.inserted i child parent] ∧ child.id = childId ∧
    child.owner = parent.owner ∧ child.currentRefreshTokenHash = hashed

theorem holding_token (holding : Holding service i parent hashed v) (seen : view service.random i s = v) :
    entriesOf i s.store.log = [.claimed i parent] ∧
      ∃ token, Owns service.random s.base.draws i token ∧ service.hashRefreshToken token = hashed := by
  rw [← seen] at holding
  exact holding

theorem safe_insertChild {post : Except Error SessionDoc → View → Prop}
    (holding : Holding service i parent child.currentRefreshTokenHash v) (owner : child.owner = parent.owner)
    (holds : ∀ u newSession, Rotated i parent child.currentRefreshTokenHash newSession.id u → post (.ok newSession) u)
    (failed : ∀ e, post (.error (.mongo e)) v) :
    (discipline service).Safe i (insert service.random child (fun i doc => .inserted i doc parent)) v post := by
  refine safe_op ?_ failed
  intro s valid seen newSession t ran
  obtain ⟨rfl,free,rfl⟩ := insertStep_parts ran
  obtain ⟨mine,token,owns,hashed⟩ := holding_token holding seen
  obtain ⟨entries,_⟩ := view_inserted (s.store.docs ++ [_]) seen (rfl : (Entry.inserted i _ parent).call = i)
  constructor
  · refine .inserted _ parent id (.inr rfl) (by simp) rfl mine (fun doc _ => settles_refl doc) (owns_last _ _ _) owner ?_
    exact ⟨token,owns_append owns,hashed⟩
  · refine holds _ _ ⟨_,?_,rfl,owner,rfl⟩
    rw [entries,holding.1]
    rfl

theorem safe_txBody (holding : Holding service i parent child.currentRefreshTokenHash v)
    (owner : child.owner = parent.owner) :
    (discipline service).Safe i (txBody service parent child) v (fun result u => match result with
      | .ok childId => Rotated i parent child.currentRefreshTokenHash childId u
      | .error _ => u.1 = [.claimed i parent] ∨ ∃ childId, Rotated i parent child.currentRefreshTokenHash childId u) := by
  refine Safe.bind (safe_insertChild holding owner (fun u newSession rotated => ?_) fun _ => .inl holding.1)
  have left : u.1 = [.claimed i parent] ∨ ∃ childId, Rotated i parent child.currentRefreshTokenHash childId u :=
    .inr ⟨_,rotated⟩
  refine Safe.bind (safe_read (fun parentState => ?_) fun _ => left)
  dsimp only
  split
  · exact Safe.bind (safe_updateById (settles_replace _) (Safe.pure rotated) fun _ => left)
  · exact Safe.throw left

theorem safe_buffered_op {f : CallId → World → Except MongoError (α × World)} {copy : Store}
    {post : Except Error (α × Store) → View → Prop}
    (step : ∀ s, Inv service s → view service.random i s = v → ∀ value t, f i {s with store := copy} = .ok (value,t) →
      Change service i s {t with store := s.store} ∧ post (.ok (value,t.store)) (view service.random i {t with store := s.store}))
    (failed : ∀ e, post (.error (.mongo e)) v) :
    (discipline service).Safe i ((op f).buffered storeLens copy) v post := by
  refine Safe.buffered_tryAtomic (fun s _ => change_idle s) ?_ ?_
  · intro s valid seen value t ran
    split at ran
    · cases ran
    · cases served : f i {s with store := copy} with
      | ok result =>
        have same : f i (storeLens.set copy s) = .ok result := served
        rw [same] at ran; cases ran
        exact step s valid seen value t served
      | error e =>
        have same : f i (storeLens.set copy s) = .error e := served
        rw [same] at ran; cases ran
  · intro s valid seen e ran
    split at ran
    · cases ran; exact failed _
    · cases served : f i {s with store := copy} with
      | ok result =>
        have same : f i (storeLens.set copy s) = .ok result := served
        rw [same] at ran; cases ran
      | error e =>
        have same : f i (storeLens.set copy s) = .error e := served
        rw [same] at ran; cases ran; exact failed _

theorem safe_buffered_read {f : List SessionDoc → α} {copy : Store} {post : Except Error (α × Store) → View → Prop}
    (holds : post (.ok (f copy.docs,copy)) v) (failed : ∀ e, post (.error (.mongo e)) v) :
    (discipline service).Safe i ((read f).buffered storeLens copy) v post := by
  refine safe_buffered_op ?_ failed
  intro s valid seen value t ran
  cases ran
  exact ⟨change_idle s,seen.symm ▸ holds⟩

theorem safe_buffered_updateById {f : Nat → SessionDoc → SessionDoc} {copy : Store}
    {post : Except Error (Unit × Store) → View → Prop}
    (holds : ∀ now, post (.ok ((),⟨Collection.updateOne (fun doc => doc.id = sessionId) (f now) copy.docs,copy.log ++ []⟩)) v)
    (failed : ∀ e, post (.error (.mongo e)) v) :
    (discipline service).Safe i ((updateById sessionId f).buffered storeLens copy) v post := by
  refine safe_buffered_op ?_ failed
  intro s valid seen value t ran
  cases ran
  exact ⟨change_idle s,seen.symm ▸ holds s.base.now⟩

-- The private copy when the body of the transaction has run to its end.
structure Prepared (service : SessionService) (i : CallId) (parent child old : SessionDoc) (now : Nat)
    (snapshot copy : Store) (u : View) : Prop where
  copy : copy = ⟨Collection.rewrite SessionDoc.id parent.id (SessionDoc.replace child.id now) snapshot.docs ++ [child],
    snapshot.log ++ [.inserted i child parent]⟩
  found : Collection.lookup SessionDoc.id parent.id snapshot.docs = some old
  rotating : old.status = .rotating
  absent : child.id ∉ snapshot.docs.map SessionDoc.id
  id : child.id ∈ u.2
  owner : child.owner = parent.owner
  holding : Holding service i parent child.currentRefreshTokenHash u

theorem lookup_rotating (fresh : child.status ≠ .rotating)
    (state : (Collection.lookup SessionDoc.id parentId (docs ++ [child])).map SessionDoc.status = some .rotating) :
    ∃ old, Collection.lookup SessionDoc.id parentId docs = some old ∧ old.status = .rotating := by
  unfold Collection.lookup at state ⊢
  rw [List.find?_append] at state
  cases found : docs.find? fun doc => doc.id = parentId with
  | some old =>
    rw [found] at state
    exact ⟨old,rfl,by simpa using state⟩
  | none =>
    rw [found,Option.none_or,List.find?_singleton] at state
    split at state
    · exact absurd (by simpa using state) fresh
    · cases state

theorem safe_buffered_txBody {snapshot : Store} (unique : (snapshot.docs.map SessionDoc.id).Nodup)
    (holding : Holding service i parent child.currentRefreshTokenHash v)
    (owner : child.owner = parent.owner) (fresh : child.status ≠ .rotating) :
    (discipline service).Safe i ((txBody service parent child).buffered storeLens snapshot) v
      (fun result u => match result with
        | .ok (childId,copy) => ∃ born old now, Prepared service i parent born old now snapshot copy u ∧
            born.id = childId ∧ born.currentRefreshTokenHash = child.currentRefreshTokenHash
        | .error _ => Holding service i parent child.currentRefreshTokenHash u) := by
  unfold txBody
  rw [Prog.buffered_bind]
  refine Safe.bind (safe_buffered_op ?_ fun _ => holding)
  intro s valid seen born t ran
  obtain ⟨rfl,free,rfl⟩ := insertStep_parts ran
  refine ⟨.quiet (.inr rfl) rfl,?_⟩
  have later : Holding service i parent child.currentRefreshTokenHash
      (view service.random i {s with base := {s.base with draws := s.base.draws ++ [i]}}) := by
    obtain ⟨mine,token,owns,hashed⟩ := holding_token holding seen
    exact ⟨mine,token,owns_append owns,hashed⟩
  have absent : service.random.fresh s.base.draws.length ∉ snapshot.docs.map SessionDoc.id := by
    intro member
    obtain ⟨doc,present,same⟩ := List.mem_map.mp member
    have apart := free doc present
    simp [clash,same] at apart
  dsimp only
  rw [Prog.buffered_bind]
  refine Safe.bind (safe_buffered_read ?_ fun _ => later)
  dsimp only
  split
  · rename_i state
    obtain ⟨old,found,rotating⟩ := lookup_rotating (by exact fresh) state
    rw [Prog.buffered_bind]
    refine Safe.bind (safe_buffered_updateById (fun now => ?_) fun _ => later)
    refine ⟨{child with id := service.random.fresh s.base.draws.length},old,now,
      ⟨?_,found,rotating,absent,owns_last service.random s.base.draws i,owner,later⟩,rfl,rfl⟩
    rw [Collection.updateOne_append _ found,updateOne_id unique,List.append_nil]
  · exact later

theorem safe_commit {snapshot copy : Store}
    (prepared : Prepared service i parent child old now snapshot copy v)
    (holds : ∀ u : View, Rotated i parent child.currentRefreshTokenHash child.id u → post (.ok ()) u)
    (failed : ∀ e, post (.error (.mongo e)) v) :
    (discipline service).Safe i (commit snapshot copy) v post := by
  refine safe_op ?_ failed
  intro s valid seen value t ran
  split at ran
  · rename_i docs merged
    cases ran
    have differs : old.replace child.id now ≠ old := by
      intro same
      have status := congrArg SessionDoc.status same
      rw [prepared.rotating] at status
      cases status
    rw [prepared.copy] at merged
    obtain ⟨found,absent,free,rfl⟩ := Collection.merge_rewrite_insert
      (f := SessionDoc.replace child.id now) (fun _ => rfl) prepared.found differs prepared.absent merged
    have owns : Owns service.random s.base.draws i child.id := by
      have drew := prepared.id
      rw [← seen] at drew
      exact drew
    have appended : copy.log.drop snapshot.log.length = [.inserted i child parent] := by
      rw [prepared.copy]; simp
    obtain ⟨mine,token,ownsToken,hashed⟩ := holding_token prepared.holding seen
    have named : old.id = parent.id := (Collection.lookup_some found).2
    constructor
    · refine .inserted child parent (fun doc => if doc.id = parent.id then old.replace child.id now else doc)
        (.inl rfl) rfl (by rw [appended]; rfl) mine ?_ owns prepared.owner ⟨token,ownsToken,hashed⟩
      intro doc member
      split
      · rename_i same
        have only : doc = old := by
          have hit := Collection.lookup_member valid.current.ids member
          rw [same,found] at hit
          exact (Option.some.inj hit).symm
        rw [only]
        exact settles_replace _ _ _
      · exact settles_refl doc
    · refine holds _ ⟨child,?_,rfl,prepared.owner,rfl⟩
      simp only [view,World.withDocs,appended,entriesOf_append,mine]
      simp [Atomic.entriesOf,Entry.call]
  · cases ran

section
variable {parent child : SessionDoc} (holding : Holding service i parent child.currentRefreshTokenHash v)
  (owner : child.owner = parent.owner) (fresh : child.status ≠ .rotating)
include holding owner fresh

theorem safe_transaction :
    (discipline service).Safe i ((txBody service parent child).transaction storeLens commit) v
      (fun result u => match result with
        | .ok childId => Rotated i parent child.currentRefreshTokenHash childId u
        | .error _ => Holding service i parent child.currentRefreshTokenHash u) := by
  refine Safe.bind (Safe.atomic fun s valid seen => ⟨change_idle s,?_⟩)
  have kept : Holding service i parent child.currentRefreshTokenHash ((discipline service).view i s) := seen ▸ holding
  refine Safe.bind ((safe_buffered_txBody valid.current.ids kept owner fresh).mono ?_)
  intro result u after
  cases result with
  | error e => exact after
  | ok out =>
    obtain ⟨childId,copy⟩ := out
    obtain ⟨born,old,now,prepared,rfl,hashed⟩ := after
    refine Safe.bind (safe_commit prepared (fun w rotated => ?_) fun e => ?_)
    · exact Safe.pure (hashed ▸ rotated)
    · exact hashed ▸ prepared.holding

theorem safe_driverTransaction :
    (discipline service).Safe i (driverTransaction (txBody service parent child) retries) v
      (fun result u => match result with
        | .ok childId => Rotated i parent child.currentRefreshTokenHash childId u
        | .error _ => Holding service i parent child.currentRefreshTokenHash u) := by
  induction retries generalizing v with
  | zero => exact safe_transaction holding owner fresh
  | succ retries ih =>
    refine Safe.bind (Safe.attempt ((safe_transaction holding owner fresh).mono ?_))
    intro result u after
    cases result with
    | ok childId => exact Safe.pure after
    | error e =>
      cases e with
      | mongo error =>
        dsimp only
        split
        · exact ih after
        · exact Safe.throw after
      | pezhwan kind message code => exact Safe.throw after

-- The states a rotation can end in.
def RotationEnd (i : CallId) (parent : SessionDoc) (hashed : String) (result : Except Error String) (u : View) : Prop :=
  match result with
  | .ok childId => Rotated i parent hashed childId u
  | .error _ => u.1 = [.claimed i parent] ∨ ∃ childId, Rotated i parent hashed childId u

theorem safe_attempts :
    (discipline service).Safe i (attempts service (txBody service parent child) left) v
      (RotationEnd i parent child.currentRefreshTokenHash) := by
  induction left generalizing v with
  | zero =>
    refine Safe.bind (Safe.attempt ((safe_driverTransaction holding owner fresh).mono ?_))
    intro result u after
    cases result with
    | ok childId => exact Safe.pure after
    | error e =>
      dsimp only
      split
      · exact Safe.throw (.inl after.1)
      · exact safe_txBody after owner
  | succ left ih =>
    refine Safe.bind (Safe.attempt ((safe_driverTransaction holding owner fresh).mono ?_))
    intro result u after
    cases result with
    | ok childId => exact Safe.pure after
    | error e =>
      dsimp only
      split
      · exact ih after
      · exact Safe.throw (.inl after.1)

theorem safe_withTransaction :
    (discipline service).Safe i (withTransaction service (txBody service parent child)) v
      (RotationEnd i parent child.currentRefreshTokenHash) := by
  unfold withTransaction
  split
  · exact safe_attempts holding owner fresh
  · exact safe_txBody holding owner

end

-- The call has started no family.
def Unstarted (i : CallId) (entries : List Entry) : Prop := ∀ root, Entry.created i root ∉ entries

theorem unstarted_untouched (untouched : entries = []) : Unstarted i entries := by
  intro root member
  rw [untouched] at member
  cases member

-- What a refresh leaves in the log.
def Refreshed (service : SessionService) (token : String) (ctx : RefreshContext) (i : CallId)
    (result : Except Error CreatedSession) (entries : List Entry) : Prop :=
  match result with
  | .ok created => ∃ parent child, entries = [.claimed i parent,.inserted i child parent] ∧
      presents (service.hashRefreshToken token) ctx parent = true ∧ child.owner = parent.owner ∧
      created.Describes service child
  | .error e => (e = reuseDetected → ∀ doc, .presented i doc ∈ entries → .familyRevoked i doc.familyId ∈ entries) ∧
      Unstarted i entries

theorem refreshed_error (entries : ∀ doc, Entry.presented i doc ∉ u) (unstarted : Unstarted i u) :
    Refreshed service token ctx i (.error e) u := ⟨fun _ doc member => absurd member (entries doc),unstarted⟩

theorem safe_rotate (mine : v.1 = [.claimed i session])
    (presented : presents (service.hashRefreshToken token) ctx session = true) :
    (discipline service).Safe i (rotate service session ctx) v
      (fun result u => Refreshed service token ctx i result u.1) := by
  refine Safe.bind (safe_base (fun _ => rfl) fun now => ?_)
  refine Safe.bind (safe_draw fun refreshToken u same _ drew => ?_)
  have holding : Holding service i session
      (childOf session ctx (service.hashRefreshToken refreshToken) now (now + service.refreshTokenTtlMs)).currentRefreshTokenHash u :=
    ⟨same.trans mine,refreshToken,drew,rfl⟩
  refine Safe.bind ((safe_withTransaction holding rfl (by simp [childOf])).mono ?_)
  intro result w after
  cases result with
  | ok childId =>
    refine Safe.bind (safe_cacheLiveness ?_)
    refine Safe.bind (safe_cacheLiveness ?_)
    refine Safe.pure ?_
    obtain ⟨child,entries,named,owner,hashed⟩ := after
    obtain ⟨user,tenant,application,family⟩ := owner_parts owner
    exact ⟨session,child,entries,presented,owner,named.symm,user.symm,tenant.symm,application.symm,family.symm,
      hashed.symm,hashed.symm⟩
  | error e =>
    rcases after with alone | ⟨childId,child,entries,_⟩
    · apply refreshed_error <;> simp [Unstarted,alone]
    · apply refreshed_error <;> simp [Unstarted,entries]

theorem safe_refresh (untouched : v.1 = []) :
    (discipline service).Safe i (refresh service token ctx) v
      (fun result u => Refreshed service token ctx i result u.1) := by
  have quiet : ∀ e, Refreshed service token ctx i (.error e) v.1 := by
    intro e
    apply refreshed_error <;> simp [Unstarted,untouched]
  refine Safe.bind (safe_claim untouched (fun u parent mine presented => ?_) ?_ fun e => quiet _)
  · exact safe_rotate mine presented
  · refine Safe.bind (safe_findPresented untouched ?_ (fun u doc entries => ?_) fun e => quiet _)
    · exact Safe.throw (quiet _)
    · dsimp only
      split
      · rename_i settled
        rw [if_pos settled] at entries
        refine Safe.bind (safe_revokeFamily (fun w noted => ?_) fun e => ?_)
        · refine Safe.throw ⟨?_,?_⟩
          · intro _ other member
            rw [noted,entries] at member ⊢
            simp at member ⊢
            rw [member]
          · simp [Unstarted,noted,entries]
        · refine ⟨fun same => ?_,?_⟩
          · cases same
          · simp [Unstarted,entries]
      · rename_i unsettled
        rw [if_neg unsettled] at entries
        apply Safe.throw
        apply refreshed_error <;> simp [Unstarted,entries]

-- The whole service.
def Outcome (service : SessionService) (i : CallId) : Call → Except Error Reply → List Entry → Prop
  | .create ctx,.ok (.session created),entries => Started service ctx i created entries
  | .refresh token ctx,.ok (.session created),entries => Refreshed service token ctx i (.ok created) entries
  | .refresh token ctx,.error e,entries => Refreshed service token ctx i (.error e) entries
  | .revokeAll userId applicationId tenantId,.ok _,entries =>
      entries = [.allRevoked i userId (truthy applicationId) (truthy tenantId)]
  | _,_,entries => Unstarted i entries

theorem outcome_created (outcome : Outcome service i call result entries) (created : .created i root ∈ entries) :
    ∃ ctx, call = .create ctx := by
  unfold Outcome at outcome
  split at outcome
  · rename_i ctx started
    exact ⟨ctx,rfl⟩
  · obtain ⟨parent,child,only,_⟩ := outcome
    rw [only] at created
    simp at created
  · exact absurd created (outcome.2 root)
  · rw [outcome] at created
    simp at created
  · exact absurd created (outcome root)

theorem safe_program (untouched : v.1 = []) (call : Call) :
    (discipline service).Safe i (program service call) v (fun result u => Outcome service i call result u.1) := by
  have idle : Unstarted i v.1 := unstarted_untouched untouched
  cases call with
  | create ctx =>
    refine Safe.map ((safe_create untouched).mono ?_)
    intro result u after
    cases result with
    | ok created => exact after
    | error e => exact unstarted_untouched after
  | refresh token ctx =>
    refine Safe.map ((safe_refresh untouched).mono ?_)
    intro result u after
    cases result <;> exact after
  | revoke sessionId => exact Safe.map (safe_revoke idle fun _ => idle)
  | revokeFamily familyId =>
    refine Safe.map (safe_revokeFamily (fun u noted => ?_) fun _ => idle)
    rw [untouched] at noted
    change Unstarted i u.1
    simp [Unstarted,noted]
  | revokeAll userId applicationId tenantId =>
    refine Safe.map (safe_revokeAll (fun u noted => ?_) fun _ => idle)
    rw [untouched] at noted
    exact noted
  | listActive userId applicationId =>
    exact Safe.map (Safe.bind (safe_read (fun _ => Safe.pure idle) fun _ => idle))
  | isSessionActive sessionId =>
    refine Safe.map (Safe.bind (safe_base (fun _ => rfl) fun cached => ?_))
    dsimp only
    split
    · exact Safe.pure idle
    · refine Safe.bind (safe_base (fun _ => rfl) fun now => ?_)
      refine Safe.bind (safe_read (fun found => ?_) fun _ => idle)
      cases found with
      | none => exact Safe.pure idle
      | some doc =>
        dsimp only
        split
        · exact Safe.bind (safe_cacheLiveness (Safe.pure idle))
        · exact Safe.pure idle
  | touch sessionId =>
    refine Safe.map (Safe.bind (safe_updateById ?_ (safe_cacheLiveness idle) fun _ => idle))
    intro now doc
    exact ⟨rfl,.inl rfl⟩

theorem surroundings_quiet (valid : Inv service s) (moved : Surroundings s t) :
    Inv service t ∧ ∀ i, view service.random i t = view service.random i s := by
  cases moved with
  | tick later | fault error | cache content => exact ⟨⟨valid.history,valid.current⟩,fun _ => rfl⟩
  | expire kept fewer due => exact ⟨⟨valid.history,current_sublist valid.current fewer⟩,fun _ => rfl⟩

end
end Pezhwan.Session
