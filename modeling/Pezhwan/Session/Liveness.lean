import Pezhwan.Session.Family
import Pezhwan.Atomic.After
import Pezhwan.Atomic.Focus

namespace Pezhwan.Session
open Atomic Prog

-- A cache that only forgets, a clock that only advances, a store that fails and
-- recovers, and a TTL index that removes sessions whose expiry has passed.
inductive Passing : World → World → Prop where
  | tick (later : w.base.now ≤ now) : Passing w {w with base := {w.base with now}}
  | fault (error : Option MongoError) : Passing w {w with base := {w.base with fault := error}}
  | evict (key : CacheKey) : Passing w {w with base := {w.base with cache := w.base.cache.del key}}
  | expire (sessionId : String) (due : ∀ doc ∈ w.store.docs, doc.id = sessionId → doc.expiresAt ≤ w.base.now) :
      Passing w {w with store := {w.store with docs := w.store.docs.filter fun doc => doc.id ≠ sessionId}}

def stored (id : String) (docs : List SessionDoc) : Option SessionDoc := Collection.lookup SessionDoc.id id docs

-- What the answer true has to mean at a time.
def Lives (id : String) (time : Nat) (docs : List SessionDoc) : Prop :=
  ∃ doc, stored id docs = some doc ∧ doc.status = .active ∧ time < doc.expiresAt

-- The liveness marker of a session, as a read at a time sees it.
def Marked (id : String) (time : Nat) (w : World) : Prop := w.base.cache.get time (.session id) = some (.text "1")

-- For as long as the marker will be read, the session lives.
def Backed (id : String) (w : World) : Prop := ∀ time, w.base.now ≤ time → Marked id time w → Lives id time w.store.docs

-- The session outlives a marker that is written now.
def Lasting (id : String) (w : World) : Prop := Lives id (w.base.now + SESSION_CACHE_TTL_SECONDS * 1000) w.store.docs

-- The steps that do not break the marker of session `id`: markers are written for
-- sessions that are active and outlive them, and a refresh claims another session.
def Careful (service : SessionService) (id : String) (w : World) : Call → Prop
  | .create _ => SESSION_CACHE_TTL_SECONDS * 1000 < service.refreshTokenTtlMs
  | .refresh token ctx => SESSION_CACHE_TTL_SECONDS * 1000 < service.refreshTokenTtlMs ∧ ∀ doc,
      w.store.docs.find? (fun doc => presents (service.hashRefreshToken token) ctx doc && decide (doc.status = .active)) =
        some doc → doc.id ≠ id
  | .touch sessionId => sessionId = id → Lasting id w
  | .isSessionActive sessionId => sessionId = id → ¬ Marked id w.base.now w → Lives id w.base.now w.store.docs → Lasting id w
  | _ => True

section
variable {service : SessionService} {id : String} {w : World}

theorem Lives.earlier (lives : Lives id time docs) (earlier : now ≤ time) : Lives id now docs := by
  obtain ⟨doc,found,active,later⟩ := lives
  exact ⟨doc,found,active,by omega⟩

theorem Lives.same (lives : Lives id time docs) (same : ∀ doc, stored id docs = some doc → stored id docs' = some doc) :
    Lives id time docs' := by
  obtain ⟨doc,found,live⟩ := lives
  exact ⟨doc,same doc found,live⟩

theorem set_read (cache : Cache) (read : (cache.set now key value SESSION_CACHE_TTL_SECONDS).get time key = some found) :
    time ≤ now + SESSION_CACHE_TTL_SECONDS * 1000 := by
  by_contra late
  have lapsed : now + SESSION_CACHE_TTL_SECONDS * 1000 < time := Nat.not_le.mp late
  simp [Cache.get,Cache.set,SESSION_CACHE_TTL_SECONDS] at read lapsed
  omega

theorem marked_set (b : Base) (other : sessionId ≠ id) (ttl : Nat) (value : CacheValue) (store : Store) :
    Marked id time ⟨{b with cache := b.cache.set b.now (.session sessionId) value ttl},store⟩ ↔ Marked id time ⟨b,store⟩ := by
  have different : CacheKey.session id ≠ .session sessionId := by simpa using other.symm
  simp only [Marked]
  rw [Cache.get_set_ne b.cache time b.now value ttl different]

theorem marked_del (b : Base) (store : Store) (marked : Marked id time ⟨{b with cache := b.cache.del key},store⟩) :
    key ≠ .session id ∧ Marked id time ⟨b,store⟩ := by
  by_cases same : key = .session id
  · subst same
    simp [Marked,Cache.get_del] at marked
  · refine ⟨same,?_⟩
    have different : CacheKey.session id ≠ key := fun equal => same equal.symm
    unfold Marked at marked ⊢
    rw [← Cache.get_del_ne b.cache time different]
    exact marked

theorem after_op {f : CallId → World → Except MongoError (α × World)} {post : Except Error α → World → Prop}
    (served : ∀ value t, f i w = .ok (value,t) → post (.ok value) t) (refused : ∀ e, post (.error (.mongo e)) w) :
    After i (op f) w post :=
  after_mongo (fun value t _ result => served value t result) refused

theorem after_read {f : List SessionDoc → α} {post : Except Error α → World → Prop}
    (served : post (.ok (f w.store.docs)) w) (refused : ∀ e, post (.error (.mongo e)) w) :
    After i (read f) w post := by
  refine after_op ?_ refused
  intro value t ran
  cases ran
  exact served

theorem after_liveness {post : Except Error Unit → World → Prop} (backed : Backed id w)
    (lasting : sessionId = id → Lasting id w)
    (holds : ∀ b, b.now = w.base.now → Backed id ⟨b,w.store⟩ → post (.ok ()) ⟨b,w.store⟩) :
    After i (cacheLiveness sessionId) w post := by
  refine After.zoom (After.atomic (holds _ rfl ?_))
  intro time later marked
  by_cases same : sessionId = id
  · subst same
    exact (lasting rfl).earlier (set_read w.base.cache marked)
  · exact backed time later ((marked_set w.base same _ _ w.store).mp marked)

theorem after_updateById {post : Except Error Unit → World → Prop} (kept : ∀ now doc, (f now doc).id = doc.id)
    (served : ∀ docs, (∀ id, sessionId ≠ id → stored id docs = stored id w.store.docs) →
      post (.ok ()) ⟨w.base,⟨docs,w.store.log⟩⟩)
    (refused : ∀ e, post (.error (.mongo e)) w) : After i (updateById sessionId f) w post := by
  refine after_op ?_ refused
  intro value t ran
  cases ran
  simp only [World.withDocs,List.append_nil]
  apply served
  intro id other
  apply Collection.lookup_updateOne_ne (kept w.base.now)
  intro doc found named
  have hit : doc.id = sessionId := by simpa using List.find?_some found
  exact other (hit.symm.trans named)

theorem after_revoke (backed : Backed id w) (sessionId : String) (i : CallId) :
    After i (revoke sessionId) w (fun _ t => Backed id t) := by
  refine After.bind (after_updateById (fun _ _ => rfl) ?_ fun e => backed)
  intro docs same
  apply After.zoom
  apply After.atomic
  intro time later marked
  obtain ⟨different,before⟩ := marked_del _ _ marked
  have other : sessionId ≠ id := fun equal => different (congrArg CacheKey.session equal)
  exact (backed time later before).same fun doc found => (same id other).trans found

theorem after_enforceSessionLimit (backed : Backed id w) (userId applicationId : String) (i : CallId) :
    After i (enforceSessionLimit service userId applicationId) w (fun _ t => Backed id t) := by
  refine After.bind (after_read ?_ fun e => backed)
  dsimp only
  split
  · refine After.bind (after_read ?_ fun e => backed)
    cases oldest (w.store.docs.filter (activeOf userId applicationId)) with
    | some doc => exact after_revoke backed doc.id i
    | none => exact After.pure backed
  · exact After.pure backed

theorem after_insert {post : Except Error SessionDoc → World → Prop}
    (served : ∀ made b log, b.cache = w.base.cache → b.now = w.base.now → made.status = doc.status →
      made.expiresAt = doc.expiresAt → stored made.id w.store.docs = none → post (.ok made) ⟨b,⟨w.store.docs ++ [made],log⟩⟩)
    (refused : ∀ e, post (.error (.mongo e)) w) : After i (insert random doc entry) w post := by
  refine after_op ?_ refused
  intro value t ran
  simp only [insertStep] at ran
  split at ran
  · cases ran
  · rename_i free
    cases ran
    refine served _ _ _ rfl rfl rfl rfl ?_
    apply Collection.lookup_none.mpr
    intro listed
    obtain ⟨old,member,same⟩ := List.mem_map.mp listed
    apply free
    rw [List.any_eq_true]
    exact ⟨old,member,by simp [clash,same]⟩

theorem stored_inserted (docs : List SessionDoc) (made : SessionDoc) : stored id (docs ++ [made]) =
    (stored id docs).or (if made.id = id then some made else none) := by
  simp only [stored,Collection.lookup,List.find?_append,List.find?_singleton,decide_eq_true_eq]

theorem lives_inserted {made : SessionDoc} (found : stored id docs = some doc) : stored id (docs ++ [made]) = some doc := by
  rw [stored_inserted,found,Option.some_or]

theorem lives_new {made : SessionDoc} (active : made.status = .active) (fresh : stored made.id docs = none)
    (later : time < made.expiresAt) : Lives made.id time (docs ++ [made]) :=
  ⟨made,by simp [stored_inserted,fresh],active,later⟩

theorem after_create (backed : Backed id w) (ttl : SESSION_CACHE_TTL_SECONDS * 1000 < service.refreshTokenTtlMs)
    (ctx : SessionContext) (i : CallId) :
    After i (create service ctx) w (fun _ t => Backed id t) := by
  refine After.bind ((after_enforceSessionLimit backed ctx.userId ctx.applicationId i).mono ?_)
  intro result t backed
  cases result with
  | error e => exact backed
  | ok _ =>
    refine After.bind (After.zoom (After.atomic ?_))
    refine After.bind (After.zoom (After.atomic ?_))
    refine After.bind (After.zoom (After.atomic ?_))
    refine After.bind (after_insert ?_ fun e => backed)
    intro made b log cache now active expires fresh
    have kept : Backed id ⟨b,⟨t.store.docs ++ [made],log⟩⟩ := by
      intro time later marked
      refine (backed time (now ▸ later) ?_).same fun _ => lives_inserted
      unfold Marked at marked ⊢
      rw [cache] at marked
      exact marked
    refine After.bind (after_liveness kept ?_ fun b _ after => After.pure after)
    intro same
    subst same
    apply lives_new active fresh
    rw [expires,show b.now = t.base.now from now]
    exact Nat.add_lt_add_left ttl _

theorem after_sweep {p : SessionDoc → Bool} {entry : CallId → Entry} (backed : Backed id w) (i : CallId) :
    After i (do
      let docs ← read fun docs => docs.filter p
      op fun i w => .ok ((),w.withDocs (Collection.updateMany p (SessionDoc.revoke w.base.now) w.store.docs) [entry i])
      Prog.forEach (fun doc => base (cacheDel (.session doc.id))) docs) w (fun _ t => Backed id t) := by
  have kept : ∀ doc, (SessionDoc.revoke w.base.now doc).id = doc.id := fun _ => rfl
  apply After.bind
  apply after_read
  · apply After.bind
    apply after_op
    · intro value t ran
      cases ran
      apply After.forEach fun items t => ∀ time, t.base.now ≤ time → Marked id time t →
        (∃ item ∈ items, item.id = id) ∨ Lives id time t.store.docs
      · intro time later marked
        by_cases swept : ∃ item ∈ w.store.docs.filter p, item.id = id
        · exact .inl swept
        · right
          refine (backed time later marked).same ?_
          intro doc found
          have spared : p doc = false := by
            by_contra hit
            simp only [Bool.not_eq_false] at hit
            obtain ⟨member,named⟩ := Collection.lookup_some found
            exact swept ⟨doc,List.mem_filter.mpr ⟨member,hit⟩,named⟩
          simp only [stored,World.withDocs,Collection.lookup_updateMany kept]
          rw [show Collection.lookup SessionDoc.id id w.store.docs = some doc from found]
          simp [spared]
      · intro t left time later marked
        rcases left time later marked with ⟨item,none,_⟩ | lives
        · cases none
        · exact lives
      · intro item rest t left
        apply After.zoom
        apply After.atomic
        intro time later marked
        obtain ⟨different,before⟩ := marked_del _ _ marked
        rcases left time later before with ⟨other,member,named⟩ | lives
        · rcases List.mem_cons.mp member with rfl | later
          · exact absurd (congrArg CacheKey.session named) different
          · exact .inl ⟨other,later,named⟩
        · exact .inr lives
    · exact fun _ => backed
  · exact fun _ => backed

-- What the work of a rotation of another session leaves as it was.
def Spares (id : String) (s t : World) : Prop :=
  t.base.cache = s.base.cache ∧ t.base.now = s.base.now ∧
    ∀ doc, stored id s.store.docs = some doc → stored id t.store.docs = some doc

theorem spares_refl (w : World) : Spares id w w := ⟨rfl,rfl,fun _ found => found⟩

theorem spares_trans (one : Spares id s t) (two : Spares id t u) : Spares id s u :=
  ⟨two.1.trans one.1,two.2.1.trans one.2.1,fun doc found => two.2.2 doc (one.2.2 doc found)⟩

theorem backed_spared (backed : Backed id s) (spares : Spares id s t) : Backed id t := by
  intro time later marked
  refine (backed time (spares.2.1 ▸ later) ?_).same spares.2.2
  unfold Marked at marked ⊢
  rwa [spares.1] at marked

-- A rotation that ends spares the session, and the child it names is active.
def Renewed (id : String) (expiresAt : Nat) (s : World) (result : Except Error String) (t : World) : Prop :=
  Spares id s t ∧ (result = .ok id → ∃ doc, stored id t.store.docs = some doc ∧ doc.status = .active ∧ doc.expiresAt = expiresAt)

theorem renewed_trans (spares : Spares id s t) (renewed : Renewed id expiresAt t result u) : Renewed id expiresAt s result u :=
  ⟨spares_trans spares renewed.1,renewed.2⟩

theorem after_txBody (parent child : SessionDoc) (active : child.status = .active) (other : parent.id ≠ id) (w : World)
    (i : CallId) :
    After i (txBody service parent child) w (fun result t => Renewed id child.expiresAt w result t) := by
  have unchanged : ∀ e : Error, Renewed id child.expiresAt w (.error e) w := fun e => ⟨spares_refl w,by simp⟩
  apply After.bind
  refine after_insert ?_ fun e => unchanged _
  intro made b log cache now status expires fresh
  have spared : Spares id w ⟨b,⟨w.store.docs ++ [made],log⟩⟩ := ⟨cache,now,fun _ => lives_inserted⟩
  have failed : ∀ e : Error, Renewed id child.expiresAt w (.error e) ⟨b,⟨w.store.docs ++ [made],log⟩⟩ :=
    fun e => ⟨spared,by simp⟩
  apply After.bind
  refine after_read ?_ fun e => failed _
  dsimp only
  split
  · apply After.bind
    refine after_updateById (fun _ _ => rfl) ?_ fun e => failed _
    intro docs same
    have kept : stored id docs = stored id (w.store.docs ++ [made]) := same id other
    refine After.pure ⟨⟨cache,now,?_⟩,?_⟩
    · intro doc found
      exact kept.trans (spared.2.2 doc found)
    · intro named
      cases named
      refine ⟨made,?_,status.trans active,expires⟩
      rw [kept,stored_inserted,fresh]
      simp
  · exact failed _

section
variable {work : Program String} {expiresAt : Nat}

-- What `after_txBody` says, for whatever is run in a transaction.
def Gentle (id : String) (expiresAt : Nat) (i : CallId) (work : Program String) : Prop :=
  ∀ w, After i work w (Renewed id expiresAt w)

theorem after_transaction (gentle : Gentle id expiresAt i work) (w : World) :
    After i (work.transaction storeLens commit) w (Renewed id expiresAt w) := by
  apply After.transaction
  refine (gentle w).mono ?_
  intro result t both
  obtain ⟨⟨cache,now,spared⟩,sound⟩ := both
  have undone : ∀ e : Error, Renewed id expiresAt w (.error e) ⟨t.base,w.store⟩ :=
    fun e => ⟨⟨cache,now,fun _ found => found⟩,by simp⟩
  cases result with
  | error e => exact undone e
  | ok child =>
    refine after_op ?_ fun e => undone _
    intro value u ran
    split at ran
    · rename_i docs merged
      cases ran
      have written : stored id docs = (stored id t.store.docs).or (stored id w.store.docs) :=
        Collection.lookup_merge merged
      refine ⟨⟨cache,now,?_⟩,?_⟩
      · intro doc found
        change stored id docs = some doc
        rw [written,spared doc found,Option.some_or]
      · intro same
        obtain ⟨doc,found,active⟩ := sound same
        refine ⟨doc,?_,active⟩
        change stored id docs = some doc
        rw [written,found,Option.some_or]
    · cases ran

theorem after_driverTransaction (gentle : Gentle id expiresAt i work) (retries : Nat) (w : World) :
    After i (driverTransaction work retries) w (Renewed id expiresAt w) := by
  induction retries generalizing w with
  | zero => exact after_transaction gentle w
  | succ retries ih =>
    apply After.bind
    apply After.attempt
    refine (after_transaction gentle w).mono ?_
    intro result t renewed
    cases result with
    | ok child => exact renewed
    | error e =>
      cases e with
      | pezhwan kind message code => exact renewed
      | mongo e =>
        dsimp only
        split
        · exact (ih t).mono fun _ _ again => renewed_trans renewed.1 again
        · exact renewed

theorem after_attempts (gentle : Gentle id expiresAt i work) (left : Nat) (w : World) :
    After i (attempts service work left) w (Renewed id expiresAt w) := by
  induction left generalizing w with
  | zero =>
    apply After.bind
    apply After.attempt
    refine (after_driverTransaction gentle service.driverRetries w).mono ?_
    intro result t renewed
    cases result with
    | ok child => exact renewed
    | error e =>
      dsimp only
      split
      · exact renewed
      · exact (gentle t).mono fun _ _ again => renewed_trans renewed.1 again
  | succ left ih =>
    apply After.bind
    apply After.attempt
    refine (after_driverTransaction gentle service.driverRetries w).mono ?_
    intro result t renewed
    cases result with
    | ok child => exact renewed
    | error e =>
      dsimp only
      split
      · exact (ih t).mono fun _ _ again => renewed_trans renewed.1 again
      · exact renewed

theorem after_withTransaction (gentle : Gentle id expiresAt i work) (w : World) :
    After i (withTransaction service work) w (Renewed id expiresAt w) := by
  unfold withTransaction
  split
  · exact after_attempts gentle _ w
  · exact gentle w

end

theorem after_rotate (backed : Backed id w) (ttl : SESSION_CACHE_TTL_SECONDS * 1000 < service.refreshTokenTtlMs)
    (doc : SessionDoc) (other : doc.id ≠ id) (ctx : RefreshContext) (i : CallId) : After i (rotate service doc ctx) w (fun _ t => Backed id t) := by
  apply After.bind
  apply After.zoom
  apply After.atomic
  apply After.bind
  apply After.zoom
  apply After.atomic
  apply After.bind
  refine (after_withTransaction (fun w => after_txBody doc _ rfl other w i) _).mono ?_
  intro result t renewed
  have kept : Backed id t := by
    refine backed_spared ?_ renewed.1
    exact backed
  cases result with
  | error e => exact kept
  | ok child =>
    apply After.bind
    refine after_liveness kept (fun same => absurd same other) fun b now kept => ?_
    apply After.bind
    refine after_liveness kept ?_ fun b _ kept => After.pure kept
    rintro rfl
    obtain ⟨made,known,active,expires⟩ := renewed.2 rfl
    refine ⟨made,known,active,?_⟩
    rw [expires,now,show t.base.now = w.base.now from renewed.1.2.1]
    exact Nat.add_lt_add_left ttl _

theorem after_refresh (backed : Backed id w) (token : String) (ctx : RefreshContext)
    (careful : Careful service id w (.refresh token ctx)) (i : CallId) :
    After i (refresh service token ctx) w (fun _ t => Backed id t) := by
  apply After.bind
  refine after_op ?_ fun e => backed
  intro value t ran
  dsimp only at ran
  split at ran
  · rename_i doc found
    cases ran
    have other := careful.2 doc found
    apply after_rotate _ careful.1 {doc with status := .rotating,revokedAt := some w.base.now} other ctx i
    intro time later marked
    refine (backed time later marked).same fun held known => (Collection.lookup_updateOne_ne ?_ ?_).trans known
    · intro _
      rfl
    · intro matched again
      rw [found] at again
      cases again
      exact other
  · cases ran
    apply After.bind
    refine after_op ?_ fun e => backed
    intro value t ran
    have kept : Backed id t := by
      split at ran <;> cases ran <;> exact backed
    cases value with
    | none => exact After.throw kept
    | some existing =>
      dsimp only
      split
      · apply After.bind
        refine (after_sweep kept i).mono ?_
        intro result u swept
        cases result with
        | ok _ => exact After.throw swept
        | error e => exact swept
      · exact After.throw kept

theorem after_isSessionActive (sessionId : String) (i : CallId) (w : World) :
    After i (isSessionActive sessionId) w (fun result t =>
      (∀ other, Careful service other w (.isSessionActive sessionId) → Backed other w → Backed other t) ∧
      (result = .ok true → Marked sessionId w.base.now w ∨ Lives sessionId w.base.now w.store.docs)) := by
  apply After.bind
  apply After.zoom
  apply After.atomic
  dsimp only
  split
  · rename_i marked
    exact After.pure ⟨fun _ _ backed => backed,fun _ => .inl marked⟩
  · rename_i unmarked
    apply After.bind
    apply After.zoom
    apply After.atomic
    change After i (_ >>= _) w _
    refine After.bind (after_read ?_ fun e => ⟨fun _ _ backed => backed,by simp⟩)
    dsimp only
    cases found : Collection.lookup SessionDoc.id sessionId w.store.docs with
    | none => exact After.pure ⟨fun _ _ backed => backed,by simp⟩
    | some doc =>
      dsimp only
      split
      · rename_i live
        apply After.bind
        apply After.zoom
        apply After.atomic
        refine After.pure ⟨?_,fun _ => .inr ⟨doc,found,live⟩⟩
        intro other careful backed time later marked
        by_cases same : sessionId = other
        · subst same
          exact (careful rfl unmarked ⟨doc,found,live⟩).earlier (set_read w.base.cache marked)
        · exact backed time later ((marked_set w.base same _ _ w.store).mp marked)
      · exact After.pure ⟨fun _ _ backed => backed,by simp⟩

theorem lives_updateOne (kept : ∀ doc, (f doc).id = doc.id)
    (same : ∀ doc, ((f doc).status,(f doc).expiresAt) = (doc.status,doc.expiresAt)) (lives : Lives id time docs) :
    Lives id time (Collection.updateOne p f docs) := by
  obtain ⟨doc,found,live⟩ := lives
  have fields := @Collection.lookup_updateOne _ _ _ _ _ _ id p docs (fun doc => (doc.status,doc.expiresAt)) kept same
  rw [show Collection.lookup SessionDoc.id id docs = some doc from found] at fields
  obtain ⟨updated,known,equal⟩ := Option.map_eq_some_iff.mp fields
  obtain ⟨status,expires⟩ := Prod.mk.inj equal
  exact ⟨updated,known,status ▸ expires ▸ live⟩

theorem after_touch (backed : Backed id w) (sessionId : String) (careful : Careful service id w (.touch sessionId))
    (i : CallId) : After i (touch sessionId) w (fun _ t => Backed id t) := by
  apply After.bind
  apply after_op
  · intro value t ran
    cases ran
    have touched : ∀ time, Lives id time w.store.docs → Lives id time (Collection.updateOne (fun doc => doc.id = sessionId)
        (fun doc => {doc with lastActiveAt := w.base.now}) w.store.docs) :=
      fun time => lives_updateOne (fun _ => rfl) fun _ => rfl
    apply after_liveness
    · exact fun time later marked => touched time (backed time later marked)
    · exact fun same => touched _ (careful same)
    · exact fun _ _ kept => kept
  · exact fun _ => backed

theorem preserves_backed (backed : Backed id w) (call : Call) (careful : Careful service id w call) (i : CallId) :
    Backed id ((program service call).run i w).2 := by
  have ended : After i (program service call) w (fun _ t => Backed id t) := by
    cases call with
    | create ctx => exact After.map (after_create backed careful ctx i)
    | refresh token ctx => exact After.map (after_refresh backed token ctx careful i)
    | revoke sessionId => exact After.map (after_revoke backed sessionId i)
    | revokeFamily familyId => exact After.map (after_sweep backed i)
    | revokeAll userId applicationId tenantId => exact After.map (after_sweep backed i)
    | listActive userId applicationId =>
      apply After.map
      apply After.bind
      exact after_read (After.pure backed) fun _ => backed
    | isSessionActive sessionId =>
      apply After.map
      exact (after_isSessionActive sessionId i w).mono fun _ _ ended => ended.1 id careful backed
    | touch sessionId => exact After.map (after_touch backed sessionId careful i)
  exact ended

theorem passing_backed (backed : Backed id w) (moved : Passing w t) : Backed id t := by
  cases moved with
  | tick later => exact fun time after marked => backed time (Nat.le_trans later after) marked
  | fault error => exact backed
  | evict key => exact fun time later marked => backed time later (marked_del w.base w.store marked).2
  | expire sessionId due =>
    intro time later marked
    obtain ⟨doc,found,active,unexpired⟩ := backed time later marked
    obtain ⟨member,named⟩ := Collection.lookup_some found
    have other : id ≠ sessionId := by
      intro same
      exact Nat.not_lt.mpr (due doc member (named.trans same)) (Nat.lt_of_le_of_lt later unexpired)
    exact ⟨doc,(Collection.lookup_removed other).trans found,active,unexpired⟩

end

-- One session, and the same session rotated away by its refresh token.
def longService : SessionService := {sampleService true with refreshTokenTtlMs := 60000}

def longSignedIn : World :=
  ((program longService (.create ⟨"user","tenant","application",none,none,none⟩)).run 0 (empty 0)).2

def rotatedAway : World := ((program longService (.refresh (sampleRandom.fresh 1) anyContext)).run 1 longSignedIn).2

def halfMinuteOn : World := {longSignedIn with base := {longSignedIn.base with now := 30000}}

end Pezhwan.Session
