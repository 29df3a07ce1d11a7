import Pezhwan.Session.Frame
import Pezhwan.Atomic.After

namespace Pezhwan.Session
open Atomic Prog

-- A session that is not started anew keeps its token and its user, and never
-- becomes active again.
def Ages (old doc : SessionDoc) : Prop :=
  doc.currentRefreshTokenHash = old.currentRefreshTokenHash ∧ doc.userId = old.userId ∧
    (doc.status = .active → old.status = .active)

theorem ages_refl (doc : SessionDoc) : Ages doc doc := ⟨rfl,rfl,id⟩

theorem ages_trans (one : Ages old doc) (two : Ages doc later) : Ages old later :=
  ⟨two.1.trans one.1,two.2.1.trans one.2.1,fun active => one.2.2 (two.2.2 active)⟩

-- The sessions have aged, apart from those that satisfy `made`.
structure Grown (made : SessionDoc → Prop) (s t : World) : Prop where
  draws : s.base.draws.length ≤ t.base.draws.length
  docs : ∀ doc ∈ t.store.docs, (∃ old ∈ s.store.docs, Ages old doc) ∨ made doc

def Aged (s t : World) : Prop := Grown (fun _ => False) s t

section
variable {made : SessionDoc → Prop}

theorem grown_refl (w : World) : Grown made w w := ⟨Nat.le_refl _,fun doc member => .inl ⟨doc,member,ages_refl doc⟩⟩

theorem grown_trans (closed : ∀ {old doc}, Ages old doc → made old → made doc) (one : Grown made s t)
    (two : Grown made t u) : Grown made s u := by
  constructor
  · exact Nat.le_trans one.draws two.draws
  · intro doc member
    rcases two.docs doc member with ⟨middle,present,aged⟩ | new
    · rcases one.docs middle present with ⟨old,listed,before⟩ | new
      · exact .inl ⟨old,listed,ages_trans before aged⟩
      · exact .inr (closed aged new)
    · exact .inr new

theorem aged_refl (w : World) : Aged w w := grown_refl w

theorem aged_trans (one : Aged s t) (two : Aged t u) : Aged s u := grown_trans (fun _ never => never) one two

theorem aged_grown (aged : Aged s t) : Grown made s t :=
  ⟨aged.draws,fun doc member => (aged.docs doc member).imp_right False.elim⟩

theorem aged_docs {s : World} {b : Base} (draws : s.base.draws.length ≤ b.draws.length)
    (docs : ∀ doc ∈ store.docs, ∃ old ∈ s.store.docs, Ages old doc) : Aged s ⟨b,store⟩ :=
  ⟨draws,fun doc member => .inl (docs doc member)⟩
end

theorem aged_base {p : Prog CallId Base Error α} (keeps : p.Keeps fun a b => a.draws.length ≤ b.draws.length) :
    (base p).Keeps Aged :=
  keeps.zoom fun _ _ more => aged_docs more fun doc member => ⟨doc,member,ages_refl doc⟩

theorem aged_op {f : CallId → World → Except MongoError (α × World)}
    (step : ∀ i w value t, f i w = .ok (value,t) → Aged w t) : (op f).Keeps Aged :=
  keeps_mongo aged_refl step

theorem aged_read (f : List SessionDoc → α) : (read f).Keeps Aged := by
  apply aged_op
  intro i w value t ran
  cases ran
  exact aged_refl w

theorem updateOne_ages {p : SessionDoc → Bool} {f : SessionDoc → SessionDoc} (ages : ∀ doc, Ages doc (f doc))
    (docs : List SessionDoc) : ∀ doc ∈ Collection.updateOne p f docs, ∃ old ∈ docs, Ages old doc := by
  induction docs with
  | nil => intro doc member; cases member
  | cons head rest ih =>
    intro doc member
    unfold Collection.updateOne at member
    split at member
    · rcases List.mem_cons.mp member with rfl | later
      · exact ⟨head,List.mem_cons_self,ages head⟩
      · exact ⟨doc,List.mem_cons_of_mem _ later,ages_refl doc⟩
    · rcases List.mem_cons.mp member with rfl | later
      · exact ⟨doc,List.mem_cons_self,ages_refl doc⟩
      · obtain ⟨old,present,aged⟩ := ih doc later
        exact ⟨old,List.mem_cons_of_mem _ present,aged⟩

theorem updateMany_ages {p : SessionDoc → Bool} {f : SessionDoc → SessionDoc} (ages : ∀ doc, Ages doc (f doc))
    (docs : List SessionDoc) : ∀ doc ∈ Collection.updateMany p f docs, ∃ old ∈ docs, Ages old doc := by
  intro doc member
  obtain ⟨old,present,rfl⟩ := Collection.mem_updateMany.mp member
  refine ⟨old,present,?_⟩
  split
  · exact ages old
  · exact ages_refl old

theorem ages_revoke (now : Nat) (doc : SessionDoc) : Ages doc (doc.revoke now) := ⟨rfl,rfl,fun active => nomatch active⟩

theorem ages_replace (childId : String) (now : Nat) (doc : SessionDoc) : Ages doc (doc.replace childId now) :=
  ⟨rfl,rfl,fun active => nomatch active⟩

theorem aged_updateById (sessionId : String) {f : Nat → SessionDoc → SessionDoc} (ages : ∀ now doc, Ages doc (f now doc)) :
    (updateById sessionId f).Keeps Aged := by
  apply aged_op
  intro i w value t ran
  cases ran
  exact aged_docs (Nat.le_refl _) (updateOne_ages (ages w.base.now) _)

theorem aged_sweep (p : SessionDoc → Bool) (entry : CallId → Entry) :
    (op fun i w => .ok ((),w.withDocs (Collection.updateMany p (SessionDoc.revoke w.base.now) w.store.docs)
      [entry i])).Keeps Aged := by
  apply aged_op
  intro i w value t ran
  cases ran
  exact aged_docs (Nat.le_refl _) (updateMany_ages (ages_revoke w.base.now) _)

theorem aged_cacheGet (key : CacheKey) : (base (cacheGet key)).Keeps Aged :=
  aged_base (Keeps.atomic fun _ _ => Nat.le_refl _)

theorem aged_cacheSet (key : CacheKey) (value : CacheValue) (ttlSeconds : Nat) :
    (base (cacheSet key value ttlSeconds)).Keeps Aged := aged_base (Keeps.atomic fun _ _ => Nat.le_refl _)

theorem aged_cacheDel (key : CacheKey) : (base (cacheDel key)).Keeps Aged :=
  aged_base (Keeps.atomic fun _ _ => Nat.le_refl _)

theorem aged_clock : (base clock).Keeps Aged := aged_base (Keeps.atomic fun _ _ => Nat.le_refl _)

theorem aged_draw (random : Random) : (base (draw random)).Keeps Aged := aged_base (Keeps.atomic fun _ b => by simp)

theorem aged_revoke (sessionId : String) : (revoke sessionId).Keeps Aged :=
  Keeps.bind (aged_updateById _ ages_revoke) fun _ => aged_cacheDel _

theorem aged_enforceSessionLimit (service : SessionService) (userId applicationId : String) :
    (enforceSessionLimit service userId applicationId).Keeps Aged := by
  apply Keeps.bind (aged_read _)
  intro count
  split
  · apply Keeps.bind (aged_read _)
    intro found
    cases found with
    | some doc => exact aged_revoke _
    | none => exact Keeps.pure _
  · exact Keeps.pure _

theorem aged_revokeFamily (familyId : String) : (revokeFamily familyId).Keeps Aged := by
  apply Keeps.bind (aged_read _)
  intro sessions
  apply Keeps.bind (aged_sweep _ _)
  intro _
  exact Keeps.forEach (fun _ => aged_cacheDel _) _

theorem aged_revokeAll (userId : String) (applicationId tenantId : Option String) :
    (revokeAll userId applicationId tenantId).Keeps Aged := by
  apply Keeps.bind (aged_read _)
  intro docs
  apply Keeps.bind (aged_sweep _ _)
  intro _
  exact Keeps.forEach (fun _ => aged_cacheDel _) _

theorem aged_isSessionActive (sessionId : String) : (isSessionActive sessionId).Keeps Aged := by
  apply Keeps.bind (aged_cacheGet _)
  intro cached
  split
  · exact Keeps.pure _
  · apply Keeps.bind aged_clock
    intro now
    apply Keeps.bind (aged_read _)
    intro found
    cases found with
    | none => exact Keeps.pure _
    | some doc =>
      dsimp only
      split
      · exact Keeps.bind (aged_cacheSet _ _ _) fun _ => Keeps.pure _
      · exact Keeps.pure _

theorem aged_touch (sessionId : String) : (touch sessionId).Keeps Aged :=
  Keeps.bind (aged_updateById _ fun _ _ => ⟨rfl,rfl,id⟩) fun _ => aged_cacheSet _ _ _

theorem aged_findPresented (hash : String) (ctx : RefreshContext) : (findPresented hash ctx).Keeps Aged := by
  apply aged_op
  intro i w value t ran
  split at ran
  · cases ran
    exact aged_docs (Nat.le_refl _) fun doc member => ⟨doc,member,ages_refl doc⟩
  · cases ran
    exact aged_refl w

theorem aged_claim (hash : String) (ctx : RefreshContext) : (claim hash ctx).Keeps Aged := by
  apply aged_op
  intro i w value t ran
  dsimp only at ran
  split at ran
  · cases ran
    apply aged_docs (Nat.le_refl _)
    apply updateOne_ages
    intro doc
    exact ⟨rfl,rfl,fun active => nomatch active⟩
  · cases ran
    exact aged_refl w

theorem grown_insert {made : SessionDoc → Prop} {random : Random} (new : ∀ id, made {doc with id})
    (entry : CallId → SessionDoc → Entry) : (insert random doc entry).Keeps (Grown made) := by
  apply Keeps.tryAtomic grown_refl
  intro i w value t ran
  split at ran
  · cases ran
  · unfold insertStep at ran
    dsimp only at ran
    split at ran
    · cases ran
    · cases ran
      constructor
      · simp
      · intro other member
        rcases List.mem_append.mp member with before | last
        · exact .inl ⟨other,before,ages_refl other⟩
        · rw [List.mem_singleton.mp last]
          exact .inr (new _)

section
variable {made : SessionDoc → Prop} (closed : ∀ {old doc}, Ages old doc → made old → made doc)

theorem grown_txBody (service : SessionService) (parent : SessionDoc) (new : ∀ id, made {child with id}) :
    (txBody service parent child).Keeps (Grown made) := by
  apply Keeps.bind (grown_insert new _)
  intro newSession
  apply Keeps.bind ((aged_read _).mono aged_grown)
  intro parentState
  split
  · exact Keeps.bind ((aged_updateById _ (ages_replace _)).mono aged_grown) fun _ => Keeps.pure _
  · exact Keeps.throw _

-- What the copy of a transaction holds is what its commit can bring in.
theorem grown_transaction {work : Program α} (moves : work.Moves (Grown made)) :
    (work.transaction storeLens commit).Moves (Grown made) := by
  intro i w
  apply After.transaction
  apply (moves i w).mono
  intro result t grown
  have undone : Grown made w ⟨t.base,w.store⟩ := ⟨grown.draws,(grown_refl w).docs⟩
  cases result with
  | error e => exact undone
  | ok value =>
    refine After.tryAtomic ?_ fun e _ => undone
    intro committed u ran
    split at ran
    · cases ran
    · dsimp only at ran
      split at ran
      · rename_i docs merged
        cases ran
        constructor
        · exact grown.draws
        · intro doc member
          rcases Collection.mem_merge merged member with copied | kept
          · exact grown.docs doc copied
          · exact .inl ⟨doc,kept,ages_refl doc⟩
      · cases ran

include closed

theorem grown_driverTransaction {work : Program α} (moves : work.Moves (Grown made)) (retries : Nat) :
    (driverTransaction work retries).Moves (Grown made) := by
  induction retries with
  | zero => exact grown_transaction moves
  | succ retries ih =>
    apply Moves.bind (grown_transaction moves).attempt (grown_trans closed)
    intro result
    cases result with
    | ok out => exact Moves.pure grown_refl _
    | error e =>
      cases e with
      | pezhwan kind message code => exact Moves.throw grown_refl _
      | mongo error =>
        dsimp only
        split
        · exact ih
        · exact Moves.throw grown_refl _

theorem grown_attempts (service : SessionService) {work : Program α} (moves : work.Moves (Grown made)) (left : Nat) :
    (attempts service work left).Moves (Grown made) := by
  induction left with
  | zero =>
    apply Moves.bind (grown_driverTransaction closed moves _).attempt (grown_trans closed)
    intro result
    cases result with
    | ok out => exact Moves.pure grown_refl _
    | error e =>
      dsimp only
      split
      · exact Moves.throw grown_refl _
      · exact moves
  | succ left ih =>
    apply Moves.bind (grown_driverTransaction closed moves _).attempt (grown_trans closed)
    intro result
    cases result with
    | ok out => exact Moves.pure grown_refl _
    | error e =>
      dsimp only
      split
      · exact ih
      · exact Moves.throw grown_refl _

theorem grown_withTransaction (service : SessionService) {work : Program α} (moves : work.Moves (Grown made)) :
    (withTransaction service work).Moves (Grown made) := by
  unfold withTransaction
  split
  · exact grown_attempts closed service moves _
  · exact moves

end

section
variable (service : SessionService)

-- The session of the user whose token is the n-th text drawn.
def Holds (n : Nat) (userId : String) (doc : SessionDoc) : Prop :=
  doc.currentRefreshTokenHash = service.hashRefreshToken (service.random.fresh n) ∧ doc.userId = userId

-- Since `s`, sessions have aged, and each new one has a token drawn since then.
def Evolves (s t : World) : Prop := ∃ owner : Nat → String,
  Grown (fun doc => ∃ n, s.base.draws.length ≤ n ∧ n < t.base.draws.length ∧ Holds service n (owner n) doc) s t

variable {service}

theorem holds_closed (ages : Ages old doc) (holds : Holds service n userId old) : Holds service n userId doc :=
  ⟨ages.1.trans holds.1,ages.2.1.trans holds.2⟩

theorem aged_evolves (aged : Aged s t) : Evolves service s t := ⟨fun _ => "",aged_grown aged⟩

theorem evolves_refl (w : World) : Evolves service w w := aged_evolves (aged_refl w)

theorem evolves_trans (one : Evolves service s t) (two : Evolves service t u) : Evolves service s u := by
  obtain ⟨first,before⟩ := one
  obtain ⟨second,after⟩ := two
  have forward := before.draws
  have onward := after.draws
  refine ⟨fun n => if n < t.base.draws.length then first n else second n,Nat.le_trans forward onward,?_⟩
  intro doc member
  rcases after.docs doc member with ⟨middle,present,aged⟩ | ⟨n,low,high,holds⟩
  · rcases before.docs middle present with ⟨old,listed,earlier⟩ | ⟨n,low,high,holds⟩
    · exact .inl ⟨old,listed,ages_trans earlier aged⟩
    · refine .inr ⟨n,low,by omega,?_⟩
      dsimp only
      rw [if_pos high]
      exact holds_closed aged holds
  · refine .inr ⟨n,by omega,high,?_⟩
    dsimp only
    rw [if_neg (by omega)]
    exact holds

theorem evolves_aged {p : Program α} (aged : p.Keeps Aged) : p.Moves (Evolves service) :=
  (aged.moves aged_refl aged_trans).mono aged_evolves

theorem evolves_drawn {f : String → Program α} (userId : String)
    (each : ∀ n, (f (service.random.fresh n)).Moves (Grown (Holds service n userId))) :
    (base (draw service.random) >>= f).Moves (Evolves service) := by
  intro i w
  apply After.bind
  apply After.zoom
  apply After.atomic
  apply (each w.base.draws.length i _).mono
  intro result t grown
  have drawn : (w.base.draws ++ [i]).length ≤ t.base.draws.length := grown.draws
  simp only [List.length_append,List.length_singleton] at drawn
  refine ⟨fun _ => userId,by omega,?_⟩
  intro doc member
  rcases grown.docs doc member with kept | new
  · exact .inl kept
  · exact .inr ⟨_,Nat.le_refl _,by omega,new⟩

theorem evolves_create (ctx : SessionContext) : (create service ctx).Moves (Evolves service) := by
  apply Moves.bind (evolves_aged (aged_enforceSessionLimit _ _ _)) evolves_trans
  intro _
  apply Moves.bind (evolves_aged (aged_draw _)) evolves_trans
  intro familyId
  apply evolves_drawn ctx.userId
  intro n
  apply Keeps.moves (r := Grown _)
  · apply Keeps.bind (aged_clock.mono aged_grown)
    intro now
    apply Keeps.bind (grown_insert (fun id => ⟨rfl,rfl⟩) _)
    intro doc
    exact Keeps.bind ((aged_cacheSet _ _ _).mono aged_grown) fun _ => Keeps.pure _
  · exact grown_refl
  · exact grown_trans holds_closed

theorem evolves_rotate (doc : SessionDoc) (ctx : RefreshContext) : (rotate service doc ctx).Moves (Evolves service) := by
  apply Moves.bind (evolves_aged aged_clock) evolves_trans
  intro now
  apply evolves_drawn doc.userId
  intro n
  have body : (txBody service doc (childOf doc ctx (service.hashRefreshToken (service.random.fresh n)) now
      (now + service.refreshTokenTtlMs))).Keeps (Grown (Holds service n doc.userId)) :=
    grown_txBody service doc fun id => ⟨rfl,rfl⟩
  apply Moves.bind (grown_withTransaction holds_closed service (body.moves grown_refl (grown_trans holds_closed)))
    (grown_trans holds_closed)
  intro childId
  apply Keeps.moves (r := Grown _)
  · apply Keeps.bind ((aged_cacheSet _ _ _).mono aged_grown)
    intro _
    exact Keeps.bind ((aged_cacheSet _ _ _).mono aged_grown) fun _ => Keeps.pure _
  · exact grown_refl
  · exact grown_trans holds_closed

theorem evolves_refresh (token : String) (ctx : RefreshContext) : (refresh service token ctx).Moves (Evolves service) := by
  apply Moves.bind (evolves_aged (aged_claim _ _)) evolves_trans
  intro claimed
  cases claimed with
  | some doc => exact evolves_rotate doc ctx
  | none =>
    apply Moves.bind (evolves_aged (aged_findPresented _ _)) evolves_trans
    intro found
    cases found with
    | none => exact Moves.throw evolves_refl _
    | some existing =>
      apply evolves_aged
      dsimp only
      split
      · exact Keeps.bind (aged_revokeFamily _) fun _ => Keeps.throw _
      · exact Keeps.throw _

theorem evolves_program (call : Call) : (program service call).Moves (Evolves service) := by
  cases call with
  | create ctx => exact (evolves_create ctx).map
  | refresh token ctx => exact (evolves_refresh token ctx).map
  | revoke id => exact (evolves_aged (aged_revoke id)).map
  | revokeFamily family => exact (evolves_aged (aged_revokeFamily family)).map
  | revokeAll user application tenant => exact (evolves_aged (aged_revokeAll user application tenant)).map
  | listActive user application =>
    exact (evolves_aged (Keeps.bind (aged_read _) fun _ => Keeps.pure _)).map
  | isSessionActive id => exact (evolves_aged (aged_isSessionActive id)).map
  | touch id => exact (evolves_aged (aged_touch id)).map

-- No active session has the token.
def Dead (service : SessionService) (token : String) (docs : List SessionDoc) : Prop :=
  ∀ doc ∈ docs, doc.currentRefreshTokenHash = service.hashRefreshToken token → doc.status ≠ .active

theorem dead_evolves (dead : Dead service (service.random.fresh n) s.store.docs) (drawn : n < s.base.draws.length)
    (evolves : Evolves service s t) : Dead service (service.random.fresh n) t.store.docs := by
  obtain ⟨owner,grown⟩ := evolves
  intro doc member hash active
  rcases grown.docs doc member with ⟨old,present,ages⟩ | ⟨m,low,_,holds⟩
  · exact dead old present (ages.1.symm.trans hash) (ages.2.2 active)
  · have same := service.random.injective (service.hash_injective (hash.symm.trans holds.1))
    omega

theorem refresh_dead (dead : Dead service token w.store.docs) (ctx : RefreshContext) (created : CreatedSession) :
    ¬ Returns i (refresh service token ctx) w created t := by
  intro returned
  obtain ⟨claimed,u,first,second⟩ := returns_bind.mp returned
  obtain ⟨_,ran⟩ := returns_mongo.mp first
  dsimp only at ran
  split at ran
  · rename_i doc found
    have matched := List.find?_some found
    simp only [presents,Bool.and_eq_true,decide_eq_true_eq] at matched
    exact dead doc (List.mem_of_find?_eq_some found) matched.1.1.1 matched.2
  · cases ran
    obtain ⟨existing,v,_,third⟩ := returns_bind.mp second
    cases existing with
    | none => exact returns_throw third
    | some doc =>
      dsimp only at third
      split at third
      · obtain ⟨_,_,_,fourth⟩ := returns_bind.mp third
        exact returns_throw fourth
      · exact returns_throw third

theorem revokeAll_dead {userId : String} {applicationId tenantId : Option String}
    (returned : Returns i (revokeAll userId applicationId tenantId) w value t)
    (found : ∀ doc ∈ w.store.docs, doc.currentRefreshTokenHash = service.hashRefreshToken token → doc.status = .active →
      ownedBy userId applicationId tenantId doc = true) : Dead service token t.store.docs := by
  obtain ⟨docs,u,looked,swept⟩ := returns_bind.mp returned
  obtain ⟨_,v,revoked,cleaned⟩ := returns_bind.mp swept
  obtain ⟨_,same⟩ := returns_mongo.mp looked
  cases same
  obtain ⟨_,ran⟩ := returns_mongo.mp revoked
  cases ran
  have tail := ((Keeps.forEach (fun _ => aged_cacheDel _) _).moves aged_refl aged_trans).returns cleaned
  intro doc member hash active
  obtain ⟨middle,present,ages⟩ := (tail.docs doc member).resolve_right id
  have known : middle.currentRefreshTokenHash = service.hashRefreshToken token := ages.1.symm.trans hash
  have live := ages.2.2 active
  obtain ⟨old,listed,rfl⟩ := Collection.mem_updateMany.mp present
  split at live
  · cases live
  · rename_i missed
    rw [if_neg missed] at known
    exact missed (found old listed known live)

end
end Pezhwan.Session
