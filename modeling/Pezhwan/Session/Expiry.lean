import Pezhwan.Session.Family
import Pezhwan.Session.Total
import Pezhwan.Atomic.Solo

namespace Pezhwan.Session
open Atomic Prog Config

-- Undisturbed rotations return wherever the keys are unique and the random
-- stream is not used up.
structure Roomy (service : SessionService) (w : World) : Prop where
  healthy : w.base.fault = none
  ids : (w.store.docs.map SessionDoc.id).Nodup
  unused : ∀ doc ∈ w.store.docs, ∀ n, w.base.draws.length ≤ n →
    service.random.fresh n ≠ doc.id ∧ service.hashRefreshToken (service.random.fresh n) ≠ doc.currentRefreshTokenHash

theorem owns_used (owns : Owns random draws c text) (later : draws.length ≤ n) : random.fresh n ≠ text := by
  obtain ⟨m,drew,rfl⟩ := owns
  have bound := (List.getElem?_eq_some_iff.mp drew).1
  intro same
  rw [random.fresh_inj] at same
  omega

theorem inv_roomy (valid : Inv service w) (healthy : w.base.fault = none) : Roomy service w where
  healthy := healthy
  ids := valid.current.ids
  unused := by
    intro doc member n later
    obtain ⟨c,birth,made,same⟩ := valid.current.born doc member
    obtain ⟨ownsId,token,ownsToken,hashed⟩ := valid.history.drawn c birth made
    obtain ⟨id,hash,_⟩ := identity_parts same
    refine ⟨id ▸ owns_used ownsId later,?_⟩
    intro clash
    rw [hash,← hashed] at clash
    exact owns_used ownsToken later (service.hash_injective clash)

theorem inv_hash (valid : Inv service w) (one : doc ∈ w.store.docs) (two : other ∈ w.store.docs)
    (same : doc.currentRefreshTokenHash = other.currentRefreshTokenHash) : doc = other := by
  obtain ⟨c,birth,made,identity⟩ := valid.current.born doc one
  obtain ⟨d,origin,born,identity'⟩ := valid.current.born other two
  obtain ⟨id,hash,_⟩ := identity_parts identity
  obtain ⟨id',hash',_⟩ := identity_parts identity'
  have equal := (born_hash valid.history made born (by rw [← hash,same,hash'])).2
  have ids : doc.id = other.id := by rw [id,id',equal]
  have here := Collection.lookup_member valid.current.ids one
  rw [ids,Collection.lookup_member valid.current.ids two] at here
  exact (Option.some.inj here).symm

section
variable {service : SessionService} {parent child : SessionDoc} {w : World} {hash : String}

-- The parent of a rotation is stored as rotating and its child's token is new.
structure Rotatable (service : SessionService) (parent child : SessionDoc) (w : World) : Prop extends Roomy service w where
  rotating : ∃ stored, Collection.lookup SessionDoc.id parent.id w.store.docs = some stored ∧ stored.status = .rotating
  unhashed : ∀ doc ∈ w.store.docs, child.currentRefreshTokenHash ≠ doc.currentRefreshTokenHash

theorem rotatable_free (ready : Rotatable service parent child w) (member : doc ∈ w.store.docs) :
    clash {child with id := service.random.fresh w.base.draws.length} doc = false := by
  simp [clash,(ready.unused doc member _ (Nat.le_refl _)).1,ready.unhashed doc member]

-- The collection after the work of a rotation: whatever is new there clashes
-- with nothing that was there before.
def Admissible (before after : List SessionDoc) : Prop :=
  ∀ doc ∈ after, doc.id ∉ before.map SessionDoc.id → ∀ old ∈ before, clash doc old = false

theorem rotatable_admissible (ready : Rotatable service parent child w) (childId : String) (now : Nat) :
    Admissible w.store.docs (Collection.updateOne (fun doc => doc.id = parent.id) (SessionDoc.replace childId now)
      (w.store.docs ++ [{child with id := service.random.fresh w.base.draws.length}])) := by
  have inserted : ∀ doc ∈ w.store.docs ++ [{child with id := service.random.fresh w.base.draws.length}],
      doc.id ∉ w.store.docs.map SessionDoc.id → ∀ old ∈ w.store.docs, clash doc old = false := by
    intro doc member absent old present
    rcases List.mem_append.mp member with before | last
    · exact absurd (List.mem_map_of_mem before) absent
    · rw [List.mem_singleton.mp last]
      exact rotatable_free ready present
  intro doc member absent old present
  rcases Collection.mem_updateOne member with kept | ⟨origin,found,rfl⟩
  · exact inserted doc kept absent old present
  · exact inserted origin (List.mem_of_find?_eq_some found) absent old present

theorem ends_body (ready : Rotatable service parent child w) {post : String → World → Prop}
    (holds : ∀ id t, t.base.fault = none → Admissible w.store.docs t.store.docs → post id t) :
    Ends i (txBody service parent child) w post := by
  obtain ⟨stored,found,rotating⟩ := ready.rotating
  have free : w.store.docs.any (clash {child with id := service.random.fresh w.base.draws.length}) = false := by
    rw [List.any_eq_false]
    intro doc member
    simp [rotatable_free ready member]
  refine Ends.bind (ends_mongo ready.healthy ?_)
  simp only [insertStep,free,Bool.false_eq_true,if_false]
  refine Ends.bind (ends_read ready.healthy ?_)
  simp only [Collection.lookup_append,found,Option.some_or,Option.map_some,rotating,if_true]
  refine Ends.bind (ends_mongo ready.healthy ?_)
  exact Ends.pure (holds _ _ ready.healthy (rotatable_admissible ready _ _))

theorem merge_alone {snapshot copy : List SessionDoc} (admissible : Admissible snapshot copy) :
    ∃ docs, Collection.merge SessionDoc.id clash snapshot copy snapshot = some docs := by
  refine ⟨_,if_pos ?_⟩
  rw [Bool.and_eq_true,List.all_eq_true,List.all_eq_true]
  constructor
  · intro doc _
    simp
  · intro doc member
    obtain ⟨present,absent⟩ := List.mem_filter.mp member
    rw [List.all_eq_true]
    intro old listed
    simp [admissible doc present (by simpa using absent) old listed]

theorem ends_committed (ready : Rotatable service parent child w) {post : String → World → Prop}
    (holds : ∀ id t, post id t) : Ends i ((txBody service parent child).transaction storeLens commit) w post := by
  refine Ends.transaction (ends_body ready ?_)
  intro id t healthy admissible
  obtain ⟨docs,merged⟩ := merge_alone admissible
  refine ends_mongo healthy ?_
  simp only [storeLens,merged]
  exact holds id _

theorem ends_rotation (ready : Rotatable service parent child w) {post : String → World → Prop}
    (holds : ∀ id t, post id t) : Ends i (withTransaction service (txBody service parent child)) w post := by
  unfold withTransaction
  split
  · refine Ends.bind (Ends.attempt ?_)
    cases service.driverRetries with
    | zero => exact ends_committed ready fun id t => Ends.pure (holds id t)
    | succ retries =>
      refine Ends.bind (Ends.attempt ?_)
      exact ends_committed ready fun id t => Ends.pure (Ends.pure (holds id t))
  · exact ends_body ready fun id t _ _ => holds id t

-- The session as its claim leaves it.
def claimedAt (now : Nat) (doc : SessionDoc) : SessionDoc := {doc with status := .rotating,revokedAt := some now}

theorem claimed_keys {p : SessionDoc → Bool} {docs : List SessionDoc}
    (member : doc ∈ Collection.updateOne p (claimedAt now) docs) :
    ∃ old ∈ docs, doc.id = old.id ∧ doc.currentRefreshTokenHash = old.currentRefreshTokenHash := by
  rcases Collection.mem_updateOne member with kept | ⟨old,found,rfl⟩
  · exact ⟨doc,kept,rfl,rfl⟩
  · exact ⟨old,List.mem_of_find?_eq_some found,rfl,rfl⟩

theorem claimed_rotatable (roomy : Roomy service w) (found : w.store.docs.find? p = some doc) (log : List Entry)
    (ctx : RefreshContext) (b : Base) (healthy : b.fault = none) (draws : b.draws = w.base.draws ++ [i]) (now expiresAt : Nat) :
    Rotatable service (claimedAt w.base.now doc) (childOf (claimedAt w.base.now doc) ctx
        (service.hashRefreshToken (service.random.fresh w.base.draws.length)) now expiresAt)
      ⟨b,Collection.updateOne p (claimedAt w.base.now) w.store.docs,log⟩ where
  healthy := healthy
  ids := by
    have kept := Collection.map_updateOne (g := SessionDoc.id) (p := p) (f := claimedAt w.base.now) (fun _ => rfl) w.store.docs
    exact kept.symm ▸ roomy.ids
  unused := by
    intro other member n later
    obtain ⟨old,present,id,hash⟩ := claimed_keys member
    rw [id,hash]
    refine roomy.unused old present n ?_
    rw [draws,List.length_append] at later
    exact Nat.le_trans (Nat.le_add_right _ _) later
  rotating := by
    have member := List.mem_of_find?_eq_some found
    refine ⟨claimedAt w.base.now doc,?_,rfl⟩
    have kept : ∀ doc, SessionDoc.id (claimedAt w.base.now doc) = SessionDoc.id doc := fun _ => rfl
    have here := Collection.lookup_rewrite kept doc.id doc.id w.store.docs
    rw [if_pos rfl,Collection.lookup_member roomy.ids member,← Collection.updateOne_rewrite _ roomy.ids found] at here
    exact here
  unhashed := by
    intro other member
    obtain ⟨old,present,_,hash⟩ := claimed_keys member
    rw [hash]
    exact (roomy.unused old present _ (Nat.le_refl _)).2

theorem ends_claimed (valid : Inv service w) (healthy : w.base.fault = none) (member : doc ∈ w.store.docs)
    (presented : presents (service.hashRefreshToken token) ctx doc = true) (active : doc.status = .active) :
    Ends i (refresh service token ctx) w fun _ _ => True := by
  have matched : ∃ claimed, w.store.docs.find? (fun doc => presents (service.hashRefreshToken token) ctx doc &&
      decide (doc.status = .active)) = some claimed := by
    refine Option.isSome_iff_exists.mp (List.find?_isSome.mpr ⟨doc,member,?_⟩)
    simp [presented,active]
  obtain ⟨claimed,found⟩ := matched
  refine Ends.bind (ends_mongo healthy ?_)
  simp only [found]
  refine Ends.bind (Ends.zoom (Ends.atomic ?_))
  refine Ends.bind (Ends.zoom (Ends.atomic ?_))
  have ready := claimed_rotatable (inv_roomy valid healthy) found (w.store.log ++ [.claimed i (claimedAt w.base.now claimed)])
    ctx {w.base with draws := w.base.draws ++ [i]} healthy rfl w.base.now (w.base.now + service.refreshTokenTtlMs)
  refine Ends.bind (ends_rotation ready ?_)
  intro id t
  refine Ends.bind (ends_base rfl fun _ b _ => ?_)
  exact Ends.bind (ends_base rfl fun _ b _ => Ends.pure trivial)

-- The presented token's session lapsed, and the claim would find it.
def Lapsed (service : SessionService) (token : String) (ctx : RefreshContext) (w : World) : Prop :=
  w.base.fault = none ∧ ∃ doc ∈ w.store.docs, presents (service.hashRefreshToken token) ctx doc = true ∧
    doc.status = .active ∧ doc.expiresAt ≤ w.base.now

-- A refresh about to make its claim returns a session only for a token whose
-- session has its expiry ahead of it.
def RefusesExpired (service : SessionService) (i : CallId) (token : String) (ctx : RefreshContext) (c : Pool) : Prop :=
  ∀ c₁ c₂ created, advance (program service) (fun _ _ => true) c (.act i) = some c₁ →
    Runs (program service) Surroundings Anything c₁ c₂ → c₂.Finished i (.refresh token ctx) (.ok (.session created)) →
    ∀ doc ∈ c.state.store.docs, doc.currentRefreshTokenHash = service.hashRefreshToken token →
      c.state.base.now < doc.expiresAt

theorem claim_opening (hash : String) (ctx : RefreshContext) (i : CallId) (w : World) : ((claim hash ctx).opening i w).1 =
    match w.base.fault with
    | some e => .done (.error (.mongo e))
    | none => .done (.ok ((w.store.docs.find? fun doc => presents hash ctx doc && decide (doc.status = .active)).map
        (claimedAt w.base.now))) := by
  unfold claim op mongo Prog.tryAtomic Prog.opening
  cases fault : w.base.fault with
  | some e => simp [fault]
  | none =>
    cases found : w.store.docs.find? fun doc => presents hash ctx doc && decide (doc.status = .active) with
    | none => simp [fault,found,Except.mapError]
    | some doc => simp [fault,found,Except.mapError,claimedAt]

theorem presents_hash (presented : presents hash ctx doc = true) : doc.currentRefreshTokenHash = hash := by
  simp only [presents,Bool.and_eq_true,decide_eq_true_eq] at presented
  exact presented.1.1

theorem refresh_claims (service : SessionService) (token : String) (ctx : RefreshContext) :
    ∃ rest, program service (.refresh token ctx) = claim (service.hashRefreshToken token) ctx >>= rest ∧
      (rest none).Yields fun _ => False := by
  refine ⟨_,map_bind _ _ _,?_⟩
  refine Yields.bind (P := fun _ => False) ?_ fun _ never => never.elim
  refine Yields.bind (Yields.any _) fun found _ => ?_
  cases found with
  | none => exact Yields.throw _
  | some existing =>
    dsimp only
    split
    · exact Yields.bind (Yields.any _) fun _ _ => Yields.throw _
    · exact Yields.throw _

theorem claim_yields (valid : Inv service w) (unlapsed : ¬Lapsed service token ctx w) :
    ((program service (.refresh token ctx)).opening i w).1.Yields fun _ => ∀ doc ∈ w.store.docs,
      doc.currentRefreshTokenHash = service.hashRefreshToken token → w.base.now < doc.expiresAt := by
  obtain ⟨rest,whole,refused⟩ := refresh_claims service token ctx
  have first : ((claim (service.hashRefreshToken token) ctx >>= rest).opening i w).1 =
    ((claim (service.hashRefreshToken token) ctx).opening i w).1 >>= rest := rfl
  rw [whole,first,claim_opening]
  cases fault : w.base.fault with
  | some e => trivial
  | none =>
    cases found : w.store.docs.find? fun doc => presents (service.hashRefreshToken token) ctx doc && decide (doc.status = .active) with
    | some doc =>
      refine Yields.const ?_ _
      intro other member hash
      have present := List.mem_of_find?_eq_some found
      have matched := List.find?_some found
      simp only [Bool.and_eq_true,decide_eq_true_eq] at matched
      have same := inv_hash valid member present (hash.trans (presents_hash matched.1).symm)
      subst same
      by_contra late
      exact unlapsed ⟨fault,other,present,matched.1,matched.2,Nat.le_of_not_lt late⟩
    | none => exact refused.mono fun never => never.elim

theorem advance_claim {c : Pool} (waiting : c.calls i = some (.refresh token ctx,program service (.refresh token ctx))) :
    advance (program service) (fun _ _ => true) c (.act i) = some
      ⟨((program service (.refresh token ctx)).opening i c.state).2,Function.update c.calls i
        (some (.refresh token ctx,((program service (.refresh token ctx)).opening i c.state).1))⟩ := by
  obtain ⟨rest,whole,_⟩ := refresh_claims service token ctx
  rw [whole] at waiting ⊢
  simp only [advance,waiting]
  rfl

theorem lapsed_returns {c : Pool} (valid : Inv service c.state) (lapsed : Lapsed service token ctx c.state)
    (waiting : c.calls i = some (.refresh token ctx,program service (.refresh token ctx))) :
    ¬RefusesExpired service i token ctx c := by
  intro refuses
  obtain ⟨healthy,doc,member,presented,active,late⟩ := lapsed
  have ends : Ends i (program service (.refresh token ctx)) c.state fun reply _ => ∃ created, reply = .session created :=
    Ends.bind ((ends_claimed valid healthy member presented active).mono fun created _ _ => Ends.pure ⟨created,rfl⟩)
  obtain ⟨reply,t,returned,created,rfl⟩ := ends
  let first := (program service (.refresh token ctx)).opening i c.state
  let c₁ : Pool := ⟨first.2,Function.update c.calls i (some (.refresh token ctx,first.1))⟩
  obtain ⟨c₂,onward,finished⟩ : ∃ c₂, Runs (program service) Surroundings Anything c₁ c₂ ∧
      c₂.Finished i (.refresh token ctx) (first.1.run i c₁.state).1 := runs_alone (Function.update_self i _ _)
  have ran := congrArg Prod.fst returned
  rw [run_opening] at ran
  rw [ran] at finished
  have early := refuses _ c₂ created (advance_claim waiting) onward finished doc member (presents_hash presented)
  omega

-- An expired token is refused exactly when the TTL index has been there first:
-- the claim finds any active session.
theorem expired_refused_iff (service : SessionService) (now : Nat) (c : Pool) (i : CallId) (token : String)
    (ctx : RefreshContext) (path : Reached service Anything now c)
    (waiting : c.calls i = some (.refresh token ctx,program service (.refresh token ctx))) :
    RefusesExpired service i token ctx c ↔ ¬Lapsed service token ctx c.state := by
  constructor
  · intro refuses lapsed
    exact lapsed_returns (reached_inv path) lapsed waiting refuses
  · intro unlapsed c₁ c₂ created advanced onward finished
    cases (advance_claim waiting).symm.trans advanced
    exact onward.returned (Function.update_self i _ _) (claim_yields (reached_inv path) unlapsed) finished

end

-- A client signs in and asks for a refresh.
def asking (service : SessionService) (i : CallId) (token : String) (ctx : RefreshContext) (c : Pool) : Pool :=
  {c with calls := Function.update c.calls i (some (.refresh token ctx,program service (.refresh token ctx)))}

theorem asking_waiting (service : SessionService) (i : CallId) (token : String) (ctx : RefreshContext) (c : Pool) :
    (asking service i token ctx c).calls i = some (.refresh token ctx,program service (.refresh token ctx)) :=
  Function.update_self i _ c.calls

theorem asking_reached {service : SessionService} (path : Reached service Anything now c) (free : c.calls i = none)
    (token : String) (ctx : RefreshContext) : Reached service Anything now (asking service i token ctx c) :=
  path.tail (.start i (.refresh token ctx) free)

def liveUnasked (c : Pool) : Bool :=
  (c.calls 1).isNone && c.state.store.docs.all fun doc => c.state.base.now < doc.expiresAt

theorem expired_refused_live : ∃ c, Reached (sampleService true) Anything 0 c ∧
    RefusesExpired (sampleService true) 1 "xx" anyContext c := by
  have played : (play (program (sampleService true)) (fun _ _ => true) (start (empty 0)) loggedIn).any liveUnasked = true := by
    decide +kernel
  obtain ⟨c,path,passed⟩ := play_exists (fun _ _ _ => trivial) played
  simp only [liveUnasked,Bool.and_eq_true,Option.isNone_iff_eq_none,List.all_eq_true,decide_eq_true_eq] at passed
  have asked := asking_reached path passed.1 "xx" anyContext
  refine ⟨_,asked,(expired_refused_iff (sampleService true) 0 _ 1 "xx" anyContext asked (asking_waiting _ _ _ _ _)).mpr ?_⟩
  intro lapsed
  obtain ⟨_,doc,member,_,_,late⟩ := lapsed
  exact absurd (passed.2 doc member) (Nat.not_lt.mpr late)

-- The same after the session's time is up, the TTL index not having come round.
def lapsedUnasked (c : Pool) : Bool :=
  (c.calls 1).isNone && c.state.base.fault.isNone && decide (c.state.base.now ≤ 2000) &&
    c.state.store.docs.any fun doc => presents ((sampleService true).hashRefreshToken "xx") anyContext doc &&
      decide (doc.status = .active) && decide (doc.expiresAt ≤ 2000)

theorem expired_refreshes : ¬∀ (service : SessionService) (now : Nat) (c : Pool) (i : CallId) (token : String)
    (ctx : RefreshContext), Reached service Anything now c →
    c.calls i = some (.refresh token ctx,program service (.refresh token ctx)) → RefusesExpired service i token ctx c := by
  intro all
  have played : (play (program (sampleService true)) (fun _ _ => true) (start (empty 0)) loggedIn).any lapsedUnasked = true := by
    decide +kernel
  obtain ⟨c,path,passed⟩ := play_exists (fun _ _ _ => trivial) played
  simp only [lapsedUnasked,Bool.and_eq_true,Option.isNone_iff_eq_none,List.any_eq_true,decide_eq_true_eq] at passed
  obtain ⟨⟨⟨unasked,healthy⟩,early⟩,doc,member,⟨presented,active⟩,late⟩ := passed
  have waited : Reached (sampleService true) Anything 0 {c with state := {c.state with base := {c.state.base with now := 2000}}} :=
    path.tail (.other (.tick early))
  have asked := asking_reached waited unasked "xx" anyContext
  refine lapsed_returns (reached_inv asked) ?_ (asking_waiting _ _ _ _ _)
    (all (sampleService true) 0 _ 1 "xx" anyContext asked (asking_waiting _ _ _ _ _))
  exact ⟨healthy,doc,member,presented,active,late⟩

end Pezhwan.Session
