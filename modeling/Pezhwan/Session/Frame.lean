import Pezhwan.Session.Service
import Pezhwan.Atomic.Frame

namespace Pezhwan
open Atomic Prog

-- The cached account state of a user, as a read at this moment sees it.
def Base.account (b : Base) (userId : String) : Option CacheValue := b.cache.get b.now (.accountState userId)

-- Nothing an account check reads from the cache or the clock has moved.
def Base.Calm (a b : Base) : Prop :=
  b.now = a.now ∧ b.fault = a.fault ∧ ∀ userId, b.account userId = a.account userId

theorem calm_refl (b : Base) : b.Calm b := ⟨rfl,rfl,fun _ => rfl⟩

theorem calm_trans {a b c : Base} (one : a.Calm b) (two : b.Calm c) : a.Calm c :=
  ⟨two.1.trans one.1,two.2.1.trans one.2.1,fun userId => (two.2.2 userId).trans (one.2.2 userId)⟩

theorem calm_draw (b : Base) (draws : List CallId) : b.Calm {b with draws} := ⟨rfl,rfl,fun _ => rfl⟩

def CacheKey.isAccountState : CacheKey → Bool
  | .accountState _ => true
  | _ => false

theorem account_ne (other : key.isAccountState = false) (userId : String) : CacheKey.accountState userId ≠ key := by
  rintro rfl
  cases other

theorem keeps_clock : clock.Keeps Base.Calm := Keeps.atomic fun _ b => calm_refl b
theorem keeps_draw (random : Random) : (draw random).Keeps Base.Calm := Keeps.atomic fun _ b => calm_draw b _

theorem keeps_cacheSet (other : key.isAccountState = false) (value : CacheValue) (ttlSeconds : Nat) :
    (cacheSet key value ttlSeconds).Keeps Base.Calm :=
  Keeps.atomic fun _ b => ⟨rfl,rfl,fun userId => Cache.get_set_ne b.cache b.now b.now value ttlSeconds (account_ne other userId)⟩

theorem keeps_cacheDel (other : key.isAccountState = false) : (cacheDel key).Keeps Base.Calm :=
  Keeps.atomic fun _ b => ⟨rfl,rfl,fun userId => Cache.get_del_ne b.cache b.now (account_ne other userId)⟩

-- Besides, nothing is drawn.
def Base.Still (a b : Base) : Prop := a.Calm b ∧ b.draws = a.draws

theorem still_clock : clock.Keeps Base.Still := Keeps.atomic fun _ b => ⟨calm_refl b,rfl⟩
theorem still_cacheGet (key : CacheKey) : (cacheGet key).Keeps Base.Still := Keeps.atomic fun _ b => ⟨calm_refl b,rfl⟩

theorem still_cacheSet (other : key.isAccountState = false) (value : CacheValue) (ttlSeconds : Nat) :
    (cacheSet key value ttlSeconds).Keeps Base.Still :=
  Keeps.atomic fun i b => ⟨(keeps_cacheSet other value ttlSeconds i b).1,rfl⟩

theorem still_cacheDel (other : key.isAccountState = false) : (cacheDel key).Keeps Base.Still :=
  Keeps.atomic fun i b => ⟨(keeps_cacheDel other i b).1,rfl⟩

namespace Session

def Calm (s t : World) : Prop := s.base.Calm t.base

theorem keeps_base {p : Prog CallId Base Error α} (keeps : p.Keeps Base.Calm) : (base p).Keeps Calm :=
  keeps.zoom fun _ _ moved => moved

theorem keeps_op {f : CallId → World → Except MongoError (α × World)}
    (step : ∀ i w value t, f i w = .ok (value,t) → w.base.Calm t.base) : (op f).Keeps Calm :=
  keeps_mongo (fun w => calm_refl w.base) step

theorem keeps_read (f : List SessionDoc → α) : (read f).Keeps Calm := by
  apply keeps_op
  intro i w value t ran
  cases ran
  exact calm_refl w.base

theorem keeps_updateById (sessionId : String) (f : Nat → SessionDoc → SessionDoc) : (updateById sessionId f).Keeps Calm := by
  apply keeps_op
  intro i w value t ran
  cases ran
  exact calm_refl w.base

theorem keeps_insert (random : Random) (doc : SessionDoc) (entry : CallId → SessionDoc → Entry) :
    (insert random doc entry).Keeps Calm := by
  apply keeps_op
  intro i w value t ran
  unfold insertStep at ran
  dsimp only at ran
  split at ran
  · cases ran
  · cases ran
    exact calm_draw w.base _

theorem keeps_liveness (sessionId : String) : (cacheLiveness sessionId).Keeps Calm :=
  keeps_base (keeps_cacheSet rfl _ _)

theorem keeps_revoke (sessionId : String) : (revoke sessionId).Keeps Calm :=
  Keeps.bind (keeps_updateById _ _) fun _ => keeps_base (keeps_cacheDel rfl)

theorem keeps_enforceSessionLimit (service : SessionService) (userId applicationId : String) :
    (enforceSessionLimit service userId applicationId).Keeps Calm := by
  refine Keeps.bind (keeps_read _) fun count => ?_
  split
  · refine Keeps.bind (keeps_read _) fun found => ?_
    cases found with
    | some doc => exact keeps_revoke _
    | none => exact Keeps.pure _
  · exact Keeps.pure _

theorem keeps_create (service : SessionService) (ctx : SessionContext) : (create service ctx).Keeps Calm := by
  refine Keeps.bind (keeps_enforceSessionLimit _ _ _) fun _ => ?_
  refine Keeps.bind (keeps_base (keeps_draw _)) fun _ => ?_
  refine Keeps.bind (keeps_base (keeps_draw _)) fun _ => ?_
  refine Keeps.bind (keeps_base keeps_clock) fun _ => ?_
  refine Keeps.bind (keeps_insert _ _ _) fun _ => ?_
  exact Keeps.bind (keeps_liveness _) fun _ => Keeps.pure _

theorem keeps_updateMany (p : SessionDoc → Bool) (entry : CallId → Entry) :
    (op fun i w => .ok ((),w.withDocs (Collection.updateMany p (SessionDoc.revoke w.base.now) w.store.docs)
      [entry i])).Keeps Calm := by
  apply keeps_op
  intro i w value t ran
  cases ran
  exact calm_refl w.base

theorem keeps_revokeFamily (familyId : String) : (revokeFamily familyId).Keeps Calm := by
  refine Keeps.bind (keeps_read _) fun sessions => ?_
  refine Keeps.bind (keeps_updateMany _ _) fun _ => ?_
  exact Keeps.forEach (fun _ => keeps_base (keeps_cacheDel rfl)) _

theorem keeps_revokeAll (userId : String) (applicationId tenantId : Option String) :
    (revokeAll userId applicationId tenantId).Keeps Calm := by
  refine Keeps.bind (keeps_read _) fun docs => ?_
  refine Keeps.bind (keeps_updateMany _ _) fun _ => ?_
  exact Keeps.forEach (fun _ => keeps_base (keeps_cacheDel rfl)) _

theorem keeps_txBody (service : SessionService) (parent child : SessionDoc) : (txBody service parent child).Keeps Calm := by
  refine Keeps.bind (keeps_insert _ _ _) fun newSession => ?_
  refine Keeps.bind (keeps_read _) fun parentState => ?_
  split
  · exact Keeps.bind (keeps_updateById _ _) fun _ => Keeps.pure _
  · exact Keeps.throw _

theorem keeps_commit (snapshot copy : Store) : (commit snapshot copy).Keeps Calm := by
  apply keeps_op
  intro i w value t ran
  split at ran
  · cases ran; exact calm_refl w.base
  · cases ran

theorem keeps_driverTransaction {body : Program α} (keeps : body.Keeps Calm) (retries : Nat) :
    (driverTransaction body retries).Keeps Calm := by
  have once : (body.transaction storeLens commit).Keeps Calm :=
    Keeps.transaction keeps (fun w => calm_refl w.base) (fun _ _ _ _ moved => moved) keeps_commit
  induction retries with
  | zero => exact once
  | succ retries ih =>
    refine Keeps.bind once.attempt fun result => ?_
    cases result with
    | ok out => exact Keeps.pure _
    | error e =>
      cases e with
      | mongo error =>
        dsimp only
        split
        · exact ih
        · exact Keeps.throw _
      | pezhwan kind message code => exact Keeps.throw _

theorem keeps_attempts (service : SessionService) {work : Program α} (keeps : work.Keeps Calm) (left : Nat) :
    (attempts service work left).Keeps Calm := by
  induction left with
  | zero =>
    refine Keeps.bind (keeps_driverTransaction keeps _).attempt fun result => ?_
    cases result with
    | ok out => exact Keeps.pure _
    | error e =>
      dsimp only
      split
      · exact Keeps.throw _
      · exact keeps
  | succ left ih =>
    refine Keeps.bind (keeps_driverTransaction keeps _).attempt fun result => ?_
    cases result with
    | ok out => exact Keeps.pure _
    | error e =>
      dsimp only
      split
      · exact ih
      · exact Keeps.throw _

theorem keeps_claim (hashed : String) (ctx : RefreshContext) : (claim hashed ctx).Keeps Calm := by
  apply keeps_op
  intro i w value t ran
  dsimp only at ran
  split at ran <;> cases ran <;> exact calm_refl w.base

theorem keeps_findPresented (hashed : String) (ctx : RefreshContext) : (findPresented hashed ctx).Keeps Calm := by
  apply keeps_op
  intro i w value t ran
  split at ran <;> cases ran <;> exact calm_refl w.base

theorem keeps_rotate (service : SessionService) (doc : SessionDoc) (ctx : RefreshContext) :
    (rotate service doc ctx).Keeps Calm := by
  refine Keeps.bind (keeps_base keeps_clock) fun now => ?_
  refine Keeps.bind (keeps_base (keeps_draw _)) fun token => ?_
  refine Keeps.bind ?_ fun childId => ?_
  · unfold withTransaction
    split
    · exact keeps_attempts service (keeps_txBody _ _ _) _
    · exact keeps_txBody _ _ _
  · exact Keeps.bind (keeps_liveness _) fun _ => Keeps.bind (keeps_liveness _) fun _ => Keeps.pure _

theorem keeps_refresh (service : SessionService) (token : String) (ctx : RefreshContext) :
    (refresh service token ctx).Keeps Calm := by
  refine Keeps.bind (keeps_claim _ _) fun claimed => ?_
  cases claimed with
  | some doc => exact keeps_rotate _ _ _
  | none =>
    refine Keeps.bind (keeps_findPresented _ _) fun found => ?_
    cases found with
    | none => exact Keeps.throw _
    | some existing =>
      dsimp only
      split
      · exact Keeps.bind (keeps_revokeFamily _) fun _ => Keeps.throw _
      · exact Keeps.throw _

end Session
end Pezhwan
