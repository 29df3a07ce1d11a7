import Pezhwan.Auth.Services
import Pezhwan.Atomic.Focus

namespace Pezhwan.Account
open Atomic Prog

-- A user document as select('isActive tokenVersion').lean() returns it: a field
-- that was never stored is missing.
structure AccountDoc where
  isActive : Option Bool
  tokenVersion : Option Nat
  deriving DecidableEq

-- `asked` is the version the last answer for a user was computed for. No
-- operation reads it.
structure World where
  base : Base
  users : String → Option AccountDoc
  asked : String → Nat

def baseLens : Lens World Base :=
  ⟨World.base,fun b w => {w with base := b},fun _ _ => rfl,fun _ => rfl,fun _ _ _ => rfl⟩

abbrev Program (α : Type) := Prog CallId World Error α

def base (p : Prog CallId Base Error α) : Program α := p.zoom baseLens

def op (f : CallId → World → Except MongoError (α × World)) : Program α := mongo World.base f

def stateOf (doc : Option AccountDoc) (tokenVersion : Nat) : AccountState :=
  ⟨doc.isSome,(doc.bind AccountDoc.isActive).getD false,doc.any fun doc => doc.tokenVersion = some tokenVersion⟩

def World.remembered (w : World) (userId : String) (tokenVersion : Nat) (state : AccountState) : World :=
  let cache := w.base.cache.set w.base.now (.accountState userId) (.account state) Auth.ACCOUNT_STATE_TTL_SECONDS
  {w with base := {w.base with cache},asked := Function.update w.asked userId tokenVersion}

def remember (userId : String) (tokenVersion : Nat) (state : AccountState) : Program Unit :=
  Prog.atomic fun _ w => ((),w.remembered userId tokenVersion state)

def validate (userId : String) (tokenVersion : Nat) : Program Bool := do
  match ← base (cacheGet (.accountState userId)) with
  | some (.account state) => pure (Auth.AccountState.passes state)
  | _ =>
    match ← (op fun _ w => .ok (w.users userId,w)).attempt with
    | .error _ =>
      Prog.throw (.pezhwan .securityDependency "Account state could not be verified" "FAILED_SECURITY_DEPENDENCY")
    | .ok doc =>
      let state := stateOf doc tokenVersion
      remember userId tokenVersion state
      pure (Auth.AccountState.passes state)

def invalidate (userId : String) : Program Unit := base (cacheDel (.accountState userId))

-- A write to one user's document, whatever it does, with the invalidation that
-- follows it.
def update (userId : String) (doc : Option AccountDoc) : Program Unit := do
  op fun _ w => .ok ((),{w with users := Function.update w.users userId doc})
  invalidate userId

def project (w : Auth.World) (asked : String → Nat) : World :=
  ⟨w.base,fun userId => (Auth.userById userId w).map fun user => ⟨some user.isActive,some user.tokenVersion⟩,asked⟩

theorem stateOf_projected (user : Option Auth.UserDoc) (tokenVersion : Nat) :
    stateOf (user.map fun user => ⟨some user.isActive,some user.tokenVersion⟩) tokenVersion =
      ⟨user.isSome,(user.map Auth.UserDoc.isActive).getD false,
        (user.map fun user => decide (user.tokenVersion = tokenVersion)).getD false⟩ := by
  cases user <;> simp [stateOf]

theorem validate_projected (i : CallId) (userId : String) (tokenVersion : Nat) (w : Auth.World)
    (asked : String → Nat) :
    ((Auth.validate userId tokenVersion).run i w).1 = ((validate userId tokenVersion).run i (project w asked)).1 := by
  unfold Auth.validate validate
  simp only [Auth.base,base,run_bind,run_zoom,cacheGet,run_atomic,Auth.baseLens,baseLens]
  change ((match w.base.cache.get w.base.now (.accountState userId) with
      | some (.account state) => _
      | _ => _ : Auth.Program Bool).run i w).1 =
    ((match w.base.cache.get w.base.now (.accountState userId) with
      | some (.account state) => _
      | _ => _ : Program Bool).run i (project w asked)).1
  rcases w.base.cache.get w.base.now (.accountState userId) with _ | (_ | _ | state)
  case some.account => rfl
  all_goals
    cases fault : w.base.fault <;>
      simp [Auth.read,Auth.op,op,mongo,tryAtomic,run_bind,run_attempt,run,fault,Except.mapError,project,remember,
        stateOf_projected,Auth.raise,run_zoom,cacheSet]

inductive Call where
  | update (userId : String) (doc : Option AccountDoc)
  | validate (userId : String) (tokenVersion : Nat)

def program : Call → Program (Option Bool)
  | .update userId doc => (fun _ => none) <$> update userId doc
  | .validate userId tokenVersion => some <$> validate userId tokenVersion

inductive Surroundings : World → World → Prop where
  | tick (later : w.base.now ≤ now) : Surroundings w {w with base := {w.base with now}}
  | evict (key : CacheKey) : Surroundings w {w with base := {w.base with cache := w.base.cache.del key}}

def empty (now : Nat) : World := ⟨⟨now,[],none,[]⟩,fun _ => none,fun _ => 0⟩

abbrev Reached (now : Nat) (w : World) : Prop := Sequence program Surroundings (fun _ _ => True) (empty now) w

def Current (w : World) (userId : String) (tokenVersion : Nat) : Prop :=
  ∃ doc, w.users userId = some doc ∧ doc.isActive = some true ∧ doc.tokenVersion.getD 0 = tokenVersion

def cached (w : World) (userId : String) : Option CacheValue := w.base.cache.get w.base.now (.accountState userId)

-- What is remembered about a user was computed from its document as it is, for
-- the version last asked about.
structure Coherent (w : World) : Prop where
  healthy : w.base.fault = none
  states : ∀ userId value expiresAt, w.base.cache.find? (fun entry => entry.1 = .accountState userId) =
    some (.accountState userId,value,expiresAt) → value = .account (stateOf (w.users userId) (w.asked userId))

theorem cached_state (coherent : Coherent w) (hit : cached w userId = some value) :
    value = .account (stateOf (w.users userId) (w.asked userId)) := by
  unfold cached Cache.get at hit
  split at hit
  · rename_i key kept expiresAt found
    have named : key = .accountState userId := by simpa using List.find?_some found
    subst named
    split at hit
    · cases hit
    · cases hit
      exact coherent.states userId value expiresAt found
  · cases hit

theorem find_del (cache : Cache) (key : CacheKey) : (cache.del key).find? (fun entry => entry.1 = key) = none := by
  simp [Cache.del,List.find?_eq_none]

theorem coherent_del (coherent : Coherent w) (key : CacheKey) :
    Coherent {w with base := {w.base with cache := w.base.cache.del key}} := by
  refine ⟨coherent.healthy,?_⟩
  intro userId value expiresAt found
  by_cases same : CacheKey.accountState userId = key
  · subst same
    rw [find_del] at found
    cases found
  · rw [Cache.find_del_ne _ same] at found
    exact coherent.states userId value expiresAt found

theorem coherent_update (coherent : Coherent w) (userId : String) (doc : Option AccountDoc) :
    Coherent {w with
      base := {w.base with cache := w.base.cache.del (.accountState userId)},
      users := Function.update w.users userId doc} := by
  refine ⟨coherent.healthy,?_⟩
  intro other value expiresAt found
  by_cases same : other = userId
  · subst same
    rw [find_del] at found
    cases found
  · have different : CacheKey.accountState other ≠ .accountState userId := by simpa using same
    rw [Cache.find_del_ne _ different] at found
    simp only [Function.update_of_ne same]
    exact coherent.states other value expiresAt found

theorem coherent_remember (coherent : Coherent w) (userId : String) (tokenVersion : Nat) :
    Coherent (w.remembered userId tokenVersion (stateOf (w.users userId) tokenVersion)) := by
  refine ⟨coherent.healthy,?_⟩
  intro other value expiresAt found
  simp only [World.remembered,Cache.set] at found ⊢
  by_cases same : other = userId
  · subst same
    simp only [List.find?_cons,decide_true,Option.some.injEq,Prod.mk.injEq,true_and] at found
    simp [← found.1]
  · have different : CacheKey.accountState other ≠ .accountState userId := by simpa using same
    rw [List.find?_cons_of_neg (by simpa using different.symm),Cache.find_del_ne _ different] at found
    simp only [Function.update_of_ne same]
    exact coherent.states other value expiresAt found

theorem returns_validate (coherent : Coherent w) (i : CallId) (userId : String) (tokenVersion : Nat) :
    Ends i (validate userId tokenVersion) w (fun answer t => Coherent t ∧
      answer = Auth.AccountState.passes (stateOf (w.users userId)
        (if (cached w userId).isSome then w.asked userId else tokenVersion))) := by
  refine Ends.bind (Ends.zoom (Ends.atomic ?_))
  change Ends i (match cached w userId with | some (.account state) => _ | _ => _) w _
  cases hit : cached w userId with
  | some value =>
    rw [cached_state coherent hit]
    exact Ends.pure ⟨coherent,by simp⟩
  | none =>
    refine Ends.bind (Ends.attempt ?_)
    refine ⟨w.users userId,w,returns_mongo.mpr ⟨coherent.healthy,rfl⟩,?_⟩
    refine Ends.bind (Ends.atomic ?_)
    exact Ends.pure ⟨coherent_remember coherent userId tokenVersion,by simp⟩

theorem run_update (coherent : Coherent w) (i : CallId) (userId : String) (doc : Option AccountDoc) :
    Ends i (update userId doc) w (fun _ t => Coherent t) := by
  refine Ends.bind ⟨(),_,returns_mongo.mpr ⟨coherent.healthy,rfl⟩,?_⟩
  exact Ends.zoom (Ends.atomic (coherent_update coherent userId doc))

theorem preserves_coherent (coherent : Coherent w) (i : CallId) (call : Call) :
    Coherent ((program call).run i w).2 := by
  have ended : Ends i (program call) w (fun _ t => Coherent t) := by
    cases call with
    | update userId doc =>
      refine Ends.bind ((run_update coherent i userId doc).mono ?_)
      intro _ t kept
      exact Ends.pure kept
    | validate userId tokenVersion =>
      refine Ends.bind ((returns_validate coherent i userId tokenVersion).mono ?_)
      intro _ t kept
      exact Ends.pure kept.1
  obtain ⟨value,t,returned,kept⟩ := ended
  rw [returned]
  exact kept

theorem reached_coherent (path : Reached now w) : Coherent w := by
  refine Sequence.invariant ?_ ?_ ⟨rfl,by simp [empty]⟩ path
  · intro i call s coherent _
    exact preserves_coherent coherent i call
  · intro s t coherent moved
    cases moved with
    | tick later => exact ⟨coherent.healthy,coherent.states⟩
    | evict key => exact coherent_del coherent key

-- When an answer can be trusted: of an active account, the stored version is
-- asked about by the live cached answer exactly if it is asked about now; and a
-- document without a version is not asked about version 0.
def Trusted (w : World) (userId : String) (tokenVersion : Nat) : Prop :=
  ∀ doc, w.users userId = some doc → doc.isActive = some true → match doc.tokenVersion with
    | none => tokenVersion ≠ 0
    | some stored => (cached w userId).isSome → (w.asked userId = stored ↔ tokenVersion = stored)

theorem passes_iff (doc : Option AccountDoc) (tokenVersion : Nat) :
    Auth.AccountState.passes (stateOf doc tokenVersion) = true ↔
      ∃ found, doc = some found ∧ found.isActive = some true ∧ found.tokenVersion = some tokenVersion := by
  cases doc with
  | none => simp [stateOf,Auth.AccountState.passes]
  | some found =>
    cases active : found.isActive <;> simp [stateOf,Auth.AccountState.passes,active]

theorem answer_trusted (w : World) (userId : String) (tokenVersion : Nat) :
    (Auth.AccountState.passes (stateOf (w.users userId)
      (if (cached w userId).isSome then w.asked userId else tokenVersion)) = true ↔ Current w userId tokenVersion) ↔
      Trusted w userId tokenVersion := by
  rw [passes_iff]
  unfold Current Trusted
  cases known : w.users userId with
  | none => simp
  | some doc =>
    by_cases active : doc.isActive = some true
    · cases stored : doc.tokenVersion with
      | none =>
        simp only [Option.some.injEq,exists_eq_left',active,stored,reduceCtorEq,Option.getD_none,true_and,false_iff,
          forall_eq',forall_const]
        rw [ne_eq,eq_comm]
      | some version =>
        by_cases hit : (cached w userId).isSome
        · simp [active,stored,hit]
          rw [eq_comm,@eq_comm _ version tokenVersion]
        · simp [active,stored,hit]
    · simp [active]

def asked (tokenVersion : Nat) : World :=
  ((program (.validate "user" tokenVersion)).run 0 ((program (.update "user" (some ⟨some true,some 1⟩))).run 0 (empty 0)).2).2

theorem reached_asked (tokenVersion : Nat) : Reached 0 (asked tokenVersion) :=
  Sequence.after (Sequence.after .refl 0 trivial) 0 trivial

end Pezhwan.Account
