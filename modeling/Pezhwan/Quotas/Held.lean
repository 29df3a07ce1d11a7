import Mathlib.Algebra.Order.Ring.Rat
import Mathlib.Tactic.Linarith
import Pezhwan.Atomic.Dict
import Pezhwan.Atomic.Machine

namespace Pezhwan.Quotas
open Atomic

inductive QuotaResource where
  | users | sessions | apiKeys | oathClients | webhooks | storageBytes
  deriving DecidableEq, Repr

def QuotaResource.name : QuotaResource → String
  | .users => "users"
  | .sessions => "sessions"
  | .apiKeys => "api_keys"
  | .oathClients => "oath_clients"
  | .webhooks => "webhooks"
  | .storageBytes => "storage_bytes"

structure TenantQuotaDoc where
  quotas : QuotaResource → Option ℚ
  usage : QuotaResource → Option ℚ

abbrev QuotaStore := Dict String TenantQuotaDoc

structure RateLimitError where
  message : String
  retryAfter : ℕ
  deriving DecidableEq, Repr

structure QuotaService where
  limits : QuotaResource → Option ℚ

def nothing : QuotaResource → Option ℚ := fun _ => none

def inc (resource : QuotaResource) (amount : ℚ) (usage : QuotaResource → Option ℚ) : QuotaResource → Option ℚ :=
  fun other => if other = resource then some ((usage resource).getD 0 + amount) else usage other

namespace QuotaService
variable (s : QuotaService)

-- An upsert that only ever inserts.
def ensureDoc (tenantId : String) (store : QuotaStore) : TenantQuotaDoc × QuotaStore :=
  match store.get? tenantId with
  | some doc => (doc,store)
  | none => (⟨s.limits,nothing⟩,store.set tenantId ⟨s.limits,nothing⟩)

-- No limit is `Infinity`.
def check (tenantId : String) (resource : QuotaResource) (store : QuotaStore) : Except RateLimitError Unit × QuotaStore :=
  let (doc,store) := s.ensureDoc tenantId store
  let limit := (doc.quotas resource).orElse fun _ => s.limits resource
  let used := (doc.usage resource).getD 0
  if limit.any (· ≤ used) then (.error ⟨"Tenant quota exceeded for " ++ resource.name,60⟩,store) else (.ok (),store)

-- The upsert that inserts gives the new document the schema's default quotas, which are none.
def increment (tenantId : String) (resource : QuotaResource) (amount : ℚ) (store : QuotaStore) : ℚ × QuotaStore :=
  let doc := (store.get? tenantId).getD ⟨nothing,nothing⟩
  let doc := { doc with usage := inc resource amount doc.usage }
  ((doc.usage resource).getD amount,store.set tenantId doc)

def usage (tenantId : String) (store : QuotaStore) : (QuotaResource → Option ℚ) × QuotaStore :=
  let (doc,store) := s.ensureDoc tenantId store
  (doc.usage,store)

-- The limit a check applies, and the usage that is stored.
def limitOf (store : QuotaStore) (tenantId : String) (resource : QuotaResource) : Option ℚ :=
  ((store.get? tenantId).bind (·.quotas resource)).orElse fun _ => s.limits resource

def stored (store : QuotaStore) (tenantId : String) (resource : QuotaResource) : Option ℚ :=
  (store.get? tenantId).bind (·.usage resource)

variable {s} {store : QuotaStore} {tenantId tenant : String} {resource r : QuotaResource} {amount : ℚ}

theorem ensureDoc_limitOf : s.limitOf (s.ensureDoc tenantId store).2 tenant r = s.limitOf store tenant r := by
  unfold ensureDoc
  split
  · rfl
  · rename_i missing
    unfold limitOf
    rw [Dict.get?_set]
    split
    · rename_i same
      subst same
      rw [missing]
      cases h : s.limits r <;> simp [h]
    · rfl

theorem ensureDoc_stored : stored (s.ensureDoc tenantId store).2 tenant r = stored store tenant r := by
  unfold ensureDoc
  split
  · rfl
  · rename_i missing
    unfold stored
    rw [Dict.get?_set]
    split
    · rename_i same
      subst same
      rw [missing]
      rfl
    · rfl

theorem check_store : (s.check tenantId resource store).2 = (s.ensureDoc tenantId store).2 := by
  unfold check
  dsimp only
  split <;> rfl

theorem increment_limitOf : s.limitOf (increment tenantId resource amount store).2 tenant r = s.limitOf store tenant r := by
  unfold increment limitOf
  rw [Dict.get?_set]
  split
  · rename_i same
    subst same
    cases store.get? tenant <;> rfl
  · rfl

theorem increment_stored : stored (increment tenantId resource amount store).2 tenant r =
    if tenant = tenantId ∧ r = resource then some ((stored store tenantId resource).getD 0 + amount)
    else stored store tenant r := by
  unfold increment stored
  rw [Dict.get?_set]
  by_cases same : tenant = tenantId
  · subst same
    rw [if_pos rfl]
    by_cases counted : r = resource
    · subst counted
      cases store.get? tenant <;> simp [inc,nothing]
    · cases store.get? tenant <;> simp [inc,counted,nothing]
  · simp [same]

end QuotaService

open QuotaService
variable {s : QuotaService} {start : QuotaStore} {tenant : String} {r : QuotaResource}

-- The store and who has passed a check and not counted yet.
structure Callers where
  store : QuotaStore
  passed : List (String × QuotaResource) := []

inductive Call where
  | check (tenant : String) (resource : QuotaResource)
  | increment (tenant : String) (resource : QuotaResource) (amount : ℚ)
  | usage (tenant : String)
  deriving DecidableEq

def step (s : QuotaService) (c : Callers) : Call → Option Callers
  | .check tenant resource =>
    let (answer,store) := s.check tenant resource c.store
    match answer with
    | .ok _ => some ⟨store,(tenant,resource) :: c.passed⟩
    | .error _ => some ⟨store,c.passed⟩
  | .increment tenant resource amount =>
    some ⟨(increment tenant resource amount c.store).2,c.passed.erase (tenant,resource)⟩
  | .usage tenant => some ⟨(s.usage tenant c.store).2,c.passed⟩

-- The callers between their check and their count.
def pending (c : Callers) (tenant : String) (r : QuotaResource) : ℕ := c.passed.count (tenant,r)

-- Only a caller whose check did not throw counts, and by one.
def Checked (c : Callers) : Call → Prop
  | .increment tenant r amount => (tenant,r) ∈ c.passed ∧ amount = 1
  | _ => True

-- A check applies the limit that was configured at the start.
def Configured (s : QuotaService) (start : QuotaStore) (c : Callers) : Prop :=
  ∀ tenant r, s.limitOf c.store tenant r = s.limitOf start tenant r

-- No stored usage is above its limit.
structure Enforced (s : QuotaService) (start : QuotaStore) (c : Callers) : Prop where
  below : ∀ tenant r limit used, s.limitOf start tenant r = some limit → stored c.store tenant r = some used → used ≤ limit
  applied : Configured s start c

-- A check comes when nobody is between a check and its count, and the usage is
-- whole steps away from the limit; or there is room for everyone who is.
def Apart (s : QuotaService) (c : Callers) : Call → Prop
  | .check tenant r => ∀ limit ∈ s.limitOf c.store tenant r,
      (pending c tenant r = 0 ∧ (limit - (stored c.store tenant r).getD 0).den = 1) ∨
        (stored c.store tenant r).getD 0 + pending c tenant r + 1 ≤ limit
  | _ => True

instance : Decidable (Checked c call) :=
  match call with
  | .increment _ _ _ => inferInstanceAs (Decidable (_ ∧ _))
  | .check _ _ | .usage _ => .isTrue trivial

instance : Decidable (Apart s c call) :=
  match call with
  | .check _ _ => inferInstanceAs (Decidable (∀ limit ∈ _,_))
  | .increment _ _ _ | .usage _ => .isTrue trivial

structure Booked (s : QuotaService) (start : QuotaStore) (c : Callers) : Prop where
  room : ∀ tenant r limit, s.limitOf start tenant r = some limit →
    (stored c.store tenant r ≠ none ∨ 0 < pending c tenant r) →
    (stored c.store tenant r).getD 0 + pending c tenant r ≤ limit
  applied : Configured s start c

theorem Booked.enforced (booked : Booked s start c) : Enforced s start c where
  below := by
    intro tenant r limit used limited found
    have room := booked.room tenant r limit limited (.inl (by simp [found]))
    rw [found,Option.getD_some] at room
    have none_below : (0 : ℚ) ≤ pending c tenant r := Nat.cast_nonneg _
    linarith
  applied := booked.applied

theorem booked_ensured (booked : Booked s start c) : Booked s start ⟨(s.ensureDoc tenant c.store).2,c.passed⟩ where
  room := by
    intro other r limit limited
    simp only [ensureDoc_stored]
    exact booked.room other r limit limited
  applied := by
    intro other r
    rw [ensureDoc_limitOf]
    exact booked.applied other r

theorem check_below (passed : (s.check tenant r store).1.isOk = true) (limited : s.limitOf store tenant r = some limit) :
    (stored store tenant r).getD 0 < limit := by
  have same : (s.ensureDoc tenant store).1 = (store.get? tenant).getD ⟨s.limits,nothing⟩ := by
    unfold ensureDoc
    split <;> simp [*]
  have applied : (((store.get? tenant).getD ⟨s.limits,nothing⟩).quotas r).orElse (fun _ => s.limits r) = some limit := by
    rw [← limited]
    unfold limitOf
    cases store.get? tenant with
    | none => cases h : s.limits r <;> simp [h]
    | some doc => rfl
  have used : (((store.get? tenant).getD ⟨s.limits,nothing⟩).usage r).getD 0 = (stored store tenant r).getD 0 := by
    unfold stored
    cases store.get? tenant <;> rfl
  by_contra exceeded
  unfold check at passed
  dsimp only at passed
  rw [same,applied,used,if_pos (by simpa using exceeded)] at passed
  cases passed

theorem check_room (apart : Apart s c (.check tenant r)) (passed : (s.check tenant r c.store).1.isOk = true)
    (limited : s.limitOf c.store tenant r = some limit) :
    (stored c.store tenant r).getD 0 + pending c tenant r + 1 ≤ limit := by
  rcases apart limit limited with ⟨alone,whole⟩ | room
  · have below := check_below passed limited
    have difference : ((limit - (stored c.store tenant r).getD 0).num : ℚ) = limit - (stored c.store tenant r).getD 0 :=
      Rat.coe_int_num_of_den_eq_one whole
    have positive : 0 < (limit - (stored c.store tenant r).getD 0).num := Rat.num_pos.mpr (sub_pos.mpr below)
    have one_more : (1 : ℚ) ≤ limit - (stored c.store tenant r).getD 0 := by
      rw [← difference]
      exact_mod_cast positive
    rw [alone,Nat.cast_zero]
    linarith
  · exact room

theorem booked_passed (booked : Booked s start c) (apart : Apart s c (.check tenant r))
    (passed : (s.check tenant r c.store).1.isOk = true) :
    Booked s start ⟨(s.ensureDoc tenant c.store).2,(tenant,r) :: c.passed⟩ where
  room := by
    intro other q limit limited present
    simp only [ensureDoc_stored,pending,List.count_cons] at present ⊢
    by_cases same : (tenant,r) = (other,q)
    · cases same
      have room := check_room apart passed (by rw [booked.applied]; exact limited)
      simp only [pending] at room
      simp only [beq_self_eq_true,if_true,Nat.cast_add,Nat.cast_one]
      linarith
    · have different : ((tenant,r) == (other,q)) = false := by simpa using same
      simp only [different,Bool.false_eq_true,if_false,Nat.add_zero] at present ⊢
      exact booked.room other q limit limited present
  applied := (booked_ensured booked).applied

theorem booked_increment (booked : Booked s start c) (waiting : (tenant,r) ∈ c.passed) :
    Booked s start ⟨(increment tenant r 1 c.store).2,c.passed.erase (tenant,r)⟩ where
  room := by
    intro other q limit limited present
    simp only [increment_stored,pending] at present ⊢
    by_cases same : other = tenant ∧ q = r
    · obtain ⟨rfl,rfl⟩ := same
      have some_pending : 0 < c.passed.count (other,q) := List.count_pos_iff.mpr waiting
      have room := booked.room other q limit limited (.inr some_pending)
      simp only [pending] at room
      rw [List.count_erase_self]
      simp only [and_self,if_true,Option.getD_some]
      have one_less : ((c.passed.count (other,q) - 1 : ℕ) : ℚ) = c.passed.count (other,q) - 1 := by
        rw [Nat.cast_sub some_pending,Nat.cast_one]
      rw [one_less]
      linarith
    · have different : (other,q) ≠ (tenant,r) := fun equal => same (by simpa using equal)
      rw [if_neg same,List.count_erase_of_ne different] at present ⊢
      exact booked.room other q limit limited present
  applied := by
    intro other q
    rw [increment_limitOf]
    exact booked.applied other q

theorem booked_step (booked : Booked s start c) (taken : step s c call = some d) (checked : Checked c call)
    (apart : Apart s c call) : Booked s start d := by
  cases call with
  | check tenant resource =>
    unfold step at taken
    dsimp only at taken
    rw [check_store] at taken
    split at taken
    · rename_i answered
      cases taken
      exact booked_passed booked apart (by rw [answered]; rfl)
    · cases taken
      exact booked_ensured booked
  | increment tenant resource amount =>
    obtain ⟨waiting,rfl⟩ := checked
    cases taken
    exact booked_increment booked waiting
  | usage tenant =>
    cases taken
    exact booked_ensured booked

theorem booked_start (below : Enforced s start ⟨start,[]⟩) : Booked s start ⟨start,[]⟩ where
  room := by
    intro tenant r limit limited present
    obtain found | impossible := present
    · obtain ⟨used,found⟩ := Option.ne_none_iff_exists'.mp found
      simp only [found,Option.getD_some,pending,List.count_nil,Nat.cast_zero,add_zero]
      exact below.below tenant r limit used limited found
    · simp [pending] at impossible
  applied := fun _ _ => rfl

-- Callers who check, count and overlap only where there is room for all of them
-- keep every usage within its limit.
theorem quota_held (s : QuotaService) (start : QuotaStore) (calls : List Call) (below : Enforced s start ⟨start,[]⟩)
    (callers : Machine.Each (step s) (fun c call _ => Checked c call ∧ Apart s c call) ⟨start,[]⟩ calls) :
    Machine.Each (step s) (fun _ _ c => Enforced s start c) ⟨start,[]⟩ calls := by
  refine Machine.each_of (booked_start below) ?_ callers
  intro c call d booked taken both
  have next := booked_step booked taken both.1 both.2
  exact ⟨next,next.enforced⟩

theorem limit_configured (ran : Machine.run (step s) ⟨start,[]⟩ calls = some c) : Configured s start c := by
  refine Machine.invariant ?_ ?_ ran
  · intro tenant r
    rfl
  intro c call d same taken tenant r
  have kept : s.limitOf d.store tenant r = s.limitOf c.store tenant r := by
    cases call with
    | check other resource =>
      unfold step at taken
      dsimp only at taken
      rw [check_store] at taken
      split at taken <;> cases taken <;> exact ensureDoc_limitOf
    | increment other resource amount =>
      cases taken
      exact increment_limitOf
    | usage other =>
      cases taken
      exact ensureDoc_limitOf
  rw [kept]
  exact same tenant r

theorem enforced_empty : Enforced s .empty ⟨.empty,[]⟩ where
  below := by
    intro tenant r limit used _ found
    cases found
  applied := fun _ _ => rfl

def twoUsers : QuotaService := ⟨fun resource => if resource = .users then some 2 else none⟩

def oneByOne : List Call :=
  [.check "t" .users,.increment "t" .users 1,.check "t" .users,.increment "t" .users 1,.check "t" .users]

theorem quota_held_one_by_one :
    ((Machine.run (step twoUsers) ⟨.empty,[]⟩ oneByOne).map fun c => (stored c.store "t" .users,c.passed)) = some (some 2,[]) ∧
      Machine.Each (step twoUsers) (fun _ _ c => Enforced twoUsers .empty c) ⟨.empty,[]⟩ oneByOne :=
  ⟨by decide +kernel,quota_held twoUsers .empty oneByOne enforced_empty (by decide +kernel)⟩

def uncheckedFirst : List Call := [.increment "t" .users 5,.check "t" .users]

theorem limit_configured_unchecked : ∃ c, Machine.run (step twoUsers) ⟨.empty,[]⟩ uncheckedFirst = some c ∧
    Configured twoUsers .empty c := by
  obtain ⟨c,ran⟩ := Option.isSome_iff_exists.mp
    (show (Machine.run (step twoUsers) ⟨.empty,[]⟩ uncheckedFirst).isSome = true by decide +kernel)
  exact ⟨c,ran,limit_configured ran⟩

-- Two callers pass their checks when there is room for one.
def overlapping : List Call :=
  [.check "t" .users,.increment "t" .users 1,.check "t" .users,.check "t" .users,.increment "t" .users 1,.increment "t" .users 1]

theorem quota_exceeded : ¬∀ (s : QuotaService) (start : QuotaStore) (calls : List Call), Enforced s start ⟨start,[]⟩ →
    Machine.Each (step s) (fun c call _ => Checked c call) ⟨start,[]⟩ calls →
    Machine.Each (step s) (fun _ _ c => Enforced s start c) ⟨start,[]⟩ calls := by
  intro all
  have each := all twoUsers .empty overlapping enforced_empty (by decide +kernel)
  have within : Machine.Each (step twoUsers) (fun _ _ c => ∀ used ∈ stored c.store "t" .users, used ≤ 2)
      ⟨.empty,[]⟩ overlapping :=
    each.mono fun _ _ c enforced used found => enforced.below "t" .users 2 used (by decide +kernel) found
  exact absurd within (by decide +kernel)

end Pezhwan.Quotas
