import Pezhwan.Json
import Mathlib.Algebra.Ring.Nat
import Mathlib.Data.List.Flatten

namespace Pezhwan.Webhooks

structure WebhookDoc where
  _id : ℕ
  tenantId : Option String
  applicationId : Option String
  url : String
  secret : Option String
  events : List String
  active : Bool
  maxRetries : Option ℕ
  deriving DecidableEq, Repr

inductive WebhookDeliveryStatus where
  | delivered | failed | retrying
  deriving DecidableEq, Repr

structure WebhookDeliveryDoc where
  webhookId : ℕ
  event : String
  payload : Json
  status : WebhookDeliveryStatus
  attempts : ℕ
  lastStatusCode : Option ℕ := none
  lastError : Option String := none
  nextAttemptAt : Option ℕ := none

structure Request where
  url : String
  headers : List (String × String)
  body : String
  deriving DecidableEq, Repr

structure Response where
  ok : Bool
  status : ℕ
  deriving DecidableEq, Repr

-- What one round of a delivery meets: the endpoint's answer or the error of
-- reaching it, the clock, and the errors of the ledger's writes.
structure Round where
  response : Except String Response
  now : ℕ
  create : Except String Unit := .ok ()
  updateOne : Except String Unit := .ok ()
  createFailed : Except String Unit := .ok ()
  updateFailed : Except String Unit := .ok ()

-- The surroundings of a dispatch; what an endpoint meets does not depend on
-- the other endpoints.
structure Surroundings where
  toISOString : ℕ → String
  round : ℕ → ℕ → Round

structure WebhookService where
  maxRetries : ℕ := 5
  sign : String → String → String
  randomSecret : ℕ → String

inductive Next where
  | done | again | thrown (error : String)
  deriving DecidableEq, Repr

namespace WebhookService
variable (s : WebhookService)

def register (url : String) (events : List String) (tenantId applicationId : Option String) (registry : List WebhookDoc) :
    List WebhookDoc :=
  registry ++ [{ _id := registry.length
                 tenantId, applicationId, url, events
                 secret := some (s.randomSecret registry.length)
                 active := true
                 maxRetries := some s.maxRetries }]

-- An empty tenant id lists everything, as a missing one does.
def list (tenantId : Option String) (registry : List WebhookDoc) : List WebhookDoc :=
  match tenantId with
  | none | some "" => registry
  | some tenantId => registry.filter (·.tenantId == some tenantId)

def bodyOf (around : Surroundings) (webhook : WebhookDoc) (event : String) (payload : Json) : String :=
  (Json.object [("event",.string event),("payload",payload),
    ("timestamp",.string (around.toISOString webhook._id))]).stringify

def request (webhook : WebhookDoc) (event body : String) : Request where
  url := webhook.url
  headers := [("content-type","application/json")] ++
    (match webhook.secret with
      | none | some "" => []
      | some secret => [("x-pezhwan-signature",s.sign secret body)]) ++
    [("x-pezhwan-event",event)]
  body := body

def backoff (now attempts : ℕ) : ℕ := now + 1000 * 2 ^ attempts

-- The catch block: a ledger that fails as well ends the delivery with an error.
def caught (webhook : WebhookDoc) (event : String) (payload : Json) (attempts : ℕ) (round : Round) (cause : String) :
    List WebhookDeliveryDoc × Next :=
  let delivery : WebhookDeliveryDoc :=
    { webhookId := webhook._id, event, payload, status := .failed, attempts, lastError := some cause }
  match round.createFailed with
  | .error error => ([],.thrown error)
  | .ok _ =>
    if webhook.maxRetries.getD s.maxRetries ≤ attempts then ([delivery],.done)
    else match round.updateFailed with
      | .error error => ([delivery],.thrown error)
      | .ok _ => ([{ delivery with status := .retrying, nextAttemptAt := some (backoff round.now attempts) }],.again)

def attempt (webhook : WebhookDoc) (event : String) (payload : Json) (attempts : ℕ) (round : Round) :
    List WebhookDeliveryDoc × Next :=
  match round.response with
  | .error cause => s.caught webhook event payload attempts round cause
  | .ok response =>
    let ok := response.ok || response.status == 404
    let delivery : WebhookDeliveryDoc :=
      { webhookId := webhook._id, event, payload, status := if ok then .delivered else .failed, attempts
        lastStatusCode := some response.status }
    match round.create with
    | .error cause => s.caught webhook event payload attempts round cause
    | .ok _ =>
      if ok then ([delivery],.done)
      else
        let spent := decide (webhook.maxRetries.getD s.maxRetries ≤ attempts)
        match round.updateOne with
        | .error cause =>
          let (docs,next) := s.caught webhook event payload attempts round cause
          (delivery :: docs,next)
        | .ok _ =>
          if spent then ([{ delivery with status := .failed }],.done)
          else ([{ delivery with status := .retrying, nextAttemptAt := some (backoff round.now attempts) }],.again)

-- The endless loop, cut where the retries are spent.
def rounds (around : Surroundings) (webhook : WebhookDoc) (event : String) (payload : Json) (body : String) :
    List ℕ → List Request × List WebhookDeliveryDoc
  | [] => ([],[])
  | attempts :: rest =>
    let sent := s.request webhook event body
    let (docs,next) := s.attempt webhook event payload attempts (around.round webhook._id attempts)
    match next with
    | .done | .thrown _ => ([sent],docs)
    | .again =>
      let (requests,later) := rounds around webhook event payload body rest
      (sent :: requests,docs ++ later)

def deliver (around : Surroundings) (webhook : WebhookDoc) (event : String) (payload : Json) :
    List Request × List WebhookDeliveryDoc :=
  s.rounds around webhook event payload (bodyOf around webhook event payload)
    (List.range' 1 (max 1 (webhook.maxRetries.getD s.maxRetries)))

def matching (event : String) (registry : List WebhookDoc) : List WebhookDoc :=
  registry.filter fun webhook => webhook.events.contains event && webhook.active

-- Each delivery goes its own way, so what is sent stands here endpoint by endpoint.
def dispatch (around : Surroundings) (event : String) (payload : Json) (registry : List WebhookDoc) :
    List (WebhookDoc × List Request × List WebhookDeliveryDoc) :=
  (matching event registry).map fun webhook => (webhook,s.deliver around webhook event payload)

def requests (around : Surroundings) (event : String) (payload : Json) (registry : List WebhookDoc) : List Request :=
  (s.dispatch around event payload registry).flatMap fun sent => sent.2.1

variable {s} {around : Surroundings} {webhook : WebhookDoc} {event body : String} {payload : Json} {round : Round}

theorem caught_again (again : (s.caught webhook event payload attempts round cause).2 = .again) :
    attempts < webhook.maxRetries.getD s.maxRetries := by
  unfold caught at again
  dsimp only at again
  split at again
  · cases again
  · split at again
    · cases again
    · rename_i unspent
      exact Nat.lt_of_not_le unspent

theorem attempt_again (again : (s.attempt webhook event payload attempts round).2 = .again) :
    attempts < webhook.maxRetries.getD s.maxRetries := by
  unfold attempt at again
  split at again
  · exact caught_again again
  · dsimp only at again
    split at again
    · exact caught_again again
    · split at again
      · cases again
      · split at again
        · exact caught_again again
        · split at again
          · cases again
          · rename_i unspent
            exact Nat.lt_of_not_le fun spent => unspent (decide_eq_true spent)

theorem deliver_sends : (s.deliver around webhook event payload).1 ≠ [] := by
  unfold deliver
  obtain ⟨n,counted⟩ := Nat.exists_eq_succ_of_ne_zero (show max 1 (webhook.maxRetries.getD s.maxRetries) ≠ 0 by omega)
  rw [counted,List.range'_succ,rounds]
  dsimp only
  split <;> simp

theorem rounds_bounded (attempts : List ℕ) :
    (s.rounds around webhook event payload body attempts).1.length ≤ attempts.length := by
  induction attempts with
  | nil => simp [rounds]
  | cons first rest ih =>
    rw [rounds]
    dsimp only
    split
    · simp
    · simp
    · simpa using ih

theorem rounds_uncut (attempts rest : List ℕ) (spent : webhook.maxRetries.getD s.maxRetries ≤ last) :
    s.rounds around webhook event payload body (attempts ++ last :: rest) =
      s.rounds around webhook event payload body (attempts ++ [last]) := by
  induction attempts with
  | nil =>
    simp only [List.nil_append,rounds]
    split
    · rfl
    · rfl
    · rename_i again
      exact absurd (attempt_again again) (Nat.not_lt.mpr spent)
  | cons first others ih => simp only [List.cons_append,rounds,ih]

theorem deliver_bounded (s : WebhookService) (around : Surroundings) (webhook : WebhookDoc) (event : String)
    (payload : Json) (more : ℕ) :
    s.rounds around webhook event payload (bodyOf around webhook event payload)
        (List.range' 1 (max 1 (webhook.maxRetries.getD s.maxRetries) + more)) = s.deliver around webhook event payload ∧
      (s.deliver around webhook event payload).1.length ≤ max 1 (webhook.maxRetries.getD s.maxRetries) := by
  refine ⟨?_,Nat.le_trans (rounds_bounded _) (Nat.le_of_eq List.length_range')⟩
  unfold deliver
  obtain ⟨n,counted⟩ := Nat.exists_eq_add_one_of_ne_zero (show max 1 (webhook.maxRetries.getD s.maxRetries) ≠ 0 by omega)
  rw [counted,← List.range'_append_1,List.range'_1_concat,List.append_assoc]
  exact rounds_uncut _ _ (by omega)

end WebhookService
end Pezhwan.Webhooks

namespace Pezhwan.Webhooks
open WebhookService
variable {s : WebhookService} {around : Surroundings} {event : String} {payload : Json} {registry : List WebhookDoc}
  {tenant : String}

-- The endpoints registered for a tenant or for none.
def own (tenant : String) (webhook : WebhookDoc) : Bool :=
  webhook.tenantId == none || webhook.tenantId == some tenant

theorem flatMap_filter_same {α β : Type} {f : α → List β} {p : α → Bool} {l : List α} (brings : ∀ x ∈ l, f x ≠ [])
    (same : ((l.filter p).flatMap f).length = (l.flatMap f).length) : ∀ x ∈ l, p x = true := by
  induction l with
  | nil => simp
  | cons first rest ih =>
    have below : ((rest.filter p).flatMap f).length ≤ (rest.flatMap f).length :=
      (List.filter_sublist.flatMap f).length_le
    have some_first : 0 < (f first).length := List.length_pos_iff.mpr (brings first (by simp))
    cases kept : p first with
    | false =>
      rw [List.filter_cons_of_neg (by simp [kept]),List.flatMap_cons,List.length_append] at same
      omega
    | true =>
      rw [List.filter_cons_of_pos kept,List.flatMap_cons,List.flatMap_cons,List.length_append,List.length_append] at same
      intro x listed
      rcases List.mem_cons.mp listed with rfl | later
      · exact kept
      · exact ih (fun y inside => brings y (List.mem_cons_of_mem _ inside)) (by omega) x later

theorem requests_eq : s.requests around event payload registry =
    (matching event registry).flatMap fun webhook => (s.deliver around webhook event payload).1 := by
  unfold requests dispatch
  rw [List.flatMap_map]

theorem matching_filter : matching event (registry.filter (own tenant)) = (matching event registry).filter (own tenant) := by
  unfold matching
  rw [List.filter_filter,List.filter_filter]
  exact List.filter_congr fun webhook _ => Bool.and_comm _ _

-- A tenant's events go out as if the other tenants had registered nothing, and
-- only to its own endpoints, exactly when no active endpoint of another tenant
-- asks for the event.
theorem dispatch_isolated_iff (s : WebhookService) (around : Surroundings) (event : String) (payload : Json)
    (registry : List WebhookDoc) (tenant : String) :
    ((s.requests around event payload registry = s.requests around event payload (registry.filter (own tenant))) ↔
      ∀ webhook ∈ registry, event ∈ webhook.events → webhook.active = true → own tenant webhook = true) ∧
    ((∀ sent ∈ s.dispatch around event payload registry, own tenant sent.1 = true) ↔
      ∀ webhook ∈ registry, event ∈ webhook.events → webhook.active = true → own tenant webhook = true) := by
  have all : (∀ webhook ∈ registry, event ∈ webhook.events → webhook.active = true → own tenant webhook = true) ↔
      ∀ webhook ∈ matching event registry, own tenant webhook = true := by
    simp [matching]
  rw [all]
  constructor
  · rw [requests_eq,requests_eq,matching_filter]
    constructor
    · intro same
      exact flatMap_filter_same (fun webhook _ => deliver_sends) (congrArg List.length same).symm
    · intro home
      rw [List.filter_eq_self.mpr home]
  · simp [dispatch]

def plain : WebhookService := { sign := fun secret body => secret ++ body, randomSecret := fun _ => "secret" }
def reachable : Surroundings := ⟨fun _ => "1970-01-01T00:00:00.000Z",fun _ _ => { response := .ok ⟨true,200⟩, now := 0 }⟩
def twoTenants : List WebhookDoc :=
  plain.register "https://b.example" ["user.login"] (some "b") none
    (plain.register "https://a.example" ["user.login"] (some "a") none [])

theorem dispatch_leaks : ¬∀ (s : WebhookService) (around : Surroundings) (event : String) (payload : Json)
    (registry : List WebhookDoc) (tenant : String),
    s.requests around event payload registry = s.requests around event payload (registry.filter (own tenant)) := by
  intro all
  have same := congrArg List.length (all plain reachable "user.login" .null twoTenants "a")
  exact absurd same (by decide)

end Pezhwan.Webhooks
