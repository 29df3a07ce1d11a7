import Mathlib.Data.Rat.Floor

namespace Pezhwan.Delivery

structure DeliveryResult where
  ok : Bool
  accepted : Option Bool := none
  providerId : String
  latencyMs : ℤ
  error : Option String := none
  statusCode : Option ℤ := none
  deriving DecidableEq, Repr

def DeliveryResult.rejected (id error : String) (latency : ℤ := 0) : DeliveryResult :=
  { ok := false, providerId := id, latencyMs := latency, error := some error }

structure OtpSendParams where
  target : String
  code : String
  purpose : String
  deriving DecidableEq, Repr

-- What a send throws: an `Error`, or any other value with its text.
inductive Thrown where
  | error (name message : String)
  | value (text : String)
  deriving DecidableEq, Repr

def Thrown.text : Thrown → String
  | .error _ message => message
  | .value text => text

-- err instanceof Error && err.name === 'AbortError'
def Thrown.isAbort : Thrown → Bool
  | .error name _ => name == "AbortError"
  | .value _ => false

inductive Answer where
  | returned (result : DeliveryResult)
  | threw (thrown : Thrown)
  deriving DecidableEq, Repr

-- How a transport meets its sends: the answer to each attempt, and how long it took.
structure Transport where
  answer : OtpSendParams → ℕ → Answer
  elapsed : OtpSendParams → ℕ → ℤ

structure OtpProvider where
  id : String
  sendEmail : Option Transport
  sendSms : Option Transport

def defaultRetryable (result : DeliveryResult) : Bool :=
  if result.ok then false
  else
    let code := result.statusCode.getD 0
    !(decide (400 ≤ code) && decide (code < 500) && code != 429)

-- The numbers, which are all that a manager takes.
structure RetryTuning where
  attempts : ℕ := 3
  baseDelayMs : ℚ := 250
  maxDelayMs : ℚ := 4000
  jitterMs : ℚ := 0

structure RetryOptions extends RetryTuning where
  isRetryable : DeliveryResult → Bool := defaultRetryable
  shouldAbort : Option (ℕ → Bool) := none

def round (x : ℚ) : ℤ := ⌊x + 1 / 2⌋

def backoff (options : RetryOptions) (attempt : ℕ) (draw : ℚ) : ℤ :=
  let exp := min (options.baseDelayMs * 2 ^ (attempt - 1)) options.maxDelayMs
  if 0 < options.jitterMs then max 0 (round (exp + (draw * 2 - 1) * options.jitterMs)) else round exp

-- The wrapped send, with the attempts it made and the pauses between them.
structure Retried where
  result : DeliveryResult
  contacts : List (ℕ × Answer)
  pauses : List ℤ
  deriving DecidableEq, Repr

def Retried.after (attempt : ℕ) (answer : Answer) (pauses : List ℤ) (later : Retried) : Retried where
  result := later.result
  contacts := (attempt,answer) :: later.contacts
  pauses := pauses ++ later.pauses

def retryLoop (options : RetryOptions) (id : String) (transport : Transport) (draw : ℕ → ℚ) (params : OtpSendParams) :
    List ℕ → Option DeliveryResult → Retried
  | [],last => ⟨last.getD (.rejected id "Delivery failed after retries"),[],[]⟩
  | attempt :: rest,_ =>
    if (options.shouldAbort.map (· attempt)).getD false then
      ⟨.rejected id "Retry aborted",[],[]⟩
    else
      let answer := transport.answer params attempt
      let elapsed := transport.elapsed params attempt
      let pauses := if attempt < options.attempts then [backoff options attempt (draw attempt)] else []
      let onward := fun last => (retryLoop options id transport draw params rest (some last)).after attempt answer pauses
      match answer with
      | .returned result =>
        let res := { result with latencyMs := elapsed }
        if res.ok || decide (options.attempts ≤ attempt) || !options.isRetryable res then ⟨res,[(attempt,answer)],[]⟩
        else onward res
      | .threw thrown =>
        let res := DeliveryResult.rejected id thrown.text elapsed
        if decide (options.attempts ≤ attempt) || thrown.isAbort then ⟨res,[(attempt,answer)],[]⟩
        else onward res

-- for (let attempt = 1; attempt <= attempts; attempt++)
def withRetry (options : RetryOptions) (id : String) (transport : Transport) (draw : ℕ → ℚ)
    (params : OtpSendParams) : Retried :=
  retryLoop options id transport draw params (List.range' 1 options.attempts) none

def Answer.accepted : Answer → Bool
  | .returned result => result.ok
  | .threw _ => false

theorem defaultRetryable_blind (result : DeliveryResult) (latency : ℤ) :
    defaultRetryable { result with latencyMs := latency } = defaultRetryable result := rfl

-- A rejection that is not to be repeated.
def Answer.final : Answer → Bool
  | .returned result => !result.ok && !defaultRetryable result
  | .threw thrown => thrown.isAbort

theorem retryLoop_cases (options : RetryOptions) (id : String) (transport : Transport) (draw : ℕ → ℚ)
    (params : OtpSendParams) (attempt : ℕ) (rest : List ℕ) (last : Option DeliveryResult) :
    retryLoop options id transport draw params (attempt :: rest) last = ⟨.rejected id "Retry aborted",[],[]⟩ ∨
    (∃ result, result.ok = (transport.answer params attempt).accepted ∧
      retryLoop options id transport draw params (attempt :: rest) last =
        ⟨result,[(attempt,transport.answer params attempt)],[]⟩) ∨
    (∃ result pauses, result.ok = false ∧ (transport.answer params attempt).accepted = false ∧
      (options.isRetryable = defaultRetryable → (transport.answer params attempt).final = false) ∧
      retryLoop options id transport draw params (attempt :: rest) last =
        (retryLoop options id transport draw params rest (some result)).after attempt
          (transport.answer params attempt) pauses) := by
  rw [retryLoop]
  split
  · exact .inl rfl
  · refine .inr ?_
    dsimp only
    cases answered : transport.answer params attempt with
    | returned result =>
      dsimp only
      split
      · exact .inl ⟨{ result with latencyMs := transport.elapsed params attempt },rfl,rfl⟩
      · rename_i repeated
        simp only [Bool.or_eq_true,not_or,Bool.not_eq_true] at repeated
        refine .inr ⟨{ result with latencyMs := transport.elapsed params attempt },_,repeated.1.1,repeated.1.1,?_,rfl⟩
        intro usual
        have retryable := repeated.2
        rw [usual,defaultRetryable_blind] at retryable
        simpa [Answer.final] using fun _ => retryable
    | threw thrown =>
      dsimp only
      split
      · exact .inl ⟨_,rfl,rfl⟩
      · rename_i repeated
        simp only [Bool.or_eq_true,not_or,Bool.not_eq_true] at repeated
        exact .inr ⟨_,_,rfl,rfl,fun _ => repeated.2,rfl⟩

inductive CircuitState where
  | closed | opened | halfOpen
  deriving DecidableEq, Repr

structure CircuitBreakerOptions where
  failureThreshold : ℕ := 5
  successThreshold : ℕ := 2
  cooldownMs : ℤ := 30000
  deriving DecidableEq, Repr

-- The variables the wrapped sends of one provider share.
structure Breaker where
  state : CircuitState := .closed
  consecutiveFailures : ℕ := 0
  consecutiveSuccesses : ℕ := 0
  openedAt : ℤ := 0
  deriving DecidableEq, Repr

namespace Breaker

def recordFailure (options : CircuitBreakerOptions) (now : ℤ) (b : Breaker) : Breaker :=
  let b := { b with consecutiveFailures := b.consecutiveFailures + 1, consecutiveSuccesses := 0 }
  let b := if b.state = .closed ∧ options.failureThreshold ≤ b.consecutiveFailures
    then { b with openedAt := now, state := .opened } else b
  if b.state = .halfOpen ∧ 1 ≤ b.consecutiveFailures then { b with openedAt := now, state := .opened } else b

def recordSuccess (options : CircuitBreakerOptions) (b : Breaker) : Breaker :=
  let b := { b with consecutiveSuccesses := b.consecutiveSuccesses + 1 }
  let b := if b.state = .halfOpen ∧ options.successThreshold ≤ b.consecutiveSuccesses
    then { b with consecutiveFailures := 0, state := .closed } else b
  -- "Shouldn't normally happen, but guard anyway."
  if b.state = .opened then { b with state := .halfOpen } else b

def isOpen (options : CircuitBreakerOptions) (now : ℤ) (b : Breaker) : Bool × Breaker :=
  match b.state with
  | .closed => (false,b)
  | .halfOpen => (false,b)
  | .opened =>
    if options.cooldownMs ≤ now - b.openedAt then (false,{ b with consecutiveFailures := 0, state := .halfOpen })
    else (true,b)

def record (options : CircuitBreakerOptions) (now : ℤ) (ok : Bool) (b : Breaker) : Breaker :=
  if ok then b.recordSuccess options else b.recordFailure options now

end Breaker

section
variable {options : RetryOptions} {id : String} {transport : Transport} {draw : ℕ → ℚ} {params : OtpSendParams}
  {attempts : List ℕ} {last : Option DeliveryResult}

theorem retryLoop_bounded :
    (retryLoop options id transport draw params attempts last).contacts.length ≤ attempts.length := by
  induction attempts generalizing last with
  | nil => simp [retryLoop]
  | cons attempt rest ih =>
    obtain off | ⟨result,_,ended⟩ | ⟨result,pauses,_,_,_,onward⟩ :=
      retryLoop_cases options id transport draw params attempt rest last
    · simp [off]
    · simp [ended]
    · simp [onward,Retried.after,ih]

theorem retryLoop_accepted (unsent : ∀ result ∈ last, result.ok = false) :
    (retryLoop options id transport draw params attempts last).result.ok = true ↔
      ∃ contact ∈ (retryLoop options id transport draw params attempts last).contacts, contact.2.accepted = true := by
  induction attempts generalizing last with
  | nil => cases last <;> simp_all [retryLoop,DeliveryResult.rejected]
  | cons attempt rest ih =>
    obtain off | ⟨result,outcome,ended⟩ | ⟨result,pauses,refused,missed,_,onward⟩ :=
      retryLoop_cases options id transport draw params attempt rest last
    · simp [off,DeliveryResult.rejected]
    · simp [ended,outcome]
    · rw [onward]
      simp only [Retried.after,List.mem_cons,exists_eq_or_imp,missed,Bool.false_eq_true,false_or]
      refine ih ?_
      intro other kept
      cases kept
      exact refused

theorem retryLoop_stops (usual : options.isRetryable = defaultRetryable) :
    (retryLoop options id transport draw params attempts last).contacts.Pairwise fun contact _ =>
      contact.2.accepted = false ∧ contact.2.final = false := by
  induction attempts generalizing last with
  | nil => simp [retryLoop]
  | cons attempt rest ih =>
    obtain off | ⟨result,_,ended⟩ | ⟨result,pauses,_,missed,repeatable,onward⟩ :=
      retryLoop_cases options id transport draw params attempt rest last
    · simp [off]
    · simp [ended]
    · rw [onward]
      exact List.pairwise_cons.mpr ⟨fun _ _ => ⟨missed,repeatable usual⟩,ih⟩

theorem retryLoop_faithful : ∀ contact ∈ (retryLoop options id transport draw params attempts last).contacts,
    contact.2 = transport.answer params contact.1 := by
  induction attempts generalizing last with
  | nil => simp [retryLoop]
  | cons attempt rest ih =>
    intro contact listed
    obtain off | ⟨result,_,ended⟩ | ⟨result,pauses,_,_,_,onward⟩ :=
      retryLoop_cases options id transport draw params attempt rest last
    · simp [off] at listed
    · rw [ended] at listed
      cases List.mem_singleton.mp listed
      rfl
    · rw [onward] at listed
      rcases List.mem_cons.mp listed with rfl | later
      · rfl
      · exact ih contact later

theorem retryLoop_tried {attempt : ℕ} {rest : List ℕ} (on : options.shouldAbort = none) :
    (attempt,transport.answer params attempt) ∈
      (retryLoop options id transport draw params (attempt :: rest) last).contacts := by
  unfold retryLoop
  rw [on]
  simp only [Option.map_none,Option.getD_none,Bool.false_eq_true,if_false]
  split <;> split <;> simp [Retried.after, *]

end

-- The breaker as a guarded send finds it when it starts and when it settles:
-- other sends work on it in between.
structure Passage where
  found : Breaker
  started : ℤ
  settling : Breaker
  settled : ℤ
  deriving DecidableEq, Repr

structure Guarded where
  result : DeliveryResult
  contacts : List (ℕ × Answer)
  breaker : Breaker
  deriving DecidableEq, Repr

def guard (options : CircuitBreakerOptions) (id : String) (passage : Passage) (send : Answer × List (ℕ × Answer)) :
    Guarded :=
  let (isOpen,entered) := passage.found.isOpen options passage.started
  if isOpen then
    { result := { ok := false, accepted := some false, providerId := id, latencyMs := 0,
                  error := some "Circuit open — delivery short-circuited", statusCode := some 503 }
      contacts := []
      breaker := entered }
  else
    let latencyMs := passage.settled - passage.started
    match send.1 with
    | .returned res =>
      { result := { res with latencyMs }
        contacts := send.2
        breaker := passage.settling.record options passage.settled res.ok }
    | .threw err =>
      { result := .rejected id err.text latencyMs
        contacts := send.2
        breaker := passage.settling.record options passage.settled false }

section
variable {options : RetryOptions} {id : String} {transport : Transport} {draw : ℕ → ℚ} {params : OtpSendParams}
  {attempts : List ℕ} {last : Option DeliveryResult}

theorem withRetry_bounded : (withRetry options id transport draw params).contacts.length ≤ options.attempts := by
  have bounded : (withRetry options id transport draw params).contacts.length ≤ (List.range' 1 options.attempts).length :=
    retryLoop_bounded
  rwa [List.length_range'] at bounded

theorem withRetry_accepted : (withRetry options id transport draw params).result.ok = true ↔
    ∃ contact ∈ (withRetry options id transport draw params).contacts, contact.2.accepted = true :=
  retryLoop_accepted (by simp)

theorem withRetry_stops (usual : options.isRetryable = defaultRetryable) :
    (withRetry options id transport draw params).contacts.Pairwise fun contact _ =>
      contact.2.accepted = false ∧ contact.2.final = false := retryLoop_stops usual

theorem withRetry_faithful : ∀ contact ∈ (withRetry options id transport draw params).contacts,
    contact.2 = transport.answer params contact.1 := retryLoop_faithful

theorem withRetry_tried (on : options.shouldAbort = none) (some_attempt : 0 < options.attempts) :
    (1,transport.answer params 1) ∈ (withRetry options id transport draw params).contacts := by
  obtain ⟨n,counted⟩ := Nat.exists_eq_succ_of_ne_zero some_attempt.ne'
  unfold withRetry
  rw [counted,List.range'_succ]
  exact retryLoop_tried on

end

variable {options : CircuitBreakerOptions} {id : String} {passage : Passage} {send : Answer × List (ℕ × Answer)}

theorem guard_cases : ((guard options id passage send).result.ok = false ∧ (guard options id passage send).contacts = []) ∨
    ((guard options id passage send).result.ok = send.1.accepted ∧ (guard options id passage send).contacts = send.2) := by
  unfold guard
  dsimp only
  split
  · exact .inl ⟨rfl,rfl⟩
  · refine .inr ?_
    cases send.1 <;> exact ⟨rfl,rfl⟩

theorem guard_passes (shut : (passage.found.isOpen options passage.started).1 = false) :
    (guard options id passage send).contacts = send.2 := by
  unfold guard
  dsimp only
  rw [shut]
  cases send.1 <;> rfl

end Pezhwan.Delivery
