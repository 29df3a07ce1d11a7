import Pezhwan.Atomic.Machine
import Mathlib.Algebra.Order.Ring.Rat
import Mathlib.Data.Rat.Floor
import Mathlib.Data.List.Sort

namespace Pezhwan.Jobs
open Atomic

-- `serial` tells the objects apart; ids are drawn.
structure Job where
  serial : ℕ
  id : String
  name : String
  attempts : ℕ
  maxAttempts : ℕ
  runAt : ℚ
  createdAt : ℚ
  deriving DecidableEq, Repr

-- Where the drain loop is: it is not running, it waits for a handler, or it is
-- about to look for the next job.
inductive Phase where
  | idle
  | processing (job : Job)
  | looking
  deriving DecidableEq, Repr

def Phase.handled : Phase → Option Job
  | .processing job => some job
  | .idle | .looking => none

-- What is seen of the queue: the jobs it picks and what it picks them from,
-- the handlers that succeed, and what the failure sink is told.
inductive Record where
  | taken (job : Job) (queued : List Job) (time : ℚ)
  | succeeded (serial : ℕ)
  | failed (serial : ℕ) (jobId name reason : String)
  deriving DecidableEq, Repr

structure JobQueue where
  jobs : List Job := []
  handlers : List String := []
  maxAttempts : ℕ := 3
  defaultBackoffMs : ℚ := 1000
  phase : Phase := .idle
  drainTimer : Option ℚ := none
  now : ℚ := 0
  created : List ℕ := []
  log : List Record := []
  deriving DecidableEq, Repr

-- setTimeout takes whole milliseconds, at least 1 and less than 2^31; anything
-- else counts as 1.
def timeout (delay : ℚ) : ℚ := if 1 ≤ delay ∧ delay ≤ 2147483647 then ⌊delay⌋ else 1

namespace JobQueue

def delay (q : JobQueue) (job : Job) : ℚ := q.defaultBackoffMs * 2 ^ job.attempts

def retry (q : JobQueue) (job : Job) : Job := { job with runAt := q.now + q.delay job }

def retryTimer (q : JobQueue) (job : Job) : ℚ := q.now + timeout (max 0 (q.delay job))

def requeue (job : Job) (q : JobQueue) : JobQueue :=
  { q with
    jobs := q.jobs ++ [q.retry job]
    drainTimer := some (q.retryTimer job) }

def tried (job : Job) : Job := { job with attempts := job.attempts + 1 }

def process (job : Job) (q : JobQueue) : JobQueue :=
  if job.name ∈ q.handlers then { q with phase := .processing job }
  else { requeue (tried job) q with phase := .looking }

def next (q : JobQueue) : Option Job := q.jobs.find? fun job => job.runAt ≤ q.now

def take (job : Job) (q : JobQueue) : JobQueue :=
  { q with
    jobs := q.jobs.erase job
    log := .taken job q.jobs q.now :: q.log }

-- One turn of the loop, up to its next await.
def look (q : JobQueue) : JobQueue :=
  match q.next with
  | none => { q with phase := .idle }
  | some job => process job (q.take job)

def drain (q : JobQueue) : JobQueue := if q.phase = .idle then q.look else q

def job (q : JobQueue) (name id : String) (runAt : Option ℚ) (maxAttempts : Option ℕ) : Job where
  serial := q.created.length
  id := id
  name := name
  attempts := 0
  maxAttempts := maxAttempts.getD q.maxAttempts
  runAt := runAt.getD q.now
  createdAt := q.now

def push (job : Job) (q : JobQueue) : JobQueue :=
  { q with
    jobs := (q.jobs ++ [job]).insertionSort (·.runAt ≤ ·.runAt)
    created := q.created ++ [job.maxAttempts] }

def enqueue (q : JobQueue) (name id : String) (runAt : Option ℚ) (maxAttempts : Option ℕ) : JobQueue :=
  (q.push (q.job name id runAt maxAttempts)).drain

def register (q : JobQueue) (name : String) : JobQueue := { q with handlers := name :: q.handlers }

def reject (job : Job) (reason : String) (q : JobQueue) : JobQueue :=
  { q with log := .failed job.serial job.id job.name reason :: q.log }

def succeed (job : Job) (q : JobQueue) : JobQueue :=
  { q with
    phase := .looking
    log := .succeeded job.serial :: q.log }

def fail (job : Job) (cause : String) (q : JobQueue) : JobQueue :=
  if job.maxAttempts ≤ (tried job).attempts then { reject (tried job) cause q with phase := .looking }
  else { requeue (tried job) q with phase := .looking }

def fire (q : JobQueue) : JobQueue := drain { q with drainTimer := none }

end JobQueue

inductive Event where
  | enqueue (name id : String) (runAt : Option ℚ) (maxAttempts : Option ℕ)
  | register (name : String)
  | succeed
  | fail (cause : String)
  | look
  | drain
  | fire
  | clock (now : ℚ)
  deriving DecidableEq, Repr

def step (q : JobQueue) : Event → Option JobQueue
  | .enqueue name id runAt maxAttempts => some (q.enqueue name id runAt maxAttempts)
  | .register name => some (q.register name)
  | .succeed =>
    match q.phase with
    | .processing job => some (q.succeed job)
    | _ => none
  | .fail cause =>
    match q.phase with
    | .processing job => some (q.fail job cause)
    | _ => none
  | .look => if q.phase = .looking then some q.look else none
  | .drain => some q.drain
  | .fire => if q.drainTimer.any (· ≤ q.now) then some q.fire else none
  | .clock now => if q.now ≤ now then some { q with now } else none

-- What is asked of the single actions of a run: of a new job, of a job that is
-- picked, of one that is put back, and of the queue when the timer fires.
structure Care where
  pushes : JobQueue → Job → Prop
  takes : JobQueue → Job → Prop
  retries : JobQueue → Job → Prop
  fires : JobQueue → Prop

namespace Care
variable (care : Care)

def looks (q : JobQueue) : Prop :=
  ∀ job ∈ q.next, care.takes q job ∧ (job.name ∉ q.handlers → care.retries (q.take job) (JobQueue.tried job))

def drains (q : JobQueue) : Prop := q.phase = .idle → care.looks q

def on (q : JobQueue) : Event → Prop
  | .enqueue name id runAt maxAttempts =>
    let job := q.job name id runAt maxAttempts
    care.pushes q job ∧ care.drains (q.push job)
  | .fail _ => ∀ job ∈ q.phase.handled, (JobQueue.tried job).attempts < job.maxAttempts →
      care.retries q (JobQueue.tried job)
  | .look => care.looks q
  | .drain => care.drains q
  | .fire => care.fires q ∧ care.drains { q with drainTimer := none }
  | .register _ | .succeed | .clock _ => True

instance [∀ q job, Decidable (care.pushes q job)] [∀ q job, Decidable (care.takes q job)]
    [∀ q job, Decidable (care.retries q job)] [∀ q, Decidable (care.fires q)] : Decidable (care.on q event) :=
  have looks : ∀ q, Decidable (care.looks q) := fun q => inferInstanceAs (Decidable (∀ job ∈ q.next,_))
  have drains : ∀ q, Decidable (care.drains q) := fun _ => inferInstanceAs (Decidable (_ → _))
  match event with
  | .enqueue _ _ _ _ => inferInstanceAs (Decidable (_ ∧ _))
  | .fail _ => inferInstanceAs (Decidable (∀ job ∈ q.phase.handled,_))
  | .look => looks q
  | .drain => drains q
  | .fire => inferInstanceAs (Decidable (_ ∧ _))
  | .register _ | .succeed | .clock _ => .isTrue trivial

end Care

-- An invariant that the single actions keep when they are done with care; `mid`
-- is what holds of a queue that has changed and is about to be drained.
structure Kept (care : Care) (inv mid : JobQueue → Prop) : Prop where
  push : ∀ {q} {name id runAt maxAttempts}, inv q → care.pushes q (q.job name id runAt maxAttempts) →
    mid (q.push (q.job name id runAt maxAttempts))
  fire : ∀ {q}, inv q → care.fires q → mid { q with drainTimer := none }
  look : ∀ {q}, inv q → mid q
  running : ∀ {q}, mid q → q.phase ≠ .idle → inv q
  rest : ∀ {q}, mid q → (∀ job, q.phase ≠ .processing job) → q.next = none → inv { q with phase := .idle }
  begin : ∀ {q job}, mid q → (∀ other, q.phase ≠ .processing other) → q.next = some job → care.takes q job →
    inv { q.take job with phase := .processing job }
  unhandled : ∀ {q job}, mid q → (∀ other, q.phase ≠ .processing other) → q.next = some job → care.takes q job →
    job.name ∉ q.handlers → care.retries (q.take job) (JobQueue.tried job) →
    inv { (q.take job).requeue (JobQueue.tried job) with phase := .looking }
  succeed : ∀ {q job}, inv q → q.phase = .processing job → inv (q.succeed job)
  reject : ∀ {q job cause}, inv q → q.phase = .processing job → job.maxAttempts ≤ (JobQueue.tried job).attempts →
    inv { q.reject (JobQueue.tried job) cause with phase := .looking }
  requeue : ∀ {q job}, inv q → q.phase = .processing job → (JobQueue.tried job).attempts < job.maxAttempts →
    care.retries q (JobQueue.tried job) → inv { q.requeue (JobQueue.tried job) with phase := .looking }
  register : ∀ {q name}, inv q → inv (q.register name)
  clock : ∀ {q now}, inv q → q.now ≤ now → inv { q with now }

namespace Kept
variable {care : Care} {inv mid : JobQueue → Prop} {q r : JobQueue} {event : Event}

theorem looks (kept : Kept care inv mid) (valid : mid q) (free : ∀ job, q.phase ≠ .processing job)
    (careful : care.looks q) : inv q.look := by
  unfold JobQueue.look
  cases found : q.next with
  | none => exact kept.rest valid free found
  | some job =>
    obtain ⟨takes,retries⟩ := careful job found
    by_cases handled : job.name ∈ q.handlers
    · have begun := kept.begin valid free found takes
      simpa [JobQueue.process,JobQueue.take,handled] using begun
    · have put := kept.unhandled valid free found takes handled (retries handled)
      simpa [JobQueue.process,JobQueue.take,handled] using put

theorem drains (kept : Kept care inv mid) (valid : mid q) (careful : care.drains q) : inv q.drain := by
  unfold JobQueue.drain
  split
  · rename_i idle
    exact kept.looks valid (by simp [idle]) (careful idle)
  · rename_i running
    exact kept.running valid running

theorem steps (kept : Kept care inv mid) (valid : inv q) (taken : step q event = some r) (careful : care.on q event) :
    inv r := by
  cases event with
  | enqueue name id runAt maxAttempts =>
    cases taken
    exact kept.drains (kept.push valid careful.1) careful.2
  | register name =>
    cases taken
    exact kept.register valid
  | succeed =>
    simp only [step] at taken
    split at taken
    · rename_i job busy
      cases taken
      exact kept.succeed valid busy
    · cases taken
  | fail cause =>
    simp only [step] at taken
    split at taken
    · rename_i job busy
      cases taken
      unfold JobQueue.fail
      split
      · rename_i spent
        exact kept.reject valid busy spent
      · rename_i unspent
        exact kept.requeue valid busy (by omega) (careful job (by rw [busy]; rfl) (by omega))
    · cases taken
  | look =>
    simp only [step] at taken
    split at taken
    · rename_i looking
      cases taken
      exact kept.looks (kept.look valid) (by simp [looking]) careful
    · cases taken
  | drain =>
    cases taken
    exact kept.drains (kept.look valid) careful
  | fire =>
    simp only [step] at taken
    split at taken
    · cases taken
      exact kept.drains (kept.fire valid careful.1) careful.2
    · cases taken
  | clock now =>
    simp only [step] at taken
    split at taken
    · rename_i later
      cases taken
      exact kept.clock valid later
    · cases taken

theorem runs (kept : Kept care inv mid) (valid : inv q) (careful : Machine.Each step (fun q event _ => care.on q event) q events) :
    Machine.Each step (fun _ _ r => inv r) q events := by
  refine Machine.each_of valid ?_ careful
  intro q event r valid taken careful
  have next := kept.steps valid taken careful
  exact ⟨next,next⟩

end Kept
end Pezhwan.Jobs
