import Pezhwan.Jobs.Queue
import Mathlib.Tactic.Linarith

namespace Pezhwan.Jobs
open Atomic JobQueue
variable {q : JobQueue} {job : Job}

-- No job is stranded: the queue rests only when the timer is set for every job.
def Awake (q : JobQueue) : Prop :=
  q.phase = .idle → q.jobs ≠ [] → ∃ due ∈ q.drainTimer, ∀ job ∈ q.jobs, due ≤ job.runAt

def DueOrTimed (q : JobQueue) (runAt : ℚ) : Prop := runAt ≤ q.now ∨ ∃ due ∈ q.drainTimer, due ≤ runAt

-- A job for later finds the timer set early enough, a job that is put back does
-- not take the timer away from an earlier one, and the timer does not leave
-- jobs for later behind when it fires.
def timed : Care where
  pushes q job := DueOrTimed q job.runAt
  takes _ _ := True
  retries q job := ∀ other ∈ q.retry job :: q.jobs, other.runAt ≤ q.now ∨ q.retryTimer job ≤ other.runAt
  fires q := ∀ job ∈ q.jobs, job.runAt ≤ q.now

def Tended (q : JobQueue) : Prop := ∀ job ∈ q.jobs, DueOrTimed q job.runAt

theorem next_none (nothing : q.next = none) (listed : job ∈ q.jobs) : q.now < job.runAt := by
  have early := List.find?_eq_none.mp nothing job listed
  simpa using early

theorem requeue_tended (fine : timed.retries q job) : Tended { q.requeue job with phase := .looking } := by
  intro other listed
  have member : other ∈ q.retry job :: q.jobs := by simpa [requeue,or_comm] using listed
  rcases fine other member with due | covered
  · exact .inl due
  · exact .inr ⟨_,rfl,covered⟩

theorem timed_kept : Kept timed (fun q => Tended q ∧ Awake q) Tended where
  push := by
    intro q name id runAt maxAttempts valid fine other listed
    have member : other ∈ q.jobs ∨ other = q.job name id runAt maxAttempts := by
      simpa [push,List.mem_insertionSort] using listed
    rcases member with old | rfl
    · exact valid.1 other old
    · exact fine
  fire := by
    intro q _ due job listed
    exact .inl (due job listed)
  look valid := valid.1
  running valid busy := ⟨valid,fun idle => absurd idle busy⟩
  rest := by
    intro q tended _ nothing
    refine ⟨tended,?_⟩
    intro _ filled
    obtain ⟨first,listed⟩ := List.exists_mem_of_ne_nil _ filled
    have covered : ∀ job ∈ q.jobs, ∃ due ∈ q.drainTimer, due ≤ job.runAt := by
      intro job listed
      rcases tended job listed with due | covered
      · exact absurd due (not_le_of_gt (next_none nothing listed))
      · exact covered
    obtain ⟨due,armed,_⟩ := covered first listed
    refine ⟨due,armed,?_⟩
    intro job listed
    obtain ⟨same,also,early⟩ := covered job listed
    cases armed.symm.trans also
    exact early
  begin := by
    intro q job tended _ _ _
    refine ⟨?_,by simp [Awake]⟩
    intro other listed
    exact tended other (List.mem_of_mem_erase listed)
  unhandled _ _ _ _ _ fine := ⟨requeue_tended fine,by simp [Awake]⟩
  succeed := by
    intro q job valid _
    exact ⟨valid.1,by simp [Awake,succeed]⟩
  reject := by
    intro q job cause valid _ _
    exact ⟨valid.1,by simp [Awake]⟩
  requeue _ _ _ fine := ⟨requeue_tended fine,by simp [Awake]⟩
  register valid := valid
  clock := by
    intro q now valid later
    refine ⟨?_,valid.2⟩
    intro job listed
    rcases valid.1 job listed with due | covered
    · exact .inl (due.trans later)
    · exact .inr covered

theorem never_stranded (maxAttempts : ℕ) (defaultBackoffMs now : ℚ) (events : List Event)
    (careful : Machine.Each step (fun q event _ => timed.on q event) { maxAttempts, defaultBackoffMs, now } events) :
    Machine.Each step (fun _ _ q => Awake q) { maxAttempts, defaultBackoffMs, now } events := by
  have tended : Tended { maxAttempts, defaultBackoffMs, now } ∧ Awake { maxAttempts, defaultBackoffMs, now } :=
    ⟨by simp [Tended],by simp [Awake]⟩
  exact (timed_kept.runs tended careful).mono fun _ _ _ valid => valid.2

instance : Decidable (Awake q) := inferInstanceAs (Decidable (_ → _))
instance : Decidable (DueOrTimed q runAt) := inferInstanceAs (Decidable (_ ∨ _))
instance : ∀ q job, Decidable (timed.pushes q job) := fun q job => inferInstanceAs (Decidable (DueOrTimed q job.runAt))
instance : ∀ q job, Decidable (timed.takes q job) := fun _ _ => .isTrue trivial
instance : ∀ q job, Decidable (timed.retries q job) := fun _ _ => inferInstanceAs (Decidable (∀ other ∈ _,_))
instance : ∀ q, Decidable (timed.fires q) := fun _ => inferInstanceAs (Decidable (∀ job ∈ _,_))

def retried : List Event :=
  [.register "mail",.enqueue "mail" "a" none none,.fail "refused",.look,.clock 2000,.fire,.succeed,.look]

theorem never_stranded_retried :
    (Machine.run step { maxAttempts := 3, defaultBackoffMs := 1000, now := 0 } retried).map
        (fun q => (q.phase,q.jobs,q.drainTimer)) = some (.idle,[],none) ∧
      Machine.Each step (fun _ _ q => Awake q) { maxAttempts := 3, defaultBackoffMs := 1000, now := 0 } retried :=
  ⟨by decide +kernel,never_stranded 3 1000 0 retried (by decide +kernel)⟩

theorem stranded : ¬∀ (maxAttempts : ℕ) (defaultBackoffMs now : ℚ) (events : List Event),
    Machine.Each step (fun _ _ q => Awake q) { maxAttempts, defaultBackoffMs, now } events := by
  intro all
  exact absurd (all 3 1000 0 [.register "mail",.enqueue "mail" "a" (some 60000) none]) (by decide +kernel)

end Pezhwan.Jobs
