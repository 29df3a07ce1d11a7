import Pezhwan.Jobs.Queue

namespace Pezhwan.Jobs
open Atomic JobQueue
variable {q : JobQueue} {job : Job} {hand : Option Job}

namespace Record

def takes (n : ℕ) : Record → Bool
  | .taken job _ _ => job.serial == n
  | _ => false

def succeeds (n : ℕ) : Record → Bool
  | .succeeded serial => serial == n
  | _ => false

def fails (n : ℕ) : Record → Bool
  | .failed serial _ _ _ => serial == n
  | _ => false

-- A pick of the job with the smallest runAt among those that are due.
def InOrder : Record → Prop
  | .taken job queued time => job ∈ queued ∧ job.runAt ≤ time ∧
      ∀ other ∈ queued, other.runAt ≤ time → job.runAt ≤ other.runAt
  | _ => True

end Record

-- How often job number `n` was picked, succeeded and was reported.
def taken (q : JobQueue) (n : ℕ) : ℕ := q.log.countP (Record.takes n)
def successes (q : JobQueue) (n : ℕ) : ℕ := q.log.countP (Record.succeeds n)
def failures (q : JobQueue) (n : ℕ) : ℕ := q.log.countP (Record.fails n)
def queued (q : JobQueue) (n : ℕ) : ℕ := (q.jobs.map (·.serial)).count n

-- Each job is picked at most as often as it may be; then it is out of the queue
-- and, once its handler is done with it, has succeeded or been reported once.
structure Bounded (q : JobQueue) : Prop where
  taken_le : ∀ n limit, q.created[n]? = some limit → taken q n ≤ limit
  spent : ∀ n limit, q.created[n]? = some limit → taken q n = limit → queued q n = 0 ∧
    ((∃ job, q.phase = .processing job ∧ job.serial = n) ∨ (successes q n = 1 ∧ failures q n = 0) ∨
      (successes q n = 0 ∧ failures q n = 1))
  ordered : ∀ record ∈ q.log, record.InOrder

-- A job may be picked at all, a job without a handler is not put back for good,
-- and no job is put back before one that is queued for later.
def counted : Care where
  pushes _ job := 1 ≤ job.maxAttempts
  takes _ _ := True
  retries q job := job.attempts < job.maxAttempts ∧ ∀ other ∈ q.jobs, other.runAt ≤ (q.retry job).runAt
  fires _ := True

def inHand (hand : Option Job) (n : ℕ) : ℕ := if hand.map (·.serial) = some n then 1 else 0

-- Every job that was made is in one place: queued, in hand, done or reported.
def Placed (q : JobQueue) (hand : Option Job) : Prop :=
  ∀ n, queued q n + inHand hand n + successes q n + failures q n = if n < q.created.length then 1 else 0

-- Where every job is, with the one the loop has in hand.
structure Accounted (q : JobQueue) (hand : Option Job) : Prop where
  sorted : q.jobs.Pairwise fun a b => a.runAt ≤ b.runAt
  waiting : ∀ job ∈ q.jobs, job.attempts = taken q job.serial ∧ job.attempts < job.maxAttempts ∧
    q.created[job.serial]? = some job.maxAttempts
  held : ∀ job ∈ hand, job.attempts + 1 = taken q job.serial ∧ job.attempts < job.maxAttempts ∧
    q.created[job.serial]? = some job.maxAttempts
  place : Placed q hand
  unborn : ∀ n, q.created.length ≤ n → taken q n = 0
  bounded : ∀ n limit, q.created[n]? = some limit → taken q n ≤ limit
  ordered : ∀ record ∈ q.log, record.InOrder

theorem Accounted.settles (accounted : Accounted q q.phase.handled) : Bounded q where
  taken_le := accounted.bounded
  spent := by
    intro n limit made spent
    have place := accounted.place n
    have born : n < q.created.length := (List.getElem?_eq_some_iff.mp made).1
    rw [if_pos born] at place
    have absent : queued q n = 0 := by
      refine List.count_eq_zero.mpr ?_
      intro listed
      obtain ⟨job,member,rfl⟩ := List.mem_map.mp listed
      obtain ⟨attempted,more,known⟩ := accounted.waiting job member
      cases made.symm.trans known
      omega
    refine ⟨absent,?_⟩
    by_cases busy : q.phase.handled.map (·.serial) = some n
    · obtain ⟨job,held,named⟩ := Option.map_eq_some_iff.mp busy
      refine .inl ⟨job,?_,named⟩
      cases phase : q.phase with
      | processing other => simp_all [Phase.handled]
      | idle => simp [phase,Phase.handled] at held
      | looking => simp [phase,Phase.handled] at held
    · simp only [inHand,busy,if_false] at place
      omega
  ordered := accounted.ordered

theorem next_some (found : q.next = some job) : job ∈ q.jobs ∧ job.runAt ≤ q.now :=
  ⟨List.mem_of_find?_eq_some found,by simpa using List.find?_some found⟩

theorem next_first (sorted : q.jobs.Pairwise fun a b => a.runAt ≤ b.runAt) (found : q.next = some job)
    (listed : other ∈ q.jobs) (due : other.runAt ≤ q.now) : job.runAt ≤ other.runAt := by
  obtain ⟨_,before,after,split,early⟩ := List.find?_eq_some_iff_append.mp found
  rw [split] at sorted listed
  rcases List.mem_append.mp listed with old | later
  · have late := early other old
    simp [due] at late
  · rcases List.mem_cons.mp later with rfl | after
    · exact le_rfl
    · exact (List.pairwise_cons.mp (List.pairwise_append.mp sorted).2.1).1 other after

@[simp] theorem inHand_none : inHand none n = 0 := rfl

@[simp] theorem inHand_some : inHand (some job) n = if job.serial = n then 1 else 0 := by simp [inHand]

theorem taken_log (grown : r.log = record :: q.log) (other : record.takes n = false) : taken r n = taken q n := by
  simp [taken,grown,other]

theorem taken_take : taken (q.take job) n = taken q n + if job.serial = n then 1 else 0 := by
  simp [taken,take,List.countP_cons,Record.takes]

theorem successes_take : successes (q.take job) n = successes q n := by simp [successes,take,Record.succeeds]

theorem failures_take : failures (q.take job) n = failures q n := by simp [failures,take,Record.fails]

theorem queued_take (listed : job ∈ q.jobs) : queued q n = queued (q.take job) n + if job.serial = n then 1 else 0 := by
  have same := ((List.perm_cons_erase listed).map (·.serial)).count_eq n
  simpa [queued,take,List.count_cons] using same

theorem queued_requeue : queued (q.requeue job) n = queued q n + if job.serial = n then 1 else 0 := by
  simp [queued,requeue,retry,List.count_append,List.count_cons]

theorem placed_take (placed : Placed q none) (found : q.next = some job) : Placed (q.take job) (some job) := by
  intro n
  have place := placed n
  rw [queued_take (next_some found).1] at place
  rw [successes_take,failures_take]
  rw [inHand_some]
  rw [inHand_none] at place
  exact Eq.trans (by omega) place

theorem placed_requeue (placed : Placed q (some job)) : Placed (q.requeue (tried job)) none := by
  intro n
  have place := placed n
  have back : queued (q.requeue (tried job)) n = queued q n + if job.serial = n then 1 else 0 := queued_requeue
  have quiet : successes (q.requeue (tried job)) n = successes q n ∧ failures (q.requeue (tried job)) n = failures q n :=
    ⟨rfl,rfl⟩
  rw [back,quiet.1,quiet.2,inHand_none]
  rw [inHand_some] at place
  exact Eq.trans (by omega) place

theorem placed_logged (placed : Placed q (some job)) (jobs : r.jobs = q.jobs) (created : r.created = q.created)
    (log : r.log = record :: q.log)
    (once : ∀ n, (if record.succeeds n then 1 else 0) + (if record.fails n then 1 else 0) = if job.serial = n then 1 else 0) :
    Placed r none := by
  intro n
  have place := placed n
  have one := once n
  unfold queued successes failures at place ⊢
  rw [jobs,created,log,inHand_none,List.countP_cons,List.countP_cons]
  rw [inHand_some] at place
  exact Eq.trans (by omega) place

theorem created_push (q : JobQueue) (new : Job) : (q.push new).created.length = q.created.length + 1 := by simp [push]

theorem placed_push {new : Job} (placed : Placed q hand) (numbered : new.serial = q.created.length) :
    Placed (q.push new) hand := by
  intro n
  have place := placed n
  have more : queued (q.push new) n = queued q n + if q.created.length = n then 1 else 0 := by
    have same := ((List.perm_insertionSort (fun a b : Job => a.runAt ≤ b.runAt)
      (q.jobs ++ [new])).map (·.serial)).count_eq n
    rw [List.map_append,List.count_append] at same
    simpa [queued,push,List.count_cons,numbered] using same
  have quiet : successes (q.push new) n = successes q n ∧
      failures (q.push new) n = failures q n := ⟨rfl,rfl⟩
  rw [more,quiet.1,quiet.2,created_push]
  split at place <;> split <;> split <;> omega

theorem accounted_take (accounted : Accounted q none) (found : q.next = some job) :
    Accounted (q.take job) (some job) := by
  obtain ⟨listed,due⟩ := next_some found
  obtain ⟨attempted,more,known⟩ := accounted.waiting job listed
  have single := accounted.place job.serial
  rw [queued_take listed,if_pos rfl] at single
  have alone : queued (q.take job) job.serial = 0 := by
    split at single <;> omega
  refine ⟨accounted.sorted.sublist List.erase_sublist,?_,?_,?_,?_,?_,?_⟩
  · intro other kept
    have distinct : ¬job.serial = other.serial := by
      intro same
      have present : 0 < queued (q.take job) job.serial := by
        rw [same]
        exact List.count_pos_iff.mpr (List.mem_map_of_mem kept)
      omega
    obtain ⟨tries,fewer,made⟩ := accounted.waiting other (List.mem_of_mem_erase kept)
    rw [taken_take,if_neg distinct]
    exact ⟨tries,fewer,made⟩
  · intro held same
    cases same
    rw [taken_take,if_pos rfl]
    exact ⟨by omega,more,known⟩
  · exact placed_take accounted.place found
  · intro n unborn
    have older : ¬job.serial = n := by
      have born := (List.getElem?_eq_some_iff.mp known).1
      have unborn : q.created.length ≤ n := unborn
      omega
    rw [taken_take,if_neg older]
    exact accounted.unborn n unborn
  · intro n limit made
    have made : q.created[n]? = some limit := made
    rw [taken_take]
    split
    · rename_i same
      subst same
      cases made.symm.trans known
      omega
    · exact accounted.bounded n limit made
  · intro record listed_record
    rcases List.mem_cons.mp listed_record with rfl | old
    · exact ⟨listed,due,fun other also early => next_first accounted.sorted found also early⟩
    · exact accounted.ordered record old

theorem accounted_requeue (accounted : Accounted q (some job)) (fine : counted.retries q (tried job)) :
    Accounted (q.requeue (tried job)) none := by
  obtain ⟨attempted,_,known⟩ := accounted.held job rfl
  obtain ⟨more,last⟩ := fine
  refine ⟨?_,?_,by simp,?_,accounted.unborn,accounted.bounded,accounted.ordered⟩
  · refine List.pairwise_append.mpr ⟨accounted.sorted,List.pairwise_singleton _ _,?_⟩
    intro other listed back same
    cases List.mem_singleton.mp same
    exact last other listed
  · intro other listed
    rcases List.mem_append.mp listed with old | back
    · exact accounted.waiting other old
    · cases List.mem_singleton.mp back
      exact ⟨attempted,more,known⟩
  · exact placed_requeue accounted.place

theorem Accounted.logged (accounted : Accounted q hand) (jobs : r.jobs = q.jobs) (created : r.created = q.created)
    (log : r.log = record :: q.log) (other : ∀ n, record.takes n = false) (ordered : record.InOrder)
    (placed : Placed r none) : Accounted r none := by
  have same : ∀ n, taken r n = taken q n := fun n => taken_log log (other n)
  refine ⟨jobs ▸ accounted.sorted,?_,by simp,placed,?_,?_,?_⟩
  · intro job listed
    rw [same,created]
    exact accounted.waiting job (jobs ▸ listed)
  · intro n unborn
    rw [same]
    exact accounted.unborn n (created ▸ unborn)
  · intro n limit made
    rw [same]
    exact accounted.bounded n limit (created ▸ made)
  · intro old listed
    rw [log] at listed
    rcases List.mem_cons.mp listed with rfl | old
    · exact ordered
    · exact accounted.ordered _ old

theorem placed_succeed (placed : Placed q (some job)) : Placed (q.succeed job) none :=
  placed_logged placed rfl rfl rfl fun n => by simp [Record.succeeds,Record.fails]

theorem placed_reject (placed : Placed q (some job)) : Placed (q.reject (tried job) cause) none :=
  placed_logged placed rfl rfl rfl fun n => by simp [Record.succeeds,Record.fails,tried]

theorem accounted_succeed (accounted : Accounted q (some job)) : Accounted (q.succeed job) none :=
  accounted.logged rfl rfl rfl (fun _ => rfl) True.intro (placed_succeed accounted.place)

theorem accounted_reject (accounted : Accounted q (some job)) : Accounted (q.reject (tried job) cause) none :=
  accounted.logged rfl rfl rfl (fun _ => rfl) True.intro (placed_reject accounted.place)

theorem accounted_push {new : Job} (accounted : Accounted q hand) (numbered : new.serial = q.created.length)
    (untried : new.attempts = 0) (fine : 1 ≤ new.maxAttempts) :
    Accounted (q.push new) hand := by
  have members : ∀ other, other ∈ (q.push new).jobs ↔
      other ∈ q.jobs ∨ other = new := by
    intro other
    simp [push,List.mem_insertionSort]
  have older : ∀ {n limit : ℕ}, q.created[n]? = some limit →
      (q.push new).created[n]? = some limit := by
    intro n limit made
    exact (List.getElem?_append_left (List.getElem?_eq_some_iff.mp made).1).trans made
  have newest : (q.push new).created[q.created.length]? =
      some new.maxAttempts := by
    simp [push]
  have untaken := accounted.unborn q.created.length le_rfl
  refine ⟨?_,?_,?_,?_,?_,?_,accounted.ordered⟩
  · exact List.pairwise_insertionSort _ _
  · intro other listed
    rcases (members other).mp listed with old | rfl
    · obtain ⟨tries,fewer,made⟩ := accounted.waiting other old
      exact ⟨tries,fewer,older made⟩
    · rw [untried,numbered]
      exact ⟨untaken.symm,fine,newest⟩
  · intro job held
    obtain ⟨tries,fewer,made⟩ := accounted.held job held
    exact ⟨tries,fewer,older made⟩
  · exact placed_push accounted.place numbered
  · intro n unborn
    have longer := created_push q new
    exact accounted.unborn n (by omega)
  · intro n limit made
    by_cases last : n = q.created.length
    · subst last
      cases newest.symm.trans made
      rw [show taken (q.push new) q.created.length = 0 from untaken]
      exact Nat.zero_le _
    · have known : q.created[n]? = some limit := by
        have born := (List.getElem?_eq_some_iff.mp made).1
        have longer := created_push q new
        exact (List.getElem?_append_left (by omega)).symm.trans made
      exact accounted.bounded n limit known

theorem Accounted.same (accounted : Accounted q hand) (jobs : r.jobs = q.jobs) (created : r.created = q.created)
    (log : r.log = q.log) : Accounted r hand := by
  obtain ⟨sorted,waiting,held,place,unborn,bounded,ordered⟩ := accounted
  unfold taken at waiting held unborn bounded
  unfold Placed queued successes failures at place
  rw [← jobs] at sorted waiting place
  rw [← created] at waiting held place unborn bounded
  rw [← log] at waiting held place unborn bounded ordered
  exact ⟨sorted,waiting,held,place,unborn,bounded,ordered⟩

theorem free_none (free : ∀ job, q.phase ≠ .processing job) : q.phase.handled = none := by
  cases phase : q.phase with
  | processing job => exact absurd phase (free job)
  | idle => rfl
  | looking => rfl

theorem counted_kept : Kept counted (fun q => Accounted q q.phase.handled) (fun q => Accounted q q.phase.handled) where
  push accounted fine := accounted_push accounted rfl rfl fine
  fire accounted _ := accounted.same rfl rfl rfl
  look accounted := accounted
  running accounted _ := accounted
  rest := by
    intro q accounted free _
    rw [free_none free] at accounted
    exact accounted.same rfl rfl rfl
  begin := by
    intro q job accounted free found _
    rw [free_none free] at accounted
    have held := accounted_take accounted found
    exact held.same rfl rfl rfl
  unhandled := by
    intro q job accounted free found _ _ fine
    rw [free_none free] at accounted
    have back := accounted_requeue (accounted_take accounted found) fine
    exact back.same rfl rfl rfl
  succeed := by
    intro q job accounted busy
    rw [busy] at accounted
    exact accounted_succeed accounted
  reject := by
    intro q job cause accounted busy _
    rw [busy] at accounted
    exact (accounted_reject accounted).same rfl rfl rfl
  requeue := by
    intro q job accounted busy _ fine
    rw [busy] at accounted
    have back := accounted_requeue accounted fine
    exact back.same rfl rfl rfl
  register accounted := accounted.same rfl rfl rfl
  clock accounted _ := accounted.same rfl rfl rfl

theorem accounted_initial (maxAttempts : ℕ) (defaultBackoffMs now : ℚ) :
    Accounted { maxAttempts, defaultBackoffMs, now } none where
  sorted := .nil
  waiting := by simp
  held := by simp
  place n := by simp [queued,successes,failures]
  unborn n _ := rfl
  bounded := by simp
  ordered := by simp

-- In every run in which every job may be picked at all, no job is put back
-- without a handler when its attempts are spent and none goes back before a
-- job that is queued for later.
theorem jobs_bounded (maxAttempts : ℕ) (defaultBackoffMs now : ℚ) (events : List Event)
    (careful : Machine.Each step (fun q event _ => counted.on q event) { maxAttempts, defaultBackoffMs, now } events) :
    Machine.Each step (fun _ _ q => Bounded q) { maxAttempts, defaultBackoffMs, now } events :=
  (counted_kept.runs (accounted_initial maxAttempts defaultBackoffMs now) careful).mono fun _ _ _ accounted =>
    accounted.settles

instance : ∀ q job, Decidable (counted.pushes q job) := fun _ job => inferInstanceAs (Decidable (1 ≤ job.maxAttempts))
instance : ∀ q job, Decidable (counted.takes q job) := fun _ _ => .isTrue trivial
instance : ∀ q job, Decidable (counted.retries q job) := fun _ _ => inferInstanceAs (Decidable (_ ∧ ∀ other ∈ _,_))
instance : ∀ q, Decidable (counted.fires q) := fun _ => .isTrue trivial

-- A job that fails twice and may be picked twice.
def failing : List Event :=
  [.register "mail",.enqueue "mail" "a" none (some 2),.fail "refused",.look,.clock 2000,.fire,.fail "refused",.look]

theorem jobs_bounded_failing :
    (Machine.run step { maxAttempts := 3, defaultBackoffMs := 1000, now := 0 } failing).map
        (fun q => (q.jobs,taken q 0,failures q 0)) = some ([],2,1) ∧
      Machine.Each step (fun _ _ q => Bounded q) { maxAttempts := 3, defaultBackoffMs := 1000, now := 0 } failing :=
  ⟨by decide +kernel,jobs_bounded 3 1000 0 failing (by decide +kernel)⟩

theorem jobs_unbounded : ¬∀ (maxAttempts : ℕ) (defaultBackoffMs now : ℚ) (events : List Event),
    Machine.Each step (fun _ _ q => Bounded q) { maxAttempts, defaultBackoffMs, now } events := by
  intro all
  have each := all 3 1000 0 [.enqueue "mail" "a" none (some 1),.look,.clock 2000,.fire]
  have once := each.mono (fun _ _ q bounded (made : q.created[0]? = some 1) => bounded.taken_le 0 1 made)
  exact absurd once (by decide +kernel)

theorem Placed.same (placed : Placed q hand) (jobs : r.jobs = q.jobs) (created : r.created = q.created)
    (log : r.log = q.log) : Placed r hand := by
  unfold Placed queued successes failures at placed ⊢
  rwa [jobs,created,log]

-- Whatever may be picked or put back.
def careless : Care := ⟨fun _ _ => True,fun _ _ => True,fun _ _ => True,fun _ => True⟩

theorem placed_kept : Kept careless (fun q => Placed q q.phase.handled) (fun q => Placed q q.phase.handled) where
  push placed _ := placed_push placed rfl
  fire placed _ := placed.same rfl rfl rfl
  look placed := placed
  running placed _ := placed
  rest := by
    intro q placed free _
    rw [free_none free] at placed
    exact placed.same rfl rfl rfl
  begin := by
    intro q job placed free found _
    rw [free_none free] at placed
    exact (placed_take placed found).same rfl rfl rfl
  unhandled := by
    intro q job placed free found _ _ _
    rw [free_none free] at placed
    exact (placed_requeue (placed_take placed found)).same rfl rfl rfl
  succeed := by
    intro q job placed busy
    rw [busy] at placed
    exact placed_succeed placed
  reject := by
    intro q job cause placed busy _
    rw [busy] at placed
    exact (placed_reject placed).same rfl rfl rfl
  requeue := by
    intro q job placed busy _ _
    rw [busy] at placed
    exact (placed_requeue placed).same rfl rfl rfl
  register placed := placed.same rfl rfl rfl
  clock placed _ := placed.same rfl rfl rfl

theorem jobs_conserved (maxAttempts : ℕ) (defaultBackoffMs now : ℚ) (events : List Event) :
    Machine.Each step (fun _ _ q => Placed q q.phase.handled) { maxAttempts, defaultBackoffMs, now } events := by
  refine placed_kept.runs (accounted_initial maxAttempts defaultBackoffMs now).place (Machine.each_of_mem fun event _ q => ?_)
  cases event <;> simp [careless,Care.on,Care.drains,Care.looks]

end Pezhwan.Jobs
