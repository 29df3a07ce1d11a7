import Pezhwan.Mfa.Follow

-- The failures and the lock of a user, and what the scripts make of them.
namespace Pezhwan.Mfa
open Atomic Prog Config Auth Script

-- The failures of the user since the last reset, and the lock.
structure Throttle where
  failed : Nat
  lockUntil : Option Nat
  deriving DecidableEq, Repr

def throttle (userId : String) (w : World) : Option Throttle :=
  (userById userId w).map fun user => ⟨user.mfaFailedAttempts,user.mfaLockUntil⟩

def lockUntil (userId : String) (w : World) : Option Nat := (throttle userId w).bind Throttle.lockUntil

def Locked (userId : String) (w : World) : Prop := ∃ until_, lockUntil userId w = some until_ ∧ w.base.now < until_

def Step.throttles (now : Nat) : Step → Throttle → Throttle
  | .expire,_ => ⟨0,none⟩
  | .clear,held => if 0 < held.failed then ⟨0,none⟩ else held
  | .count,held => ⟨held.failed + 1,held.lockUntil⟩
  | .lock,held => ⟨held.failed,some (now + MFA_LOCK_MS)⟩
  | _,held => held

-- The steps that compare a code.
def Step.compares : Step → Bool
  | .totp _ | .rows => true
  | _ => false

-- The steps that the lock must have admitted.
def Step.guarded : Step → Bool
  | .totp _ | .rows | .expire | .clear => true
  | _ => false

section
variable {service : MfaService} {userId : String}

theorem throttle_update (step : Step) (i : CallId) (w : World) :
    throttle userId (step.update service userId i w) = (throttle userId w).map (step.throttles w.base.now) := by
  rw [throttle,throttle,userById_update,Option.map_map,Option.map_map]
  congr 1
  funext user
  cases step with
  | clear =>
    by_cases failed : 0 < user.mfaFailedAttempts
    · simp [Step.throttles,Step.rewrites,failed]
    · simp [Step.throttles,Step.rewrites,failed]
  | look | time | rows | totp | draw | mark | removeCodes | dropCodes | storeCodes | expire | touch | count | lock | switchOff
  | switchOn | storeSecret => rfl

theorem lockUntil_user (found : userById userId w = some user) : lockUntil userId w = user.mfaLockUntil := by
  unfold lockUntil throttle
  rw [found]
  rfl

theorem lockUntil_absent (absent : userById userId w = none) : lockUntil userId w = none := by
  unfold lockUntil throttle
  rw [absent]
  rfl

-- What the check of the lock has met when it lets an attempt through.
def Open (userId : String) (look : World) (after : List World) : Prop :=
  lockUntil userId look = none ∨ lockUntil userId look = some 0 ∨ ∃ until_ clock expired rest,
    lockUntil userId look = some until_ ∧ after = clock :: expired :: rest ∧ until_ ≤ clock.base.now ∧
    lockedScript userId [look,clock] = .error .expire

theorem locked_open (ended : lockedScript userId states = .ok (false,rest)) :
    ∃ look after, states = look :: after ∧ Open userId look after := by
  obtain ⟨look,left,seen,later⟩ := bind_ok.mp ended
  cases see_ok.mp seen
  refine ⟨look,left,rfl,?_⟩
  cases found : userById userId look with
  | none => exact .inl (lockUntil_absent found)
  | some user =>
    rw [found] at later
    obtain ⟨clock,left',seen',rest'⟩ := bind_ok.mp later
    cases see_ok.mp seen'
    have lock := lockUntil_user found
    unfold Open
    rw [lock]
    cases held : user.mfaLockUntil with
    | none => exact .inl rfl
    | some until_ =>
      rw [held] at rest'
      dsimp only at rest'
      split at rest'
      · cases rest'
      · rename_i passed
        split at rest'
        · rename_i positive
          obtain ⟨expired,left'',seen'',_⟩ := bind_ok.mp rest'
          cases see_ok.mp seen''
          refine .inr (.inr ⟨until_,clock,expired,left'',rfl,rfl,by omega,?_⟩)
          unfold lockedScript
          rw [bind_apply]
          dsimp only [see]
          rw [found]
          dsimp only
          rw [bind_apply]
          dsimp only [see]
          rw [held]
          dsimp only
          rw [if_neg passed,if_pos positive]
          rfl
        · rename_i zero
          exact .inr (.inl (by rw [Nat.eq_zero_of_not_pos zero]))

theorem locked_expires {step : Step} (asked : lockedScript userId states = .error step) (guarded : step.guarded = true) :
    step = .expire ∧ ∃ look clock until_, states = [look,clock] ∧ lockUntil userId look = some until_ ∧ until_ ≤ clock.base.now := by
  rcases bind_error.mp asked with first | ⟨look,left,seen,later⟩
  · rw [← (see_error.mp first).2] at guarded
    cases guarded
  · cases see_ok.mp seen
    cases found : userById userId look with
    | none => rw [found] at later; cases later
    | some user =>
      rw [found] at later
      rcases bind_error.mp later with second | ⟨clock,left',seen',rest⟩
      · rw [← (see_error.mp second).2] at guarded
        cases guarded
      · cases see_ok.mp seen'
        have lock := lockUntil_user found
        cases held : user.mfaLockUntil with
        | none => rw [held] at rest; cases rest
        | some until_ =>
          rw [held] at rest
          dsimp only at rest
          split at rest
          · cases rest
          · rename_i passed
            split at rest
            · rcases bind_error.mp rest with here | ⟨_,_,_,halted⟩
              · obtain ⟨rfl,same⟩ := see_error.mp here
                exact ⟨same.symm,look,clock,until_,rfl,lock.trans held,by omega⟩
              · cases halted
            · cases rest

-- The number of the move that reads the lock.
def Attempt.checks : Attempt → Nat
  | .verifyMfa _ => 1
  | .disable _ => 2

-- A guarded step follows a read of the lock that let the attempt through.
structure Checked (service : MfaService) (userId : String) (call : Attempt) (states : List World) (step : Step)
    (look : World) (after : List World) : Prop where
  placed : ∃ before, states = before ++ look :: after ∧ before.length + 1 = call.checks ∧
    ∀ more, lockedScript userId more = .error .expire → script service userId call (before ++ more) = .error .expire
  admitted : (step = .expire ∧ ∃ clock until_, after = [clock] ∧ lockUntil userId look = some until_ ∧ until_ ≤ clock.base.now) ∨
    Open userId look after

theorem checked {call : Attempt} {step : Step} (asked : script service userId call states = .error step)
    (guarded : step.guarded = true) : ∃ look after, Checked service userId call states step look after := by
  cases call with
  | verifyMfa code =>
    have begins : ∀ more, lockedScript userId more = .error .expire →
        script service userId (.verifyMfa code) ([] ++ more) = .error .expire := by
      intro more expires
      change (lockedScript userId >>= _) more = _
      rw [bind_apply,expires]
    rcases bind_error.mp asked with here | ⟨locked,left,ended,later⟩
    · obtain ⟨same,look,clock,until_,rfl,lock,passed⟩ := locked_expires here guarded
      exact ⟨look,[clock],⟨[],rfl,rfl,begins⟩,.inl ⟨same,clock,until_,rfl,lock,passed⟩⟩
    · cases locked with
      | true => cases later
      | false =>
        obtain ⟨look,after,rfl,admits⟩ := locked_open ended
        exact ⟨look,after,⟨[],rfl,rfl,begins⟩,.inr admits⟩
  | disable code =>
    rcases bind_error.mp asked with first | ⟨w,left,seen,later⟩
    · rw [← (see_error.mp first).2] at guarded
      cases guarded
    · cases see_ok.mp seen
      split at later
      · cases later
      · rename_i enabled
        have begins : ∀ more, lockedScript userId more = .error .expire →
            script service userId (.disable code) ([w] ++ more) = .error .expire := by
          intro more expires
          change (if _ then _ else _ : MfaScript Bool) more = _
          rw [if_neg enabled,bind_apply,expires]
        rcases bind_error.mp later with here | ⟨locked,left',ended,later'⟩
        · obtain ⟨same,look,clock,until_,rfl,lock,passed⟩ := locked_expires here guarded
          exact ⟨look,[clock],⟨[w],rfl,rfl,begins⟩,.inl ⟨same,clock,until_,rfl,lock,passed⟩⟩
        · cases locked with
          | true => cases later'
          | false =>
            obtain ⟨look,after,rfl,admits⟩ := locked_open ended
            exact ⟨look,after,⟨[w],rfl,rfl,begins⟩,.inr admits⟩

-- The steps of a failure.
def Step.fails : Step → Bool
  | .rows | .count => true
  | _ => false

variable {platform : Platform} {code : String} {step next : Step}

theorem leads_other {other : Step} (failing : step.fails = true) (different : other.fails = false) :
    Leads step w next (see other : MfaScript World) := by
  apply leads_see
  rintro rfl
  rw [different] at failing
  cases failing

theorem leads_locked (failing : step.fails = true) : Leads step w next (lockedScript userId) := by
  apply leads_bind (local_see _) (leads_other failing rfl)
  intro first
  cases userById userId first with
  | none => exact leads_pure false
  | some user =>
    apply leads_bind (local_see _) (leads_other failing rfl)
    intro clock
    cases user.mfaLockUntil with
    | none => exact leads_pure false
    | some until_ =>
      dsimp only
      split
      · exact leads_pure true
      · split
        · exact leads_bind (local_see _) (leads_other failing rfl) fun _ => leads_pure false
        · exact leads_pure false

theorem leads_accept (failing : step.fails = true) : Leads step w next acceptScript := by
  apply leads_bind (local_see _) (leads_other failing rfl)
  intro _
  exact leads_bind (local_see _) (leads_other failing rfl) fun _ => leads_pure true

theorem leads_switchOff (failing : step.fails = true) : Leads step w next switchOffScript := by
  apply leads_bind (local_see _) (leads_other failing rfl)
  intro _
  apply leads_bind (local_see _) (leads_other failing rfl)
  intro _
  exact leads_bind (local_see _) (leads_other failing rfl) fun _ => leads_pure true

-- The part of an attempt in which it can fail, with what follows a success.
def failingScript (platform : Platform) (userId code : String) (succeed : MfaScript Bool) : MfaScript Bool := do
  if ← backupScript platform userId code then succeed
  else do
    recordScript userId
    pure false

theorem leads_challenge (failing : step.fails = true)
    (leads : Leads step w next (failingScript platform userId code acceptScript)) (wrapped : Option String) :
    Leads step w next (challengeScript platform userId code wrapped) := by
  cases wrapped with
  | none => exact leads_pure false
  | some wrapped =>
    unfold challengeScript
    dsimp only
    cases platform.unwrap wrapped with
    | error e => exact leads_pure false
    | ok secret =>
      apply leads_bind (local_see _) (leads_other failing rfl)
      intro clock
      split
      · exact leads_accept failing
      · exact leads

theorem leads_script {call : Attempt} (failing : step.fails = true)
    (accept : Leads step w next (failingScript service.platform userId call.code acceptScript))
    (switchOff : Leads step w next (failingScript service.platform userId call.code switchOffScript)) :
    Leads step w next (script service userId call) := by
  cases call with
  | verifyMfa code =>
    apply leads_bind local_locked (leads_locked failing)
    intro locked
    cases locked with
    | true => exact leads_pure false
    | false => exact leads_bind (local_see _) (leads_other failing rfl) fun _ => leads_challenge failing accept _
  | disable code =>
    apply leads_bind (local_see _) (leads_other failing rfl)
    intro w
    dsimp only
    split
    · exact leads_pure false
    · apply leads_bind local_locked (leads_locked failing)
      intro locked
      cases locked with
      | true => exact leads_pure false
      | false =>
        simp only [Bool.false_eq_true,if_false]
        cases truthy ((userById userId w).bind UserDoc.mfaSecret) with
        | none => exact switchOff
        | some wrapped =>
          dsimp only
          cases service.platform.unwrap wrapped with
          | error e => exact leads_pure false
          | ok secret =>
            apply leads_bind (local_see _) (leads_other failing rfl)
            intro clock
            split
            · exact leads_switchOff failing
            · exact switchOff

theorem count_failing {succeed : MfaScript Bool} (wrong : unusedRow platform userId code w = none)
    (succeeds : Leads .rows w .count succeed) : Leads .rows w .count (failingScript platform userId code succeed) := by
  apply leads_last (local_backup platform code)
  · intro states asked
    rcases bind_error.mp asked with first | ⟨look,left,seen,later⟩
    · rw [(see_error.mp first).1]
      refine ⟨false,?_,rfl⟩
      unfold backupScript
      rw [List.nil_append,see_bind,wrong]
      rfl
    · cases found : unusedRow platform userId code look with
      | none => rw [found] at later; cases later
      | some row =>
        rw [found] at later
        rcases bind_error.mp later with mark | ⟨_,_,_,halted⟩
        · cases (see_error.mp mark).2
        · cases halted
  · intro used
    cases used with
    | true => exact succeeds
    | false =>
      refine leads_bind local_record ?_ fun _ => leads_pure false
      apply leads_bind (local_see _) (leads_see (by simp))
      intro first
      cases (userById userId first).map fun user => user.mfaFailedAttempts + 1 with
      | none => exact leads_pure ()
      | some attempts =>
        dsimp only
        split
        · exact leads_bind (local_see _) (leads_see (by simp)) fun _ => leads_pure ()
        · exact leads_pure ()

theorem lock_failing {succeed : MfaScript Bool} (found : throttle userId w = some held) (last : MFA_MAX_ATTEMPTS ≤ held.failed + 1)
    (succeeds : Leads .count w .lock succeed) : Leads .count w .lock (failingScript platform userId code succeed) := by
  obtain ⟨user,known,rfl⟩ := Option.map_eq_some_iff.mp found
  apply leads_bind (local_backup platform code)
  · apply leads_bind (local_see _) (leads_see (by simp))
    intro look
    cases unusedRow platform userId code look with
    | none => exact leads_pure false
    | some row => exact leads_bind (local_see _) (leads_see (by simp)) fun _ => leads_pure true
  · intro used
    cases used with
    | true => exact succeeds
    | false =>
      refine leads_bind local_record ?_ fun _ => leads_pure false
      intro states asked
      rcases bind_error.mp asked with first | ⟨look,left,seen,later⟩
      · rw [(see_error.mp first).1]
        unfold recordScript
        rw [List.nil_append,see_bind,known]
        dsimp only [Option.map_some]
        rw [if_pos last]
        rfl
      · cases counted : (userById userId look).map fun user => user.mfaFailedAttempts + 1 with
        | none => rw [counted] at later; cases later
        | some attempts =>
          rw [counted] at later
          dsimp only at later
          split at later
          · rcases bind_error.mp later with lock | ⟨_,_,_,halted⟩
            · cases (see_error.mp lock).2
            · cases halted
          · cases later

theorem count_next {call : Attempt} (wrong : unusedRow service.platform userId call.code w = none) :
    Leads .rows w .count (script service userId call) :=
  leads_script rfl (count_failing wrong (leads_accept rfl)) (count_failing wrong (leads_switchOff rfl))

theorem lock_next {call : Attempt} (found : throttle userId w = some held) (last : MFA_MAX_ATTEMPTS ≤ held.failed + 1) :
    Leads .count w .lock (script service userId call) :=
  leads_script rfl (lock_failing found last (leads_accept rfl)) (lock_failing found last (leads_switchOff rfl))

end
end Pezhwan.Mfa
