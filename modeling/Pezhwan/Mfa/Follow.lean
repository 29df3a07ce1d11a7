import Pezhwan.Auth.Total
import Pezhwan.Mfa.Service

-- The calls of the MFA service go by their scripts.
namespace Pezhwan.Mfa
open Atomic Prog Auth Script

variable {service : MfaService} {userId : String} {i : CallId}

abbrev Goes (service : MfaService) (userId : String) (i : CallId) (p : Program α) (script : MfaScript α) : Prop :=
  p.Follows (Step.perform service userId) Step.accepts i script

theorem perform_accepted {step : Step} (accepted : step.accepts w) :
    step.perform service userId i w = step.update service userId i w := if_pos accepted

theorem perform_refused {step : Step} (refused : ¬ step.accepts w) : step.perform service userId i w = w := if_neg refused

theorem perform_idle {step : Step} (idle : ∀ w, step.update service userId i w = w) (w : World) :
    step.perform service userId i w = w := by
  by_cases accepted : step.accepts w
  · rw [perform_accepted accepted,idle]
  · exact perform_refused accepted

theorem goes_op {f : CallId → World → Except MongoError (α × World)} {step : Step} {rest : α → Program β}
    {further : World → MfaScript β} (stored : step.stored = true)
    (served : ∀ w, ∃ value, f i w = .ok (value,step.update service userId i w) ∧ Goes service userId i (rest value) (further w)) :
    Goes service userId i (op f >>= rest) (see step >>= further) := by
  apply Follows.tryAtomic
  · intro w value t ran
    obtain ⟨answer,same,follows⟩ := served w
    cases fault : w.base.fault with
    | some e => rw [fault] at ran; cases ran
    | none =>
      rw [fault,same] at ran
      cases ran
      have accepted : step.accepts w := fun _ => fault
      exact ⟨(perform_accepted accepted).symm,accepted,follows⟩
  · intro w e ran
    obtain ⟨answer,same,_⟩ := served w
    cases fault : w.base.fault with
    | none => rw [fault,same] at ran; cases ran
    | some e =>
      apply perform_refused
      intro accepted
      have healthy := accepted stored
      rw [fault] at healthy
      cases healthy

theorem goes_read {f : World → α} {step : Step} {rest : α → Program β} {further : World → MfaScript β} (stored : step.stored = true)
    (idle : ∀ w, step.update service userId i w = w) (follows : ∀ w, Goes service userId i (rest (f w)) (further w)) :
    Goes service userId i (read f >>= rest) (see step >>= further) := by
  apply goes_op stored
  intro w
  exact ⟨f w,by rw [idle],follows w⟩

theorem goes_write {f : World → World} {step : Step} {rest : Unit → Program β} {further : World → MfaScript β}
    (stored : step.stored = true) (same : ∀ w, step.update service userId i w = f w)
    (follows : ∀ w, Goes service userId i (rest ()) (further w)) :
    Goes service userId i (write f >>= rest) (see step >>= further) := by
  apply goes_op stored
  intro w
  exact ⟨(),by rw [same],follows w⟩

theorem goes_clock {step : Step} {rest : Nat → Program β} {further : World → MfaScript β} (read : step.stored = false)
    (idle : ∀ w, step.update service userId i w = w) (follows : ∀ w, Goes service userId i (rest w.base.now) (further w)) :
    Goes service userId i (base clock >>= rest) (see step >>= further) := by
  apply Follows.zoom_atomic
  intro w
  have accepted : step.accepts w := by
    intro stored
    rw [read] at stored
    cases stored
  exact ⟨(perform_idle idle w).symm,accepted,follows w⟩

theorem goes_draw {rest : String → Program β} {further : World → MfaScript β}
    (follows : ∀ w, Goes service userId i (rest (service.platform.random.fresh w.base.draws.length)) (further w)) :
    Goes service userId i (base (draw service.platform.random) >>= rest) (see .draw >>= further) := by
  apply Follows.zoom_atomic
  intro w
  have accepted : Step.accepts .draw w := by
    intro stored
    cases stored
  exact ⟨(perform_accepted accepted).symm,accepted,follows w⟩

theorem goes_last {f : World → World} {step : Step} (stored : step.stored = true) (same : ∀ w, step.update service userId i w = f w) :
    Goes service userId i (write f) (do let _ ← see step; Pure.pure ()) := by
  rw [← bind_pure (write f)]
  apply goes_write stored same
  intro w
  exact .pure ()

theorem goes_mfaLocked : Goes service userId i (mfaLocked userId) (lockedScript userId) := by
  apply goes_read rfl fun _ => rfl
  intro first
  cases userById userId first with
  | none => exact .pure false
  | some user =>
    apply goes_clock rfl fun _ => rfl
    intro now
    cases user.mfaLockUntil with
    | none => exact .pure false
    | some until_ =>
      dsimp only
      split
      · exact .pure true
      · split
        · apply goes_write rfl fun _ => rfl
          intro _
          exact .pure false
        · exact .pure false

theorem goes_recordMfaFailure : Goes service userId i (recordMfaFailure userId) (recordScript userId) := by
  apply goes_op rfl
  intro w
  refine ⟨_,rfl,?_⟩
  cases (userById userId w).map fun user => user.mfaFailedAttempts + 1 with
  | none => exact .pure ()
  | some attempts =>
    dsimp only
    split
    · exact goes_last rfl fun _ => rfl
    · exact .pure ()

theorem goes_tryBackupCode (code : String) :
    Goes service userId i (tryBackupCode service.platform userId code) (backupScript service.platform userId code) := by
  apply goes_read rfl fun _ => rfl
  intro w
  dsimp only [unusedRow]
  cases (w.backupCodes.filter fun row => row.userId = userId && row.usedAt.isNone).find? fun row =>
      row.codeHash = service.platform.sha256 code with
  | none => exact .pure false
  | some row =>
    apply goes_write rfl fun _ => rfl
    intro _
    exact .pure true

theorem goes_acceptMfa : Goes service userId i (acceptMfa userId) acceptScript := by
  apply goes_write rfl fun _ => rfl
  intro _
  apply goes_write rfl fun _ => rfl
  intro _
  exact .pure true

theorem goes_challenge (code : String) (wrapped : Option String) :
    Goes service userId i (challenge service.platform userId code wrapped) (challengeScript service.platform userId code wrapped) := by
  cases wrapped with
  | none => exact .pure false
  | some wrapped =>
    unfold challenge challengeScript
    dsimp only
    cases service.platform.unwrap wrapped with
    | error e => exact .throw e
    | ok secret =>
      apply goes_clock rfl fun _ => rfl
      intro now
      split
      · exact goes_acceptMfa
      · apply (goes_tryBackupCode code).bind
        intro used
        cases used with
        | true => exact goes_acceptMfa
        | false =>
          apply goes_recordMfaFailure.bind
          intro _
          exact .pure false

theorem goes_verifyMfa (code : String) :
    Goes service userId i (verifyMfa service.platform userId code) (verifyScript service.platform userId code) := by
  apply goes_mfaLocked.bind
  intro locked
  cases locked with
  | true => exact .pure false
  | false =>
    apply goes_read rfl fun _ => rfl
    intro w
    exact goes_challenge code _

theorem goes_switchOff : Goes service userId i ((fun _ => true) <$> switchOff userId) switchOffScript := by
  unfold switchOff
  rw [map_bind]
  apply goes_write rfl fun _ => rfl
  intro _
  rw [map_bind]
  apply goes_write rfl fun _ => rfl
  intro _
  apply goes_write rfl fun _ => rfl
  intro _
  exact .pure true

theorem goes_disableByBackup (code : String) : Goes service userId i ((fun _ => true) <$> disableByBackup service userId code)
    (disableByBackupScript service.platform userId code) := by
  unfold disableByBackup
  rw [map_bind]
  apply (goes_tryBackupCode code).bind
  intro used
  cases used with
  | true => exact goes_switchOff
  | false =>
    simp only [Bool.false_eq_true,if_false]
    rw [map_bind]
    apply goes_recordMfaFailure.bind
    intro _
    exact .throw _

theorem goes_disable (code : String) : Goes service userId i ((fun _ => true) <$> disable service userId code)
    (disableScript service.platform userId code) := by
  unfold disable
  rw [map_bind]
  apply goes_read rfl fun _ => rfl
  intro w
  dsimp only
  split
  · exact .throw _
  · rw [map_bind]
    apply goes_mfaLocked.bind
    intro locked
    cases locked with
    | true => exact .throw _
    | false =>
      simp only [Bool.false_eq_true,if_false]
      cases truthy ((userById userId w).bind UserDoc.mfaSecret) with
      | none => exact goes_disableByBackup code
      | some wrapped =>
        dsimp only
        cases service.platform.unwrap wrapped with
        | error e => exact .throw e
        | ok secret =>
          dsimp only
          rw [map_bind]
          apply goes_clock rfl fun _ => rfl
          intro now
          split
          · exact goes_switchOff
          · exact goes_disableByBackup code

-- The calls that take a code, true for success.
inductive Attempt where
  | verifyMfa (code : String)
  | disable (code : String)
  deriving DecidableEq, Repr

def Attempt.code : Attempt → String
  | .verifyMfa code | .disable code => code

def attempt (service : MfaService) (userId : String) : Attempt → Program Bool
  | .verifyMfa code => verifyMfa service.platform userId code
  | .disable code => (fun _ => true) <$> disable service userId code

def script (service : MfaService) (userId : String) : Attempt → MfaScript Bool
  | .verifyMfa code => verifyScript service.platform userId code
  | .disable code => disableScript service.platform userId code

theorem goes_attempt (call : Attempt) : Goes service userId i (attempt service userId call) (script service userId call) := by
  cases call with
  | verifyMfa code => exact goes_verifyMfa code
  | disable code => exact goes_disable code

abbrev Anyhow : World → Prop := fun _ => True

-- What an action of an attempt does, by the states the attempt has met.
abbrev Does (service : MfaService) (userId : String) (call : Attempt) (memory : List (World × World)) (s t : World) : Prop :=
  Scripted (Step.perform service userId) Step.accepts (script service userId call) memory s t

abbrev Ended (service : MfaService) (userId : String) (call : Attempt) (result : Except Error Bool)
    (moves : List (World × World)) : Prop :=
  ∀ value, result = .ok value → script service userId call (told moves) = .ok (value,[]) ∧
    Accepted Step.accepts (script service userId call) moves

theorem acts_attempt (service : MfaService) (userId : String) (i : CallId) (call : Attempt) :
    (attempt service userId call).Acts Anyhow i (Does service userId call) [] (Ended service userId call) := by
  apply (goes_attempt call).acts [] fun _ => rfl
  intro newer move older split
  simp at split

theorem local_locked : Local (lockedScript userId) := by
  apply local_bind (local_see _)
  intro first
  cases userById userId first with
  | none => exact local_pure false
  | some user =>
    apply local_bind (local_see _)
    intro clock
    cases user.mfaLockUntil with
    | none => exact local_pure false
    | some until_ =>
      dsimp only
      split
      · exact local_pure true
      · split
        · exact local_bind (local_see _) fun _ => local_pure false
        · exact local_pure false

theorem local_record : Local (recordScript userId) := by
  apply local_bind (local_see _)
  intro w
  cases (userById userId w).map fun user => user.mfaFailedAttempts + 1 with
  | none => exact local_pure ()
  | some attempts =>
    dsimp only
    split
    · exact local_bind (local_see _) fun _ => local_pure ()
    · exact local_pure ()

theorem local_backup (platform : Platform) (code : String) : Local (backupScript platform userId code) := by
  apply local_bind (local_see _)
  intro w
  cases unusedRow platform userId code w with
  | none => exact local_pure false
  | some row => exact local_bind (local_see _) fun _ => local_pure true

-- What a step makes of the user.
def Step.rewrites (now : Nat) : Step → UserDoc → UserDoc
  | .expire,user => {user with mfaFailedAttempts := 0,mfaLockUntil := none}
  | .touch,user => {user with mfaSecretVerifiedAt := some now}
  | .clear,user => if 0 < user.mfaFailedAttempts then {user with mfaFailedAttempts := 0,mfaLockUntil := none} else user
  | .count,user => {user with mfaFailedAttempts := user.mfaFailedAttempts + 1}
  | .lock,user => {user with mfaLockUntil := some (now + MFA_LOCK_MS)}
  | .switchOff,user => {user with mfaEnabled := false,mfaSecret := none,mfaSecretVerifiedAt := none}
  | .switchOn,user => {user with mfaEnabled := true,mfaSecretVerifiedAt := some now}
  | .storeSecret wrapped,user => {user with mfaSecret := some wrapped,mfaSecretVerifiedAt := none}
  | _,user => user

theorem insertBackupCodes_kept (codes : List String) (w : World) :
    (insertBackupCodes service userId i codes w).2.users = w.users ∧
      (insertBackupCodes service userId i codes w).2.base.now = w.base.now := by
  induction codes generalizing w with
  | nil => exact ⟨rfl,rfl⟩
  | cons code rest ih =>
    unfold insertBackupCodes
    dsimp only
    split
    · exact ⟨rfl,rfl⟩
    · exact ih _

theorem userById_update (step : Step) (i : CallId) (w : World) :
    userById userId (step.update service userId i w) = (userById userId w).map (step.rewrites w.base.now) := by
  have still : ∀ t : World, t.users = w.users → userById userId t = (userById userId w).map fun user => user := by
    intro t same
    rw [userById,userById,same,Option.map_id']
  have updated : ∀ {f : UserDoc → UserDoc}, (∀ user, (f user).id = user.id) →
      userById userId (w.updateUser (fun user => user.id = userId) f) = (userById userId w).map f :=
    fun kept => Collection.lookup_updateOne_key kept userId w.users
  cases step with
  | look | time | rows | totp => exact still w rfl
  | draw | mark | removeCodes | dropCodes => exact still _ rfl
  | storeCodes codes => exact still _ (insertBackupCodes_kept codes w).1
  | expire | touch | count | lock | switchOff | switchOn | storeSecret => exact updated fun _ => rfl
  | clear =>
    change Collection.lookup UserDoc.id userId (Collection.updateOne _ _ w.users) = _
    rw [Collection.lookup_updateOne_own]
    · simp only [decide_eq_true_eq]
      rfl
    · exact fun user => rfl

theorem now_perform (step : Step) (i : CallId) (w : World) : (step.perform service userId i w).base.now = w.base.now := by
  unfold Step.perform
  split
  · cases step with
    | storeCodes codes => exact (insertBackupCodes_kept codes w).2
    | look | time | rows | totp | draw | mark | removeCodes | dropCodes | expire | touch | clear | count | lock | switchOff
    | switchOn | storeSecret => rfl
  · rfl

def sampleMfa : MfaService where
  platform := {samplePlatform with verifyTotp := fun code secret _ => decide (code = String.ofList ('t' :: secret.toList))}
  tenantId := "tenant"
  generateSecret entropy := entropy
  encodeBase32 secret := secret
  buildOtpauthUri _ _ secret := secret
  generateBackupCodes entropy := [entropy]
  wrapEnvelope secret _ := secret

-- The account of `sampleUser` with the second factor on and one backup code.
def enrolled : World := {soleAccount {sampleUser with mfaEnabled := true,mfaSecret := some "secret"} with
  backupCodes := [⟨"row","user","tenant",samplePlatform.sha256 "backup",none⟩]}

end Pezhwan.Mfa
