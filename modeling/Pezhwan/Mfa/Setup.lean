import Pezhwan.Mfa.Backup

-- Setup, confirmation, challenges and removal of a second factor: the calls of
-- one user and their scripts.
namespace Pezhwan.Mfa
open Atomic Prog Auth Script

inductive Call where
  | attempt (attempt : Attempt)
  | beginSetup
  | enable (code : String)
  deriving DecidableEq, Repr

inductive Answer where
  | accepted (accepted : Bool)
  | setup (result : Option MfaSetupResult)
  | enabled (enabled : Bool)
  deriving DecidableEq, Repr

def program (service : MfaService) (userId : String) : Call → Program Answer
  | .attempt call => .accepted <$> attempt service userId call
  | .beginSetup => (fun result => .setup (some result)) <$> beginSetup service userId
  | .enable code => (fun _ => .enabled true) <$> enable service userId code

def setupScript (service : MfaService) (userId : String) : MfaScript Answer := do
  match userById userId (← see .look) with
  | none => pure (.setup none)
  | some user =>
    if user.mfaEnabled then pure (.setup none)
    else do
      let secret := service.generateSecret (service.platform.random.fresh (← see .draw).base.draws.length)
      let wrapped := service.wrapEnvelope secret (service.platform.random.fresh (← see .draw).base.draws.length)
      let _ ← see (.storeSecret wrapped)
      let backupCodes := service.generateBackupCodes (service.platform.random.fresh (← see .draw).base.draws.length)
      let _ ← see .dropCodes
      let _ ← see (.storeCodes backupCodes)
      pure (.setup (some ⟨service.encodeBase32 secret,
        service.buildOtpauthUri service.tenantId (user.email.getD userId) secret,backupCodes⟩))

def enableScript (service : MfaService) (userId code : String) : MfaScript Answer := do
  let user := userById userId (← see .look)
  match truthy (user.bind UserDoc.mfaSecret) with
  | none => pure (.enabled false)
  | some wrapped =>
    if (user.map UserDoc.mfaEnabled).getD false then pure (.enabled false)
    else match service.platform.unwrap wrapped with
      | .error _ => pure (.enabled false)
      | .ok secret => do
        let clock ← see (.totp secret)
        if service.platform.verifyTotp code secret (clock.base.now/1000) then do
          let _ ← see .switchOn
          pure (.enabled true)
        else pure (.enabled false)

def steps (service : MfaService) (userId : String) : Call → MfaScript Answer
  | .attempt call => do pure (.accepted (← script service userId call))
  | .beginSetup => setupScript service userId
  | .enable code => enableScript service userId code

section
variable {service : MfaService} {userId : String} {i : CallId}

theorem goes_beginSetup : Goes service userId i ((fun result => Answer.setup (some result)) <$> beginSetup service userId)
    (setupScript service userId) := by
  unfold beginSetup
  rw [map_bind]
  apply goes_read rfl fun _ => rfl
  intro w
  cases userById userId w with
  | none => exact .throw _
  | some user =>
    dsimp only
    split
    · exact .throw _
    · rw [map_bind]
      apply goes_draw
      intro first
      rw [map_bind]
      apply goes_draw
      intro second
      rw [map_bind]
      apply goes_write rfl fun _ => rfl
      intro _
      rw [map_bind]
      apply goes_draw
      intro third
      rw [map_bind]
      apply goes_write rfl fun _ => rfl
      intro _
      rw [map_bind]
      apply goes_op rfl
      intro w
      refine ⟨_,rfl,?_⟩
      split
      · exact .pure _
      · exact .throw _

theorem goes_enable (code : String) : Goes service userId i ((fun _ => Answer.enabled true) <$> enable service userId code)
    (enableScript service userId code) := by
  unfold enable
  rw [map_bind]
  apply goes_read rfl fun _ => rfl
  intro w
  dsimp only
  cases truthy ((userById userId w).bind UserDoc.mfaSecret) with
  | none => exact .throw _
  | some wrapped =>
    dsimp only
    split
    · exact .throw _
    · cases service.platform.unwrap wrapped with
      | error e => exact .throw e
      | ok secret =>
        dsimp only
        rw [map_bind]
        apply goes_clock rfl fun _ => rfl
        intro clock
        split
        · apply goes_write rfl fun _ => rfl
          intro _
          exact .pure _
        · exact .throw _

theorem goes_program (call : Call) : Goes service userId i (program service userId call) (steps service userId call) := by
  cases call with
  | attempt call => exact (goes_attempt call).bind fun accepted => .pure _
  | beginSetup => exact goes_beginSetup
  | enable code => exact goes_enable code

abbrev Doing (service : MfaService) (userId : String) (call : Call) (memory : List (World × World)) (s t : World) : Prop :=
  Scripted (Step.perform service userId) Step.accepts (steps service userId call) memory s t

abbrev Done (service : MfaService) (userId : String) (call : Call) (result : Except Error Answer)
    (moves : List (World × World)) : Prop :=
  ∀ value, result = .ok value → steps service userId call (told moves) = .ok (value,[]) ∧
    Accepted Step.accepts (steps service userId call) moves

theorem acts_program (service : MfaService) (userId : String) (i : CallId) (call : Call) :
    (program service userId call).Acts Anyhow i (Doing service userId call) [] (Done service userId call) := by
  apply (goes_program call).acts [] fun _ => rfl
  intro newer move older split
  simp at split

-- The secret and the codes of a setup, by the states in which it has drawn.
def generated (service : MfaService) : List World → String
  | _ :: draw :: _ => service.generateSecret (service.platform.random.fresh draw.base.draws.length)
  | _ => ""

def wrapped (service : MfaService) : List World → String
  | look :: draw :: next :: _ =>
    service.wrapEnvelope (generated service [look,draw]) (service.platform.random.fresh next.base.draws.length)
  | _ => ""

def batch (service : MfaService) : List World → List String
  | _ :: _ :: _ :: _ :: draw :: _ => service.generateBackupCodes (service.platform.random.fresh draw.base.draws.length)
  | _ => []

theorem generated_wrapped (opens : ∀ secret entropy, service.platform.unwrap (service.wrapEnvelope secret entropy) = .ok secret)
    (long : 3 ≤ states.length) : service.platform.unwrap (wrapped service states) = .ok (generated service states) := by
  match states,long with
  | look :: draw :: next :: _,_ => exact opens _ _

theorem wrapped_append (long : 3 ≤ states.length) (more : List World) : wrapped service (states ++ more) = wrapped service states := by
  match states,long with
  | _ :: _ :: _ :: _,_ => rfl

theorem batch_append (long : 5 ≤ states.length) (more : List World) : batch service (states ++ more) = batch service states := by
  match states,long with
  | _ :: _ :: _ :: _ :: _ :: _,_ => rfl

theorem setup_asks {step : Step} (asked : setupScript service userId states = .error step) : states.length ≤ 6 ∧
    (step = .look ∨ step = .draw ∨ (states.length = 3 ∧ step = .storeSecret (wrapped service states)) ∨
    (states.length = 5 ∧ step = .dropCodes) ∨ (states.length = 6 ∧ step = .storeCodes (batch service states))) := by
  rcases bind_error.mp asked with first | ⟨look,left,seen,later⟩
  · obtain ⟨rfl,same⟩ := see_error.mp first
    exact ⟨Nat.zero_le _,.inl same.symm⟩
  · cases see_ok.mp seen
    cases found : userById userId look with
    | none => rw [found] at later; cases later
    | some user =>
      rw [found] at later
      dsimp only at later
      split at later
      · cases later
      · match left,later with
        | [],later => cases later; exact ⟨by simp,.inr (.inl rfl)⟩
        | [_],later => cases later; exact ⟨by simp,.inr (.inl rfl)⟩
        | [_,_],later => cases later; exact ⟨by simp,.inr (.inr (.inl ⟨rfl,rfl⟩))⟩
        | [_,_,_],later => cases later; exact ⟨by simp,.inr (.inl rfl)⟩
        | [_,_,_,_],later => cases later; exact ⟨by simp,.inr (.inr (.inr (.inl ⟨rfl,rfl⟩)))⟩
        | [_,_,_,_,_],later => cases later; exact ⟨by simp,.inr (.inr (.inr (.inr ⟨rfl,rfl⟩)))⟩
        | _ :: _ :: _ :: _ :: _ :: _ :: _,later => cases later

theorem setup_ended (long : states.length = 7) (ended : setupScript service userId states = .ok (value,[])) :
    ∃ result, value = .setup (some result) ∧ result.secret = service.encodeBase32 (generated service states) ∧
      result.backupCodes = batch service states := by
  obtain ⟨look,left,seen,later⟩ := bind_ok.mp ended
  cases see_ok.mp seen
  match left,long with
  | [_,_,_,_,_,_],_ =>
    cases found : userById userId look with
    | none => rw [found] at later; cases later
    | some user =>
      rw [found] at later
      dsimp only at later
      split at later
      · cases later
      · cases later
        exact ⟨_,rfl,rfl,rfl⟩

theorem enable_asks {code : String} {step : Step} (asked : enableScript service userId code states = .error step) :
    step = .look ∨ (∃ secret, step = .totp secret) ∨ (step = .switchOn ∧ ∃ look clock wrapped secret,
      states = [look,clock] ∧ (userById userId look).bind UserDoc.mfaSecret = some wrapped ∧
      service.platform.unwrap wrapped = .ok secret ∧ service.platform.verifyTotp code secret (clock.base.now/1000) = true ∧
      enableScript service userId code [look] = .error (.totp secret)) := by
  rcases bind_error.mp asked with first | ⟨look,left,seen,later⟩
  · exact .inl (see_error.mp first).2.symm
  · cases see_ok.mp seen
    right
    cases held : truthy ((userById userId look).bind UserDoc.mfaSecret) with
    | none => rw [held] at later; cases later
    | some wrapped =>
      rw [held] at later
      dsimp only at later
      split at later
      · cases later
      · rename_i off
        cases opened : service.platform.unwrap wrapped with
        | error e => rw [opened] at later; cases later
        | ok secret =>
          rw [opened] at later
          rcases bind_error.mp later with second | ⟨clock,left',seen',rest⟩
          · exact .inl ⟨secret,(see_error.mp second).2.symm⟩
          · cases see_ok.mp seen'
            split at rest
            · rename_i right_
              rcases bind_error.mp rest with third | ⟨_,_,_,halted⟩
              · obtain ⟨rfl,same⟩ := see_error.mp third
                refine .inr ⟨same.symm,look,clock,wrapped,secret,rfl,?_,opened,right_,?_⟩
                · exact truthy_some held
                · change (match truthy ((userById userId look).bind UserDoc.mfaSecret) with
                    | none => (pure (.enabled false) : MfaScript Answer)
                    | some wrapped => _) [] = _
                  rw [held]
                  dsimp only
                  rw [if_neg off,opened]
                  rfl
              · cases halted
            · cases rest

end
end Pezhwan.Mfa
