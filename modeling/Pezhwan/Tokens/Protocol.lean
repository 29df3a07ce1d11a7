import Pezhwan.Atomic.Claim
import Pezhwan.Atomic.Script
import Pezhwan.Auth.Total

-- Verification tokens: the calls of the service and their scripts.
namespace Pezhwan.Tokens
open Atomic Prog Config Auth Script

inductive Call where
  | issue (input : IssueTokenInput)
  | redeem (service : VerificationTokenService) (token : String)
  deriving DecidableEq, Repr

inductive Answer where
  | issued (token : String) (expiresIn : Nat)
  | redeemed (result : Option RedeemResult)
  deriving DecidableEq, Repr

def program (platform : Platform) : Call → Program Answer
  | .issue input => (fun issued => .issued issued.1 issued.2) <$> issue platform input
  | .redeem service token => (fun result => .redeemed (some result)) <$> redeem platform service token

inductive Step where
  | revoke (input : IssueTokenInput)
  | draw
  | insert (input : IssueTokenInput) (token : String)
  | consume (token : String)
  | time
  deriving DecidableEq, Repr

section
variable (platform : Platform)

-- The row of a new token.
def minted (input : IssueTokenInput) (token : String) (w : World) : VerificationTokenDoc :=
  ⟨platform.random.fresh w.base.draws.length,input.kind,input.tenantId,input.applicationId,input.userId,platform.sha256 token,
    input.target,input.redirectUri,w.base.now + input.ttlMs.getD DEFAULT_TTL_MS,none⟩

def Step.update (i : CallId) : Step → World → World
  | .revoke input,w => {w with
      verificationTokens := Collection.updateMany input.supersedes (.use w.base.now) w.verificationTokens}
  | .draw,w => {w with base := {w.base with draws := w.base.draws ++ [i]}}
  | .insert input token,w => {w with
      base := {w.base with draws := w.base.draws ++ [i]},
      verificationTokens := w.verificationTokens ++ [minted platform input token w]}
  | .consume token,w => {w with
      verificationTokens := Collection.updateOne (live platform token) (.use w.base.now) w.verificationTokens}
  | .time,w => w

def Step.accepts : Step → World → Prop
  | .revoke _,w | .consume _,w => w.base.fault = none
  | .insert _ token,w => w.base.fault = none ∧ w.verificationTokens.any (fun doc => doc.tokenHash = platform.sha256 token) = false
  | .draw,_ | .time,_ => True

instance : (step : Step) → (w : World) → Decidable (step.accepts platform w)
  | .revoke _,w | .consume _,w => decEq w.base.fault none
  | .insert _ _,w => inferInstanceAs (Decidable (w.base.fault = none ∧ _ = _))
  | .draw,_ | .time,_ => .isTrue trivial

def Step.perform (i : CallId) (step : Step) (w : World) : World := if step.accepts platform w then step.update platform i w else w

def issueScript (input : IssueTokenInput) : Script World Step Answer := do
  let _ ← see (.revoke input)
  let token := platform.random.fresh (← see .draw).base.draws.length
  let _ ← see (.insert input token)
  pure (.issued token (input.ttlMs.getD DEFAULT_TTL_MS/1000))

-- A redemption that throws ends in `redeemed none`.
def redeemScript (service : VerificationTokenService) (token : String) : Script World Step Answer := do
  match (← see (.consume token)).verificationTokens.find? (live platform token) with
  | none => pure (.redeemed none)
  | some doc =>
    if doc.tenantId ≠ service.tenantId then pure (.redeemed none)
    else do
      let clock ← see .time
      if doc.expiresAt < clock.base.now then pure (.redeemed none)
      else if doc.applicationId ≠ service.applicationId then pure (.redeemed none)
      else pure (.redeemed (some ⟨doc.userId,doc.kind,doc.tenantId,doc.applicationId,doc.target,doc.redirectUri⟩))

def script : Call → Script World Step Answer
  | .issue input => issueScript platform input
  | .redeem service token => redeemScript platform service token

end

section
variable {platform : Platform} {i : CallId}

theorem perform_accepted {step : Step} (accepted : step.accepts platform w) :
    step.perform platform i w = step.update platform i w := if_pos accepted

theorem perform_refused {step : Step} (refused : ¬ step.accepts platform w) : step.perform platform i w = w := if_neg refused

abbrev Goes (platform : Platform) (i : CallId) (p : Program α) (script : Script World Step α) : Prop :=
  p.Follows (Step.perform platform) (Step.accepts platform) i script

theorem goes_op {f : CallId → World → Except MongoError (α × World)} {step : Step} {rest : α → Program β}
    {further : World → Script World Step β}
    (served : ∀ w value t, w.base.fault = none → f i w = .ok (value,t) →
      step.accepts platform w ∧ t = step.update platform i w ∧ Goes platform i (rest value) (further w))
    (refused : ∀ w e, w.base.fault = some e ∨ f i w = .error e → ¬ step.accepts platform w) :
    Goes platform i (op f >>= rest) (see step >>= further) := by
  apply Follows.tryAtomic
  · intro w value t ran
    cases fault : w.base.fault with
    | some e => rw [fault] at ran; cases ran
    | none =>
      cases result : f i w with
      | error e => rw [fault,result] at ran; cases ran
      | ok pair =>
        rw [fault,result] at ran
        cases ran
        obtain ⟨accepted,same,follows⟩ := served w value t fault result
        exact ⟨same.trans (perform_accepted accepted).symm,accepted,follows⟩
  · intro w e ran
    apply perform_refused
    cases fault : w.base.fault with
    | some e' => exact refused w e' (.inl fault)
    | none =>
      cases result : f i w with
      | error e' => exact refused w e' (.inr result)
      | ok pair => rw [fault,result] at ran; cases ran

theorem goes_draw {rest : String → Program β} {further : World → Script World Step β}
    (follows : ∀ w, Goes platform i (rest (platform.random.fresh w.base.draws.length)) (further w)) :
    Goes platform i (base (draw platform.random) >>= rest) (see .draw >>= further) := by
  apply Follows.zoom_atomic
  intro w
  exact ⟨(@perform_accepted platform i w .draw trivial).symm,trivial,follows w⟩

theorem goes_clock {rest : Nat → Program β} {further : World → Script World Step β}
    (follows : ∀ w, Goes platform i (rest w.base.now) (further w)) :
    Goes platform i (base clock >>= rest) (see .time >>= further) := by
  apply Follows.zoom_atomic
  intro w
  exact ⟨(@perform_accepted platform i w .time trivial).symm,trivial,follows w⟩

theorem goes_issue (input : IssueTokenInput) :
    Goes platform i ((fun issued => Answer.issued issued.1 issued.2) <$> issue platform input) (issueScript platform input) := by
  unfold issue
  rw [map_bind]
  apply goes_op
  · intro w value t healthy ran
    cases ran
    refine ⟨healthy,rfl,?_⟩
    rw [map_bind]
    apply goes_draw
    intro drawn
    rw [map_bind]
    apply goes_op
    · intro w value t healthy ran
      split at ran
      · cases ran
      · rename_i fresh
        cases ran
        exact ⟨⟨healthy,by simpa using fresh⟩,rfl,.pure _⟩
    · rintro w e (fault | taken) ⟨healthy,fresh⟩
      · rw [healthy] at fault
        cases fault
      · split at taken
        · rename_i clash
          rw [fresh] at clash
          cases clash
        · cases taken
  · rintro w e (fault | impossible) healthy
    · rw [healthy] at fault
      cases fault
    · cases impossible

theorem goes_redeem (service : VerificationTokenService) (token : String) :
    Goes platform i ((fun result => Answer.redeemed (some result)) <$> redeem platform service token)
      (redeemScript platform service token) := by
  unfold redeem
  rw [map_bind]
  apply goes_op
  · intro w value t healthy ran
    cases ran
    refine ⟨healthy,rfl,?_⟩
    cases found : w.verificationTokens.find? (live platform token) with
    | none => exact .throw _
    | some doc =>
      simp only [Option.map_some,VerificationTokenDoc.use]
      split
      · exact .throw _
      · rw [map_bind]
        apply goes_clock
        intro clock
        split
        · exact .throw _
        · split
          · exact .throw _
          · exact .pure _
  · rintro w e (fault | impossible) healthy
    · rw [healthy] at fault
      cases fault
    · cases impossible

theorem goes_program (call : Call) : Goes platform i (program platform call) (script platform call) := by
  cases call with
  | issue input => exact goes_issue input
  | redeem service token => exact goes_redeem service token

abbrev Anyhow : World → Prop := fun _ => True

abbrev Does (platform : Platform) (call : Call) (memory : List (World × World)) (s t : World) : Prop :=
  Scripted (Step.perform platform) (Step.accepts platform) (script platform call) memory s t

abbrev Ended (platform : Platform) (call : Call) (result : Except Error Answer) (moves : List (World × World)) : Prop :=
  ∀ value, result = .ok value → script platform call (told moves) = .ok (value,[]) ∧
    Accepted (Step.accepts platform) (script platform call) moves

theorem acts_program (platform : Platform) (i : CallId) (call : Call) :
    (program platform call).Acts Anyhow i (Does platform call) [] (Ended platform call) := by
  apply (goes_program call).acts [] fun _ => rfl
  intro newer move older split
  simp at split

-- Which call asks for a step, and when.
def Fits (platform : Platform) (call : Call) (memory : List (World × World)) : Step → Prop
  | .revoke input => call = .issue input ∧ memory = []
  | .draw => (∃ input, call = .issue input) ∧ ∃ revoke, memory = [revoke]
  | .insert input token => call = .issue input ∧ ∃ draw revoke, memory = [draw,revoke] ∧
      token = platform.random.fresh draw.1.base.draws.length
  | .consume token => (∃ service, call = .redeem service token) ∧ memory = []
  | .time => ∃ service token, call = .redeem service token

theorem script_fits {call : Call} {step : Step} (asked : script platform call (told memory) = .error step) :
    Fits platform call memory step := by
  cases call with
  | issue input =>
    rcases memory with _ | ⟨last,_ | ⟨draw,_ | ⟨revoke,older⟩⟩⟩
    · cases asked
      exact ⟨rfl,rfl⟩
    · cases asked
      exact ⟨⟨input,rfl⟩,last,rfl⟩
    · cases asked
      exact ⟨rfl,last,draw,rfl,rfl⟩
    · have long : 3 ≤ (told (last :: draw :: revoke :: older)).length := by simp [told]
      rcases states : told (last :: draw :: revoke :: older) with _ | ⟨a,_ | ⟨b,_ | ⟨c,rest⟩⟩⟩
      · simp [states] at long
      · simp [states] at long
      · simp [states] at long
      · rw [states] at asked
        cases asked
  | redeem service token =>
    cases memory with
    | nil =>
      cases asked
      exact ⟨⟨service,rfl⟩,rfl⟩
    | cons first older =>
      rcases bind_error.mp asked with none | ⟨w,left,seen,later⟩
      · have empty := (see_error.mp none).1
        simp [told] at empty
      · cases found : w.verificationTokens.find? (live platform token) with
        | none => rw [found] at later; cases later
        | some doc =>
          rw [found] at later
          dsimp only at later
          split at later
          · cases later
          · rcases bind_error.mp later with here | ⟨clock,left',_,rest⟩
            · rw [← (see_error.mp here).2]
              exact ⟨service,token,rfl⟩
            · split at rest
              · cases rest
              · split at rest <;> cases rest

end
end Pezhwan.Tokens
