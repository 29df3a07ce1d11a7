import Pezhwan.Atomic.Solo
import Pezhwan.Auth.Total

-- What becomes of a verification token that is refused.
namespace Pezhwan.Tokens
open Atomic Prog Discipline Auth

inductive Redemption where
  | redeem (service : VerificationTokenService) (token : String)
  | resetPasswordWithToken (input : AuthEngine.ResetWithTokenInput)
  | verifyEmailToken (token : String)
  | redeemMagicLink (token : String) (device : DeviceInfo)

def Redemption.token : Redemption → String
  | .redeem _ token => token
  | .resetPasswordWithToken input => input.token
  | .verifyEmailToken token => token
  | .redeemMagicLink token _ => token

def Redemption.program (engine : AuthEngine) : Redemption → Program Unit
  | .redeem service token => (fun _ => ()) <$> Auth.redeem engine.platform service token
  | .resetPasswordWithToken input => (fun _ => ()) <$> engine.resetPasswordWithToken input
  | .verifyEmailToken token => engine.verifyEmailToken token
  | .redeemMagicLink token device => (fun _ => ()) <$> engine.redeemMagicLink token device

-- The errors for a token of another tenant, another application and another kind.
def tenantMismatch : Error := .pezhwan .token "Token tenant mismatch" "INVALID_TOKEN"
def applicationMismatch : Error := .pezhwan .notFound "Token application mismatch" "INVALID_TOKEN"
def kindMismatch : Error := .pezhwan .authentication "Invalid or expired token" "INVALID_TOKEN"

def Mismatch (e : Error) : Prop := e = tenantMismatch ∨ e = applicationMismatch ∨ e = kindMismatch

-- The surroundings do anything but touch the tokens.
def Elsewhere (s t : World) : Prop := t.verificationTokens = s.verificationTokens

-- When what is stored under a token was consumed.
def consumptions (platform : Platform) (token : String) (docs : List VerificationTokenDoc) : List (Option Nat) :=
  (docs.filter fun doc => doc.tokenHash = platform.sha256 token).map VerificationTokenDoc.consumedAt

def Unburned (platform : Platform) (token : String) (s t : World) : Prop :=
  consumptions platform token t.verificationTokens = consumptions platform token s.verificationTokens

-- One token that could still be redeemed has been consumed.
def Burned (platform : Platform) (token : String) (u v : List VerificationTokenDoc) : Prop :=
  ∃ before doc after now,live platform token doc = true ∧ u = before ++ doc :: after ∧ v = before ++ doc.use now :: after

section
variable {platform : Platform} {token : String} {u v : List VerificationTokenDoc} {i : CallId}

theorem burned_updateOne {doc : VerificationTokenDoc} (found : u.find? (live platform token) = some doc) (now : Nat) :
    Burned platform token u (Collection.updateOne (live platform token) (.use now) u) := by
  induction u with
  | nil => cases found
  | cons first rest ih =>
    unfold Collection.updateOne
    split
    · rename_i alive
      exact ⟨[],first,rest,now,alive,rfl,rfl⟩
    · rename_i dead
      rw [List.find?_cons_of_neg dead] at found
      obtain ⟨before,doc,after,time,alive,old,new⟩ := ih found
      exact ⟨first :: before,doc,after,time,alive,congrArg (first :: ·) old,congrArg (first :: ·) new⟩

theorem burned_consumptions (burned : Burned platform token u v) :
    consumptions platform token v ≠ consumptions platform token u := by
  obtain ⟨before,doc,after,now,alive,rfl,rfl⟩ := burned
  simp only [live,Bool.and_eq_true,decide_eq_true_eq,Option.isNone_iff_eq_none] at alive
  intro same
  simp only [consumptions,List.filter_append,List.map_append] at same
  have ends := List.append_cancel_left same
  simp [VerificationTokenDoc.use,alive.1,alive.2] at ends

theorem solo_redeem (platform : Platform) (service : VerificationTokenService) (token : String)
    (u : List VerificationTokenDoc) :
    (solo i World.verificationTokens []).Safe i (redeem platform service token) u fun result v => match result with
      | .ok _ => Burned platform token u v
      | .error e => Mismatch e → Burned platform token u v := by
  have consumed : (solo i World.verificationTokens []).Safe i (consume platform token) u fun result v => match result with
      | .ok none => True
      | .ok (some _) => Burned platform token u v
      | .error e => ¬Mismatch e := by
    refine safe_mongo (fun _ _ => rfl) ?_ ?_
    · intro s _ seen found t ran
      rw [solo_view] at seen ⊢
      cases ran
      refine ⟨rfl,?_⟩
      cases hit : s.verificationTokens.find? (live platform token) with
      | none => trivial
      | some doc => exact seen ▸ burned_updateOne hit s.base.now
    · rintro e (same | same | same) <;> cases same
  refine Safe.bind (consumed.mono ?_)
  intro result v after
  cases result with
  | error e => exact fun mismatch => absurd mismatch after
  | ok found =>
    cases found with
    | none =>
      rintro (same | same | same)
      · exact absurd same (by decide)
      · exact absurd same (by decide)
      · exact absurd same (by decide)
    | some doc =>
      dsimp only
      split
      · exact fun _ => after
      · refine Safe.bind ((Safe.solo_keeps (spared_base clock fun _ _ => rfl)).mono ?_)
        rintro result w rfl
        cases result with
        | error e => exact fun _ => after
        | ok now =>
          dsimp only
          split
          · exact fun _ => after
          · split
            · exact fun _ => after
            · exact after

theorem elsewhere_idle (w : World) : Elsewhere w w := rfl

theorem elsewhere_openSession (engine : AuthEngine) (userId tenantId applicationId : String) (device : DeviceInfo) :
    (engine.openSession userId tenantId applicationId device).Keeps Elsewhere :=
  (Keeps.any _).zoom fun _ _ _ => rfl

theorem elsewhere_finishReset (engine : AuthEngine) (user : UserDoc) (applicationId newPassword : String)
    (device : DeviceInfo) (authMethod : AuthMethod) :
    (engine.finishReset user applicationId newPassword device authMethod).Keeps Elsewhere := by
  refine Keeps.bind (Keeps.bind (spared_base _ fun _ _ => rfl) fun salt => Keeps.pure _) fun newHash => ?_
  refine Keeps.bind (keeps_writing elsewhere_idle fun w => rfl) fun _ => ?_
  refine Keeps.bind (spared_base _ fun _ _ => rfl) fun _ => ?_
  refine Keeps.bind ((Keeps.any _).zoom fun _ _ _ => rfl) fun _ => ?_
  refine Keeps.bind (elsewhere_openSession _ _ _ _ _) fun created => ?_
  exact Keeps.bind (spared_mintTokens elsewhere_idle (fun _ _ => rfl) _ _ _ _ _ _) fun tokens => Keeps.pure _

def Rejects (platform : Platform) (token : String) (u : List VerificationTokenDoc) (result : Except Error α)
    (v : List VerificationTokenDoc) : Prop :=
  ∀ e,result = .error e → Mismatch e → Burned platform token u v

theorem solo_redeemed {service : VerificationTokenService} {next : RedeemResult → Program α}
    (keeps : ∀ redeemed,(next redeemed).Keeps Elsewhere) : (solo i World.verificationTokens []).Safe i
      (redeem platform service token >>= next) u (Rejects platform token u) := by
  refine Safe.bind ((solo_redeem platform service token u).mono ?_)
  intro result v after
  cases result with
  | error e =>
    intro _ same mismatch
    cases same
    exact after mismatch
  | ok redeemed =>
    refine (Safe.solo_keeps (keeps redeemed)).mono ?_
    rintro result w rfl _ _ _
    exact after

theorem solo_mapped {p : Program α} (safe : (solo i World.verificationTokens []).Safe i p u (Rejects platform token u)) :
    (solo i World.verificationTokens []).Safe i ((fun _ => ()) <$> p) u (Rejects platform token u) := by
  refine Safe.bind (safe.mono ?_)
  intro result v after
  cases result with
  | error e =>
    intro _ same
    cases same
    exact after e rfl
  | ok value =>
    intro e same
    cases same

theorem solo_redemption (engine : AuthEngine) (redemption : Redemption) (u : List VerificationTokenDoc) :
    (solo i World.verificationTokens []).Safe i (redemption.program engine) u
      (Rejects engine.platform redemption.token u) := by
  cases redemption with
  | redeem service token =>
    exact solo_redeemed fun _ => Keeps.pure _
  | resetPasswordWithToken input =>
    refine solo_mapped ?_
    unfold AuthEngine.resetPasswordWithToken checkPassword
    split
    · refine solo_redeemed fun redeemed => ?_
      split
      · refine Keeps.bind (keeps_reading elsewhere_idle _) fun found => ?_
        cases found with
        | none => exact Keeps.throw _
        | some user => exact elsewhere_finishReset _ _ _ _ _ _
      · exact Keeps.throw _
    · rintro _ same (other | other | other) <;> cases same <;> cases other
  | verifyEmailToken token =>
    refine solo_redeemed fun redeemed => ?_
    split
    · exact keeps_writing elsewhere_idle fun w => rfl
    · exact Keeps.throw _
  | redeemMagicLink token device =>
    refine solo_mapped (solo_redeemed fun redeemed => ?_)
    split
    · refine Keeps.bind (keeps_reading elsewhere_idle _) fun found => ?_
      cases found with
      | none => exact Keeps.throw _
      | some user =>
        dsimp only
        split
        · refine Keeps.bind (elsewhere_openSession _ _ _ _ _) fun created => ?_
          exact Keeps.bind (spared_mintTokens elsewhere_idle (fun _ _ => rfl) _ _ _ _ _ _) fun tokens => Keeps.pure _
        · exact Keeps.throw _
    · exact Keeps.throw _

-- Every call that refuses a token for its tenant, its application or its kind has
-- consumed it.
theorem rejected_burns (engine : AuthEngine) (redemption : Redemption) (i : CallId) (s t : World) (e : Error)
    (ran : Exec Elsewhere i (redemption.program engine) s (.error e) t) (mismatch : Mismatch e) :
    ¬Unburned engine.platform redemption.token s t := by
  have burned := Safe.solo_exec (fun moved => moved) ran (solo_redemption engine redemption s.verificationTokens)
  exact burned_consumptions (burned e rfl mismatch)

end

-- A magic link that is taken to where email addresses are verified.
def magicLink : World :=
  {soleAccount sampleUser with verificationTokens :=
    [⟨"link",.magic_link,"tenant","application","user","#secret",none,none,1000,none⟩]}

def misplaced : Except Error Unit × World := ((Redemption.verifyEmailToken "secret").program sampleEngine).run 0 magicLink

theorem misplaced_refused : Exec Elsewhere 0 ((Redemption.verifyEmailToken "secret").program sampleEngine) magicLink
    (.error kindMismatch) misplaced.2 := by
  have failed : (match misplaced.1 with
    | .error e => decide (e = kindMismatch)
    | .ok _ => false) = true := by decide +kernel
  have ran := exec_run 0 ((Redemption.verifyEmailToken "secret").program sampleEngine) magicLink Elsewhere
  split at failed
  · rename_i e thrown
    rw [← of_decide_eq_true failed,← thrown]
    exact ran
  · cases failed

theorem rejected_burns_misplaced : ¬Unburned samplePlatform "secret" magicLink misplaced.2 :=
  rejected_burns sampleEngine (.verifyEmailToken "secret") 0 magicLink misplaced.2 kindMismatch misplaced_refused
    (Or.inr (Or.inr rfl))

theorem rejected_token_burned : ¬∀ (engine : AuthEngine) (redemption : Redemption) (i : CallId) (s t : World) (e : Error),
    Exec Elsewhere i (redemption.program engine) s (.error e) t → Mismatch e →
      Unburned engine.platform redemption.token s t := by
  intro all
  have same := all sampleEngine (.verifyEmailToken "secret") 0 magicLink misplaced.2 kindMismatch misplaced_refused
    (Or.inr (Or.inr rfl))
  have consumed : consumptions samplePlatform "secret" misplaced.2.verificationTokens = [some 0] := by decide +kernel
  have stored : consumptions samplePlatform "secret" magicLink.verificationTokens = [none] := by decide +kernel
  exact absurd (consumed.symm.trans (Eq.trans same stored)) (by decide)

end Pezhwan.Tokens
