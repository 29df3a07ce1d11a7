import Pezhwan.Auth.Total

namespace Pezhwan.Auth
open Atomic Prog Discipline

-- The user exists and is disabled; document ids are unique and not empty.
def Disabled (userId : String) (w : World) : Prop :=
  (w.users.map UserDoc.id).Nodup ∧ "" ∉ w.users.map UserDoc.id ∧
    (standing userId w).map Prod.fst = some false

-- Whatever else happens meanwhile, as long as the user stays disabled the call
-- does not return tokens for it.
def Protects (engine : AuthEngine) (call : Call) : Prop :=
  ∀ userId i s reply t, Disabled userId s →
    Exec (fun _ w => Disabled userId w) i (program engine call) s (.ok reply) t → ¬ reply.TokensFor userId

theorem disabled_calm (disabled : Disabled userId s) (calm : Calm s t) : Disabled userId t := by
  obtain ⟨unique,named,off⟩ := disabled
  refine ⟨calm.2.1 ▸ unique,calm.2.1 ▸ named,?_⟩
  rw [calm.2.2 userId]
  exact off

theorem disabled_link (userId : String) :
    Link Calm (fun _ w => Disabled userId w) (fun s t => Disabled userId s → Disabled userId t) where
  refl _ := id
  trans one two := two ∘ one
  own calm disabled := disabled_calm disabled calm
  other disabled _ := disabled

theorem active_other (disabled : Disabled userId w) (present : user ∈ w.users) (active : user.isActive = true) :
    user.id ≠ userId := by
  rintro rfl
  obtain ⟨unique,_,off⟩ := disabled
  simp [standing,userById_stored unique present,active] at off

theorem minted_protects (other : subject ≠ userId) (owner : created.userId ≠ userId)
    (minted : Minted subject tokenVersion created tokens) : ¬ (Reply.issued user tokens).TokensFor userId := by
  intro issued
  rcases minted_for minted issued with same | same
  · exact other same
  · exact owner same

theorem gated_protects (other : user.id ≠ userId)
    (gated : Gated (fun s t => Disabled userId s → Disabled userId t) engine user result w t) :
    ¬ result.reply.TokensFor userId := by
  rcases gated with ⟨rfl,_⟩ | ⟨created,tokens,u,rfl,owner,minted,_⟩
  · exact id
  · exact minted_protects other (owner.trans_ne other) minted

theorem loginPassword_protects (engine : AuthEngine) (input : AuthEngine.LoginInput) :
    Protects engine (.loginPassword input) := by
  intro userId i s reply t disabled ran
  obtain ⟨result,u,inner,rfl,_⟩ := exec_map ran
  obtain ⟨user,w,w',before,_,found,active,between,gated⟩ := loginPassword_parts (disabled_link userId) inner
  exact gated_protects (active_other (before disabled) (userFor_stored found) active) gated

theorem loginOtp_protects (engine : AuthEngine) (input : AuthEngine.LoginOtpInput) :
    Protects engine (.loginOtp input) := by
  intro userId i s reply t disabled ran
  obtain ⟨result,u,inner,rfl,_⟩ := exec_map ran
  obtain ⟨user,w,w',before,_,found,active,between,gated⟩ := loginOtp_parts (disabled_link userId) inner
  exact gated_protects (active_other (before disabled) (userFor_stored found) active) gated

theorem verifyMfaLogin_protects (engine : AuthEngine) (input : AuthEngine.VerifyMfaInput) :
    Protects engine (.verifyMfaLogin input) := by
  intro userId i s reply t disabled ran
  obtain ⟨result,u,inner,rfl,_⟩ := exec_map ran
  obtain ⟨first,w,last,w',created,tokens,_,before,_,foundFirst,active,between,foundLast,rfl,owner,minted,_,x,y,reach,challenged⟩ :=
    verifyMfaLogin_parts (disabled_link userId) inner
  have here := before disabled
  obtain ⟨z,user,seen,exists_,_⟩ := verifyMfa_parts (disabled_link userId) challenged
  have given : input.userId ≠ "" := by
    intro empty
    obtain ⟨stored,named⟩ := Collection.lookup_some exists_
    rw [empty] at named
    exact (seen (reach here)).2.1 (List.mem_map.mpr ⟨user,stored,named⟩)
  have other := active_other here (userFor_stored foundFirst) active
  rw [userFor_named foundFirst given] at other
  exact minted_protects ((userFor_named foundLast given).trans_ne other) (owner.trans_ne other) minted

theorem redeemMagicLink_protects (engine : AuthEngine) (token : String) (device : DeviceInfo) :
    Protects engine (.redeemMagicLink token device) := by
  intro userId i s reply t disabled ran
  obtain ⟨result,u,inner,rfl,_⟩ := exec_map ran
  obtain ⟨user,redeemed,v,w,created,tokens,consumed,_,between,_,found,active,rfl,owner,minted,_⟩ :=
    redeemMagicLink_parts (disabled_link userId) inner
  have before := (disabled_link userId).exec (keeps_redeem _ _ _) consumed disabled
  have other := active_other (between before) (userFor_stored found) active
  exact minted_protects other (owner.trans_ne other) minted

theorem register_protects (engine : AuthEngine) (input : AuthEngine.RegisterInput) :
    Protects engine (.register input) := by
  intro userId i s reply t disabled ran
  obtain ⟨result,u,inner,rfl,_⟩ := exec_map ran
  obtain ⟨doc,w,created,tokens,before,_,⟨absent,_⟩,rfl,owner,minted,_⟩ := register_parts (disabled_link userId) inner
  have other : doc.id ≠ userId := by
    intro same
    obtain ⟨_,_,off⟩ := before disabled
    obtain ⟨standing_,found,_⟩ := Option.map_eq_some_iff.mp off
    obtain ⟨user,hit,_⟩ := Option.map_eq_some_iff.mp found
    obtain ⟨present,named⟩ := Collection.lookup_some hit
    exact absent user present (named.trans same.symm)
  exact minted_protects other (owner.trans_ne other) minted

theorem checkPassword_accepted (ran : Exec other i (checkPassword password policy) s (.ok value) t) :
    evaluatePassword password policy = [] := by
  unfold checkPassword at ran
  split at ran
  · assumption
  · exact absurd ran exec_throw

theorem verifyOtp_limited (ran : Exec other i (verifyOtp platform otp channel target purpose code) s (.ok true) t) :
    otp.maxAttempts ≠ 0 := by
  intro limit
  obtain ⟨cached,u,_,rest⟩ := exec_bind ran
  rw [if_pos (by simp [limit])] at rest
  cases (exec_pure rest).1

-- The calls that look at isActive before they issue tokens, and the resets
-- that stop before they issue any.
def Call.Guarded (engine : AuthEngine) : Call → Prop
  | .register _ | .loginPassword _ | .loginOtp _ | .verifyMfaLogin _ | .redeemMagicLink .. => True
  | .refreshSession .. => False
  | .resetPassword input =>
    evaluatePassword input.newPassword engine.passwordPolicy ≠ [] ∨ engine.otp.maxAttempts = 0
  | .resetPasswordWithToken input => evaluatePassword input.newPassword engine.passwordPolicy ≠ []

theorem guarded_protects (guarded : Call.Guarded engine call) : Protects engine call := by
  cases call with
  | register input => exact register_protects engine input
  | loginPassword input => exact loginPassword_protects engine input
  | loginOtp input => exact loginOtp_protects engine input
  | verifyMfaLogin input => exact verifyMfaLogin_protects engine input
  | redeemMagicLink token device => exact redeemMagicLink_protects engine token device
  | refreshSession token device => exact guarded.elim
  | resetPassword input =>
    intro userId i s reply t _ ran
    obtain ⟨result,u,inner,rfl,_⟩ := exec_map ran
    obtain ⟨_,v,checked,rest⟩ := exec_bind inner
    obtain ⟨verified,v',passed,rest⟩ := exec_bind rest
    split at rest
    · rename_i accepted
      rw [accepted] at passed
      rcases guarded with policy | limit
      · exact absurd (checkPassword_accepted checked) policy
      · exact absurd limit (verifyOtp_limited passed)
    · exact absurd rest exec_throw
  | resetPasswordWithToken input =>
    intro userId i s reply t _ ran
    obtain ⟨result,u,inner,rfl,_⟩ := exec_map ran
    obtain ⟨_,v,checked,rest⟩ := exec_bind inner
    exact absurd (checkPassword_accepted checked) guarded

-- A disabled account and nothing else, for the calls that do not look.
def disabledUser (engine : AuthEngine) (target : String) : UserDoc := {sampleUser with
  id := "user"
  tenantId := engine.tenantId
  email := some (engine.platform.emailSetter (engine.platform.toLowerCase target))
  phone := some (engine.platform.phoneSetter target)
  phoneVerified := true
  isActive := false
  passwordHash := none}

theorem soleAccount_disabled (engine : AuthEngine) (target : String) {w : World}
    (same : w.users = [disabledUser engine target]) : Disabled "user" w := by
  refine ⟨?_,?_,?_⟩
  · rw [same]; simp
  · rw [same]; simp [disabledUser]
  · simp [standing,userById,Collection.lookup,same,disabledUser]

theorem not_protects {engine : AuthEngine} {p : Program α} {f : α → Reply} (same : program engine call = f <$> p)
    (disabled : Disabled userId s) (ends : Ends 0 p s fun value _ => (f value).TokensFor userId) :
    ¬ Protects engine call := by
  intro protects
  obtain ⟨value,t,returned,issued⟩ := ends
  refine protects userId 0 s (f value) t disabled ?_ issued
  rw [same]
  exact returns_exec (returns_bind.mpr ⟨value,t,returned,returns_pure.mpr ⟨rfl,rfl⟩⟩)

theorem userFor_sole {engine : AuthEngine} (standard : engine.lookupUser = none)
    (selected : engine.selects input user = true) : engine.userFor input [user] = some user := by
  simp [AuthEngine.userFor,standard,selected]

theorem selects_resetHandle (engine : AuthEngine) (channel : Channel) (target : String) :
    engine.selects (AuthEngine.resetHandle channel target) (disabledUser engine target) = true := by
  by_cases empty : target = ""
  · subst empty
    cases channel <;> simp [AuthEngine.selects,AuthEngine.resetHandle,AuthEngine.byHandle,disabledUser]
  · cases channel <;>
      simp [AuthEngine.selects,AuthEngine.resetHandle,AuthEngine.byHandle,truthy_given empty,disabledUser]

theorem selects_byId (engine : AuthEngine) (target : String) :
    engine.selects (AuthEngine.byId "user") (disabledUser engine target) = true := by
  have given : truthy (some "user") = some "user" := truthy_given (by decide)
  simp [AuthEngine.selects,AuthEngine.byId,given,disabledUser]

theorem resetPassword_issues {engine : AuthEngine} (standard : engine.lookupUser = none)
    {input : AuthEngine.ResetPasswordInput}
    (accepted : evaluatePassword input.newPassword engine.passwordPolicy = []) (limit : engine.otp.maxAttempts ≠ 0) :
    ¬ Protects engine (.resetPassword input) := by
  let code : OtpDoc := ⟨"code",engine.otp.tenantId,engine.otp.applicationId,input.channel,
    engine.platform.toLowerCase input.target,.password_reset,engine.platform.sha256 input.code,0,0,false⟩
  let s : World := {soleAccount (disabledUser engine input.target) with otps := [code]}
  refine not_protects (s := s) rfl (soleAccount_disabled engine input.target rfl) ?_
  have found : s.otps.find? (engine.otp.selects input.channel (engine.platform.toLowerCase input.target) .password_reset) =
      some code := by simp [s,code,OtpService.selects]
  refine ends_resetPassword rfl rfl accepted (Nat.pos_of_ne_zero limit) found (Nat.le_refl _) rfl rfl
    (userFor_sole standard (selects_resetHandle engine input.channel input.target)) ?_
  intro tokens t sub
  exact .inl sub

theorem resetPasswordWithToken_issues {engine : AuthEngine} (standard : engine.lookupUser = none)
    {input : AuthEngine.ResetWithTokenInput}
    (accepted : evaluatePassword input.newPassword engine.passwordPolicy = []) :
    ¬ Protects engine (.resetPasswordWithToken input) := by
  let token : VerificationTokenDoc := ⟨"token",.password_reset,engine.verificationTokens.tenantId,
    engine.verificationTokens.applicationId,"user",engine.platform.sha256 input.token,none,none,0,none⟩
  let s : World := {soleAccount (disabledUser engine "") with verificationTokens := [token]}
  refine not_protects (s := s) rfl (soleAccount_disabled engine "" rfl) ?_
  have found : s.verificationTokens.find? (live engine.platform input.token) = some token := by
    simp [s,token,live]
  refine ends_resetPasswordWithToken rfl rfl accepted found rfl rfl (Nat.le_refl _) rfl
    (userFor_sole standard (selects_byId engine "")) ?_
  intro tokens t sub
  exact .inl sub

theorem fresh_beyond (random : Random) (used : String) : ∃ bound, ∀ n, bound ≤ n → random.fresh n ≠ used := by
  by_cases drawn : ∃ m, random.fresh m = used
  · obtain ⟨m,rfl⟩ := drawn
    refine ⟨m+1,fun n later same => ?_⟩
    have := random.injective same
    omega
  · exact ⟨0,fun n _ same => drawn ⟨n,same⟩⟩

theorem refreshSession_issues (engine : AuthEngine) (token : String) (device : DeviceInfo) :
    ¬ Protects engine (.refreshSession token device) := by
  obtain ⟨one,unusedToken⟩ := fresh_beyond engine.sessions.random token
  obtain ⟨two,unusedId⟩ := fresh_beyond engine.sessions.random "session"
  let doc : Session.SessionDoc := ⟨"session","user",engine.tenantId,engine.applicationId,.active,"family",
    engine.sessions.hashRefreshToken token,none,none,0,0,none⟩
  let s : World := {soleAccount (disabledUser engine "") with
    base := ⟨0,List.replicate (one+two) 0,none,[]⟩,sessions := ⟨[doc],[]⟩}
  refine not_protects (s := s) rfl (soleAccount_disabled engine "" rfl) ?_
  have only : s.sessions.docs = [doc] := rfl
  refine ends_refreshSession rfl only rfl rfl rfl rfl ?_ ?_
  · intro n later
    have drawn : one + two ≤ n := by simpa [s] using later
    exact ⟨unusedToken n (by omega),unusedId n (by omega)⟩
  · intro tokens t sub
    exact .inl sub

theorem disabled_accounts_get_no_tokens (engine : AuthEngine) (call : Call) :
    (call.Guarded engine → Protects engine call) ∧
      (engine.lookupUser = none → Protects engine call → call.Guarded engine) := by
  refine ⟨guarded_protects,fun standard protects => ?_⟩
  cases call with
  | register input => trivial
  | loginPassword input => trivial
  | loginOtp input => trivial
  | verifyMfaLogin input => trivial
  | redeemMagicLink token device => trivial
  | refreshSession token device => exact refreshSession_issues engine token device protects
  | resetPassword input =>
    by_contra open_
    simp only [Call.Guarded,not_or,not_not] at open_
    exact resetPassword_issues standard open_.1 open_.2 protects
  | resetPasswordWithToken input =>
    intro accepted
    exact resetPasswordWithToken_issues standard accepted protects

theorem disabled_accounts_get_no_tokens_sample :
    Protects sampleEngine (.redeemMagicLink "link" anyDevice) ∧
      ¬ Protects sampleEngine (.refreshSession "token" anyDevice) :=
  ⟨(disabled_accounts_get_no_tokens sampleEngine (.redeemMagicLink "link" anyDevice)).1 trivial,
    (disabled_accounts_get_no_tokens sampleEngine (.refreshSession "token" anyDevice)).2 rfl⟩

-- A disabled user holds a live refresh token and the session rotates.
def disabledWithSession : World :=
  {soleAccount (disabledUser sampleEngine "user@example.com") with
    sessions := ⟨[⟨"session","user","tenant","application",.active,"family","#token",none,none,0,1000,none⟩],[]⟩}

theorem disabled_account_refreshes : Disabled "user" disabledWithSession ∧ ∃ tokens t,
    Exec (fun _ w => Disabled "user" w) 0 (program sampleEngine (.refreshSession "token" anyDevice)) disabledWithSession
      (.ok (.issued none tokens)) t ∧ tokens.accessToken.sub = "user" ∧ tokens.session.userId = "user" ∧
      (standing "user" t).map Prod.fst = some false := by
  refine ⟨soleAccount_disabled sampleEngine "user@example.com" rfl,?_⟩
  have ran : endsWith 0 (program sampleEngine (.refreshSession "token" anyDevice)) disabledWithSession
      (fun reply t => reply.issuing fun user tokens => decide (user = none ∧ tokens.accessToken.sub = "user" ∧
        tokens.session.userId = "user" ∧ (standing "user" t).map Prod.fst = some false)) = true := by decide +kernel
  obtain ⟨reply,t,returned,shown⟩ := endsWith_ends.mp ran
  obtain ⟨user,tokens,rfl,facts⟩ := Reply.issuing_some shown
  simp only [decide_eq_true_eq] at facts
  obtain ⟨rfl,facts⟩ := facts
  exact ⟨tokens,t,returns_exec returned,facts⟩

end Pezhwan.Auth
