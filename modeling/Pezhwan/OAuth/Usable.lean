import Pezhwan.Auth.Total
import Pezhwan.OAuth.Service

namespace Pezhwan.Auth
open Atomic Prog Discipline

def cachedState (userId : String) (w : World) : Option AccountState :=
  match w.base.account userId with
  | some (.account state) => some state
  | _ => none

-- What AccountStateService.validate answers, read off the state.
def Accepts (userId : String) (tokenVersion : Nat) (w : World) : Prop :=
  match cachedState userId w with
  | some state => AccountState.passes state = true
  | none => (standing userId w).map (fun s => (s.1,s.2.1)) = some (true,tokenVersion)

theorem accepts_calm (calm : Calm s t) : Accepts userId tokenVersion t ↔ Accepts userId tokenVersion s := by
  simp only [Accepts,cachedState,calm.1.2.2 userId,calm.2.2 userId]

theorem validate_accepts (i : CallId) (userId : String) (tokenVersion : Nat) (healthy : w.base.fault = none) :
    Ends i (validate userId tokenVersion) w (fun answer _ => answer = true ↔ Accepts userId tokenVersion w) := by
  refine Ends.bind (Ends.zoom (Ends.atomic ?_))
  simp only [baseLens]
  rcases cached : w.base.cache.get w.base.now (.accountState userId) with _ | (text | number | state)
  case some.account =>
    refine Ends.pure ?_
    simp [Accepts,cachedState,Base.account,cached]
  -- no account state is cached
  all_goals
    have missing : cachedState userId w = none := by simp [cachedState,Base.account,cached]
    refine Ends.bind (Ends.attempt (ends_read healthy ?_))
    refine Ends.bind (ends_base rfl fun _ b _ => Ends.pure ?_)
    simp only [Accepts,missing,standing,AccountState.passes]
    cases userById userId w with
    | none => simp
    | some user => simp

-- The middleware's check of a token, in the state it was returned in.
def Usable (token : AccessToken) (w : World) : Prop :=
  Ends 0 (validate token.sub (token.tokenVersion.getD 0)) w fun answer _ => answer = true

theorem usable_accepts (healthy : w.base.fault = none) :
    Usable token w ↔ Accepts token.sub (token.tokenVersion.getD 0) w := by
  obtain ⟨answer,t,returned,exact_⟩ := validate_accepts 0 token.sub (token.tokenVersion.getD 0) healthy
  constructor
  · intro ⟨answer',t',returned',positive⟩
    rw [Returns,returned] at returned'
    cases returned'
    exact exact_.mp positive
  · intro accepted
    exact ⟨answer,t,returned,exact_.mpr accepted⟩

-- The issuing paths.
inductive Issuing where
  | engine (call : Call)
  | exchangeAuthorizationCode (client : OAuthClientDoc) (input : OAuth.ExchangeInput)

def Issuing.isReset : Issuing → Bool
  | .engine (.resetPassword _) | .engine (.resetPasswordWithToken _) => true
  | _ => false

-- Whether the path puts the version it finds in the user's document into the
-- token; otherwise the middleware takes the version for 0.
def Issuing.ReadsVersion (engine : AuthEngine) (user : UserDoc) : Issuing → Prop
  | .exchangeAuthorizationCode .. => False
  | .engine (.refreshSession ..) => user.tenantId = engine.tenantId
  | .engine _ => True

inductive Issued (engine : AuthEngine) (oauth : OAuth.OAuthService) (i : CallId) :
    Issuing → World → AccessToken → World → Prop where
  | engine (returned : Returns i (program engine call) s (.issued user tokens) t) :
      Issued engine oauth i (.engine call) s tokens.accessToken t
  | exchangeAuthorizationCode (returned : Returns i (oauth.exchangeAuthorizationCode client input) s tokens t) :
      Issued engine oauth i (.exchangeAuthorizationCode client input) s tokens.accessToken t

def Vouched (engine : AuthEngine) (issuing : Issuing) (userId : String) (s : World) : Prop :=
  issuing.isReset = false ∧ match cachedState userId s with
    | some state => AccountState.passes state = true
    | none => ∀ user, userById userId s = some user → user.tokenVersion = 0 ∨ issuing.ReadsVersion engine user

theorem usable_calm (healthy : s.base.fault = none) (calm : Calm s t)
    (stood : standing token.sub s = some (true,version,mfa)) :
    Usable token t ↔ match cachedState token.sub s with
      | some state => AccountState.passes state = true
      | none => version = token.tokenVersion.getD 0 := by
  rw [usable_accepts (calm.1.2.1.trans healthy),accepts_calm calm]
  simp only [Accepts,stood,Option.map_some,Option.some.injEq,Prod.mk.injEq,true_and]

theorem active_user (calm : Calm s t) (active : (standing userId t).map Prod.fst = some true) :
    ∃ user, userById userId s = some user ∧ user.isActive = true := by
  rw [calm.2.2 userId] at active
  obtain ⟨state,stood,up⟩ := Option.map_eq_some_iff.mp active
  obtain ⟨user,found,rfl⟩ := Option.map_eq_some_iff.mp stood
  exact ⟨user,found,up⟩

theorem usable_version {issuing : Issuing} (healthy : s.base.fault = none) (calm : Calm s t)
    (found : userById token.sub s = some user) (up : user.isActive = true) (kept : issuing.isReset = false)
    (compared : user.tokenVersion = token.tokenVersion.getD 0 ↔
      user.tokenVersion = 0 ∨ issuing.ReadsVersion engine user) :
    Usable token t ↔ Vouched engine issuing token.sub s := by
  have stood : standing token.sub s = some (true,user.tokenVersion,user.mfaEnabled,user.tenantId) := by
    simp [standing,found,up]
  rw [usable_calm healthy calm stood]
  simp only [Vouched,kept,found,true_and,Option.some.injEq]
  cases cachedState token.sub s with
  | some state => rfl
  | none => simpa using compared

theorem usable_read {issuing : Issuing} (healthy : s.base.fault = none) (calm : Calm s t)
    (active : (standing token.sub t).map Prod.fst = some true)
    (version : token.tokenVersion = (standing token.sub s).map fun state => state.2.1)
    (kept : issuing.isReset = false) (reads : ∀ user, issuing.ReadsVersion engine user) :
    Usable token t ↔ Vouched engine issuing token.sub s := by
  obtain ⟨user,found,up⟩ := active_user calm active
  apply usable_version healthy calm found up kept
  rw [version]
  simp [standing,found,reads]

theorem standing_stored (unique : (w.users.map UserDoc.id).Nodup) (present : user ∈ w.users) :
    standing user.id w = some (user.isActive,user.tokenVersion,user.mfaEnabled,user.tenantId) := by
  simp [standing,userById_stored unique present]

theorem version_found {engine : AuthEngine} (unique : (s.users.map UserDoc.id).Nodup) (calm : Calm s w)
    (found : engine.userFor input w.users = some user) :
    some user.tokenVersion = (standing user.id s).map fun state => state.2.1 := by
  rw [← calm.2.2 user.id,standing_stored (calm.2.1 ▸ unique) (userFor_stored found)]
  rfl

theorem gated_usable {issuing : Issuing} (unique : (s.users.map UserDoc.id).Nodup) (before : Calm s w)
    (healthy : w.base.fault = none) (found : engine.userFor input w.users = some user) (between : Calm w w')
    (gated : Gated Calm engine user result w' t) (same : result.reply = .issued owner tokens)
    (active : (standing tokens.accessToken.sub t).map Prod.fst = some true)
    (kept : issuing.isReset = false) (reads : ∀ user, issuing.ReadsVersion engine user) :
    Usable tokens.accessToken t ↔ Vouched engine issuing tokens.accessToken.sub s := by
  rcases gated with ⟨rfl,_⟩ | ⟨created,minted,u,rfl,_,fits,first,_,last⟩
  · cases same
  · cases same
    have calm := world_calm_trans before (world_calm_trans between (world_calm_trans first last))
    refine usable_read (before.1.2.1.symm.trans healthy) calm active ?_ kept reads
    rw [fits.1,fits.2.1]
    exact version_found unique before found

theorem register_usable {engine : AuthEngine} (returned : Returns i (engine.register input) s (user,tokens) t) :
    Usable tokens.accessToken t ↔ Vouched engine (.engine (.register input)) tokens.accessToken.sub s := by
  obtain ⟨doc,w,created,issued,before,healthy,newcomer,same,_,fits,after⟩ := register_parts alone (returns_exec returned)
  cases same
  have stood : standing tokens.accessToken.sub (w.withUser i user) = some (true,0,false,user.tenantId) := by
    rw [fits.1]
    exact standing_newcomer newcomer i
  have version := newcomer.2.2.1
  have healthy : (w.withUser i user).base.fault = none := healthy
  rw [usable_calm healthy after stood]
  have cached : cachedState tokens.accessToken.sub (w.withUser i user) = cachedState tokens.accessToken.sub s := by
    have same : cachedState tokens.accessToken.sub (w.withUser i user) = cachedState tokens.accessToken.sub w := rfl
    rw [same]
    simp only [cachedState,before.1.2.2 tokens.accessToken.sub]
  rw [cached]
  simp only [Vouched,Issuing.isReset,Issuing.ReadsVersion,fits.2.1,version,Option.getD_some,true_and]
  cases cachedState tokens.accessToken.sub s with
  | some state => rfl
  | none => simp

theorem find_inTenant {users : List UserDoc} (unique : (users.map UserDoc.id).Nodup) (present : user ∈ users) :
    users.find? (fun other => other.id = user.id && other.tenantId = tenantId) =
      if user.tenantId = tenantId then some user else none := by
  induction users with
  | nil => cases present
  | cons head rest ih =>
    simp only [List.map_cons,List.nodup_cons] at unique
    rcases List.mem_cons.mp present with rfl | old
    · split
      · rename_i home
        simp [home]
      · rename_i away
        have others : ∀ other ∈ rest, ¬ other.id = user.id := by
          intro other member same
          exact unique.1 (same ▸ List.mem_map_of_mem member)
        simp only [List.find?_cons,away,decide_true,decide_false,Bool.and_false]
        rw [List.find?_eq_none]
        intro other member
        simp [others other member]
    · have different : ¬ head.id = user.id := fun same => unique.1 (same ▸ List.mem_map_of_mem old)
      simp only [List.find?_cons,different,decide_false,Bool.false_and]
      exact ih unique.2 old

theorem refreshSession_usable {engine : AuthEngine} (unique : (s.users.map UserDoc.id).Nodup)
    (returned : Returns i (engine.refreshSession token device) s tokens t)
    (active : (standing tokens.accessToken.sub t).map Prod.fst = some true) :
    Usable tokens.accessToken t ↔ Vouched engine (.engine (.refreshSession token device)) tokens.accessToken.sub s := by
  obtain ⟨created,w,sub,_,before,healthy,after,version⟩ := refreshSession_parts alone (returns_exec returned)
  have calm := world_calm_trans before after
  obtain ⟨user,found,up⟩ := active_user calm active
  apply usable_version (before.1.2.1.symm.trans healthy) calm found up rfl
  -- the version is read from the document as it is by then
  have stood : standing created.userId w = some (user.isActive,user.tokenVersion,user.mfaEnabled,user.tenantId) := by
    rw [before.2.2 created.userId,← sub]
    simp [standing,found]
  obtain ⟨later,hit,facts⟩ := Option.map_eq_some_iff.mp stood
  obtain ⟨present,named⟩ := Collection.lookup_some hit
  simp only [Prod.mk.injEq] at facts
  obtain ⟨_,number,_,tenant⟩ := facts
  rw [version,← named,find_inTenant (before.2.1 ▸ unique) present]
  simp only [Issuing.ReadsVersion,tenant,Option.getD_some]
  split
  · rename_i home
    simp [number,home]
  · rename_i away
    simp [away]

theorem keeps_issueForCode (oauth : OAuth.OAuthService) (code : AuthorizationCodeDoc) (device : DeviceInfo) :
    (oauth.issueForCode code device).Keeps Calm := by
  refine Keeps.bind (keeps_session (Session.keeps_create _ _)) fun created => ?_
  refine Keeps.bind (keeps_signAccessToken _ _ _ _ _ _) fun token => ?_
  refine Keeps.bind ?_ fun idToken => Keeps.pure _
  unfold OAuth.OAuthService.idTokenFor
  split
  · exact Keeps.bind (Keeps.bind (keeps_base keeps_clock) fun _ => Keeps.pure _) fun _ => Keeps.pure _
  · exact Keeps.pure _

theorem keeps_checkPkce (oauth : OAuth.OAuthService) (code : AuthorizationCodeDoc) (codeVerifier : Option String) :
    (oauth.checkPkce code codeVerifier).Keeps Calm := by
  unfold OAuth.OAuthService.checkPkce
  split
  · exact Keeps.pure _
  · split
    · exact Keeps.throw _
    · split
      · exact Keeps.pure _
      · exact Keeps.bind (keeps_session (Session.keeps_revoke _)) fun _ => Keeps.throw _

theorem keeps_exchangeAuthorizationCode (oauth : OAuth.OAuthService) (client : OAuthClientDoc) (input : OAuth.ExchangeInput) :
    (oauth.exchangeAuthorizationCode client input).Keeps Calm := by
  unfold OAuth.OAuthService.exchangeAuthorizationCode
  split
  · exact Keeps.throw _
  · refine Keeps.bind (keeps_op ?_) fun found => ?_
    · intro i w value t ran
      cases ran
      exact calm_aside (calm_refl _) rfl
    · cases found with
      | none => exact Keeps.throw _
      | some code =>
        refine Keeps.bind (Keeps.atomic fun i w => calm_aside (calm_refl _) rfl) fun now => ?_
        split
        · exact Keeps.throw _
        · split
          · exact Keeps.throw _
          · refine Keeps.bind (keeps_checkPkce _ _ _) fun _ => ?_
            refine Keeps.bind (keeps_op ?_) fun consumed => ?_
            · intro i w value t ran
              cases ran
              exact calm_aside (calm_refl _) rfl
            · cases consumed with
              | none => exact Keeps.throw _
              | some _ => exact keeps_issueForCode _ _ _

theorem issueForCode_yields (oauth : OAuth.OAuthService) (code : AuthorizationCodeDoc) (device : DeviceInfo) :
    (oauth.issueForCode code device).Yields fun tokens => tokens.accessToken.tokenVersion = none := by
  refine Yields.bind (Yields.any _) fun created _ => ?_
  refine Yields.bind (signAccessToken_yields _ _ _ _ _ _) fun token claims => ?_
  exact Yields.bind (Yields.any _) fun idToken _ => claims.2

theorem exchange_parts {oauth : OAuth.OAuthService} (link : Link Calm other r)
    (ran : Exec other i (oauth.exchangeAuthorizationCode client input) s (.ok tokens) t) :
    ∃ w, r s w ∧ w.base.fault = none ∧ tokens.accessToken.tokenVersion = none := by
  unfold OAuth.OAuthService.exchangeAuthorizationCode at ran
  split at ran
  · exact absurd ran exec_throw
  · obtain ⟨found,u,looked,rest⟩ := exec_bind ran
    obtain ⟨w,_,before,healthy,_,_⟩ := exec_op link looked
    refine ⟨w,before,healthy,?_⟩
    cases found with
    | none => exact absurd rest exec_throw
    | some code =>
      obtain ⟨now,_,_,rest⟩ := exec_bind rest
      split at rest
      · exact absurd rest exec_throw
      · split at rest
        · exact absurd rest exec_throw
        · obtain ⟨_,_,_,rest⟩ := exec_bind rest
          obtain ⟨consumed,_,_,rest⟩ := exec_bind rest
          cases consumed with
          | none => exact absurd rest exec_throw
          | some _ =>
            have version := exec_yields (issueForCode_yields _ _ _) rest
            exact version

theorem exchange_usable {oauth : OAuth.OAuthService}
    (returned : Returns i (oauth.exchangeAuthorizationCode client input) s tokens t)
    (active : (standing tokens.accessToken.sub t).map Prod.fst = some true) :
    Usable tokens.accessToken t ↔ Vouched engine (.exchangeAuthorizationCode client input) tokens.accessToken.sub s := by
  have calm := alone.exec (keeps_exchangeAuthorizationCode oauth client input) (returns_exec returned)
  obtain ⟨w,before,healthy,version⟩ := exchange_parts alone (returns_exec returned)
  obtain ⟨user,found,up⟩ := active_user calm active
  apply usable_version (before.1.2.1.symm.trans healthy) calm found up rfl
  rw [version]
  simp [Issuing.ReadsVersion]

theorem standing_raised {engine : AuthEngine} (passwordHash : String) (unique : (w.users.map UserDoc.id).Nodup)
    (stood : standing user.id w = some (up,version,mfa,engine.tenantId)) :
    standing user.id (raised engine user passwordHash w) = some (up,user.tokenVersion + 1,mfa,engine.tenantId) := by
  obtain ⟨doc,found,facts⟩ := Option.map_eq_some_iff.mp stood
  obtain ⟨present,named⟩ := Collection.lookup_some found
  simp only [Prod.mk.injEq] at facts
  obtain ⟨active,_,factor,home⟩ := facts
  have matched : w.users.find? (fun other => other.id = user.id && other.tenantId = engine.tenantId) = some doc := by
    rw [← named,find_inTenant unique present,if_pos home]
  simp only [standing,userById,raised,World.updateUser]
  rw [Collection.updateOne_rewrite _ unique matched,Collection.lookup_rewrite ?_,if_pos named.symm]
  · rw [userById] at found
    simp [found,active,factor,home]
  · intro doc
    rfl

theorem finishReset_unusable {engine : AuthEngine} {newPassword : String} (unique : (w.users.map UserDoc.id).Nodup)
    (asked : resolved engine w call = some user) (still : Aside w u)
    (returned : Returns i (engine.finishReset user applicationId newPassword device authMethod) u (owner,tokens) t) :
    ¬ Usable tokens.accessToken t := by
  obtain ⟨lookup,found⟩ := resolved_found asked
  obtain ⟨x,v,created,issued,passwordHash,first,healthy,after,last,same,_,fits⟩ :=
    finishReset_parts alone (returns_exec returned)
  cases same
  have before := world_calm_trans (aside_calm still) first
  have well : t.base.fault = none := last.1.2.1.trans (after.1.2.1.trans healthy)
  have gone : cachedState user.id t = none := by
    have empty : (forgotten user.id v).base.account user.id = none := Cache.get_del _ _ _
    simp [cachedState,last.1.2.2 user.id,empty]
  rw [usable_accepts well,fits.1,fits.2.1]
  simp only [Accepts,gone,Option.getD_some]
  have stood : standing user.id x = some (user.isActive,user.tokenVersion,user.mfaEnabled,engine.tenantId) := by
    rw [before.2.2 user.id,standing_stored unique (userFor_stored found),userFor_inTenant found]
  have now := standing_raised passwordHash (before.2.1 ▸ unique) stood
  have same : standing user.id t = standing user.id (raised engine user passwordHash x) :=
    (last.2.2 user.id).trans (after.2.2 user.id)
  rw [same,now]
  simp

theorem reset_unusable (engine : AuthEngine) {issuing : Issuing} (reset : issuing.isReset = true)
    (unusable : ¬ Usable token t) : Usable token t ↔ Vouched engine issuing token.sub s := by
  refine iff_of_false unusable ?_
  intro ⟨kept,_⟩
  rw [reset] at kept
  cases kept

-- A token just issued for an active account passes the middleware's check
-- exactly when the call is vouched for in the state it starts in.
theorem issued_token_usable_iff (engine : AuthEngine) (oauth : OAuth.OAuthService) (i : CallId) (issuing : Issuing)
    (userId : String) (token : AccessToken) (s t : World) (unique : (s.users.map UserDoc.id).Nodup)
    (issued : Issued engine oauth i issuing s token t) (owner : token.sub = userId)
    (active : (standing userId t).map Prod.fst = some true) :
    Usable token t ↔ Vouched engine issuing userId s := by
  subst owner
  cases issued with
  | exchangeAuthorizationCode returned => exact exchange_usable returned active
  | @engine call _ user tokens _ returned =>
    cases call with
    | register input =>
      obtain ⟨result,inner,same⟩ := returns_map returned
      cases same
      exact register_usable inner
    | loginPassword input =>
      obtain ⟨result,inner,same⟩ := returns_map returned
      obtain ⟨doc,w,w',before,healthy,found,_,between,gated⟩ := loginPassword_parts alone (returns_exec inner)
      exact gated_usable unique before healthy found between gated same.symm active rfl fun _ => trivial
    | loginOtp input =>
      obtain ⟨result,inner,same⟩ := returns_map returned
      obtain ⟨doc,w,w',before,healthy,found,_,between,gated⟩ := loginOtp_parts alone (returns_exec inner)
      exact gated_usable unique before healthy found between gated same.symm active rfl fun _ => trivial
    | verifyMfaLogin input =>
      obtain ⟨result,inner,same⟩ := returns_map returned
      obtain ⟨first,w,last,w',created,minted,_,before,healthy,_,_,between,found,rfl,_,fits,after,_⟩ :=
        verifyMfaLogin_parts alone (returns_exec inner)
      cases same
      have calm := world_calm_trans before between
      refine usable_read (before.1.2.1.symm.trans healthy) (world_calm_trans calm after) active ?_ rfl fun _ => trivial
      rw [fits.1,fits.2.1]
      exact version_found unique calm found
    | refreshSession presented device =>
      obtain ⟨result,inner,same⟩ := returns_map returned
      cases same
      exact refreshSession_usable unique inner active
    | resetPassword input =>
      obtain ⟨result,inner,same⟩ := returns_map returned
      cases same
      obtain ⟨doc,u,found,still,finished⟩ := resetPassword_resolved inner
      exact reset_unusable engine rfl (finishReset_unusable unique found still finished)
    | resetPasswordWithToken input =>
      obtain ⟨result,inner,same⟩ := returns_map returned
      cases same
      obtain ⟨doc,u,found,still,finished⟩ := resetPasswordWithToken_resolved inner
      exact reset_unusable engine rfl (finishReset_unusable unique found still finished)
    | redeemMagicLink link device =>
      obtain ⟨result,inner,same⟩ := returns_map returned
      obtain ⟨doc,redeemed,u,w,created,minted,consumed,_,between,healthy,found,_,rfl,_,fits,after⟩ :=
        redeemMagicLink_parts alone (returns_exec inner)
      cases same
      have calm := world_calm_trans (alone.exec (keeps_redeem _ _ _) consumed) between
      refine usable_read (calm.1.2.1.symm.trans healthy) (world_calm_trans calm after) active ?_ rfl fun _ => trivial
      rw [fits.1,fits.2.1]
      exact version_found unique calm found

def sampleOAuth : OAuth.OAuthService := ⟨samplePlatform,sampleEngine.tokens,sampleEngine.sessions,"issuer"⟩

theorem issued_token_usable_iff_login : ∃ token t, Issued sampleEngine sampleOAuth 0 (.engine (.loginPassword
      ⟨"application",some "user@example.com",none,"Passw0rd",anyDevice⟩)) (soleAccount sampleUser) token t ∧
    (standing "user" t).map Prod.fst = some true ∧ Usable token t := by
  have ran : endsWith 0 (program sampleEngine (.loginPassword
      ⟨"application",some "user@example.com",none,"Passw0rd",anyDevice⟩)) (soleAccount sampleUser)
      (fun reply t => reply.issuing fun _ tokens =>
        decide (tokens.accessToken.sub = "user" ∧ (standing "user" t).map Prod.fst = some true)) = true := by decide +kernel
  obtain ⟨reply,t,returned,shown⟩ := endsWith_ends.mp ran
  obtain ⟨user,tokens,rfl,facts⟩ := Reply.issuing_some shown
  simp only [decide_eq_true_eq] at facts
  have issued : Issued sampleEngine sampleOAuth 0 _ (soleAccount sampleUser) tokens.accessToken t := .engine returned
  refine ⟨tokens.accessToken,t,issued,facts.2,?_⟩
  refine (issued_token_usable_iff _ _ _ _ "user" _ _ _ (by decide) issued facts.1 facts.2).mpr ⟨rfl,?_⟩
  intro user _
  exact .inr trivial

-- A reset link for an account of version 0: the account moves to version 1 and
-- the token that comes back still says 0.
def withResetLink (user : UserDoc) : World :=
  {soleAccount user with verificationTokens :=
    [⟨"link",.password_reset,"tenant","application","user","#secret",none,none,1000,none⟩]}

theorem reset_token_unusable : ∃ token t, Issued sampleEngine sampleOAuth 0 (.engine (.resetPasswordWithToken
      ⟨"application","secret","N3wpassword",anyDevice⟩)) (withResetLink sampleUser) token t ∧
    token.sub = "user" ∧ (standing "user" t).map Prod.fst = some true ∧ ¬ Usable token t := by
  have ran : endsWith 0 (program sampleEngine (.resetPasswordWithToken
      ⟨"application","secret","N3wpassword",anyDevice⟩)) (withResetLink sampleUser)
      (fun reply t => reply.issuing fun _ tokens =>
        decide (tokens.accessToken.sub = "user" ∧ (standing "user" t).map Prod.fst = some true) &&
          !(endsWith 0 (validate tokens.accessToken.sub (tokens.accessToken.tokenVersion.getD 0)) t fun answer _ => answer)) =
      true := by decide +kernel
  obtain ⟨reply,t,returned,shown⟩ := endsWith_ends.mp ran
  obtain ⟨user,tokens,rfl,facts⟩ := Reply.issuing_some shown
  simp only [Bool.and_eq_true,decide_eq_true_eq,Bool.not_eq_true'] at facts
  refine ⟨tokens.accessToken,t,.engine returned,facts.1.1,facts.1.2,?_⟩
  intro usable
  rw [endsWith_ends.mpr usable] at facts
  cases facts.2

end Pezhwan.Auth
