import Pezhwan.OAuth.Codes

namespace Pezhwan.OAuth
open Atomic Config Auth

section
variable {service : OAuthService}

theorem created_parts (path : Reached service now c) (created : .created j root ∈ c.state.sessions.log) :
    ∃ call p, c.calls j = some (call,p) ∧ ((∃ ctx, call = .session (.create ctx)) ∨
      ∃ asked, call = .exchange asked ∧ asked.grantType = "authorization_code" ∧
        root.tenantId = asked.tenantId ∧ root.applicationId = asked.applicationId) := by
  have listed : .created j root ∈ Session.entriesOf j c.state.sessions.log := mem_entriesOf.mpr ⟨created,rfl⟩
  obtain ⟨call,p,result,u,called,outcome,_,begins⟩ := foretold path (.inr (List.ne_nil_of_mem listed))
  have member : .created j root ∈ u.1.1 := begins.subset listed
  refine ⟨call,p,called,?_⟩
  unfold Outcome at outcome
  split at outcome
  · rw [outcome.1] at member
    cases member
  · rw [outcome.1] at member
    cases member
  · exact .inr ⟨_,rfl,outcome.opens root member⟩
  · exact .inr ⟨_,rfl,outcome.opens root member⟩
  · obtain ⟨ctx,rfl⟩ := outcome.2 root member
    exact .inl ⟨ctx,rfl⟩
  · rw [outcome.1] at member
    cases member

theorem claimed_root (path : Reached service now c) (claimed : .claimed i parent ∈ c.state.sessions.log) :
    ∃ j root, .created j root ∈ c.state.sessions.log ∧ parent.owner = root.owner := by
  have history := (held path).inv.sessions.history
  obtain ⟨c',birth,born,same⟩ := history.claimedBorn i parent claimed
  obtain ⟨j,root,created,_,owner⟩ := history.rooted c' birth born
  exact ⟨j,root,created,(Session.identity_parts same).2.2.trans owner⟩

structure Presented (hashed : String) (ctx : Session.RefreshContext) (doc : Session.SessionDoc) : Prop where
  hash : doc.currentRefreshTokenHash = hashed
  tenant : ∀ tenantId, ctx.tenantId = some tenantId → tenantId ≠ "" → doc.tenantId = tenantId
  application : ∀ applicationId, ctx.applicationId = some applicationId → applicationId ≠ "" →
    doc.applicationId = applicationId

theorem presents_parts (presented : Session.presents hashed ctx doc = true) : Presented hashed ctx doc := by
  simp only [Session.presents,Bool.and_eq_true,decide_eq_true_eq] at presented
  refine ⟨presented.1.1,?_,?_⟩
  · intro tenantId given nonempty
    have tenant := presented.1.2
    rw [given,truthy_given nonempty] at tenant
    simpa using tenant
  · intro applicationId given nonempty
    have application := presented.2
    rw [given,truthy_given nonempty] at application
    simpa using application

-- A refresh asks for a client of the tenant and application, and for a family
-- started there; whose exchange or login started it is not looked at. The
-- access token it returns has no scope.
theorem refresh_stays_in_application (service : OAuthService) (now : Nat) (c : Pool) (path : Reached service now c) :
    ∀ i input issued, c.Finished i (.exchange input) (.ok (.tokens issued)) → input.grantType = "refresh_token" →
      ∃ client token parent child j root call p,
        .found i client ∈ c.state.oauthLog ∧ Admitted service input client ∧ .refresh_token ∈ client.grants ∧
        input.refreshToken = some token ∧ .claimed i parent ∈ c.state.sessions.log ∧
        parent.currentRefreshTokenHash = service.sessions.hashRefreshToken token ∧
        .inserted i child parent ∈ c.state.sessions.log ∧ child.owner = root.owner ∧
        .created j root ∈ c.state.sessions.log ∧ parent.owner = root.owner ∧ c.calls j = some (call,p) ∧
        ((∃ ctx, call = .session (.create ctx)) ∨
          ∃ asked, call = .exchange asked ∧ asked.grantType = "authorization_code" ∧
            root.tenantId = asked.tenantId ∧ root.applicationId = asked.applicationId) ∧
        (input.tenantId ≠ "" → root.tenantId = input.tenantId) ∧
        (input.applicationId ≠ "" → root.applicationId = input.applicationId) ∧
        issued.accessToken.sub = root.userId ∧ issued.accessToken.sessionId = child.id ∧
        issued.accessToken.clientId = some input.clientId ∧ issued.accessToken.scope = none := by
  intro i input issued finished kind
  have outcome : Exchanged service input i (.ok issued) (view service i c.state) := (held path).finished finished
  obtain ⟨client,token,created,renewed⟩ := outcome.renewed issued rfl kind
  obtain ⟨parent,child,entries,presented,owner,described⟩ := renewed.rotated
  have entries : Session.entriesOf i c.state.sessions.log = [.claimed i parent,.inserted i child parent] := entries
  have looked : entriesOf i c.state.oauthLog = [.found i client] := renewed.looked
  have found : .found i client ∈ entriesOf i c.state.oauthLog := by rw [looked]; simp
  have claimed : .claimed i parent ∈ Session.entriesOf i c.state.sessions.log := by rw [entries]; simp
  have inserted : .inserted i child parent ∈ Session.entriesOf i c.state.sessions.log := by rw [entries]; simp
  have claimed := (mem_entriesOf.mp claimed).1
  obtain ⟨j,root,started,rooted⟩ := claimed_root path claimed
  obtain ⟨call,p,called,starter⟩ := created_parts path started
  obtain ⟨hashed,inTenant,inApplication⟩ := presents_parts presented
  obtain ⟨user,tenant,application,_⟩ := Session.owner_parts rooted
  refine ⟨client,token,parent,child,j,root,call,p,(mem_entriesOf.mp found).1,renewed.admitted,renewed.allowed,
    renewed.given,claimed,hashed,(mem_entriesOf.mp inserted).1,owner.trans rooted,started,rooted,called,starter,
    ?_,?_,?_,?_,renewed.clientId,renewed.unscoped⟩
  · intro nonempty
    exact tenant.symm.trans (inTenant _ rfl nonempty)
  · intro nonempty
    exact application.symm.trans (inApplication _ rfl nonempty)
  · rw [renewed.sub,described.2.1,(Session.owner_parts owner).1,user]
  · rw [renewed.sessionId,described.1]

def renewal (clientId token : String) : ExchangeInput :=
  ⟨"refresh_token",clientId,none,none,none,none,some token,none,"tenant","application",anyDevice⟩

def renewedTokens (clientId refreshToken sessionId jti : String) : OAuthTokens :=
  ⟨⟨"user","tenant","application",sessionId,[],[],.oauth,"issuer","audience",0,900,jti,none,some clientId,none⟩,
    some refreshToken,none,900000,"openid"⟩

theorem refresh_stays_in_application_own : ∃ c issued j root, Reached sampleOAuth 0 c ∧
    c.Finished 3 (.exchange (renewal "client_x" "xxxxxxx")) (.ok (.tokens issued)) ∧
    .created j root ∈ c.state.sessions.log ∧ root.tenantId = "tenant" ∧ root.applicationId = "application" ∧
    issued.accessToken.sub = root.userId ∧ issued.accessToken.scope = none := by
  have played : (play (program sampleOAuth) (fun _ _ => true) (start (empty 0)) (List.flatten [redeemedRun,
        [.start 3 (.exchange (renewal "client_x" "xxxxxxx"))],List.replicate 13 (.act 3)])).any (fun c =>
      c.finishedWith 3 (.exchange (renewal "client_x" "xxxxxxx"))
        (.ok (.tokens (renewedTokens "client_x" "xxxxxxxxxx" "xxxxxxxxxxx" "xxxxxxxxxxxx")))) = true := by decide +kernel
  obtain ⟨c,path,finished⟩ := play_exists (fun _ _ _ => trivial) played
  have done := finishedWith_finished finished
  obtain ⟨_,_,_,_,j,root,_,_,_,_,_,_,_,_,_,_,started,_,_,_,tenant,application,sub,_,_,unscoped⟩ :=
    refresh_stays_in_application sampleOAuth 0 c path 3 _ _ done rfl
  exact ⟨c,_,j,root,path,done,started,tenant (by decide),application (by decide),sub,unscoped⟩

-- The stricter rule: the family was started by an exchange of the same client,
-- and no scope is gained.
def BoundToGrant (c : Pool) : Prop :=
  ∀ i input issued, c.Finished i (.exchange input) (.ok (.tokens issued)) → input.grantType = "refresh_token" →
    ∃ j asked granted root parent, c.Finished j (.exchange asked) (.ok (.tokens granted)) ∧
      asked.grantType = "authorization_code" ∧ asked.clientId = input.clientId ∧
      .created j root ∈ c.state.sessions.log ∧ .claimed i parent ∈ c.state.sessions.log ∧
      parent.familyId = root.familyId ∧ ∀ scope ∈ issued.accessToken.scope, words scope ⊆ words granted.scope

-- Two clients of one application; the second refreshes what the first was given.
def borrowedRun : List (Move CallId Call) :=
  .start 0 (.registerClient publicClient) :: (List.replicate 3 (.act 0) : List (Move CallId Call)) ++
  .start 1 (.registerClient publicClient) :: (List.replicate 3 (.act 1) : List (Move CallId Call)) ++
  .start 2 (.authorizeCode (authorization "client_x")) :: (List.replicate 4 (.act 2) : List (Move CallId Call)) ++
  .start 3 (.exchange (redemption "client_x" "xxxxxxx")) :: (List.replicate 13 (.act 3) : List (Move CallId Call)) ++
  .start 4 (.exchange (renewal "client_xxxx" "xxxxxxxxxx")) :: (List.replicate 13 (.act 4) : List (Move CallId Call))

def startedBy (j : CallId) : Session.Entry → Bool
  | .created c _ => c = j
  | _ => true

theorem refresh_token_borrowed : ∃ c, Reached sampleOAuth 0 c ∧ ¬ BoundToGrant c := by
  have played : (play (program sampleOAuth) (fun _ _ => true) (start (empty 0)) borrowedRun).any (fun c =>
      c.finishedWith 3 (.exchange (redemption "client_x" "xxxxxxx"))
        (.ok (.tokens (redeemedTokens "client_x" "xxxxxxxxxx" "xxxxxxxxxxx" "xxxxxxxxxxxx"))) &&
      c.finishedWith 4 (.exchange (renewal "client_xxxx" "xxxxxxxxxx"))
        (.ok (.tokens (renewedTokens "client_xxxx" "xxxxxxxxxxxxx" "xxxxxxxxxxxxxx" "xxxxxxxxxxxxxxx"))) &&
      c.state.sessions.log.all (startedBy 3)) = true := by decide +kernel
  obtain ⟨c,path,shown⟩ := play_exists (fun _ _ _ => trivial) played
  simp only [Bool.and_eq_true,List.all_eq_true] at shown
  obtain ⟨⟨first,second⟩,only⟩ := shown
  refine ⟨c,path,fun bound => ?_⟩
  obtain ⟨j,asked,granted,root,parent,exchanged,_,sameClient,started,_⟩ :=
    bound 4 _ _ (finishedWith_finished second) rfl
  obtain rfl : j = 3 := of_decide_eq_true (only _ started)
  have redeemed := finishedWith_finished first
  unfold Finished at exchanged redeemed
  rw [redeemed] at exchanged
  cases exchanged
  exact absurd sameClient (by decide)

end
end Pezhwan.OAuth
