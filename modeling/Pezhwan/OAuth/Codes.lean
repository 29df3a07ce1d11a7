import Pezhwan.OAuth.Conduct
import Pezhwan.OAuth.Usable

namespace Pezhwan.OAuth
open Atomic Config Auth
open Session (owns_unique)

abbrev Pool := Config CallId Call World Error Reply

def empty (now : Nat) : World := ⟨⟨now,[],none,[]⟩,⟨[],[]⟩,[],[],[],[],[],[],[],[],[],[],[]⟩

section
variable {service : OAuthService}

-- Every interleaving of the calls with each other and with the surroundings.
abbrev Reached (service : OAuthService) (now : Nat) (c : Pool) : Prop :=
  Runs (program service) (Surroundings service) (fun _ _ => True) (start (empty now)) c

theorem sound (service : OAuthService) :
    Sound (discipline service) (program service) (Surroundings service) (([],∅),[],∅) (Outcome service) where
  safe _ call := safe_program rfl rfl call
  quiet valid moved := surroundings_quiet valid moved

theorem ledger_empty (platform : Platform) : Ledger platform [] [] [] [] := by
  constructor <;> simp

theorem held_empty (service : OAuthService) (now : Nat) :
    Held (discipline service) (([],∅),[],∅) (Outcome service) (start (empty now) : Pool) := by
  refine held_start ⟨Session.inv_empty now,ledger_empty _⟩ ?_
  intro i
  simp only [discipline,view,Session.view,empty,sessionLens,Atomic.entriesOf,Session.Owns,List.getElem?_nil,
    List.filter_nil,reduceCtorEq,false_and,exists_false]
  rfl

theorem held (path : Reached service now c) : Held (discipline service) (([],∅),[],∅) (Outcome service) c :=
  held_runs (sound service) (held_empty service now) path

theorem reached_ledger (path : Reached service now c) :
    Ledger service.platform c.state.base.draws c.state.clients c.state.codes c.state.oauthLog :=
  (held path).inv.ledger

theorem moves_grow (path : Relation.ReflTransGen (Moves service i) s t) :
    entriesOf i s.oauthLog <+: entriesOf i t.oauthLog ∧
      Session.entriesOf i s.sessions.log <+: Session.entriesOf i t.sessions.log := by
  induction path with
  | refl => exact ⟨List.prefix_refl _,List.prefix_refl _⟩
  | @tail u t path moves ih =>
    obtain ⟨entries,log,_⟩ := change_log moves.grants
    obtain ⟨_,more,sessionLog,_⟩ := Session.change_parts moves.sessions
    have sessionLog : t.sessions.log = u.sessions.log ++ more := sessionLog
    constructor
    · simp only [log,entriesOf_append]
      exact ih.1.trans (List.prefix_append _ _)
    · simp only [sessionLog,entriesOf_append]
      exact ih.2.trans (List.prefix_append _ _)

section
variable (path : Reached service now c)
include path

theorem foretold (touched : entriesOf i c.state.oauthLog ≠ [] ∨ Session.entriesOf i c.state.sessions.log ≠ []) :
    ∃ call p result u, c.calls i = some (call,p) ∧ Outcome service i call result u ∧
      entriesOf i c.state.oauthLog <+: u.2.1 ∧ Session.entriesOf i c.state.sessions.log <+: u.1.1 := by
  cases called : c.calls i with
  | none =>
    have blank : view service i c.state = (([],∅),[],∅) := (held path).idle i called
    have entries : entriesOf i c.state.oauthLog = [] := congrArg (fun v : View => v.2.1) blank
    have sessions : Session.entriesOf i c.state.sessions.log = [] := congrArg (fun v : View => v.1.1) blank
    simp [entries,sessions] at touched
  | some running =>
    obtain ⟨call,p⟩ := running
    obtain ⟨result,t,outcome,moved⟩ := (held path).foreseen called
    obtain ⟨entries,sessions⟩ := moves_grow moved
    exact ⟨call,p,result,_,rfl,outcome,entries,sessions⟩

omit path in
theorem prefix_pair {first second : α} (begins : entries <+: [first,second]) (member : second ∈ entries)
    (different : second ≠ first) : entries = [first,second] := by
  obtain ⟨rest,split⟩ := begins
  match entries,split with
  | [],_ => cases member
  | [only],split =>
    simp only [List.singleton_append,List.cons.injEq] at split
    rw [split.1] at member
    exact absurd (List.mem_singleton.mp member) different
  | one :: two :: more,split =>
    simp only [List.cons_append,List.cons.injEq,List.append_eq_nil_iff] at split
    rw [split.1,split.2.1,split.2.2.1]

theorem issued_parts (issued : .issued j code ∈ c.state.oauthLog) :
    ∃ asked p client, c.calls j = some (.authorizeCode asked,p) ∧
      Authorized asked j client code (entriesOf j c.state.oauthLog) := by
  have listed : .issued j code ∈ entriesOf j c.state.oauthLog := mem_entriesOf.mpr ⟨issued,rfl⟩
  obtain ⟨call,p,result,u,called,outcome,begins,_⟩ := foretold path (.inl (List.ne_nil_of_mem listed))
  have member : .issued j code ∈ u.2.1 := begins.subset listed
  unfold Outcome at outcome
  split at outcome
  · obtain ⟨_,client,only,_⟩ := outcome
    rw [only] at member
    simp at member
  · rename_i asked given
    obtain ⟨_,client,birth,_,authorized⟩ := outcome
    have same := authorized.entries
    rw [same] at member begins
    obtain rfl : code = birth := by simpa using member
    exact ⟨asked,p,client,called,{authorized with entries := prefix_pair begins listed (by simp)}⟩
  · exact absurd member ((outcome.unissued j).2 code)
  · exact absurd member ((outcome.unissued j).2 code)
  · exact absurd member ((outcome.1 j).2 code)
  · exact absurd member ((outcome.2 j).2 code)

theorem issued_once (one : .issued j code ∈ c.state.oauthLog)
    (two : .issued j other ∈ c.state.oauthLog) : code = other := by
  obtain ⟨_,_,client,_,authorized⟩ := issued_parts path one
  have listed : .issued j other ∈ entriesOf j c.state.oauthLog := mem_entriesOf.mpr ⟨two,rfl⟩
  rw [authorized.entries] at listed
  exact Eq.symm (by simpa using listed)

theorem registered_once (one : .registered k client ∈ c.state.oauthLog)
    (two : .registered k other ∈ c.state.oauthLog) : client = other := by
  have listed : .registered k client ∈ entriesOf k c.state.oauthLog := mem_entriesOf.mpr ⟨one,rfl⟩
  obtain ⟨call,p,result,u,_,outcome,begins,_⟩ := foretold path (.inl (List.ne_nil_of_mem listed))
  have member : .registered k client ∈ u.2.1 := begins.subset listed
  have also : .registered k other ∈ u.2.1 := begins.subset (mem_entriesOf.mpr ⟨two,rfl⟩)
  unfold Outcome at outcome
  split at outcome
  · obtain ⟨_,origin,only,_⟩ := outcome
    rw [only] at member also
    have first : client = origin := by simpa using member
    have second : other = origin := by simpa using also
    rw [first,second]
  · obtain ⟨_,client,birth,_,authorized⟩ := outcome
    rw [authorized.entries] at member
    simp at member
  · exact absurd member ((outcome.unissued k).1 client)
  · exact absurd member ((outcome.unissued k).1 client)
  · exact absurd member ((outcome.1 k).1 client)
  · exact absurd member ((outcome.2 k).1 client)

theorem issued_same (one : .issued j code ∈ c.state.oauthLog)
    (two : .issued k other ∈ c.state.oauthLog) (same : code.codeHash = other.codeHash) : j = k ∧ code = other := by
  obtain ⟨_,raw,owns,hashed⟩ := (reached_ledger path).facts _ one
  obtain ⟨_,raw',owns',hashed'⟩ := (reached_ledger path).facts _ two
  have raws : raw = raw' := service.platform.sha256_injective (hashed.trans (same.trans hashed'.symm))
  subst raws
  have calls := owns_unique owns owns'
  subst calls
  exact ⟨rfl,issued_once path one two⟩

theorem public_challenge (finished : c.Finished k (.registerClient input) (.ok (.client registered)))
    (isPublic : input.confidential = some false) (issued : .issued j code ∈ c.state.oauthLog)
    (named : code.clientId = registered.clientId) :
    code.codeChallengeMethod = some .S256 ∧ ∃ challenge, challenge ≠ "" ∧ code.codeChallenge = some challenge := by
  have ledger := reached_ledger path
  obtain ⟨_,origin,entries,name,methods⟩ := (held path).finished finished
  have registeredHere : .registered k origin ∈ entriesOf k c.state.oauthLog := by
    have seen : entriesOf k c.state.oauthLog = [.registered k origin] := entries
    rw [seen]
    exact List.mem_singleton_self _
  have member := (mem_entriesOf.mp registeredHere).1
  obtain ⟨asked,p,client,called,authorized⟩ := issued_parts path issued
  have found : .found j client ∈ c.state.oauthLog := by
    have listed : .found j client ∈ entriesOf j c.state.oauthLog := by rw [authorized.entries]; simp
    exact (mem_entriesOf.mp listed).1
  obtain ⟨suffix,owns,prefixed⟩ := ledger.facts _ member
  have sameName : client.clientId = "client_" ++ suffix := by
    rw [authorized.named,← authorized.issuedTo,named,name,prefixed]
  obtain ⟨n,drew,rfl⟩ := owns
  obtain ⟨k',origin',member',same⟩ := ledger.facts _ found n sameName
  obtain ⟨sameClient,sameMethods⟩ := Prod.ext_iff.mp same
  obtain ⟨suffix',owns',prefixed'⟩ := ledger.facts _ member'
  have suffixes : service.platform.random.fresh n = suffix' :=
    (String.append_right_inj _).mp (sameName.symm.trans (sameClient.trans prefixed'))
  subst suffixes
  have calls := owns_unique ⟨n,drew,rfl⟩ owns'
  subst calls
  obtain rfl := registered_once path member member'
  refine ⟨?_,authorized.challenge⟩
  obtain ⟨method,admitted,stored⟩ := authorized.method
  have only : client.pkceMethods = [.S256] := sameMethods.trans (methods isPublic)
  rw [only] at admitted
  rw [stored,List.mem_singleton.mp admitted]
  rfl

theorem exchange_redeems (finished : c.Finished i (.exchange input) (.ok (.tokens issued)))
    (kind : input.grantType = "authorization_code") : ∃ client presented code spent time j birth,
      Redeemed service input i (entriesOf i c.state.oauthLog) client presented code spent time ∧
      Precedes c.state.oauthLog (.issued j birth) (.presented i code) ∧ grantOf code = grantOf birth := by
  have outcome : Exchanged service input i (.ok issued) (view service i c.state) := (held path).finished finished
  obtain ⟨client,presented,code,spent,time,redeemed⟩ := outcome.redeemed issued rfl kind
  have redeemed : Redeemed service input i (entriesOf i c.state.oauthLog) client presented code spent time := redeemed
  have listed : .presented i code ∈ entriesOf i c.state.oauthLog := by rw [redeemed.entries]; simp
  obtain ⟨j,birth,precedes,same⟩ := (reached_ledger path).facts _ (mem_entriesOf.mp listed).1
  exact ⟨client,presented,code,spent,time,j,birth,redeemed,precedes,same⟩

theorem redeemed_once (one : c.Finished i (.exchange input) (.ok (.tokens issued)))
    (two : c.Finished k (.exchange input') (.ok (.tokens issued')))
    (kind : input.grantType = "authorization_code") (kind' : input'.grantType = "authorization_code")
    (same : input.code = input'.code) : i = k := by
  obtain ⟨_,presented,code,spent,_,j,birth,redeemed,precedes,grant⟩ := exchange_redeems path one kind
  obtain ⟨_,presented',code',spent',_,j',birth',redeemed',precedes',grant'⟩ := exchange_redeems path two kind'
  have texts : presented = presented' := by
    rw [redeemed.given,redeemed'.given] at same
    exact Option.some.inj same
  have hashes : birth.codeHash = birth'.codeHash := by
    rw [← (grantOf_parts grant).2.1,← (grantOf_parts grant').2.1,redeemed.hashed,redeemed'.hashed,texts]
  obtain ⟨_,rfl⟩ := issued_same path (precedes_first precedes) (precedes_first precedes') hashes
  have ids : spent.id = spent'.id := by
    rw [redeemed.same,redeemed'.same,(grantOf_parts grant).1,(grantOf_parts grant').1]
  have consumed : .consumed i spent ∈ entriesOf i c.state.oauthLog := by rw [redeemed.entries]; simp
  have consumed' : .consumed k spent' ∈ entriesOf k c.state.oauthLog := by rw [redeemed'.entries]; simp
  have entries : OAuthEntry.consumed i spent = .consumed k spent' :=
    Collection.filterMap_once (reached_ledger path).consumedOnce (mem_entriesOf.mp consumed).1
      (mem_entriesOf.mp consumed').1 rfl (congrArg some ids.symm)
  cases entries
  rfl

end

-- In every interleaving an exchange that returns tokens redeems the code of one
-- earlier authorization, under all its bindings, and no code is redeemed twice.
theorem authorization_codes_bound_once (service : OAuthService) (now : Nat) (c : Pool) (path : Reached service now c) :
    (∀ i input issued, c.Finished i (.exchange input) (.ok (.tokens issued)) →
      input.grantType = "authorization_code" → ∃ presented j asked p code,
        input.code = some presented ∧ code.codeHash = service.platform.sha256 presented ∧
        c.calls j = some (.authorizeCode asked,p) ∧
        (∃ found, Precedes c.state.oauthLog (.issued j code) (.presented i found)) ∧
        asked.clientId = input.clientId ∧ asked.tenantId = input.tenantId ∧
        asked.applicationId = input.applicationId ∧ some asked.redirectUri = input.redirectUri ∧
        (∃ time, .timed i time ∈ c.state.oauthLog ∧ time ≤ code.expiresAt) ∧
        (∀ challenge, code.codeChallenge = some challenge → ∃ verifier, input.codeVerifier = some verifier ∧
          service.transformed verifier code.codeChallengeMethod = challenge) ∧
        (∀ returned, c.Finished j (.authorizeCode asked) (.ok (.code returned)) → returned.code = presented) ∧
        ∀ k other, .issued k other ∈ c.state.oauthLog → other.codeHash = code.codeHash → k = j ∧ other = code) ∧
    (∀ k input registered, c.Finished k (.registerClient input) (.ok (.client registered)) →
      input.confidential = some false → ∀ j code, .issued j code ∈ c.state.oauthLog →
      code.clientId = registered.clientId → code.codeChallengeMethod = some .S256 ∧
        ∃ challenge, challenge ≠ "" ∧ code.codeChallenge = some challenge) ∧
    (∀ i k input input' issued issued', c.Finished i (.exchange input) (.ok (.tokens issued)) →
      c.Finished k (.exchange input') (.ok (.tokens issued')) → input.grantType = "authorization_code" →
      input'.grantType = "authorization_code" → input.code = input'.code → i = k) := by
  refine ⟨?_,?_,?_⟩
  · intro i input issued finished kind
    obtain ⟨client,presented,code,spent,time,j,birth,redeemed,precedes,grant⟩ := exchange_redeems path finished kind
    have born := precedes_first precedes
    obtain ⟨asked,p,_,called,authorized⟩ := issued_parts path born
    obtain ⟨_,hash,tenant,application,clientId,redirect,challenge,method,expiresAt⟩ := grantOf_parts grant
    refine ⟨presented,j,asked,p,birth,redeemed.given,hash.symm.trans redeemed.hashed,called,⟨code,precedes⟩,
      ?_,?_,?_,?_,⟨time,?_,?_⟩,?_,?_,?_⟩
    · rw [← authorized.issuedTo,← clientId,redeemed.named]
    · rw [← authorized.tenant,← tenant,redeemed.tenant]
    · rw [← authorized.application,← application,redeemed.application]
    · rw [redeemed.redirect,redirect,authorized.redirect]
    · have listed : .timed i time ∈ entriesOf i c.state.oauthLog := by rw [redeemed.entries]; simp
      exact (mem_entriesOf.mp listed).1
    · exact expiresAt ▸ redeemed.inTime
    · intro given stored
      obtain ⟨text,nonempty,kept⟩ := authorized.challenge
      rw [kept] at stored
      cases stored
      obtain ⟨verifier,sent,matched⟩ := redeemed.proven given (by rw [challenge,kept,truthy_given nonempty])
      exact ⟨verifier,sent,method ▸ matched⟩
    · intro returned answered
      obtain ⟨_,_,other,hashed,also⟩ := (held path).finished answered
      have listed : .issued j birth ∈ entriesOf j c.state.oauthLog := mem_entriesOf.mpr ⟨born,rfl⟩
      rw [show entriesOf j c.state.oauthLog = _ from also.entries] at listed
      obtain rfl : birth = other := by simpa using listed
      exact service.platform.sha256_injective (hashed.trans (hash.symm.trans redeemed.hashed))
    · intro k other issuedAlso same
      exact issued_same path issuedAlso born same
  · intro k input registered finished isPublic j code issued named
    exact public_challenge path finished isPublic issued named
  · intro i k input input' issued issued' one two kind kind' same
    exact redeemed_once path one two kind kind' same

-- A public client, the code it is given and its exchange. Draw 0 names the
-- client, draw 3 is the code.
def publicClient : RegisterClientInput :=
  ⟨"tenant","application","app",["https://app/callback"],none,none,some false,none⟩

def authorization (clientId : String) : AuthorizeInput :=
  ⟨clientId,"https://app/callback","openid email",none,"user","session","application","tenant",.password,
    some "#verifier",none⟩

def redemption (clientId code : String) : ExchangeInput :=
  ⟨"authorization_code",clientId,none,some code,some "https://app/callback",some "verifier",none,none,"tenant",
    "application",anyDevice⟩

def redeemedTokens (clientId refreshToken sessionId jti : String) : OAuthTokens :=
  ⟨⟨"user","tenant","application",sessionId,[],[],.password,"issuer","audience",0,900,jti,some "openid email",
      some clientId,none⟩,some refreshToken,
    some ⟨"issuer","user",clientId,0,900,0,none,"tenant","application",sessionId⟩,900000,"openid email"⟩

def redeemedRun : List (Move CallId Call) :=
  .start 0 (.registerClient publicClient) :: (List.replicate 3 (.act 0) : List (Move CallId Call)) ++
  .start 1 (.authorizeCode (authorization "client_x")) :: (List.replicate 4 (.act 1) : List (Move CallId Call)) ++
  .start 2 (.exchange (redemption "client_x" "xxxx")) :: (List.replicate 13 (.act 2) : List (Move CallId Call))

theorem authorization_codes_bound_once_public : ∃ c issued, Reached sampleOAuth 0 c ∧
    c.Finished 2 (.exchange (redemption "client_x" "xxxx")) (.ok (.tokens issued)) ∧
    ∃ j asked p code, c.calls j = some (.authorizeCode asked,p) ∧ asked.clientId = "client_x" ∧
      .issued j code ∈ c.state.oauthLog ∧ code.codeHash = sampleOAuth.platform.sha256 "xxxx" ∧
      code.codeChallengeMethod = some .S256 := by
  have played : (play (program sampleOAuth) (fun _ _ => true) (start (empty 0)) redeemedRun).any (fun c =>
      c.finishedWith 0 (.registerClient publicClient) (.ok (.client ⟨"client_x",none⟩)) &&
      c.finishedWith 2 (.exchange (redemption "client_x" "xxxx"))
        (.ok (.tokens (redeemedTokens "client_x" "xxxxxxx" "xxxxxxxx" "xxxxxxxxx")))) = true := by decide +kernel
  obtain ⟨c,path,shown⟩ := play_exists (fun _ _ _ => trivial) played
  obtain ⟨registered,finished⟩ := Bool.and_eq_true_iff.mp shown
  have done := finishedWith_finished finished
  obtain ⟨bound,challenged,_⟩ := authorization_codes_bound_once sampleOAuth 0 c path
  obtain ⟨presented,j,asked,p,code,given,hashed,called,⟨_,precedes⟩,client,_⟩ := bound 2 _ _ done rfl
  have issued := precedes_first precedes
  obtain ⟨_,_,_,again,authorized⟩ := issued_parts path issued
  have same := Option.some.inj (again.symm.trans called)
  cases given
  refine ⟨c,_,path,done,j,asked,p,code,called,client,issued,hashed,?_⟩
  refine (challenged 0 _ _ (finishedWith_finished registered) rfl j code issued ?_).1
  cases same
  exact authorized.issuedTo.trans client

end
end Pezhwan.OAuth
