import Pezhwan.OAuth.Protocol

namespace Pezhwan.OAuth
open Atomic Discipline Auth OAuthService
open Session (Owns owns_append owns_last)

section
variable {service : OAuthService} {i : CallId} {v : View}

theorem moves_idle (s : World) : Moves service i s s := ⟨Session.change_idle _,.quiet rfl rfl rfl⟩

theorem safe_op {f : CallId → World → Except MongoError (α × World)} {post : Except Error α → View → Prop}
    (step : ∀ s, Inv service s → view service i s = v → ∀ value t, f i s = .ok (value,t) →
      Moves service i s t ∧ post (.ok value) (view service i t))
    (failed : ∀ e, post (.error (.mongo e)) v) : (discipline service).Safe i (op f) v post :=
  safe_mongo (fun s _ => moves_idle s) step failed

theorem safe_clock {post : Except Error Nat → View → Prop} (holds : ∀ now, post (.ok now) v) :
    (discipline service).Safe i (base clock) v post := by
  intro s valid seen
  exact ⟨moves_idle s,seen.symm ▸ holds s.base.now⟩

theorem safe_draw {post : Except Error String → View → Prop}
    (holds : ∀ text u, u.1.1 = v.1.1 → u.2.1 = v.2.1 → v.2.2 ⊆ u.2.2 → text ∈ u.2.2 → post (.ok text) u) :
    (discipline service).Safe i (base (draw service.platform.random)) v post := by
  intro s valid seen
  refine ⟨⟨.quiet (.inr rfl) rfl,.quiet rfl rfl rfl⟩,holds _ _ ?_ ?_ ?_ ?_⟩
  · rw [← seen]; rfl
  · rw [← seen]; rfl
  · rw [← seen]
    intro text owns
    exact owns_append owns
  · exact owns_last service.platform.random s.base.draws i

theorem safe_session {p : Session.Program α} {post : Except Error α → Session.View → Prop}
    (safe : (Session.discipline service.sessions).Safe i p v.1 post) :
    (discipline service).Safe i (Auth.session p) v (fun result u => post result u.1 ∧ u.2.1 = v.2.1) := by
  change (discipline service).Safe i (p.zoom sessionLens) v _
  refine Safe.lift (fun before after => after.1 = before.1) ?_ ?_ ?_ ?_ ?_ safe
  · intro u
    rfl
  · intro u u' u'' one two
    exact two.trans one
  · intro s valid
    exact valid.sessions
  · intro s
    rfl
  · intro s t valid changed
    exact ⟨⟨changed,.quiet rfl rfl rfl⟩,rfl⟩

theorem view_noted (seen : view service i s = v) (mine : entry.call = i) :
    view service i (note [entry] s) = (v.1,v.2.1 ++ [entry],v.2.2) := by
  rw [← seen]
  simp only [view,note,entriesOf_append]
  simp [Atomic.entriesOf,mine,sessionLens]

theorem note_nil (s : World) : note [] s = s := by
  simp [note]

theorem safe_findClient {post : Except Error (Option OAuthClientDoc) → View → Prop} (absent : post (.ok none) v)
    (found : ∀ client : OAuthClientDoc, client.clientId = clientId → client.tenantId = tenantId →
      client.applicationId = applicationId → post (.ok (some client)) (v.1,v.2.1 ++ [.found i client],v.2.2))
    (failed : ∀ e, post (.error (.mongo e)) v) :
    (discipline service).Safe i (findClient clientId tenantId applicationId) v post := by
  refine safe_op ?_ failed
  intro s valid seen value t ran
  cases ran
  cases hit : s.clients.find? _ with
  | none =>
    rw [Option.toList_none,List.map_nil,note_nil,seen]
    exact ⟨moves_idle s,absent⟩
  | some client =>
    have matched := List.find?_some hit
    simp only [Bool.and_eq_true,decide_eq_true_eq] at matched
    rw [Option.toList_some,List.map_singleton,view_noted seen rfl]
    refine ⟨⟨Session.change_idle _,?_⟩,found client matched.1.1 matched.1.2 matched.2⟩
    exact .noted _ rfl rfl rfl ⟨rfl,List.mem_of_find?_eq_some hit⟩

theorem selectsCode_parts (selected : selectsCode hashed clientId tenantId applicationId code = true) :
    code.codeHash = hashed ∧ code.clientId = clientId ∧ code.tenantId = tenantId ∧
      code.applicationId = applicationId ∧ code.consumedAt = none := by
  simpa [selectsCode,and_assoc] using selected

theorem safe_findCode {post : Except Error (Option AuthorizationCodeDoc) → View → Prop} (absent : post (.ok none) v)
    (found : ∀ code, selectsCode hashed clientId tenantId applicationId code = true →
      post (.ok (some code)) (v.1,v.2.1 ++ [.presented i code],v.2.2))
    (failed : ∀ e, post (.error (.mongo e)) v) :
    (discipline service).Safe i (findCode hashed clientId tenantId applicationId) v post := by
  refine safe_op ?_ failed
  intro s valid seen value t ran
  cases ran
  cases hit : s.codes.find? _ with
  | none =>
    rw [Option.toList_none,List.map_nil,note_nil,seen]
    exact ⟨moves_idle s,absent⟩
  | some code =>
    rw [Option.toList_some,List.map_singleton,view_noted seen rfl]
    refine ⟨⟨Session.change_idle _,?_⟩,found code (List.find?_some hit)⟩
    exact .noted _ rfl rfl rfl ⟨rfl,List.mem_of_find?_eq_some hit⟩

theorem safe_checkTime {post : Except Error Nat → View → Prop}
    (holds : ∀ now, post (.ok now) (v.1,v.2.1 ++ [.timed i now],v.2.2)) :
    (discipline service).Safe i checkTime v post := by
  refine Safe.atomic fun s valid seen => ⟨⟨Session.change_idle _,.noted _ rfl rfl rfl ⟨rfl,rfl⟩⟩,?_⟩
  have noted := view_noted seen (rfl : (OAuthEntry.timed i s.base.now).call = i)
  change post (.ok s.base.now) (view service i (note [.timed i s.base.now] s))
  rw [noted]
  exact holds s.base.now

theorem safe_consumeCode {codeId : String} {post : Except Error (Option AuthorizationCodeDoc) → View → Prop} (lost : post (.ok none) v)
    (won : ∀ spent, spent.id = codeId → post (.ok (some spent)) (v.1,v.2.1 ++ [.consumed i spent],v.2.2))
    (failed : ∀ e, post (.error (.mongo e)) v) :
    (discipline service).Safe i (consumeCode codeId hashed clientId tenantId applicationId) v post := by
  refine safe_op ?_ failed
  intro s valid seen value t ran
  cases ran
  cases hit : s.codes.find? _ with
  | none =>
    rw [Option.map_none,Option.toList_none,List.map_nil,note_nil,Collection.updateOne_none _ hit]
    exact ⟨moves_idle s,seen.symm ▸ lost⟩
  | some code =>
    have matched := List.find?_some hit
    simp only [Bool.and_eq_true,decide_eq_true_eq] at matched
    obtain ⟨_,_,_,_,live⟩ := selectsCode_parts matched.2
    rw [Option.map_some,Option.toList_some,List.map_singleton]
    constructor
    · refine ⟨Session.change_idle _,.consumed code s.base.now rfl ?_ rfl (List.mem_of_find?_eq_some hit) live⟩
      exact Collection.updateOne_rewrite _ valid.ledger.ids hit
    · have noted := view_noted seen (rfl : (OAuthEntry.consumed i {code with consumedAt := some s.base.now}).call = i)
      exact noted.symm ▸ won _ matched.1

theorem safe_createClient {client : OAuthClientDoc} {post : Except Error Unit → View → Prop}
    (named : ∃ suffix ∈ v.2.2, client.clientId = "client_" ++ suffix)
    (holds : ∀ (u : View) born, u.1.1 = v.1.1 → u.2.1 = v.2.1 ++ [.registered i born] →
      registrationOf born = registrationOf client → post (.ok ()) u)
    (failed : ∀ e, post (.error (.mongo e)) v) :
    (discipline service).Safe i (service.createClient client) v post := by
  refine safe_op ?_ failed
  intro s valid seen value t ran
  dsimp only at ran
  split at ran
  · cases ran
  · cases ran
    constructor
    · refine ⟨.quiet (.inr rfl) rfl,.registered _ rfl rfl rfl ?_⟩
      obtain ⟨suffix,drew,name⟩ := named
      rw [← seen] at drew
      exact ⟨suffix,owns_append drew,name⟩
    · refine holds _ {client with id := service.platform.random.fresh s.base.draws.length,updatedAt := s.base.now} ?_ ?_ rfl
      · rw [← seen]; rfl
      · rw [← seen]
        simp only [view,note,entriesOf_append]
        simp [Atomic.entriesOf,OAuthEntry.call]

theorem safe_createCode {code : AuthorizationCodeDoc} {post : Except Error Unit → View → Prop}
    (hashed : ∃ raw ∈ v.2.2, service.platform.sha256 raw = code.codeHash)
    (holds : ∀ (u : View) codeId, u.1.1 = v.1.1 → u.2.1 = v.2.1 ++ [.issued i {code with id := codeId}] →
      post (.ok ()) u)
    (failed : ∀ e, post (.error (.mongo e)) v) :
    (discipline service).Safe i (service.createCode code) v post := by
  refine safe_op ?_ failed
  intro s valid seen value t ran
  dsimp only at ran
  split at ran
  · cases ran
  · cases ran
    constructor
    · refine ⟨.quiet (.inr rfl) rfl,.issued _ rfl rfl rfl rfl rfl ?_⟩
      obtain ⟨raw,drew,hash⟩ := hashed
      rw [← seen] at drew
      exact ⟨raw,owns_append drew,hash⟩
    · refine holds _ (service.platform.random.fresh s.base.draws.length) ?_ ?_
      · rw [← seen]; rfl
      · rw [← seen]
        simp only [view,note,entriesOf_append]
        simp [Atomic.entriesOf,OAuthEntry.call]

theorem safe_clientSecretFor {post : Except Error String → View → Prop}
    (holds : ∀ secret (u : View), u.1.1 = v.1.1 → u.2.1 = v.2.1 → v.2.2 ⊆ u.2.2 → post (.ok secret) u) :
    (discipline service).Safe i (service.clientSecretFor input) v post := by
  unfold clientSecretFor
  split
  · exact Safe.pure (holds _ v rfl rfl (fun _ member => member))
  · exact safe_draw fun text u sessions entries grown _ => holds text u sessions entries grown

-- Neither a client nor a code comes from these entries.
def Unissued (entries : List OAuthEntry) : Prop :=
  ∀ c, (∀ client, OAuthEntry.registered c client ∉ entries) ∧ ∀ code, OAuthEntry.issued c code ∉ entries

def Registered (input : RegisterClientInput) (i : CallId) (registered : RegisteredClient)
    (entries : List OAuthEntry) : Prop :=
  ∃ client, entries = [.registered i client] ∧ registered.clientId = client.clientId ∧
    (input.confidential = some false → client.pkceMethods = [.S256])

theorem safe_registerClient (idle : v.1.1 = []) (untouched : v.2.1 = []) :
    (discipline service).Safe i (service.registerClient input) v (fun result u => u.1.1 = [] ∧ match result with
      | .ok registered => Registered input i registered u.2.1
      | .error _ => u.2.1 = []) := by
  refine Safe.bind (safe_draw fun suffix u sessions entries _ drew => ?_)
  refine Safe.bind (safe_clientSecretFor fun secret u' sessions' entries' grown => ?_)
  have idle' : u'.1.1 = [] := sessions'.trans (sessions.trans idle)
  have untouched' : u'.2.1 = [] := entries'.trans (entries.trans untouched)
  refine Safe.bind (safe_createClient ⟨suffix,grown drew,rfl⟩ ?_ fun _ => ⟨idle',untouched'⟩)
  intro u'' born sessions'' entries'' same
  obtain ⟨name,methods⟩ := Prod.ext_iff.mp same
  refine Safe.pure ⟨sessions''.trans idle',born,?_,name.symm,?_⟩
  · rw [entries'',untouched',List.nil_append]
  · intro isPublic
    exact methods.trans (if_pos isPublic)

-- The code of an authorization: what was asked for, under a client that admits
-- the challenge method.
structure Authorized (input : AuthorizeInput) (i : CallId) (client : OAuthClientDoc)
    (code : AuthorizationCodeDoc) (entries : List OAuthEntry) : Prop where
  entries : entries = [.found i client,.issued i code]
  issuedTo : code.clientId = input.clientId
  tenant : code.tenantId = input.tenantId
  application : code.applicationId = input.applicationId
  redirect : code.redirectUri = input.redirectUri
  named : client.clientId = input.clientId
  challenge : ∃ challenge, challenge ≠ "" ∧ code.codeChallenge = some challenge
  method : ∃ method ∈ client.pkceMethods,
    code.codeChallengeMethod = some (if method.name = "plain" then .plain else .S256)

theorem truthy_some (given : truthy text = some value) : text = some value ∧ value ≠ "" := by
  simpa [truthy] using given

theorem safe_issueCode {challenge method : String} (idle : v.1.1 = []) (found : v.2.1 = [.found i client])
    (given : challenge ≠ "") (named : client.clientId = input.clientId) (admitted : (client.pkceMethods.map PkceMethod.name).contains method) :
    (discipline service).Safe i (service.issueCode input challenge method) v (fun result u => u.1.1 = [] ∧
      match result with
      | .ok issued => ∃ code, service.platform.sha256 issued.code = code.codeHash ∧
          Authorized input i client code u.2.1
      | .error _ => Unissued u.2.1) := by
  refine Safe.bind (safe_draw fun raw u sessions entries _ drew => ?_)
  refine Safe.bind (safe_clock fun now => ?_)
  have idle' : u.1.1 = [] := sessions.trans idle
  have found' : u.2.1 = [.found i client] := entries.trans found
  refine Safe.bind (safe_createCode ⟨raw,drew,rfl⟩ ?_ fun _ => ⟨idle',by simp [Unissued,found']⟩)
  intro u' codeId sessions' entries'
  obtain ⟨known,member,rfl⟩ := List.mem_map.mp (List.contains_iff_mem.mp admitted)
  rw [found'] at entries'
  exact Safe.pure ⟨sessions'.trans idle',_,rfl,
    ⟨entries',rfl,rfl,rfl,rfl,named,⟨challenge,given,rfl⟩,known,member,rfl⟩⟩

theorem safe_authorizeCode (idle : v.1.1 = []) (untouched : v.2.1 = []) :
    (discipline service).Safe i (service.authorizeCode input) v (fun result u => u.1.1 = [] ∧ match result with
      | .ok issued => ∃ client code, service.platform.sha256 issued.code = code.codeHash ∧
          Authorized input i client code u.2.1
      | .error _ => Unissued u.2.1) := by
  have none : v.1.1 = [] ∧ Unissued v.2.1 := ⟨idle,by simp [Unissued,untouched]⟩
  refine Safe.bind (safe_findClient none (fun client named tenant application => ?_) fun _ => none)
  have looked : v.2.1 ++ [.found i client] = [.found i client] := by rw [untouched]; rfl
  have refused : v.1.1 = [] ∧ Unissued (v.2.1 ++ [.found i client]) := ⟨idle,by simp [Unissued,looked]⟩
  dsimp only
  split
  · exact Safe.throw refused
  · split
    · exact Safe.throw refused
    · split
      · exact Safe.throw refused
      · split
        · exact Safe.throw refused
        · split
          · exact Safe.throw refused
          · split
            · exact Safe.throw refused
            · rename_i challenge given
              split
              · exact Safe.throw refused
              · rename_i admitted
                refine (safe_issueCode (by exact idle) looked (truthy_some given).2 named (by simpa using admitted)).mono ?_
                intro result u after
                cases result with
                | ok issued =>
                  obtain ⟨sessions,code,hashed,authorized⟩ := after
                  exact ⟨sessions,client,code,hashed,authorized⟩
                | error e => exact after

-- The token endpoint.
structure Admitted (service : OAuthService) (input : ExchangeInput) (client : OAuthClientDoc) : Prop where
  named : client.clientId = input.clientId
  tenant : client.tenantId = input.tenantId
  application : client.applicationId = input.applicationId
  active : client.isActive = true
  authenticated : client.tokenEndpointAuthMethod = .none ∨ ∃ secret, truthy input.clientSecret = some secret ∧
    truthy client.clientSecretHash = some (service.platform.sha256 secret)

theorem safe_authenticate {post : Except Error OAuthClientDoc → View → Prop}
    (accepted : ∀ client, Admitted service input client →
      post (.ok client) (v.1,v.2.1 ++ [.found i client],v.2.2))
    (refused : ∀ e client, post (.error e) (v.1,v.2.1 ++ [.found i client],v.2.2)) (failed : ∀ e, post (.error e) v) :
    (discipline service).Safe i (service.authenticateClientAtTokenEndpoint input.clientId input.clientSecret
      input.tenantId input.applicationId) v post := by
  refine Safe.bind (safe_findClient (failed _) (fun client named tenant application => ?_) fun _ => failed _)
  dsimp only
  split
  · exact Safe.throw (refused _ client)
  · rename_i active
    have active : client.isActive = true := by simpa using active
    split
    · rename_i open_
      exact Safe.pure (accepted client ⟨named,tenant,application,active,.inl open_⟩)
    · split
      · exact Safe.throw (refused _ client)
      · rename_i secret given
        split
        · rename_i matched
          obtain ⟨stored,kept,same⟩ := (Option.any_eq_true _ _).mp matched
          refine Safe.pure (accepted client ⟨named,tenant,application,active,.inr ⟨secret,given,?_⟩⟩)
          rw [kept,of_decide_eq_true same]
        · exact Safe.throw (refused _ client)

def ProvesKey (service : OAuthService) (code : AuthorizationCodeDoc) (codeVerifier : Option String) : Prop :=
  ∀ challenge, truthy code.codeChallenge = some challenge →
    ∃ verifier, codeVerifier = some verifier ∧ service.transformed verifier code.codeChallengeMethod = challenge

theorem safe_checkPkce {post : Except Error Unit → View → Prop}
    (proven : ProvesKey service code codeVerifier → post (.ok ()) v)
    (failed : ∀ e (u : View), u.1 = v.1 → u.2.1 = v.2.1 → post (.error e) u) :
    (discipline service).Safe i (service.checkPkce code codeVerifier) v post := by
  unfold checkPkce
  split
  · rename_i unset
    refine Safe.pure (proven ?_)
    intro challenge stored
    rw [unset] at stored
    cases stored
  · rename_i challenge stored
    split
    · exact Safe.throw (failed _ v rfl rfl)
    · rename_i verifier given
      split
      · rename_i matched
        refine Safe.pure (proven ?_)
        intro other same
        rw [stored] at same
        cases same
        exact ⟨verifier,(truthy_some given).1,of_decide_eq_true matched⟩
      · have kept : (Session.discipline service.sessions).Safe i (Session.revoke code.sessionId) v.1
            (fun _ u => u = v.1) := Session.safe_revoke rfl fun _ => rfl
        refine Safe.bind ((safe_session kept).mono ?_)
        intro result u after
        cases result with
        | ok value => exact Safe.throw (failed _ u after.1 after.2)
        | error e => exact failed _ u after.1 after.2

theorem safe_signAccessToken {post : Except Error AccessToken → View → Prop}
    (holds : ∀ token (u : View), u.1.1 = v.1.1 → u.2.1 = v.2.1 → token.sub = context.userId →
      token.sessionId = context.sessionId → token.scope = scope → token.clientId = clientId → post (.ok token) u) :
    (discipline service).Safe i (signAccessToken service.platform service.tokens context scope clientId tokenVersion)
      v post := by
  refine Safe.bind (safe_clock fun now => ?_)
  refine Safe.bind (safe_draw fun jti u sessions entries _ _ => ?_)
  exact Safe.pure (holds _ u sessions entries rfl rfl rfl rfl)

theorem safe_idTokenFor {post : Except Error (Option IdToken) → View → Prop} (holds : ∀ token, post (.ok token) v) :
    (discipline service).Safe i (service.idTokenFor code sessionId) v post := by
  unfold idTokenFor
  split
  · exact Safe.bind (Safe.bind (safe_clock fun now => Safe.pure (Safe.pure (holds _))))
  · exact Safe.pure (holds _)

-- The one family an exchange may start is in the tenant and application asked
-- for.
def Opens (input : ExchangeInput) (i : CallId) (entries : List Session.Entry) : Prop :=
  ∀ root, .created i root ∈ entries → input.grantType = "authorization_code" ∧
    root.tenantId = input.tenantId ∧ root.applicationId = input.applicationId

theorem safe_issueForCode (idle : v.1.1 = []) (kind : input.grantType = "authorization_code")
    (tenant : code.tenantId = input.tenantId) (application : code.applicationId = input.applicationId) :
    (discipline service).Safe i (service.issueForCode code device) v (fun _ u => Opens input i u.1.1 ∧ u.2.1 = v.2.1) := by
  refine Safe.bind ((safe_session (Session.safe_create idle)).mono ?_)
  intro result u after
  cases result with
  | error e =>
    obtain ⟨unstarted,entries⟩ := after
    have unstarted : u.1.1 = [] := unstarted
    exact ⟨by simp [Opens,unstarted],entries⟩
  | ok created =>
    obtain ⟨⟨doc,started,_,_,sameTenant,sameApplication⟩,entries⟩ := after
    have opens : Opens input i u.1.1 := by
      intro root member
      rw [started] at member
      obtain rfl : root = doc := by simpa using member
      exact ⟨kind,sameTenant.trans tenant,sameApplication.trans application⟩
    refine Safe.bind (safe_signAccessToken fun token u' sessions' entries' _ _ _ _ => ?_)
    refine Safe.bind (safe_idTokenFor fun idToken => ?_)
    exact Safe.pure ⟨sessions' ▸ opens,entries'.trans entries⟩

-- A redeemed code, with the four actions the exchange took on the collections.
structure Redeemed (service : OAuthService) (input : ExchangeInput) (i : CallId) (entries : List OAuthEntry)
    (client : OAuthClientDoc) (presented : String) (code spent : AuthorizationCodeDoc) (now : Nat) : Prop where
  entries : entries = [.found i client,.presented i code,.timed i now,.consumed i spent]
  given : input.code = some presented
  hashed : code.codeHash = service.platform.sha256 presented
  named : code.clientId = input.clientId
  tenant : code.tenantId = input.tenantId
  application : code.applicationId = input.applicationId
  redirect : input.redirectUri = some code.redirectUri
  inTime : now ≤ code.expiresAt
  proven : ProvesKey service code input.codeVerifier
  same : spent.id = code.id

structure Renewed (service : OAuthService) (input : ExchangeInput) (i : CallId) (issued : OAuthTokens) (u : View)
    (client : OAuthClientDoc) (token : String) (created : Session.CreatedSession) : Prop where
  looked : u.2.1 = [.found i client]
  admitted : Admitted service input client
  allowed : .refresh_token ∈ client.grants
  given : input.refreshToken = some token
  rotated : Session.Refreshed service.sessions token
    ⟨input.device.ip,input.device.userAgent,input.device.deviceLabel,some input.tenantId,some input.applicationId⟩ i
    (.ok created) u.1.1
  sub : issued.accessToken.sub = created.userId
  sessionId : issued.accessToken.sessionId = created.sessionId
  clientId : issued.accessToken.clientId = some input.clientId
  refreshToken : issued.refreshToken = some created.refreshToken
  unscoped : issued.accessToken.scope = none
  scope : issued.scope = "openid"

-- What holds of an exchange however it ends, and what its tokens stand for.
structure Exchanged (service : OAuthService) (input : ExchangeInput) (i : CallId) (result : Except Error OAuthTokens)
    (u : View) : Prop where
  unissued : Unissued u.2.1
  opens : Opens input i u.1.1
  redeemed : ∀ issued, result = .ok issued → input.grantType = "authorization_code" →
    ∃ client presented code spent now, Redeemed service input i u.2.1 client presented code spent now
  renewed : ∀ issued, result = .ok issued → input.grantType = "refresh_token" →
    ∃ client token created, Renewed service input i issued u client token created

theorem exchanged_error (unissued : Unissued u.2.1) (idle : Session.Unstarted i u.1.1) :
    Exchanged service input i (.error e) u := by
  refine ⟨unissued,?_,?_,?_⟩
  · intro root created
    exact absurd created (idle root)
  · intro issued failed
    cases failed
  · intro issued failed
    cases failed

theorem safe_exchangeAuthorizationCode (idle : v.1.1 = []) (found : v.2.1 = [.found i client])
    (admitted : Admitted service input client) (kind : input.grantType = "authorization_code") :
    (discipline service).Safe i (service.exchangeAuthorizationCode client input) v (Exchanged service input i) := by
  have unstarted : Session.Unstarted i v.1.1 := Session.unstarted_untouched idle
  have looked : ∀ e, Exchanged service input i (.error e) v :=
    fun e => exchanged_error (by simp [Unissued,found]) unstarted
  unfold exchangeAuthorizationCode
  split
  · exact Safe.throw (looked _)
  · rename_i presented given
    refine Safe.bind (safe_findCode (looked _) (fun code selected => ?_) fun _ => looked _)
    obtain ⟨hashed,named,tenant,application,live⟩ := selectsCode_parts selected
    refine Safe.bind (safe_checkTime fun now => ?_)
    have refused : ∀ e (u : View), u.1 = v.1 → u.2.1 = v.2.1 ++ [.presented i code] ++ [.timed i now] →
        Exchanged service input i (.error e) u := by
      intro e u sessions entries
      refine exchanged_error ?_ (sessions ▸ unstarted)
      simp [Unissued,entries,found]
    dsimp only
    split
    · exact Safe.throw (refused _ _ rfl rfl)
    · rename_i early
      split
      · exact Safe.throw (refused _ _ rfl rfl)
      · rename_i redirect
        refine Safe.bind (safe_checkPkce (fun proven => ?_) refused)
        refine Safe.bind (safe_consumeCode (refused _ _ rfl rfl) (fun spent same => ?_) fun _ => refused _ _ rfl rfl)
        refine (safe_issueForCode (by exact idle) kind tenant application).mono ?_
        intro result u after
        obtain ⟨opens,entries⟩ := after
        have entries : u.2.1 = [.found i client,.presented i code,.timed i now,.consumed i spent] := by
          rw [entries,found]; rfl
        refine ⟨by simp [Unissued,entries],opens,?_,?_⟩
        · intro issued returned _
          exact ⟨client,presented,code,spent,now,entries,(truthy_some given).1,hashed,named.trans admitted.named,tenant,
            application,not_not.mp redirect,Nat.le_of_not_lt early,proven,same⟩
        · intro issued returned other
          simp [kind] at other

theorem safe_exchangeRefreshToken (idle : v.1.1 = []) (found : v.2.1 = [.found i client])
    (admitted : Admitted service input client) (kind : input.grantType = "refresh_token") :
    (discipline service).Safe i (service.exchangeRefreshToken client input) v (Exchanged service input i) := by
  have unissued : ∀ u : View, u.2.1 = v.2.1 → Unissued u.2.1 := by
    intro u entries
    simp [Unissued,entries,found]
  have refused : ∀ e, Exchanged service input i (.error e) v :=
    fun e => exchanged_error (unissued v rfl) (Session.unstarted_untouched idle)
  unfold exchangeRefreshToken
  split
  · exact Safe.throw (refused _)
  · rename_i allowed
    split
    · exact Safe.throw (refused _)
    · rename_i token given
      refine Safe.bind ((safe_session (Session.safe_refresh idle)).mono ?_)
      intro result u after
      cases result with
      | error e => exact exchanged_error (unissued u after.2) after.1.2
      | ok created =>
        obtain ⟨rotated,entries⟩ := after
        refine Safe.bind (safe_signAccessToken fun accessToken u' sessions' entries' sub sessionId scope clientId => ?_)
        rw [← sessions'] at rotated
        refine Safe.pure ⟨unissued u' (entries'.trans entries),?_,?_,?_⟩
        · obtain ⟨parent,child,only,_⟩ := rotated
          simp [Opens,only]
        · intro issued returned other
          simp [kind] at other
        · intro issued returned _
          cases returned
          exact ⟨client,token,created,entries'.trans (entries.trans found),admitted,by simpa using allowed,(truthy_some given).1,rotated,sub,sessionId,
            clientId.trans (congrArg some admitted.named),rfl,scope,rfl⟩

theorem safe_exchangeClientCredentials (idle : v.1.1 = []) (found : v.2.1 = [.found i client])
    (kind : input.grantType = "client_credentials") :
    (discipline service).Safe i (service.exchangeClientCredentials client input) v (Exchanged service input i) := by
  have ended : ∀ (u : View) result, u.1.1 = v.1.1 → u.2.1 = v.2.1 → Exchanged service input i result u := by
    intro u result sessions entries
    refine ⟨by simp [Unissued,entries,found],by simp [Opens,sessions,idle],?_,?_⟩
    · intro issued returned other
      simp [kind] at other
    · intro issued returned other
      simp [kind] at other
  unfold exchangeClientCredentials
  split
  · exact Safe.throw (ended v _ rfl rfl)
  · dsimp only
    split
    · exact Safe.throw (ended v _ rfl rfl)
    · refine Safe.bind (safe_draw fun sessionId u sessions entries _ _ => ?_)
      refine Safe.bind (safe_signAccessToken fun token u' sessions' entries' _ _ _ _ => ?_)
      exact Safe.pure (ended u' _ (sessions'.trans sessions) (entries'.trans entries))

theorem safe_exchange (idle : v.1.1 = []) (untouched : v.2.1 = []) :
    (discipline service).Safe i (service.exchange input) v (Exchanged service input i) := by
  have unstarted : Session.Unstarted i v.1.1 := Session.unstarted_untouched idle
  have looked : ∀ client, v.2.1 ++ [.found i client] = [.found i client] := by
    intro client
    rw [untouched]
    rfl
  have refused : ∀ e client, Exchanged service input i (.error e) (v.1,v.2.1 ++ [.found i client],v.2.2) :=
    fun e client => exchanged_error (by simp [Unissued,looked client]) unstarted
  refine Safe.bind (safe_authenticate (fun client admitted => ?_) refused fun e => ?_)
  · dsimp only
    split
    · exact Safe.throw (refused _ client)
    · split
      · rename_i kind
        exact safe_exchangeAuthorizationCode (by exact idle) (looked client) admitted kind
      · rename_i kind
        exact safe_exchangeRefreshToken (by exact idle) (looked client) admitted kind
      · rename_i kind
        exact safe_exchangeClientCredentials (by exact idle) (looked client) kind
      · exact Safe.throw (refused _ client)
  · exact exchanged_error (by simp [Unissued,untouched]) unstarted

-- The whole service.
def Outcome (service : OAuthService) (i : CallId) : Call → Except Error Reply → View → Prop
  | .registerClient input,.ok (.client registered),u => u.1.1 = [] ∧ Registered input i registered u.2.1
  | .authorizeCode input,.ok (.code issued),u => u.1.1 = [] ∧ ∃ client code,
      service.platform.sha256 issued.code = code.codeHash ∧ Authorized input i client code u.2.1
  | .exchange input,.ok (.tokens issued),u => Exchanged service input i (.ok issued) u
  | .exchange input,.error e,u => Exchanged service input i (.error e) u
  | .session call,_,u => Unissued u.2.1 ∧ ∀ root, .created i root ∈ u.1.1 → ∃ ctx, call = .create ctx
  | _,_,u => u.1.1 = [] ∧ Unissued u.2.1

theorem safe_program (idle : v.1.1 = []) (untouched : v.2.1 = []) (call : Call) :
    (discipline service).Safe i (program service call) v (Outcome service i call) := by
  cases call with
  | registerClient input =>
    refine Safe.map ((safe_registerClient idle untouched).mono ?_)
    intro result u after
    cases result with
    | ok registered => exact after
    | error e => exact ⟨after.1,by simp [Unissued,after.2]⟩
  | authorizeCode input =>
    refine Safe.map ((safe_authorizeCode idle untouched).mono ?_)
    intro result u after
    cases result <;> exact after
  | exchange input =>
    refine Safe.map ((safe_exchange idle untouched).mono ?_)
    intro result u after
    cases result <;> exact after
  | session call =>
    refine Safe.map ((safe_session (Session.safe_program idle call)).mono ?_)
    intro result u after
    have unissued : Unissued u.2.1 := by simp [Unissued,after.2,untouched]
    cases result <;> exact ⟨unissued,fun root created => Session.outcome_created after.1 created⟩

end
end Pezhwan.OAuth
