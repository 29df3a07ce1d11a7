import Pezhwan.Auth.Total
import Pezhwan.CodeGrant.Service

-- What a code that was exchanged has been issued for.
namespace Pezhwan.CodeGrant
open Atomic Prog Config MemoryAuthorizationCodeStore
open Auth (Platform PkceMethod)
variable {platform : Platform} {service : OAuthService} {s t w : World}

-- What an action of a call does, by the moves the call has made before.
def Does (platform : Platform) : Call → List (World × World) → World → World → Prop
  | .issueCode params,[load],s,t => (load.1.clients.get? params.clientId).isSome ∧
      t = create (recordOf platform params s) {s with drawn := s.drawn + 2}
  | .exchange request,[find,_],s,t => ∃ record, findByHash (platform.sha256 request.code) find.1 = some record ∧
      t = (use record s).2
  | _,_,s,t => t = s

-- What an exchange that returns tokens has been through.
structure Exchanged (platform : Platform) (request : TokenRequest) (moves : List (World × World)) : Prop where
  steps : ∃ minted used find load record, moves = [minted,used,find,load] ∧
    (load.1.clients.get? request.clientId).isSome ∧
    findByHash (platform.sha256 request.code) find.1 = some record ∧ (use record used.1).1 = true ∧
    used.2 = (use record used.1).2 ∧ record.redirectUri = request.redirectUri ∧
    ∀ challenge, truthy record.codeChallenge = some challenge →
      verifyPkce platform (request.codeVerifier.getD "") record.codeChallenge record.codeChallengeMethod = true

def Ends (platform : Platform) : Call → Except Error Reply → List (World × World) → Prop
  | .exchange request,.ok _,moves => Exchanged platform request moves
  | _,_,_ => True

section
variable {post : Except Error α → List (World × World) → Prop} {rule : List (World × World) → World → World → Prop}
  {memory : List (World × World)} {i : CallId}

theorem acts_raise {kind : ErrorClass} {message code : String} (failed : ∀ e, post (.error e) memory) :
    (raise kind message code : Program α).Acts (fun _ => True) i rule memory post := failed _

theorem acts_requireActiveClient {clientId : String} {post : Except Error OAuthClientRecord → List (World × World) → Prop}
    (still : ∀ s, rule memory s s) (failed : ∀ e moves, post (.error e) moves)
    (loaded : ∀ s client, s.clients.get? clientId = some client → post (.ok client) ((s,s) :: memory)) :
    (OAuthService.requireActiveClient clientId).Acts (fun _ => True) i rule memory post := by
  apply Acts.bind
  apply Acts.atomic
  intro s _
  refine ⟨still s,?_⟩
  dsimp only
  cases found : s.clients.get? clientId with
  | none => exact acts_raise fun e => failed e _
  | some client =>
    dsimp only
    split
    · exact acts_raise fun e => failed e _
    · exact Acts.pure (loaded s client found)

theorem acts_authenticateClient {client : OAuthClientRecord} {post : Except Error Unit → List (World × World) → Prop}
    (failed : ∀ e, post (.error e) memory) (passed : post (.ok ()) memory) :
    (service.authenticateClient client secret).Acts (fun _ => True) i rule memory post := by
  unfold OAuthService.authenticateClient
  split
  · exact Acts.pure passed
  · split
    · split
      · exact acts_raise failed
      · exact Acts.pure passed
    · exact acts_raise failed

theorem acts_mint {context : TokenContext} {post : Except Error OAuthTokenSet → List (World × World) → Prop}
    (still : ∀ s, rule memory s s) (ended : ∀ result s, post result ((s,s) :: memory)) :
    (service.mint context).Acts (fun _ => True) i rule memory post := by
  apply Acts.tryAtomic
  · intro s _ value t ran
    cases minted : service.issueTokens context i s with
    | error e =>
      rw [minted] at ran
      cases ran
    | ok tokens =>
      rw [minted] at ran
      cases ran
      exact ⟨still s,ended _ _⟩
  · intro s _ e _
    exact ⟨still s,ended _ _⟩

end

theorem acts_issueCode (service : OAuthService) (i : CallId) (params : IssueCodeParams) :
    (program service (.issueCode params)).Acts (fun _ => True) i (Does service.platform (.issueCode params)) []
      (Ends service.platform (.issueCode params)) := by
  apply Acts.bind
  apply Acts.bind
  refine acts_requireActiveClient (fun _ => rfl) (fun _ _ => trivial) ?_
  intro s client loaded
  dsimp only
  split
  · exact trivial
  · apply Acts.bind
    apply Acts.atomic
    intro u _
    refine ⟨⟨?_,rfl⟩,trivial⟩
    rw [loaded]
    rfl

theorem acts_exchange (service : OAuthService) (i : CallId) (request : TokenRequest) :
    (program service (.exchange request)).Acts (fun _ => True) i (Does service.platform (.exchange request)) []
      (Ends service.platform (.exchange request)) := by
  apply Acts.bind
  apply Acts.bind
  refine acts_requireActiveClient (fun _ => rfl) (fun _ _ => trivial) ?_
  intro load client loaded
  dsimp only
  apply Acts.bind
  refine acts_authenticateClient (fun _ => trivial) ?_
  dsimp only
  split
  · exact trivial
  · apply Acts.bind
    apply Acts.bind
    apply Acts.atomic
    intro find _
    refine ⟨rfl,?_⟩
    dsimp only
    cases found : findByHash (service.platform.sha256 request.code) find with
    | none => exact trivial
    | some record =>
      dsimp only
      apply Acts.bind
      apply Acts.atomic
      intro used _
      refine ⟨⟨record,found,rfl⟩,?_⟩
      dsimp only
      cases consumed : (use record used).1 with
      | false => exact trivial
      | true =>
        apply Acts.pure
        simp only [if_true]
        by_cases other : record.redirectUri ≠ request.redirectUri
        · rw [if_pos other]
          exact trivial
        · rw [if_neg other]
          split
          · exact trivial
          · rename_i unmatched
            apply Acts.bind
            refine acts_mint (fun _ => rfl) ?_
            intro result minted
            cases result with
            | error e => exact trivial
            | ok tokens =>
              refine ⟨(minted,minted),(used,(use record used).2),(find,find),(load,load),record,rfl,?_,found,consumed,rfl,
                not_not.mp other,?_⟩
              · rw [loaded]
                rfl
              · intro challenge given
                rw [given] at unmatched
                simpa using unmatched

theorem acts_program (service : OAuthService) (i : CallId) (call : Call) :
    (program service call).Acts (fun _ => True) i (Does service.platform call) [] (Ends service.platform call) := by
  cases call with
  | issueCode params => exact acts_issueCode service i params
  | exchange request => exact acts_exchange service i request
  | clientCredentials clientId clientSecret scope =>
    apply Acts.bind
    apply Acts.bind
    refine acts_requireActiveClient (fun _ => rfl) (fun _ _ => trivial) ?_
    intro load client loaded
    dsimp only
    split
    · exact trivial
    · apply Acts.bind
      refine acts_authenticateClient (fun _ => trivial) ?_
      dsimp only
      apply Acts.bind
      refine acts_mint (fun _ => rfl) ?_
      intro result minted
      cases result <;> exact trivial

-- The surroundings register clients and leave the codes alone; a client stays
-- public or confidential.
structure Outside (s t : World) : Prop where
  drawn : s.drawn ≤ t.drawn
  records : t.records = s.records
  clients : ∀ clientId client, s.clients.get? clientId = some client →
    ∃ later, t.clients.get? clientId = some later ∧ later.isConfidential = client.isConfidential

abbrev History := List (Event CallId Call World)

-- `code` is what a call with `params` has drawn in the state `at`.
def Issued (platform : Platform) (past : History) (code : String) (params : IssueCodeParams) (at_ : World) : Prop :=
  ∃ later event earlier, past = later ++ event :: earlier ∧ event.call = .issueCode params ∧
    (∃ load, mine event.who earlier = [load] ∧ (load.1.clients.get? params.clientId).isSome) ∧ event.before = at_ ∧
    code = platform.random.fresh at_.drawn

theorem Issued.later {past : History} (newer : History) (issued : Issued platform past code params at_) :
    Issued platform (newer ++ past) code params at_ := by
  obtain ⟨later,event,earlier,rfl,rest⟩ := issued
  exact ⟨newer ++ later,event,earlier,by simp,rest⟩

-- Every stored record is the one that an issuing call made, used up or not.
def Known (platform : Platform) (past : History) (w : World) (id : String) (record : AuthorizationCode) : Prop :=
  ∃ code params at_, Issued platform past code params at_ ∧ id = platform.random.fresh (at_.drawn + 1) ∧
    at_.drawn + 2 ≤ w.drawn ∧ {record with consumedAt := none} = recordOf platform params at_

def Stocked (platform : Platform) (past : History) (w : World) : Prop :=
  ∀ id record, w.records.get? id = some record → Known platform past w id record

theorem Known.later {past : History} {id : String} {record : AuthorizationCode} (newer : History)
    (known : Known platform past s id record) (drawn : s.drawn ≤ t.drawn) : Known platform (newer ++ past) t id record := by
  obtain ⟨code,params,at_,issued,named,before,same⟩ := known
  exact ⟨code,params,at_,issued.later newer,named,Nat.le_trans before drawn,same⟩

theorem Stocked.outside {past : History} (stocked : Stocked platform past s) (outside : Outside s t) : Stocked platform past t := by
  intro id record found
  rw [outside.records] at found
  exact (stocked id record found).later [] outside.drawn

theorem use_cases (record : AuthorizationCode) (w : World) : use record w = (false,w) ∨
    ∃ current, record.consumedAt = none ∧ w.now < record.expiresAt ∧ w.records.get? record.id = some current ∧
      current.consumedAt = none ∧
      use record w = (true,{w with records := w.records.set record.id {current with consumedAt := some w.now}}) := by
  unfold use consume
  split
  · exact .inl rfl
  · rename_i fit
    cases found : w.records.get? record.id with
    | none => exact .inl rfl
    | some current =>
      dsimp only
      split
      · exact .inl rfl
      · rename_i unused
        simp only [not_or,Bool.not_eq_true,Option.isSome_eq_false_iff,Option.isNone_iff_eq_none,Nat.not_le] at fit unused
        exact .inr ⟨current,fit.1,fit.2,rfl,unused,rfl⟩

-- What an action can do.
inductive Acted (platform : Platform) (call : Call) (memory : List (World × World)) (s t : World) : Prop where
  | idle (same : t = s)
  | issued (params : IssueCodeParams) (load : World × World) (asked : call = .issueCode params) (own : memory = [load])
      (loaded : (load.1.clients.get? params.clientId).isSome)
      (made : t = create (recordOf platform params s) {s with drawn := s.drawn + 2})
  | used (request : TokenRequest) (find load : World × World) (record : AuthorizationCode) (asked : call = .exchange request)
      (own : memory = [find,load]) (found : findByHash (platform.sha256 request.code) find.1 = some record)
      (made : t = (use record s).2)

theorem does_acted (does : Does platform call memory s t) : Acted platform call memory s t := by
  cases call with
  | issueCode params =>
    rcases memory with _ | ⟨load,_ | ⟨older,rest⟩⟩
    · exact .idle does
    · exact .issued params load rfl rfl does.1 does.2
    · exact .idle does
  | exchange request =>
    rcases memory with _ | ⟨find,_ | ⟨load,_ | ⟨older,rest⟩⟩⟩
    · exact .idle does
    · exact .idle does
    · obtain ⟨record,found,made⟩ := does
      exact .used request find load record rfl rfl found made
    · exact .idle does
  | clientCredentials clientId clientSecret scope => exact .idle does

theorem stocked_step {past : History} {event : Event CallId Call World} (stocked : Stocked platform past event.before)
    (acted : Acted platform event.call (mine event.who past) event.before event.after) :
    Stocked platform (event :: past) event.after := by
  have same : event.after = event.before → Stocked platform (event :: past) event.after := by
    intro still id record found
    rw [still] at found
    exact (stocked id record found).later [event] (Nat.le_of_eq (congrArg World.drawn still.symm))
  cases acted with
  | idle still => exact same still
  | issued params load asked own loaded made =>
    intro id record found
    rw [made] at found
    by_cases new : id = (recordOf platform params event.before).id
    · have latest : (create (recordOf platform params event.before) {event.before with drawn := event.before.drawn + 2}).records.get? id =
          some (recordOf platform params event.before) := by
        rw [new]
        exact Dict.get?_set_self _ _ _
      rw [latest] at found
      cases found
      refine ⟨_,params,event.before,⟨[],event,past,rfl,asked,⟨load,own,loaded⟩,rfl,rfl⟩,new,?_,rfl⟩
      rw [made]
      exact Nat.le_refl _
    · have old : event.before.records.get? id = some record := (Dict.get?_set_ne _ _ new).symm.trans found
      refine (stocked id record old).later [event] ?_
      rw [made]
      exact Nat.le_add_right _ 2
  | used request find load record asked own found used =>
    rcases use_cases record event.before with idle | ⟨current,_,_,stored,_,consumed⟩
    · rw [idle] at used
      exact same used
    · rw [consumed] at used
      intro id later present
      rw [used] at present
      by_cases own : id = record.id
      · subst own
        rw [Dict.get?_set_self] at present
        cases present
        obtain ⟨code,params,at_,issued,named,before,equal⟩ := stocked _ _ stored
        refine ⟨code,params,at_,issued.later [event],named,?_,equal⟩
        rw [used]
        exact before
      · rw [Dict.get?_set_ne _ _ own] at present
        refine (stocked id later present).later [event] (Nat.le_of_eq ?_)
        rw [used]

theorem stocked_along {past : History} {other : World → World → Prop} {initial : World} (outside : ∀ s t, other s t → Outside s t)
    (empty : initial.records = Dict.empty) (along : Along (Does platform) past) (linked : Linked other initial past s) :
    Stocked platform past s := by
  have still : ∀ {past : History} {a b}, Relation.ReflTransGen other a b → Stocked platform past a → Stocked platform past b := by
    intro past a b moves stocked
    induction moves with
    | refl => exact stocked
    | tail _ moved ih => exact ih.outside (outside _ _ moved)
  induction past generalizing s with
  | nil =>
    apply still linked
    intro id record found
    rw [empty] at found
    cases found
  | cons event past ih => exact still linked.1 (stocked_step (ih along.2 linked.2) (does_acted along.1))

theorem found_issued {past : History} (stocked : Stocked platform past w) (found : findByHash (platform.sha256 code) w = some record) :
    ∃ params at_, Issued platform past code params at_ ∧ {record with consumedAt := none} = recordOf platform params at_ := by
  obtain ⟨id,stored⟩ := Dict.mem_values.mp (List.mem_of_find?_eq_some found)
  obtain ⟨drawn,params,at_,issued,_,_,same⟩ := stocked id record stored
  refine ⟨params,at_,?_,same⟩
  have hashed : platform.sha256 drawn = platform.sha256 code := by
    have named := congrArg AuthorizationCode.codeHash same
    have selected := List.find?_some (p := fun record : AuthorizationCode => record.codeHash = platform.sha256 code) found
    obtain ⟨_,_,_,_,_,_,_,rfl⟩ := issued
    exact named.symm.trans (of_decide_eq_true selected)
  exact platform.sha256_injective hashed ▸ issued

-- The action with which a call uses a code up.
structure Uses (platform : Platform) (past : History) (code : String) (params : IssueCodeParams)
    (issuedAt before after : World) : Prop where
  issued : Issued platform past code params issuedAt
  unused : ∃ current, before.records.get? (platform.random.fresh (issuedAt.drawn + 1)) = some current ∧ current.consumedAt = none
  used : ∃ current, after.records.get? (platform.random.fresh (issuedAt.drawn + 1)) = some current ∧ current.consumedAt ≠ none
  current : before.now < issuedAt.now + DEFAULT_CODE_TTL_MS

theorem use_uses {past : History} (issued : Issued platform past code params issuedAt)
    (same : {record with consumedAt := none} = recordOf platform params issuedAt) (used : (use record w).1 = true) :
    Uses platform past code params issuedAt w (use record w).2 := by
  have named : record.id = platform.random.fresh (issuedAt.drawn + 1) := congrArg AuthorizationCode.id same
  have limit : record.expiresAt = issuedAt.now + DEFAULT_CODE_TTL_MS := congrArg AuthorizationCode.expiresAt same
  rcases use_cases record w with idle | ⟨current,_,fit,stored,unused,made⟩
  · rw [idle] at used
    cases used
  · rw [named] at stored
    refine ⟨issued,⟨current,stored,unused⟩,?_,limit ▸ fit⟩
    rw [made,named]
    exact ⟨_,Dict.get?_set_self _ _ _,by simp⟩

-- A code that is used up stays so.
def Spent (platform : Platform) (n : Nat) (w : World) : Prop :=
  n + 2 ≤ w.drawn ∧ ∃ current, w.records.get? (platform.random.fresh (n + 1)) = some current ∧ current.consumedAt ≠ none

theorem spent_outside {n : Nat} (outside : Outside s t) (spent : Spent platform n s) : Spent platform n t := by
  refine ⟨Nat.le_trans spent.1 outside.drawn,?_⟩
  rw [outside.records]
  exact spent.2

theorem spent_acted {n : Nat} (acted : Acted platform call memory s t) (spent : Spent platform n s) : Spent platform n t := by
  obtain ⟨before,current,stored,used⟩ := spent
  cases acted with
  | idle same => exact same ▸ ⟨before,current,stored,used⟩
  | issued params load asked own loaded made =>
    rw [made]
    refine ⟨Nat.le_add_right_of_le before,current,?_,used⟩
    have other : platform.random.fresh (n + 1) ≠ (recordOf platform params s).id := by
      intro same
      have equal := platform.random.injective same
      omega
    exact (Dict.get?_set_ne _ _ other).trans stored
  | used request find load record asked own found made =>
    rw [made]
    rcases use_cases record s with idle | ⟨fresh,_,_,present,unused,changed⟩
    · rw [idle]
      exact ⟨before,current,stored,used⟩
    · rw [changed]
      refine ⟨before,current,?_,used⟩
      have other : platform.random.fresh (n + 1) ≠ record.id := by
        intro same
        rw [same,present] at stored
        cases stored
        exact used unused
      exact (Dict.get?_set_ne _ _ other).trans stored

theorem acted_clients (acted : Acted platform call memory s t) : t.clients = s.clients := by
  cases acted with
  | idle same => rw [same]
  | issued params load asked own loaded made =>
    rw [made]
    rfl
  | used request find load record asked own found made =>
    rw [made]
    rcases use_cases record s with idle | ⟨_,_,_,_,_,changed⟩
    · rw [idle]
    · rw [changed]

-- A client that is public, or confidential, at one action is so at every later one.
def Kind (clientId : String) (isConfidential : Bool) (w : World) : Prop :=
  ∃ client, w.clients.get? clientId = some client ∧ client.isConfidential = isConfidential

section
variable {past : History} {other : World → World → Prop} {initial : World}

theorem kinds_since {later earlier : History} {event : Event CallId Call World} (outside : ∀ s t, other s t → Outside s t)
    (along : Along (Does platform) past) (linked : Linked other initial past s) (whole : past = later ++ event :: earlier)
    (kind : Kind clientId isConfidential event.before) : ∀ one ∈ later, Kind clientId isConfidential one.before := by
  subst whole
  have after : Kind clientId isConfidential event.after := by
    unfold Kind
    rw [acted_clients (does_acted (along_at along).1)]
    exact kind
  refine (linked_since ?_ linked after ?_).2
  · intro s t moved known
    obtain ⟨client,found,same⟩ := known
    obtain ⟨later,present,equal⟩ := (outside s t moved).clients clientId client found
    exact ⟨later,present,equal.trans same⟩
  · intro newer one older split known
    rw [split,List.append_assoc] at along
    unfold Kind
    rw [acted_clients (does_acted (along_at along).1)]
    exact known

theorem kinds_agree (outside : ∀ s t, other s t → Outside s t) (along : Along (Does platform) past)
    (linked : Linked other initial past s) {one two : Event CallId Call World} (first : one ∈ past) (second : two ∈ past)
    (kind : Kind clientId isConfidential one.before) (kind' : Kind clientId isConfidential' two.before) :
    isConfidential = isConfidential' := by
  have agree : ∀ {w kind kind'}, Kind clientId kind w → Kind clientId kind' w → kind = kind' := by
    intro w kind kind' known known'
    obtain ⟨client,found,rfl⟩ := known
    obtain ⟨client',found',rfl⟩ := known'
    rw [found] at found'
    cases found'
    rfl
  obtain ⟨earlier,later,split⟩ := List.append_of_mem first
  obtain ⟨earlier',later',split'⟩ := List.append_of_mem second
  rcases compare_places (split.symm.trans split') with ⟨middle,_,rest⟩ | same | ⟨middle,_,rest⟩
  · have known := kinds_since outside along linked split' kind' one (rest ▸ by simp)
    exact agree kind known
  · rw [same] at kind
    exact agree kind kind'
  · have known := kinds_since outside along linked split kind two (rest ▸ by simp)
    exact agree known kind'

theorem exchanged_uses (outside : ∀ s t, other s t → Outside s t) (empty : initial.records = Dict.empty)
    (along : Along (Does platform) past) (linked : Linked other initial past s) (exchanged : Exchanged platform request (mine i past)) :
    ∃ params issuedAt, (∃ event ∈ past, event.who = i ∧ Uses platform past request.code params issuedAt event.before event.after) ∧
      params.redirectUri = request.redirectUri ∧
      (∀ challenge, truthy params.codeChallenge = some challenge →
        verifyPkce platform (request.codeVerifier.getD "") params.codeChallenge params.codeChallengeMethod = true) ∧
      ∃ load ∈ past, load.who = i ∧ (load.before.clients.get? request.clientId).isSome := by
  obtain ⟨minted,used,find,load,record,moves,loaded,found,consumed,made,redirect,matched⟩ := exchanged
  obtain ⟨later,event,earlier,split,who,same,rest⟩ := mine_split [minted] moves
  obtain ⟨between,looked,older,split',_,place,_⟩ := mine_split [] rest
  have loading : load ∈ mine i past := by simp [moves]
  obtain ⟨first,listed,owner,before⟩ := mine_member loading
  have known : Stocked platform older looked.before := by
    have inner : past = (later ++ event :: between) ++ looked :: older := by simp [split,split']
    exact stocked_along outside empty (along_at (inner ▸ along)).2 (linked_at (inner ▸ linked))
  cases place
  obtain ⟨params,issuedAt,issued,equal⟩ := found_issued known found
  have issued : Issued platform past request.code params issuedAt := by
    have whole : past = (later ++ event :: between ++ [looked]) ++ older := by simp [split,split']
    exact whole ▸ issued.later _
  refine ⟨params,issuedAt,⟨event,by simp [split],who,?_⟩,?_,?_,first,listed,owner,?_⟩
  · cases same
    have uses := use_uses issued equal consumed
    change event.after = (use record event.before).2 at made
    rw [made]
    exact uses
  · have stored := congrArg AuthorizationCode.redirectUri equal
    exact stored.symm.trans redirect
  · have stored := congrArg AuthorizationCode.codeChallenge equal
    have method := congrArg AuthorizationCode.codeChallengeMethod equal
    intro challenge given
    have checked := matched challenge ((congrArg truthy stored).trans given)
    have fields : record.codeChallenge = params.codeChallenge ∧ record.codeChallengeMethod = params.codeChallengeMethod :=
      ⟨stored,method⟩
    rw [fields.1,fields.2] at checked
    exact checked
  · cases before
    exact loaded

theorem spent_since {later earlier : History} {event : Event CallId Call World} (outside : ∀ s t, other s t → Outside s t)
    (along : Along (Does platform) past) (linked : Linked other initial past s) (whole : past = later ++ event :: earlier)
    (spent : Spent platform n event.after) : ∀ one ∈ later, Spent platform n one.before := by
  subst whole
  refine (linked_since ?_ linked spent ?_).2
  · intro s t moved known
    exact spent_outside (outside s t moved) known
  · intro newer one older split known
    rw [split,List.append_assoc] at along
    exact spent_acted (does_acted (along_at along).1) known

theorem Acted.drawn (acted : Acted platform call memory s t) : s.drawn ≤ t.drawn := by
  cases acted with
  | idle same => exact Nat.le_of_eq (congrArg World.drawn same.symm)
  | issued params load asked own loaded made =>
    rw [made]
    exact Nat.le_add_right _ 2
  | used request find load record asked own found made =>
    rw [made]
    rcases use_cases record s with idle | ⟨_,_,_,_,_,changed⟩
    · exact Nat.le_of_eq (by rw [idle])
    · exact Nat.le_of_eq (by rw [changed])

theorem uses_spent {later earlier : History} {event : Event CallId Call World} (outside : ∀ s t, other s t → Outside s t)
    (empty : initial.records = Dict.empty) (along : Along (Does platform) (later ++ event :: earlier))
    (linked : Linked other initial (later ++ event :: earlier) s)
    (uses : Uses platform past code params issuedAt event.before event.after) : Spent platform issuedAt.drawn event.after := by
  obtain ⟨current,stored,_⟩ := uses.unused
  have known := stocked_along outside empty (along_at along).2 (linked_at linked) _ current stored
  obtain ⟨_,_,at_,_,named,drawn,_⟩ := known
  have same := platform.random.injective named
  have grown := (does_acted (along_at along).1).drawn
  exact ⟨by omega,uses.used⟩

theorem uses_once (outside : ∀ s t, other s t → Outside s t) (empty : initial.records = Dict.empty)
    (along : Along (Does platform) past) (linked : Linked other initial past s) {one two : Event CallId Call World}
    (first : one ∈ past) (second : two ∈ past) (uses : Uses platform past code params issuedAt one.before one.after)
    (uses' : Uses platform past code params' issuedAt' two.before two.after) : one.who = two.who := by
  have same : issuedAt.drawn = issuedAt'.drawn := by
    obtain ⟨_,_,_,_,_,_,_,drawn⟩ := uses.issued
    obtain ⟨_,_,_,_,_,_,_,drawn'⟩ := uses'.issued
    exact platform.random.injective (drawn.symm.trans drawn')
  have clash : ∀ {w w'} {n : Nat} {params : IssueCodeParams} {at_ : World}, Spent platform n w →
      Uses platform past code params at_ w w' → n = at_.drawn → False := by
    intro w w' n params at_ spent uses equal
    obtain ⟨_,current,stored,used⟩ := spent
    obtain ⟨unused,present,none⟩ := uses.unused
    rw [equal,present] at stored
    cases stored
    exact used none
  obtain ⟨earlier,later,split⟩ := List.append_of_mem first
  obtain ⟨earlier',later',split'⟩ := List.append_of_mem second
  rcases compare_places (split.symm.trans split') with ⟨middle,_,rest⟩ | equal | ⟨middle,_,rest⟩
  · have spent := spent_since outside along linked split' (uses_spent outside empty (split' ▸ along) (split' ▸ linked) uses')
    exact (clash (spent one (rest ▸ by simp)) uses same.symm).elim
  · rw [equal]
  · have spent := spent_since outside along linked split (uses_spent outside empty (split ▸ along) (split ▸ linked) uses)
    exact (clash (spent two (rest ▸ by simp)) uses' same).elim

end

-- What holds of every exchange that returns tokens: the code was issued for this
-- redirect URI, the verifier fits a challenge that is not empty, and the action
-- that uses the code up comes before it expires.
structure Redeemed (platform : Platform) (past : History) (i : CallId) (request : TokenRequest) (params : IssueCodeParams) :
    Prop where
  used : ∃ event ∈ past, event.who = i ∧
    ∃ issuedAt, Uses platform past request.code params issuedAt event.before event.after
  redirectUri : params.redirectUri = request.redirectUri
  verified : ∀ challenge, truthy params.codeChallenge = some challenge →
    verifyPkce platform (request.codeVerifier.getD "") params.codeChallenge params.codeChallengeMethod = true

-- What the engine does not check.
structure ClientBound (platform : Platform) (past : History) (i : CallId) (request : TokenRequest) (params : IssueCodeParams) :
    Prop where
  client : params.clientId = request.clientId
  verified : ∀ challenge, params.codeChallenge = some challenge →
    verifyPkce platform (request.codeVerifier.getD "") params.codeChallenge params.codeChallengeMethod = true
  challenged : ∀ event ∈ past, event.who = i → ∀ client, event.before.clients.get? request.clientId = some client →
    client.isConfidential = false → params.codeChallenge.isSome

-- Clients present the codes that were issued to them, and codes of public
-- clients are issued with a challenge.
def Proper (platform : Platform) (past : History) (event : Event CallId Call World) : Prop :=
  match event.call with
  | .issueCode params => params.codeChallenge ≠ some "" ∧ ∀ client, event.before.clients.get? params.clientId = some client →
      client.isConfidential = false → params.codeChallenge.isSome
  | .exchange request => ∀ params issuedAt, Issued platform past request.code params issuedAt → params.clientId = request.clientId
  | .clientCredentials .. => True

theorem finished_call {past : History} {other : World → World → Prop} {initial : World} {c : Config CallId Call World Error Reply}
    (traced : Traced (program service) other initial past c) (finished : c.Finished i call result) (listed : event ∈ past)
    (own : event.who = i) : event.call = call := by
  obtain ⟨p,running⟩ := traced_call traced listed
  rw [own] at running
  unfold Config.Finished at finished
  rw [finished] at running
  cases running
  rfl

theorem client_bound {past : History} {other : World → World → Prop} {initial : World} {c : Config CallId Call World Error Reply}
    (outside : ∀ s t, other s t → Outside s t) (along : Along (Does service.platform) past) (linked : Linked other initial past s)
    (traced : Traced (program service) other initial past c) (finished : c.Finished i (.exchange request) result)
    (proper : ∀ event ∈ past, Proper service.platform past event)
    (redeemed : Redeemed service.platform past i request params) : ClientBound service.platform past i request params := by
  obtain ⟨event,listed,own,issuedAt,uses⟩ := redeemed.used
  have asked := proper event listed
  unfold Proper at asked
  rw [finished_call traced finished listed own] at asked
  have client : params.clientId = request.clientId := asked params issuedAt uses.issued
  obtain ⟨later,issue,earlier,split,call,⟨load,moves,loaded⟩,_⟩ := uses.issued
  have inPast : issue ∈ past := by simp [split]
  have issued := proper issue inPast
  unfold Proper at issued
  rw [call] at issued
  obtain ⟨given,challenged⟩ := issued
  refine ⟨client,?_,?_⟩
  · intro challenge some
    apply redeemed.verified challenge
    rw [some]
    apply truthy_given
    rintro rfl
    exact given some
  · -- the client was public already where its code was issued
    intro one present who found loadedNow isPublic
    obtain ⟨between,loading,older,split',_,same,_⟩ := mine_split [] moves
    cases same
    obtain ⟨old,stored⟩ := Option.isSome_iff_exists.mp loaded
    have whole : past = (later ++ issue :: between) ++ loading :: older := by simp [split,split']
    have kind : Kind params.clientId old.isConfidential issue.before :=
      kinds_since outside along linked whole ⟨old,stored,rfl⟩ issue (by simp)
    have kind' : Kind params.clientId false one.before := client ▸ ⟨found,loadedNow,isPublic⟩
    have agreed := kinds_agree outside along linked inPast present kind kind'
    obtain ⟨then_,was,confidential⟩ := kind
    exact challenged then_ was (confidential.trans agreed)

-- Over every interleaving: what an exchange checks, and that no code serves two;
-- the rest holds where the calls are proper.
theorem authorization_codes_bound (service : OAuthService) (other : World → World → Prop) (initial : World) (past : History)
    (c : Config CallId Call World Error Reply) (outside : ∀ s t, other s t → Outside s t)
    (empty : initial.records = Dict.empty) (traced : Traced (program service) other initial past c) :
    (∀ i request response, c.Finished i (.exchange request) (.ok response) → ∃ params,
      Redeemed service.platform past i request params ∧
        ((∀ event ∈ past, Proper service.platform past event) → ClientBound service.platform past i request params)) ∧
    ∀ i j request request' response response', c.Finished i (.exchange request) (.ok response) →
      c.Finished j (.exchange request') (.ok response') → request.code = request'.code → i = j := by
  have kept : Kept (fun _ => True) (Does service.platform) (Ends service.platform) past c :=
    (traced_inv (acts_program service) (fun _ _ => trivial) (fun _ _ => trivial) trivial traced).1
  have linked := traced_linked traced
  have through : ∀ i request response, c.Finished i (.exchange request) (.ok response) →
      Exchanged service.platform request (mine i past) := by
    intro i request response finished
    exact kept.busy i _ _ finished
  constructor
  · intro i request response finished
    obtain ⟨params,issuedAt,⟨event,listed,own,uses⟩,redirect,verified,_⟩ :=
      exchanged_uses outside empty kept.along linked (through i request response finished)
    have redeemed : Redeemed service.platform past i request params := ⟨⟨event,listed,own,issuedAt,uses⟩,redirect,verified⟩
    exact ⟨params,redeemed,fun proper => client_bound outside kept.along linked traced finished proper redeemed⟩
  · intro i j request request' response response' first second same
    obtain ⟨params,issuedAt,⟨one,listed,own,uses⟩,_⟩ :=
      exchanged_uses outside empty kept.along linked (through i request response first)
    obtain ⟨params',issuedAt',⟨two,listed',own',uses'⟩,_⟩ :=
      exchanged_uses outside empty kept.along linked (through j request' response' second)
    rw [← same] at uses'
    exact own.symm.trans ((uses_once outside empty kept.along linked listed listed' uses uses').trans own')

-- Two public clients with one redirect URI.
def publicClient (clientId : String) : OAuthClientRecord := ⟨clientId,["https://app.example.com/cb"],false,none,true⟩

def twoClients : World :=
  ⟨0,0,(Dict.empty.set "alpha" (publicClient "alpha")).set "beta" (publicClient "beta"),Dict.empty⟩

def sampleGrant : OAuthService := ⟨Auth.samplePlatform,fun context _ _ => .ok ⟨context.userId,none,none,some 900⟩⟩

def alphaParams : IssueCodeParams :=
  ⟨"tenant","application","alpha","user","session","https://app.example.com/cb",["openid"],none,none,some "verifier",some .plain,
    .oauth⟩

def requestBy (clientId : String) : TokenRequest :=
  ⟨clientId,none,"https://app.example.com/cb",Auth.samplePlatform.random.fresh 0,some "verifier"⟩

def isolated (_ _ : World) : Prop := False

def grantCues (clientId : String) : List (Cue CallId Call World) :=
  [.start 0 (.issueCode alphaParams),.act 0,.act 0,.start 1 (.exchange (requestBy clientId)),.act 1,.act 1,.act 1,.act 1]

def answers (c : Config CallId Call World Error Reply) (i : CallId) (call : Call) (check : Reply → Bool) : Bool :=
  match c.calls i with
  | some (asked,.done (.ok reply)) => asked = call && check reply
  | _ => false

theorem answers_finished {c : Config CallId Call World Error Reply} (answered : answers c i call check = true) :
    ∃ reply, c.Finished i call (.ok reply) ∧ check reply = true := by
  unfold answers at answered
  split at answered
  · rename_i asked reply running
    simp only [Bool.and_eq_true,decide_eq_true_eq] at answered
    obtain ⟨rfl,shown⟩ := answered
    exact ⟨reply,running,shown⟩
  · cases answered

def codeIs (code : String) : Reply → Bool
  | .code issued => issued.code = code
  | .tokens _ => false

theorem codeIs_some (shown : codeIs code reply = true) : ∃ issued, reply = .code issued ∧ issued.code = code := by
  cases reply with
  | code issued => exact ⟨issued,rfl,of_decide_eq_true shown⟩
  | tokens _ => cases shown

theorem code_of_another_client : ∃ past c issued response, Traced (program sampleGrant) isolated twoClients past c ∧
    c.Finished 0 (.issueCode alphaParams) (.ok (.code issued)) ∧ issued.code = (requestBy "beta").code ∧
    c.Finished 1 (.exchange (requestBy "beta")) (.ok response) ∧ alphaParams.clientId ≠ (requestBy "beta").clientId := by
  have performed : (perform (program sampleGrant) [] (start twoClients) (grantCues "beta")).any (fun after =>
      answers after.2 0 (.issueCode alphaParams) (codeIs (requestBy "beta").code) &&
        answers after.2 1 (.exchange (requestBy "beta")) fun _ => true) = true := by decide +kernel
  obtain ⟨past,c,traced,checked⟩ := perform_exists performed (by simp [grantCues])
  rw [Bool.and_eq_true] at checked
  obtain ⟨reply,first,shown⟩ := answers_finished checked.1
  obtain ⟨response,second,_⟩ := answers_finished checked.2
  obtain ⟨issued,rfl,same⟩ := codeIs_some shown
  exact ⟨past,c,issued,response,traced,first,same,second,by decide⟩

def alphaOnly : Call → Bool
  | .issueCode params => params.clientId = "alpha" && params.codeChallenge = some "verifier"
  | .exchange request => request.clientId = "alpha"
  | .clientCredentials .. => true

theorem alphaOnly_proper {past : History} (all : past.all (fun event => alphaOnly event.call) = true) :
    ∀ event ∈ past, Proper platform past event := by
  have each : ∀ event ∈ past, alphaOnly event.call = true := List.all_eq_true.mp all
  intro event listed
  have own := each event listed
  unfold Proper
  cases asked : event.call with
  | issueCode params =>
    rw [asked] at own
    simp only [alphaOnly,Bool.and_eq_true,decide_eq_true_eq] at own
    dsimp only
    rw [own.2]
    exact ⟨by decide,fun _ _ _ => rfl⟩
  | exchange request =>
    rw [asked] at own
    intro params issuedAt issued
    obtain ⟨later,issue,earlier,split,call,_⟩ := issued
    have known := each issue (by simp [split])
    rw [call] at known
    simp only [alphaOnly,Bool.and_eq_true,decide_eq_true_eq] at known own
    exact known.1.trans own.symm
  | clientCredentials clientId clientSecret scope => trivial

theorem code_exchanged : ∃ past c response params, Traced (program sampleGrant) isolated twoClients past c ∧
    c.Finished 1 (.exchange (requestBy "alpha")) (.ok response) ∧
    ClientBound sampleGrant.platform past 1 (requestBy "alpha") params := by
  have performed : (perform (program sampleGrant) [] (start twoClients) (grantCues "alpha")).any (fun after =>
      answers after.2 1 (.exchange (requestBy "alpha")) (fun _ => true) && after.1.all fun event => alphaOnly event.call) =
      true := by decide +kernel
  obtain ⟨past,c,traced,checked⟩ := perform_exists performed (by simp [grantCues])
  rw [Bool.and_eq_true] at checked
  obtain ⟨response,finished,_⟩ := answers_finished checked.1
  have outside : ∀ s t, isolated s t → Outside s t := fun _ _ moved => moved.elim
  obtain ⟨params,_,bound⟩ :=
    (authorization_codes_bound sampleGrant isolated twoClients past c outside rfl traced).1 1 _ response finished
  exact ⟨past,c,response,params,traced,finished,bound (alphaOnly_proper checked.2)⟩

end Pezhwan.CodeGrant
