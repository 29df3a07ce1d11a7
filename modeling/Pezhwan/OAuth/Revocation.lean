import Pezhwan.OAuth.Aging
import Pezhwan.Auth.Versions
import Pezhwan.Atomic.Focus

namespace Pezhwan.OAuth
open Atomic Prog Auth

-- What is asked of the servers that share the sessions: engines of whatever
-- applications, and OAuth services.
inductive Request (sessions : Session.SessionService) where
  | auth (engine : AuthEngine) (shared : engine.sessions = sessions) (call : Auth.Call)
  | operation (engine : AuthEngine) (shared : engine.sessions = sessions) (authorization : AuthorizationService)
      (operation : Operation)
  | oauth (service : OAuthService) (shared : service.sessions = sessions) (call : Call)

def serve {sessions : Session.SessionService} : Request sessions → Auth.Program Unit
  | .auth engine _ call => (fun _ => ()) <$> Auth.program engine call
  | .operation engine _ authorization operation => (fun _ => ()) <$> operate engine authorization operation
  | .oauth service _ call => (fun _ => ()) <$> program service call

-- The user ids that a request gives are spelled as they print. Another spelling is
-- cast where the account is looked up, and kept as it is in the sessions.
def Spelled (userId : String) : Prop := objectId userId = userId

def Request.Spells {sessions : Session.SessionService} : Request sessions → Prop
  | .auth _ _ (.verifyMfaLogin input) => Spelled input.userId
  | .operation _ _ _ (.changePassword input) => Spelled input.userId
  | .operation _ _ _ (.assignRole input) => Spelled input.userId
  | .operation _ _ _ (.removeRole input) => Spelled input.userId
  | .oauth _ _ (.authorizeCode input) => Spelled input.userId
  | .oauth _ _ (.session (.create ctx)) => Spelled ctx.userId
  | _ => True

-- Whatever else goes on starts no session.
def Passing (s t : World) : Prop := Session.Aged ⟨s.base,s.sessions⟩ ⟨t.base,t.sessions⟩

abbrev Run (sessions : Session.SessionService) : World → World → Prop :=
  Sequence (@serve sessions) Passing fun _ request => request.Spells

-- The request hands in the token for new tokens.
def Request.Presents {sessions : Session.SessionService} (token : String) : Request sessions → Prop
  | .auth _ _ (.refreshSession presented _) => presented = token
  | .oauth _ _ (.exchange input) => input.grantType = "refresh_token" ∧ input.refreshToken = some token
  | _ => False

def changesCredential : Operation → Bool
  | .changePassword _ | .resetPassword _ | .resetPasswordWithToken _ => true
  | .assignRole _ | .removeRole _ => false

structure Changes (engine : AuthEngine) (authorization : AuthorizationService) (operation : Operation) : Prop where
  credential : changesCredential operation = true
  spells : (Request.operation engine rfl authorization operation).Spells

-- The sessions of its user that an operation looks for to end them.
def ends : Operation → Session.SessionDoc → Bool
  | .resetPassword input,doc => (truthy (some input.applicationId)).all (doc.applicationId = ·)
  | .resetPasswordWithToken input,doc => (truthy (some input.applicationId)).all (doc.applicationId = ·)
  | _,_ => false

def Covers (operation : Operation) (userId : String) (w : World) : Prop :=
  ∀ doc ∈ w.sessions.docs, doc.userId = userId → doc.status = .active → ends operation doc = true

section
variable {sessions : Session.SessionService}

theorem evolves_operate (engine : AuthEngine) (shared : engine.sessions = sessions) (authorization : AuthorizationService)
    (operation : Operation) : (operate engine authorization operation).Moves (Evolves sessions) := by
  cases operation with
  | changePassword input => exact (evolves_spared (spared_changePassword engine input)).map
  | resetPassword input => exact (evolves_resetPassword engine shared input).map
  | resetPasswordWithToken input => exact (evolves_resetPasswordWithToken engine shared input).map
  | assignRole input => exact (evolves_spared (spared_assignRole authorization input)).map
  | removeRole input => exact (evolves_spared (spared_removeRole authorization input)).map

theorem evolves_serve (request : Request sessions) : (serve request).Moves (Evolves sessions) := by
  cases request with
  | auth engine shared call => exact (Auth.evolves_program engine shared call).map
  | operation engine shared authorization operation => exact (evolves_operate engine shared authorization operation).map
  | oauth service shared call => exact (evolves_program service shared call).map

theorem run_evolves (run : Run sessions s t) : Evolves sessions s t := by
  refine Sequence.invariant (fun i request middle (evolved : Evolves sessions s middle) _ => ?_) ?_ (evolves_refl s) run
  · exact evolves_trans evolved (evolves_serve request i middle)
  · intro middle later evolved passing
    exact evolves_trans evolved (Session.aged_evolves passing)

-- The sessions with the token are the user's, and each active one satisfies `covered`.
def Confined (sessions : Session.SessionService) (token userId : String) (covered : Session.SessionDoc → Bool)
    (w : World) : Prop :=
  ∀ doc ∈ w.sessions.docs, doc.currentRefreshTokenHash = sessions.hashRefreshToken token →
    doc.userId = userId ∧ (doc.status = .active → covered doc = true)

theorem confined_spared (confined : Confined sessions token userId covered s) (spared : Spared s t) :
    Confined sessions token userId covered t := by
  unfold Confined
  rw [spared.1]
  exact confined

-- The sessions that both resets end.
def inApplication (applicationId : String) (doc : Session.SessionDoc) : Bool :=
  (truthy (some applicationId)).all (doc.applicationId = ·)

theorem finishReset_dead {engine : AuthEngine} (shared : engine.sessions = sessions)
    (returned : Returns i (engine.finishReset user applicationId password device authMethod) w value t)
    (drawn : n < w.base.draws.length)
    (confined : value.1.id = user.id →
      Confined sessions (sessions.random.fresh n) user.id (inApplication applicationId) w) :
    Session.Dead sessions (sessions.random.fresh n) t.sessions.docs := by
  obtain ⟨newHash,a,hashed,rest⟩ := returns_bind.mp returned
  obtain ⟨_,b,stored,rest⟩ := returns_bind.mp rest
  obtain ⟨_,c,forgot,rest⟩ := returns_bind.mp rest
  obtain ⟨_,d,revoked,rest⟩ := returns_bind.mp rest
  have before : Spared w c := spared_trans (((kept_hashPassword spared_parts _ _).moves spared_refl spared_trans).returns hashed)
    (spared_trans (((kept_updateUser spared_parts _ _).moves spared_refl spared_trans).returns stored)
      (((kept_cacheDel spared_parts _).moves spared_refl spared_trans).returns forgot))
  have answered : value.1 = user := by
    obtain ⟨created,e,_,minted⟩ := returns_bind.mp rest
    obtain ⟨tokens,f,_,answer⟩ := returns_bind.mp minted
    obtain ⟨same,_⟩ := returns_pure.mp answer
    rw [← same]
  have known := confined_spared (confined (by rw [answered])) before
  obtain ⟨u,ended,same⟩ := (returns_zoom sessionLens).mp revoked
  have dead : Session.Dead sessions (sessions.random.fresh n) u.store.docs := by
    apply Session.revokeAll_dead ended
    intro doc member hash active
    obtain ⟨owner,covered⟩ := known doc member hash
    simp only [Session.ownedBy,owner,active,decide_true,Bool.true_and,truthy_none,Option.all_none,Bool.and_true]
    exact covered active
  have counted := (Session.aged_revokeAll _ _ _).moves Session.aged_refl Session.aged_trans |>.returns ended
  subst same
  have opened := (evolves_issued engine shared _ _ _ _ _ _ _).returns rest
  exact Session.dead_evolves dead (Nat.lt_of_lt_of_le (Nat.lt_of_lt_of_le drawn before.2) counted.draws) opened

theorem foundReset_dead {engine : AuthEngine} (shared : engine.sessions = sessions) {missing : Auth.Program (UserDoc × IssuedTokens)}
    (absent : ∀ b, ¬ Returns i missing b value t) (before : Spared w s)
    (returned : Returns i (do
      match ← engine.findUser handle with
      | none => missing
      | some user => engine.finishReset user applicationId password device authMethod) s value t)
    (drawn : n < w.base.draws.length)
    (confined : Confined sessions (sessions.random.fresh n) value.1.id (inApplication applicationId) w) :
    Session.Dead sessions (sessions.random.fresh n) t.sessions.docs := by
  obtain ⟨found,b,looked,rest⟩ := returns_bind.mp returned
  have here := spared_trans before (((kept_read spared_parts _).moves spared_refl spared_trans).returns looked)
  cases found with
  | none => exact absurd rest (absent b)
  | some user =>
    apply finishReset_dead shared rest (Nat.lt_of_lt_of_le drawn here.2)
    intro same
    exact same ▸ confined_spared confined here

theorem change_dead {engine : AuthEngine} (shared : engine.sessions = sessions) {authorization : AuthorizationService}
    (credential : changesCredential operation = true)
    (returned : Returns i (operate engine authorization operation) w userId t) (drawn : n < w.base.draws.length)
    (confined : Confined sessions (sessions.random.fresh n) userId (ends operation) w) :
    Session.Dead sessions (sessions.random.fresh n) t.sessions.docs := by
  cases operation with
  | changePassword input =>
    have spared := ((spared_changePassword engine input).moves spared_refl spared_trans).map.returns returned
    intro doc member hash active
    rw [spared.1] at member
    have covered := (confined doc member hash).2 active
    cases covered
  | resetPassword input =>
    obtain ⟨answer,u,changed,named⟩ := returns_bind.mp returned
    obtain ⟨rfl,rfl⟩ := returns_pure.mp named
    obtain ⟨_,a,checked,rest⟩ := returns_bind.mp changed
    obtain ⟨verified,b,consumed,rest⟩ := returns_bind.mp rest
    have before : Spared w b := spared_trans (((kept_checkPassword _ _).moves spared_refl spared_trans).returns checked)
      (((kept_verifyOtp spared_parts _ _ _ _ _ _).moves spared_refl spared_trans).returns consumed)
    split at rest
    · exact foundReset_dead shared (fun _ => returns_throw) before rest drawn confined
    · exact absurd rest returns_throw
  | resetPasswordWithToken input =>
    obtain ⟨answer,u,changed,named⟩ := returns_bind.mp returned
    obtain ⟨rfl,rfl⟩ := returns_pure.mp named
    obtain ⟨_,a,checked,rest⟩ := returns_bind.mp changed
    obtain ⟨redeemed,b,consumed,rest⟩ := returns_bind.mp rest
    have before : Spared w b := spared_trans (((kept_checkPassword _ _).moves spared_refl spared_trans).returns checked)
      (((kept_redeem spared_parts _ _ _).moves spared_refl spared_trans).returns consumed)
    split at rest
    · exact foundReset_dead shared (fun _ => returns_throw) before rest drawn confined
    · exact absurd rest returns_throw
  | assignRole input => cases credential
  | removeRole input => cases credential

theorem presented_refused (dead : Session.Dead sessions token w.sessions.docs) {request : Request sessions}
    (presents : request.Presents token) : ¬ Returns i (serve request) w () t := by
  intro returned
  cases request with
  | operation engine shared authorization operation => exact presents
  | auth engine shared call =>
    rw [← shared] at dead
    cases call with
    | refreshSession presented device =>
      obtain rfl := presents
      obtain ⟨_,a,replied,_⟩ := returns_bind.mp returned
      obtain ⟨_,b,issued,_⟩ := returns_bind.mp replied
      obtain ⟨created,c,rotated,_⟩ := returns_bind.mp issued
      obtain ⟨u,refreshed,_⟩ := (returns_zoom sessionLens).mp rotated
      exact Session.refresh_dead dead _ created refreshed
    | _ => exact presents
  | oauth service shared call =>
    rw [← shared] at dead
    cases call with
    | exchange input =>
      obtain ⟨grant,given⟩ := presents
      obtain ⟨_,a,replied,_⟩ := returns_bind.mp returned
      obtain ⟨_,b,exchanged,_⟩ := returns_bind.mp replied
      obtain ⟨client,c,authenticated,rest⟩ := returns_bind.mp exchanged
      have spared := ((spared_authenticate service _ _ _ _).moves spared_refl spared_trans).returns authenticated
      split at rest
      · exact returns_throw rest
      · rw [grant] at rest
        have renewed : Returns i (service.exchangeRefreshToken client input) c _ b := rest
        unfold OAuthService.exchangeRefreshToken at renewed
        split at renewed
        · exact returns_throw renewed
        · split at renewed
          · exact returns_throw renewed
          · rename_i presented present
            have same : token = presented := Option.some.inj (given.symm.trans (Pezhwan.truthy_some present))
            obtain ⟨created,d,rotated,_⟩ := returns_bind.mp renewed
            obtain ⟨u,refreshed,_⟩ := (returns_zoom sessionLens).mp rotated
            have kept : Session.Dead service.sessions token c.sessions.docs := spared.1 ▸ dead
            exact Session.refresh_dead (same ▸ kept) _ created refreshed
    | _ => exact presents

end

-- A credential change that reaches every active session of its user, in a run where
-- ids are spelled in one way: no token of the user's from before is exchanged after it.
theorem credential_change_ends_tokens (engine : AuthEngine) (authorization : AuthorizationService)
    (start issued before after later : World) (empty : start.sessions.docs = [])
    (first : Run engine.sessions start issued) (doc : Session.SessionDoc) (member : doc ∈ issued.sessions.docs)
    (token : String) (hash : doc.currentRefreshTokenHash = engine.sessions.hashRefreshToken token)
    (second : Run engine.sessions issued before) (operation : Operation)
    (changes : Changes engine authorization operation) (i : CallId)
    (changed : Returns i (operate engine authorization operation) before doc.userId after)
    (covers : Covers operation doc.userId before) (third : Run engine.sessions after later)
    (request : Request engine.sessions) (presents : request.Presents token) (j : CallId) (t : World) :
    ¬ Returns j (serve request) later () t := by
  obtain ⟨owner,made⟩ := run_evolves first
  obtain ⟨holder,grown⟩ := run_evolves second
  obtain ⟨old,present,_⟩ | ⟨n,_,drawn,holds⟩ := made.docs doc member
  · rw [empty] at present
    cases present
  · have same := engine.sessions.hash_injective (hash.symm.trans holds.1)
    have confined : Confined engine.sessions (engine.sessions.random.fresh n) doc.userId (ends operation) before := by
      intro other listed known
      have owned : other.userId = doc.userId := by
        rcases grown.docs other listed with ⟨earlier,stored,ages⟩ | ⟨m,late,_,other'⟩
        · rcases made.docs earlier stored with ⟨none,impossible,_⟩ | ⟨m,_,_,held⟩
          · rw [empty] at impossible
            cases impossible
          · have token' := engine.sessions.hash_injective ((ages.1.symm.trans known).symm.trans held.1)
            have index := engine.sessions.random.injective token'
            rw [ages.2.1,held.2,← index,holds.2]
        · have token' := engine.sessions.hash_injective (known.symm.trans other'.1)
          have index := engine.sessions.random.injective token'
          dsimp only at late drawn
          omega
      exact ⟨owned,covers other listed owned⟩
    have counted : n < before.base.draws.length := Nat.lt_of_lt_of_le drawn grown.draws
    have dead := change_dead rfl changes.credential changed counted confined
    have moved := (evolves_operate engine rfl authorization operation).returns changed
    have still := Session.dead_evolves dead (Nat.lt_of_lt_of_le counted moved.choose_spec.draws) (run_evolves third)
    rw [← same] at still
    exact presented_refused still presents

def login : Request sampleEngine.sessions :=
  .auth sampleEngine rfl (.loginPassword ⟨"application",some "user@example.com",none,"Passw0rd",anyDevice⟩)

-- An account with a code for a new password.
def forgetful : World :=
  {soleAccount sampleUser with otps :=
    [⟨"otp","tenant","application",.email,"user@example.com",.password_reset,samplePlatform.sha256 "000000",1000,0,false⟩]}

def signedIn : World := ((serve login).run 0 forgetful).2

theorem signedIn_run : Run sampleEngine.sessions forgetful signedIn := Sequence.after .refl 0 trivial

def heldBy (userId token : String) (doc : Session.SessionDoc) : Bool :=
  doc.userId = userId && doc.currentRefreshTokenHash = sampleEngine.sessions.hashRefreshToken token

theorem signedIn_held : ∃ doc ∈ signedIn.sessions.docs, doc.userId = "user" ∧
    doc.currentRefreshTokenHash = sampleEngine.sessions.hashRefreshToken "xx" := by
  have held : signedIn.sessions.docs.any (heldBy "user" "xx") = true := by decide +kernel
  obtain ⟨doc,member,found⟩ := List.any_eq_true.mp held
  simp only [heldBy,Bool.and_eq_true,decide_eq_true_eq] at found
  exact ⟨doc,member,found⟩

def newPassword : Operation := .resetPassword ⟨"application",.email,"user@example.com","000000","N3wpassword",anyDevice⟩

def presentAgain : Request sampleEngine.sessions := .auth sampleEngine rfl (.refreshSession "xx" anyDevice)

theorem credential_change_ends_tokens_reset : ∃ after,
    Returns 1 (operate sampleEngine ⟨true⟩ newPassword) signedIn "user" after ∧
      ∀ j t, ¬ Returns j (serve presentAgain) after () t := by
  have ran : endsWith 1 (operate sampleEngine ⟨true⟩ newPassword) signedIn (fun userId _ => userId = "user") = true := by
    decide +kernel
  obtain ⟨userId,after,returned,named⟩ := endsWith_ends.mp ran
  cases of_decide_eq_true named
  obtain ⟨doc,member,owner,hash⟩ := signedIn_held
  have covered : signedIn.sessions.docs.all (ends newPassword) = true := by decide +kernel
  refine ⟨after,returned,?_⟩
  exact credential_change_ends_tokens sampleEngine ⟨true⟩ forgetful signedIn signedIn after after rfl signedIn_run doc member
    "xx" hash .refl newPassword ⟨rfl,trivial⟩ 1 (owner ▸ returned) (fun other listed _ _ => List.all_eq_true.mp covered other listed)
    .refl presentAgain rfl

def changedPassword : Operation := .changePassword ⟨"user","application","Passw0rd","N3wpassword"⟩

theorem changed_password_keeps_tokens : Run sampleEngine.sessions forgetful signedIn ∧
    (∃ doc ∈ signedIn.sessions.docs, doc.userId = "user" ∧
      doc.currentRefreshTokenHash = sampleEngine.sessions.hashRefreshToken "xx") ∧
    ∃ after, Returns 1 (operate sampleEngine ⟨true⟩ changedPassword) signedIn "user" after ∧
      ∃ tokens t, Returns 2 (sampleEngine.refreshSession "xx" anyDevice) after tokens t ∧ tokens.accessToken.sub = "user" := by
  have ran : endsWith 1 (operate sampleEngine ⟨true⟩ changedPassword) signedIn (fun userId after => userId = "user" &&
      endsWith 2 (sampleEngine.refreshSession "xx" anyDevice) after fun tokens _ => tokens.accessToken.sub = "user") = true := by
    decide +kernel
  obtain ⟨userId,after,returned,checked⟩ := endsWith_ends.mp ran
  simp only [Bool.and_eq_true,decide_eq_true_eq] at checked
  obtain ⟨rfl,again⟩ := checked
  obtain ⟨tokens,t,refreshed,sub⟩ := endsWith_ends.mp again
  exact ⟨signedIn_run,signedIn_held,after,returned,tokens,t,refreshed,of_decide_eq_true sub⟩

end Pezhwan.OAuth
