import Pezhwan.Atomic.Effect
import Pezhwan.Auth.Total
import Mathlib.Data.Set.Basic

namespace Pezhwan.Auth.Recovery
open Atomic Prog Discipline

inductive Request where
  | passwordForgot (email redirectUri : Option String)
  | passwordResetConfirm (token newPassword : Option String)
  | emailVerifyToken (token : Option String)
  | magicSend (email redirectUri : Option String)
  | magicRedeem (token : Option String)

inductive Response where
  | issued (result : AuthEngine.IssueResult)
  | message (text : String)
  | session (tokens : IssuedTokens) (user : UserDoc) (redirectUri : Option String)

def Request.texts : Request → List String
  | .passwordForgot email redirectUri | .magicSend email redirectUri => email.toList ++ redirectUri.toList
  | .passwordResetConfirm token newPassword => token.toList ++ newPassword.toList
  | .emailVerifyToken token | .magicRedeem token => token.toList

-- What the client can read in a response. Error texts are constants of the program.
def Response.texts : Response → List String
  | .issued result => [result.token]
  | .message text => [text]
  | .session tokens user redirectUri => [tokens.refreshToken,tokens.accessToken.sub,tokens.accessToken.sessionId,
      tokens.accessToken.jti,user.id,user.tenantId] ++ user.email.toList ++ user.phone.toList ++
      user.passwordHash.toList ++ redirectUri.toList

def Response.TokensFor (userId : String) : Response → Prop
  | .session tokens _ _ => tokens.accessToken.sub = userId ∨ tokens.session.userId = userId
  | _ => False

def route (engine : AuthEngine) (device : DeviceInfo) : Request → Program Response
  | .passwordForgot email redirectUri => match truthy email with
    | none => raise .validation "email is required" "EMAIL_REQUIRED"
    | some email => Response.issued <$> engine.forgotPassword ⟨engine.applicationId,email,redirectUri⟩
  | .passwordResetConfirm token newPassword => match truthy token,truthy newPassword with
    | some token,some newPassword => (fun result => .session result.2 result.1 none) <$>
        engine.resetPasswordWithToken ⟨engine.applicationId,token,newPassword,device⟩
    | _,_ => raise .validation "token and newPassword are required" "PARAMS_REQUIRED"
  | .emailVerifyToken token => match truthy token with
    | none => raise .validation "token is required" "TOKEN_REQUIRED"
    | some token => (fun _ => .message "Email verified") <$> engine.verifyEmailToken token
  | .magicSend email redirectUri => match truthy email with
    | none => raise .validation "email is required" "EMAIL_REQUIRED"
    | some email => Response.issued <$> engine.sendMagicLink ⟨engine.applicationId,email,redirectUri⟩
  | .magicRedeem token => match truthy token with
    | none => raise .validation "token is required" "TOKEN_REQUIRED"
    | some token => (fun result => .session result.tokens result.user result.redirectUri) <$>
        engine.redeemMagicLink token device

-- Every stored token was drawn from the stream.
def Drawn (platform : Platform) (w : World) : Prop :=
  ∀ doc ∈ w.verificationTokens, ∃ n, doc.tokenHash = platform.sha256 (platform.random.fresh n)

-- A client with what it knows and what it has been answered. It may work out new
-- texts, but never one of the stream; the rest of the system may move
-- everything except the users, and issues only drawn tokens. A request refused
-- by the rate limiter changes nothing.
inductive Run (engine : AuthEngine) (permit : Request → World → Prop) (start : World) (known : Set String) :
    World → Set String → List Response → Prop where
  | nil : Run engine permit start known start known []
  | thinks (run : Run engine permit start known w knows answers) (more : knows ⊆ knows')
      (unguessed : ∀ n, engine.platform.random.fresh n ∈ knows' → engine.platform.random.fresh n ∈ knows) :
      Run engine permit start known w knows' answers
  | elsewhere (run : Run engine permit start known w knows answers) (users : w'.users = w.users)
      (drawn : Drawn engine.platform w → Drawn engine.platform w') : Run engine permit start known w' knows answers
  | answered (run : Run engine permit start known w knows answers) (own : ∀ text ∈ request.texts, text ∈ knows)
      (permitted : permit request w) (ran : (route engine device request).run i w = (.ok response,t)) :
      Run engine permit start known t (knows ∪ {text | text ∈ response.texts}) (answers ++ [response])
  | refused (run : Run engine permit start known w knows answers) (own : ∀ text ∈ request.texts, text ∈ knows)
      (permitted : permit request w) (ran : (route engine device request).run i w = (.error e,t)) :
      Run engine permit start known t knows answers

-- No token is asked for on behalf of an account the engine can find.
def Nobody (engine : AuthEngine) (request : Request) (w : World) : Prop :=
  ∀ email redirectUri, request = .passwordForgot (some email) redirectUri ∨ request = .magicSend (some email) redirectUri →
    engine.userFor (AuthEngine.byHandle (some (engine.platform.toLowerCase email)) none) w.users = none

-- Texts that no stored token hash belongs to.
def Unknown (platform : Platform) (w : World) (token : String) : Prop :=
  ∀ doc ∈ w.verificationTokens, doc.tokenHash ≠ platform.sha256 token

theorem run_op {f : CallId → World → Except MongoError (α × World)} (i : CallId) (w : World) :
    (op f).run i w = match w.base.fault with
      | some e => (.error (.mongo e),w)
      | none => match f i w with
        | .ok (value,t) => (.ok value,t)
        | .error e => (.error (.mongo e),w) := by
  unfold op mongo Prog.tryAtomic
  simp only [Prog.run]
  cases w.base.fault with
  | some e => rfl
  | none =>
    simp only
    cases f i w with
    | ok result => rfl
    | error e => rfl

-- A call that fails and leaves no trace.
def Rejects (i : CallId) (p : Program α) (w : World) : Prop := ∃ e, p.run i w = (.error e,w)

theorem Rejects.bind {p : Program α} {f : α → Program β} (rejects : Rejects i p w) : Rejects i (p >>= f) w := by
  obtain ⟨e,failed⟩ := rejects
  exact ⟨e,run_bind_error failed⟩

theorem Rejects.after {p : Program α} {f : α → Program β} (first : p.run i w = (.ok value,w)) (rest : Rejects i (f value) w) :
    Rejects i (p >>= f) w := by
  obtain ⟨e,failed⟩ := rest
  refine ⟨e,?_⟩
  rw [run_bind,first]
  exact failed

theorem redeem_rejects (unknown : Unknown platform w token) (service : VerificationTokenService) (i : CallId) :
    Rejects i (redeem platform service token) w := by
  have missing : w.verificationTokens.find? (live platform token) = none := by
    rw [List.find?_eq_none]
    intro doc stored
    simp [live,unknown doc stored]
  cases healthy : w.base.fault with
  | some e =>
    apply Rejects.bind
    refine ⟨.mongo e,?_⟩
    rw [consume,run_op,healthy]
  | none =>
    have looked : (consume platform token).run i w = (.ok none,w) := by
      rw [consume,run_op,healthy]
      simp only [missing,Option.map_none,Collection.updateOne_none _ missing]
    exact Rejects.after looked ⟨_,rfl⟩

theorem checkPassword_then {f : Unit → Program α} (rest : Rejects i (f ()) w) :
    Rejects i (checkPassword password policy >>= f) w := by
  unfold checkPassword
  split
  · exact Rejects.after rfl rest
  · exact Rejects.bind ⟨_,rfl⟩

theorem Rejects.map {p : Program α} {f : α → β} (rejects : Rejects i p w) : Rejects i (f <$> p) w := rejects.bind

theorem issueFor_absent {engine : AuthEngine} {input : AuthEngine.IssueInput}
    (absent : engine.userFor (AuthEngine.byHandle (some (engine.platform.toLowerCase input.email)) none) w.users = none) :
    Rejects i (engine.issueFor kind input redirectUri expiresIn) w ∨
      (engine.issueFor kind input redirectUri expiresIn).run i w =
        (.ok ⟨AuthEngine.decoysFor input.email w.base.now,expiresIn⟩,w) := by
  cases healthy : w.base.fault with
  | some e =>
    refine .inl (Rejects.bind ⟨.mongo e,?_⟩)
    rw [AuthEngine.findUser,Auth.read,run_op,healthy]
  | none =>
    have looked : (engine.findUser (AuthEngine.byHandle (some (engine.platform.toLowerCase input.email)) none)).run i w =
        (.ok none,w) := by
      rw [AuthEngine.findUser,Auth.read,run_op,healthy]
      simp only [absent]
    refine .inr ?_
    unfold AuthEngine.issueFor
    simp only [run_bind,looked]
    rfl

def Decoy (w : World) : Response → Prop
  | .issued result => ∃ target, result.token = AuthEngine.decoysFor target w.base.now
  | _ => False

theorem route_nobody {engine : AuthEngine} (nobody : Nobody engine request w)
    (unknown : ∀ text ∈ request.texts, Unknown engine.platform w text) (device : DeviceInfo) (i : CallId) :
    Rejects i (route engine device request) w ∨
      ∃ response, (route engine device request).run i w = (.ok response,w) ∧ Decoy w response := by
  have sent : ∀ {p : Program AuthEngine.IssueResult} {target : String} {expiresIn : Nat},
      Rejects i p w ∨ p.run i w = (.ok ⟨AuthEngine.decoysFor target w.base.now,expiresIn⟩,w) →
      Rejects i (Response.issued <$> p) w ∨
        ∃ response, (Response.issued <$> p).run i w = (.ok response,w) ∧ Decoy w response := by
    intro p target expiresIn ended
    rcases ended with rejects | ran
    · exact .inl rejects.map
    · refine .inr ⟨.issued ⟨AuthEngine.decoysFor target w.base.now,expiresIn⟩,?_,target,rfl⟩
      change (p >>= fun result => pure (Response.issued result)).run i w = _
      rw [run_bind,ran]
      rfl
  cases request with
  | passwordForgot email redirectUri =>
    simp only [route]
    split
    · exact .inl ⟨_,rfl⟩
    · rename_i address present
      obtain ⟨rfl,_⟩ := Option.filter_eq_some_iff.mp present
      exact sent (issueFor_absent (nobody address redirectUri (.inl rfl)))
  | magicSend email redirectUri =>
    simp only [route]
    split
    · exact .inl ⟨_,rfl⟩
    · rename_i address present
      obtain ⟨rfl,_⟩ := Option.filter_eq_some_iff.mp present
      exact sent (issueFor_absent (nobody address redirectUri (.inr rfl)))
  | passwordResetConfirm token newPassword =>
    refine .inl ?_
    simp only [route]
    split
    · rename_i secret password present _
      obtain ⟨rfl,_⟩ := Option.filter_eq_some_iff.mp present
      have fails := redeem_rejects (unknown secret (by simp [Request.texts])) engine.verificationTokens i
      exact (checkPassword_then fails.bind).map
    · exact ⟨_,rfl⟩
  | emailVerifyToken token | magicRedeem token =>
    refine .inl ?_
    simp only [route]
    split
    · exact ⟨_,rfl⟩
    · rename_i secret present
      obtain ⟨rfl,_⟩ := Option.filter_eq_some_iff.mp present
      have fails := redeem_rejects (unknown secret (by simp [Request.texts])) engine.verificationTokens i
      exact fails.bind.map

-- What holds along a run in which no token is asked for on anybody's behalf.
structure Locked (engine : AuthEngine) (start w : World) (knows : Set String) (answers : List Response) : Prop where
  users : w.users = start.users
  drawn : Drawn engine.platform w
  ignorant : ∀ n, engine.platform.random.fresh n ∉ knows
  decoys : ∀ response ∈ answers, ∃ at_, Decoy at_ response

theorem Locked.unknown {texts : List String} (locked : Locked engine start w knows answers) (own : ∀ text ∈ texts, text ∈ knows) :
    ∀ text ∈ texts, Unknown engine.platform w text := by
  intro text listed doc stored same
  obtain ⟨n,hashed⟩ := locked.drawn doc stored
  rw [hashed] at same
  exact locked.ignorant n (engine.platform.sha256_injective same ▸ own text listed)

section
variable {engine : AuthEngine} (unguessable : ∀ target now n, AuthEngine.decoysFor target now ≠ engine.platform.random.fresh n)
include unguessable

theorem run_locked (drawn : Drawn engine.platform start) (ignorant : ∀ n, engine.platform.random.fresh n ∉ known)
    (run : Run engine (Nobody engine) start known w knows answers) : Locked engine start w knows answers := by
  induction run with
  | nil => exact ⟨rfl,drawn,ignorant,by simp⟩
  | thinks _ _ unguessed ih => exact ⟨ih.users,ih.drawn,fun n learnt => ih.ignorant n (unguessed n learnt),ih.decoys⟩
  | elsewhere _ users more ih => exact ⟨users.trans ih.users,more ih.drawn,ih.ignorant,ih.decoys⟩
  | @answered w knows answers request device i t response _ own permitted ran ih =>
    rcases route_nobody permitted (ih.unknown own) device i with ⟨e,failed⟩ | ⟨answer,ended,decoy⟩
    · rw [failed] at ran
      cases ran
    · rw [ended] at ran
      cases ran
      refine ⟨ih.users,ih.drawn,?_,?_⟩
      · rintro n (before | learnt)
        · exact ih.ignorant n before
        · cases response with
          | issued result =>
            obtain ⟨target,same⟩ := decoy
            exact unguessable target _ n (same.symm.trans (List.mem_singleton.mp learnt).symm)
          | message text => exact decoy
          | session tokens user redirectUri => exact decoy
      · intro response listed
        rcases List.mem_append.mp listed with old | new
        · exact ih.decoys response old
        · rw [List.mem_singleton.mp new]
          exact ⟨_,decoy⟩
  | @refused w knows answers request device i e t _ own permitted ran ih =>
    rcases route_nobody permitted (ih.unknown own) device i with ⟨e,failed⟩ | ⟨answer,ended,_⟩
    · rw [failed] at ran
      cases ran
      exact ih
    · rw [ended] at ran
      cases ran
end

-- A client that never has a token issued for an account it does not own is
-- answered no tokens for it and leaves its password alone.
theorem recovery_proves_possession (engine : AuthEngine) (start w : World) (known knows : Set String)
    (answers : List Response) (drawn : Drawn engine.platform start)
    (ignorant : ∀ n, engine.platform.random.fresh n ∉ known)
    (unguessable : ∀ target now n, AuthEngine.decoysFor target now ≠ engine.platform.random.fresh n)
    (run : Run engine (Nobody engine) start known w knows answers) :
    ∀ userId ∈ start.users.map UserDoc.id, (∀ response ∈ answers, ¬ response.TokensFor userId) ∧
      (userById userId w).map UserDoc.passwordHash = (userById userId start).map UserDoc.passwordHash := by
  have locked := run_locked unguessable drawn ignorant run
  intro userId _
  constructor
  · intro response listed issued
    obtain ⟨_,decoy⟩ := locked.decoys response listed
    cases response with
    | issued result => exact issued
    | message text => exact issued
    | session tokens user redirectUri => exact decoy
  · simp only [userById,locked.users]

-- A stream outside the base64url alphabet.
def markedRandom : Random where
  fresh n := String.ofList ('~' :: List.replicate n 'x')
  injective n m same := by
    have lists := congrArg String.toList same
    simp only [String.toList_ofList,List.cons.injEq,true_and] at lists
    simpa using congrArg List.length lists

def markedEngine : AuthEngine := {sampleEngine with platform := {samplePlatform with random := markedRandom}}

theorem encode_plain {digit : Nat → Char} (plain : ∀ n, digit n ≠ '~') (bytes : List Nat) :
    '~' ∉ AuthEngine.base64url.encode digit bytes := by
  fun_induction AuthEngine.base64url.encode digit bytes with
  | case1 a b c rest ih => simp [(plain _).symm,ih]
  | case2 a b => simp [(plain _).symm]
  | case3 a => simp [(plain _).symm]
  | case4 => simp

theorem decoy_unmarked (target : String) (now n : Nat) :
    AuthEngine.decoysFor target now ≠ markedEngine.platform.random.fresh n := by
  have letters : ∀ k < 64, "ABCDEFGHIJKLMNOPQRSTUVWXYZabcdefghijklmnopqrstuvwxyz0123456789-_".toList.getD k 'A' ≠ '~' := by
    decide +kernel
  intro same
  have lists := congrArg String.toList same
  have marked : '~' ∈ (AuthEngine.decoysFor target now).toList := by
    rw [lists]
    simp [markedEngine,markedRandom]
  simp only [AuthEngine.decoysFor,AuthEngine.base64url,String.toList_ofList] at marked
  exact encode_plain (fun m => letters (m % 64) (Nat.mod_lt _ (by omega))) _ marked

-- Everything that is not in the stream.
def outsider : Set String := {text | ∀ n, text ≠ markedEngine.platform.random.fresh n}

theorem outsider_plain {text : String} (plain : text.toList.head? ≠ some '~') : text ∈ outsider := by
  intro n same
  rw [same] at plain
  simp [markedEngine,markedRandom] at plain

def nobodysRequest : Request := .passwordForgot (some "nobody@example.com") none

theorem recovery_proves_possession_stranger : ∃ w knows response,
    Run markedEngine (Nobody markedEngine) (soleAccount sampleUser) outsider w knows [response] ∧
      ¬ response.TokensFor "user" ∧ (userById "user" w).map UserDoc.passwordHash = some sampleUser.passwordHash := by
  have ran : endsWith 0 (route markedEngine anyDevice nobodysRequest) (soleAccount sampleUser) (fun _ _ => true) = true := by
    decide +kernel
  obtain ⟨response,w,returned,_⟩ := endsWith_ends.mp ran
  have nobody : Nobody markedEngine nobodysRequest (soleAccount sampleUser) := by
    intro email redirectUri same
    simp only [nobodysRequest,Request.passwordForgot.injEq,Option.some.injEq,reduceCtorEq,or_false] at same
    rw [← same.1]
    decide +kernel
  have run : Run markedEngine (Nobody markedEngine) (soleAccount sampleUser) outsider w _ ([] ++ [response]) :=
    .answered .nil (fun text listed => ?_) nobody returned
  · have kept := recovery_proves_possession markedEngine (soleAccount sampleUser) w outsider _ _ (by simp [Drawn,soleAccount])
      (fun n member => member n rfl) decoy_unmarked run "user" (by decide)
    exact ⟨w,_,response,run,kept.1 response (by simp),kept.2⟩
  · have asked : text = "nobody@example.com" := by simpa [nobodysRequest,Request.texts] using listed
    rw [asked]
    exact outsider_plain (by decide)

theorem forgotten_password_taken : ∃ w knows issued session,
    Run markedEngine (fun _ _ => True) (soleAccount sampleUser) outsider w knows [issued,session] ∧
      session.TokensFor "user" ∧ (userById "user" w).map UserDoc.passwordHash ≠ some sampleUser.passwordHash := by
  have asked : endsWith 0 (route markedEngine anyDevice (.passwordForgot (some "user@example.com") none))
      (soleAccount sampleUser) (fun response t => match response with
        | .issued result => endsWith 1 (route markedEngine anyDevice (.passwordResetConfirm (some result.token)
            (some "N3wpassword"))) t (fun response u => match response with
          | .session tokens _ _ => decide (tokens.accessToken.sub = "user" ∧
              (userById "user" u).map UserDoc.passwordHash ≠ some sampleUser.passwordHash)
          | _ => false)
        | _ => false) = true := by decide +kernel
  obtain ⟨issued,t,sent,shown⟩ := endsWith_ends.mp asked
  split at shown
  · rename_i result
    obtain ⟨session,u,confirmed,shown⟩ := endsWith_ends.mp shown
    split at shown
    · rename_i tokens user redirectUri
      simp only [decide_eq_true_eq] at shown
      let learnt : Set String := outsider ∪ {text | text ∈ (Response.issued result).texts}
      have one : Run markedEngine (fun _ _ => True) (soleAccount sampleUser) outsider t learnt ([] ++ [.issued result]) := by
        refine .answered .nil ?_ trivial sent
        intro text listed
        have named : text = "user@example.com" := by simpa [Request.texts] using listed
        rw [named]
        exact outsider_plain (by decide)
      have two : Run markedEngine (fun _ _ => True) (soleAccount sampleUser) outsider u
          (learnt ∪ {text | text ∈ (Response.session tokens user redirectUri).texts})
          (([] ++ [.issued result]) ++ [.session tokens user redirectUri]) := by
        refine .answered one ?_ trivial confirmed
        intro text listed
        have known : text = result.token ∨ text = "N3wpassword" := by simpa [Request.texts] using listed
        rcases known with rfl | rfl
        · exact .inr (List.mem_singleton.mpr rfl)
        · exact .inl (outsider_plain (by decide))
      exact ⟨u,_,_,_,two,.inl shown.1,shown.2⟩
    · cases shown
  · cases shown

end Pezhwan.Auth.Recovery
