import Pezhwan.Auth.Frame

namespace Pezhwan.Auth
open Atomic Prog Discipline

theorem userFor_stored {engine : AuthEngine} (found : engine.userFor input users = some user) : user ∈ users := by
  unfold AuthEngine.userFor at found
  split at found
  · rename_i lookup _
    exact lookup.stored found
  · exact List.mem_of_find?_eq_some found

theorem userFor_inTenant {engine : AuthEngine} (found : engine.userFor input users = some user) :
    user.tenantId = engine.tenantId := by
  unfold AuthEngine.userFor at found
  split at found
  · rename_i lookup _
    exact lookup.inTenant found rfl
  · have chosen := List.find?_some found
    simp only [AuthEngine.selects,Bool.and_eq_true,decide_eq_true_eq] at chosen
    exact chosen.1

theorem userFor_named {engine : AuthEngine} (found : engine.userFor (AuthEngine.byId userId) users = some user)
    (given : userId ≠ "") : user.id = userId := by
  have present : truthy (AuthEngine.byId userId).userId = some userId := by simp [truthy,AuthEngine.byId,given]
  unfold AuthEngine.userFor at found
  split at found
  · rename_i lookup _
    exact lookup.named found present
  · have chosen := List.find?_some found
    simp only [AuthEngine.selects,present,Bool.and_eq_true,decide_eq_true_eq] at chosen
    exact chosen.2

theorem userById_stored (unique : (w.users.map UserDoc.id).Nodup) (present : user ∈ w.users) :
    userById user.id w = some user := Collection.lookup_member unique present

theorem exec_served {other : World → World → Prop} {f : CallId → World → Except MongoError (α × World)}
    (ran : Exec other i (op f) s (.ok value) t) :
    ∃ w u, Relation.ReflTransGen other s w ∧ w.base.fault = none ∧ f i w = .ok (value,u) ∧
      Relation.ReflTransGen other u t := by
  obtain ⟨w,u,before,served,after⟩ := exec_tryAtomic ran
  refine ⟨w,u,before,?_,?_,after⟩
  · split at served
    · cases served
    · assumption
  · split at served
    · cases served
    · cases same : f i w with
      | ok result => rw [same] at served; cases served; rfl
      | error e => rw [same] at served; cases served

section
variable {other r : World → World → Prop} (link : Link Calm other r)
include link

theorem exec_op {f : CallId → World → Except MongoError (α × World)} (ran : Exec other i (op f) s (.ok value) t) :
    ∃ w u, r s w ∧ w.base.fault = none ∧ f i w = .ok (value,u) ∧ r u t := by
  obtain ⟨w,u,before,healthy,served,after⟩ := exec_served ran
  exact ⟨w,u,link.others before,healthy,served,link.others after⟩

theorem exec_read {f : World → α} (ran : Exec other i (read f) s (.ok value) t) :
    ∃ w, r s w ∧ w.base.fault = none ∧ f w = value ∧ r w t := by
  obtain ⟨w,u,before,served,result,after⟩ := exec_op link ran
  cases result
  exact ⟨w,before,served,rfl,after⟩

omit link in
theorem exec_withAccountStore {p : Program α} (ran : Exec other i (withAccountStore p) s (.ok value) t) :
    Exec other i p s (.ok value) t := by
  obtain ⟨result,u,first,rest⟩ := exec_bind ran
  cases result with
  | ok inner =>
    obtain ⟨rfl,path⟩ := exec_pure rest
    exact exec_trailing (exec_attempt first) path
  | error e =>
    dsimp only at rest
    split at rest
    · exact absurd rest exec_throw
    · exact absurd rest exec_throw
end

theorem create_yields (service : Session.SessionService) (ctx : Session.SessionContext) :
    (Session.create service ctx).Yields fun created =>
      created.userId = ctx.userId ∧ created.tenantId = ctx.tenantId ∧ created.applicationId = ctx.applicationId := by
  refine Yields.bind (Yields.any _) fun _ _ => ?_
  refine Yields.bind (Yields.any _) fun familyId _ => ?_
  refine Yields.bind (Yields.any _) fun token _ => ?_
  refine Yields.bind (Yields.any _) fun now _ => ?_
  have inserted : ∀ doc entry, (Session.insert service.random doc entry).Yields fun born =>
      born.userId = doc.userId ∧ born.tenantId = doc.tenantId ∧ born.applicationId = doc.applicationId := by
    intro doc entry
    apply Yields.tryAtomic
    intro i w born t ran
    split at ran
    · cases ran
    · unfold Session.insertStep at ran
      dsimp only at ran
      split at ran
      · cases ran
      · cases ran; exact ⟨rfl,rfl,rfl⟩
  refine Yields.bind (inserted _ _) fun doc owned => ?_
  exact Yields.bind (Yields.any _) fun _ _ => owned

def Minted (userId : String) (tokenVersion : Nat) (created : Session.CreatedSession) (tokens : IssuedTokens) : Prop :=
  tokens.accessToken.sub = userId ∧ tokens.accessToken.tokenVersion = some tokenVersion ∧
    tokens.session = created ∧ tokens.refreshToken = created.refreshToken

def Reply.TokensFor (userId : String) : Reply → Prop
  | .mfaRequired .. => False
  | .issued _ tokens => tokens.accessToken.sub = userId ∨ tokens.session.userId = userId

theorem minted_for (minted : Minted subject tokenVersion created tokens)
    (issued : (Reply.issued user tokens).TokensFor userId) : subject = userId ∨ created.userId = userId := by
  rcases issued with sub | session
  · exact .inl (minted.1.symm.trans sub)
  · rw [minted.2.2.1] at session
    exact .inr session

theorem buildIdentityContext_yields (userId tenantId applicationId sessionId : String) (authMethod : AuthMethod) :
    (buildIdentityContext userId tenantId applicationId sessionId authMethod).Yields
      fun identity => identity.userId = userId :=
  Yields.bind (Yields.any _) fun _ _ => Yields.bind (Yields.any _) fun _ _ => rfl

theorem signAccessToken_yields (platform : Platform) (service : TokenService) (context : IdentityContext)
    (scope clientId : Option String) (tokenVersion : Option Nat) :
    (signAccessToken platform service context scope clientId tokenVersion).Yields fun token =>
      token.sub = context.userId ∧ token.tokenVersion = tokenVersion :=
  Yields.bind (Yields.any _) fun _ _ => Yields.bind (Yields.any _) fun _ _ => ⟨rfl,rfl⟩

theorem mintTokens_yields (engine : AuthEngine) (userId : String) (tokenVersion : Nat)
    (created : Session.CreatedSession) (applicationId : String) (authMethod : AuthMethod) :
    (engine.mintTokens userId tokenVersion created applicationId authMethod).Yields
      (Minted userId tokenVersion created) := by
  refine Yields.bind (buildIdentityContext_yields _ _ _ _ _) fun identity named => ?_
  refine Yields.bind (signAccessToken_yields _ _ _ _ _ _) fun token claims => ?_
  exact ⟨claims.1.trans named,claims.2,rfl,rfl⟩

section
variable {other r : World → World → Prop} (link : Link Calm other r)
include link

-- A new session and its tokens, at the end of every flow that issues any.
theorem issued_parts {engine : AuthEngine} {finish : IssuedTokens → α} (ran : Exec other i (do
      let created ← engine.openSession userId tenantId applicationId device
      let tokens ← engine.mintTokens subject tokenVersion created application authMethod
      pure (finish tokens)) s (.ok result) t) :
    ∃ created tokens, result = finish tokens ∧ created.userId = userId ∧ Minted subject tokenVersion created tokens ∧
      r s t := by
  obtain ⟨created,u,opened,rest⟩ := exec_bind ran
  obtain ⟨tokens,w,minted,last⟩ := exec_bind rest
  obtain ⟨rfl,path⟩ := exec_pure last
  have owner := exec_yields (create_yields _ _).zoom opened
  refine ⟨created,tokens,rfl,owner.1,exec_yields (mintTokens_yields _ _ _ _ _ _) minted,?_⟩
  exact link.trans (link.exec (keeps_openSession _ _ _ _ _) opened)
    (link.trans (link.exec (keeps_mintTokens _ _ _ _ _ _) minted) (link.others path))

omit link in
def secondFactor (userId : String) (w : World) : Bool := ((userById userId w).map UserDoc.mfaEnabled).getD false

-- Past the first factor: the gateway either asks for the second one or, in a
-- state where the user has none, issues tokens.
def Gated (r : World → World → Prop) (engine : AuthEngine) (user : UserDoc) (result : LoginResult) (w t : World) : Prop :=
  (result = .mfaRequired user.id user ∧ engine.mfa = true ∧ r w t) ∨
    ∃ created tokens u, result = .complete user tokens ∧ created.userId = user.id ∧
      Minted user.id user.tokenVersion created tokens ∧ r w u ∧
      (engine.mfa = true → secondFactor user.id u = false) ∧ r u t

theorem gateway_parts {engine : AuthEngine} {check : Program Bool}
    (checks : ∀ {s value t}, Exec other i check s (.ok value) t → Exec other i (isEnabled user.id) s (.ok value) t)
    (ran : Exec other i (do
      let pending ← engine.mfaGateway check
      if pending then pure (.mfaRequired user.id user)
      else engine.completeLogin user authMethod applicationId device) w (.ok result) t) :
    Gated r engine user result w t := by
  obtain ⟨pending,u,first,rest⟩ := exec_bind ran
  unfold AuthEngine.mfaGateway at first
  cases configured : engine.mfa with
  | false =>
    rw [configured,if_neg Bool.false_ne_true] at first
    obtain ⟨rfl,path⟩ := exec_pure first
    rw [if_neg Bool.false_ne_true] at rest
    obtain ⟨created,tokens,rfl,owner,minted,last⟩ := issued_parts link rest
    exact .inr ⟨created,tokens,u,rfl,owner,minted,link.others path,by simp [configured],last⟩
  | true =>
    rw [configured,if_pos rfl] at first
    obtain ⟨x,before,_,enabled,after⟩ := exec_read link (checks first)
    cases pending with
    | true =>
      rw [if_pos rfl] at rest
      obtain ⟨rfl,path⟩ := exec_pure rest
      exact .inl ⟨rfl,configured,link.trans before (link.trans after (link.others path))⟩
    | false =>
      rw [if_neg Bool.false_ne_true] at rest
      obtain ⟨created,tokens,rfl,owner,minted,last⟩ := issued_parts link rest
      exact .inr ⟨created,tokens,x,rfl,owner,minted,before,fun _ => enabled,link.trans after last⟩

theorem findUser_parts {engine : AuthEngine} (ran : Exec other i (engine.findUser input) s (.ok found) t) :
    ∃ w, r s w ∧ w.base.fault = none ∧ engine.userFor input w.users = found ∧ r w t := by
  obtain ⟨w,before,healthy,same,after⟩ := exec_read link ran
  exact ⟨w,before,healthy,same,after⟩

-- The document createUser stores: a new id on an active account without history.
def Newcomer (doc : UserDoc) (w : World) : Prop :=
  (∀ other ∈ w.users, other.id ≠ doc.id) ∧ doc.isActive = true ∧ doc.tokenVersion = 0 ∧ doc.mfaEnabled = false

def World.withUser (w : World) (i : CallId) (doc : UserDoc) : World :=
  {w with base := {w.base with draws := w.base.draws ++ [i]},users := w.users ++ [doc]}

omit link in
theorem standing_newcomer (newcomer : Newcomer doc w) (i : CallId) :
    standing doc.id (w.withUser i doc) = some (true,0,false,doc.tenantId) := by
  obtain ⟨absent,active,version,factor⟩ := newcomer
  have missing : userById doc.id w = none := by
    rw [userById,Collection.lookup_none]
    intro listed
    obtain ⟨other,present,named⟩ := List.mem_map.mp listed
    exact absent other present named
  have appended : userById doc.id (w.withUser i doc) = some doc := by
    simp only [userById,Collection.lookup,World.withUser,List.find?_append] at missing ⊢
    simp [missing]
  simp [standing,appended,active,version,factor]

theorem register_parts {engine : AuthEngine} (ran : Exec other i (engine.register input) s (.ok result) t) :
    ∃ doc w created tokens, r s w ∧ w.base.fault = none ∧ Newcomer doc w ∧ result = (doc,tokens) ∧ created.userId = doc.id ∧
      Minted doc.id doc.tokenVersion created tokens ∧ r (w.withUser i doc) t := by
  unfold AuthEngine.register at ran
  split at ran
  · exact absurd ran exec_throw
  · obtain ⟨_,u,required,rest⟩ := exec_bind ran
    have first : r s u := link.exec (keeps_requirePassword _ _) required
    obtain ⟨passwordHash,u',chosen,rest⟩ := exec_bind rest
    have second : r u u' := link.exec (keeps_initialPasswordHash _ _) chosen
    obtain ⟨doc,v,stored,rest⟩ := exec_bind rest
    obtain ⟨created,tokens,rfl,owner,minted,last⟩ := issued_parts link rest
    obtain ⟨w,x,before,healthy,served,after⟩ := exec_op link stored
    simp only at served
    split at served
    · cases served
    · rename_i free
      cases served
      refine ⟨_,w,created,tokens,link.trans first (link.trans second before),healthy,⟨?_,rfl,rfl,rfl⟩,rfl,owner,minted,
        link.trans after last⟩
      intro other present same
      apply free
      rw [List.any_eq_true]
      exact ⟨other,present,by simp [AuthEngine.handleTaken,same]⟩

theorem loginPassword_parts {engine : AuthEngine} (ran : Exec other i (engine.loginPassword input) s (.ok result) t) :
    ∃ user w w', r s w ∧ w.base.fault = none ∧ engine.userFor (AuthEngine.byHandle input.email input.phone) w.users = some user ∧
      user.isActive = true ∧ r w w' ∧ Gated r engine user result w' t := by
  obtain ⟨found,u,looked,rest⟩ := exec_bind ran
  obtain ⟨w,before,healthy,named,after⟩ := findUser_parts link (exec_withAccountStore looked)
  cases found with
  | none => exact absurd rest exec_throw
  | some user =>
    obtain ⟨now,u',timed,rest⟩ := exec_bind rest
    have later := link.trans after (link.exec (keeps_base keeps_clock) timed)
    split at rest
    · exact absurd rest exec_throw
    · split at rest
      · exact absurd rest exec_throw
      · split at rest
        · split at rest
          · rename_i active
            obtain ⟨_,u'',cleared,rest⟩ := exec_bind rest
            have cleared := link.exec (keeps_withAccountStore (keeps_clearFailedLogin _ _)) cleared
            exact ⟨user,w,u'',before,healthy,named,active,link.trans later cleared,
              gateway_parts link exec_withAccountStore rest⟩
          · exact absurd rest exec_throw
        · obtain ⟨_,_,_,rest⟩ := exec_bind rest
          exact absurd rest exec_throw

theorem loginOtp_parts {engine : AuthEngine} (ran : Exec other i (engine.loginOtp input) s (.ok result) t) :
    ∃ user w w', r s w ∧ w.base.fault = none ∧ engine.userFor (AuthEngine.byHandle input.email input.phone) w.users = some user ∧
      user.isActive = true ∧ r w w' ∧ Gated r engine user result w' t := by
  obtain ⟨verified,u,checked,rest⟩ := exec_bind ran
  have checked := link.exec (keeps_verifyOtp _ _ _ _ _ _) checked
  split at rest
  · obtain ⟨found,u',looked,rest⟩ := exec_bind rest
    obtain ⟨w,before,healthy,named,after⟩ := findUser_parts link looked
    cases found with
    | none => exact absurd rest exec_throw
    | some user =>
      dsimp only at rest
      split at rest
      · rename_i active
        exact ⟨user,w,u',link.trans checked before,healthy,named,active,after,gateway_parts link id rest⟩
      · exact absurd rest exec_throw
  · exact absurd rest exec_throw

theorem verifyMfaLogin_parts {engine : AuthEngine} (ran : Exec other i (engine.verifyMfaLogin input) s (.ok result) t) :
    ∃ first w last w' created tokens, engine.mfa = true ∧ r s w ∧ w.base.fault = none ∧
      engine.userFor (AuthEngine.byId input.userId) w.users = some first ∧ first.isActive = true ∧ r w w' ∧
      engine.userFor (AuthEngine.byId input.userId) w'.users = some last ∧ result = (last,tokens) ∧
      created.userId = input.userId ∧ Minted last.id last.tokenVersion created tokens ∧ r w' t ∧
      (∃ x y, r w x ∧ Exec other i (verifyMfa engine.platform input.userId input.code) x (.ok true) y) := by
  unfold AuthEngine.verifyMfaLogin at ran
  split at ran
  · rename_i configured
    obtain ⟨found,u,looked,rest⟩ := exec_bind ran
    obtain ⟨w,before,healthy,named,after⟩ := findUser_parts link looked
    split at rest
    · exact absurd rest exec_throw
    · rename_i first kept
      obtain ⟨rfl,active⟩ := Option.filter_eq_some_iff.mp kept
      obtain ⟨passed,u',challenged,rest⟩ := exec_bind rest
      have unmoved := link.exec (keeps_verifyMfa _ _ _) challenged
      split at rest
      · rename_i accepted
        obtain ⟨found,u'',lookedAgain,rest⟩ := exec_bind rest
        obtain ⟨w',before',_,named',after'⟩ := findUser_parts link lookedAgain
        cases found with
        | none => exact absurd rest exec_throw
        | some last =>
          obtain ⟨created,tokens,rfl,owner,minted,ended⟩ := issued_parts link rest
          refine ⟨first,w,last,w',created,tokens,configured,before,healthy,named,active,
            link.trans after (link.trans unmoved before'),named',rfl,owner,minted,link.trans after' ended,u,u',after,?_⟩
          rw [accepted] at challenged
          exact challenged
      · exact absurd rest exec_throw
  · exact absurd ran exec_throw

theorem refreshSession_parts {engine : AuthEngine} (ran : Exec other i (engine.refreshSession token device) s (.ok tokens) t) :
    ∃ created w, tokens.accessToken.sub = created.userId ∧ tokens.session = created ∧ r s w ∧ w.base.fault = none ∧ r w t ∧
      tokens.accessToken.tokenVersion = some (((w.users.find? fun user =>
        user.id = created.userId && user.tenantId = engine.tenantId).map UserDoc.tokenVersion).getD 0) := by
  obtain ⟨created,u,rotated,rest⟩ := exec_bind ran
  have first : r s u := link.exec (keeps_session (Session.keeps_refresh _ _ _)) rotated
  split at rest
  · exact absurd rest exec_throw
  · obtain ⟨identity,v,identified,rest⟩ := exec_bind rest
    have second : r u v := link.exec (keeps_buildIdentityContext _ _ _ _ _) identified
    have named := exec_yields (buildIdentityContext_yields _ _ _ _ _) identified
    obtain ⟨found,x,looked,rest⟩ := exec_bind rest
    obtain ⟨w,before,healthy,rfl,after⟩ := exec_read link looked
    obtain ⟨accessToken,y,signed,rest⟩ := exec_bind rest
    obtain ⟨rfl,path⟩ := exec_pure rest
    have claims := exec_yields (signAccessToken_yields _ _ _ _ _ _) signed
    refine ⟨created,w,claims.1.trans named,rfl,link.trans first (link.trans second before),healthy,?_,claims.2⟩
    exact link.trans after (link.trans (link.exec (keeps_signAccessToken _ _ _ _ _ _) signed) (link.others path))

-- The reset writes the account and forgets its cached state, so it is not calm.
def raised (engine : AuthEngine) (user : UserDoc) (passwordHash : String) (w : World) : World :=
  w.updateUser (fun doc => doc.id = user.id && doc.tenantId = engine.tenantId) fun doc => {doc with
    passwordHash := some passwordHash,tokenVersion := user.tokenVersion + 1,failedLoginAttempts := 0,loginLockUntil := none}

def forgotten (userId : String) (w : World) : World :=
  {w with base := {w.base with cache := w.base.cache.del (.accountState userId)}}

theorem finishReset_parts {engine : AuthEngine}
    (ran : Exec other i (engine.finishReset user applicationId newPassword device authMethod) s (.ok result) t) :
    ∃ w v created tokens passwordHash, r s w ∧ w.base.fault = none ∧ r (raised engine user passwordHash w) v ∧
      r (forgotten user.id v) t ∧ result = (user,tokens) ∧ created.userId = user.id ∧
      Minted user.id user.tokenVersion created tokens := by
  obtain ⟨passwordHash,u,hashed,rest⟩ := exec_bind ran
  have first : r s u := link.exec (keeps_hashPassword _ _) hashed
  obtain ⟨_,u',written,rest⟩ := exec_bind rest
  obtain ⟨w,_,before,healthy,served,after⟩ := exec_op link written
  cases served
  obtain ⟨_,x,cleared,rest⟩ := exec_bind rest
  obtain ⟨v,path,cleared⟩ := exec_act cleared
  obtain ⟨same,path'⟩ := exec_done cleared
  obtain ⟨_,y,revoked,rest⟩ := exec_bind rest
  have third : r x y := link.exec (keeps_session (Session.keeps_revokeAll _ _ _)) revoked
  obtain ⟨created,tokens,rfl,owner,minted,last⟩ := issued_parts link rest
  refine ⟨w,v,created,tokens,passwordHash,link.trans first before,healthy,link.trans after (link.others path),?_,rfl,
    owner,minted⟩
  exact link.trans (link.others path') (link.trans third last)

omit link in
theorem redeem_parts (ran : Exec other i (redeem platform service token) s (.ok redeemed) t) :
    ∃ w doc, Relation.ReflTransGen other s w ∧ w.verificationTokens.find? (live platform token) = some doc ∧
      redeemed = ⟨doc.userId,doc.kind,doc.tenantId,doc.applicationId,doc.target,doc.redirectUri⟩ ∧
      doc.tenantId = service.tenantId ∧ doc.applicationId = service.applicationId := by
  obtain ⟨found,u,consumed,rest⟩ := exec_bind ran
  obtain ⟨w,_,before,_,served,_⟩ := exec_served consumed
  simp only [Except.ok.injEq,Prod.mk.injEq] at served
  obtain ⟨rfl,_⟩ := served
  cases hit : w.verificationTokens.find? (live platform token) with
  | none =>
    rw [hit] at rest
    exact absurd rest exec_throw
  | some doc =>
    rw [hit] at rest
    simp only [Option.map_some] at rest
    split at rest
    · exact absurd rest exec_throw
    · rename_i tenant
      obtain ⟨now,_,_,rest⟩ := exec_bind rest
      split at rest
      · exact absurd rest exec_throw
      · split at rest
        · exact absurd rest exec_throw
        · rename_i application
          obtain ⟨rfl,_⟩ := exec_pure rest
          exact ⟨w,doc,before,hit,rfl,not_not.mp tenant,not_not.mp application⟩

theorem redeemMagicLink_parts {engine : AuthEngine} (ran : Exec other i (engine.redeemMagicLink token device) s (.ok result) t) :
    ∃ user redeemed u w created tokens, Exec other i (redeem engine.platform engine.verificationTokens token) s (.ok redeemed) u ∧
      redeemed.kind = .magic_link ∧ r u w ∧ w.base.fault = none ∧ engine.userFor (AuthEngine.byId redeemed.userId) w.users = some user ∧
      user.isActive = true ∧ result = ⟨user,tokens,redeemed.redirectUri⟩ ∧ created.userId = user.id ∧
      Minted user.id user.tokenVersion created tokens ∧ r w t := by
  obtain ⟨redeemed,u,consumed,rest⟩ := exec_bind ran
  split at rest
  · rename_i kind
    obtain ⟨found,u',looked,rest⟩ := exec_bind rest
    obtain ⟨w,before,healthy,named,after⟩ := findUser_parts link looked
    cases found with
    | none => exact absurd rest exec_throw
    | some user =>
      dsimp only at rest
      split at rest
      · rename_i active
        obtain ⟨created,tokens,rfl,owner,minted,last⟩ := issued_parts link rest
        exact ⟨user,redeemed,u,w,created,tokens,consumed,kind,before,healthy,named,active,rfl,owner,minted,link.trans after last⟩
      · exact absurd rest exec_throw
  · exact absurd rest exec_throw

omit link in
theorem exec_map {p : Program α} {f : α → β} (ran : Exec other i (f <$> p) s (.ok value) t) :
    ∃ inner u, Exec other i p s (.ok inner) u ∧ value = f inner ∧ Relation.ReflTransGen other u t := by
  obtain ⟨inner,u,first,last⟩ := exec_bind ran
  obtain ⟨rfl,path⟩ := exec_pure last
  exact ⟨inner,u,first,rfl,path⟩

-- The second factor is only accepted for a user that exists and has enabled it.
theorem verifyMfa_parts (ran : Exec other i (verifyMfa platform userId code) s (.ok true) t) :
    ∃ w user, r s w ∧ userById userId w = some user ∧ user.mfaEnabled = true ∧ r w t := by
  obtain ⟨locked,u,lock,rest⟩ := exec_bind ran
  have kept : r s u := by
    refine link.exec ?_ lock
    exact keeps_mfaLocked userId
  split at rest
  · obtain ⟨same,_⟩ := exec_pure rest
    cases same
  · obtain ⟨found,u',looked,rest⟩ := exec_bind rest
    obtain ⟨w,before,_,rfl,after⟩ := exec_read link looked
    have ended : r u' t := link.exec (keeps_challenge platform userId code _) rest
    cases hit : userById userId w with
    | none =>
      rw [hit] at rest
      obtain ⟨same,_⟩ := exec_pure rest
      cases same
    | some user =>
      refine ⟨w,user,link.trans kept before,hit,?_,link.trans after ended⟩
      cases enabled : user.mfaEnabled with
      | true => rfl
      | false =>
        rw [hit] at rest
        simp only [Option.bind_some,enabled,Bool.false_eq_true,if_false] at rest
        obtain ⟨same,_⟩ := exec_pure rest
        cases same

end

end Pezhwan.Auth
