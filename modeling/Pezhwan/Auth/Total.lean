import Pezhwan.Auth.Outcome
import Pezhwan.Session.Family
import Pezhwan.Session.Total

namespace Pezhwan.Auth
open Atomic Prog Discipline

-- Alone: nothing happens between the actions of the call.
theorem alone : Link Calm (fun _ _ => False) Calm where
  refl := world_calm_refl
  trans := world_calm_trans
  own := id
  other := False.elim

theorem returns_map {p : Program α} {f : α → β} (returned : Returns i (f <$> p) s value t) :
    ∃ inner, Returns i p s inner t ∧ value = f inner := by
  obtain ⟨inner,u,first,last⟩ := returns_bind.mp returned
  obtain ⟨rfl,rfl⟩ := returns_pure.mp last
  exact ⟨inner,first,rfl⟩

theorem returns_aside {p : Program α} (keeps : p.Keeps Aside) (returned : Returns i p s value t) : Aside s t := by
  have moved := keeps.run aside_refl aside_trans i s
  rw [returned] at moved
  exact moved

theorem returns_checkPassword (returned : Returns i (checkPassword password policy) s value t) : t = s := by
  unfold checkPassword at returned
  split at returned
  · exact (returns_pure.mp returned).2.symm
  · exact absurd returned returns_throw

theorem returns_findUser {engine : AuthEngine} (returned : Returns i (engine.findUser input) s found t) :
    engine.userFor input s.users = found ∧ t = s := by
  obtain ⟨_,same⟩ := returns_mongo.mp returned
  cases same
  exact ⟨rfl,rfl⟩

-- The account a recovery call is about, read off the state it starts in.
def resolved (engine : AuthEngine) (s : World) : Call → Option UserDoc
  | .resetPassword input => engine.userFor (AuthEngine.resetHandle input.channel input.target) s.users
  | .resetPasswordWithToken input => (s.verificationTokens.find? (live engine.platform input.token)).bind fun doc =>
      engine.userFor (AuthEngine.byId doc.userId) s.users
  | .redeemMagicLink token _ => (s.verificationTokens.find? (live engine.platform token)).bind fun doc =>
      engine.userFor (AuthEngine.byId doc.userId) s.users
  | _ => none

theorem resetPassword_resolved {engine : AuthEngine} (returned : Returns i (engine.resetPassword input) s result t) :
    ∃ user u, resolved engine s (.resetPassword input) = some user ∧ Aside s u ∧
      Returns i (engine.finishReset user input.applicationId input.newPassword input.device .password) u result t := by
  obtain ⟨_,u,checked,rest⟩ := returns_bind.mp returned
  cases returns_checkPassword checked
  obtain ⟨verified,v,passed,rest⟩ := returns_bind.mp rest
  have still := returns_aside (aside_verifyOtp _ _ _ _ _ _) passed
  split at rest
  · obtain ⟨found,w,looked,rest⟩ := returns_bind.mp rest
    obtain ⟨named,rfl⟩ := returns_findUser looked
    cases found with
    | none => exact absurd rest returns_throw
    | some user =>
      rw [still.2] at named
      exact ⟨user,w,named,still,rest⟩
  · exact absurd rest returns_throw

theorem redeem_resolved {engine : AuthEngine}
    (returned : Returns i (redeem engine.platform engine.verificationTokens token) s redeemed u)
    (looked : Returns i (engine.findUser (AuthEngine.byId redeemed.userId)) u found w) :
    ((s.verificationTokens.find? (live engine.platform token)).bind fun doc =>
      engine.userFor (AuthEngine.byId doc.userId) s.users) = found ∧ Aside s w := by
  have still := returns_aside (aside_redeem _ _ _) returned
  have ran : Exec (fun _ _ => False) i (redeem engine.platform engine.verificationTokens token) s (.ok redeemed) u :=
    returns_exec returned
  obtain ⟨x,doc,path,hit,rfl,_⟩ := redeem_parts ran
  cases others_alone path
  obtain ⟨named,rfl⟩ := returns_findUser looked
  rw [still.2] at named
  rw [hit]
  exact ⟨named,still⟩

theorem resetPasswordWithToken_resolved {engine : AuthEngine}
    (returned : Returns i (engine.resetPasswordWithToken input) s result t) :
    ∃ user u, resolved engine s (.resetPasswordWithToken input) = some user ∧ Aside s u ∧
      Returns i (engine.finishReset user input.applicationId input.newPassword input.device .email_otp) u result t := by
  obtain ⟨_,u,checked,rest⟩ := returns_bind.mp returned
  cases returns_checkPassword checked
  obtain ⟨redeemed,v,consumed,rest⟩ := returns_bind.mp rest
  split at rest
  · obtain ⟨found,w,looked,rest⟩ := returns_bind.mp rest
    obtain ⟨named,still⟩ := redeem_resolved consumed looked
    cases found with
    | none => exact absurd rest returns_throw
    | some user => exact ⟨user,w,named,still,rest⟩
  · exact absurd rest returns_throw

theorem resolved_found {engine : AuthEngine} (found : resolved engine s call = some user) :
    ∃ input, engine.userFor input s.users = some user := by
  cases call with
  | resetPassword input => exact ⟨_,found⟩
  | resetPasswordWithToken input | redeemMagicLink token device =>
    obtain ⟨doc,_,named⟩ := Option.bind_eq_some_iff.mp found
    exact ⟨_,named⟩
  | register _ => cases found
  | loginPassword _ => cases found
  | loginOtp _ => cases found
  | verifyMfaLogin _ => cases found
  | refreshSession _ _ => cases found

theorem redeemMagicLink_resolved {engine : AuthEngine} (returned : Returns i (engine.redeemMagicLink token device) s result t) :
    ∃ user created, resolved engine s (.redeemMagicLink token device) = some user ∧ result.user = user ∧
      created.userId = user.id ∧ Minted user.id user.tokenVersion created result.tokens ∧ Calm s t := by
  obtain ⟨redeemed,v,consumed,rest⟩ := returns_bind.mp returned
  split at rest
  · obtain ⟨found,w,looked,rest⟩ := returns_bind.mp rest
    obtain ⟨named,still⟩ := redeem_resolved consumed looked
    cases found with
    | none => exact absurd rest returns_throw
    | some user =>
      dsimp only at rest
      split at rest
      · obtain ⟨created,tokens,rfl,owner,minted,last⟩ := issued_parts alone (returns_exec rest)
        exact ⟨user,created,named,rfl,owner,minted,world_calm_trans (aside_calm still) last⟩
      · exact absurd rest returns_throw
  · exact absurd rest returns_throw

end Pezhwan.Auth

namespace Pezhwan.Auth
open Atomic Prog

theorem ends_read {f : World → α} {post : α → World → Prop} (healthy : w.base.fault = none) (holds : post (f w) w) :
    Ends i (read f) w post := ends_mongo healthy holds

theorem ends_write {f : World → World} {post : Unit → World → Prop} (healthy : w.base.fault = none)
    (holds : post () (f w)) : Ends i (write f) w post := ends_mongo healthy holds

theorem ends_base {f : CallId → Base → α × Base} {post : α → World → Prop} (steady : (f i w.base).2.fault = w.base.fault)
    (holds : ∀ value b, b.fault = w.base.fault → post value {w with base := b}) :
    Ends i (base (Prog.atomic f)) w post := Ends.zoom (Ends.atomic (holds _ _ steady))

theorem ends_clock {post : Nat → World → Prop} (holds : post w.base.now w) : Ends i (base clock) w post :=
  Ends.zoom (Ends.atomic holds)

theorem ends_checkPassword {post : Unit → World → Prop} (accepted : evaluatePassword password policy = [])
    (holds : post () w) : Ends i (checkPassword password policy) w post := by
  unfold checkPassword
  rw [accepted]
  exact Ends.pure holds

theorem ends_mongoenSession {engine : AuthEngine} {post : Session.CreatedSession → World → Prop}
    (healthy : w.base.fault = none) (empty : w.sessions.docs = [])
    (holds : ∀ created b sessions, b.fault = none → created.userId = userId →
      post created {w with base := b,sessions := sessions}) :
    Ends i (engine.openSession userId tenantId applicationId device) w post :=
  Ends.zoom (Session.ends_create healthy empty fun created b store kept owner => holds created b store kept owner)

theorem ends_getUserRoles {post : List RoleDoc → World → Prop} (healthy : w.base.fault = none)
    (holds : ∀ roles, post roles w) : Ends i (getUserRoles userId tenantId applicationId) w post := by
  refine Ends.bind (ends_read healthy ?_)
  split
  · exact Ends.pure (holds _)
  · exact ends_read healthy (holds _)

theorem ends_buildIdentityContext {post : IdentityContext → World → Prop} (healthy : w.base.fault = none)
    (holds : ∀ roles permissions,
      post ⟨userId,tenantId,applicationId,sessionId,roles,permissions,authMethod⟩ w) :
    Ends i (buildIdentityContext userId tenantId applicationId sessionId authMethod) w post := by
  refine Ends.bind (ends_getUserRoles healthy fun roles => ?_)
  refine Ends.bind (Ends.bind (ends_getUserRoles healthy fun granted => ?_))
  dsimp only
  split
  · exact Ends.pure (Ends.pure (holds _ _))
  · exact ends_read healthy (Ends.pure (holds _ _))

theorem ends_signAccessToken {post : AccessToken → World → Prop} (healthy : w.base.fault = none)
    (holds : ∀ token b, b.fault = none → token.sub = context.userId → post token {w with base := b}) :
    Ends i (signAccessToken platform service context scope clientId tokenVersion) w post := by
  refine Ends.bind (ends_clock ?_)
  exact Ends.bind (ends_base rfl fun jti b kept => Ends.pure (holds _ _ (kept.trans healthy) rfl))

theorem ends_mintTokens {engine : AuthEngine} {post : IssuedTokens → World → Prop} (healthy : w.base.fault = none)
    (holds : ∀ tokens b, tokens.accessToken.sub = userId → post tokens {w with base := b}) :
    Ends i (engine.mintTokens userId tokenVersion created applicationId authMethod) w post := by
  refine Ends.bind (ends_buildIdentityContext healthy fun roles permissions => ?_)
  exact Ends.bind (ends_signAccessToken healthy fun token b _ sub => Ends.pure (holds _ _ sub))

theorem ends_finishReset {engine : AuthEngine} {post : UserDoc × IssuedTokens → World → Prop}
    (healthy : w.base.fault = none) (empty : w.sessions.docs = [])
    (holds : ∀ tokens t, tokens.accessToken.sub = user.id → post (user,tokens) t) :
    Ends i (engine.finishReset user applicationId newPassword device authMethod) w post := by
  refine Ends.bind (Ends.bind (ends_base rfl fun salt b drawn => Ends.pure ?_))
  have healthy := drawn.trans healthy
  refine Ends.bind (ends_write healthy ?_)
  refine Ends.bind (ends_base rfl fun _ b forgotten => ?_)
  have healthy := forgotten.trans healthy
  refine Ends.bind (Ends.zoom (Ends.bind (Session.ends_read healthy ?_)))
  refine Ends.bind (ends_mongo healthy ?_)
  simp only [sessionLens,World.updateUser,empty,List.filter_nil]
  refine Ends.pure ?_
  refine Ends.bind (ends_mongoenSession healthy rfl fun created b store opened owner => ?_)
  exact Ends.bind (ends_mintTokens opened fun tokens b sub => Ends.pure (holds _ _ sub))

theorem ends_verifyOtp {post : Bool → World → Prop} (healthy : w.base.fault = none)
    (few : (cachedNumber (w.base.cache.get w.base.now (.otpAttempts channel.name (platform.toLowerCase target)))).getD 0 <
      otp.maxAttempts)
    (found : w.otps.find? (otp.selects channel (platform.toLowerCase target) purpose) = some doc)
    (current : w.base.now ≤ doc.expiresAt) (open_ : doc.consumed = false) (hashed : doc.codeHash = platform.sha256 code)
    (holds : ∀ b otps, b.fault = none → post true {w with base := b,otps := otps}) :
    Ends i (verifyOtp platform otp channel target purpose code) w post := by
  refine Ends.bind (Ends.zoom (Ends.atomic ?_))
  rw [if_neg (by simpa [baseLens] using few)]
  refine Ends.bind (ends_read healthy ?_)
  simp only [baseLens,found]
  refine Ends.bind (ends_clock ?_)
  rw [if_neg (by simp [open_]; omega),if_pos hashed.symm]
  refine Ends.bind (ends_write healthy ?_)
  refine Ends.bind (ends_base rfl fun _ b first => ?_)
  refine Ends.bind (ends_base rfl fun _ b second => ?_)
  exact Ends.pure (holds _ _ (second.trans (first.trans healthy)))

theorem ends_redeem {service : VerificationTokenService} {post : RedeemResult → World → Prop}
    (healthy : w.base.fault = none)
    (found : w.verificationTokens.find? (live platform token) = some doc)
    (tenant : doc.tenantId = service.tenantId) (application : doc.applicationId = service.applicationId)
    (current : w.base.now ≤ doc.expiresAt)
    (holds : ∀ tokens, post ⟨doc.userId,doc.kind,doc.tenantId,doc.applicationId,doc.target,doc.redirectUri⟩
      {w with verificationTokens := tokens}) :
    Ends i (redeem platform service token) w post := by
  refine Ends.bind (ends_mongo healthy ?_)
  simp only [found,Option.map_some,VerificationTokenDoc.use,tenant,ne_eq,not_true,if_false]
  refine Ends.bind (ends_clock ?_)
  simp only [application,not_true,if_false,Nat.not_lt.mpr current]
  rw [← tenant,← application]
  exact Ends.pure (holds _)

theorem ends_findUser {engine : AuthEngine} {post : Option UserDoc → World → Prop} (healthy : w.base.fault = none)
    (holds : post (engine.userFor input w.users) w) : Ends i (engine.findUser input) w post := ends_read healthy holds

theorem ends_resetPassword {engine : AuthEngine} {post : UserDoc × IssuedTokens → World → Prop}
    (healthy : w.base.fault = none) (empty : w.sessions.docs = [])
    (accepted : evaluatePassword input.newPassword engine.passwordPolicy = [])
    (few : (cachedNumber (w.base.cache.get w.base.now
      (.otpAttempts input.channel.name (engine.platform.toLowerCase input.target)))).getD 0 < engine.otp.maxAttempts)
    (found : w.otps.find? (engine.otp.selects input.channel (engine.platform.toLowerCase input.target) .password_reset) =
      some doc)
    (current : w.base.now ≤ doc.expiresAt) (open_ : doc.consumed = false)
    (hashed : doc.codeHash = engine.platform.sha256 input.code)
    (resolved : engine.userFor (AuthEngine.resetHandle input.channel input.target) w.users = some user)
    (holds : ∀ tokens t, tokens.accessToken.sub = user.id → post (user,tokens) t) :
    Ends i (engine.resetPassword input) w post := by
  refine Ends.bind (ends_checkPassword accepted ?_)
  refine Ends.bind (ends_verifyOtp healthy few found current open_ hashed fun b otps kept => ?_)
  rw [if_pos rfl]
  refine Ends.bind (ends_findUser kept ?_)
  simp only [resolved]
  exact ends_finishReset kept empty holds

theorem ends_resetPasswordWithToken {engine : AuthEngine} {post : UserDoc × IssuedTokens → World → Prop}
    (healthy : w.base.fault = none) (empty : w.sessions.docs = [])
    (accepted : evaluatePassword input.newPassword engine.passwordPolicy = [])
    (found : w.verificationTokens.find? (live engine.platform input.token) = some doc)
    (tenant : doc.tenantId = engine.verificationTokens.tenantId)
    (application : doc.applicationId = engine.verificationTokens.applicationId) (current : w.base.now ≤ doc.expiresAt)
    (kind : doc.kind = .password_reset)
    (resolved : engine.userFor (AuthEngine.byId doc.userId) w.users = some user)
    (holds : ∀ tokens t, tokens.accessToken.sub = user.id → post (user,tokens) t) :
    Ends i (engine.resetPasswordWithToken input) w post := by
  refine Ends.bind (ends_checkPassword accepted ?_)
  refine Ends.bind (ends_redeem healthy found tenant application current fun tokens => ?_)
  rw [if_pos kind]
  refine Ends.bind (ends_findUser healthy ?_)
  simp only [resolved]
  exact ends_finishReset healthy empty holds

theorem ends_refreshSession {engine : AuthEngine} {post : IssuedTokens → World → Prop}
    (healthy : w.base.fault = none) (only : w.sessions.docs = [doc]) (active : doc.status = .active)
    (hashed : doc.currentRefreshTokenHash = engine.sessions.hashRefreshToken token)
    (tenant : doc.tenantId = engine.tenantId) (application : doc.applicationId = engine.applicationId)
    (unused : ∀ n, w.base.draws.length ≤ n →
      engine.sessions.random.fresh n ≠ token ∧ engine.sessions.random.fresh n ≠ doc.id)
    (holds : ∀ tokens t, tokens.accessToken.sub = doc.userId → post tokens t) :
    Ends i (engine.refreshSession token device) w post := by
  refine Ends.bind (Ends.zoom (Session.ends_refresh healthy only active ?_ unused fun created b store kept owner home place => ?_))
  · simp [Session.presents,hashed,truthy]
  · rw [if_neg (by simp [home,place,tenant,application])]
    refine Ends.bind (ends_buildIdentityContext kept fun roles permissions => ?_)
    refine Ends.bind (ends_read kept ?_)
    refine Ends.bind (ends_signAccessToken kept fun token b _ sub => Ends.pure ?_)
    exact holds _ _ (sub.trans owner)

theorem ends_withAccountStore {p : Program α} {post : α → World → Prop} (ends : Ends i p w post) :
    Ends i (withAccountStore p) w post :=
  Ends.bind (Ends.attempt (ends.mono fun _ _ holds => Ends.pure holds))

theorem ends_completeLogin {engine : AuthEngine} {post : LoginResult → World → Prop} (healthy : w.base.fault = none)
    (empty : w.sessions.docs = []) (holds : ∀ tokens t, post (.complete user tokens) t) :
    Ends i (engine.completeLogin user authMethod applicationId device) w post := by
  refine Ends.bind (ends_mongoenSession healthy empty fun created b sessions kept _ => ?_)
  exact Ends.bind (ends_mintTokens kept fun tokens b _ => Ends.pure (holds _ _))

theorem ends_loginPassword {engine : AuthEngine} {post : LoginResult → World → Prop} (healthy : w.base.fault = none)
    (empty : w.sessions.docs = []) (single : engine.mfa = false)
    (found : engine.userFor (AuthEngine.byHandle input.email input.phone) w.users = some user)
    (unlocked : user.loginLockUntil = none) (active : user.isActive = true)
    (hashed : (truthy user.passwordHash).filter isArgon2Hash = some passwordHash)
    (verified : engine.platform.verifyPassword input.password passwordHash = true)
    (holds : ∀ tokens t, post (.complete user tokens) t) : Ends i (engine.loginPassword input) w post := by
  refine Ends.bind (ends_withAccountStore (ends_findUser healthy ?_))
  simp only [found]
  refine Ends.bind (ends_clock ?_)
  simp only [unlocked,Option.any_none,Bool.false_eq_true,if_false,hashed,verified,active,if_true]
  refine Ends.bind (ends_withAccountStore (ends_write healthy ?_))
  simp only [AuthEngine.mfaGateway,single,Bool.false_eq_true,if_false]
  refine Ends.bind (Ends.pure ?_)
  exact ends_completeLogin healthy empty holds

theorem ends_loginOtp {engine : AuthEngine} {post : LoginResult → World → Prop} (healthy : w.base.fault = none)
    (empty : w.sessions.docs = []) (single : engine.mfa = false)
    (few : (cachedNumber (w.base.cache.get w.base.now
      (.otpAttempts input.channel.name (engine.platform.toLowerCase input.target)))).getD 0 < engine.otp.maxAttempts)
    (sent : w.otps.find? (engine.otp.selects input.channel (engine.platform.toLowerCase input.target) .login) = some doc)
    (current : w.base.now ≤ doc.expiresAt) (open_ : doc.consumed = false)
    (hashed : doc.codeHash = engine.platform.sha256 input.code)
    (found : engine.userFor (AuthEngine.byHandle input.email input.phone) w.users = some user)
    (active : user.isActive = true) (holds : ∀ tokens t, post (.complete user tokens) t) :
    Ends i (engine.loginOtp input) w post := by
  refine Ends.bind (ends_verifyOtp healthy few sent current open_ hashed fun b otps kept => ?_)
  rw [if_pos rfl]
  refine Ends.bind (ends_findUser kept ?_)
  simp only [found,active,if_true,AuthEngine.mfaGateway,single,Bool.false_eq_true,if_false]
  refine Ends.bind (Ends.pure ?_)
  exact ends_completeLogin kept empty holds

-- A reply with tokens, and what is to be true of them.
def Reply.issuing (check : Option UserDoc → IssuedTokens → Bool) : Reply → Bool
  | .issued user tokens => check user tokens
  | .mfaRequired _ _ => false

theorem Reply.issuing_some (shown : Reply.issuing check reply = true) :
    ∃ user tokens, reply = .issued user tokens ∧ check user tokens = true := by
  cases reply with
  | issued user tokens => exact ⟨user,tokens,rfl,shown⟩
  | mfaRequired _ _ => cases shown

-- A reply that asks for the second factor.
def Reply.asking (check : String → Bool) : Reply → Bool
  | .mfaRequired userId _ => check userId
  | .issued _ _ => false

theorem Reply.asking_some (shown : Reply.asking check reply = true) :
    ∃ userId user, reply = .mfaRequired userId user ∧ check userId = true := by
  cases reply with
  | mfaRequired userId user => exact ⟨userId,user,rfl,shown⟩
  | issued _ _ => cases shown

theorem marked_injective {text other : String} (same : String.ofList ('#' :: text.toList) = String.ofList ('#' :: other.toList)) :
    text = other := by
  have lists := congrArg String.toList same
  simp only [String.toList_ofList,List.cons.injEq,true_and] at lists
  exact String.ext lists

-- A small engine to run calls on.
def samplePlatform : Platform where
  random := Session.sampleRandom
  toLowerCase text := String.ofList (text.toList.map Char.toLower)
  trim text := String.ofList ((text.toList.dropWhile Char.isWhitespace).reverse.dropWhile Char.isWhitespace).reverse
  sha256 text := String.ofList ('#' :: text.toList)
  sha256_injective _ _ := marked_injective
  s256 text := String.ofList ('#' :: text.toList)
  hashPassword plaintext salt := String.ofList ("$argon2id$".toList ++ salt.toList ++ '$' :: plaintext.toList)
  verifyPassword plaintext stored := ('$' :: plaintext.toList).isSuffixOf stored.toList
  generateOtp length _ := String.ofList (List.replicate length '0')
  unwrap wrapped := .ok wrapped
  verifyTotp code secret _ := decide (code = secret)

-- The same platform, evaluated without decoding the texts it marks.
def markingPlatform : Platform := {samplePlatform with
  toLowerCase := fun text => if text = "user@example.com" then text else samplePlatform.toLowerCase text
  sha256 := fun text => "#" ++ text
  sha256_injective := fun one two same => String.ext (by simpa using congrArg String.toList same)
  s256 := fun text => "#" ++ text
  hashPassword := fun plaintext salt => "$argon2id$" ++ salt ++ "$" ++ plaintext}

theorem samplePlatform_eq : samplePlatform = markingPlatform := by
  have lower : samplePlatform.toLowerCase = markingPlatform.toLowerCase := by
    funext text
    by_cases own : text = "user@example.com"
    · subst own
      decide +kernel
    · exact (if_neg own).symm
  have digest : samplePlatform.sha256 = markingPlatform.sha256 := by
    funext text
    apply String.toList_injective
    simp [samplePlatform,markingPlatform]
  have hashed : samplePlatform.hashPassword = markingPlatform.hashPassword := by
    funext plaintext salt
    apply String.toList_injective
    simp [samplePlatform,markingPlatform]
  unfold markingPlatform at lower digest hashed ⊢
  dsimp only at lower digest hashed
  simp only [← lower,← digest,← hashed]
  rfl

def sampleEngine : AuthEngine where
  platform := samplePlatform
  tokens := ⟨"issuer","audience",900000⟩
  sessions := Session.sampleService true
  tenantId := "tenant"
  applicationId := "application"
  issuer := "issuer"
  passwordPolicy := DEFAULT_PASSWORD_POLICY
  otp := ⟨"tenant","application",6,300000,5,60000,900000,true⟩
  mfa := true
  verificationTokens := ⟨"tenant","application"⟩
  lookupUser := none

def soleAccount (user : UserDoc) : World where
  base := ⟨0,[],none,[]⟩
  sessions := ⟨[],[]⟩
  users := [user]
  otps := []
  verificationTokens := []
  backupCodes := []
  roles := []
  assignments := []
  permissions := []
  clients := []
  codes := []
  oauthLog := []
  deliveries := []

def sampleUser : UserDoc where
  id := "user"
  tenantId := "tenant"
  email := some "user@example.com"
  phone := none
  emailVerified := true
  phoneVerified := false
  isActive := true
  tokenVersion := 0
  passwordHash := some "$argon2id$salt$Passw0rd"
  failedLoginAttempts := 0
  loginLockUntil := none
  mfaEnabled := false
  mfaSecret := none
  mfaSecretVerifiedAt := none
  mfaFailedAttempts := 0
  mfaLockUntil := none

def anyDevice : DeviceInfo := ⟨none,none,none⟩

end Pezhwan.Auth
