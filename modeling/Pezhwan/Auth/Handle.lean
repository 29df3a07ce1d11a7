import Pezhwan.Auth.Total

namespace Pezhwan.Auth
open Atomic Prog Discipline

-- The bodies of POST /login, /otp/login and /password/reset.
inductive Request where
  | login (email phone password : Option String)
  | otpLogin (channel target code : Option String)
  | passwordReset (channel target code newPassword : Option String)
  deriving DecidableEq

def Channel.parse (name : String) : Channel :=
  if name = "email" then .email else if name = "phone" then .phone else .other name

-- What the route passes on to the engine; none when it rejects the body.
def Request.call (applicationId : String) (device : DeviceInfo) : Request → Option Call
  | .login email phone password => password.map fun password =>
      .loginPassword ⟨applicationId,email,phone,password,device⟩
  | .otpLogin channel target code => match truthy channel,truthy target,truthy code with
    | some channel,some target,some code =>
      some (.loginOtp ⟨applicationId,Channel.parse channel,target,none,none,code,device⟩)
    | _,_,_ => none
  | .passwordReset channel target code newPassword =>
    some (.resetPassword ⟨applicationId,Channel.parse (channel.getD "email"),target.getD "",code.getD "",
      newPassword.getD "",device⟩)

-- The handles a request can prove possession of: the presented ones for a
-- password, the target of the code otherwise.
def Request.handles : Request → List String
  | .login email phone _ => email.toList ++ phone.toList
  | .otpLogin _ target _ => target.toList
  | .passwordReset _ target _ _ => [target.getD ""]

def HasHandle (platform : Platform) (user : UserDoc) (handle : String) : Prop :=
  user.email = some (platform.emailSetter (platform.toLowerCase handle)) ∨ user.phone = some (platform.phoneSetter handle)

def Reply.user : Reply → Option UserDoc
  | .mfaRequired _ user => some user
  | .issued user _ => user

def Owned (engine : AuthEngine) (request : Request) (reply : Reply) : Prop :=
  ∃ user handle, reply.user = some user ∧ user.tenantId = engine.tenantId ∧ handle ∈ request.handles ∧
    HasHandle engine.platform user handle

-- Whatever the store holds and whatever happens to it meanwhile, the account
-- that comes back is the one whose handle was proved.
def ReturnsOwner (request : Request) : Prop :=
  ∀ engine device call other i s reply t, engine.lookupUser = none →
    request.call engine.applicationId device = some call → Exec other i (program engine call) s (.ok reply) t →
    Owned engine request reply

theorem anyway {other : World → World → Prop} : Link Calm other (fun _ _ => True) :=
  ⟨fun _ => trivial,fun _ _ => trivial,fun _ => trivial,fun _ => trivial⟩

theorem userFor_handle {engine : AuthEngine} (standard : engine.lookupUser = none)
    (found : engine.userFor (AuthEngine.byHandle email phone) users = some user)
    (given : (truthy email).isSome = true ∨ (truthy phone).isSome = true) :
    ∃ handle ∈ email.toList ++ phone.toList, HasHandle engine.platform user handle := by
  have selected : engine.selects (AuthEngine.byHandle email phone) user = true := by
    simp only [AuthEngine.userFor,standard] at found
    exact List.find?_some found
  simp only [AuthEngine.selects,AuthEngine.byHandle,truthy_none,Bool.and_eq_true] at selected
  have chosen := selected.2
  split at chosen
  · rename_i handle present
    obtain ⟨rfl,_⟩ := Option.filter_eq_some_iff.mp present
    exact ⟨handle,by simp,.inl (of_decide_eq_true chosen)⟩
  · rename_i absent
    split at chosen
    · rename_i handle present
      obtain ⟨rfl,_⟩ := Option.filter_eq_some_iff.mp present
      exact ⟨handle,by simp,.inr (of_decide_eq_true chosen)⟩
    · rename_i missing
      simp [absent,missing] at given

theorem gated_user (gated : Gated r engine user result w t) : result.reply.user = some user := by
  rcases gated with ⟨rfl,_⟩ | ⟨created,tokens,u,rfl,_⟩
  · rfl
  · rfl

theorem login_owned (given : (truthy email).isSome = true ∨ (truthy phone).isSome = true) :
    ReturnsOwner (.login email phone password) := by
  intro engine device call other i s reply t standard passed ran
  obtain ⟨password,_,rfl⟩ := Option.map_eq_some_iff.mp passed
  obtain ⟨result,u,inner,rfl,_⟩ := exec_map ran
  obtain ⟨user,w,w',_,_,found,_,_,gated⟩ := loginPassword_parts anyway inner
  obtain ⟨handle,listed,has⟩ := userFor_handle standard found given
  exact ⟨user,handle,gated_user gated,userFor_inTenant found,listed,has⟩

theorem reset_owned (channel target : Option String) (known : channel.getD "email" = "email" ∨ channel.getD "email" = "phone")
    (given : target.getD "" ≠ "") : ReturnsOwner (.passwordReset channel target code newPassword) := by
  intro engine device call other i s reply t standard passed ran
  cases passed
  obtain ⟨result,u,inner,rfl,_⟩ := exec_map ran
  obtain ⟨_,v,_,rest⟩ := exec_bind inner
  obtain ⟨verified,v',_,rest⟩ := exec_bind rest
  split at rest
  · obtain ⟨found,x,looked,rest⟩ := exec_bind rest
    obtain ⟨w,_,_,named,_⟩ := findUser_parts anyway looked
    cases found with
    | none => exact absurd rest exec_throw
    | some user =>
      obtain ⟨_,_,_,tokens,_,_,_,_,_,rfl,_⟩ := finishReset_parts anyway rest
      have owned : ∃ handle ∈ [target.getD ""], HasHandle engine.platform user handle := by
        have present := truthy_given given
        rcases known with email | phone
        · have looked : engine.userFor (AuthEngine.byHandle (some (target.getD "")) none) w.users = some user := by
            rw [← named,email]
            rfl
          simpa using userFor_handle standard looked (.inl (by simp [present]))
        · have looked : engine.userFor (AuthEngine.byHandle none (some (target.getD ""))) w.users = some user := by
            rw [← named,phone]
            rfl
          simpa using userFor_handle standard looked (.inr (by simp [present]))
      obtain ⟨handle,listed,has⟩ := owned
      exact ⟨user,handle,rfl,userFor_inTenant named,listed,has⟩
  · exact absurd rest exec_throw

-- An account of the tenant under another address than the proved one, and an
-- engine that lets the request through to the lookup.
def stranger (handle password : String) : UserDoc :=
  let address := samplePlatform.emailSetter (samplePlatform.toLowerCase handle)
  {sampleUser with
    email := some (if address = "user@example.com" then "other@example.com" else "user@example.com"),
    passwordHash := some (samplePlatform.hashPassword password "salt")}

def laxEngine (newPassword : String) : AuthEngine :=
  {sampleEngine with
    mfa := false,
    passwordPolicy := ⟨0,(codeUnits newPassword).length,newPassword.utf8ByteSize,false,false,false,false,4⟩}

theorem stranger_handle (handle password : String) : ¬ HasHandle samplePlatform (stranger handle password) handle := by
  rintro (email | phone)
  · simp only [stranger,Option.some.injEq] at email
    split at email
    · rename_i same
      rw [same] at email
      exact absurd email (by decide)
    · rename_i other
      exact other email.symm
  · cases phone

theorem lax_accepts (newPassword : String) :
    evaluatePassword newPassword (laxEngine newPassword).passwordPolicy = [] := by
  simp [evaluatePassword,laxEngine]

theorem stranger_hash (handle password : String) :
    (truthy (stranger handle password).passwordHash).filter isArgon2Hash =
      some (samplePlatform.hashPassword password "salt") := by
  have given : samplePlatform.hashPassword password "salt" ≠ "" := by
    intro empty
    have lists := congrArg String.toList empty
    simp [samplePlatform] at lists
  have marked : isArgon2Hash (samplePlatform.hashPassword password "salt") = true := by
    simp only [isArgon2Hash,samplePlatform,String.toList_ofList]
    rfl
  simp only [stranger,truthy_given given]
  simp [marked]

theorem stranger_password (password : String) :
    samplePlatform.verifyPassword password (samplePlatform.hashPassword password "salt") = true := by
  simp only [samplePlatform,String.toList_ofList,List.isSuffixOf_iff_suffix]
  exact ⟨_,rfl⟩

theorem userFor_anybody (engine : AuthEngine) (standard : engine.lookupUser = none) (home : user.tenantId = engine.tenantId)
    (missing : truthy email = none) (absent : truthy phone = none) :
    engine.userFor (AuthEngine.byHandle email phone) [user] = some user := by
  simp [AuthEngine.userFor,standard,AuthEngine.selects,AuthEngine.byHandle,missing,absent,home]

theorem not_owner {request : Request} (engine : AuthEngine) (s : World) (user : UserDoc) {p : Program α} {f : α → Reply}
    (standard : engine.lookupUser = none) (passed : request.call engine.applicationId anyDevice = some call)
    (same : program engine call = f <$> p)
    (ends : Ends 0 p s fun value _ => (f value).user = some user)
    (others : ∀ handle ∈ request.handles, ¬ HasHandle engine.platform user handle) : ¬ ReturnsOwner request := by
  intro owned
  obtain ⟨value,t,returned,shown⟩ := ends
  have ran : Returns 0 (program engine call) s (f value) t := by
    rw [same]
    exact returns_bind.mpr ⟨value,t,returned,returns_pure.mpr ⟨rfl,rfl⟩⟩
  obtain ⟨found,handle,hit,_,listed,has⟩ :=
    owned engine anyDevice call (fun _ _ => False) 0 s (f value) t standard passed (returns_exec ran)
  rw [shown] at hit
  cases hit
  exact others handle listed has

theorem login_stranger (missing : truthy email = none) (absent : truthy phone = none) :
    ¬ ReturnsOwner (.login email phone (some password)) := by
  have empty : ∀ {text : Option String}, truthy text = none → ∀ handle ∈ text.toList, handle = "" := by
    intro text none handle listed
    cases text with
    | none => cases listed
    | some value =>
      simp only [Option.toList_some,List.mem_singleton] at listed
      subst listed
      by_contra given
      rw [truthy_given given] at none
      cases none
  refine not_owner (laxEngine "") (soleAccount (stranger "" password)) (stranger "" password) rfl rfl rfl ?_ ?_
  · exact ends_loginPassword rfl rfl rfl (userFor_anybody _ rfl rfl missing absent) rfl rfl (stranger_hash "" password)
      (stranger_password password) fun tokens t => rfl
  · intro handle listed
    rcases List.mem_append.mp listed with inEmail | inPhone
    · rw [empty missing handle inEmail]
      exact stranger_handle "" password
    · rw [empty absent handle inPhone]
      exact stranger_handle "" password

-- The store after a code was sent to the target: the only account is another's.
def codeSent (purpose : OtpPurpose) (channel : Channel) (target code : String) : World :=
  {soleAccount (stranger target "") with
    otps := [⟨"code","tenant","application",channel,samplePlatform.toLowerCase target,purpose,samplePlatform.sha256 code,
      0,0,false⟩]}

theorem codeSent_found (purpose : OtpPurpose) (channel : Channel) (target code newPassword : String) :
    (codeSent purpose channel target code).otps.find?
      ((laxEngine newPassword).otp.selects channel ((laxEngine newPassword).platform.toLowerCase target) purpose) =
      some ⟨"code","tenant","application",channel,samplePlatform.toLowerCase target,purpose,samplePlatform.sha256 code,
        0,0,false⟩ := by
  simp [codeSent,OtpService.selects,laxEngine,sampleEngine]

theorem otpLogin_stranger (one : truthy channel = some channelName) (two : truthy target = some address)
    (three : truthy code = some secret) : ¬ ReturnsOwner (.otpLogin channel target code) := by
  have passed : (Request.otpLogin channel target code).call (laxEngine "").applicationId anyDevice =
      some (.loginOtp ⟨"application",Channel.parse channelName,address,none,none,secret,anyDevice⟩) := by
    simp only [Request.call,one,two,three]
    rfl
  refine not_owner (laxEngine "") (codeSent .login (Channel.parse channelName) address secret) (stranger address "")
    rfl passed rfl ?_ ?_
  · refine ends_loginOtp rfl rfl rfl ?_ (codeSent_found _ _ _ _ "") (Nat.le_refl _) rfl rfl
      (userFor_anybody _ rfl rfl rfl rfl) rfl fun tokens t => rfl
    exact Nat.succ_pos 4
  · intro handle listed
    obtain ⟨rfl,_⟩ := Option.filter_eq_some_iff.mp two
    simp only [Request.handles,Option.toList_some,List.mem_singleton] at listed
    rw [listed]
    exact stranger_handle address ""

theorem resetHandle_anybody (loose : ¬ ((channel = .email ∨ channel = .phone) ∧ target ≠ "")) :
    ∃ email phone, AuthEngine.resetHandle channel target = AuthEngine.byHandle email phone ∧ truthy email = none ∧
      truthy phone = none := by
  refine ⟨_,_,rfl,?_,?_⟩
  · split
    · rename_i email
      have empty : target = "" := by
        by_contra given
        exact loose ⟨.inl email,given⟩
      rw [empty,truthy_empty]
    · rfl
  · split
    · rename_i phone
      have empty : target = "" := by
        by_contra given
        exact loose ⟨.inr phone,given⟩
      rw [empty,truthy_empty]
    · rfl

theorem reset_stranger (loose : ¬ ((Channel.parse name = .email ∨ Channel.parse name = .phone) ∧ target.getD "" ≠ ""))
    (named : channel.getD "email" = name) : ¬ ReturnsOwner (.passwordReset channel target code newPassword) := by
  subst named
  obtain ⟨email,phone,same,missing,absent⟩ := resetHandle_anybody loose
  refine not_owner (laxEngine (newPassword.getD ""))
    (codeSent .password_reset (Channel.parse (channel.getD "email")) (target.getD "") (code.getD ""))
    (stranger (target.getD "") "") rfl rfl rfl ?_ ?_
  · have found : (laxEngine (newPassword.getD "")).userFor
        (AuthEngine.resetHandle (Channel.parse (channel.getD "email")) (target.getD "")) [stranger (target.getD "") ""] =
        some (stranger (target.getD "") "") := by
      rw [same]
      exact userFor_anybody _ rfl rfl missing absent
    refine ends_resetPassword rfl rfl (lax_accepts _) ?_ (codeSent_found _ _ _ _ _) (Nat.le_refl _) rfl rfl found ?_
    · exact Nat.succ_pos 4
    · intro tokens t _
      rfl
  · intro handle listed
    rw [List.mem_singleton.mp listed]
    exact stranger_handle (target.getD "") ""

-- The requests whose lookup is by the proved handle, and those the route rejects.
def Request.Bound : Request → Prop
  | .login email phone password => password = none ∨ (truthy email).isSome = true ∨ (truthy phone).isSome = true
  | .otpLogin channel target code => truthy channel = none ∨ truthy target = none ∨ truthy code = none
  | .passwordReset channel target _ _ =>
    (channel.getD "email" = "email" ∨ channel.getD "email" = "phone") ∧ target.getD "" ≠ ""

theorem parse_known (name : String) :
    (Channel.parse name = .email ∨ Channel.parse name = .phone) ↔ (name = "email" ∨ name = "phone") := by
  unfold Channel.parse
  split
  · simp [*]
  · split
    · simp [*]
    · simp [*]

-- The account that comes back is the one whose handle was proved exactly when
-- the request is bound to its handle.
theorem returns_owner_iff (request : Request) : ReturnsOwner request ↔ request.Bound := by
  cases request with
  | login email phone password =>
    constructor
    · intro owned
      cases password with
      | none => exact .inl rfl
      | some password =>
        by_contra unbound
        simp only [Request.Bound,reduceCtorEq,false_or,not_or,Option.isSome_iff_ne_none,ne_eq,not_not] at unbound
        exact login_stranger unbound.1 unbound.2 owned
    · rintro (rejected | given)
      · subst rejected
        intro engine device call other i s reply t _ passed
        cases passed
      · exact login_owned given
  | otpLogin channel target code =>
    constructor
    · intro owned
      by_contra accepted
      simp only [Request.Bound,not_or,← ne_eq,Option.ne_none_iff_exists'] at accepted
      obtain ⟨⟨_,one⟩,⟨_,two⟩,⟨_,three⟩⟩ := accepted
      exact otpLogin_stranger one two three owned
    · intro rejected engine device call other i s reply t _ passed
      simp only [Request.call] at passed
      split at passed
      · rename_i one two three
        rcases rejected with missing | missing | missing
        · rw [missing] at one; cases one
        · rw [missing] at two; cases two
        · rw [missing] at three; cases three
      · cases passed
  | passwordReset channel target code newPassword =>
    constructor
    · intro owned
      by_contra loose
      refine reset_stranger ?_ rfl owned
      rw [parse_known]
      exact loose
    · intro bound
      exact reset_owned channel target bound.1 bound.2

-- Mallory proves her own mailbox and is let into the first account of the tenant.
def malloryLogin : Request := .otpLogin (some "email") (some "mallory@example.com") (some "000000")

def withMallory : World :=
  {codeSent .login .email "mallory@example.com" "000000" with
    users := [sampleUser,{sampleUser with id := "mallory",email := some "mallory@example.com"}]}

theorem otp_login_returns_stranger : ∃ call reply t, malloryLogin.call "application" anyDevice = some call ∧
    Exec (fun _ _ => False) 0 (program sampleEngine call) withMallory (.ok reply) t ∧
    reply.user = some sampleUser ∧ ¬ Owned sampleEngine malloryLogin reply := by
  have ran : endsWith 0 (program sampleEngine (.loginOtp
      ⟨"application",.email,"mallory@example.com",none,none,"000000",anyDevice⟩)) withMallory
      (fun reply _ => decide (reply.user = some sampleUser)) = true := by decide +kernel
  obtain ⟨reply,t,returned,shown⟩ := endsWith_ends.mp ran
  have mine := of_decide_eq_true shown
  refine ⟨_,reply,t,rfl,returns_exec returned,mine,?_⟩
  intro ⟨user,handle,same,_,listed,has⟩
  rw [mine] at same
  cases same
  have proved : handle = "mallory@example.com" := by simpa [malloryLogin,Request.handles] using listed
  rw [proved] at has
  rcases has with email | phone
  · exact absurd email (by decide +kernel)
  · cases phone

end Pezhwan.Auth
