import Pezhwan.Auth.Total

namespace Pezhwan.Auth
open Atomic Prog Discipline

-- One call of a run: the state it found, what it answered, the state it left.
structure Event where
  call : Call
  start : World
  reply : Except Error Reply
  finish : World

def Event.Issues (userId : String) (e : Event) : Prop :=
  match e.reply with
  | .ok reply => reply.TokensFor userId
  | .error _ => False

def Event.FirstFactor (userId : String) (e : Event) : Prop :=
  match e.call,e.reply with
  | .loginPassword _,.ok (.mfaRequired asked _) => asked = userId
  | .loginOtp _,.ok (.mfaRequired asked _) => asked = userId
  | _,_ => False

def Event.Completes (userId : String) (e : Event) : Prop :=
  match e.call with
  | .verifyMfaLogin _ => e.Issues userId
  | _ => False

-- A first factor that no completed login has used yet.
def Pending (history : List Event) (userId : String) : Prop :=
  ∃ early first late, history = early ++ first :: late ∧ first.FirstFactor userId ∧ ∀ e ∈ late, ¬ e.Completes userId

-- Calls one after another. Between two calls `elsewhere` may move the state: other
-- services, administration, time. A document's id is an ObjectId and not empty.
inductive Run (engine : AuthEngine) (elsewhere : World → World → Prop) (permit : List Event → Call → World → Prop)
    (start : World) : List Event → World → Prop where
  | nil : Run engine elsewhere permit start [] start
  | elsewhere (run : Run engine elsewhere permit start history w) (moved : elsewhere w w') :
      Run engine elsewhere permit start history w'
  | call (run : Run engine elsewhere permit start history w) (named : "" ∉ w.users.map UserDoc.id)
      (permitted : permit history call w) (ran : (program engine call).run i w = (reply,t)) :
      Run engine elsewhere permit start (history ++ [⟨call,w,reply,t⟩]) t

-- The second factor is checked at all, no recovery is for an account that has
-- one, and a second factor is presented for a first factor of its own.
def Careful (engine : AuthEngine) (history : List Event) (call : Call) (w : World) : Prop :=
  engine.mfa = true ∧ (∀ user, resolved engine w call = some user → secondFactor user.id w = false) ∧
    ∀ input, call = .verifyMfaLogin input → Pending history input.userId

-- The tokens close a login that has shown both factors, in their order.
def TwoFactors (engine : AuthEngine) (before : List Event) (e : Event) (userId : String) : Prop :=
  Pending before userId ∧ ∃ input i x y, e.call = .verifyMfaLogin input ∧ input.userId = userId ∧ Calm e.start x ∧
    Returns i (verifyMfa engine.platform userId input.code) x true y

def Call.isRefresh : Call → Bool
  | .refreshSession .. => true
  | _ => false

theorem secondFactor_standing (userId : String) (w : World) :
    secondFactor userId w = ((standing userId w).map fun state => state.2.2.1).getD false := by
  simp only [secondFactor,standing,Option.map_map]
  rfl

theorem secondFactor_calm (calm : Calm s t) : secondFactor userId t = secondFactor userId s := by
  rw [secondFactor_standing,secondFactor_standing,calm.2.2 userId]

theorem minted_owner (minted : Minted subject tokenVersion created tokens) (owner : created.userId = subject)
    (issued : (Reply.issued user tokens).TokensFor userId) : subject = userId := by
  rcases minted_for minted issued with same | same
  · exact same
  · exact owner.symm.trans same

theorem secondFactor_raised (engine : AuthEngine) (user : UserDoc) (passwordHash : String) (userId : String) (w : World) :
    secondFactor userId (raised engine user passwordHash w) = secondFactor userId w := by
  unfold secondFactor userById raised World.updateUser
  rw [Collection.lookup_updateOne]
  · intro doc
    rfl
  · intro doc
    rfl

theorem finishReset_issues {engine : AuthEngine} (still : Aside s u)
    (returned : Returns i (engine.finishReset user applicationId newPassword device authMethod) u result t)
    (issued : (Reply.issued (some result.1) result.2).TokensFor userId) :
    user.id = userId ∧ secondFactor userId t = secondFactor userId s := by
  obtain ⟨x,v,created,tokens,passwordHash,first,_,after,last,rfl,owner,minted⟩ :=
    finishReset_parts alone (returns_exec returned)
  refine ⟨minted_owner minted owner issued,?_⟩
  calc secondFactor userId t
      = secondFactor userId (forgotten user.id v) := secondFactor_calm last
    _ = secondFactor userId v := rfl
    _ = secondFactor userId (raised engine user passwordHash x) := secondFactor_calm after
    _ = secondFactor userId x := secondFactor_raised engine user passwordHash userId x
    _ = secondFactor userId s := secondFactor_calm (world_calm_trans (aside_calm still) first)

theorem gated_issues {engine : AuthEngine} (configured : engine.mfa = true) (gated : Gated Calm engine user result w t)
    (issued : result.reply.TokensFor userId) : secondFactor userId t = false := by
  rcases gated with ⟨rfl,_⟩ | ⟨created,tokens,u,rfl,owner,minted,_,unset,last⟩
  · exact issued.elim
  · rw [secondFactor_calm last,← minted_owner minted owner issued]
    exact unset configured

theorem issued_factors {engine : AuthEngine} (named : "" ∉ w.users.map UserDoc.id)
    (careful : Careful engine history call w) (returned : Returns i (program engine call) w reply t)
    (login : call.isRefresh = false) (issued : reply.TokensFor userId) (enabled : secondFactor userId t = true) :
    TwoFactors engine history ⟨call,w,.ok reply,t⟩ userId := by
  obtain ⟨configured,recovered,first⟩ := careful
  cases call with
  | register input =>
    obtain ⟨result,inner,rfl⟩ := returns_map returned
    obtain ⟨doc,x,created,tokens,_,_,newcomer,rfl,owner,minted,after⟩ := register_parts alone (returns_exec inner)
    rw [secondFactor_calm after,← minted_owner minted owner issued,secondFactor_standing,
      standing_newcomer newcomer i] at enabled
    cases enabled
  | loginPassword input =>
    obtain ⟨result,inner,rfl⟩ := returns_map returned
    obtain ⟨user,x,x',_,_,_,_,_,gated⟩ := loginPassword_parts alone (returns_exec inner)
    rw [gated_issues configured gated issued] at enabled
    cases enabled
  | loginOtp input =>
    obtain ⟨result,inner,rfl⟩ := returns_map returned
    obtain ⟨user,x,x',_,_,_,_,_,gated⟩ := loginOtp_parts alone (returns_exec inner)
    rw [gated_issues configured gated issued] at enabled
    cases enabled
  | verifyMfaLogin input =>
    obtain ⟨result,inner,rfl⟩ := returns_map returned
    obtain ⟨one,x,last,x',created,tokens,_,before,_,_,_,_,found,rfl,owner,minted,_,y,z,reach,challenged⟩ :=
      verifyMfaLogin_parts alone (returns_exec inner)
    have given : input.userId ≠ "" := by
      intro empty
      obtain ⟨x,user,seen,exists_,_⟩ := verifyMfa_parts alone challenged
      obtain ⟨stored,same⟩ := Collection.lookup_some exists_
      have calm := world_calm_trans before (world_calm_trans reach seen)
      rw [← calm.2.1] at named
      exact named (List.mem_map.mpr ⟨user,stored,same.trans empty⟩)
    have subject := userFor_named found given
    have same := minted_owner minted (owner.trans subject.symm) issued
    have asked : input.userId = userId := subject.symm.trans same
    subst asked
    exact ⟨first input rfl,input,i,y,z,rfl,rfl,world_calm_trans before reach,exec_alone challenged⟩
  | refreshSession token device => cases login
  | resetPassword input =>
    obtain ⟨result,inner,rfl⟩ := returns_map returned
    obtain ⟨user,u,asked,still,finished⟩ := resetPassword_resolved inner
    obtain ⟨rfl,same⟩ := finishReset_issues still finished issued
    rw [same,recovered user asked] at enabled
    cases enabled
  | resetPasswordWithToken input =>
    obtain ⟨result,inner,rfl⟩ := returns_map returned
    obtain ⟨user,u,asked,still,finished⟩ := resetPasswordWithToken_resolved inner
    obtain ⟨rfl,same⟩ := finishReset_issues still finished issued
    rw [same,recovered user asked] at enabled
    cases enabled
  | redeemMagicLink token device =>
    obtain ⟨result,inner,rfl⟩ := returns_map returned
    obtain ⟨user,created,asked,_,owner,minted,calm⟩ := redeemMagicLink_resolved inner
    rw [secondFactor_calm calm,← minted_owner minted owner issued,recovered user asked] at enabled
    cases enabled

theorem append_single_parts {history before after : List Event} (split : history ++ [last] = before ++ e :: after) :
    (history = before ∧ last = e ∧ after = []) ∨ ∃ rest, history = before ++ e :: rest ∧ after = rest ++ [last] := by
  rcases List.eq_nil_or_concat after with rfl | ⟨rest,final,rfl⟩
  · have ends := List.append_inj' split (by simp)
    exact .inl ⟨ends.1,List.singleton_inj.mp ends.2,rfl⟩
  · have same : history ++ [last] = (before ++ e :: rest) ++ [final] := by rw [split]; simp
    have ends := List.append_inj' same (by simp)
    exact .inr ⟨rest,ends.1,by rw [List.singleton_inj.mp ends.2,List.concat_eq_append]⟩

-- In a careful run every issue of tokens for an account with a second factor
-- ends a login that has shown the first factor and then the second.
theorem second_factor_follows_first (engine : AuthEngine) (elsewhere : World → World → Prop) (start : World)
    (history : List Event) (w : World) (run : Run engine elsewhere (Careful engine) start history w) :
    ∀ before e after userId, history = before ++ e :: after → e.call.isRefresh = false → e.Issues userId →
      secondFactor userId e.finish = true → TwoFactors engine before e userId := by
  induction run with
  | nil =>
    intro before e after userId split
    simp at split
  | elsewhere _ _ ih => exact ih
  | @call history w call i reply t _ named permitted ran ih =>
    intro before e after userId split login issues enabled
    rcases append_single_parts split with ⟨rfl,rfl,_⟩ | ⟨rest,earlier,_⟩
    · cases reply with
      | error error => exact issues.elim
      | ok reply => exact issued_factors named permitted ran login issues enabled
    · exact ih before e rest userId earlier login issues enabled

def guardedUser : UserDoc := {sampleUser with mfaEnabled := true,mfaSecret := some "123456"}

def passwordLogin : Call := .loginPassword ⟨"application",some "user@example.com",none,"Passw0rd",anyDevice⟩
def codeLogin : Call := .verifyMfaLogin ⟨"user","application","123456",anyDevice⟩

theorem careful_password : Careful sampleEngine [] passwordLogin w := by
  refine ⟨rfl,?_,?_⟩
  · intro user asked
    simp [resolved,passwordLogin] at asked
  · intro input same
    simp [passwordLogin] at same

theorem careful_code (pending : Pending history "user") : Careful sampleEngine history codeLogin w := by
  refine ⟨rfl,?_,?_⟩
  · intro user asked
    simp [resolved,codeLogin] at asked
  · intro input same
    simp only [codeLogin,Call.verifyMfaLogin.injEq] at same
    rw [← same]
    exact pending

theorem second_factor_follows_first_login : ∃ first last w,
    Run sampleEngine (fun _ _ => False) (Careful sampleEngine) (soleAccount guardedUser) [first,last] w ∧
      last.Issues "user" ∧ secondFactor "user" last.finish = true ∧ TwoFactors sampleEngine [first] last "user" := by
  have asked : endsWith 0 (program sampleEngine passwordLogin) (soleAccount guardedUser) (fun reply t => reply.asking fun userId =>
      decide (userId = "user" ∧ "" ∉ t.users.map UserDoc.id) &&
        endsWith 1 (program sampleEngine codeLogin) t (fun reply u => reply.issuing fun _ tokens =>
          decide (tokens.accessToken.sub = "user" ∧ secondFactor "user" u = true))) = true := by decide +kernel
  obtain ⟨reply,t,returned,shown⟩ := endsWith_ends.mp asked
  obtain ⟨userId,user,rfl,facts⟩ := Reply.asking_some shown
  simp only [Bool.and_eq_true,decide_eq_true_eq] at facts
  obtain ⟨⟨rfl,named⟩,completed⟩ := facts
  obtain ⟨final,u,finished,ended⟩ := endsWith_ends.mp completed
  obtain ⟨owner,tokens,rfl,facts⟩ := Reply.issuing_some ended
  simp only [decide_eq_true_eq] at facts
  let first : Event := ⟨passwordLogin,soleAccount guardedUser,.ok (.mfaRequired "user" user),t⟩
  let last : Event := ⟨codeLogin,t,.ok (.issued owner tokens),u⟩
  have pending : Pending [first] "user" := ⟨[],first,[],rfl,rfl,fun e member => absurd member List.not_mem_nil⟩
  have one : Run sampleEngine (fun _ _ => False) (Careful sampleEngine) (soleAccount guardedUser) ([] ++ [first]) t :=
    .call .nil (by decide) careful_password returned
  have two : Run sampleEngine (fun _ _ => False) (Careful sampleEngine) (soleAccount guardedUser)
      (([] ++ [first]) ++ [last]) u := .call one named (careful_code pending) finished
  refine ⟨first,last,u,two,.inl facts.1,facts.2,?_⟩
  exact second_factor_follows_first sampleEngine _ _ _ _ two [first] last [] "user" rfl rfl (.inl facts.1) facts.2

-- A magic link opens an account whose second factor is on, with no code asked for.
def withMagicLink (user : UserDoc) : World :=
  {soleAccount user with verificationTokens :=
    [⟨"link",.magic_link,"tenant","application","user","#secret",none,none,1000,none⟩]}

theorem magic_link_skips_factors : ∃ e w,
    Run sampleEngine (fun _ _ => False) (fun _ _ _ => True) (withMagicLink guardedUser) [e] w ∧
      e.call = .redeemMagicLink "secret" anyDevice ∧ e.Issues "user" ∧ secondFactor "user" e.finish = true ∧
      ¬ TwoFactors sampleEngine [] e "user" := by
  have opened : endsWith 0 (program sampleEngine (.redeemMagicLink "secret" anyDevice)) (withMagicLink guardedUser)
      (fun reply t => reply.issuing fun _ tokens =>
        decide (tokens.accessToken.sub = "user" ∧ secondFactor "user" t = true)) = true := by decide +kernel
  obtain ⟨reply,t,returned,shown⟩ := endsWith_ends.mp opened
  obtain ⟨user,tokens,rfl,facts⟩ := Reply.issuing_some shown
  simp only [decide_eq_true_eq] at facts
  refine ⟨_,t,.call .nil (by decide) trivial returned,rfl,.inl facts.1,facts.2,?_⟩
  rintro ⟨⟨early,first,late,split,_⟩,_⟩
  simp at split

end Pezhwan.Auth
