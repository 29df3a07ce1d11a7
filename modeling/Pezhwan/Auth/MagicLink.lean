import Pezhwan.Numeric.Base64
import Pezhwan.Secrets.Providers
import Pezhwan.Streams.Pattern

-- Magic links: a signed text of four fields.
namespace Pezhwan.MagicLink
open Numeric

abbrev Text := List Char

-- The SHA-256 digest of a text.
structure Node where
  sha256 : Text → Bytes

structure MagicLinkOptions where
  ttlSeconds : Option ℕ
  secret : Text

structure MagicLinkService where
  ttlSeconds : ℕ
  secret : Text
  given : secret ≠ []

structure Link where
  url : Text
  token : Text
  expiresAt : ℕ
  deriving DecidableEq, Repr

structure Verified where
  subject : Text
  audience : Text
  nonce : Text
  deriving DecidableEq, Repr

def leadingNumber (text : Text) : Option ℤ :=
  let digits := text.takeWhile Char.isDigit
  if digits = [] then none else some (Nat.ofDigitChars 10 digits 0 : ℕ)

-- Number.parseInt(text, 10), where `none` is no number.
def parseInt (text : Text) : Option ℤ :=
  match text.dropWhile isSpace with
  | '-' :: rest => (leadingNumber rest).map fun n => -n
  | '+' :: rest => leadingNumber rest
  | rest => leadingNumber rest

namespace MagicLinkService

def new (options : MagicLinkOptions) : Except String MagicLinkService :=
  if given : options.secret = [] then .error "MagicLinkService requires a secret"
  else .ok ⟨options.ttlSeconds.getD (15 * 60),options.secret,given⟩

variable (node : Node) (service : MagicLinkService)

def sign (payload : Text) : Text := Base64.encodeUrl (node.sha256 (payload ++ '.' :: service.secret))

def base (subject audience exp nonce : Text) : Text := ['.'].intercalate [subject,audience,exp,nonce]

def exp (now : ℕ) : ℕ := now / 1000 + service.ttlSeconds

-- `bytes` are 24 random bytes, `now` is the clock in milliseconds.
def create (subject audience : Text) (redirectUri : Option Text) (bytes : Bytes) (now : ℕ) : Link :=
  let nonce := Base64.encodeUrl bytes
  let payload := base subject audience (Nat.toDigits 10 (service.exp now)) nonce
  let token := payload ++ '.' :: service.sign node payload
  let url :=
    match redirectUri.filter (· ≠ []) with
    | some uri => uri ++ (if '?' ∈ uri then '&' else '?') :: ("magic=".toList ++ Secrets.encodeURIComponent token)
    | none => token
  ⟨url,token,service.exp now * 1000⟩

def verify (token : Text) (now : ℕ) : Except String Verified :=
  match token.splitOn '.' with
  | [subject,audience,expStr,nonce,sig] =>
    let expected := service.sign node (base subject audience expStr nonce)
    if Base64.decode sig ≠ Base64.decode expected then .error "Invalid magic link signature"
    else
      match parseInt expStr with
      | none => .error "Magic link expired"
      | some exp => if exp * 1000 < now then .error "Magic link expired" else .ok ⟨subject,audience,nonce⟩
  | _ => .error "Invalid magic link"

end MagicLinkService

-- A call of create, by a service with the secret at hand.
structure Call where
  ttlSeconds : ℕ
  subject : Text
  audience : Text
  bytes : Bytes
  now : ℕ
  deriving DecidableEq, Repr

def Call.expiry (call : Call) : Text := Nat.toDigits 10 (call.now / 1000 + call.ttlSeconds)
def Call.nonce (call : Call) : Text := Base64.encodeUrl call.bytes
def Call.base (call : Call) : Text := MagicLinkService.base call.subject call.audience call.expiry call.nonce

def signature (token : Text) : Bytes := Base64.decode ((token.splitOn '.').getLastD [])

-- The tokens that come to be presented where the secret is not known: one that
-- carries a digest under the secret has it from a call of create.
structure Presented (node : Node) (secret : Text) where
  calls : List Call
  tokens : Set Text
  unpredictable : ∀ token ∈ tokens, ∀ payload, signature token = node.sha256 (payload ++ '.' :: secret) →
    ∃ call ∈ calls, signature token = node.sha256 (call.base ++ '.' :: secret)

theorem digit_plain (digit : c.isDigit = true) : isSpace c = false ∧ c ≠ '-' ∧ c ≠ '+' ∧ c ≠ '.' := by
  have range : 48 ≤ c.toNat ∧ c.toNat ≤ 57 := by
    simp only [Char.isDigit,Bool.and_eq_true,decide_eq_true_eq] at digit
    exact ⟨digit.1,digit.2⟩
  refine ⟨?_,?_,?_,?_⟩
  · simp only [isSpace,List.contains_eq_mem,List.mem_cons,List.not_mem_nil,or_false,Bool.or_eq_false_iff,decide_eq_false_iff_not,
      Bool.and_eq_false_imp,decide_eq_true_eq]
    omega
  all_goals
    rintro rfl
    exact absurd range (by decide)

theorem digits_plain (n : ℕ) : ∀ c ∈ Nat.toDigits 10 n, c.isDigit = true :=
  fun _ listed => Nat.isDigit_of_mem_toDigits (by omega) (by omega) listed

theorem dot_digits (n : ℕ) : '.' ∉ Nat.toDigits 10 n := fun listed => absurd (digits_plain n _ listed) (by decide)

theorem parseInt_digits (n : ℕ) : parseInt (Nat.toDigits 10 n) = some (n : ℤ) := by
  have all := digits_plain n
  have value := @Nat.ofDigitChars_ten_toDigits n
  revert all value
  cases digits : Nat.toDigits 10 n with
  | nil => exact absurd digits Nat.toDigits_ne_nil
  | cons c rest =>
    intro all value
    obtain ⟨space,minus,plus,_⟩ := digit_plain (all c (by simp))
    have taken : (c :: rest).takeWhile Char.isDigit = c :: rest := List.takeWhile_eq_self_iff.mpr all
    unfold parseInt
    rw [List.dropWhile_cons,if_neg (by simp [space])]
    split
    · rename_i head
      cases head
      exact absurd rfl minus
    · rename_i head
      cases head
      exact absurd rfl plus
    · unfold leadingNumber
      rw [taken]
      dsimp only
      rw [if_neg (List.cons_ne_nil c rest),value]

section
variable (node : Node) (service : MagicLinkService)

theorem token_eq (subject audience : Text) (redirectUri : Option Text) (bytes : Bytes) (now : ℕ) :
    ∃ sig, '.' ∉ sig ∧
      sig = service.sign node (MagicLinkService.base subject audience (Nat.toDigits 10 (service.exp now)) (Base64.encodeUrl bytes)) ∧
      (service.create node subject audience redirectUri bytes now).token =
        ['.'].intercalate [subject,audience,Nat.toDigits 10 (service.exp now),Base64.encodeUrl bytes,sig] := by
  refine ⟨_,Base64.dot_encodeUrl _,rfl,?_⟩
  simp [MagicLinkService.create,MagicLinkService.base,MagicLinkService.sign,List.intercalate_cons_cons]

theorem verify_create (subject audience : Text) (redirectUri : Option Text) (bytes : Bytes) (now later : ℕ)
    (early : later < (service.create node subject audience redirectUri bytes now).expiresAt) :
    (service.verify node (service.create node subject audience redirectUri bytes now).token later).map
        (fun found => (found.subject,found.audience)) = .ok (subject,audience) ↔
      '.' ∉ subject ∧ '.' ∉ audience := by
  obtain ⟨sig,clean,signed,token⟩ := token_eq node service subject audience redirectUri bytes now
  have expires : later < service.exp now * 1000 := early
  have pieces := @Streams.splitOn_intercalate_eq Char _ '.' subject [audience,Nat.toDigits 10 (service.exp now),Base64.encodeUrl bytes,sig]
  have count := @Streams.pieces_iff Char _ '.' [subject,audience,Nat.toDigits 10 (service.exp now),Base64.encodeUrl bytes,sig]
  have others : '.' ∉ Nat.toDigits 10 (service.exp now) ∧ '.' ∉ Base64.encodeUrl bytes ∧ '.' ∉ sig :=
    ⟨dot_digits _,Base64.dot_encodeUrl _,clean⟩
  rw [← pieces,← token] at count
  rw [← token] at pieces
  constructor
  · intro passed
    unfold MagicLinkService.verify at passed
    split at passed
    · rename_i split_
      have all := count.mp (by rw [split_]; rfl)
      exact ⟨all subject (by simp),all audience (by simp)⟩
    · cases passed
  · intro both
    have all : ∀ field ∈ [subject,audience,Nat.toDigits 10 (service.exp now),Base64.encodeUrl bytes,sig], '.' ∉ field := by
      simpa using ⟨both.1,both.2,others⟩
    rw [Streams.pieces_clean all] at pieces
    unfold MagicLinkService.verify
    rw [pieces]
    dsimp only
    rw [← signed,if_neg (not_not.mpr rfl),parseInt_digits]
    dsimp only
    rw [if_neg (by omega)]
    rfl

theorem verify_accepted (injective : Function.Injective node.sha256) (presented : Presented node service.secret)
    (listed : token ∈ presented.tokens) (accepted : service.verify node token now = .ok payload) :
    ∃ call ∈ presented.calls, ∃ sig, token.splitOn '.' = [call.subject,call.audience,call.expiry,call.nonce,sig] ∧
      payload = ⟨call.subject,call.audience,call.nonce⟩ := by
  unfold MagicLinkService.verify at accepted
  split at accepted
  · rename_i subject audience expStr nonce sig split_
    dsimp only at accepted
    split at accepted
    · cases accepted
    · rename_i matching
      have signed : signature token = node.sha256 (MagicLinkService.base subject audience expStr nonce ++ '.' :: service.secret) := by
        unfold signature
        rw [split_]
        refine (not_not.mp matching).trans ?_
        exact Base64.decode_encodeUrl _
      obtain ⟨call,called,same⟩ := presented.unpredictable token listed _ signed
      have bases : MagicLinkService.base subject audience expStr nonce = call.base :=
        List.append_cancel_right (injective (signed.symm.trans same))
      have whole : token = ['.'].intercalate [subject,audience,expStr,nonce,sig] := by
        rw [← split_,List.intercalate_splitOn]
      have five := @Streams.splitOn_intercalate_eq Char _ '.' subject [audience,expStr,nonce,sig]
      rw [← whole,split_] at five
      have clean := (@Streams.pieces_iff Char _ '.' [subject,audience,expStr,nonce,sig]).mp (by rw [← five])
      have left : (['.'].intercalate [subject,audience,expStr,nonce]).splitOn '.' = [subject,audience,expStr,nonce] := by
        rw [Streams.splitOn_intercalate_eq,Streams.pieces_clean]
        intro field among
        refine clean field ?_
        simp only [List.mem_cons,List.not_mem_nil,or_false] at among ⊢
        tauto
      have right : call.base.splitOn '.' = [call.subject,call.audience,call.expiry,call.nonce].flatMap (List.splitOn '.') :=
        Streams.splitOn_intercalate_eq _ _
      have cut : [call.subject,call.audience,call.expiry,call.nonce].flatMap (List.splitOn '.') = [subject,audience,expStr,nonce] := by
        rw [← right,← bases]
        exact left
      have fields := (@Streams.pieces_iff Char _ '.' [call.subject,call.audience,call.expiry,call.nonce]).mp (by rw [cut]; rfl)
      rw [Streams.pieces_clean fields] at cut
      injection cut with one cut
      injection cut with two cut
      injection cut with three cut
      injection cut with four _
      refine ⟨call,called,sig,?_,?_⟩
      · rw [split_,one,two,three,four]
      · split at accepted
        · cases accepted
        · split at accepted
          · cases accepted
          · cases accepted
            rw [one,two,four]
  · cases accepted

-- Links round-trip where no field has the mark, and are never cut otherwise than
-- they were joined.
theorem links_round_trip_iff (injective : Function.Injective node.sha256) (presented : Presented node service.secret) :
    (∀ (subject audience : Text) (redirectUri : Option Text) (bytes : Bytes) (now later : ℕ),
        later < (service.create node subject audience redirectUri bytes now).expiresAt →
          ((service.verify node (service.create node subject audience redirectUri bytes now).token later).map
              (fun found => (found.subject,found.audience)) = .ok (subject,audience) ↔
            '.' ∉ subject ∧ '.' ∉ audience)) ∧
      ∀ token ∈ presented.tokens, ∀ now payload, service.verify node token now = .ok payload →
        ∃ call ∈ presented.calls, ∃ sig, token.splitOn '.' = [call.subject,call.audience,call.expiry,call.nonce,sig] ∧
          payload = ⟨call.subject,call.audience,call.nonce⟩ :=
  ⟨fun subject audience redirectUri bytes now later early =>
    verify_create node service subject audience redirectUri bytes now later early,
    fun _ listed _ _ accepted => verify_accepted node service injective presented listed accepted⟩

end

-- A digest that spells its text out.
def wideNode : Node := ⟨fun text => text.flatMap fun c => bigEndian 4 c.toNat⟩

theorem wide_injective : Function.Injective wideNode.sha256 := by
  intro one
  induction one with
  | nil =>
    intro two same
    cases two with
    | nil => rfl
    | cons c rest =>
      have sizes := congrArg List.length same
      simp [wideNode,bigEndian_length] at sizes
      omega
  | cons a one ih =>
    intro two same
    cases two with
    | nil =>
      have sizes := congrArg List.length same
      simp [wideNode,bigEndian_length] at sizes
    | cons b two =>
      have joined : bigEndian 4 a.toNat ++ wideNode.sha256 one = bigEndian 4 b.toNat ++ wideNode.sha256 two := same
      obtain ⟨first,rest⟩ := List.append_inj joined (by rw [bigEndian_length,bigEndian_length])
      have small : ∀ c : Char, c.toNat < 256 ^ 4 := fun c => c.val.toNat_lt
      have numbers := congrArg numberOfBytes first
      rw [numberOfBytes_bigEndian (small a),numberOfBytes_bigEndian (small b)] at numbers
      rw [ih rest,Char.toNat_inj.mp numbers]

def sampleService : MagicLinkService := ⟨900,"secret".toList,by decide⟩

def sampleCall : Call := ⟨900,"user".toList,"login".toList,[1,2,3],1700000000000⟩

def sampleLink : Link := sampleService.create wideNode sampleCall.subject sampleCall.audience none sampleCall.bytes sampleCall.now

def samplePresented : Presented wideNode sampleService.secret where
  calls := [sampleCall]
  tokens := {sampleLink.token}
  unpredictable token listed payload signed := by
    cases listed
    exact ⟨sampleCall,by simp,by decide +kernel⟩

theorem links_round_trip_user :
    (sampleService.verify wideNode sampleLink.token 1700000001000).map (fun found => (found.subject,found.audience)) =
      .ok ("user".toList,"login".toList) :=
  ((links_round_trip_iff wideNode sampleService wide_injective samplePresented).1 "user".toList "login".toList none [1,2,3] 1700000000000
    1700000001000 (by decide +kernel)).mpr ⟨by decide,by decide⟩

theorem address_refused :
    ¬∀ (subject audience : Text) (bytes : Bytes) (now later : ℕ),
      later < (sampleService.create wideNode subject audience none bytes now).expiresAt →
        (sampleService.verify wideNode (sampleService.create wideNode subject audience none bytes now).token later).map
            (fun found => (found.subject,found.audience)) = .ok (subject,audience) := by
  intro round
  have passed := round "user@example.com".toList "login".toList [1,2,3] 1700000000000 1700000001000 (by decide +kernel)
  revert passed
  decide +kernel

end Pezhwan.MagicLink
