import Mathlib.Algebra.Group.Nat.Defs
import Pezhwan.Auth.Recovery

-- What a recovery request tells of whether an account exists.
namespace Pezhwan.Auth.Enumeration
open Atomic Prog

inductive Operation where
  | forgotPassword
  | issueEmailVerification
  | sendMagicLink
  deriving DecidableEq, Repr

def Operation.program (engine : AuthEngine) (input : AuthEngine.IssueInput) : Operation → Program AuthEngine.IssueResult
  | .forgotPassword => engine.forgotPassword input
  | .issueEmailVerification => engine.issueEmailVerification input
  | .sendMagicLink => engine.sendMagicLink input

def Operation.decoyExpiresIn : Operation → ℕ
  | .forgotPassword | .sendMagicLink => 900
  | .issueEmailVerification => 86400

def handle (engine : AuthEngine) (email : String) : UserLookupInput :=
  AuthEngine.byHandle (some (engine.platform.toLowerCase email)) none

-- Two stores that differ in one user: the one with the address. The next drawn
-- text is 32 random bytes in base64url, and no stored token was drawn from there on.
structure Stores (engine : AuthEngine) (email : String) where
  without : World
  before : List UserDoc
  after : List UserDoc
  user : UserDoc
  users : without.users = before ++ after
  unknown : engine.userFor (handle engine email) (before ++ after) = none
  known : engine.userFor (handle engine email) (before ++ user :: after) = some user
  bytes : List ℕ
  sized : bytes.length = 32
  random : engine.platform.random.fresh without.base.draws.length = AuthEngine.base64url bytes
  drawn : ∀ doc ∈ without.verificationTokens, ∃ n < without.base.draws.length,
    doc.tokenHash = engine.platform.sha256 (engine.platform.random.fresh n)

def Stores.registered {engine : AuthEngine} (stores : Stores engine email) : World :=
  { stores.without with users := stores.before ++ stores.user :: stores.after }

def alphabet : List Char := "ABCDEFGHIJKLMNOPQRSTUVWXYZabcdefghijklmnopqrstuvwxyz0123456789-_".toList

-- Nothing in the answers tells the stores apart but the letters of the tokens.
def Alike : Except Error AuthEngine.IssueResult → Except Error AuthEngine.IssueResult → Prop
  | .ok one,.ok two =>
    one.expiresIn = two.expiresIn ∧ one.token.length = two.token.length ∧
      (∀ c ∈ one.token.toList, c ∈ alphabet) ∧ ∀ c ∈ two.token.toList, c ∈ alphabet
  | .error one,.error two => one = two
  | _,_ => False

theorem encode_length (digit : ℕ → Char) (bytes : List ℕ) :
    (AuthEngine.base64url.encode digit bytes).length = (4 * bytes.length + 2) / 3 := by
  fun_induction AuthEngine.base64url.encode digit bytes with
  | case1 a b c rest ih =>
    simp only [List.length_cons,ih]
    omega
  | case2 a b => simp
  | case3 a => simp
  | case4 => simp

theorem encode_letters {digit : ℕ → Char} (letters : ∀ n, digit n ∈ alphabet) (bytes : List ℕ) :
    ∀ c ∈ AuthEngine.base64url.encode digit bytes, c ∈ alphabet := by
  fun_induction AuthEngine.base64url.encode digit bytes with
  | case1 a b c rest ih => simpa [letters] using ih
  | case2 a b => simp [letters]
  | case3 a => simp [letters]
  | case4 => simp

theorem base64url_length (bytes : List ℕ) : (AuthEngine.base64url bytes).length = (4 * bytes.length + 2) / 3 := by
  rw [AuthEngine.base64url,String.length_ofList,encode_length]

theorem alphabet_length : alphabet.length = 64 := by decide +kernel

theorem base64url_letters (bytes : List ℕ) : ∀ c ∈ (AuthEngine.base64url bytes).toList, c ∈ alphabet := by
  rw [AuthEngine.base64url,String.toList_ofList]
  refine encode_letters (fun n => ?_) bytes
  have within : n % 64 < alphabet.length := by
    rw [alphabet_length]
    exact Nat.mod_lt n (by decide)
  change alphabet.getD (n % 64) 'A' ∈ alphabet
  rw [List.getD_eq_getElem?_getD,List.getElem?_eq_getElem within]
  exact List.getElem_mem within

theorem decoy_length (target : String) (now : ℕ) :
    (AuthEngine.decoysFor target now).length = (4 * (16 + (Nat.toDigits 10 now).length) + 2) / 3 := by
  have digits : (toString now).toList = Nat.toDigits 10 now := Nat.toList_repr
  rw [AuthEngine.decoysFor,base64url_length,digits]
  simp

theorem decoy_length_iff (target : String) (now : ℕ) : (AuthEngine.decoysFor target now).length = 43 ↔ 10 ^ 15 ≤ now ∧ now < 10 ^ 16 := by
  have upper : (Nat.toDigits 10 now).length ≤ 16 ↔ now < 10 ^ 16 := Nat.length_toDigits_le_iff (by decide) (by decide)
  have lower : (Nat.toDigits 10 now).length ≤ 15 ↔ now < 10 ^ 15 := Nat.length_toDigits_le_iff (by decide) (by decide)
  rw [decoy_length]
  omega

section
variable {engine : AuthEngine} {input : AuthEngine.IssueInput} {kind : VerificationTokenKind} {redirectUri : Option String} {expiresIn : ℕ}

theorem issueFor_fault (broken : w.base.fault = some e) :
    (engine.issueFor kind input redirectUri expiresIn).run i w = (.error (.mongo e),w) := by
  refine run_bind_error ?_
  rw [AuthEngine.findUser,Auth.read,Recovery.run_op,broken]

theorem issueFor_decoy (healthy : w.base.fault = none) (unknown : engine.userFor (handle engine input.email) w.users = none) :
    (engine.issueFor kind input redirectUri expiresIn).run i w = (.ok ⟨AuthEngine.decoysFor input.email w.base.now,expiresIn⟩,w) := by
  have looked : (engine.findUser (handle engine input.email)).run i w = (.ok none,w) := by
    rw [AuthEngine.findUser,Auth.read,Recovery.run_op,healthy]
    simp only [unknown]
  exact run_bind_ok looked

theorem superseded_hash (selects : VerificationTokenDoc → Bool) (now : ℕ) (docs : List VerificationTokenDoc) :
    (Collection.updateMany selects (.use now) docs).map VerificationTokenDoc.tokenHash = docs.map VerificationTokenDoc.tokenHash := by
  unfold Collection.updateMany
  rw [List.map_map]
  refine List.map_congr_left fun doc _ => ?_
  simp only [Function.comp_apply]
  split <;> rfl

theorem issue_fresh {platform : Platform} (request : IssueTokenInput) (healthy : w.base.fault = none)
    (drawn : ∀ doc ∈ w.verificationTokens, ∃ n < w.base.draws.length, doc.tokenHash = platform.sha256 (platform.random.fresh n))
    (lifetime : request.ttlMs = none) :
    ∃ t, (issue platform request).run i w = (.ok (platform.random.fresh w.base.draws.length,900),t) := by
  have unused : (Collection.updateMany request.supersedes (.use w.base.now) w.verificationTokens).any
      (fun doc => doc.tokenHash = platform.sha256 (platform.random.fresh w.base.draws.length)) = false := by
    rw [List.any_eq_false]
    intro doc stored same
    have hashed : doc.tokenHash ∈ w.verificationTokens.map VerificationTokenDoc.tokenHash := by
      rw [← superseded_hash request.supersedes w.base.now]
      exact List.mem_map_of_mem stored
    obtain ⟨old,listed,hash⟩ := List.mem_map.mp hashed
    obtain ⟨n,earlier,drew⟩ := drawn old listed
    have again : platform.random.fresh n = platform.random.fresh w.base.draws.length :=
      platform.sha256_injective (drew.symm.trans (hash.trans (of_decide_eq_true same)))
    have index := platform.random.injective again
    omega
  have drew (t : World) : (base (draw platform.random)).run i t =
      (.ok (platform.random.fresh t.base.draws.length),{ t with base := { t.base with draws := t.base.draws ++ [i] } }) := rfl
  unfold issue
  simp only [run_bind,write,Recovery.run_op,healthy,drew,unused,lifetime]
  exact ⟨_,rfl⟩

theorem issueFor_token (healthy : w.base.fault = none) (known : engine.userFor (handle engine input.email) w.users = some user)
    (drawn : ∀ doc ∈ w.verificationTokens, ∃ n < w.base.draws.length,
      doc.tokenHash = engine.platform.sha256 (engine.platform.random.fresh n)) :
    ((engine.issueFor kind input redirectUri expiresIn).run i w).1 =
      .ok ⟨engine.platform.random.fresh w.base.draws.length,900⟩ := by
  have looked : (engine.findUser (handle engine input.email)).run i w = (.ok (some user),w) := by
    rw [AuthEngine.findUser,Auth.read,Recovery.run_op,healthy]
    simp only [known]
  have onward : (engine.issueFor kind input redirectUri expiresIn).run i w =
      (do
        let issued ← issue engine.platform
          ⟨kind,engine.tenantId,input.applicationId,user.id,some (engine.platform.toLowerCase input.email),redirectUri,none⟩
        pure ⟨issued.1,issued.2⟩ : Program AuthEngine.IssueResult).run i w := run_bind_ok looked
  obtain ⟨t,issued⟩ := issue_fresh (i := i)
    ⟨kind,engine.tenantId,input.applicationId,user.id,some (engine.platform.toLowerCase input.email),redirectUri,none⟩
    healthy drawn rfl
  rw [onward,run_bind_ok issued]
  rfl

end

theorem program_issueFor (engine : AuthEngine) (input : AuthEngine.IssueInput) (operation : Operation) :
    ∃ kind redirectUri, operation.program engine input = engine.issueFor kind input redirectUri operation.decoyExpiresIn := by
  cases operation <;> exact ⟨_,_,rfl⟩

-- The answers are alike where the store fails both, or the lifetimes agree and the
-- clock makes the decoy as long as a token.
theorem alike_iff (engine : AuthEngine) (input : AuthEngine.IssueInput) (stores : Stores engine input.email) (operation : Operation)
    (i : CallId) :
    Alike ((operation.program engine input).run i stores.without).1 ((operation.program engine input).run i stores.registered).1 ↔
      stores.without.base.fault ≠ none ∨
        operation ≠ .issueEmailVerification ∧ 10 ^ 15 ≤ stores.without.base.now ∧ stores.without.base.now < 10 ^ 16 := by
  obtain ⟨kind,redirectUri,program⟩ := program_issueFor engine input operation
  rw [program]
  cases fault : stores.without.base.fault with
  | some e =>
    rw [issueFor_fault fault,issueFor_fault (w := stores.registered) fault]
    exact iff_of_true rfl (.inl nofun)
  | none =>
    have unknown := stores.unknown
    rw [← stores.users] at unknown
    have token := base64url_length stores.bytes
    rw [stores.sized] at token
    rw [issueFor_decoy fault unknown,issueFor_token (w := stores.registered) fault stores.known stores.drawn]
    have drew : engine.platform.random.fresh stores.registered.base.draws.length = AuthEngine.base64url stores.bytes := stores.random
    rw [drew]
    unfold Alike
    dsimp only
    rw [token,decoy_length_iff]
    have decoyLetters := base64url_letters ((List.range 16).map
      (fun i => (codeUnits input.email).getD (i % (codeUnits input.email).length) 0 % 256) ++
        (toString stores.without.base.now).toList.map Char.toNat)
    have lifetimes : operation.decoyExpiresIn = 900 ↔ operation ≠ .issueEmailVerification := by
      cases operation <;> decide
    rw [lifetimes]
    simp only [ne_eq,not_true_eq_false,false_or]
    constructor
    · intro alike
      exact ⟨alike.1,alike.2.1⟩
    · intro both
      exact ⟨both.1,both.2,decoyLetters,base64url_letters stores.bytes⟩

-- A stream whose first text is a token.
def tokenRandom : Random where
  fresh n := String.ofList ((AuthEngine.base64url (List.replicate 32 0)).toList ++ List.replicate n 'x')
  injective n m same := by
    have lists := congrArg String.toList same
    rw [String.toList_ofList,String.toList_ofList] at lists
    simpa using congrArg List.length (List.append_cancel_left lists)

def tokenEngine : AuthEngine := { sampleEngine with platform := { samplePlatform with random := tokenRandom } }

def asked : AuthEngine.IssueInput := ⟨"application","user@example.com",none⟩

def sampleStores : Stores tokenEngine asked.email where
  without := { soleAccount sampleUser with base := ⟨1700000000000,[],none,[]⟩,users := [] }
  before := []
  after := []
  user := sampleUser
  users := rfl
  unknown := rfl
  known := by decide +kernel
  bytes := List.replicate 32 0
  sized := rfl
  random := by decide +kernel
  drawn := by simp [soleAccount]

theorem decoy_told_apart :
    ¬∀ (operation : Operation) (i : CallId),
      Alike ((operation.program tokenEngine asked).run i sampleStores.without).1
        ((operation.program tokenEngine asked).run i sampleStores.registered).1 := by
  intro alike
  have apart := alike .forgotPassword 0
  have decoy : ((Operation.forgotPassword.program tokenEngine asked).run 0 sampleStores.without).1 =
      .ok ⟨AuthEngine.decoysFor asked.email 1700000000000,900⟩ := congrArg Prod.fst (issueFor_decoy rfl sampleStores.unknown)
  have token : ((Operation.forgotPassword.program tokenEngine asked).run 0 sampleStores.registered).1 =
      .ok ⟨tokenRandom.fresh 0,900⟩ := issueFor_token rfl sampleStores.known sampleStores.drawn
  rw [decoy,token] at apart
  have lengths := apart.2.1
  revert lengths
  decide +kernel

end Pezhwan.Auth.Enumeration
