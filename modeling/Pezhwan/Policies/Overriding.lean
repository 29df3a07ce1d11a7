import Mathlib.Data.Rat.Defs
import Mathlib.Algebra.Order.Ring.Rat
import Mathlib.Data.List.Perm.Basic

-- Policies over a decision context.
namespace Pezhwan.Policies

inductive Number where
  | nan
  | finite (value : ℚ)
  | infinite (negative : Bool)
  deriving DecidableEq

namespace Number

def less : Number → Number → Bool
  | finite a,finite b => a < b
  | finite _,infinite negative => !negative
  | infinite negative,finite _ => negative
  | infinite a,infinite b => a && !b
  | _,_ => false

-- Strict equality: NaN differs from itself.
def same : Number → Number → Bool
  | nan,nan => false
  | a,b => a = b

end Number

-- A value of the language. Arrays and objects have the reference by which they
-- are compared; one without is new and is nobody else's.
inductive Value where
  | undefined
  | null
  | bool (value : Bool)
  | number (value : Number)
  | string (value : String)
  | array (reference : Option Nat) (items : List Value)
  | object (reference : Option Nat) (fields : List (String × Value))

-- The conversions to numbers of a text and of an object, and what objects inherit.
structure Language where
  numeric : String → Number
  primitive : Value → Number
  inherited : Value → String → Value

namespace Value

-- a === b
def strictlyEqual : Value → Value → Bool
  | undefined,undefined => true
  | null,null => true
  | bool a,bool b => a = b
  | number a,number b => a.same b
  | string a,string b => a = b
  | array (some a) _,array (some b) _ => a = b
  | object (some a) _,object (some b) _ => a = b
  | _,_ => false

-- Number(value)
def toNumber (language : Language) : Value → Number
  | undefined => .nan
  | null => .finite 0
  | bool value => .finite (if value then 1 else 0)
  | number value => value
  | string value => language.numeric value
  | value => language.primitive value

-- An array has its length and its items by their indices.
def property (language : Language) (value : Value) (name : String) : Value :=
  match value with
  | object _ fields => (fields.lookup name).getD (language.inherited value name)
  | array _ items =>
    if name = "length" then number (.finite items.length)
    else (((List.range items.length).find? fun index => toString index = name).bind fun index => items[index]?).getD
      (language.inherited value name)
  | _ => undefined

end Value

inductive PolicyOperator where
  | eq | ne | in_ | not_in | gt | gte | lt | lte | exists_ | match_
  deriving DecidableEq

structure PolicyRule where
  path : String
  op : PolicyOperator
  value : Value
  args : List Value

inductive Effect where
  | allow | deny
  deriving DecidableEq

structure Policy where
  id : Option String
  effect : Effect
  rules : List PolicyRule

structure PolicyDecision where
  policyId : Option String
  allowed : Bool
  reasons : List String
  deriving DecidableEq

section
variable (language : Language)

-- `less` compares the actual number with the expected one.
def compared (less : Number → Number → Bool) (actual expected : Value) : Bool :=
  match actual with
  | .number a => less a (expected.toNumber language)
  | _ => false

def includes (text part : String) : Bool := text.toList.tails.any fun rest => part.toList.isPrefixOf rest

def OPERATORS : PolicyOperator → Value → Value → Bool
  | .eq,a,e => a.strictlyEqual e
  | .ne,a,e => !a.strictlyEqual e
  | .in_,a,.array _ items => items.any fun item => item.strictlyEqual a
  | .in_,_,_ => false
  | .not_in,a,.array _ items => !items.any fun item => item.strictlyEqual a
  | .not_in,_,_ => false
  | .gt,a,e => compared language (fun x y => y.less x) a e
  | .gte,a,e => compared language (fun x y => y.less x || x.same y) a e
  | .lt,a,e => compared language Number.less a e
  | .lte,a,e => compared language (fun x y => x.less y || x.same y) a e
  | .exists_,.undefined,_ => false
  | .exists_,.null,_ => false
  | .exists_,_,_ => true
  | .match_,.string a,.string e => includes a e
  | .match_,_,_ => false

def segments (path : String) : List String := (path.toList.splitOn '.').map String.ofList

def resolvePath (context : Value) (path : String) : Value :=
  (segments path).foldl (fun current segment => current.property language segment) context

def PolicyRule.holds (rule : PolicyRule) (context : Value) : Bool :=
  OPERATORS language rule.op (resolvePath language context rule.path) rule.value

def Policy.matched (policy : Policy) (context : Value) : Bool := policy.rules.all fun rule => rule.holds language context

def Effect.name : Effect → String
  | .allow => "allow"
  | .deny => "deny"

def Policy.reason (policy : Policy) : String := policy.effect.name ++ ":" ++ policy.id.getD "anonymous"

structure ExpressionPolicyEngine where
  policies : List Policy

namespace ExpressionPolicyEngine

def add (engine : ExpressionPolicyEngine) (policy : Policy) : ExpressionPolicyEngine := ⟨engine.policies ++ [policy]⟩

def evaluateFrom (context : Value) : List Policy → PolicyDecision
  | [] => ⟨none,false,[]⟩
  | policy :: rest =>
    if policy.matched language context then
      match policy.effect with
      | .deny => ⟨policy.id,false,[policy.reason]⟩
      | .allow => ⟨policy.id,true,[policy.reason]⟩
    else evaluateFrom context rest

def evaluate (engine : ExpressionPolicyEngine) (context : Value) : PolicyDecision := evaluateFrom language context engine.policies

end ExpressionPolicyEngine

structure AbacContext where
  userId : String
  tenantId : String
  applicationId : String
  resource : Option String
  action : Option String
  resourceId : Option String
  attributes : Option Value

structure AbacService where
  engine : ExpressionPolicyEngine

namespace AbacService

def optional : Option String → Value
  | some text => .string text
  | none => .undefined

def contextFrom (input : AbacContext) : Value := .object none [
  ("user",.object none [("id",.string input.userId),("tenantId",.string input.tenantId)]),
  ("tenant",.object none [("id",.string input.tenantId)]),
  ("application",.object none [("id",.string input.applicationId)]),
  ("request",.object none [("resourceId",optional input.resourceId),("resource",optional input.resource),
    ("action",optional input.action),("attributes",input.attributes.getD (.object none []))])]

def can (service : AbacService) (input : AbacContext) : Bool := (service.engine.evaluate language (contextFrom input)).allowed

def add (service : AbacService) (policy : Policy) : AbacService := ⟨service.engine.add policy⟩

end AbacService
end

-- The first policy that matches decides, whatever comes after it.
open ExpressionPolicyEngine
variable {language : Language} {context : Value} {policies : List Policy}

-- A policy with this effect matches.
def Matches (language : Language) (context : Value) (effect : Effect) (policies : List Policy) : Prop :=
  ∃ policy ∈ policies, policy.effect = effect ∧ policy.matched language context = true

def allowed (language : Language) (context : Value) (policies : List Policy) : Bool :=
  ((ExpressionPolicyEngine.mk policies).evaluate language context).allowed

theorem evaluate_first (policies : List Policy) : allowed language context policies =
    ((policies.find? fun policy => policy.matched language context).any fun policy => policy.effect = .allow) := by
  unfold allowed evaluate
  induction policies with
  | nil => rfl
  | cons policy rest ih =>
    rw [evaluateFrom,List.find?_cons]
    cases found : policy.matched language context with
    | false => simpa using ih
    | true => cases kind : policy.effect <;> simp [kind]

theorem allowed_some (granted : allowed language context policies = true) : Matches language context .allow policies := by
  rw [evaluate_first] at granted
  obtain ⟨policy,found,kind⟩ := (Option.any_eq_true _ _).mp granted
  exact ⟨policy,List.mem_of_find?_eq_some found,of_decide_eq_true kind,List.find?_some (p := fun policy : Policy => policy.matched language context) found⟩

theorem denied_some (refused : allowed language context policies = false) :
    Matches language context .deny policies ∨ ∀ policy ∈ policies, policy.matched language context = false := by
  rw [evaluate_first] at refused
  cases found : policies.find? fun policy => policy.matched language context with
  | none => exact .inr fun policy listed => by simpa using List.find?_eq_none.mp found policy listed
  | some policy =>
    rw [found,Option.any_some,decide_eq_false_iff_not] at refused
    refine .inl ⟨policy,List.mem_of_find?_eq_some found,?_,List.find?_some (p := fun policy : Policy => policy.matched language context) found⟩
    cases kind : policy.effect with
    | allow => exact absurd kind refused
    | deny => rfl

theorem allowed_cons {policy : Policy} (matched : policy.matched language context = true) (rest : List Policy) :
    allowed language context (policy :: rest) = decide (policy.effect = .allow) := by
  rw [evaluate_first,List.find?_cons,matched,Option.any_some]

theorem allowed_append {one two : List Policy} (matched : ∃ policy ∈ one, policy.matched language context = true) :
    allowed language context (one ++ two) = allowed language context one := by
  obtain ⟨policy,listed,holds⟩ := matched
  rw [evaluate_first,evaluate_first,List.find?_append]
  cases found : one.find? fun policy => policy.matched language context with
  | none => exact absurd holds (List.find?_eq_none.mp found policy listed)
  | some first => rfl

theorem allowed_skip {one two : List Policy} (none : ∀ policy ∈ one, policy.matched language context = false) :
    allowed language context (one ++ two) = allowed language context two := by
  have missed : one.find? (fun policy => policy.matched language context) = Option.none := by
    rw [List.find?_eq_none]
    intro policy listed
    simp [none policy listed]
  rw [evaluate_first,evaluate_first,List.find?_append,missed,Option.none_or]

theorem Matches.perm {other : List Policy} {effect : Effect} (found : Matches language context effect policies)
    (perm : policies.Perm other) : Matches language context effect other := by
  obtain ⟨policy,listed,facts⟩ := found
  exact ⟨policy,perm.mem_iff.mp listed,facts⟩

-- A deny is obeyed, and the order is immaterial.
structure Overrides (allowed : List Policy → Bool) (denied : List Policy → Prop) (policies : List Policy) : Prop where
  obeyed : denied policies → allowed policies = false
  unordered : ∀ other, other.Perm policies → allowed other = allowed policies

def Mixed (language : Language) (context : Value) (policies : List Policy) : Prop :=
  Matches language context .allow policies ∧ Matches language context .deny policies

theorem front_first {effect : Effect} (found : Matches language context effect policies) :
    ∃ other, other.Perm policies ∧ allowed language context other = decide (effect = .allow) := by
  obtain ⟨policy,listed,kind,matched⟩ := found
  obtain ⟨before,after,rfl⟩ := List.append_of_mem listed
  exact ⟨policy :: (before ++ after),List.perm_middle.symm,by rw [allowed_cons matched,kind]⟩

theorem overrides_iff : Overrides (allowed language context) (Matches language context .deny) policies ↔
    ¬ Mixed language context policies := by
  constructor
  · rintro overrides ⟨granted,denied⟩
    obtain ⟨other,perm,allows⟩ := front_first granted
    have refused := overrides.obeyed denied
    rw [← overrides.unordered other perm,allows] at refused
    cases refused
  · intro unmixed
    have refused : ∀ other, other.Perm policies → Matches language context .deny policies → allowed language context other = false := by
      intro other perm denied
      by_contra granted
      exact unmixed ⟨(allowed_some (by simpa using granted)).perm perm,denied⟩
    refine ⟨refused policies (.refl _),?_⟩
    intro other perm
    by_cases denied : Matches language context .deny policies
    · rw [refused other perm denied,refused policies (.refl _) denied]
    · -- without a deny, any match allows
      have same : ∀ list, list.Perm policies → (allowed language context list = true ↔ Matches language context .allow policies) := by
        intro list perm
        refine ⟨fun granted => (allowed_some granted).perm perm,?_⟩
        intro granted
        by_contra refused
        rcases denied_some (by simpa using refused) with deny | nothing
        · exact denied (deny.perm perm)
        · obtain ⟨policy,listed,_,matched⟩ := granted
          rw [nothing policy (perm.mem_iff.mpr listed)] at matched
          cases matched
      exact Bool.eq_iff_iff.mpr ((same other perm).trans (same policies (.refl _)).symm)

theorem deny_added {deny : Policy} (kind : deny.effect = .deny) (matched : deny.matched language context = true) :
    allowed language context (policies ++ [deny]) = allowed language context policies := by
  by_cases earlier : ∃ policy ∈ policies, policy.matched language context = true
  · exact allowed_append earlier
  · have nothing : ∀ policy ∈ policies, policy.matched language context = false := by
      intro policy listed
      by_contra found
      exact earlier ⟨policy,listed,by simpa using found⟩
    have before : allowed language context (policies ++ []) = _ := allowed_skip nothing
    rw [List.append_nil] at before
    rw [allowed_skip nothing,allowed_cons matched,kind,before]
    rfl

theorem deny_overrides (language : Language) (policies : List Policy) :
    (∀ context, (Overrides (fun list => ((ExpressionPolicyEngine.mk list).evaluate language context).allowed)
        (Matches language context .deny) policies ↔ ¬ Mixed language context policies) ∧
      ∀ deny, deny.effect = .deny → deny.matched language context = true →
        ((((ExpressionPolicyEngine.mk policies).add deny).evaluate language context).allowed = false ↔
          ((ExpressionPolicyEngine.mk policies).evaluate language context).allowed = false)) ∧
    ∀ input, (Overrides (fun list => (AbacService.mk ⟨list⟩).can language input)
        (Matches language (AbacService.contextFrom input) .deny) policies ↔
          ¬ Mixed language (AbacService.contextFrom input) policies) ∧
      ∀ deny, deny.effect = .deny → deny.matched language (AbacService.contextFrom input) = true →
        (((AbacService.mk ⟨policies⟩).add deny).can language input = false ↔
          (AbacService.mk ⟨policies⟩).can language input = false) := by
  have engine : ∀ context, (Overrides (allowed language context) (Matches language context .deny) policies ↔
      ¬ Mixed language context policies) ∧ ∀ deny, deny.effect = .deny → deny.matched language context = true →
        (allowed language context (policies ++ [deny]) = false ↔ allowed language context policies = false) := by
    intro context
    refine ⟨overrides_iff,?_⟩
    intro deny kind matched
    rw [deny_added kind matched]
  exact ⟨engine,fun input => engine (AbacService.contextFrom input)⟩

def strict : Language := ⟨fun _ => .nan,fun _ => .nan,fun _ _ => .undefined⟩

def ownTenant (effect : Effect) : Policy := ⟨none,effect,[⟨"user.tenantId",.eq,.string "tenant",[]⟩]⟩

def reader : AbacContext := ⟨"user","tenant","application",some "invoice",some "read",none,none⟩

theorem allow_before_deny : (ownTenant .deny).matched strict (AbacService.contextFrom reader) = true ∧
    ((AbacService.mk ⟨[ownTenant .allow]⟩).add (ownTenant .deny)).can strict reader = true ∧
    ((AbacService.mk ⟨[ownTenant .deny]⟩).add (ownTenant .allow)).can strict reader = false := by
  decide +kernel

end Pezhwan.Policies
