import Mathlib.Data.List.Forall2
import Mathlib.Data.List.Nodup
import Mathlib.Tactic.Common

namespace Pezhwan.Logger

inductive LogLevel where
  | debug | info | warn | error
  deriving DecidableEq, Repr

def LogLevel.order : LogLevel → ℕ
  | .debug => 10
  | .info => 20
  | .warn => 30
  | .error => 40

def DEFAULT_REDACT_KEYS : List String :=
  ["password","passwordhash","accesstoken","refreshtoken","sessionid","sessiontoken","bearertoken",
   "clientsecret","clientsecrethash","secret","mfarecoverycode","mfaSecret","privatekey","signingkey","apikey","api_key",
   "token","tokenhash",
   "otp","code","totp","codehash","codeverifier","codechallenge",
   "authorization","cookie","set-cookie","x-csrf-token",
   "connectionstring","mongodburi","redisurl","databaseurl",
   "awssecretaccesskey","firebaseserviceaccount","oauthclientsecret"]

-- A value that is no object: `other` is a bigint, a symbol or a function.
inductive Leaf where
  | undefined
  | null
  | bool (value : Bool)
  | number (literal : String)
  | string (value : String)
  | other (text : String)
  deriving DecidableEq, Repr

-- Arrays and objects have an identity: the same one twice is the same object.
inductive Value where
  | leaf (value : Leaf)
  | array (id : ℕ) (items : List Value)
  | object (id : ℕ) (fields : List (String × Value))

-- What redaction makes, all of it new.
inductive Written where
  | leaf (value : Leaf)
  | array (items : List Written)
  | object (fields : List (String × Written))
  deriving Repr

-- An array index is enumerated before the other keys, in ascending order.
def indexOf (key : String) : Option ℕ := key.toNat?.filter fun n => toString n = key && n < 4294967295

def comesBefore (key other : String) : Bool :=
  match indexOf key,indexOf other with
  | some n,some m => n < m
  | some _,none => true
  | none,_ => false

-- An old key keeps its place.
def put (key : String) (value : α) : List (String × α) → List (String × α)
  | [] => [(key,value)]
  | entry :: rest =>
    if entry.1 = key then (key,value) :: rest
    else if comesBefore key entry.1 then (key,value) :: entry :: rest
    else entry :: put key value rest

-- {...fields,...added}
def spread (fields added : List (String × α)) : List (String × α) :=
  added.foldl (fun fields entry => put entry.1 entry.2 fields) fields

-- out[key] = value: what is set as `__proto__` is the prototype if it is an object
-- or null, and stands under that name; anything else is ignored.
def setKey (out : List (String × Written)) (key : String) (value : Written) : List (String × Written) :=
  if key = "__proto__" then
    match value with
    | .leaf .null | .array _ | .object _ => put key value out
    | .leaf _ => out
  else put key value out

mutual
def redactFields (hidden : String → Bool) : Value → List ℕ → Written × List ℕ
  | .leaf value,seen => (.leaf value,seen)
  | .array id items,seen =>
    if id ∈ seen then (.leaf (.string "[Circular]"),seen)
    else
      let (written,seen) := redactItems hidden items (id :: seen)
      (.array written,seen)
  | .object id fields,seen =>
    if id ∈ seen then (.leaf (.string "[Circular]"),seen)
    else
      let (out,seen) := redactEntries hidden fields [] (id :: seen)
      (.object out,seen)
termination_by structural value => value
def redactItems (hidden : String → Bool) : List Value → List ℕ → List Written × List ℕ
  | [],seen => ([],seen)
  | item :: rest,seen =>
    let (written,seen) := redactFields hidden item seen
    let (others,seen) := redactItems hidden rest seen
    (written :: others,seen)
termination_by structural items => items
def redactEntries (hidden : String → Bool) : List (String × Value) → List (String × Written) → List ℕ → List (String × Written) × List ℕ
  | [],out,seen => (out,seen)
  | entry :: rest,out,seen =>
    let (out,seen) := redactEntry hidden entry out seen
    redactEntries hidden rest out seen
termination_by structural fields => fields
def redactEntry (hidden : String → Bool) : String × Value → List (String × Written) → List ℕ → List (String × Written) × List ℕ
  | (key,value),out,seen =>
    if hidden key then (setKey out key (.leaf (.string "[REDACTED]")),seen)
    else
      let (written,seen) := redactFields hidden value seen
      (setKey out key written,seen)
termination_by structural entry => entry
end

-- The sink answers whether it came back without throwing.
structure LoggerOptions where
  level : Option LogLevel := none
  serviceName : Option String := none
  env : Option String := none
  redact : Option (List String) := none
  sink : Option (List (String × Written) → Bool) := none
  exporter : Bool := false

-- JSON.stringify calls a toJSON it finds, and throws on a bigint.
structure Platform where
  toLowerCase : String → String
  stringify : List (String × Written) → Option String

structure PezhwanLogger where
  level : LogLevel
  redactKeys : List String
  context : List (String × Value)
  options : LoggerOptions

def PezhwanLogger.new (platform : Platform) (options : LoggerOptions) (context : List (String × Value)) : PezhwanLogger :=
  ⟨options.level.getD .info,(DEFAULT_REDACT_KEYS ++ options.redact.getD []).map platform.toLowerCase,context,options⟩

inductive Emitted where
  | sink (line : List (String × Written))
  | console (method : LogLevel) (json : String)
  | exporter (line : List (String × Written))

namespace PezhwanLogger
variable (platform : Platform) (logger : PezhwanLogger)

def redacts (key : String) : Bool := logger.redactKeys.contains (platform.toLowerCase key)

def text (value : String) : Written := .leaf (.string value)

-- Nothing in the merged object refers to it: it is as if it had not been seen.
def line (ts : String) (level : LogLevel) (message : String) (fields : Option (List (String × Value))) : List (String × Written) :=
  let merged := spread (spread [] logger.context) (fields.getD [])
  let own := (redactEntries (logger.redacts platform) merged [] []).1.filter fun entry => entry.1 != "__proto__"
  let name := match level with | .debug => "debug" | .info => "info" | .warn => "warn" | .error => "error"
  let env := match logger.options.env with
    | none | some "" => []
    | some env => [("env",text env)]
  spread (spread [("ts",text ts),("level",text name),("service",text (logger.options.serviceName.getD "pezhwan")),("message",text message)] env) own

-- What a call hands over, in order; console.log also takes what debug and info say.
def emit (ts : String) (level : LogLevel) (message : String) (fields : Option (List (String × Value))) : List Emitted :=
  if level.order < logger.level.order then []
  else
    let line := logger.line platform ts level message fields
    let exported := if logger.options.exporter then [.exporter line] else []
    match logger.options.sink with
    | some sink => .sink line :: if sink line then exported else []
    | none =>
      match platform.stringify line with
      | none => []
      | some json => .console (if level = .error ∨ level = .warn then level else .info) json :: exported

def child (fields : List (String × Value)) : PezhwanLogger := .new platform logger.options (spread (spread [] logger.context) fields)

end PezhwanLogger

-- The same but for what stands under hidden keys, with the objects of one in the
-- places of the objects of the other.
mutual
def Alike (hidden : String → Prop) (pairs : ℕ → ℕ → Prop) : Value → Value → Prop
  | .leaf value,other => other = .leaf value
  | .array id items,.array id' items' => pairs id id' ∧ AlikeItems hidden pairs items items'
  | .object id fields,.object id' fields' => pairs id id' ∧ AlikeFields hidden pairs fields fields'
  | _,_ => False
termination_by structural value => value
def AlikeItems (hidden : String → Prop) (pairs : ℕ → ℕ → Prop) : List Value → List Value → Prop
  | [],[] => True
  | item :: rest,item' :: rest' => Alike hidden pairs item item' ∧ AlikeItems hidden pairs rest rest'
  | _,_ => False
termination_by structural items => items
def AlikeFields (hidden : String → Prop) (pairs : ℕ → ℕ → Prop) : List (String × Value) → List (String × Value) → Prop
  | [],[] => True
  | entry :: rest,entry' :: rest' => AlikeField hidden pairs entry entry' ∧ AlikeFields hidden pairs rest rest'
  | _,_ => False
termination_by structural fields => fields
def AlikeField (hidden : String → Prop) (pairs : ℕ → ℕ → Prop) : String × Value → String × Value → Prop
  | (key,value),entry => key = entry.1 ∧ (hidden key ∨ Alike hidden pairs value entry.2)
termination_by structural entry => entry
end

mutual
def identities : Value → List ℕ
  | .leaf _ => []
  | .array id items => id :: itemIdentities items
  | .object id fields => id :: fieldIdentities fields
termination_by structural value => value
def itemIdentities : List Value → List ℕ
  | [] => []
  | item :: rest => identities item ++ itemIdentities rest
termination_by structural items => items
def fieldIdentities : List (String × Value) → List ℕ
  | [] => []
  | entry :: rest => entryIdentities entry ++ fieldIdentities rest
termination_by structural fields => fields
def entryIdentities : String × Value → List ℕ
  | (_,value) => identities value
termination_by structural entry => entry
end

section
variable {hidden : String → Bool} {pairs : ℕ → ℕ → Prop}

theorem seen_alike {id id' : ℕ} {seen seen' : List ℕ} (matched : Relator.BiUnique pairs) (same : pairs id id') (before : List.Forall₂ pairs seen seen') :
    id ∈ seen ↔ id' ∈ seen' :=
  List.rel_mem matched same before

-- Both have been through the same objects so far: they write the same, and have still.
mutual
theorem redactFields_alike (matched : Relator.BiUnique pairs) : ∀ {value value' : Value} {seen seen' : List ℕ},
    Alike (hidden · = true) pairs value value' → List.Forall₂ pairs seen seen' →
      (redactFields hidden value seen).1 = (redactFields hidden value' seen').1 ∧
        List.Forall₂ pairs (redactFields hidden value seen).2 (redactFields hidden value' seen').2
  | .leaf value,other,seen,seen',alike,before => by
    simp only [Alike] at alike
    subst alike
    exact ⟨rfl,before⟩
  | .array id items,.array id' items',seen,seen',alike,before => by
    simp only [Alike] at alike
    obtain ⟨same,alike⟩ := alike
    have both := seen_alike matched same before
    by_cases met : id ∈ seen
    · simp only [redactFields,if_pos met,if_pos (both.mp met)]
      exact ⟨trivial,before⟩
    · simp only [redactFields,if_neg met,if_neg (mt both.mpr met)]
      obtain ⟨written,after⟩ := redactItems_alike matched alike (.cons same before)
      exact ⟨congrArg Written.array written,after⟩
  | .object id fields,.object id' fields',seen,seen',alike,before => by
    simp only [Alike] at alike
    obtain ⟨same,alike⟩ := alike
    have both := seen_alike matched same before
    by_cases met : id ∈ seen
    · simp only [redactFields,if_pos met,if_pos (both.mp met)]
      exact ⟨trivial,before⟩
    · simp only [redactFields,if_neg met,if_neg (mt both.mpr met)]
      obtain ⟨written,after⟩ := redactEntries_alike matched alike [] (.cons same before)
      exact ⟨congrArg Written.object written,after⟩
  | .array _ _,.leaf _,_,_,alike,_ => by simp [Alike] at alike
  | .array _ _,.object _ _,_,_,alike,_ => by simp [Alike] at alike
  | .object _ _,.leaf _,_,_,alike,_ => by simp [Alike] at alike
  | .object _ _,.array _ _,_,_,alike,_ => by simp [Alike] at alike
termination_by structural value => value
theorem redactItems_alike (matched : Relator.BiUnique pairs) : ∀ {items items' : List Value} {seen seen' : List ℕ},
    AlikeItems (hidden · = true) pairs items items' → List.Forall₂ pairs seen seen' →
      (redactItems hidden items seen).1 = (redactItems hidden items' seen').1 ∧
        List.Forall₂ pairs (redactItems hidden items seen).2 (redactItems hidden items' seen').2
  | [],[],_,_,_,before => ⟨rfl,before⟩
  | item :: rest,item' :: rest',seen,seen',alike,before => by
    simp only [AlikeItems] at alike
    obtain ⟨first,middle⟩ := redactFields_alike matched alike.1 before
    obtain ⟨others,after⟩ := redactItems_alike matched alike.2 middle
    refine ⟨?_,after⟩
    simp only [redactItems]
    rw [first,others]
  | [],_ :: _,_,_,alike,_ => by simp [AlikeItems] at alike
  | _ :: _,[],_,_,alike,_ => by simp [AlikeItems] at alike
termination_by structural items => items
theorem redactEntries_alike (matched : Relator.BiUnique pairs) : ∀ {fields fields' : List (String × Value)} {seen seen' : List ℕ},
    AlikeFields (hidden · = true) pairs fields fields' → ∀ out, List.Forall₂ pairs seen seen' →
      (redactEntries hidden fields out seen).1 = (redactEntries hidden fields' out seen').1 ∧
        List.Forall₂ pairs (redactEntries hidden fields out seen).2 (redactEntries hidden fields' out seen').2
  | [],[],_,_,_,_,before => ⟨rfl,before⟩
  | entry :: rest,entry' :: rest',seen,seen',alike,out,before => by
    simp only [AlikeFields] at alike
    obtain ⟨first,middle⟩ := redactEntry_alike matched alike.1 out before
    simp only [redactEntries]
    rw [← first]
    exact redactEntries_alike matched alike.2 _ middle
  | [],_ :: _,_,_,alike,_,_ => by simp [AlikeFields] at alike
  | _ :: _,[],_,_,alike,_,_ => by simp [AlikeFields] at alike
termination_by structural fields => fields
theorem redactEntry_alike (matched : Relator.BiUnique pairs) : ∀ {entry entry' : String × Value} {seen seen' : List ℕ},
    AlikeField (hidden · = true) pairs entry entry' → ∀ out, List.Forall₂ pairs seen seen' →
      (redactEntry hidden entry out seen).1 = (redactEntry hidden entry' out seen').1 ∧
        List.Forall₂ pairs (redactEntry hidden entry out seen).2 (redactEntry hidden entry' out seen').2
  | (key,value),(key',value'),seen,seen',alike,out,before => by
    simp only [AlikeField] at alike
    obtain ⟨rfl,either⟩ := alike
    simp only [redactEntry]
    split
    · exact ⟨rfl,before⟩
    · rename_i shown
      obtain ⟨written,after⟩ := redactFields_alike matched (either.resolve_left shown) before
      exact ⟨congrArg (setKey out key) written,after⟩
termination_by structural entry => entry
end
end

theorem alikeFields_iff {hidden : String → Prop} {pairs : ℕ → ℕ → Prop} {fields fields' : List (String × Value)} :
    AlikeFields hidden pairs fields fields' ↔ List.Forall₂ (AlikeField hidden pairs) fields fields' := by
  induction fields generalizing fields' with
  | nil => cases fields' <;> simp [AlikeFields]
  | cons entry rest ih =>
    cases fields' with
    | nil => simp [AlikeFields]
    | cons entry' rest' => simp only [AlikeFields,List.forall₂_cons,ih]

theorem put_alike {hidden : String → Prop} {pairs : ℕ → ℕ → Prop} {fields fields' : List (String × Value)} {key : String} {value value' : Value}
    (new : AlikeField hidden pairs (key,value) (key,value')) (old : List.Forall₂ (AlikeField hidden pairs) fields fields') :
    List.Forall₂ (AlikeField hidden pairs) (put key value fields) (put key value' fields') := by
  induction old with
  | nil => exact .cons new .nil
  | cons first others ih =>
    rename_i entry entry' rest rest'
    have named : entry'.1 = entry.1 := by
      obtain ⟨_,_⟩ := entry
      simp only [AlikeField] at first
      exact first.1.symm
    simp only [put,named]
    split
    · exact .cons new others
    · split
      · exact .cons new (.cons first others)
      · exact .cons first ih

theorem spread_alike {hidden : String → Prop} {pairs : ℕ → ℕ → Prop} {fields fields' added added' : List (String × Value)}
    (new : List.Forall₂ (AlikeField hidden pairs) added added') (old : List.Forall₂ (AlikeField hidden pairs) fields fields') :
    List.Forall₂ (AlikeField hidden pairs) (spread fields added) (spread fields' added') := by
  unfold spread
  induction new generalizing fields fields' with
  | nil => exact old
  | cons first others ih =>
    rename_i entry entry' rest rest'
    obtain ⟨key,value⟩ := entry
    obtain ⟨key',value'⟩ := entry'
    have named : key = key' := by
      simp only [AlikeField] at first
      exact first.1
    subst named
    exact ih (put_alike first old)

mutual
theorem alike_refl {hidden : String → Prop} {pairs : ℕ → ℕ → Prop} : ∀ {value : Value},
    (∀ id ∈ identities value, pairs id id) → Alike hidden pairs value value
  | .leaf value,_ => by simp only [Alike]
  | .array id items,known => by
    simp only [identities,List.forall_mem_cons] at known
    simp only [Alike]
    exact ⟨known.1,alikeItems_refl known.2⟩
  | .object id fields,known => by
    simp only [identities,List.forall_mem_cons] at known
    simp only [Alike]
    exact ⟨known.1,alikeFields_refl known.2⟩
termination_by structural value => value
theorem alikeItems_refl {hidden : String → Prop} {pairs : ℕ → ℕ → Prop} : ∀ {items : List Value},
    (∀ id ∈ itemIdentities items, pairs id id) → AlikeItems hidden pairs items items
  | [],_ => by simp only [AlikeItems]
  | item :: rest,known => by
    simp only [itemIdentities,List.forall_mem_append] at known
    simp only [AlikeItems]
    exact ⟨alike_refl known.1,alikeItems_refl known.2⟩
termination_by structural items => items
theorem alikeFields_refl {hidden : String → Prop} {pairs : ℕ → ℕ → Prop} : ∀ {fields : List (String × Value)},
    (∀ id ∈ fieldIdentities fields, pairs id id) → AlikeFields hidden pairs fields fields
  | [],_ => by simp only [AlikeFields]
  | entry :: rest,known => by
    simp only [fieldIdentities,List.forall_mem_append] at known
    simp only [AlikeFields]
    exact ⟨alikeField_refl known.1,alikeFields_refl known.2⟩
termination_by structural fields => fields
theorem alikeField_refl {hidden : String → Prop} {pairs : ℕ → ℕ → Prop} : ∀ {entry : String × Value},
    (∀ id ∈ entryIdentities entry, pairs id id) → AlikeField hidden pairs entry entry
  | (key,value),known => by
    simp only [entryIdentities] at known
    simp only [AlikeField]
    exact ⟨trivial,.inr (alike_refl known)⟩
termination_by structural entry => entry
end

-- The objects that stand in the same places of two values.
mutual
def paired : Value → Value → List (ℕ × ℕ)
  | .array id items,.array id' items' => (id,id') :: pairedItems items items'
  | .object id fields,.object id' fields' => (id,id') :: pairedFields fields fields'
  | _,_ => []
termination_by structural value => value
def pairedItems : List Value → List Value → List (ℕ × ℕ)
  | item :: rest,item' :: rest' => paired item item' ++ pairedItems rest rest'
  | _,_ => []
termination_by structural items => items
def pairedFields : List (String × Value) → List (String × Value) → List (ℕ × ℕ)
  | entry :: rest,entry' :: rest' => pairedField entry entry' ++ pairedFields rest rest'
  | _,_ => []
termination_by structural fields => fields
def pairedField : String × Value → String × Value → List (ℕ × ℕ)
  | (_,value),entry => paired value entry.2
termination_by structural entry => entry
end

mutual
theorem paired_sublist : ∀ value value' : Value,
    ((paired value value').map Prod.fst).Sublist (identities value) ∧ ((paired value value').map Prod.snd).Sublist (identities value')
  | .array id items,.array id' items' => by
    simp only [paired,identities,List.map_cons]
    exact ⟨(pairedItems_sublist items items').1.cons_cons id,(pairedItems_sublist items items').2.cons_cons id'⟩
  | .object id fields,.object id' fields' => by
    simp only [paired,identities,List.map_cons]
    exact ⟨(pairedFields_sublist fields fields').1.cons_cons id,(pairedFields_sublist fields fields').2.cons_cons id'⟩
  | .leaf _,_ => by simp [paired]
  | .array _ _,.leaf _ => by simp [paired]
  | .array _ _,.object _ _ => by simp [paired]
  | .object _ _,.leaf _ => by simp [paired]
  | .object _ _,.array _ _ => by simp [paired]
termination_by structural value => value
theorem pairedItems_sublist : ∀ items items' : List Value,
    ((pairedItems items items').map Prod.fst).Sublist (itemIdentities items) ∧ ((pairedItems items items').map Prod.snd).Sublist (itemIdentities items')
  | item :: rest,item' :: rest' => by
    simp only [pairedItems,itemIdentities,List.map_append]
    exact ⟨(paired_sublist item item').1.append (pairedItems_sublist rest rest').1,
      (paired_sublist item item').2.append (pairedItems_sublist rest rest').2⟩
  | [],_ => by simp [pairedItems]
  | _ :: _,[] => by simp [pairedItems]
termination_by structural items => items
theorem pairedFields_sublist : ∀ fields fields' : List (String × Value),
    ((pairedFields fields fields').map Prod.fst).Sublist (fieldIdentities fields) ∧ ((pairedFields fields fields').map Prod.snd).Sublist (fieldIdentities fields')
  | entry :: rest,entry' :: rest' => by
    simp only [pairedFields,fieldIdentities,List.map_append]
    exact ⟨(pairedField_sublist entry entry').1.append (pairedFields_sublist rest rest').1,
      (pairedField_sublist entry entry').2.append (pairedFields_sublist rest rest').2⟩
  | [],_ => by simp [pairedFields]
  | _ :: _,[] => by simp [pairedFields]
termination_by structural fields => fields
theorem pairedField_sublist : ∀ entry entry' : String × Value,
    ((pairedField entry entry').map Prod.fst).Sublist (entryIdentities entry) ∧ ((pairedField entry entry').map Prod.snd).Sublist (entryIdentities entry')
  | (_,value),(_,value') => paired_sublist value value'
termination_by structural entry => entry
end

section
variable {hidden : String → Prop} {pairs : ℕ → ℕ → Prop}

-- Nothing but the places matters as long as no object is asked for twice.
mutual
theorem alike_paired : ∀ {value value' : Value}, Alike hidden (fun _ _ => True) value value' →
    (∀ pair ∈ paired value value', pairs pair.1 pair.2) → Alike hidden pairs value value'
  | .leaf value,other,alike,_ => by
    simp only [Alike] at alike ⊢
    exact alike
  | .array id items,.array id' items',alike,known => by
    simp only [paired,List.forall_mem_cons] at known
    simp only [Alike] at alike ⊢
    exact ⟨known.1,alikeItems_paired alike.2 known.2⟩
  | .object id fields,.object id' fields',alike,known => by
    simp only [paired,List.forall_mem_cons] at known
    simp only [Alike] at alike ⊢
    exact ⟨known.1,alikeFields_paired alike.2 known.2⟩
  | .array _ _,.leaf _,alike,_ => by simp [Alike] at alike
  | .array _ _,.object _ _,alike,_ => by simp [Alike] at alike
  | .object _ _,.leaf _,alike,_ => by simp [Alike] at alike
  | .object _ _,.array _ _,alike,_ => by simp [Alike] at alike
termination_by structural value => value
theorem alikeItems_paired : ∀ {items items' : List Value}, AlikeItems hidden (fun _ _ => True) items items' →
    (∀ pair ∈ pairedItems items items', pairs pair.1 pair.2) → AlikeItems hidden pairs items items'
  | [],[],_,_ => by simp only [AlikeItems]
  | item :: rest,item' :: rest',alike,known => by
    simp only [pairedItems,List.forall_mem_append] at known
    simp only [AlikeItems] at alike ⊢
    exact ⟨alike_paired alike.1 known.1,alikeItems_paired alike.2 known.2⟩
  | [],_ :: _,alike,_ => by simp [AlikeItems] at alike
  | _ :: _,[],alike,_ => by simp [AlikeItems] at alike
termination_by structural items => items
theorem alikeFields_paired : ∀ {fields fields' : List (String × Value)}, AlikeFields hidden (fun _ _ => True) fields fields' →
    (∀ pair ∈ pairedFields fields fields', pairs pair.1 pair.2) → AlikeFields hidden pairs fields fields'
  | [],[],_,_ => by simp only [AlikeFields]
  | entry :: rest,entry' :: rest',alike,known => by
    simp only [pairedFields,List.forall_mem_append] at known
    simp only [AlikeFields] at alike ⊢
    exact ⟨alikeField_paired alike.1 known.1,alikeFields_paired alike.2 known.2⟩
  | [],_ :: _,alike,_ => by simp [AlikeFields] at alike
  | _ :: _,[],alike,_ => by simp [AlikeFields] at alike
termination_by structural fields => fields
theorem alikeField_paired : ∀ {entry entry' : String × Value}, AlikeField hidden (fun _ _ => True) entry entry' →
    (∀ pair ∈ pairedField entry entry', pairs pair.1 pair.2) → AlikeField hidden pairs entry entry'
  | (key,value),(key',value'),alike,known => by
    simp only [pairedField] at known
    simp only [AlikeField] at alike ⊢
    exact ⟨alike.1,alike.2.imp_right fun shown => alike_paired shown known⟩
termination_by structural entry => entry
end
end

-- No object stands twice in the fields, and none of the logger's context does.
def Tree (context fields : List (String × Value)) : Prop :=
  (fieldIdentities fields).Nodup ∧ ∀ id ∈ fieldIdentities fields, id ∉ fieldIdentities context

-- A key the logger is to redact, whatever its case.
def Secret (platform : Platform) (options : LoggerOptions) (key : String) : Prop :=
  ∃ listed ∈ DEFAULT_REDACT_KEYS ++ options.redact.getD [],platform.toLowerCase listed = platform.toLowerCase key

theorem redacts_iff (platform : Platform) (options : LoggerOptions) (context : List (String × Value)) (key : String) :
    (PezhwanLogger.new platform options context).redacts platform key = true ↔ Secret platform options key := by
  simp only [PezhwanLogger.redacts,PezhwanLogger.new,List.contains_iff_mem,List.mem_map,Secret]

theorem line_alike (platform : Platform) (options : LoggerOptions) {context fields fields' : List (String × Value)}
    {pairs : ℕ → ℕ → Prop} (matched : Relator.BiUnique pairs) (known : ∀ id ∈ fieldIdentities context, pairs id id)
    (alike : AlikeFields (Secret platform options) pairs fields fields') (ts : String) (level : LogLevel) (message : String) :
    (PezhwanLogger.new platform options context).line platform ts level message (some fields) =
      (PezhwanLogger.new platform options context).line platform ts level message (some fields') := by
  have hidden : (fun key => (PezhwanLogger.new platform options context).redacts platform key = true) = Secret platform options :=
    funext fun key => propext (redacts_iff platform options context key)
  have own := alikeFields_iff.mp (@alikeFields_refl (Secret platform options) _ _ known)
  have merged := alikeFields_iff.mpr (spread_alike (alikeFields_iff.mp alike) (spread_alike own .nil))
  rw [← hidden] at merged
  obtain ⟨written,_⟩ := redactEntries_alike matched merged [] .nil
  simp only [PezhwanLogger.line]
  exact congrArg (fun out => spread _ (List.filter _ out)) written

theorem trees_matched {context fields fields' : List (String × Value)} (tree : Tree context fields) (tree' : Tree context fields') :
    Relator.BiUnique fun id id' => id = id' ∧ id ∈ fieldIdentities context ∨ (id,id') ∈ pairedFields fields fields' := by
  obtain ⟨left,right⟩ := pairedFields_sublist fields fields'
  have first : ∀ {a b : ℕ}, (a,b) ∈ pairedFields fields fields' → a ∉ fieldIdentities context := fun listed =>
    tree.2 _ (left.subset (List.mem_map_of_mem listed))
  have second : ∀ {a b : ℕ}, (a,b) ∈ pairedFields fields fields' → b ∉ fieldIdentities context := fun listed =>
    tree'.2 _ (right.subset (List.mem_map_of_mem listed))
  constructor
  · intro a b c one other
    rcases one with ⟨rfl,own⟩ | one <;> rcases other with ⟨rfl,own'⟩ | other
    · rfl
    · exact absurd own (second other)
    · exact absurd own' (second one)
    · exact congrArg Prod.fst (List.inj_on_of_nodup_map (right.nodup tree'.1) one other rfl)
  · intro a b c one other
    rcases one with ⟨rfl,own⟩ | one <;> rcases other with ⟨rfl,own'⟩ | other
    · rfl
    · exact absurd own (first other)
    · exact absurd own' (first one)
    · exact congrArg Prod.snd (List.inj_on_of_nodup_map (left.nodup tree.1) one other rfl)

theorem emit_line {platform : Platform} {logger : PezhwanLogger} {fields fields' : Option (List (String × Value))} {ts message : String} {level : LogLevel}
    (same : logger.line platform ts level message fields = logger.line platform ts level message fields') :
    logger.emit platform ts level message fields = logger.emit platform ts level message fields' := by
  simp only [PezhwanLogger.emit,same]

theorem secrets_withheld (platform : Platform) (options : LoggerOptions) (context : List (String × Value)) {fields fields' : List (String × Value)}
    (tree : Tree context fields) (tree' : Tree context fields')
    (alike : AlikeFields (Secret platform options) (fun _ _ => True) fields fields') (ts : String) (level : LogLevel) (message : String) :
    (PezhwanLogger.new platform options context).emit platform ts level message (some fields) =
      (PezhwanLogger.new platform options context).emit platform ts level message (some fields') := by
  have matched := trees_matched tree tree'
  have placed := @alikeFields_paired _ (fun id id' => id = id' ∧ id ∈ fieldIdentities context ∨ (id,id') ∈ pairedFields fields fields') _ _
    alike fun pair listed => .inr listed
  exact emit_line (line_alike platform options matched (fun id own => .inl ⟨rfl,own⟩) placed ts level message)

def plainPlatform : Platform := ⟨fun text => text.map Char.toLower,fun _ => none⟩

def shipped : LoggerOptions := {sink := some fun _ => true, exporter := true}

def signIn (password : String) : List (String × Value) :=
  [("user",.object 1 [("name",.leaf (.string "ada")),("Password",.leaf (.string password))]),("roles",.array 2 [.leaf (.string "admin")])]

theorem signIn_tree (password : String) : Tree [] (signIn password) := by
  simp [Tree,signIn,fieldIdentities,entryIdentities,identities,itemIdentities]

theorem signIn_alike (password password' : String) :
    AlikeFields (Secret plainPlatform shipped) (fun _ _ => True) (signIn password) (signIn password') := by
  have lowered : plainPlatform.toLowerCase "password" = plainPlatform.toLowerCase "Password" := by
    apply String.toList_injective
    simp only [plainPlatform,String.toList_map]
    decide
  have secret : Secret plainPlatform shipped "Password" := ⟨"password",by decide,lowered⟩
  simp [signIn,AlikeFields,AlikeField,Alike,AlikeItems,secret]

theorem secrets_withheld_nested :
    (Tree [] (signIn "hunter2") ∧ Tree [] (signIn "secret") ∧
      AlikeFields (Secret plainPlatform shipped) (fun _ _ => True) (signIn "hunter2") (signIn "secret")) ∧
    (PezhwanLogger.new plainPlatform shipped []).emit plainPlatform "now" .info "login" (some (signIn "hunter2")) =
      (PezhwanLogger.new plainPlatform shipped []).emit plainPlatform "now" .info "login" (some (signIn "secret")) :=
  ⟨⟨signIn_tree _,signIn_tree _,signIn_alike _ _⟩,
    secrets_withheld plainPlatform shipped [] (signIn_tree _) (signIn_tree _) (signIn_alike _ _) "now" .info "login"⟩

end Pezhwan.Logger
