import Pezhwan.Atomic.Dict
import Pezhwan.Atomic.Machine
import Pezhwan.Json

namespace Pezhwan.Scim
open Atomic

-- A user is an object whose fields the operations merge into; nothing but its
-- type says what they hold.
abbrev ScimUser := Dict String Json

-- An operation comes from the body of a request, which is not checked.
inductive PatchOp where
  | add | remove | replace
  | other (op : String)
  deriving DecidableEq, Repr

structure ScimPatchOperation where
  op : PatchOp
  path : Option String := none
  value : Option Json := none

inductive ScimError where
  | notFound
  | typeError
  deriving DecidableEq, Repr

-- String(value): an object whose `toString` is a field of its own has none to call.
mutual
def textOf : Json → Except ScimError String
  | .null => .ok "null"
  | .bool value => .ok (if value then "true" else "false")
  | .number value => .ok value.literal
  | .string value => .ok value
  | .array items => (joined items).map fun parts => ",".intercalate parts
  | .object fields => if fields.any fun field => field.1 == "toString" then .error .typeError else .ok "[object Object]"
termination_by structural json => json
def joined : List Json → Except ScimError (List String)
  | [] => .ok []
  | .null :: rest => (joined rest).map ("" :: ·)
  | item :: rest =>
    match textOf item with
    | .error e => .error e
    | .ok text => (joined rest).map (text :: ·)
termination_by structural items => items
end

def asString : Option Json → Except ScimError String
  | none => .ok "undefined"
  | some value => textOf value

def put (fields : List (String × Json)) (user : ScimUser) : ScimUser :=
  fields.foldl (fun user field => user.set field.1 field.2) user

-- Object.assign sets fields, and setting `__proto__` changes no field.
def assign (fields : List (String × Json)) (user : ScimUser) : ScimUser :=
  put (fields.filter fun field => field.1 != "__proto__") user

def merged (old new : List (String × Json)) : Json := .object (put new (put old .empty)).entries

def iterated : Option Json → Except ScimError (List Json)
  | none | some .null => .ok []
  | some (.array items) => .ok items
  | some (.string value) => .ok (value.toList.map fun c => .string (String.singleton c))
  | some (.bool _) | some (.number _) | some (.object _) => .error .typeError

def arrayOf : Option Json → List Json
  | some (.array items) => items
  | _ => []

def applyOp (op : ScimPatchOperation) (user : ScimUser) : Except ScimError ScimUser :=
  match op.op with
  | .replace =>
    if op.path = some "active" then .ok (user.set "active" (.bool (Json.truthy op.value)))
    else if op.path = some "userName" then (asString op.value).map fun text => user.set "userName" (.string text)
    else if op.path = some "name" then
      .ok (user.set "name" (merged (Json.spread (user.get? "name")) (Json.spread op.value)))
    else if op.path = none ∨ op.path = some "" then .ok (assign (Json.spread op.value) user)
    else .ok user
  | .add =>
    if op.path = some "emails" then
      (iterated (user.get? "emails")).map fun items => user.set "emails" (.array (items ++ arrayOf op.value))
    else .ok user
  | .remove => if op.path = some "active" then .ok (user.set "active" (.bool false)) else .ok user
  | .other _ => .ok user

-- The operations change the stored object in place: what is left of it counts
-- also when one of them throws.
def applyAll : List ScimPatchOperation → ScimUser → Except ScimError Unit × ScimUser
  | [],user => (.ok (),user)
  | op :: rest,user =>
    match applyOp op user with
    | .error e => (.error e,user)
    | .ok changed => applyAll rest changed

-- What follows `lead` up to a closing quote: ([^"]+)"$
def quotedAfter (lead text : List Char) : Option String :=
  if lead.isPrefixOf text then
    match (text.drop lead.length).reverse with
    | '"' :: inner => if inner ≠ [] ∧ '"' ∉ inner then some (String.ofList inner.reverse) else none
    | _ => none
  else none

inductive Query where
  | userName (value : String)
  | email (value : String)
  deriving DecidableEq, Repr

-- The dot of /^emails.value eq "([^"]+)"$/ stands for any one code unit but a
-- line terminator.
def anyUnit (c : Char) : Bool := !([10,13,8232,8233].contains c.toNat) && c.toNat < 65536

def given (filter : Option String) : Option String := filter.filter (· != "")

def queryOf (filter : String) : Option Query :=
  let text := trim filter.toList
  match quotedAfter "userName eq \"".toList text with
  | some value => some (.userName value)
  | none =>
    match text.drop 6 with
    | [] => none
    | c :: rest =>
      if "emails".toList.isPrefixOf text && anyUnit c then (quotedAfter "value eq \"".toList rest).map .email else none

def valueOf : Json → Except ScimError (Option Json)
  | .null => .error .typeError
  | .object fields => .ok (fields.lookup "value")
  | _ => .ok none

def isText (value : String) : Option Json → Bool
  | some (.string text) => text == value
  | _ => false

def someEmail (value : String) : List Json → Except ScimError Bool
  | [] => .ok false
  | email :: rest =>
    match valueOf email with
    | .error e => .error e
    | .ok found => if isText value found then .ok true else someEmail value rest

def matchesQuery (user : ScimUser) : Query → Except ScimError Bool
  | .userName value => .ok (isText value (user.get? "userName"))
  | .email value =>
    match user.get? "emails" with
    | none | some .null => .ok false
    | some (.array emails) => someEmail value emails
    | _ => .error .typeError

def filtered (query : Query) : List ScimUser → Except ScimError (List ScimUser)
  | [] => .ok []
  | user :: rest =>
    match matchesQuery user query with
    | .error e => .error e
    | .ok found => (filtered query rest).map fun users => if found then user :: users else users

abbrev MemoryScimUserStore := Dict String ScimUser

namespace MemoryScimUserStore
variable (s : MemoryScimUserStore)

def create (token : String) (input : ScimUser) : ScimUser × MemoryScimUserStore :=
  let user := input.set "id" (.string token)
  (user,s.set token user)

def get (id : String) : Except ScimError ScimUser :=
  match s.get? id with
  | none => .error .notFound
  | some user => .ok user

def replace (id : String) (input : ScimUser) : Except ScimError ScimUser × MemoryScimUserStore :=
  match s.get? id with
  | none => (.error .notFound,s)
  | some _ =>
    let user := input.set "id" (.string id)
    (.ok user,s.set id user)

def delete (id : String) : Except ScimError Unit × MemoryScimUserStore :=
  match s.get? id with
  | none => (.error .notFound,s)
  | some _ => (.ok (),s.erase id)

def list (filter : Option String) : Except ScimError (List ScimUser) :=
  match given filter with
  | none => .ok s.values
  | some filter =>
    match queryOf filter with
    | none => .ok s.values
    | some query => filtered query s.values

def patch (id : String) (operations : List ScimPatchOperation) : Except ScimError ScimUser × MemoryScimUserStore :=
  match s.get? id with
  | none => (.error .notFound,s)
  | some user =>
    let (outcome,left) := applyAll operations user
    (outcome.map fun _ => left,s.set id left)

end MemoryScimUserStore
end Pezhwan.Scim
