import Mathlib.Tactic.Common

namespace Pezhwan

-- The characters of a number as JavaScript prints it.
def numerals : List Char := "0123456789+-.e".toList

structure Numeral where
  literal : String
  filled : literal ≠ ""
  numeric : ∀ c ∈ literal.toList, c ∈ numerals
  deriving Repr

-- A JSON value: a number is its literal, the fields of an object stand in
-- enumeration order.
inductive Json where
  | null
  | bool (value : Bool)
  | number (value : Numeral)
  | string (value : String)
  | array (items : List Json)
  | object (fields : List (String × Json))
  deriving Repr

-- \s of a pattern, which is also what trim() takes off.
def isSpace (c : Char) : Bool :=
  [9,10,11,12,13,32,160,5760,8232,8233,8239,8287,12288,65279].contains c.toNat || (8192 ≤ c.toNat && c.toNat ≤ 8202)

def trim (text : List Char) : List Char := ((text.dropWhile isSpace).reverse.dropWhile isSpace).reverse

namespace Json
def truthy : Option Json → Bool
  | none | some .null => false
  | some (.bool value) => value
  | some (.number value) => value.literal != "0"
  | some (.string value) => value != ""
  | some (.array _) | some (.object _) => true

def indexed (items : List Json) : List (String × Json) := items.zipIdx.map fun item => (toString item.2,item.1)

def spread : Option Json → List (String × Json)
  | none | some .null | some (.bool _) | some (.number _) => []
  | some (.string value) => indexed (value.toList.map fun c => .string (String.singleton c))
  | some (.array items) => indexed items
  | some (.object fields) => fields
end Json

def hexDigit (n : Nat) : Char := "0123456789abcdef".toList.getD n '0'

def quoteChar (c : Char) : List Char :=
  if c = '"' then ['\\','"']
  else if c = '\\' then ['\\','\\']
  else if c = Char.ofNat 8 then ['\\','b']
  else if c = '\t' then ['\\','t']
  else if c = '\n' then ['\\','n']
  else if c = Char.ofNat 12 then ['\\','f']
  else if c = '\r' then ['\\','r']
  else if c.toNat < 32 then ['\\','u','0','0',hexDigit (c.toNat / 16),hexDigit (c.toNat % 16)]
  else [c]

def quote (text : String) : String := String.ofList ('"' :: text.toList.flatMap quoteChar ++ ['"'])

-- JSON.stringify without indentation.
mutual
def Json.stringify : Json → String
  | .null => "null"
  | .bool value => if value then "true" else "false"
  | .number value => value.literal
  | .string value => quote value
  | .array items => "[" ++ ",".intercalate (Json.items items) ++ "]"
  | .object fields => "\x7b" ++ ",".intercalate (Json.members fields) ++ "\x7d"
termination_by structural json => json
def Json.items : List Json → List String
  | [] => []
  | item :: rest => item.stringify :: Json.items rest
termination_by structural items => items
def Json.members : List (String × Json) → List String
  | [] => []
  | field :: rest => Json.member field :: Json.members rest
termination_by structural fields => fields
def Json.member : String × Json → String
  | (name,value) => quote name ++ ":" ++ value.stringify
termination_by structural field => field
end

end Pezhwan
