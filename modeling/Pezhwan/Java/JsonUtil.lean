import Pezhwan.Json.Grammar

-- JSON as the Java SDK writes and reads it.
namespace Pezhwan.Java
open JsonGrammar

-- java.lang.Character, on code units.
def isWhitespace (c : UInt16) : Bool :=
  (9 ≤ c && c ≤ 13) || (28 ≤ c && c ≤ 32) || c == 0x1680 || (0x2000 ≤ c && c ≤ 0x2006) || (0x2008 ≤ c && c ≤ 0x200a) ||
    c == 0x2028 || c == 0x2029 || c == 0x205f || c == 0x3000

def zeros : List ℕ := [
  0x30,0x660,0x6f0,0x7c0,0x966,0x9e6,0xa66,0xae6,0xb66,0xbe6,0xc66,0xce6,0xd66,0xde6,0xe50,0xed0,0xf20,0x1040,0x1090,0x17e0,
  0x1810,0x1946,0x19d0,0x1a80,0x1a90,0x1b50,0x1bb0,0x1c40,0x1c50,0xa620,0xa8d0,0xa900,0xa9d0,0xa9f0,0xaa50,0xabf0,0xff10]

def zeroOf (c : UInt16) : Option ℕ := zeros.find? fun z => z ≤ c.toNat && c.toNat < z + 10

def isDigit (c : UInt16) : Bool := (zeroOf c).isSome

-- Character.digit(c, 16), which takes full-width letters too.
def digit16 (c : UInt16) : Option ℕ :=
  match zeroOf c with
  | some z => some (c.toNat - z)
  | none =>
    if unit 'a' ≤ c ∧ c ≤ unit 'f' then some (c.toNat - 87)
    else if unit 'A' ≤ c ∧ c ≤ unit 'F' then some (c.toNat - 55)
    else if 0xff41 ≤ c ∧ c ≤ 0xff46 then some (c.toNat - 0xff37)
    else if 0xff21 ≤ c ∧ c ≤ 0xff26 then some (c.toNat - 0xff17)
    else none

def digits16 : ℕ → Text → Option ℕ
  | value,[] => some value
  | value,c :: rest => (digit16 c).bind fun digit => digits16 (value * 16 + digit) rest

-- (char) Integer.parseInt(text, 16); a sign is a number's too.
def parseChar (text : Text) : Option UInt16 :=
  match text with
  | [] => none
  | c :: rest =>
    if c < unit '0' then
      if rest = [] then none
      else if c = unit '-' then (digits16 0 rest).map fun value => -UInt16.ofNat value
      else if c = unit '+' then (digits16 0 rest).map UInt16.ofNat
      else none
    else (digits16 0 text).map UInt16.ofNat

-- The double that a decimal text is read as.
structure Doubles (D : Type) where
  value : Text → D

def unsigned : Text → Text
  | c :: rest => if c = unit '+' ∨ c = unit '-' then rest else c :: rest
  | [] => []

def exponent : Text → Bool
  | e :: rest => (e == unit 'e' || e == unit 'E') && unsigned rest != [] && (unsigned rest).all fun c => decide (JsonGrammar.isDigit c)
  | [] => true

-- What Double.parseDouble takes among the texts of digits, signs, points and e.
def decimal (text : Text) : Bool :=
  let isAscii := fun c => decide (JsonGrammar.isDigit c)
  let int := (unsigned text).takeWhile isAscii
  match (unsigned text).dropWhile isAscii with
  | [] => int != []
  | c :: rest =>
    if c = unit '.' then (int != [] || rest.takeWhile isAscii != []) && exponent (rest.dropWhile isAscii)
    else int != [] && exponent (c :: rest)

-- A Java number: the text of String.valueOf, and the number as a double. Reading
-- the text gives the double again.
structure Printing {D : Type} (doubles : Doubles D) (N : Type) where
  print : N → Text
  toDouble : N → D
  decimal : ∀ x, decimal (print x) = true
  numeric : ∀ x, ∀ c ∈ print x, isDigit c ∨ c ∈ units "-.eE+"
  inverse : ∀ x, doubles.value (print x) = toDouble x

namespace JsonUtil

section
variable {N : Type} (print : N → Text)

def hexUnit (n : ℕ) : UInt16 := if n < 10 then UInt16.ofNat (48 + n) else UInt16.ofNat (87 + n)

-- %04x
def hex4 (c : UInt16) : Text :=
  [hexUnit (c.toNat / 4096),hexUnit (c.toNat / 256 % 16),hexUnit (c.toNat / 16 % 16),hexUnit (c.toNat % 16)]

def escaped (c : UInt16) : Text :=
  if c = unit '"' then [unit '\\',unit '"']
  else if c = unit '\\' then [unit '\\',unit '\\']
  else if c = unit '\n' then [unit '\\',unit 'n']
  else if c = unit '\r' then [unit '\\',unit 'r']
  else if c = unit '\t' then [unit '\\',unit 't']
  else if c < 0x20 then unit '\\' :: unit 'u' :: hex4 c
  else [c]

def appendString (value : Text) : Text := unit '"' :: (value.flatMap escaped ++ [unit '"'])

def comma (first : Bool) : Text := if first then [] else [unit ',']

mutual
def appendValue : Value N → Text
  | .null => units "null"
  | .map entries => unit '{' :: (appendEntries true entries ++ [unit '}'])
  | .list items => unit '[' :: (appendItems true items ++ [unit ']'])
  | .number value => print value
  | .bool value => if value then units "true" else units "false"
  | .string value => appendString value
termination_by structural value => value
def appendItems (first : Bool) : List (Value N) → Text
  | [] => []
  | item :: rest => comma first ++ (appendValue item ++ appendItems false rest)
termination_by structural items => items
def appendEntries (first : Bool) : List (Text × Value N) → Text
  | [] => []
  | entry :: rest => comma first ++ (appendEntry entry ++ appendEntries false rest)
termination_by structural entries => entries
def appendEntry : Text × Value N → Text
  | (key,value) => appendString key ++ unit ':' :: appendValue value
termination_by structural entry => entry
end

def write (body : List (Text × Value N)) : Text := appendValue print (.map body)

end

-- The reader keeps what is left of the text. Which exception it throws is not told
-- apart.
def skipWs (text : Text) : Text := text.dropWhile isWhitespace

def expect (c : UInt16) (text : Text) : Option Text :=
  match skipWs text with
  | d :: rest => if d = c then some rest else none
  | [] => none

def unescaped (e : UInt16) (rest : Text) : Option UInt16 :=
  if e = unit 'n' then some 10
  else if e = unit 't' then some 9
  else if e = unit 'r' then some 13
  else if e = unit 'b' then some 8
  else if e = unit 'f' then some 12
  else if e = unit 'u' then if rest.length < 4 then none else parseChar (rest.take 4)
  else some e

def parseChars : Text → Option (Text × Text)
  | [] => none
  | c :: rest =>
    if c = unit '"' then some ([],rest)
    else if c = unit '\\' then
      match rest with
      | [] => none
      | e :: rest => (unescaped e rest).bind fun u => (parseChars rest).map fun read => (u :: read.1,read.2)
    else (parseChars rest).map fun read => (c :: read.1,read.2)

def parseString (text : Text) : Option (Text × Text) := (expect (unit '"') text).bind parseChars

def isNumeric (c : UInt16) : Bool :=
  isDigit c || c == unit '-' || c == unit '.' || c == unit 'e' || c == unit 'E' || c == unit '+'

section
variable {D : Type} (doubles : Doubles D)

def parseDouble (text : Text) : Option D := if decimal text then some (doubles.value text) else none

def parseNumber (text : Text) : Option (Value D × Text) :=
  (parseDouble doubles (text.takeWhile isNumeric)).map fun value => (.number value,text.dropWhile isNumeric)

-- What stands between two brackets: nothing, or what `more` reads.
def enclosed (left right : Char) (empty : Value D) (more : Text → Option (Value D × Text)) (text : Text) : Option (Value D × Text) :=
  (expect (unit left) text).bind fun text =>
    match skipWs text with
    | c :: rest => if c = unit right then some (empty,rest) else more (c :: rest)
    | [] => more []

def parseObject (members : List (Text × Value D) → Text → Option (Value D × Text)) : Text → Option (Value D × Text) :=
  enclosed '{' '}' (.map []) (members [])

def parseArray (items : List (Value D) → Text → Option (Value D × Text)) : Text → Option (Value D × Text) :=
  enclosed '[' ']' (.list []) (items [])

-- The fuel bounds how deep the calls and the turns of the two loops are nested.
mutual
def parseValue : ℕ → Text → Option (Value D × Text)
  | 0,_ => none
  | fuel + 1,text =>
    match skipWs text with
    | [] => parseNumber doubles []
    | c :: rest =>
      if c = unit '{' then parseObject (parseMembers fuel) (c :: rest)
      else if c = unit '[' then parseArray (parseItems fuel) (c :: rest)
      else if c = unit '"' then (parseString (c :: rest)).map fun read => (.string read.1,read.2)
      else if c = unit 't' then some (.bool true,(c :: rest).drop 4)
      else if c = unit 'f' then some (.bool false,(c :: rest).drop 5)
      else if c = unit 'n' then some (.null,(c :: rest).drop 4)
      else parseNumber doubles (c :: rest)
def parseMembers : ℕ → List (Text × Value D) → Text → Option (Value D × Text)
  | 0,_,_ => none
  | fuel + 1,map,text =>
    (parseString (skipWs text)).bind fun (key,text) =>
      (expect (unit ':') (skipWs text)).bind fun text =>
        (parseValue fuel text).bind fun (value,text) =>
          match skipWs text with
          | [] => none
          | c :: rest =>
            if c = unit ',' then parseMembers fuel (put map (key,value)) rest
            else if c = unit '}' then some (.map (put map (key,value)),rest)
            else none
def parseItems : ℕ → List (Value D) → Text → Option (Value D × Text)
  | 0,_,_ => none
  | fuel + 1,list,text =>
    (parseValue fuel text).bind fun (value,text) =>
      match skipWs text with
      | [] => none
      | c :: rest =>
        if c = unit ',' then parseItems fuel (list ++ [value]) rest
        else if c = unit ']' then some (.list (list ++ [value]),rest)
        else none
end

def parse (text : Text) : Option (Value D) := (parseValue doubles (2 * text.length + 2) (skipWs text)).map Prod.fst

def read (raw : Option Text) : Option (List (Text × Value D)) :=
  match raw with
  | none => some []
  | some raw =>
    if raw.all isWhitespace then some []
    else
      (parse doubles raw).map fun parsed =>
        match parsed with
        | .map entries => entries
        | _ => []

end
end JsonUtil
end Pezhwan.Java
