import Mathlib.Tactic.Common
import Mathlib.Data.List.Basic
import Mathlib.Data.Bool.AllAny

-- Texts of UTF-16 code units with a value in the shape of JSON, over a lexicon that
-- says what blanks, words, numbers and the pieces of a string are.
namespace JsonGrammar

abbrev Text := List UInt16

def unit (c : Char) : UInt16 := UInt16.ofNat c.toNat

def units (text : String) : Text := text.toList.map unit

-- The entries of a map stand in the order in which they were put.
inductive Value (ν : Type) where
  | null
  | bool (value : Bool)
  | number (value : ν)
  | string (value : Text)
  | list (items : List (Value ν))
  | map (entries : List (Text × Value ν))

section
variable {ν : Type}

-- A key that is there keeps its place.
def put (entries : List (Text × Value ν)) (entry : Text × Value ν) : List (Text × Value ν) :=
  if entry.1 ∈ entries.map Prod.fst then entries.map fun old => if old.1 = entry.1 then entry else old else entries ++ [entry]

-- Equal as values: the order of the entries of a map is nothing.
mutual
inductive Equal : Value ν → Value ν → Prop where
  | null : Equal .null .null
  | bool : Equal (.bool value) (.bool value)
  | number : Equal (.number value) (.number value)
  | string : Equal (.string value) (.string value)
  | list (items : EqualItems one two) : Equal (.list one) (.list two)
  | map (entries : EqualEntries one two) : Equal (.map one) (.map two)
inductive EqualItems : List (Value ν) → List (Value ν) → Prop where
  | nil : EqualItems [] []
  | cons (first : Equal a b) (rest : EqualItems one two) : EqualItems (a :: one) (b :: two)
inductive EqualEntries : List (Text × Value ν) → List (Text × Value ν) → Prop where
  | nil : EqualEntries [] []
  | cons (first : Equal a b) (rest : EqualEntries one (before ++ after)) :
      EqualEntries ((key,a) :: one) (before ++ (key,b) :: after)
end

-- No key twice, as in every map there is.
inductive Keyed : Value ν → Prop where
  | null : Keyed .null
  | bool : Keyed (.bool value)
  | number : Keyed (.number value)
  | string : Keyed (.string value)
  | list (each : ∀ item ∈ items, Keyed item) : Keyed (.list items)
  | map (keys : (entries.map Prod.fst).Nodup) (each : ∀ entry ∈ entries, Keyed entry.2) : Keyed (.map entries)

mutual
def texts : Value ν → List Text
  | .string value => [value]
  | .list items => itemTexts items
  | .map entries => entryTexts entries
  | _ => []
termination_by structural value => value
def itemTexts : List (Value ν) → List Text
  | [] => []
  | item :: rest => texts item ++ itemTexts rest
termination_by structural items => items
def entryTexts : List (Text × Value ν) → List Text
  | [] => []
  | entry :: rest => textsOfEntry entry ++ entryTexts rest
termination_by structural entries => entries
def textsOfEntry : Text × Value ν → List Text
  | (key,value) => key :: texts value
termination_by structural entry => entry
end

-- The same value in other words and numbers.
mutual
def convert (text : Text → Text) (number : ν → μ) : Value ν → Value μ
  | .null => .null
  | .bool value => .bool value
  | .number value => .number (number value)
  | .string value => .string (text value)
  | .list items => .list (convertItems text number items)
  | .map entries => .map (convertEntries text number entries)
termination_by structural value => value
def convertItems (text : Text → Text) (number : ν → μ) : List (Value ν) → List (Value μ)
  | [] => []
  | item :: rest => convert text number item :: convertItems text number rest
termination_by structural items => items
def convertEntries (text : Text → Text) (number : ν → μ) : List (Text × Value ν) → List (Text × Value μ)
  | [] => []
  | entry :: rest => convertEntry text number entry :: convertEntries text number rest
termination_by structural entries => entries
def convertEntry (text : Text → Text) (number : ν → μ) : Text × Value ν → Text × Value μ
  | (key,value) => (text key,convert text number value)
termination_by structural entry => entry
end

theorem Value.all {motive : Value ν → Prop} (null : motive .null) (bool : ∀ value, motive (.bool value))
    (number : ∀ value, motive (.number value)) (string : ∀ value, motive (.string value))
    (list : ∀ items, (∀ item ∈ items, motive item) → motive (.list items))
    (map : ∀ entries, (∀ entry ∈ entries, motive entry.2) → motive (.map entries)) (value : Value ν) : motive value := by
  refine @Value.rec ν motive (fun items => ∀ item ∈ items, motive item) (fun entries => ∀ entry ∈ entries, motive entry.2)
    (fun entry => motive entry.2) null bool number string list map ?_ ?_ ?_ ?_ (fun _ _ held => held) value
  · exact List.forall_mem_nil _
  · exact fun item rest first others => List.forall_mem_cons.mpr ⟨first,others⟩
  · exact List.forall_mem_nil _
  · exact fun entry rest first others => List.forall_mem_cons.mpr ⟨first,others⟩

theorem texts_list (items : List (Value ν)) : texts (.list items) = items.flatMap texts := by
  change itemTexts items = _
  induction items with
  | nil => rfl
  | cons item rest ih =>
    rw [itemTexts,ih]
    rfl

theorem entryTexts_flat (entries : List (Text × Value ν)) : entryTexts entries = entries.flatMap fun entry => entry.1 :: texts entry.2 := by
  induction entries with
  | nil => rfl
  | cons entry rest ih =>
    obtain ⟨key,value⟩ := entry
    rw [entryTexts,ih]
    rfl

theorem entryTexts_append (one two : List (Text × Value ν)) : entryTexts (one ++ two) = entryTexts one ++ entryTexts two := by
  rw [entryTexts_flat,entryTexts_flat,entryTexts_flat,List.flatMap_append]

theorem texts_map (entries : List (Text × Value ν)) : texts (.map entries) = entries.flatMap fun entry => entry.1 :: texts entry.2 :=
  entryTexts_flat entries

theorem convert_list (text : Text → Text) (number : ν → μ) (items : List (Value ν)) :
    convert text number (.list items) = .list (items.map (convert text number)) := by
  have all : convertItems text number items = items.map (convert text number) := by
    induction items with
    | nil => rfl
    | cons item rest ih => rw [convertItems,ih,List.map_cons]
  rw [← all]
  rfl

theorem convert_map (text : Text → Text) (number : ν → μ) (entries : List (Text × Value ν)) :
    convert text number (.map entries) = .map (entries.map fun entry => (text entry.1,convert text number entry.2)) := by
  have all : convertEntries text number entries = entries.map fun entry => (text entry.1,convert text number entry.2) := by
    induction entries with
    | nil => rfl
    | cons entry rest ih =>
      obtain ⟨key,value⟩ := entry
      rw [convertEntries,ih,List.map_cons]
      rfl
  rw [← all]
  rfl

theorem texts_convert (text : Text → Text) (number : ν → μ) (value : Value ν) :
    texts (convert text number value) = (texts value).map text := by
  induction value using Value.all with
  | null => rfl
  | bool => rfl
  | number => rfl
  | string => rfl
  | list items ih =>
    rw [convert_list,texts_list,texts_list,List.flatMap_map,List.map_flatMap]
    exact List.flatMap_congr ih
  | map entries ih =>
    rw [convert_map,texts_map,texts_map,List.flatMap_map,List.map_flatMap]
    refine List.flatMap_congr fun entry listed => ?_
    rw [ih entry listed,List.map_cons]

theorem convert_congr {one two : Text → Text} (number : ν → μ) {value : Value ν} (same : ∀ text ∈ texts value, one text = two text) :
    convert one number value = convert two number value := by
  induction value using Value.all with
  | null => rfl
  | bool => rfl
  | number => rfl
  | string value => exact congrArg Value.string (same value (List.mem_singleton_self value))
  | list items ih =>
    rw [texts_list] at same
    rw [convert_list,convert_list]
    refine congrArg Value.list (List.map_congr_left fun item listed => ih item listed fun text inside => ?_)
    exact same text (List.mem_flatMap.mpr ⟨item,listed,inside⟩)
  | map entries ih =>
    rw [texts_map] at same
    rw [convert_map,convert_map]
    refine congrArg Value.map (List.map_congr_left fun entry listed => ?_)
    have key := same entry.1 (List.mem_flatMap.mpr ⟨entry,listed,List.mem_cons_self⟩)
    have inside := ih entry listed fun text inside => same text (List.mem_flatMap.mpr ⟨entry,listed,List.mem_cons_of_mem _ inside⟩)
    rw [key,inside]

theorem equal_refl (value : Value ν) : Equal value value := by
  induction value using Value.all with
  | null => exact .null
  | bool => exact .bool
  | number => exact .number
  | string => exact .string
  | list items ih =>
    refine .list ?_
    induction items with
    | nil => exact .nil
    | cons item rest more =>
      obtain ⟨first,others⟩ := List.forall_mem_cons.mp ih
      exact .cons first (more others)
  | map entries ih =>
    refine .map ?_
    induction entries with
    | nil => exact .nil
    | cons entry rest more =>
      obtain ⟨first,others⟩ := List.forall_mem_cons.mp ih
      exact @EqualEntries.cons _ _ _ _ [] _ _ first (more others)

-- Equal values have the same keys and strings, in some order.
mutual
theorem equal_texts : Equal a b → (texts a).Perm (texts b)
  | .null => .refl _
  | .bool => .refl _
  | .number => .refl _
  | .string => .refl _
  | .list items => items_texts items
  | .map entries => entries_texts entries
theorem items_texts : EqualItems one two → (itemTexts one).Perm (itemTexts two)
  | .nil => .refl _
  | .cons first rest => (equal_texts first).append (items_texts rest)
theorem entries_texts : EqualEntries one two → (entryTexts one).Perm (entryTexts two)
  | .nil => .refl _
  | @EqualEntries.cons _ _ b _ before after key first rest => by
    have inside := (equal_texts first).append (entries_texts rest)
    rw [entryTexts_append] at inside
    rw [entryTexts_append]
    exact (inside.cons key).trans (List.perm_append_comm_assoc (key :: texts b) (entryTexts before) (entryTexts after))
end

theorem put_fresh (entries : List (Text × Value ν)) (fresh : entry.1 ∉ entries.map Prod.fst) : put entries entry = entries ++ [entry] :=
  if_neg fresh

theorem puts_fresh (entries members : List (Text × Value ν)) (fresh : ((entries ++ members).map Prod.fst).Nodup) :
    members.foldl put entries = entries ++ members := by
  induction members generalizing entries with
  | nil => exact (List.append_nil entries).symm
  | cons member rest ih =>
    have other : member.1 ∉ entries.map Prod.fst := by
      rw [List.map_append,List.map_cons,List.nodup_append] at fresh
      exact fun listed => fresh.2.2 _ listed _ List.mem_cons_self rfl
    rw [List.append_cons] at fresh
    rw [List.foldl_cons,put_fresh entries other,ih _ fresh,← List.append_cons]

end

-- Each of the three relations has what it reads, what it comes to, and what is left.
structure Lexicon (ν : Type) where
  blank : UInt16 → Prop
  word : Text → Value ν → Text → Prop
  number : Text → ν → Text → Prop
  piece : Text → Text → Text → Prop

variable {ν : Type}

inductive Blank (lexicon : Lexicon ν) : Text → Text → Prop where
  | none : Blank lexicon s s
  | some (first : lexicon.blank u) (rest : Blank lexicon s t) : Blank lexicon (u :: s) t

-- The inside of a string, up to the quotation mark that ends it.
inductive Chars (lexicon : Lexicon ν) : Text → Text → Text → Prop where
  | close : Chars lexicon (unit '"' :: r) [] r
  | piece (first : lexicon.piece s one t) (rest : Chars lexicon t two r) : Chars lexicon s (one ++ two) r

inductive Phrase (ν : Type) where
  | value (value : Value ν)
  | items (items : List (Value ν))
  | members (members : List (Text × Value ν))

-- Items and members are read from behind an opening bracket or a comma, to behind
-- the closing bracket.
inductive Reads (lexicon : Lexicon ν) : Phrase ν → Text → Text → Prop where
  | word (read : lexicon.word s value r) : Reads lexicon (.value value) s r
  | number (read : lexicon.number s value r) : Reads lexicon (.value (.number value)) s r
  | string (chars : Chars lexicon s value r) : Reads lexicon (.value (.string value)) (unit '"' :: s) r
  | emptyList (blank : Blank lexicon s (unit ']' :: r)) : Reads lexicon (.value (.list [])) (unit '[' :: s) r
  | list (read : Reads lexicon (.items items) s r) : Reads lexicon (.value (.list items)) (unit '[' :: s) r
  | emptyMap (blank : Blank lexicon s (unit '}' :: r)) : Reads lexicon (.value (.map [])) (unit '{' :: s) r
  | map (read : Reads lexicon (.members members) s r) :
      Reads lexicon (.value (.map (members.foldl put []))) (unit '{' :: s) r
  | lastItem (before : Blank lexicon s t) (item : Reads lexicon (.value value) t u) (after : Blank lexicon u (unit ']' :: r)) :
      Reads lexicon (.items [value]) s r
  | item (before : Blank lexicon s t) (item : Reads lexicon (.value value) t u) (after : Blank lexicon u (unit ',' :: w))
      (more : Reads lexicon (.items items) w r) : Reads lexicon (.items (value :: items)) s r
  | lastMember (before : Blank lexicon s (unit '"' :: t)) (key : Chars lexicon t name u) (between : Blank lexicon u (unit ':' :: w))
      (beside : Blank lexicon w x) (item : Reads lexicon (.value value) x y) (after : Blank lexicon y (unit '}' :: r)) :
      Reads lexicon (.members [(name,value)]) s r
  | member (before : Blank lexicon s (unit '"' :: t)) (key : Chars lexicon t name u) (between : Blank lexicon u (unit ':' :: w))
      (beside : Blank lexicon w x) (item : Reads lexicon (.value value) x y) (after : Blank lexicon y (unit ',' :: z))
      (more : Reads lexicon (.members members) z r) : Reads lexicon (.members ((name,value) :: members)) s r

-- The lexicon of RFC 8259.
def isDigit (u : UInt16) : Prop := unit '0' ≤ u ∧ u ≤ unit '9'

instance : DecidablePred isDigit := fun u => inferInstanceAs (Decidable (unit '0' ≤ u ∧ u ≤ unit '9'))

def Digits (text : Text) : Prop := text ≠ [] ∧ ∀ u ∈ text, isDigit u

def IntPart (text : Text) : Prop := text = [unit '0'] ∨ ∃ d rest, text = d :: rest ∧ isDigit d ∧ d ≠ unit '0' ∧ ∀ u ∈ rest, isDigit u

def FracPart (text : Text) : Prop := text = [] ∨ ∃ digits, text = unit '.' :: digits ∧ Digits digits

def SignPart (text : Text) : Prop := text = [] ∨ text = [unit '+'] ∨ text = [unit '-']

def ExpPart (text : Text) : Prop :=
  text = [] ∨ ∃ e sign digits, text = e :: (sign ++ digits) ∧ (e = unit 'e' ∨ e = unit 'E') ∧ SignPart sign ∧ Digits digits

def Number (text : Text) : Prop :=
  ∃ minus int frac exp, text = minus ++ (int ++ (frac ++ exp)) ∧ (minus = [] ∨ minus = [unit '-']) ∧ IntPart int ∧ FracPart frac ∧ ExpPart exp

def hexDigit (u : UInt16) : Option ℕ :=
  if unit '0' ≤ u ∧ u ≤ unit '9' then some (u.toNat - 48)
  else if unit 'a' ≤ u ∧ u ≤ unit 'f' then some (u.toNat - 87)
  else if unit 'A' ≤ u ∧ u ≤ unit 'F' then some (u.toNat - 55)
  else none

-- What the letter behind a reverse solidus stands for.
def unescape (e : UInt16) : UInt16 :=
  if e = unit 'b' then 8 else if e = unit 'f' then 12 else if e = unit 'n' then 10
  else if e = unit 'r' then 13 else if e = unit 't' then 9 else e

def escapable (e : UInt16) : Prop := e ∈ units "\"\\/bfnrt"

inductive Piece : (keeping : Bool) → Text → Text → Text → Prop where
  | plain (visible : 0x20 ≤ u) (mark : u ≠ unit '"') (solidus : u ≠ unit '\\') : Piece keeping (u :: r) [u] r
  | escape (simple : escapable e) : Piece keeping (unit '\\' :: e :: r) [unescape e] r
  | unicode (one : hexDigit a = some i) (two : hexDigit b = some j) (three : hexDigit c = some k) (four : hexDigit d = some l) :
      Piece keeping (unit '\\' :: unit 'u' :: a :: b :: c :: d :: r)
        (UInt16.ofNat (((i * 16 + j) * 16 + k) * 16 + l) :: if keeping then [a,b,c,d] else []) r

-- With `keeping`, the digits of a \u escape stand behind what they spell.
def rfc8259 (double : Text → ν) (keeping : Bool) : Lexicon ν where
  blank u := u = unit ' ' ∨ u = unit '\t' ∨ u = unit '\n' ∨ u = unit '\r'
  word s value r := (s = units "true" ++ r ∧ value = .bool true) ∨ (s = units "false" ++ r ∧ value = .bool false) ∨
    (s = units "null" ++ r ∧ value = .null)
  number s value r := ∃ text, Number text ∧ s = text ++ r ∧ value = double text
  piece := Piece keeping

-- A value with blanks around it, and nothing else.
def Document (lexicon : Lexicon ν) (s : Text) (value : Value ν) : Prop :=
  ∃ t u, Blank lexicon s t ∧ Reads lexicon (.value value) t u ∧ Blank lexicon u []

end JsonGrammar
