import Pezhwan.Json

-- What can be read back from a printed JSON value.
namespace Pezhwan

def hexValue (c : Char) : Nat := "0123456789abcdef".toList.idxOf c

theorem hexValue_hexDigit : ∀ n < 16, hexValue (hexDigit n) = n := by decide

-- The character at the front of a string literal's text.
def unquoteChar : List Char → Option (Char × List Char)
  | '\\' :: '"' :: rest => some ('"',rest)
  | '\\' :: '\\' :: rest => some ('\\',rest)
  | '\\' :: 'b' :: rest => some (Char.ofNat 8,rest)
  | '\\' :: 't' :: rest => some ('\t',rest)
  | '\\' :: 'n' :: rest => some ('\n',rest)
  | '\\' :: 'f' :: rest => some (Char.ofNat 12,rest)
  | '\\' :: 'r' :: rest => some ('\r',rest)
  | '\\' :: 'u' :: '0' :: '0' :: high :: low :: rest => some (Char.ofNat (16 * hexValue high + hexValue low),rest)
  | c :: rest => some (c,rest)
  | [] => none

-- The ways a character stands in a string literal.
inductive Quoted (c : Char) : List Char → Prop where
  | short (listed : (c,e) ∈ [('"','"'),('\\','\\'),(Char.ofNat 8,'b'),('\t','t'),('\n','n'),(Char.ofNat 12,'f'),('\r','r')]) :
    Quoted c ['\\',e]
  | low (small : c.toNat < 32) : Quoted c ['\\','u','0','0',hexDigit (c.toNat / 16),hexDigit (c.toNat % 16)]
  | plain (quote : c ≠ '"') (backslash : c ≠ '\\') (large : ¬c.toNat < 32) : Quoted c [c]

theorem quoteChar_quoted (c : Char) : Quoted c (quoteChar c) := by
  unfold quoteChar
  by_cases quote : c = '"'
  · rw [if_pos quote]
    exact .short (by simp [quote])
  by_cases backslash : c = '\\'
  · rw [if_neg quote,if_pos backslash]
    exact .short (by simp [backslash])
  rw [if_neg quote,if_neg backslash]
  iterate 5
    split
    · rename_i same
      exact .short (by simp [same])
  split
  · rename_i small
    exact .low small
  · rename_i large
    exact .plain quote backslash large

theorem unquote_quoted (quoted : Quoted c text) (rest : List Char) : unquoteChar (text ++ rest) = some (c,rest) := by
  cases quoted with
  | short listed =>
    simp only [List.mem_cons,Prod.mk.injEq,List.not_mem_nil,or_false] at listed
    rcases listed with ⟨rfl,rfl⟩ | ⟨rfl,rfl⟩ | ⟨rfl,rfl⟩ | ⟨rfl,rfl⟩ | ⟨rfl,rfl⟩ | ⟨rfl,rfl⟩ | ⟨rfl,rfl⟩
    all_goals rfl
  | low small =>
    have value : 16 * hexValue (hexDigit (c.toNat / 16)) + hexValue (hexDigit (c.toNat % 16)) = c.toNat := by
      rw [hexValue_hexDigit _ (by omega),hexValue_hexDigit _ (by omega)]
      omega
    have read : Char.ofNat (16 * hexValue (hexDigit (c.toNat / 16)) + hexValue (hexDigit (c.toNat % 16))) = c := by
      rw [value,Char.ofNat_toNat]
    exact congrArg (fun found => some (found,rest)) read
  | plain quote backslash _ => simp [unquoteChar,backslash]

theorem unquoteChar_quoteChar (c : Char) (rest : List Char) : unquoteChar (quoteChar c ++ rest) = some (c,rest) :=
  unquote_quoted (quoteChar_quoted c) rest

theorem quoteChar_split (same : quoteChar c ++ x = quoteChar d ++ y) : c = d ∧ x = y := by
  have read := unquoteChar_quoteChar c x
  rw [same,unquoteChar_quoteChar] at read
  cases read
  exact ⟨rfl,rfl⟩

theorem quoteChar_head (c : Char) : ∃ first rest, quoteChar c = first :: rest ∧ first ≠ '"' := by
  have quoted := quoteChar_quoted c
  generalize quoteChar c = text at quoted ⊢
  cases quoted with
  | short _ => exact ⟨_,_,rfl,by decide⟩
  | low _ => exact ⟨_,_,rfl,by decide⟩
  | plain quote _ _ => exact ⟨_,_,rfl,quote⟩

theorem quoted_split {s t x y : List Char}
    (same : s.flatMap quoteChar ++ '"' :: x = t.flatMap quoteChar ++ '"' :: y) : s = t ∧ x = y := by
  induction s generalizing t with
  | nil =>
    cases t with
    | nil => simpa using same
    | cons d t =>
      obtain ⟨first,rest,shape,other⟩ := quoteChar_head d
      simp only [List.flatMap_nil,List.nil_append,List.flatMap_cons,shape,List.cons_append,List.cons.injEq] at same
      exact absurd same.1.symm other
  | cons c s ih =>
    cases t with
    | nil =>
      obtain ⟨first,rest,shape,other⟩ := quoteChar_head c
      simp only [List.flatMap_nil,List.nil_append,List.flatMap_cons,shape,List.cons_append,List.cons.injEq] at same
      exact absurd same.1 other
    | cons d t =>
      simp only [List.flatMap_cons,List.append_assoc] at same
      obtain ⟨rfl,rest⟩ := quoteChar_split same
      obtain ⟨rfl,rfl⟩ := ih rest
      exact ⟨rfl,rfl⟩

namespace Json

def text (json : Json) : List Char := json.stringify.toList

def itemsText (items : List Json) : List Char := (",".intercalate (Json.items items)).toList

def membersText (fields : List (String × Json)) : List Char := (",".intercalate (Json.members fields)).toList

theorem text_string (value : String) : text (.string value) = '"' :: (value.toList.flatMap quoteChar ++ ['"']) := by
  simp [text,stringify,quote]

theorem text_array (items : List Json) : text (.array items) = '[' :: (itemsText items ++ [']']) := by
  simp [text,stringify,itemsText]

theorem text_object (fields : List (String × Json)) : text (.object fields) = '\x7b' :: (membersText fields ++ ['\x7d']) := by
  simp [text,stringify,membersText]

theorem itemsText_cons (item : Json) (rest : List Json) :
    itemsText (item :: rest) = text item ++ if rest = [] then [] else ',' :: itemsText rest := by
  cases rest with
  | nil => simp [itemsText,items,text]
  | cons next rest => simp [itemsText,items,text]

def memberText (field : String × Json) : List Char :=
  '"' :: (field.1.toList.flatMap quoteChar ++ '"' :: ':' :: text field.2)

theorem membersText_cons (field : String × Json) (rest : List (String × Json)) :
    membersText (field :: rest) = memberText field ++ if rest = [] then [] else ',' :: membersText rest := by
  obtain ⟨name,value⟩ := field
  cases rest with
  | nil => simp [membersText,members,member,memberText,text,quote]
  | cons next rest => simp [membersText,members,member,memberText,text,quote]

-- What may follow a value in a text.
def Delimited (rest : List Char) : Prop := ∀ c ∈ rest.head?, c ∉ numerals

theorem literal_split {one two : List Char} (numeric : ∀ c ∈ one, c ∈ numerals) (also : ∀ c ∈ two, c ∈ numerals)
    (ended : Delimited x) (alsoEnded : Delimited y) (same : one ++ x = two ++ y) : one = two ∧ x = y := by
  induction one generalizing two with
  | nil =>
    cases two with
    | nil => exact ⟨rfl,same⟩
    | cons d two =>
      rw [List.nil_append] at same
      exact absurd (also d List.mem_cons_self) (ended d (by simp [same]))
  | cons c one ih =>
    cases two with
    | nil =>
      rw [List.nil_append] at same
      exact absurd (numeric c List.mem_cons_self) (alsoEnded c (by simp [← same]))
    | cons d two =>
      simp only [List.cons_append,List.cons.injEq] at same
      obtain ⟨rfl,rest⟩ := same
      obtain ⟨rfl,rfl⟩ := ih (fun e member => numeric e (List.mem_cons_of_mem _ member))
        (fun e member => also e (List.mem_cons_of_mem _ member)) rest
      exact ⟨rfl,rfl⟩

-- The constructor of a value shows in the first character of its text.
inductive Shape where
  | null | yes | no | number | string | array | object
  deriving DecidableEq

def shape : Json → Shape
  | .null => .null
  | .bool value => if value then .yes else .no
  | .number _ => .number
  | .string _ => .string
  | .array _ => .array
  | .object _ => .object

def Shape.of (c : Char) : Option Shape :=
  if c = 'n' then some .null else if c = 't' then some .yes else if c = 'f' then some .no
  else if c = '"' then some .string else if c = '[' then some .array else if c = '\x7b' then some .object
  else if c ∈ numerals then some .number else none

theorem numeral_shape (c : Char) (member : c ∈ numerals) : Shape.of c = some .number := by
  have checked : (numerals.all fun c => Shape.of c = some .number) = true := by decide
  exact of_decide_eq_true (List.all_eq_true.mp checked c member)

theorem text_shape (json : Json) : ∃ first rest, text json = first :: rest ∧ Shape.of first = some json.shape := by
  cases json with
  | null => exact ⟨'n',"ull".toList,rfl,rfl⟩
  | bool value => cases value with
    | false => exact ⟨'f',"alse".toList,rfl,rfl⟩
    | true => exact ⟨'t',"rue".toList,rfl,rfl⟩
  | number value =>
    have printed : text (.number value) = value.literal.toList := by simp [text,stringify]
    cases chars : value.literal.toList with
    | nil => exact absurd (String.toList_eq_nil_iff.mp chars) value.filled
    | cons first rest =>
      exact ⟨first,rest,printed.trans chars,numeral_shape first (value.numeric first (by simp [chars]))⟩
  | string value => exact ⟨_,_,text_string value,rfl⟩
  | array items => exact ⟨_,_,text_array items,rfl⟩
  | object fields => exact ⟨_,_,text_object fields,rfl⟩

theorem same_shape (same : text a ++ x = text b ++ y) : a.shape = b.shape := by
  obtain ⟨first,rest,printed,one⟩ := text_shape a
  obtain ⟨other,more,also,two⟩ := text_shape b
  rw [printed,also,List.cons_append,List.cons_append,List.cons.injEq] at same
  rw [same.1,two] at one
  exact (Option.some.inj one).symm

theorem delimited_rest {condition : Prop} [Decidable condition] (more rest : List Char) (ended : close ∉ numerals) :
    Delimited ((if condition then [] else ',' :: more) ++ close :: rest) := by
  intro c first
  split at first
  · cases first
    exact ended
  · cases first
    decide

theorem shape_cases {a b : Json} (same : text a ++ x = text b ++ y) : match a.shape with
    | .null => b = .null
    | .yes => b = .bool true
    | .no => b = .bool false
    | .number => ∃ value, b = .number value
    | .string => ∃ value, b = .string value
    | .array => ∃ items, b = .array items
    | .object => ∃ fields, b = .object fields := by
  rw [same_shape same]
  cases b with
  | null => rfl
  | bool value => cases value <;> rfl
  | _ => exact ⟨_,rfl⟩

theorem items_close (item : Json) (rest : List Json) : itemsText (item :: rest) ++ y ≠ ']' :: x := by
  obtain ⟨first,more,printed,shaped⟩ := text_shape item
  rw [itemsText_cons,printed]
  intro same
  simp only [List.cons_append,List.cons.injEq] at same
  rw [same.1] at shaped
  cases shaped

theorem members_close (field : String × Json) (rest : List (String × Json)) :
    membersText (field :: rest) ++ y ≠ '\x7d' :: x := by
  simp [membersText_cons,memberText]

theorem tail_split {one two : List α} {tails : List α → List Char} (apart : close ≠ ',')
    (same : (if one = [] then [] else ',' :: tails one) ++ close :: x =
      (if two = [] then [] else ',' :: tails two) ++ close :: y) :
    (one = [] ∧ two = [] ∧ x = y) ∨ tails one ++ close :: x = tails two ++ close :: y := by
  cases one <;> cases two <;> simp_all [Ne.symm apart]

-- A text says where the value in front ends and which value it is.
mutual
theorem text_split (a b : Json) (x y : List Char) (ended : Delimited x) (also : Delimited y)
    (same : text a ++ x = text b ++ y) : a = b ∧ x = y := by
  revert same
  match a with
  | .null =>
    intro same
    cases shape_cases same
    exact ⟨rfl,List.append_cancel_left same⟩
  | .bool value =>
    intro same
    cases value <;> cases shape_cases same <;> exact ⟨rfl,List.append_cancel_left same⟩
  | .number one =>
    intro same
    obtain ⟨two,rfl⟩ := shape_cases same
    simp only [text,stringify] at same
    obtain ⟨literals,rest⟩ := literal_split one.numeric two.numeric ended also same
    obtain ⟨literal,_,_⟩ := one
    obtain ⟨other,_,_⟩ := two
    cases String.toList_injective literals
    exact ⟨rfl,rest⟩
  | .string one =>
    intro same
    obtain ⟨two,rfl⟩ := shape_cases same
    rw [text_string,text_string] at same
    simp only [List.cons_append,List.append_assoc,List.nil_append,List.cons.injEq,true_and] at same
    obtain ⟨chars,rest⟩ := quoted_split same
    cases String.toList_injective chars
    exact ⟨rfl,rest⟩
  | .array one =>
    intro same
    obtain ⟨two,rfl⟩ := shape_cases same
    rw [text_array,text_array] at same
    simp only [List.cons_append,List.append_assoc,List.nil_append,List.cons.injEq,true_and] at same
    obtain ⟨rfl,rest⟩ := items_split one two x y same
    exact ⟨rfl,rest⟩
  | .object one =>
    intro same
    obtain ⟨two,rfl⟩ := shape_cases same
    rw [text_object,text_object] at same
    simp only [List.cons_append,List.append_assoc,List.nil_append,List.cons.injEq,true_and] at same
    obtain ⟨rfl,rest⟩ := members_split one two x y same
    exact ⟨rfl,rest⟩
termination_by structural a
theorem items_split (one two : List Json) (x y : List Char)
    (same : itemsText one ++ ']' :: x = itemsText two ++ ']' :: y) : one = two ∧ x = y := by
  match one,two with
  | [],[] => simpa [itemsText] using same
  | [],b :: two => exact absurd same.symm (items_close b two)
  | a :: one,[] => exact absurd same (items_close a one)
  | a :: one,b :: two =>
    rw [itemsText_cons,itemsText_cons,List.append_assoc,List.append_assoc] at same
    obtain ⟨rfl,rest⟩ := text_split a b _ _ (delimited_rest _ _ (by decide)) (delimited_rest _ _ (by decide)) same
    obtain ⟨rfl,rfl,rfl⟩ | rest := tail_split (by decide) rest
    · exact ⟨rfl,rfl⟩
    · obtain ⟨rfl,ends⟩ := items_split one two x y rest
      exact ⟨rfl,ends⟩
termination_by structural one
theorem members_split (one two : List (String × Json)) (x y : List Char)
    (same : membersText one ++ '\x7d' :: x = membersText two ++ '\x7d' :: y) : one = two ∧ x = y := by
  match one,two with
  | [],[] => simpa [membersText] using same
  | [],b :: two => exact absurd same.symm (members_close b two)
  | a :: one,[] => exact absurd same (members_close a one)
  | a :: one,b :: two =>
    rw [membersText_cons,membersText_cons,List.append_assoc,List.append_assoc] at same
    obtain ⟨rfl,rest⟩ := member_split a b _ _ (delimited_rest _ _ (by decide)) (delimited_rest _ _ (by decide)) same
    obtain ⟨rfl,rfl,rfl⟩ | rest := tail_split (by decide) rest
    · exact ⟨rfl,rfl⟩
    · obtain ⟨rfl,ends⟩ := members_split one two x y rest
      exact ⟨rfl,ends⟩
termination_by structural one
theorem member_split (a b : String × Json) (x y : List Char) (ended : Delimited x) (also : Delimited y)
    (same : memberText a ++ x = memberText b ++ y) : a = b ∧ x = y := by
  match a,b with
  | (name,value),(other,more) =>
    simp only [memberText,List.cons_append,List.append_assoc,List.cons.injEq,true_and] at same
    obtain ⟨chars,rest⟩ := quoted_split same
    simp only [List.cons.injEq,true_and] at rest
    obtain ⟨rfl,ends⟩ := text_split value more x y ended also rest
    cases String.toList_injective chars
    exact ⟨rfl,ends⟩
termination_by structural a
end

theorem text_injective (same : text a = text b) : a = b := by
  have alone : Delimited [] := by simp [Delimited]
  exact (text_split a b [] [] alone alone (by simpa using same)).1

-- Reading a text from the left: how many brackets are open, and whether the
-- reader stands in a string, behind its backslash or just after its end.
inductive Scan where
  | out (depth : Nat)
  | closed (depth : Nat)
  | inside (depth : Nat)
  | escaped (depth : Nat)
  | bad
  deriving DecidableEq

def Scan.close : Nat → Scan
  | 0 => .bad
  | depth+1 => .out depth

def Scan.step : Scan → Char → Scan
  | .out depth,c =>
    if c = '"' then .inside depth
    else if c = '\x7b' ∨ c = '[' then .out (depth+1)
    else if c = '\x7d' ∨ c = ']' then .close depth
    else .out depth
  | .closed depth,c =>
    if c = '\x7d' ∨ c = ']' then .close depth else if c = ',' ∨ c = ':' then .out depth else .bad
  | .inside depth,c => if c = '"' then .closed depth else if c = '\\' then .escaped depth else .inside depth
  | .escaped depth,_ => .inside depth
  | .bad,_ => .bad

def scan (state : Scan) (chars : List Char) : Scan := chars.foldl Scan.step state

@[simp] theorem scan_nil (state : Scan) : scan state [] = state := rfl

@[simp] theorem scan_cons (state : Scan) (c : Char) (rest : List Char) : scan state (c :: rest) = scan (state.step c) rest := rfl

@[simp] theorem scan_append (state : Scan) (one two : List Char) : scan state (one ++ two) = scan (scan state one) two :=
  List.foldl_append

theorem scan_bad (chars : List Char) : scan .bad chars = .bad := by
  induction chars with
  | nil => rfl
  | cons c rest ih => exact ih

theorem hexDigit_plain : ∀ n < 16, hexDigit n ≠ '"' ∧ hexDigit n ≠ '\\' := by decide

theorem scan_quoteChar (depth : Nat) (c : Char) : scan (.inside depth) (quoteChar c) = .inside depth := by
  have quoted := quoteChar_quoted c
  generalize quoteChar c = text at quoted ⊢
  cases quoted with
  | short _ => rfl
  | low small =>
    obtain ⟨highQuote,highBackslash⟩ := hexDigit_plain (c.toNat / 16) (by omega)
    obtain ⟨lowQuote,lowBackslash⟩ := hexDigit_plain (c.toNat % 16) (by omega)
    simp [Scan.step,highQuote,highBackslash,lowQuote,lowBackslash]
  | plain quote backslash _ => simp [Scan.step,quote,backslash]

theorem scan_quoted (depth : Nat) (chars rest : List Char) :
    scan (.inside depth) (chars.flatMap quoteChar ++ '"' :: rest) = scan (.closed depth) rest := by
  induction chars with
  | nil => rfl
  | cons c chars ih => simp only [List.flatMap_cons,List.append_assoc,scan_append,scan_quoteChar] at ih ⊢; exact ih

theorem numeral_plain : ∀ c ∈ numerals, ∀ depth, Scan.step (.out depth) c = .out depth := by
  intro c member depth
  have plain : (numerals.all fun c => c ≠ '"' ∧ ¬ (c = '\x7b' ∨ c = '[') ∧ ¬ (c = '\x7d' ∨ c = ']')) = true := by decide
  obtain ⟨quote,opening,closing⟩ := of_decide_eq_true (List.all_eq_true.mp plain c member)
  simp only [Scan.step,if_neg quote,if_neg opening,if_neg closing]

theorem scan_literal (depth : Nat) {chars : List Char} (numeric : ∀ c ∈ chars, c ∈ numerals) :
    scan (.out depth) chars = .out depth := by
  induction chars with
  | nil => rfl
  | cons c rest ih =>
    rw [scan_cons,numeral_plain c (numeric c List.mem_cons_self)]
    exact ih fun d member => numeric d (List.mem_cons_of_mem _ member)

-- Whole values leave the reader where they found it.
def Balanced (chars : List Char) : Prop :=
  ∀ depth, scan (.out depth) chars = .out depth ∨ scan (.out depth) chars = .closed depth

theorem balanced_further (one : Balanced front) (two : Balanced rest) : Balanced (front ++ ',' :: rest) := by
  intro depth
  rw [scan_append,scan_cons]
  rcases one depth with same | same
  · rw [same]
    exact two depth
  · rw [same]
    exact two depth

theorem scan_enclosed (balanced : Balanced chars) (opening : c = '\x7b' ∨ c = '[') (closing : d = '\x7d' ∨ d = ']') (depth : Nat) :
    scan (.out depth) (c :: (chars ++ [d])) = .out depth := by
  have opened : Scan.step (.out depth) c = .out (depth+1) := by rcases opening with rfl | rfl <;> rfl
  rw [scan_cons,opened,scan_append]
  rcases balanced (depth+1) with same | same
  · rw [same]
    rcases closing with rfl | rfl <;> rfl
  · rw [same]
    rcases closing with rfl | rfl <;> rfl

mutual
theorem balanced_text (json : Json) : Balanced (text json) := by
  match json with
  | .null => exact fun _ => .inl rfl
  | .bool value => exact fun _ => .inl (by cases value <;> rfl)
  | .number value =>
    intro depth
    simp only [text,stringify]
    exact .inl (scan_literal depth value.numeric)
  | .string value =>
    intro depth
    rw [text_string]
    exact .inr (scan_quoted depth value.toList [])
  | .array items =>
    intro depth
    rw [text_array]
    exact .inl (scan_enclosed (balanced_items items) (.inr rfl) (.inr rfl) depth)
  | .object fields =>
    intro depth
    rw [text_object]
    exact .inl (scan_enclosed (balanced_members fields) (.inl rfl) (.inl rfl) depth)
termination_by structural json
theorem balanced_items (items : List Json) : Balanced (itemsText items) := by
  match items with
  | [] => exact fun _ => .inl rfl
  | item :: rest =>
    have front := balanced_text item
    have behind := balanced_items rest
    rw [itemsText_cons]
    split
    · simpa using front
    · exact balanced_further front behind
termination_by structural items
theorem balanced_members (fields : List (String × Json)) : Balanced (membersText fields) := by
  match fields with
  | [] => exact fun _ => .inl rfl
  | field :: rest =>
    have front := balanced_member field
    have behind := balanced_members rest
    rw [membersText_cons]
    split
    · simpa using front
    · exact balanced_further front behind
termination_by structural fields
theorem balanced_member (field : String × Json) : Balanced (memberText field) := by
  match field with
  | (name,value) =>
    have inner := balanced_text value
    intro depth
    have same : scan (.out depth) (memberText (name,value)) = scan (.out depth) (text value) :=
      scan_quoted depth name.toList _
    rw [same]
    exact inner depth
termination_by structural field
end

-- The same reading inside one more bracket.
def Scan.deeper : Scan → Scan
  | .out depth => .out (depth+1)
  | .closed depth => .closed (depth+1)
  | .inside depth => .inside (depth+1)
  | .escaped depth => .escaped (depth+1)
  | .bad => .bad

theorem close_deeper (fine : Scan.close depth ≠ .bad) : Scan.close (depth+1) = (Scan.close depth).deeper := by
  cases depth with
  | zero => exact absurd rfl fine
  | succ depth => rfl

theorem step_deeper {state : Scan} (fine : state.step c ≠ .bad) : state.deeper.step c = (state.step c).deeper := by
  cases state with
  | bad => rfl
  | escaped depth => rfl
  | inside depth =>
    by_cases quote : c = '"'
    · simp [Scan.step,Scan.deeper,quote]
    · by_cases backslash : c = '\\' <;> simp [Scan.step,Scan.deeper,quote,backslash]
  | out depth =>
    by_cases quote : c = '"'
    · simp [Scan.step,Scan.deeper,quote]
    · by_cases opens : c = '\x7b' ∨ c = '['
      · simp only [Scan.step,Scan.deeper,if_neg quote,if_pos opens]
      · by_cases closes : c = '\x7d' ∨ c = ']'
        · simp only [Scan.step,Scan.deeper,if_neg quote,if_neg opens,if_pos closes] at fine ⊢
          exact close_deeper fine
        · simp only [Scan.step,Scan.deeper,if_neg quote,if_neg opens,if_neg closes]
  | closed depth =>
    by_cases closes : c = '\x7d' ∨ c = ']'
    · simp only [Scan.step,Scan.deeper,if_pos closes] at fine ⊢
      exact close_deeper fine
    · by_cases separates : c = ',' ∨ c = ':'
      · simp only [Scan.step,Scan.deeper,if_neg closes,if_pos separates]
      · simp only [Scan.step,Scan.deeper,if_neg closes,if_neg separates]

theorem scan_fine {chars : List Char} (fine : scan state (chars ++ rest) ≠ .bad) : scan state chars ≠ .bad := by
  intro bad
  rw [scan_append,bad,scan_bad] at fine
  exact fine rfl

theorem scan_deeper {state : Scan} {chars : List Char} (fine : scan state chars ≠ .bad) :
    scan state.deeper chars = (scan state chars).deeper := by
  induction chars generalizing state with
  | nil => rfl
  | cons c rest ih =>
    have stepped : state.step c ≠ .bad := by
      intro bad
      rw [scan_cons,bad,scan_bad] at fine
      exact fine rfl
    rw [scan_cons,scan_cons,step_deeper stepped]
    exact ih fine

-- An object whose first name is a word: its text opens with these characters.
def opening : List Char := ['\x7b','"','t']

theorem object_opening (value : Json) (rest : List (String × Json)) :
    ∃ more, text (.object (("t",value) :: rest)) = opening ++ more := by
  rw [text_object,membersText_cons]
  exact ⟨_,by simp [memberText,opening,quoteChar]; rfl⟩

theorem object_suffix {fields rest : List (String × Json)} {value : Json} {front : List Char}
    (same : text (.object fields) = front ++ text (.object (("t",value) :: rest))) : front = [] := by
  cases front with
  | nil => rfl
  | cons first front =>
    exfalso
    obtain ⟨more,opened⟩ := object_opening value rest
    have shut := text_object (("t",value) :: rest)
    rw [text_object,List.cons_append,List.cons.injEq,shut,← List.cons_append,← List.append_assoc] at same
    have inner := List.append_inj_left' same.2 rfl
    have fine : scan (.out 0) front ≠ .bad := by
      apply scan_fine
      rw [← inner]
      rcases balanced_members fields 0 with whole | whole
      · rw [whole]; exact nofun
      · rw [whole]; exact nofun
    have whole : scan (.out 1) (front ++ text (.object (("t",value) :: rest))) = .out 0 := by
      rw [shut,← List.cons_append,← List.append_assoc,← same.2]
      exact scan_enclosed (balanced_members fields) (.inl rfl) (.inl rfl) 0
    have entered : scan (.out 1) front = (scan (.out 0) front).deeper := scan_deeper fine
    rw [scan_append,entered] at whole
    cases at_ : scan (.out 0) front with
    | out depth =>
      rw [at_,shut,Scan.deeper,scan_enclosed (balanced_members _) (.inl rfl) (.inl rfl)] at whole
      cases whole
    | closed depth | inside depth | escaped depth =>
      rw [at_,opened,scan_append] at whole
      change scan .bad more = _ at whole
      rw [scan_bad] at whole
      cases whole
    | bad => exact fine at_

theorem object_behind {one two : Json} {more rest : List (String × Json)} {p q : List Char}
    (same : p ++ text (.object (("t",one) :: more)) = q ++ text (.object (("t",two) :: rest))) :
    p = q ∧ Json.object (("t",one) :: more) = .object (("t",two) :: rest) := by
  rcases List.append_eq_append_iff.mp same with ⟨between,rfl,split⟩ | ⟨between,rfl,split⟩
  · cases object_suffix split
    exact ⟨by simp,text_injective (by simpa using split)⟩
  · cases object_suffix split
    exact ⟨by simp,(text_injective (by simpa using split)).symm⟩

end Json
end Pezhwan

-- The text of a value is a single line.
namespace Pezhwan.Json

theorem newline_digit : ∀ n < 16, '\n' ≠ hexDigit n := by decide

theorem newline_quoteChar (c : Char) : '\n' ∉ quoteChar c := by
  have quoted := quoteChar_quoted c
  generalize quoteChar c = text at quoted ⊢
  cases quoted with
  | short listed =>
    simp only [List.mem_cons,Prod.mk.injEq,List.not_mem_nil,or_false] at listed
    rcases listed with ⟨_,rfl⟩ | ⟨_,rfl⟩ | ⟨_,rfl⟩ | ⟨_,rfl⟩ | ⟨_,rfl⟩ | ⟨_,rfl⟩ | ⟨_,rfl⟩
    all_goals decide
  | low small =>
    have high := newline_digit (c.toNat / 16) (by omega)
    have low := newline_digit (c.toNat % 16) (Nat.mod_lt _ (by decide))
    simp [high,low]
  | plain _ _ large =>
    intro found
    obtain rfl := List.mem_singleton.mp found
    exact large (by decide)

theorem newline_quoted (text : List Char) : '\n' ∉ text.flatMap quoteChar := by
  rw [List.mem_flatMap]
  intro some_
  obtain ⟨c,_,found⟩ := some_
  exact newline_quoteChar c found

mutual
theorem newline_text (json : Json) : '\n' ∉ text json := by
  cases json with
  | null => decide
  | bool value => cases value <;> decide
  | number value =>
    intro found
    exact absurd (value.numeric _ found) (by decide)
  | string value =>
    rw [text_string]
    simpa using newline_quoted value.toList
  | array items =>
    rw [text_array]
    simpa using newline_items items
  | object fields =>
    rw [text_object]
    simpa using newline_members fields
termination_by structural json
theorem newline_items (items : List Json) : '\n' ∉ itemsText items := by
  cases items with
  | nil => decide
  | cons item rest =>
    have one := newline_text item
    have others := newline_items rest
    rw [itemsText_cons]
    split
    · simpa using one
    · simp [one,others]
termination_by structural items
theorem newline_members (fields : List (String × Json)) : '\n' ∉ membersText fields := by
  cases fields with
  | nil => decide
  | cons field rest =>
    have one := newline_member field
    have others := newline_members rest
    rw [membersText_cons]
    split
    · simpa using one
    · simp [one,others]
termination_by structural fields
theorem newline_member (field : String × Json) : '\n' ∉ memberText field := by
  obtain ⟨name,value⟩ := field
  have inner := newline_text value
  unfold memberText
  simp [inner,newline_quoted name.toList]
termination_by structural field
end

end Pezhwan.Json
