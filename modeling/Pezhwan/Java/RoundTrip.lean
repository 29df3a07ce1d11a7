import Mathlib.Algebra.Order.BigOperators.Group.List
import Mathlib.Algebra.Order.Group.Nat
import Mathlib.Data.List.Nodup
import Pezhwan.Java.MiniJson

-- What the writer wrote, read again.
namespace Pezhwan.Java.JsonUtil
open JsonGrammar
variable {N D : Type} {doubles : Doubles D}

-- A Java map has a key at most once.
structure Body (N : Type) where
  entries : List (Text × Value N)
  keyed : Keyed (.map entries)

-- The units that the writer spells with \u.
def isControl (c : UInt16) : Bool := c < 0x20 && !(units "\n\r\t").contains c

-- The reader leaves the digits behind the unit they spell.
def spelled (c : UInt16) : Text := c :: if isControl c then hex4 c else []

def expand (text : Text) : Text := text.flatMap spelled

theorem piece_chars (first : LaxPiece s [u] t) (rest : Chars (lax doubles) t inside r) : Chars (lax doubles) s (u :: inside) r :=
  @Chars.piece _ _ _ [u] _ _ _ first rest

theorem plain_chars (each : ∀ u ∈ text, u ≠ unit '"' ∧ u ≠ unit '\\') (chars : Chars (lax doubles) s inside r) :
    Chars (lax doubles) (text ++ s) (text ++ inside) r := by
  induction text with
  | nil => exact chars
  | cons u rest ih =>
    obtain ⟨first,others⟩ := List.forall_mem_cons.mp each
    exact piece_chars (.plain first.1 first.2) (ih others)

theorem control_units : ((List.range 32).all fun n =>
    let c := UInt16.ofNat n
    parseChar (hex4 c) == some c && (hex4 c).all fun u => u != unit '"' && u != unit '\\') = true := by decide +kernel

theorem hex4_plain (small : c < 0x20) : parseChar (hex4 c) = some c ∧ ∀ u ∈ hex4 c, u ≠ unit '"' ∧ u ≠ unit '\\' := by
  have all := List.all_eq_true.mp control_units c.toNat (List.mem_range.mpr (UInt16.lt_iff_toNat_lt.mp small))
  simp only [UInt16.ofNat_toNat,Bool.and_eq_true,beq_iff_eq,List.all_eq_true,bne_iff_ne] at all
  exact all

theorem escape_chars (e : UInt16) (other : e ≠ unit 'u') (chars : Chars (lax doubles) s inside r) :
    Chars (lax doubles) (unit '\\' :: e :: s) (unescape e :: inside) r :=
  piece_chars (.escape other) chars

theorem control_other (n : c ≠ unit '\n') (r : c ≠ unit '\r') (t : c ≠ unit '\t') : isControl c = decide (c < 0x20) := by
  have other : (units "\n\r\t").contains c = false := by
    change [unit '\n',unit '\r',unit '\t'].contains c = false
    simp [n,r,t]
  rw [isControl,other,Bool.not_false,Bool.and_true]

theorem escaped_chars (c : UInt16) (chars : Chars (lax doubles) s inside r) :
    Chars (lax doubles) (escaped c ++ s) (spelled c ++ inside) r := by
  unfold escaped
  split
  · rename_i same
    subst same
    exact escape_chars (unit '"') (by decide) chars
  split
  · rename_i same
    subst same
    exact escape_chars (unit '\\') (by decide) chars
  split
  · rename_i same
    subst same
    exact escape_chars (unit 'n') (by decide) chars
  split
  · rename_i same
    subst same
    exact escape_chars (unit 'r') (by decide) chars
  split
  · rename_i same
    subst same
    exact escape_chars (unit 't') (by decide) chars
  rename_i mark solidus n r t
  rw [spelled,control_other n r t]
  split
  · rename_i small
    obtain ⟨read,plain⟩ := hex4_plain small
    rw [decide_eq_true small]
    exact piece_chars (.unicode (Nat.le_add_left 4 _) read) (plain_chars plain chars)
  · rename_i visible
    rw [decide_eq_false visible]
    exact piece_chars (.plain mark solidus) chars

theorem string_chars (text r : Text) : Chars (lax doubles) (text.flatMap escaped ++ unit '"' :: r) (expand text) r := by
  induction text with
  | nil => exact .close
  | cons c rest ih =>
    rw [List.flatMap_cons,List.append_assoc]
    exact escaped_chars c ih

theorem expand_injective : Function.Injective expand := by
  intro one
  induction one with
  | nil =>
    intro two same
    cases two with
    | nil => rfl
    | cons => exact absurd same nofun
  | cons c rest ih =>
    intro two same
    cases two with
    | nil => exact absurd same nofun
    | cons d more =>
      have head : c = d := (List.cons.inj same).1
      subst head
      rw [ih (List.append_cancel_left same)]

-- What may stand behind a number.
def Stops (r : Text) : Prop := ∀ c rest, r = c :: rest → isNumeric c = false

theorem stops_plain (listed : c ∈ marks) : Stops (c :: rest) := by
  rintro _ _ ⟨rfl,rfl⟩
  by_contra numeric
  exact (numeric_plain (Bool.not_eq_false _ ▸ numeric)).2 listed

theorem run_stops {p : UInt16 → Bool} (all : ∀ c ∈ text, p c = true) (stops : ∀ c rest, r = c :: rest → p c = false) :
    (text ++ r).takeWhile p = text ∧ (text ++ r).dropWhile p = r := by
  rw [List.takeWhile_append_of_pos all,List.dropWhile_append_of_pos all]
  cases r with
  | nil => exact ⟨List.append_nil text,rfl⟩
  | cons c rest =>
    rw [List.takeWhile_cons,List.dropWhile_cons,stops c rest rfl]
    exact ⟨List.append_nil text,rfl⟩

theorem number_reads (decimal : decimal text = true) (numeric : ∀ c ∈ text, isNumeric c = true) (stops : Stops r) :
    Reads (lax doubles) (.value (.number (doubles.value text))) (text ++ r) r := by
  obtain ⟨taken,left⟩ := run_stops numeric stops
  refine .number ⟨?_,?_,left.symm⟩
  · rw [taken]
    exact decimal
  · rw [taken]

theorem print_numeric (printing : Printing doubles N) (x : N) : ∀ c ∈ printing.print x, isNumeric c = true := by
  intro c listed
  have others : ∀ c ∈ units "-.eE+", isNumeric c = true := List.all_eq_true.mp (by decide +kernel)
  rcases printing.numeric x c listed with digit | other
  · simp [isNumeric,digit]
  · exact others c other

-- What is read where a value was written.
def received (printing : Printing doubles N) (value : Value N) : Value D := convert expand printing.toDouble value

def Written (printing : Printing doubles N) (value : Value N) : Prop :=
  ∀ r, Stops r → Reads (lax doubles) (.value (received printing value)) (appendValue printing.print value ++ r) r

theorem items_written (printing : Printing doubles N) (item : Value N) (rest : List (Value N))
    (each : ∀ value ∈ item :: rest, Written printing value) (r : Text) :
    Reads (lax doubles) (.items ((item :: rest).map (received printing)))
      (appendItems printing.print true (item :: rest) ++ unit ']' :: r) r := by
  induction rest generalizing item with
  | nil =>
    have last := each item List.mem_cons_self (unit ']' :: r) (stops_plain (by decide))
    rw [appendItems,appendItems,List.append_nil]
    exact .lastItem .none last .none
  | cons next rest ih =>
    obtain ⟨first,others⟩ := List.forall_mem_cons.mp each
    rw [appendItems,List.append_assoc,List.append_assoc]
    exact .item .none (first _ (stops_plain (by decide))) .none (ih next others)

theorem entry_text (print : N → Text) (key : Text) (value : Value N) (u : Text) :
    appendEntry print (key,value) ++ u = unit '"' :: (key.flatMap escaped ++ unit '"' :: unit ':' :: (appendValue print value ++ u)) := by
  rw [appendEntry,appendString]
  simp only [List.cons_append,List.append_assoc,List.nil_append]

theorem entries_written (printing : Printing doubles N) (entry : Text × Value N) (rest : List (Text × Value N))
    (each : ∀ listed ∈ entry :: rest, Written printing listed.2) (r : Text) :
    Reads (lax doubles) (.members ((entry :: rest).map fun entry => (expand entry.1,received printing entry.2)))
      (appendEntries printing.print true (entry :: rest) ++ unit '}' :: r) r := by
  induction rest generalizing entry with
  | nil =>
    obtain ⟨key,value⟩ := entry
    have last := each (key,value) List.mem_cons_self (unit '}' :: r) (stops_plain (by decide))
    rw [appendEntries,appendEntries,List.append_nil]
    change Reads _ _ (appendEntry printing.print (key,value) ++ unit '}' :: r) r
    rw [entry_text]
    exact .lastMember .none (string_chars key _) .none .none last .none
  | cons next rest ih =>
    obtain ⟨key,value⟩ := entry
    have first := each (key,value) List.mem_cons_self
    have others := fun listed inside => each listed (List.mem_cons_of_mem _ inside)
    rw [appendEntries,List.append_assoc,List.append_assoc]
    change Reads _ _ (appendEntry printing.print (key,value) ++ unit ',' :: (appendEntries printing.print true (next :: rest) ++ _)) r
    rw [entry_text]
    exact .member .none (string_chars key _) .none .none (first _ (stops_plain (by decide))) .none (ih next others)

theorem value_written (printing : Printing doubles N) (keyed : Keyed value) : Written printing value := by
  induction value using Value.all with
  | null => exact fun r _ => .word ⟨_,.inr (.inr ⟨rfl,rfl,rfl⟩)⟩
  | bool value =>
    intro r _
    cases value with
    | true => exact .word ⟨_,.inl ⟨rfl,rfl,rfl⟩⟩
    | false => exact .word ⟨_,.inr (.inl ⟨rfl,rfl,rfl⟩)⟩
  | number x =>
    intro r stops
    have read : Reads (lax doubles) (.value (.number (doubles.value (printing.print x)))) (printing.print x ++ r) r :=
      number_reads (printing.decimal x) (print_numeric printing x) stops
    rw [printing.inverse] at read
    exact read
  | string text =>
    intro r _
    change Reads _ _ (unit '"' :: (text.flatMap escaped ++ [unit '"'] ++ r)) r
    rw [List.append_assoc]
    exact .string (string_chars text r)
  | list items ih =>
    intro r _
    cases keyed with
    | list each =>
      have written : ∀ item ∈ items, Written printing item := fun item listed => ih item listed (each item listed)
      change Reads _ (.value (convert _ _ (.list items))) (unit '[' :: (appendItems printing.print true items ++ [unit ']'] ++ r)) r
      rw [convert_list,List.append_assoc]
      cases items with
      | nil => exact .emptyList .none
      | cons item rest => exact .list (items_written printing item rest written r)
  | map entries ih =>
    intro r _
    cases keyed with
    | map keys each =>
      have written : ∀ entry ∈ entries, Written printing entry.2 := fun entry listed => ih entry listed (each entry listed)
      change Reads _ (.value (convert _ _ (.map entries))) (unit '{' :: (appendEntries printing.print true entries ++ [unit '}'] ++ r)) r
      rw [convert_map,List.append_assoc]
      cases entries with
      | nil => exact .emptyMap .none
      | cons entry rest =>
        have distinct : (([] ++ (entry :: rest).map fun listed : Text × Value N => (expand listed.1,received printing listed.2)).map Prod.fst).Nodup := by
          have spread := List.Nodup.map expand_injective keys
          rw [List.map_map] at spread
          rw [List.nil_append,List.map_map]
          exact spread
        have puts := puts_fresh [] _ distinct
        rw [List.nil_append] at puts
        have read := Reads.map (entries_written printing entry rest written r)
        rw [puts] at read
        exact read

theorem read_write (printing : Printing doubles N) (body : Body N) :
    read doubles (some (write printing.print body.entries)) =
      some (body.entries.map fun entry => (expand entry.1,received printing entry.2)) := by
  have written := value_written printing body.keyed [] nofun
  rw [List.append_nil,received,convert_map] at written
  have parsed := parse_iff.mpr ⟨_,_,Blank.none,written⟩
  have shown : (write printing.print body.entries).all isWhitespace = false := rfl
  rw [read,shown]
  simp only [Bool.false_eq_true,if_false]
  rw [write,parsed]
  rfl

theorem spelled_length (c : UInt16) : (spelled c).length = if isControl c then 5 else 1 := by
  unfold spelled
  cases isControl c <;> rfl

theorem expand_grows (text : Text) : text.length ≤ (expand text).length := by
  induction text with
  | nil => exact Nat.le_refl 0
  | cons c rest ih =>
    have head : 1 ≤ (spelled c).length := by
      rw [spelled_length]
      split <;> decide
    change rest.length + 1 ≤ (spelled c ++ expand rest).length
    rw [List.length_append]
    omega

theorem expand_control (listed : c ∈ text) (control : isControl c = true) : text.length < (expand text).length := by
  obtain ⟨before,after,rfl⟩ := List.append_of_mem listed
  have one := expand_grows before
  have two := expand_grows after
  have head : (spelled c).length = 5 := by rw [spelled_length,if_pos control]
  have split : expand (before ++ c :: after) = expand before ++ (spelled c ++ expand after) := List.flatMap_append
  rw [split,List.length_append,List.length_append,List.length_append,List.length_cons]
  omega

theorem expand_clean (clean : ∀ c ∈ text, isControl c = false) : expand text = text := by
  induction text with
  | nil => rfl
  | cons c rest ih =>
    obtain ⟨first,others⟩ := List.forall_mem_cons.mp clean
    change spelled c ++ expand rest = c :: rest
    rw [ih others,spelled,first]
    rfl

theorem equal_clean (number : N → D) (value : Value N) (equal : Equal (convert expand number value) (convert id number value)) :
    ∀ text ∈ texts value, ∀ c ∈ text, isControl c = false := by
  intro text listed c inside
  by_contra control
  have sums := ((equal_texts equal).map List.length).sum_eq
  rw [texts_convert,texts_convert,List.map_map,List.map_map] at sums
  have grown := expand_control inside (Bool.not_eq_false _ ▸ control)
  have more := List.sum_lt_sum List.length (List.length ∘ expand) (fun text _ => expand_grows text) ⟨text,listed,grown⟩
  rw [sums] at more
  exact Nat.lt_irrefl _ more

-- What was written is read as it was exactly when no key and no string has a unit
-- that is spelled with \u.
theorem body_returns_iff (printing : Printing doubles N) (body : Body N) :
    (∃ result, read doubles (some (write printing.print body.entries)) = some result ∧
      Equal (.map result) (convert id printing.toDouble (.map body.entries))) ↔
    ∀ text ∈ texts (.map body.entries), ∀ c ∈ text, isControl c = false := by
  have same : (.map (body.entries.map fun entry => (expand entry.1,received printing entry.2)) : Value D) =
      convert expand printing.toDouble (.map body.entries) := (convert_map _ _ _).symm
  rw [read_write]
  constructor
  · rintro ⟨result,returned,equal⟩
    cases returned
    rw [same] at equal
    exact equal_clean printing.toDouble _ equal
  · intro clean
    refine ⟨_,rfl,?_⟩
    rw [same,convert_congr printing.toDouble fun text listed => expand_clean (clean text listed)]
    exact equal_refl _

-- One digit, as itself.
def digits : Doubles ℕ where
  value text := text.foldl (fun value c => value * 10 + (c.toNat - 48)) 0

def digitPrinting : Printing digits (Fin 10) where
  print x := [UInt16.ofNat (48 + x)]
  toDouble x := x
  decimal := by decide +kernel
  numeric x := List.forall_mem_singleton.mpr (by revert x; decide +kernel)
  inverse := by decide +kernel

def startOfHeading : Body (Fin 10) where
  entries := [(units "a",.string [1])]
  keyed := .map (List.nodup_singleton _) (List.forall_mem_singleton.mpr .string)

theorem startOfHeading_grows : ¬∃ result, read digits (some (write digitPrinting.print startOfHeading.entries)) = some result ∧
    Equal (.map result) (convert id digitPrinting.toDouble (.map startOfHeading.entries)) := by
  rintro ⟨result,returned,equal⟩
  rw [read_write] at returned
  cases returned
  have clean := equal_clean digitPrinting.toDouble (.map startOfHeading.entries) equal [1] (List.mem_cons_of_mem _ List.mem_cons_self)
  exact absurd (clean 1 List.mem_cons_self) (by decide)

end Pezhwan.Java.JsonUtil
