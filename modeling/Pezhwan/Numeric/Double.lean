import Mathlib.Algebra.Order.Floor.Defs
import Mathlib.Data.List.TakeWhile
import Mathlib.Data.Rat.Floor
import Mathlib.Tactic.NormNum

-- Binary numbers of double precision, and how they are read off a text.
namespace Numeric.Double

-- The place of the last binary digit: of 53, and never below the smallest there is.
def lastPlace (q : ℚ) : ℤ :=
  let high : ℤ := q.num.natAbs.log2 - q.den.log2
  max ((if (2 : ℚ) ^ high ≤ q then high else high - 1) - 52) (-1074)

-- A middle is rounded to the even neighbour.
def roundEven (q : ℚ) : ℤ :=
  let low := ⌊q⌋
  if q - low < 1 / 2 then low else if 1 / 2 < q - low then low + 1 else low + low % 2

-- Of a number that is not negative; `none` for infinity.
def nearest (q : ℚ) : Option ℚ :=
  let place := lastPlace q
  let value : ℚ := roundEven (q / 2 ^ place) * 2 ^ place
  if q = 0 then some 0 else if value < 2 ^ 1024 then some value else none

def digitValue (c : Char) : ℕ :=
  if c.isDigit then c.toNat - 48
  else if 'a' ≤ c && c ≤ 'z' then c.toNat - 87
  else if 'A' ≤ c && c ≤ 'Z' then c.toNat - 55
  else 36

def digitsValue (base : ℕ) (digits : List Char) : ℕ := digits.foldl (fun value c => value * base + digitValue c) 0

def signed : List Char → Bool × List Char
  | '-' :: rest => (true,rest)
  | '+' :: rest => (false,rest)
  | rest => (false,rest)

def exponentOf : List Char → Option ℤ
  | [] => some 0
  | e :: rest =>
    let digits := (signed rest).2
    if (e = 'e' ∨ e = 'E') ∧ digits ≠ [] ∧ digits.all Char.isDigit then
      some (if (signed rest).1 then -digitsValue 10 digits else digitsValue 10 digits)
    else none

-- Digits with a point in or at either end of them.
def fraction : List Char → List Char × List Char
  | '.' :: rest => (rest.takeWhile Char.isDigit,rest.dropWhile Char.isDigit)
  | rest => ([],rest)

def decimal (text : List Char) : Option ℚ :=
  let int := text.takeWhile Char.isDigit
  let (frac,rest) := fraction (text.dropWhile Char.isDigit)
  if int = [] ∧ frac = [] then none
  else (exponentOf rest).bind fun exponent => nearest (digitsValue 10 (int ++ frac) * (10 : ℚ) ^ (exponent - frac.length))

def radixOf (letter : Char) : Option ℕ :=
  if letter = 'x' ∨ letter = 'X' then some 16
  else if letter = 'o' ∨ letter = 'O' then some 8
  else if letter = 'b' ∨ letter = 'B' then some 2
  else none

def signedDecimal (text : List Char) : Option ℚ :=
  (decimal (signed text).2).map fun value => if (signed text).1 then -value else value

-- Number(text) of a text without blanks around it; `none` for what is not finite.
def ofText : List Char → Option ℚ
  | [] => some 0
  | '0' :: letter :: digits =>
    match radixOf letter with
    | some base => if digits ≠ [] ∧ digits.all (digitValue · < base) then nearest (digitsValue base digits) else none
    | none => signedDecimal ('0' :: letter :: digits)
  | text => signedDecimal text

theorem roundEven_int (k : ℤ) : roundEven (k : ℚ) = k := by
  have short : (k : ℚ) - k < 1 / 2 := by
    rw [sub_self]
    norm_num
  rw [roundEven]
  simp only [Int.floor_intCast,if_pos short]

theorem lastPlace_nat {n : ℕ} (some : n ≠ 0) (small : n < 2 ^ 53) : lastPlace (n : ℚ) = (n.log2 : ℤ) - 52 := by
  have below : n.log2 < 53 := (Nat.log2_lt some).mpr small
  have high : ((n : ℚ).num.natAbs.log2 : ℤ) - ((n : ℚ).den.log2 : ℤ) = n.log2 := by
    have one : ((1 : ℕ).log2 : ℤ) = 0 := by decide +kernel
    rw [Rat.num_natCast,Rat.den_natCast,Int.natAbs_natCast,one,sub_zero]
  have least : (2 : ℚ) ^ (n.log2 : ℤ) ≤ n := by
    rw [zpow_natCast]
    exact_mod_cast Nat.log2_self_le some
  rw [lastPlace]
  simp only [high,if_pos least]
  omega

theorem nearest_nat {n : ℕ} (small : n < 2 ^ 53) : nearest (n : ℚ) = some (n : ℚ) := by
  by_cases nothing : n = 0
  · subst nothing
    simp [nearest]
  have below : n.log2 < 53 := (Nat.log2_lt nothing).mpr small
  obtain ⟨e,place⟩ : ∃ e : ℕ, (n.log2 : ℤ) - 52 = -e := ⟨52 - n.log2,by omega⟩
  have scaled : (n : ℚ) / 2 ^ (-(e : ℤ)) = ((n * 2 ^ e : ℕ) : ℤ) := by
    rw [zpow_neg,zpow_natCast,div_inv_eq_mul]
    push_cast
    rfl
  have back : (((n * 2 ^ e : ℕ) : ℤ) : ℚ) * 2 ^ (-(e : ℤ)) = n := by
    rw [← scaled,div_mul_cancel₀]
    exact zpow_ne_zero _ two_ne_zero
  have bound : (n : ℚ) < 2 ^ 1024 := by
    have short : (n : ℚ) < 2 ^ 53 := by exact_mod_cast small
    exact short.trans_le (pow_le_pow_right₀ one_le_two (by decide))
  rw [nearest,lastPlace_nat nothing small,place,scaled,roundEven_int]
  simp only [back,if_pos bound,if_neg (Nat.cast_ne_zero.mpr nothing)]

theorem digitsValue_ten (digits : ∀ c ∈ text, Char.isDigit c = true) (start : ℕ) :
    text.foldl (fun value c => value * 10 + digitValue c) start = Nat.ofDigitChars 10 text start := by
  induction text generalizing start with
  | nil => rfl
  | cons c rest ih =>
    obtain ⟨first,others⟩ := List.forall_mem_cons.mp digits
    rw [List.foldl_cons,ih others,Nat.ofDigitChars_cons,digitValue,if_pos first,Nat.mul_comm]
    rfl

theorem signed_digit (digit : Char.isDigit c = true) (rest : List Char) : signed (c :: rest) = (false,c :: rest) := by
  unfold signed
  split
  · rename_i same
    rw [(List.cons.inj same).1] at digit
    exact absurd digit (by decide)
  · rename_i same
    rw [(List.cons.inj same).1] at digit
    exact absurd digit (by decide)
  · rfl

theorem decimal_digits (some : text ≠ []) (digits : ∀ c ∈ text, Char.isDigit c = true) :
    decimal text = nearest (Nat.ofDigitChars 10 text 0 : ℕ) := by
  have taken : text.takeWhile Char.isDigit = text := List.takeWhile_eq_self_iff.mpr digits
  have left : text.dropWhile Char.isDigit = [] := List.dropWhile_eq_nil_iff.mpr digits
  have value := digitsValue_ten digits 0
  rw [decimal,taken,left]
  simp only [fraction,some,false_and,if_false,List.append_nil,exponentOf,Option.bind_some,List.length_nil,Nat.cast_zero,sub_zero,
    zpow_zero,mul_one]
  rw [digitsValue,value]

theorem ofText_digits (some : text ≠ []) (digits : ∀ c ∈ text, Char.isDigit c = true) :
    ofText text = nearest (Nat.ofDigitChars 10 text 0 : ℕ) := by
  have whole : signedDecimal text = nearest (Nat.ofDigitChars 10 text 0 : ℕ) := by
    cases text with
    | nil => exact absurd rfl some
    | cons c rest =>
      rw [signedDecimal,signed_digit (digits c List.mem_cons_self),decimal_digits some digits]
      exact Option.map_id'
  unfold ofText
  split
  · exact absurd rfl some
  · rename_i letter rest
    have digit := digits letter (List.mem_cons_of_mem _ List.mem_cons_self)
    have plain : radixOf letter = none := by
      unfold radixOf
      rw [if_neg,if_neg,if_neg]
      all_goals
        rintro (rfl | rfl)
        all_goals exact absurd digit (by decide)
    rw [plain]
    exact whole
  · exact whole

theorem ofText_nat {n : ℕ} (small : n < 2 ^ 53) : ofText (Nat.toDigits 10 n) = some (n : ℚ) := by
  rw [ofText_digits Nat.toDigits_ne_nil fun c listed => Nat.isDigit_of_mem_toDigits (by omega) (by omega) listed,
    Nat.ofDigitChars_ten_toDigits]
  exact nearest_nat small

end Numeric.Double
