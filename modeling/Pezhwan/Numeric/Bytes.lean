import Mathlib.Tactic.Common
import Mathlib.Algebra.Ring.Nat
import Mathlib.Data.List.Induction

-- Numbers and bytes as hexadecimal text.
namespace Numeric

abbrev Bytes := List UInt8

def hexValue (c : Char) : Option Nat :=
  if '0' ≤ c ∧ c ≤ '9' then some (c.toNat - 48)
  else if 'a' ≤ c ∧ c ≤ 'f' then some (c.toNat - 87)
  else if 'A' ≤ c ∧ c ≤ 'F' then some (c.toNat - 55)
  else none

theorem hexValue_digit : ∀ n < 16, hexValue n.digitChar = some n := by decide

-- The digits of a number, most significant first.
def hexOf (n : Nat) : List Char := Nat.toDigits 16 n

def readFrom : Nat → List Char → Option Nat
  | value,[] => some value
  | value,c :: rest => (hexValue c).bind fun digit => readFrom (16 * value + digit) rest

-- A number in hexadecimal has a digit.
def readHex : List Char → Option Nat
  | [] => none
  | text => readFrom 0 text

theorem readFrom_append (value : Nat) (one two : List Char) :
    readFrom value (one ++ two) = (readFrom value one).bind fun middle => readFrom middle two := by
  induction one generalizing value with
  | nil => rfl
  | cons c one ih =>
    simp only [List.cons_append,readFrom]
    cases hexValue c with
    | none => rfl
    | some digit => exact ih _

theorem readFrom_digit (value : Nat) (small : n < 16) : readFrom value [n.digitChar] = some (16 * value + n) := by
  rw [readFrom,hexValue_digit n small]
  rfl

theorem readFrom_hexOf (n : Nat) : readFrom 0 (hexOf n) = some n := by
  induction n using Nat.strongRecOn with
  | _ n ih =>
    unfold hexOf
    rw [Nat.toDigits_eq_if (by decide)]
    split
    · rename_i small
      rw [readFrom_digit 0 small]
      simp
    · have before := ih (n / 16) (by omega)
      rw [readFrom_append]
      unfold hexOf at before
      rw [before,Option.bind_some,readFrom_digit _ (Nat.mod_lt n (by decide))]
      congr 1
      omega

theorem readFrom_zeros (count : Nat) (text : List Char) : readFrom 0 (List.replicate count '0' ++ text) = readFrom 0 text := by
  induction count with
  | zero => rfl
  | succ count ih =>
    rw [List.replicate_succ,List.cons_append,readFrom]
    exact ih

def padStart (width : Nat) (text : List Char) : List Char := List.replicate (width - text.length) '0' ++ text

theorem readHex_padStart (width n : Nat) : readHex (padStart width (hexOf n)) = some n := by
  have some_ : padStart width (hexOf n) ≠ [] := by
    simp [padStart,hexOf,Nat.toDigits_ne_nil]
  unfold readHex
  split
  · rename_i none
    exact absurd none some_
  · unfold padStart
    rw [readFrom_zeros,readFrom_hexOf]

-- Two digits a byte; reading stops at the first pair that is none.
def byteHex (byte : UInt8) : List Char := [(byte.toNat / 16).digitChar,(byte.toNat % 16).digitChar]

def hexOfBytes (bytes : Bytes) : List Char := bytes.flatMap byteHex

def bytesOfHex : List Char → Bytes
  | high :: low :: rest =>
    match hexValue high,hexValue low with
    | some h,some l => UInt8.ofNat (16 * h + l) :: bytesOfHex rest
    | _,_ => []
  | _ => []

theorem bytesOfHex_hexOfBytes (bytes : Bytes) : bytesOfHex (hexOfBytes bytes) = bytes := by
  induction bytes with
  | nil => rfl
  | cons byte rest ih =>
    have small := byte.toNat_lt
    have high := hexValue_digit (byte.toNat / 16) (by omega)
    have low := hexValue_digit (byte.toNat % 16) (Nat.mod_lt _ (by decide))
    unfold hexOfBytes at ih ⊢
    simp only [List.flatMap_cons,byteHex,List.cons_append,List.nil_append,bytesOfHex,high,low,ih]
    rw [Nat.div_add_mod,UInt8.ofNat_toNat]

theorem hexOfBytes_injective : Function.Injective hexOfBytes := by
  intro one two same
  rw [← bytesOfHex_hexOfBytes one,same,bytesOfHex_hexOfBytes]

-- The number that bytes spell, most significant first.
def numberOfBytes (bytes : Bytes) : Nat := bytes.foldl (fun value byte => 256 * value + byte.toNat) 0

-- A number in a fixed count of bytes, most significant first.
def bigEndian : ℕ → ℕ → Bytes
  | 0,_ => []
  | count + 1,n => bigEndian count (n / 256) ++ [UInt8.ofNat n]

theorem bigEndian_length (count n : ℕ) : (bigEndian count n).length = count := by
  induction count generalizing n with
  | zero => rfl
  | succ count ih => simp [bigEndian,ih]

theorem numberOfBytes_append (bytes : Bytes) (last : UInt8) :
    numberOfBytes (bytes ++ [last]) = 256 * numberOfBytes bytes + last.toNat := by
  simp [numberOfBytes,List.foldl_append]

theorem numberOfBytes_bigEndian (small : n < 256 ^ count) : numberOfBytes (bigEndian count n) = n := by
  induction count generalizing n with
  | zero =>
    rw [Nat.pow_zero] at small
    rw [Nat.lt_one_iff.mp small]
    rfl
  | succ count ih =>
    rw [Nat.pow_succ] at small
    rw [bigEndian,numberOfBytes_append,ih (Nat.div_lt_of_lt_mul (by omega)),UInt8.toNat_ofNat']
    exact Nat.div_add_mod n 256

theorem bigEndian_numberOfBytes (bytes : Bytes) : bigEndian bytes.length (numberOfBytes bytes) = bytes := by
  induction bytes using List.reverseRecOn with
  | nil => rfl
  | append_singleton bytes last ih =>
    have small := last.toNat_lt
    have high : (256 * numberOfBytes bytes + last.toNat) / 256 = numberOfBytes bytes := by omega
    have low : UInt8.ofNat (256 * numberOfBytes bytes + last.toNat) = last := by
      apply UInt8.toNat_inj.mp
      rw [UInt8.toNat_ofNat']
      omega
    rw [numberOfBytes_append,List.length_append,List.length_singleton,bigEndian,high,low,ih]

theorem numberOfBytes_injective {one two : Bytes} (sized : one.length = two.length)
    (same : numberOfBytes one = numberOfBytes two) : one = two := by
  rw [← bigEndian_numberOfBytes one,sized,same,bigEndian_numberOfBytes]

theorem bigEndian_add (high low n : ℕ) : bigEndian (high + low) n = bigEndian high (n / 256 ^ low) ++ bigEndian low n := by
  induction low generalizing n with
  | zero => simp [bigEndian]
  | succ low ih =>
    rw [← Nat.add_assoc,bigEndian,ih,bigEndian,List.append_assoc,Nat.div_div_eq_div_mul,Nat.pow_succ,Nat.mul_comm]

theorem low_four (b : UInt8) : (b &&& 0x0f).toNat = b.toNat % 16 := by
  rw [UInt8.toNat_and]
  exact Nat.and_two_pow_sub_one_eq_mod b.toNat 4

theorem low_seven (b : UInt8) : (b &&& 0x7f).toNat = b.toNat % 128 := by
  rw [UInt8.toNat_and]
  exact Nat.and_two_pow_sub_one_eq_mod b.toNat 7

theorem high_bit (b : UInt8) : b &&& 0x80 ≠ 0 ↔ 128 ≤ b.toNat := by
  have all : ∀ n < 256, UInt8.ofNat n &&& 0x80 ≠ 0 ↔ 128 ≤ n := by decide +kernel
  have here := all b.toNat b.toNat_lt
  rwa [UInt8.ofNat_toNat] at here

def utf8Bytes (text : String) : Bytes := text.toUTF8.data.toList

-- A decoder that takes whole texts only.
def strictUtf8 (bytes : Bytes) : String := (String.fromUTF8? ⟨bytes.toArray⟩).getD ""

theorem strict_utf8Bytes (text : String) : strictUtf8 (utf8Bytes text) = text := by
  have same : (⟨(utf8Bytes text).toArray⟩ : ByteArray) = text.toUTF8 := by simp [utf8Bytes]
  unfold strictUtf8 String.fromUTF8?
  rw [same,dif_pos (show text.toUTF8.IsValidUTF8 from text.isValidUTF8)]
  rfl

theorem utf8Bytes_eq (text : String) : utf8Bytes text = text.toList.flatMap String.utf8EncodeChar := by
  unfold utf8Bytes
  rw [String.toUTF8_eq_toByteArray,← String.utf8Encode_toList]
  unfold List.utf8Encode
  rw [List.toList_data_toByteArray]

theorem utf8_take (chars : List Char) (count : ℕ) : ∃ whole part : Bytes, (∃ text, whole = utf8Bytes text) ∧
    (chars.flatMap String.utf8EncodeChar).take count = whole ++ part ∧ part.length ≤ 3 := by
  induction chars generalizing count with
  | nil => exact ⟨utf8Bytes "",[],⟨"",rfl⟩,by simp [utf8Bytes_eq],Nat.zero_le 3⟩
  | cons c chars ih =>
    have size := Char.utf8Size_le_four c
    by_cases inside : (String.utf8EncodeChar c).length ≤ count
    · obtain ⟨whole,part,spelled,taken,short⟩ := ih (count - (String.utf8EncodeChar c).length)
      obtain ⟨text,rfl⟩ := spelled
      refine ⟨String.utf8EncodeChar c ++ utf8Bytes text,part,⟨String.ofList (c :: text.toList),?_⟩,?_,short⟩
      · rw [utf8Bytes_eq,utf8Bytes_eq,String.toList_ofList,List.flatMap_cons]
      · rw [List.flatMap_cons,List.take_append,List.take_of_length_le inside,taken,List.append_assoc]
    · refine ⟨utf8Bytes "",(String.utf8EncodeChar c).take count,⟨"",rfl⟩,?_,?_⟩
      · rw [List.flatMap_cons,List.take_append,Nat.sub_eq_zero_of_le (Nat.le_of_not_le inside)]
        simp [utf8Bytes_eq]
      · rw [String.length_utf8EncodeChar] at inside
        rw [List.length_take,String.length_utf8EncodeChar]
        omega

theorem newline_char {c : Char} (other : c ≠ '\n') : (10 : UInt8) ∉ String.utf8EncodeChar c := by
  have value : c.val.toNat ≠ 10 := by
    intro same
    exact other (Char.ext (UInt32.toNat_inj.mp same))
  have byte : ∀ n, n % 256 ≠ 10 → (10 : UInt8) ≠ UInt8.ofNat n := by
    intro n differs same
    have number := congrArg UInt8.toNat same
    rw [UInt8.toNat_ofNat'] at number
    exact differs number.symm
  unfold String.utf8EncodeChar
  generalize c.val.toNat = v at value
  dsimp only
  split_ifs
  · simp only [List.mem_singleton]
    exact byte v (by omega)
  · simp only [List.mem_cons,List.not_mem_nil,or_false,not_or]
    exact ⟨byte _ (by omega),byte _ (by omega)⟩
  · simp only [List.mem_cons,List.not_mem_nil,or_false,not_or]
    exact ⟨byte _ (by omega),byte _ (by omega),byte _ (by omega)⟩
  · simp only [List.mem_cons,List.not_mem_nil,or_false,not_or]
    exact ⟨byte _ (by omega),byte _ (by omega),byte _ (by omega),byte _ (by omega)⟩

theorem newline_utf8 {text : String} (none : '\n' ∉ text.toList) : (10 : UInt8) ∉ utf8Bytes text := by
  rw [utf8Bytes_eq,List.mem_flatMap]
  intro some_
  obtain ⟨c,listed,found⟩ := some_
  refine newline_char ?_ found
  intro same
  exact none (same ▸ listed)

end Numeric
