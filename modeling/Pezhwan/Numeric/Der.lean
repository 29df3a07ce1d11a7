import Mathlib.Tactic.Ring
import Pezhwan.Numeric.Bytes

-- Reading the distinguished encoding: a length is in its shortest form, an integer
-- has no byte too many, and nothing follows the outermost element.
namespace Numeric.Der

-- From 128 on the first byte counts the bytes that spell the length.
def readLength : Bytes → Option (ℕ × Bytes)
  | [] => none
  | first :: rest =>
    if first < 0x80 then some (first.toNat,rest)
    else
      let count := first.toNat - 0x80
      let digits := rest.take count
      if count = 0 ∨ count = 0x7f ∨ digits.length < count ∨ digits.head? = some 0 ∨ numberOfBytes digits < 0x80 then none
      else some (numberOfBytes digits,rest.drop count)

-- The contents of the element in front, and what is behind it.
def readElement (tag : UInt8) : Bytes → Option (Bytes × Bytes)
  | [] => none
  | first :: rest =>
    if first = tag then
      (readLength rest).bind fun read =>
        if read.2.length < read.1 then none else some (read.2.take read.1,read.2.drop read.1)
    else none

-- The first nine bits of an integer are not all alike.
def Minimal : Bytes → Prop
  | [] => False
  | [_] => True
  | first :: second :: _ => ¬(first = 0 ∧ second < 0x80) ∧ ¬(first = 0xff ∧ 0x80 ≤ second)

instance : (contents : Bytes) → Decidable (Minimal contents)
  | [] => inferInstanceAs (Decidable False)
  | [_] => inferInstanceAs (Decidable True)
  | _ :: _ :: _ => inferInstanceAs (Decidable (¬_ ∧ ¬_))

-- The number in two's complement.
def integerOf : Bytes → ℤ
  | [] => 0
  | first :: rest =>
    if first < 0x80 then (numberOfBytes (first :: rest) : ℤ)
    else (numberOfBytes (first :: rest) : ℤ) - 256 ^ (rest.length + 1)

def readInteger (bytes : Bytes) : Option (ℤ × Bytes) :=
  (readElement 0x02 bytes).bind fun read => if Minimal read.1 then some (integerOf read.1,read.2) else none

-- A sequence of two integers and nothing else.
def readPair (bytes : Bytes) : Option (ℤ × ℤ) :=
  (readElement 0x30 bytes).bind fun sequence =>
    (readInteger sequence.1).bind fun one =>
      (readInteger one.2).bind fun two =>
        if two.2 = [] ∧ sequence.2 = [] then some (one.1,two.1) else none

theorem foldl_value (bytes : Bytes) (start : ℕ) :
    bytes.foldl (fun value byte => 256 * value + byte.toNat) start = start * 256 ^ bytes.length + numberOfBytes bytes := by
  induction bytes generalizing start with
  | nil => simp [numberOfBytes]
  | cons byte rest ih =>
    unfold numberOfBytes
    rw [List.foldl_cons,List.foldl_cons,ih,ih (256 * 0 + byte.toNat),List.length_cons,Nat.pow_succ]
    ring

theorem numberOfBytes_cons (first : UInt8) (rest : Bytes) :
    numberOfBytes (first :: rest) = first.toNat * 256 ^ rest.length + numberOfBytes rest := by
  have folded := foldl_value rest first.toNat
  unfold numberOfBytes at folded ⊢
  rw [List.foldl_cons,Nat.mul_zero,Nat.zero_add,folded]

theorem numberOfBytes_lt (bytes : Bytes) : numberOfBytes bytes < 256 ^ bytes.length := by
  induction bytes with
  | nil => exact Nat.one_pos
  | cons first rest ih =>
    have small := first.toNat_lt
    rw [numberOfBytes_cons,List.length_cons,Nat.pow_succ]
    calc first.toNat * 256 ^ rest.length + numberOfBytes rest < first.toNat * 256 ^ rest.length + 256 ^ rest.length := by omega
      _ = (first.toNat + 1) * 256 ^ rest.length := by ring
      _ ≤ 256 * 256 ^ rest.length := Nat.mul_le_mul_right _ (by omega)
      _ = 256 ^ rest.length * 256 := Nat.mul_comm _ _

theorem nonnegative_first (nonnegative : 0 ≤ integerOf (first :: rest)) :
    first < 0x80 ∧ integerOf (first :: rest) = numberOfBytes (first :: rest) := by
  by_cases low : first < 0x80
  · exact ⟨low,by simp [integerOf,low]⟩
  · have small : (numberOfBytes (first :: rest) : ℤ) < 256 ^ (rest.length + 1) := by
      exact_mod_cast numberOfBytes_lt (first :: rest)
    simp only [integerOf,low,if_false] at nonnegative
    omega

theorem integer_below {contents : Bytes} (minimal : Minimal contents) (nonnegative : 0 ≤ integerOf contents) :
    integerOf contents < 128 * 256 ^ (contents.length - 1) := by
  cases contents with
  | nil => exact minimal.elim
  | cons first rest =>
    obtain ⟨low,value⟩ := nonnegative_first nonnegative
    have few : first.toNat + 1 ≤ 128 := UInt8.lt_iff_toNat_lt.mp low
    have behind := numberOfBytes_lt rest
    have scaled := Nat.mul_le_mul_right (256 ^ rest.length) few
    rw [value,numberOfBytes_cons,List.length_cons,Nat.add_sub_cancel]
    rw [Nat.add_mul,Nat.one_mul] at scaled
    exact_mod_cast Nat.lt_of_lt_of_le (Nat.add_lt_add_left behind _) scaled

theorem integer_above {contents : Bytes} (minimal : Minimal contents) (nonnegative : 0 ≤ integerOf contents)
    (longer : 1 < contents.length) : 128 * 256 ^ (contents.length - 2) ≤ integerOf contents := by
  cases contents with
  | nil => exact minimal.elim
  | cons first rest =>
    cases rest with
    | nil => exact absurd longer (Nat.lt_irrefl 1)
    | cons second rest =>
      obtain ⟨_,value⟩ := nonnegative_first nonnegative
      have enough : 128 ≤ 256 * first.toNat + second.toNat := by
        by_cases zero : first = 0
        · have high : ¬second < 0x80 := fun low => minimal.1 ⟨zero,low⟩
          have high : 128 ≤ second.toNat := UInt8.not_lt.mp high
          omega
        · have positive : first.toNat ≠ 0 := fun none => zero (UInt8.toNat_inj.mp none)
          omega
      have scaled := Nat.mul_le_mul_right (256 ^ rest.length) enough
      rw [value,numberOfBytes_cons,numberOfBytes_cons,List.length_cons,List.length_cons,Nat.pow_succ]
      have sum : first.toNat * (256 ^ rest.length * 256) + (second.toNat * 256 ^ rest.length + numberOfBytes rest) =
          (256 * first.toNat + second.toNat) * 256 ^ rest.length + numberOfBytes rest := by ring
      rw [sum]
      exact_mod_cast Nat.le_add_right_of_le scaled

theorem minimal_length {one two : Bytes} (minimal_one : Minimal one) (minimal_two : Minimal two)
    (nonnegative : 0 ≤ integerOf one) (same : integerOf one = integerOf two) : one.length ≤ two.length := by
  by_contra longer
  have some_ : 0 < two.length := by
    cases two with
    | nil => exact minimal_two.elim
    | cons => exact Nat.succ_pos _
  have low := integer_above minimal_one nonnegative (by omega)
  have high := integer_below minimal_two (same ▸ nonnegative)
  have grows : 256 ^ (two.length - 1) ≤ 256 ^ (one.length - 2) := Nat.pow_le_pow_right (by decide) (by omega)
  have grows : (256 : ℤ) ^ (two.length - 1) ≤ 256 ^ (one.length - 2) := by exact_mod_cast grows
  omega

theorem numberOfBytes_zeros (count : ℕ) (bytes : Bytes) :
    numberOfBytes (List.replicate count 0 ++ bytes) = numberOfBytes bytes := by
  induction count with
  | zero => rfl
  | succ count ih => rw [List.replicate_succ,List.cons_append,numberOfBytes_cons,ih,UInt8.toNat_zero,Nat.zero_mul,Nat.zero_add]

theorem minimal_unique {one two : Bytes} (minimal_one : Minimal one) (minimal_two : Minimal two)
    (nonnegative : 0 ≤ integerOf one) (same : integerOf one = integerOf two) : one = two := by
  have sized : one.length = two.length := Nat.le_antisymm (minimal_length minimal_one minimal_two nonnegative same)
    (minimal_length minimal_two minimal_one (same ▸ nonnegative) same.symm)
  cases one with
  | nil => exact minimal_one.elim
  | cons first rest =>
    cases two with
    | nil => exact minimal_two.elim
    | cons second behind =>
      obtain ⟨_,value_one⟩ := nonnegative_first nonnegative
      obtain ⟨_,value_two⟩ := nonnegative_first (same ▸ nonnegative)
      refine numberOfBytes_injective sized ?_
      rw [value_one,value_two] at same
      exact_mod_cast same

theorem minimal_fits {contents : Bytes} (minimal : Minimal contents) (nonnegative : 0 ≤ integerOf contents)
    (small : integerOf contents < 256 ^ count) : contents.length ≤ count + 1 := by
  by_contra longer
  have high := integer_above minimal nonnegative (by omega)
  have grows : 256 ^ count ≤ 256 ^ (contents.length - 2) := Nat.pow_le_pow_right (by decide) (by omega)
  have grows : (256 : ℤ) ^ count ≤ 256 ^ (contents.length - 2) := by exact_mod_cast grows
  omega

theorem readLength_size (read : readLength bytes = some result) : result.2.length < bytes.length := by
  cases bytes with
  | nil => cases read
  | cons first rest =>
    simp only [readLength] at read
    split at read
    · cases read
      exact Nat.lt_succ_self _
    · split at read
      · cases read
      · rw [← Option.some.inj read]
        simp only [List.length_drop,List.length_cons]
        omega

theorem readElement_size (read : readElement tag bytes = some result) :
    result.1.length + result.2.length + 2 ≤ bytes.length := by
  cases bytes with
  | nil => cases read
  | cons first rest =>
    simp only [readElement] at read
    split at read
    · obtain ⟨lengthed,found,rest_⟩ := Option.bind_eq_some_iff.mp read
      have size := readLength_size found
      split at rest_
      · cases rest_
      · cases rest_
        simp only [List.length_take,List.length_drop,List.length_cons]
        omega
    · cases read

theorem readElement_whole (read : readElement tag (first :: size :: payload) = some (contents,[])) :
    payload.length < 128 ∨ contents.length < payload.length := by
  simp only [readElement] at read
  split at read
  · obtain ⟨lengthed,found,taken⟩ := Option.bind_eq_some_iff.mp read
    split at taken
    · cases taken
    · obtain ⟨taken,nothing⟩ := Prod.mk.inj (Option.some.inj taken)
      have behind := List.drop_eq_nil_iff.mp nothing
      simp only [readLength] at found
      split at found
      · rename_i low
        have low : size.toNat < 128 := UInt8.lt_iff_toNat_lt.mp low
        rw [← Option.some.inj found] at behind
        exact .inl (Nat.lt_of_le_of_lt behind low)
      · split at found
        · cases found
        · rename_i counted
          rw [← Option.some.inj found] at taken
          have shorter := congrArg List.length taken
          simp only [List.length_take,List.length_drop] at shorter counted
          exact .inr (by omega)
  · cases read

theorem readInteger_parts (read : readInteger bytes = some result) :
    ∃ contents, Minimal contents ∧ integerOf contents = result.1 ∧ contents.length + result.2.length + 2 ≤ bytes.length := by
  obtain ⟨element,found,minimal⟩ := Option.bind_eq_some_iff.mp read
  have size := readElement_size found
  split at minimal
  · rename_i fewest
    cases minimal
    exact ⟨_,fewest,rfl,size⟩
  · cases minimal

theorem readElement_short (tag : UInt8) (contents behind : Bytes) (short : contents.length < 128) :
    readElement tag (tag :: UInt8.ofNat contents.length :: (contents ++ behind)) = some (contents,behind) := by
  have value : (UInt8.ofNat contents.length).toNat = contents.length := by
    rw [UInt8.toNat_ofNat']
    omega
  have low : UInt8.ofNat contents.length < 0x80 := by
    rw [UInt8.lt_iff_toNat_lt,value]
    exact short
  simp only [readElement,readLength,low,if_true,Option.bind_some,value]
  rw [if_neg (by simp),List.take_left,List.drop_left]

theorem readInteger_short (contents behind : Bytes) (short : contents.length < 128) (minimal : Minimal contents) :
    readInteger (0x02 :: UInt8.ofNat contents.length :: (contents ++ behind)) = some (integerOf contents,behind) := by
  unfold readInteger
  rw [readElement_short 0x02 contents behind short,Option.bind_some,if_pos minimal]

-- The element with short contents, as it is written.
def element (tag : UInt8) (contents : Bytes) : Bytes := tag :: UInt8.ofNat contents.length :: contents

theorem readLength_low (read : readLength bytes = some (size,rest)) (low : size < 0x80) :
    bytes = UInt8.ofNat size :: rest := by
  cases bytes with
  | nil => cases read
  | cons first behind =>
    simp only [readLength] at read
    split at read
    · cases read
      rw [UInt8.ofNat_toNat]
    · split at read
      · cases read
      · rename_i counted
        obtain ⟨number,_⟩ := Prod.mk.inj (Option.some.inj read)
        exact absurd (.inr (.inr (.inr (.inr (number ▸ low))))) counted

theorem readElement_low (read : readElement tag bytes = some (contents,behind)) (low : contents.length < 0x80) :
    bytes = element tag contents ++ behind := by
  cases bytes with
  | nil => cases read
  | cons first rest =>
    simp only [readElement] at read
    split at read
    · rename_i tagged
      obtain ⟨lengthed,found,taken⟩ := Option.bind_eq_some_iff.mp read
      split at taken
      · cases taken
      · rename_i enough
        obtain ⟨whole,after⟩ := Prod.mk.inj (Option.some.inj taken)
        have size : contents.length = lengthed.1 := by
          rw [← whole,List.length_take]
          omega
        have split := @readLength_low _ lengthed.1 lengthed.2 found (size ▸ low)
        rw [tagged,split,element,size,List.cons_append,List.cons_append,← whole,← after,List.take_append_drop]
    · cases read

theorem readPair_parts (read : readPair bytes = some (one,two)) :
    ∃ first second, Minimal first ∧ integerOf first = one ∧ Minimal second ∧ integerOf second = two ∧
      (first.length + second.length + 4 < 0x80 → bytes = element 0x30 (element 0x02 first ++ element 0x02 second)) := by
  obtain ⟨sequence,whole,read⟩ := Option.bind_eq_some_iff.mp read
  obtain ⟨former,front,read⟩ := Option.bind_eq_some_iff.mp read
  obtain ⟨latter,back,read⟩ := Option.bind_eq_some_iff.mp read
  split at read
  · rename_i nothing
    obtain ⟨rfl,rfl⟩ := Prod.mk.inj (Option.some.inj read)
    obtain ⟨first,spelled_first,minimal_first⟩ := Option.bind_eq_some_iff.mp front
    obtain ⟨second,spelled_second,minimal_second⟩ := Option.bind_eq_some_iff.mp back
    split at minimal_first
    · rename_i fewest_first
      split at minimal_second
      · rename_i fewest_second
        cases minimal_first
        cases minimal_second
        refine ⟨first.1,second.1,fewest_first,rfl,fewest_second,rfl,?_⟩
        intro short
        have split_first := @readElement_low _ _ first.1 first.2 spelled_first (by omega)
        have split_second := @readElement_low _ _ second.1 second.2 spelled_second (by omega)
        rw [split_second,nothing.1,List.append_nil] at split_first
        have size : sequence.1.length = first.1.length + second.1.length + 4 := by
          rw [split_first]
          simp only [element,List.length_append,List.length_cons]
          omega
        have split_whole := @readElement_low _ _ sequence.1 sequence.2 whole (by omega)
        rw [split_whole,nothing.2,List.append_nil,split_first]
      · cases minimal_second
    · cases minimal_first
  · cases read

end Numeric.Der
