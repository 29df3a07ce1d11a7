import Mathlib.Data.List.Induction
import Mathlib.Tactic.Ring
import Pezhwan.Numeric.Bytes

-- Texts of digits in blocks of one width: a number in each block, and the blocks of a
-- text read off one after the other.
namespace Numeric.Radix
variable {α : Type} {base width n m : ℕ} {one two block : List Char} {text rest : List α}

def value (base : ℕ) (digits : List Char) : ℕ := Nat.ofDigitChars base digits 0

def spelled (base width n : ℕ) : List Char := padStart width (Nat.toDigits base n)

def Digits (base : ℕ) (digits : List Char) : Prop := ∀ c ∈ digits, ∃ d < base, c = d.digitChar

theorem digits_toDigits (large : 1 < base) (n : ℕ) : Digits base (Nat.toDigits base n) := by
  induction n using Nat.strongRecOn with
  | _ n ih =>
    rw [Nat.toDigits_eq_if large]
    split
    · rename_i small
      intro c listed
      exact ⟨n,small,List.mem_singleton.mp listed⟩
    · intro c listed
      rcases List.mem_append.mp listed with high | low
      · exact ih (n / base) (Nat.div_lt_self (by omega) large) c high
      · exact ⟨n % base,Nat.mod_lt n (by omega),List.mem_singleton.mp low⟩

theorem digits_spelled (large : 1 < base) (width n : ℕ) : Digits base (spelled base width n) := by
  intro c listed
  rcases List.mem_append.mp listed with zero | digit
  · exact ⟨0,by omega,List.eq_of_mem_replicate zero⟩
  · exact digits_toDigits large n c digit

theorem spelled_length (large : 1 < base) (wide : 0 < width) (small : n < base ^ width) : (spelled base width n).length = width := by
  have short := (Nat.length_toDigits_le_iff large wide).mpr small
  simp only [spelled,padStart,List.length_append,List.length_replicate]
  omega

theorem value_spelled (large : 1 < base) (ten : base ≤ 10) (width n : ℕ) : value base (spelled base width n) = n := by
  rw [value,spelled,padStart,Nat.ofDigitChars_append,Nat.ofDigitChars_replicate_zero,Nat.mul_zero,
    Nat.ofDigitChars_toDigits large ten]

theorem value_start (base : ℕ) (digits : List Char) (start : ℕ) :
    Nat.ofDigitChars base digits start = start * base ^ digits.length + value base digits := by
  induction digits generalizing start with
  | nil => simp [value]
  | cons c digits ih =>
    rw [value,Nat.ofDigitChars_cons,Nat.ofDigitChars_cons,ih,ih (base * 0 + _),List.length_cons,Nat.pow_succ]
    ring

theorem value_cons (ten : base ≤ 10) (small : d < base) (digits : List Char) :
    value base (d.digitChar :: digits) = d * base ^ digits.length + value base digits := by
  rw [value,Nat.ofDigitChars_cons_digitChar_of_lt_ten (Nat.lt_of_lt_of_le small ten),value_start,Nat.mul_zero,Nat.zero_add]

theorem value_lt (ten : base ≤ 10) (digits : Digits base block) : value base block < base ^ block.length := by
  induction block with
  | nil => exact Nat.one_pos
  | cons c block ih =>
    obtain ⟨d,small,rfl⟩ := digits c (by simp)
    have below := ih fun c listed => digits c (List.mem_cons_of_mem _ listed)
    have room := Nat.mul_le_mul_right (base ^ block.length) (Nat.succ_le_of_lt small)
    rw [Nat.succ_mul] at room
    rw [value_cons ten small,List.length_cons,Nat.pow_succ,Nat.mul_comm _ base]
    omega

theorem value_injective (ten : base ≤ 10) (digits_one : Digits base one) (digits_two : Digits base two)
    (sized : one.length = two.length) (same : value base one = value base two) : one = two := by
  induction one generalizing two with
  | nil => exact (List.length_eq_zero_iff.mp sized.symm).symm
  | cons c one ih =>
    cases two with
    | nil => cases sized
    | cons c' two =>
      obtain ⟨d,small,rfl⟩ := digits_one c (by simp)
      obtain ⟨d',small',rfl⟩ := digits_two c' (by simp)
      have behind : one.length = two.length := Nat.succ.inj sized
      have rest_one : Digits base one := fun c listed => digits_one c (List.mem_cons_of_mem _ listed)
      have rest_two : Digits base two := fun c listed => digits_two c (List.mem_cons_of_mem _ listed)
      have low_one := value_lt ten rest_one
      have low_two := value_lt ten rest_two
      rw [value_cons ten small,value_cons ten small',← behind] at same
      rw [← behind] at low_two
      have quotient : ∀ e v, v < base ^ one.length → (e * base ^ one.length + v) / base ^ one.length = e := by
        intro e v below
        rw [Nat.add_comm,Nat.add_mul_div_right _ _ (by omega),Nat.div_eq_of_lt below,Nat.zero_add]
      have high : d = d' :=
        (quotient d _ low_one).symm.trans ((congrArg (· / base ^ one.length) same).trans (quotient d' _ low_two))
      subst high
      rw [ih rest_one rest_two behind (Nat.add_left_cancel same)]

theorem spelled_value (large : 1 < base) (ten : base ≤ 10) (wide : 0 < width) (digits : Digits base block)
    (sized : block.length = width) : spelled base width (value base block) = block := by
  have small := value_lt ten digits
  rw [sized] at small
  exact value_injective ten (digits_spelled large width _) digits ((spelled_length large wide small).trans sized.symm)
    (value_spelled large ten width _)

-- The whole blocks of a text; what is left over is dropped.
def blocks (width : ℕ) : ℕ → List α → List (List α)
  | 0,_ => []
  | count + 1,text => text.take width :: blocks width count (text.drop width)

def cut (width : ℕ) (text : List α) : List (List α) := blocks width (text.length / width) text

theorem cut_short (short : rest.length < width) : cut width rest = [] := by
  rw [cut,Nat.div_eq_of_lt short]
  rfl

theorem cut_append (wide : 0 < width) (sized : text.length = width) (rest : List α) :
    cut width (text ++ rest) = text :: cut width rest := by
  have count : (text ++ rest).length / width = rest.length / width + 1 := by
    rw [List.length_append,sized,Nat.add_comm,Nat.add_div_right _ wide]
  rw [cut,count,blocks,← sized,List.take_left,List.drop_left,cut]

theorem cut_flatten {pieces : List (List α)} (sized : ∀ piece ∈ pieces, piece.length = width) (short : rest.length < width) :
    cut width (pieces.flatten ++ rest) = pieces := by
  induction pieces with
  | nil => exact cut_short short
  | cons piece pieces ih =>
    rw [List.flatten_cons,List.append_assoc,cut_append (by omega) (sized piece (by simp)),
      ih fun piece listed => sized piece (List.mem_cons_of_mem _ listed)]

theorem flatten_cut (wide : 0 < width) (whole : text.length % width = 0) :
    (cut width text).flatten = text ∧ ∀ piece ∈ cut width text, piece.length = width := by
  induction size : text.length using Nat.strongRecOn generalizing text with
  | ind size ih =>
    by_cases short : text.length < width
    · rw [cut_short short]
      rw [Nat.mod_eq_of_lt short] at whole
      exact ⟨(List.length_eq_zero_iff.mp whole).symm,by simp⟩
    · have front : (text.take width).length = width := by
        rw [List.length_take]
        omega
      have behind : (text.drop width).length = text.length - width := List.length_drop
      obtain ⟨same,sized⟩ := @ih (text.length - width) (by omega) (text.drop width)
        (by rw [behind,← Nat.mod_eq_sub_mod (by omega)]; exact whole) behind
      have split : cut width text = text.take width :: cut width (text.drop width) := by
        conv => lhs; rw [← List.take_append_drop width text]
        exact cut_append wide front _
      rw [split,List.flatten_cons,same,List.take_append_drop]
      refine ⟨rfl,?_⟩
      intro piece listed
      rcases List.mem_cons.mp listed with rfl | later
      · exact front
      · exact sized piece later

end Numeric.Radix
