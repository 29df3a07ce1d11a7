import Pezhwan.Numeric.Bytes
import Mathlib.Tactic.Common

-- Bytes as base64 text, read as leniently as a buffer reads it.
namespace Numeric.Base64
variable {values : List Nat} {c : Char} {text : List Char} {n : Nat}

def digit (n : Nat) : Char :=
  if n < 26 then Char.ofNat (n + 65)
  else if n < 52 then Char.ofNat (n + 71)
  else if n < 62 then Char.ofNat (n - 4)
  else if n = 62 then '+'
  else '/'

-- Both alphabets are read.
def sextet (c : Char) : Option Nat :=
  if 'A' ≤ c ∧ c ≤ 'Z' then some (c.toNat - 65)
  else if 'a' ≤ c ∧ c ≤ 'z' then some (c.toNat - 71)
  else if '0' ≤ c ∧ c ≤ '9' then some (c.toNat + 4)
  else if c = '+' ∨ c = '-' then some 62
  else if c = '/' ∨ c = '_' then some 63
  else none

theorem sextet_digit : ∀ n < 64, sextet (digit n) = some n := by decide +kernel

theorem digit_ne : ∀ n < 64, digit n ≠ '=' := by decide +kernel

-- Three bytes make four digits; what is left over makes one digit more than it
-- has bytes.
def toSextets : Bytes → List Nat
  | a :: b :: c :: rest =>
    a.toNat / 4 :: (a.toNat % 4 * 16 + b.toNat / 16) :: (b.toNat % 16 * 4 + c.toNat / 64) :: c.toNat % 64 :: toSextets rest
  | [a,b] => [a.toNat / 4,a.toNat % 4 * 16 + b.toNat / 16,b.toNat % 16 * 4]
  | [a] => [a.toNat / 4,a.toNat % 4 * 16]
  | [] => []

def fromSextets : List Nat → Bytes
  | a :: b :: c :: d :: rest =>
    UInt8.ofNat (a * 4 + b / 16) :: UInt8.ofNat (b % 16 * 16 + c / 4) :: UInt8.ofNat (c % 4 * 64 + d) :: fromSextets rest
  | [a,b,c] => [UInt8.ofNat (a * 4 + b / 16),UInt8.ofNat (b % 16 * 16 + c / 4)]
  | [a,b] => [UInt8.ofNat (a * 4 + b / 16)]
  | _ => []

def encode (bytes : Bytes) : List Char :=
  (toSextets bytes).map digit ++ List.replicate ((3 - bytes.length % 3) % 3) '='

-- A text is read by the low bytes of its code units.
def lowBytes (c : Char) : List Char :=
  if c.toNat < 256 then [c]
  else if c.toNat < 65536 then [Char.ofNat (c.toNat % 256)]
  else [Char.ofNat ((c.toNat / 1024 + 192) % 256),Char.ofNat (c.toNat % 256)]

-- The first `=` ends the text, and what is no digit is skipped.
def sextets (text : List Char) : List Nat := ((text.flatMap lowBytes).takeWhile (· ≠ '=')).filterMap sextet

def decode (text : List Char) : Bytes := fromSextets (sextets text)

theorem ofNat_eq (byte : UInt8) (same : n = byte.toNat) : UInt8.ofNat n = byte := by
  rw [same,UInt8.ofNat_toNat]

theorem fromSextets_toSextets (bytes : Bytes) : fromSextets (toSextets bytes) = bytes := by
  induction bytes using toSextets.induct with
  | case1 a b c rest ih =>
    have one := a.toNat_lt
    have two := b.toNat_lt
    have three := c.toNat_lt
    rw [toSextets,fromSextets,ih,ofNat_eq a (by omega),ofNat_eq b (by omega),ofNat_eq c (by omega)]
  | case2 a b =>
    have one := a.toNat_lt
    have two := b.toNat_lt
    rw [toSextets,fromSextets,ofNat_eq a (by omega),ofNat_eq b (by omega)]
  | case3 a =>
    have one := a.toNat_lt
    rw [toSextets,fromSextets,ofNat_eq a (by omega)]
  | case4 => rfl

theorem toSextets_lt (bytes : Bytes) : ∀ n ∈ toSextets bytes, n < 64 := by
  induction bytes using toSextets.induct with
  | case1 a b c rest ih =>
    have one := a.toNat_lt
    have two := b.toNat_lt
    have three := c.toNat_lt
    simp only [toSextets,List.mem_cons,forall_eq_or_imp]
    exact ⟨by omega,by omega,by omega,by omega,ih⟩
  | case2 a b =>
    have one := a.toNat_lt
    have two := b.toNat_lt
    simp only [toSextets,List.mem_cons,forall_eq_or_imp,List.not_mem_nil]
    exact ⟨by omega,by omega,by omega,by simp⟩
  | case3 a =>
    have one := a.toNat_lt
    simp only [toSextets,List.mem_cons,forall_eq_or_imp,List.not_mem_nil]
    exact ⟨by omega,by omega,by simp⟩
  | case4 => simp [toSextets]

theorem filterMap_digits (small : ∀ n ∈ values, n < 64) : (values.map digit).filterMap sextet = values := by
  induction values with
  | nil => rfl
  | cons n rest ih =>
    rw [List.map_cons,List.filterMap_cons,sextet_digit n (small n (by simp))]
    exact congrArg (n :: ·) (ih fun m listed => small m (List.mem_cons_of_mem _ listed))

theorem takeWhile_digits (small : ∀ n ∈ values, n < 64) (count : Nat) :
    (values.map digit ++ List.replicate count '=').takeWhile (· ≠ '=') = values.map digit := by
  rw [List.takeWhile_append_of_pos]
  · cases count <;> simp
  · intro c listed
    obtain ⟨n,member,rfl⟩ := List.mem_map.mp listed
    simpa using digit_ne n (small n member)

theorem flatMap_lowBytes (plain : ∀ c ∈ text, c.toNat < 256) : text.flatMap lowBytes = text := by
  induction text with
  | nil => rfl
  | cons c rest ih =>
    rw [List.flatMap_cons,lowBytes,if_pos (plain c List.mem_cons_self),ih fun c listed => plain c (List.mem_cons_of_mem _ listed)]
    rfl

theorem digit_small : ∀ n < 64, (digit n).toNat < 256 := by decide +kernel

theorem encode_small (bytes : Bytes) : ∀ c ∈ encode bytes, c.toNat < 256 := by
  intro c listed
  rcases List.mem_append.mp listed with digits | filled
  · obtain ⟨n,member,rfl⟩ := List.mem_map.mp digits
    exact digit_small n (toSextets_lt bytes n member)
  · rw [List.eq_of_mem_replicate filled]
    decide

theorem decode_encode (bytes : Bytes) : decode (encode bytes) = bytes := by
  have small := toSextets_lt bytes
  rw [decode,sextets,flatMap_lowBytes (encode_small bytes),encode,takeWhile_digits small,filterMap_digits small,
    fromSextets_toSextets]

theorem fromSextets_length (values : List Nat) : (fromSextets values).length = 3 * values.length / 4 := by
  induction values using fromSextets.induct with
  | case1 a b c d rest ih =>
    simp only [fromSextets,List.length_cons,ih]
    omega
  | case2 a b c => simp [fromSextets]
  | case3 a b => simp [fromSextets]
  | case4 values many three two =>
    rcases values with _ | ⟨a,_ | ⟨b,_ | ⟨c,_ | ⟨d,rest⟩⟩⟩⟩
    · rfl
    · simp [fromSextets]
    · exact absurd rfl (two a b)
    · exact absurd rfl (three a b c)
    · exact absurd rfl (many a b c d rest)

theorem decode_length (text : List Char) : (decode text).length = 3 * (sextets text).length / 4 :=
  fromSextets_length _

theorem sextets_cons (small : c.toNat < 256) (read : sextet c = some n) (digit_ : c ≠ '=') :
    sextets (c :: text) = n :: sextets text := by
  simp [sextets,lowBytes,small,digit_,read]

theorem sextets_skip (small : c.toNat < 256) (skipped : sextet c = none) (digit_ : c ≠ '=') :
    sextets (c :: text) = sextets text := by
  simp [sextets,lowBytes,small,digit_,skipped]

-- What may stand in a text of this encoding.
def Written (c : Char) : Prop := c = '=' ∨ sextet c ≠ none

instance : DecidablePred Written := fun c => inferInstanceAs (Decidable (c = '=' ∨ sextet c ≠ none))

theorem written_encode (bytes : Bytes) (listed : c ∈ encode bytes) : Written c := by
  rcases List.mem_append.mp listed with digits | filled
  · obtain ⟨n,member,rfl⟩ := List.mem_map.mp digits
    refine Or.inr ?_
    rw [sextet_digit n (toSextets_lt bytes n member)]
    exact Option.some_ne_none n
  · exact Or.inl (List.eq_of_mem_replicate filled)

-- The alphabet of URLs, without filling.
def urlDigit (n : Nat) : Char := if n = 62 then '-' else if n = 63 then '_' else digit n

def encodeUrl (bytes : Bytes) : List Char := (toSextets bytes).map urlDigit

theorem sextet_urlDigit : ∀ n < 64, sextet (urlDigit n) = some n := by decide +kernel

theorem urlDigit_ne : ∀ n < 64, urlDigit n ≠ '=' ∧ urlDigit n ≠ '.' ∧ (urlDigit n).toNat < 256 := by decide +kernel

theorem sextets_urlDigits (small : ∀ n ∈ values, n < 64) : sextets (values.map urlDigit) = values := by
  induction values with
  | nil => rfl
  | cons n rest ih =>
    have within := small n (by simp)
    obtain ⟨unfilled,_,plain⟩ := urlDigit_ne n within
    rw [List.map_cons,sextets_cons plain (sextet_urlDigit n within) unfilled]
    exact congrArg (n :: ·) (ih fun m listed => small m (List.mem_cons_of_mem _ listed))

theorem decode_encodeUrl (bytes : Bytes) : decode (encodeUrl bytes) = bytes := by
  rw [decode,encodeUrl,sextets_urlDigits (toSextets_lt bytes),fromSextets_toSextets]

theorem dot_encodeUrl (bytes : Bytes) : '.' ∉ encodeUrl bytes := by
  intro listed
  obtain ⟨n,member,dot⟩ := List.mem_map.mp listed
  exact (urlDigit_ne n (toSextets_lt bytes n member)).2.1 dot

end Numeric.Base64
