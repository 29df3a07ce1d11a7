import Pezhwan.Numeric.Radix

-- Secrets of one-time passwords as base32 text.
namespace Pezhwan.Totp
open Numeric Radix

-- String.prototype.toUpperCase and toLowerCase. A capital does not depend on the
-- characters around it, a small letter may.
structure Casing where
  upper : Char → List Char
  lower : String → String
  upper_ascii : ∀ c, c.toNat < 128 → upper c = [c.toUpper]
  lower_ascii : ∀ text, (∀ c ∈ text.toList, c.toNat < 128) → lower text = String.ofList (text.toList.map Char.toLower)

def Casing.toUpperCase (casing : Casing) (text : String) : List Char := text.toList.flatMap casing.upper

-- Texts of ASCII characters only.
def plainCasing : Casing where
  upper c := [c.toUpper]
  lower text := String.ofList (text.toList.map Char.toLower)
  upper_ascii _ _ := rfl
  lower_ascii _ _ := rfl

def alphabet : List Char := "ABCDEFGHIJKLMNOPQRSTUVWXYZ234567".toList

def bits (width n : ℕ) : List Char := spelled 2 width n

-- The five bits of each character, where every one is in the alphabet.
def charBits : List Char → Option (List Char)
  | [] => some []
  | ch :: rest => (alphabet.idxOf? ch).bind fun idx => (charBits rest).map (bits 5 idx ++ ·)

def base32DecodeAndHexBuffer (casing : Casing) (input : String) : Option Bytes :=
  (charBits ((casing.toUpperCase input).filter (· ≠ '='))).map fun bits =>
    (cut 8 bits).map fun block => UInt8.ofNat (value 2 block)

def secretFromBase32 (casing : Casing) (input : String) : Option Bytes := base32DecodeAndHexBuffer casing input

def secretBits (secret : Bytes) : List Char := secret.flatMap fun byte => bits 8 byte.toNat

-- while (bits.length % 5 !== 0) bits += '0'
def filled (bits : List Char) : List Char := bits ++ List.replicate ((5 - bits.length % 5) % 5) '0'

def digits (secret : Bytes) : List Char := (cut 5 (filled (secretBits secret))).map fun block => alphabet.getD (value 2 block) 'A'

def encodeBase32 (secret : Bytes) : String := String.ofList (digits secret)

theorem digits_bits (width n : ℕ) : Digits 2 (bits width n) := digits_spelled (by decide) width n

theorem byte_bits (byte : UInt8) : (bits 8 byte.toNat).length = 8 ∧ UInt8.ofNat (value 2 (bits 8 byte.toNat)) = byte := by
  refine ⟨spelled_length (by decide) (by decide) byte.toNat_lt,?_⟩
  rw [bits,value_spelled (by decide) (by decide),UInt8.ofNat_toNat]

theorem filled_whole (bits : List Char) : (filled bits).length % 5 = 0 := by
  rw [filled,List.length_append,List.length_replicate]
  omega

theorem digits_filled (secret : Bytes) : Digits 2 (filled (secretBits secret)) := by
  intro c listed
  rcases List.mem_append.mp listed with bit | zero
  · obtain ⟨byte,_,found⟩ := List.mem_flatMap.mp bit
    exact digits_bits 8 byte.toNat c found
  · exact ⟨0,by decide,List.eq_of_mem_replicate zero⟩

theorem alphabet_digit : ∀ n < 32, alphabet.idxOf? (alphabet.getD n 'A') = some n := by decide +kernel

theorem letter_plain : ∀ c ∈ alphabet, c.toNat < 128 ∧ c.toUpper = c ∧ c ≠ '=' := by
  have all : (alphabet.all fun c => decide (c.toNat < 128 ∧ c.toUpper = c ∧ c ≠ '=')) = true := by decide +kernel
  intro c listed
  exact of_decide_eq_true (List.all_eq_true.mp all c listed)

theorem ascii_cases : ∀ n < 128, (Char.ofNat n).toLower.toNat < 128 ∧ (Char.ofNat n).toLower.toUpper = (Char.ofNat n).toUpper := by
  decide +kernel

theorem charBits_digits {pieces : List (List Char)} (sized : ∀ piece ∈ pieces, piece.length = 5)
    (binary : ∀ piece ∈ pieces, Digits 2 piece) :
    charBits (pieces.map fun piece => alphabet.getD (value 2 piece) 'A') = some pieces.flatten := by
  induction pieces with
  | nil => rfl
  | cons piece pieces ih =>
    have size := sized piece (by simp)
    have small := value_lt (by decide) (binary piece (by simp))
    rw [size] at small
    have again := ih (fun other listed => sized other (List.mem_cons_of_mem _ listed))
      fun other listed => binary other (List.mem_cons_of_mem _ listed)
    rw [List.map_cons,charBits,alphabet_digit _ small,Option.bind_some,again,Option.map_some,List.flatten_cons,bits,
      spelled_value (by decide) (by decide) (by decide) (binary piece (by simp)) size]

theorem charBits_encoded (secret : Bytes) : charBits (digits secret) = some (filled (secretBits secret)) := by
  obtain ⟨same,sized⟩ := @flatten_cut Char 5 _ (by decide) (filled_whole (secretBits secret))
  rw [digits,charBits_digits sized,same]
  intro piece listed c inside
  refine digits_filled secret c ?_
  rw [← same]
  exact List.mem_flatten.mpr ⟨piece,listed,inside⟩

theorem bytes_filled (secret : Bytes) : (cut 8 (filled (secretBits secret))).map (fun block => UInt8.ofNat (value 2 block)) = secret := by
  have pieces : secretBits secret = (secret.map fun byte => bits 8 byte.toNat).flatten := List.flatMap_def
  rw [filled,pieces,cut_flatten]
  · rw [List.map_map]
    refine (List.map_congr_left ?_).trans (List.map_id secret)
    intro byte _
    exact (byte_bits byte).2
  · intro piece listed
    obtain ⟨byte,_,rfl⟩ := List.mem_map.mp listed
    exact (byte_bits byte).1
  · rw [List.length_replicate]
    omega

theorem mem_digits (listed : c ∈ digits secret) : c ∈ alphabet := by
  obtain ⟨block,_,rfl⟩ := List.mem_map.mp listed
  rw [List.getD_eq_getElem?_getD]
  cases found : alphabet[value 2 block]? with
  | none => decide
  | some letter => exact List.mem_of_getElem? found

section
variable (casing : Casing)

theorem secret_of_letters {input : String} (spelled : (casing.toUpperCase input).filter (· ≠ '=') = digits secret) :
    secretFromBase32 casing input = some secret := by
  rw [secretFromBase32,base32DecodeAndHexBuffer,spelled,charBits_encoded,Option.map_some,bytes_filled]

theorem upper_letters {text : List Char} (letters : ∀ c ∈ text, c ∈ alphabet) :
    text.flatMap casing.upper = text ∧ text.filter (· ≠ '=') = text := by
  induction text with
  | nil => exact ⟨rfl,rfl⟩
  | cons c text ih =>
    obtain ⟨plain,same,sign⟩ := letter_plain c (letters c (by simp))
    obtain ⟨upper,kept⟩ := ih fun other listed => letters other (List.mem_cons_of_mem _ listed)
    refine ⟨?_,?_⟩
    · rw [List.flatMap_cons,casing.upper_ascii c plain,same,upper,List.singleton_append]
    · rw [List.filter_cons_of_pos (by simpa using sign),kept]

theorem secret_round_trip (secret : Bytes) : secretFromBase32 casing (encodeBase32 secret) = some secret := by
  obtain ⟨upper,kept⟩ := @upper_letters casing (digits secret) fun c => mem_digits
  refine secret_of_letters casing ?_
  rw [Casing.toUpperCase,encodeBase32,String.toList_ofList,upper,kept]

theorem upper_lower {text : List Char} (ascii : ∀ c ∈ text, c.toNat < 128) :
    (text.map Char.toLower).flatMap casing.upper = text.flatMap casing.upper := by
  induction text with
  | nil => rfl
  | cons c text ih =>
    have plain := ascii c (by simp)
    obtain ⟨small,again⟩ := ascii_cases c.toNat plain
    rw [Char.ofNat_toNat] at small again
    rw [List.map_cons,List.flatMap_cons,List.flatMap_cons,casing.upper_ascii _ small,casing.upper_ascii c plain,again,
      ih fun other listed => ascii other (List.mem_cons_of_mem _ listed)]

theorem lower_unseen {text : String} (ascii : ∀ c ∈ text.toList, c.toNat < 128) :
    secretFromBase32 casing (casing.lower text) = secretFromBase32 casing text := by
  unfold secretFromBase32 base32DecodeAndHexBuffer Casing.toUpperCase
  rw [casing.lower_ascii text ascii,String.toList_ofList,upper_lower casing ascii]

theorem encoded_ascii (secret : Bytes) : ∀ c ∈ (encodeBase32 secret).toList, c.toNat < 128 := by
  intro c listed
  rw [encodeBase32,String.toList_ofList] at listed
  exact (letter_plain c (mem_digits listed)).1

theorem unpadded (text : List Char) :
    ((text.filter (· ≠ '=')).flatMap casing.upper).filter (· ≠ '=') = (text.flatMap casing.upper).filter (· ≠ '=') := by
  induction text with
  | nil => rfl
  | cons c text ih =>
    by_cases sign : c = '='
    · subst sign
      have upper : casing.upper '=' = ['='] := casing.upper_ascii '=' (by decide)
      rw [List.filter_cons_of_neg (by simp),ih,List.flatMap_cons,upper,List.singleton_append,List.filter_cons_of_neg (by simp)]
    · rw [List.filter_cons_of_pos (by simpa using sign),List.flatMap_cons,List.flatMap_cons,List.filter_append,List.filter_append,ih]

theorem padding_unseen {one two : String} (same : one.toList.filter (· ≠ '=') = two.toList.filter (· ≠ '=')) :
    secretFromBase32 casing one = secretFromBase32 casing two := by
  unfold secretFromBase32 base32DecodeAndHexBuffer Casing.toUpperCase
  rw [← unpadded casing one.toList,same,unpadded]

end

theorem encodeBase32_injective (casing : Casing) : Function.Injective encodeBase32 := by
  intro one two same
  have read := secret_round_trip casing one
  rw [same,secret_round_trip casing two] at read
  exact (Option.some.inj read).symm

theorem secrets_round_trip (casing : Casing) :
    (∀ secret, secretFromBase32 casing (encodeBase32 secret) = some secret) ∧
    (∀ secret, secretFromBase32 casing (casing.lower (encodeBase32 secret)) = some secret) ∧
    (∀ text : String, (∀ c ∈ text.toList, c.toNat < 128) →
      secretFromBase32 casing (casing.lower text) = secretFromBase32 casing text) ∧
    (∀ one two : String, one.toList.filter (· ≠ '=') = two.toList.filter (· ≠ '=') →
      secretFromBase32 casing one = secretFromBase32 casing two) ∧
    Function.Injective encodeBase32 :=
  ⟨secret_round_trip casing,fun secret => (lower_unseen casing (encoded_ascii secret)).trans (secret_round_trip casing secret),
    fun _ => lower_unseen casing,fun _ _ => padding_unseen casing,encodeBase32_injective casing⟩

end Pezhwan.Totp
