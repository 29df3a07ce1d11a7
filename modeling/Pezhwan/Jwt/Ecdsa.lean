import Pezhwan.Keys.Tokens
import Pezhwan.WebAuthn.Keys

-- ECDSA signatures as node:crypto and as JWS write them: a DER sequence of two
-- integers, and two numbers of 32 bytes.
namespace Pezhwan.Jwt
open Numeric
open Keys (VerifyError)
open WebAuthn (Buffer Number plus byteAt bitsAt subarray trimLeadingZero wrapInteger rawToDerSignature signed)

def invalidSignature : VerifyError := .JsonWebTokenError "invalid signature"

-- A sign byte in front of 32 others goes.
def withoutSign (int : Buffer) : Buffer := if int.length = 33 ∧ byteAt int (some 0) = some 0 then int.drop 1 else int

-- The loop over the integers. A length that is undefined makes the next offset
-- NaN, and NaN is not below the length of the buffer.
def readInts (der : Buffer) : ℕ → Number → Except VerifyError (List Buffer)
  | 0,_ => .ok []
  | left + 1,offset =>
    if offset.any (· < der.length) then
      if byteAt der offset = some 0x02 then
        let len := (byteAt der (plus offset (some 1))).map UInt8.toNat
        let int := withoutSign (subarray der (plus offset (some 2)) (plus (plus offset (some 2)) len))
        if 32 < int.length then .error invalidSignature
        else (readInts der left (plus offset (plus (some 2) len))).map (int :: ·)
      else .ok []
    else .ok []

def padded32 (value : Buffer) : Buffer :=
  if value.length = 32 then value else List.replicate (32 - value.length) 0 ++ value

def derToJoseSignature (der : Buffer) : Except VerifyError Buffer :=
  if der.length < 8 ∨ byteAt der (some 0) ≠ some 0x30 then .error invalidSignature
  else
    let second := bitsAt der (some 1)
    let offset := if second = 0x81 then 3 else if second &&& 0x80 ≠ 0 then 2 + (second &&& 0x7f).toNat else 2
    match readInts der 2 (some offset) with
    | .error e => .error e
    | .ok [r,s] => .ok (padded32 r ++ padded32 s)
    | .ok _ => .error invalidSignature

-- Leading zeros go, but for one that keeps the sign.
def trimSign : Buffer → Buffer
  | first :: second :: rest =>
    if first = 0 ∧ second &&& 0x80 = 0 then trimSign (second :: rest) else first :: second :: rest
  | value => value

def derInteger (value : Buffer) : Buffer :=
  let trimmed := trimSign value
  let positive := if 0 < trimmed.length ∧ bitsAt trimmed (some 0) &&& 0x80 = 0 then trimmed else 0 :: trimmed
  [0x02,UInt8.ofNat positive.length] ++ positive

def joseToDerSignature (raw : Buffer) : Except VerifyError Buffer :=
  if raw.length ≠ 64 then .error invalidSignature
  else
    let body := derInteger (subarray raw (some 0) (some 32)) ++ derInteger (subarray raw (some 32) (some 64))
    if body.length < 0x80 then .ok ([0x30,UInt8.ofNat body.length] ++ body)
    else .ok ([0x30] ++ [0x81,UInt8.ofNat body.length] ++ body)

theorem trimLeadingZero_kept (nonzero : first ≠ 0) : trimLeadingZero (first :: rest) = first :: rest := by
  cases rest with
  | nil => rfl
  | cons second rest => rw [trimLeadingZero,if_neg nonzero]

-- What derInteger writes: the bytes that are left, and a sign byte if the first bit asks for one.
def positive (trimmed : Buffer) : Buffer :=
  if 0 < trimmed.length ∧ bitsAt trimmed (some 0) &&& 0x80 = 0 then trimmed else 0 :: trimmed

theorem positive_signed (some_ : trimmed ≠ []) : positive trimmed = signed trimmed := by
  unfold positive signed
  by_cases high : bitsAt trimmed (some 0) &&& 0x80 = 0
  · rw [if_pos ⟨List.length_pos_iff.mpr some_,high⟩,if_neg (not_not.mpr high)]
  · rw [if_neg (fun both => high both.2),if_pos high]

theorem positive_trimSign (some_ : value ≠ []) : positive (trimSign value) = signed (trimLeadingZero value) := by
  induction value using trimSign.induct with
  | case1 first second rest zero ih =>
    rw [trimSign,if_pos zero,trimLeadingZero,if_pos zero.1]
    exact ih (List.cons_ne_nil _ _)
  | case2 first second rest stays =>
    rw [trimSign,if_neg stays,positive_signed (List.cons_ne_nil _ _),trimLeadingZero]
    by_cases zero : first = 0
    · subst zero
      have high : second &&& 0x80 ≠ 0 := fun low => stays ⟨rfl,low⟩
      have nonzero : second ≠ 0 := by
        rintro rfl
        exact high (by decide)
      have head : bitsAt (0 :: second :: rest) (some 0) = 0 := rfl
      have next : bitsAt (second :: rest) (some 0) = second := rfl
      rw [if_pos rfl,trimLeadingZero_kept nonzero,signed,signed,head,next,if_pos high,if_neg (by decide)]
    · rw [if_neg zero]
  | case3 value short =>
    rcases value with _ | ⟨first,_ | ⟨second,rest⟩⟩
    · exact absurd rfl some_
    · exact positive_signed some_
    · exact (short _ _ _ rfl).elim

theorem derInteger_eq (some_ : value ≠ []) : derInteger value = wrapInteger (trimLeadingZero value) := by
  have same := positive_trimSign some_
  unfold positive at same
  rw [WebAuthn.wrapInteger_eq,derInteger]
  simp only [same,List.cons_append,List.nil_append]

theorem halves {raw : Buffer} (sized : raw.length = 64) :
    (subarray raw (some 0) (some 32)).length = 32 ∧ (subarray raw (some 32) (some 64)).length = 32 ∧
      raw = subarray raw (some 0) (some 32) ++ subarray raw (some 32) (some 64) := by
  have first : subarray raw (some 0) (some 32) = raw.take 32 := rfl
  have second : subarray raw (some 32) (some 64) = raw.drop 32 := by
    simp only [subarray,Option.getD_some]
    rw [List.take_of_length_le (Nat.le_of_eq sized)]
  rw [first,second,List.take_append_drop,List.length_take,List.length_drop,sized]
  exact ⟨rfl,rfl,rfl⟩

theorem length_ne (sized : value.length = 32) : value ≠ [] := by
  rintro rfl
  cases sized

theorem signed_length (some_ : value ≠ []) : (signed (trimLeadingZero value)).length ≤ value.length + 1 := by
  obtain ⟨minimal,number⟩ := WebAuthn.signed_integer some_
  refine Der.minimal_fits minimal (by omega) ?_
  rw [number]
  exact_mod_cast Der.numberOfBytes_lt value

-- The signature as a sequence of the two shortest integers.
def encoded (r s : Buffer) : Buffer :=
  Der.element 0x30 (Der.element 0x02 (signed (trimLeadingZero r)) ++ Der.element 0x02 (signed (trimLeadingZero s)))

theorem joseToDer_eq (sized : raw.length = 64) :
    joseToDerSignature raw = .ok (encoded (subarray raw (some 0) (some 32)) (subarray raw (some 32) (some 64))) := by
  obtain ⟨size_r,size_s,_⟩ := halves sized
  have some_r := length_ne size_r
  have some_s := length_ne size_s
  have long_r := signed_length some_r
  have long_s := signed_length some_s
  unfold joseToDerSignature
  rw [if_neg (not_not.mpr sized),derInteger_eq some_r,derInteger_eq some_s,WebAuthn.wrapInteger_eq,WebAuthn.wrapInteger_eq]
  refine if_pos ?_
  simp only [List.length_append,List.length_cons]
  omega

theorem signatures_agree (sized : raw.length = 64) : joseToDerSignature raw = .ok (rawToDerSignature raw) := by
  rw [joseToDer_eq sized,rawToDerSignature,WebAuthn.wrapInteger_eq,WebAuthn.wrapInteger_eq,encoded,Der.element,List.length_append]
  rfl

theorem signatures_agree_one : joseToDerSignature (List.replicate 63 0 ++ [1]) = .ok (rawToDerSignature (List.replicate 63 0 ++ [1])) :=
  signatures_agree rfl

theorem readInts_element (der front contents behind : Buffer) (left : ℕ) (whole : der = front ++ (Der.element 0x02 contents ++ behind))
    (short : contents.length < 0x80) (fits : (withoutSign contents).length ≤ 32) :
    readInts der (left + 1) (some front.length) =
      (readInts der left (some (front.length + (Der.element 0x02 contents).length))).map (withoutSign contents :: ·) := by
  have tag : byteAt der (some front.length) = some 0x02 := by
    simp [byteAt,whole,Der.element]
  have size : byteAt der (plus (some front.length) (some 1)) = some (UInt8.ofNat contents.length) := by
    simp [byteAt,plus,whole,Der.element]
  have value : (UInt8.ofNat contents.length).toNat = contents.length := by
    rw [UInt8.toNat_ofNat']
    omega
  have inside : subarray der (some (front.length + 2)) (some (front.length + 2 + contents.length)) = contents := by
    have ahead : der = (front ++ [0x02,UInt8.ofNat contents.length]) ++ (contents ++ behind) := by
      simp [whole,Der.element]
    have size : front.length + 2 = (front ++ [0x02,UInt8.ofNat contents.length]).length := by simp
    rw [subarray,Option.getD_some,Option.getD_some,List.drop_take,ahead,size,List.drop_left,Nat.add_sub_cancel_left,List.take_left]
  have below : (some front.length : Number).any (· < der.length) = true := by
    simp [whole,Der.element]
  rw [readInts,if_pos below,if_pos tag,size]
  simp only [plus,Option.bind_some,Option.map_some,value,inside]
  rw [if_neg (by omega),Der.element,List.length_cons,List.length_cons]
  congr 3
  omega

theorem readInts_pair {der first second : Buffer} {tag size : UInt8}
    (whole : der = [tag,size] ++ (Der.element 0x02 first ++ Der.element 0x02 second)) (short_r : first.length < 0x80)
    (fits_r : (withoutSign first).length ≤ 32) (short_s : second.length < 0x80) (fits_s : (withoutSign second).length ≤ 32) :
    readInts der 2 (some 2) = .ok [withoutSign first,withoutSign second] := by
  have back : der = ([tag,size] ++ Der.element 0x02 first) ++ (Der.element 0x02 second ++ []) := by
    rw [whole,List.append_nil,List.append_assoc]
  have one := readInts_element der _ first _ 1 whole short_r fits_r
  have two := readInts_element der _ second [] 0 back short_s fits_s
  rw [List.length_append] at two
  exact one.trans (congrArg (Except.map (withoutSign first :: ·)) two)

theorem withoutSign_number {contents : Buffer} {n : ℕ} (minimal : Der.Minimal contents) (value : Der.integerOf contents = n)
    (small : n < 256 ^ 32) : (withoutSign contents).length ≤ 32 ∧ numberOfBytes (withoutSign contents) = n := by
  have fits := @Der.minimal_fits 32 _ minimal (by omega) (by rw [value]; exact_mod_cast small)
  cases contents with
  | nil => exact minimal.elim
  | cons first rest =>
    obtain ⟨_,number⟩ := @Der.nonnegative_first first rest (by omega)
    have number : numberOfBytes (first :: rest) = n := by omega
    have head : byteAt (first :: rest) (some 0) = some first := rfl
    unfold withoutSign
    rw [head]
    split
    · rename_i signed
      have zero : first = 0 := Option.some.inj signed.2
      have size : rest.length = 32 := Nat.succ.inj signed.1
      rw [List.drop_one,List.tail_cons]
      rw [Der.numberOfBytes_cons,zero,UInt8.toNat_zero,Nat.zero_mul,Nat.zero_add] at number
      exact ⟨Nat.le_of_eq size,number⟩
    · rename_i unsigned
      refine ⟨?_,number⟩
      by_contra longer
      have size : rest.length = 32 := by
        rw [List.length_cons] at fits longer
        omega
      refine unsigned ⟨by rw [List.length_cons,size],?_⟩
      rw [Der.numberOfBytes_cons,size] at number
      have zero : first.toNat = 0 := by
        by_contra positive
        have one := Nat.mul_le_mul_right (256 ^ 32) (Nat.one_le_iff_ne_zero.mpr positive)
        omega
      rw [UInt8.toNat_inj.mp (zero.trans UInt8.toNat_zero.symm)]

theorem padded32_eq {value : Buffer} (fits : value.length ≤ 32) : padded32 value = bigEndian 32 (numberOfBytes value) := by
  have padded : padded32 value = List.replicate (32 - value.length) 0 ++ value := by
    unfold padded32
    split
    · rename_i whole
      rw [whole]
      rfl
    · rfl
  have bound : numberOfBytes value < 256 ^ 32 :=
    Nat.lt_of_lt_of_le (Der.numberOfBytes_lt value) (Nat.pow_le_pow_right (by decide) fits)
  refine numberOfBytes_injective ?_ ?_
  · rw [padded,List.length_append,List.length_replicate,bigEndian_length]
    omega
  · rw [padded,Der.numberOfBytes_zeros,numberOfBytes_bigEndian bound]

theorem derToJose_numbers {first second : Buffer} {r s : ℕ} (minimal_r : Der.Minimal first) (value_r : Der.integerOf first = r)
    (small_r : r < 256 ^ 32) (minimal_s : Der.Minimal second) (value_s : Der.integerOf second = s) (small_s : s < 256 ^ 32) :
    derToJoseSignature (Der.element 0x30 (Der.element 0x02 first ++ Der.element 0x02 second)) =
      .ok (bigEndian 32 r ++ bigEndian 32 s) := by
  obtain ⟨fits_r,number_r⟩ := withoutSign_number minimal_r value_r small_r
  obtain ⟨fits_s,number_s⟩ := withoutSign_number minimal_s value_s small_s
  have long_r := @Der.minimal_fits 32 _ minimal_r (by omega) (by rw [value_r]; exact_mod_cast small_r)
  have long_s := @Der.minimal_fits 32 _ minimal_s (by omega) (by rw [value_s]; exact_mod_cast small_s)
  have some_r : 0 < first.length := List.length_pos_iff.mpr (by rintro rfl; exact minimal_r)
  have some_s : 0 < second.length := List.length_pos_iff.mpr (by rintro rfl; exact minimal_s)
  have size : (Der.element 0x02 first ++ Der.element 0x02 second).length = first.length + second.length + 4 := by
    simp only [Der.element,List.length_append,List.length_cons]
    omega
  generalize spelled : Der.element 0x30 (Der.element 0x02 first ++ Der.element 0x02 second) = der
  have whole : der = [0x30,UInt8.ofNat (first.length + second.length + 4)] ++ (Der.element 0x02 first ++ Der.element 0x02 second) := by
    rw [← spelled,← size]
    rfl
  have longer : ¬der.length < 8 := by
    rw [whole,List.length_append,size]
    simp only [List.length_cons]
    omega
  have tagged : byteAt der (some 0) = some 0x30 := by
    rw [whole]
    rfl
  have low : (bitsAt der (some 1)).toNat < 128 := by
    have here : bitsAt der (some 1) = UInt8.ofNat (first.length + second.length + 4) := by
      rw [whole]
      rfl
    rw [here,UInt8.toNat_ofNat']
    omega
  have plain : bitsAt der (some 1) &&& 0x80 = 0 := by
    by_contra high
    exact absurd ((high_bit _).mp high) (Nat.not_le.mpr low)
  have unlike : bitsAt der (some 1) ≠ 0x81 := by
    intro same
    rw [same] at low
    exact absurd low (by decide)
  unfold derToJoseSignature
  rw [if_neg (not_or.mpr ⟨longer,not_not.mpr tagged⟩)]
  simp only [if_neg unlike,plain,ne_eq,not_true_eq_false,if_false]
  rw [readInts_pair whole (by omega) fits_r (by omega) fits_s]
  simp only [padded32_eq fits_r,padded32_eq fits_s,number_r,number_s]

-- Canonical: what a strict reader takes for two numbers below 2 ^ 256.
def Canonical (der : Buffer) (r s : ℤ) : Prop :=
  Der.readPair der = some (r,s) ∧ (0 ≤ r ∧ r < 2 ^ 256) ∧ 0 ≤ s ∧ s < 2 ^ 256

theorem encoded_canonical (size_r : r.length = 32) (size_s : s.length = 32) :
    Canonical (encoded r s) (numberOfBytes r) (numberOfBytes s) := by
  have read := WebAuthn.rsa_key_short (length_ne size_r) (length_ne size_s) (by
    have long_r := signed_length (length_ne size_r)
    have long_s := signed_length (length_ne size_s)
    unfold WebAuthn.keyLength
    omega)
  have bound : ∀ {half : Buffer}, half.length = 32 → (numberOfBytes half : ℤ) < 2 ^ 256 := by
    intro half sized
    have bound := Der.numberOfBytes_lt half
    rw [sized] at bound
    exact_mod_cast bound
  refine ⟨?_,⟨by omega,bound size_r⟩,by omega,bound size_s⟩
  rw [← read,WebAuthn.buildRSAPublicKeyDER,WebAuthn.wrapInteger_eq,WebAuthn.wrapInteger_eq]
  rfl

theorem jose_der_jose (sized : raw.length = 64) : ∃ der, joseToDerSignature raw = .ok der ∧ derToJoseSignature der = .ok raw := by
  obtain ⟨size_r,size_s,whole⟩ := halves sized
  obtain ⟨minimal_r,value_r⟩ := WebAuthn.signed_integer (length_ne size_r)
  obtain ⟨minimal_s,value_s⟩ := WebAuthn.signed_integer (length_ne size_s)
  have small_r := Der.numberOfBytes_lt (subarray raw (some 0) (some 32))
  have small_s := Der.numberOfBytes_lt (subarray raw (some 32) (some 64))
  have again_r := bigEndian_numberOfBytes (subarray raw (some 0) (some 32))
  have again_s := bigEndian_numberOfBytes (subarray raw (some 32) (some 64))
  rw [size_r] at small_r again_r
  rw [size_s] at small_s again_s
  refine ⟨_,joseToDer_eq sized,?_⟩
  rw [encoded,derToJose_numbers minimal_r value_r small_r minimal_s value_s small_s,again_r,again_s,← whole]

theorem halves_append {one two : Buffer} (size_one : one.length = 32) (size_two : two.length = 32) :
    subarray (one ++ two) (some 0) (some 32) = one ∧ subarray (one ++ two) (some 32) (some 64) = two := by
  refine ⟨?_,?_⟩
  · simp only [subarray,Option.getD_some,List.drop_zero]
    rw [← size_one,List.take_left]
  · have all : (one ++ two).length ≤ 64 := by
      rw [List.length_append]
      omega
    simp only [subarray,Option.getD_some]
    rw [List.take_of_length_le all,← size_one,List.drop_left]

theorem der_jose_der (canonical : Canonical der r s) :
    ∃ raw, derToJoseSignature der = .ok raw ∧ joseToDerSignature raw = .ok der := by
  obtain ⟨read,⟨natural_r,small_r⟩,natural_s,small_s⟩ := canonical
  obtain ⟨first,second,minimal_r,value_r,minimal_s,value_s,spelled⟩ := Der.readPair_parts read
  obtain ⟨r,rfl⟩ := Int.eq_ofNat_of_zero_le natural_r
  obtain ⟨s,rfl⟩ := Int.eq_ofNat_of_zero_le natural_s
  have small_r : r < 256 ^ 32 := by exact_mod_cast small_r
  have small_s : s < 256 ^ 32 := by exact_mod_cast small_s
  have long_r := @Der.minimal_fits 32 _ minimal_r (by omega) (by rw [value_r]; exact_mod_cast small_r)
  have long_s := @Der.minimal_fits 32 _ minimal_s (by omega) (by rw [value_s]; exact_mod_cast small_s)
  have size_r := bigEndian_length 32 r
  have size_s := bigEndian_length 32 s
  obtain ⟨front,back⟩ := halves_append size_r size_s
  obtain ⟨shortest_r,same_r⟩ := WebAuthn.signed_integer (length_ne size_r)
  obtain ⟨shortest_s,same_s⟩ := WebAuthn.signed_integer (length_ne size_s)
  rw [numberOfBytes_bigEndian small_r] at same_r
  rw [numberOfBytes_bigEndian small_s] at same_s
  have written_r := Der.minimal_unique shortest_r minimal_r (by omega) (same_r.trans value_r.symm)
  have written_s := Der.minimal_unique shortest_s minimal_s (by omega) (same_s.trans value_s.symm)
  refine ⟨bigEndian 32 r ++ bigEndian 32 s,?_,?_⟩
  · rw [spelled (by omega),derToJose_numbers minimal_r value_r small_r minimal_s value_s small_s]
  · rw [joseToDer_eq (by rw [List.length_append,size_r,size_s]),front,back,encoded,written_r,written_s,spelled (by omega)]

theorem joseToDer_canonical (written : joseToDerSignature raw = .ok der) : ∃ r s, Canonical der r s := by
  by_cases sized : raw.length = 64
  · obtain ⟨size_r,size_s,_⟩ := halves sized
    rw [joseToDer_eq sized] at written
    cases written
    exact ⟨_,_,encoded_canonical size_r size_s⟩
  · rw [joseToDerSignature,if_pos sized] at written
    cases written

theorem signatures_convert :
    (∀ raw : Buffer, raw.length = 64 → ∃ der, joseToDerSignature raw = .ok der ∧ derToJoseSignature der = .ok raw) ∧
    (∀ der r s, Canonical der r s → ∃ raw, derToJoseSignature der = .ok raw ∧ joseToDerSignature raw = .ok der) ∧
    ∀ raw der, joseToDerSignature raw = .ok der → ∃ r s, Canonical der r s :=
  ⟨fun _ => jose_der_jose,fun _ _ _ => der_jose_der,fun _ _ => joseToDer_canonical⟩

theorem signatures_convert_edge :
    ∃ der, joseToDerSignature (0xff :: List.replicate 63 0) = .ok der ∧ derToJoseSignature der = .ok (0xff :: List.replicate 63 0) :=
  signatures_convert.1 _ rfl

end Pezhwan.Jwt
