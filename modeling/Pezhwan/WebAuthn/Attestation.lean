import Pezhwan.WebAuthn.Ceremony

-- The attestation object as the package builds it, and what reading it gives.
namespace Pezhwan.WebAuthn
open Numeric Atomic

def CBOR_MAJOR_TEXT : Nat := 3
def CBOR_MAJOR_MAP : Nat := 5
def CBOR_MAJOR_BYTES : Nat := 2
def CBOR_MAJOR_INT : Nat := 0

-- Bytes are made of the low eight bits of the numbers.
def bufferFrom (values : List Nat) : Buffer := values.map UInt8.ofNat

def cborEncodeUInt (value : Nat) : Except String Buffer :=
  if value < 24 then .ok (bufferFrom [value])
  else if value < 256 then .ok (bufferFrom [24,value])
  else if value < 65536 then .ok (bufferFrom [25,value >>> 8 &&& 0xff,value &&& 0xff])
  else .error "CBOR: uint too large for 4 bytes"

def cborEncodeMap (entries : List (Buffer × Buffer)) : Buffer :=
  (if entries.length < 24 then bufferFrom [CBOR_MAJOR_MAP <<< 5 ||| entries.length]
  else bufferFrom [CBOR_MAJOR_MAP <<< 5 ||| 24,entries.length]) ++ entries.flatMap fun entry => entry.1 ++ entry.2

def cborEncodeText (str : String) : Buffer :=
  let bytes := utf8Bytes str
  if bytes.length < 24 then bufferFrom [CBOR_MAJOR_TEXT <<< 5 ||| bytes.length] ++ bytes
  else bufferFrom [CBOR_MAJOR_TEXT <<< 5 ||| 24,bytes.length >>> 8 &&& 0xff,bytes.length &&& 0xff] ++ bytes

def cborEncodeBytes (buf : Buffer) : Buffer :=
  if buf.length < 24 then bufferFrom [CBOR_MAJOR_BYTES <<< 5 ||| buf.length] ++ buf
  else bufferFrom [CBOR_MAJOR_BYTES <<< 5 ||| 24,buf.length >>> 8 &&& 0xff,buf.length &&& 0xff] ++ buf

def cborEncodeInt (value : Nat) : Except String Buffer :=
  if value < 24 then .ok (bufferFrom [CBOR_MAJOR_INT <<< 5 ||| value])
  else cborEncodeUInt value

-- A number written into a fixed count of bytes has to fit.
def writeUIntBE (count value : Nat) : Except String Buffer :=
  if value < 256 ^ count then .ok (bigEndian count value) else .error "ERR_OUT_OF_RANGE"

structure AttestationParams where
  rpIdHash : Buffer
  flags : Nat
  signCount : Nat
  credentialId : Buffer
  publicKeyCose : Buffer
  fmt : String := "none"
  deriving DecidableEq, Repr

def buildAuthData (params : AttestationParams) : Except String Buffer := do
  let signCountBuf ← writeUIntBE 4 params.signCount
  let aaguid := List.replicate 16 0
  let credIdLenBuf ← writeUIntBE 2 params.credentialId.length
  let attCredData := aaguid ++ credIdLenBuf ++ params.credentialId ++ params.publicKeyCose
  pure (params.rpIdHash ++ bufferFrom [params.flags] ++ signCountBuf ++ attCredData)

def buildAttestationObject (params : AttestationParams) : Except String Buffer := do
  let authData ← buildAuthData params
  let one ← cborEncodeInt 1
  let two ← cborEncodeInt 2
  let three ← cborEncodeInt 3
  pure (cborEncodeMap [(one,cborEncodeText params.fmt),(two,cborEncodeBytes []),(three,cborEncodeBytes authData)])

-- Nothing but the AT flag tells whether there is a credential; a COSE key is a map
-- and has a byte at least.
structure WellFormed (params : AttestationParams) : Prop where
  hashed : params.rpIdHash.length = 32
  byte : params.flags < 256
  attested : flagged (some (UInt8.ofNat params.flags)) FLAG_AT = true
  counted : params.signCount < 2 ^ 32
  named : params.credentialId.length < 65536
  key : params.publicKeyCose ≠ []
  bounded : 55 + params.credentialId.length + params.publicKeyCose.length < 65536

-- What is read is what was put in.
def Returns (params : AttestationParams) (parsed : ParsedAttestation) : Prop :=
  parsed.fmt = params.fmt ∧ parsed.rpIdHash = params.rpIdHash ∧ parsed.flags = some (UInt8.ofNat params.flags) ∧
  parsed.signCount = bigEndian 4 params.signCount ∧
  ∃ attested, parsed.attestedCredentialData = some attested ∧ attested.credentialId = params.credentialId ∧
    attested.credentialPublicKey = params.publicKeyCose

def RoundTrips (node : Node) (params : AttestationParams) : Prop :=
  ∃ buf parsed, buildAttestationObject params = .ok buf ∧ parseAttestationObject node buf = .ok parsed ∧ Returns params parsed

-- The bytes in front of an item: the length, or the number, that the decoder reads.
inductive Head : Buffer → Nat → Prop
  | one (b : UInt8) (info : b &&& 0x1f < 24) : Head [b] (b &&& 0x1f).toNat
  | two (b x : UInt8) (info : b &&& 0x1f = 24) : Head [b,x] x.toNat
  | three (b x y : UInt8) (info : b &&& 0x1f = 25) : Head [b,x,y] (x.toNat <<< 8 ||| y.toNat)

theorem drop_split (buf : Buffer) (pos count : Nat) : buf.drop pos = (buf.drop pos).take count ++ buf.drop (pos + count) := by
  rw [← List.drop_drop]
  exact (List.take_append_drop count (buf.drop pos)).symm

theorem drop_cons {buf : Buffer} (inside : pos < buf.length) : buf.drop pos = bitsAt buf (some pos) :: buf.drop (pos + 1) := by
  rw [List.drop_eq_getElem_cons inside]
  congr 1
  simp [bitsAt,byteAt,List.getElem?_eq_getElem inside]

theorem uint_parts (read : cborDecodeUInt buf (some pos) = .ok decoded) :
    ∃ size, decoded.bytesRead = some size ∧ (pos + size ≤ buf.length →
      ∃ head value, Head head value ∧ head.length = size ∧ decoded.value = some value ∧
        buf.drop pos = head ++ buf.drop (pos + size)) := by
  simp only [cborDecodeUInt] at read
  split at read
  · rename_i info
    cases read
    refine ⟨1,rfl,?_⟩
    intro inside
    exact ⟨_,_,.one _ info,rfl,rfl,drop_cons inside⟩
  · split at read
    · rename_i info
      cases read
      refine ⟨2,rfl,?_⟩
      intro inside
      have second : pos + 1 < buf.length := inside
      refine ⟨_,_,.two _ (bitsAt buf (some (pos + 1))) info,rfl,?_,?_⟩
      · simp [plus,byteAt,bitsAt,List.getElem?_eq_getElem second]
      · rw [drop_cons (Nat.lt_of_succ_lt second),drop_cons second]
        rfl
    · split at read
      · rename_i info
        cases read
        refine ⟨3,rfl,?_⟩
        intro inside
        have third : pos + 1 + 1 < buf.length := inside
        refine ⟨_,_,.three _ (bitsAt buf (some (pos + 1))) (bitsAt buf (some (pos + 1 + 1))) info,rfl,rfl,?_⟩
        rw [drop_cons (Nat.lt_of_succ_lt (Nat.lt_of_succ_lt third)),drop_cons (Nat.lt_of_succ_lt third),drop_cons third]
        rfl
      · cases read

theorem bytes_parts (read : cborDecodeBytes buf (some pos) = .ok decoded) (some_ : decoded.value ≠ []) :
    ∃ head length, Head head length ∧ decoded.bytesRead = some (head.length + length) ∧
      buf.drop pos = head ++ buf.drop (pos + head.length) ∧
      decoded.value = (buf.drop (pos + head.length)).take length ∧ pos + head.length < buf.length := by
  obtain ⟨count,counted,taken⟩ := bind_ok.mp read
  obtain ⟨size,sized,inside⟩ := uint_parts counted
  cases taken
  rw [sized] at some_ ⊢
  cases length : count.value with
  | none =>
    rw [length] at some_
    simp [plus,subarray] at some_
  | some value =>
    rw [length] at some_
    have within : pos + size < buf.length := by
      by_contra outside
      refine some_ ?_
      unfold subarray
      refine List.drop_eq_nil_iff.mpr ?_
      simp only [plus,Option.bind_some,Option.map_some,Option.getD_some,List.length_take]
      omega
    obtain ⟨head,value_,headed,rfl,same,split⟩ := inside (Nat.le_of_lt within)
    rw [length] at same
    cases same
    refine ⟨head,value,headed,rfl,split,?_,within⟩
    simp only [plus,subarray,Option.bind_some,Option.map_some,Option.getD_some]
    rw [List.drop_take,Nat.add_sub_cancel_left]

theorem entry_parts (name : cborDecodeUInt buf (some pos) = .ok label)
    (contents : cborDecodeBytes buf (plus (some pos) label.bytesRead) = .ok decoded) (some_ : decoded.value ≠ []) :
    ∃ spelled value head length, Head spelled value ∧ Head head length ∧ label.value = some value ∧
      buf.drop pos = spelled ++ head ++ buf.drop (pos + spelled.length + head.length) ∧
      decoded.value = (buf.drop (pos + spelled.length + head.length)).take length ∧
      plus (plus (some pos) label.bytesRead) decoded.bytesRead = some (pos + spelled.length + head.length + length) := by
  obtain ⟨size,sized,inside⟩ := uint_parts name
  rw [sized] at contents ⊢
  have behind : plus (some pos) (some size) = some (pos + size) := rfl
  rw [behind] at contents ⊢
  obtain ⟨head,length,headed,count,split,value,within⟩ := bytes_parts contents some_
  obtain ⟨spelled,number,labelled,rfl,same,front⟩ := inside (by omega)
  refine ⟨spelled,number,head,length,labelled,headed,same,?_,value,?_⟩
  · rw [front,split,List.append_assoc]
  · rw [count]
    simp only [plus,Option.bind_some,Option.map_some,Nat.add_assoc]

-- Two entries that have contents, in the bytes they were read from.
structure Pair (rest : Buffer) (first second : Nat) (before after : Buffer) where
  label : Buffer
  head : Buffer
  length : Nat
  label' : Buffer
  head' : Buffer
  length' : Nat
  tail : Buffer
  labelled : Head label first
  headed : Head head length
  sized : before.length = length
  labelled' : Head label' second
  headed' : Head head' length'
  last : after = tail.take length'
  split : rest = label ++ head ++ before ++ label' ++ head' ++ tail

theorem pair_parts (looped : cborDecodeEntries buf 2 (some pos) map = .ok decoded) :
    ∃ first before second after, decoded.value = (map.set first before).set second after ∧
      (before ≠ [] → after ≠ [] → ∃ one two, first = some (Int.ofNat one) ∧ second = some (Int.ofNat two) ∧
        Nonempty (Pair (buf.drop pos) one two before after)) := by
  unfold cborDecodeEntries at looped
  obtain ⟨name,named,looped⟩ := bind_ok.mp looped
  obtain ⟨val,valued,looped⟩ := bind_ok.mp looped
  unfold cborDecodeEntries at looped
  obtain ⟨name',named',looped⟩ := bind_ok.mp looped
  obtain ⟨val',valued',looped⟩ := bind_ok.mp looped
  unfold cborDecodeEntries at looped
  cases looped
  refine ⟨_,_,_,_,rfl,?_⟩
  intro some_before some_after
  obtain ⟨label,one,head,length,labelled,headed,same,split,value,next⟩ := entry_parts named valued some_before
  rw [next] at named' valued'
  obtain ⟨label',two,head',length',labelled',headed',same',split',value',_⟩ := entry_parts named' valued' some_after
  have inside : length < (buf.drop (pos + label.length + head.length)).length := by
    by_contra outside
    have nothing := List.drop_eq_nil_iff.mpr (Nat.not_lt.mp outside)
    rw [List.drop_drop,split'] at nothing
    obtain ⟨front,_⟩ := List.append_eq_nil_iff.mp nothing
    obtain ⟨none,_⟩ := List.append_eq_nil_iff.mp front
    rw [none] at labelled'
    cases labelled'
  have sized : val.value.length = length := by
    rw [value,List.length_take]
    omega
  refine ⟨one,two,by rw [same]; rfl,by rw [same']; rfl,⟨⟨label,head,length,label',head',length',_,labelled,headed,sized,
    labelled',headed',value',?_⟩⟩⟩
  have joined := drop_split buf (pos + label.length + head.length) length
  rw [← value,split'] at joined
  rw [split,joined]
  simp only [List.append_assoc]

theorem shifted_sum (x y : UInt8) : x.toNat <<< 8 ||| y.toNat = 256 * x.toNat + y.toNat := by
  rw [← Nat.shiftLeft_add_eq_or_of_lt y.toNat_lt,Nat.shiftLeft_eq,Nat.mul_comm]

theorem bigEndian_pair (x y : UInt8) : bigEndian 2 (256 * x.toNat + y.toNat) = [x,y] := by
  have high : (256 * x.toNat + y.toNat) / 256 = x.toNat := by
    have small := y.toNat_lt
    omega
  have low : UInt8.ofNat (256 * x.toNat + y.toNat) = y := by
    apply UInt8.toNat_inj.mp
    have small := y.toNat_lt
    rw [UInt8.toNat_ofNat']
    omega
  rw [bigEndian,bigEndian,bigEndian,high,low,UInt8.ofNat_toNat]
  rfl

theorem bigEndian_two (small : n < 65536) : ∃ high low, bigEndian 2 n = [high,low] ∧ n = 256 * high.toNat + low.toNat := by
  refine ⟨UInt8.ofNat (n / 256),UInt8.ofNat n,rfl,?_⟩
  rw [UInt8.toNat_ofNat',UInt8.toNat_ofNat']
  omega

-- The bytes that the four fields are read from.
def dataOf (hash : Buffer) (flags : UInt8) (count aaguid id key : Buffer) : Buffer :=
  hash ++ [flags] ++ count ++ aaguid ++ bigEndian 2 id.length ++ id ++ key

theorem attested_parts (read : parseAuthenticatorData buf = data) (hashed : data.rpIdHash.length = 32)
    (byte : data.flags = some flags) (counted : data.signCount.length = 4)
    (attested : data.attestedCredentialData = some credential) (key : credential.credentialPublicKey ≠ []) :
    ∃ aaguid, aaguid.length = 16 ∧
      buf = dataOf data.rpIdHash flags data.signCount aaguid credential.credentialId credential.credentialPublicKey := by
  subst read
  simp only [parseAuthenticatorData] at attested key byte hashed counted ⊢
  split at attested
  · have same := Option.some.inj attested
    rw [← same] at key ⊢
    simp only [subarray,Option.getD_some,List.drop_zero] at key hashed counted ⊢
    have within : 55 + twoBytes buf (some 53) < buf.length := by
      by_contra outside
      exact key (List.drop_eq_nil_iff.mpr (Nat.not_lt.mp outside))
    have flag : bitsAt buf (some 32) = flags := by simp [bitsAt,byte]
    have length : twoBytes buf (some 53) = 256 * (bitsAt buf (some 53)).toNat + (bitsAt buf (some 54)).toNat :=
      shifted_sum _ _
    have id : ((buf.take (55 + twoBytes buf (some 53))).drop 55).length = twoBytes buf (some 53) := by
      rw [List.length_drop,List.length_take]
      omega
    refine ⟨(buf.drop 37).take 16,by rw [List.length_take,List.length_drop]; omega,?_⟩
    unfold dataOf
    rw [id,length,bigEndian_pair,← length]
    have hash := drop_split buf 0 32
    have first : buf.drop 32 = bitsAt buf (some 32) :: buf.drop 33 := drop_cons (by omega)
    have count := drop_split buf 33 4
    have skipped := drop_split buf 37 16
    have high : buf.drop 53 = bitsAt buf (some 53) :: buf.drop 54 := drop_cons (by omega)
    have low : buf.drop 54 = bitsAt buf (some 54) :: buf.drop 55 := drop_cons (by omega)
    have named := drop_split buf 55 (twoBytes buf (some 53))
    rw [flag] at first
    rw [List.drop_zero,Nat.zero_add] at hash
    rw [List.drop_take,List.drop_take,Nat.add_sub_cancel_left]
    conv_lhs => rw [hash,first,count,skipped,high,low,named]
    simp only [List.append_assoc,List.cons_append,List.nil_append]
  · cases attested

-- What UTF-8 decoding makes of bytes that are no text: a replacement character for
-- each at most.
structure Utf8Decoder (decode : Buffer → String) : Prop where
  replaced : ∀ p : UInt8 → Bool, p 0xef = false → p 0xbf = false → p 0xbd = false →
    ∀ bytes : Buffer, (utf8Bytes (decode bytes)).countP p ≤ bytes.countP p
  growth : ∀ (before : Buffer) (text : String) (after : Buffer),
    (utf8Bytes (decode (before ++ utf8Bytes text ++ after))).length ≤ 3 * before.length + (utf8Bytes text).length + 3 * after.length

-- The bytes that name the label 1, and those in front of a length byte.
def ones (b : UInt8) : Bool := b &&& 0x1f = 1

def wide (b : UInt8) : Bool := b &&& 0x1f = 24 || b &&& 0x1f = 25

theorem head_nonempty (headed : Head head value) : head ≠ [] := by
  cases headed <;> exact List.cons_ne_nil _ _

theorem head_one (headed : Head head value) (named : value = 1) : 1 ≤ head.countP ones := by
  cases headed with
  | one b info =>
    have label : ones b = true := decide_eq_true (UInt8.toNat_inj.mp named)
    rw [List.countP_cons,if_pos label]
    exact Nat.le_add_left 1 _
  | two b x info =>
    have label : x = 1 := UInt8.toNat_inj.mp named
    rw [label,List.countP_cons]
    exact Nat.le_add_right _ _
  | three b x y info =>
    rw [shifted_sum] at named
    have label : y = 1 := by
      apply UInt8.toNat_inj.mp
      rw [UInt8.toNat_one]
      omega
    rw [label,List.countP_cons,List.countP_cons,Nat.add_assoc]
    exact Nat.le_add_right _ _

theorem head_first (headed : Head (first :: rest) value) (single : ones first = true) : rest = [] ∧ value = 1 := by
  have info_ : first &&& 0x1f = 1 := of_decide_eq_true single
  cases headed with
  | one b info =>
    rw [info_]
    exact ⟨rfl,rfl⟩
  | two b x info =>
    rw [info] at info_
    exact absurd info_ (by decide)
  | three b x y info =>
    rw [info] at info_
    exact absurd info_ (by decide)

theorem head_wide (headed : Head head value) (large : 24 ≤ value) :
    ∃ first rest, head = first :: rest ∧ wide first = true ∧
      ∀ p : UInt8 → Bool, p 0 = false → (bigEndian 2 value).countP p ≤ rest.countP p := by
  cases headed with
  | one b info =>
    have small : (b &&& 0x1f).toNat < 24 := UInt8.lt_iff_toNat_lt.mp info
    omega
  | two b x info =>
    refine ⟨b,[x],rfl,by simp [wide,info],?_⟩
    intro p zero
    have spelled := bigEndian_pair 0 x
    rw [UInt8.toNat_zero,Nat.mul_zero,Nat.zero_add] at spelled
    rw [spelled,List.countP_cons,zero]
    exact Nat.le_refl _
  | three b x y info =>
    refine ⟨b,[x,y],rfl,by simp [wide,info],?_⟩
    intro p _
    rw [shifted_sum,bigEndian_pair]

-- The bytes from the second entry on, where the text is longer than 23 bytes: its
-- length was read as one byte, and what comes behind is shifted.
def restOf (high : Nat) (low : UInt8) (text data : Buffer) : Buffer :=
  (low :: (text ++ [0x02,0x40,0x03,0x58] ++ bigEndian 2 data.length ++ data)).drop high

section
variable {high : Nat} {low : UInt8} {text data : Buffer} {first second : Nat} {before after : Buffer}

theorem rest_split (inside : high ≤ text.length) :
    restOf high low text data = (low :: text).drop high ++ [0x02,0x40,0x03,0x58] ++ bigEndian 2 data.length ++ data := by
  unfold restOf
  rw [List.append_assoc text,List.append_assoc text,← List.cons_append,List.drop_append_of_le_length (by
    rw [List.length_cons]
    omega)]
  simp only [List.append_assoc]

-- The low byte is there only if nothing was skipped.
def extra (p : UInt8 → Bool) (high : Nat) (low : UInt8) : Nat := if high = 0 ∧ p low = true then 1 else 0

theorem rest_count (p : UInt8 → Bool) (high : Nat) (low : UInt8) (text data : Buffer) :
    (restOf high low text data).countP p ≤ extra p high low + text.countP p + List.countP p [0x02,0x40,0x03,0x58] +
      (bigEndian 2 data.length).countP p + data.countP p := by
  unfold restOf extra
  cases high with
  | zero =>
    rw [List.drop_zero,List.countP_cons]
    simp only [List.countP_append,true_and]
    omega
  | succ high =>
    rw [List.drop_succ_cons,if_neg (fun both => Nat.succ_ne_zero high both.1)]
    have fewer := (List.drop_sublist high (text ++ [0x02,0x40,0x03,0x58] ++ bigEndian 2 data.length ++ data)).countP_le (p := p)
    simp only [List.countP_append] at fewer
    omega

theorem label_low (pair : Pair (restOf 0 low text data) first second before after) :
    ∃ rest, pair.label = low :: rest := by
  have split := pair.split
  cases spelled : pair.label with
  | nil => exact absurd spelled (head_nonempty pair.labelled)
  | cons b rest =>
    rw [spelled] at split
    simp only [restOf,List.drop_zero,List.cons_append] at split
    rw [(List.cons.inj split).1]
    exact ⟨rest,rfl⟩

theorem label_count (p : UInt8 → Bool) (pair : Pair (restOf high low text data) first second before after) :
    extra p high low ≤ pair.label.countP p := by
  unfold extra
  split
  · rename_i both
    obtain ⟨none,counted⟩ := both
    subst none
    obtain ⟨rest,begins⟩ := label_low pair
    rw [begins,List.countP_cons,if_pos counted]
    exact Nat.le_add_left 1 _
  · exact Nat.zero_le _

theorem pair_count (p : UInt8 → Bool) (pair : Pair rest first second before after) :
    pair.label.countP p + pair.head.countP p + before.countP p + pair.label'.countP p + pair.head'.countP p +
      after.countP p ≤ rest.countP p := by
  have fewer : (pair.tail.take pair.length').countP p ≤ pair.tail.countP p := (List.take_sublist _ _).countP_le
  rw [← pair.last] at fewer
  have split := congrArg (List.countP p) pair.split
  simp only [List.countP_append] at split
  omega

theorem data_then_text (pair : Pair (restOf high low text data) 3 1 before after) (sized : before.length = data.length)
    (large : 24 ≤ data.length) (data_kept : data.countP ones ≤ before.countP ones)
    (text_kept : text.countP ones ≤ after.countP ones) : False := by
  have headed := pair.headed
  rw [← pair.sized,sized] at headed
  obtain ⟨b,rest,spelled,_,length⟩ := head_wide headed large
  have kept := length ones (by decide)
  have label := head_one pair.labelled' rfl
  have count := pair_count ones pair
  rw [spelled,List.countP_cons] at count
  have light : extra ones high low = 0 := by
    unfold extra
    refine if_neg ?_
    intro both
    obtain ⟨none,single⟩ := both
    subst none
    obtain ⟨rest,begins⟩ := label_low pair
    have labelled := pair.labelled
    rw [begins] at labelled
    exact absurd (head_first labelled single).2 (by decide)
  have bound := rest_count ones high low text data
  have fixed : List.countP ones [0x02,0x40,0x03,0x58] = 0 := by decide
  omega

theorem data_whole (pair : Pair (restOf high low text data) first second before after) (inside : high ≤ text.length)
    (sized : after.length = data.length) (large : 24 ≤ data.length) (small : data.length < 65536) :
    pair.length' = data.length := by
  have last := congrArg List.length pair.last
  rw [List.length_take,sized] at last
  by_contra other
  have whole : pair.tail.length = data.length := by omega
  have longer : data.length < pair.length' := by omega
  obtain ⟨h,l,spelled,value⟩ := bigEndian_two small
  have split := (rest_split inside).symm.trans pair.split
  rw [spelled] at split
  have cut : (low :: text).drop high ++ [0x02,0x40,0x03] ++ [0x58,h,l] =
      pair.label ++ pair.head ++ before ++ pair.label' ++ pair.head' := by
    refine (List.append_inj' ?_ whole.symm).1
    simpa only [List.append_assoc,List.cons_append,List.nil_append] using split
  have headed := pair.headed'
  cases shown : pair.head' with
  | nil => exact absurd shown (head_nonempty headed)
  | cons b rest =>
    rw [shown] at headed cut
    generalize pair.length' = length at headed longer
    cases headed with
    | one b info =>
      have few : (b &&& 0x1f).toNat < 24 := UInt8.lt_iff_toNat_lt.mp info
      omega
    | two b x info =>
      have ends : ((low :: text).drop high ++ [0x02,0x40,0x03,0x58]) ++ [h,l] =
          (pair.label ++ pair.head ++ before ++ pair.label') ++ [b,x] := by
        simpa only [List.append_assoc,List.cons_append,List.nil_append] using cut
      have same := (List.append_inj' ends rfl).2
      cases same
      omega
    | three b x y info =>
      have same := (List.append_inj' cut rfl).2
      cases same
      exact absurd info (by decide)

theorem piece_growth {decode : Buffer → String} (decodes : Utf8Decoder decode) (text : String) (count : Nat) :
    (utf8Bytes (decode (((utf8Bytes text).drop 1).take count))).length ≤ count + 12 := by
  have spelled : utf8Bytes text = text.toList.flatMap String.utf8EncodeChar := utf8Bytes_eq text
  cases chars : text.toList with
  | nil =>
    rw [chars,List.flatMap_nil] at spelled
    have empty : utf8Bytes "" = [] := rfl
    have none := decodes.growth [] "" []
    rw [empty] at none
    rw [spelled,List.drop_nil,List.take_nil]
    exact Nat.le_trans none (Nat.zero_le _)
  | cons c rest =>
    rw [chars,List.flatMap_cons] at spelled
    have size := Char.utf8Size_le_four c
    have positive := Char.utf8Size_pos c
    have sized := String.length_utf8EncodeChar c
    obtain ⟨whole,part,text',taken,short⟩ := utf8_take rest (count - ((String.utf8EncodeChar c).drop 1).length)
    obtain ⟨middle,rfl⟩ := text'
    have bound := decodes.growth (((String.utf8EncodeChar c).drop 1).take count) middle part
    have total := congrArg List.length taken
    rw [spelled,List.drop_append_of_le_length (by omega),List.take_append,taken,← List.append_assoc]
    refine Nat.le_trans bound ?_
    simp only [List.length_take,List.length_drop,List.length_append] at total ⊢
    have same : (utf8Bytes middle).length = (Numeric.utf8Bytes middle).length := rfl
    omega

theorem text_then_data_wide (pair : Pair (restOf high low text data) 1 3 before after) (inside : high ≤ text.length)
    (sized : after.length = data.length) (large : 24 ≤ data.length) (small : data.length < 65536)
    (data_kept : data.countP wide ≤ after.countP wide) (text_kept : text.countP wide ≤ before.countP wide) :
    pair.head.countP wide = 0 := by
  have headed := pair.headed'
  rw [data_whole pair inside sized large small] at headed
  obtain ⟨b,rest,spelled,counted,length⟩ := head_wide headed large
  have kept := length wide (by decide)
  have count := pair_count wide pair
  rw [spelled,List.countP_cons,if_pos counted] at count
  have label := label_count wide pair
  have bound := rest_count wide high low text data
  have fixed : List.countP wide [0x02,0x40,0x03,0x58] = 1 := by decide
  omega

theorem front_piece {text rest after : Buffer} (long : before.length < text.length) (split : text ++ rest = b :: (before ++ after)) :
    text = b :: text.drop 1 ∧ before = (text.drop 1).take before.length := by
  cases text with
  | nil => exact absurd long (Nat.not_lt_zero _)
  | cons c text =>
    rw [List.cons_append] at split
    obtain ⟨same,behind⟩ := List.cons.inj split
    have taken := congrArg (List.take before.length) behind
    rw [List.take_append_of_le_length (Nat.le_of_lt_succ long),List.take_left] at taken
    exact ⟨by rw [same]; rfl,taken.symm⟩

theorem first_replaced {decode : Buffer → String} (decodes : Utf8Decoder decode) {string : String}
    (front : utf8Bytes string = b :: (utf8Bytes string).drop 1)
    (read : decode (((utf8Bytes string).drop 1).take count) = string) : b = 0xef ∨ b = 0xbf ∨ b = 0xbd := by
  by_contra other
  let p : UInt8 → Bool := fun c => decide ¬(c = 0xef ∨ c = 0xbf ∨ c = 0xbd)
  have fewer := decodes.replaced p rfl rfl rfl (((utf8Bytes string).drop 1).take count)
  have sub : (((utf8Bytes string).drop 1).take count).countP p ≤ ((utf8Bytes string).drop 1).countP p :=
    (List.take_sublist _ _).countP_le
  have total := congrArg (List.countP p) front
  rw [List.countP_cons,if_pos (decide_eq_true other)] at total
  rw [read] at fewer
  omega

theorem text_then_data {decode : Buffer → String} (decodes : Utf8Decoder decode) {string : String}
    (pair : Pair (restOf high (UInt8.ofNat (utf8Bytes string).length) (utf8Bytes string) data) 1 3 before after)
    (long : 24 ≤ (utf8Bytes string).length) (inside : high ≤ (utf8Bytes string).length)
    (sized : after.length = data.length) (large : 24 ≤ data.length) (small : data.length < 65536)
    (data_kept : ∀ p : UInt8 → Bool, p 0 = false → data.countP p ≤ after.countP p) (read : decode before = string) : False := by
  have kept : ∀ p : UInt8 → Bool, p 0xef = false → p 0xbf = false → p 0xbd = false →
      (utf8Bytes string).countP p ≤ before.countP p := by
    intro p one two three
    have replaced := decodes.replaced p one two three before
    rwa [read] at replaced
  have narrow := text_then_data_wide pair inside sized large small (data_kept wide (by decide))
    (kept wide (by decide) (by decide) (by decide))
  have light : extra ones high (UInt8.ofNat (utf8Bytes string).length) = 1 := by
    have headed := pair.headed'
    rw [data_whole pair inside sized large small] at headed
    obtain ⟨b,rest,spelled,_,length⟩ := head_wide headed large
    have size := length ones (by decide)
    have count := pair_count ones pair
    rw [spelled,List.countP_cons] at count
    have label := head_one pair.labelled rfl
    have bound := rest_count ones high (UInt8.ofNat (utf8Bytes string).length) (utf8Bytes string) data
    have fixed : List.countP ones [0x02,0x40,0x03,0x58] = 0 := by decide
    have text_kept := kept ones (by decide) (by decide) (by decide)
    have data_kept := data_kept ones (by decide)
    have most : extra ones high (UInt8.ofNat (utf8Bytes string).length) ≤ 1 := by
      unfold extra
      split <;> omega
    omega
  have both : high = 0 ∧ ones (UInt8.ofNat (utf8Bytes string).length) = true := by
    unfold extra at light
    split at light
    · assumption
    · cases light
  obtain ⟨none,single⟩ := both
  subst none
  obtain ⟨more,begins⟩ := label_low pair
  have labelled := pair.labelled
  rw [begins] at labelled
  obtain ⟨nothing,_⟩ := head_first labelled single
  have split := pair.split
  have headed := pair.headed
  have counted := pair.sized
  rw [begins,nothing] at split
  cases shown : pair.head with
  | nil => exact head_nonempty headed shown
  | cons b rest =>
    rw [shown] at headed narrow split
    generalize pair.length = length at headed counted
    cases headed with
    | two b x info => simp [wide,info] at narrow
    | three b x y info => simp [wide,info] at narrow
    | one b info =>
      have few : before.length < 24 := by
        rw [counted]
        exact UInt8.lt_iff_toNat_lt.mp info
      have shorter : before.length < (utf8Bytes string).length := Nat.lt_of_lt_of_le few long
      obtain ⟨front,piece⟩ := front_piece shorter (b := b) (by simpa [restOf] using split)
      have replaced : b = 0xef ∨ b = 0xbf ∨ b = 0xbd := by
        rw [piece] at read
        exact first_replaced decodes front read
      have fifteen : before.length = 15 := by
        rw [counted]
        rcases replaced with rfl | rfl | rfl
        · rfl
        · exact absurd info (by decide)
        · exact absurd info (by decide)
      have grown := piece_growth decodes string before.length
      rw [← piece,read,fifteen] at grown
      have none : ∀ n, 24 ≤ n → n ≤ 27 → ones (UInt8.ofNat n) = false := by decide
      rw [none _ long grown] at single
      cases single

end

-- The authenticator data that is built, and the object around it.
def builtData (params : AttestationParams) : Buffer :=
  dataOf params.rpIdHash (UInt8.ofNat params.flags) (bigEndian 4 params.signCount) (List.replicate 16 0) params.credentialId
    params.publicKeyCose

theorem length_pair (n : Nat) : bufferFrom [n >>> 8 &&& 0xff,n &&& 0xff] = bigEndian 2 n := by
  have high : UInt8.ofNat (n >>> 8 &&& 0xff) = UInt8.ofNat (n / 256) := by
    apply UInt8.toNat_inj.mp
    rw [UInt8.toNat_ofNat',UInt8.toNat_ofNat',Nat.and_two_pow_sub_one_eq_mod _ 8,Nat.shiftRight_eq_div_pow,Nat.mod_mod]
  have low : UInt8.ofNat (n &&& 0xff) = UInt8.ofNat n := by
    apply UInt8.toNat_inj.mp
    rw [UInt8.toNat_ofNat',UInt8.toNat_ofNat',Nat.and_two_pow_sub_one_eq_mod _ 8,Nat.mod_mod]
  simp only [bufferFrom,List.map_cons,List.map_nil,high,low]
  rfl

theorem builtData_length (well : WellFormed params) :
    (builtData params).length = 55 + params.credentialId.length + params.publicKeyCose.length := by
  unfold builtData dataOf
  simp only [List.length_append,well.hashed,bigEndian_length,List.length_replicate,List.length_singleton]

theorem buildAttestationObject_eq (well : WellFormed params) :
    buildAttestationObject params = .ok (0xa3 :: 0x01 :: (cborEncodeText params.fmt ++ [0x02,0x40,0x03,0x58] ++
      bigEndian 2 (builtData params).length ++ builtData params)) := by
  have counted : writeUIntBE 4 params.signCount = .ok (bigEndian 4 params.signCount) := if_pos well.counted
  have named : writeUIntBE 2 params.credentialId.length = .ok (bigEndian 2 params.credentialId.length) := if_pos well.named
  have built : buildAuthData params = .ok (builtData params) := by
    unfold buildAuthData
    rw [counted,named]
    simp only [bind,Except.bind,pure,Except.pure,builtData,dataOf,bufferFrom,List.map_cons,List.map_nil,List.append_assoc]
  have large : ¬(builtData params).length < 24 := by
    rw [builtData_length well]
    omega
  have bytes : cborEncodeBytes (builtData params) = 0x58 :: bigEndian 2 (builtData params).length ++ builtData params := by
    unfold cborEncodeBytes
    rw [if_neg large,← length_pair]
    rfl
  unfold buildAttestationObject
  rw [built]
  simp only [bind,Except.bind,pure,Except.pure,cborEncodeInt,Nat.reduceLT,if_true,bytes]
  simp [cborEncodeMap,bufferFrom,cborEncodeBytes,CBOR_MAJOR_MAP,CBOR_MAJOR_INT,CBOR_MAJOR_BYTES]

theorem returned_parts (well : WellFormed params) (read : parseAttestationObject node buf = .ok parsed)
    (returns : Returns params parsed) :
    ∃ decoded aaguid, cborDecodeMap buf (some 0) = .ok decoded ∧ aaguid.length = 16 ∧
      ((decoded.value.get? (some 1)).map node.utf8).getD "" = params.fmt ∧
      decoded.value.get? (some 3) = some (dataOf params.rpIdHash (UInt8.ofNat params.flags) (bigEndian 4 params.signCount) aaguid
        params.credentialId params.publicKeyCose) := by
  obtain ⟨decoded,mapped,rest⟩ := bind_ok.mp read
  obtain ⟨text,hashed,byte,counted,attested,found,named,key⟩ := returns
  cases rest
  cases shown : decoded.value.get? (some 3) with
  | none =>
    simp only [shown] at found
    cases found
  | some authData =>
    simp only [shown] at hashed byte counted found
    obtain ⟨aaguid,sized,spelled⟩ := attested_parts (@rfl _ (parseAuthenticatorData authData)) (by rw [hashed]; exact well.hashed)
      byte (by rw [counted]; exact bigEndian_length 4 _) found (by rw [key]; exact well.key)
    rw [hashed,counted,named,key] at spelled
    exact ⟨decoded,aaguid,mapped,sized,text,by rw [shown,spelled]⟩

theorem returned_length (well : WellFormed params) (sized : aaguid.length = 16) :
    (dataOf params.rpIdHash (UInt8.ofNat params.flags) (bigEndian 4 params.signCount) aaguid params.credentialId
      params.publicKeyCose).length = (builtData params).length := by
  rw [builtData_length well]
  unfold dataOf
  simp only [List.length_append,well.hashed,bigEndian_length,sized,List.length_singleton]

theorem returned_count (params : AttestationParams) (aaguid : Buffer) (p : UInt8 → Bool) (zero : p 0 = false) :
    (builtData params).countP p ≤ (dataOf params.rpIdHash (UInt8.ofNat params.flags) (bigEndian 4 params.signCount) aaguid
      params.credentialId params.publicKeyCose).countP p := by
  have none : (List.replicate 16 (0 : UInt8)).countP p = 0 := by
    rw [List.countP_replicate,zero]
    rfl
  unfold builtData dataOf
  simp only [List.countP_append,none]
  omega

theorem uint_small (here : bitsAt buf offset = b) (info : b &&& 0x1f < 24) :
    cborDecodeUInt buf offset = .ok ⟨some (b &&& 0x1f).toNat,some 1⟩ := by
  simp only [cborDecodeUInt]
  rw [here,if_pos info]

theorem uint_next (here : bitsAt buf offset = b) (info : b &&& 0x1f = 24) :
    cborDecodeUInt buf offset = .ok ⟨(byteAt buf (plus offset (some 1))).map UInt8.toNat,some 2⟩ := by
  simp only [cborDecodeUInt]
  rw [here,if_neg (by rw [info]; decide),if_pos info]

theorem first_entry (read : cborDecodeMap (0xa3 :: 0x01 :: rest) (some 0) = .ok decoded) :
    ∃ val looped, cborDecodeBytes (0xa3 :: 0x01 :: rest) (some 2) = .ok val ∧
      cborDecodeEntries (0xa3 :: 0x01 :: rest) 2 (plus (some 2) val.bytesRead) (Dict.empty.set (some 1) val.value) = .ok looped ∧
      decoded.value = looped.value := by
  unfold cborDecodeMap at read
  rw [uint_small (b := 0xa3) rfl (by decide)] at read
  obtain ⟨count,counted,read⟩ := bind_ok.mp read
  cases counted
  obtain ⟨looped,entries,same⟩ := bind_ok.mp read
  cases same
  have entries : cborDecodeEntries (0xa3 :: 0x01 :: rest) 3 (some 1) Dict.empty = .ok looped := entries
  unfold cborDecodeEntries at entries
  rw [uint_small (b := 0x01) rfl (by decide)] at entries
  obtain ⟨name,named,entries⟩ := bind_ok.mp entries
  cases named
  obtain ⟨val,valued,entries⟩ := bind_ok.mp entries
  exact ⟨val,looped,valued,entries,rfl⟩

theorem long_entry (read : cborDecodeBytes (0xa3 :: 0x01 :: 0x78 :: high :: rest) (some 2) = .ok val) :
    val.value.length ≤ high.toNat ∧ plus (some 2) val.bytesRead = some (4 + high.toNat) := by
  unfold cborDecodeBytes at read
  rw [uint_next (b := 0x78) rfl (by decide)] at read
  obtain ⟨count,counted,read⟩ := bind_ok.mp read
  cases counted
  cases read
  simp only [plus,byteAt,subarray,Option.bind_some,Option.map_some,Option.getD_some,List.getElem?_cons_succ,List.getElem?_cons_zero,
    List.length_drop,List.length_take]
  exact ⟨by omega,by congr 1; omega⟩

theorem looked_up {one two : Option Int} {text before after data : Buffer} {map : CborMap}
    (entered : map = ((Dict.empty.set (some 1) text).set one before).set two after) (found : map.get? (some 3) = some data) :
    (two = some 3 ∧ after = data ∧ (map.get? (some 1) = some text ∨ one = some 1 ∧ map.get? (some 1) = some before)) ∨
      (one = some 3 ∧ before = data ∧ (map.get? (some 1) = some text ∨ two = some 1 ∧ map.get? (some 1) = some after)) := by
  subst entered
  rw [Dict.get?_set] at found
  split at found
  · rename_i same
    refine .inl ⟨same.symm,Option.some.inj found,?_⟩
    rw [← same,Dict.get?_set_ne _ _ (by decide),Dict.get?_set]
    split
    · rename_i named
      exact .inr ⟨named.symm,rfl⟩
    · exact .inl (Dict.get?_set_self _ _ _)
  · rw [Dict.get?_set] at found
    split at found
    · rename_i same
      refine .inr ⟨same.symm,Option.some.inj found,?_⟩
      rw [Dict.get?_set,← same,Dict.get?_set_ne _ _ (by decide),Dict.get?_set_self]
      split
      · rename_i named
        exact .inr ⟨named.symm,rfl⟩
      · exact .inl rfl
    · rw [Dict.get?_set_ne _ _ (by decide)] at found
      cases found

theorem long_encoded (long : 24 ≤ (utf8Bytes str).length) :
    cborEncodeText str = 0x78 :: UInt8.ofNat ((utf8Bytes str).length / 256) :: UInt8.ofNat (utf8Bytes str).length :: utf8Bytes str := by
  unfold cborEncodeText
  rw [if_neg (Nat.not_lt.mpr long)]
  calc bufferFrom [CBOR_MAJOR_TEXT <<< 5 ||| 24,(utf8Bytes str).length >>> 8 &&& 0xff,(utf8Bytes str).length &&& 0xff] ++ utf8Bytes str =
      (0x78 : UInt8) :: (bufferFrom [(utf8Bytes str).length >>> 8 &&& 0xff,(utf8Bytes str).length &&& 0xff] ++ utf8Bytes str) := rfl
    _ = _ := by
      rw [length_pair]
      rfl

theorem text_size {decode : Buffer → String} (decodes : Utf8Decoder decode) (bytes : Buffer) :
    (utf8Bytes (decode bytes)).length ≤ 3 * bytes.length := by
  have bound := decodes.growth bytes "" []
  have empty : utf8Bytes "" = [] := rfl
  rw [empty,List.append_nil,List.append_nil] at bound
  exact bound

theorem long_never (decodes : Utf8Decoder node.utf8) (well : WellFormed params) (long : 24 ≤ (utf8Bytes params.fmt).length) :
    ¬RoundTrips node params := by
  intro trips
  obtain ⟨buf,parsed,built,read,returns⟩ := trips
  rw [buildAttestationObject_eq well,long_encoded long] at built
  have object := (Except.ok.inj built).symm
  obtain ⟨decoded,aaguid,mapped,sized,text,found⟩ := returned_parts well read returns
  have high : (UInt8.ofNat ((utf8Bytes params.fmt).length / 256)).toNat ≤ (utf8Bytes params.fmt).length / 256 := by
    rw [UInt8.toNat_ofNat']
    exact Nat.mod_le _ _
  simp only [List.cons_append] at object
  subst object
  obtain ⟨val,looped,first,entries,same⟩ := first_entry mapped
  obtain ⟨short,next⟩ := long_entry first
  rw [next] at entries
  obtain ⟨one,before,two,after,entered,pairs⟩ := pair_parts entries
  have length := returned_length well sized
  have total := builtData_length well
  have kept := returned_count params aaguid
  have bounded := well.bounded
  generalize dataOf params.rpIdHash (UInt8.ofNat params.flags) (bigEndian 4 params.signCount) aaguid params.credentialId
    params.publicKeyCose = data at found length kept
  have data_some : data ≠ [] := List.length_pos_iff.mp (by omega)
  have text_some : ∀ bytes : Buffer, node.utf8 bytes = params.fmt → bytes ≠ [] ∧ bytes ≠ val.value := by
    intro bytes spelled
    have grown := text_size decodes bytes
    rw [spelled] at grown
    refine ⟨List.length_pos_iff.mp (by omega),?_⟩
    intro first
    rw [first] at grown
    omega
  rw [same] at found text
  have dropped : ∀ rest : Buffer, ((0xa3 : UInt8) :: 0x01 :: 0x78 :: UInt8.ofNat ((utf8Bytes params.fmt).length / 256) :: rest).drop
      (4 + (UInt8.ofNat ((utf8Bytes params.fmt).length / 256)).toNat) =
        rest.drop (UInt8.ofNat ((utf8Bytes params.fmt).length / 256)).toNat := by
    intro rest
    rw [Nat.add_comm]
    rfl
  rw [dropped] at pairs
  rcases looked_up entered found with ⟨labelled,rfl,rest⟩ | ⟨labelled,rfl,rest⟩
  · rcases rest with value | ⟨named,value⟩
    · rw [value] at text
      exact (text_some _ text).2 rfl
    · rw [value] at text
      obtain ⟨o,t,same_one,same_two,⟨pair⟩⟩ := pairs (text_some _ text).1 data_some
      rw [same_one] at named
      rw [same_two] at labelled
      cases named
      cases labelled
      exact text_then_data decodes pair long (by omega) length (by omega) (by omega) kept text
  · rcases rest with value | ⟨named,value⟩
    · rw [value] at text
      exact (text_some _ text).2 rfl
    · rw [value] at text
      obtain ⟨o,t,same_one,same_two,⟨pair⟩⟩ := pairs data_some (text_some _ text).1
      rw [same_one] at labelled
      rw [same_two] at named
      cases named
      cases labelled
      have replaced := decodes.replaced ones (by decide) (by decide) (by decide) after
      have spelled : node.utf8 after = params.fmt := text
      rw [spelled] at replaced
      exact data_then_text pair length (by omega) (kept ones (by decide)) replaced

theorem byte_drop (buf : Buffer) (pos i : Nat) : byteAt buf (some (pos + i)) = (buf.drop pos)[i]? :=
  List.getElem?_drop.symm

theorem short_entries (dropped : buf.drop pos = 0x02 :: 0x40 :: 0x03 :: 0x58 :: high :: rest)
    (read : cborDecodeEntries buf 2 (some pos) map = .ok looped) :
    ∃ after, looped.value = (map.set (some 2) []).set (some 3) after ∧ after.length ≤ high.toNat := by
  have shown : ∀ i, byteAt buf (some (pos + i)) = (0x02 :: 0x40 :: 0x03 :: 0x58 :: high :: rest)[i]? := by
    intro i
    rw [byte_drop,dropped]
  have label : cborDecodeUInt buf (some pos) = .ok ⟨some 2,some 1⟩ :=
    uint_small (b := 0x02) (congrArg (·.getD 0) (shown 0)) (by decide)
  have empty : cborDecodeUInt buf (some (pos + 1)) = .ok ⟨some 0,some 1⟩ :=
    uint_small (b := 0x40) (congrArg (·.getD 0) (shown 1)) (by decide)
  have label' : cborDecodeUInt buf (some (pos + 2)) = .ok ⟨some 3,some 1⟩ :=
    uint_small (b := 0x03) (congrArg (·.getD 0) (shown 2)) (by decide)
  have size : cborDecodeUInt buf (some (pos + 3)) = .ok ⟨some high.toNat,some 2⟩ := by
    rw [uint_next (b := 0x58) (congrArg (·.getD 0) (shown 3)) (by decide)]
    have byte : byteAt buf (plus (some (pos + 3)) (some 1)) = some high := shown 4
    rw [byte]
    rfl
  have nothing : cborDecodeBytes buf (plus (some pos) (some 1)) = .ok ⟨[],some 1⟩ := by
    have at_ : plus (some pos) (some 1) = some (pos + 1) := rfl
    unfold cborDecodeBytes
    rw [at_,empty]
    simp only [bind,Except.bind,pure,Except.pure,plus,subarray,Option.bind_some,Option.map_some,Option.getD_some,Nat.add_zero]
    rw [List.drop_take,Nat.sub_self,List.take_zero]
  unfold cborDecodeEntries at read
  rw [label] at read
  obtain ⟨name,named,read⟩ := bind_ok.mp read
  cases named
  rw [nothing] at read
  obtain ⟨val,valued,read⟩ := bind_ok.mp read
  cases valued
  have next : plus (plus (some pos) (some 1)) (some 1) = some (pos + 2) := rfl
  rw [next] at read
  unfold cborDecodeEntries at read
  rw [label'] at read
  obtain ⟨name,named,read⟩ := bind_ok.mp read
  cases named
  obtain ⟨val,valued,read⟩ := bind_ok.mp read
  cases read
  refine ⟨val.value,rfl,?_⟩
  have behind : plus (some (pos + 2)) (some 1) = some (pos + 3) := rfl
  unfold cborDecodeBytes at valued
  rw [behind,size] at valued
  cases valued
  simp only [plus,subarray,Option.bind_some,Option.map_some,Option.getD_some,List.length_drop,List.length_take]
  omega

theorem short_encoded (short : (utf8Bytes str).length < 24) :
    ∃ head, head &&& 0x1f = UInt8.ofNat (utf8Bytes str).length ∧ cborEncodeText str = head :: utf8Bytes str := by
  have info : ∀ n < 24, UInt8.ofNat (CBOR_MAJOR_TEXT <<< 5 ||| n) &&& 0x1f = UInt8.ofNat n := by decide
  unfold cborEncodeText
  rw [if_pos short]
  exact ⟨_,info _ short,rfl⟩

theorem short_never (well : WellFormed params) (short : (utf8Bytes params.fmt).length < 24) : ¬RoundTrips node params := by
  intro trips
  obtain ⟨buf,parsed,built,read,returns⟩ := trips
  obtain ⟨head,info,encoded⟩ := short_encoded short
  rw [buildAttestationObject_eq well,encoded] at built
  have object := (Except.ok.inj built).symm
  obtain ⟨decoded,aaguid,mapped,sized,_,found⟩ := returned_parts well read returns
  simp only [List.cons_append] at object
  subst object
  obtain ⟨val,looped,first,entries,same⟩ := first_entry mapped
  have length := returned_length well sized
  have total := builtData_length well
  have bounded := well.bounded
  have number : (UInt8.ofNat (utf8Bytes params.fmt).length).toNat = (utf8Bytes params.fmt).length := by
    rw [UInt8.toNat_ofNat']
    omega
  have headed : cborDecodeUInt ((0xa3 : UInt8) :: 0x01 :: head :: (utf8Bytes params.fmt ++ [0x02,0x40,0x03,0x58] ++
      bigEndian 2 (builtData params).length ++ builtData params)) (some 2) =
        .ok ⟨some (utf8Bytes params.fmt).length,some 1⟩ := by
    rw [uint_small (b := head) rfl (by
      rw [info,UInt8.lt_iff_toNat_lt,number]
      exact short),info,number]
  unfold cborDecodeBytes at first
  rw [headed] at first
  cases first
  have next : plus (some 2) (plus (some 1) (some (utf8Bytes params.fmt).length)) = some (3 + (utf8Bytes params.fmt).length) := by
    simp only [plus,Option.bind_some,Option.map_some]
    congr 1
    omega
  rw [next] at entries
  have dropped : ((0xa3 : UInt8) :: 0x01 :: head :: (utf8Bytes params.fmt ++ [0x02,0x40,0x03,0x58] ++
      bigEndian 2 (builtData params).length ++ builtData params)).drop (3 + (utf8Bytes params.fmt).length) =
        0x02 :: 0x40 :: 0x03 :: 0x58 :: UInt8.ofNat ((builtData params).length / 256) ::
          UInt8.ofNat (builtData params).length :: builtData params := by
    rw [Nat.add_comm,List.drop_succ_cons,List.drop_succ_cons,List.drop_succ_cons,List.append_assoc,List.append_assoc,
      List.drop_left]
    rfl
  obtain ⟨after,entered,few⟩ := short_entries dropped entries
  rw [same,entered,Dict.get?_set_self] at found
  rw [Option.some.inj found,UInt8.toNat_ofNat'] at few
  omega

theorem attestation_never_round_trips (node : Node) (params : AttestationParams) (decodes : Utf8Decoder node.utf8)
    (well : WellFormed params) : ¬RoundTrips node params := by
  by_cases short : (utf8Bytes params.fmt).length < 24
  · exact short_never well short
  · exact long_never decodes well (Nat.not_lt.mp short)

theorem strict_bytes (bytes : Buffer) : utf8Bytes (strictUtf8 bytes) = bytes ∨ utf8Bytes (strictUtf8 bytes) = [] := by
  unfold strictUtf8 String.fromUTF8?
  split
  · exact .inl rfl
  · exact .inr rfl

theorem strict_decodes : Utf8Decoder strictUtf8 where
  replaced p _ _ _ bytes := by
    rcases strict_bytes bytes with same | none
    · rw [same]
    · rw [none]
      exact Nat.zero_le _
  growth before text after := by
    rcases strict_bytes (before ++ utf8Bytes text ++ after) with same | none
    · rw [same,List.length_append,List.length_append]
      omega
    · rw [none]
      exact Nat.zero_le _

def sampleParams : AttestationParams where
  rpIdHash := sampleRpIdHash
  flags := 0x41
  signCount := 7
  credentialId := [1,2,3]
  publicKeyCose := [0xa0]

theorem sample_well : WellFormed sampleParams := by
  refine ⟨by decide,by decide,by decide,by decide,by decide,by decide,by decide⟩

theorem attestation_never_round_trips_sample : ¬RoundTrips {sampleNode with utf8 := strictUtf8} sampleParams :=
  attestation_never_round_trips {sampleNode with utf8 := strictUtf8} sampleParams strict_decodes sample_well

-- The authenticator data is longer than 23 bytes, and less than 256: none of it is read.
theorem attestation_lost :
    (¬∀ params, WellFormed params → RoundTrips sampleNode params) ∧
      ((buildAttestationObject sampleParams).bind (parseAttestationObject sampleNode)).toOption =
        some ⟨⟨[],none,[],none⟩,"none",[]⟩ := by
  refine ⟨?_,by decide +kernel⟩
  intro trips
  exact short_never sample_well (by decide) (trips sampleParams sample_well)

end Pezhwan.WebAuthn
