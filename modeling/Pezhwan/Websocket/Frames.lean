import Pezhwan.Websocket.Reading
import Pezhwan.Numeric.Bytes

namespace Pezhwan.Websocket
open Numeric

-- The frames of RFC 6455, section 5.2.
inductive Opcode where
  | continuation
  | text
  | binary
  | close
  | ping
  | pong
  | reserved (control : Bool) (place : Fin 5)
  deriving DecidableEq, Repr

def Opcode.code : Opcode → ℕ
  | .continuation => 0
  | .text => 1
  | .binary => 2
  | .close => 8
  | .ping => 9
  | .pong => 10
  | .reserved control place => if control then 11 + place.val else 3 + place.val

-- Where the length of the payload stands.
inductive Width where
  | short
  | word
  | long
  deriving DecidableEq, Repr

def Width.limit : Width → ℕ
  | .short => 126
  | .word => 2 ^ 16
  | .long => 2 ^ 64

structure Frame where
  fin : Bool
  rsv : Fin 8
  opcode : Opcode
  mask : Option (Fin 4 → UInt8)
  width : Width
  payload : Bytes
  fits : payload.length < width.limit

namespace Frame

def first (frame : Frame) : UInt8 := UInt8.ofNat ((if frame.fin then 128 else 0) + 16 * frame.rsv.val + frame.opcode.code)

def indicator (frame : Frame) : ℕ :=
  match frame.width with
  | .short => frame.payload.length
  | .word => 126
  | .long => 127

def second (frame : Frame) : UInt8 := UInt8.ofNat ((if frame.mask.isSome then 128 else 0) + frame.indicator)

def extended (frame : Frame) : Bytes :=
  match frame.width with
  | .short => []
  | .word => bigEndian 2 frame.payload.length
  | .long => bigEndian 8 frame.payload.length

def header (frame : Frame) : Bytes := frame.first :: frame.second :: frame.extended

-- Octet i of the payload is transformed with octet i modulo 4 of the key.
def masking (key : Fin 4 → UInt8) (payload : Bytes) : Bytes := payload.mapIdx fun i octet => octet ^^^ key (Fin.ofNat 4 i)

def body (frame : Frame) : Bytes :=
  match frame.mask with
  | none => frame.payload
  | some key => List.ofFn key ++ masking key frame.payload

def encode (frame : Frame) : Bytes := frame.header ++ frame.body

-- Larger than the server accepts, or than its four bytes of length can say.
def oversize (maxPayload : ℕ) (frame : Frame) : Prop := maxPayload < frame.payload.length ∨ 2 ^ 32 ≤ frame.payload.length

instance (maxPayload : ℕ) (frame : Frame) : Decidable (frame.oversize maxPayload) := inferInstanceAs (Decidable (_ ∨ _))

end Frame

namespace Frame
variable (frame : Frame)

theorem indicator_lt : frame.indicator < 128 := by
  have fits := frame.fits
  unfold indicator
  cases width : frame.width with
  | short =>
    rw [width] at fits
    exact Nat.lt_trans fits (by decide)
  | word => exact (by decide : 126 < 128)
  | long => exact (by decide : 127 < 128)

theorem code_lt (opcode : Opcode) : opcode.code < 16 := by
  cases opcode with
  | reserved control place =>
    have within := place.isLt
    cases control with
    | true => exact Nat.lt_of_lt_of_le (Nat.add_lt_add_left within 11) (by decide)
    | false => exact Nat.lt_of_lt_of_le (Nat.add_lt_add_left within 3) (by decide)
  | _ => decide

theorem first_low : (frame.first &&& 0x0f).toNat = frame.opcode.code := by
  have small := code_lt frame.opcode
  have rsv := frame.rsv.isLt
  rw [low_four,first,UInt8.toNat_ofNat']
  split <;> omega

theorem second_low : (frame.second &&& 0x7f).toNat = frame.indicator := by
  have small := frame.indicator_lt
  rw [low_seven,second,UInt8.toNat_ofNat']
  split <;> omega

theorem second_high : frame.second &&& 0x80 ≠ 0 ↔ frame.mask.isSome := by
  have small := frame.indicator_lt
  rw [high_bit,second,UInt8.toNat_ofNat']
  split
  · rename_i masked
    simp only [masked,iff_true]
    omega
  · rename_i plain
    refine iff_of_false ?_ plain
    omega

theorem length_read (rest : Bytes) :
    readLength frame.second (frame.header ++ rest) =
      if 2 ^ 32 ≤ frame.payload.length then .high else .known frame.payload.length frame.header.length := by
  have fits := frame.fits
  unfold readLength
  rw [second_low]
  unfold header indicator extended
  cases width : frame.width with
  | short =>
    rw [width] at fits
    have small : frame.payload.length < 126 := fits
    dsimp only
    rw [if_neg (by omega),if_neg (by omega),if_neg (by omega)]
    rfl
  | word =>
    rw [width] at fits
    have small : frame.payload.length < 256 ^ 2 := fits
    dsimp only
    have taken : (bigEndian 2 frame.payload.length ++ rest).take 2 = bigEndian 2 frame.payload.length := by
      rw [List.take_append_of_le_length (by rw [bigEndian_length]),List.take_of_length_le (by rw [bigEndian_length])]
    simp only [if_true,List.cons_append,List.length_cons,List.length_append,bigEndian_length,List.drop_succ_cons,List.drop_zero,taken,
      numberOfBytes_bigEndian small]
    rw [if_neg (by omega),if_neg (by omega)]
  | long =>
    rw [width] at fits
    have small : frame.payload.length < 2 ^ 64 := fits
    have high : frame.payload.length / 256 ^ 4 < 256 ^ 4 := Nat.div_lt_of_lt_mul (by omega)
    have halves : bigEndian 8 frame.payload.length = bigEndian 4 (frame.payload.length / 256 ^ 4) ++ bigEndian 4 frame.payload.length :=
      bigEndian_add 4 4 frame.payload.length
    have one : ((bigEndian 8 frame.payload.length ++ rest).take 4) = bigEndian 4 (frame.payload.length / 256 ^ 4) := by
      rw [halves,List.append_assoc,List.take_append_of_le_length (by rw [bigEndian_length]),
        List.take_of_length_le (by rw [bigEndian_length])]
    have two : ((bigEndian 8 frame.payload.length ++ rest).drop 4).take 4 = bigEndian 4 frame.payload.length := by
      rw [halves,List.append_assoc,List.drop_append_of_le_length (by rw [bigEndian_length]),
        List.drop_of_length_le (by rw [bigEndian_length]),List.nil_append,List.take_append_of_le_length (by rw [bigEndian_length]),
        List.take_of_length_le (by rw [bigEndian_length])]
    dsimp only
    simp only [List.cons_append,List.length_cons,List.length_append,bigEndian_length,List.drop_succ_cons,List.drop_zero,one,two,
      numberOfBytes_bigEndian high]
    rw [if_neg (by omega),if_pos trivial,if_neg (by omega)]
    by_cases large : 2 ^ 32 ≤ frame.payload.length
    · have some_ : frame.payload.length / 256 ^ 4 ≠ 0 := by omega
      rw [if_pos large,if_pos some_]
    · have none : ¬frame.payload.length / 256 ^ 4 ≠ 0 := by omega
      rw [if_neg large,if_neg none,numberOfBytes_bigEndian (by omega)]

theorem unmask_masking (key : Fin 4 → UInt8) (payload : Bytes) : unmask (List.ofFn key) (masking key payload) = payload := by
  unfold unmask masking
  refine List.ext_getElem? fun i => ?_
  simp only [List.getElem?_mapIdx]
  cases payload[i]? with
  | none => rfl
  | some octet =>
    have within : i % 4 < 4 := Nat.mod_lt i (by decide)
    have same : (List.ofFn key).getD (i % 4) 0 = key (Fin.ofNat 4 i) := by
      rw [List.getD_eq_getElem?_getD,List.getElem?_ofFn,dif_pos within]
      rfl
    simp only [Option.map_some,same,UInt8.xor_assoc,UInt8.xor_self,UInt8.xor_zero]

theorem masking_length (key : Fin 4 → UInt8) (payload : Bytes) : (masking key payload).length = payload.length := List.length_mapIdx

theorem maskLen_second : maskLen frame.second = if frame.mask.isSome then 4 else 0 := by
  unfold maskLen
  by_cases masked : frame.mask.isSome
  · rw [if_pos (frame.second_high.mpr masked),if_pos masked]
  · rw [if_neg (fun high => masked (frame.second_high.mp high)),if_neg masked]

theorem body_length : frame.body.length = maskLen frame.second + frame.payload.length := by
  rw [maskLen_second]
  unfold body
  cases frame.mask with
  | none => simp
  | some key => simp only [Option.isSome_some,if_true,List.length_append,List.length_ofFn,masking_length]

theorem payload_read (rest : Bytes) :
    Websocket.payload frame.second (frame.header ++ (frame.body ++ rest)) frame.payload.length frame.header.length = frame.payload := by
  unfold Websocket.payload
  rw [List.drop_left]
  cases mask : frame.mask with
  | none =>
    rw [if_neg (fun high => by simpa [mask] using frame.second_high.mp high)]
    simp [body,mask]
  | some key =>
    have body_ : frame.body = List.ofFn key ++ masking key frame.payload := by
      unfold body
      rw [mask]
    have after : (frame.header ++ (frame.body ++ rest)).drop (frame.header.length + 4) = masking key frame.payload ++ rest := by
      rw [← List.drop_drop,List.drop_left,body_,List.append_assoc]
      exact List.drop_left' (List.length_ofFn)
    rw [if_pos (frame.second_high.mpr (by rw [mask]; rfl)),after,body_,List.append_assoc,List.take_left' (List.length_ofFn),
      List.take_left' (masking_length key frame.payload),unmask_masking]

theorem readFrame_header (maxPayload : ℕ) (rest : Bytes) :
    readFrame maxPayload (frame.header ++ rest) =
      readBody maxPayload frame.first frame.second (frame.header ++ rest)
        (if 2 ^ 32 ≤ frame.payload.length then .high else .known frame.payload.length frame.header.length) := by
  rw [← length_read]
  rfl

theorem read_oversize (large : frame.oversize maxPayload) (rest : Bytes) : readFrame maxPayload (frame.header ++ rest) = .oversize := by
  rw [readFrame_header]
  by_cases huge : 2 ^ 32 ≤ frame.payload.length
  · rw [if_pos huge]
    rfl
  · rw [if_neg huge]
    exact if_pos (large.resolve_right huge)

theorem read_encode (small : ¬frame.oversize maxPayload) (rest : Bytes) :
    readFrame maxPayload (frame.encode ++ rest) = .frame frame.opcode.code frame.payload rest := by
  have length := frame.body_length
  have within : frame.payload.length ≤ maxPayload := Nat.le_of_not_lt fun beyond => small (.inl beyond)
  unfold encode
  rw [List.append_assoc,readFrame_header,if_neg fun huge => small (.inr huge)]
  unfold readBody
  dsimp only
  rw [if_neg (by omega),if_neg (by simp only [List.length_append]; omega),payload_read,first_low]
  congr 1
  rw [Nat.add_assoc,← List.drop_drop,List.drop_left,← length,List.drop_left]

theorem header_of_width : frame.header.length = match frame.width with | .short => 2 | .word => 4 | .long => 10 := by
  unfold header extended
  cases frame.width <;> simp [bigEndian_length]

theorem length_short (cut : n + 2 < frame.header.length) :
    readLength frame.second (frame.first :: frame.second :: frame.extended.take n) = .short := by
  have length := frame.header_of_width
  have size : (frame.first :: frame.second :: frame.extended.take n).length = n + 2 := by
    simp only [header,List.length_cons] at cut
    simp only [List.length_cons,List.length_take]
    omega
  unfold readLength
  rw [second_low,size]
  unfold indicator
  cases width : frame.width with
  | short =>
    rw [width] at length
    dsimp only at length
    omega
  | word =>
    rw [width] at length
    dsimp only at length ⊢
    rw [if_pos rfl,if_pos (by omega)]
  | long =>
    rw [width] at length
    dsimp only at length ⊢
    rw [if_neg (by omega),if_pos rfl,if_pos (by omega)]

theorem read_headless (cut : n < frame.header.length) : readFrame maxPayload (frame.encode.take n) = .wait := by
  have taken : frame.encode.take n = frame.header.take n := by
    unfold encode
    exact List.take_append_of_le_length (by omega)
  rw [taken]
  unfold header
  cases n with
  | zero => rfl
  | succ n =>
    cases n with
    | zero => rfl
    | succ n => exact congrArg (readBody maxPayload frame.first frame.second _) (frame.length_short cut)

theorem read_part (small : ¬frame.oversize maxPayload) (cut : n < frame.encode.length) :
    readFrame maxPayload (frame.encode.take n) = .wait := by
  have whole := frame.read_encode small []
  rw [List.append_nil] at whole
  have split_ := List.take_append_drop n frame.encode
  cases read : readFrame maxPayload (frame.encode.take n) with
  | wait => rfl
  | oversize =>
    have refused := readFrame_oversize (frame.encode.drop n) read
    rw [split_,whole] at refused
    cases refused
  | frame opcode content rest =>
    have framed := readFrame_append (frame.encode.drop n) read
    rw [split_,whole] at framed
    injection framed with _ _ left
    have gone := congrArg List.length left
    simp only [List.length_nil,List.length_append,List.length_drop] at gone
    omega

end Frame
end Pezhwan.Websocket
