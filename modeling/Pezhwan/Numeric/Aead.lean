import Pezhwan.Numeric.Bytes
import Mathlib.Tactic.Common

-- Authenticated encryption, of which only this is known: under a key and an
-- initialisation vector of the right lengths what is decrypted was encrypted.
namespace Numeric

structure Aead where
  encrypt : (key iv aad message : Bytes) → Bytes × Bytes
  decrypt : (key iv aad ciphertext tag : Bytes) → Option Bytes
  sized (key iv aad message : Bytes) : key.length = 32 → iv.length = 12 → (encrypt key iv aad message).1.length = message.length
  tagged (key iv aad message : Bytes) : key.length = 32 → iv.length = 12 → (encrypt key iv aad message).2.length = 16
  opens {key iv aad message ciphertext tag : Bytes} : key.length = 32 → iv.length = 12 → tag.length = 16 →
    (decrypt key iv aad ciphertext tag = some message ↔ encrypt key iv aad message = (ciphertext,tag))

-- As many bytes as were asked for.
abbrev Drawn (count : Nat) := {bytes : Bytes // bytes.length = count}

namespace Aead
variable {aead : Aead} {key aad message payload : Bytes} {iv : Drawn 12}

def wrap (aead : Aead) (key : Bytes) (iv : Drawn 12) (aad message : Bytes) : Bytes :=
  let (ciphertext,tag) := aead.encrypt key iv aad message
  iv ++ tag ++ ciphertext

def unwrap (aead : Aead) (key aad payload : Bytes) : Option Bytes :=
  aead.decrypt key (payload.take 12) aad (payload.drop 28) ((payload.drop 12).take 16)

theorem wrap_length (aead : Aead) (iv : Drawn 12) (aad message : Bytes) (long : key.length = 32) : (aead.wrap key iv aad message).length = 28 + message.length := by
  have tag := aead.tagged key iv aad message long iv.property
  have ciphertext := aead.sized key iv aad message long iv.property
  simp only [wrap,List.length_append,iv.property,tag,ciphertext]

theorem unwrap_wrap (long : key.length = 32) : aead.unwrap key aad (aead.wrap key iv aad message) = some message := by
  have tag := aead.tagged key iv aad message long iv.property
  have first : (aead.wrap key iv aad message).take 12 = iv := by
    simp [wrap,iv.property]
  have second : ((aead.wrap key iv aad message).drop 12).take 16 = (aead.encrypt key iv aad message).2 := by
    simp [wrap,iv.property,tag]
  have third : (aead.wrap key iv aad message).drop 28 = (aead.encrypt key iv aad message).1 := by
    simp [wrap,List.drop_append,iv.property,tag]
  rw [unwrap,first,second,third]
  exact (aead.opens long iv.property tag).mpr rfl

theorem unwrap_length (long : key.length = 32) (room : 28 ≤ payload.length)
    (opened : aead.unwrap key aad payload = some message) : payload.length = 28 + message.length := by
  have vector : (payload.take 12).length = 12 := by
    rw [List.length_take]
    omega
  have tag : ((payload.drop 12).take 16).length = 16 := by
    rw [List.length_take,List.length_drop]
    omega
  have encrypted := (aead.opens long vector tag).mp opened
  have size := aead.sized key (payload.take 12) aad message long vector
  rw [encrypted,List.length_drop] at size
  omega

end Aead

end Numeric
