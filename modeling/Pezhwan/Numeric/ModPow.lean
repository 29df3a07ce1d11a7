import Mathlib.Algebra.BigOperators.Group.Finset.Basic
import Mathlib.Data.Nat.ModEq

-- Powers modulo a number, bit by bit from the lowest.
namespace Numeric

def squareMultiply (mod exp base result : Nat) : Nat :=
  if exp = 0 then result
  else squareMultiply mod (exp / 2) (base * base % mod) (if exp % 2 = 1 then result * base % mod else result)
termination_by exp

theorem squareMultiply_congr (mod exp base result : Nat) :
    squareMultiply mod exp base result ≡ result * base ^ exp [MOD mod] := by
  induction exp using Nat.strongRecOn generalizing base result with
  | _ exp ih =>
    rw [squareMultiply]
    split
    · rename_i zero
      rw [zero,pow_zero,mul_one]
    · rename_i positive
      have half := ih (exp / 2) (by omega) (base * base % mod) (if exp % 2 = 1 then result * base % mod else result)
      have square : (base * base % mod) ^ (exp / 2) ≡ base ^ (2 * (exp / 2)) [MOD mod] := by
        rw [pow_mul,pow_two]
        exact (Nat.mod_modEq _ _).pow _
      refine half.trans ?_
      rcases Nat.mod_two_eq_zero_or_one exp with even | odd
      · rw [if_neg (by omega)]
        refine (square.mul_left result).trans ?_
        have whole : 2 * (exp / 2) = exp := by omega
        rw [whole]
      · rw [if_pos odd]
        refine ((Nat.mod_modEq (result * base) mod).mul square).trans ?_
        have whole : exp = 2 * (exp / 2) + 1 := by omega
        conv_rhs => rw [whole,pow_succ']
        rw [mul_assoc]

theorem squareMultiply_lt (small : result < mod) : squareMultiply mod exp base result < mod := by
  induction exp using Nat.strongRecOn generalizing base result with
  | _ exp ih =>
    rw [squareMultiply]
    split
    · exact small
    · apply ih (exp / 2) (by omega)
      split
      · exact Nat.mod_lt _ (by omega)
      · exact small

theorem squareMultiply_one (mod exp base : Nat) (large : 1 < mod) : squareMultiply mod exp base 1 = base ^ exp % mod := by
  have same := squareMultiply_congr mod exp base 1
  rw [one_mul] at same
  rw [← Nat.mod_eq_of_lt (@squareMultiply_lt 1 mod exp base large)]
  exact same

end Numeric
