import Mathlib.Data.List.Basic

-- Exclusive leases on keys. A shelf says which token it shows under a key at a
-- time; it has to show the tokens of the leases until their ends.
namespace Atomic
variable {ι κ ν : Type}

structure Lease (κ ν : Type) where
  key : κ
  token : ν
  ends : Int
  deriving DecidableEq, Repr

namespace Lease

def Alive (lease : Lease κ ν) (now : Nat) : Prop := (now : Int) < lease.ends

instance (lease : Lease κ ν) (now : Nat) : Decidable (lease.Alive now) := inferInstanceAs (Decidable ((now : Int) < lease.ends))

theorem Alive.earlier {lease : Lease κ ν} (alive : lease.Alive time) (before : now ≤ time) : lease.Alive now := by
  unfold Alive at alive ⊢
  omega

def Backed (shelf : κ → Nat → Option ν) (now : Nat) (lease : Lease κ ν) : Prop :=
  ∀ time, now ≤ time → lease.Alive time → shelf lease.key time = some lease.token

def AllBacked (shelf : κ → Nat → Option ν) (now : Nat) (leases : ι → Option (Lease κ ν)) : Prop :=
  ∀ i lease, leases i = some lease → lease.Backed shelf now

section
variable {shelf shelf' : κ → Nat → Option ν} {leases leases' : ι → Option (Lease κ ν)}

theorem AllBacked.pass (backed : AllBacked shelf now leases) (later : now ≤ now') : AllBacked shelf now' leases :=
  fun i lease held time after => backed i lease held time (Nat.le_trans later after)

theorem Backed.over {lease : Lease κ ν} (backed : lease.Backed shelf now) (other : shelf lease.key now ≠ some lease.token)
    (after : now ≤ time) : ¬ lease.Alive time :=
  fun alive => other (backed now (Nat.le_refl _) (alive.earlier after))

theorem AllBacked.step (backed : AllBacked shelf now leases)
    (each : ∀ i lease, leases' i = some lease → lease.Backed shelf' now ∨
      leases i = some lease ∧ ((∀ time, now ≤ time → shelf' lease.key time = shelf lease.key time) ∨
        shelf lease.key now ≠ some lease.token)) : AllBacked shelf' now leases' := by
  intro i lease held
  rcases each i lease held with fresh | ⟨before,untouched | replaced⟩
  · exact fresh
  · intro time after alive
    rw [untouched time after]
    exact backed i lease before time after alive
  · intro time after alive
    exact absurd alive ((backed i lease before).over replaced after)

theorem AllBacked.exclusive (backed : AllBacked shelf now leases) (one : leases i = some lease) (other : leases j = some lease')
    (same : lease.key = lease'.key) (alive : lease.Alive now) (alive' : lease'.Alive now) : lease.token = lease'.token := by
  have shown := backed i lease one now (Nat.le_refl _) alive
  have shown' := backed j lease' other now (Nat.le_refl _) alive'
  rw [same,shown'] at shown
  exact (Option.some.inj shown).symm

end
end Lease
end Atomic
