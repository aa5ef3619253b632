import Mathlib.Algebra.Group.Int.Defs
import Mathlib.Algebra.Group.Nat.Defs
import Mathlib.Data.Int.Order.Basic

namespace TcpUdpProxy.TwosComplement

def wrap (width : ℕ) (x : ℤ) : ℤ := x.bmod (2 ^ width)

def Fits (width : ℕ) (x : ℤ) : Prop := -2 ^ width ≤ x * 2 ∧ x * 2 < 2 ^ width

instance (width : ℕ) (x : ℤ) : Decidable (Fits width x) := inferInstanceAs (Decidable (_ ∧ _))

variable {width : ℕ} {x : ℤ}

theorem wrap_of_fits (h : Fits width x) : wrap width x = x := by
  obtain ⟨hlow, hhigh⟩ := h
  apply Int.bmod_eq_of_le_mul_two
  · simpa using hlow
  · simpa using hhigh

theorem fits_wrap (width : ℕ) (x : ℤ) : Fits width (wrap width x) := by
  have hpos : 0 < 2 ^ width := Nat.two_pow_pos width
  have hlow := Int.le_bmod (x := x) hpos
  have hhigh := Int.bmod_lt (x := x) hpos
  unfold Fits wrap
  push_cast at hlow hhigh ⊢
  omega

theorem wrap_emod (width : ℕ) (x : ℤ) : wrap width x % 2 ^ width = x % 2 ^ width := by
  have h := Int.bmod_emod (x := x) (m := 2 ^ width)
  push_cast at h
  exact h

theorem wrap_eq_iff {y : ℤ} (hy : Fits width y) : wrap width x = y ↔ x % 2 ^ width = y % 2 ^ width := by
  constructor
  · intro h
    rw [← h, wrap_emod]
  · intro h
    have hxy : (x % (2 ^ width : ℕ)) = y % (2 ^ width : ℕ) := by
      push_cast
      exact h
    calc wrap width x = (x % (2 ^ width : ℕ)).bmod (2 ^ width) := by rw [Int.emod_bmod]; rfl
      _ = (y % (2 ^ width : ℕ)).bmod (2 ^ width) := by rw [hxy]
      _ = y := by rw [Int.emod_bmod]; exact wrap_of_fits hy

end TcpUdpProxy.TwosComplement
