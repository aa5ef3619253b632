import Mathlib.Algebra.BigOperators.Group.List.Basic
import Mathlib.Algebra.Ring.Int.Defs
import Mathlib.Data.Int.Order.Basic

namespace TcpUdpProxy.QuotientSum

variable {m : ℤ}

def quotients (m : ℤ) (xs : List ℤ) : ℤ := (xs.map fun x => x / m).sum

def remainders (m : ℤ) (xs : List ℤ) : ℤ := (xs.map fun x => x % m).sum

theorem quotients_remainders (m : ℤ) (xs : List ℤ) : m * quotients m xs + remainders m xs = xs.sum := by
  induction xs with
  | nil => simp [quotients, remainders]
  | cons x xs ih =>
    have hfirst := Int.mul_ediv_add_emod x m
    simp only [quotients, remainders, List.map_cons, List.sum_cons, Int.mul_add] at ih ⊢
    omega

theorem remainders_nonneg (hm : 0 < m) (xs : List ℤ) : 0 ≤ remainders m xs := by
  induction xs with
  | nil => simp [remainders]
  | cons x xs ih =>
    have hfirst := Int.emod_nonneg x hm.ne'
    simp only [remainders, List.map_cons, List.sum_cons] at ih ⊢
    omega

theorem sum_ediv (hm : 0 < m) (xs : List ℤ) : xs.sum / m = quotients m xs + remainders m xs / m := by
  rw [← quotients_remainders m xs, Int.mul_add_ediv_left _ _ hm.ne']

end TcpUdpProxy.QuotientSum
