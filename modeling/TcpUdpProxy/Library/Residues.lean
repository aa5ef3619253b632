import Mathlib.Data.Nat.Count
import Mathlib.Tactic.Ring

namespace TcpUdpProxy.Residues

variable {d m : ℕ}

theorem count_lt (d n : ℕ) : Nat.count (fun k => k < d) n = min d n := by
  induction n with
  | zero => rw [Nat.count_zero, Nat.min_zero]
  | succ n ih =>
    rw [Nat.count_succ, ih]
    split
    · omega
    · omega

theorem count_below {n : ℕ} (hn : n ≤ m) : Nat.count (fun k => k % m < d) n = min d n := by
  rw [← count_lt]
  simp only [Nat.count_eq_card_filter_range]
  congr 1
  apply Finset.filter_congr
  intro k hk
  rw [Nat.mod_eq_of_lt ((Finset.mem_range.mp hk).trans_le hn)]

theorem count_mod_lt (hm : 0 < m) (hd : d ≤ m) (n : ℕ) :
    Nat.count (fun k => k % m < d) n = d * (n / m) + min d (n % m) := by
  have hrounds : ∀ q s, s ≤ m → Nat.count (fun k => k % m < d) (m * q + s) = d * q + min d s := by
    intro q s hs
    induction q with
    | zero =>
      rw [Nat.mul_zero, Nat.mul_zero, Nat.zero_add, Nat.zero_add]
      exact count_below hs
    | succ q ih =>
      have hsplit : m * (q + 1) + s = m + (m * q + s) := by ring
      have hround : Nat.count (fun k => k % m < d) m = d := (count_below le_rfl).trans (min_eq_left hd)
      rw [hsplit, Nat.count_add, hround]
      simp only [Nat.add_mod_left]
      rw [ih]
      ring
  have hn := hrounds (n / m) (n % m) (Nat.mod_lt n hm).le
  rwa [Nat.div_add_mod] at hn

end TcpUdpProxy.Residues
