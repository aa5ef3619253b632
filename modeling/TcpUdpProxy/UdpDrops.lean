import TcpUdpProxy.UdpEndpoint
import TcpUdpProxy.Library.Residues

namespace TcpUdpProxy

namespace Xrandom

def globalRandMax : ℕ := 0x7FFFFFFF

/-- `rand k` is what the call of `rand` numbered `k` returns; none of them is above `randMax`. -/
def randInt32 (randMax : ℕ) (rand : ℕ → ℕ) : ℕ :=
  if randMax = 0x7FFF then (rand 0 % 2) <<< 30 ||| rand 1 <<< 15 ||| rand 2
  -- an unexpected RAND_MAX is reported and the value is used all the same
  else rand 0

def int32Range (randMax : ℕ) (rand : ℕ → ℕ) (min max : ℤ) : ℤ :=
  let max := if max < min then min else max
  (randInt32 randMax rand : ℤ).tmod (max - min + 1) + min

variable {randMax : ℕ} {rand : ℕ → ℕ} {min max : ℤ}

theorem randInt32_le (h : ∀ k, rand k ≤ randMax) (hmax : randMax ≤ globalRandMax) :
    randInt32 randMax rand ≤ globalRandMax := by
  unfold randInt32
  split
  · rename_i hwin
    have htop : (rand 0 % 2) <<< 30 < 2 ^ 31 := by
      rw [Nat.shiftLeft_eq]
      have := Nat.mod_lt (rand 0) two_pos
      omega
    have hmid : rand 1 <<< 15 < 2 ^ 31 := by
      rw [Nat.shiftLeft_eq]
      have := h 1
      omega
    have hlow : rand 2 < 2 ^ 31 := by
      have := h 2
      omega
    exact Nat.le_of_lt_succ (Nat.or_lt_two_pow (Nat.or_lt_two_pow htop hmid) hlow)
  · exact (h 0).trans hmax

theorem int32Range_eq (h : min ≤ max) :
    int32Range randMax rand min max = ((randInt32 randMax rand % (max - min + 1).toNat : ℕ) : ℤ) + min := by
  unfold int32Range
  dsimp only
  rw [if_neg (not_lt.mpr h), Int.tmod_eq_emod_of_nonneg (Int.natCast_nonneg _), Int.natCast_mod,
    Int.toNat_of_nonneg (by omega)]

theorem int32Range_mem (h : min ≤ max) :
    min ≤ int32Range randMax rand min max ∧ int32Range randMax rand min max ≤ max := by
  have hlt := Nat.mod_lt (randInt32 randMax rand) (show 0 < (max - min + 1).toNat by omega)
  rw [int32Range_eq h]
  omega

end Xrandom

namespace UdpEndpointProxy

open Xrandom Residues

variable {e : UdpEndpointProxy} {randMax : ℕ} {rand : ℕ → ℕ}

theorem recvQueue_handleRecv_eq_iff {r : RecvResult} (hr : r.error = .success) (now draw : ℤ)
    (outcome : InitOutcome) (nextBuf : BufId) (e : UdpEndpointProxy) :
    (e.handleRecv now draw outcome r nextBuf).1.recvQueue = e.recvQueue ↔ e.dropped draw = true := by
  unfold UdpEndpointProxy.handleRecv
  rw [if_neg (not_not.mpr hr)]
  dsimp only
  split
  · rename_i hdropped
    exact iff_of_true rfl hdropped
  · rename_i hkept
    apply iff_of_false
    · split <;> exact fun h => List.cons_ne_nil _ _ (List.append_right_eq_self.mp h)
    · exact hkept

/-- The rate of the rule in steps of one hundredth of a percent; the code tells no more of them apart. -/
def dropRate (e : UdpEndpointProxy) : ℕ := min e.proxyRule.dropProb.toNat 10000

theorem dropped_int32Range_iff :
    e.dropped (int32Range randMax rand 1 10000) = true ↔ randInt32 randMax rand % 10000 < e.dropRate := by
  have heq : int32Range randMax rand 1 10000 = ((randInt32 randMax rand % 10000 : ℕ) : ℤ) + 1 :=
    int32Range_eq (by decide)
  have hlt := Nat.mod_lt (randInt32 randMax rand) (show 0 < 10000 by decide)
  unfold dropped dropRate
  rw [heq, Bool.and_eq_true, decide_eq_true_iff, decide_eq_true_iff]
  omega

def dropDraws (now : Msec) (outcome : InitOutcome) (r : RecvResult) (nextBuf : BufId)
    (e : UdpEndpointProxy) : ℕ :=
  Nat.count (fun n => (e.handleRecv now (int32Range globalRandMax (fun _ => n) 1 10000) outcome r
    nextBuf).1.recvQueue = e.recvQueue) (globalRandMax + 1)

theorem dropDraws_eq {r : RecvResult} (hr : r.error = .success) (now : Msec) (outcome : InitOutcome)
    (nextBuf : BufId) (e : UdpEndpointProxy) :
    e.dropDraws now outcome r nextBuf = e.dropRate * 214748 + min e.dropRate 3648 := by
  have hrate : e.dropRate ≤ 10000 := min_le_right _ _
  have hcount := count_mod_lt (show 0 < 10000 by decide) hrate (globalRandMax + 1)
  unfold dropDraws
  simp only [recvQueue_handleRecv_eq_iff hr, dropped_int32Range_iff]
  exact hcount

theorem drop_share (e : UdpEndpointProxy) (now : Msec) (outcome : InitOutcome) {r : RecvResult}
    (nextBuf : BufId) (hr : r.error = .success) :
    e.dropDraws now outcome r nextBuf = e.dropRate * 214748 + min e.dropRate 3648 ∧
    e.dropRate * 2 ^ 31 ≤ e.dropDraws now outcome r nextBuf * 10000 ∧
    e.dropDraws now outcome r nextBuf * 10000 ≤ e.dropRate * 2 ^ 31 + 3648 * 6352 := by
  have hrate : e.dropRate ≤ 10000 := min_le_right _ _
  have heq := dropDraws_eq hr now outcome nextBuf e
  refine ⟨heq, ?_, ?_⟩
  · omega
  · omega

def tenPercent : UdpEndpointProxy :=
  create (fun _ => 0) { srcPort := 6500, dstEndpoint := ⟨1, 6500⟩, dropProb := 1000 } 1 .success 0

theorem drop_share_tenPercent :
    tenPercent.dropDraws 0 .success ⟨1, .success, 100⟩ 2 = 214749000 ∧
    1000 * 2 ^ 31 ≤ tenPercent.dropDraws 0 .success ⟨1, .success, 100⟩ 2 * 10000 ∧
    tenPercent.dropDraws 0 .success ⟨1, .success, 100⟩ 2 * 10000 ≤ 1000 * 2 ^ 31 + 3648 * 6352 :=
  drop_share tenPercent 0 .success 2 rfl

end UdpEndpointProxy

end TcpUdpProxy
