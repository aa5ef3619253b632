import TcpUdpProxy.Common
import TcpUdpProxy.Library.TwosComplement

namespace TcpUdpProxy

structure IPProxy where
  availBytes : PairId → ℤ
  refCnt : ℤ

def IPProxy.create : IPProxy := ⟨fun _ => 0, 0⟩

def IPProxy.charge (ip : IPProxy) (i : PairId) (amount : ℤ) : IPProxy :=
  { ip with availBytes := Function.update ip.availBytes i (ip.availBytes i - amount) }

/-- `IPProxies::getIPProxy`, which has no entries while neither direction is limited. -/
def getIPProxy (bandwidth : PairId → ℤ) (ipAddr : Address) : Option Address :=
  if bandwidth 0 = 0 ∧ bandwidth 1 = 0 then none else some ipAddr

def toInt (x : ℤ) : ℤ := TwosComplement.wrap 32 x

/-- `bytes[i]` of `IPProxies::routineThreadHandler`, which multiplies two `int`s. -/
def ipCredit (bandwidth : PairId → ℤ) (interval : ℤ) (i : PairId) : ℤ := (toInt (interval * bandwidth i)).tdiv 1000

theorem toInt_bounds (x : ℤ) : -2 ^ 31 ≤ toInt x ∧ toInt x < 2 ^ 31 := by
  have hfits := TwosComplement.fits_wrap 32 x
  unfold TwosComplement.Fits at hfits
  unfold toInt
  omega

theorem toInt_emod (x : ℤ) : toInt x % 2 ^ 32 = x % 2 ^ 32 := TwosComplement.wrap_emod 32 x

theorem toInt_nonneg {x : ℤ} : 0 ≤ toInt x ↔ x % 2 ^ 32 < 2 ^ 31 := by
  have hbounds := toInt_bounds x
  have hresidue := toInt_emod x
  omega

theorem ipCredit_nonneg {bandwidth : PairId → ℤ} {interval : ℤ} {i : PairId}
    (h : interval * bandwidth i % 2 ^ 32 < 2 ^ 31) : 0 ≤ ipCredit bandwidth interval i :=
  Int.tdiv_nonneg (toInt_nonneg.mpr h) (by decide)

theorem ipCredit_eq {bandwidth : PairId → ℤ} {interval : ℤ} {i : PairId}
    (h : TwosComplement.Fits 32 (interval * bandwidth i)) :
    ipCredit bandwidth interval i = (interval * bandwidth i).tdiv 1000 := by
  unfold ipCredit toInt
  rw [TwosComplement.wrap_of_fits h]

end TcpUdpProxy
