import TcpUdpProxy.IpThreads
import TcpUdpProxy.Library.TwosComplement
import TcpUdpProxy.TcpProxy
import TcpUdpProxy.UdpServer

namespace TcpUdpProxy

open TwosComplement

def maxInt : ℤ := 2147483647

def toInt64 (x : ℤ) : ℤ := wrap 64 x

/-- The product of a `msec_t` and an `int`, divided and then narrowed to `int`. -/
def narrowedBytes (interval bandwidth : ℤ) : ℤ := toInt ((toInt64 (interval * bandwidth)).tdiv 1000)

/-- `flush_bytes` of `TcpProxy::handleWait`. -/
def tcpFlushBytes (proxyRule : TcpProxyRule) (interval : Msec) : ℤ :=
  narrowedBytes interval proxyRule.maxBandwidth

/-- `bytes` of `UdpProxyServer::routineThreadHandler`. -/
def udpBytes (proxyRule : UdpProxyRule) (interval : Msec) : ℤ :=
  narrowedBytes interval proxyRule.maxBandwidth

/-- `bytes[i]` of `IPProxies::routineThreadHandler`, whose `interval` is an `int` and is narrowed first. -/
def ipBytes (bandwidth : PairId → ℤ) (i : PairId) (sinceFlush : Msec) : Option ℤ :=
  let interval := toInt sinceFlush
  if interval ≤ 0 then none else some (ipCredit bandwidth interval i)

def floorBytes (interval bandwidth : ℤ) : ℤ := interval * bandwidth / 1000

structure Faithful (bytes interval bandwidth : ℤ) : Prop where
  value : bytes = floorBytes interval bandwidth ∨ bytes = maxInt ∧ maxInt ≤ floorBytes interval bandwidth
  nonneg : 0 ≤ bytes
  raises : ∀ available < 0, available ≤ available + bytes

variable {interval bandwidth bytes : ℤ}

theorem floorBytes_nonneg (hinterval : 0 < interval) (hbandwidth : 0 < bandwidth) :
    0 ≤ floorBytes interval bandwidth :=
  Int.ediv_nonneg (Int.mul_pos hinterval hbandwidth).le (by decide)

theorem faithful_iff (hinterval : 0 < interval) (hbandwidth : 0 < bandwidth) :
    Faithful bytes interval bandwidth ↔
      bytes = floorBytes interval bandwidth ∨ bytes = maxInt ∧ maxInt ≤ floorBytes interval bandwidth := by
  constructor
  · exact Faithful.value
  · intro hvalue
    have hfloor := floorBytes_nonneg hinterval hbandwidth
    have hnonneg : 0 ≤ bytes := by
      rcases hvalue with rfl | ⟨rfl, -⟩
      · exact hfloor
      · decide
    exact ⟨hvalue, hnonneg, fun available _ => by omega⟩

def Narrows (interval bandwidth : ℤ) : Prop :=
  interval * bandwidth < 1000 * 2 ^ 31 ∨
    (toInt64 (interval * bandwidth)).tdiv 1000 % 2 ^ 32 = maxInt

instance (interval bandwidth : ℤ) : Decidable (Narrows interval bandwidth) :=
  inferInstanceAs (Decidable (_ ∨ _))

theorem floorBytes_lt : floorBytes interval bandwidth < 2 ^ 31 ↔ interval * bandwidth < 1000 * 2 ^ 31 := by
  unfold floorBytes
  omega

theorem narrowedBytes_lt (interval bandwidth : ℤ) : narrowedBytes interval bandwidth < 2 ^ 31 := by
  have hfits := fits_wrap 32 ((toInt64 (interval * bandwidth)).tdiv 1000)
  unfold narrowedBytes toInt
  unfold Fits at hfits
  omega

theorem narrowedBytes_of_lt (hinterval : 0 < interval) (hbandwidth : 0 < bandwidth)
    (hlt : interval * bandwidth < 1000 * 2 ^ 31) :
    narrowedBytes interval bandwidth = (interval * bandwidth).tdiv 1000 := by
  have hpos := Int.mul_pos hinterval hbandwidth
  have hdiv : (interval * bandwidth).tdiv 1000 = interval * bandwidth / 1000 :=
    Int.tdiv_eq_ediv_of_nonneg hpos.le
  unfold narrowedBytes toInt toInt64
  have hfits : Fits 64 (interval * bandwidth) := by
    unfold Fits
    omega
  rw [wrap_of_fits hfits, hdiv]
  exact wrap_of_fits (by unfold Fits; omega)

theorem narrowedBytes_eq_maxInt : narrowedBytes interval bandwidth = maxInt ↔
    (toInt64 (interval * bandwidth)).tdiv 1000 % 2 ^ 32 = maxInt := by
  unfold narrowedBytes toInt
  rw [wrap_eq_iff (by decide)]
  rfl

theorem narrowed_faithful (hinterval : 0 < interval) (hbandwidth : 0 < bandwidth) :
    Faithful (narrowedBytes interval bandwidth) interval bandwidth ↔ Narrows interval bandwidth := by
  rw [faithful_iff hinterval hbandwidth]
  unfold Narrows
  rw [← narrowedBytes_eq_maxInt]
  by_cases hlt : interval * bandwidth < 1000 * 2 ^ 31
  · have hpos := Int.mul_pos hinterval hbandwidth
    have hvalue : narrowedBytes interval bandwidth = floorBytes interval bandwidth :=
      (narrowedBytes_of_lt hinterval hbandwidth hlt).trans (Int.tdiv_eq_ediv_of_nonneg hpos.le)
    exact ⟨fun _ => .inl hlt, fun _ => .inl hvalue⟩
  · have hfloor : 2 ^ 31 ≤ floorBytes interval bandwidth := not_lt.mp fun h => hlt (floorBytes_lt.mp h)
    have hnarrow := narrowedBytes_lt interval bandwidth
    constructor
    · rintro (hvalue | ⟨hmax, -⟩)
      · omega
      · exact .inr hmax
    · rintro (h | hmax)
      · exact absurd h hlt
      · refine .inr ⟨hmax, ?_⟩
        unfold maxInt
        omega

/-- The interval is not a positive `int`, so that the tick is skipped, or the product fits an `int`. -/
def IpNarrows (sinceFlush bandwidth : ℤ) : Prop :=
  toInt sinceFlush ≤ 0 ∨ sinceFlush * bandwidth < 2 ^ 31

instance (sinceFlush bandwidth : ℤ) : Decidable (IpNarrows sinceFlush bandwidth) :=
  inferInstanceAs (Decidable (_ ∨ _))

theorem toInt_of_lt (hinterval : 0 < interval) (hlt : interval < 2 ^ 31) : toInt interval = interval :=
  wrap_of_fits (by unfold Fits; omega)

theorem toInt_tdiv_eq_iff {product : ℤ} (hpos : 0 < product) :
    (toInt product).tdiv 1000 = product / 1000 ↔ product < 2 ^ 31 := by
  constructor
  · intro h
    by_contra hlt
    have hbounds := toInt_bounds product
    have hresidue := toInt_emod product
    by_cases hneg : toInt product < 0
    · have hquotient : (toInt product).tdiv 1000 ≤ 0 := Int.tdiv_le_tdiv (by decide) hneg.le
      omega
    · rw [Int.tdiv_eq_ediv_of_nonneg (not_lt.mp hneg)] at h
      omega
  · intro hlt
    rw [toInt_of_lt hpos hlt]
    exact Int.tdiv_eq_ediv_of_nonneg hpos.le

theorem ipBytes_lt {i : PairId} {bandwidths : PairId → ℤ} {sinceFlush : ℤ}
    (h : ipBytes bandwidths i sinceFlush = some bytes) : bytes ≤ maxInt / 1000 := by
  unfold ipBytes at h
  dsimp only at h
  split at h
  · cases h
  · cases h
    have hbound : toInt (toInt sinceFlush * bandwidths i) ≤ maxInt :=
      Int.le_sub_one_of_lt (toInt_bounds _).2
    exact Int.tdiv_le_tdiv (by decide) hbound

theorem le_product (hinterval : 0 < interval) (hbandwidth : 0 < bandwidth) :
    interval ≤ interval * bandwidth := by
  have h : interval * 1 ≤ interval * bandwidth := Int.mul_le_mul_of_nonneg_left hbandwidth hinterval.le
  omega

theorem ip_faithful {i : PairId} {bandwidths : PairId → ℤ} {sinceFlush : ℤ}
    (hsince : 0 < sinceFlush) (hbandwidth : 0 < bandwidths i) :
    (∀ bytes ∈ ipBytes bandwidths i sinceFlush, Faithful bytes sinceFlush (bandwidths i)) ↔
      IpNarrows sinceFlush (bandwidths i) := by
  unfold IpNarrows
  by_cases hskip : toInt sinceFlush ≤ 0
  · have hnone : ipBytes bandwidths i sinceFlush = none := if_pos hskip
    simp [hnone, hskip]
  have hsome : ipBytes bandwidths i sinceFlush =
    some ((toInt (toInt sinceFlush * bandwidths i)).tdiv 1000) := if_neg hskip
  have hsmall := ipBytes_lt hsome
  have hpos : 0 < sinceFlush * bandwidths i := Int.mul_pos hsince hbandwidth
  have hle : sinceFlush ≤ sinceFlush * bandwidths i := le_product hsince hbandwidth
  have hfaithful : (∀ bytes ∈ ipBytes bandwidths i sinceFlush, Faithful bytes sinceFlush (bandwidths i)) ↔
      (toInt (toInt sinceFlush * bandwidths i)).tdiv 1000 = sinceFlush * bandwidths i / 1000 := by
    rw [hsome]
    simp only [Option.mem_some_iff, forall_eq', faithful_iff hsince hbandwidth]
    constructor
    · rintro (hvalue | ⟨hmax, -⟩)
      · exact hvalue
      · rw [hmax] at hsmall
        exact absurd hsmall (by decide)
    · exact .inl
  rw [hfaithful]
  by_cases hlong : sinceFlush < 2 ^ 31
  · rw [toInt_of_lt hsince hlong, toInt_tdiv_eq_iff hpos]
    simp [hsince.not_ge]
  · -- such an interval is positive as an `int` only after a whole turn of the 32 bits
    have hbounds := toInt_bounds sinceFlush
    have hresidue := toInt_emod sinceFlush
    unfold maxInt at hsmall
    constructor
    · intro h
      omega
    · rintro (h | h)
      · exact absurd h hskip
      · omega

theorem tcpFlushBytes_eq {cfg : TcpProxy.Config} {w : TcpProxy.World}
    (helapsed : 0 < w.clock - w.lastFlushTm) (hlimit : 0 < cfg.proxyRule.maxBandwidth)
    (hlt : (w.clock - w.lastFlushTm) * cfg.proxyRule.maxBandwidth < 1000 * 2 ^ 31) :
    tcpFlushBytes cfg.proxyRule (w.clock - w.lastFlushTm) = w.flushBytes cfg :=
  narrowedBytes_of_lt helapsed hlimit hlt

theorem udpBytes_eq {e : UdpEndpointProxy} {interval : Msec} (hinterval : 0 < interval)
    (hlimit : UdpServer.limited e) (hlt : interval * e.proxyRule.maxBandwidth < 1000 * 2 ^ 31) :
    UdpServer.credit interval e =
      { e with
        recvAvailBytes :=
          if e.recvAvailBytes < 0 then e.recvAvailBytes + udpBytes e.proxyRule interval else e.recvAvailBytes
        sendAvailBytes :=
          if e.sendAvailBytes < 0 then e.sendAvailBytes + udpBytes e.proxyRule interval
          else e.sendAvailBytes } := by
  have hpos : 0 < e.proxyRule.maxBandwidth := by
    simp only [UdpServer.limited, Bool.and_eq_true, decide_eq_true_eq] at hlimit
    exact hlimit.2
  have hbytes : udpBytes e.proxyRule interval = (interval * e.proxyRule.maxBandwidth).tdiv 1000 :=
    narrowedBytes_of_lt hinterval hpos hlt
  rw [hbytes]
  exact if_pos hlimit

theorem credits_faithful (tcpRule : TcpProxyRule) (udpRule : UdpProxyRule) (bandwidths : PairId → ℤ)
    (i : PairId) (elapsed : Msec) (helapsed : 0 < elapsed) (htcp : 0 < tcpRule.maxBandwidth)
    (hudp : 0 < udpRule.maxBandwidth) (hip : 0 < bandwidths i) :
    (Faithful (tcpFlushBytes tcpRule elapsed) elapsed tcpRule.maxBandwidth ↔
      Narrows elapsed tcpRule.maxBandwidth) ∧
    (Faithful (udpBytes udpRule elapsed) elapsed udpRule.maxBandwidth ↔
      Narrows elapsed udpRule.maxBandwidth) ∧
    ((∀ bytes ∈ ipBytes bandwidths i elapsed, Faithful bytes elapsed (bandwidths i)) ↔
      IpNarrows elapsed (bandwidths i)) :=
  ⟨narrowed_faithful helapsed htcp, narrowed_faithful helapsed hudp, ip_faithful helapsed hip⟩

def oneMegabyte : TcpProxyRule := ⟨3443, ⟨1, 3443⟩, 1000000, 0⟩

theorem credits_faithful_oneMegabyte : Faithful (tcpFlushBytes oneMegabyte 10) 10 1000000 :=
  (credits_faithful oneMegabyte ⟨6500, ⟨1, 6500⟩, 1000000, 0, 0⟩ (fun _ => 1000000) 0 10 (by decide)
    (by decide) (by decide) (by decide)).1.mpr (by decide)

theorem ipBytes_wraps : ¬ ∀ (bandwidths : PairId → ℤ) (i : PairId) (elapsed : Msec), 0 < elapsed →
    0 < bandwidths i → bandwidths i ≤ maxInt →
    ∀ bytes ∈ ipBytes bandwidths i elapsed, Faithful bytes elapsed (bandwidths i) := by
  intro hclaim
  have hbytes : ipBytes (fun _ => 300000000) 0 10 = some (-1294967) := by decide
  have hnonneg := (hclaim (fun _ => 300000000) 0 10 (by decide) (by decide) (by decide) _ hbytes).nonneg
  exact absurd hnonneg (by decide)

end TcpUdpProxy
