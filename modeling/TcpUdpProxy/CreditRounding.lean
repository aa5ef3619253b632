import TcpUdpProxy.IpThreads
import TcpUdpProxy.Library.QuotientSum
import TcpUdpProxy.TcpProxy
import TcpUdpProxy.UdpBudget

namespace TcpUdpProxy

open Execution QuotientSum UdpEndpointProxy

def refilling {σ : Type} (level : σ → ℤ) (refill : Msec → σ → σ) (s : σ) (interval : Msec) : Option σ :=
  if level s < 0 then some (refill interval s) else none

def tickCredit (bandwidth interval : ℤ) : ℤ := (interval * bandwidth).tdiv 1000

def tcpRefill (proxy : ProxyView) (p : PairId) (interval : Msec) (f : Frame) : Frame :=
  TcpConnection.creditPair proxy (tickCredit proxy.proxyRule.maxBandwidth interval) p f

def ipRefill (bandwidth : PairId → ℤ) (interval : Msec) (ip : IPProxy) : IPProxy :=
  IpThreads.refill (fun i => tickCredit (bandwidth i) interval) ip

def WithinOne (bandwidth : ℤ) (intervals : List Msec) (credited : ℤ) : Prop :=
  bandwidth * intervals.sum / 1000 - 1 ≤ credited ∧ credited ≤ bandwidth * intervals.sum / 1000 + 1

def KeepsRate (bandwidth : ℤ) (intervals : List Msec) : Prop :=
  (intervals.map fun d => d * bandwidth % 1000).sum < 2000

instance (bandwidth : ℤ) (intervals : List Msec) : Decidable (KeepsRate bandwidth intervals) :=
  inferInstanceAs (Decidable (_ < _))

section refills

variable {σ : Type} {I : σ → Prop} {level : σ → ℤ} {refill : Msec → σ → σ} {bandwidth : ℤ}
  {intervals : List Msec} {s s' : σ}

theorem level_refilling (hkeep : ∀ d s, I s → I (refill d s))
    (hcredit : ∀ d s, I s → level s < 0 → level (refill d s) = level s + tickCredit bandwidth d)
    (h : exec (refilling level refill) s intervals = some s') (hs : I s) :
    level s' = level s + (intervals.map (tickCredit bandwidth)).sum := by
  induction intervals generalizing s with
  | nil =>
    cases h
    simp
  | cons d intervals ih =>
    obtain ⟨t, ht, h⟩ := exec_cons_some.mp h
    simp only [refilling, Option.ite_none_right_eq_some, Option.some.injEq] at ht
    obtain ⟨hnegative, rfl⟩ := ht
    have hrest := ih h (hkeep d s hs)
    rw [hcredit d s hs hnegative] at hrest
    rw [List.map_cons, List.sum_cons, hrest]
    omega

theorem sum_products (bandwidth : ℤ) (intervals : List Msec) :
    (intervals.map fun d => d * bandwidth).sum = bandwidth * intervals.sum := by
  induction intervals with
  | nil => simp
  | cons d intervals ih => rw [List.map_cons, List.sum_cons, List.sum_cons, ih, Int.mul_add, Int.mul_comm d]

theorem sum_tickCredit (hbandwidth : 1 ≤ bandwidth) (hintervals : ∀ d ∈ intervals, 1 ≤ d) :
    (intervals.map (tickCredit bandwidth)).sum = quotients 1000 (intervals.map fun d => d * bandwidth) := by
  have heach : intervals.map (tickCredit bandwidth) = intervals.map fun d => d * bandwidth / 1000 := by
    apply List.map_congr_left
    intro d hd
    have hd' : 0 < d := hintervals d hd
    exact Int.tdiv_eq_ediv_of_nonneg (Int.mul_pos hd' hbandwidth).le
  rw [heach, quotients, List.map_map]
  rfl

theorem refilling_within_one (hkeep : ∀ d s, I s → I (refill d s))
    (hcredit : ∀ d s, I s → level s < 0 → level (refill d s) = level s + tickCredit bandwidth d)
    (hbandwidth : 1 ≤ bandwidth) (hintervals : ∀ d ∈ intervals, 1 ≤ d)
    (h : exec (refilling level refill) s intervals = some s') (hs : I s) :
    WithinOne bandwidth intervals (level s' - level s) ↔ KeepsRate bandwidth intervals := by
  have hlevel := level_refilling hkeep hcredit h hs
  rw [sum_tickCredit hbandwidth hintervals] at hlevel
  have hsum := sum_ediv (m := 1000) (by decide) (intervals.map fun d => d * bandwidth)
  have hnonneg := remainders_nonneg (m := 1000) (by decide) (intervals.map fun d => d * bandwidth)
  have hlost : (intervals.map fun d => d * bandwidth % 1000).sum =
      remainders 1000 (intervals.map fun d => d * bandwidth) := by
    rw [remainders, List.map_map]
    rfl
  rw [sum_products] at hsum
  unfold WithinOne KeepsRate
  rw [hsum, hlevel, hlost]
  omega

theorem refilling_stalls (hkeep : ∀ d s, I s → I (refill d s))
    (hcredit : ∀ d s, I s → level s < 0 → level (refill d s) = level s + tickCredit bandwidth d)
    (hzero : ∀ d ∈ intervals, tickCredit bandwidth d = 0) (hs : I s) (hnegative : level s < 0) :
    ∃ s', exec (refilling level refill) s intervals = some s' ∧ level s' = level s := by
  induction intervals generalizing s with
  | nil => exact ⟨s, rfl, rfl⟩
  | cons d intervals ih =>
    have hsame : level (refill d s) = level s := by
      rw [hcredit d s hs hnegative, hzero d (by simp), Int.add_zero]
    obtain ⟨s', h, hlevel⟩ := ih (fun d hd => hzero d (by simp [hd])) (hkeep d s hs) (by rw [hsame]; exact hnegative)
    refine ⟨s', exec_cons_some.mpr ⟨_, if_pos hnegative, h⟩, ?_⟩
    rw [hlevel, hsame]

end refills

theorem flushPair_tick {cfg : TcpProxy.Config} {w : TcpProxy.World} (p : PairId) (f : Frame) :
    TcpConnection.flushPair ⟨cfg.proxyRule, w.clock⟩ cfg.bandwidth (w.flushBytes cfg) p f =
      let g := tcpRefill ⟨cfg.proxyRule, w.clock⟩ p (w.clock - w.lastFlushTm) f
      if g.conn.writingFlagPair p = false then
        TcpConnection.handleWrite ⟨cfg.proxyRule, w.clock⟩ cfg.bandwidth p .success g
      else .ok g := rfl

theorem routineLock_tick {bandwidth : PairId → ℤ} {sinceFlush : Msec} {w w' : IpThreads.World}
    (hfits : ∀ i, TwosComplement.Fits 32 (toInt sinceFlush * bandwidth i))
    (h : IpThreads.routineLock bandwidth sinceFlush w = some w') : ∃ todo deleteProxies,
    w'.mtx = some (.routine (fun i => tickCredit (bandwidth i) (toInt sinceFlush)) todo deleteProxies) := by
  simp only [IpThreads.routineLock, Option.ite_none_right_eq_some, Option.some.injEq] at h
  obtain ⟨-, rfl⟩ := h
  have hcredit : ipCredit bandwidth (toInt sinceFlush) = fun i => tickCredit (bandwidth i) (toInt sinceFlush) :=
    funext fun i => ipCredit_eq (hfits i)
  rw [hcredit]
  exact ⟨_, _, rfl⟩

theorem availableBytesPair_tcpRefill {proxy : ProxyView} {p : PairId} {f : Frame}
    (hlimit : 1 ≤ proxy.proxyRule.maxBandwidth) (hnegative : f.conn.availableBytesPair p < 0) (d : Msec) :
    (tcpRefill proxy p d f).conn.availableBytesPair p =
      f.conn.availableBytesPair p + tickCredit proxy.proxyRule.maxBandwidth d := by
  unfold tcpRefill TcpConnection.creditPair
  rw [if_pos ⟨hlimit, hnegative⟩]
  exact Function.update_self ..

theorem availBytes_ipRefill {bandwidth : PairId → ℤ} {i : PairId} {ip : IPProxy}
    (hnegative : ip.availBytes i < 0) (d : Msec) :
    (ipRefill bandwidth d ip).availBytes i = ip.availBytes i + tickCredit (bandwidth i) d :=
  if_pos hnegative

theorem credit_keeps {rule : UdpProxyRule} (interval : Msec) (e : UdpEndpointProxy)
    (h : UdpServer.limited e = true ∧ e.proxyRule = rule) :
    UdpServer.limited (UdpServer.credit interval e) = true ∧
      (UdpServer.credit interval e).proxyRule = rule := by
  unfold UdpServer.credit
  rw [if_pos h.1]
  exact h

theorem refills_within_one {intervals : List Msec} (hintervals : ∀ d ∈ intervals, 1 ≤ d) :
    (∀ (proxy : ProxyView) (p : PairId) (f f' : Frame), 1 ≤ proxy.proxyRule.maxBandwidth →
      exec (refilling (fun f => f.conn.availableBytesPair p) (tcpRefill proxy p)) f intervals = some f' →
      (WithinOne proxy.proxyRule.maxBandwidth intervals
          (f'.conn.availableBytesPair p - f.conn.availableBytesPair p) ↔
        KeepsRate proxy.proxyRule.maxBandwidth intervals)) ∧
    (∀ (i : PairId) (e e' : UdpEndpointProxy), UdpServer.limited e = true →
      exec (refilling (UdpServer.budget i) UdpServer.credit) e intervals = some e' →
      (WithinOne e.proxyRule.maxBandwidth intervals (UdpServer.budget i e' - UdpServer.budget i e) ↔
        KeepsRate e.proxyRule.maxBandwidth intervals)) ∧
    ∀ (bandwidth : PairId → ℤ) (i : PairId) (ip ip' : IPProxy), 1 ≤ bandwidth i →
      exec (refilling (fun ip => ip.availBytes i) (ipRefill bandwidth)) ip intervals = some ip' →
      (WithinOne (bandwidth i) intervals (ip'.availBytes i - ip.availBytes i) ↔
        KeepsRate (bandwidth i) intervals) := by
  refine ⟨?_, ?_, ?_⟩
  · intro proxy p f f' hlimit h
    apply refilling_within_one (I := fun _ => True) (fun _ _ _ => trivial) _ hlimit hintervals h trivial
    intro d g _ hnegative
    exact availableBytesPair_tcpRefill hlimit hnegative d
  · intro i e e' hlimit h
    have hpos : 0 < e.proxyRule.maxBandwidth := by
      simp only [UdpServer.limited, Bool.and_eq_true, decide_eq_true_eq] at hlimit
      exact hlimit.2
    apply refilling_within_one credit_keeps _ hpos hintervals h ⟨hlimit, rfl⟩
    rintro d g ⟨hlimit', hrule⟩ hnegative
    rw [UdpServer.budget_credit hlimit', if_pos hnegative, hrule]
    rfl
  · intro bandwidth i ip ip' hlimit h
    apply refilling_within_one (I := fun _ => True) (fun _ _ _ => trivial) _ hlimit hintervals h trivial
    intro d ip _ hnegative
    exact availBytes_ipRefill hnegative d

def fullRate : ProxyView := ⟨⟨3443, ⟨1, 3443⟩, 100000, 0⟩, 0⟩

def overdrawn (size : ℤ) : Frame :=
  ⟨{ TcpConnection.create fullRate none with availableBytesPair := fun _ => -(size + tcpPacketExtraOverhead) },
    IPProxy.create, 1, []⟩

theorem refills_within_one_fullRate :
    WithinOne 100000 [10, 10]
      ((tcpRefill fullRate 0 10 (tcpRefill fullRate 0 10 (overdrawn 4096))).conn.availableBytesPair 0 -
      (overdrawn 4096).conn.availableBytesPair 0) :=
  ((@refills_within_one [10, 10] (by decide)).1 fullRate 0 (overdrawn 4096) _ (by decide) rfl).mpr (by decide)

/-- Fifty bytes per second are half a byte for a tick of ten milliseconds. -/
theorem refills_lose_rate : ¬ ∀ (proxy : ProxyView) (p : PairId) (f f' : Frame) (intervals : List Msec),
    1 ≤ proxy.proxyRule.maxBandwidth → (∀ d ∈ intervals, 1 ≤ d) →
    exec (refilling (fun f => f.conn.availableBytesPair p) (tcpRefill proxy p)) f intervals = some f' →
    WithinOne proxy.proxyRule.maxBandwidth intervals
      (f'.conn.availableBytesPair p - f.conn.availableBytesPair p) := by
  intro hclaim
  let proxy : ProxyView := ⟨⟨3443, ⟨1, 3443⟩, 50, 0⟩, 0⟩
  obtain ⟨f', h, hsame⟩ := @refilling_stalls _ (fun _ => True) (fun f => f.conn.availableBytesPair 0)
    (tcpRefill proxy 0) 50 (List.replicate 40 10) (overdrawn 1) (fun _ _ _ => trivial)
    (fun d g _ hnegative => availableBytesPair_tcpRefill (by decide) hnegative d) (by decide) trivial (by decide)
  have hwithin := hclaim proxy 0 (overdrawn 1) f' (List.replicate 40 10) (by decide) (by decide) h
  rw [hsame, Int.sub_self] at hwithin
  exact absurd hwithin (by unfold WithinOne; decide)

end TcpUdpProxy
