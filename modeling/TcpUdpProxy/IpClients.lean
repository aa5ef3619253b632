import TcpUdpProxy.IpLifetime
import TcpUdpProxy.Library.TokenBucket
import TcpUdpProxy.Library.Trace

/-!
The clients of the entries of `IPProxies`: a connection or a flow charges the entry that it holds,
under the lock of that entry and only while the entry is not in debt. `home` remembers for which
address an entry was made.
-/

namespace TcpUdpProxy.IpClients

open AssociationList Execution
open IpThreads (EntryId)

structure World where
  ip : IpThreads.World
  home : EntryId → Address

inductive Event
  | thread (ev : IpThreads.Event)
  | tcpWrite (entry : EntryId) (pair : PairId) (bufSize : ℕ)
  | udpRecv (entry : EntryId) (bufSize : ℕ)
  | udpSend (entry : EntryId) (bufSize : ℕ)
  deriving DecidableEq

structure Charge where
  entry : EntryId
  direction : PairId
  amount : ℤ

def Event.charge : Event → Option Charge
  | .tcpWrite e pair bufSize =>
    if bufSize ≤ tcpBufferSize then some ⟨e, 1 - pair, bufSize + tcpPacketExtraOverhead⟩ else none
  | .udpRecv e bufSize =>
    if bufSize ≤ udpBufferSize then some ⟨e, 1, bufSize + udpPacketExtraOverhead⟩ else none
  | .udpSend e bufSize =>
    if bufSize ≤ udpBufferSize then some ⟨e, 0, bufSize + udpPacketExtraOverhead⟩ else none
  | .thread _ => none

def World.settle (w : World) : IpThreads.Event → EntryId → Address
  | .getLock ipAddr =>
    if w.ip.addrs.lookup ipAddr = none then Function.update w.home w.ip.nextEntry ipAddr else w.home
  | _ => w.home

def World.pays (bandwidth : PairId → ℤ) (c : Charge) (w : World) : Bool :=
  0 < bandwidth c.direction && 0 ≤ (w.ip.entries c.entry).availBytes c.direction

def charge (bandwidth : PairId → ℤ) (c : Charge) (w : World) : Option World :=
  if 0 < bandwidth c.direction then
    (IpThreads.charge c.entry c.direction c.amount w.ip).map fun ip =>
      if 0 ≤ (w.ip.entries c.entry).availBytes c.direction then { w with ip := ip } else w
  else some w

def step (bandwidth : PairId → ℤ) (w : World) : Event → Option World
  | .thread (.charge ..) => none
  | .thread ev => (IpThreads.step bandwidth w.ip ev).map fun ip => ⟨ip, w.settle ev⟩
  | ev => ev.charge.bind fun c => charge bandwidth c w

def start : World := ⟨IpThreads.start, fun _ => 0⟩

def charged (bandwidth : PairId → ℤ) (a : Address) (i : PairId) (w : World) (ev : Event) : List ℤ :=
  match ev.charge with
  | some c => if w.home c.entry = a ∧ c.direction = i ∧ w.pays bandwidth c then [c.amount] else []
  | none => []

def credited (bandwidth : PairId → ℤ) (i : PairId) (_ : World) : Event → List ℤ
  | .thread (.routineLock sinceFlush) => [ipCredit bandwidth (toInt sinceFlush) i]
  | _ => []

def sweeping (i : PairId) (w : World) : ℤ :=
  match w.ip.mtx with
  | some (.routine bytes _ _) => bytes i
  | _ => 0

def erasing (mtx : Option IpThreads.TableSection) : Option Address :=
  match mtx with
  | some (.routine _ [] (a :: _)) => some a
  | _ => none

/-- The sweep erases the entry of the address only when nobody holds it and it owes nothing. -/
def ErasesSettled (a : Address) (i : PairId) (w : World) (ev : Event) : Prop :=
  ev = .thread .routineErase → erasing w.ip.mtx = some a →
    ∀ e ∈ w.ip.addrs.lookup a, e ∉ w.ip.holders ∧ 0 ≤ (w.ip.entries e).availBytes i

instance (a : Address) (i : PairId) (w : World) (ev : Event) : Decidable (ErasesSettled a i w ev) :=
  inferInstanceAs (Decidable (_ → _))

/-- The product that a tick credits is no negative `int`. -/
def CreditFits (bandwidth : PairId → ℤ) (i : PairId) : Event → Prop
  | .thread (.routineLock sinceFlush) => toInt sinceFlush * bandwidth i % 2 ^ 32 < 2 ^ 31
  | _ => True

instance (bandwidth : PairId → ℤ) (i : PairId) : ∀ ev, Decidable (CreditFits bandwidth i ev)
  | .thread (.routineLock sinceFlush) =>
    inferInstanceAs (Decidable (toInt sinceFlush * bandwidth i % 2 ^ 32 < 2 ^ 31))
  | .thread (.getLock _) | .thread .getRead | .thread .getWrite | .thread (.releaseLock _)
  | .thread (.releaseRead _) | .thread (.releaseWrite _) | .thread (.routineVisit _) | .thread .routineErase
  | .thread .routineUnlock | .thread (.charge ..) | .tcpWrite .. | .udpRecv .. | .udpSend .. => isTrue trivial

def KeepsDebts (bandwidth : PairId → ℤ) (a : Address) (i : PairId) (w : World) (ev : Event) : Prop :=
  ErasesSettled a i w ev ∧ CreditFits bandwidth i ev

instance (bandwidth : PairId → ℤ) (a : Address) (i : PairId) (w : World) (ev : Event) :
    Decidable (KeepsDebts bandwidth a i w ev) := inferInstanceAs (Decidable (_ ∧ _))

def maxCharge : ℤ := tcpBufferSize + tcpPacketExtraOverhead

variable {bandwidth : PairId → ℤ} {a : Address} {i : PairId} {w w' w₁ w₂ : World} {ev : Event}
  {before window : List Event}

theorem charge_amount {c : Charge} (h : ev.charge = some c) : 0 ≤ c.amount ∧ c.amount ≤ maxCharge := by
  have htcp : tcpBufferSize = 4096 := rfl
  have hudp : udpBufferSize = 1500 := rfl
  have htcp' : tcpPacketExtraOverhead = 54 := rfl
  have hudp' : udpPacketExtraOverhead = 42 := rfl
  unfold maxCharge
  cases ev with
  | thread => cases h
  | tcpWrite | udpRecv | udpSend =>
    simp only [Event.charge, Option.ite_none_right_eq_some, Option.some.injEq] at h
    obtain ⟨hsize, rfl⟩ := h
    constructor <;> dsimp only <;> omega

def World.spend (w : World) (c : Charge) : World :=
  { w with ip := { w.ip with
      entries := Function.update w.ip.entries c.entry ((w.ip.entries c.entry).charge c.direction c.amount) } }

inductive Moved (bandwidth : PairId → ℤ) (w : World) : Event → World → Prop
  | thread {tev ip} (hne : ∀ e j amount, tev ≠ .charge e j amount)
      (h : IpThreads.step bandwidth w.ip tev = some ip) :
      Moved bandwidth w (.thread tev) ⟨ip, w.settle tev⟩
  | spent {ev c} (hev : ev.charge = some c) (he : c.entry ∈ w.ip.holders) (hpays : w.pays bandwidth c) :
      Moved bandwidth w ev (w.spend c)
  | free {ev c} (hev : ev.charge = some c) (hpays : ¬ w.pays bandwidth c) : Moved bandwidth w ev w

theorem charge_cases {c : Charge} (hev : ev.charge = some c) (h : charge bandwidth c w = some w') :
    Moved bandwidth w ev w' := by
  unfold charge IpThreads.charge at h
  split at h
  · rename_i hlimited
    simp only [Option.map_eq_some_iff, Option.ite_none_right_eq_some, Option.some.injEq] at h
    obtain ⟨ip, ⟨⟨he, -⟩, rfl⟩, h⟩ := h
    split at h
    · rename_i hpays
      cases h
      exact .spent hev he (by simp [World.pays, hlimited, hpays])
    · rename_i hpays
      cases h
      exact .free hev (by simp [World.pays, hpays])
  · rename_i hlimited
    cases h
    exact .free hev (by simp [World.pays, hlimited])

theorem step_cases (h : step bandwidth w ev = some w') : Moved bandwidth w ev w' := by
  have hcharge : ∀ ev : Event, (ev.charge.bind fun c => charge bandwidth c w) = some w' →
      Moved bandwidth w ev w' := by
    intro ev h
    obtain ⟨c, hc, h⟩ := Option.bind_eq_some_iff.mp h
    exact charge_cases hc h
  cases ev with
  | thread tev =>
    by_cases hne : ∃ e j amount, tev = .charge e j amount
    · obtain ⟨e, j, amount, rfl⟩ := hne
      cases h
    · have hne : ∀ e j amount, tev ≠ .charge e j amount :=
        fun e j amount heq => hne ⟨e, j, amount, heq⟩
      have hthread : (IpThreads.step bandwidth w.ip tev).map (fun ip => ⟨ip, w.settle tev⟩) = some w' := by
        cases tev with
        | charge e j amount => exact absurd rfl (hne e j amount)
        | _ => exact h
      obtain ⟨ip, hip, rfl⟩ := Option.map_eq_some_iff.mp hthread
      exact .thread hne hip
  | tcpWrite e pair bufSize => exact hcharge _ h
  | udpRecv e bufSize => exact hcharge _ h
  | udpSend e bufSize => exact hcharge _ h

theorem routineLock_eq {ip : IpThreads.World} {sinceFlush : Msec}
    (h : IpThreads.step bandwidth w.ip (.routineLock sinceFlush) = some ip) :
    w.ip.mtx = none ∧ ip = { w.ip with
      mtx := some (.routine (ipCredit bandwidth (toInt sinceFlush)) w.ip.addrs.keys []) } := by
  simp only [IpThreads.step, IpThreads.routineLock, Option.ite_none_right_eq_some, Option.some.injEq] at h
  obtain ⟨⟨hmtx, -, -⟩, rfl⟩ := h
  exact ⟨Option.isNone_iff_eq_none.mp hmtx, rfl⟩

theorem settle_of_lt {e : EntryId} (he : e < w.ip.nextEntry) (tev : IpThreads.Event) :
    w.settle tev e = w.home e := by
  cases tev with
  | getLock b =>
    unfold World.settle
    dsimp only
    split
    · exact Function.update_of_ne he.ne _ _
    · rfl
  | _ => rfl

theorem limited_of_pos (hlimit : 0 < bandwidth i) : ¬ (bandwidth 0 = 0 ∧ bandwidth 1 = 0) := by
  rintro ⟨h₀, h₁⟩
  have hzero : ∀ j, bandwidth j = 0 := Fin.forall_fin_two.mpr ⟨h₀, h₁⟩
  exact hlimit.ne' (hzero i)

structure Housed (a : Address) (i : PairId) (w : World) : Prop where
  mapped : ∀ b e, w.ip.addrs.lookup b = some e → w.home e = b ∧ e < w.ip.nextEntry
  getting : ∀ e read, w.ip.mtx = some (.getIPProxy e read) → w.ip.addrs.lookup (w.home e) = some e
  held : ∀ e ∈ w.ip.holders, e < w.ip.nextEntry ∧ (w.home e = a → w.ip.addrs.lookup a = some e)
  sweep : ∀ bytes todo deleteProxies, w.ip.mtx = some (.routine bytes todo deleteProxies) →
    todo.Nodup ∧ 0 ≤ bytes i

theorem housed_start : Housed a i start := by
  constructor <;> simp [start, IpThreads.start]

theorem housed_made {b : Address} (hw : Housed a i w) (hlookup : w.ip.addrs.lookup b = none) :
    Housed a i ⟨{ w.ip with
      addrs := w.ip.addrs.insert b w.ip.nextEntry
      entries := Function.update w.ip.entries w.ip.nextEntry IPProxy.create
      nextEntry := w.ip.nextEntry + 1
      mtx := some (.getIPProxy w.ip.nextEntry none) }, w.settle (.getLock b)⟩ := by
  have hhome : w.settle (.getLock b) w.ip.nextEntry = b := by
    simp [World.settle, hlookup]
  refine ⟨?_, ?_, ?_, nofun⟩
  · intro c e hc
    obtain ⟨rfl, rfl⟩ | ⟨-, hc⟩ := lookup_insert_some.mp hc
    · exact ⟨hhome, Nat.lt_succ_self _⟩
    · obtain ⟨hec, hlt⟩ := hw.mapped c e hc
      exact ⟨(settle_of_lt hlt (.getLock b)).trans hec, Nat.lt_succ_of_lt hlt⟩
  · intro e read heq
    cases heq
    dsimp only
    rw [hhome]
    exact AList.lookup_insert _
  · intro e he
    obtain ⟨hlt, hcurrent⟩ := hw.held e he
    refine ⟨Nat.lt_succ_of_lt hlt, ?_⟩
    dsimp only
    rw [settle_of_lt hlt]
    intro hhome'
    exact lookup_insert_new hlookup (hcurrent hhome')

theorem housed_erase {b : Address} {bytes : PairId → ℤ} {deleteProxies : List Address}
    (hw : Housed a i w) (hmtx : w.ip.mtx = some (.routine bytes [] (b :: deleteProxies)))
    (hg : ErasesSettled a i w (.thread .routineErase)) :
    Housed a i ⟨{ w.ip with addrs := w.ip.addrs.erase b, mtx := some (.routine bytes [] deleteProxies) },
      w.home⟩ := by
  refine ⟨?_, nofun, ?_, ?_⟩
  · intro c e hc
    exact hw.mapped c e (lookup_erase_some.mp hc).2
  · intro e he
    obtain ⟨hlt, hcurrent⟩ := hw.held e he
    refine ⟨hlt, fun hhome => ?_⟩
    have ha := hcurrent hhome
    refine lookup_erase_some.mpr ⟨?_, ha⟩
    rintro rfl
    exact (hg rfl (by rw [hmtx]; rfl) e ha).1 he
  · intro bytes' todo' deleteProxies' heq
    cases heq
    exact hw.sweep _ _ _ hmtx

theorem housed_thread {tev : IpThreads.Event} {ip : IpThreads.World} (hlimit : 0 < bandwidth i)
    (hw : Housed a i w) (hg : KeepsDebts bandwidth a i w (.thread tev))
    (hstep : IpThreads.step bandwidth w.ip tev = some ip) : Housed a i ⟨ip, w.settle tev⟩ := by
  have hsweep := hw.sweep
  cases IpThreads.step_cases hstep with
  | unlimited hzero => exact absurd hzero (limited_of_pos hlimit)
  | made hmtx hlookup => exact housed_made hw hlookup
  | @found b e hmtx hlookup =>
    have hsettle : w.settle (.getLock b) = w.home := by
      simp [World.settle, hlookup]
    rw [hsettle]
    refine ⟨hw.mapped, ?_, hw.held, nofun⟩
    intro e' read heq
    cases heq
    dsimp only
    rw [(hw.mapped b e hlookup).1]
    exact hlookup
  | getRead hmtx =>
    refine ⟨hw.mapped, ?_, hw.held, nofun⟩
    intro e' read heq
    cases heq
    exact hw.getting _ _ hmtx
  | @getWrite e v hmtx =>
    refine ⟨hw.mapped, nofun, ?_, nofun⟩
    intro e' he'
    rcases Multiset.mem_cons.mp he' with rfl | he'
    · have hlookup := hw.getting _ _ hmtx
      refine ⟨(hw.mapped _ _ hlookup).2, ?_⟩
      rintro rfl
      exact hlookup
    · exact hw.held e' he'
  | releaseLock | releaseRead | charge => exact ⟨hw.mapped, hw.getting, hw.held, hw.sweep⟩
  | releaseWrite =>
    refine ⟨hw.mapped, hw.getting, ?_, hw.sweep⟩
    intro e' he'
    exact hw.held e' (Multiset.mem_of_mem_erase he')
  | routineLock =>
    obtain ⟨-, heq⟩ := routineLock_eq hstep
    rw [heq]
    refine ⟨hw.mapped, nofun, hw.held, ?_⟩
    intro bytes todo deleteProxies hmtx
    cases hmtx
    exact ⟨w.ip.addrs.nodupKeys, ipCredit_nonneg hg.2⟩
  | unused hmtx | used hmtx =>
    refine ⟨hw.mapped, nofun, hw.held, ?_⟩
    intro bytes' todo' deleteProxies' heq
    cases heq
    exact (hsweep _ _ _ hmtx).imp_left fun hnodup => hnodup.erase _
  | routineErase hmtx => exact housed_erase hw hmtx hg.1
  | routineUnlock => exact ⟨hw.mapped, nofun, hw.held, nofun⟩

theorem housed_step (hlimit : 0 < bandwidth i) (hw : Housed a i w) (hg : KeepsDebts bandwidth a i w ev)
    (h : step bandwidth w ev = some w') : Housed a i w' := by
  cases step_cases h with
  | thread hne hstep => exact housed_thread hlimit hw hg hstep
  | spent => exact ⟨hw.mapped, hw.getting, hw.held, hw.sweep⟩
  | free => exact hw

def level (a : Address) (i : PairId) (addrs : AList fun _ : Address => EntryId)
    (entries : EntryId → IPProxy) : ℤ :=
  (addrs.lookup a).elim 0 fun e => (entries e).availBytes i

def due (a : Address) (i : PairId) : Option IpThreads.TableSection → ℤ
  | some (.routine bytes todo _) => if a ∈ todo then bytes i else 0
  | _ => 0

def reserve (a : Address) (i : PairId) (w : World) : ℤ := level a i w.ip.addrs w.ip.entries + due a i w.ip.mtx

variable {addrs addrs' : AList fun _ : Address => EntryId} {entries entries' : EntryId → IPProxy}
  {bytes : PairId → ℤ} {todo deleteProxies : List Address} {b : Address} {e : EntryId}

theorem level_congr (haddrs : addrs'.lookup a = addrs.lookup a)
    (hentries : ∀ e, addrs.lookup a = some e → (entries' e).availBytes i = (entries e).availBytes i) :
    level a i addrs' entries' = level a i addrs entries := by
  unfold level
  rw [haddrs]
  cases hlookup : addrs.lookup a with
  | none => rfl
  | some e => exact hentries e hlookup

theorem due_nonneg (hw : Housed a i w) : 0 ≤ due a i w.ip.mtx := by
  unfold due
  split
  · split
    · exact (hw.sweep _ _ _ ‹_›).2
    · exact le_rfl
  · exact le_rfl

theorem due_routine (a : Address) (i : PairId) (bytes : PairId → ℤ) (todo deleteProxies : List Address) :
    due a i (some (.routine bytes todo deleteProxies)) = if a ∈ todo then bytes i else 0 := rfl

theorem due_le_sweeping (hw : Housed a i w) : due a i w.ip.mtx ≤ sweeping i w := by
  have hnonneg := hw.sweep
  unfold sweeping
  split
  · rename_i hmtx
    have hbytes := (hnonneg _ _ _ hmtx).2
    rw [hmtx, due_routine]
    split <;> omega
  · rename_i hmtx
    unfold due
    split
    · rename_i heq
      exact absurd heq (hmtx _ _ _)
    · exact le_rfl

theorem reserve_spend {c : Charge} (hw : Housed a i w) (he : c.entry ∈ w.ip.holders)
    (hpays : w.pays bandwidth c) (hev : ev.charge = some c) :
    (charged bandwidth a i w ev).sum + reserve a i (w.spend c) = reserve a i w := by
  have hcharged : charged bandwidth a i w ev =
      if w.home c.entry = a ∧ c.direction = i then [c.amount] else [] := by
    simp [charged, hev, hpays]
  rw [hcharged]
  unfold reserve World.spend
  dsimp only
  split
  · rename_i hmine
    have hlookup := (hw.held _ he).2 hmine.1
    simp only [level, hlookup, Option.elim_some, Function.update_self, IPProxy.charge, hmine.2,
      List.sum_singleton]
    omega
  · rename_i hother
    rw [List.sum_nil, zero_add, level_congr rfl]
    intro e hlookup
    by_cases heq : e = c.entry
    · subst heq
      have hdirection : c.direction ≠ i := fun hi => hother ⟨(hw.mapped a _ hlookup).1, hi⟩
      simp [IPProxy.charge, hdirection.symm]
    · rw [Function.update_of_ne heq]

theorem mem_of_routineVisit {ip : IpThreads.World}
    (h : IpThreads.step bandwidth w.ip (.routineVisit b) = some ip)
    (hmtx : w.ip.mtx = some (.routine bytes todo deleteProxies)) : b ∈ todo := by
  simp only [IpThreads.step, IpThreads.routineVisit, hmtx] at h
  split at h
  · rename_i hsection _
    cases hsection
    split at h
    · rename_i hin
      exact hin.1
    · cases h
  · cases h

theorem availBytes_setRefCnt (ip : IpThreads.World) (e e' : EntryId) (refCnt : ℤ) :
    ((ip.setRefCnt e refCnt).entries e').availBytes = (ip.entries e').availBytes := by
  unfold IpThreads.World.setRefCnt
  by_cases heq : e' = e
  · subst heq
    simp
  · simp [heq]

theorem reserve_used (hw : Housed a i w) (hmtx : w.ip.mtx = some (.routine bytes todo deleteProxies))
    (hlookup : w.ip.addrs.lookup b = some e) (hb : b ∈ todo) :
    level a i w.ip.addrs (Function.update w.ip.entries e (IpThreads.refill bytes (w.ip.entries e))) +
      due a i (some (.routine bytes (todo.erase b) deleteProxies)) ≤ reserve a i w := by
  obtain ⟨hnodup, hbytes⟩ := hw.sweep _ _ _ hmtx
  unfold reserve
  rw [hmtx, due_routine, due_routine]
  by_cases hab : a = b
  · subst hab
    rw [if_neg (List.Nodup.not_mem_erase hnodup), if_pos hb]
    simp only [level, hlookup, Option.elim_some, Function.update_self, IpThreads.refill]
    split <;> omega
  · have hsame : level a i w.ip.addrs (Function.update w.ip.entries e (IpThreads.refill bytes (w.ip.entries e)))
        = level a i w.ip.addrs w.ip.entries := by
      apply level_congr rfl
      intro e' hlookup'
      have hne : e' ≠ e := by
        rintro rfl
        exact hab ((hw.mapped _ _ hlookup').1.symm.trans (hw.mapped _ _ hlookup).1)
      rw [Function.update_of_ne hne]
    rw [hsame]
    simp only [List.mem_erase_of_ne hab]
    exact le_rfl

theorem level_erase (hmtx : w.ip.mtx = some (.routine bytes [] (b :: deleteProxies)))
    (hg : ErasesSettled a i w (.thread .routineErase)) :
    level a i (w.ip.addrs.erase b) w.ip.entries ≤ level a i w.ip.addrs w.ip.entries := by
  by_cases hab : a = b
  · subst hab
    unfold level
    rw [AList.lookup_erase, Option.elim_none]
    cases hlookup : w.ip.addrs.lookup a with
    | none => exact le_rfl
    | some e => exact (hg rfl (by rw [hmtx]; rfl) e hlookup).2
  · rw [level_congr (AList.lookup_erase_ne hab)]
    intro e _
    rfl

theorem level_made (hlookup : addrs.lookup b = none) (hfresh : ∀ c e', addrs.lookup c = some e' → e' ≠ e) :
    level a i (addrs.insert b e) (Function.update entries e IPProxy.create) = level a i addrs entries := by
  by_cases hab : a = b
  · subst hab
    simp [level, hlookup, IPProxy.create]
  · apply level_congr (AList.lookup_insert_ne hab)
    intro e' hlookup'
    rw [Function.update_of_ne (hfresh a e' hlookup')]

theorem reserve_thread {tev : IpThreads.Event} {ip : IpThreads.World} (hlimit : 0 < bandwidth i)
    (hw : Housed a i w) (hg : KeepsDebts bandwidth a i w (.thread tev)) (hne : ∀ e j amount, tev ≠ .charge e j amount)
    (hstep : IpThreads.step bandwidth w.ip tev = some ip) :
    reserve a i ⟨ip, w.settle tev⟩ ≤ reserve a i w + (credited bandwidth i w (.thread tev)).sum := by
  have hdue := due_nonneg hw
  have hclosed : ∀ {addrs' entries'} (_ : level a i addrs' entries' ≤ level a i w.ip.addrs w.ip.entries),
      level a i addrs' entries' + 0 ≤ reserve a i w + 0 := by
    intro addrs' entries' hlevel
    unfold reserve
    omega
  cases IpThreads.step_cases hstep with
  | unlimited hzero => exact absurd hzero (limited_of_pos hlimit)
  | found | getRead | routineUnlock => exact hclosed le_rfl
  | made hmtx hlookup =>
    apply hclosed
    rw [level_made hlookup]
    intro c e' hc
    exact (hw.mapped c e' hc).2.ne
  | getWrite =>
    apply hclosed
    apply (level_congr rfl _).le
    intro e' _
    rw [availBytes_setRefCnt]
  | releaseLock | releaseRead => exact (add_zero _).ge
  | @releaseWrite e v hmtx =>
    have hsame : level a i w.ip.addrs (w.ip.setRefCnt e (v - 1)).entries = level a i w.ip.addrs w.ip.entries := by
      apply level_congr rfl
      intro e' _
      rw [availBytes_setRefCnt]
    change level a i w.ip.addrs (w.ip.setRefCnt e (v - 1)).entries + due a i w.ip.mtx ≤ reserve a i w + 0
    rw [hsame]
    exact (add_zero _).ge
  | routineLock =>
    obtain ⟨hmtx, heq⟩ := routineLock_eq hstep
    have hbytes := ipCredit_nonneg hg.2
    rw [heq]
    simp only [reserve, hmtx, due, credited, List.sum_singleton]
    split <;> omega
  | @unused b e bytes todo deleteProxies hmtx =>
    have hbytes := (hw.sweep _ _ _ hmtx).2
    change level a i w.ip.addrs w.ip.entries + (if a ∈ todo.erase b then bytes i else 0) ≤ reserve a i w + 0
    unfold reserve
    rw [hmtx, due_routine, add_zero]
    by_cases hin : a ∈ todo.erase b
    · rw [if_pos hin, if_pos (List.mem_of_mem_erase hin)]
    · rw [if_neg hin]
      split <;> omega
  | @used b e bytes todo deleteProxies hmtx hlookup =>
    exact (reserve_used hw hmtx hlookup (mem_of_routineVisit hstep hmtx)).trans (add_zero _).ge
  | routineErase hmtx => exact hclosed (level_erase hmtx hg.1)
  | charge => exact absurd rfl (hne _ _ _)

theorem credited_of_charge {c : Charge} (hev : ev.charge = some c) : credited bandwidth i w ev = [] := by
  cases ev with
  | thread => cases hev
  | tcpWrite | udpRecv | udpSend => rfl

theorem reserve_step (hlimit : 0 < bandwidth i) (hw : Housed a i w) (hg : KeepsDebts bandwidth a i w ev)
    (h : step bandwidth w ev = some w') :
    (charged bandwidth a i w ev).sum + reserve a i w' ≤ reserve a i w + (credited bandwidth i w ev).sum := by
  cases step_cases h with
  | thread hne hstep =>
    have hthread := reserve_thread hlimit hw hg hne hstep
    simpa [charged, Event.charge] using hthread
  | spent hev he hpays =>
    rw [credited_of_charge hev, reserve_spend hw he hpays hev, List.sum_nil, add_zero]
  | free hev hpays =>
    simp [credited_of_charge hev, charged, hev, hpays]

structure Leveled (i : PairId) (w : World) (credits : List ℤ) : Prop where
  low : ∀ e, -maxCharge ≤ (w.ip.entries e).availBytes i
  high : ∀ e, (w.ip.entries e).availBytes i ≤ TokenBucket.largest credits
  sweep : 0 ≤ sweeping i w ∧ sweeping i w ≤ TokenBucket.largest credits

theorem sweeping_thread {tev : IpThreads.Event} {ip : IpThreads.World}
    (hstep : IpThreads.step bandwidth w.ip tev = some ip) (i : PairId) (home : EntryId → Address) :
    sweeping i ⟨ip, home⟩ = sweeping i w ∨ sweeping i ⟨ip, home⟩ = 0 ∨
      ∃ sinceFlush, tev = .routineLock sinceFlush ∧
        sweeping i ⟨ip, home⟩ = ipCredit bandwidth (toInt sinceFlush) i := by
  cases IpThreads.step_cases hstep with
  | unlimited | releaseLock | releaseRead | releaseWrite | charge => exact .inl rfl
  | found | made | getRead | getWrite | routineUnlock => exact .inr (.inl rfl)
  | @routineLock sinceFlush =>
    obtain ⟨-, heq⟩ := routineLock_eq hstep
    refine .inr (.inr ⟨sinceFlush, rfl, ?_⟩)
    rw [heq]
    rfl
  | unused hmtx | used hmtx | routineErase hmtx =>
    left
    unfold sweeping
    rw [hmtx]

theorem availBytes_thread {tev : IpThreads.Event} {ip : IpThreads.World}
    (hne : ∀ e j amount, tev ≠ .charge e j amount) (hstep : IpThreads.step bandwidth w.ip tev = some ip)
    (i : PairId) (e : EntryId) :
    (ip.entries e).availBytes i = (w.ip.entries e).availBytes i ∨ (ip.entries e).availBytes i = 0 ∨
      (w.ip.entries e).availBytes i < 0 ∧
        (ip.entries e).availBytes i = (w.ip.entries e).availBytes i + sweeping i w := by
  cases IpThreads.step_cases hstep with
  | unlimited | found | getRead | releaseLock | releaseRead | routineLock | unused | routineErase
  | routineUnlock => exact .inl rfl
  | getWrite | releaseWrite =>
    left
    exact congrFun (availBytes_setRefCnt ..) i
  | made =>
    by_cases heq : e = w.ip.nextEntry
    · subst heq
      exact .inr (.inl (by simp [IPProxy.create]))
    · exact .inl (by simp [heq])
  | @used b e' bytes todo deleteProxies hmtx =>
    by_cases heq : e = e'
    · subst heq
      have hsweeping : sweeping i w = bytes i := by
        simp [sweeping, hmtx]
      rw [hsweeping]
      by_cases hneg : (w.ip.entries e).availBytes i < 0
      · exact .inr (.inr ⟨hneg, by simp [IpThreads.refill, hneg]⟩)
      · exact .inl (by simp [IpThreads.refill, hneg])
    · exact .inl (by simp [heq])
  | charge => exact absurd rfl (hne _ _ _)

theorem leveled_step {credits : List ℤ} (hw : Leveled i w credits) (hg : CreditFits bandwidth i ev)
    (h : step bandwidth w ev = some w') : Leveled i w' (credits ++ credited bandwidth i w ev) := by
  obtain ⟨hlow, hhigh, hsweep⟩ := hw
  have hnonneg := TokenBucket.largest_nonneg credits
  cases step_cases h with
  | @thread tev ip hne hstep =>
    have hgrows : TokenBucket.largest credits ≤
        TokenBucket.largest (credits ++ credited bandwidth i w (.thread tev)) := by
      rw [TokenBucket.largest_append]
      exact le_max_left _ _
    have hmax : 0 ≤ maxCharge := by decide
    refine ⟨?_, ?_, ?_⟩
    · intro e
      have hlow' := hlow e
      rcases availBytes_thread hne hstep i e with heq | heq | ⟨-, heq⟩ <;> dsimp only <;> omega
    · intro e
      have hhigh' := hhigh e
      rcases availBytes_thread hne hstep i e with heq | heq | ⟨hneg, heq⟩ <;> dsimp only <;> omega
    · rcases sweeping_thread hstep i (w.settle tev) with heq | heq | ⟨sinceFlush, rfl, heq⟩
      · exact ⟨by omega, by omega⟩
      · exact ⟨by omega, by omega⟩
      · refine ⟨?_, ?_⟩
        · rw [heq]
          exact ipCredit_nonneg hg
        · rw [heq]
          apply TokenBucket.le_largest
          simp [credited]
  | @spent _ c hev he hpays =>
    obtain ⟨hamount, hmax⟩ := charge_amount hev
    have hpos : 0 ≤ (w.ip.entries c.entry).availBytes c.direction := by
      simp only [World.pays, Bool.and_eq_true, decide_eq_true_eq] at hpays
      exact hpays.2
    rw [credited_of_charge hev, List.append_nil]
    have hcases : ∀ e, ((w.spend c).ip.entries e).availBytes i = (w.ip.entries e).availBytes i ∨
        0 ≤ (w.ip.entries e).availBytes i ∧
          ((w.spend c).ip.entries e).availBytes i = (w.ip.entries e).availBytes i - c.amount := by
      intro e
      by_cases heq : e = c.entry
      · subst heq
        by_cases hi : i = c.direction
        · subst hi
          exact .inr ⟨hpos, by simp [World.spend, IPProxy.charge]⟩
        · exact .inl (by simp [World.spend, IPProxy.charge, hi])
      · exact .inl (by simp [World.spend, heq])
    refine ⟨?_, ?_, hsweep⟩
    · intro e
      have hlow' := hlow e
      rcases hcases e with heq | ⟨hpos, heq⟩ <;> omega
    · intro e
      have hhigh' := hhigh e
      rcases hcases e with heq | ⟨-, heq⟩ <;> omega
  | free hev =>
    rw [credited_of_charge hev, List.append_nil]
    exact ⟨hlow, hhigh, hsweep⟩

theorem leveled_start : Leveled i start [] := by
  refine ⟨fun e => ?_, fun _ => le_rfl, le_rfl, le_rfl⟩
  change -maxCharge ≤ 0
  decide

theorem charges_window (hlimit : 0 < bandwidth i) (h₁ : exec (step bandwidth) start before = some w₁)
    (h₂ : exec (step bandwidth) w₁ window = some w₂)
    (hg : Along (step bandwidth) (KeepsDebts bandwidth a i) start (before ++ window)) :
    (trace (step bandwidth) (charged bandwidth a i) w₁ window).sum ≤
      (trace (step bandwidth) (credited bandwidth i) w₁ window).sum + sweeping i w₁ +
        TokenBucket.largest (trace (step bandwidth) (credited bandwidth i) start before) +
          tcpBufferSize + tcpPacketExtraOverhead := by
  rw [along_append h₁] at hg
  have hhoused : ∀ s e t, Housed a i s → KeepsDebts bandwidth a i s e → step bandwidth s e = some t → Housed a i t :=
    fun _ _ _ hs hg h => housed_step hlimit hs hg h
  have hhoused₁ : Housed a i w₁ := exec_guarded hhoused h₁ hg.1 housed_start
  have hhoused₂ : Housed a i w₂ := exec_guarded hhoused h₂ hg.2 hhoused₁
  have hspent := sum_trace_le (f := charged bandwidth a i) (g := credited bandwidth i) (V := reserve a i)
    hhoused (fun _ _ _ hs hg h => reserve_step hlimit hs hg h) h₂ hg.2 hhoused₁
  have hleveled : ∀ {v w : World} {es : List Event} {credits : List ℤ}, Leveled i v credits →
      Along (step bandwidth) (KeepsDebts bandwidth a i) v es → exec (step bandwidth) v es = some w →
      Leveled i w (credits ++ trace (step bandwidth) (credited bandwidth i) v es) :=
    fun hv hg h => exec_traced (fun _ _ _ _ hs hg h => leveled_step hs hg.2 h) h hg hv
  have hleveled₁ := hleveled leveled_start hg.1 h₁
  have hleveled₂ := hleveled hleveled₁ hg.2 h₂
  have hdue := due_le_sweeping hhoused₁
  have hdue₂ := due_nonneg hhoused₂
  have hlargest := TokenBucket.largest_nonneg (trace (step bandwidth) (credited bandwidth i) start before)
  have hlevel₁ : level a i w₁.ip.addrs w₁.ip.entries ≤
      TokenBucket.largest (trace (step bandwidth) (credited bandwidth i) start before) := by
    unfold level
    cases w₁.ip.addrs.lookup a with
    | none => exact hlargest
    | some e => exact hleveled₁.high e
  have hlevel₂ : -maxCharge ≤ level a i w₂.ip.addrs w₂.ip.entries := by
    unfold level
    cases w₂.ip.addrs.lookup a with
    | none =>
      change -maxCharge ≤ 0
      decide
    | some e => exact hleveled₂.low e
  unfold reserve at hspent
  unfold maxCharge at hlevel₂
  omega

def after (bandwidth : PairId → ℤ) (w : World) (es : List Event) : World :=
  (exec (step bandwidth) w es).getD w

def connect : List Event := [.thread (.getLock 7), .thread .getRead, .thread .getWrite]

def upload (e : EntryId) : Event := .tcpWrite e 1 tcpBufferSize

def refill (sinceFlush : Msec) : List Event :=
  [.thread (.routineLock sinceFlush), .thread (.routineVisit 7), .thread .routineUnlock]

def disconnect : List Event :=
  [.thread (.releaseLock 0), .thread (.releaseRead 0), .thread (.releaseWrite 0),
    .thread (.routineLock 10), .thread (.routineVisit 7), .thread .routineErase, .thread .routineUnlock]

def settling : List Event :=
  refill 5000 ++ [upload 0] ++ refill 5000 ++ disconnect ++ connect ++ [upload 1]

theorem charges_window_refilled :
    ((after (fun _ => 1000) start (connect ++ [upload 0] ++ settling)).ip.addrs.lookup 7 = some 1 ∧
      (trace (step fun _ => 1000) (charged (fun _ => 1000) 7 0)
        (after (fun _ => 1000) start (connect ++ [upload 0])) settling).sum = 8300) ∧
    (trace (step fun _ => 1000) (charged (fun _ => 1000) 7 0)
      (after (fun _ => 1000) start (connect ++ [upload 0])) settling).sum ≤ 10010 + 0 + 0 + 4096 + 54 := by
  have h₁ : exec (step fun _ => 1000) start (connect ++ [upload 0]) =
    some (after (fun _ => 1000) start (connect ++ [upload 0])) := rfl
  have h₂ : exec (step fun _ => 1000) (after (fun _ => 1000) start (connect ++ [upload 0])) settling =
    some (after (fun _ => 1000) start (connect ++ [upload 0] ++ settling)) := rfl
  exact ⟨⟨rfl, by decide⟩, charges_window (a := 7) (i := 0) (by decide) h₁ h₂ (by decide)⟩

/-- The debt of the first connection is gone with its entry when the client connects again. -/
def evasion : List Event := connect ++ [upload 0] ++ disconnect ++ connect ++ [upload 1]

/-- A tick that wraps, at 300 MB/s. -/
def wrapping : List Event := connect ++ refill 10 ++ [upload 0]

def Bounds (bandwidth : PairId → ℤ) (a : Address) (i : PairId) (w₁ : World) (before window : List Event) : Prop :=
  (trace (step bandwidth) (charged bandwidth a i) w₁ window).sum ≤
    (trace (step bandwidth) (credited bandwidth i) w₁ window).sum + sweeping i w₁ +
      TokenBucket.largest (trace (step bandwidth) (credited bandwidth i) start (before ++ window)) +
        tcpBufferSize + tcpPacketExtraOverhead

instance (bandwidth : PairId → ℤ) (a : Address) (i : PairId) (w₁ : World) (before window : List Event) :
    Decidable (Bounds bandwidth a i w₁ before window) := inferInstanceAs (Decidable (_ ≤ _))

theorem reconnect_evades :
    (¬ ∀ (bandwidth : PairId → ℤ) (a : Address) (i : PairId) (before window : List Event) (w₁ w₂ : World),
      0 < bandwidth i → exec (step bandwidth) start before = some w₁ →
      exec (step bandwidth) w₁ window = some w₂ → Bounds bandwidth a i w₁ before window) ∧
    ¬ ∀ (bandwidth : PairId → ℤ) (a : Address) (i : PairId) (before window : List Event) (w₁ w₂ : World),
      0 < bandwidth i → exec (step bandwidth) start before = some w₁ →
      exec (step bandwidth) w₁ window = some w₂ → .thread .routineErase ∉ before ++ window →
      Bounds bandwidth a i w₁ before window := by
  constructor
  · intro hclaim
    have hwindow : exec (step fun _ => 100) start evasion = some (after (fun _ => 100) start evasion) := rfl
    have hbound := hclaim (fun _ => 100) 7 0 [] evasion start _ (by decide) rfl hwindow
    revert hbound
    decide
  · intro hclaim
    have hwindow : exec (step fun _ => 300000000) start wrapping =
      some (after (fun _ => 300000000) start wrapping) := rfl
    have hbound := hclaim (fun _ => 300000000) 7 0 [] wrapping start _ (by decide) rfl hwindow (by decide)
    revert hbound
    decide

end TcpUdpProxy.IpClients
