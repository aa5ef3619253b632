import TcpUdpProxy.IpClients
import TcpUdpProxy.TcpCharges
import TcpUdpProxy.TcpProxy
import TcpUdpProxy.UdpCharges

/-!
The connections and the UDP server on one `IPProxies`. Every thread takes an entry by itself, so the
handlers of all connections, the two rounds of each `flushMsgs`, the routine thread of the server and the
refills interleave freely.
-/

namespace TcpUdpProxy.IpSharing

open Execution
open IpClients (Charge)
open IpThreads (EntryId)
open TcpProxy (ConnId)
open UdpServer (EptId)

/-- `home` says for which address each entry was made. -/
structure Config where
  bandwidth : PairId → ℤ
  udpTimeout : Msec
  home : EntryId → Address

def Config.tcp (cfg : Config) (proxyRule : TcpProxyRule) : TcpMachine.Config := ⟨proxyRule, cfg.bandwidth⟩

def Config.udp (cfg : Config) : UdpServer.Config := ⟨cfg.bandwidth, cfg.udpTimeout⟩

/-- `entry` is what `client_ip` points to; `flushing` are the `flush_bytes` of a loop that is half done. -/
structure Connection where
  proxyRule : TcpProxyRule
  entry : EntryId
  machine : TcpMachine.World
  flushing : Option ℤ

/-- `held id` is what `client_ip` of the UDP endpoint points to. -/
structure World where
  entries : EntryId → IPProxy
  conns : ConnId → Option Connection
  udp : UdpServer.World
  held : EptId → EntryId

inductive Event
  | accept (id : ConnId) (proxyRule : TcpProxyRule) (now : Msec) (heap : Heap) (peer : Address)
      (entry : EntryId)
  | tcp (id : ConnId) (ev : TcpMachine.Event)
  | flushSecond (id : ConnId)
  | udp (ev : UdpServer.Event) (entry : EntryId)
  | refill (entry : EntryId) (bytes : PairId → ℤ)

def outside : TcpMachine.Event → Bool
  | .store .. | .disconnect _ => true
  | _ => false

namespace Connection

def meets (c : Connection) (ip : IPProxy) : TcpMachine.World := { c.machine with ip := ip }

def run (cfg : Config) (ip : IPProxy) (ev : TcpMachine.Event) (c : Connection) : Option Connection :=
  match ev with
  | .ip _ => none
  | .tick now flushBytes expireTime =>
    if c.flushing.isSome || c.machine.fault.isSome then none
    else
      let (more, machine) :=
        TcpMachine.firstRound (cfg.tcp c.proxyRule) now flushBytes expireTime (c.meets ip)
      some { c with machine := machine, flushing := if more then some flushBytes else none }
  | ev =>
    if c.flushing.isSome && !outside ev then none
    else (TcpMachine.step (cfg.tcp c.proxyRule) (c.meets ip) ev).map fun machine =>
      { c with machine := machine }

def runSecond (cfg : Config) (ip : IPProxy) (c : Connection) : Option Connection :=
  c.flushing.map fun flushBytes =>
    { c with
      machine := TcpMachine.secondRound (cfg.tcp c.proxyRule) flushBytes (c.meets ip), flushing := none }

end Connection

namespace World

def accept (cfg : Config) (id : ConnId) (proxyRule : TcpProxyRule) (now : Msec) (heap : Heap) (peer : Address)
    (entry : EntryId) (w : World) : Option World :=
  if w.conns id = none ∧ cfg.home entry = peer then
    some { w with conns := Function.update w.conns id (some ⟨proxyRule, entry,
      TcpMachine.accepted (cfg.tcp proxyRule) now (getIPProxy cfg.bandwidth peer) (w.entries entry) heap, none⟩) }
  else none

def connection (id : ConnId) (run : IPProxy → Connection → Option Connection) (w : World) : Option World :=
  (w.conns id).bind fun c =>
    (run (w.entries c.entry) c).map fun c' =>
      { w with
        entries := Function.update w.entries c.entry c'.machine.ip
        conns := Function.update w.conns id (some c') }

def lend (w : World) : UdpServer.World :=
  match w.udp.phase.locked with
  | some id => { w.udp with ip := fun _ => w.entries (w.held id) }
  | none => w.udp

def settle (w : World) (v : UdpServer.World) : EntryId → IPProxy :=
  match w.udp.phase.locked with
  | some id =>
    match (w.udp.epts id).bind UdpEndpointProxy.clientIp with
    | some a => Function.update w.entries (w.held id) (v.ip a)
    | none => w.entries
  | none => w.entries

def server (cfg : Config) (ev : UdpServer.Event) (entry : EntryId) (w : World) : Option World :=
  (UdpServer.step cfg.udp w.lend ev).bind fun v =>
    if ∀ e ∈ v.epts w.udp.nextEpt, ∀ a ∈ e.clientIp, cfg.home entry = a then
      some { w with
        entries := w.settle v, udp := v, held := Function.update w.held w.udp.nextEpt entry }
    else none

def refill (entry : EntryId) (bytes : PairId → ℤ) (w : World) : World :=
  { w with entries := Function.update w.entries entry (IpThreads.refill bytes (w.entries entry)) }

end World

def step (cfg : Config) (w : World) : Event → Option World
  | .accept id proxyRule now heap peer entry => w.accept cfg id proxyRule now heap peer entry
  | .tcp id ev => w.connection id fun ip c => c.run cfg ip ev
  | .flushSecond id => w.connection id fun ip c => c.runSecond cfg ip
  | .udp (.ip _) _ => none
  | .udp ev entry => w.server cfg ev entry
  | .refill entry bytes => some (w.refill entry bytes)

def Initial (w : World) : Prop :=
  w.entries = (fun _ => IPProxy.create) ∧ w.conns = (fun _ => none) ∧ UdpServer.Initial w.udp

inductive Stepped (cfg : Config) (w : World) : Event → World → Prop
  | accept {id proxyRule now heap peer entry} (hfree : w.conns id = none) (hhome : cfg.home entry = peer) :
      Stepped cfg w (.accept id proxyRule now heap peer entry)
        { w with conns := Function.update w.conns id (some ⟨proxyRule, entry,
          TcpMachine.accepted (cfg.tcp proxyRule) now (getIPProxy cfg.bandwidth peer) (w.entries entry) heap,
          none⟩) }
  | tcp {id ev c c'} (hc : w.conns id = some c) (hrun : c.run cfg (w.entries c.entry) ev = some c') :
      Stepped cfg w (.tcp id ev) { w with
        entries := Function.update w.entries c.entry c'.machine.ip
        conns := Function.update w.conns id (some c') }
  | flushSecond {id c c'} (hc : w.conns id = some c) (hrun : c.runSecond cfg (w.entries c.entry) = some c') :
      Stepped cfg w (.flushSecond id) { w with
        entries := Function.update w.entries c.entry c'.machine.ip
        conns := Function.update w.conns id (some c') }
  | udp {ev entry v} (hev : ∀ ip, ev ≠ .ip ip) (hstep : UdpServer.step cfg.udp w.lend ev = some v)
      (hheld : ∀ e ∈ v.epts w.udp.nextEpt, ∀ a ∈ e.clientIp, cfg.home entry = a) :
      Stepped cfg w (.udp ev entry) { w with
        entries := w.settle v, udp := v, held := Function.update w.held w.udp.nextEpt entry }
  | refill {entry bytes} : Stepped cfg w (.refill entry bytes) (w.refill entry bytes)

variable {cfg : Config} {w w' w₀ : World} {ev : Event} {es : List Event} {id : ConnId} {c c' : Connection}
  {ip : IPProxy} {x : EntryId} {i : PairId}

theorem connection_some {run : IPProxy → Connection → Option Connection}
    (h : w.connection id run = some w') : ∃ c c', w.conns id = some c ∧ run (w.entries c.entry) c = some c' ∧
      w' = { w with
        entries := Function.update w.entries c.entry c'.machine.ip
        conns := Function.update w.conns id (some c') } := by
  obtain ⟨c, hc, h⟩ := Option.bind_eq_some_iff.mp h
  obtain ⟨c', hrun, rfl⟩ := Option.map_eq_some_iff.mp h
  exact ⟨c, c', hc, hrun, rfl⟩

theorem server_some {ev : UdpServer.Event} {entry : EntryId} (hev : ∀ ip, ev ≠ .ip ip)
    (h : w.server cfg ev entry = some w') : Stepped cfg w (.udp ev entry) w' := by
  obtain ⟨v, hstep, h⟩ := Option.bind_eq_some_iff.mp h
  split at h
  · rename_i hheld
    cases h
    exact .udp hev hstep hheld
  · cases h

theorem step_cases (h : step cfg w ev = some w') : Stepped cfg w ev w' := by
  cases ev with
  | accept id proxyRule now heap peer entry =>
    simp only [step, World.accept, Option.ite_none_right_eq_some, Option.some.injEq] at h
    obtain ⟨⟨hfree, hhome⟩, rfl⟩ := h
    exact .accept hfree hhome
  | tcp id ev =>
    simp only [step] at h
    obtain ⟨c, c', hc, hrun, rfl⟩ := connection_some h
    exact .tcp hc hrun
  | flushSecond id =>
    simp only [step] at h
    obtain ⟨c, c', hc, hrun, rfl⟩ := connection_some h
    exact .flushSecond hc hrun
  | udp ev entry =>
    cases ev with
    | ip ip => cases h
    | _ => exact server_some nofun h
  | refill entry bytes =>
    cases h
    exact .refill

section connections

open TcpMachine (Settled Served)

structure Runs (cfg : Config) (ip : IPProxy) (c c' : Connection) : Prop where
  entry : c'.entry = c.entry
  served : Served (cfg.home c.entry) c.machine → Served (cfg.home c.entry) c'.machine
  settled : Served (cfg.home c.entry) c.machine → Settled (c.meets ip) c'.machine

theorem run_runs (hlimit : ∀ i, 0 < cfg.bandwidth i) {ev : TcpMachine.Event}
    (h : c.run cfg ip ev = some c') : Runs cfg ip c c' := by
  have hmeets : Served (cfg.home c.entry) c.machine → Served (cfg.home c.entry) (c.meets ip) :=
    fun hc => hc.withIp ip
  have hother : ev.ticks = false →
      (TcpMachine.step (cfg.tcp c.proxyRule) (c.meets ip) ev).map
        (fun machine => { c with machine := machine }) = some c' → Runs cfg ip c c' := by
    intro hev h
    obtain ⟨machine, hstep, rfl⟩ := Option.map_eq_some_iff.mp h
    exact ⟨rfl, fun hc => TcpMachine.served_step (hmeets hc) hstep,
      fun hc => TcpMachine.settled_step hlimit (hmeets hc).sized hev hstep⟩
  cases ev with
  | ip => cases h
  | tick now flushBytes expireTime =>
    simp only [Connection.run] at h
    split at h
    · cases h
    · cases h
      exact ⟨rfl, fun hc => TcpMachine.served_firstRound (hmeets hc),
        fun hc => TcpMachine.settled_firstRound hlimit (hmeets hc).sized rfl⟩
  | _ =>
    simp only [Connection.run] at h
    split at h
    · cases h
    · exact hother rfl h

theorem runSecond_runs (hlimit : ∀ i, 0 < cfg.bandwidth i) (h : c.runSecond cfg ip = some c') :
    Runs cfg ip c c' := by
  obtain ⟨flushBytes, -, rfl⟩ := Option.map_eq_some_iff.mp h
  exact ⟨rfl, fun hc => TcpMachine.served_secondRound (hc.withIp ip),
    fun hc => TcpMachine.settled_secondRound hlimit (hc.withIp ip).sized⟩

end connections

section server

variable {v : UdpServer.World} {ept : EptId} {e : UdpEndpointProxy}

theorem lend_eq (w : World) : ∃ ip, w.lend = { w.udp with ip := ip } := by
  unfold World.lend
  split
  · exact ⟨_, rfl⟩
  · exact ⟨w.udp.ip, rfl⟩

theorem lend_ip (hlocked : w.udp.phase.locked = some ept) (a : Address) :
    w.lend.ip a = w.entries (w.held ept) := by
  simp [World.lend, hlocked]

theorem settle_some {a : Address} (hlocked : w.udp.phase.locked = some ept) (he : w.udp.epts ept = some e)
    (ha : e.clientIp = some a) :
    w.settle v = Function.update w.entries (w.held ept) (v.ip a) := by
  simp [World.settle, hlocked, he, ha]

theorem settle_same (hip : v.ip = w.lend.ip) : w.settle v = w.entries := by
  unfold World.settle
  split
  · rename_i ept hlocked
    split
    · rename_i a ha
      rw [hip, lend_ip hlocked]
      exact Function.update_eq_self _ _
    · rfl
  · rfl

end server

end TcpUdpProxy.IpSharing
