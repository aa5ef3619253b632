import TcpUdpProxy.IpSharing

namespace TcpUdpProxy.IpSharing

open Execution
open IpClients (Charge maxCharge)
open IpThreads (EntryId)
open TcpMachine (Served Settled)
open TcpProxy (ConnId)
open UdpServer (EptId)

inductive Operation
  | asyncWrite (id : ConnId) (pairId : PairId) (msg : Msg)
  | popRecv (id : EptId) (msg : UdpMsg)
  | sendTo (id : EptId) (msg : UdpMsg) (error : ErrorCode)
  deriving DecidableEq

def begun (c c' : Connection) (p : PairId) : List Msg :=
  ((c'.machine.history.started p).drop (c.machine.history.started p).length).map TcpMachine.Item.msg

def writes (id : ConnId) (w w' : World) : List Operation :=
  match w.conns id, w'.conns id with
  | some c, some c' => [0, 1].flatMap fun p => (begun c c' p).map (.asyncWrite id p)
  | _, _ => []

def operations (cfg : Config) (w : World) (ev : Event) : List Operation :=
  match ev with
  | .tcp id _ | .flushSecond id => (step cfg w ev).elim [] (writes id w)
  | .udp (.relay _) _ => (UdpServer.popping cfg.udp w.lend).toList.map fun (id, _, msg) => .popRecv id msg
  | .udp (.flush error _) _ =>
    (UdpServer.sending cfg.udp w.lend).toList.map fun (id, msg) => .sendTo id msg error
  | _ => []

def direction (p : PairId) : PairId := if p = 1 then 0 else 1

/-- What an operation costs a client: 0 is for traffic from the client to the remote, 1 for the other way. -/
def Operation.charge (w : World) : Operation → Option Charge
  | .asyncWrite id p msg =>
    (w.conns id).map fun c => ⟨c.entry, direction p, msg.buffer.bufSize + tcpPacketExtraOverhead⟩
  | .popRecv id msg =>
    if (w.udp.epts id).any fun e => !e.serverFlag then
      some ⟨w.held id, 1, msg.msg.bufSize + udpPacketExtraOverhead⟩
    else none
  | .sendTo id msg _ =>
    if (w.udp.epts id).any fun e => !e.serverFlag then
      some ⟨w.held id, 0, msg.msg.bufSize + udpPacketExtraOverhead⟩
    else none

def charges (cfg : Config) (w : World) (ev : Event) : List Charge :=
  (operations cfg w ev).filterMap (Operation.charge w)

def credits (x : EntryId) (i : PairId) : Event → List ℤ
  | .refill entry bytes => if entry = x then [bytes i] else []
  | _ => []

def postings (cfg : Config) (x : EntryId) (i : PairId) (w : World) (ev : Event) : List TokenBucket.Op :=
  (credits x i ev).map .credit ++
    ((charges cfg w ev).filter fun c => c.entry = x ∧ c.direction = i).map fun c => .spend c.amount

variable {cfg : Config} {w w' w₀ : World} {ev : Event} {es : List Event} {id : ConnId} {c c' : Connection}
  {ip : IPProxy} {x : EntryId} {i : PairId}

inductive Charged (cfg : Config) (w : World) (ev : Event) (entries : EntryId → IPProxy) : Prop
  | nothing (hcharges : charges cfg w ev = []) (hentries : entries = w.entries)
  | once {c : Charge} (hcharges : charges cfg w ev = [c]) (hamount : c.amount ≤ maxCharge)
      (havail : 0 ≤ (w.entries c.entry).availBytes c.direction)
      (hentries : entries =
        Function.update w.entries c.entry ((w.entries c.entry).charge c.direction c.amount))

section tcp

theorem direction_eq (p : PairId) : direction p = 1 - p := by
  revert p
  decide

theorem begun_nil (h : c'.machine.history.started = c.machine.history.started) (p : PairId) :
    begun c c' p = [] := by
  simp [begun, h]

theorem begun_snoc {q : PairId} {m : TcpMachine.Item}
    (h : c'.machine.history.started = TcpMachine.snoc c.machine.history.started q m) (p : PairId) :
    begun c c' p = if p = q then [m.msg] else [] := by
  unfold begun
  rw [h]
  by_cases hp : p = q
  · subst hp
    simp [TcpMachine.snoc]
  · simp [TcpMachine.snoc, hp]

theorem writes_nil (hc : w.conns id = some c) (hc' : w'.conns id = some c')
    (h : c'.machine.history.started = c.machine.history.started) : writes id w w' = [] := by
  simp [writes, hc, hc', begun_nil h]

theorem writes_snoc {q : PairId} {m : TcpMachine.Item} (hc : w.conns id = some c) (hc' : w'.conns id = some c')
    (h : c'.machine.history.started = TcpMachine.snoc c.machine.history.started q m) :
    writes id w w' = [.asyncWrite id q m.msg] := by
  rcases PairId.eq_or_other 0 q with rfl | rfl <;> simp [writes, hc, hc', begun_snoc h]

theorem charged_settled (hc : w.conns id = some c) (hc' : w'.conns id = some c')
    (hops : operations cfg w ev = writes id w w')
    (hentries : w'.entries = Function.update w.entries c.entry c'.machine.ip)
    (h : Settled (c.meets (w.entries c.entry)) c'.machine) : Charged cfg w ev w'.entries := by
  cases h with
  | free hip hstarted =>
    apply Charged.nothing
    · unfold charges
      rw [hops, writes_nil hc hc' hstarted]
      rfl
    · rw [hentries, hip]
      exact Function.update_eq_self _ _
  | @paid q m hsize havail hip hstarted =>
    have hcharges : charges cfg w ev = [⟨c.entry, 1 - q, m.msg.cost⟩] := by
      unfold charges
      rw [hops, writes_snoc hc hc' hstarted]
      simp [Operation.charge, hc, direction_eq, Msg.cost]
    apply Charged.once hcharges
    · have hsize : (m.msg.buffer.bufSize : ℤ) ≤ tcpBufferSize := by exact_mod_cast hsize
      unfold maxCharge Msg.cost
      dsimp only
      omega
    · exact havail
    · rw [hentries, hip]
      rfl

end tcp

section udp

variable {v : UdpServer.World} {ept : EptId} {e : UdpEndpointProxy} {msg : UdpMsg} {uev : UdpServer.Event}
  {entry : EntryId}

theorem cost_le (hsized : UdpServer.Sized e) (hmem : msg ∈ e.recvQueue ++ e.sendQueue) : msg.cost ≤ maxCharge := by
  have hsize : (msg.msg.bufSize : ℤ) ≤ udpBufferSize := by exact_mod_cast hsized.2 msg hmem
  have htcp : tcpBufferSize = 4096 := rfl
  have hudp : udpBufferSize = 1500 := rfl
  unfold maxCharge UdpMsg.cost udpPacketExtraOverhead tcpPacketExtraOverhead
  omega

theorem charged_payIp (hlimit : ∀ i, 0 < cfg.bandwidth i) (hlocked : w.udp.phase.locked = some ept)
    (he : w.udp.epts ept = some e) (hgate : UdpServer.ipGate cfg.udp i w.lend e = .ok true)
    (hcost : msg.cost ≤ maxCharge) (hip : v.ip = (UdpServer.payIp cfg.udp i e msg.cost w.lend).ip)
    (hcharges : charges cfg w ev = if e.serverFlag then [] else [⟨w.held ept, i, msg.cost⟩]) :
    Charged cfg w ev (w.settle v) := by
  cases hflag : e.serverFlag with
  | true =>
    rw [hflag, if_pos rfl] at hcharges
    rw [UdpServer.payIp_server hflag] at hip
    exact .nothing hcharges (settle_same hip)
  | false =>
    rw [hflag, if_neg (by decide)] at hcharges
    obtain ⟨a, ha, havail⟩ := UdpServer.ipGate_open hflag (hlimit i) hgate
    rw [lend_ip hlocked] at havail
    apply Charged.once hcharges hcost havail
    rw [settle_some hlocked he ha, hip, UdpServer.payIp_client hflag ha (hlimit i), Function.update_self,
      lend_ip hlocked]

theorem charged_server (hlimit : ∀ i, 0 < cfg.bandwidth i)
    (hsized : ∀ id e, w.udp.epts id = some e → UdpServer.Sized e) (hev : ∀ ip, uev ≠ .ip ip)
    (h : UdpServer.step cfg.udp w.lend uev = some v) : Charged cfg w (.udp uev entry) (w.settle v) := by
  obtain ⟨ip, hlend⟩ := lend_eq w
  have hphase' : w.lend.phase = w.udp.phase := by rw [hlend]
  have hepts : w.lend.epts = w.udp.epts := by rw [hlend]
  cases UdpServer.step_pays hev h with
  | @popped outcome key todo ept msg e huev hphase hpop he hmem hgate hip =>
    subst huev
    rw [hphase'] at hphase
    rw [hepts] at he
    have hcost := cost_le (hsized ept e he) (List.mem_append_left _ hmem)
    apply charged_payIp hlimit (by rw [hphase]; rfl) he hgate hcost hip
    have hops : operations cfg w (.udp (.relay outcome) entry) = [.popRecv ept msg] := by
      simp [operations, hpop]
    unfold charges
    rw [hops]
    cases hflag : e.serverFlag <;> simp [Operation.charge, he, hflag, UdpMsg.cost]
  | @sent error outcome todo ept msg e huev hphase hsend he hmem hgate hip =>
    subst huev
    rw [hphase'] at hphase
    rw [hepts] at he
    have hcost := cost_le (hsized ept e he) (List.mem_append_right _ hmem)
    apply charged_payIp hlimit (by rw [hphase]; rfl) he hgate hcost hip
    have hops : operations cfg w (.udp (.flush error outcome) entry) = [.sendTo ept msg error] := by
      simp [operations, hsend]
    unfold charges
    rw [hops]
    cases hflag : e.serverFlag <;> simp [Operation.charge, he, hflag, UdpMsg.cost]
  | nothing hpop hsend hip =>
    refine .nothing ?_ (settle_same hip)
    unfold charges
    cases uev with
    | relay outcome => simp [operations, hpop outcome rfl]
    | flush error outcome => simp [operations, hsend error outcome rfl]
    | _ => rfl

end udp

section sharing

structure Sharing (cfg : Config) (w : World) : Prop where
  served : ∀ id c, w.conns id = some c → Served (cfg.home c.entry) c.machine
  reachable : Reachable (UdpServer.step cfg.udp) UdpServer.Initial w.udp
  billed : ∀ id e, w.udp.epts id = some e → UdpServer.Billed e
  held : ∀ id e a, w.udp.epts id = some e → e.clientIp = some a → cfg.home (w.held id) = a

/-- Rules listen on a port, and refills do not take anything away. -/
def Event.Regular : Event → Prop
  | .udp ev _ => ev.Listens
  | .refill _ bytes => ∀ i, 0 ≤ bytes i
  | _ => True

theorem sharing_initial (h : Initial w) : Sharing cfg w := by
  obtain ⟨-, hconns, hudp⟩ := h
  obtain ⟨clock, ip, heap, heq⟩ := hudp
  refine ⟨?_, .start ⟨clock, ip, heap, heq⟩, ?_, ?_⟩
  · intro id c hc
    rw [hconns] at hc
    cases hc
  · intro id e he
    rw [heq] at he
    cases he
  · intro id e a he
    rw [heq] at he
    cases he

theorem reachable_lend {uev : UdpServer.Event} {v : UdpServer.World}
    (hw : Reachable (UdpServer.step cfg.udp) UdpServer.Initial w.udp)
    (h : UdpServer.step cfg.udp w.lend uev = some v) :
    Reachable (UdpServer.step cfg.udp) UdpServer.Initial w.lend := by
  obtain ⟨ip, hlend⟩ := lend_eq w
  obtain ⟨hfault, -⟩ := UdpServer.run_of_step h
  rw [hlend] at hfault
  have hfault : w.udp.fault = none := hfault
  apply hw.next (e := .ip ip)
  simp [UdpServer.step, UdpServer.run, hfault, hlend]

theorem keyed_of_reachable {u : UdpServer.World} (h : Reachable (UdpServer.step cfg.udp) UdpServer.Initial u) :
    UdpServer.Keyed u := by
  obtain ⟨s₀, es, h₀, hs⟩ := h
  exact UdpServer.keyed_run h₀ hs

theorem served_update (hw : Sharing cfg w) (hc : Served (cfg.home c'.entry) c'.machine) :
    ∀ id' c, Function.update w.conns id (some c') id' = some c → Served (cfg.home c.entry) c.machine := by
  intro id' c h
  by_cases hid : id' = id
  · subst hid
    rw [Function.update_self] at h
    cases h
    exact hc
  · rw [Function.update_of_ne hid] at h
    exact hw.served id' c h

theorem sharing_server {uev : UdpServer.Event} {entry : EntryId} {v : UdpServer.World}
    (hlimit : ∀ i, 0 < cfg.bandwidth i) (hw : Sharing cfg w) (hlistens : uev.Listens)
    (hstep : UdpServer.step cfg.udp w.lend uev = some v)
    (hheld : ∀ e ∈ v.epts w.udp.nextEpt, ∀ a ∈ e.clientIp, cfg.home entry = a) :
    Sharing cfg { w with
      entries := w.settle v, udp := v, held := Function.update w.held w.udp.nextEpt entry } := by
  obtain ⟨ip, hlend⟩ := lend_eq w
  have hepts : w.lend.epts = w.udp.epts := by rw [hlend]
  have hreach := reachable_lend hw.reachable hstep
  have hkeyed := keyed_of_reachable hreach
  refine ⟨hw.served, hreach.next hstep, ?_, ?_⟩
  · intro id e' he'
    apply UdpServer.billed_step (hlimit 0) hkeyed hlistens _ hstep he'
    rw [hepts]
    exact hw.billed
  · intro id e' a he' ha
    dsimp only at he' ⊢
    by_cases hid : id = w.udp.nextEpt
    · subst hid
      rw [Function.update_self]
      exact hheld e' he' a ha
    · rw [Function.update_of_ne hid]
      obtain ⟨e, he, hparams⟩ | ⟨hnew, -⟩ := (UdpServer.became_step hkeyed hstep he').params
      · rw [hepts] at he
        simp only [UdpServer.params, Prod.mk.injEq] at hparams
        exact hw.held id e a he (hparams.2.2 ▸ ha)
      · rw [hlend] at hnew
        exact absurd hnew hid

theorem sharing_step (hlimit : ∀ i, 0 < cfg.bandwidth i) (hw : Sharing cfg w) (hev : ev.Regular)
    (h : step cfg w ev = some w') : Sharing cfg w' := by
  cases step_cases h with
  | @accept id proxyRule now heap peer entry hfree hhome =>
    have hlimited : ¬ (cfg.bandwidth 0 = 0 ∧ cfg.bandwidth 1 = 0) := fun hzero => (hlimit 0).ne' hzero.1
    refine ⟨served_update hw ?_, hw.reachable, hw.billed, hw.held⟩
    dsimp only
    rw [hhome, getIPProxy, if_neg hlimited]
    exact TcpMachine.served_accepted
  | tcp hc hrun =>
    have hruns := run_runs hlimit hrun
    refine ⟨served_update hw ?_, hw.reachable, hw.billed, hw.held⟩
    rw [hruns.entry]
    exact hruns.served (hw.served _ _ hc)
  | flushSecond hc hrun =>
    have hruns := runSecond_runs hlimit hrun
    refine ⟨served_update hw ?_, hw.reachable, hw.billed, hw.held⟩
    rw [hruns.entry]
    exact hruns.served (hw.served _ _ hc)
  | udp _ hstep hheld => exact sharing_server hlimit hw hev hstep hheld
  | refill => exact ⟨hw.served, hw.reachable, hw.billed, hw.held⟩

theorem operations_tcp {uev : TcpMachine.Event} (h : step cfg w (.tcp id uev) = some w') :
    operations cfg w (.tcp id uev) = writes id w w' := by
  simp [operations, h]

theorem operations_flushSecond (h : step cfg w (.flushSecond id) = some w') :
    operations cfg w (.flushSecond id) = writes id w w' := by
  simp [operations, h]

theorem charged_step (hlimit : ∀ i, 0 < cfg.bandwidth i) (hw : Sharing cfg w)
    (hev : ∀ entry bytes, ev ≠ .refill entry bytes) (h : step cfg w ev = some w') :
    Charged cfg w ev w'.entries := by
  cases step_cases h with
  | accept => exact .nothing rfl rfl
  | @tcp id uev c c' hc hrun =>
    have hruns := run_runs hlimit hrun
    exact charged_settled hc (Function.update_self ..) (operations_tcp h) rfl
      (hruns.settled (hw.served id c hc))
  | @flushSecond id c c' hc hrun =>
    have hruns := runSecond_runs hlimit hrun
    exact charged_settled hc (Function.update_self ..) (operations_flushSecond h) rfl
      (hruns.settled (hw.served id c hc))
  | udp huev hstep =>
    obtain ⟨s₀, es, h₀, hs⟩ := hw.reachable
    exact charged_server hlimit (UdpServer.sized_run h₀ hs) huev hstep
  | @refill entry bytes => exact absurd rfl (hev entry bytes)

theorem postings_step (hlimit : ∀ i, 0 < cfg.bandwidth i) (hw : Sharing cfg w) (hev : ev.Regular)
    (h : step cfg w ev = some w') (x : EntryId) (i : PairId) :
    exec TokenBucket.step ((w.entries x).availBytes i) (postings cfg x i w ev) =
        some ((w'.entries x).availBytes i) ∧
      ∀ op ∈ postings cfg x i w ev, 0 ≤ op.offered ∧ op.spent ≤ maxCharge := by
  by_cases hrefill : ∃ entry bytes, ev = .refill entry bytes
  · obtain ⟨entry, bytes, rfl⟩ := hrefill
    cases h
    have hcharges : charges cfg w (.refill entry bytes) = [] := rfl
    unfold postings
    rw [hcharges]
    by_cases hx : entry = x
    · subst hx
      have hbytes : 0 ≤ bytes i := hev i
      simp [credits, World.refill, TokenBucket.step, IpThreads.refill, TokenBucket.Op.offered,
        TokenBucket.Op.spent, hbytes]
      decide
    · simp [credits, World.refill, hx, Function.update_of_ne (Ne.symm hx)]
  · have hcredits : credits x i ev = [] := by
      cases ev with
      | refill entry bytes => exact absurd ⟨entry, bytes, rfl⟩ hrefill
      | _ => rfl
    unfold postings
    rw [hcredits]
    cases charged_step hlimit hw (fun entry bytes heq => hrefill ⟨entry, bytes, heq⟩) h with
    | nothing hcharges hentries =>
      rw [hcharges, hentries]
      simp
    | @once c hcharges hamount havail hentries =>
      rw [hcharges, hentries]
      by_cases hx : c.entry = x
      · subst hx
        by_cases hi : c.direction = i
        · subst hi
          simp [TokenBucket.step, havail, IPProxy.charge, TokenBucket.Op.offered, TokenBucket.Op.spent, hamount]
        · simp [hi, IPProxy.charge, Function.update_of_ne (Ne.symm hi)]
      · simp [hx, Function.update_of_ne (Ne.symm hx)]

structure Balanced (cfg : Config) (x : EntryId) (i : PairId) (w : World) (ops : List TokenBucket.Op) : Prop where
  sharing : Sharing cfg w
  level : exec TokenBucket.step 0 ops = some ((w.entries x).availBytes i)
  bounded : ∀ op ∈ ops, 0 ≤ op.offered ∧ op.spent ≤ maxCharge

theorem balanced_run (hlimit : ∀ i, 0 < cfg.bandwidth i) (h₀ : Initial w₀) (hes : ∀ ev ∈ es, ev.Regular)
    (h : exec (step cfg) w₀ es = some w) (x : EntryId) (i : PairId) :
    Balanced cfg x i w (trace (step cfg) (postings cfg x i) w₀ es) := by
  have hstep : ∀ u ev v ops, Balanced cfg x i u ops → ev.Regular → step cfg u ev = some v →
      Balanced cfg x i v (ops ++ postings cfg x i u ev) := by
    intro u ev v ops hu hev hstep
    obtain ⟨hposted, hbounded⟩ := postings_step hlimit hu.sharing hev hstep x i
    refine ⟨sharing_step hlimit hu.sharing hev hstep, ?_, ?_⟩
    · exact exec_append_some.mpr ⟨_, hu.level, hposted⟩
    · intro op hop
      rcases List.mem_append.mp hop with hop | hop
      · exact hu.bounded op hop
      · exact hbounded op hop
  have hstart : Balanced cfg x i w₀ [] := by
    refine ⟨sharing_initial h₀, ?_, nofun⟩
    rw [h₀.1]
    rfl
  have hrun := exec_traced hstep h (along_of_mem hes w₀) hstart
  rwa [List.nil_append] at hrun

end sharing

section booked

def Operation.written (id : ConnId) (p : PairId) : Operation → Option Msg
  | .asyncWrite id' p' msg => if id' = id ∧ p' = p then some msg else none
  | _ => none

def started (w : World) (id : ConnId) (p : PairId) : List Msg :=
  (w.conns id).elim [] fun c => (c.machine.history.started p).map TcpMachine.Item.msg

structure Booked (cfg : Config) (w : World) (ops : List Operation) : Prop where
  sharing : Sharing cfg w
  written : ∀ id p, ops.filterMap (Operation.written id p) = started w id p
  sourced : ∀ id e, w.udp.epts id = some e → ∀ msg ∈ e.sendQueue, ∃ rid m,
    .popRecv rid m ∈ ops ∧ m.msg = msg.msg ∧ m.src = e.proxyRule.dstEndpoint

theorem written_writes (hc : w.conns id = some c) (hc' : w'.conns id = some c') (id' : ConnId) (p : PairId) :
    (writes id w w').filterMap (Operation.written id' p) = if id = id' then begun c c' p else [] := by
  by_cases hid : id = id'
  · subst hid
    rcases PairId.eq_or_other 0 p with rfl | rfl <;>
      simp [writes, hc, hc', List.filterMap_map, Function.comp_def, Operation.written]
  · simp [writes, hc, hc', List.filterMap_map, Function.comp_def, Operation.written, hid]

theorem started_settled (h : Settled (c.meets ip) c'.machine) (p : PairId) :
    (c'.machine.history.started p).map TcpMachine.Item.msg =
      (c.machine.history.started p).map TcpMachine.Item.msg ++ begun c c' p := by
  cases h with
  | free hip hstarted =>
    rw [begun_nil hstarted, hstarted, List.append_nil]
    rfl
  | @paid q m hsize havail hip hstarted =>
    rw [begun_snoc hstarted, hstarted]
    by_cases hp : p = q
    · subst hp
      simp [TcpMachine.snoc, Connection.meets]
    · simp [TcpMachine.snoc, Connection.meets, hp]

theorem written_run {ops : List Operation} (hw : ∀ id p, ops.filterMap (Operation.written id p) = started w id p)
    (hc : w.conns id = some c) (hconns : w'.conns = Function.update w.conns id (some c'))
    (hops : operations cfg w ev = writes id w w') (h : Settled (c.meets ip) c'.machine) (id' : ConnId)
    (p : PairId) :
    (ops ++ operations cfg w ev).filterMap (Operation.written id' p) = started w' id' p := by
  have hc' : w'.conns id = some c' := by rw [hconns, Function.update_self]
  rw [List.filterMap_append, hw, hops, written_writes hc hc']
  unfold started
  by_cases hid : id = id'
  · subst hid
    rw [if_pos rfl, hc, hc']
    exact (started_settled h p).symm
  · rw [if_neg hid, List.append_nil, hconns, Function.update_of_ne (Ne.symm hid)]

theorem sourced_server {ops : List Operation} {uev : UdpServer.Event} {entry : EntryId} {v : UdpServer.World}
    (hw : Booked cfg w ops) (hstep : UdpServer.step cfg.udp w.lend uev = some v) :
    ∀ id e, v.epts id = some e → ∀ msg ∈ e.sendQueue, ∃ rid m,
      .popRecv rid m ∈ ops ++ operations cfg w (.udp uev entry) ∧ m.msg = msg.msg ∧
        m.src = e.proxyRule.dstEndpoint := by
  obtain ⟨ip, hlend⟩ := lend_eq w
  have hepts : w.lend.epts = w.udp.epts := by rw [hlend]
  have hkeyed := keyed_of_reachable (reachable_lend hw.sharing.reachable hstep)
  intro id e' he' msg hmsg
  have hbecame := UdpServer.became_step hkeyed hstep he'
  obtain ⟨e, he, hin⟩ | ⟨outcome, rid, key, m, rfl, hpop, rfl, hsrc, -⟩ := hbecame.leaving hkeyed msg hmsg
  · have hsame : e'.proxyRule = e.proxyRule := by
      obtain ⟨e₀, he₀, hparams⟩ | ⟨hnew, -⟩ := hbecame.params
      · rw [he] at he₀
        cases he₀
        exact congrArg Prod.fst hparams
      · exact absurd hnew (hkeyed.lt_nextEpt he).ne
    rw [hepts] at he
    obtain ⟨rid, m, hmem, hmsg, hsrc⟩ := hw.sourced id e he msg hin
    exact ⟨rid, m, List.mem_append_left _ hmem, hmsg, hsame ▸ hsrc⟩
  · refine ⟨rid, m, List.mem_append_right _ ?_, rfl, hsrc⟩
    simp [operations, hpop]

theorem booked_step {ops : List Operation} (hlimit : ∀ i, 0 < cfg.bandwidth i) (hw : Booked cfg w ops)
    (hev : ev.Regular) (h : step cfg w ev = some w') : Booked cfg w' (ops ++ operations cfg w ev) := by
  have hsharing := sharing_step hlimit hw.sharing hev h
  have hkeep : ∀ id e, w.udp.epts id = some e → ∀ msg ∈ e.sendQueue, ∃ rid m,
      .popRecv rid m ∈ ops ++ operations cfg w ev ∧ m.msg = msg.msg ∧ m.src = e.proxyRule.dstEndpoint := by
    intro id e he msg hmsg
    obtain ⟨rid, m, hmem, hrest⟩ := hw.sourced id e he msg hmsg
    exact ⟨rid, m, List.mem_append_left _ hmem, hrest⟩
  cases step_cases h with
  | @accept id proxyRule now heap peer entry hfree =>
    refine ⟨hsharing, ?_, hkeep⟩
    intro id' p
    rw [List.filterMap_append, hw.written]
    unfold started
    dsimp only
    by_cases hid : id' = id
    · subst hid
      rw [hfree, Function.update_self]
      rfl
    · rw [Function.update_of_ne hid]
      exact List.append_nil _
  | @tcp id uev c c' hc hrun =>
    exact ⟨hsharing, written_run hw.written hc rfl (operations_tcp h)
      ((run_runs hlimit hrun).settled (hw.sharing.served id c hc)), hkeep⟩
  | @flushSecond id c c' hc hrun =>
    exact ⟨hsharing, written_run hw.written hc rfl (operations_flushSecond h)
      ((runSecond_runs hlimit hrun).settled (hw.sharing.served id c hc)), hkeep⟩
  | @udp uev entry v huev hstep =>
    refine ⟨hsharing, ?_, sourced_server hw hstep⟩
    intro id p
    have hnone : (operations cfg w (.udp uev entry)).filterMap (Operation.written id p) = [] := by
      cases uev <;> simp [operations, Operation.written]
    rw [List.filterMap_append, hnone, List.append_nil]
    exact hw.written id p
  | refill =>
    refine ⟨hsharing, ?_, hkeep⟩
    intro id p
    rw [List.filterMap_append, hw.written]
    exact List.append_nil _

theorem booked_run (hlimit : ∀ i, 0 < cfg.bandwidth i) (h₀ : Initial w₀) (hes : ∀ ev ∈ es, ev.Regular)
    (h : exec (step cfg) w₀ es = some w) : Booked cfg w (trace (step cfg) (operations cfg) w₀ es) := by
  have hstep : ∀ u ev v ops, Booked cfg u ops → ev.Regular → step cfg u ev = some v →
      Booked cfg v (ops ++ operations cfg u ev) :=
    fun u ev v ops hu hev hstep => booked_step hlimit hu hev hstep
  have hstart : Booked cfg w₀ [] := by
    refine ⟨sharing_initial h₀, ?_, ?_⟩
    · intro id p
      unfold started
      rw [h₀.2.1]
      rfl
    · obtain ⟨clock, ip, heap, heq⟩ := h₀.2.2
      intro id e he
      rw [heq] at he
      cases he
  have hrun := exec_traced hstep h (along_of_mem hes w₀) hstart
  rwa [List.nil_append] at hrun

end booked

theorem accounts_agree (hlimit : ∀ i, 0 < cfg.bandwidth i) (h₀ : Initial w₀) (hes : ∀ ev ∈ es, ev.Regular)
    (h : exec (step cfg) w₀ es = some w) :
    (∀ x i, exec TokenBucket.step 0 (trace (step cfg) (postings cfg x i) w₀ es) =
        some ((w.entries x).availBytes i) ∧
      -(tcpBufferSize + tcpPacketExtraOverhead) ≤ (w.entries x).availBytes i) ∧
    (∀ id c, w.conns id = some c → c.machine.conn.clientIp = some (cfg.home c.entry) ∧
      ∀ p, (trace (step cfg) (operations cfg) w₀ es).filterMap (Operation.written id p) =
          (c.machine.history.started p).map TcpMachine.Item.msg ∧
        ((c.machine.history.started p).map fun m => m.msg.buffer.buf).Nodup) ∧
    (∀ id e, w.udp.epts id = some e → e.serverFlag = false →
      e.clientIp = some (cfg.home (w.held id)) ∧ cfg.home (w.held id) = e.proxyRule.dstEndpoint.address ∧
      ∀ msg ∈ e.sendQueue, ∃ rid m, .popRecv rid m ∈ trace (step cfg) (operations cfg) w₀ es ∧
        m.msg = msg.msg ∧ m.src = e.proxyRule.dstEndpoint) := by
  have hbooked := booked_run hlimit h₀ hes h
  have hsharing := hbooked.sharing
  refine ⟨?_, ?_, ?_⟩
  · intro x i
    have hbalanced := balanced_run hlimit h₀ hes h x i
    refine ⟨hbalanced.level, ?_⟩
    have hlow : -maxCharge ≤ 0 := by decide
    exact TokenBucket.low_exec hlow hbalanced.bounded hbalanced.level
  · intro id c hc
    have hserved := hsharing.served id c hc
    refine ⟨hserved.client, fun p => ⟨?_, hserved.sound.started_nodup p⟩⟩
    rw [hbooked.written]
    unfold started
    rw [hc]
    rfl
  · intro id e he hclient
    have haddress := hsharing.billed id e he hclient
    have hhome := hsharing.held id e _ he haddress
    rw [hhome]
    exact ⟨haddress, rfl, hbooked.sourced id e he⟩

def metered : Config := ⟨fun _ => 1000, 1000, fun _ => 9⟩

def listening : World := ⟨fun _ => IPProxy.create, fun _ => none, UdpServer.start, fun _ => 0⟩

def both : List Event :=
  [.udp (.addServerProxy ⟨53, ⟨1, 53⟩, 0, 0, 0⟩ .success) 1, .udp .start 1,
    .accept 0 ⟨3443, ⟨1, 3443⟩, 0, 0⟩ 0 (fun _ _ => 0) 9 0, .tcp 0 (.connect .success),
    .tcp 0 (.store 0 1 [104, 105]), .tcp 0 (.read 0 1 .success 2), .tcp 0 (.store 1 2 [7]),
    .tcp 0 (.read 1 2 .success 1), .tcp 0 (.tick 10 0 0),
    .udp (.arrive 0 1 ⟨9, 4000⟩ [7]) 1, .udp (.handleRecv 0 ⟨1, .success, 1⟩ 1 .success) 1, .udp (.clock 20) 1,
    .udp .tick 1, .udp (.visit ⟨1, 53⟩) 1, .udp (.relay .success) 0, .udp (.relay .success) 1, .flushSecond 0,
    .refill 0 (fun _ => 60), .udp .merge 1, .udp (.enter ⟨9, 4000⟩) 1, .udp (.flush .success .success) 1]

def reached : World := (exec (step metered) listening both).getD listening

set_option maxRecDepth 4000 in
theorem accounts_agree_both :
    (trace (step metered) (charges metered) listening both).map (fun c => (c.entry, c.direction, c.amount)) =
      [(0, 1, 55), (0, 0, 56), (0, 0, 43)] ∧
    exec TokenBucket.step 0 (trace (step metered) (postings metered 0 0) listening both) =
      some ((reached.entries 0).availBytes 0) := by
  have hlimit : ∀ i, 0 < metered.bandwidth i := by decide
  have hstart : Initial listening := ⟨rfl, rfl, UdpServer.initial_start⟩
  have hregular : ∀ ev ∈ both, ev.Regular := by
    simp [both, Event.Regular, UdpServer.Event.Listens]
  have hexec : exec (step metered) listening both = some reached := rfl
  exact ⟨by decide, ((accounts_agree hlimit hstart hregular hexec).1 0 0).1⟩

end TcpUdpProxy.IpSharing
