import TcpUdpProxy.IpProxy
import TcpUdpProxy.Library.Execution
import TcpUdpProxy.UdpEndpoint
import Mathlib.Data.List.AList

/-!
`UdpProxyServer`: its routine thread, one step for each round of a loop, together with the
handlers of the network threads. The routine thread holds the mutex of an endpoint in the phases
`relay` and `flush`; what a destroyed endpoint has pending is never dispatched.
-/

namespace TcpUdpProxy.UdpServer

abbrev EptId := ℕ

structure Config where
  bandwidth : PairId → ℤ
  udpTimeout : Msec

/-- Where the routine thread is; `todo` are the keys that its loop has still to visit. -/
inductive Phase
  | setup
  | sleep
  | scan (todo : List Endpoint)
  | relay (key : Endpoint) (ept : EptId) (todo : List Endpoint)
  | send (todo : List Endpoint)
  | flush (ept : EptId) (todo : List Endpoint)
  | stopped
  deriving DecidableEq

/-- A datagram taken from a `recv_queue`, with its bytes at that time; it was `kept` when the
queue of its sender was not full. -/
structure Relayed where
  msg : UdpMsg
  bytes : List UInt8
  sender : EptId
  kept : Bool
  deriving DecidableEq

structure World where
  endpoints : AList fun _ : Endpoint => EptId
  newEpts : AList fun _ : Endpoint => EptId
  epts : EptId → Option UdpEndpointProxy
  nextEpt : EptId
  nextBuf : BufId
  heap : Heap
  ip : Address → IPProxy
  clock : Msec
  now : Msec
  lastFlushTm : Msec
  interval : Msec
  phase : Phase
  fault : Option Fault
  relayed : List Relayed

inductive Event
  | addServerProxy (rule : UdpProxyRule) (outcome : InitOutcome)
  | start
  | tick
  | visit (key : Endpoint)
  | relay (outcome : InitOutcome)
  | merge
  | enter (key : Endpoint)
  | flush (error : ErrorCode) (outcome : InitOutcome)
  | rest
  | stop
  | arrive (ept : EptId) (buf : BufId) (src : Endpoint) (data : List UInt8)
  | fail (ept : EptId) (buf : BufId) (error : ErrorCode)
  | handleRecv (ept : EptId) (r : RecvResult) (draw : ℤ) (outcome : InitOutcome)
  | clock (now : Msec)
  | ip (ip : Address → IPProxy)

namespace World

def modify (id : EptId) (f : UdpEndpointProxy → UdpEndpointProxy) (w : World) : World :=
  { w with epts := Function.update w.epts id ((w.epts id).map f) }

def destroy (id : EptId) (w : World) : World :=
  { w with epts := Function.update w.epts id none }

/-- The last pointer to what a key was mapped to before is overwritten. -/
def replace (old : Option EptId) (w : World) : World :=
  match old with
  | some id => w.destroy id
  | none => w

def make (bandwidth : PairId → ℤ) (rule : UdpProxyRule) (outcome : InitOutcome) (w : World) : World :=
  { w with
    epts := Function.update w.epts w.nextEpt
      (some (.create bandwidth rule w.nextBuf outcome w.clock))
    nextEpt := w.nextEpt + 1
    nextBuf := w.nextBuf + 1 }

/-- Rules are read before the bandwidth of the addresses is set. -/
def addServerProxy (rule : UdpProxyRule) (outcome : InitOutcome) (w : World) : World :=
  let w' := (w.replace (w.endpoints.lookup rule.dstEndpoint)).make (fun _ => 0) rule outcome
  { w' with endpoints := w.endpoints.insert rule.dstEndpoint w.nextEpt }

def tick (w : World) : World :=
  if w.clock - w.lastFlushTm ≤ 0 then { w with now := w.clock }
  else
    { w with
      now := w.clock
      lastFlushTm := w.clock
      interval := w.clock - w.lastFlushTm
      newEpts := ∅
      relayed := []
      phase := .scan w.endpoints.keys }

end World

def limited (e : UdpEndpointProxy) : Bool := !e.serverFlag && 0 < e.proxyRule.maxBandwidth

def credit (interval : Msec) (e : UdpEndpointProxy) : UdpEndpointProxy :=
  if limited e then
    let bytes := (interval * e.proxyRule.maxBandwidth).tdiv 1000
    { e with
      recvAvailBytes := if e.recvAvailBytes < 0 then e.recvAvailBytes + bytes else e.recvAvailBytes
      sendAvailBytes := if e.sendAvailBytes < 0 then e.sendAvailBytes + bytes else e.sendAvailBytes }
  else e

def expired (cfg : Config) (w : World) (e : UdpEndpointProxy) : Bool :=
  e.activeTm = 0 || (e.activeTm < w.now - cfg.udpTimeout && !e.serverFlag)

/-- The head of the loop over `endpoints`; any key that is left may be the next one. -/
def visit (cfg : Config) (key : Endpoint) (w : World) : Option World :=
  match w.phase, w.endpoints.lookup key with
  | .scan todo, some id =>
    if key ∈ todo then
      (w.epts id).map fun e =>
        if expired cfg w e then
          { w.destroy id with endpoints := w.endpoints.erase key, phase := .scan (todo.erase key) }
        else { w.modify id (credit w.interval) with phase := .relay key id (todo.erase key) }
    else none
  | _, _ => none

def ipGate (cfg : Config) (direction : PairId) (w : World) (e : UdpEndpointProxy) : Except Fault Bool :=
  if e.serverFlag = false ∧ 0 < cfg.bandwidth direction then
    match e.clientIp with
    | none => .error .nullPointer
    | some a => .ok (0 ≤ (w.ip a).availBytes direction)
  else .ok true

def payIp (cfg : Config) (direction : PairId) (e : UdpEndpointProxy) (amount : ℤ) (w : World) : World :=
  match e.clientIp with
  | some a =>
    if e.serverFlag = false ∧ 0 < cfg.bandwidth direction then
      { w with ip := Function.update w.ip a ((w.ip a).charge direction amount) }
    else w
  | none => w

inductive Verdict
  | done
  | fault (fault : Fault)
  | take (msg : UdpMsg)

def recvVerdict (cfg : Config) (key : Endpoint) (w : World) (e : UdpEndpointProxy) : Verdict :=
  match e.recvQueue with
  | [] => .done
  | msg :: _ =>
    if e.recvAvailBytes < 0 then .done
    else if msg.src = key then .fault .xassert
    else if w.now < msg.time then .done
    else
      match ipGate cfg 1 w e with
      | .error fault => .fault fault
      | .ok false => .done
      | .ok true => .take msg

def touch (now : Msec) (e : UdpEndpointProxy) : UdpEndpointProxy :=
  if e.activeTm ≠ 0 then { e with activeTm := now } else e

def pushSend (msg : UdpMsg) (e : UdpEndpointProxy) : UdpEndpointProxy :=
  if e.sendQueue.length < maxUdpMsgQueueSize then { e with sendQueue := e.sendQueue ++ [msg] } else e

def hasRoom (e : UdpEndpointProxy) : Bool := e.sendQueue.length < maxUdpMsgQueueSize

def debitRecv (msg : UdpMsg) (e : UdpEndpointProxy) : UdpEndpointProxy :=
  if limited e then { e with recvAvailBytes := e.recvAvailBytes - msg.cost } else e

namespace World

def pass (sender : EptId) (msg : UdpMsg) (w : World) : World :=
  { w.modify sender (pushSend msg) with
    relayed := w.relayed ++
      [⟨msg, msg.msg.bytes w.heap, sender, (w.epts sender).any hasRoom⟩] }

def stage (src : Endpoint) (sender : EptId) (w : World) : World :=
  { w.replace (w.newEpts.lookup src) with newEpts := w.newEpts.insert src sender }

def clientRule (rule : UdpProxyRule) (src : Endpoint) : UdpProxyRule :=
  { rule with dstEndpoint := src, srcPort := 0 }

/-- A new sender takes the message and dies with it when its `init` has failed. -/
def passNew (cfg : Config) (outcome : InitOutcome) (rule : UdpProxyRule) (src : Endpoint) (msg : UdpMsg)
    (w : World) : World :=
  let made := w.make cfg.bandwidth (clientRule rule src) outcome
  if (made.epts w.nextEpt).any fun e => e.activeTm ≠ 0 then (made.stage src w.nextEpt).pass w.nextEpt msg
  else (made.pass w.nextEpt msg).destroy w.nextEpt

def hand (cfg : Config) (outcome : InitOutcome) (rule : UdpProxyRule) (src : Endpoint) (msg : UdpMsg)
    (w : World) : World :=
  match w.endpoints.lookup src with
  | some sender => (w.modify sender (touch w.now)).pass sender msg
  -- `new_epts` is not searched
  | none => w.passNew cfg outcome rule src msg

def transfer (cfg : Config) (outcome : InitOutcome) (key : Endpoint) (id : EptId)
    (e : UdpEndpointProxy) (msg : UdpMsg) (w : World) : World :=
  ((payIp cfg 1 e msg.cost w).hand cfg outcome e.proxyRule msg.src { msg with src := key }).modify id
    fun e => (debitRecv msg e).popRecv

end World

def relay (cfg : Config) (outcome : InitOutcome) (w : World) : Option World :=
  match w.phase with
  | .relay key id todo =>
    (w.epts id).map fun e =>
      match recvVerdict cfg key w e with
      | .done => { w with phase := .scan todo }
      | .fault fault => { w with fault := some fault }
      | .take msg => w.transfer cfg outcome key id e msg
  | _ => none

def merge (w : World) : Option World :=
  match w.phase with
  | .scan [] =>
    let endpoints := w.endpoints ∪ w.newEpts
    some { w with endpoints := endpoints, newEpts := ∅, phase := .send endpoints.keys }
  | _ => none

def enter (key : Endpoint) (w : World) : Option World :=
  match w.phase, w.endpoints.lookup key with
  | .send todo, some id =>
    if key ∈ todo then some { w with phase := .flush id (todo.erase key) } else none
  | _, _ => none

def sendVerdict (cfg : Config) (w : World) (e : UdpEndpointProxy) : Verdict :=
  match e.sendQueue with
  | [] => .done
  | msg :: _ =>
    if e.sendAvailBytes < 0 then .done
    else
      match ipGate cfg 0 w e with
      | .error fault => .fault fault
      | .ok false => .done
      | .ok true => .take msg

def sent (msg : UdpMsg) (e : UdpEndpointProxy) : UdpEndpointProxy :=
  { e with
    sendAvailBytes := if limited e then e.sendAvailBytes - msg.cost else e.sendAvailBytes
    sendQueue := e.sendQueue.tail }

def flush (cfg : Config) (error : ErrorCode) (outcome : InitOutcome) (w : World) : Option World :=
  match w.phase with
  | .flush id todo =>
    (w.epts id).map fun e =>
      match sendVerdict cfg w e with
      | .done => { w with phase := .send todo }
      | .fault fault => { w with fault := some fault }
      | .take msg =>
        let w := payIp cfg 0 e msg.cost w
        if error ≠ .success then
          { w.modify id fun e => e.restart outcome w.clock with phase := .send todo }
        else w.modify id (sent msg)
  | _ => none

/-- The handlers that lock the mutex of their endpoint wait while the routine thread holds it. -/
def blocked (phase : Phase) (id : EptId) (error : ErrorCode) : Bool :=
  let waits := error ≠ .operationAborted && error ≠ .connectionRefused && error ≠ .connectionReset
  match phase with
  | .relay _ id' _ | .flush id' _ => id' = id && waits
  | _ => false

def handleRecv (id : EptId) (r : RecvResult) (draw : ℤ) (outcome : InitOutcome) (w : World) :
    Option World :=
  match w.epts id with
  | none => none
  | some e =>
    if r ∈ e.proxySocket.ready ∧ !blocked w.phase id r.error then
      let (e, nextBuf) := { e with proxySocket := e.proxySocket.take r }.handleRecv w.clock draw
        outcome r w.nextBuf
      some { w with epts := Function.update w.epts id (some e), nextBuf := nextBuf }
    else none

def arrive (id : EptId) (buf : BufId) (src : Endpoint) (data : List UInt8) (w : World) :
    Option World :=
  match w.epts id with
  | none => none
  | some e =>
    if buf ∈ e.proxySocket.pending ∧ data.length ≤ udpBufferSize then
      some { w.modify id (UdpEndpointProxy.arrive buf src data.length) with
        heap := w.heap.store buf data }
    else none

def fail (id : EptId) (buf : BufId) (error : ErrorCode) (w : World) : Option World :=
  match w.epts id with
  | none => none
  | some e =>
    if buf ∈ e.proxySocket.pending ∧ error ≠ .success then
      some (w.modify id fun e => { e with proxySocket := e.proxySocket.complete ⟨buf, error, 0⟩ })
    else none

def run (cfg : Config) (w : World) : Event → Option World
  | .addServerProxy rule outcome =>
    if w.phase = .setup then some (w.addServerProxy rule outcome) else none
  | .start =>
    if w.phase = .setup then
      some { w with now := w.clock, lastFlushTm := w.clock, phase := .sleep }
    else none
  | .tick => if w.phase = .sleep then some w.tick else none
  | .visit key => visit cfg key w
  | .relay outcome => relay cfg outcome w
  | .merge => merge w
  | .enter key => enter key w
  | .flush error outcome => flush cfg error outcome w
  | .rest => if w.phase = .send [] then some { w with phase := .sleep } else none
  | .stop =>
    if w.phase = .sleep then
      some { w with epts := fun id => (w.epts id).map .stop, phase := .stopped }
    else none
  | .arrive id buf src data => arrive id buf src data w
  | .fail id buf error => fail id buf error w
  | .handleRecv id r draw outcome => handleRecv id r draw outcome w
  | .clock now => some { w with clock := now }
  | .ip ip => some { w with ip := ip }

def step (cfg : Config) (w : World) (ev : Event) : Option World :=
  -- an exception leaves the thread function and ends the process
  if w.fault.isSome then none else run cfg w ev

def initial (clock : Msec) (ip : Address → IPProxy) (heap : Heap) : World where
  endpoints := ∅
  newEpts := ∅
  epts _ := none
  nextEpt := 0
  nextBuf := 1
  heap := heap
  ip := ip
  clock := clock
  now := clock
  lastFlushTm := clock
  interval := 0
  phase := .setup
  fault := none
  relayed := []

def Initial (w : World) : Prop := ∃ clock ip heap, w = initial clock ip heap

end TcpUdpProxy.UdpServer
