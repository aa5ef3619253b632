import TcpUdpProxy.TcpMachine

/-!
`TcpProxy` and its io_service, which one thread runs. Completed operations wait in a FIFO with
their results; closing a socket completes what is still outstanding on it with
`operation_aborted`. A handler whose connection has been destroyed may only be dispatched with
that result, on which it returns without touching the object.
-/

namespace TcpUdpProxy.TcpProxy

open TcpConnection TcpMachine Execution

abbrev ConnId := ℕ

structure Config extends TcpMachine.Config where
  tcpTimeout : Msec

inductive Job
  | accept
  | wait
  | conn (id : ConnId) (op : TcpMachine.Op)
  deriving DecidableEq

structure Completion where
  job : Job
  error : ErrorCode
  bytesTransferred : ℕ
  deriving DecidableEq

structure Io where
  outstanding : List Job
  ready : List Completion

structure Entry where
  id : ConnId
  conn : TcpConnection
  nextBuf : BufId

structure World where
  acceptorOpen : Bool
  acceptSocket : SocketState
  closeFlag : Bool
  now : Msec
  lastFlushTm : Msec
  clock : Msec
  tcpConnections : List Entry
  nextConn : ConnId
  io : Io
  fault : Option Fault

/-- What a handler meets: the peer that was accepted, the budgets of the addresses, and whether
`start` and the timer succeed. -/
structure Surroundings where
  peer : Address
  availBytes : ConnId → PairId → ℤ
  startOk : Bool
  timerOk : Bool

inductive Event
  | complete (job : Job) (error : ErrorCode) (bytesTransferred : ℕ)
  | dispatch (s : Surroundings)
  | disconnect (id : ConnId) (p : PairId)
  | disconnectAccepted
  | stop
  | clock (now : Msec)

def Job.isAccept : Job → Bool
  | .accept => true
  | _ => false

def Job.isWait : Job → Bool
  | .wait => true
  | _ => false

def Job.of (id : ConnId) : Job → Bool
  | .conn id' _ => id' = id
  | _ => false

namespace Io

def abort (cancelled : Job → Bool) (io : Io) : Io where
  outstanding := io.outstanding.filter fun job => !cancelled job
  ready := io.ready ++
    (io.outstanding.filter cancelled).map fun job => ⟨job, .operationAborted, 0⟩

def start (closed : Bool) (job : Job) (io : Io) : Io :=
  -- an operation on a closed socket is completed at once
  if closed then { io with ready := io.ready ++ [⟨job, .badDescriptor, 0⟩] }
  else { io with outstanding := io.outstanding ++ [job] }

/-- What an action of a handler of the connection `id` asks of asio; the first component says
whether the sockets of the connection are closed. -/
def perform (id : ConnId) : Bool × Io → Action → Bool × Io
  | (closed, io), .asyncConnect => (closed, io.start closed (.conn id .connect))
  | (closed, io), .asyncRead p buf => (closed, io.start closed (.conn id (.read p buf)))
  | (closed, io), .asyncWrite p msg => (closed, io.start closed (.conn id (.write p msg)))
  | (_, io), .stop _ => (true, io.abort (Job.of id))
  | s, _ => s

end Io

namespace Entry

def frame (availBytes : ConnId → PairId → ℤ) (e : Entry) : Frame :=
  ⟨e.conn, { IPProxy.create with availBytes := availBytes e.id }, e.nextBuf, []⟩

def leave (f : Frame) (e : Entry) : Entry := { e with conn := f.conn, nextBuf := f.nextBuf }

def perform (f : Frame) (e : Entry) (io : Io) : Io :=
  (f.actions.foldl (Io.perform e.id) (e.conn.closeFlag, io)).2

end Entry

def forEach (run : Entry → Except Fault (Bool × Frame)) : List Entry → Io → Except Fault (List Entry × Io)
  | [], io => .ok ([], io)
  | e :: es, io =>
    match run e with
    | .error fault => .error fault
    | .ok (keep, f) =>
      match forEach run es (e.perform f io) with
      | .error fault => .error fault
      | .ok (es, io) => .ok (if keep then e.leave f :: es else es, io)

namespace World

def withLoop (w : World) : Except Fault (List Entry × Io) → World
  | .ok (es, io) => { w with tcpConnections := es, io := io }
  | .error fault => { w with fault := some fault }

def startAccept (w : World) : World :=
  { w with acceptSocket := .unconnected, io := w.io.start (!w.acceptorOpen) .accept }

def closeAcceptor (w : World) : World :=
  { w with acceptorOpen := false, io := w.io.abort Job.isAccept }

def close (s : Surroundings) (w : World) : World :=
  let w := w.closeAcceptor
  let w := { w with io := w.io.abort Job.isWait }
  w.withLoop (forEach (fun e => .ok (true, TcpConnection.stop (e.frame s.availBytes)))
    w.tcpConnections w.io)

def asyncWait (s : Surroundings) (w : World) : World :=
  -- setting the timer anew cancels a wait that is outstanding
  let w := { w with io := w.io.abort Job.isWait }
  if s.timerOk then { w with io := w.io.start false .wait }
  else close s { w with closeFlag := true }

def start (s : Surroundings) (w : World) : World :=
  if s.startOk then asyncWait s (startAccept { w with acceptorOpen := true })
  else { w with closeFlag := true }

/-- `new TcpConnection(*this, accept_socket)` and its `start`. -/
def addConnection (cfg : Config) (s : Surroundings) (w : World) : World :=
  let conn := create ⟨cfg.proxyRule, w.now⟩ (getIPProxy cfg.bandwidth s.peer)
  { w with
    tcpConnections := w.tcpConnections ++ [⟨w.nextConn, conn, 1⟩]
    nextConn := w.nextConn + 1
    io := w.io.start false (.conn w.nextConn .connect) }

def handleAccept (cfg : Config) (s : Surroundings) (error : ErrorCode) (w : World) : World :=
  if error ≠ .success then
    if error ≠ .operationAborted then start s w.closeAcceptor else w
  else
    -- the constructor asks for the address of the peer
    match w.acceptSocket.remoteEndpoint with
    | .error fault => { w with fault := some fault }
    | .ok () => startAccept (addConnection cfg s w)

def flushBytes (cfg : Config) (w : World) : ℤ :=
  ((w.clock - w.lastFlushTm) * cfg.proxyRule.maxBandwidth).tdiv 1000

def flush (cfg : Config) (s : Surroundings) (w : World) : World :=
  let run (e : Entry) :=
    flushMsgs ⟨cfg.proxyRule, w.clock⟩ cfg.bandwidth (w.flushBytes cfg) (w.clock - cfg.tcpTimeout)
      (e.frame s.availBytes)
  { w with now := w.clock, lastFlushTm := w.clock }.withLoop (forEach run w.tcpConnections w.io)

def handleWait (cfg : Config) (s : Surroundings) (error : ErrorCode) (w : World) : World :=
  if error ≠ .success then w
  else if w.closeFlag then close s w
  else
    let w := asyncWait s w
    if w.clock ≤ w.lastFlushTm then { w with now := w.clock } else flush cfg s w

end World

def handle (cfg : Config) (now : Msec) (op : TcpMachine.Op) (error : ErrorCode) (n : ℕ) (f : Frame) :
    Except Fault Frame :=
  match op with
  | .connect =>
    let conn := if error = .success then connectSocket f.conn else f.conn
    .ok (handleConnect ⟨cfg.proxyRule, now⟩ error { f with conn := conn })
  | .read p _ => .ok (handleRead ⟨cfg.proxyRule, now⟩ p error n f)
  | .write p _ => handleWrite ⟨cfg.proxyRule, now⟩ cfg.bandwidth p error f

def World.find (w : World) (id : ConnId) : Option Entry := w.tcpConnections.find? fun e => e.id = id

def World.replace (e : Entry) (w : World) : World :=
  { w with tcpConnections := w.tcpConnections.map fun e' => if e'.id = e.id then e else e' }

def dispatch (cfg : Config) (s : Surroundings) (k : Completion) (w : World) : World :=
  match k.job with
  | .accept => w.handleAccept cfg s k.error
  | .wait => w.handleWait cfg s k.error
  | .conn id op =>
    match w.find id with
    -- the connection has been erased; its handler still holds `this`
    | none => if k.error = .operationAborted then w else { w with fault := some .useAfterFree }
    | some e =>
      match handle cfg w.now op k.error k.bytesTransferred (e.frame s.availBytes) with
      | .error fault => { w with fault := some fault }
      | .ok f => { w.replace (e.leave f) with io := e.perform f w.io }

def disconnect (id : ConnId) (p : PairId) (w : World) : Option World :=
  (w.find id).bind fun e =>
    if e.conn.socketPair p = .connected then
      some (w.replace { e with conn := { e.conn with
        socketPair := Function.update e.conn.socketPair p .unconnected } })
    else none

def run (cfg : Config) (w : World) : Event → Option World
  | .complete job error n =>
    if job ∈ w.io.outstanding ∧ n ≤ tcpBufferSize then
      some { w with
        acceptSocket := if job = .accept ∧ error = .success then .connected else w.acceptSocket
        io := ⟨w.io.outstanding.erase job, w.io.ready ++ [⟨job, error, n⟩]⟩ }
    else none
  | .dispatch s =>
    match w.io.ready with
    | [] => none
    | k :: rest => some (dispatch cfg s k { w with io := { w.io with ready := rest } })
  | .disconnect id p => disconnect id p w
  | .disconnectAccepted =>
    if w.acceptSocket = .connected then some { w with acceptSocket := .unconnected } else none
  | .stop => some { w with closeFlag := true }
  | .clock now => some { w with clock := now }

def step (cfg : Config) (w : World) (ev : Event) : Option World :=
  -- an exception leaves `io_service::run` and ends the process
  if w.fault.isSome then none else run cfg w ev

def started (clock : Msec) : World where
  acceptorOpen := true
  acceptSocket := .unconnected
  closeFlag := false
  now := clock
  lastFlushTm := clock
  clock := clock
  tcpConnections := []
  nextConn := 0
  io := ⟨[.accept, .wait], []⟩
  fault := none

def Started (w : World) : Prop := ∃ clock, w = started clock

def impatient : Config := ⟨⟨⟨3443, ⟨1, 3443⟩, 0, 0⟩, fun _ => 0⟩, 1000⟩

def calm : Surroundings := ⟨7, fun _ _ => 0, true, true⟩

def reached (es : List Event) : World := (exec (step impatient) (started 0) es).getD (started 0)

theorem reachable_reached (es : List Event) : Reachable (step impatient) Started (reached es) := by
  unfold reached
  cases hes : exec (step impatient) (started 0) es with
  | none => exact .start ⟨0, rfl⟩
  | some w => exact ⟨started 0, es, ⟨0, rfl⟩, hes⟩

end TcpUdpProxy.TcpProxy
