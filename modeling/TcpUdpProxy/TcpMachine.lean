import TcpUdpProxy.Library.Execution
import TcpUdpProxy.TcpConnection
import Mathlib.Data.Multiset.AddSub

/-!
One `TcpConnection` together with what asio holds for it. Every operation in `outstanding`
may end at any moment and with any result, so each order of the completions of the io_service
is an order of events here; the object is kept when `flushMsgs` has returned false.
-/

namespace TcpUdpProxy.TcpMachine

open TcpConnection

inductive Op
  | connect
  | read (p : PairId) (buf : BufId)
  | write (p : PairId) (msg : Msg)
  deriving DecidableEq

structure Item where
  msg : Msg
  bytes : List UInt8
  deriving DecidableEq

def payload (items : List Item) : List UInt8 := items.flatMap Item.bytes

def item (heap : Heap) (msg : Msg) : Item := ⟨msg, msg.buffer.bytes heap⟩

/-- `received p` was queued by `handleRead(p)`; `popped p` and `started p` were queued for `p`. -/
structure History where
  received : PairId → List Item
  popped : PairId → List Item
  started : PairId → List Item

structure Config where
  proxyRule : TcpProxyRule
  bandwidth : PairId → ℤ

/-- `arrived p` are the bytes that the completed reads of `socket_pair[p]` have delivered. -/
structure World where
  conn : TcpConnection
  ip : IPProxy
  nextBuf : BufId
  heap : Heap
  now : Msec
  outstanding : Multiset Op
  history : History
  arrived : PairId → List UInt8
  fault : Option Fault
  connected : Bool
  failed : Bool

inductive Event
  | connect (ec : ErrorCode)
  | store (p : PairId) (buf : BufId) (data : List UInt8)
  | read (p : PairId) (buf : BufId) (ec : ErrorCode) (bytesTransferred : ℕ)
  | write (p : PairId) (msg : Msg) (ec : ErrorCode)
  | tick (now : Msec) (flushBytes : ℤ) (expireTime : Msec)
  | clock (now : Msec)
  | ip (availBytes : PairId → ℤ)
  | disconnect (p : PairId)
  | stop

def World.frame (w : World) : Frame := ⟨w.conn, w.ip, w.nextBuf, []⟩

def World.view (cfg : Config) (w : World) : ProxyView := ⟨cfg.proxyRule, w.now⟩

def snoc (h : PairId → List Item) (p : PairId) (x : Item) : PairId → List Item :=
  Function.update h p (h p ++ [x])

def issue (outstanding : Multiset Op) : Action → Multiset Op
  | .asyncConnect => .connect ::ₘ outstanding
  | .asyncRead p buf => .read p buf ::ₘ outstanding
  | .asyncWrite p msg => .write p msg ::ₘ outstanding
  | _ => outstanding

def History.note (heap : Heap) (h : History) : Action → History
  | .received p msg => { h with received := snoc h.received p (item heap msg) }
  | .popped p msg => { h with popped := snoc h.popped p (item heap msg) }
  | .asyncWrite p msg => { h with started := snoc h.started p (item heap msg) }
  | _ => h

def World.leave (w : World) (f : Frame) : World :=
  { w with
    conn := f.conn
    ip := f.ip
    nextBuf := f.nextBuf
    outstanding := f.actions.foldl issue w.outstanding
    history := f.actions.foldl (History.note w.heap) w.history }

def World.finish (w : World) : Except Fault Frame → World
  | .ok f => w.leave f
  | .error fault => { w with fault := some fault }

def World.dispatch (w : World) (op : Op) (ec : ErrorCode) : World :=
  { w with outstanding := w.outstanding.erase op, failed := w.failed || ec ≠ .success }

def World.arrive (w : World) (p : PairId) (ec : ErrorCode) (b : Buffer) : World :=
  { w with
    arrived :=
      if ec = .success then Function.update w.arrived p (w.arrived p ++ b.bytes w.heap)
      else w.arrived }

def connectSocket (c : TcpConnection) : TcpConnection :=
  if c.socketPair 1 = .unconnected then
    { c with socketPair := Function.update c.socketPair 1 .connected }
  else c

def handler (cfg : Config) (w : World) : Event → Option (Except Fault Frame)
  | .connect ec => some (.ok (handleConnect (w.view cfg) ec w.frame))
  | .read p _ ec n => some (.ok (handleRead (w.view cfg) p ec n w.frame))
  | .write p _ ec => some (handleWrite (w.view cfg) cfg.bandwidth p ec w.frame)
  | .tick now flushBytes expireTime =>
    some ((flushMsgs ⟨cfg.proxyRule, now⟩ cfg.bandwidth flushBytes expireTime w.frame).map Prod.snd)
  | .stop => some (.ok (TcpConnection.stop w.frame))
  | _ => none

def enter (w : World) : Event → Option World
  | .connect ec =>
    if .connect ∈ w.outstanding then
      let w := w.dispatch .connect ec
      if ec = .success then some { w with conn := connectSocket w.conn, connected := true }
      else some w
    else none
  | .store p buf data =>
    if .read p buf ∈ w.outstanding ∧ data.length ≤ tcpBufferSize then
      some { w with heap := w.heap.store buf data }
    else none
  | .read p buf ec n =>
    if .read p buf ∈ w.outstanding ∧ n ≤ tcpBufferSize then
      some ((w.dispatch (.read p buf) ec).arrive p ec ⟨buf, n⟩)
    else none
  | .write p msg ec =>
    if .write p msg ∈ w.outstanding then some (w.dispatch (.write p msg) ec) else none
  | .tick now _ _ => some { w with now := now }
  | .clock now => some { w with now := now }
  | .ip availBytes => some { w with ip := { w.ip with availBytes := availBytes } }
  | .disconnect p =>
    if w.conn.socketPair p = .connected then
      some { w with conn := { w.conn with
        socketPair := Function.update w.conn.socketPair p .unconnected } }
    else none
  | .stop => some w

def step (cfg : Config) (w : World) (e : Event) : Option World :=
  if w.fault.isSome then none
  else (enter w e).map fun w =>
    match handler cfg w e with
    | some r => w.finish r
    | none => w

def accepted (cfg : Config) (now : Msec) (clientIp : Option Address) (ip : IPProxy) (heap : Heap) :
    World where
  conn := create ⟨cfg.proxyRule, now⟩ clientIp
  ip := ip
  nextBuf := 1
  heap := heap
  now := now
  outstanding := {.connect}
  history := ⟨fun _ => [], fun _ => [], fun _ => []⟩
  arrived _ := []
  fault := none
  connected := false
  failed := false

def Accepted (cfg : Config) (w : World) : Prop :=
  ∃ now clientIp ip heap, w = accepted cfg now clientIp ip heap

def after (cfg : Config) (w : World) (es : List Event) : World :=
  (Execution.exec (step cfg) w es).getD w

theorem reachable_after {cfg : Config} {w : World} (h : Accepted cfg w) (es : List Event) :
    Execution.Reachable (step cfg) (Accepted cfg) (after cfg w es) := by
  unfold after
  cases hes : Execution.exec (step cfg) w es with
  | none => exact .start h
  | some w' => exact ⟨w, es, h, hes⟩

def plain : Config := ⟨⟨3443, ⟨1, 3443⟩, 0, 0⟩, fun _ => 0⟩

def plainStart : World := accepted plain 0 none IPProxy.create fun _ _ => 0

theorem accepted_plainStart : Accepted plain plainStart := ⟨0, none, _, _, rfl⟩

end TcpUdpProxy.TcpMachine
