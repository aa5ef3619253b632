import TcpUdpProxy.Library.BoundedRelay
import TcpUdpProxy.TcpMachine
import Mathlib.Data.Multiset.Filter
import Mathlib.Data.Multiset.Count

/-!
Each direction of a connection is a bounded relay: what is read from `socket_pair[1 - d]`
is queued in `msg_queue_pair[d]` and written to `socket_pair[d]`.
-/

namespace TcpUdpProxy.TcpMachine

open TcpConnection Execution

def Op.isRead (p : PairId) : Op → Bool
  | .read q _ => q = p
  | _ => false

def Op.written (p : PairId) : Op → Option Msg
  | .write q msg => if q = p then some msg else none
  | _ => none

@[simp] theorem isRead_connect (p : PairId) : Op.connect.isRead p = false := rfl

@[simp] theorem isRead_read (p q : PairId) (buf : BufId) :
    (Op.read q buf).isRead p = decide (q = p) := rfl

@[simp] theorem isRead_write (p q : PairId) (msg : Msg) : (Op.write q msg).isRead p = false := rfl

def reads (w : World) (p : PairId) : ℕ := w.outstanding.countP (fun op => op.isRead p)

def writes (w : World) (p : PairId) : Multiset Msg := w.outstanding.filterMap (Op.written p)

def direction (d : PairId) (w : World) : BoundedRelay.State Item where
  queue := (w.conn.msgQueuePair d).map (item w.heap)
  writing := w.conn.writingFlagPair d
  reading := w.conn.readingFlagPair (1 - d)
  opened := w.connected
  failed := w.failed
  reads := reads w (1 - d)
  writes := (writes w d).map (item w.heap)
  received := w.history.received (1 - d)
  popped := w.history.popped d
  started := w.history.started d

section outstanding

variable (d p : PairId) (ops : Multiset Op)

@[simp] theorem written_connect :
    (Op.connect ::ₘ ops).filterMap (Op.written d) = ops.filterMap (Op.written d) :=
  Multiset.filterMap_cons_none _ _ rfl

@[simp] theorem written_read (buf : BufId) :
    (Op.read p buf ::ₘ ops).filterMap (Op.written d) = ops.filterMap (Op.written d) :=
  Multiset.filterMap_cons_none _ _ rfl

@[simp] theorem written_write (msg : Msg) :
    (Op.write d msg ::ₘ ops).filterMap (Op.written d) = msg ::ₘ ops.filterMap (Op.written d) :=
  Multiset.filterMap_cons_some _ _ _ (by simp [Op.written])

@[simp] theorem written_write_other (msg : Msg) :
    (Op.write (1 - d) msg ::ₘ ops).filterMap (Op.written d) = ops.filterMap (Op.written d) :=
  Multiset.filterMap_cons_none _ _ (by simp [Op.written])

end outstanding

/-! What the parts of the handlers do to the two directions. -/

section parts

variable (w : World) (d p : PairId) (f : Frame)

theorem direction_stop : direction d (w.leave (stop f)) = direction d (w.leave f) := by
  simp [direction, World.leave, stop, reads, writes, issue, History.note]

theorem direction_asyncRead :
    direction d (w.leave (asyncRead (1 - d) f)) =
      { direction d (w.leave f) with reads := (direction d (w.leave f)).reads + 1 } := by
  simp [direction, World.leave, asyncRead, reads, writes, issue, History.note]

theorem direction_asyncRead_other :
    direction d (w.leave (asyncRead d f)) = direction d (w.leave f) := by
  simp [direction, World.leave, asyncRead, reads, writes, issue, History.note]

theorem direction_setWriting (b : Bool) :
    direction d (w.leave (setWriting d b f)) = { direction d (w.leave f) with writing := b } := by
  simp [direction, World.leave, setWriting, reads, writes]

theorem direction_setWriting_other (b : Bool) :
    direction d (w.leave (setWriting (1 - d) b f)) = direction d (w.leave f) := by
  simp [direction, World.leave, setWriting, reads, writes]

theorem direction_setReading (b : Bool) :
    direction d (w.leave (setReading (1 - d) b f)) =
      { direction d (w.leave f) with reading := b } := by
  simp [direction, World.leave, setReading, reads, writes]

theorem direction_setReading_other (b : Bool) :
    direction d (w.leave (setReading d b f)) = direction d (w.leave f) := by
  simp [direction, World.leave, setReading, reads, writes]

theorem direction_chargeIp (msg : Msg) :
    direction d (w.leave (chargeIp p msg f)) = direction d (w.leave f) := by
  simp [direction, World.leave, chargeIp, reads, writes, issue, History.note]

theorem direction_creditPair (proxy : ProxyView) (flushBytes : ℤ) :
    direction d (w.leave (creditPair proxy flushBytes p f)) = direction d (w.leave f) := by
  unfold creditPair
  split <;> rfl

theorem direction_asyncWrite (proxy : ProxyView) (msg : Msg) :
    direction d (w.leave (asyncWrite proxy d msg f)) =
      { direction d (w.leave f) with
        writing := true
        writes := item w.heap msg ::ₘ (direction d (w.leave f)).writes
        started := (direction d (w.leave f)).started ++ [item w.heap msg] } := by
  simp [direction, World.leave, asyncWrite, setWriting, reads, writes, issue, History.note, snoc]

theorem direction_asyncWrite_other (proxy : ProxyView) (msg : Msg) :
    direction d (w.leave (asyncWrite proxy (1 - d) msg f)) = direction d (w.leave f) := by
  simp [direction, World.leave, asyncWrite, setWriting, reads, writes, issue, History.note, snoc]

theorem direction_popMsg (msg : Msg) (rest : List Msg) :
    direction d (w.leave (popMsg d msg rest f)) =
      { direction d (w.leave f) with
        queue := rest.map (item w.heap)
        popped := (direction d (w.leave f)).popped ++ [item w.heap msg] } := by
  simp [direction, World.leave, popMsg, reads, writes, issue, History.note, snoc]

theorem direction_popMsg_other (msg : Msg) (rest : List Msg) :
    direction d (w.leave (popMsg (1 - d) msg rest f)) = direction d (w.leave f) := by
  simp [direction, World.leave, popMsg, reads, writes, issue, History.note, snoc]

theorem direction_pushMsg (activeTime : Msec) (msg : Msg) :
    direction d (w.leave (pushMsg (1 - d) activeTime msg f)) =
      { direction d (w.leave f) with
        queue := (direction d (w.leave f)).queue ++ [item w.heap msg]
        received := (direction d (w.leave f)).received ++ [item w.heap msg] } := by
  simp [direction, World.leave, pushMsg, reads, writes, issue, History.note, snoc]

theorem direction_pushMsg_other (activeTime : Msec) (msg : Msg) :
    direction d (w.leave (pushMsg d activeTime msg f)) = direction d (w.leave f) := by
  simp [direction, World.leave, pushMsg, reads, writes, issue, History.note, snoc]

end parts

end TcpUdpProxy.TcpMachine
