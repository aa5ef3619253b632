import Mathlib.Algebra.GroupWithZero.Nat
import Mathlib.Data.Fin.Basic
import Mathlib.Data.Int.Notation
import Mathlib.Logic.Function.Basic

namespace TcpUdpProxy

def udpBufferSize : ℕ := 1500
def tcpBufferSize : ℕ := 4096
def maxUdpMsgQueueSize : ℕ := 50
def maxTcpMsgQueueSize : ℕ := 1
def udpPacketExtraOverhead : ℤ := 42
def tcpPacketExtraOverhead : ℤ := 54

abbrev Msec := ℤ

abbrev Address := ℕ

structure Endpoint where
  address : Address
  port : ℕ
  deriving DecidableEq

structure TcpProxyRule where
  srcPort : ℕ
  dstEndpoint : Endpoint
  maxBandwidth : ℤ := 0
  delayMs : ℤ := 0
  deriving DecidableEq

structure UdpProxyRule where
  srcPort : ℕ
  dstEndpoint : Endpoint
  maxBandwidth : ℤ := 0
  delayMs : ℤ := 0
  dropProb : ℤ := 0
  deriving DecidableEq

/-- The allocations of `new BYTE[]`, numbered as they are made; `0` is the null pointer. -/
abbrev BufId := ℕ

structure Buffer where
  buf : BufId
  bufSize : ℕ
  deriving DecidableEq

abbrev Heap := BufId → ℕ → UInt8

def Buffer.bytes (heap : Heap) (b : Buffer) : List UInt8 := (List.range b.bufSize).map (heap b.buf)

def Heap.store (heap : Heap) (buf : BufId) (data : List UInt8) : Heap :=
  Function.update heap buf fun i => data.getD i (heap buf i)

theorem Buffer.bytes_store {heap : Heap} {b : Buffer} {buf : BufId} (data : List UInt8)
    (h : b.buf ≠ buf) : b.bytes (heap.store buf data) = b.bytes heap := by
  simp [bytes, Heap.store, Function.update_of_ne h]

/-- `boost::system::error_code`, as far as the handlers tell its values apart. -/
inductive ErrorCode
  | success
  | operationAborted
  | eof
  | connectionRefused
  | connectionReset
  | badDescriptor
  | other (value : ℕ)
  deriving DecidableEq

inductive SocketState
  | unconnected
  | connected
  | closed
  deriving DecidableEq

/-- What ends a thread: a failed `XASSERT`, an exception of asio, or a pointer that is not valid. -/
inductive Fault
  | xassert
  | systemError
  | nullPointer
  | useAfterFree
  deriving DecidableEq

def SocketState.remoteEndpoint : SocketState → Except Fault Unit
  | .connected => .ok ()
  | _ => .error .systemError

abbrev PairId := Fin 2

-- The literals `0` and `1` of `PairId` are numerals of `Fin 2` through this instance.
instance PairId.neZero : NeZero 2 := ⟨by decide⟩

@[simp] theorem PairId.other_other (p : PairId) : 1 - (1 - p) = p := by
  revert p; decide

@[simp] theorem PairId.other_ne (p : PairId) : 1 - p ≠ p := by
  revert p; decide

@[simp] theorem PairId.ne_other (p : PairId) : p ≠ 1 - p := (PairId.other_ne p).symm

theorem PairId.eq_or_other (p q : PairId) : q = p ∨ q = 1 - p := by
  revert p q; decide

end TcpUdpProxy
