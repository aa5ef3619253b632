import TcpUdpProxy.IpProxy

namespace TcpUdpProxy

structure UdpMsg where
  msg : Buffer
  time : Msec
  src : Endpoint
  deriving DecidableEq

def UdpMsg.create (buf : BufId) : UdpMsg := ⟨⟨buf, udpBufferSize⟩, 0, ⟨0, 0⟩⟩

def UdpMsg.cost (msg : UdpMsg) : ℤ := msg.msg.bufSize + udpPacketExtraOverhead

structure RecvResult where
  buf : BufId
  error : ErrorCode
  bytesTransferred : ℕ
  deriving DecidableEq

/-- A socket with its receives: `pending` are held by asio, `ready` wait for their handlers. -/
structure UdpSocket where
  isOpen : Bool
  pending : List BufId
  ready : List RecvResult

namespace UdpSocket

def create : UdpSocket := ⟨false, [], []⟩

def close (s : UdpSocket) : UdpSocket :=
  ⟨false, [], s.ready ++ s.pending.map fun buf => ⟨buf, .operationAborted, 0⟩⟩

def asyncReceiveFrom (buf : BufId) (s : UdpSocket) : UdpSocket :=
  if s.isOpen then { s with pending := s.pending ++ [buf] }
  else { s with ready := s.ready ++ [⟨buf, .badDescriptor, 0⟩] }

def complete (r : RecvResult) (s : UdpSocket) : UdpSocket :=
  { s with pending := s.pending.erase r.buf, ready := s.ready ++ [r] }

def take (r : RecvResult) (s : UdpSocket) : UdpSocket := { s with ready := s.ready.erase r }

end UdpSocket

inductive InitOutcome
  | openError
  | setOptionError
  | bindError
  | success
  deriving DecidableEq

structure UdpEndpointProxy where
  proxyRule : UdpProxyRule
  proxySocket : UdpSocket
  recvingMsg : UdpMsg
  serverFlag : Bool
  activeTm : Msec
  recvQueue : List UdpMsg
  sendQueue : List UdpMsg
  recvAvailBytes : ℤ
  sendAvailBytes : ℤ
  recvingFlag : Bool
  clientIp : Option Address

namespace UdpEndpointProxy

def asyncRecv (e : UdpEndpointProxy) : UdpEndpointProxy :=
  { e with proxySocket := e.proxySocket.asyncReceiveFrom e.recvingMsg.msg.buf }

def init (outcome : InitOutcome) (now : Msec) (e : UdpEndpointProxy) : UdpEndpointProxy :=
  -- opening a socket that is open already is an error too
  if e.proxySocket.isOpen ∨ outcome = .openError then e
  else
    let e := { e with proxySocket := { e.proxySocket with isOpen := true } }
    if outcome = .success then { e.asyncRecv with activeTm := now } else e

def create (bandwidth : PairId → ℤ) (proxyRule : UdpProxyRule) (buf : BufId) (outcome : InitOutcome)
    (now : Msec) : UdpEndpointProxy :=
  let serverFlag := proxyRule.srcPort ≠ 0
  init outcome now
    { proxyRule := proxyRule
      proxySocket := .create
      recvingMsg := .create buf
      serverFlag := serverFlag
      activeTm := 0
      recvQueue := []
      sendQueue := []
      recvAvailBytes := 0
      sendAvailBytes := 0
      recvingFlag := true
      clientIp := if serverFlag then none else getIPProxy bandwidth proxyRule.dstEndpoint.address }

def stop (e : UdpEndpointProxy) : UdpEndpointProxy :=
  { e with proxySocket := e.proxySocket.close, activeTm := 0 }

def restart (outcome : InitOutcome) (now : Msec) (e : UdpEndpointProxy) : UdpEndpointProxy :=
  if e.serverFlag then init outcome now e.stop else e.stop

def received (e : UdpEndpointProxy) (bytesTransferred : ℕ) : UdpMsg :=
  { e.recvingMsg with
    time := e.activeTm + e.proxyRule.delayMs
    msg := { e.recvingMsg.msg with bufSize := bytesTransferred } }

def pushRecv (bytesTransferred : ℕ) (nextBuf : BufId) (e : UdpEndpointProxy) : UdpEndpointProxy :=
  { e with recvQueue := e.recvQueue ++ [e.received bytesTransferred], recvingMsg := .create nextBuf }

def dropped (draw : ℤ) (e : UdpEndpointProxy) : Bool :=
  0 < e.proxyRule.dropProb && draw ≤ e.proxyRule.dropProb

/-- `now` is the clock, `draw` the random number, `nextBuf` the allocator of this call. -/
def handleRecv (now : Msec) (draw : ℤ) (outcome : InitOutcome) (r : RecvResult) (nextBuf : BufId)
    (e : UdpEndpointProxy) : UdpEndpointProxy × BufId :=
  if r.error ≠ .success then
    if r.error = .connectionRefused ∨ r.error = .connectionReset then (e.asyncRecv, nextBuf)
    else if r.error ≠ .operationAborted then (e.restart outcome now, nextBuf)
    else (e, nextBuf)
  else
    let e := { e with activeTm := now }
    if e.dropped draw then (e.asyncRecv, nextBuf)
    else
      let e := e.pushRecv r.bytesTransferred nextBuf
      if maxUdpMsgQueueSize < e.recvQueue.length then ({ e with recvingFlag := false }, nextBuf + 1)
      else (e.asyncRecv, nextBuf + 1)

def arrive (buf : BufId) (src : Endpoint) (bytesTransferred : ℕ) (e : UdpEndpointProxy) :
    UdpEndpointProxy :=
  { e with
    proxySocket := e.proxySocket.complete ⟨buf, .success, bytesTransferred⟩
    recvingMsg := { e.recvingMsg with src := src } }

def popRecv (e : UdpEndpointProxy) : UdpEndpointProxy :=
  let e := { e with recvQueue := e.recvQueue.tail }
  if e.recvingFlag = false then asyncRecv { e with recvingFlag := true } else e

end UdpEndpointProxy

end TcpUdpProxy
