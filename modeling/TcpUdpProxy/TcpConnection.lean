import TcpUdpProxy.IpProxy

namespace TcpUdpProxy

structure Msg where
  time : Msec
  buffer : Buffer
  deriving DecidableEq

def Msg.cost (msg : Msg) : ℤ := msg.buffer.bufSize + tcpPacketExtraOverhead

structure TcpConnection where
  closeFlag : Bool
  socketPair : PairId → SocketState
  recvBufPair : PairId → BufId
  msgQueuePair : PairId → List Msg
  availableBytesPair : PairId → ℤ
  writingFlagPair : PairId → Bool
  readingFlagPair : PairId → Bool
  activeTime : Msec
  fullOpen : Bool
  clientIp : Option Address

structure ProxyView where
  proxyRule : TcpProxyRule
  now : Msec

inductive Action
  | received (pairId : PairId) (msg : Msg)
  | popped (pairId : PairId) (msg : Msg)
  | charge (direction : PairId) (amount : ℤ)
  | asyncConnect
  | asyncRead (pairId : PairId) (buf : BufId)
  | asyncWrite (pairId : PairId) (msg : Msg)
  | stop (msgQueuePair : PairId → List Msg)

/-- A running handler: the connection, `*client_ip`, the allocator and what was done so far. -/
structure Frame where
  conn : TcpConnection
  ip : IPProxy
  nextBuf : BufId
  actions : List Action

namespace TcpConnection

def create (proxy : ProxyView) (clientIp : Option Address) : TcpConnection where
  closeFlag := false
  socketPair p := if p = 0 then .connected else .unconnected
  recvBufPair _ := 0
  msgQueuePair _ := []
  availableBytesPair _ := 0
  writingFlagPair _ := false
  readingFlagPair _ := true
  activeTime := proxy.now
  fullOpen := false
  clientIp := clientIp

def start (f : Frame) : Frame := { f with actions := f.actions ++ [.asyncConnect] }

def stop (f : Frame) : Frame :=
  { f with
    conn := { f.conn with closeFlag := true, socketPair := fun _ => .closed }
    actions := f.actions ++ [.stop f.conn.msgQueuePair] }

def asyncRead (p : PairId) (f : Frame) : Frame :=
  { f with
    conn := { f.conn with recvBufPair := Function.update f.conn.recvBufPair p f.nextBuf }
    nextBuf := f.nextBuf + 1
    actions := f.actions ++ [.asyncRead p f.nextBuf] }

def queuesEmpty (c : TcpConnection) : Bool :=
  (c.msgQueuePair 0).isEmpty && (c.msgQueuePair 1).isEmpty

def setWriting (p : PairId) (b : Bool) (f : Frame) : Frame :=
  { f with conn := { f.conn with
      writingFlagPair := Function.update f.conn.writingFlagPair p b } }

def setReading (p : PairId) (b : Bool) (f : Frame) : Frame :=
  { f with conn := { f.conn with
      readingFlagPair := Function.update f.conn.readingFlagPair p b } }

def chargeIp (i : PairId) (msg : Msg) (f : Frame) : Frame :=
  { f with ip := f.ip.charge i msg.cost, actions := f.actions ++ [.charge i msg.cost] }

def asyncWrite (proxy : ProxyView) (p : PairId) (msg : Msg) (f : Frame) : Frame :=
  let f : Frame := { f with actions := f.actions ++ [.asyncWrite p msg] }
  let avail := f.conn.availableBytesPair
  let avail :=
    if 0 < proxy.proxyRule.maxBandwidth then Function.update avail p (avail p - msg.cost)
    else avail
  setWriting p true { f with conn := { f.conn with availableBytesPair := avail } }

def startWrite (proxy : ProxyView) (bandwidth : PairId → ℤ) (p : PairId) (f : Frame) :
    Except Fault Frame :=
  match f.conn.msgQueuePair p with
  | [] => .ok (setWriting p false f)
  | msg :: _ =>
    if 0 ≤ f.conn.availableBytesPair p ∧ msg.time ≤ proxy.now then
      if 0 < bandwidth (1 - p) then
        if f.conn.clientIp.isNone then .error .nullPointer
        else if 0 ≤ f.ip.availBytes (1 - p) then
          .ok (asyncWrite proxy p msg (chargeIp (1 - p) msg f))
        else .ok (setWriting p false f)
      else .ok (asyncWrite proxy p msg f)
    else .ok (setWriting p false f)

def resumeRead (p : PairId) (f : Frame) : Frame :=
  if f.conn.readingFlagPair (1 - p) = false then
    asyncRead (1 - p) (setReading (1 - p) true f)
  else f

def popMsg (p : PairId) (msg : Msg) (rest : List Msg) (f : Frame) : Frame :=
  { f with
    conn := { f.conn with msgQueuePair := Function.update f.conn.msgQueuePair p rest }
    actions := f.actions ++ [.popped p msg] }

def handleWrite (proxy : ProxyView) (bandwidth : PairId → ℤ) (p : PairId) (ec : ErrorCode)
    (f : Frame) : Except Fault Frame :=
  if ec ≠ .success then
    if ec ≠ .operationAborted then do
      -- the error is printed together with the address of the peer
      (f.conn.socketPair p).remoteEndpoint
      return stop f
    else .ok f
  else if f.conn.writingFlagPair p then
    match f.conn.msgQueuePair p with
    | [] => .error .xassert
    | msg :: rest =>
      let f := popMsg p msg rest f
      if !f.conn.fullOpen && queuesEmpty f.conn then .ok (stop f)
      else startWrite proxy bandwidth p (resumeRead p f)
  else startWrite proxy bandwidth p f

def handleConnect (proxy : ProxyView) (ec : ErrorCode) (f : Frame) : Frame :=
  if ec ≠ .success then
    if ec ≠ .operationAborted then stop f else f
  else
    asyncRead 1 (asyncRead 0
      { f with conn := { f.conn with activeTime := proxy.now, fullOpen := true } })

def pushMsg (p : PairId) (activeTime : Msec) (msg : Msg) (f : Frame) : Frame :=
  { f with
    conn := { f.conn with
      activeTime := activeTime
      msgQueuePair :=
        Function.update f.conn.msgQueuePair (1 - p) (f.conn.msgQueuePair (1 - p) ++ [msg]) }
    actions := f.actions ++ [.received p msg] }

def readMsg (proxy : ProxyView) (p : PairId) (bytesTransferred : ℕ) (c : TcpConnection) : Msg where
  time := (if c.fullOpen then proxy.now else c.activeTime) + proxy.proxyRule.delayMs
  buffer := ⟨c.recvBufPair p, bytesTransferred⟩

def handleRead (proxy : ProxyView) (p : PairId) (ec : ErrorCode) (bytesTransferred : ℕ)
    (f : Frame) : Frame :=
  if ec ≠ .success then
    if ec ≠ .operationAborted then
      if f.conn.msgQueuePair (1 - p) ≠ [] then { f with conn := { f.conn with fullOpen := false } }
      else stop f
    else f
  else
    let f := pushMsg p (if f.conn.fullOpen then proxy.now else f.conn.activeTime)
      (readMsg proxy p bytesTransferred f.conn) f
    if maxTcpMsgQueueSize < (f.conn.msgQueuePair (1 - p)).length then
      setReading p false f
    else asyncRead p f

def creditPair (proxy : ProxyView) (flushBytes : ℤ) (p : PairId) (f : Frame) : Frame :=
  if 0 < proxy.proxyRule.maxBandwidth ∧ f.conn.availableBytesPair p < 0 then
    { f with conn := { f.conn with
        availableBytesPair := Function.update f.conn.availableBytesPair p
          (f.conn.availableBytesPair p + flushBytes) } }
  else f

def flushPair (proxy : ProxyView) (bandwidth : PairId → ℤ) (flushBytes : ℤ) (p : PairId)
    (f : Frame) : Except Fault Frame :=
  let f := creditPair proxy flushBytes p f
  if f.conn.writingFlagPair p = false then handleWrite proxy bandwidth p .success f else .ok f

def flushMsgs (proxy : ProxyView) (bandwidth : PairId → ℤ) (flushBytes : ℤ) (expireTime : Msec)
    (f : Frame) : Except Fault (Bool × Frame) :=
  if f.conn.closeFlag then .ok (false, f)
  else if f.conn.activeTime < expireTime then .ok (false, stop f)
  else if !f.conn.fullOpen && queuesEmpty f.conn then .ok (true, f)
  else do
    let f ← flushPair proxy bandwidth flushBytes 0 f
    let f ← flushPair proxy bandwidth flushBytes 1 f
    return (true, f)

end TcpConnection

end TcpUdpProxy
