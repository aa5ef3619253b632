import TcpUdpProxy.Library.Execution
import TcpUdpProxy.UdpEndpoint

namespace TcpUdpProxy

namespace UdpSocket

def live (s : UdpSocket) : ℕ := s.pending.length + s.ready.countP fun r => r.error = .success

/-- The receives whose handlers have still to act. -/
def owed (s : UdpSocket) : ℕ := s.pending.length + s.ready.countP fun r => r.error ≠ .operationAborted

variable {s : UdpSocket} {r : RecvResult}

theorem live_le_owed (s : UdpSocket) : s.live ≤ s.owed := by
  apply Nat.add_le_add_left
  apply List.countP_mono_left
  intro r _ hr
  simp only [decide_eq_true_eq] at hr ⊢
  rw [hr]
  simp

@[simp] theorem owed_asyncReceiveFrom (buf : BufId) (s : UdpSocket) :
    (s.asyncReceiveFrom buf).owed = s.owed + 1 := by
  unfold asyncReceiveFrom owed
  split
  · simp only [List.length_append, List.length_singleton]
    omega
  · simp [Nat.add_assoc]

theorem owed_close (s : UdpSocket) :
    s.close.owed = s.ready.countP fun r => r.error ≠ .operationAborted := by
  simp [close, owed]

theorem owed_close_le (s : UdpSocket) : s.close.owed ≤ s.owed := by
  rw [owed_close]
  exact Nat.le_add_left _ _

theorem owed_complete_le (h : r.buf ∈ s.pending) : (s.complete r).owed ≤ s.owed := by
  have hlen := List.length_pos_of_mem h
  unfold complete owed
  simp only [List.length_erase_of_mem h, List.countP_append, List.countP_singleton]
  split <;> omega

theorem owed_take (h : r ∈ s.ready) (hr : r.error ≠ .operationAborted) :
    (s.take r).owed + 1 = s.owed := by
  have hcount := (List.perm_cons_erase h).countP_eq fun r => decide (r.error ≠ .operationAborted)
  rw [List.countP_cons_of_pos (by simpa using hr)] at hcount
  unfold take owed
  simp only [hcount]
  omega

theorem owed_take_le (r : RecvResult) (s : UdpSocket) : (s.take r).owed ≤ s.owed := by
  apply Nat.add_le_add_left
  exact List.Sublist.countP_le List.erase_sublist

end UdpSocket

namespace UdpEndpointProxy

structure Single (nextBuf : BufId) (e : UdpEndpointProxy) : Prop where
  owed_le : e.proxySocket.owed ≤ 1
  paused : e.recvingFlag = false → e.proxySocket.owed = 0
  length_le : e.recvQueue.length ≤ maxUdpMsgQueueSize + 1
  length_armed : e.recvingFlag = true → e.recvQueue.length ≤ maxUdpMsgQueueSize
  target : ∀ buf ∈ e.proxySocket.pending, buf = e.recvingMsg.msg.buf
  allocated : e.recvingMsg.msg.buf < nextBuf
  older : ∀ msg ∈ e.recvQueue, msg.msg.buf < e.recvingMsg.msg.buf

structure Quiet (nextBuf : BufId) (e : UdpEndpointProxy) : Prop where
  owed_eq : e.proxySocket.owed = 0
  flag : e.recvingFlag = true
  length_le : e.recvQueue.length ≤ maxUdpMsgQueueSize
  allocated : e.recvingMsg.msg.buf < nextBuf
  older : ∀ msg ∈ e.recvQueue, msg.msg.buf < e.recvingMsg.msg.buf

variable {nextBuf : BufId} {e : UdpEndpointProxy} {r : RecvResult}

theorem pending_of_owed {s : UdpSocket} (h : s.owed = 0) : s.pending = [] := by
  apply List.eq_nil_of_length_eq_zero
  unfold UdpSocket.owed at h
  omega

theorem Quiet.single (h : Quiet nextBuf e) : Single nextBuf e where
  owed_le := by rw [h.owed_eq]; exact Nat.zero_le 1
  paused _ := h.owed_eq
  length_le := Nat.le_succ_of_le h.length_le
  length_armed _ := h.length_le
  target := by rw [pending_of_owed h.owed_eq]; simp
  allocated := h.allocated
  older := h.older

theorem Quiet.asyncRecv (h : Quiet nextBuf e) : Single nextBuf e.asyncRecv where
  owed_le := by
    show (e.proxySocket.asyncReceiveFrom _).owed ≤ 1
    rw [UdpSocket.owed_asyncReceiveFrom, h.owed_eq]
  paused hflag := by
    have htrue : e.recvingFlag = false := hflag
    rw [h.flag] at htrue
    cases htrue
  length_le := Nat.le_succ_of_le h.length_le
  length_armed _ := h.length_le
  target := by
    show ∀ buf ∈ (e.proxySocket.asyncReceiveFrom e.recvingMsg.msg.buf).pending,
      buf = e.recvingMsg.msg.buf
    have hnil := pending_of_owed h.owed_eq
    unfold UdpSocket.asyncReceiveFrom
    split <;> simp [hnil]
  allocated := h.allocated
  older := h.older

theorem Quiet.init (h : Quiet nextBuf e) (outcome : InitOutcome) (now : Msec) :
    Single nextBuf (e.init outcome now) := by
  unfold UdpEndpointProxy.init
  split
  · exact h.single
  · have hopen : Quiet nextBuf { e with proxySocket := { e.proxySocket with isOpen := true } } :=
      ⟨h.owed_eq, h.flag, h.length_le, h.allocated, h.older⟩
    split
    · obtain ⟨h₁, h₂, h₃, h₄, h₅, h₆, h₇⟩ := hopen.asyncRecv
      exact ⟨h₁, h₂, h₃, h₄, h₅, h₆, h₇⟩
    · exact hopen.single

theorem Quiet.stop (h : Quiet nextBuf e) : Quiet nextBuf e.stop where
  owed_eq := Nat.le_zero.mp (h.owed_eq ▸ UdpSocket.owed_close_le e.proxySocket)
  flag := h.flag
  length_le := h.length_le
  allocated := h.allocated
  older := h.older

theorem Single.stop (h : Single nextBuf e) : Single nextBuf e.stop where
  owed_le := (UdpSocket.owed_close_le _).trans h.owed_le
  paused hflag := Nat.le_zero.mp (h.paused hflag ▸ UdpSocket.owed_close_le e.proxySocket)
  length_le := h.length_le
  length_armed := h.length_armed
  target := by simp [UdpEndpointProxy.stop, UdpSocket.close]
  allocated := h.allocated
  older := h.older

theorem Single.mono {nextBuf' : BufId} (h : Single nextBuf e) (hle : nextBuf ≤ nextBuf') :
    Single nextBuf' e :=
  ⟨h.owed_le, h.paused, h.length_le, h.length_armed, h.target, h.allocated.trans_le hle, h.older⟩

theorem Single.flag (h : Single nextBuf e) (howed : e.proxySocket.owed ≠ 0) :
    e.recvingFlag = true := by
  by_contra hflag
  exact howed (h.paused (by simpa using hflag))

theorem Single.take (h : Single nextBuf e) (hr : r ∈ e.proxySocket.ready)
    (herror : r.error ≠ .operationAborted) :
    Quiet nextBuf { e with proxySocket := e.proxySocket.take r } := by
  have howed := UdpSocket.owed_take hr herror
  have hle := h.owed_le
  have hflag : e.recvingFlag = true := by
    apply h.flag
    omega
  refine ⟨?_, hflag, h.length_armed hflag, h.allocated, h.older⟩
  show (e.proxySocket.take r).owed = 0
  omega

theorem Single.take_aborted (h : Single nextBuf e) :
    Single nextBuf { e with proxySocket := e.proxySocket.take r } where
  owed_le := (UdpSocket.owed_take_le r _).trans h.owed_le
  paused hflag := Nat.le_zero.mp (h.paused hflag ▸ UdpSocket.owed_take_le r e.proxySocket)
  length_le := h.length_le
  length_armed := h.length_armed
  target := h.target
  allocated := h.allocated
  older := h.older

theorem Quiet.restart (h : Quiet nextBuf e) (outcome : InitOutcome) (now : Msec) :
    Single nextBuf (e.restart outcome now) := by
  unfold UdpEndpointProxy.restart
  split
  · exact h.stop.init outcome now
  · exact h.stop.single

theorem Quiet.handleRecv (h : Quiet nextBuf e) (now draw : ℤ) (outcome : InitOutcome) :
    Single (e.handleRecv now draw outcome r nextBuf).2 (e.handleRecv now draw outcome r nextBuf).1 ∧
      nextBuf ≤ (e.handleRecv now draw outcome r nextBuf).2 := by
  have hactive : Quiet nextBuf { e with activeTm := now } :=
    ⟨h.owed_eq, h.flag, h.length_le, h.allocated, h.older⟩
  unfold UdpEndpointProxy.handleRecv
  split
  · split
    · exact ⟨h.asyncRecv, le_refl _⟩
    · split
      · exact ⟨h.restart outcome now, le_refl _⟩
      · exact ⟨h.single, le_refl _⟩
  · dsimp only
    split
    · exact ⟨hactive.asyncRecv, le_refl _⟩
    · have holder : ∀ msg ∈ e.recvQueue ++ [received { e with activeTm := now } r.bytesTransferred],
          msg.msg.buf < nextBuf := by
        intro msg hmsg
        rcases List.mem_append.mp hmsg with hmsg | hmsg
        · exact (h.older msg hmsg).trans h.allocated
        · obtain rfl := List.mem_singleton.mp hmsg
          exact h.allocated
      split
      · rename_i hlong
        refine ⟨⟨?_, ?_, ?_, ?_, ?_, ?_, ?_⟩, Nat.le_succ _⟩
        · exact h.owed_eq.le.trans (Nat.zero_le 1)
        · exact fun _ => h.owed_eq
        · simpa [pushRecv] using h.length_le
        · rintro ⟨⟩
        · show ∀ buf ∈ e.proxySocket.pending, _
          rw [pending_of_owed h.owed_eq]
          simp
        · exact Nat.lt_succ_self nextBuf
        · exact holder
      · rename_i hshort
        refine ⟨Quiet.asyncRecv ⟨h.owed_eq, h.flag, ?_, Nat.lt_succ_self nextBuf, holder⟩, Nat.le_succ _⟩
        exact not_lt.mp hshort

theorem Single.popRecv (h : Single nextBuf e) : Single nextBuf e.popRecv := by
  have hlength := h.length_le
  have holder : ∀ msg ∈ e.recvQueue.tail, msg.msg.buf < e.recvingMsg.msg.buf :=
    fun msg hmsg => h.older msg (List.mem_of_mem_tail hmsg)
  have htail : e.recvQueue.tail.length ≤ maxUdpMsgQueueSize := by
    rw [List.length_tail]
    omega
  unfold UdpEndpointProxy.popRecv
  dsimp only
  split
  · rename_i hflag
    exact Quiet.asyncRecv ⟨h.paused hflag, rfl, htail, h.allocated, holder⟩
  · exact ⟨h.owed_le, h.paused, Nat.le_succ_of_le htail, fun _ => htail, h.target, h.allocated, holder⟩

theorem Single.complete (h : Single nextBuf e) (hr : r.buf ∈ e.proxySocket.pending) :
    Single nextBuf { e with proxySocket := e.proxySocket.complete r } where
  owed_le := (UdpSocket.owed_complete_le hr).trans h.owed_le
  paused hflag := Nat.le_zero.mp (h.paused hflag ▸ UdpSocket.owed_complete_le hr)
  length_le := h.length_le
  length_armed := h.length_armed
  target buf hbuf := h.target buf (List.mem_of_mem_erase hbuf)
  allocated := h.allocated
  older := h.older

theorem single_create {bandwidth : PairId → ℤ} {rule : UdpProxyRule} {buf : BufId} {now : Msec}
    {outcome : InitOutcome} : Single (buf + 1) (create bandwidth rule buf outcome now) := by
  unfold create
  apply Quiet.init
  exact ⟨rfl, rfl, Nat.zero_le _, Nat.lt_succ_self buf, by simp⟩

end UdpEndpointProxy

end TcpUdpProxy
