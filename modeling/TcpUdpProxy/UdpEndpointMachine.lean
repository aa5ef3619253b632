import TcpUdpProxy.UdpReceive

/-!
One `UdpEndpointProxy` with its socket and the allocator. asio may end a receive at any moment
and with any result, a handler may run at any later moment, and the routine thread may pop a
message or fail to send one in between.
-/

namespace TcpUdpProxy.UdpEndpointMachine

open Execution UdpEndpointProxy

structure World where
  endpoint : UdpEndpointProxy
  nextBuf : BufId

inductive Event
  | arrive (buf : BufId) (src : Endpoint) (bytesTransferred : ℕ)
  | fail (buf : BufId) (error : ErrorCode)
  | handleRecv (r : RecvResult) (now draw : ℤ) (outcome : InitOutcome)
  | popRecv
  | sendError (outcome : InitOutcome) (now : Msec)
  deriving DecidableEq

def World.takeRecv (w : World) (r : RecvResult) : UdpEndpointProxy :=
  { w.endpoint with proxySocket := w.endpoint.proxySocket.take r }

def step (w : World) : Event → Option World
  | .arrive buf src n =>
    if buf ∈ w.endpoint.proxySocket.pending ∧ n ≤ udpBufferSize then
      some { w with endpoint := w.endpoint.arrive buf src n }
    else none
  | .fail buf error =>
    if buf ∈ w.endpoint.proxySocket.pending ∧ error ≠ .success then
      some { w with endpoint := { w.endpoint with
        proxySocket := w.endpoint.proxySocket.complete ⟨buf, error, 0⟩ } }
    else none
  | .handleRecv r now draw outcome =>
    if r ∈ w.endpoint.proxySocket.ready then
      let (endpoint, nextBuf) := (w.takeRecv r).handleRecv now draw outcome r w.nextBuf
      some ⟨endpoint, nextBuf⟩
    else none
  | .popRecv =>
    if w.endpoint.recvQueue ≠ [] then some { w with endpoint := w.endpoint.popRecv } else none
  | .sendError outcome now => some { w with endpoint := w.endpoint.restart outcome now }

def Constructed (w : World) : Prop :=
  ∃ bandwidth rule buf outcome now, w = ⟨create bandwidth rule buf outcome now, buf + 1⟩

/-- A server endpoint that starts over after a failed send is not paused, and no completed
receive of its closed socket has a handler that is still to act. -/
def RestartsIdle (w : World) : Event → Prop
  | .sendError .success _ =>
    w.endpoint.serverFlag = true → w.endpoint.recvingFlag = true ∧
      ∀ r ∈ w.endpoint.proxySocket.ready, r.error = .operationAborted
  | _ => True

instance (w : World) : ∀ ev, Decidable (RestartsIdle w ev)
  | .sendError .success _ => inferInstanceAs (Decidable (_ → _))
  | .sendError .openError _ | .sendError .setOptionError _ | .sendError .bindError _ => isTrue trivial
  | .arrive .. | .fail .. | .handleRecv .. | .popRecv => isTrue trivial

variable {w w' : World} {ev : Event}

theorem single_restart_failed {nextBuf : BufId} {e : UdpEndpointProxy} (h : Single nextBuf e)
    {outcome : InitOutcome} (hfail : outcome ≠ .success) (now : Msec) :
    Single nextBuf (e.restart outcome now) := by
  unfold restart
  split
  · unfold UdpEndpointProxy.init
    split
    · exact h.stop
    · obtain ⟨h₁, h₂, h₃, h₄, h₅, h₆, h₇⟩ := h.stop
      exact ⟨h₁, h₂, h₃, h₄, h₅, h₆, h₇⟩
  · exact h.stop

theorem single_restart {nextBuf : BufId} {e : UdpEndpointProxy} (h : Single nextBuf e)
    (hflag : e.recvingFlag = true)
    (hready : ∀ r ∈ e.proxySocket.ready, r.error = .operationAborted) (outcome : InitOutcome)
    (now : Msec) : Single nextBuf (init outcome now e.stop) := by
  apply Quiet.init
  refine ⟨?_, hflag, h.length_armed hflag, h.allocated, h.older⟩
  show e.proxySocket.close.owed = 0
  rw [UdpSocket.owed_close, List.countP_eq_zero]
  intro r hr
  simp [hready r hr]

theorem single_step (hs : Single w.nextBuf w.endpoint) (hr : RestartsIdle w ev)
    (h : step w ev = some w') : Single w'.nextBuf w'.endpoint := by
  cases ev with
  | arrive buf src n =>
    simp only [step, Option.ite_none_right_eq_some, Option.some.injEq] at h
    obtain ⟨⟨hbuf, -⟩, rfl⟩ := h
    obtain ⟨h₁, h₂, h₃, h₄, h₅, h₆, h₇⟩ := hs.complete (r := ⟨buf, .success, n⟩) hbuf
    exact ⟨h₁, h₂, h₃, h₄, h₅, h₆, h₇⟩
  | fail buf error =>
    simp only [step, Option.ite_none_right_eq_some, Option.some.injEq] at h
    obtain ⟨⟨hbuf, -⟩, rfl⟩ := h
    exact hs.complete (r := ⟨buf, error, 0⟩) hbuf
  | handleRecv r now draw outcome =>
    simp only [step, Option.ite_none_right_eq_some, Option.some.injEq] at h
    obtain ⟨hin, rfl⟩ := h
    by_cases herror : r.error = .operationAborted
    · have hsame : (w.takeRecv r).handleRecv now draw outcome r w.nextBuf = (w.takeRecv r, w.nextBuf) := by
        simp [UdpEndpointProxy.handleRecv, herror]
      rw [hsame]
      exact hs.take_aborted
    · exact ((hs.take hin herror).handleRecv now draw outcome).1
  | popRecv =>
    simp only [step, Option.ite_none_right_eq_some, Option.some.injEq] at h
    obtain ⟨-, rfl⟩ := h
    exact hs.popRecv
  | sendError outcome now =>
    cases h
    by_cases houtcome : outcome = .success
    · subst houtcome
      show Single w.nextBuf (w.endpoint.restart .success now)
      unfold restart
      split
      · rename_i hserver
        exact single_restart hs (hr hserver).1 (hr hserver).2 .success now
      · exact hs.stop
    · exact single_restart_failed hs houtcome now

theorem single_receive {w₀ : World} {es : List Event} (h₀ : Constructed w₀)
    (h : exec step w₀ es = some w) (hg : Along step RestartsIdle w₀ es) :
    w.endpoint.proxySocket.live ≤ 1 ∧
    (∀ buf ∈ w.endpoint.proxySocket.pending, ∀ msg ∈ w.endpoint.recvQueue, msg.msg.buf ≠ buf) ∧
    w.endpoint.recvQueue.length ≤ maxUdpMsgQueueSize + 1 := by
  obtain ⟨bandwidth, rule, buf, outcome, now, rfl⟩ := h₀
  have hs : Single w.nextBuf w.endpoint :=
    exec_guarded (fun _ _ _ => single_step) h hg single_create
  refine ⟨(UdpSocket.live_le_owed _).trans hs.owed_le, ?_, hs.length_le⟩
  intro buf' hbuf msg hmsg
  rw [hs.target buf' hbuf]
  exact (hs.older msg hmsg).ne

def server : World := ⟨create (fun _ => 0) ⟨53, ⟨1, 53⟩, 0, 0, 0⟩ 1 .success 5, 2⟩

def request (buf : BufId) : List Event :=
  [.arrive buf ⟨9, 4000⟩ 7, .handleRecv ⟨buf, .success, 7⟩ 10 1 .success]

def after (w : World) (es : List Event) : World := (exec step w es).getD w

def restarted : List Event := request 1 ++ [.sendError .success 20, .popRecv]

theorem single_receive_restarted : (after server restarted).endpoint.proxySocket.live ≤ 1 := by
  have hexec : exec step server restarted = some (after server restarted) := rfl
  exact (single_receive ⟨_, _, _, _, _, rfl⟩ hexec (by decide)).1

def pausedRestart : List Event :=
  (List.range 51).flatMap (fun i => request (i + 1)) ++ [.sendError .success 20, .popRecv]

set_option maxRecDepth 8000 in
theorem pausedRestart_two_receives : ¬ ∀ (w₀ w : World) (es : List Event), Constructed w₀ →
    exec step w₀ es = some w → w.endpoint.proxySocket.live ≤ 1 ∧
      (∀ buf ∈ w.endpoint.proxySocket.pending, ∀ msg ∈ w.endpoint.recvQueue, msg.msg.buf ≠ buf) ∧
      w.endpoint.recvQueue.length ≤ maxUdpMsgQueueSize + 1 := by
  intro hclaim
  have hlive := (hclaim server (after server pausedRestart) pausedRestart ⟨_, _, _, _, _, rfl⟩ rfl).1
  revert hlive
  decide

end TcpUdpProxy.UdpEndpointMachine
