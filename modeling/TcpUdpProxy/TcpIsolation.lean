import TcpUdpProxy.TcpProjection

namespace TcpUdpProxy.TcpProxy

open TcpConnection TcpMachine Execution

def Stopped (e : Entry) : Prop := e.conn.closeFlag = true ∧ ∀ p, e.conn.socketPair p = .closed

/-- Each `remote_endpoint()` that the handler of `k` calls finds a peer. -/
def PeerKnown (w : World) (k : Completion) : Prop :=
  match k.job with
  | .accept => k.error = .success → w.acceptSocket = .connected
  | .conn id (.write p _) => k.error ≠ .success → k.error ≠ .operationAborted →
      ∀ e ∈ w.tcpConnections, e.id = id → e.conn.socketPair p = .connected
  | _ => True

/-- What an error makes of the connection: a reader that ends leaves the other side to drain. -/
def Failed (op : TcpMachine.Op) (error : ErrorCode) (e e' : Entry) : Prop :=
  if error = .operationAborted then e' = e
  else
    match op with
    | .read p _ =>
      if e.conn.msgQueuePair (1 - p) = [] then Stopped e'
      else e' = { e with conn := { e.conn with fullOpen := false } }
    | _ => Stopped e'

structure ConnIsolated (op : TcpMachine.Op) (error : ErrorCode) (e : Entry) (w w' : World) : Prop where
  returns : w'.fault = none
  ids : w'.tcpConnections.map Entry.id = w.tcpConnections.map Entry.id
  others : ∀ e' ∈ w.tcpConnections, e'.id ≠ e.id →
    e' ∈ w'.tcpConnections ∧ w'.io.ops e'.id = w.io.ops e'.id
  fails : error ≠ .success → ∃ e' ∈ w'.tcpConnections, e'.id = e.id ∧ Failed op error e e'

def ClosesProxy (s : Surroundings) (error : ErrorCode) : Prop :=
  error ≠ .success ∧ error ≠ .operationAborted ∧ s.startOk = true ∧ s.timerOk = false

structure AcceptIsolated (s : Surroundings) (error : ErrorCode) (w v w' : World) : Prop where
  returns : w'.fault = none
  others : ¬ ClosesProxy s error → ∀ e ∈ w.tcpConnections,
    e ∈ w'.tcpConnections ∧ w'.io.ops e.id = w.io.ops e.id
  closed : ClosesProxy s error → ∀ e ∈ w'.tcpConnections, Stopped e
  again : error = .success →
    w'.io.jobs = .accept ::ₘ .conn w.nextConn .connect ::ₘ v.io.jobs
  restarts : error ≠ .success → error ≠ .operationAborted → s.startOk = true → s.timerOk = true →
    w'.acceptorOpen = true ∧ w'.closeFlag = w.closeFlag ∧
      w'.io.outstanding = w.io.outstanding.filter (fun job => !job.isAccept && !job.isWait) ++ [.accept, .wait]
  refused : error ≠ .success → error ≠ .operationAborted → s.startOk = false → w'.closeFlag = true

section isolation

variable {cfg : Config} {w w' : World} {s : Surroundings} {k : Completion} {rest : List Completion}
  {e : Entry} {op : TcpMachine.Op} {error : ErrorCode} {n : ℕ} {f : Frame} {now : Msec} {io : Io}
  {availBytes : ConnId → PairId → ℤ}

theorem stopped_stop (f : Frame) : Stopped (e.leave (stop f)) := ⟨rfl, fun _ => rfl⟩

theorem Tracks.returns {u : TcpMachine.World} (hu : Tracks cfg now io e u) (hop : op ∈ io.ops e.id)
    (hpeer : ∀ p msg, op = .write p msg → error ≠ .success → error ≠ .operationAborted →
      e.conn.socketPair p = .connected) :
    ∃ f, TcpProxy.handle cfg now op error n (e.frame availBytes) = .ok f := by
  cases op with
  | connect => exact ⟨_, rfl⟩
  | read p buf => exact ⟨_, rfl⟩
  | write p msg =>
    cases hf : TcpProxy.handle cfg now (.write p msg) error n (e.frame availBytes) with
    | ok f => exact ⟨f, rfl⟩
    | error fault =>
      exfalso
      rcases handleWrite_error hf with
        ⟨-, hfail, hlive, hgone⟩ | ⟨-, -, -, hempty⟩ | ⟨-, -, hnone, hlimit⟩
      · exact hgone (hpeer p msg rfl hfail hlive)
      · have hsound : Sound u := TcpMachine.Reachable.sound hu.reachable
        have hwrite : msg ∈ writes u p :=
          (Multiset.mem_filterMap _ _).mpr ⟨_, hu.outstanding ▸ hop, by simp [Op.written]⟩
        obtain ⟨rest, hqueue⟩ := written_queued hsound hwrite
        have hnil : u.conn.msgQueuePair p = [] := hu.conn ▸ hempty
        rw [hqueue] at hnil
        cases hnil
      · rw [hu.client hnone] at hlimit
        exact lt_irrefl 0 hlimit

theorem failed_handle (herror : error ≠ .success)
    (hf : TcpProxy.handle cfg now op error n (e.frame availBytes) = .ok f) :
    Failed op error e (e.leave f) := by
  unfold Failed
  by_cases haborted : error = .operationAborted
  · rw [if_pos haborted]
    subst haborted
    cases op with
    | connect => cases hf; rfl
    | read p buf => cases hf; rfl
    | write p msg => cases hf; rfl
  · rw [if_neg haborted]
    cases op with
    | connect =>
      cases hf
      simp only [herror, if_false]
      have hstop : handleConnect ⟨cfg.proxyRule, now⟩ error (e.frame availBytes) =
          stop (e.frame availBytes) := by
        simp [handleConnect, herror, haborted]
      rw [hstop]
      exact stopped_stop _
    | read p buf =>
      cases hf
      dsimp only
      rcases handleRead_failure ⟨cfg.proxyRule, now⟩ p (e.frame availBytes) herror n with
        ⟨heq, -⟩ | ⟨-, hqueue, heq⟩ | ⟨-, hqueue, heq⟩
      · exact absurd heq haborted
      · have hqueued : e.conn.msgQueuePair (1 - p) ≠ [] := hqueue
        rw [if_neg hqueued, heq]
        rfl
      · have hempty : e.conn.msgQueuePair (1 - p) = [] := hqueue
        rw [if_pos hempty, heq]
        exact stopped_stop _
    | write p msg =>
      rcases handleWrite_failure herror hf with ⟨heq, -⟩ | ⟨-, -, rfl⟩
      · exact absurd heq haborted
      · exact stopped_stop _

theorem conn_isolated (hw : w.Tracked cfg) (hfault : w.fault = none) (hready : w.io.ready = k :: rest)
    (hjob : k.job = .conn e.id op) (he : e ∈ w.tcpConnections) (hpeer : PeerKnown w k) :
    ConnIsolated op k.error e w (dispatch cfg s k (w.pop rest)) := by
  obtain ⟨u, hu⟩ := hw.entries hfault e he
  have hop : op ∈ w.io.ops e.id := ops_pop hready hjob ▸ Multiset.mem_cons_self op _
  have hconnected : ∀ p msg, op = .write p msg → k.error ≠ .success → k.error ≠ .operationAborted →
      e.conn.socketPair p = .connected := by
    rintro p msg rfl hfail hlive
    simp only [PeerKnown, hjob] at hpeer
    exact hpeer hfail hlive e he rfl
  obtain ⟨f, hf⟩ : ∃ f, TcpProxy.handle cfg w.now op k.error k.bytesTransferred
      (e.frame s.availBytes) = .ok f := hu.returns hop hconnected
  have hfind : (w.pop rest).find e.id = some e := by
    cases hfind : (w.pop rest).find e.id with
    | none => exact absurd rfl (World.find_none hfind e he)
    | some e' =>
      obtain ⟨he', hid⟩ := World.mem_of_find hfind
      exact congrArg some (hw.numbered.unique he he' hid)
  have hdispatch : dispatch cfg s k (w.pop rest) =
      { (w.pop rest).replace (e.leave f) with io := e.perform f (w.pop rest).io } := by
    have hf : TcpProxy.handle cfg (w.pop rest).now op k.error k.bytesTransferred
      (e.frame s.availBytes) = .ok f := hf
    simp only [dispatch, hjob, hfind, hf]
  rw [hdispatch]
  refine ⟨hfault, map_id_replace _ _, ?_, ?_⟩
  · intro e' he' hid
    refine ⟨List.mem_map.mpr ⟨e', he', if_neg hid⟩, ?_⟩
    exact (ops_foldl_other f.actions _ (Ne.symm hid)).trans
      (ops_pop_other hready hjob (Ne.symm hid))
  · intro herror
    exact ⟨e.leave f, List.mem_map.mpr ⟨e, he, if_pos rfl⟩, rfl, failed_handle herror hf⟩

theorem SameConnections.trans {u v : World} (h : SameConnections u v) (h' : SameConnections v w) :
    SameConnections u w :=
  ⟨h'.entries.trans h.entries, h'.next.trans h.next, h'.now.trans h.now, h'.fault.trans h.fault,
    h'.conns.trans h.conns⟩

theorem SameConnections.others (h : SameConnections w w') :
    ∀ e ∈ w.tcpConnections, e ∈ w'.tcpConnections ∧ w'.io.ops e.id = w.io.ops e.id := by
  intro e he
  refine ⟨h.entries ▸ he, ?_⟩
  rw [← ops_conns, h.conns, ops_conns]

theorem same_asyncWait (h : s.timerOk = true) : SameConnections w (w.asyncWait s) := by
  unfold World.asyncWait
  dsimp only
  rw [if_pos h]
  exact ⟨rfl, rfl, rfl, rfl, (conns_start rfl).trans conns_abort_wait⟩

theorem same_restart (h : s.startOk = false ∨ s.timerOk = true) :
    SameConnections w (w.closeAcceptor.start s) := by
  have hclose : SameConnections w w.closeAcceptor := ⟨rfl, rfl, rfl, rfl, conns_abort_accept⟩
  unfold World.start
  split
  next hstart =>
    have htimer : s.timerOk = true := by simpa [hstart] using h
    have hopen : SameConnections w.closeAcceptor
        (World.startAccept { w.closeAcceptor with acceptorOpen := true }) :=
      ⟨rfl, rfl, rfl, rfl, conns_start rfl⟩
    exact (hclose.trans hopen).trans (same_asyncWait htimer)
  · exact ⟨hclose.entries, hclose.next, hclose.now, hclose.fault, hclose.conns⟩

theorem forEach_stop (es : List Entry) (io : Io) : ∃ r,
    forEach (fun e => .ok (true, TcpConnection.stop (e.frame availBytes))) es io = .ok r ∧
      ∀ e ∈ r.1, Stopped e := by
  induction es generalizing io with
  | nil => exact ⟨([], io), rfl, by simp⟩
  | cons e es ih =>
    obtain ⟨r, hr, hstopped⟩ := ih (e.perform (TcpConnection.stop (e.frame availBytes)) io)
    refine ⟨(e.leave (TcpConnection.stop (e.frame availBytes)) :: r.1, r.2), ?_, ?_⟩
    · simp [forEach, hr]
    · intro e' he'
      rcases List.mem_cons.mp he' with rfl | he'
      · exact stopped_stop _
      · exact hstopped e' he'

theorem stopped_stopAll (hfault : w.fault = none) :
    (stopAll s w).fault = none ∧ ∀ e ∈ (stopAll s w).tcpConnections, Stopped e := by
  obtain ⟨r, hr, hstopped⟩ : ∃ r, forEach (fun e => .ok (true, TcpConnection.stop
      (e.frame s.availBytes))) w.tcpConnections w.io = .ok r ∧ ∀ e ∈ r.1, Stopped e := forEach_stop _ _
  unfold stopAll
  rw [hr]
  exact ⟨hfault, hstopped⟩

theorem closes_restart (hfault : w.fault = none) (hstart : s.startOk = true)
    (htimer : s.timerOk = false) :
    (w.closeAcceptor.start s).fault = none ∧
      ∀ e ∈ (w.closeAcceptor.start s).tcpConnections, Stopped e := by
  unfold World.start World.asyncWait
  rw [if_pos hstart, if_neg (by simp [htimer])]
  exact stopped_stopAll hfault

theorem outstanding_restart (hstart : s.startOk = true) (htimer : s.timerOk = true) :
    (w.closeAcceptor.start s).acceptorOpen = true ∧ (w.closeAcceptor.start s).closeFlag = w.closeFlag ∧
      (w.closeAcceptor.start s).io.outstanding =
        w.io.outstanding.filter (fun job => !job.isAccept && !job.isWait) ++ [.accept, .wait] := by
  unfold World.start World.asyncWait
  rw [if_pos hstart, if_pos htimer]
  refine ⟨rfl, rfl, ?_⟩
  have hkept : (w.io.outstanding.filter fun job => !job.isAccept).filter (fun job => !job.isWait) =
      w.io.outstanding.filter fun job => !job.isAccept && !job.isWait := by
    rw [List.filter_filter]
    simp only [Bool.and_comm]
  rw [← hkept]
  change List.filter (fun job : Job => !job.isWait)
    ((w.io.outstanding.filter fun job => !job.isAccept) ++ [Job.accept]) ++ [Job.wait] = _
  rw [List.filter_append, List.append_assoc]
  rfl

theorem closeFlag_restart (hstart : s.startOk = false) : (w.closeAcceptor.start s).closeFlag = true := by
  unfold World.start
  rw [if_neg (by simp [hstart])]

theorem accept_isolated (hn : w.Numbered) (hfault : w.fault = none) (hready : w.io.ready = k :: rest)
    (hjob : k.job = .accept) (hpeer : PeerKnown w k) :
    AcceptIsolated s k.error w (w.pop rest) (dispatch cfg s k (w.pop rest)) := by
  have hpop : SameConnections w (w.pop rest) :=
    ⟨rfl, rfl, rfl, rfl, conns_pop hready (by rw [hjob]; rfl)⟩
  have hdispatch : dispatch cfg s k (w.pop rest) = (w.pop rest).handleAccept cfg s k.error := by
    simp only [dispatch, hjob]
  rw [hdispatch]
  unfold World.handleAccept
  by_cases herror : k.error = .success
  · simp only [PeerKnown, hjob] at hpeer
    have hsocket : (w.pop rest).acceptSocket.remoteEndpoint = .ok () := by
      rw [show (w.pop rest).acceptSocket = .connected from hpeer herror]
      rfl
    rw [if_neg (by simpa using herror), hsocket]
    refine ⟨hfault, ?_, fun hcloses => absurd herror hcloses.1, fun _ => ?_, fun hfail => absurd herror hfail,
      fun hfail => absurd herror hfail⟩
    · intro _ e he
      refine ⟨List.mem_append_left _ he, ?_⟩
      have hnew : w.nextConn ≠ e.id := (hn.entries e he).ne'
      calc ((w.pop rest).addConnection cfg s).startAccept.io.ops e.id
          = ((w.pop rest).addConnection cfg s).io.ops e.id := by
            rw [← ops_conns, ← ops_conns ((w.pop rest).addConnection cfg s).io]
            exact congrArg (Io.ops e.id) (conns_start rfl)
        _ = (w.pop rest).io.ops e.id := ops_start_other false hnew
        _ = w.io.ops e.id := (hpop.others e he).2
    · exact (jobs_start _ _).trans (congrArg _ (jobs_start false (.conn w.nextConn .connect)))
  · rw [if_pos herror]
    by_cases haborted : k.error = .operationAborted
    · rw [if_neg (by simpa using haborted)]
      exact ⟨hfault, fun _ => hpop.others, fun hcloses => absurd haborted hcloses.2.1,
        fun hsuccess => absurd hsuccess herror, fun _ hlive => absurd haborted hlive,
        fun _ hlive => absurd haborted hlive⟩
    · rw [if_pos haborted]
      have hrestarts := fun hstart htimer => outstanding_restart (w := w.pop rest) (s := s) hstart htimer
      have hrefused := fun hstart => closeFlag_restart (w := w.pop rest) (s := s) hstart
      by_cases hcloses : ClosesProxy s k.error
      · obtain ⟨hreturns, hstopped⟩ :=
          closes_restart (w := w.pop rest) hfault hcloses.2.2.1 hcloses.2.2.2
        exact ⟨hreturns, fun hnot => absurd hcloses hnot, fun _ => hstopped,
          fun hsuccess => absurd hsuccess herror, fun _ _ => hrestarts, fun _ _ => hrefused⟩
      · have hkept : s.startOk = false ∨ s.timerOk = true := by
          by_contra hnot
          simp only [not_or, Bool.not_eq_false, Bool.not_eq_true] at hnot
          exact hcloses ⟨herror, haborted, hnot.1, hnot.2⟩
        have hsame := hpop.trans (same_restart hkept)
        exact ⟨hsame.fault.trans hfault, fun _ => hsame.others, fun h => absurd h hcloses,
          fun hsuccess => absurd hsuccess herror, fun _ _ => hrestarts, fun _ _ => hrefused⟩

end isolation

def received : List Event :=
  [.complete .accept .success 0, .dispatch calm, .complete (.conn 0 .connect) .success 0,
    .dispatch calm, .complete (.conn 0 (.read 0 1)) .success 5, .dispatch calm]

def refused : List Event :=
  received ++ [.complete .accept .success 0, .dispatch calm, .complete (.conn 1 .connect) .connectionRefused 0]

def acceptFailing : List Event := received ++ [.complete .accept (.other 24) 0]

def halfClosing : List Event := received ++ [.complete (.conn 0 (.read 0 3)) .eof 0]

def resetBeforeHandler : List Event :=
  received ++ [.clock 20, .complete .wait .success 0, .dispatch calm,
    .complete (.conn 0 (.write 1 ⟨0, ⟨1, 5⟩⟩)) .connectionReset 0, .disconnect 0 1, .dispatch calm]

def goneBeforeHandler : List Event :=
  [.complete .accept .success 0, .disconnectAccepted, .dispatch calm]

def untimed : Surroundings := { calm with timerOk := false }

end TcpUdpProxy.TcpProxy
