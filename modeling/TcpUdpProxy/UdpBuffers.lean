import TcpUdpProxy.UdpAssertion
import TcpUdpProxy.UdpReceive

namespace TcpUdpProxy.UdpServer

open UdpEndpointProxy Relation Execution

/-- No socket operation fails, but for the receives of sockets that were closed. -/
def Succeeds (_ : World) : Event → Prop
  | .addServerProxy _ outcome | .relay outcome => outcome = .success
  | .flush error _ => error = .success
  | .fail .. => False
  | .handleRecv _ r _ _ => r.error = .success ∨ r.error = .operationAborted
  | _ => True

instance (w : World) : ∀ ev, Decidable (Succeeds w ev)
  | .addServerProxy _ outcome | .relay outcome => inferInstanceAs (Decidable (outcome = .success))
  | .flush error _ => inferInstanceAs (Decidable (error = .success))
  | .fail .. => isFalse id
  | .handleRecv _ r _ _ =>
    inferInstanceAs (Decidable (r.error = .success ∨ r.error = .operationAborted))
  | .start | .tick | .visit _ | .merge | .enter _ | .rest | .stop | .arrive .. | .clock _ | .ip _ =>
    isTrue trivial

variable {cfg : Config} {w w' : World} {ev : Event} {e e' : UdpEndpointProxy} {id : EptId} {b : BufId}

def receiver (e : UdpEndpointProxy) : UdpSocket × Bool × List UdpMsg × BufId :=
  (e.proxySocket, e.recvingFlag, e.recvQueue, e.recvingMsg.msg.buf)

theorem Single.of_receiver (h : Single b e) (heq : receiver e' = receiver e) : Single b e' := by
  simp only [receiver, Prod.mk.injEq] at heq
  obtain ⟨hsocket, hflag, hqueue, hbuf⟩ := heq
  constructor
  · rw [hsocket]
    exact h.owed_le
  · rw [hsocket, hflag]
    exact h.paused
  · rw [hqueue]
    exact h.length_le
  · rw [hflag, hqueue]
    exact h.length_armed
  · rw [hsocket, hbuf]
    exact h.target
  · rw [hbuf]
    exact h.allocated
  · rw [hqueue, hbuf]
    exact h.older

theorem receiver_credit (interval : Msec) (e : UdpEndpointProxy) :
    receiver (credit interval e) = receiver e := by
  unfold credit
  split <;> rfl

theorem receiver_touch (now : Msec) (e : UdpEndpointProxy) : receiver (touch now e) = receiver e := by
  unfold touch
  split <;> rfl

theorem receiver_pushSend (msg : UdpMsg) (e : UdpEndpointProxy) :
    receiver (pushSend msg e) = receiver e := by
  unfold pushSend
  split <;> rfl

theorem receiver_debitRecv (msg : UdpMsg) (e : UdpEndpointProxy) :
    receiver (debitRecv msg e) = receiver e := by
  unfold debitRecv
  split <;> rfl

theorem handled_aborted {r : RecvResult} {draw : ℤ} {outcome : InitOutcome}
    (hr : r.error = .operationAborted) :
    handled w r draw outcome e = ({ e with proxySocket := e.proxySocket.take r }, w.nextBuf) := by
  simp [handled, UdpEndpointProxy.handleRecv, hr]

theorem Change.single (h : Change w ev e e') (hstep : Stepped cfg w ev w') (hg : Succeeds w ev)
    (hall : ∀ id e, w.epts id = some e → Single w.nextBuf e) (hs : Single w'.nextBuf e) :
    Single w'.nextBuf e' := by
  cases h with
  | credit => exact Single.of_receiver hs (receiver_credit ..)
  | touch => exact Single.of_receiver hs (receiver_touch ..)
  | pushSend => exact Single.of_receiver hs (receiver_pushSend ..)
  | popRecv => exact (Single.of_receiver hs (receiver_debitRecv ..)).popRecv
  | restart herror => exact absurd hg herror
  | sent => exact Single.of_receiver hs rfl
  | stop => exact hs.stop
  | arrive hbuf => exact Single.of_receiver (hs.complete hbuf) rfl
  | fail => exact absurd hg id
  | @handleRecv id r draw outcome e he hr =>
    cases hstep with
    | handleRecv he' =>
      rw [he] at he'
      cases he'
      by_cases hr' : r.error = .operationAborted
      · rw [handled_aborted hr']
        exact (hall id e he).take_aborted
      · exact ((hall id e he).take hr hr').handleRecv w.clock draw outcome |>.1

theorem single_changes (hstep : Stepped cfg w ev w') (hg : Succeeds w ev)
    (hall : ∀ id e, w.epts id = some e → Single w.nextBuf e) (hs : Single w'.nextBuf e)
    (h : ReflTransGen (Change w ev) e e') : Single w'.nextBuf e' := by
  induction h with
  | refl => exact hs
  | tail _ h ih => exact h.single hstep hg hall ih

/-- No receive will be armed on the buffer again. -/
def Released (w : World) (b : BufId) : Prop :=
  b < w.nextBuf ∧ ∀ id e, w.epts id = some e → e.recvingMsg.msg.buf ≠ b

structure Buffered (w : World) : Prop where
  allocated : ∀ id e, w.epts id = some e → e.recvingMsg.msg.buf < w.nextBuf
  distinct : ∀ id id' e e', w.epts id = some e → w.epts id' = some e' →
    e.recvingMsg.msg.buf = e'.recvingMsg.msg.buf → id = id'
  queued : ∀ id e, w.epts id = some e → ∀ msg ∈ e.recvQueue, Released w msg.msg.buf

structure Healthy (w : World) : Prop where
  single : ∀ id e, w.epts id = some e → Single w.nextBuf e
  distinct : ∀ id id' e e', w.epts id = some e → w.epts id' = some e' →
    e.recvingMsg.msg.buf = e'.recvingMsg.msg.buf → id = id'
  queued : ∀ id e, w.epts id = some e → ∀ msg ∈ e.recvQueue, Released w msg.msg.buf

inductive Rebuffered (w : World) (ev : Event) (nextBuf : BufId) (id : EptId) (e' : UdpEndpointProxy) : Prop
  | kept {d} (hd : w.epts id = some d) (hbuf : e'.recvingMsg.msg.buf = d.recvingMsg.msg.buf)
      (hqueue : e'.recvQueue ⊆ d.recvQueue)
  | fresh (hid : id = allocating w ev) (hlt : w.nextBuf < nextBuf)
      (hbuf : e'.recvingMsg.msg.buf = w.nextBuf)
      (hqueue : ∀ msg ∈ e'.recvQueue, ∃ d, w.epts id = some d ∧
        (msg ∈ d.recvQueue ∨ msg.msg.buf = d.recvingMsg.msg.buf))

theorem buf_init (outcome : InitOutcome) (now : Msec) (e : UdpEndpointProxy) :
    (e.init outcome now).recvingMsg.msg.buf = e.recvingMsg.msg.buf := by
  unfold UdpEndpointProxy.init
  split
  · rfl
  · dsimp only
    split <;> rfl

theorem buf_popRecv (e : UdpEndpointProxy) :
    e.popRecv.recvingMsg.msg.buf = e.recvingMsg.msg.buf := by
  unfold popRecv
  dsimp only
  split <;> rfl

theorem buf_restart (outcome : InitOutcome) (now : Msec) (e : UdpEndpointProxy) :
    (e.restart outcome now).recvingMsg.msg.buf = e.recvingMsg.msg.buf := by
  unfold restart
  split
  · exact buf_init outcome now e.stop
  · rfl

theorem recvQueue_of_receiver (h : receiver e' = receiver e) :
    e'.recvingMsg.msg.buf = e.recvingMsg.msg.buf ∧ e'.recvQueue ⊆ e.recvQueue := by
  simp only [receiver, Prod.mk.injEq] at h
  obtain ⟨-, -, hqueue, hbuf⟩ := h
  exact ⟨hbuf, by rw [hqueue]; exact List.Subset.refl _⟩

theorem Change.buf (h : Change w ev e e') (hev : ∀ id r draw outcome, ev ≠ .handleRecv id r draw outcome) :
    e'.recvingMsg.msg.buf = e.recvingMsg.msg.buf ∧ e'.recvQueue ⊆ e.recvQueue := by
  cases h with
  | credit => exact recvQueue_of_receiver (receiver_credit ..)
  | touch => exact recvQueue_of_receiver (receiver_touch ..)
  | pushSend => exact recvQueue_of_receiver (receiver_pushSend ..)
  | popRecv msg =>
    rw [recvQueue_popRecv, buf_popRecv, recvQueue_debitRecv]
    refine ⟨(recvQueue_of_receiver (receiver_debitRecv msg e)).1, ?_⟩
    exact fun _ => List.mem_of_mem_tail
  | restart =>
    rw [recvQueue_restart, buf_restart]
    exact ⟨rfl, List.Subset.refl _⟩
  | sent | stop | arrive | fail => exact ⟨rfl, List.Subset.refl _⟩
  | handleRecv => exact absurd rfl (hev _ _ _ _)

theorem buf_changes (h : ReflTransGen (Change w ev) e e')
    (hev : ∀ id r draw outcome, ev ≠ .handleRecv id r draw outcome) :
    e'.recvingMsg.msg.buf = e.recvingMsg.msg.buf ∧ e'.recvQueue ⊆ e.recvQueue := by
  induction h with
  | refl => exact ⟨rfl, List.Subset.refl _⟩
  | tail _ hstep ih =>
    obtain ⟨hbuf, hqueue⟩ := hstep.buf hev
    exact ⟨hbuf.trans ih.1, fun _ hmsg => ih.2 (hqueue hmsg)⟩

theorem buf_handleRecv (now draw : ℤ) (outcome : InitOutcome) (r : RecvResult) (nextBuf : BufId)
    (e : UdpEndpointProxy) :
    (e.handleRecv now draw outcome r nextBuf).1.recvingMsg.msg.buf = e.recvingMsg.msg.buf ∧
      (e.handleRecv now draw outcome r nextBuf).1.recvQueue = e.recvQueue ∨
    (e.handleRecv now draw outcome r nextBuf).1.recvingMsg.msg.buf = nextBuf ∧
      nextBuf < (e.handleRecv now draw outcome r nextBuf).2 ∧
      ∀ msg ∈ (e.handleRecv now draw outcome r nextBuf).1.recvQueue,
        msg ∈ e.recvQueue ∨ msg.msg.buf = e.recvingMsg.msg.buf := by
  have hpush : ∀ e : UdpEndpointProxy, ∀ msg ∈ (e.pushRecv r.bytesTransferred nextBuf).recvQueue,
      msg ∈ e.recvQueue ∨ msg.msg.buf = e.recvingMsg.msg.buf := by
    intro e msg hmsg
    rcases List.mem_append.mp hmsg with hmsg | hmsg
    · exact .inl hmsg
    · obtain rfl := List.mem_singleton.mp hmsg
      exact .inr rfl
  unfold UdpEndpointProxy.handleRecv
  split
  · split
    · exact .inl ⟨rfl, rfl⟩
    · split
      · exact .inl ⟨buf_restart .., recvQueue_restart ..⟩
      · exact .inl ⟨rfl, rfl⟩
  · dsimp only
    split
    · exact .inl ⟨rfl, rfl⟩
    · split <;> exact .inr ⟨rfl, Nat.lt_succ_self _, hpush _⟩

theorem rebuffered_step (h : Stepped cfg w ev w') (he' : w'.epts id = some e') :
    Rebuffered w ev w'.nextBuf id e' := by
  by_cases hev : ∀ id r draw outcome, ev ≠ .handleRecv id r draw outcome
  · cases (makes_step h).origin id e' he' with
    | changed he hc =>
      obtain ⟨hbuf, hqueue⟩ := buf_changes hc hev
      exact .kept he hbuf hqueue
    | created hid hmakes hlt hc =>
      obtain ⟨hbuf, hqueue⟩ := buf_changes hc hev
      unfold create at hbuf hqueue
      rw [recvQueue_init] at hqueue
      rw [buf_init] at hbuf
      refine .fresh (hid.trans (allocating_of_makes hmakes).symm) hlt hbuf ?_
      intro msg hmsg
      exact absurd (hqueue hmsg) List.not_mem_nil
  · simp only [not_forall, ne_eq, not_not] at hev
    obtain ⟨id₀, r, draw, outcome, rfl⟩ := hev
    cases h with
    | @handleRecv _ _ _ _ e he hr =>
      by_cases hid : id = id₀
      · subst hid
        simp only [Function.update_self, Option.some.injEq] at he'
        subst he'
        rcases buf_handleRecv w.clock draw outcome r w.nextBuf
          { e with proxySocket := e.proxySocket.take r } with ⟨hbuf, hqueue⟩ | ⟨hbuf, hlt, hqueue⟩
        · exact .kept he hbuf (by rw [handled, hqueue]; exact List.Subset.refl _)
        · exact .fresh rfl hlt hbuf fun msg hmsg => ⟨e, he, hqueue msg hmsg⟩
      · simp only [Function.update_of_ne hid] at he'
        exact .kept he' rfl (List.Subset.refl _)

theorem released_step (h : Stepped cfg w ev w') (hb : Released w b) : Released w' b := by
  refine ⟨hb.1.trans_le (makes_step h).nextBuf_le, ?_⟩
  intro id e' he'
  cases rebuffered_step h he' with
  | kept hd hbuf =>
    rw [hbuf]
    exact hb.2 id _ hd
  | fresh hid hlt hbuf =>
    rw [hbuf]
    exact hb.1.ne'

theorem buffered_step (hw : Buffered w) (h : Stepped cfg w ev w') : Buffered w' := by
  refine ⟨?_, ?_, ?_⟩
  · intro id e he
    cases rebuffered_step h he with
    | kept hd hbuf =>
      rw [hbuf]
      exact (hw.allocated id _ hd).trans_le (makes_step h).nextBuf_le
    | fresh hid hlt hbuf =>
      rw [hbuf]
      exact hlt
  · intro id id' e e' he he' heq
    cases rebuffered_step h he with
    | kept hd hbuf =>
      cases rebuffered_step h he' with
      | kept hd' hbuf' => exact hw.distinct _ _ _ _ hd hd' (by rw [← hbuf, heq, hbuf'])
      | fresh hid' hlt' hbuf' =>
        have hold := hw.allocated _ _ hd
        rw [← hbuf, heq, hbuf'] at hold
        exact absurd hold (lt_irrefl _)
    | fresh hid hlt hbuf =>
      cases rebuffered_step h he' with
      | kept hd' hbuf' =>
        have hold := hw.allocated _ _ hd'
        rw [← hbuf', ← heq, hbuf] at hold
        exact absurd hold (lt_irrefl _)
      | fresh hid' => rw [hid, hid']
  · intro id e he msg hmsg
    cases rebuffered_step h he with
    | kept hd hbuf hqueue => exact released_step h (hw.queued _ _ hd msg (hqueue hmsg))
    | fresh hid hlt hbuf hqueue =>
      obtain ⟨d, hd, hmsg | hmsg⟩ := hqueue msg hmsg
      · exact released_step h (hw.queued _ _ hd msg hmsg)
      · -- the buffer that the handler has just given up
        have hold := hw.allocated _ _ hd
        rw [hmsg]
        refine ⟨hold.trans hlt, ?_⟩
        intro id' e' he' heq
        cases rebuffered_step h he' with
        | kept hd' hbuf' =>
          have hid' := hw.distinct _ _ _ _ hd' hd (hbuf'.symm.trans heq)
          subst hid'
          rw [he] at he'
          cases he'
          rw [← hbuf, heq] at hold
          exact absurd hold (lt_irrefl _)
        | fresh hid' hlt' hbuf' =>
          rw [← hbuf', heq] at hold
          exact absurd hold (lt_irrefl _)

theorem buffered_initial (h : Initial w) : Buffered w := by
  obtain ⟨clock, ip, heap, rfl⟩ := h
  constructor
  · intro id e he
    cases he
  · intro id id' e e' he
    cases he
  · intro id e he
    cases he

theorem Healthy.buffered (hw : Healthy w) : Buffered w :=
  ⟨fun id e he => (hw.single id e he).allocated, hw.distinct, hw.queued⟩

theorem healthy_step (hw : Healthy w) (hg : Succeeds w ev) (h : Stepped cfg w ev w') : Healthy w' := by
  have hbuffered := buffered_step hw.buffered h
  refine ⟨?_, hbuffered.distinct, hbuffered.queued⟩
  intro id e' he'
  cases (makes_step h).origin id e' he' with
  | changed he hc =>
    exact single_changes h hg hw.single ((hw.single id _ he).mono (makes_step h).nextBuf_le) hc
  | created hid hev hlt hc => exact single_changes h hg hw.single (single_create.mono hlt) hc

theorem healthy_initial (h : Initial w) : Healthy w := by
  have hbuffered := buffered_initial h
  refine ⟨?_, hbuffered.distinct, hbuffered.queued⟩
  obtain ⟨clock, ip, heap, rfl⟩ := h
  intro id e he
  cases he

theorem bytes_unwritten {b : Buffer} (h : Stepped cfg w ev w')
    (hb : ∀ id buf src data, ev = .arrive id buf src data → b.buf ≠ buf) :
    b.bytes w'.heap = b.bytes w.heap := by
  cases h with
  | @arrive id buf src data => exact Buffer.bytes_store data (hb id buf src data rfl)
  | @addServerProxy rule outcome =>
    obtain ⟨epts, heq⟩ := addServerProxy_eq rule outcome w
    rw [heq]
  | @transfer outcome key id todo e msg =>
    obtain ⟨ip, newEpts, epts, nextEpt, nextBuf, relayed, heq⟩ := transfer_eq cfg outcome key id e msg w
    rw [heq]
  | _ => rfl

theorem bytes_step (hw : Healthy w) (h : Stepped cfg w ev w') {b : Buffer}
    (hb : Released w b.buf) : b.bytes w'.heap = b.bytes w.heap := by
  apply bytes_unwritten h
  rintro id buf src data rfl
  cases h with
  | arrive he hbuf =>
    rw [(hw.single id _ he).target buf hbuf]
    exact (hb.2 id _ he).symm

end TcpUdpProxy.UdpServer
