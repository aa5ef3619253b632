import TcpUdpProxy.UdpBuffers
import TcpUdpProxy.UdpEndpoints

namespace TcpUdpProxy.UdpServer

open UdpEndpointProxy Execution

variable {cfg : Config} {w w' w₀ : World} {ev : Event} {id : EptId} {e e' : UdpEndpointProxy}
  {es : List Event} {b : BufId}

section single

theorem Became.serverFlag (hk : Keyed w) (h : Became cfg w ev id e') (he : w.epts id = some e) :
    e'.proxyRule = e.proxyRule ∧ e'.serverFlag = e.serverFlag := by
  obtain ⟨e₁, he₁, hparams⟩ | ⟨hid, -⟩ := h.params
  · rw [he] at he₁
    cases he₁
    simp only [UdpServer.params, Prod.mk.injEq] at hparams
    exact ⟨hparams.1, hparams.2.1⟩
  · exact absurd hid (hk.lt_nextEpt he).ne

def ClientsSingle (w : World) : Prop :=
  ∀ id e, w.epts id = some e → e.serverFlag = false → Single w.nextBuf e

theorem clientsSingle_step (hk : Keyed w) (hb : Buffered w) (hw : ClientsSingle w)
    (h : step cfg w ev = some w') : ClientsSingle w' := by
  intro id e' he' hflag
  have hle := (makes_step (step_cases h)).nextBuf_le
  have hallocated := (buffered_step hb (step_cases h)).allocated id e' he'
  have hbecame := became_step hk h he'
  have hclient : ∀ e, w.epts id = some e → e.serverFlag = false :=
    fun e he => (hbecame.serverFlag hk he).2.symm.trans hflag
  have hold : ∀ e, w.epts id = some e → Single w.nextBuf e := fun e he => hw id e he (hclient e he)
  cases hbecame with
  | same he => exact (hold _ he).mono hle
  | added =>
    apply single_create.mono
    unfold create at hallocated
    rw [buf_init] at hallocated
    exact hallocated
  | credited _ _ _ _ he => exact (Single.of_receiver (hold _ he) (receiver_credit ..)).mono hle
  | popped _ _ he => exact (Single.of_receiver (hold _ he) (receiver_debitRecv ..)).popRecv.mono hle
  | handed _ _ _ _ he =>
    exact (Single.of_receiver (hold _ he) ((receiver_pushSend ..).trans (receiver_touch ..))).mono hle
  | made =>
    apply Single.mono (Single.of_receiver single_create (receiver_pushSend ..))
    rw [(recvQueue_of_receiver (receiver_pushSend ..)).1] at hallocated
    unfold create at hallocated
    rw [buf_init] at hallocated
    exact hallocated
  | @restarted _ outcome _ e _ _ _ he =>
    have hstop : e.restart outcome w.clock = e.stop := by
      unfold restart
      rw [if_neg (by simp [hclient e he])]
    rw [hstop]
    exact (hold _ he).stop.mono hle
  | sent _ _ he =>
    apply Single.mono _ hle
    exact Single.of_receiver (hold _ he) rfl
  | stopped _ _ he => exact (hold _ he).stop.mono hle
  | @arrived buf src data _ _ he hbuf =>
    apply Single.mono _ hle
    exact Single.of_receiver ((hold _ he).complete (r := ⟨buf, .success, data.length⟩) hbuf) rfl
  | @failed buf error _ _ he hbuf => exact ((hold _ he).complete (r := ⟨buf, error, 0⟩) hbuf).mono hle
  | @handled r draw outcome e hev he hr =>
    subst hev
    cases step_cases h with
    | handleRecv he₁ =>
      rw [he] at he₁
      cases he₁
      by_cases herror : r.error = .operationAborted
      · rw [handled_aborted herror]
        exact (hold e he).take_aborted
      · exact ((hold e he).take hr herror).handleRecv w.clock draw outcome |>.1

end single

section pending

def Arms (e' e : UdpEndpointProxy) : Prop :=
  ∀ b ∈ e'.proxySocket.pending, b ∈ e.proxySocket.pending ∨ b = e'.recvingMsg.msg.buf

theorem arms_of_sublist (h : e'.proxySocket.pending.Sublist e.proxySocket.pending) : Arms e' e :=
  fun _ hb => .inl (h.subset hb)

theorem Arms.trans {e₁ e₂ e₃ : UdpEndpointProxy} (h : Arms e₃ e₂) (h' : Arms e₂ e₁)
    (hbuf : e₃.recvingMsg.msg.buf = e₂.recvingMsg.msg.buf) : Arms e₃ e₁ := by
  intro b hb
  rcases h b hb with hb | hb
  · exact (h' b hb).imp_right fun heq => heq.trans hbuf.symm
  · exact .inr hb

theorem arms_asyncRecv (e : UdpEndpointProxy) : Arms e.asyncRecv e := by
  intro b hb
  change b ∈ (e.proxySocket.asyncReceiveFrom e.recvingMsg.msg.buf).pending at hb
  unfold UdpSocket.asyncReceiveFrom at hb
  split at hb
  · rcases List.mem_append.mp hb with hb | hb
    · exact .inl hb
    · exact .inr (List.mem_singleton.mp hb)
  · exact .inl hb

theorem arms_init (outcome : InitOutcome) (now : Msec) (e : UdpEndpointProxy) : Arms (e.init outcome now) e := by
  unfold UdpEndpointProxy.init
  split
  · exact arms_of_sublist (List.Sublist.refl _)
  · dsimp only
    split
    · exact arms_asyncRecv { e with proxySocket := { e.proxySocket with isOpen := true } }
    · exact arms_of_sublist (List.Sublist.refl _)

theorem arms_restart (outcome : InitOutcome) (now : Msec) (e : UdpEndpointProxy) :
    Arms (e.restart outcome now) e := by
  have hstop : Arms e.stop e := by
    intro b hb
    cases hb
  unfold restart
  split
  · exact (arms_init outcome now e.stop).trans hstop (buf_init outcome now e.stop)
  · exact hstop

theorem arms_popRecv (e : UdpEndpointProxy) : Arms e.popRecv e := by
  unfold popRecv
  dsimp only
  split
  · exact arms_asyncRecv { e with recvQueue := e.recvQueue.tail, recvingFlag := true }
  · exact arms_of_sublist (List.Sublist.refl _)

theorem arms_handled (w : World) (r : RecvResult) (draw : ℤ) (outcome : InitOutcome) (e : UdpEndpointProxy) :
    Arms (handled w r draw outcome e).1 e := by
  unfold handled UdpEndpointProxy.handleRecv
  split
  · split
    · exact arms_asyncRecv { e with proxySocket := e.proxySocket.take r }
    · split
      · exact arms_restart outcome w.clock { e with proxySocket := e.proxySocket.take r }
      · exact arms_of_sublist (List.Sublist.refl _)
  · dsimp only
    split
    · exact arms_asyncRecv { e with proxySocket := e.proxySocket.take r, activeTm := w.clock }
    · split
      · exact arms_of_sublist (List.Sublist.refl _)
      · exact arms_asyncRecv
          (pushRecv r.bytesTransferred w.nextBuf { e with proxySocket := e.proxySocket.take r, activeTm := w.clock })

theorem arms_of_receiver (h : receiver e' = receiver e) : Arms e' e := by
  simp only [receiver, Prod.mk.injEq] at h
  apply arms_of_sublist
  rw [h.1]

theorem arms_create (bandwidth : PairId → ℤ) (rule : UdpProxyRule) (buf : BufId) (outcome : InitOutcome)
    (now : Msec) : ∀ b ∈ (create bandwidth rule buf outcome now).proxySocket.pending,
      b = (create bandwidth rule buf outcome now).recvingMsg.msg.buf := by
  intro b hb
  rcases arms_init outcome now _ b hb with hb | hb
  · cases hb
  · exact hb

theorem Became.pending (h : Became cfg w ev id e') : ∀ b ∈ e'.proxySocket.pending,
    b = e'.recvingMsg.msg.buf ∨ ∃ e, w.epts id = some e ∧ b ∈ e.proxySocket.pending := by
  have harms : ∀ e, w.epts id = some e → Arms e' e → ∀ b ∈ e'.proxySocket.pending,
      b = e'.recvingMsg.msg.buf ∨ ∃ e, w.epts id = some e ∧ b ∈ e.proxySocket.pending := by
    intro e he h b hb
    exact (h b hb).symm.imp_right fun hb => ⟨e, he, hb⟩
  cases h with
  | same he => exact harms _ he (arms_of_sublist (List.Sublist.refl _))
  | added => exact fun b hb => .inl (arms_create _ _ _ _ _ b hb)
  | credited _ _ _ _ he => exact harms _ he (arms_of_receiver (receiver_credit ..))
  | popped _ _ he =>
    exact harms _ he ((arms_popRecv _).trans (arms_of_receiver (receiver_debitRecv ..)) (buf_popRecv _))
  | handed _ _ _ _ he =>
    exact harms _ he (arms_of_receiver ((receiver_pushSend ..).trans (receiver_touch ..)))
  | @made outcome key rid msg e =>
    intro b hb
    have hreceiver := receiver_pushSend { msg with src := key }
      (create cfg.bandwidth (World.clientRule e.proxyRule msg.src) w.nextBuf outcome w.clock)
    simp only [receiver, Prod.mk.injEq] at hreceiver
    obtain ⟨hsocket, -, -, hbuf⟩ := hreceiver
    rw [hsocket] at hb
    rw [hbuf]
    exact .inl (arms_create _ _ _ _ _ b hb)
  | restarted _ _ _ he => exact harms _ he (arms_restart _ _ _)
  | sent _ _ he => exact harms _ he (arms_of_sublist (List.Sublist.refl _))
  | stopped _ _ he =>
    intro b hb
    cases hb
  | arrived _ he => exact harms _ he (arms_of_sublist List.erase_sublist)
  | failed _ he => exact harms _ he (arms_of_sublist List.erase_sublist)
  | handled _ he => exact harms _ he (arms_handled _ _ _ _ _)

end pending

section apart

/-- No receive of one endpoint delivers into a buffer that another one holds or has queued. -/
structure Apart (w : World) : Prop where
  allocated : ∀ id e, w.epts id = some e → ∀ b ∈ e.proxySocket.pending, b < w.nextBuf
  foreign : ∀ id id' e e', w.epts id = some e → w.epts id' = some e' → id ≠ id' →
    ∀ b ∈ e.proxySocket.pending, e'.recvingMsg.msg.buf ≠ b ∧ ∀ msg ∈ e'.recvQueue, msg.msg.buf ≠ b

theorem apart_step (hk : Keyed w) (hb : Buffered w) (hw : Apart w) (h : step cfg w ev = some w') : Apart w' := by
  have hb' := buffered_step hb (step_cases h)
  have hle := (makes_step (step_cases h)).nextBuf_le
  constructor
  · intro id e' he' b hpending
    rcases (became_step hk h he').pending b hpending with rfl | ⟨e, he, hold⟩
    · exact hb'.allocated id e' he'
    · exact (hw.allocated id e he b hold).trans_le hle
  · intro id id' e e' he he' hne b hpending
    rcases (became_step hk h he).pending b hpending with rfl | ⟨e₁, he₁, hold⟩
    · refine ⟨fun heq => hne (hb'.distinct _ _ _ _ he he' heq.symm), ?_⟩
      intro msg hmsg heq
      exact (hb'.queued id' e' he' msg hmsg).2 id e he heq.symm
    · cases rebuffered_step (step_cases h) he' with
      | kept hd hbuf hqueue =>
        obtain ⟨hrecving, hwaiting⟩ := hw.foreign id id' _ _ he₁ hd hne b hold
        exact ⟨hbuf.symm ▸ hrecving, fun msg hmsg => hwaiting msg (hqueue hmsg)⟩
      | fresh hid hlt hbuf hqueue =>
        refine ⟨fun heq => ?_, ?_⟩
        · have hlt := hw.allocated id e₁ he₁ b hold
          rw [← heq, hbuf] at hlt
          exact absurd hlt (lt_irrefl _)
        · intro msg hmsg
          obtain ⟨d, hd, hmsg | hmsg⟩ := hqueue msg hmsg
          · exact (hw.foreign id id' _ _ he₁ hd hne b hold).2 msg hmsg
          · rw [hmsg]
            exact (hw.foreign id id' _ _ he₁ hd hne b hold).1

theorem apart_initial (h₀ : Initial w) : Apart w := by
  obtain ⟨clock, ip, heap, rfl⟩ := h₀
  constructor
  · intro id e he
    cases he
  · intro id id' e e' he
    cases he

end apart

end TcpUdpProxy.UdpServer
