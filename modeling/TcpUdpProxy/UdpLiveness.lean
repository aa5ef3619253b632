import TcpUdpProxy.UdpBudget

namespace TcpUdpProxy.UdpServer

open UdpEndpointProxy Execution

variable {cfg : Config} {w w' w₀ : World} {ev : Event} {id : EptId} {e e' : UdpEndpointProxy}
  {es : List Event}

def Awaiting (s : UdpSocket) : Prop := s.pending ≠ [] ∨ ∃ r ∈ s.ready, r.error ≠ .operationAborted

/-- A receive is outstanding, or its completion is still to be handled, or the next pop re-arms it. -/
def Listening (e : UdpEndpointProxy) : Prop :=
  Awaiting e.proxySocket ∨ e.recvingFlag = false ∧ e.recvQueue ≠ []

def Hearing (e : UdpEndpointProxy) : Prop := e.activeTm ≠ 0 → Listening e

/-- asio gives `operation_aborted` only to the receives of a socket that was closed. -/
def AbortsClosed (_ : World) : Event → Prop
  | .fail _ _ error => error ≠ .operationAborted
  | _ => True

instance (w : World) : ∀ ev, Decidable (AbortsClosed w ev)
  | .fail _ _ error => inferInstanceAs (Decidable (error ≠ .operationAborted))
  | .addServerProxy .. | .start | .tick | .visit _ | .relay _ | .merge | .enter _ | .flush .. | .rest
  | .stop | .arrive .. | .handleRecv .. | .clock _ | .ip _ => isTrue trivial

theorem awaiting_asyncReceiveFrom (buf : BufId) (s : UdpSocket) : Awaiting (s.asyncReceiveFrom buf) := by
  unfold UdpSocket.asyncReceiveFrom
  split
  · left
    simp
  · right
    exact ⟨_, List.mem_append_right _ (List.mem_singleton_self _), nofun⟩

theorem hearing_asyncRecv (e : UdpEndpointProxy) : Hearing e.asyncRecv :=
  fun _ => .inl (awaiting_asyncReceiveFrom _ _)

theorem hearing_init (hactive : e.activeTm = 0) (outcome : InitOutcome) (now : Msec) :
    Hearing (e.init outcome now) := by
  unfold UdpEndpointProxy.init
  split
  · exact fun h => absurd hactive h
  · dsimp only
    split
    · exact fun _ => .inl (awaiting_asyncReceiveFrom _ _)
    · exact fun h => absurd hactive h

theorem hearing_restart (outcome : InitOutcome) (now : Msec) (e : UdpEndpointProxy) :
    Hearing (e.restart outcome now) := by
  unfold restart
  split
  · exact hearing_init rfl outcome now
  · exact fun h => absurd rfl h

theorem Hearing.congr (h : Hearing e) (hactive : e'.activeTm ≠ 0 → e.activeTm ≠ 0)
    (hreceiver : receiver e' = receiver e) : Hearing e' := by
  simp only [receiver, Prod.mk.injEq] at hreceiver
  obtain ⟨hsocket, hflag, hqueue, -⟩ := hreceiver
  intro hactive'
  unfold Listening
  rw [hsocket, hflag, hqueue]
  exact h (hactive hactive')

theorem Hearing.popRecv (h : Hearing e) : Hearing e.popRecv := by
  unfold UdpEndpointProxy.popRecv
  dsimp only
  split
  · exact hearing_asyncRecv _
  · rename_i hflag
    intro hactive
    obtain hawaiting | ⟨hpaused, -⟩ := h hactive
    · exact .inl hawaiting
    · exact absurd hpaused hflag

theorem Awaiting.take_aborted {s : UdpSocket} {r : RecvResult} (h : Awaiting s)
    (hr : r.error = .operationAborted) : Awaiting (s.take r) := by
  obtain hpending | ⟨r', hr', herror⟩ := h
  · exact .inl hpending
  · refine .inr ⟨r', ?_, herror⟩
    apply (List.mem_erase_of_ne _).mpr hr'
    rintro rfl
    exact herror hr

theorem Hearing.handled (h : Hearing e) (r : RecvResult) (draw : ℤ) (outcome : InitOutcome) :
    Hearing (handled w r draw outcome e).1 := by
  by_cases hr : r.error = .operationAborted
  · rw [handled_aborted hr]
    intro hactive
    exact (h hactive).imp_left fun hawaiting => hawaiting.take_aborted hr
  · unfold UdpServer.handled UdpEndpointProxy.handleRecv
    split
    · split
      · exact hearing_asyncRecv _
      · exact hearing_restart _ _ _
    · dsimp only
      split
      · exact hearing_asyncRecv _
      · split
        · intro _
          exact .inr ⟨rfl, by simp [pushRecv]⟩
        · exact hearing_asyncRecv _

theorem hearing_run (h₀ : Initial w₀) (h : exec (step cfg) w₀ es = some w)
    (hg : Along (step cfg) AbortsClosed w₀ es) : ∀ id e, w.epts id = some e → Hearing e := by
  apply endpoints_guarded (P := Hearing) _ h₀ h hg
  intro w ev id e' hk hg hw hbecame
  cases hbecame with
  | same he => exact hw id _ he
  | added => exact hearing_init rfl _ _
  | credited hev hphase hkey hlookup he =>
    apply (hw id _ he).congr _ (receiver_credit ..)
    rw [(sendQueue_credit _ _).2]
    exact fun hactive => hactive
  | @popped outcome key todo e msg hev hphase he =>
    apply Hearing.popRecv
    apply (hw id e he).congr _ (receiver_debitRecv ..)
    unfold debitRecv
    split <;> exact fun hactive => hactive
  | @handed outcome key rid msg e hev hpop hne hsender he =>
    apply (hw id e he).congr
    · rw [(sendQueue_pushSend _ _).2]
      unfold touch
      split
      · rename_i hactive
        exact fun _ => hactive
      · exact fun hactive => hactive
    · rw [receiver_pushSend, receiver_touch]
  | @made outcome key rid msg e hev hpop he =>
    apply Hearing.congr (hearing_init rfl outcome w.clock) _ (receiver_pushSend ..)
    rw [(sendQueue_pushSend _ _).2]
    exact fun hactive => hactive
  | restarted => exact hearing_restart _ _ _
  | sent hev hsend he => exact (hw id _ he).congr (fun hactive => hactive) rfl
  | stopped => exact fun hactive => absurd rfl hactive
  | arrived =>
    intro _
    exact .inl (.inr ⟨_, List.mem_append_right _ (List.mem_singleton_self _), nofun⟩)
  | @failed buf error e hev he hbuf herror =>
    subst hev
    intro _
    exact .inl (.inr ⟨_, List.mem_append_right _ (List.mem_singleton_self _), hg⟩)
  | handled hev he => exact (hw id _ he).handled _ _ _

theorem awaiting_popRecv (hpaused : e.recvingFlag = false) :
    e.popRecv.recvingFlag = true ∧ Awaiting e.popRecv.proxySocket := by
  unfold UdpEndpointProxy.popRecv
  dsimp only
  rw [if_pos hpaused]
  exact ⟨rfl, awaiting_asyncReceiveFrom _ _⟩

theorem relay_popping {outcome : InitOutcome} {key : Endpoint} {msg : UdpMsg}
    (hpop : popping cfg w = some (id, key, msg)) (h : step cfg w (.relay outcome) = some w') :
    ∃ e, w.epts id = some e ∧ w' = w.transfer cfg outcome key id e msg := by
  obtain ⟨todo, e, hphase, he, hverdict⟩ := popping_cases hpop
  obtain ⟨-, hrun⟩ := run_of_step h
  change relay cfg outcome w = some w' at hrun
  unfold relay at hrun
  rw [hphase] at hrun
  dsimp only at hrun
  rw [he, Option.map_some, hverdict] at hrun
  exact ⟨e, he, (Option.some.inj hrun).symm⟩

def Rearms (cfg : Config) (w : World) (id : EptId) : Prop :=
  ∀ outcome key msg w', popping cfg w = some (id, key, msg) → step cfg w (.relay outcome) = some w' →
    ∃ e', w'.epts id = some e' ∧ e'.recvingFlag = true ∧ Awaiting e'.proxySocket

theorem rearms_paused (hk : Keyed w) (he : w.epts id = some e) (hpaused : e.recvingFlag = false) :
    Rearms cfg w id := by
  intro outcome key msg w' hpop h
  obtain ⟨todo, -, hphase, -⟩ := popping_cases hpop
  have hk' := keyed_step hk (step_cases h)
  obtain ⟨e₁, he₁, rfl⟩ := relay_popping hpop h
  rw [he] at he₁
  cases he₁
  have hphase' : (w.transfer cfg outcome key id e msg).phase = .relay key id todo := by
    obtain ⟨ip, newEpts, epts, nextEpt, nextBuf, relayed, heq⟩ := transfer_eq cfg outcome key id e msg w
    rw [heq]
    exact hphase
  obtain ⟨e', he', -⟩ := hk'.mapped key id (hk'.locked key id todo hphase')
  refine ⟨e', he', ?_⟩
  cases became_step hk h he' with
  | popped hev hphase₁ he₁ hverdict =>
    rw [he] at he₁
    cases he₁
    apply awaiting_popRecv
    unfold debitRecv
    split <;> exact hpaused
  | same _ _ hother => exact absurd hpop (hother _ rfl _ _)
  | handed _ hpop' hne _ _ =>
    rw [hpop] at hpop'
    cases hpop'
    exact absurd rfl hne
  | made _ _ _ _ hid => exact absurd hid (hk.lt_nextEpt he).ne
  | added hev | credited hev | restarted hev | sent hev | stopped hev | arrived hev | failed hev
  | handled hev => cases hev

theorem never_deaf (h₀ : Initial w₀) (h : exec (step cfg) w₀ es = some w)
    (hg : Along (step cfg) AbortsClosed w₀ es) {key : Endpoint} (hkey : w.endpoints.lookup key = some id) :
    ∃ e, w.epts id = some e ∧ (e.activeTm ≠ 0 →
      e.proxySocket.pending ≠ [] ∨ (∃ r ∈ e.proxySocket.ready, r.error ≠ .operationAborted) ∨
        e.recvingFlag = false ∧ e.recvQueue ≠ []) ∧ (e.recvingFlag = false → Rearms cfg w id) := by
  have hk := keyed_run h₀ h
  obtain ⟨e, he, -⟩ := hk.mapped key id hkey
  refine ⟨e, he, fun hactive => ?_, rearms_paused hk he⟩
  obtain (hpending | hready) | hpaused := hearing_run h₀ h hg id e he hactive
  · exact .inl hpending
  · exact .inr (.inl hready)
  · exact .inr (.inr hpaused)

def restarting : List Event :=
  [.addServerProxy ⟨53, ⟨1, 53⟩, 0, 0, 0⟩ .success, .start, .fail 0 1 (.other 9),
    .handleRecv 0 ⟨1, .other 9, 0⟩ 1 .success]

theorem never_deaf_restarting : ∃ e, (after plain start restarting).epts 0 = some e ∧ (e.activeTm ≠ 0 →
    e.proxySocket.pending ≠ [] ∨ (∃ r ∈ e.proxySocket.ready, r.error ≠ .operationAborted) ∨
      e.recvingFlag = false ∧ e.recvQueue ≠ []) ∧
    (e.recvingFlag = false → Rearms plain (after plain start restarting) 0) := by
  have hexec : exec (step plain) start restarting = some (after plain start restarting) := rfl
  have halong : Along (step plain) AbortsClosed start restarting := by decide
  have hkey : (after plain start restarting).endpoints.lookup ⟨1, 53⟩ = some 0 := rfl
  exact never_deaf initial_start hexec halong hkey

end TcpUdpProxy.UdpServer
