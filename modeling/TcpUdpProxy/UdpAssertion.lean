import TcpUdpProxy.UdpKeys

namespace TcpUdpProxy.UdpServer

open UdpEndpointProxy Relation Execution

def Foreign (e : UdpEndpointProxy) : Prop := ∀ msg ∈ e.recvQueue, msg.src ≠ e.proxyRule.dstEndpoint

/-- A datagram that a handler queues comes from another address than the key of the endpoint. -/
def QueuesForeign (w : World) : Event → Prop
  | .handleRecv id r draw _ =>
    ∀ e ∈ w.epts id, r.error = .success → e.dropped draw = false →
      e.recvingMsg.src ≠ e.proxyRule.dstEndpoint
  | _ => True

instance (w : World) : ∀ ev, Decidable (QueuesForeign w ev)
  | .handleRecv id r draw _ => inferInstanceAs (Decidable (∀ e ∈ w.epts id, r.error = .success →
      e.dropped draw = false → e.recvingMsg.src ≠ e.proxyRule.dstEndpoint))
  | .addServerProxy .. | .start | .tick | .visit _ | .relay _ | .merge | .enter _ | .flush .. | .rest
  | .stop | .arrive .. | .fail .. | .clock _ | .ip _ => isTrue trivial

theorem recvQueue_init (outcome : InitOutcome) (now : Msec) (e : UdpEndpointProxy) :
    (e.init outcome now).recvQueue = e.recvQueue := by
  unfold UdpEndpointProxy.init
  split
  · rfl
  · dsimp only
    split <;> rfl

theorem recvQueue_restart (outcome : InitOutcome) (now : Msec) (e : UdpEndpointProxy) :
    (e.restart outcome now).recvQueue = e.recvQueue := by
  unfold restart
  split
  · exact recvQueue_init outcome now e.stop
  · rfl

theorem recvQueue_popRecv (e : UdpEndpointProxy) : e.popRecv.recvQueue = e.recvQueue.tail := by
  unfold popRecv
  dsimp only
  split <;> rfl

theorem recvQueue_debitRecv (msg : UdpMsg) (e : UdpEndpointProxy) :
    (debitRecv msg e).recvQueue = e.recvQueue := by
  unfold debitRecv
  split <;> rfl

theorem recvQueue_credit (interval : Msec) (e : UdpEndpointProxy) :
    (credit interval e).recvQueue = e.recvQueue := by
  unfold credit
  split <;> rfl

theorem recvQueue_touch (now : Msec) (e : UdpEndpointProxy) : (touch now e).recvQueue = e.recvQueue := by
  unfold touch
  split <;> rfl

theorem recvQueue_pushSend (msg : UdpMsg) (e : UdpEndpointProxy) :
    (pushSend msg e).recvQueue = e.recvQueue := by
  unfold pushSend
  split <;> rfl

theorem recvQueue_handleRecv (now draw : ℤ) (outcome : InitOutcome) (r : RecvResult) (nextBuf : BufId)
    (e : UdpEndpointProxy) :
    (e.handleRecv now draw outcome r nextBuf).1.recvQueue = e.recvQueue ∨
    r.error = .success ∧ e.dropped draw = false ∧
      (e.handleRecv now draw outcome r nextBuf).1.recvQueue =
        e.recvQueue ++ [received { e with activeTm := now } r.bytesTransferred] := by
  unfold UdpEndpointProxy.handleRecv
  split
  · split
    · exact .inl rfl
    · split
      · exact .inl (recvQueue_restart outcome now e)
      · exact .inl rfl
  · rename_i herror
    dsimp only
    split
    · exact .inl rfl
    · rename_i hdropped
      right
      refine ⟨not_ne_iff.mp herror, by simpa [dropped] using hdropped, ?_⟩
      split <;> rfl

variable {cfg : Config} {w w' w₀ : World} {ev : Event} {e e' : UdpEndpointProxy} {es : List Event}

theorem Foreign.of_subset (h : Foreign e) (hrule : e'.proxyRule = e.proxyRule)
    (hsub : e'.recvQueue ⊆ e.recvQueue) : Foreign e' := by
  intro msg hmsg
  rw [hrule]
  exact h msg (hsub hmsg)

theorem Change.foreign (h : Change w ev e e') (hg : QueuesForeign w ev) (he : Foreign e) : Foreign e' := by
  have hrule := h.proxyRule
  cases h with
  | credit => exact he.of_subset hrule (by rw [recvQueue_credit]; exact List.Subset.refl _)
  | touch => exact he.of_subset hrule (by rw [recvQueue_touch]; exact List.Subset.refl _)
  | pushSend => exact he.of_subset hrule (by rw [recvQueue_pushSend]; exact List.Subset.refl _)
  | popRecv =>
    apply he.of_subset hrule
    rw [recvQueue_popRecv, recvQueue_debitRecv]
    exact fun _ => List.mem_of_mem_tail
  | restart => exact he.of_subset hrule (by rw [recvQueue_restart]; exact List.Subset.refl _)
  | sent | stop | arrive | fail => exact he.of_subset hrule (List.Subset.refl _)
  | @handleRecv id r draw outcome e hlive hr =>
    rcases recvQueue_handleRecv w.clock draw outcome r w.nextBuf
      { e with proxySocket := e.proxySocket.take r } with hqueue | ⟨herror, hdropped, hqueue⟩
    · exact he.of_subset hrule (by rw [handled, hqueue]; exact List.Subset.refl _)
    · intro msg hmsg
      rw [hrule]
      rw [handled, hqueue] at hmsg
      rcases List.mem_append.mp hmsg with hmsg | hmsg
      · exact he msg hmsg
      · obtain rfl := List.mem_singleton.mp hmsg
        exact hg e hlive herror hdropped

theorem foreign_changes (hg : QueuesForeign w ev) (h : ReflTransGen (Change w ev) e e')
    (he : Foreign e) : Foreign e' := by
  induction h with
  | refl => exact he
  | tail _ hstep ih => exact hstep.foreign hg ih

theorem foreign_create (bandwidth : PairId → ℤ) (rule : UdpProxyRule) (buf : BufId)
    (outcome : InitOutcome) (now : Msec) : Foreign (create bandwidth rule buf outcome now) := by
  intro msg hmsg
  unfold create at hmsg
  rw [recvQueue_init] at hmsg
  cases hmsg

structure Relaying (w : World) : Prop where
  keyed : Keyed w
  foreign : ∀ id e, w.epts id = some e → Foreign e
  fault_ne : w.fault ≠ some .xassert

theorem ipGate_ne_xassert {direction : PairId} (h : ipGate cfg direction w e = .error .xassert) :
    False := by
  unfold ipGate at h
  split at h
  · split at h <;> cases h
  · cases h

theorem Keyed.locked_dst (h : Keyed w) {key : Endpoint} {id : EptId} {todo : List Endpoint}
    (hphase : w.phase = .relay key id todo) (he : w.epts id = some e) :
    e.proxyRule.dstEndpoint = key := by
  obtain ⟨e', he', hk⟩ := h.mapped key id (h.locked key id todo hphase)
  rw [he] at he'
  cases he'
  exact hk

theorem recvVerdict_ne_xassert {key : Endpoint} (he : Foreign e) (hk : e.proxyRule.dstEndpoint = key) :
    recvVerdict cfg key w e ≠ .fault .xassert := by
  unfold recvVerdict
  split
  · nofun
  · rename_i msg rest hqueue
    have hsrc : msg.src ≠ key := by
      rw [← hk]
      exact he msg (by rw [hqueue]; exact List.mem_cons_self)
    rw [if_neg hsrc]
    split
    · nofun
    · split
      · nofun
      · split
        · rename_i fault hgate
          rintro ⟨⟩
          exact ipGate_ne_xassert hgate
        · nofun
        · nofun

theorem sendVerdict_ne_xassert : sendVerdict cfg w e ≠ .fault .xassert := by
  unfold sendVerdict
  split
  · nofun
  · split
    · nofun
    · split
      · rename_i fault hgate
        rintro ⟨⟩
        exact ipGate_ne_xassert hgate
      · nofun
      · nofun

theorem fault_step (hw : Relaying w) (h : Stepped cfg w ev w') : w'.fault ≠ some .xassert := by
  cases h with
  | relayFault hphase he hverdict =>
    rintro ⟨⟩
    exact recvVerdict_ne_xassert (hw.foreign _ _ he) (hw.keyed.locked_dst hphase he) hverdict
  | flushFault hphase hverdict =>
    rintro ⟨⟩
    exact sendVerdict_ne_xassert hverdict
  | @addServerProxy rule outcome =>
    obtain ⟨epts, heq⟩ := addServerProxy_eq rule outcome w
    rw [heq]
    exact hw.fault_ne
  | @transfer outcome key id todo e msg =>
    obtain ⟨ip, newEpts, epts, nextEpt, nextBuf, relayed, heq⟩ := transfer_eq cfg outcome key id e msg w
    rw [heq]
    exact hw.fault_ne
  | _ => exact hw.fault_ne

theorem relaying_step (hw : Relaying w) (hg : QueuesForeign w ev) (h : Stepped cfg w ev w') :
    Relaying w' := by
  refine ⟨keyed_step hw.keyed h, ?_, fault_step hw h⟩
  intro id e' he'
  cases (makes_step h).origin id e' he' with
  | changed he hc => exact foreign_changes hg hc (hw.foreign id _ he)
  | created hid hev hbuf hc => exact foreign_changes hg hc (foreign_create _ _ _ _ _)

theorem relaying_initial (h : Initial w) : Relaying w := by
  obtain ⟨clock, ip, heap, rfl⟩ := h
  refine ⟨keyed_initial ⟨clock, ip, heap, rfl⟩, ?_, by simp [initial]⟩
  intro id e he
  cases he

theorem no_failed_assertion (h₀ : Initial w₀) (h : exec (step cfg) w₀ es = some w)
    (hg : Along (step cfg) QueuesForeign w₀ es) :
    w.fault ≠ some .xassert ∧
    ∀ k id e msg, w.endpoints.lookup k = some id → w.epts id = some e →
      e.recvQueue.head? = some msg → msg.src ≠ k := by
  have hw : Relaying w := exec_guarded (I := Relaying)
    (fun _ _ _ hs hr he => relaying_step hs hr (step_cases he)) h hg (relaying_initial h₀)
  refine ⟨hw.fault_ne, ?_⟩
  intro k id e msg hk he hhead
  obtain ⟨e', he', hdst⟩ := hw.keyed.mapped k id hk
  rw [he] at he'
  cases he'
  rw [← hdst]
  exact hw.foreign id e he msg (List.mem_of_mem_head? hhead)

def after (cfg : Config) (w : World) (es : List Event) : World := (exec (step cfg) w es).getD w

def plain : Config := ⟨fun _ => 0, 600000⟩

def start : World := initial 5 (fun _ => IPProxy.create) fun _ _ => 0

theorem initial_start : Initial start := ⟨5, _, _, rfl⟩

def receive (src : Endpoint) : List Event :=
  [.addServerProxy ⟨53, ⟨1, 53⟩, 0, 0, 0⟩ .success, .start, .arrive 0 1 src [7],
    .handleRecv 0 ⟨1, .success, 1⟩ 1 .success, .clock 20, .tick, .visit ⟨1, 53⟩, .relay .success]

theorem no_failed_assertion_client : (after plain start (receive ⟨9, 4000⟩)).fault ≠ some .xassert := by
  have hexec : exec (step plain) start (receive ⟨9, 4000⟩) =
    some (after plain start (receive ⟨9, 4000⟩)) := rfl
  have halong : Along (step plain) QueuesForeign start (receive ⟨9, 4000⟩) := by decide
  exact (no_failed_assertion initial_start hexec halong).1

theorem remote_fails_assertion : ¬ ∀ (cfg : Config) (w₀ w : World) (es : List Event), Initial w₀ →
    exec (step cfg) w₀ es = some w → w.fault ≠ some .xassert ∧
      ∀ k id e msg, w.endpoints.lookup k = some id → w.epts id = some e →
        e.recvQueue.head? = some msg → msg.src ≠ k := by
  intro hclaim
  have hexec : exec (step plain) start (receive ⟨1, 53⟩) =
    some (after plain start (receive ⟨1, 53⟩)) := rfl
  have hfault : (after plain start (receive ⟨1, 53⟩)).fault = some .xassert := by decide
  have hrun := hclaim plain start _ _ initial_start hexec
  exact hrun.1 hfault

end TcpUdpProxy.UdpServer
