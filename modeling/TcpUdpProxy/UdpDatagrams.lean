import TcpUdpProxy.UdpOwnership
import TcpUdpProxy.UdpReceives

namespace TcpUdpProxy.UdpServer

open UdpEndpointProxy Execution

/-- A datagram at the socket of an endpoint: `peer` is the other side, its source or its destination. -/
structure Datagram where
  ept : EptId
  key : Endpoint
  peer : Endpoint
  buf : BufId
  payload : List UInt8
  deriving DecidableEq

def Datagram.content (d : Datagram) : BufId × List UInt8 := (d.buf, d.payload)

def received (w : World) : Event → List Datagram
  | .arrive id buf src data =>
    match w.epts id with
    | some e => [⟨id, e.proxyRule.dstEndpoint, src, buf, data⟩]
    | none => []
  | _ => []

def Sends (cfg : Config) (w : World) : Option Datagram :=
  (sending cfg w).bind fun (id, msg) =>
    (w.epts id).map fun e => ⟨id, e.proxyRule.dstEndpoint, msg.src, msg.msg.buf, msg.msg.bytes w.heap⟩

def sentTo (cfg : Config) (w : World) : Event → List Datagram
  | .flush .success _ => (Sends cfg w).toList
  | _ => []

/-- A receive delivers into the buffer that the endpoint will queue, once the last delivery is handled. -/
def OwnBuffer (w : World) : Event → Prop
  | .arrive id buf _ _ => ∀ e ∈ w.epts id, e.recvingMsg.msg.buf = buf ∧
      ∀ r ∈ e.proxySocket.ready, r.error ≠ .success
  | _ => True

instance (w : World) : ∀ ev, Decidable (OwnBuffer w ev)
  | .arrive id buf _ _ => inferInstanceAs (Decidable (∀ e ∈ w.epts id, e.recvingMsg.msg.buf = buf ∧
      ∀ r ∈ e.proxySocket.ready, r.error ≠ .success))
  | .addServerProxy .. | .start | .tick | .visit _ | .relay _ | .merge | .enter _ | .flush .. | .rest
  | .stop | .fail .. | .handleRecv .. | .clock _ | .ip _ => isTrue trivial

def OwnBufferAt (keys : Endpoint → Prop) (w : World) : Event → Prop
  | .arrive id buf _ _ => ∀ e ∈ w.epts id, keys e.proxyRule.dstEndpoint → e.recvingMsg.msg.buf = buf ∧
      ∀ r ∈ e.proxySocket.ready, r.error ≠ .success
  | _ => True

theorem OwnBuffer.at_keys {w : World} {ev : Event} (h : OwnBuffer w ev) (keys : Endpoint → Prop) :
    OwnBufferAt keys w ev := by
  cases ev with
  | arrive id buf src data => exact fun e he _ => h e he
  | _ => trivial

section successes

def successes (s : UdpSocket) : List RecvResult := s.ready.filter fun r => r.error = .success

theorem successes_append_failed (s : UdpSocket) {rs : List RecvResult} (h : ∀ r ∈ rs, r.error ≠ .success)
    (isOpen : Bool) (pending : List BufId) : successes ⟨isOpen, pending, s.ready ++ rs⟩ = successes s := by
  have hnil : rs.filter (fun r => r.error = .success) = [] := by
    simpa [List.filter_eq_nil_iff] using h
  unfold successes
  rw [List.filter_append, hnil, List.append_nil]

theorem successes_asyncReceiveFrom (buf : BufId) (s : UdpSocket) :
    successes (s.asyncReceiveFrom buf) = successes s := by
  unfold UdpSocket.asyncReceiveFrom
  split
  · rfl
  · apply successes_append_failed
    simp

theorem successes_close (s : UdpSocket) : successes s.close = successes s := by
  apply successes_append_failed
  simp

theorem successes_init (outcome : InitOutcome) (now : Msec) (e : UdpEndpointProxy) :
    successes (e.init outcome now).proxySocket = successes e.proxySocket := by
  unfold UdpEndpointProxy.init
  split
  · rfl
  · dsimp only
    split
    · exact successes_asyncReceiveFrom _ _
    · rfl

theorem successes_restart (outcome : InitOutcome) (now : Msec) (e : UdpEndpointProxy) :
    successes (e.restart outcome now).proxySocket = successes e.proxySocket := by
  unfold restart
  split
  · rw [successes_init]
    exact successes_close _
  · exact successes_close _

theorem successes_popRecv (e : UdpEndpointProxy) :
    successes e.popRecv.proxySocket = successes e.proxySocket := by
  unfold popRecv
  dsimp only
  split
  · exact successes_asyncReceiveFrom _ _
  · rfl

theorem successes_handled (w : World) (r : RecvResult) (draw : ℤ) (outcome : InitOutcome)
    (e : UdpEndpointProxy) :
    successes (handled w r draw outcome e).1.proxySocket = successes (e.proxySocket.take r) := by
  unfold handled UdpEndpointProxy.handleRecv
  split
  · split
    · exact successes_asyncReceiveFrom _ _
    · split
      · exact successes_restart outcome w.clock { e with proxySocket := e.proxySocket.take r }
      · rfl
  · dsimp only
    split
    · exact successes_asyncReceiveFrom _ _
    · split
      · rfl
      · exact successes_asyncReceiveFrom _ _

theorem successes_take (s : UdpSocket) (r : RecvResult) : (successes (s.take r)).Sublist (successes s) :=
  List.erase_sublist.filter _

theorem successes_take_nil {s : UdpSocket} {r : RecvResult} (hr : r ∈ s.ready) (herror : r.error = .success)
    (hsingle : (successes s).length ≤ 1) : successes (s.take r) = [] := by
  have hperm := ((List.perm_cons_erase hr).filter fun r => r.error = .success).length_eq
  rw [List.filter_cons_of_pos (by simpa using herror), List.length_cons] at hperm
  unfold successes at hsingle
  apply List.eq_nil_of_length_eq_zero
  change ((s.ready.erase r).filter fun r => r.error = .success).length = 0
  omega

theorem successes_create (bandwidth : PairId → ℤ) (rule : UdpProxyRule) (buf : BufId)
    (outcome : InitOutcome) (now : Msec) :
    successes (create bandwidth rule buf outcome now).proxySocket = [] :=
  successes_init outcome now _

end successes

def last (rs : List Datagram) (buf : BufId) : Option Datagram := (rs.filter fun d => d.buf = buf).getLast?

theorem last_append_of_ne {rs ds : List Datagram} {buf : BufId} (h : ∀ d ∈ ds, d.buf ≠ buf) :
    last (rs ++ ds) buf = last rs buf := by
  have hnil : ds.filter (fun d => d.buf = buf) = [] := by
    simpa [List.filter_eq_nil_iff] using h
  unfold last
  rw [List.filter_append, hnil, List.append_nil]

theorem last_append_self (rs : List Datagram) (d : Datagram) : last (rs ++ [d]) d.buf = some d := by
  simp [last, List.filter_append]

theorem mem_of_last {rs : List Datagram} {buf : BufId} {d : Datagram} (h : last rs buf = some d) :
    d ∈ rs ∧ d.buf = buf := by
  have hmem := List.mem_of_getLast? h
  simpa using hmem

def Records (rs : List Datagram) (heap : Heap) (key peer : Endpoint) (b : Buffer) : Prop :=
  ∃ d, last rs b.buf = some d ∧ d.key = key ∧ d.peer = peer ∧ d.payload = b.bytes heap

/-- Nothing that is received from now on comes into the buffer. -/
def Settled (keys : Endpoint → Prop) (w : World) (b : BufId) : Prop :=
  Released w b ∧ ∀ id e, w.epts id = some e → ¬ keys e.proxyRule.dstEndpoint → b ∉ e.proxySocket.pending

structure Recorded (keys : Endpoint → Prop) (w : World) (rs : List Datagram) (e : UdpEndpointProxy) : Prop where
  waiting : keys e.proxyRule.dstEndpoint → ∀ msg ∈ e.recvQueue,
    Records rs w.heap e.proxyRule.dstEndpoint msg.src msg.msg
  leaving : ∀ msg ∈ e.sendQueue, keys msg.src → Settled keys w msg.msg.buf ∧
    Records rs w.heap msg.src e.proxyRule.dstEndpoint msg.msg
  arrived : keys e.proxyRule.dstEndpoint → ∀ r ∈ successes e.proxySocket,
    Records rs w.heap e.proxyRule.dstEndpoint e.recvingMsg.src ⟨e.recvingMsg.msg.buf, r.bytesTransferred⟩
  single : keys e.proxyRule.dstEndpoint → (successes e.proxySocket).length ≤ 1

variable {cfg : Config} {w w' w₀ : World} {ev : Event} {id rid : EptId} {e e' : UdpEndpointProxy}
  {key peer : Endpoint} {msg : UdpMsg} {rs : List Datagram} {es : List Event} {outcome : InitOutcome}
  {keys : Endpoint → Prop}

theorem Buffer.bytes_store_self (heap : Heap) (buf : BufId) (data : List UInt8) :
    (⟨buf, data.length⟩ : Buffer).bytes (heap.store buf data) = data := by
  apply List.ext_getElem
  · simp [Buffer.bytes]
  · intro i hi hi'
    simp [Buffer.bytes, Heap.store, hi']

theorem settled_step (hk : Keyed w) {b : BufId} (hb : Settled keys w b) (h : step cfg w ev = some w') :
    Settled keys w' b := by
  have hrel := released_step (step_cases h) hb.1
  refine ⟨hrel, ?_⟩
  intro id e' he' hkey hpending
  have hbecame := became_step hk h he'
  rcases hbecame.pending b hpending with heq | ⟨e, he, hold⟩
  · exact hrel.2 id e' he' heq.symm
  · rw [(hbecame.serverFlag hk he).1] at hkey
    exact hb.2 id e he hkey hold

theorem settled_queued (hb : Buffered w) (ha : Apart w) (he : w.epts id = some e)
    (hkey : keys e.proxyRule.dstEndpoint) (hmsg : msg ∈ e.recvQueue) : Settled keys w msg.msg.buf := by
  refine ⟨hb.queued id e he msg hmsg, ?_⟩
  intro id' e' he' hkey' hpending
  by_cases hid : id' = id
  · subst hid
    rw [he] at he'
    cases he'
    exact hkey' hkey
  · exact (ha.foreign id' id e' e he' he hid _ hpending).2 msg hmsg rfl

theorem arriving_buf {buf b : BufId} {src : Endpoint} {data : List UInt8} (he : w.epts id = some e)
    (h : Stepped cfg w (.arrive id buf src data) w') (hown : OwnBufferAt keys w (.arrive id buf src data))
    (hkept : e.recvingMsg.msg.buf ≠ b)
    (hforeign : ¬ keys e.proxyRule.dstEndpoint → b ∉ e.proxySocket.pending) : b ≠ buf := by
  rintro rfl
  cases h with
  | arrive he₁ hbuf =>
    rw [he] at he₁
    cases he₁
    by_cases hkey : keys e.proxyRule.dstEndpoint
    · exact hkept (hown e he hkey).1
    · exact hforeign hkey hbuf

theorem Settled.untouched {b : BufId} (hb : Settled keys w b) (h : Stepped cfg w ev w')
    (hown : OwnBufferAt keys w ev) : ∀ id buf src data, ev = .arrive id buf src data → b ≠ buf := by
  rintro id buf src data rfl
  obtain ⟨e, he⟩ : ∃ e, w.epts id = some e := by
    cases h with
    | arrive he => exact ⟨_, he⟩
  exact arriving_buf he h hown (hb.1.2 id e he) (hb.2 id e he)

theorem Records.step {b : Buffer} (h : Stepped cfg w ev w')
    (hb : ∀ id buf src data, ev = .arrive id buf src data → b.buf ≠ buf) (hr : Records rs w.heap key peer b) :
    Records (rs ++ received w ev) w'.heap key peer b := by
  obtain ⟨d, hlast, hkey, hpeer, hpayload⟩ := hr
  refine ⟨d, ?_, hkey, hpeer, hpayload.trans (bytes_unwritten h hb).symm⟩
  rw [last_append_of_ne, hlast]
  intro d' hd'
  cases h with
  | @arrive id buf src data e he =>
    simp only [received, he, List.mem_singleton] at hd'
    subst hd'
    exact (hb id buf src data rfl).symm
  | _ => cases hd'

theorem Recorded.congr (h : Recorded keys w rs e) (hrule : e'.proxyRule = e.proxyRule)
    (hrecv : e'.recvQueue ⊆ e.recvQueue) (hsend : e'.sendQueue ⊆ e.sendQueue)
    (hsocket : (successes e'.proxySocket).Sublist (successes e.proxySocket)) (hmsg : e'.recvingMsg = e.recvingMsg) :
    Recorded keys w rs e' := by
  constructor
  · rw [hrule]
    intro hkey msg hin
    exact h.waiting hkey msg (hrecv hin)
  · intro msg hin
    rw [hrule]
    exact h.leaving msg (hsend hin)
  · rw [hrule, hmsg]
    intro hkey r hr
    exact h.arrived hkey r (hsocket.subset hr)
  · rw [hrule]
    exact fun hkey => hsocket.length_le.trans (h.single hkey)

theorem Recorded.step (hk : Keyed w) (hb : Buffered w) (ha : Apart w) (hown : OwnBufferAt keys w ev)
    (he : w.epts id = some e) (hstep : step cfg w ev = some w')
    (harrive : ∀ buf src data, ev ≠ .arrive id buf src data) (hr : Recorded keys w rs e) :
    Recorded keys w' (rs ++ received w ev) e := by
  have h := step_cases hstep
  constructor
  · intro hkey msg hmsg
    exact (hr.waiting hkey msg hmsg).step h ((settled_queued hb ha he hkey hmsg).untouched h hown)
  · intro msg hmsg hkey
    obtain ⟨hset, hrec⟩ := hr.leaving msg hmsg hkey
    exact ⟨settled_step hk hset hstep, hrec.step h (hset.untouched h hown)⟩
  · intro hkey r hin
    apply (hr.arrived hkey r hin).step h
    rintro id' buf src data rfl
    obtain ⟨e', he'⟩ : ∃ e', w.epts id' = some e' := by
      cases h with
      | arrive he' => exact ⟨_, he'⟩
    have hne : id' ≠ id := by
      rintro rfl
      exact harrive _ _ _ rfl
    apply arriving_buf he' h hown
    · exact fun heq => hne (hb.distinct _ _ _ _ he' he heq)
    · exact fun _ hpending => (ha.foreign id' id e' e he' he hne _ hpending).1 rfl
  · exact hr.single

theorem Recorded.pushSend (h : Recorded keys w rs e) (hpushed : keys msg.src → Settled keys w msg.msg.buf ∧
    Records rs w.heap msg.src e.proxyRule.dstEndpoint msg.msg) : Recorded keys w rs (pushSend msg e) := by
  rw [pushSend_eq]
  refine ⟨h.waiting, ?_, h.arrived, h.single⟩
  intro msg' hmsg'
  rcases List.mem_append.mp hmsg' with hin | hin
  · exact h.leaving msg' hin
  · split at hin
    · obtain rfl := List.mem_singleton.mp hin
      exact hpushed
    · cases hin

theorem recorded_create (bandwidth : PairId → ℤ) (rule : UdpProxyRule) (buf : BufId) (outcome : InitOutcome)
    (now : Msec) : Recorded keys w rs (create bandwidth rule buf outcome now) := by
  have hnil := successes_create bandwidth rule buf outcome now
  obtain ⟨s, t, heq⟩ := create_eq bandwidth rule buf outcome now
  refine ⟨?_, ?_, ?_, ?_⟩
  · rw [heq]
    nofun
  · rw [heq]
    nofun
  · rw [hnil]
    nofun
  · rw [hnil]
    exact fun _ => Nat.zero_le _

theorem recorded_handled {r : RecvResult} {draw : ℤ} (h : Recorded keys w' rs e) (hr : r ∈ e.proxySocket.ready) :
    Recorded keys w' rs (handled w r draw outcome e).1 := by
  have hsocket : (successes (handled w r draw outcome e).1.proxySocket).Sublist (successes e.proxySocket) := by
    rw [successes_handled]
    exact successes_take _ _
  rcases handled_cases w r draw outcome e with ⟨s, t, heq⟩ | ⟨herror, -, s, f, heq⟩
  · apply h.congr _ _ _ hsocket <;> rw [heq]
    · exact List.Subset.refl _
    · exact List.Subset.refl _
  · have hrule : (handled w r draw outcome e).1.proxyRule = e.proxyRule := by rw [heq]
    have hnil : keys e.proxyRule.dstEndpoint → successes (handled w r draw outcome e).1.proxySocket = [] := by
      intro hkey
      rw [successes_handled]
      exact successes_take_nil hr herror (h.single hkey)
    refine ⟨?_, ?_, ?_, ?_⟩
    · rw [heq]
      intro hkey msg hmsg
      rcases List.mem_append.mp hmsg with hin | hin
      · exact h.waiting hkey msg hin
      · obtain rfl := List.mem_singleton.mp hin
        exact h.arrived hkey r (List.mem_filter.mpr ⟨hr, by simpa using herror⟩)
    · rw [heq]
      exact h.leaving
    · rw [hrule]
      intro hkey
      rw [hnil hkey]
      nofun
    · rw [hrule]
      intro hkey
      rw [hnil hkey]
      exact Nat.zero_le _

theorem recorded_arrive {buf : BufId} {src : Endpoint} {data : List UInt8} (hk : Keyed w) (hb : Buffered w)
    (ha : Apart w) (hown : OwnBufferAt keys w (.arrive id buf src data)) (he : w.epts id = some e)
    (hstep : step cfg w (.arrive id buf src data) = some w') (hr : Recorded keys w rs e) :
    Recorded keys w' (rs ++ received w (.arrive id buf src data)) (e.arrive buf src data.length) := by
  have h := step_cases hstep
  have hone : keys e.proxyRule.dstEndpoint →
      successes (e.arrive buf src data.length).proxySocket = [⟨buf, .success, data.length⟩] := by
    intro hkey
    have hready : successes (e.arrive buf src data.length).proxySocket =
        successes e.proxySocket ++ [⟨buf, .success, data.length⟩] := by
      simp [successes, UdpEndpointProxy.arrive, UdpSocket.complete]
    have hnil : successes e.proxySocket = [] := by
      simpa [successes, List.filter_eq_nil_iff] using (hown e he hkey).2
    rw [hready, hnil, List.nil_append]
  constructor
  · intro hkey msg hmsg
    exact (hr.waiting hkey msg hmsg).step h ((settled_queued hb ha he hkey hmsg).untouched h hown)
  · intro msg hmsg hkey
    obtain ⟨hset, hrec⟩ := hr.leaving msg hmsg hkey
    exact ⟨settled_step hk hset hstep, hrec.step h (hset.untouched h hown)⟩
  · intro hkey
    rw [hone hkey]
    intro r hin
    obtain rfl := List.mem_singleton.mp hin
    have hbuf := (hown e he hkey).1
    have hheap : w'.heap = w.heap.store buf data := by
      cases h
      rfl
    have hreceived : received w (.arrive id buf src data) =
        [⟨id, e.proxyRule.dstEndpoint, src, buf, data⟩] := by
      simp [received, he]
    refine ⟨⟨id, e.proxyRule.dstEndpoint, src, buf, data⟩, ?_, rfl, rfl, ?_⟩
    · rw [hreceived, ← hbuf]
      exact last_append_self rs _
    · rw [hheap]
      change data = (⟨e.recvingMsg.msg.buf, data.length⟩ : Buffer).bytes (w.heap.store buf data)
      rw [hbuf]
      exact (Buffer.bytes_store_self _ _ _).symm
  · intro hkey
    rw [hone hkey]
    exact le_refl _

theorem recorded_popping (hk : Keyed w) (hb : Buffered w) (ha : Apart w)
    (hall : ∀ id e, w.epts id = some e → Recorded keys w rs e) (hpop : popping cfg w = some (rid, key, msg))
    (hkeys : keys key) : Settled keys w msg.msg.buf ∧ Records rs w.heap key msg.src msg.msg := by
  obtain ⟨e, rest, he, rfl, hqueue, -⟩ := hk.popping hpop
  have hmem : msg ∈ e.recvQueue := by
    rw [hqueue]
    exact List.mem_cons_self
  exact ⟨settled_queued hb ha he hkeys hmem, (hall rid e he).waiting hkeys msg hmem⟩

theorem recorded_step (hk : Keyed w) (hb : Buffered w) (ha : Apart w) (hown : OwnBufferAt keys w ev)
    (hall : ∀ id e, w.epts id = some e → Recorded keys w rs e) (hstep : step cfg w ev = some w')
    (he' : w'.epts id = some e') : Recorded keys w' (rs ++ received w ev) e' := by
  have hkeep : ∀ e, w.epts id = some e → (∀ buf src data, ev ≠ .arrive id buf src data) →
      Recorded keys w' (rs ++ received w ev) e :=
    fun e he harrive => (hall id e he).step hk hb ha hown he hstep harrive
  have hpopped : ∀ {outcome rid key msg}, ev = .relay outcome → popping cfg w = some (rid, key, msg) →
      keys key → Settled keys w' msg.msg.buf ∧ Records (rs ++ received w ev) w'.heap key msg.src msg.msg := by
    intro outcome rid key msg hev hpop hkey
    obtain ⟨hset, hrec⟩ := recorded_popping hk hb ha hall hpop hkey
    refine ⟨settled_step hk hset hstep, hrec.step (step_cases hstep) ?_⟩
    rw [hev]
    nofun
  cases became_step hk hstep he' with
  | same he _ _ _ harrive => exact hkeep _ he harrive
  | added => exact recorded_create ..
  | @credited key todo e hev hphase hkey hlookup he =>
    apply (hkeep e he (by rw [hev]; nofun)).congr (proxyRule_credit _ _)
    · rw [recvQueue_credit]
      exact List.Subset.refl _
    · rw [(sendQueue_credit _ _).1]
      exact List.Subset.refl _
    · unfold credit
      split <;> exact List.Sublist.refl _
    · unfold credit
      split <;> rfl
  | @popped outcome key todo e msg hev hphase he =>
    have hdebit : (debitRecv msg e).proxySocket = e.proxySocket ∧ (debitRecv msg e).recvingMsg = e.recvingMsg := by
      unfold debitRecv
      split <;> exact ⟨rfl, rfl⟩
    apply (hkeep e he (by rw [hev]; nofun)).congr (proxyRule_popRecv msg e)
    · rw [recvQueue_popRecv, recvQueue_debitRecv]
      exact fun _ => List.mem_of_mem_tail
    · rw [(sendQueue_debitRecv msg e).1]
      exact List.Subset.refl _
    · rw [successes_popRecv, hdebit.1]
    · obtain ⟨s, f, heq⟩ := popRecv_eq (debitRecv msg e)
      rw [heq]
      exact hdebit.2
  | @handed outcome key rid msg e hev hpop hne hsender he =>
    obtain ⟨e₁, he₁, hkey⟩ := hk.mapped _ _ hsender
    rw [he] at he₁
    cases he₁
    obtain ⟨t, heq⟩ := touch_eq w.now e
    have htouched : Recorded keys w' (rs ++ received w ev) (touch w.now e) := by
      rw [heq]
      exact (hkeep e he (by rw [hev]; nofun)).congr rfl (List.Subset.refl _) (List.Subset.refl _)
        (List.Sublist.refl _) rfl
    apply Recorded.pushSend htouched
    rw [proxyRule_touch, hkey]
    exact hpopped hev hpop
  | @made outcome key rid msg e hev hpop =>
    apply Recorded.pushSend (recorded_create ..)
    rw [proxyRule_create]
    exact hpopped hev hpop
  | @restarted error outcome msg e hev herror hsend he =>
    have hsocket := successes_restart outcome w.clock e
    obtain ⟨s, t, heq⟩ := restart_eq outcome w.clock e
    rw [heq] at hsocket ⊢
    exact (hkeep e he (by rw [hev]; nofun)).congr rfl (List.Subset.refl _) (List.Subset.refl _)
      (by rw [hsocket]) rfl
  | @sent outcome msg e hev hsend he =>
    exact (hkeep e he (by rw [hev]; nofun)).congr rfl (List.Subset.refl _) (fun _ => List.mem_of_mem_tail)
      (List.Sublist.refl _) rfl
  | @stopped e hev hphase he =>
    exact (hkeep e he (by rw [hev]; nofun)).congr rfl (List.Subset.refl _) (List.Subset.refl _)
      (by rw [← successes_close e.proxySocket]; rfl) rfl
  | arrived hev he hbuf hlen =>
    subst hev
    exact recorded_arrive hk hb ha hown he hstep (hall _ _ he)
  | @failed buf error e hev he hbuf herror =>
    have hsame : successes (e.proxySocket.complete ⟨buf, error, 0⟩) = successes e.proxySocket := by
      apply successes_append_failed
      simpa using herror
    exact (hkeep e he (by rw [hev]; nofun)).congr rfl (List.Subset.refl _) (List.Subset.refl _)
      (by rw [hsame]) rfl
  | @handled r draw outcome e hev he hr =>
    exact recorded_handled (hkeep e he (by rw [hev]; nofun)) hr

structure Historic (keys : Endpoint → Prop) (w : World) (rs : List Datagram) : Prop where
  keyed : Keyed w
  buffered : Buffered w
  apart : Apart w
  recorded : ∀ id e, w.epts id = some e → Recorded keys w rs e

theorem historic_run (h₀ : Initial w₀) (h : exec (step cfg) w₀ es = some w)
    (hg : Along (step cfg) (OwnBufferAt keys) w₀ es) : Historic keys w (trace (step cfg) received w₀ es) := by
  have hstart : Historic keys w₀ [] := by
    refine ⟨keyed_initial h₀, buffered_initial h₀, apart_initial h₀, ?_⟩
    obtain ⟨clock, ip, heap, rfl⟩ := h₀
    intro id e he
    cases he
  have hstep : ∀ u ev v rs, Historic keys u rs → OwnBufferAt keys u ev → step cfg u ev = some v →
      Historic keys v (rs ++ received u ev) := by
    rintro u ev v rs ⟨hk, hb, ha, hall⟩ hown hstep
    exact ⟨keyed_step hk (step_cases hstep), buffered_step hb (step_cases hstep), apart_step hk hb ha hstep,
      fun id e he => recorded_step hk hb ha hown hall hstep he⟩
  have hrun := exec_traced hstep h hg hstart
  rwa [List.nil_append] at hrun

theorem sends_cases {d : Datagram} (h : Sends cfg w = some d) : ∃ msg e,
    sending cfg w = some (d.ept, msg) ∧ w.epts d.ept = some e ∧ msg ∈ e.sendQueue ∧
      d = ⟨d.ept, e.proxyRule.dstEndpoint, msg.src, msg.msg.buf, msg.msg.bytes w.heap⟩ := by
  obtain ⟨⟨id, msg⟩, hsend, h⟩ := Option.bind_eq_some_iff.mp h
  obtain ⟨e, he, rfl⟩ := Option.map_eq_some_iff.mp h
  obtain ⟨todo, e₁, -, he₁, hverdict⟩ := sending_cases hsend
  rw [he] at he₁
  cases he₁
  obtain ⟨rest, hqueue, -⟩ := sendVerdict_take hverdict
  exact ⟨msg, e, hsend, he, by rw [hqueue]; exact List.mem_cons_self, rfl⟩

theorem mem_sentTo {d : Datagram} : d ∈ sentTo cfg w ev ↔
    ∃ outcome, ev = .flush .success outcome ∧ Sends cfg w = some d := by
  constructor
  · intro hd
    unfold sentTo at hd
    split at hd
    · exact ⟨_, rfl, by simpa using hd⟩
    · cases hd
  · rintro ⟨outcome, rfl, hd⟩
    simpa [sentTo] using hd

theorem mem_received {d : Datagram} : d ∈ received w ev ↔ ∃ id buf src data e,
    ev = .arrive id buf src data ∧ w.epts id = some e ∧ d = ⟨id, e.proxyRule.dstEndpoint, src, buf, data⟩ := by
  constructor
  · intro hd
    unfold received at hd
    split at hd
    · split at hd
      · rename_i e he
        exact ⟨_, _, _, _, e, rfl, he, List.mem_singleton.mp hd⟩
      · cases hd
    · cases hd
  · rintro ⟨id, buf, src, data, e, rfl, he, rfl⟩
    simp [received, he]

theorem settled_forward (hk : Keyed w) {b : BufId} (hb : Settled keys w b) (h : exec (step cfg) w es = some w')
    (hg : Along (step cfg) (OwnBufferAt keys) w es) : ∀ d ∈ trace (step cfg) received w es, d.buf ≠ b := by
  intro d hd
  obtain ⟨as, ev, bs, u, v, rfl, hu, hstep, hin⟩ := (mem_trace h).mp hd
  rw [along_append hu, along_cons hstep] at hg
  have hset : Keyed u ∧ Settled keys u b := by
    apply exec_invariant (I := fun u => Keyed u ∧ Settled keys u b) _ hu ⟨hk, hb⟩
    exact fun u ev v hu hstep => ⟨keyed_step hu.1 (step_cases hstep), settled_step hu.1 hu.2 hstep⟩
  obtain ⟨id, buf, src, data, e, rfl, he, rfl⟩ := mem_received.mp hin
  exact (hset.2.untouched (step_cases hstep) hg.2.1 id buf src data rfl).symm

theorem sent_origin (h₀ : Initial w₀) (h : exec (step cfg) w₀ es = some w)
    (hg : Along (step cfg) (OwnBufferAt keys) w₀ es) {d : Datagram}
    (hd : d ∈ trace (step cfg) (sentTo cfg) w₀ es) (hkey : keys d.peer) :
    ∃ r, last (trace (step cfg) received w₀ es) d.buf = some r ∧ r.key = d.peer ∧ r.peer = d.key ∧
      r.payload = d.payload := by
  obtain ⟨as, ev, bs, u, v, rfl, hu, hstep, hin⟩ := (mem_trace h).mp hd
  rw [along_append hu] at hg
  obtain ⟨u', hu', hrest⟩ := exec_append_some.mp h
  rw [hu] at hu'
  cases hu'
  have hhistoric := historic_run h₀ hu hg.1
  obtain ⟨outcome, rfl, hsends⟩ := mem_sentTo.mp hin
  obtain ⟨msg, e, -, he, hmem, heq⟩ := sends_cases hsends
  rw [heq] at hkey ⊢
  obtain ⟨hset, r, hlast, hkeyed, hpeer, hpayload⟩ := (hhistoric.recorded _ _ he).leaving msg hmem hkey
  rw [trace_append hu]
  refine ⟨r, ?_, hkeyed, hpeer, hpayload⟩
  rw [last_append_of_ne (settled_forward hhistoric.keyed hset hrest hg.2)]
  exact hlast

end TcpUdpProxy.UdpServer
