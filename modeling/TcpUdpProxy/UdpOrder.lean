import TcpUdpProxy.UdpDatagrams

/-!
The order of the datagrams between two addresses: buffers are handed out in order, and a buffer goes
from the `recv_queue` of one endpoint to the `send_queue` of the other without overtaking.
-/

namespace TcpUdpProxy.UdpServer

open UdpEndpointProxy Execution

def World.endpoint (w : World) (key : Endpoint) : Option UdpEndpointProxy := (w.owner key).bind w.epts

def leavingOf (dst : Endpoint) (e : UdpEndpointProxy) : List BufId :=
  (e.sendQueue.filter fun msg => msg.src = dst).map fun msg => msg.msg.buf

def waitingOf (src : Endpoint) (e : UdpEndpointProxy) : List BufId :=
  ((e.recvQueue.filter fun msg => msg.src = src).map fun msg => msg.msg.buf) ++ [e.recvingMsg.msg.buf]

def leaving (w : World) (key dst : Endpoint) : List BufId := (w.endpoint key).elim [] (leavingOf dst)

def waiting (w : World) (key src : Endpoint) : List BufId := (w.endpoint key).elim [] (waitingOf src)

def moved (cfg : Config) (key src : Endpoint) (w : World) : Event → List BufId
  | .relay _ =>
    match popping cfg w with
    | some (_, k, msg) => if k = key ∧ msg.src = src then [msg.msg.buf] else []
    | none => []
  | _ => []

def between (key peer : Endpoint) (ds : List Datagram) : List Datagram :=
  ds.filter fun d => d.key = key ∧ d.peer = peer

def bufs (key peer : Endpoint) (ds : List Datagram) : List BufId := (between key peer ds).map Datagram.buf

variable {cfg : Config} {w w' w₀ : World} {ev : Event} {id rid : EptId} {e e' : UdpEndpointProxy}
  {key peer src dst : Endpoint} {msg : UdpMsg} {es : List Event} {outcome : InitOutcome}

theorem Owned.endpoint (hw : Owned w) (he : w.epts id = some e) :
    w.endpoint e.proxyRule.dstEndpoint = some e := by
  unfold World.endpoint
  rw [hw.owner id e he]
  exact he

theorem endpoint_step (hk : Keyed w) (h : step cfg w ev = some w') (he' : w'.endpoint key = some e') :
    ∃ id, w'.epts id = some e' ∧ Became cfg w ev id e' ∧ e'.proxyRule.dstEndpoint = key := by
  obtain ⟨id, howner, hlive⟩ := Option.bind_eq_some_iff.mp he'
  obtain ⟨e₁, he₁, hkey⟩ := (keyed_step hk (step_cases h)).owned howner
  rw [hlive] at he₁
  cases he₁
  exact ⟨id, hlive, became_step hk h hlive, hkey⟩

theorem moved_nil (h : ∀ outcome, ev = .relay outcome → ∀ rid msg, popping cfg w ≠ some (rid, key, msg)) :
    moved cfg key src w ev = [] := by
  unfold moved
  split
  · split
    · rename_i rid k msg hpop
      rw [if_neg]
      rintro ⟨rfl, -⟩
      exact h _ rfl rid msg hpop
    · rfl
  · rfl

theorem moved_nil_of_live (hk : Keyed w) (hw : Owned w) (he : w.epts id = some e)
    (hpop : ∀ outcome, ev = .relay outcome → ∀ key msg, popping cfg w ≠ some (id, key, msg)) :
    moved cfg e.proxyRule.dstEndpoint src w ev = [] := by
  apply moved_nil
  intro outcome hev rid msg hpopping
  obtain ⟨e₁, rest, he₁, hkey, -⟩ := hk.popping hpopping
  have hid := hw.unique he₁ he hkey
  subst hid
  exact hpop outcome hev _ msg hpopping

theorem moved_sublist (hk : Keyed w) (hw : Owned w) : (moved cfg key src w ev).Sublist (waiting w key src) := by
  unfold moved
  split
  · split
    · rename_i rid k msg hpop
      split
      · rename_i hmatch
        obtain ⟨rfl, rfl⟩ := hmatch
        obtain ⟨e, rest, he, rfl, hqueue, -⟩ := hk.popping hpop
        unfold waiting
        rw [hw.endpoint he]
        simp [waitingOf, hqueue]
      · exact List.nil_sublist _
    · exact List.nil_sublist _
  · exact List.nil_sublist _

theorem bufs_sentTo_nil (h : ∀ outcome, ev = .flush .success outcome →
    ∀ d, Sends cfg w = some d → d.key ≠ key) : bufs key peer (sentTo cfg w ev) = [] := by
  have hnil : between key peer (sentTo cfg w ev) = [] := by
    apply List.eq_nil_iff_forall_not_mem.mpr
    intro d hd
    obtain ⟨hmem, hmatch⟩ := List.mem_filter.mp hd
    obtain ⟨outcome, hev, hsends⟩ := mem_sentTo.mp hmem
    exact h outcome hev d hsends (by simpa using (of_decide_eq_true hmatch).1)
  unfold bufs
  rw [hnil]
  rfl

theorem bufs_sentTo {d : Datagram} (hd : Sends cfg w = some d) :
    bufs key peer (sentTo cfg w (.flush .success outcome)) =
      if d.key = key ∧ d.peer = peer then [d.buf] else [] := by
  have hsent : sentTo cfg w (.flush .success outcome) = [d] := by
    unfold sentTo
    rw [hd]
    rfl
  rw [hsent]
  by_cases hmatch : d.key = key ∧ d.peer = peer <;> simp [bufs, between, hmatch]

theorem Owned.sends (hw : Owned w) {d : Datagram} (h : Sends cfg w = some d) : ∃ msg rest e,
    sending cfg w = some (d.ept, msg) ∧ w.epts d.ept = some e ∧ w.endpoint d.key = some e ∧
      e.sendQueue = msg :: rest ∧ d.peer = msg.src ∧ d.buf = msg.msg.buf := by
  obtain ⟨msg, e, hsend, he, -, heq⟩ := sends_cases h
  obtain ⟨todo, e₁, -, he₁, hverdict⟩ := sending_cases hsend
  rw [he] at he₁
  cases he₁
  obtain ⟨rest, hqueue, -⟩ := sendVerdict_take hverdict
  refine ⟨msg, rest, e, hsend, he, ?_, hqueue, ?_, ?_⟩
  · rw [heq]
    exact hw.endpoint he
  · rw [heq]
  · rw [heq]

theorem sent_sublist (hw : Owned w) : (bufs key peer (sentTo cfg w ev)).Sublist (leaving w key peer) := by
  by_cases hsends : ∃ outcome d, ev = .flush .success outcome ∧ Sends cfg w = some d ∧ d.key = key ∧ d.peer = peer
  · obtain ⟨outcome, d, rfl, hd, rfl, rfl⟩ := hsends
    obtain ⟨msg, rest, e, -, -, he, hqueue, hpeer, hbuf⟩ := hw.sends hd
    rw [bufs_sentTo hd, if_pos ⟨rfl, rfl⟩, hbuf, hpeer]
    unfold leaving
    rw [he]
    simp [leavingOf, hqueue]
  · have hnil : between key peer (sentTo cfg w ev) = [] := by
      apply List.eq_nil_iff_forall_not_mem.mpr
      intro d hd
      obtain ⟨hmem, hmatch⟩ := List.mem_filter.mp hd
      obtain ⟨outcome, hev, hd⟩ := mem_sentTo.mp hmem
      obtain ⟨hkey, hpeer⟩ := of_decide_eq_true hmatch
      exact hsends ⟨outcome, d, hev, hd, hkey, hpeer⟩
    unfold bufs
    rw [hnil]
    exact List.nil_sublist _

theorem sent_nil_of_live (hw : Owned w) (he : w.epts id = some e)
    (hsend : ∀ outcome, ev = .flush .success outcome → ∀ msg, sending cfg w ≠ some (id, msg)) :
    bufs e.proxyRule.dstEndpoint peer (sentTo cfg w ev) = [] := by
  apply bufs_sentTo_nil
  intro outcome hev d hd hkey
  obtain ⟨msg, e₁, hsending, he₁, -, heq⟩ := sends_cases hd
  have hkey₁ : e₁.proxyRule.dstEndpoint = e.proxyRule.dstEndpoint := by
    rw [← hkey, heq]
  have hid := hw.unique he₁ he hkey₁
  rw [hid] at hsending
  exact hsend outcome hev msg hsending

theorem leavingOf_pushSend (dst : Endpoint) (msg : UdpMsg) (e : UdpEndpointProxy) :
    (leavingOf dst (pushSend msg e)).Sublist (leavingOf dst e ++ if msg.src = dst then [msg.msg.buf] else []) := by
  rw [pushSend_eq]
  unfold leavingOf
  dsimp only
  rw [List.filter_append, List.map_append]
  apply List.Sublist.append_left
  split
  · by_cases hmsg : msg.src = dst <;> simp [hmsg]
  · exact List.nil_sublist _

theorem moved_popping (hev : ev = .relay outcome) (hpop : popping cfg w = some (rid, peer, msg)) :
    moved cfg key msg.src w ev = if peer = key then [msg.msg.buf] else [] := by
  subst hev
  simp [moved, hpop]

theorem leaving_became (hk : Keyed w) (hw : Owned w) (h : Became cfg w ev id e') :
    (bufs e'.proxyRule.dstEndpoint peer (sentTo cfg w ev) ++ leavingOf peer e').Sublist
      (leaving w e'.proxyRule.dstEndpoint peer ++ moved cfg peer e'.proxyRule.dstEndpoint w ev) := by
  have hkeep : ∀ e, w.epts id = some e → e'.proxyRule = e.proxyRule → leavingOf peer e' = leavingOf peer e →
      (∀ outcome, ev = .flush .success outcome → ∀ msg, sending cfg w ≠ some (id, msg)) →
      (bufs e'.proxyRule.dstEndpoint peer (sentTo cfg w ev) ++ leavingOf peer e').Sublist
        (leaving w e'.proxyRule.dstEndpoint peer ++ moved cfg peer e'.proxyRule.dstEndpoint w ev) := by
    intro e he hrule hsame hsend
    unfold leaving
    rw [hrule, sent_nil_of_live hw he hsend, hw.endpoint he, hsame]
    exact List.sublist_append_left _ _
  cases h with
  | same he _ _ hsend => exact hkeep _ he rfl rfl fun outcome => hsend _ outcome
  | @added rule outcome hev =>
    subst hev
    obtain ⟨s, t, heq⟩ := create_eq (fun _ => 0) rule w.nextBuf outcome w.clock
    rw [heq]
    exact List.nil_sublist _
  | @credited key todo e hev hphase hkey hlookup he =>
    subst hev
    apply hkeep e he (proxyRule_credit _ _) _ nofun
    unfold leavingOf
    rw [(sendQueue_credit _ _).1]
  | @popped outcome key todo e msg hev hphase he =>
    subst hev
    apply hkeep e he (proxyRule_popRecv _ _) _ nofun
    unfold leavingOf
    rw [(sendQueue_debitRecv _ _).1]
  | @handed outcome key rid msg e hev hpop hne hsender he =>
    obtain ⟨e₁, he₁, hkey⟩ := hk.mapped _ _ hsender
    rw [he] at he₁
    cases he₁
    have hrule : (pushSend { msg with src := key } (touch w.now e)).proxyRule.dstEndpoint = msg.src := by
      rw [proxyRule_pushSend, proxyRule_touch, hkey]
    have htouched : leavingOf peer (touch w.now e) = leavingOf peer e := by
      unfold leavingOf
      rw [(sendQueue_touch _ _).1]
    rw [hrule, moved_popping hev hpop]
    subst hev
    unfold leaving
    rw [← hkey, hw.endpoint he]
    change (leavingOf peer _).Sublist _
    rw [Option.elim_some, ← htouched]
    exact leavingOf_pushSend peer _ _
  | @made outcome key rid msg e hev hpop he =>
    have hrule : (pushSend { msg with src := key } (create cfg.bandwidth (World.clientRule e.proxyRule msg.src)
        w.nextBuf outcome w.clock)).proxyRule.dstEndpoint = msg.src := by
      rw [proxyRule_pushSend, proxyRule_create]
      rfl
    have hempty : leavingOf peer (create cfg.bandwidth (World.clientRule e.proxyRule msg.src) w.nextBuf
        outcome w.clock) = [] := by
      obtain ⟨s, t, heq⟩ := create_eq cfg.bandwidth (World.clientRule e.proxyRule msg.src) w.nextBuf outcome w.clock
      rw [heq]
      rfl
    rw [hrule, moved_popping hev hpop]
    subst hev
    change (leavingOf peer _).Sublist _
    apply List.Sublist.trans (leavingOf_pushSend peer _ _)
    rw [hempty, List.nil_append]
    exact List.sublist_append_right _ _
  | @restarted error outcome msg e hev herror hsend he =>
    subst hev
    obtain ⟨s, t, heq⟩ := restart_eq outcome w.clock e
    apply hkeep e he (proxyRule_restart _ _ _)
    · rw [heq]
      rfl
    · rintro _ ⟨⟩
      exact absurd rfl herror
  | @sent outcome msg e hev hsend he =>
    subst hev
    obtain ⟨todo, e₁, -, he₁, hverdict⟩ := sending_cases hsend
    rw [he] at he₁
    cases he₁
    obtain ⟨rest, hqueue, -⟩ := sendVerdict_take hverdict
    have hsends : Sends cfg w =
        some ⟨id, e.proxyRule.dstEndpoint, msg.src, msg.msg.buf, msg.msg.bytes w.heap⟩ := by
      simp [Sends, hsend, he]
    change (bufs e.proxyRule.dstEndpoint peer _ ++ leavingOf peer (sent msg e)).Sublist
      (leaving w e.proxyRule.dstEndpoint peer ++ [])
    unfold leaving
    rw [hw.endpoint he, List.append_nil, bufs_sentTo hsends]
    by_cases hpeer : msg.src = peer <;> simp [leavingOf, sent, hqueue, hpeer]
  | stopped hev hphase he =>
    subst hev
    exact hkeep _ he rfl rfl nofun
  | arrived hev he =>
    subst hev
    exact hkeep _ he rfl rfl nofun
  | failed hev he =>
    subst hev
    exact hkeep _ he rfl rfl nofun
  | @handled r draw outcome e hev he =>
    subst hev
    apply hkeep e he (proxyRule_handleRecv ..) _ nofun
    rcases handled_cases w r draw outcome e with ⟨s, t, heq⟩ | ⟨-, -, s, f, heq⟩ <;> rw [heq] <;> rfl

theorem waitingOf_congr (hqueue : e'.recvQueue = e.recvQueue)
    (hbuf : e'.recvingMsg.msg.buf = e.recvingMsg.msg.buf) : waitingOf src e' = waitingOf src e := by
  unfold waitingOf
  rw [hqueue, hbuf]

theorem waitingOf_push {b : BufId} (hqueue : e'.recvQueue = e.recvQueue ++ [msg])
    (hbuf : msg.msg.buf = e.recvingMsg.msg.buf) (hnew : e'.recvingMsg.msg.buf = b) :
    (waitingOf src e').Sublist (waitingOf src e ++ [b]) := by
  unfold waitingOf
  rw [hqueue, hnew, ← hbuf, List.filter_append, List.map_append]
  apply List.Sublist.append_right
  apply List.Sublist.append_left
  by_cases hmatch : msg.src = src <;> simp [hmatch]

theorem lt_nextBuf_of_fresh (hb : Buffered w) (h : step cfg w ev = some w') (he' : w'.epts id = some e')
    (hbuf : e'.recvingMsg.msg.buf = w.nextBuf) : w.nextBuf < w'.nextBuf := by
  cases rebuffered_step (step_cases h) he' with
  | kept hd hkept =>
    have hold := hb.allocated _ _ hd
    rw [← hkept, hbuf] at hold
    exact absurd hold (lt_irrefl _)
  | fresh hid hlt => exact hlt

theorem waiting_became (src : Endpoint) (hk : Keyed w) (hw : Owned w) (h : Became cfg w ev id e') :
    (moved cfg e'.proxyRule.dstEndpoint src w ev ++ waitingOf src e').Sublist
        (waiting w e'.proxyRule.dstEndpoint src) ∨
      e'.recvingMsg.msg.buf = w.nextBuf ∧ (moved cfg e'.proxyRule.dstEndpoint src w ev ++ waitingOf src e').Sublist
        (waiting w e'.proxyRule.dstEndpoint src ++ [w.nextBuf]) := by
  have hkeep : ∀ e, w.epts id = some e → e'.proxyRule = e.proxyRule → waitingOf src e' = waitingOf src e →
      (∀ outcome, ev = .relay outcome → ∀ key msg, popping cfg w ≠ some (id, key, msg)) →
      (moved cfg e'.proxyRule.dstEndpoint src w ev ++ waitingOf src e').Sublist
        (waiting w e'.proxyRule.dstEndpoint src) := by
    intro e he hrule hsame hpop
    unfold waiting
    rw [hrule, moved_nil_of_live hk hw he hpop, hw.endpoint he, hsame]
    exact List.Sublist.refl _
  have hmade : ∀ rule outcome, e'.recvQueue = (create cfg.bandwidth rule w.nextBuf outcome w.clock).recvQueue →
      e'.recvingMsg = (create cfg.bandwidth rule w.nextBuf outcome w.clock).recvingMsg →
      moved cfg e'.proxyRule.dstEndpoint src w ev = [] →
      e'.recvingMsg.msg.buf = w.nextBuf ∧ (moved cfg e'.proxyRule.dstEndpoint src w ev ++ waitingOf src e').Sublist
        (waiting w e'.proxyRule.dstEndpoint src ++ [w.nextBuf]) := by
    intro rule outcome hqueue hmsg hmoved
    obtain ⟨s, t, heq⟩ := create_eq cfg.bandwidth rule w.nextBuf outcome w.clock
    rw [heq] at hqueue hmsg
    have hbuf : e'.recvingMsg.msg.buf = w.nextBuf := congrArg (fun msg => msg.msg.buf) hmsg
    refine ⟨hbuf, ?_⟩
    unfold waitingOf
    rw [hmoved, hqueue, hbuf]
    exact List.sublist_append_right _ _
  cases h with
  | same he _ hpop => exact .inl (hkeep _ he rfl rfl hpop)
  | @added rule outcome hev =>
    subst hev
    right
    obtain ⟨s, t, heq⟩ := create_eq (fun _ => 0) rule w.nextBuf outcome w.clock
    rw [heq]
    exact ⟨rfl, List.sublist_append_right _ _⟩
  | @credited key todo e hev hphase hkey hlookup he =>
    subst hev
    left
    apply hkeep e he (proxyRule_credit _ _) _ nofun
    obtain ⟨hbuf, hqueue⟩ := recvQueue_of_receiver (receiver_credit w.interval e)
    exact waitingOf_congr (recvQueue_credit _ _) hbuf
  | @popped outcome key todo e msg hev hphase he hverdict =>
    left
    have hpop := popping_eq hphase he hverdict
    obtain ⟨e₁, rest, he₁, hkey, hqueue, -⟩ := hk.popping hpop
    rw [he] at he₁
    cases he₁
    have hmoved : moved cfg key src w ev = if msg.src = src then [msg.msg.buf] else [] := by
      subst hev
      simp [moved, hpop]
    have hwaiting : waitingOf src (debitRecv msg e).popRecv =
        ((rest.filter fun msg => msg.src = src).map fun msg => msg.msg.buf) ++ [e.recvingMsg.msg.buf] := by
      unfold waitingOf
      rw [recvQueue_popRecv, recvQueue_debitRecv, buf_popRecv, hqueue,
        (recvQueue_of_receiver (receiver_debitRecv msg e)).1]
      rfl
    rw [proxyRule_popRecv, hkey, hmoved, hwaiting]
    unfold waiting
    rw [← hkey, hw.endpoint he]
    by_cases hsrc : msg.src = src <;> simp [waitingOf, hqueue, hsrc]
  | @handed outcome key rid msg e hev hpop hne hsender he =>
    left
    apply hkeep e he
    · rw [proxyRule_pushSend, proxyRule_touch]
    · obtain ⟨t, heq⟩ := touch_eq w.now e
      rw [pushSend_eq, heq]
      rfl
    · intro _ _ key' msg' hpop'
      rw [hpop] at hpop'
      cases hpop'
      exact hne rfl
  | @made outcome key rid msg e hev hpop he =>
    right
    apply hmade (World.clientRule e.proxyRule msg.src) outcome
    · rw [pushSend_eq]
    · rw [pushSend_eq]
    · apply moved_nil
      intro _ _ rid' msg' hpop'
      obtain ⟨-, -, -, -, -, hne⟩ := hk.popping hpop
      simp only [hpop, Option.some.injEq, Prod.mk.injEq] at hpop'
      obtain ⟨-, hkey, -⟩ := hpop'
      rw [proxyRule_pushSend, proxyRule_create] at hkey
      exact hne hkey.symm
  | @restarted error outcome msg e hev herror hsend he =>
    subst hev
    left
    obtain ⟨s, t, heq⟩ := restart_eq outcome w.clock e
    apply hkeep e he (proxyRule_restart _ _ _) _ nofun
    rw [heq]
    rfl
  | sent hev hsend he =>
    subst hev
    exact .inl (hkeep _ he rfl rfl nofun)
  | stopped hev hphase he =>
    subst hev
    exact .inl (hkeep _ he rfl rfl nofun)
  | arrived hev he =>
    subst hev
    exact .inl (hkeep _ he rfl rfl nofun)
  | failed hev he =>
    subst hev
    exact .inl (hkeep _ he rfl rfl nofun)
  | @handled r draw outcome e hev he =>
    subst hev
    rcases handled_cases w r draw outcome e with ⟨s, t, heq⟩ | ⟨-, -, s, f, heq⟩
    · left
      apply hkeep e he (proxyRule_handleRecv ..) _ nofun
      rw [heq]
      rfl
    · right
      rw [heq]
      refine ⟨rfl, ?_⟩
      unfold waiting
      rw [hw.endpoint he]
      exact waitingOf_push rfl rfl rfl

def pipeline (w : World) (key src : Endpoint) : List BufId := leaving w src key ++ waiting w key src

theorem leaving_step (hk : Keyed w) (hw : Owned w) (h : step cfg w ev = some w') (key dst : Endpoint) :
    (bufs key dst (sentTo cfg w ev) ++ leaving w' key dst).Sublist
      (leaving w key dst ++ moved cfg dst key w ev) := by
  cases hendpoint : w'.endpoint key with
  | none =>
    have hnil : leaving w' key dst = [] := by
      unfold leaving
      rw [hendpoint]
      rfl
    rw [hnil, List.append_nil]
    exact (sent_sublist hw).trans (List.sublist_append_left _ _)
  | some e' =>
    obtain ⟨id, -, hbecame, rfl⟩ := endpoint_step hk h hendpoint
    have hsome : leaving w' e'.proxyRule.dstEndpoint dst = leavingOf dst e' := by
      unfold leaving
      rw [hendpoint]
      rfl
    rw [hsome]
    exact leaving_became hk hw hbecame

theorem waiting_step (hk : Keyed w) (hb : Buffered w) (hw : Owned w) (h : step cfg w ev = some w')
    (key src : Endpoint) : ∃ news, (moved cfg key src w ev ++ waiting w' key src).Sublist
      (waiting w key src ++ news) ∧ news.Pairwise (· < ·) ∧ ∀ b ∈ news, w.nextBuf ≤ b ∧ b < w'.nextBuf := by
  have hnone : ∀ {bs : List BufId}, bs.Sublist (waiting w key src) →
      ∃ news, bs.Sublist (waiting w key src ++ news) ∧ news.Pairwise (· < ·) ∧
        ∀ b ∈ news, w.nextBuf ≤ b ∧ b < w'.nextBuf := by
    intro bs hsub
    exact ⟨[], hsub.trans (List.sublist_append_left _ _), .nil, nofun⟩
  cases hendpoint : w'.endpoint key with
  | none =>
    have hnil : waiting w' key src = [] := by
      unfold waiting
      rw [hendpoint]
      rfl
    rw [hnil, List.append_nil]
    exact hnone (moved_sublist hk hw)
  | some e' =>
    obtain ⟨id, hlive, hbecame, rfl⟩ := endpoint_step hk h hendpoint
    have hsome : waiting w' e'.proxyRule.dstEndpoint src = waitingOf src e' := by
      unfold waiting
      rw [hendpoint]
      rfl
    rw [hsome]
    rcases waiting_became src hk hw hbecame with hsub | ⟨hbuf, hsub⟩
    · exact hnone hsub
    · refine ⟨[w.nextBuf], hsub, List.pairwise_singleton _ _, ?_⟩
      intro b hin
      obtain rfl := List.mem_singleton.mp hin
      exact ⟨le_refl _, lt_nextBuf_of_fresh hb h hlive hbuf⟩

/-- A step takes from the pipeline what it sends, and adds only buffers that are new. -/
theorem pipeline_step (hk : Keyed w) (hb : Buffered w) (hw : Owned w) (h : step cfg w ev = some w')
    (key src : Endpoint) : ∃ news, (bufs src key (sentTo cfg w ev) ++ pipeline w' key src).Sublist
      (pipeline w key src ++ news) ∧ news.Pairwise (· < ·) ∧ ∀ b ∈ news, w.nextBuf ≤ b ∧ b < w'.nextBuf := by
  obtain ⟨news, hwaiting, hnews⟩ := waiting_step hk hb hw h key src
  refine ⟨news, ?_, hnews⟩
  unfold pipeline
  rw [← List.append_assoc]
  apply ((leaving_step hk hw h src key).append_right _).trans
  rw [List.append_assoc, List.append_assoc]
  exact hwaiting.append_left _

/-- What was sent between two addresses and what is under way between them, in the order of the buffers. -/
structure InOrder (w : World) (ds : List Datagram) : Prop where
  keyed : Keyed w
  buffered : Buffered w
  owned : Owned w
  sorted : ∀ key src, (bufs src key ds ++ pipeline w key src).Pairwise (· < ·)
  allocated : ∀ key src, ∀ b ∈ bufs src key ds ++ pipeline w key src, b < w.nextBuf

theorem inOrder_step {ds : List Datagram} (hw : InOrder w ds) (h : step cfg w ev = some w') :
    InOrder w' (ds ++ sentTo cfg w ev) := by
  have hle := (makes_step (step_cases h)).nextBuf_le
  have hsub : ∀ key src, ∃ news, (bufs src key (ds ++ sentTo cfg w ev) ++ pipeline w' key src).Sublist
      ((bufs src key ds ++ pipeline w key src) ++ news) ∧ news.Pairwise (· < ·) ∧
        ∀ b ∈ news, w.nextBuf ≤ b ∧ b < w'.nextBuf := by
    intro key src
    obtain ⟨news, hpipeline, hnews⟩ := pipeline_step hw.keyed hw.buffered hw.owned h key src
    refine ⟨news, ?_, hnews⟩
    have happend : bufs src key (ds ++ sentTo cfg w ev) = bufs src key ds ++ bufs src key (sentTo cfg w ev) := by
      simp [bufs, between]
    rw [happend, List.append_assoc, List.append_assoc]
    exact hpipeline.append_left _
  refine ⟨keyed_step hw.keyed (step_cases h), buffered_step hw.buffered (step_cases h),
    owned_step hw.keyed hw.owned h, ?_, ?_⟩
  · intro key src
    obtain ⟨news, hlist, hsorted, hnews⟩ := hsub key src
    refine List.Pairwise.sublist hlist (List.pairwise_append.mpr ⟨hw.sorted key src, hsorted, ?_⟩)
    intro b hb b' hb'
    exact (hw.allocated key src b hb).trans_le (hnews b' hb').1
  · intro key src b hb
    obtain ⟨news, hlist, -, hnews⟩ := hsub key src
    rcases List.mem_append.mp (hlist.subset hb) with hin | hin
    · exact (hw.allocated key src b hin).trans_le hle
    · exact (hnews b hin).2

theorem inOrder_run (h₀ : Initial w₀) (h : exec (step cfg) w₀ es = some w) :
    InOrder w (trace (step cfg) (sentTo cfg) w₀ es) := by
  have hempty : ∀ key, w₀.endpoint key = none := by
    obtain ⟨clock, ip, heap, rfl⟩ := h₀
    exact fun key => rfl
  have hpipeline : ∀ key src, pipeline w₀ key src = [] := by
    intro key src
    unfold pipeline leaving waiting
    rw [hempty, hempty]
    rfl
  have hstart : InOrder w₀ [] := by
    refine ⟨keyed_initial h₀, buffered_initial h₀, owned_initial h₀, ?_, ?_⟩
    · intro key src
      rw [hpipeline]
      exact .nil
    · intro key src
      rw [hpipeline]
      nofun
  have hstep : ∀ u ev v ds, InOrder u ds → True → step cfg u ev = some v → InOrder v (ds ++ sentTo cfg u ev) :=
    fun _ _ _ _ hw _ hstep => inOrder_step hw hstep
  have hrun := exec_traced hstep h (along_true w₀ es) hstart
  rwa [List.nil_append] at hrun

structure Arrivals (w : World) (rs : List Datagram) : Prop where
  keyed : Keyed w
  buffered : Buffered w
  owned : Owned w
  older : ∀ d ∈ rs, d.buf < w.nextBuf ∧ ∀ id e, w.epts id = some e → e.proxyRule.dstEndpoint = d.key →
    d.buf ≤ e.recvingMsg.msg.buf
  sorted : rs.Pairwise fun d d' => d.key = d'.key → d.buf ≤ d'.buf

theorem recving_step (hk : Keyed w) (h : step cfg w ev = some w') (he' : w'.epts id = some e') :
    (∃ e, w.epts id = some e ∧ e'.proxyRule = e.proxyRule ∧ e'.recvingMsg.msg.buf = e.recvingMsg.msg.buf) ∨
      e'.recvingMsg.msg.buf = w.nextBuf := by
  cases rebuffered_step (step_cases h) he' with
  | fresh hid hlt hbuf => exact .inr hbuf
  | kept hd hbuf =>
    left
    refine ⟨_, hd, ?_, hbuf⟩
    obtain ⟨e, he, hparams⟩ | ⟨hid, -⟩ := (became_step hk h he').params
    · rw [hd] at he
      cases he
      simp only [params, Prod.mk.injEq] at hparams
      exact hparams.1
    · exact absurd hid (hk.lt_nextEpt hd).ne

theorem arrivals_step {rs : List Datagram} (hw : Arrivals w rs) (hown : OwnBuffer w ev)
    (h : step cfg w ev = some w') : Arrivals w' (rs ++ received w ev) := by
  have hle := (makes_step (step_cases h)).nextBuf_le
  have hmine : ∀ d ∈ received w ev, ∃ id e, w.epts id = some e ∧ e.proxyRule.dstEndpoint = d.key ∧
      e.recvingMsg.msg.buf = d.buf := by
    intro d hd
    obtain ⟨id, buf, src, data, e, rfl, he, rfl⟩ := mem_received.mp hd
    exact ⟨id, e, he, rfl, (hown e he).1⟩
  refine ⟨keyed_step hw.keyed (step_cases h), buffered_step hw.buffered (step_cases h),
    owned_step hw.keyed hw.owned h, ?_, ?_⟩
  · intro d hd
    rcases List.mem_append.mp hd with hold | hnew
    · obtain ⟨hlt, holder⟩ := hw.older d hold
      refine ⟨hlt.trans_le hle, ?_⟩
      intro id e' he' hkey
      obtain ⟨e, he, hrule, hbuf⟩ | hbuf := recving_step hw.keyed h he'
      · rw [hbuf]
        exact holder id e he (hrule ▸ hkey)
      · rw [hbuf]
        exact hlt.le
    · obtain ⟨id, e, he, hkey, hbuf⟩ := hmine d hnew
      have hlt := hw.buffered.allocated id e he
      rw [hbuf] at hlt
      refine ⟨hlt.trans_le hle, ?_⟩
      intro id' e' he' hkey'
      obtain ⟨e₁, he₁, hrule, hbuf₁⟩ | hbuf₁ := recving_step hw.keyed h he'
      · have hid := hw.owned.unique he₁ he (by rw [hkey, ← hkey', hrule])
        subst hid
        rw [he] at he₁
        cases he₁
        rw [hbuf₁, hbuf]
      · rw [hbuf₁]
        exact hlt.le
  · rw [List.pairwise_append]
    refine ⟨hw.sorted, ?_, ?_⟩
    · unfold received
      split
      · split <;> simp
      · exact .nil
    · intro d hd d' hd' hkey
      obtain ⟨id, e, he, hkey', hbuf⟩ := hmine d' hd'
      rw [← hbuf]
      exact (hw.older d hd).2 id e he (hkey'.trans hkey.symm)

theorem arrivals_run (h₀ : Initial w₀) (h : exec (step cfg) w₀ es = some w)
    (hown : Along (step cfg) OwnBuffer w₀ es) : Arrivals w (trace (step cfg) received w₀ es) := by
  have hstart : Arrivals w₀ [] :=
    ⟨keyed_initial h₀, buffered_initial h₀, owned_initial h₀, nofun, .nil⟩
  have hstep : ∀ u ev v rs, Arrivals u rs → OwnBuffer u ev → step cfg u ev = some v →
      Arrivals v (rs ++ received u ev) :=
    fun _ _ _ _ hw hown hstep => arrivals_step hw hown hstep
  have hrun := exec_traced hstep h hown hstart
  rwa [List.nil_append] at hrun

theorem pairwise_of_bufs {ds : List Datagram} (h : ∀ key peer, (bufs key peer ds).Pairwise (· < ·)) :
    ds.Pairwise fun d d' => d.key = d'.key → d.peer = d'.peer → d.buf < d'.buf := by
  induction ds with
  | nil => exact .nil
  | cons d ds ih =>
    constructor
    · intro d' hd' hkey hpeer
      have hhead := h d.key d.peer
      have hcons : bufs d.key d.peer (d :: ds) = d.buf :: bufs d.key d.peer ds := by
        simp [bufs, between]
      rw [hcons] at hhead
      apply (List.pairwise_cons.mp hhead).1
      apply List.mem_map_of_mem
      exact List.mem_filter.mpr ⟨hd', by simp [hkey, hpeer]⟩
    · apply ih
      intro key peer
      exact (h key peer).sublist (((List.sublist_cons_self d ds).filter _).map _)

theorem datagrams_in_order (h₀ : Initial w₀) (h : exec (step cfg) w₀ es = some w)
    (hown : Along (step cfg) OwnBuffer w₀ es) :
    (∀ key src, ((between src key (trace (step cfg) (sentTo cfg) w₀ es)).map Datagram.content).Sublist
      ((between key src (trace (step cfg) received w₀ es)).map Datagram.content)) ∧
    ((trace (step cfg) (sentTo cfg) w₀ es).map Datagram.buf).Nodup ∧
    ∀ d ∈ trace (step cfg) (sentTo cfg) w₀ es, ∃ r ∈ trace (step cfg) received w₀ es,
      r.key = d.peer ∧ r.peer = d.key ∧ r.content = d.content := by
  have hall : Along (step cfg) (OwnBufferAt fun _ => True) w₀ es :=
    along_mono (fun _ _ _ _ howned => OwnBuffer.at_keys howned _) h hown
  have horigin := fun d hd => sent_origin (d := d) h₀ h hall hd trivial
  have hsorted : ∀ key src, (bufs src key (trace (step cfg) (sentTo cfg) w₀ es)).Pairwise (· < ·) :=
    fun key src => (List.pairwise_append.mp ((inOrder_run h₀ h).sorted key src)).1
  have hcontent : ∀ d ∈ trace (step cfg) (sentTo cfg) w₀ es, ∃ r ∈ trace (step cfg) received w₀ es,
      r.key = d.peer ∧ r.peer = d.key ∧ r.content = d.content := by
    intro d hd
    obtain ⟨r, hlast, hkey, hpeer, hpayload⟩ := horigin d hd
    obtain ⟨hmem, hbuf⟩ := mem_of_last hlast
    exact ⟨r, hmem, hkey, hpeer, by unfold Datagram.content; rw [hbuf, hpayload]⟩
  refine ⟨?_, ?_, hcontent⟩
  · intro key src
    apply sublist_of_ordered (f := Prod.fst)
    · have hbufs := hsorted key src
      unfold bufs at hbufs
      rw [List.pairwise_map] at hbufs ⊢
      exact hbufs
    · rw [List.pairwise_map]
      have hfilter := (arrivals_run h₀ h hown).sorted.filter fun d => d.key = key ∧ d.peer = src
      apply hfilter.imp_of_mem
      intro d d' hd hd' hle
      have hkey := (of_decide_eq_true (List.mem_filter.mp hd).2).1
      have hkey' := (of_decide_eq_true (List.mem_filter.mp hd').2).1
      exact hle (hkey.trans hkey'.symm)
    · intro c hc
      obtain ⟨d, hd, rfl⟩ := List.mem_map.mp hc
      obtain ⟨hmem, hmatch⟩ := List.mem_filter.mp hd
      obtain ⟨hdkey, hdpeer⟩ := of_decide_eq_true hmatch
      obtain ⟨r, hr, hkey, hpeer, heq⟩ := hcontent d hmem
      rw [← heq]
      apply List.mem_map_of_mem
      exact List.mem_filter.mpr ⟨hr, by simp [hkey, hpeer, hdkey, hdpeer]⟩
  · unfold List.Nodup
    rw [List.pairwise_map]
    apply (pairwise_of_bufs fun key peer => hsorted peer key).imp_of_mem
    intro d d' hd hd' hlt heq
    obtain ⟨r, hlast, hkey, hpeer, -⟩ := horigin d hd
    obtain ⟨r', hlast', hkey', hpeer', -⟩ := horigin d' hd'
    rw [heq, hlast'] at hlast
    cases hlast
    exact absurd (hlt (hpeer.symm.trans hpeer') (hkey.symm.trans hkey')) (heq ▸ lt_irrefl _)

def forwarding : List Event :=
  conversation ++
    [.merge, .enter ⟨9, 4000⟩, .flush .success .success, .flush .success .success,
      .enter ⟨1, 53⟩, .flush .success .success, .rest,
      .arrive 0 2 ⟨9, 4000⟩ [8], .handleRecv 0 ⟨2, .success, 1⟩ 1 .success,
      .arrive 1 3 ⟨1, 53⟩ [5], .handleRecv 1 ⟨3, .success, 1⟩ 1 .success,
      .arrive 0 4 ⟨9, 4000⟩ [9], .handleRecv 0 ⟨4, .success, 1⟩ 1 .success,
      .arrive 1 5 ⟨1, 53⟩ [6], .handleRecv 1 ⟨5, .success, 1⟩ 1 .success, .clock 40, .tick,
      .visit ⟨1, 53⟩, .relay .success, .relay .success, .relay .success,
      .visit ⟨9, 4000⟩, .relay .success, .relay .success, .relay .success, .merge,
      .enter ⟨1, 53⟩, .flush .success .success, .flush .success .success, .flush .success .success,
      .enter ⟨9, 4000⟩, .flush .success .success, .flush .success .success]

set_option maxRecDepth 8000 in
theorem datagrams_in_order_forwarding :
    ((trace (step plain) (sentTo plain) start forwarding).map fun d => (d.peer, d.content)) =
      [(⟨1, 53⟩, 1, [7]), (⟨9, 4000⟩, 3, [5]), (⟨9, 4000⟩, 5, [6]), (⟨1, 53⟩, 2, [8]), (⟨1, 53⟩, 4, [9])] ∧
    (∀ key src, ((between src key (trace (step plain) (sentTo plain) start forwarding)).map Datagram.content).Sublist
      ((between key src (trace (step plain) received start forwarding)).map Datagram.content)) ∧
    ((trace (step plain) (sentTo plain) start forwarding).map Datagram.buf).Nodup ∧
    ∀ d ∈ trace (step plain) (sentTo plain) start forwarding,
      ∃ r ∈ trace (step plain) received start forwarding,
        r.key = d.peer ∧ r.peer = d.key ∧ r.content = d.content := by
  have hexec : exec (step plain) start forwarding = some (after plain start forwarding) := rfl
  have hown : Along (step plain) OwnBuffer start forwarding := by decide
  exact ⟨by decide, datagrams_in_order initial_start hexec hown⟩

end TcpUdpProxy.UdpServer
