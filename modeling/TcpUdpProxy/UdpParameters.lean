import TcpUdpProxy.CreditArithmetic
import TcpUdpProxy.UdpBandwidth
import TcpUdpProxy.UdpRules

namespace TcpUdpProxy.UdpServer

open UdpEndpointProxy Execution

/-- The rule that a datagram from `peer`, or one to `peer`, belongs to at the endpoint `id`: its own at one
of the rules' endpoints, which are the first, and that of the remote at a client's. -/
def ruleAt (rules : List UdpProxyRule) (id : EptId) (peer : Endpoint) : Option UdpProxyRule :=
  if id < rules.length then rules[id]? else lastRule rules peer

/-- A datagram that a handler has received and what the handler has put into the `recv_queue`, with the
clock and the random number. -/
structure Handling where
  rule : UdpProxyRule
  ept : EptId
  time : Msec
  draw : ℤ
  stored : List UdpMsg
  deriving DecidableEq

def handlings (rules : List UdpProxyRule) (w : World) : Event → List Handling
  | .handleRecv id r draw outcome =>
    match w.epts id with
    | some e =>
      if r.error = .success then
        (ruleAt rules id e.recvingMsg.src).toList.map fun rule =>
          ⟨rule, id, w.clock, draw, (handled w r draw outcome e).1.recvQueue.drop e.recvQueue.length⟩
      else []
    | none => []
  | _ => []

structure Passage where
  rule : UdpProxyRule
  receiver : EptId
  msg : UdpMsg
  now : Msec
  deriving DecidableEq

def passages (cfg : Config) (rules : List UdpProxyRule) (w : World) : Event → List Passage
  | .relay _ =>
    match popping cfg w with
    | some (rid, _, msg) => (ruleAt rules rid msg.src).toList.map fun rule => ⟨rule, rid, msg, w.now⟩
    | none => []
  | _ => []

/-- A datagram that passes the endpoint of a client, taken from its `recv_queue` (direction 1) or sent from
its socket (direction 0), with the budget that it meets. -/
structure Metering where
  rule : UdpProxyRule
  client : EptId
  direction : PairId
  msg : UdpMsg
  avail : ℤ
  deriving DecidableEq

def meteringOf (rules : List UdpProxyRule) (w : World) (i : PairId) (id : EptId) (msg : UdpMsg) : List Metering :=
  match w.epts id with
  | some e =>
    if id < rules.length then []
    else (lastRule rules msg.src).toList.map fun rule => ⟨rule, id, i, msg, budget i e⟩
  | none => []

def meterings (cfg : Config) (rules : List UdpProxyRule) (w : World) : Event → List Metering
  | .relay _ =>
    match popping cfg w with
    | some (rid, _, msg) => meteringOf rules w 1 rid msg
    | none => []
  | .flush error _ =>
    match sending cfg w with
    | some (sid, msg) => if error = .success then meteringOf rules w 0 sid msg else []
    | none => []
  | _ => []

def visits (cfg : Config) (id : EptId) (w : World) : Event → List Msec
  | .visit key =>
    if w.endpoints.lookup key = some id ∧ (w.epts id).any (fun e => !expired cfg w e) then [w.interval] else []
  | _ => []

/-- The bucket of `rule` in one direction of the endpoint `id`: its ticks fill it with `bytes` and its
datagrams empty it. -/
def metered (bytes : UdpProxyRule → Msec → ℤ) (rule : UdpProxyRule) (cfg : Config) (id : EptId) (i : PairId)
    (w : World) (ev : Event) : List TokenBucket.Op :=
  if 0 < rule.maxBandwidth then
    (visits cfg id w ev).map (fun interval => .credit (bytes rule interval)) ++
      ((traffic cfg id i w ev).map UdpMsg.cost).map .spend
  else []

def Handling.Ruled (x : Handling) : Prop :=
  x.stored.map UdpMsg.time =
    if 0 < x.rule.dropProb ∧ x.draw ≤ x.rule.dropProb then [] else [x.time + x.rule.delayMs]

def Passage.Ruled (p : Passage) (handled : List Handling) : Prop :=
  ∃ x ∈ handled, x.rule = p.rule ∧ x.ept = p.receiver ∧ p.msg ∈ x.stored ∧ x.time + p.rule.delayMs ≤ p.now

def Metering.Ruled (m : Metering) (ops : List TokenBucket.Op) : Prop :=
  exec TokenBucket.step 0 ops = some m.avail ∧ 0 ≤ m.avail

instance (x : Handling) : Decidable x.Ruled := inferInstanceAs (Decidable (_ = _))

instance (p : Passage) (handled : List Handling) : Decidable (p.Ruled handled) :=
  inferInstanceAs (Decidable (∃ x ∈ handled, _))

instance (m : Metering) (ops : List TokenBucket.Op) : Decidable (m.Ruled ops) :=
  inferInstanceAs (Decidable (_ ∧ _))

structure RulesApply (cfg : Config) (w₀ : World) (es : List Event) (rules : List UdpProxyRule) : Prop where
  handled : ∀ x ∈ trace (step cfg) (handlings rules) w₀ es, x.Ruled
  relayed : ∀ as ev bs u, es = as ++ ev :: bs → exec (step cfg) w₀ as = some u →
    ∀ p ∈ passages cfg rules u ev, p.Ruled (trace (step cfg) (handlings rules) w₀ as)
  limited : ∀ as ev bs u, es = as ++ ev :: bs → exec (step cfg) w₀ as = some u →
    ∀ m ∈ meterings cfg rules u ev, m.Ruled (trace (step cfg) (metered udpBytes m.rule cfg m.client m.direction) w₀ as)

/-- An endpoint that is made, with its rule, or the rule of the endpoint at which its address was met first. -/
structure Contact where
  ept : EptId
  rule : UdpProxyRule
  deriving DecidableEq

def contacts (cfg : Config) (w : World) : Event → List Contact
  | .addServerProxy rule _ => [⟨w.nextEpt, rule⟩]
  | .relay _ =>
    match popping cfg w with
    | some (rid, _, msg) =>
      match w.epts rid, w.endpoints.lookup msg.src with
      | some e, none => [⟨w.nextEpt, e.proxyRule⟩]
      | _, _ => []
    | none => []
  | _ => []

def SameDelivery (contact rule : UdpProxyRule) : Prop :=
  contact.delayMs = rule.delayMs ∧ max 0 contact.dropProb = max 0 rule.dropProb

/-- No bandwidth that is not positive limits anything. -/
def SameRate (contact rule : UdpProxyRule) : Prop := max 0 contact.maxBandwidth = max 0 rule.maxBandwidth

instance (contact rule : UdpProxyRule) : Decidable (SameDelivery contact rule) :=
  inferInstanceAs (Decidable (_ ∧ _))

instance (contact rule : UdpProxyRule) : Decidable (SameRate contact rule) := inferInstanceAs (Decidable (_ = _))

def DeliversAlike (cfg : Config) (w₀ : World) (es : List Event) (rules : List UdpProxyRule) : Prop :=
  ∀ x ∈ trace (step cfg) (handlings rules) w₀ es, rules.length ≤ x.ept →
    ∀ c ∈ trace (step cfg) (contacts cfg) w₀ es, c.ept = x.ept → SameDelivery c.rule x.rule

def LimitsAlike (cfg : Config) (w₀ : World) (es : List Event) (rules : List UdpProxyRule) : Prop :=
  ∀ m ∈ trace (step cfg) (meterings cfg rules) w₀ es,
    ∀ c ∈ trace (step cfg) (contacts cfg) w₀ es, c.ept = m.client → SameRate c.rule m.rule

/-- No tick credits a client's endpoint more than an `int` holds. -/
def CreditsFit (cfg : Config) (w₀ : World) (es : List Event) (rules : List UdpProxyRule) : Prop :=
  ∀ m ∈ trace (step cfg) (meterings cfg rules) w₀ es,
    ∀ interval ∈ trace (step cfg) (visits cfg m.client) w₀ es, interval * m.rule.maxBandwidth < 1000 * 2 ^ 31

instance (cfg : Config) (w₀ : World) (es : List Event) (rules : List UdpProxyRule) :
    Decidable (DeliversAlike cfg w₀ es rules) := inferInstanceAs (Decidable (∀ x ∈ _, _))

instance (cfg : Config) (w₀ : World) (es : List Event) (rules : List UdpProxyRule) :
    Decidable (LimitsAlike cfg w₀ es rules) := inferInstanceAs (Decidable (∀ m ∈ _, _))

instance (cfg : Config) (w₀ : World) (es : List Event) (rules : List UdpProxyRule) :
    Decidable (CreditsFit cfg w₀ es rules) := inferInstanceAs (Decidable (∀ m ∈ _, _))

variable {cfg : Config} {w w' w₀ : World} {ev : Event} {id rid : EptId} {e e' : UdpEndpointProxy}
  {key : Endpoint} {msg : UdpMsg} {es : List Event} {outcome : InitOutcome} {rules : List UdpProxyRule}
  {rule : UdpProxyRule} {i : PairId}

theorem Became.waiting (h : Became cfg w ev id e') : ∀ msg ∈ e'.recvQueue,
    (∃ e, w.epts id = some e ∧ e'.proxyRule = e.proxyRule ∧ msg ∈ e.recvQueue) ∨
    ∃ r draw outcome e, ev = .handleRecv id r draw outcome ∧ w.epts id = some e ∧
      e'.proxyRule = e.proxyRule ∧ r.error = .success ∧ e.dropped draw = false ∧
      msg = { e with activeTm := w.clock }.received r.bytesTransferred := by
  intro msg hmsg
  cases h with
  | same he => exact .inl ⟨_, he, rfl, hmsg⟩
  | @added rule outcome =>
    obtain ⟨s, t, heq⟩ := create_eq (fun _ => 0) rule w.nextBuf outcome w.clock
    rw [heq] at hmsg
    cases hmsg
  | credited hev hphase hkey hlookup he =>
    rw [recvQueue_credit] at hmsg
    exact .inl ⟨_, he, proxyRule_credit _ _, hmsg⟩
  | popped hev hphase he =>
    rw [recvQueue_popRecv, recvQueue_debitRecv] at hmsg
    exact .inl ⟨_, he, proxyRule_popRecv _ _, List.mem_of_mem_tail hmsg⟩
  | @handed outcome key rid m e hev hpop hne hsender he =>
    obtain ⟨t, heq⟩ := touch_eq w.now e
    rw [pushSend_eq, heq] at hmsg ⊢
    exact .inl ⟨_, he, rfl, hmsg⟩
  | @made outcome key rid m e =>
    obtain ⟨s, t, heq⟩ := create_eq cfg.bandwidth (World.clientRule e.proxyRule m.src) w.nextBuf outcome w.clock
    rw [pushSend_eq, heq] at hmsg
    cases hmsg
  | @restarted error outcome m e hev herror hsend he =>
    obtain ⟨s, t, heq⟩ := restart_eq outcome w.clock e
    rw [heq] at hmsg ⊢
    exact .inl ⟨_, he, rfl, hmsg⟩
  | sent hev hsend he => exact .inl ⟨_, he, rfl, hmsg⟩
  | stopped hev hphase he => exact .inl ⟨_, he, rfl, hmsg⟩
  | arrived hev he => exact .inl ⟨_, he, rfl, hmsg⟩
  | failed hev he => exact .inl ⟨_, he, rfl, hmsg⟩
  | @handled r draw outcome e hev he =>
    rcases handled_cases w r draw outcome e with ⟨s, t, heq⟩ | ⟨herror, hdrop, s, f, heq⟩
    · rw [heq] at hmsg ⊢
      exact .inl ⟨_, he, rfl, hmsg⟩
    · rw [heq] at hmsg ⊢
      rcases List.mem_append.mp hmsg with hin | hin
      · exact .inl ⟨_, he, rfl, hin⟩
      · exact .inr ⟨r, draw, outcome, e, hev, he, rfl, herror, hdrop, List.mem_singleton.mp hin⟩

section handling

def stores (w : World) (draw : ℤ) (bytesTransferred : ℕ) (e : UdpEndpointProxy) : List UdpMsg :=
  if e.dropped draw then [] else [{ e with activeTm := w.clock }.received bytesTransferred]

theorem recvQueue_handled {r : RecvResult} (hr : r.error = .success) (draw : ℤ) (outcome : InitOutcome)
    (e : UdpEndpointProxy) :
    (handled w r draw outcome e).1.recvQueue = e.recvQueue ++ stores w draw r.bytesTransferred e := by
  unfold handled UdpEndpointProxy.handleRecv stores
  rw [if_neg (not_not.mpr hr)]
  by_cases hdropped : e.dropped draw = true
  · have hsame : dropped draw { e with proxySocket := e.proxySocket.take r, activeTm := w.clock } = true := hdropped
    rw [if_pos hdropped, if_pos hsame, List.append_nil]
    rfl
  · have hsame : ¬ dropped draw { e with proxySocket := e.proxySocket.take r, activeTm := w.clock } = true := hdropped
    rw [if_neg hdropped, if_neg hsame]
    dsimp only
    split <;> rfl

theorem mem_handlings {x : Handling} (h : x ∈ handlings rules w ev) : ∃ r draw outcome e,
    ev = .handleRecv x.ept r draw outcome ∧ w.epts x.ept = some e ∧ r.error = .success ∧
      ruleAt rules x.ept e.recvingMsg.src = some x.rule ∧ x.time = w.clock ∧ x.draw = draw ∧
      x.stored = stores w draw r.bytesTransferred e := by
  unfold handlings at h
  split at h
  · rename_i id r draw outcome
    split at h
    · rename_i e he
      split at h
      · rename_i hr
        obtain ⟨rule, hrule, rfl⟩ := List.mem_map.mp h
        refine ⟨r, draw, outcome, e, rfl, he, hr, Option.mem_toList.mp hrule, rfl, rfl, ?_⟩
        dsimp only
        rw [recvQueue_handled hr, List.drop_left]
      · cases h
    · cases h
  · cases h

theorem dropped_iff {draw : ℤ} (hsame : SameDelivery e.proxyRule rule) :
    e.dropped draw = true ↔ 0 < rule.dropProb ∧ draw ≤ rule.dropProb := by
  have hprob := hsame.2
  unfold dropped
  rw [Bool.and_eq_true, decide_eq_true_iff, decide_eq_true_iff]
  omega

theorem ruled_handling {x : Handling} (h : x ∈ handlings rules w ev)
    (hsame : ∀ e, w.epts x.ept = some e → SameDelivery e.proxyRule x.rule) : x.Ruled := by
  obtain ⟨r, draw, outcome, e, -, he, -, -, htime, hdraw, hstored⟩ := mem_handlings h
  have hdropped : e.dropped draw = true ↔ 0 < x.rule.dropProb ∧ draw ≤ x.rule.dropProb := dropped_iff (hsame e he)
  unfold Handling.Ruled stores at *
  rw [hstored, htime, hdraw, ← (hsame e he).1]
  by_cases hdrop : e.dropped draw = true
  · rw [if_pos hdrop, if_pos (hdropped.mp hdrop)]
    rfl
  · rw [if_neg hdrop, if_neg (mt hdropped.mpr hdrop)]
    rfl

def Delayed (rules : List UdpProxyRule) (w : World) (handled : List Handling) : Prop :=
  ∀ id e, w.epts id = some e → ∀ msg ∈ e.recvQueue, ∀ rule ∈ ruleAt rules id msg.src,
    ∃ x ∈ handled, x.rule = rule ∧ x.ept = id ∧ msg ∈ x.stored ∧ msg.time = x.time + e.proxyRule.delayMs

theorem delayed_step {handled : List Handling} (hk : Keyed w) (hw : Delayed rules w handled)
    (h : step cfg w ev = some w') : Delayed rules w' (handled ++ handlings rules w ev) := by
  intro id e' he' msg hmsg rule hrule
  obtain ⟨e, he, hsame, hin⟩ | ⟨r, draw, outcome, e, rfl, he, hsame, herror, hdrop, rfl⟩ :=
    (became_step hk h he').waiting msg hmsg
  · obtain ⟨x, hx, hreceived⟩ := hw id e he msg hin rule hrule
    rw [hsame]
    exact ⟨x, List.mem_append_left _ hx, hreceived⟩
  · have hstored : (UdpServer.handled w r draw outcome e).1.recvQueue.drop e.recvQueue.length =
        [{ e with activeTm := w.clock }.received r.bytesTransferred] := by
      rw [recvQueue_handled herror, List.drop_left]
      unfold stores
      rw [if_neg (by simp [hdrop])]
    refine ⟨⟨rule, id, w.clock, draw, [{ e with activeTm := w.clock }.received r.bytesTransferred]⟩,
      List.mem_append_right _ ?_, rfl, rfl, List.mem_singleton_self _, ?_⟩
    · unfold handlings
      dsimp only
      rw [he]
      dsimp only
      rw [if_pos herror, hstored]
      exact List.mem_map.mpr ⟨rule, Option.mem_toList.mpr hrule, rfl⟩
    · rw [hsame]
      rfl

theorem delayed_run (h₀ : Initial w₀) (h : exec (step cfg) w₀ es = some w) (rules : List UdpProxyRule) :
    Delayed rules w (trace (step cfg) (handlings rules) w₀ es) := by
  have hstart : Delayed rules w₀ [] := by
    obtain ⟨clock, ip, heap, rfl⟩ := h₀
    intro id e he
    cases he
  have hstep : ∀ u ev v handled, Keyed u → True → Delayed rules u handled → step cfg u ev = some v →
      Delayed rules v (handled ++ handlings rules u ev) :=
    fun _ _ _ _ hk _ hu hstep => delayed_step hk hu hstep
  exact keyed_traced hstep (keyed_initial h₀) h (along_true w₀ es) hstart

end handling

section contacts

def SameParameters (rule rule' : UdpProxyRule) : Prop :=
  rule.delayMs = rule'.delayMs ∧ rule.dropProb = rule'.dropProb ∧ rule.maxBandwidth = rule'.maxBandwidth

def Contacted (w : World) (cs : List Contact) : Prop :=
  ∀ id e, w.epts id = some e → ∃ c ∈ cs, c.ept = id ∧ SameParameters e.proxyRule c.rule

theorem contacted_step {cs : List Contact} (hk : Keyed w) (hw : Contacted w cs)
    (h : step cfg w ev = some w') : Contacted w' (cs ++ contacts cfg w ev) := by
  intro id e' he'
  have hkeep : ∀ e, w.epts id = some e → e'.proxyRule = e.proxyRule →
      ∃ c ∈ cs ++ contacts cfg w ev, c.ept = id ∧ SameParameters e'.proxyRule c.rule := by
    intro e he hrule
    obtain ⟨c, hc, hept, hsame⟩ := hw id e he
    rw [hrule]
    exact ⟨c, List.mem_append_left _ hc, hept, hsame⟩
  have hbecame := became_step hk h he'
  obtain ⟨e, he, hparams⟩ | ⟨hid, -⟩ := hbecame.params
  · simp only [params, Prod.mk.injEq] at hparams
    exact hkeep e he hparams.1
  · have hfresh : w.epts id = none := hid ▸ hk.fresh w.nextEpt (le_refl _)
    cases hbecame with
    | @added rule outcome hev =>
      subst hev
      refine ⟨⟨w.nextEpt, rule⟩, List.mem_append_right _ (List.mem_singleton_self _), hid.symm, ?_⟩
      rw [proxyRule_create]
      exact ⟨rfl, rfl, rfl⟩
    | @made outcome key rid msg e hev hpop he hsender =>
      subst hev
      refine ⟨⟨w.nextEpt, e.proxyRule⟩, ?_, hid.symm, ?_⟩
      · apply List.mem_append_right
        simp [contacts, hpop, he, hsender]
      · rw [proxyRule_pushSend, proxyRule_create]
        exact ⟨rfl, rfl, rfl⟩
    | same he | credited _ _ _ _ he | popped _ _ he | handed _ _ _ _ he | restarted _ _ _ he | sent _ _ he
    | stopped _ _ he | arrived _ he | failed _ he | handled _ he =>
      rw [hfresh] at he
      cases he

theorem contacted_run (h₀ : Initial w₀) (h : exec (step cfg) w₀ es = some w) :
    Contacted w (trace (step cfg) (contacts cfg) w₀ es) := by
  have hstart : Contacted w₀ [] := by
    obtain ⟨clock, ip, heap, rfl⟩ := h₀
    intro id e he
    cases he
  have hstep : ∀ u ev v cs, Keyed u → True → Contacted u cs → step cfg u ev = some v →
      Contacted v (cs ++ contacts cfg u ev) :=
    fun _ _ _ _ hk _ hu hstep => contacted_step hk hu hstep
  exact keyed_traced hstep (keyed_initial h₀) h (along_true w₀ es) hstart

end contacts

section metering

theorem credits_visits (cfg : Config) (ev : Event) (he : w.epts id = some e) :
    credits cfg id w ev = (visits cfg id w ev).map (tickBytes e.proxyRule) := by
  cases ev with
  | visit key =>
    simp only [credits, visits, he, Option.any_some]
    by_cases hlookup : w.endpoints.lookup key = some id
    · cases hexpired : expired cfg w e <;> simp [hlookup]
    · simp [hlookup]
  | _ => rfl

theorem metered_ops (cfg : Config) (ev : Event) (he : w.epts id = some e) (hlimit : 0 < e.proxyRule.maxBandwidth)
    (hrate : SameRate e.proxyRule rule) (i : PairId) : metered tickBytes rule cfg id i w ev = ops cfg id i w ev := by
  have hsame : rule.maxBandwidth = e.proxyRule.maxBandwidth := by
    unfold SameRate at hrate
    omega
  have htick : tickBytes rule = tickBytes e.proxyRule := by
    funext interval
    unfold tickBytes
    rw [hsame]
  unfold metered ops
  rw [if_pos (hsame ▸ hlimit), credits_visits cfg ev he, htick]
  simp only [List.map_map, Function.comp_def]

theorem metered_nil (cfg : Config) (w : World) (ev : Event) (id : EptId) (i : PairId)
    (hlimit : ¬ 0 < e.proxyRule.maxBandwidth) (hrate : SameRate e.proxyRule rule) :
    metered tickBytes rule cfg id i w ev = [] := by
  apply if_neg
  unfold SameRate at hrate
  omega

theorem metered_none (hk : Keyed w) (he : w.epts id = none) (i : PairId) :
    metered tickBytes rule cfg id i w ev = [] := by
  have hops : ops cfg id i w ev = [] := ops_none hk he i
  unfold ops at hops
  have hvisits : visits cfg id w ev = [] := by
    unfold visits
    split
    · simp [he]
    · rfl
  unfold metered
  rw [hvisits, (List.append_eq_nil_iff.mp hops).2]
  split <;> rfl

theorem budget_unlimited (hk : Keyed w) (hlimit : limited e = false) (he : w.epts id = some e)
    (h : step cfg w ev = some w') (he' : w'.epts id = some e') (i : PairId) : budget i e' = budget i e := by
  cases became_step hk h he' with
  | same he₁ | stopped _ _ he₁ | arrived _ he₁ | failed _ he₁ =>
    rw [he] at he₁
    cases he₁
    rfl
  | added _ _ hid | made _ _ _ _ hid => exact absurd hid (hk.lt_nextEpt he).ne
  | credited _ _ _ _ he₁ =>
    rw [he] at he₁
    cases he₁
    unfold credit
    rw [hlimit]
    rfl
  | popped _ _ he₁ =>
    rw [he] at he₁
    cases he₁
    obtain ⟨s, f, heq⟩ := popRecv_eq (debitRecv _ e)
    rw [heq]
    unfold debitRecv
    rw [hlimit]
    rfl
  | sent _ _ he₁ =>
    rw [he] at he₁
    cases he₁
    unfold sent
    rw [hlimit]
    rfl
  | handed _ _ _ _ he₁ =>
    rw [he] at he₁
    cases he₁
    obtain ⟨t, heq⟩ := touch_eq w.now e
    rw [pushSend_eq, heq]
    rfl
  | restarted _ _ _ he₁ =>
    rw [he] at he₁
    cases he₁
    obtain ⟨s, t, heq⟩ := restart_eq _ w.clock e
    rw [heq]
    rfl
  | handled _ he₁ =>
    rw [he] at he₁
    cases he₁
    exact budget_handled ..

theorem metered_kept (hk : Keyed w) (hflag : e.serverFlag = false) (hrate : SameRate e.proxyRule rule)
    (he : w.epts id = some e) (h : step cfg w ev = some w') (i : PairId) :
    ∃ level, exec TokenBucket.step (budget i e) (metered tickBytes rule cfg id i w ev) = some level ∧
      ∀ e', w'.epts id = some e' → budget i e' = level := by
  by_cases hlimit : 0 < e.proxyRule.maxBandwidth
  · rw [metered_ops cfg ev he hlimit hrate]
    exact bucket_kept hk (by simp [limited, hflag, hlimit]) he h i
  · rw [metered_nil cfg w ev id i hlimit hrate]
    exact ⟨budget i e, rfl, fun e' he' => budget_unlimited hk (by simp [limited, hlimit]) he h he' i⟩

theorem metered_run (h₀ : Initial w₀) (h : exec (step cfg) w₀ es = some w) (he : w.epts id = some e)
    (hport : e.proxyRule.srcPort = 0) (hrate : SameRate e.proxyRule rule) (i : PairId) :
    exec TokenBucket.step 0 (trace (step cfg) (metered tickBytes rule cfg id i) w₀ es) = some (budget i e) := by
  have hmet : Meets cfg w₀ es id e.proxyRule := ⟨es, [], w, e, (List.append_nil es).symm, h, he, rfl⟩
  have halike : Along (step cfg) (fun u _ => ∀ e', u.epts id = some e' →
      e'.serverFlag = false ∧ SameRate e'.proxyRule rule) w₀ es := by
    apply along_of_prefixes
    intro as bs u hes hu e' he'
    have hrule : e'.proxyRule = e.proxyRule := hmet.rule h₀ hes hu he'
    have hflag := serverFlag_run h₀ hu id e' he'
    rw [hrule, hport] at hflag
    exact ⟨hflag, by rw [hrule]; exact hrate⟩
  have hempty : Filled id i 0 w₀ [] := by
    obtain ⟨clock, ip, heap, rfl⟩ := h₀
    refine ⟨0, rfl, ?_, fun _ => rfl⟩
    intro e' he'
    cases he'
  have hrun : Filled id i 0 w ([] ++ trace (step cfg) (metered tickBytes rule cfg id i) w₀ es) := by
    refine keyed_traced (I := Filled id i 0) ?_ (keyed_initial h₀) h halike hempty
    intro u ev v xs hk hu hw hstep
    refine filled_step hk (fun hnone => metered_none hk hnone i) ?_ hw hstep
    intro e' he'
    exact metered_kept hk (hu e' he').1 (hu e' he').2 he' hstep i
  obtain ⟨level, hexec, hlevel, -⟩ := hrun
  rw [List.nil_append] at hexec
  rw [hexec, hlevel e he]

theorem visits_pos {ticks : List ℤ} {interval : Msec} (hw : Paced rule w ticks) (h : step cfg w ev = some w')
    (hin : interval ∈ visits cfg id w ev) : 0 < interval := by
  unfold visits at hin
  split at hin
  · split at hin
    · rw [List.mem_singleton.mp hin]
      apply hw.interval_pos
      cases scans_step h with
      | tick hev => cases hev
      | rest hother => exact absurd rfl (hother _)
      | stay _ hscan => exact hscan
      | visit _ hscan => exact hscan
    · cases hin
  · cases hin

theorem metered_narrowed (h₀ : Initial w₀) (h : exec (step cfg) w₀ es = some w) (i : PairId)
    (hfit : ∀ interval ∈ trace (step cfg) (visits cfg id) w₀ es, interval * rule.maxBandwidth < 1000 * 2 ^ 31) :
    trace (step cfg) (metered udpBytes rule cfg id i) w₀ es =
      trace (step cfg) (metered tickBytes rule cfg id i) w₀ es := by
  have hbytes : ∀ interval ∈ trace (step cfg) (visits cfg id) w₀ es,
      0 < rule.maxBandwidth → udpBytes rule interval = tickBytes rule interval := by
    intro interval hin hlimit
    obtain ⟨as, ev, bs, u, v, -, hu, hv, hvisit⟩ := (mem_trace h).mp hin
    have hpos := visits_pos (paced_run h₀ hu : Paced rule u _) hv hvisit
    exact narrowedBytes_of_lt hpos hlimit (hfit interval hin)
  refine trace_congr (fun u ev hvisits => ?_) hbytes
  unfold metered
  split
  · rename_i hlimit
    rw [List.map_congr_left fun interval hin => congrArg TokenBucket.Op.credit (hvisits interval hin hlimit)]
  · rfl

end metering

section roles

variable {as bs : List Event} {u : World}

theorem rule_of_lt (h₀ : Initial w₀) (hu : exec (step cfg) w₀ as = some u) (h : exec (step cfg) u bs = some w)
    (hrules : trace (step cfg) configured w₀ (as ++ bs) = rules) (he : u.epts id = some e)
    (hid : id < rules.length) : rules[id]? = some e.proxyRule := by
  have hfirst := rulesFirst_run h₀ hu
  subst hrules
  rw [trace_append hu] at hid ⊢
  have hlt : id < (trace (step cfg) configured w₀ as).length := by
    by_contra hle
    by_cases hphase : u.phase = .setup
    · rw [← hfirst.setup hphase] at hle
      exact hle (hfirst.keyed.lt_nextEpt he)
    · rw [configured_nil h hphase, List.append_nil] at hid
      exact hle hid
  rw [List.getElem?_append_left hlt]
  exact hfirst.rule id e he hlt

theorem portless_of_le (h₀ : Initial w₀) (hu : exec (step cfg) w₀ as = some u)
    (hrules : trace (step cfg) configured w₀ (as ++ bs) = rules) (he : u.epts id = some e)
    (hid : rules.length ≤ id) : e.proxyRule.srcPort = 0 := by
  apply portless_run h₀ hu id e he
  subst hrules
  rw [trace_append hu, List.length_append] at hid
  exact (Nat.le_add_right _ _).trans hid

end roles

section parameters

variable {as bs : List Event} {u : World}

theorem delivery_alike (h₀ : Initial w₀) (hrules : trace (step cfg) configured w₀ (as ++ bs) = rules)
    (halike : DeliversAlike cfg w₀ (as ++ bs) rules) (hu : exec (step cfg) w₀ as = some u)
    (h : exec (step cfg) u bs = some w) {x : Handling} (hx : x ∈ trace (step cfg) (handlings rules) w₀ (as ++ bs))
    (he : u.epts x.ept = some e) : SameDelivery e.proxyRule x.rule := by
  by_cases hid : x.ept < rules.length
  · obtain ⟨as', ev', bs', u', v', -, -, -, hin⟩ := (mem_trace (exec_append_some.mpr ⟨u, hu, h⟩)).mp hx
    obtain ⟨r, draw, outcome, e', -, -, -, hrule, -⟩ := mem_handlings hin
    rw [ruleAt, if_pos hid, rule_of_lt h₀ hu h hrules he hid] at hrule
    rw [Option.some.inj hrule]
    exact ⟨rfl, rfl⟩
  · obtain ⟨c, hc, hept, hdelay, hdrop, -⟩ := contacted_run h₀ hu x.ept e he
    have hin : c ∈ trace (step cfg) (contacts cfg) w₀ (as ++ bs) := by
      rw [trace_append hu]
      exact List.mem_append_left _ hc
    obtain ⟨hdelay', hdrop'⟩ := halike x hx (not_lt.mp hid) c hin hept
    exact ⟨hdelay.trans hdelay', by rw [hdrop, hdrop']⟩

theorem mem_passages {p : Passage} (h : p ∈ passages cfg rules w ev) : ∃ key,
    popping cfg w = some (p.receiver, key, p.msg) ∧ ruleAt rules p.receiver p.msg.src = some p.rule ∧
      p.now = w.now := by
  unfold passages at h
  split at h
  · split at h
    · rename_i rid key msg hpop
      obtain ⟨rule, hrule, rfl⟩ := List.mem_map.mp h
      exact ⟨key, hpop, Option.mem_toList.mp hrule, rfl⟩
    · cases h
  · cases h

theorem relayed_ruled (h₀ : Initial w₀) (hrules : trace (step cfg) configured w₀ (as ++ bs) = rules)
    (halike : DeliversAlike cfg w₀ (as ++ bs) rules) (hu : exec (step cfg) w₀ as = some u)
    (h : exec (step cfg) u bs = some w) {p : Passage} (hp : p ∈ passages cfg rules u ev) :
    p.Ruled (trace (step cfg) (handlings rules) w₀ as) := by
  obtain ⟨key, hpop, hrule, hnow⟩ := mem_passages hp
  obtain ⟨todo, e, -, he, hverdict⟩ := popping_cases hpop
  obtain ⟨rest, hqueue, -, -, hdue, -⟩ := recvVerdict_take hverdict
  have hmsg : p.msg ∈ e.recvQueue := by
    rw [hqueue]
    exact List.mem_cons_self
  obtain ⟨x, hx, hrulex, hept, hstored, htime⟩ := delayed_run h₀ hu rules p.receiver e he p.msg hmsg p.rule hrule
  have hin : x ∈ trace (step cfg) (handlings rules) w₀ (as ++ bs) := by
    rw [trace_append hu]
    exact List.mem_append_left _ hx
  have hdelay : e.proxyRule.delayMs = x.rule.delayMs :=
    (delivery_alike h₀ hrules halike hu h hin (by rw [hept]; exact he)).1
  refine ⟨x, hx, hrulex, hept, hstored, ?_⟩
  rw [hnow, ← hrulex, ← hdelay, ← htime]
  exact hdue

theorem mem_meteringOf {m : Metering} (h : m ∈ meteringOf rules w i id msg) : ∃ e, w.epts m.client = some e ∧
    m.client = id ∧ m.direction = i ∧ rules.length ≤ id ∧ m.avail = budget i e := by
  unfold meteringOf at h
  split at h
  · rename_i e he
    split at h
    · cases h
    · rename_i hid
      obtain ⟨rule, -, rfl⟩ := List.mem_map.mp h
      exact ⟨e, he, rfl, rfl, not_lt.mp hid, rfl⟩
  · cases h

theorem mem_meterings {m : Metering} (h : m ∈ meterings cfg rules w ev) : ∃ e, w.epts m.client = some e ∧
    rules.length ≤ m.client ∧ m.avail = budget m.direction e ∧ 0 ≤ m.avail := by
  unfold meterings at h
  split at h
  · split at h
    · rename_i rid key msg hpop
      obtain ⟨e, he, rfl, hdirection, hid, havail⟩ := mem_meteringOf h
      obtain ⟨todo, e', -, he', hverdict⟩ := popping_cases hpop
      obtain ⟨rest, -, hlevel, -⟩ := recvVerdict_take hverdict
      rw [he] at he'
      cases he'
      refine ⟨e, he, hid, by rw [hdirection, havail], ?_⟩
      rw [havail]
      exact hlevel
    · cases h
  · split at h
    · rename_i sid msg hsend
      split at h
      · obtain ⟨e, he, rfl, hdirection, hid, havail⟩ := mem_meteringOf h
        obtain ⟨todo, e', -, he', hverdict⟩ := sending_cases hsend
        obtain ⟨rest, -, hlevel, -⟩ := sendVerdict_take hverdict
        rw [he] at he'
        cases he'
        refine ⟨e, he, hid, by rw [hdirection, havail], ?_⟩
        rw [havail]
        exact hlevel
      · cases h
    · cases h
  · cases h

theorem metering_ruled (h₀ : Initial w₀) (hrules : trace (step cfg) configured w₀ (as ++ bs) = rules)
    (hu : exec (step cfg) w₀ as = some u) {m : Metering} (hm : m ∈ meterings cfg rules u ev)
    (halike : ∀ c ∈ trace (step cfg) (contacts cfg) w₀ (as ++ bs), c.ept = m.client → SameRate c.rule m.rule)
    (hfit : ∀ interval ∈ trace (step cfg) (visits cfg m.client) w₀ (as ++ bs),
      interval * m.rule.maxBandwidth < 1000 * 2 ^ 31) :
    m.Ruled (trace (step cfg) (metered udpBytes m.rule cfg m.client m.direction) w₀ as) := by
  obtain ⟨e, he, hid, havail, hlevel⟩ := mem_meterings hm
  obtain ⟨c, hc, hept, -, -, hbandwidth⟩ := contacted_run h₀ hu m.client e he
  have hin : c ∈ trace (step cfg) (contacts cfg) w₀ (as ++ bs) := by
    rw [trace_append hu]
    exact List.mem_append_left _ hc
  have hrate : SameRate e.proxyRule m.rule := by
    unfold SameRate
    rw [hbandwidth]
    exact halike c hin hept
  refine ⟨?_, hlevel⟩
  rw [trace_append hu] at hfit
  rw [havail, metered_narrowed h₀ hu m.direction fun interval hin => hfit interval (List.mem_append_left _ hin)]
  exact metered_run h₀ hu he (portless_of_le h₀ hu hrules he hid) hrate m.direction

end parameters

def delayed : UdpProxyRule := ⟨54, ⟨2, 54⟩, 1000, 100, 5000⟩

def consulting (first : UdpProxyRule) : List Event :=
  [.addServerProxy first .success, .addServerProxy delayed .success, .start,
    .arrive 0 1 ⟨9, 4000⟩ [7], .handleRecv 0 ⟨1, .success, 1⟩ 6000 .success, .clock 120, .tick,
    .visit ⟨1, 53⟩, .relay .success, .relay .success, .visit ⟨2, 54⟩, .relay .success, .merge,
    .enter ⟨1, 53⟩, .flush .success .success, .enter ⟨2, 54⟩, .flush .success .success,
    .enter ⟨9, 4000⟩, .flush .success .success, .flush .success .success, .rest,
    .arrive 1 2 ⟨9, 4000⟩ [8], .handleRecv 1 ⟨2, .success, 1⟩ 6000 .success,
    .arrive 1 5 ⟨9, 4000⟩ [9], .handleRecv 1 ⟨5, .success, 1⟩ 6000 .success,
    .arrive 2 4 ⟨2, 54⟩ [5], .handleRecv 2 ⟨4, .success, 1⟩ 6000 .success,
    .arrive 2 7 ⟨2, 54⟩ [6], .handleRecv 2 ⟨7, .success, 1⟩ 1 .success, .clock 240, .tick,
    .visit ⟨2, 54⟩, .relay .success, .relay .success, .relay .success,
    .visit ⟨9, 4000⟩, .relay .success, .relay .success, .visit ⟨1, 53⟩, .relay .success, .merge,
    .enter ⟨9, 4000⟩, .flush .success .success, .flush .success .success]

def alike : UdpProxyRule := ⟨53, ⟨1, 53⟩, 1000, 100, 5000⟩

def prompt : UdpProxyRule := ⟨53, ⟨1, 53⟩, 1000, 0, 0⟩

def unlimited : UdpProxyRule := ⟨53, ⟨1, 53⟩, 0, 100, 5000⟩

end TcpUdpProxy.UdpServer
