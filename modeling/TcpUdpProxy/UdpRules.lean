import TcpUdpProxy.Library.LastWrite
import TcpUdpProxy.UdpDatagrams

namespace TcpUdpProxy.UdpServer

open UdpEndpointProxy Execution

def configured (_ : World) : Event → List UdpProxyRule
  | .addServerProxy rule _ => [rule]
  | _ => []

/-- The rule whose endpoint `endpoints` keeps for the address. -/
def lastRule (rules : List UdpProxyRule) (key : Endpoint) : Option UdpProxyRule :=
  LastWrite.final (fun rule => if rule.dstEndpoint = key then some (some rule) else none) none rules

def Remote (rules : List UdpProxyRule) (key : Endpoint) : Prop := ∃ rule ∈ rules, rule.dstEndpoint = key

/-- What the relay takes from the endpoint of an address that is no remote has come from a remote, whose
own endpoint is still there. -/
def FromRemotes (cfg : Config) (rules : List UdpProxyRule) (w : World) : Event → Prop
  | .relay _ => ∀ p ∈ popping cfg w, Remote rules p.2.1 ∨
      (w.endpoints.lookup p.2.2.src).any fun id => id < rules.length
  | _ => True

instance (rules : List UdpProxyRule) (key : Endpoint) : Decidable (Remote rules key) :=
  inferInstanceAs (Decidable (∃ rule ∈ rules, rule.dstEndpoint = key))

instance (cfg : Config) (rules : List UdpProxyRule) (w : World) : ∀ ev, Decidable (FromRemotes cfg rules w ev)
  | .relay _ => inferInstanceAs (Decidable (∀ p ∈ popping cfg w, Remote rules p.2.1 ∨
      (w.endpoints.lookup p.2.2.src).any fun id => id < rules.length))
  | .addServerProxy .. | .start | .tick | .visit _ | .arrive .. | .merge | .enter _ | .flush .. | .rest
  | .stop | .fail .. | .handleRecv .. | .clock _ | .ip _ => isTrue trivial

variable {cfg : Config} {w w' w₀ : World} {ev : Event} {id rid : EptId} {e e' : UdpEndpointProxy}
  {key peer : Endpoint} {msg : UdpMsg} {rules : List UdpProxyRule} {es : List Event} {outcome : InitOutcome}

theorem Became.leaving (hk : Keyed w) (h : Became cfg w ev id e') : ∀ msg ∈ e'.sendQueue,
    (∃ e, w.epts id = some e ∧ msg ∈ e.sendQueue) ∨
    ∃ outcome rid key m, ev = .relay outcome ∧ popping cfg w = some (rid, key, m) ∧
      msg = { m with src := key } ∧ m.src = e'.proxyRule.dstEndpoint ∧
      (w.endpoints.lookup m.src = some id ∨ w.endpoints.lookup m.src = none) := by
  intro msg hmsg
  have hpushed : ∀ {m : UdpMsg} {e : UdpEndpointProxy}, msg ∈ (pushSend m e).sendQueue →
      msg ∈ e.sendQueue ∨ msg = m := by
    intro m e hin
    rw [pushSend_eq] at hin
    rcases List.mem_append.mp hin with hin | hin
    · exact .inl hin
    · split at hin
      · exact .inr (List.mem_singleton.mp hin)
      · cases hin
  cases h with
  | same he => exact .inl ⟨_, he, hmsg⟩
  | @added rule outcome =>
    obtain ⟨s, t, heq⟩ := create_eq (fun _ => 0) rule w.nextBuf outcome w.clock
    rw [heq] at hmsg
    cases hmsg
  | credited hev hphase hkey hlookup he =>
    rw [(sendQueue_credit _ _).1] at hmsg
    exact .inl ⟨_, he, hmsg⟩
  | popped hev hphase he =>
    rw [(sendQueue_debitRecv _ _).1] at hmsg
    exact .inl ⟨_, he, hmsg⟩
  | @handed outcome key rid m e hev hpop hne hsender he =>
    rcases hpushed hmsg with hin | rfl
    · rw [(sendQueue_touch _ _).1] at hin
      exact .inl ⟨_, he, hin⟩
    · obtain ⟨e₀, he₀, hdst⟩ := hk.mapped m.src id hsender
      rw [he] at he₀
      cases he₀
      refine .inr ⟨outcome, rid, key, m, hev, hpop, rfl, ?_, .inl hsender⟩
      rw [proxyRule_pushSend, proxyRule_touch, hdst]
  | @made outcome key rid m e hev hpop he hsender =>
    rcases hpushed hmsg with hin | rfl
    · obtain ⟨s, t, heq⟩ := create_eq cfg.bandwidth (World.clientRule e.proxyRule m.src) w.nextBuf outcome w.clock
      rw [heq] at hin
      cases hin
    · refine .inr ⟨outcome, rid, key, m, hev, hpop, rfl, ?_, .inr hsender⟩
      rw [proxyRule_pushSend, proxyRule_create]
      rfl
  | @restarted error outcome m e hev herror hsend he =>
    obtain ⟨s, t, heq⟩ := restart_eq outcome w.clock e
    rw [heq] at hmsg
    exact .inl ⟨_, he, hmsg⟩
  | sent hev hsend he => exact .inl ⟨_, he, List.mem_of_mem_tail hmsg⟩
  | stopped hev hphase he => exact .inl ⟨_, he, hmsg⟩
  | arrived hev he => exact .inl ⟨_, he, hmsg⟩
  | failed hev he => exact .inl ⟨_, he, hmsg⟩
  | @handled r draw outcome e hev he =>
    rcases handled_cases w r draw outcome e with ⟨s, t, heq⟩ | ⟨-, -, s, f, heq⟩ <;> rw [heq] at hmsg
    · exact .inl ⟨_, he, hmsg⟩
    · exact .inl ⟨_, he, hmsg⟩

def ToRemotes (rules : List UdpProxyRule) (w : World) : Prop :=
  ∀ id e, w.epts id = some e → rules.length ≤ id → ∀ msg ∈ e.sendQueue, Remote rules msg.src

theorem toRemotes_step (hk : Keyed w) (hw : ToRemotes rules w) (hg : FromRemotes cfg rules w ev)
    (h : step cfg w ev = some w') : ToRemotes rules w' := by
  intro id e' he' hid msg hmsg
  obtain ⟨e, he, hin⟩ | ⟨outcome, rid, key, m, rfl, hpop, rfl, -, hsender⟩ :=
    (became_step hk h he').leaving hk msg hmsg
  · exact hw id e he hid msg hin
  · rcases hg _ hpop with hremote | hsource
    · exact hremote
    · rcases hsender with hsender | hsender
      · rw [hsender] at hsource
        exact absurd hid (not_le.mpr (by simpa using hsource))
      · rw [hsender] at hsource
        cases hsource

theorem toRemotes_run (h₀ : Initial w₀) (h : exec (step cfg) w₀ es = some w)
    (hg : Along (step cfg) (FromRemotes cfg rules) w₀ es) : ToRemotes rules w := by
  have hinv : Keyed w ∧ ToRemotes rules w := by
    apply exec_guarded (I := fun w => Keyed w ∧ ToRemotes rules w) _ h hg
    · refine ⟨keyed_initial h₀, ?_⟩
      obtain ⟨clock, ip, heap, rfl⟩ := h₀
      intro id e he
      cases he
    · rintro u ev v ⟨hk, hw⟩ hfrom hstep
      exact ⟨keyed_step hk (step_cases hstep), toRemotes_step hk hw hfrom hstep⟩
  exact hinv.2

structure RulesFirst (w : World) (rules : List UdpProxyRule) : Prop where
  keyed : Keyed w
  rule : ∀ id e, w.epts id = some e → id < rules.length → rules[id]? = some e.proxyRule
  length_le : rules.length ≤ w.nextEpt
  setup : w.phase = .setup → w.nextEpt = rules.length

theorem setup_step (h : step cfg w ev = some w') (hphase : w.phase ≠ .setup) :
    w'.phase ≠ .setup ∧ configured w ev = [] := by
  cases step_cases h with
  | addServerProxy hsetup => exact absurd hsetup hphase
  | start hsetup => exact absurd hsetup hphase
  | @transfer outcome key id todo e msg hrelay =>
    obtain ⟨ip, newEpts, epts, nextEpt, nextBuf, relayed, heq⟩ := transfer_eq cfg outcome key id e msg w
    rw [heq]
    exact ⟨hphase, rfl⟩
  | tick | expire | lock | unlock | merge | enter | leave | restart | rest | stop => exact ⟨nofun, rfl⟩
  | _ => exact ⟨hphase, rfl⟩

theorem configured_nil (h : exec (step cfg) w es = some w') (hphase : w.phase ≠ .setup) :
    trace (step cfg) configured w es = [] := by
  induction es generalizing w with
  | nil => rfl
  | cons ev es ih =>
    obtain ⟨u, hu, hrest⟩ := exec_cons_some.mp h
    obtain ⟨hnext, hnil⟩ := setup_step hu hphase
    rw [trace_cons hu, hnil, ih hrest hnext]
    rfl

theorem rulesFirst_added {rule : UdpProxyRule} (hw : RulesFirst w rules) (hphase : w.phase = .setup) :
    RulesFirst (w.addServerProxy rule outcome) (rules ++ [rule]) := by
  have hlength := hw.setup hphase
  have hnext : (w.addServerProxy rule outcome).nextEpt = (rules ++ [rule]).length := by
    obtain ⟨epts, heq⟩ := addServerProxy_eq rule outcome w
    rw [heq, List.length_append, ← hlength]
    rfl
  refine ⟨keyed_addServerProxy hw.keyed hphase, ?_, hnext.ge, fun _ => hnext⟩
  intro id e' he' _
  have hreplaced : (w.replace (w.endpoints.lookup rule.dstEndpoint)).nextEpt = w.nextEpt := by
    unfold World.replace
    split <;> rfl
  obtain ⟨-, he⟩ | ⟨hid, rfl⟩ := World.make_some he'
  · have hold := World.replace_some he
    have hlt : id < rules.length := hlength ▸ hw.keyed.lt_nextEpt hold
    rw [List.getElem?_append_left hlt]
    exact hw.rule id e' hold hlt
  · rw [hid, hreplaced, hlength, List.getElem?_concat_length, proxyRule_create]

theorem rulesFirst_step (hw : RulesFirst w rules) (h : step cfg w ev = some w') :
    RulesFirst w' (rules ++ configured w ev) := by
  by_cases hadd : ∃ rule outcome, ev = .addServerProxy rule outcome
  · obtain ⟨rule, outcome, rfl⟩ := hadd
    cases step_cases h with
    | addServerProxy hphase => exact rulesFirst_added hw hphase
  · have hnil : configured w ev = [] := by
      unfold configured
      split
      · exact absurd ⟨_, _, rfl⟩ hadd
      · rfl
    rw [hnil, List.append_nil]
    refine ⟨keyed_step hw.keyed (step_cases h), ?_, hw.length_le.trans (nextEpt_step h), ?_⟩
    · intro id e' he' hid
      obtain ⟨e, he, hparams⟩ | ⟨hnew, -⟩ := (became_step hw.keyed h he').params
      · simp only [params, Prod.mk.injEq] at hparams
        rw [hparams.1]
        exact hw.rule id e he hid
      · rw [hnew] at hid
        exact absurd hid (not_lt.mpr hw.length_le)
    · intro hphase'
      have hphase : w.phase = .setup := by
        by_contra hne
        exact (setup_step h hne).1 hphase'
      rw [← hw.setup hphase]
      cases step_cases h with
      | addServerProxy => exact absurd ⟨_, _, rfl⟩ hadd
      | transfer hrelay =>
        rw [hphase] at hrelay
        cases hrelay
      | _ => rfl

theorem rulesFirst_initial (h₀ : Initial w₀) : RulesFirst w₀ [] := by
  have hk := keyed_initial h₀
  obtain ⟨clock, ip, heap, rfl⟩ := h₀
  refine ⟨hk, ?_, Nat.zero_le _, fun _ => rfl⟩
  intro id e he
  cases he

theorem rulesFirst_run (h₀ : Initial w₀) (h : exec (step cfg) w₀ es = some w) :
    RulesFirst w (trace (step cfg) configured w₀ es) := by
  have hstep : ∀ u ev v rules, RulesFirst u rules → True → step cfg u ev = some v →
      RulesFirst v (rules ++ configured u ev) := by
    intro u ev v rules hw _ hstep
    exact rulesFirst_step hw hstep
  have hrun := exec_traced hstep h (along_true w₀ es) (rulesFirst_initial h₀)
  rwa [List.nil_append] at hrun

section clients

theorem portless_step (hfirst : RulesFirst w rules)
    (hw : ∀ id e, w.epts id = some e → rules.length ≤ id → e.proxyRule.srcPort = 0) (h : step cfg w ev = some w') :
    ∀ id e, w'.epts id = some e → (rules ++ configured w ev).length ≤ id → e.proxyRule.srcPort = 0 := by
  intro id e' he' hid
  rw [List.length_append] at hid
  have hbecame := became_step hfirst.keyed h he'
  obtain ⟨e, he, hparams⟩ | ⟨hnew, -⟩ := hbecame.params
  · simp only [params, Prod.mk.injEq] at hparams
    rw [hparams.1]
    exact hw id e he ((Nat.le_add_right _ _).trans hid)
  · have hfresh : w.epts id = none := hnew ▸ hfirst.keyed.fresh w.nextEpt (le_refl _)
    cases hbecame with
    | added hev hphase =>
      subst hev
      rw [hnew, hfirst.setup hphase] at hid
      exact absurd hid (Nat.not_succ_le_self _)
    | made =>
      rw [proxyRule_pushSend, proxyRule_create]
      rfl
    | same he | credited _ _ _ _ he | popped _ _ he | handed _ _ _ _ he | restarted _ _ _ he | sent _ _ he
    | stopped _ _ he | arrived _ he | failed _ he | handled _ he =>
      rw [hfresh] at he
      cases he

theorem portless_run (h₀ : Initial w₀) (h : exec (step cfg) w₀ es = some w) :
    ∀ id e, w.epts id = some e → (trace (step cfg) configured w₀ es).length ≤ id → e.proxyRule.srcPort = 0 := by
  have hstart : RulesFirst w₀ [] ∧ ∀ id e, w₀.epts id = some e → ([] : List UdpProxyRule).length ≤ id →
      e.proxyRule.srcPort = 0 := by
    refine ⟨rulesFirst_initial h₀, ?_⟩
    obtain ⟨clock, ip, heap, rfl⟩ := h₀
    intro id e he
    cases he
  have hstep : ∀ u ev v rules, (RulesFirst u rules ∧ ∀ id e, u.epts id = some e → rules.length ≤ id →
      e.proxyRule.srcPort = 0) → True → step cfg u ev = some v → RulesFirst v (rules ++ configured u ev) ∧
        ∀ id e, v.epts id = some e → (rules ++ configured u ev).length ≤ id → e.proxyRule.srcPort = 0 :=
    fun _ _ _ _ hw _ hstep => ⟨rulesFirst_step hw.1 hstep, portless_step hw.1 hw.2 hstep⟩
  have hrun := exec_traced (I := fun w rules => RulesFirst w rules ∧ ∀ id e, w.epts id = some e →
    rules.length ≤ id → e.proxyRule.srcPort = 0) hstep h (along_true w₀ es) hstart
  rw [List.nil_append] at hrun
  exact hrun.2

theorem serverFlag_client {as bs : List Event} {u : World} (h₀ : Initial w₀) (hu : exec (step cfg) w₀ as = some u)
    (he : u.epts id = some e)
    (hclient : ¬ Remote (trace (step cfg) configured w₀ (as ++ bs)) e.proxyRule.dstEndpoint) :
    e.serverFlag = false := by
  have hid : (trace (step cfg) configured w₀ as).length ≤ id := by
    by_contra hlt
    apply hclient
    rw [trace_append hu]
    have hrule := (rulesFirst_run h₀ hu).rule id e he (not_le.mp hlt)
    exact ⟨e.proxyRule, List.mem_append_left _ (List.mem_of_getElem? hrule), rfl⟩
  rw [serverFlag_run h₀ hu id e he, portless_run h₀ hu id e he hid]
  rfl

theorem clientsSingle_run (h₀ : Initial w₀) (h : exec (step cfg) w₀ es = some w) : ClientsSingle w := by
  have hinv : Keyed w ∧ Buffered w ∧ ClientsSingle w := by
    apply exec_invariant (I := fun w => Keyed w ∧ Buffered w ∧ ClientsSingle w) _ h
    · refine ⟨keyed_initial h₀, buffered_initial h₀, ?_⟩
      obtain ⟨clock, ip, heap, rfl⟩ := h₀
      intro id e he
      cases he
    · rintro u ev v ⟨hk, hb, hw⟩ hstep
      exact ⟨keyed_step hk (step_cases hstep), buffered_step hb (step_cases hstep), clientsSingle_step hk hb hw hstep⟩
  exact hinv.2.2

theorem ownBuffer_clients (h₀ : Initial w₀) (h : exec (step cfg) w₀ es = some w) :
    Along (step cfg) (OwnBufferAt fun key => ¬ Remote (trace (step cfg) configured w₀ es) key) w₀ es := by
  have hstates : Along (step cfg) (fun u _ => ∀ id e, u.epts id = some e →
      ¬ Remote (trace (step cfg) configured w₀ es) e.proxyRule.dstEndpoint → Single u.nextBuf e) w₀ es := by
    apply along_of_prefixes
    rintro as bs u rfl hu id e he hclient
    exact clientsSingle_run h₀ hu id e he (serverFlag_client h₀ hu he hclient)
  apply along_mono _ h hstates
  intro u ev v hstep hsingle
  cases step_cases hstep with
  | @arrive id buf src data e he hbuf =>
    intro e' he' hclient
    have hs := hsingle id e' he' hclient
    rw [Option.mem_def, he] at he'
    cases he'
    refine ⟨(hs.target buf hbuf).symm, ?_⟩
    intro r hr hsuccess
    have hpos : 0 < e.proxySocket.ready.countP fun r => r.error ≠ .operationAborted :=
      List.countP_pos_iff.mpr ⟨r, hr, by simp [hsuccess]⟩
    have hlength := List.length_pos_of_mem hbuf
    have howed := hs.owed_le
    unfold UdpSocket.owed at howed
    omega
  | _ => trivial

end clients

theorem rules_followed (h₀ : Initial w₀) (h : exec (step cfg) w₀ es = some w)
    (hfrom : Along (step cfg) (FromRemotes cfg (trace (step cfg) configured w₀ es)) w₀ es) :
    ∀ d ∈ trace (step cfg) (sentTo cfg) w₀ es, ¬ Remote (trace (step cfg) configured w₀ es) d.peer →
      ∃ rule, (trace (step cfg) configured w₀ es)[d.ept]? = some rule ∧
        ∃ r ∈ trace (step cfg) received w₀ es, r.key = d.peer ∧ r.peer = rule.dstEndpoint ∧
          r.payload = d.payload := by
  intro d hd hclient
  obtain ⟨r, hlast, hkey, hpeer, hpayload⟩ := sent_origin h₀ h (ownBuffer_clients h₀ h) hd hclient
  obtain ⟨as, ev, bs, u, v, rfl, hu, hstep, hin⟩ := (mem_trace h).mp hd
  obtain ⟨outcome, rfl, hsends⟩ := mem_sentTo.mp hin
  obtain ⟨msg, e, hsend, he, hmem, heq⟩ := sends_cases hsends
  obtain ⟨u', hu', hrest⟩ := exec_append_some.mp h
  rw [hu] at hu'
  cases hu'
  have hphase : u.phase ≠ .setup := by
    obtain ⟨todo, e', hphase, -⟩ := sending_cases hsend
    rw [hphase]
    nofun
  have hrules : trace (step cfg) configured w₀ (as ++ .flush .success outcome :: bs) =
      trace (step cfg) configured w₀ as := by
    rw [trace_append hu, configured_nil hrest hphase, List.append_nil]
  have hfirst := rulesFirst_run h₀ hu
  rw [hrules] at hclient hfrom ⊢
  rw [along_append hu] at hfrom
  have hlt : d.ept < (trace (step cfg) configured w₀ as).length := by
    by_contra hle
    apply hclient
    rw [heq]
    exact toRemotes_run h₀ hu hfrom.1 d.ept e he (not_lt.mp hle) msg hmem
  refine ⟨e.proxyRule, hfirst.rule d.ept e he hlt, r, (mem_of_last hlast).1, hkey, ?_, hpayload⟩
  rw [hpeer, heq]

def exchange : List Event :=
  receive ⟨9, 4000⟩ ++
    [.relay .success, .merge, .enter ⟨9, 4000⟩, .flush .success .success, .flush .success .success,
      .enter ⟨1, 53⟩, .flush .success .success, .rest, .arrive 1 3 ⟨1, 53⟩ [8],
      .handleRecv 1 ⟨3, .success, 1⟩ 1 .success, .clock 40, .tick, .visit ⟨9, 4000⟩, .relay .success,
      .relay .success, .visit ⟨1, 53⟩, .relay .success, .merge, .enter ⟨1, 53⟩, .flush .success .success]

def answer : Datagram := ⟨0, ⟨1, 53⟩, ⟨9, 4000⟩, 3, [8]⟩

set_option maxRecDepth 4000 in
theorem rules_followed_exchange : answer ∈ trace (step plain) (sentTo plain) start exchange ∧
    ∃ rule, (trace (step plain) configured start exchange)[answer.ept]? = some rule ∧
      ∃ r ∈ trace (step plain) received start exchange, r.key = answer.peer ∧
        r.peer = rule.dstEndpoint ∧ r.payload = answer.payload := by
  have hexec : exec (step plain) start exchange = some (after plain start exchange) := rfl
  have hfrom : Along (step plain) (FromRemotes plain (trace (step plain) configured start exchange))
    start exchange := by decide
  have hsent : answer ∈ trace (step plain) (sentTo plain) start exchange := by decide
  exact ⟨hsent, rules_followed initial_start hexec hfrom answer hsent (by decide)⟩

/-- A stranger sends to the socket that the proxy has opened for the client. -/
def intrusion : List Event :=
  receive ⟨9, 4000⟩ ++
    [.relay .success, .merge, .enter ⟨9, 4000⟩, .flush .success .success, .flush .success .success,
      .enter ⟨1, 53⟩, .flush .success .success, .rest, .arrive 1 3 ⟨8, 666⟩ [66],
      .handleRecv 1 ⟨3, .success, 1⟩ 1 .success, .clock 40, .tick, .visit ⟨9, 4000⟩, .relay .success,
      .relay .success, .visit ⟨1, 53⟩, .relay .success, .merge, .enter ⟨8, 666⟩, .flush .success .success]

set_option maxRecDepth 4000 in
theorem stranger_reaches_client : ¬ ∀ (cfg : Config) (w₀ w : World) (es : List Event), Initial w₀ →
    exec (step cfg) w₀ es = some w → ∀ d ∈ trace (step cfg) (sentTo cfg) w₀ es,
      ¬ Remote (trace (step cfg) configured w₀ es) d.peer →
        ∃ rule, (trace (step cfg) configured w₀ es)[d.ept]? = some rule ∧
          ∃ r ∈ trace (step cfg) received w₀ es, r.peer = rule.dstEndpoint ∧ r.payload = d.payload := by
  intro hclaim
  have hexec : exec (step plain) start intrusion = some (after plain start intrusion) := rfl
  have hsent : ⟨2, ⟨8, 666⟩, ⟨9, 4000⟩, 3, [66]⟩ ∈ trace (step plain) (sentTo plain) start intrusion := by
    decide
  obtain ⟨rule, hrule, -⟩ := hclaim plain start _ intrusion initial_start hexec _ hsent (by decide)
  revert hrule
  have hnone : (trace (step plain) configured start intrusion)[2]? = none := by decide
  rw [hnone]
  nofun

end TcpUdpProxy.UdpServer
