import TcpUdpProxy.UdpTimeliness

namespace TcpUdpProxy.UdpServer

open UdpEndpointProxy Execution

def ClockOnward (w : World) : Event → Prop
  | .clock now => w.clock ≤ now
  | _ => True

instance (w : World) : ∀ ev, Decidable (ClockOnward w ev)
  | .clock now => inferInstanceAs (Decidable (w.clock ≤ now))
  | .addServerProxy .. | .start | .tick | .visit _ | .relay _ | .merge | .enter _ | .flush .. | .rest
  | .stop | .arrive .. | .fail .. | .handleRecv .. | .ip _ => isTrue trivial

inductive Used (cfg : Config) (w : World) (id : EptId) : Event → Prop
  | received {r draw outcome} (hsuccess : r.error = .success) : Used cfg w id (.handleRecv id r draw outcome)
  | handed {outcome rid key msg} (hpop : popping cfg w = some (rid, key, msg))
      (hsender : w.endpoints.lookup msg.src = some id) : Used cfg w id (.relay outcome)

def GivenUp (cfg : Config) (w : World) (id : EptId) : Prop :=
  ∃ key todo e, w.phase = .scan todo ∧ key ∈ todo ∧ w.endpoints.lookup key = some id ∧ w.epts id = some e ∧
    e.activeTm ≠ 0 ∧ expired cfg w e = true

def ActiveSince (t : Msec) (e : UdpEndpointProxy) : Prop := e.activeTm = 0 ∨ t ≤ e.activeTm

structure Ahead (t : Msec) (id : EptId) (w : World) : Prop where
  keyed : Keyed w
  made : id < w.nextEpt
  now_ge : t ≤ w.now
  now_le : w.now ≤ w.clock
  active : ∀ e, w.epts id = some e → ActiveSince t e

variable {cfg : Config} {w w' w₀ u v : World} {ev : Event} {id : EptId} {e e' : UdpEndpointProxy} {t : Msec}
  {as bs es : List Event}

section activity

theorem activeSince_init (outcome : InitOutcome) {now : Msec} (hnow : t ≤ now) (h : ActiveSince t e) :
    ActiveSince t (e.init outcome now) := by
  unfold UdpEndpointProxy.init
  split
  · exact h
  · dsimp only
    split
    · exact .inr hnow
    · exact h

theorem activeSince_restart (outcome : InitOutcome) {now : Msec} (hnow : t ≤ now) (e : UdpEndpointProxy) :
    ActiveSince t (e.restart outcome now) := by
  unfold restart
  split
  · exact activeSince_init outcome hnow (.inl rfl)
  · exact .inl rfl

theorem activeSince_create (bandwidth : PairId → ℤ) (rule : UdpProxyRule) (buf : BufId) (outcome : InitOutcome)
    {now : Msec} (hnow : t ≤ now) : ActiveSince t (create bandwidth rule buf outcome now) :=
  activeSince_init outcome hnow (.inl rfl)

theorem activeSince_touch {now : Msec} (hnow : t ≤ now) (e : UdpEndpointProxy) : ActiveSince t (touch now e) := by
  unfold touch
  split
  · exact .inr hnow
  · rename_i hstopped
    exact .inl (not_ne_iff.mp hstopped)

theorem ActiveSince.congr (h : ActiveSince t e) (hactive : e'.activeTm = e.activeTm) : ActiveSince t e' := by
  unfold ActiveSince at h ⊢
  rwa [hactive]

theorem activeSince_handled (r : RecvResult) (draw : ℤ) (outcome : InitOutcome) (hclock : t ≤ w.clock)
    (h : r.error = .success ∨ ActiveSince t e) : ActiveSince t (handled w r draw outcome e).1 := by
  unfold handled UdpEndpointProxy.handleRecv
  split
  · rename_i herror
    have hold : ActiveSince t e := h.resolve_left herror
    split
    · exact hold.congr rfl
    · split
      · exact activeSince_restart outcome hclock _
      · exact hold.congr rfl
  · dsimp only
    split
    · exact .inr hclock
    · split <;> exact .inr hclock

theorem activeSince_step (hk : Keyed w) (hnow : t ≤ w.now) (hclock : t ≤ w.clock) (h : step cfg w ev = some w')
    (he' : w'.epts id = some e') (hold : ∀ e, w.epts id = some e → ActiveSince t e) : ActiveSince t e' := by
  cases became_step hk h he' with
  | same he => exact hold e' he
  | added => exact activeSince_create _ _ _ _ hclock
  | credited hev hphase hkey hlookup he => exact (hold _ he).congr (sendQueue_credit _ _).2
  | popped hev hphase he => exact (hold _ he).congr (sendQueue_debitRecv _ _).2
  | handed => exact (activeSince_touch hnow _).congr (sendQueue_pushSend _ _).2
  | made => exact (activeSince_create _ _ _ _ hclock).congr (sendQueue_pushSend _ _).2
  | restarted => exact activeSince_restart _ hclock _
  | sent hev hsend he => exact (hold _ he).congr rfl
  | stopped => exact .inl rfl
  | arrived hev he => exact (hold _ he).congr rfl
  | failed hev he => exact (hold _ he).congr rfl
  | handled hev he => exact activeSince_handled _ _ _ hclock (.inr (hold _ he))

theorem activeSince_handed {rid : EptId} {key : Endpoint} {msg : UdpMsg} {outcome : InitOutcome} (hk : Keyed w)
    (hnow : t ≤ w.now) (hpop : popping cfg w = some (rid, key, msg)) (hsender : w.endpoints.lookup msg.src = some id)
    (h : step cfg w (.relay outcome) = some w') (he' : w'.epts id = some e') : ActiveSince t e' := by
  obtain ⟨todo, e, hphase, he, hverdict⟩ := popping_cases hpop
  obtain ⟨rest, -, -, hsrc, -⟩ := recvVerdict_take hverdict
  obtain ⟨-, hrun⟩ := run_of_step h
  simp only [run, relay, hphase, he, hverdict, Option.map_some, Option.some.injEq] at hrun
  subst hrun
  obtain ⟨ip, hip⟩ := payIp_eq cfg 1 e msg.cost w
  unfold World.transfer at he'
  rw [hip] at he'
  obtain ⟨hne, he'⟩ | ⟨rfl, -⟩ := World.modify_some he'
  · obtain ⟨hother, -⟩ | ⟨e₀, -, he₀, rfl⟩ | ⟨hnone, -⟩ := hand_some he'
    · exact absurd hsender hother
    · exact (activeSince_touch hnow e₀).congr (sendQueue_pushSend _ _).2
    · rw [hsender] at hnone
      cases hnone
  · exact absurd (hk.mapped.unique hk.mapped hsender (hk.locked key id todo hphase)) hsrc

theorem activeSince_used (hk : Keyed w) (hnow : t ≤ w.now) (hclock : t ≤ w.clock) (hused : Used cfg w id ev)
    (h : step cfg w ev = some w') (he' : w'.epts id = some e') : ActiveSince t e' := by
  cases hused with
  | @received r draw outcome hsuccess =>
    cases became_step hk h he' with
    | same he hvisit hpop hsend harrive hhandle => exact absurd rfl (hhandle r draw outcome)
    | handled hev he =>
      cases hev
      exact activeSince_handled _ _ _ hclock (.inl hsuccess)
    | added hev | credited hev | popped hev | handed hev | made hev | restarted hev | sent hev | stopped hev
    | arrived hev | failed hev => cases hev
  | handed hpop hsender => exact activeSince_handed hk hnow hpop hsender h he'

end activity

theorem times_step (hg : ClockOnward w ev) (hnow : w.now ≤ w.clock) (h : step cfg w ev = some w') :
    w.now ≤ w'.now ∧ w'.now ≤ w'.clock := by
  cases step_cases h with
  | addServerProxy =>
    obtain ⟨epts, heq⟩ := addServerProxy_eq _ _ w
    rw [heq]
    exact ⟨le_refl _, hnow⟩
  | start | early | tick => exact ⟨hnow, le_refl _⟩
  | @transfer outcome key id todo e msg =>
    obtain ⟨ip, newEpts, epts, nextEpt, nextBuf, relayed, heq⟩ := transfer_eq cfg outcome key id e msg w
    rw [heq]
    exact ⟨le_refl _, hnow⟩
  | clock => exact ⟨le_refl _, hnow.trans hg⟩
  | _ => exact ⟨le_refl _, hnow⟩

theorem now_le_clock (h₀ : Initial w₀) (h : exec (step cfg) w₀ es = some w)
    (hg : Along (step cfg) ClockOnward w₀ es) : w.now ≤ w.clock := by
  apply exec_guarded (I := fun w => w.now ≤ w.clock) _ h hg
  · obtain ⟨clock, ip, heap, rfl⟩ := h₀
    exact le_refl _
  · exact fun _ _ _ hnow hg hstep => (times_step hg hnow hstep).2

theorem ahead_step (hw : Ahead t id w) (hg : ClockOnward w ev) (h : step cfg w ev = some w') : Ahead t id w' := by
  have hclock : t ≤ w.clock := hw.now_ge.trans hw.now_le
  obtain ⟨hnow, hnow_le⟩ := times_step hg hw.now_le h
  refine ⟨keyed_step hw.keyed (step_cases h), hw.made.trans_le (nextEpt_step h), hw.now_ge.trans hnow, hnow_le, ?_⟩
  exact fun e' he' => activeSince_step hw.keyed hw.now_ge hclock h he' hw.active

theorem used_not_expired (h₀ : Initial w₀) (hbefore : exec (step cfg) w₀ as = some u) (hused : Used cfg u id ev)
    (hafter : exec (step cfg) u (ev :: bs) = some v) (hg : Along (step cfg) ClockOnward w₀ (as ++ ev :: bs))
    (hlast : GivenUp cfg v id) : u.now + cfg.udpTimeout < v.now ∧ ∃ e, v.epts id = some e ∧ e.serverFlag = false := by
  obtain ⟨hgas, hgbs⟩ := (along_append hbefore).mp hg
  obtain ⟨x, hstep, hrest⟩ := exec_cons_some.mp hafter
  rw [along_cons hstep] at hgbs
  obtain ⟨key, todo, e, -, -, -, he, hactive, hexpired⟩ := hlast
  have hk := keyed_run h₀ hbefore
  have hnow_le := now_le_clock h₀ hbefore hgas
  have hahead : Ahead u.now id x := by
    obtain ⟨hnow, hnow_le'⟩ := times_step hgbs.1 hnow_le hstep
    have hlive : id < u.nextEpt := by
      cases hused with
      | received =>
        cases step_cases hstep with
        | handleRecv he₀ => exact hk.lt_nextEpt he₀
      | handed hpop hsender =>
        obtain ⟨e₀, he₀, -⟩ := hk.mapped _ _ hsender
        exact hk.lt_nextEpt he₀
    refine ⟨keyed_step hk (step_cases hstep), hlive.trans_le (nextEpt_step hstep), hnow, hnow_le', ?_⟩
    exact fun e' he' => activeSince_used hk (le_refl _) hnow_le hused hstep he'
  have hend : Ahead u.now id v :=
    exec_guarded (fun _ _ _ hw hg hstep => ahead_step hw hg hstep) hrest hgbs.2 hahead
  have hsince : u.now ≤ e.activeTm := (hend.active e he).resolve_left hactive
  simp only [expired, Bool.or_eq_true, decide_eq_true_eq, Bool.and_eq_true, Bool.not_eq_true'] at hexpired
  obtain ⟨htime, hclient⟩ := hexpired.resolve_left hactive
  refine ⟨?_, e, he, hclient⟩
  have hlt : u.now < v.now - cfg.udpTimeout := hsince.trans_lt htime
  exact Int.add_lt_of_lt_sub_right hlt

def talking : List Event := conversation ++ [.merge, .enter ⟨1, 53⟩, .flush .success .success,
  .enter ⟨9, 4000⟩, .flush .success .success, .flush .success .success, .rest, .arrive 1 3 ⟨1, 53⟩ [8]]

def silence : List Event := [.clock 700000, .tick]

def silent : World := after plain start (talking ++ .handleRecv 1 ⟨3, .success, 1⟩ 1 .success :: silence)

theorem used_not_expired_silent : GivenUp plain silent 1 ∧
    (after plain start talking).now + plain.udpTimeout < silent.now := by
  have hbefore : exec (step plain) start talking = some (after plain start talking) := rfl
  have hafter : exec (step plain) (after plain start talking)
      (.handleRecv 1 ⟨3, .success, 1⟩ 1 .success :: silence) = some silent := rfl
  have hg : Along (step plain) ClockOnward start
      (talking ++ .handleRecv 1 ⟨3, .success, 1⟩ 1 .success :: silence) := by decide
  have hlast : GivenUp plain silent 1 :=
    ⟨⟨9, 4000⟩, _, _, rfl, by decide, rfl, rfl, by decide, by decide⟩
  exact ⟨hlast, (used_not_expired initial_start hbefore (.received rfl) hafter hg hlast).1⟩

section idle

def Kept (cfg : Config) (now : Msec) (e : UdpEndpointProxy) : Prop :=
  e.serverFlag = true ∨ ActiveSince (now - cfg.udpTimeout) e

def Phase.Visited (key : Endpoint) : Phase → Prop
  | .scan todo | .relay _ _ todo => key ∉ todo
  | .send _ | .flush .. => True
  | _ => False

structure Swept (cfg : Config) (w : World) : Prop where
  visiting : Visiting w
  now_le : w.now ≤ w.clock
  kept : ∀ id e, w.epts id = some e → w.phase.Visited e.proxyRule.dstEndpoint → Kept cfg w.now e

theorem Kept.congr {now : Msec} (h : Kept cfg now e) (hflag : e'.serverFlag = e.serverFlag)
    (hactive : e'.activeTm = e.activeTm) : Kept cfg now e' := by
  rcases h with hserver | hsince
  · exact .inl (hflag.trans hserver)
  · exact .inr (hsince.congr hactive)

theorem elsewhere_of_eq {ev₀ : Event} {P : Endpoint → Prop} (hev : ev = ev₀) (hne : ∀ key, ev₀ = .visit key → False)
    (key : Endpoint) (hvisit : ev = .visit key) : P key := by
  rw [hev] at hvisit
  exact (hne key hvisit).elim

theorem kept_of_became (htimeout : 0 ≤ cfg.udpTimeout) (hnow : w.now ≤ w.clock)
    (h : Became cfg w ev id e') (hold : ∀ e, w.epts id = some e → e'.proxyRule = e.proxyRule →
      (∀ key, ev = .visit key → w.endpoints.lookup key ≠ some id) → Kept cfg w.now e) : Kept cfg w.now e' := by
  have hpast : w.now - cfg.udpTimeout ≤ w.now := Int.sub_le_self _ htimeout
  have hclock : w.now - cfg.udpTimeout ≤ w.clock := hpast.trans hnow
  cases h with
  | same he hvisit => exact hold e' he rfl hvisit
  | added => exact .inr (activeSince_create _ _ _ _ hclock)
  | @credited key todo e hev hphase hkey hlookup he hlive =>
    have hkept : Kept cfg w.now e := by
      simp only [expired, Bool.or_eq_false_iff, decide_eq_false_iff_not, Bool.and_eq_false_iff,
        Bool.not_eq_false'] at hlive
      rcases hlive.2 with hlate | hserver
      · exact .inr (.inr (not_lt.mp hlate))
      · exact .inl hserver
    apply hkept.congr _ (sendQueue_credit _ _).2
    unfold credit
    split <;> rfl
  | @popped outcome key todo e msg hev hphase he =>
    have hkept := hold e he (proxyRule_popRecv msg e) (elsewhere_of_eq hev (by intro key h; cases h))
    have hparams := params_debitRecv msg e
    simp only [params, Prod.mk.injEq] at hparams
    exact hkept.congr hparams.2.1 (sendQueue_debitRecv _ _).2
  | handed => exact .inr ((activeSince_touch hpast _).congr (sendQueue_pushSend _ _).2)
  | made => exact .inr ((activeSince_create _ _ _ _ hclock).congr (sendQueue_pushSend _ _).2)
  | restarted => exact .inr (activeSince_restart _ hclock _)
  | sent hev hsend he => exact (hold _ he rfl (elsewhere_of_eq hev (by intro key h; cases h))).congr rfl rfl
  | stopped => exact .inr (.inl rfl)
  | arrived hev he => exact (hold _ he rfl (elsewhere_of_eq hev (by intro key h; cases h))).congr rfl rfl
  | failed hev he => exact (hold _ he rfl (elsewhere_of_eq hev (by intro key h; cases h))).congr rfl rfl
  | @handled r draw outcome e hev he =>
    have hparams : params (UdpServer.handled w r draw outcome e).1 = params e := by
      rcases handled_cases w r draw outcome e with ⟨s, t, heq⟩ | ⟨-, -, s, f, heq⟩ <;> rw [heq] <;> rfl
    simp only [params, Prod.mk.injEq] at hparams
    rcases hold e he hparams.1 (elsewhere_of_eq hev (by intro key h; cases h)) with hserver | hsince
    · exact .inl (hparams.2.1.trans hserver)
    · exact .inr (activeSince_handled _ _ _ hclock (.inr hsince))

theorem kept_step (htimeout : 0 ≤ cfg.udpTimeout) (hw : Swept cfg w) (h : step cfg w ev = some w')
    (he' : w'.epts id = some e') (hvisited : w'.phase.Visited e'.proxyRule.dstEndpoint) :
    Kept cfg w'.now e' := by
  have hbecame := became_step hw.visiting.keyed h he'
  have hsame : w.phase.Visited e'.proxyRule.dstEndpoint → Kept cfg w.now e' := by
    intro hbefore
    apply kept_of_became htimeout hw.now_le hbecame
    intro e he hrule _
    apply hw.kept id e he
    rwa [hrule] at hbefore
  cases step_cases h with
  | addServerProxy hphase =>
    obtain ⟨epts, heq⟩ := addServerProxy_eq _ _ w
    rw [heq, hphase] at hvisited
    exact hvisited.elim
  | start | rest | stop => exact hvisited.elim
  | early hphase =>
    rw [show _ = Phase.sleep from hphase] at hvisited
    exact hvisited.elim
  | tick hphase => exact absurd (hw.visiting.owned.key_mem (by rw [hphase]; rfl) he') hvisited
  | @expire key id₀ todo e hphase hkey hlookup =>
    obtain ⟨hne, he⟩ := World.destroy_some he'
    apply hsame
    rw [hphase]
    intro hmem
    have hsame := mem_of_erase hvisited hmem
    exact hne (hw.visiting.owned.key_unique he (by rw [hsame, hlookup]))
  | @lock key id₀ todo e hphase hkey hlookup =>
    apply kept_of_became (w := w) htimeout hw.now_le hbecame
    intro e he hrule hother
    apply hw.kept id e he
    rw [hphase, ← hrule]
    intro hmem
    have hkey : e.proxyRule.dstEndpoint = key := hrule ▸ mem_of_erase hvisited hmem
    apply hother key rfl
    rw [hlookup, hw.visiting.owned.key_unique he (by rw [hkey, hlookup])]
  | @transfer outcome key id₀ todo e msg =>
    obtain ⟨ip, newEpts, epts, nextEpt, nextBuf, relayed, heq⟩ := transfer_eq cfg outcome key id₀ e msg w
    rw [heq] at hvisited ⊢
    exact hsame hvisited
  | unlock hphase =>
    apply hsame
    rw [hphase]
    exact hvisited
  | merge hphase =>
    apply hsame
    rw [hphase]
    nofun
  | enter hphase | leave hphase | restart hphase =>
    apply hsame
    rw [hphase]
    trivial
  | _ => exact hsame hvisited

theorem idle_removed (h₀ : Initial w₀) (h : exec (step cfg) w₀ es = some w)
    (hg : Along (step cfg) ClockOnward w₀ es) (htimeout : 0 ≤ cfg.udpTimeout) {todo : List Endpoint}
    (hphase : w.phase = .send todo) (he : w.epts id = some e) :
    e.serverFlag = true ∨ e.activeTm = 0 ∨ w.now - cfg.udpTimeout ≤ e.activeTm := by
  have hstart : Swept cfg w₀ := by
    have hnil : exec (step cfg) w₀ [] = some w₀ := rfl
    refine ⟨visiting_initial h₀, now_le_clock h₀ hnil trivial, ?_⟩
    obtain ⟨clock, ip, heap, rfl⟩ := h₀
    intro id e he
    cases he
  have hw : Swept cfg w := by
    apply exec_guarded (I := Swept cfg) _ h hg hstart
    intro w ev w' hw hg hstep
    exact ⟨visiting_step hw.visiting hstep, (times_step hg hw.now_le hstep).2,
      fun id e' he' => kept_step htimeout hw hstep he'⟩
  apply hw.kept id e he
  rw [hphase]
  trivial

def keptRun : List Event :=
  talking ++ [.handleRecv 1 ⟨3, .success, 1⟩ 1 .success, .clock 600000, .tick, .visit ⟨1, 53⟩,
    .relay .success, .visit ⟨9, 4000⟩, .relay .success, .relay .success, .merge]

theorem idle_removed_answered : ((after plain start keptRun).epts 1).isSome = true ∧
    ∀ e, (after plain start keptRun).epts 1 = some e →
      e.serverFlag = true ∨ e.activeTm = 0 ∨ (after plain start keptRun).now - 600000 ≤ e.activeTm := by
  have hexec : exec (step plain) start keptRun = some (after plain start keptRun) := rfl
  have hg : Along (step plain) ClockOnward start keptRun := by decide
  exact ⟨rfl, fun e he => idle_removed initial_start hexec hg (by decide) rfl he⟩

end idle

end TcpUdpProxy.UdpServer
