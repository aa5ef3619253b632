import TcpUdpProxy.Library.Trace
import TcpUdpProxy.UdpTraffic

namespace TcpUdpProxy.UdpServer

open UdpEndpointProxy Execution

variable {cfg : Config} {w w' w₀ : World} {ev : Event} {id : EptId} {e e' : UdpEndpointProxy}
  {es : List Event}

theorem keyed_run (h₀ : Initial w₀) (h : exec (step cfg) w₀ es = some w) : Keyed w :=
  exec_invariant (fun _ _ _ hk he => keyed_step hk (step_cases he)) h (keyed_initial h₀)

/-- The rule for what a state has in common with the log `f` of the run so far. -/
theorem keyed_traced {α : Type} {f : World → Event → List α} {I : World → List α → Prop}
    {G : World → Event → Prop} {xs : List α}
    (hI : ∀ w ev w' xs, Keyed w → G w ev → I w xs → step cfg w ev = some w' → I w' (xs ++ f w ev))
    (hk : Keyed w) (h : exec (step cfg) w es = some w') (hg : Along (step cfg) G w es) (hs : I w xs) :
    I w' (xs ++ trace (step cfg) f w es) := by
  have hrun : Keyed w' ∧ I w' (xs ++ trace (step cfg) f w es) := by
    apply exec_traced (I := fun w xs => Keyed w ∧ I w xs) _ h hg ⟨hk, hs⟩
    rintro u ev v xs ⟨hk, hu⟩ hg hstep
    exact ⟨keyed_step hk (step_cases hstep), hI u ev v xs hk hg hu hstep⟩
  exact hrun.2

/-- The rule for invariants of single endpoints, of runs whose steps all meet `G`. -/
theorem endpoints_guarded {P : UdpEndpointProxy → Prop} {G : World → Event → Prop}
    (hP : ∀ w ev id e', Keyed w → G w ev → (∀ id e, w.epts id = some e → P e) → Became cfg w ev id e' → P e')
    (h₀ : Initial w₀) (h : exec (step cfg) w₀ es = some w) (hg : Along (step cfg) G w₀ es) :
    ∀ id e, w.epts id = some e → P e := by
  have hinv : Keyed w ∧ ∀ id e, w.epts id = some e → P e := by
    apply exec_guarded (I := fun w => Keyed w ∧ ∀ id e, w.epts id = some e → P e) _ h hg
    · refine ⟨keyed_initial h₀, ?_⟩
      obtain ⟨clock, ip, heap, rfl⟩ := h₀
      intro id e he
      cases he
    · intro w ev w' hw hg hstep
      refine ⟨keyed_step hw.1 (step_cases hstep), ?_⟩
      intro id e' he'
      exact hP w ev id e' hw.1 hg hw.2 (became_step hw.1 hstep he')
  exact hinv.2

theorem endpoints_run {P : UdpEndpointProxy → Prop}
    (hP : ∀ w ev id e', Keyed w → (∀ id e, w.epts id = some e → P e) → Became cfg w ev id e' → P e')
    (h₀ : Initial w₀) (h : exec (step cfg) w₀ es = some w) : ∀ id e, w.epts id = some e → P e :=
  endpoints_guarded (fun w ev id e' hk _ hw hb => hP w ev id e' hk hw hb) h₀ h (along_true w₀ es)

def params (e : UdpEndpointProxy) : UdpProxyRule × Bool × Option Address :=
  (e.proxyRule, e.serverFlag, e.clientIp)

theorem params_debitRecv (msg : UdpMsg) (e : UdpEndpointProxy) :
    params (debitRecv msg e).popRecv = params e := by
  obtain ⟨s, f, heq⟩ := popRecv_eq (debitRecv msg e)
  rw [heq]
  unfold debitRecv
  split <;> rfl

theorem params_pushSend (msg : UdpMsg) (e : UdpEndpointProxy) : params (pushSend msg e) = params e := by
  rw [pushSend_eq]
  rfl

theorem Became.params (h : Became cfg w ev id e') :
    (∃ e, w.epts id = some e ∧ params e' = params e) ∨
    id = w.nextEpt ∧ (∃ outcome, ev.makes = some outcome) ∧
      e'.serverFlag = decide (e'.proxyRule.srcPort ≠ 0) := by
  cases h with
  | same he => exact .inl ⟨_, he, rfl⟩
  | @added rule outcome hev hphase hid =>
    right
    obtain ⟨s, t, heq⟩ := create_eq (fun _ => 0) rule w.nextBuf outcome w.clock
    refine ⟨hid, ⟨outcome, by rw [hev]; rfl⟩, ?_⟩
    rw [heq]
  | credited hev hphase hkey hlookup he =>
    refine .inl ⟨_, he, ?_⟩
    unfold credit
    split <;> rfl
  | popped hev hphase he => exact .inl ⟨_, he, params_debitRecv _ _⟩
  | handed hev hpop hne hsender he =>
    refine .inl ⟨_, he, ?_⟩
    obtain ⟨t, heq⟩ := touch_eq w.now _
    rw [params_pushSend, heq]
    rfl
  | @made outcome key rid msg e hev hpop he hsender hid hactive =>
    right
    obtain ⟨s, t, heq⟩ := create_eq cfg.bandwidth (World.clientRule e.proxyRule msg.src) w.nextBuf
      outcome w.clock
    refine ⟨hid, ⟨outcome, by rw [hev]; rfl⟩, ?_⟩
    rw [heq, pushSend_eq]
  | @restarted error outcome msg e hev herror hsend he =>
    obtain ⟨s, t, heq⟩ := restart_eq outcome w.clock e
    exact .inl ⟨_, he, by rw [heq]; rfl⟩
  | sent hev hsend he => exact .inl ⟨_, he, rfl⟩
  | stopped hev hphase he => exact .inl ⟨_, he, rfl⟩
  | arrived hev he => exact .inl ⟨_, he, rfl⟩
  | failed hev he => exact .inl ⟨_, he, rfl⟩
  | @handled r draw outcome e hev he =>
    refine .inl ⟨_, he, ?_⟩
    rcases handled_cases w r draw outcome e with ⟨s, t, heq⟩ | ⟨-, -, s, f, heq⟩
    · rw [heq]
      rfl
    · rw [heq]
      rfl

theorem serverFlag_run (h₀ : Initial w₀) (h : exec (step cfg) w₀ es = some w) :
    ∀ id e, w.epts id = some e → e.serverFlag = decide (e.proxyRule.srcPort ≠ 0) := by
  apply endpoints_run (P := fun e => e.serverFlag = decide (e.proxyRule.srcPort ≠ 0)) _ h₀ h
  intro w ev id e' hk hw hbecame
  obtain ⟨e, he, hparams⟩ | ⟨-, -, hflag⟩ := hbecame.params
  · simp only [params, Prod.mk.injEq] at hparams
    rw [hparams.1, hparams.2.1]
    exact hw id e he
  · exact hflag

theorem nextEpt_step (h : step cfg w ev = some w') : w.nextEpt ≤ w'.nextEpt := by
  cases step_cases h with
  | @addServerProxy rule outcome =>
    obtain ⟨epts, heq⟩ := addServerProxy_eq rule outcome w
    rw [heq]
    exact Nat.le_succ _
  | @transfer outcome key id todo e msg =>
    unfold World.transfer World.hand
    obtain ⟨ip, hip⟩ := payIp_eq cfg 1 e msg.cost w
    rw [hip]
    split
    · exact le_refl _
    · unfold World.passNew
      dsimp only
      split
      · unfold World.stage World.replace
        split <;> exact Nat.le_succ _
      · exact Nat.le_succ _
  | _ => exact le_refl _

theorem Keyed.lt_nextEpt (h : Keyed w) (he : w.epts id = some e) : id < w.nextEpt := by
  by_contra hle
  rw [h.fresh id (not_lt.mp hle)] at he
  cases he

theorem params_forward (hk : Keyed w) (he : w.epts id = some e) (h : exec (step cfg) w es = some w')
    (he' : w'.epts id = some e') : params e' = params e := by
  have hinv : Keyed w' ∧ id < w'.nextEpt ∧ ∀ e', w'.epts id = some e' → params e' = params e := by
    apply exec_invariant
      (I := fun w => Keyed w ∧ id < w.nextEpt ∧ ∀ e', w.epts id = some e' → params e' = params e) _ h
    · refine ⟨hk, hk.lt_nextEpt he, ?_⟩
      intro e' he'
      rw [he] at he'
      cases he'
      rfl
    · rintro u ev v ⟨hu, hlt, hsame⟩ hstep
      refine ⟨keyed_step hu (step_cases hstep), hlt.trans_le (nextEpt_step hstep), ?_⟩
      intro e' he'
      obtain ⟨e₁, he₁, hparams⟩ | ⟨hid, -⟩ := (became_step hu hstep he').params
      · exact hparams.trans (hsame e₁ he₁)
      · exact absurd hid hlt.ne
  exact hinv.2.2 e' he'

def Meets (cfg : Config) (w : World) (es : List Event) (id : EptId) (rule : UdpProxyRule) : Prop :=
  ∃ as bs u e, es = as ++ bs ∧ exec (step cfg) w as = some u ∧ u.epts id = some e ∧ e.proxyRule = rule

theorem Meets.rule {rule : UdpProxyRule} (hmet : Meets cfg w₀ es id rule) (h₀ : Initial w₀)
    {as bs : List Event} (hes : es = as ++ bs) (h : exec (step cfg) w₀ as = some w)
    (he : w.epts id = some e) : e.proxyRule = rule := by
  obtain ⟨as', bs', u, e', hes', h', he', rfl⟩ := hmet
  have hrule : params e = params e' := by
    rcases List.append_eq_append_iff.mp (hes.symm.trans hes') with ⟨cs, rfl, -⟩ | ⟨cs, rfl, -⟩
    · obtain ⟨v, hv, hrest⟩ := exec_append_some.mp h'
      rw [h] at hv
      cases hv
      exact (params_forward (keyed_run h₀ h) he hrest he').symm
    · obtain ⟨v, hv, hrest⟩ := exec_append_some.mp h
      rw [h'] at hv
      cases hv
      exact params_forward (keyed_run h₀ h') he' hrest he
  simp only [params, Prod.mk.injEq] at hrule
  exact hrule.1

end TcpUdpProxy.UdpServer
