import Mathlib.Algebra.Order.BigOperators.Group.List
import TcpUdpProxy.UdpBudget

namespace TcpUdpProxy.UdpServer

open UdpEndpointProxy AssociationList Execution

variable {cfg : Config} {w w' w₀ w₁ w₂ : World} {ev : Event} {id : EptId} {e e' : UdpEndpointProxy}
  {es before window : List Event} {rule : UdpProxyRule}

def ticked (rule : UdpProxyRule) (w : World) : Event → List ℤ
  | .tick =>
    if 0 < w.clock - w.lastFlushTm then [tickBytes rule (w.clock - w.lastFlushTm)] else []
  | _ => []

def todo : Phase → List Endpoint
  | .scan todo | .relay _ _ todo => todo
  | _ => []

theorem todo_nil {phase : Phase} (h : phase.scanning = false) : todo phase = [] := by
  cases phase <;> first | rfl | cases h

inductive Scans (w : World) (ev : Event) (w' : World) : Prop
  | tick (hev : ev = .tick) (hphase : w.phase = .sleep) (hpos : 0 < w.clock - w.lastFlushTm)
      (hinterval : w'.interval = w.clock - w.lastFlushTm) (htodo : todo w'.phase = w.endpoints.keys)
  | rest (hvisit : ∀ key, ev ≠ .visit key) (hphase' : w'.phase.scanning = false)
  | visit {key} (hev : ev = .visit key) (hphase : w.phase.scanning = true) (hkey : key ∈ todo w.phase)
      (hinterval : w'.interval = w.interval)
      (hlookup : ∀ k id, w'.endpoints.lookup k = some id → w.endpoints.lookup k = some id)
      (htodo : todo w'.phase = (todo w.phase).erase key)
  | stay (hvisit : ∀ key, ev ≠ .visit key) (hphase : w.phase.scanning = true)
      (hinterval : w'.interval = w.interval) (hendpoints : w'.endpoints = w.endpoints)
      (htodo : todo w'.phase = todo w.phase)

theorem interval_pos_of_tick (h : step cfg w .tick = some w') (hphase' : w'.phase ≠ .sleep) :
    0 < w.clock - w.lastFlushTm := by
  obtain ⟨-, hrun⟩ := run_of_step h
  simp only [run, Option.ite_none_right_eq_some, Option.some.injEq] at hrun
  obtain ⟨hphase, rfl⟩ := hrun
  by_contra hpos
  apply hphase'
  rw [World.tick, if_pos (not_lt.mp hpos)]
  exact hphase

theorem scans_step (h : step cfg w ev = some w') : Scans w ev w' := by
  have hother : (∀ key, ev ≠ .visit key) → w'.phase = w.phase → w'.interval = w.interval →
      w'.endpoints = w.endpoints → Scans w ev w' := by
    intro hvisit hphase hinterval hendpoints
    cases hscan : w.phase.scanning with
    | true => exact .stay hvisit hscan hinterval hendpoints (by rw [hphase])
    | false => exact .rest hvisit (by rw [hphase, hscan])
  cases step_cases h with
  | start | rest | stop | leave | restart => exact .rest nofun rfl
  | early | relayFault | flushFault | arrive | fail | handleRecv | clock | ip | sent =>
    exact hother nofun rfl rfl rfl
  | @addServerProxy rule outcome hphase =>
    obtain ⟨epts, heq⟩ := addServerProxy_eq rule outcome w
    exact .rest nofun (by rw [heq, hphase]; rfl)
  | tick hphase => exact .tick rfl hphase (interval_pos_of_tick h nofun) rfl rfl
  | @expire key id todo e hphase hkey hlookup he hexpired =>
    refine .visit rfl (by rw [hphase]; rfl) (by rw [hphase]; exact hkey) rfl ?_ (by rw [hphase]; rfl)
    intro k id' hk
    exact (lookup_erase_some.mp hk).2
  | lock hphase hkey =>
    exact .visit rfl (by rw [hphase]; rfl) (by rw [hphase]; exact hkey) rfl (fun _ _ hk => hk)
      (by rw [hphase]; rfl)
  | unlock hphase => exact .stay nofun (by rw [hphase]; rfl) rfl rfl (by rw [hphase]; rfl)
  | @transfer outcome key id todo e msg =>
    obtain ⟨ip, newEpts, epts, nextEpt, nextBuf, relayed, heq⟩ := transfer_eq cfg outcome key id e msg w
    rw [heq] at h ⊢
    rw [heq] at hother
    exact hother nofun rfl rfl rfl
  | merge => exact .rest nofun rfl
  | enter => exact .rest nofun rfl

def Due (id : EptId) (w : World) : Prop := ∃ key ∈ todo w.phase, w.endpoints.lookup key = some id

instance (id : EptId) (w : World) : Decidable (Due id w) := inferInstanceAs (Decidable (∃ _ ∈ _, _))

def due (rule : UdpProxyRule) (id : EptId) (w : World) : ℤ :=
  if Due id w then tickBytes rule w.interval else 0

structure Paced (rule : UdpProxyRule) (w : World) (ticks : List ℤ) : Prop where
  keyed : Keyed w
  nodup : (todo w.phase).Nodup
  interval_pos : w.phase.scanning = true → 0 < w.interval
  counted : w.phase.scanning = true → tickBytes rule w.interval ∈ ticks

theorem paced_step {ticks : List ℤ} (hw : Paced rule w ticks) (h : step cfg w ev = some w') :
    Paced rule w' (ticks ++ ticked rule w ev) := by
  have hkeyed := keyed_step hw.keyed (step_cases h)
  cases scans_step h with
  | tick hev hphase hpos hinterval htodo =>
    refine ⟨hkeyed, by rw [htodo]; exact AList.keys_nodup _, ?_, ?_⟩
    · intro _
      rwa [hinterval]
    · intro _
      rw [hinterval, hev, ticked, if_pos hpos]
      exact List.mem_append_right _ (List.mem_singleton_self _)
  | rest hvisit hphase' =>
    refine ⟨hkeyed, by rw [todo_nil hphase']; exact List.nodup_nil, ?_, ?_⟩
    · simp [hphase']
    · simp [hphase']
  | visit hev hphase hkey hinterval hlookup htodo =>
    refine ⟨hkeyed, by rw [htodo]; exact hw.nodup.erase _, ?_, ?_⟩
    · intro _
      rw [hinterval]
      exact hw.interval_pos hphase
    · intro _
      rw [hinterval]
      exact List.mem_append_left _ (hw.counted hphase)
  | stay hvisit hphase hinterval hendpoints htodo =>
    refine ⟨hkeyed, by rw [htodo]; exact hw.nodup, ?_, ?_⟩
    · intro _
      rw [hinterval]
      exact hw.interval_pos hphase
    · intro _
      rw [hinterval]
      exact List.mem_append_left _ (hw.counted hphase)

theorem paced_run (h₀ : Initial w₀) (h : exec (step cfg) w₀ es = some w) :
    Paced rule w (trace (step cfg) (ticked rule) w₀ es) := by
  have hstart : Paced rule w₀ [] := by
    refine ⟨keyed_initial h₀, ?_, ?_, ?_⟩ <;> obtain ⟨clock, ip, heap, rfl⟩ := h₀
    · exact List.nodup_nil
    · nofun
    · nofun
  exact exec_traced (I := Paced rule) (fun _ _ _ _ hs _ he => paced_step hs he) h (along_true w₀ es) hstart

section window

theorem Due.scanning (h : Due id w) : w.phase.scanning = true := by
  by_contra hrest
  obtain ⟨key, hkey, -⟩ := h
  rw [todo_nil (by simpa using hrest)] at hkey
  cases hkey

theorem tickBytes_nonneg {interval : Msec} (hlimit : 0 < rule.maxBandwidth) (hpos : 0 < interval) :
    0 ≤ tickBytes rule interval :=
  Int.tdiv_nonneg (Int.mul_pos hpos hlimit).le (by decide)

theorem ticked_nonneg (hlimit : 0 < rule.maxBandwidth) (w : World) (ev : Event) :
    ∀ c ∈ ticked rule w ev, 0 ≤ c := by
  intro c hc
  unfold ticked at hc
  split at hc
  · split at hc
    · rename_i hpos
      obtain rfl := List.mem_singleton.mp hc
      exact tickBytes_nonneg hlimit hpos
    · cases hc
  · cases hc

variable {ticks : List ℤ}

theorem due_nonneg (hlimit : 0 < rule.maxBandwidth) (hw : Paced rule w ticks) : 0 ≤ due rule id w := by
  unfold due
  split
  · rename_i hdue
    exact tickBytes_nonneg hlimit (hw.interval_pos hdue.scanning)
  · exact le_refl _

theorem due_le (hlimit : 0 < rule.maxBandwidth) (hw : Paced rule w ticks)
    (hinterval : w'.interval = w.interval) (hdue : Due id w' → Due id w) : due rule id w' ≤ due rule id w := by
  by_cases h' : Due id w'
  · unfold due
    rw [if_pos h', if_pos (hdue h'), hinterval]
  · have hnonneg : 0 ≤ due rule id w := due_nonneg hlimit hw
    unfold due at hnonneg ⊢
    rw [if_neg h']
    exact hnonneg

theorem credits_visit (cfg : Config) (key : Endpoint) (hrule : ∀ e ∈ w.epts id, e.proxyRule = rule) :
    credits cfg id w (.visit key) = [] ∨
      w.endpoints.lookup key = some id ∧ credits cfg id w (.visit key) = [tickBytes rule w.interval] := by
  unfold credits
  dsimp only
  split
  · rename_i hlookup
    split
    · rename_i e he
      split
      · exact .inl rfl
      · rw [hrule e he]
        exact .inr ⟨hlookup, rfl⟩
    · exact .inl rfl
  · exact .inl rfl

theorem due_step (hlimit : 0 < rule.maxBandwidth) (hw : Paced rule w ticks)
    (hrule : ∀ e ∈ w.epts id, e.proxyRule = rule) (h : step cfg w ev = some w') :
    (credits cfg id w ev).sum + due rule id w' ≤ due rule id w + (ticked rule w ev).sum := by
  have hticked : 0 ≤ (ticked rule w ev).sum := List.sum_nonneg (ticked_nonneg hlimit w ev)
  have hdue : 0 ≤ due rule id w := due_nonneg hlimit hw
  have hnil : (∀ key, ev ≠ .visit key) → credits cfg id w ev = [] := by
    intro hvisit
    cases ev with
    | visit key => exact absurd rfl (hvisit key)
    | _ => rfl
  cases scans_step h with
  | tick hev hphase hpos hinterval htodo =>
    rw [hnil (by rw [hev]; nofun), List.sum_nil, hev, ticked, if_pos hpos, List.sum_singleton, ← hinterval]
    have hnonneg : 0 ≤ tickBytes rule w'.interval := tickBytes_nonneg hlimit (by rwa [hinterval])
    have hle : due rule id w' ≤ tickBytes rule w'.interval := by
      unfold due
      split <;> omega
    omega
  | rest hvisit hphase' =>
    have hzero : due rule id w' = 0 := if_neg fun h' => by
      rw [h'.scanning] at hphase'
      cases hphase'
    rw [hnil hvisit, List.sum_nil, hzero]
    omega
  | @visit key hev hphase hkey hinterval hlookup htodo =>
    subst hev
    have hback : Due id w' → ∃ k ∈ (todo w.phase).erase key, w.endpoints.lookup k = some id := by
      rintro ⟨k, hk, hid⟩
      rw [htodo] at hk
      exact ⟨k, hk, hlookup k id hid⟩
    rcases credits_visit cfg key hrule with hcredits | ⟨hid, hcredits⟩
    · have hle : due rule id w' ≤ due rule id w := by
        apply due_le hlimit hw hinterval
        intro h'
        obtain ⟨k, hk, hkid⟩ := hback h'
        exact ⟨k, List.mem_of_mem_erase hk, hkid⟩
      rw [hcredits, List.sum_nil]
      omega
    · have hnow : due rule id w = tickBytes rule w.interval := if_pos ⟨key, hkey, hid⟩
      have hlater : due rule id w' = 0 := if_neg fun h' => by
        obtain ⟨k, hk, hkid⟩ := hback h'
        obtain rfl := hw.keyed.mapped.unique hw.keyed.mapped hkid hid
        exact (List.Nodup.not_mem_erase hw.nodup) hk
      rw [hcredits, List.sum_singleton, hlater, hnow]
      omega
  | stay hvisit hphase hinterval hendpoints htodo =>
    have hle : due rule id w' ≤ due rule id w := by
      apply due_le hlimit hw hinterval
      rintro ⟨k, hk, hkid⟩
      exact ⟨k, by rwa [← htodo], by rwa [← hendpoints]⟩
    rw [hnil hvisit, List.sum_nil]
    omega

end window

section conformance

variable {start : ℤ} {xs : List TokenBucket.Op} {i : PairId}

def cost (msgs : List UdpMsg) : ℤ := (msgs.map UdpMsg.cost).sum

def Filled (id : EptId) (i : PairId) (start : ℤ) (w : World) (xs : List TokenBucket.Op) : Prop :=
  ∃ level, exec TokenBucket.step start xs = some level ∧
    (∀ e, w.epts id = some e → budget i e = level) ∧ (w.nextEpt ≤ id → level = 0)

theorem budget_new (hnew : id = w.nextEpt) (hk : Keyed w) (h : Became cfg w ev id e') (i : PairId) :
    budget i e' = 0 := by
  have hnone : w.epts id = none := hk.fresh id hnew.ge
  have hdead : ∀ e, w.epts id ≠ some e := by simp [hnone]
  cases h with
  | @added rule outcome =>
    obtain ⟨s, t, heq⟩ := create_eq (fun _ => 0) rule w.nextBuf outcome w.clock
    rw [heq]
    unfold budget
    split <;> rfl
  | @made outcome key rid msg e =>
    obtain ⟨s, t, heq⟩ := create_eq cfg.bandwidth (World.clientRule e.proxyRule msg.src) w.nextBuf
      outcome w.clock
    rw [heq, pushSend_eq]
    unfold budget
    split <;> rfl
  | same he => exact absurd he (hdead _)
  | credited hev hphase hkey hlookup he => exact absurd he (hdead _)
  | popped hev hphase he => exact absurd he (hdead _)
  | handed hev hpop hne hsender he => exact absurd he (hdead _)
  | restarted hev herror hsend he => exact absurd he (hdead _)
  | sent hev hsend he => exact absurd he (hdead _)
  | stopped hev hphase he => exact absurd he (hdead _)
  | arrived hev he => exact absurd he (hdead _)
  | failed hev he => exact absurd he (hdead _)
  | handled hev he => exact absurd he (hdead _)

theorem filled_step {f : World → Event → List TokenBucket.Op} (hk : Keyed w)
    (hnone : w.epts id = none → f w ev = [])
    (hsome : ∀ e, w.epts id = some e → ∃ level, exec TokenBucket.step (budget i e) (f w ev) = some level ∧
      ∀ e', w'.epts id = some e' → budget i e' = level)
    (hw : Filled id i start w xs) (h : step cfg w ev = some w') : Filled id i start w' (xs ++ f w ev) := by
  obtain ⟨level, hexec, hlevel, hzero⟩ := hw
  cases he : w.epts id with
  | none =>
    refine ⟨level, by rw [hnone he, List.append_nil]; exact hexec, ?_, ?_⟩
    · intro e' he'
      obtain ⟨e, he₁, -⟩ | ⟨hnew, -⟩ := (became_step hk h he').params
      · rw [he] at he₁
        cases he₁
      · rw [hzero hnew.ge]
        exact budget_new hnew hk (became_step hk h he') i
    · exact fun hle => hzero ((nextEpt_step h).trans hle)
  | some e =>
    obtain ⟨level', hexec', hlevel'⟩ := hsome e he
    refine ⟨level', exec_append_some.mpr ⟨level, hexec, by rw [← hlevel e he]; exact hexec'⟩, hlevel', ?_⟩
    intro hle
    exact absurd (hk.lt_nextEpt he) (not_lt.mpr ((nextEpt_step h).trans hle))

theorem bucket_kept (hk : Keyed w) (hlimit : limited e = true) (he : w.epts id = some e)
    (h : step cfg w ev = some w') (i : PairId) :
    ∃ level, exec TokenBucket.step (budget i e) (ops cfg id i w ev) = some level ∧
      ∀ e', w'.epts id = some e' → budget i e' = level := by
  obtain ⟨level, hlevel⟩ := ops_exec cfg ev he i
  refine ⟨level, hlevel, fun e' he' => ?_⟩
  rw [bucket_step hk hlimit he h he' i] at hlevel
  exact Option.some.inj hlevel

theorem filled_run (hk : Keyed w) (hlimit : Along (step cfg) (fun w _ => ∀ e, w.epts id = some e →
    limited e = true) w es) (hw : Filled id i start w xs) (h : exec (step cfg) w es = some w') :
    Filled id i start w' (xs ++ trace (step cfg) (ops cfg id i) w es) := by
  refine keyed_traced (I := Filled id i start) ?_ hk h hlimit hw
  intro w ev w' xs hk hlimit hw hstep
  exact filled_step hk (fun he => ops_none hk he i) (fun e he => bucket_kept hk (hlimit e he) he hstep i) hw hstep

theorem cost_traffic {msg : UdpMsg} (hsized : ∀ id e, w.epts id = some e → Sized e)
    (hmsg : msg ∈ traffic cfg id i w ev) : 0 ≤ msg.cost ∧ msg.cost ≤ maxCost := by
  have hsize : msg.msg.bufSize ≤ udpBufferSize := by
    unfold traffic at hmsg
    split at hmsg
    · obtain ⟨outcome, -, hsend⟩ := mem_delivered.mp hmsg
      obtain ⟨todo, e, -, he, hverdict⟩ := sending_cases hsend
      obtain ⟨rest, hqueue, -⟩ := sendVerdict_take hverdict
      exact (hsized id e he).2 msg (by simp [hqueue])
    · obtain ⟨outcome, key, -, hpop⟩ := mem_popped.mp hmsg
      obtain ⟨e, he, hin⟩ := popping_head hpop
      exact (hsized id e he).2 msg (List.mem_append_left _ hin)
  unfold UdpMsg.cost maxCost udpPacketExtraOverhead
  omega

theorem op_within {ticks : List ℤ} {op : TokenBucket.Op} (hlimit : 0 < rule.maxBandwidth)
    (hpaced : Paced rule w ticks) (hsized : ∀ id e, w.epts id = some e → Sized e)
    (hrule : ∀ e ∈ w.epts id, e.proxyRule = rule) (h : step cfg w ev = some w')
    (hop : op ∈ ops cfg id i w ev) : op.Within (TokenBucket.largest ticks) maxCost := by
  rcases List.mem_append.mp hop with hop | hop
  · obtain ⟨c, hc, rfl⟩ := List.mem_map.mp hop
    have hvisit : ∃ key, ev = .visit key := by
      cases ev with
      | visit key => exact ⟨key, rfl⟩
      | _ => cases hc
    obtain ⟨key, rfl⟩ := hvisit
    have hscan : w.phase.scanning = true := by
      cases scans_step h with
      | visit hev hphase => exact hphase
      | tick hev => cases hev
      | rest hvisit => exact absurd rfl (hvisit key)
      | stay hvisit => exact absurd rfl (hvisit key)
    obtain hcredits | ⟨-, hcredits⟩ := credits_visit cfg key hrule
    · rw [hcredits] at hc
      cases hc
    · rw [hcredits] at hc
      obtain rfl := List.mem_singleton.mp hc
      exact ⟨tickBytes_nonneg hlimit (hpaced.interval_pos hscan),
        TokenBucket.le_largest _ (hpaced.counted hscan)⟩
  · obtain ⟨c, hc, rfl⟩ := List.mem_map.mp hop
    obtain ⟨msg, hmsg, rfl⟩ := List.mem_map.mp hc
    exact cost_traffic hsized hmsg

theorem ops_within {as bs : List Event} (h₀ : Initial w₀) (hmet : Meets cfg w₀ (as ++ bs) id rule)
    (hlimit : 0 < rule.maxBandwidth) (ha : exec (step cfg) w₀ as = some w)
    (hb : exec (step cfg) w bs = some w') {op : TokenBucket.Op}
    (hop : op ∈ trace (step cfg) (ops cfg id i) w bs) :
    op.Within (TokenBucket.largest (trace (step cfg) (ticked rule) w₀ (as ++ bs))) maxCost := by
  obtain ⟨ps, ev, qs, u, v, rfl, hu, hstep, hop⟩ := (mem_trace hb).mp hop
  have hreach : exec (step cfg) w₀ (as ++ ps) = some u := exec_append_some.mpr ⟨w, ha, hu⟩
  have hrule : ∀ e ∈ u.epts id, e.proxyRule = rule :=
    fun e he => hmet.rule h₀ (List.append_assoc as ps (ev :: qs)).symm hreach he
  have hpaced : Paced rule u (trace (step cfg) (ticked rule) w₀ (as ++ (ps ++ ev :: qs))) := by
    have hp : Paced rule u _ := paced_run h₀ hreach
    rw [← List.append_assoc, trace_append hreach]
    exact ⟨hp.keyed, hp.nodup, hp.interval_pos, fun hscan => List.mem_append_left _ (hp.counted hscan)⟩
  exact op_within hlimit hpaced (sized_run h₀ hreach) hrule hstep hop

theorem offered_ops (w : World) (es : List Event) :
    TokenBucket.offered (trace (step cfg) (ops cfg id i) w es) =
      (trace (step cfg) (credits cfg id) w es).sum :=
  sum_trace_congr (fun _ _ => TokenBucket.offered_map _ _) w es

theorem spent_ops (w : World) (es : List Event) :
    TokenBucket.spent (trace (step cfg) (ops cfg id i) w es) =
      cost (trace (step cfg) (traffic cfg id i) w es) := by
  unfold cost
  rw [trace_map]
  exact sum_trace_congr (fun _ _ => TokenBucket.spent_map _ _) w es

theorem credits_le (hlimit : 0 < rule.maxBandwidth) {ticks : List ℤ} (hpaced : Paced rule w ticks)
    (hrule : Along (step cfg) (fun w _ => ∀ e ∈ w.epts id, e.proxyRule = rule) w es)
    (h : exec (step cfg) w es = some w') :
    (trace (step cfg) (credits cfg id) w es).sum + due rule id w' ≤
      due rule id w + (trace (step cfg) (ticked rule) w es).sum := by
  apply sum_trace_le (I := fun w => ∃ ticks, Paced rule w ticks) _ _ h hrule ⟨ticks, hpaced⟩
  · rintro w ev w' ⟨ticks, hw⟩ - hstep
    exact ⟨_, paced_step hw hstep⟩
  · rintro w ev w' ⟨ticks, hw⟩ hrule hstep
    exact due_step hlimit hw hrule hstep

theorem credits_window (h₀ : Initial w₀) (h₁ : exec (step cfg) w₀ before = some w₁)
    (h₂ : exec (step cfg) w₁ window = some w₂) (hmet : Meets cfg w₀ (before ++ window) id rule)
    (hlimit : 0 < rule.maxBandwidth) (hstart : w₁.phase.scanning = false) :
    (trace (step cfg) (credits cfg id) w₁ window).sum ≤ (trace (step cfg) (ticked rule) w₁ window).sum := by
  have hrules : Along (step cfg) (fun w _ => ∀ e ∈ w.epts id, e.proxyRule = rule) w₀ (before ++ window) :=
    along_of_prefixes fun as bs u hes hu e he => hmet.rule h₀ hes hu he
  rw [along_append h₁] at hrules
  have hpaid := credits_le hlimit (paced_run h₀ h₁) hrules.2 h₂
  have hrest : due rule id w₁ = 0 := if_neg fun h => by
    rw [h.scanning] at hstart
    cases hstart
  have hdue : 0 ≤ due rule id w₂ :=
    due_nonneg hlimit (paced_run h₀ (exec_append_some.mpr ⟨w₁, h₁, h₂⟩))
  omega

theorem limited_along (h₀ : Initial w₀) (hmet : Meets cfg w₀ es id rule) (hclient : rule.srcPort = 0)
    (hlimit : 0 < rule.maxBandwidth) :
    Along (step cfg) (fun w _ => ∀ e, w.epts id = some e → limited e = true) w₀ es := by
  apply along_of_prefixes
  intro as bs u hes hu e he
  have hrule : e.proxyRule = rule := hmet.rule h₀ hes hu he
  have hflag := serverFlag_run h₀ hu id e he
  rw [hrule, hclient] at hflag
  simp [limited, hflag, hrule, hlimit]

theorem datagram_window (h₀ : Initial w₀) (h₁ : exec (step cfg) w₀ before = some w₁)
    (h₂ : exec (step cfg) w₁ window = some w₂) (hmet : Meets cfg w₀ (before ++ window) id rule)
    (hclient : rule.srcPort = 0) (hlimit : 0 < rule.maxBandwidth) (hstart : w₁.phase.scanning = false)
    (i : PairId) :
    cost (trace (step cfg) (traffic cfg id i) w₁ window) ≤
      (trace (step cfg) (ticked rule) w₁ window).sum +
        max 0 (TokenBucket.largest (trace (step cfg) (ticked rule) w₀ (before ++ window)) - 1) +
        udpBufferSize + udpPacketExtraOverhead ∧
    ∀ e, w₂.epts id = some e → -(udpBufferSize + udpPacketExtraOverhead) ≤ budget i e ∧
      budget i e ≤
        max 0 (TokenBucket.largest (trace (step cfg) (ticked rule) w₀ (before ++ window)) - 1) := by
  have hlimited := limited_along h₀ hmet hclient hlimit
  rw [along_append h₁] at hlimited
  have hempty : Filled id i 0 w₀ [] := by
    obtain ⟨clock, ip, heap, rfl⟩ := h₀
    refine ⟨0, rfl, ?_, fun _ => rfl⟩
    intro e he
    cases he
  obtain ⟨level₁, hexec₁, hlevel₁, hzero₁⟩ := filled_run (keyed_initial h₀) hlimited.1 hempty h₁
  have hagain : Filled id i level₁ w₁ [] := ⟨level₁, rfl, hlevel₁, hzero₁⟩
  obtain ⟨level₂, hexec₂, hlevel₂, -⟩ := filled_run (keyed_run h₀ h₁) hlimited.2 hagain h₂
  rw [List.nil_append] at hexec₁ hexec₂
  have hwithin : ∀ op ∈ trace (step cfg) (ops cfg id i) w₁ window, op.Within _ maxCost :=
    fun op hop => ops_within h₀ hmet hlimit h₁ h₂ hop
  have hbound : TokenBucket.Bounded (TokenBucket.largest (trace (step cfg) (ticked rule) w₀
      (before ++ window))) maxCost level₁ := by
    refine TokenBucket.bounded_exec (TokenBucket.bounded_zero (by decide)) ?_ hexec₁
    intro op hop
    have hmet' : Meets cfg w₀ ([] ++ (before ++ window)) id rule := hmet
    refine ops_within h₀ hmet' hlimit rfl (exec_append_some.mpr ⟨w₁, h₁, h₂⟩) (i := i) ?_
    rw [trace_append h₁]
    exact List.mem_append_left _ hop
  have hspent := TokenBucket.spent_window hbound hwithin hexec₂
  have hend := TokenBucket.bounded_exec hbound hwithin hexec₂
  have hcredits := credits_window h₀ h₁ h₂ hmet hlimit hstart
  rw [spent_ops, offered_ops] at hspent
  refine ⟨?_, ?_⟩
  · unfold maxCost at hspent
    omega
  · intro e he
    rw [hlevel₂ e he]
    exact hend

end conformance

def slow : UdpProxyRule := ⟨53, ⟨1, 53⟩, 100, 0, 0⟩

def opening : List Event :=
  [.addServerProxy slow .success, .start, .arrive 0 1 ⟨9, 4000⟩ [7], .handleRecv 0 ⟨1, .success, 1⟩ 1 .success,
    .clock 20, .tick, .visit ⟨1, 53⟩, .relay .success, .relay .success, .merge, .enter ⟨1, 53⟩,
    .flush .success .success, .enter ⟨9, 4000⟩, .flush .success .success, .flush .success .success, .rest]

def secondTick : List Event :=
  [.arrive 0 2 ⟨9, 4000⟩ [8, 9], .handleRecv 0 ⟨2, .success, 2⟩ 1 .success, .clock 460, .tick,
    .visit ⟨1, 53⟩, .relay .success, .relay .success, .visit ⟨9, 4000⟩, .relay .success, .merge,
    .enter ⟨9, 4000⟩, .flush .success .success, .flush .success .success]

set_option maxRecDepth 4000 in
theorem datagram_window_secondTick :
    cost (trace (step plain) (traffic plain 1 0) (after plain UdpServer.start opening) secondTick) = 44 ∧
    cost (trace (step plain) (traffic plain 1 0) (after plain UdpServer.start opening) secondTick) ≤
      44 + 43 + 1500 + 42 := by
  have hopening : exec (step plain) UdpServer.start opening = some (after plain UdpServer.start opening) := rfl
  have hsecond : exec (step plain) (after plain UdpServer.start opening) secondTick =
    some (after plain UdpServer.start (opening ++ secondTick)) := rfl
  have hmet : Meets plain UdpServer.start (opening ++ secondTick) 1 (World.clientRule slow ⟨9, 4000⟩) :=
    ⟨opening, secondTick, _, _, rfl, hopening, rfl, rfl⟩
  exact ⟨by decide, (datagram_window initial_start hopening hsecond hmet rfl (by decide) rfl 0).1⟩

end TcpUdpProxy.UdpServer
