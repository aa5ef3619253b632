import TcpUdpProxy.UdpBudget

namespace TcpUdpProxy.UdpServer

open UdpEndpointProxy Execution

variable {cfg : Config} {w w' w₀ : World} {ev : Event} {id : EptId} {e e' : UdpEndpointProxy}
  {es fs : List Event} {todo : List Endpoint}

theorem restart_eq_server (hserver : e.serverFlag = true) (outcome : InitOutcome) (now : Msec) :
    e.restart outcome now = init outcome now e.stop := if_pos hserver

theorem sendAvail_run (h₀ : Initial w₀) (h : exec (step cfg) w₀ es = some w) :
    ∀ id e, w.epts id = some e → e.serverFlag = true → e.sendAvailBytes = 0 := by
  apply endpoints_run (P := fun e => e.serverFlag = true → e.sendAvailBytes = 0) _ h₀ h
  intro w ev id e' hk hw hbecame hserver
  cases hbecame with
  | same he => exact hw id _ he hserver
  | @added rule outcome =>
    obtain ⟨s, t, heq⟩ := create_eq (fun _ => 0) rule w.nextBuf outcome w.clock
    rw [heq]
  | @made outcome key rid msg e =>
    obtain ⟨s, t, heq⟩ := create_eq cfg.bandwidth (World.clientRule e.proxyRule msg.src) w.nextBuf
      outcome w.clock
    rw [heq, pushSend_eq]
  | @credited key todo e hev hphase hkey hlookup he =>
    have hflag : e.serverFlag = true := by
      unfold credit at hserver
      split at hserver <;> exact hserver
    have hlimit : limited e = false := by simp [limited, hflag]
    rw [show credit w.interval e = e from if_neg (by simp [hlimit])]
    exact hw id e he hflag
  | @popped outcome key todo e msg hev hphase he =>
    obtain ⟨s, f, heq⟩ := popRecv_eq (debitRecv msg e)
    rw [heq] at hserver ⊢
    have hsame : (debitRecv msg e).serverFlag = e.serverFlag ∧
        (debitRecv msg e).sendAvailBytes = e.sendAvailBytes := by
      unfold debitRecv
      split <;> exact ⟨rfl, rfl⟩
    exact hsame.2.trans (hw id e he (hsame.1.symm.trans hserver))
  | @handed outcome key rid msg e hev hpop hne hsender he =>
    obtain ⟨t, heq⟩ := touch_eq w.now e
    rw [pushSend_eq, heq] at hserver ⊢
    exact hw id e he hserver
  | @restarted error outcome msg e hev herror hsend he =>
    obtain ⟨s, t, heq⟩ := restart_eq outcome w.clock e
    rw [heq] at hserver ⊢
    exact hw id e he hserver
  | @sent outcome msg e hev hsend he =>
    have hlimit : limited e = false := by simp [limited, show e.serverFlag = true from hserver]
    simp only [UdpServer.sent, hlimit, Bool.false_eq_true, if_false]
    exact hw id e he hserver
  | @stopped e hev hphase he => exact hw id e he hserver
  | @arrived buf src data e hev he => exact hw id e he hserver
  | @failed buf error e hev he => exact hw id e he hserver
  | @handled r draw outcome e hev he =>
    rcases handled_cases w r draw outcome e with ⟨s, t, heq⟩ | ⟨-, -, s, f, heq⟩
    · rw [heq] at hserver ⊢
      exact hw id e he hserver
    · rw [heq] at hserver ⊢
      exact hw id e he hserver

theorem sendVerdict_server {msg : UdpMsg} {rest : List UdpMsg} (hserver : e.serverFlag = true)
    (havail : e.sendAvailBytes = 0) (hqueue : e.sendQueue = msg :: rest) :
    sendVerdict cfg w e = .take msg := by
  simp [sendVerdict, hqueue, havail, ipGate, hserver]

/-- The first call of `send_to` and of `init` in the pass, with what the clock shows then. -/
def firstAttempt : Msec → List Event → Option (ErrorCode × InitOutcome × Msec)
  | clock, .flush error outcome :: _ => some (error, outcome, clock)
  | _, .clock now :: es => firstAttempt now es
  | clock, _ :: es => firstAttempt clock es
  | _, [] => none

structure Flushing (id : EptId) (todo : List Endpoint) (w : World) (e : UdpEndpointProxy) : Prop where
  phase : w.phase = .flush id todo
  live : w.epts id = some e
  server : e.serverFlag = true
  avail : e.sendAvailBytes = 0

theorem live_modify {f : UdpEndpointProxy → UdpEndpointProxy} {id' : EptId}
    (h : (w.epts id).isSome = true) : ((w.modify id' f).epts id).isSome = true := by
  unfold World.modify
  by_cases hid : id = id'
  · subst hid
    simpa using h
  · simpa [Function.update_of_ne hid] using h

theorem flush_apart {phase : Phase} (hphase : w.phase = .flush id todo) (h : w.phase = phase)
    (hne : ∀ id todo, phase ≠ .flush id todo) : False :=
  hne id todo (h.symm.trans hphase)

theorem live_step (hphase : w.phase = .flush id todo) (h : step cfg w ev = some w')
    (hlive : (w.epts id).isSome = true) : (w'.epts id).isSome = true ∧
      ((∀ error outcome, ev ≠ .flush error outcome) → w'.phase = w.phase) := by
  cases step_cases h with
  | addServerProxy hphase' | start hphase' | early hphase' | tick hphase' | expire hphase' | lock hphase'
  | unlock hphase' | relayFault hphase' | transfer hphase' | merge hphase' | enter hphase' | rest hphase'
  | stop hphase' => exact (flush_apart hphase hphase' (by nofun)).elim
  | leave => exact ⟨hlive, fun hquiet => absurd rfl (hquiet _ _)⟩
  | flushFault => exact ⟨hlive, fun _ => rfl⟩
  | restart => exact ⟨live_modify hlive, fun hquiet => absurd rfl (hquiet _ _)⟩
  | sent => exact ⟨live_modify hlive, fun _ => rfl⟩
  | arrive => exact ⟨live_modify hlive, fun _ => rfl⟩
  | fail => exact ⟨live_modify hlive, fun _ => rfl⟩
  | @handleRecv id' r draw outcome e he hr =>
    refine ⟨?_, fun _ => rfl⟩
    by_cases hid : id = id'
    · subst hid
      simp
    · simpa [Function.update_of_ne hid] using hlive
  | clock => exact ⟨hlive, fun _ => rfl⟩
  | ip => exact ⟨hlive, fun _ => rfl⟩

theorem flushing_quiet (hk : Keyed w) (hw : Flushing id todo w e) (h : step cfg w ev = some w')
    (hquiet : ∀ error outcome, ev ≠ .flush error outcome) :
    ∃ e', Flushing id todo w' e' ∧ e'.sendQueue = e.sendQueue := by
  obtain ⟨hlive, hphase⟩ := live_step hw.phase h (by rw [hw.live]; rfl)
  obtain ⟨e', he'⟩ := Option.isSome_iff_exists.mp hlive
  have hphase' : w'.phase = .flush id todo := (hphase hquiet).trans hw.phase
  have hkept : ∀ e₁, w.epts id = some e₁ → e'.serverFlag = e₁.serverFlag →
      e'.sendAvailBytes = e₁.sendAvailBytes → e'.sendQueue = e₁.sendQueue →
      ∃ e', Flushing id todo w' e' ∧ e'.sendQueue = e.sendQueue := by
    intro e₁ he₁ hserver havail hqueue
    rw [hw.live] at he₁
    cases he₁
    exact ⟨e', ⟨hphase', he', hserver.trans hw.server, havail.trans hw.avail⟩, hqueue⟩
  cases became_step hk h he' with
  | same he => exact hkept _ he rfl rfl rfl
  | added hev hphase => exact (flush_apart hw.phase hphase (by nofun)).elim
  | credited hev hphase => exact (flush_apart hw.phase hphase (by nofun)).elim
  | popped hev hphase => exact (flush_apart hw.phase hphase (by nofun)).elim
  | handed hev hpop =>
    obtain ⟨todo', e₁, hphase, -⟩ := popping_cases hpop
    exact (flush_apart hw.phase hphase (by nofun)).elim
  | made hev hpop =>
    obtain ⟨todo', e₁, hphase, -⟩ := popping_cases hpop
    exact (flush_apart hw.phase hphase (by nofun)).elim
  | restarted hev => exact absurd hev (hquiet _ _)
  | sent hev => exact absurd hev (hquiet _ _)
  | stopped hev hphase => exact (flush_apart hw.phase hphase (by nofun)).elim
  | arrived hev he => exact hkept _ he rfl rfl rfl
  | failed hev he => exact hkept _ he rfl rfl rfl
  | @handled r draw outcome e₁ hev he =>
    rcases handled_cases w r draw outcome e₁ with ⟨s, t, heq⟩ | ⟨-, -, s, f, heq⟩
    · exact hkept e₁ he (by rw [heq]) (by rw [heq]) (by rw [heq])
    · exact hkept e₁ he (by rw [heq]) (by rw [heq]) (by rw [heq])

theorem restart_server (hserver : e.serverFlag = true) (outcome : InitOutcome) (now : Msec) :
    (e.restart outcome now).sendQueue = e.sendQueue ∧
      (e.restart outcome now).activeTm = if outcome = .success then now else 0 := by
  rw [restart_eq_server hserver]
  cases outcome <;> exact ⟨rfl, rfl⟩

inductive Flushed (todo : List Endpoint) (id : EptId) (error : ErrorCode) (outcome : InitOutcome)
    (w : World) (e : UdpEndpointProxy) (w' : World) : Prop
  | finished (hphase : w'.phase = .send todo) (hlive : w'.epts id = some e) (hqueue : e.sendQueue = [])
  | failed {e₁ : UdpEndpointProxy} (hphase : w'.phase = .send todo) (hlive : w'.epts id = some e₁)
      (herror : error ≠ .success) (hqueue : e₁.sendQueue = e.sendQueue)
      (hactive : e₁.activeTm = if outcome = .success then w.clock else 0)
  | sent {e₁ : UdpEndpointProxy} {msg : UdpMsg} (hnext : Flushing id todo w' e₁) (herror : error = .success)
      (hqueue : e.sendQueue = msg :: e₁.sendQueue)

theorem flushed_step {error : ErrorCode} {outcome : InitOutcome} (hw : Flushing id todo w e)
    (h : step cfg w (.flush error outcome) = some w') : Flushed todo id error outcome w e w' := by
  obtain ⟨-, hrun⟩ := run_of_step h
  simp only [run, flush, hw.phase, hw.live, Option.map_some, Option.some.injEq] at hrun
  cases hqueue : e.sendQueue with
  | nil =>
    simp only [sendVerdict, hqueue] at hrun
    subst hrun
    exact .finished rfl hw.live hqueue
  | cons msg rest =>
    rw [sendVerdict_server hw.server hw.avail hqueue] at hrun
    obtain ⟨ip, hip⟩ := payIp_eq cfg 0 e msg.cost w
    simp only [hip] at hrun
    split at hrun
    · rename_i herror
      subst hrun
      obtain ⟨hsame, hactive⟩ := restart_server hw.server outcome w.clock
      exact .failed rfl (by simp [World.modify, hw.live]) herror hsame hactive
    · rename_i herror
      subst hrun
      have hlimit : limited e = false := by simp [limited, hw.server]
      have hnext : Flushing id todo { w.modify id (sent msg) with ip := ip } (sent msg e) :=
        ⟨hw.phase, by simp [World.modify, hw.live], hw.server, by simp [sent, hlimit, hw.avail]⟩
      have hcons : e.sendQueue = msg :: (sent msg e).sendQueue := by simp [sent, hqueue]
      exact .sent hnext (not_ne_iff.mp herror) hcons

theorem along_left (hphase : w.phase = .send todo)
    (hin : Along (step cfg) (fun v _ => v.phase = .flush id todo) w es) : es = [] := by
  cases es with
  | nil => rfl
  | cons ev es =>
    have hflush : w.phase = .flush id todo := hin.1
    rw [hphase] at hflush
    cases hflush

theorem sendQueue_shrinks (hk : Keyed w) (hw : Flushing id todo w e)
    (h : exec (step cfg) w fs = some w')
    (hin : Along (step cfg) (fun v _ => v.phase = .flush id todo) w fs) :
    ∃ e', w'.epts id = some e' ∧ e'.sendQueue.length ≤ e.sendQueue.length := by
  induction fs generalizing w e with
  | nil =>
    cases h
    exact ⟨e, hw.live, le_refl _⟩
  | cons ev fs ih =>
    obtain ⟨u, hu, hrest⟩ := exec_cons_some.mp h
    rw [along_cons hu] at hin
    have hku := keyed_step hk (step_cases hu)
    by_cases hflush : ∃ error outcome, ev = .flush error outcome
    · obtain ⟨error, outcome, rfl⟩ := hflush
      cases flushed_step hw hu with
      | finished hphase hlive =>
        rw [along_left hphase hin.2] at hrest
        cases hrest
        exact ⟨e, hlive, le_refl _⟩
      | @failed e' hphase hlive herror hqueue =>
        rw [along_left hphase hin.2] at hrest
        cases hrest
        exact ⟨e', hlive, by rw [hqueue]⟩
      | sent hnext herror hqueue =>
        obtain ⟨e', he', hle⟩ := ih hku hnext hrest hin.2
        refine ⟨e', he', ?_⟩
        rw [hqueue, List.length_cons]
        omega
    · obtain ⟨e₁, hnext, hqueue⟩ := flushing_quiet hk hw hu fun error outcome hev =>
        hflush ⟨error, outcome, hev⟩
      obtain ⟨e', he', hle⟩ := ih hku hnext hrest hin.2
      exact ⟨e', he', by rwa [← hqueue]⟩

theorem firstAttempt_quiet (hphase : w.phase = .flush id todo) (h : step cfg w ev = some w')
    (hquiet : ∀ error outcome, ev ≠ .flush error outcome) (fs : List Event) :
    firstAttempt w.clock (ev :: fs) = firstAttempt w'.clock fs := by
  cases step_cases h with
  | addServerProxy hphase' | start hphase' | early hphase' | tick hphase' | expire hphase' | lock hphase'
  | unlock hphase' | relayFault hphase' | transfer hphase' | merge hphase' | enter hphase' | rest hphase'
  | stop hphase' => exact (flush_apart hphase hphase' (by nofun)).elim
  | leave | flushFault | restart | sent => exact absurd rfl (hquiet _ _)
  | arrive | fail | handleRecv | clock | ip => rfl

theorem sendPass_cases (hk : Keyed w) (hw : Flushing id todo w e) (hqueue : e.sendQueue ≠ [])
    (h : exec (step cfg) w fs = some w')
    (hin : Along (step cfg) (fun v _ => v.phase = .flush id todo) w fs) (hend : w'.phase = .send todo) :
    ∃ error outcome now e', firstAttempt w.clock fs = some (error, outcome, now) ∧
      w'.epts id = some e' ∧
      (error ≠ .success ∧ e'.sendQueue = e.sendQueue ∧
          e'.activeTm = (if outcome = .success then now else 0) ∨
        error = .success ∧ e'.sendQueue.length < e.sendQueue.length) := by
  induction fs generalizing w e with
  | nil =>
    cases h
    rw [hw.phase] at hend
    cases hend
  | cons ev fs ih =>
    obtain ⟨u, hu, hrest⟩ := exec_cons_some.mp h
    rw [along_cons hu] at hin
    have hku := keyed_step hk (step_cases hu)
    by_cases hflush : ∃ error outcome, ev = .flush error outcome
    · obtain ⟨error, outcome, rfl⟩ := hflush
      cases flushed_step hw hu with
      | finished hphase hlive hnil => exact absurd hnil hqueue
      | @failed e' hphase hlive herror hsame hactive =>
        rw [along_left hphase hin.2] at hrest
        cases hrest
        exact ⟨error, outcome, w.clock, e', rfl, hlive, .inl ⟨herror, hsame, hactive⟩⟩
      | sent hnext herror hcons =>
        obtain ⟨e', he', hle⟩ := sendQueue_shrinks hku hnext hrest hin.2
        refine ⟨error, outcome, w.clock, e', rfl, he', .inr ⟨herror, ?_⟩⟩
        rw [hcons, List.length_cons]
        omega
    · have hquiet : ∀ error outcome, ev ≠ .flush error outcome :=
        fun error outcome hev => hflush ⟨error, outcome, hev⟩
      obtain ⟨e₁, hnext, hsame⟩ := flushing_quiet hk hw hu hquiet
      rw [firstAttempt_quiet hw.phase hu hquiet, ← hsame]
      exact ih hku hnext (by rwa [hsame]) hrest hin.2

theorem sendPass_iff (h₀ : Initial w₀) (h : exec (step cfg) w₀ es = some w)
    (hphase : w.phase = .flush id todo) (he : w.epts id = some e) (hserver : e.serverFlag = true)
    (hqueue : e.sendQueue ≠ []) (hpass : exec (step cfg) w fs = some w')
    (hin : Along (step cfg) (fun v _ => v.phase = .flush id todo) w fs) (hend : w'.phase = .send todo) :
    (∃ e', w'.epts id = some e' ∧ (e'.sendQueue.length < e.sendQueue.length ∨ e'.activeTm = 0)) ↔
      ∀ error outcome now, firstAttempt w.clock fs = some (error, outcome, now) →
        error = .success ∨ outcome ≠ .success ∨ now = 0 := by
  have hw : Flushing id todo w e := ⟨hphase, he, hserver, sendAvail_run h₀ h id e he hserver⟩
  obtain ⟨error, outcome, now, e', hfirst, he', hcases⟩ :=
    sendPass_cases (keyed_run h₀ h) hw hqueue hpass hin hend
  constructor
  · rintro ⟨e₁, he₁, hprogress⟩ error' outcome' now' hfirst'
    rw [hfirst] at hfirst'
    cases hfirst'
    rw [he'] at he₁
    cases he₁
    obtain ⟨herror, hsame, hactive⟩ | ⟨herror, -⟩ := hcases
    · rw [hsame, hactive] at hprogress
      by_cases houtcome : outcome = .success
      · simp only [houtcome, if_true, lt_irrefl, false_or] at hprogress
        exact .inr (.inr hprogress)
      · exact .inr (.inl houtcome)
    · exact .inl herror
  · intro hcond
    refine ⟨e', he', ?_⟩
    obtain ⟨herror, -, hactive⟩ | ⟨-, hlt⟩ := hcases
    · right
      rw [hactive]
      rcases hcond _ _ _ hfirst with hsuccess | houtcome | rfl
      · exact absurd hsuccess herror
      · exact if_neg houtcome
      · exact ite_self 0
    · exact .inl hlt

def answered : List Event :=
  receive ⟨9, 4000⟩ ++
    [.relay .success, .merge, .enter ⟨9, 4000⟩, .flush .success .success, .flush .success .success,
      .enter ⟨1, 53⟩, .flush .success .success, .rest, .arrive 1 3 ⟨1, 53⟩ [8],
      .handleRecv 1 ⟨3, .success, 1⟩ 1 .success, .clock 40, .tick, .visit ⟨9, 4000⟩, .relay .success,
      .relay .success, .visit ⟨1, 53⟩, .relay .success, .merge, .enter ⟨1, 53⟩]

set_option maxRecDepth 4000 in
theorem sendPass_iff_answered : ∃ e', (after plain start (answered ++
    [.flush .success .success, .flush .success .success])).epts 0 = some e' ∧
      (e'.sendQueue.length < 1 ∨ e'.activeTm = 0) := by
  have hrun : exec (step plain) start answered = some (after plain start answered) := rfl
  have hpass : exec (step plain) (after plain start answered) [.flush .success .success,
      .flush .success .success] = some (after plain start (answered ++
        [.flush .success .success, .flush .success .success])) := rfl
  have hin : Along (step plain) (fun v _ => v.phase = .flush 0 [⟨9, 4000⟩]) (after plain start answered)
      [.flush .success .success, .flush .success .success] := by decide
  refine (sendPass_iff initial_start hrun rfl rfl rfl (by decide) hpass hin rfl).mpr ?_
  rintro _ _ _ ⟨⟩
  exact .inl rfl

set_option maxRecDepth 4000 in
theorem sendPass_blocked : ¬ ∀ (cfg : Config) (w₀ w w' : World) (es fs : List Event) (id : EptId)
    (todo : List Endpoint) (e : UdpEndpointProxy), Initial w₀ → exec (step cfg) w₀ es = some w →
    w.phase = .flush id todo → w.epts id = some e → e.serverFlag = true → e.sendQueue ≠ [] →
    exec (step cfg) w fs = some w' → Along (step cfg) (fun v _ => v.phase = .flush id todo) w fs →
    w'.phase = .send todo →
    ∃ e', w'.epts id = some e' ∧ (e'.sendQueue.length < e.sendQueue.length ∨ e'.activeTm = 0) := by
  intro hclaim
  have hrun : exec (step plain) start answered = some (after plain start answered) := rfl
  have hpass : exec (step plain) (after plain start answered) [.flush (.other 22) .success] =
    some (after plain start (answered ++ [.flush (.other 22) .success])) := rfl
  have hin : Along (step plain) (fun v _ => v.phase = .flush 0 [⟨9, 4000⟩]) (after plain start answered)
      [.flush (.other 22) .success] := by decide
  obtain ⟨e', he', hprogress⟩ := hclaim plain start _ _ answered _ 0 _ _ initial_start hrun rfl rfl rfl
    (by decide) hpass hin rfl
  cases he'
  revert hprogress
  decide

end TcpUdpProxy.UdpServer
