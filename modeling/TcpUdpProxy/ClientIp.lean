import TcpUdpProxy.TcpCharges
import TcpUdpProxy.TcpIsolation
import TcpUdpProxy.UdpConfiguration

namespace TcpUdpProxy

def SharedData.Result.bandwidth (r : SharedData.Result) (i : PairId) : ℤ :=
  if i = 0 then r.sendBandwidth else r.recvBandwidth

def SharedData.Result.tcpConfig (r : SharedData.Result) (rule : TcpProxyRule) (tcpTimeout : Msec) :
    TcpProxy.Config := ⟨⟨rule, r.bandwidth⟩, tcpTimeout⟩

def SharedData.Result.udpConfig (r : SharedData.Result) (udpTimeout : Msec) : UdpServer.Config :=
  ⟨r.bandwidth, udpTimeout⟩

namespace TcpConnection

variable {proxy : ProxyView} {bandwidth : PairId → ℤ} {p : PairId} {f : Frame} {fault : Fault}
  {flushBytes : ℤ} {expireTime : Msec}

theorem flushPair_unset (h : flushPair proxy bandwidth flushBytes p f = .error fault) :
    f.conn.clientIp = none ∧ 0 < bandwidth (1 - p) := by
  rw [flushPair_eq] at h
  split at h
  · obtain ⟨-, hnone, hlimit⟩ := startWrite_error h
    have hsame : (creditPair proxy flushBytes p f).conn.clientIp = f.conn.clientIp :=
      (TcpMachine.stable_clientIp f.conn.clientIp).creditPair rfl
    rw [hsame] at hnone
    exact ⟨hnone, hlimit⟩
  · cases h

theorem flushMsgs_unset (h : flushMsgs proxy bandwidth flushBytes expireTime f = .error fault) :
    f.conn.clientIp = none ∧ ∃ i, 0 < bandwidth i := by
  unfold flushMsgs at h
  split at h
  · cases h
  · split at h
    · cases h
    · split at h
      · cases h
      · cases h0 : flushPair proxy bandwidth flushBytes 0 f with
        | error e =>
          obtain ⟨hnone, hlimit⟩ := flushPair_unset h0
          exact ⟨hnone, _, hlimit⟩
        | ok g =>
          have hsame := (TcpMachine.stable_clientIp f.conn.clientIp).toSteady.flushPair rfl h0
          rw [h0] at h
          cases h1 : flushPair proxy bandwidth flushBytes 1 g with
          | error e =>
            obtain ⟨hnone, hlimit⟩ := flushPair_unset h1
            rw [hsame] at hnone
            exact ⟨hnone, _, hlimit⟩
          | ok g' =>
            simp only [bind, Except.bind, h1] at h
            cases h

end TcpConnection

namespace TcpProxy

open TcpConnection TcpMachine Execution

def NonNull (cfg : Config) (w : World) (ev : Event) : Prop :=
  ∀ w', step cfg w ev = some w' → w'.fault ≠ some .nullPointer

section nonnull

variable {cfg : Config} {w w' : World} {s : Surroundings} {k : Completion} {rest : List Completion}
  {ev : Event} {es : List Entry} {io : Io} {fault : Fault} {error : ErrorCode}

theorem forEach_error {run : Entry → Except Fault (Bool × Frame)} (h : forEach run es io = .error fault) :
    ∃ e ∈ es, run e = .error fault := by
  induction es generalizing io with
  | nil => cases h
  | cons e es ih =>
    unfold forEach at h
    split at h
    next fault' hrun =>
      cases h
      exact ⟨e, List.mem_cons_self, hrun⟩
    next keep f hrun =>
      split at h
      next fault' hrest =>
        cases h
        obtain ⟨e', he', hfault⟩ := ih hrest
        exact ⟨e', List.mem_cons_of_mem e he', hfault⟩
      · cases h

theorem fault_stopAll : (stopAll s w).fault = w.fault := by
  obtain ⟨r, hr, -⟩ : ∃ r, forEach (fun e => .ok (true, TcpConnection.stop
      (e.frame s.availBytes))) w.tcpConnections w.io = .ok r ∧ ∀ e ∈ r.1, Stopped e := forEach_stop _ _
  unfold stopAll
  rw [hr]
  rfl

theorem fault_close : (w.close s).fault = w.fault :=
  fault_stopAll (w := { w.closeAcceptor with io := w.closeAcceptor.io.abort Job.isWait })

theorem fault_asyncWait : (w.asyncWait s).fault = w.fault := by
  unfold World.asyncWait
  dsimp only
  split
  · rfl
  · exact fault_close

theorem fault_start : (w.start s).fault = w.fault := by
  unfold World.start
  split
  · exact fault_asyncWait
  · rfl

theorem nonNull_of_none {fault : Option Fault} (h : fault = none) : fault ≠ some .nullPointer := by
  rw [h]
  nofun

theorem remoteEndpoint_error {socket : SocketState} (h : socket.remoteEndpoint = .error fault) :
    fault = .systemError := by
  cases socket <;> cases h <;> rfl

theorem nonNull_accept (hfault : w.fault = none) :
    (w.handleAccept cfg s error).fault ≠ some .nullPointer := by
  unfold World.handleAccept
  split
  · split
    · rw [fault_start]
      exact nonNull_of_none hfault
    · exact nonNull_of_none hfault
  · split
    next fault hsocket =>
      rw [remoteEndpoint_error hsocket]
      nofun
    · exact nonNull_of_none hfault

theorem nonNull_flush (hw : w.Tracked cfg) (hfault : w.fault = none) :
    (w.flush cfg s).fault ≠ some .nullPointer := by
  unfold World.flush
  dsimp only
  intro hnull
  unfold World.withLoop at hnull
  split at hnull
  · exact absurd (hnull.symm.trans hfault) nofun
  next fault hloop =>
    obtain ⟨e, he, hrun⟩ := forEach_error hloop
    obtain ⟨hnone, i, hlimit⟩ := flushMsgs_unset hrun
    obtain ⟨u, hu⟩ := hw.entries hfault e he
    rw [hu.client hnone i] at hlimit
    exact lt_irrefl 0 hlimit

theorem nonNull_wait (hw : w.Tracked cfg) (hfault : w.fault = none) :
    (w.handleWait cfg s error).fault ≠ some .nullPointer := by
  unfold World.handleWait
  split
  · exact nonNull_of_none hfault
  · split
    · rw [fault_close]
      exact nonNull_of_none hfault
    · have hwait : (w.asyncWait s).fault = none := fault_asyncWait.trans hfault
      dsimp only
      split
      · exact nonNull_of_none hwait
      · exact nonNull_flush (keeps_tracked.asyncWait hw) hwait

theorem nonNull_conn {id : ConnId} {op : TcpMachine.Op} (hw : w.Tracked cfg) (hfault : w.fault = none)
    (hjob : k.job = .conn id op) : (dispatch cfg s k (w.pop rest)).fault ≠ some .nullPointer := by
  have hpop : (w.pop rest).fault = none := hfault
  unfold dispatch
  rw [hjob]
  dsimp only
  split
  · split
    · exact nonNull_of_none hpop
    · intro hnull
      cases hnull
  next e hfind =>
    split
    next fault hf =>
      intro hnull
      cases hnull
      have he : e ∈ w.tcpConnections := (World.mem_of_find hfind).1
      obtain ⟨u, hu⟩ := hw.entries hfault e he
      cases op with
      | connect => cases hf
      | read p buf => cases hf
      | write p msg =>
        rcases handleWrite_error hf with ⟨heq, -⟩ | ⟨heq, -⟩ | ⟨-, -, hnone, hlimit⟩
        · cases heq
        · cases heq
        · rw [hu.client hnone] at hlimit
          exact lt_irrefl 0 hlimit
    · exact nonNull_of_none hfault

theorem nonNull_step (hw : w.Tracked cfg) : NonNull cfg w ev := by
  intro w' hstep
  unfold step at hstep
  split at hstep
  · cases hstep
  next hfault =>
    have hfault : w.fault = none := by simpa using hfault
    cases ev with
    | dispatch s =>
      simp only [run] at hstep
      split at hstep
      · cases hstep
      next k rest hready =>
        cases hstep
        cases hjob : k.job with
        | accept =>
          simp only [dispatch, hjob]
          exact nonNull_accept hfault
        | wait =>
          simp only [dispatch, hjob]
          have hpop : (w.pop rest).Tracked cfg :=
            keeps_tracked.same (by exact ⟨rfl, rfl, rfl, rfl, conns_pop hready (by rw [hjob]; rfl)⟩) hw
          exact nonNull_wait hpop hfault
        | conn id op => exact nonNull_conn hw hfault hjob
    | complete job error n =>
      simp only [run, Option.ite_none_right_eq_some, Option.some.injEq] at hstep
      obtain ⟨-, rfl⟩ := hstep
      exact nonNull_of_none hfault
    | disconnect id p =>
      obtain ⟨e, -, hstep⟩ := Option.bind_eq_some_iff.mp hstep
      simp only [Option.ite_none_right_eq_some, Option.some.injEq] at hstep
      obtain ⟨-, rfl⟩ := hstep
      exact nonNull_of_none hfault
    | disconnectAccepted =>
      simp only [run, Option.ite_none_right_eq_some, Option.some.injEq] at hstep
      obtain ⟨-, rfl⟩ := hstep
      exact nonNull_of_none hfault
    | stop =>
      cases hstep
      exact nonNull_of_none hfault
    | clock now =>
      cases hstep
      exact nonNull_of_none hfault

end nonnull

end TcpProxy

namespace UdpServer

open UdpEndpointProxy Execution

def NonNull (cfg : Config) (w : World) (ev : Event) : Prop :=
  ∀ w', step cfg w ev = some w' → w'.fault ≠ some .nullPointer

def asking (w : World) : Event → Option (EptId × PairId)
  | .relay _ =>
    match w.phase with
    | .relay key id _ =>
      (w.epts id).bind fun e => e.recvQueue.head?.bind fun msg =>
        if 0 ≤ e.recvAvailBytes ∧ msg.src ≠ key ∧ msg.time ≤ w.now then some (id, 1) else none
    | _ => none
  | .flush _ _ =>
    match w.phase with
    | .flush id _ =>
      (w.epts id).bind fun e => if e.sendQueue ≠ [] ∧ 0 ≤ e.sendAvailBytes then some (id, 0) else none
    | _ => none
  | _ => none

/-- Where a direction is limited, no endpoint is asked that was made for a line without a port to
listen on. -/
def AsksClients (cfg : Config) (rules : List UdpProxyRule) (w : World) (ev : Event) : Prop :=
  ∀ p ∈ asking w ev, 0 < cfg.bandwidth p.2 → ∀ rule ∈ rules[p.1]?, rule.srcPort ≠ 0

def NeverNull (r : SharedData.Result) (rule : TcpProxyRule) (tcpTimeout udpTimeout : Msec) (w₀ : World)
    (es : List Event) : Prop :=
  (∀ v, Reachable (TcpProxy.step (r.tcpConfig rule tcpTimeout)) TcpProxy.Started v →
    ∀ ev, TcpProxy.NonNull (r.tcpConfig rule tcpTimeout) v ev) ∧
  Along (step (r.udpConfig udpTimeout)) (NonNull (r.udpConfig udpTimeout)) w₀ es

variable {cfg : Config} {w w' w₀ : World} {ev : Event} {es : List Event} {rules : List UdpProxyRule}
  {id : EptId} {e : UdpEndpointProxy} {i : PairId} {key : Endpoint} {outcome : InitOutcome}
  {error : ErrorCode} {todo : List Endpoint}

instance (cfg : Config) (rules : List UdpProxyRule) (w : World) (ev : Event) :
    Decidable (AsksClients cfg rules w ev) :=
  inferInstanceAs (Decidable (∀ p ∈ asking w ev, _ → ∀ rule ∈ rules[p.1]?, _))

def Unset (cfg : Config) (i : PairId) (e : UdpEndpointProxy) : Prop :=
  e.serverFlag = false ∧ 0 < cfg.bandwidth i ∧ e.clientIp = none

theorem ipGate_error {fault : Fault} : ipGate cfg i w e = .error fault ↔
    fault = .nullPointer ∧ Unset cfg i e := by
  unfold ipGate Unset
  split
  next hlimited =>
    cases hip : e.clientIp with
    | none => simp [hlimited, eq_comm]
    | some a => simp
  next hfree =>
    simp only [reduceCtorEq, false_iff]
    rintro ⟨-, hclient, hlimit, -⟩
    exact hfree ⟨hclient, hlimit⟩

theorem recvVerdict_nullPointer (hphase : w.phase = .relay key id todo) (he : w.epts id = some e) :
    recvVerdict cfg key w e = .fault .nullPointer ↔
      asking w (.relay outcome) = some (id, 1) ∧ Unset cfg 1 e := by
  unfold recvVerdict asking
  rw [hphase]
  dsimp only
  rw [he, Option.bind_some]
  cases e.recvQueue with
  | nil => simp
  | cons msg rest =>
    rw [List.head?_cons, Option.bind_some]
    dsimp only
    by_cases havail : e.recvAvailBytes < 0
    · simp [havail]
    · by_cases hsrc : msg.src = key
      · simp [havail, hsrc]
      · by_cases htime : w.now < msg.time
        · simp [havail, hsrc, htime]
        · rw [if_neg havail, if_neg hsrc, if_neg htime,
            if_pos ⟨not_lt.mp havail, hsrc, not_lt.mp htime⟩]
          cases hgate : ipGate cfg 1 w e with
          | error fault =>
            obtain ⟨rfl, hunset⟩ := ipGate_error.mp hgate
            simp [hunset]
          | ok passes =>
            have hset : ¬ Unset cfg 1 e := by
              intro hunset
              rw [ipGate_error.mpr ⟨rfl, hunset⟩] at hgate
              cases hgate
            cases passes <;> simp [hset]

theorem sendVerdict_nullPointer (hphase : w.phase = .flush id todo) (he : w.epts id = some e) :
    sendVerdict cfg w e = .fault .nullPointer ↔
      asking w (.flush error outcome) = some (id, 0) ∧ Unset cfg 0 e := by
  unfold sendVerdict asking
  rw [hphase]
  dsimp only
  rw [he, Option.bind_some]
  cases e.sendQueue with
  | nil => simp
  | cons msg rest =>
    dsimp only
    by_cases havail : e.sendAvailBytes < 0
    · simp [havail]
    · rw [if_neg havail, if_pos ⟨List.cons_ne_nil _ _, not_lt.mp havail⟩]
      cases hgate : ipGate cfg 0 w e with
      | error fault =>
        obtain ⟨rfl, hunset⟩ := ipGate_error.mp hgate
        simp [hunset]
      | ok passes =>
        have hset : ¬ Unset cfg 0 e := by
          intro hunset
          rw [ipGate_error.mpr ⟨rfl, hunset⟩] at hgate
          cases hgate
        cases passes <;> simp [hset]

theorem asking_cases (h : asking w ev = some (id, i)) : (∃ e, w.epts id = some e) ∧
    ((∃ key todo, w.phase = .relay key id todo ∧ i = 1) ∨ ∃ todo, w.phase = .flush id todo ∧ i = 0) := by
  unfold asking at h
  split at h
  · split at h
    next key id' todo hphase =>
      obtain ⟨e, he, h⟩ := Option.bind_eq_some_iff.mp h
      obtain ⟨msg, -, h⟩ := Option.bind_eq_some_iff.mp h
      simp only [Option.ite_none_right_eq_some, Option.some.injEq, Prod.mk.injEq] at h
      obtain ⟨-, rfl, rfl⟩ := h
      exact ⟨⟨e, he⟩, .inl ⟨key, todo, hphase, rfl⟩⟩
    · cases h
  · split at h
    next id' todo hphase =>
      obtain ⟨e, he, h⟩ := Option.bind_eq_some_iff.mp h
      simp only [Option.ite_none_right_eq_some, Option.some.injEq, Prod.mk.injEq] at h
      obtain ⟨-, rfl, rfl⟩ := h
      exact ⟨⟨e, he⟩, .inr ⟨todo, hphase, rfl⟩⟩
    · cases h
  · cases h

theorem relay_nullPointer (hfault : w.fault = none) (h : relay cfg outcome w = some w') :
    w'.fault = some .nullPointer ↔
      ∃ id i e, asking w (.relay outcome) = some (id, i) ∧ w.epts id = some e ∧ Unset cfg i e := by
  unfold relay at h
  split at h
  next key id todo hphase =>
    obtain ⟨e, he, h⟩ := Option.map_eq_some_iff.mp h
    have hverdict : recvVerdict cfg key w e = .fault .nullPointer ↔
        ∃ id i e, asking w (.relay outcome) = some (id, i) ∧ w.epts id = some e ∧ Unset cfg i e := by
      rw [recvVerdict_nullPointer hphase he]
      constructor
      · rintro ⟨hasking, hunset⟩
        exact ⟨id, 1, e, hasking, he, hunset⟩
      · rintro ⟨id', i, e', hasking, he', hunset⟩
        obtain ⟨-, ⟨key', todo', hphase', rfl⟩ | ⟨todo', hphase', -⟩⟩ := asking_cases hasking
        · rw [hphase] at hphase'
          cases hphase'
          rw [he] at he'
          cases he'
          exact ⟨hasking, hunset⟩
        · rw [hphase] at hphase'
          cases hphase'
    rw [← hverdict]
    split at h
    next hdone =>
      cases h
      rw [hdone, hfault]
      simp
    next fault hdone =>
      cases h
      rw [hdone]
      simp
    next msg hdone =>
      cases h
      obtain ⟨ip, newEpts, epts, nextEpt, nextBuf, relayed, heq⟩ := transfer_eq cfg outcome key id e msg w
      rw [heq, hdone]
      simp [hfault]
  · cases h

theorem flush_nullPointer (hfault : w.fault = none) (h : flush cfg error outcome w = some w') :
    w'.fault = some .nullPointer ↔
      ∃ id i e, asking w (.flush error outcome) = some (id, i) ∧ w.epts id = some e ∧ Unset cfg i e := by
  unfold flush at h
  split at h
  next id todo hphase =>
    obtain ⟨e, he, h⟩ := Option.map_eq_some_iff.mp h
    have hverdict : sendVerdict cfg w e = .fault .nullPointer ↔
        ∃ id i e, asking w (.flush error outcome) = some (id, i) ∧ w.epts id = some e ∧ Unset cfg i e := by
      rw [sendVerdict_nullPointer hphase he]
      constructor
      · rintro ⟨hasking, hunset⟩
        exact ⟨id, 0, e, hasking, he, hunset⟩
      · rintro ⟨id', i, e', hasking, he', hunset⟩
        obtain ⟨-, ⟨key', todo', hphase', -⟩ | ⟨todo', hphase', rfl⟩⟩ := asking_cases hasking
        · rw [hphase] at hphase'
          cases hphase'
        · rw [hphase] at hphase'
          cases hphase'
          rw [he] at he'
          cases he'
          exact ⟨hasking, hunset⟩
    rw [← hverdict]
    dsimp only at h
    split at h
    next hdone =>
      cases h
      rw [hdone, hfault]
      simp
    next fault hdone =>
      cases h
      rw [hdone]
      simp
    next msg hdone =>
      obtain ⟨ip, hip⟩ := payIp_eq cfg 0 e msg.cost w
      rw [hip] at h
      rw [hdone]
      split at h
      · cases h
        simp [hfault, World.modify]
      · cases h
        simp [hfault, World.modify]
  · cases h

theorem step_nullPointer (h : step cfg w ev = some w') : w'.fault = some .nullPointer ↔
    ∃ id i e, asking w ev = some (id, i) ∧ w.epts id = some e ∧ Unset cfg i e := by
  obtain ⟨hfault, hrun⟩ := run_of_step h
  cases ev with
  | relay outcome => exact relay_nullPointer hfault hrun
  | flush error outcome => exact flush_nullPointer hfault hrun
  | addServerProxy rule outcome =>
    cases step_cases h with
    | addServerProxy =>
      obtain ⟨epts, heq⟩ := addServerProxy_eq rule outcome w
      rw [heq]
      simp [hfault, asking]
  | _ => cases step_cases h <;> simp [hfault, asking, World.modify, World.destroy]

theorem nonNull_iff (h : step cfg w ev = some w') : NonNull cfg w ev ↔
    ∀ id i e, asking w ev = some (id, i) → w.epts id = some e → ¬ Unset cfg i e := by
  constructor
  · intro hsafe id i e hasking he hunset
    exact hsafe w' h ((step_nullPointer h).mpr ⟨id, i, e, hasking, he, hunset⟩)
  · intro hset u hu hnull
    obtain ⟨id, i, e, hasking, he, hunset⟩ := (step_nullPointer hu).mp hnull
    exact hset id i e hasking he hunset

structure Addressed (cfg : Config) (w : World) (rules : List UdpProxyRule) : Prop where
  first : RulesFirst w rules
  rule : ∀ id e, w.epts id = some e → id < rules.length → e.clientIp = none
  client : ∀ id e, w.epts id = some e → rules.length ≤ id → ∀ i, ¬ Unset cfg i e

theorem getIPProxy_limited {bandwidth : PairId → ℤ} (hlimit : 0 < bandwidth i) (a : Address) :
    getIPProxy bandwidth a = some a := by
  apply if_neg
  rintro ⟨h0, h1⟩
  rcases PairId.eq_or_other 0 i with rfl | rfl
  · rw [h0] at hlimit
    exact lt_irrefl 0 hlimit
  · exact absurd h1 hlimit.ne'

theorem clientIp_create (bandwidth : PairId → ℤ) (rule : UdpProxyRule) (buf : BufId) (outcome : InitOutcome)
    (now : Msec) : (create bandwidth rule buf outcome now).clientIp =
      if rule.srcPort ≠ 0 then none else getIPProxy bandwidth rule.dstEndpoint.address := by
  obtain ⟨s, t, heq⟩ := create_eq bandwidth rule buf outcome now
  rw [heq]

theorem unset_congr {e' : UdpEndpointProxy} (hparams : params e' = params e) :
    Unset cfg i e' ↔ Unset cfg i e := by
  simp only [params, Prod.mk.injEq] at hparams
  unfold Unset
  rw [hparams.2.1, hparams.2.2]

theorem addressed_step (hw : Addressed cfg w rules) (h : step cfg w ev = some w') :
    Addressed cfg w' (rules ++ configured w ev) := by
  have hk := hw.first.keyed
  have hsame : ∀ {id e e'}, w.epts id = some e → params e' = params e →
      (id < (rules ++ configured w ev).length → e'.clientIp = none) ∧
        ((rules ++ configured w ev).length ≤ id → ∀ i, ¬ Unset cfg i e') := by
    intro id e e' he hparams
    refine ⟨fun hid => ?_, fun hid i => ?_⟩
    · simp only [params, Prod.mk.injEq] at hparams
      rw [hparams.2.2]
      apply hw.rule id e he
      by_cases hphase : w.phase = .setup
      · exact hw.first.setup hphase ▸ hk.lt_nextEpt he
      · rwa [(setup_step h hphase).2, List.append_nil] at hid
    · rw [unset_congr hparams]
      refine hw.client id e he (le_trans ?_ hid) i
      rw [List.length_append]
      exact Nat.le_add_right _ _
  have hboth : ∀ id e', w'.epts id = some e' →
      (id < (rules ++ configured w ev).length → e'.clientIp = none) ∧
        ((rules ++ configured w ev).length ≤ id → ∀ i, ¬ Unset cfg i e') := by
    intro id e' he'
    have hbecame := became_step hk h he'
    obtain ⟨e, he, hparams⟩ | ⟨hid, -, -⟩ := hbecame.params
    · exact hsame he hparams
    · cases hbecame with
      | @added rule outcome hev hphase =>
        subst hev
        refine ⟨fun _ => ?_, fun hle => ?_⟩
        · rw [clientIp_create]
          simp [getIPProxy]
        · have hlength := hw.first.setup hphase
          have hlong : (rules ++ configured w (.addServerProxy rule outcome)).length = rules.length + 1 :=
            List.length_append
          rw [hid, hlength, hlong] at hle
          exact absurd hle (Nat.not_succ_le_self _)
      | @made outcome key rid msg e hev hpop he hsender hid hactive =>
        subst hev
        refine ⟨fun hlt => ?_, fun _ i => ?_⟩
        · rw [show configured w (.relay outcome) = [] from rfl, List.append_nil, hid] at hlt
          exact absurd hlt (not_lt.mpr hw.first.length_le)
        · rw [unset_congr (params_pushSend _ _)]
          rintro ⟨-, hlimit, hnone⟩
          rw [clientIp_create, if_neg (by simp [World.clientRule]), getIPProxy_limited hlimit] at hnone
          cases hnone
      | same he | credited _ _ _ _ he | popped _ _ he | handed _ _ _ _ he | restarted _ _ _ he
      | sent _ _ he | stopped _ _ he | arrived _ he | failed _ he | handled _ he =>
        rw [hid, hk.fresh w.nextEpt (le_refl _)] at he
        cases he
  exact ⟨rulesFirst_step hw.first h, fun id e he => (hboth id e he).1, fun id e he => (hboth id e he).2⟩

theorem addressed_run (h₀ : Initial w₀) (h : exec (step cfg) w₀ es = some w) :
    Addressed cfg w (trace (step cfg) configured w₀ es) := by
  have hstart : Addressed cfg w₀ [] := by
    have hfirst := rulesFirst_run h₀ (show exec (step cfg) w₀ [] = some w₀ from rfl)
    obtain ⟨clock, ip, heap, rfl⟩ := h₀
    refine ⟨hfirst, ?_, ?_⟩
    · intro id e he
      cases he
    · intro id e he
      cases he
  have hrun := exec_traced (fun u ev v rules hw _ hstep => addressed_step hw hstep) h
    (along_true w₀ es) hstart
  rwa [List.nil_append] at hrun

theorem asking_setup (hphase : w.phase = .setup) (ev : Event) : asking w ev = none := by
  unfold asking
  rw [hphase]
  split <;> rfl

theorem nonNull_asksClients (hw : w.phase ≠ .setup → Addressed cfg w rules)
    (hflag : ∀ id e, w.epts id = some e → e.serverFlag = decide (e.proxyRule.srcPort ≠ 0))
    (h : step cfg w ev = some w') : NonNull cfg w ev ↔ AsksClients cfg rules w ev := by
  rw [nonNull_iff h]
  unfold AsksClients
  by_cases hphase : w.phase = .setup
  · simp [asking_setup hphase]
  · have hw := hw hphase
    constructor
    · rintro hset ⟨id, i⟩ hasking hlimit rule hrule hport
      obtain ⟨⟨e, he⟩, -⟩ := asking_cases hasking
      obtain ⟨hlt, -⟩ := List.getElem?_eq_some_iff.mp hrule
      have hsame : e.proxyRule = rule := by
        have hfirst := hw.first.rule id e he hlt
        rw [hrule] at hfirst
        exact (Option.some.inj hfirst).symm
      apply hset id i e hasking he
      refine ⟨?_, hlimit, hw.rule id e he hlt⟩
      rw [hflag id e he, hsame]
      simpa using hport
    · rintro hclients id i e hasking he ⟨hclient, hlimit, hnone⟩
      by_cases hlt : id < rules.length
      · apply hclients (id, i) hasking hlimit e.proxyRule (hw.first.rule id e he hlt)
        rw [hflag id e he] at hclient
        simpa using hclient
      · exact hw.client id e he (not_lt.mp hlt) i ⟨hclient, hlimit, hnone⟩

theorem clientIp_set {conf : SharedData.Config} {vars : SharedData.Vars} {lines : List SharedData.Line}
    {rule : TcpProxyRule} {tcpTimeout udpTimeout : Msec} {w₀ w : World} {es : List Event} (h₀ : Initial w₀)
    (h : exec (step ((SharedData.init conf vars lines).udpConfig udpTimeout)) w₀ es = some w)
    (hconf : trace (step ((SharedData.init conf vars lines).udpConfig udpTimeout)) configured w₀ es =
      (SharedData.init conf vars lines).udpRules) :
    NeverNull (SharedData.init conf vars lines) rule tcpTimeout udpTimeout w₀ es ↔
    Along (step ((SharedData.init conf vars lines).udpConfig udpTimeout))
      (AsksClients ((SharedData.init conf vars lines).udpConfig udpTimeout)
        (SharedData.init conf vars lines).udpRules) w₀ es := by
  unfold NeverNull
  rw [and_iff_right fun v hv ev => TcpProxy.nonNull_step (TcpProxy.Reachable.tracked hv), ← hconf]
  generalize (SharedData.init conf vars lines).udpConfig udpTimeout = cfg at h ⊢
  have hstates : Along (step cfg) (fun u _ =>
      (u.phase ≠ .setup → Addressed cfg u (trace (step cfg) configured w₀ es)) ∧
        ∀ id e, u.epts id = some e → e.serverFlag = decide (e.proxyRule.srcPort ≠ 0)) w₀ es := by
    apply along_of_prefixes
    intro as bs u heq hu
    refine ⟨fun hphase => ?_, serverFlag_run h₀ hu⟩
    rw [heq] at h
    obtain ⟨u', hu', hrest⟩ := exec_append_some.mp h
    rw [hu] at hu'
    cases hu'
    rw [heq, trace_append hu, configured_nil hrest hphase, List.append_nil]
    exact addressed_run h₀ hu
  exact along_congr (fun u ev v hu hstep => nonNull_asksClients hu.1 hu.2 hstep) h hstates

def limitsLine : SharedData.Line := ['i', 'p', ' ', '5', ' ', '5']

def asked (srcPort : ℕ) : List Event :=
  [.addServerProxy ⟨srcPort, ⟨1, 9⟩, 0, 0, 0⟩ .success, .start, .arrive 0 1 ⟨9, 4000⟩ [7],
    .handleRecv 0 ⟨1, .success, 1⟩ 1 .success, .clock 20, .tick, .visit ⟨1, 9⟩, .relay .success]

def replied : List Event :=
  asked 1 ++
    [.relay .success, .merge, .enter ⟨9, 4000⟩, .flush .success .success, .flush .success .success,
      .enter ⟨1, 9⟩, .flush .success .success, .rest, .arrive 1 3 ⟨1, 9⟩ [8],
      .handleRecv 1 ⟨3, .success, 1⟩ 1 .success, .clock 40, .tick, .visit ⟨9, 4000⟩, .relay .success]

def limits : Config := ⟨fun _ => 5, 1000⟩

def limitedLines (srcPort : Char) : List SharedData.Line := [limitsLine, ruleLine srcPort '9']

theorem udpConfig_limitedLines (srcPort : Char) (hport : srcPort = '0' ∨ srcPort = '1') :
    (SharedData.init SharedData.resolving SharedData.blank (limitedLines srcPort)).udpConfig 1000 = limits := by
  have hboth : ∀ i,
      (SharedData.init SharedData.resolving SharedData.blank (limitedLines srcPort)).bandwidth i = 5 := by
    rcases hport with rfl | rfl <;> decide
  unfold SharedData.Result.udpConfig
  rw [funext hboth, limits]

set_option maxRecDepth 4000 in
theorem clientIp_set_answered : NeverNull (SharedData.init SharedData.resolving SharedData.blank
    (limitedLines '1')) ⟨3443, ⟨1, 3443⟩, 0, 0⟩ 1000 1000 start replied := by
  have hcfg := udpConfig_limitedLines '1' (.inr rfl)
  have hrules : (SharedData.init SharedData.resolving SharedData.blank (limitedLines '1')).udpRules =
      [⟨1, ⟨1, 9⟩, 0, 0, 0⟩] := by decide
  have hexec : exec (step limits) start replied = some (after limits start replied) := rfl
  have hconf : trace (step limits) configured start replied = [⟨1, ⟨1, 9⟩, 0, 0, 0⟩] := by decide
  have hasks : Along (step limits) (AsksClients limits [⟨1, ⟨1, 9⟩, 0, 0, 0⟩]) start replied := by decide
  refine (clientIp_set (w := after limits start replied) initial_start ?_ ?_).mpr ?_
  · rw [hcfg]
    exact hexec
  · rw [hcfg, hrules]
    exact hconf
  · rw [hcfg, hrules]
    exact hasks

theorem portless_nullPointer : ¬ ∀ (conf : SharedData.Config) (vars : SharedData.Vars)
    (lines : List SharedData.Line) (rule : TcpProxyRule) (tcpTimeout udpTimeout : Msec) (w₀ w : World)
    (es : List Event), Initial w₀ →
    exec (step ((SharedData.init conf vars lines).udpConfig udpTimeout)) w₀ es = some w →
    trace (step ((SharedData.init conf vars lines).udpConfig udpTimeout)) configured w₀ es =
      (SharedData.init conf vars lines).udpRules →
    NeverNull (SharedData.init conf vars lines) rule tcpTimeout udpTimeout w₀ es := by
  intro hclaim
  have hcfg := udpConfig_limitedLines '0' (.inl rfl)
  have hrules : (SharedData.init SharedData.resolving SharedData.blank (limitedLines '0')).udpRules =
      [⟨0, ⟨1, 9⟩, 0, 0, 0⟩] := by decide
  have hsafe := hclaim SharedData.resolving SharedData.blank (limitedLines '0')
    ⟨3443, ⟨1, 3443⟩, 0, 0⟩ 1000 1000 start (after limits start (asked 0)) (asked 0) initial_start
  unfold NeverNull at hsafe
  rw [hcfg, hrules] at hsafe
  have hbefore : exec (step limits) start ((asked 0).take 7) = some (after limits start ((asked 0).take 7)) := rfl
  have halong := (hsafe rfl (by decide)).2
  change Along (step limits) (NonNull limits) start ((asked 0).take 7 ++ [Event.relay .success]) at halong
  have hlast : NonNull limits (after limits start ((asked 0).take 7)) (.relay .success) :=
    ((along_append hbefore).mp halong).2.1
  have hnull : ((step limits (after limits start ((asked 0).take 7)) (.relay .success)).bind World.fault) =
      some .nullPointer := by decide
  obtain ⟨w', hstep, hfault⟩ := Option.bind_eq_some_iff.mp hnull
  exact hlast w' hstep hfault

end UdpServer

end TcpUdpProxy
