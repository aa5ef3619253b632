import TcpUdpProxy.UdpServer
import Mathlib.Logic.Relation

namespace TcpUdpProxy.UdpServer

open UdpEndpointProxy Relation

def handled (w : World) (r : RecvResult) (draw : ℤ) (outcome : InitOutcome) (e : UdpEndpointProxy) :
    UdpEndpointProxy × BufId :=
  UdpEndpointProxy.handleRecv w.clock draw outcome r w.nextBuf
    { e with proxySocket := e.proxySocket.take r }

theorem nextBuf_handleRecv (now draw : ℤ) (outcome : InitOutcome) (r : RecvResult) (nextBuf : BufId)
    (e : UdpEndpointProxy) : nextBuf ≤ (e.handleRecv now draw outcome r nextBuf).2 := by
  unfold UdpEndpointProxy.handleRecv
  split
  · split
    · exact le_refl _
    · split <;> exact le_refl _
  · dsimp only
    split
    · exact le_refl _
    · split <;> exact Nat.le_succ _

inductive Change (w : World) : Event → UdpEndpointProxy → UdpEndpointProxy → Prop
  | credit {key e} : Change w (.visit key) e (credit w.interval e)
  | touch {outcome e} : Change w (.relay outcome) e (touch w.now e)
  | pushSend {outcome e} (msg : UdpMsg) : Change w (.relay outcome) e (pushSend msg e)
  | popRecv {outcome e} (msg : UdpMsg) : Change w (.relay outcome) e (debitRecv msg e).popRecv
  | restart {error outcome e} (herror : error ≠ .success) :
      Change w (.flush error outcome) e (e.restart outcome w.clock)
  | sent {error outcome e id todo} (msg : UdpMsg) (hphase : w.phase = .flush id todo) :
      Change w (.flush error outcome) e (sent msg e)
  | stop {e} (hphase : w.phase = .sleep) : Change w .stop e e.stop
  | arrive {id buf src data e} (hbuf : buf ∈ e.proxySocket.pending) :
      Change w (.arrive id buf src data) e (e.arrive buf src data.length)
  | fail {id buf error e} (hbuf : buf ∈ e.proxySocket.pending) :
      Change w (.fail id buf error) e
        { e with proxySocket := e.proxySocket.complete ⟨buf, error, 0⟩ }
  | handleRecv {id r draw outcome e} (he : w.epts id = some e) (hr : r ∈ e.proxySocket.ready) :
      Change w (.handleRecv id r draw outcome) e (handled w r draw outcome e).1

def allocating (w : World) : Event → EptId
  | .handleRecv id .. => id
  | _ => w.nextEpt

def Event.makes : Event → Option InitOutcome
  | .addServerProxy _ outcome | .relay outcome => some outcome
  | _ => none

theorem allocating_of_makes {w : World} {ev : Event} {outcome : InitOutcome}
    (h : ev.makes = some outcome) : allocating w ev = w.nextEpt := by
  cases ev <;> first | rfl | cases h

inductive Origin (w : World) (ev : Event) (nextBuf : BufId) (id : EptId) (e' : UdpEndpointProxy) : Prop
  | changed {e} (he : w.epts id = some e) (h : ReflTransGen (Change w ev) e e')
  | created {bandwidth rule outcome} (hid : id = w.nextEpt) (hev : ev.makes = some outcome)
      (hbuf : w.nextBuf < nextBuf)
      (h : ReflTransGen (Change w ev) (create bandwidth rule w.nextBuf outcome w.clock) e')

variable {cfg : Config} {w w' u v : World} {ev : Event} {id : EptId} {e e' : UdpEndpointProxy}

structure Evolves (w : World) (ev : Event) (u v : World) : Prop where
  nextBuf_eq : v.nextBuf = u.nextBuf
  changed : ∀ id e', v.epts id = some e' → ∃ e, u.epts id = some e ∧ ReflTransGen (Change w ev) e e'

theorem Evolves.refl : Evolves w ev u u := ⟨rfl, fun _ e' h => ⟨e', h, .refl⟩⟩

theorem World.modify_some {f : UdpEndpointProxy → UdpEndpointProxy} {id' : EptId}
    (h : (w.modify id f).epts id' = some e') :
    id' ≠ id ∧ w.epts id' = some e' ∨ id' = id ∧ ∃ e, w.epts id = some e ∧ e' = f e := by
  unfold World.modify at h
  by_cases hid : id' = id
  · subst hid
    simp only [Function.update_self, Option.map_eq_some_iff] at h
    obtain ⟨e, he, rfl⟩ := h
    exact .inr ⟨rfl, e, he, rfl⟩
  · simp only [Function.update_of_ne hid] at h
    exact .inl ⟨hid, h⟩

theorem Evolves.modify {f : UdpEndpointProxy → UdpEndpointProxy}
    (hf : ∀ e, u.epts id = some e → Change w ev e (f e)) : Evolves w ev u (u.modify id f) := by
  refine ⟨rfl, ?_⟩
  intro id' e' he'
  obtain ⟨-, he'⟩ | ⟨rfl, e, he, rfl⟩ := World.modify_some he'
  · exact ⟨e', he', .refl⟩
  · exact ⟨e, he, .single (hf e he)⟩

theorem World.destroy_some {id' : EptId} (h : (w.destroy id).epts id' = some e') :
    id' ≠ id ∧ w.epts id' = some e' := by
  unfold World.destroy at h
  by_cases hid : id' = id
  · subst hid
    simp at h
  · exact ⟨hid, by simpa [hid] using h⟩

theorem World.replace_some {old : Option EptId} (h : (w.replace old).epts id = some e') :
    w.epts id = some e' := by
  unfold World.replace at h
  split at h
  · exact (World.destroy_some h).2
  · exact h

theorem Evolves.destroy : Evolves w ev u (u.destroy id) :=
  ⟨rfl, fun _ e' h => ⟨e', (World.destroy_some h).2, .refl⟩⟩

theorem Evolves.replace {old : Option EptId} : Evolves w ev u (u.replace old) := by
  refine ⟨?_, fun _ e' h => ⟨e', World.replace_some h, .refl⟩⟩
  unfold World.replace
  split <;> rfl

theorem payIp_eq (cfg : Config) (direction : PairId) (e : UdpEndpointProxy) (amount : ℤ) (w : World) :
    ∃ ip, payIp cfg direction e amount w = { w with ip := ip } := by
  unfold payIp
  split
  · split
    · exact ⟨_, rfl⟩
    · exact ⟨w.ip, rfl⟩
  · exact ⟨w.ip, rfl⟩

theorem World.make_some {bandwidth : PairId → ℤ} {rule : UdpProxyRule} {outcome : InitOutcome}
    (h : (w.make bandwidth rule outcome).epts id = some e') :
    id ≠ w.nextEpt ∧ w.epts id = some e' ∨
      id = w.nextEpt ∧ e' = create bandwidth rule w.nextBuf outcome w.clock := by
  unfold World.make at h
  by_cases hid : id = w.nextEpt
  · subst hid
    simp only [Function.update_self, Option.some.injEq] at h
    exact .inr ⟨rfl, h.symm⟩
  · exact .inl ⟨hid, by simpa [hid] using h⟩

structure Makes (w : World) (ev : Event) (v : World) : Prop where
  nextBuf_le : w.nextBuf ≤ v.nextBuf
  origin : ∀ id e', v.epts id = some e' → Origin w ev v.nextBuf id e'

theorem Makes.refl : Makes w ev w := ⟨le_refl _, fun _ _ he => .changed he .refl⟩

theorem Makes.evolve (h : Makes w ev u) (h' : Evolves w ev u v) : Makes w ev v := by
  refine ⟨h'.nextBuf_eq ▸ h.nextBuf_le, ?_⟩
  intro id e' he'
  obtain ⟨e, he, hc⟩ := h'.changed id e' he'
  rw [h'.nextBuf_eq]
  cases h.origin id e he with
  | changed hd hc' => exact .changed hd (hc'.trans hc)
  | created hid hev hbuf hc' => exact .created hid hev hbuf (hc'.trans hc)

theorem Makes.make (bandwidth : PairId → ℤ) (rule : UdpProxyRule) (outcome : InitOutcome)
    (h : Evolves w ev w u) (hev : ev.makes = some outcome) (hid : u.nextEpt = w.nextEpt)
    (hclock : u.clock = w.clock) : Makes w ev (u.make bandwidth rule outcome) := by
  have hbuf : (u.make bandwidth rule outcome).nextBuf = w.nextBuf + 1 := by
    unfold World.make
    rw [h.nextBuf_eq]
  refine ⟨hbuf ▸ Nat.le_succ _, ?_⟩
  intro id e' he'
  rw [hbuf]
  obtain ⟨-, he'⟩ | ⟨hnew, rfl⟩ := World.make_some he'
  · obtain ⟨e, he, hc⟩ := h.changed id e' he'
    exact .changed he hc
  · rw [h.nextBuf_eq, hclock]
    exact .created (hnew.trans hid) hev (Nat.lt_succ_self _) .refl

theorem Evolves.pass {outcome : InitOutcome} {msg : UdpMsg} :
    Evolves w (.relay outcome) u (u.pass id msg) :=
  have h : Evolves w (.relay outcome) u (u.modify id (pushSend msg)) := .modify fun _ _ => .pushSend msg
  ⟨h.nextBuf_eq, h.changed⟩

theorem Evolves.stage {src : Endpoint} : Evolves w ev u (u.stage src id) :=
  have h : Evolves w ev u (u.replace (u.newEpts.lookup src)) := .replace
  ⟨h.nextBuf_eq, h.changed⟩

theorem makes_hand {outcome : InitOutcome} {rule : UdpProxyRule} {src : Endpoint} {msg : UdpMsg}
    (ip : Address → IPProxy) :
    Makes w (.relay outcome) (World.hand cfg outcome rule src msg { w with ip := ip }) := by
  have hsame : Evolves w (.relay outcome) w { w with ip := ip } := ⟨rfl, Evolves.refl.changed⟩
  unfold World.hand
  split
  · exact ((Makes.refl.evolve hsame).evolve (Evolves.modify fun _ _ => .touch)).evolve .pass
  · unfold World.passNew
    dsimp only
    split
    · exact ((Makes.make _ _ _ hsame rfl rfl rfl).evolve .stage).evolve .pass
    · exact ((Makes.make _ _ _ hsame rfl rfl rfl).evolve .pass).evolve .destroy

theorem addServerProxy_eq (rule : UdpProxyRule) (outcome : InitOutcome) (w : World) : ∃ epts,
    w.addServerProxy rule outcome = { w with
      endpoints := w.endpoints.insert rule.dstEndpoint w.nextEpt
      epts := epts
      nextEpt := w.nextEpt + 1
      nextBuf := w.nextBuf + 1 } := by
  unfold World.addServerProxy World.replace
  split <;> exact ⟨_, rfl⟩

theorem hand_eq (cfg : Config) (outcome : InitOutcome) (rule : UdpProxyRule) (src : Endpoint)
    (msg : UdpMsg) (w : World) : ∃ newEpts epts nextEpt nextBuf relayed,
      w.hand cfg outcome rule src msg = { w with
        newEpts := newEpts, epts := epts, nextEpt := nextEpt, nextBuf := nextBuf, relayed := relayed } := by
  unfold World.hand
  split
  · exact ⟨_, _, _, _, _, rfl⟩
  · unfold World.passNew
    dsimp only
    split
    · unfold World.stage World.replace
      split <;> exact ⟨_, _, _, _, _, rfl⟩
    · exact ⟨_, _, _, _, _, rfl⟩

theorem transfer_eq (cfg : Config) (outcome : InitOutcome) (key : Endpoint) (id : EptId)
    (e : UdpEndpointProxy) (msg : UdpMsg) (w : World) : ∃ ip newEpts epts nextEpt nextBuf relayed,
      w.transfer cfg outcome key id e msg = { w with
        ip := ip, newEpts := newEpts, epts := epts, nextEpt := nextEpt, nextBuf := nextBuf
        relayed := relayed } := by
  obtain ⟨ip, hip⟩ := payIp_eq cfg 1 e msg.cost w
  unfold World.transfer
  rw [hip]
  obtain ⟨newEpts, epts, nextEpt, nextBuf, relayed, heq⟩ := hand_eq cfg outcome e.proxyRule msg.src
    { msg with src := key } { w with ip := ip }
  rw [heq]
  exact ⟨ip, newEpts, _, nextEpt, nextBuf, relayed, rfl⟩

inductive Stepped (cfg : Config) (w : World) : Event → World → Prop
  | addServerProxy {rule outcome} (hphase : w.phase = .setup) :
      Stepped cfg w (.addServerProxy rule outcome) (w.addServerProxy rule outcome)
  | start (hphase : w.phase = .setup) :
      Stepped cfg w .start { w with now := w.clock, lastFlushTm := w.clock, phase := .sleep }
  | early (hphase : w.phase = .sleep) : Stepped cfg w .tick { w with now := w.clock }
  | tick (hphase : w.phase = .sleep) :
      Stepped cfg w .tick
        { w with
          now := w.clock
          lastFlushTm := w.clock
          interval := w.clock - w.lastFlushTm
          newEpts := ∅
          relayed := []
          phase := .scan w.endpoints.keys }
  | expire {key id todo e} (hphase : w.phase = .scan todo) (hkey : key ∈ todo)
      (hlookup : w.endpoints.lookup key = some id) (he : w.epts id = some e)
      (hexpired : expired cfg w e = true) :
      Stepped cfg w (.visit key)
        { w.destroy id with endpoints := w.endpoints.erase key, phase := .scan (todo.erase key) }
  | lock {key id todo e} (hphase : w.phase = .scan todo) (hkey : key ∈ todo)
      (hlookup : w.endpoints.lookup key = some id) (he : w.epts id = some e) :
      Stepped cfg w (.visit key)
        { w.modify id (credit w.interval) with phase := .relay key id (todo.erase key) }
  | unlock {outcome key id todo e} (hphase : w.phase = .relay key id todo) (he : w.epts id = some e) :
      Stepped cfg w (.relay outcome) { w with phase := .scan todo }
  | relayFault {outcome key id todo e fault} (hphase : w.phase = .relay key id todo)
      (he : w.epts id = some e) (hverdict : recvVerdict cfg key w e = .fault fault) :
      Stepped cfg w (.relay outcome) { w with fault := some fault }
  | transfer {outcome key id todo e msg} (hphase : w.phase = .relay key id todo)
      (he : w.epts id = some e) (hverdict : recvVerdict cfg key w e = .take msg) :
      Stepped cfg w (.relay outcome) (w.transfer cfg outcome key id e msg)
  | merge (hphase : w.phase = .scan []) :
      Stepped cfg w .merge
        { w with
          endpoints := w.endpoints ∪ w.newEpts
          newEpts := ∅
          phase := .send (w.endpoints ∪ w.newEpts).keys }
  | enter {key id todo} (hphase : w.phase = .send todo) :
      Stepped cfg w (.enter key) { w with phase := .flush id (todo.erase key) }
  | leave {error outcome id todo} (hphase : w.phase = .flush id todo) :
      Stepped cfg w (.flush error outcome) { w with phase := .send todo }
  | flushFault {error outcome id todo fault e} (hphase : w.phase = .flush id todo)
      (hverdict : sendVerdict cfg w e = .fault fault) :
      Stepped cfg w (.flush error outcome) { w with fault := some fault }
  | restart {error outcome id todo e ip} (hphase : w.phase = .flush id todo)
      (he : w.epts id = some e) (herror : error ≠ .success) :
      Stepped cfg w (.flush error outcome)
        { w.modify id fun e => e.restart outcome w.clock with ip := ip, phase := .send todo }
  | sent {error outcome id todo e ip msg} (hphase : w.phase = .flush id todo)
      (he : w.epts id = some e) :
      Stepped cfg w (.flush error outcome) { w.modify id (sent msg) with ip := ip }
  | rest (hphase : w.phase = .send []) : Stepped cfg w .rest { w with phase := .sleep }
  | stop (hphase : w.phase = .sleep) :
      Stepped cfg w .stop
        { w with epts := fun id => (w.epts id).map .stop, phase := .stopped }
  | arrive {id buf src data e} (he : w.epts id = some e) (hbuf : buf ∈ e.proxySocket.pending) :
      Stepped cfg w (.arrive id buf src data)
        { w.modify id (UdpEndpointProxy.arrive buf src data.length) with
          heap := w.heap.store buf data }
  | fail {id buf error e} (he : w.epts id = some e) (hbuf : buf ∈ e.proxySocket.pending) :
      Stepped cfg w (.fail id buf error)
        (w.modify id fun e => { e with proxySocket := e.proxySocket.complete ⟨buf, error, 0⟩ })
  | handleRecv {id r draw outcome e} (he : w.epts id = some e) (hr : r ∈ e.proxySocket.ready) :
      Stepped cfg w (.handleRecv id r draw outcome)
        { w with
          epts := Function.update w.epts id (some (handled w r draw outcome e).1)
          nextBuf := (handled w r draw outcome e).2 }
  | clock {now} : Stepped cfg w (.clock now) { w with clock := now }
  | ip {ip} : Stepped cfg w (.ip ip) { w with ip := ip }

theorem visit_cases {key : Endpoint} (h : visit cfg key w = some w') : Stepped cfg w (.visit key) w' := by
  unfold visit at h
  split at h
  · rename_i todo id hphase hlookup
    split at h
    · rename_i hkey
      obtain ⟨e, he, h⟩ := Option.map_eq_some_iff.mp h
      dsimp only at h
      split at h
      · rename_i hexpired
        subst h
        exact .expire hphase hkey hlookup he hexpired
      · subst h
        exact .lock hphase hkey hlookup he
    · cases h
  · cases h

theorem relay_cases {outcome : InitOutcome} (h : relay cfg outcome w = some w') :
    Stepped cfg w (.relay outcome) w' := by
  unfold relay at h
  split at h
  · rename_i key id todo hphase
    obtain ⟨e, he, h⟩ := Option.map_eq_some_iff.mp h
    split at h
    · subst h
      exact .unlock hphase he
    · rename_i fault hverdict
      subst h
      exact .relayFault hphase he hverdict
    · rename_i msg hverdict
      subst h
      exact .transfer hphase he hverdict
  · cases h

theorem flush_cases {error : ErrorCode} {outcome : InitOutcome} (h : flush cfg error outcome w = some w') :
    Stepped cfg w (.flush error outcome) w' := by
  unfold flush at h
  split at h
  · rename_i id todo hphase
    obtain ⟨e, he, h⟩ := Option.map_eq_some_iff.mp h
    dsimp only at h
    split at h
    · subst h
      exact .leave hphase
    · rename_i fault hverdict
      subst h
      exact .flushFault hphase hverdict
    · rename_i msg hverdict
      obtain ⟨ip, hip⟩ := payIp_eq cfg 0 e msg.cost w
      rw [hip] at h
      split at h
      · rename_i herror
        subst h
        exact .restart hphase he herror
      · subst h
        exact .sent hphase he
  · cases h

theorem run_of_step (h : step cfg w ev = some w') : w.fault = none ∧ run cfg w ev = some w' := by
  unfold step at h
  split at h
  · cases h
  · rename_i hfault
    exact ⟨by simpa using hfault, h⟩

theorem step_cases (h : step cfg w ev = some w') : Stepped cfg w ev w' := by
  obtain ⟨-, hrun⟩ := run_of_step h
  clear h
  cases ev with
  | addServerProxy rule outcome =>
    simp only [run, Option.ite_none_right_eq_some, Option.some.injEq] at hrun
    obtain ⟨hphase, rfl⟩ := hrun
    exact .addServerProxy hphase
  | start =>
    simp only [run, Option.ite_none_right_eq_some, Option.some.injEq] at hrun
    obtain ⟨hphase, rfl⟩ := hrun
    exact .start hphase
  | tick =>
    simp only [run, Option.ite_none_right_eq_some, Option.some.injEq] at hrun
    obtain ⟨hphase, rfl⟩ := hrun
    unfold World.tick
    split
    · exact .early hphase
    · exact .tick hphase
  | visit key => exact visit_cases hrun
  | relay outcome => exact relay_cases hrun
  | merge =>
    simp only [run, merge] at hrun
    split at hrun
    · rename_i hphase
      cases hrun
      exact .merge hphase
    · cases hrun
  | enter key =>
    simp only [run, enter] at hrun
    split at hrun
    · rename_i todo id hphase hlookup
      split at hrun
      · cases hrun
        exact .enter hphase
      · cases hrun
    · cases hrun
  | flush error outcome => exact flush_cases hrun
  | rest =>
    simp only [run, Option.ite_none_right_eq_some, Option.some.injEq] at hrun
    obtain ⟨hphase, rfl⟩ := hrun
    exact .rest hphase
  | stop =>
    simp only [run, Option.ite_none_right_eq_some, Option.some.injEq] at hrun
    obtain ⟨hphase, rfl⟩ := hrun
    exact .stop hphase
  | arrive id buf src data =>
    simp only [run, arrive] at hrun
    split at hrun
    · cases hrun
    · rename_i e he
      simp only [Option.ite_none_right_eq_some, Option.some.injEq] at hrun
      obtain ⟨⟨hbuf, -⟩, rfl⟩ := hrun
      exact .arrive he hbuf
  | fail id buf error =>
    simp only [run, fail] at hrun
    split at hrun
    · cases hrun
    · rename_i e he
      simp only [Option.ite_none_right_eq_some, Option.some.injEq] at hrun
      obtain ⟨⟨hbuf, -⟩, rfl⟩ := hrun
      exact .fail he hbuf
  | handleRecv id r draw outcome =>
    simp only [run, handleRecv] at hrun
    split at hrun
    · cases hrun
    · rename_i e he
      simp only [Option.ite_none_right_eq_some, Option.some.injEq] at hrun
      obtain ⟨⟨hr, -⟩, rfl⟩ := hrun
      exact .handleRecv he hr
  | clock now =>
    cases hrun
    exact .clock
  | ip ip =>
    cases hrun
    exact .ip

theorem makes_step (h : Stepped cfg w ev w') : Makes w ev w' := by
  cases h with
  | @addServerProxy rule outcome hphase =>
    have hmake : Makes w (.addServerProxy rule outcome)
        ((w.replace (w.endpoints.lookup rule.dstEndpoint)).make (fun _ => 0) rule outcome) := by
      apply Makes.make _ _ _ Evolves.replace rfl <;> unfold World.replace <;> split <;> rfl
    exact ⟨hmake.nextBuf_le, hmake.origin⟩
  | @expire key id =>
    have hdestroy : Makes w (.visit key) (w.destroy id) := Makes.refl.evolve Evolves.destroy
    exact ⟨hdestroy.nextBuf_le, hdestroy.origin⟩
  | @lock key id =>
    have hcredit : Makes w (.visit key) (w.modify id (credit w.interval)) :=
      Makes.refl.evolve (Evolves.modify fun _ _ => .credit)
    exact ⟨hcredit.nextBuf_le, hcredit.origin⟩
  | @transfer outcome key id todo e msg =>
    obtain ⟨ip, hip⟩ := payIp_eq cfg 1 e msg.cost w
    unfold World.transfer
    rw [hip]
    exact (makes_hand ip).evolve (Evolves.modify fun _ _ => .popRecv msg)
  | @restart error outcome id todo e ip hphase he herror =>
    have hrestart : Makes w (.flush error outcome)
        (w.modify id (UdpEndpointProxy.restart outcome w.clock)) :=
      Makes.refl.evolve (Evolves.modify fun _ _ => .restart herror)
    exact ⟨hrestart.nextBuf_le, hrestart.origin⟩
  | @sent error outcome id todo e ip msg hphase =>
    have hsent : Makes w (.flush error outcome) (w.modify id (sent msg)) :=
      Makes.refl.evolve (Evolves.modify fun _ _ => .sent msg hphase)
    exact ⟨hsent.nextBuf_le, hsent.origin⟩
  | stop hphase =>
    refine ⟨le_refl _, ?_⟩
    intro id e' he'
    obtain ⟨e, he, rfl⟩ := Option.map_eq_some_iff.mp he'
    exact .changed he (.single (.stop hphase))
  | @arrive id buf src data e he hbuf =>
    have harrive : Evolves w (.arrive id buf src data) w
        (w.modify id (UdpEndpointProxy.arrive buf src data.length)) := by
      apply Evolves.modify
      intro e' he'
      rw [he] at he'
      cases he'
      exact .arrive hbuf
    exact Makes.refl.evolve ⟨harrive.nextBuf_eq, harrive.changed⟩
  | @fail id buf error e he hbuf =>
    apply Makes.refl.evolve (Evolves.modify _)
    intro e' he'
    rw [he] at he'
    cases he'
    exact .fail hbuf
  | @handleRecv id r draw outcome e he hr =>
    refine ⟨?_, ?_⟩
    · exact nextBuf_handleRecv ..
    · intro id' e' he'
      by_cases hid : id' = id
      · subst hid
        simp only [Function.update_self, Option.some.injEq] at he'
        subst he'
        exact .changed he (.single (.handleRecv he hr))
      · simp only [Function.update_of_ne hid] at he'
        exact .changed he' .refl
  | _ => exact ⟨le_refl _, fun _ _ he => .changed he .refl⟩

end TcpUdpProxy.UdpServer
