import TcpUdpProxy.UdpKeys

namespace TcpUdpProxy.UdpServer

open UdpEndpointProxy

section shapes

theorem init_eq (outcome : InitOutcome) (now : Msec) (e : UdpEndpointProxy) :
    ∃ s t, e.init outcome now = { e with proxySocket := s, activeTm := t } := by
  unfold UdpEndpointProxy.init
  split
  · exact ⟨_, _, rfl⟩
  · dsimp only
    split <;> exact ⟨_, _, rfl⟩

theorem restart_eq (outcome : InitOutcome) (now : Msec) (e : UdpEndpointProxy) :
    ∃ s t, e.restart outcome now = { e with proxySocket := s, activeTm := t } := by
  unfold restart
  split
  · exact init_eq outcome now e.stop
  · exact ⟨_, _, rfl⟩

theorem create_eq (bandwidth : PairId → ℤ) (rule : UdpProxyRule) (buf : BufId) (outcome : InitOutcome)
    (now : Msec) : ∃ s t, create bandwidth rule buf outcome now =
      { proxyRule := rule
        proxySocket := s
        recvingMsg := .create buf
        serverFlag := rule.srcPort ≠ 0
        activeTm := t
        recvQueue := []
        sendQueue := []
        recvAvailBytes := 0
        sendAvailBytes := 0
        recvingFlag := true
        clientIp := if rule.srcPort ≠ 0 then none else getIPProxy bandwidth rule.dstEndpoint.address } := by
  unfold create
  simpa using init_eq outcome now _

theorem popRecv_eq (e : UdpEndpointProxy) : ∃ s f,
    e.popRecv = { e with recvQueue := e.recvQueue.tail, proxySocket := s, recvingFlag := f } := by
  unfold popRecv
  dsimp only
  split <;> exact ⟨_, _, rfl⟩

theorem touch_eq (now : Msec) (e : UdpEndpointProxy) : ∃ t, touch now e = { e with activeTm := t } := by
  unfold touch
  split <;> exact ⟨_, rfl⟩

theorem pushSend_eq (msg : UdpMsg) (e : UdpEndpointProxy) :
    pushSend msg e =
      { e with sendQueue := e.sendQueue ++ if e.sendQueue.length < maxUdpMsgQueueSize then [msg] else [] } := by
  unfold pushSend
  split <;> simp

theorem handled_cases (w : World) (r : RecvResult) (draw : ℤ) (outcome : InitOutcome)
    (e : UdpEndpointProxy) :
    (∃ s t, (handled w r draw outcome e).1 = { e with proxySocket := s, activeTm := t }) ∨
    r.error = .success ∧ e.dropped draw = false ∧
      ∃ s f, (handled w r draw outcome e).1 =
        { e with
          proxySocket := s
          activeTm := w.clock
          recvingFlag := f
          recvQueue := e.recvQueue ++ [{ e with activeTm := w.clock }.received r.bytesTransferred]
          recvingMsg := .create w.nextBuf } := by
  unfold handled UdpEndpointProxy.handleRecv
  split
  · left
    split
    · exact ⟨_, _, rfl⟩
    · split
      · obtain ⟨s, t, heq⟩ := restart_eq outcome w.clock { e with proxySocket := e.proxySocket.take r }
        exact ⟨s, t, heq⟩
      · exact ⟨_, _, rfl⟩
  · rename_i herror
    dsimp only
    split
    · exact .inl ⟨_, _, rfl⟩
    · rename_i hdropped
      right
      refine ⟨not_ne_iff.mp herror, by simpa [dropped] using hdropped, ?_⟩
      split <;> exact ⟨_, _, rfl⟩

def Inherits (s' s : UdpSocket) : Prop :=
  ∀ r ∈ s'.ready, r ∈ s.ready ∨ r.error ≠ .success ∧ r.bytesTransferred = 0

theorem Inherits.refl (s : UdpSocket) : Inherits s s := fun _ hr => .inl hr

theorem Inherits.trans {s s' s'' : UdpSocket} (h : Inherits s'' s') (h' : Inherits s' s) :
    Inherits s'' s := by
  intro r hr
  rcases h r hr with hr | hr
  · exact h' r hr
  · exact .inr hr

theorem inherits_asyncReceiveFrom (buf : BufId) (s : UdpSocket) : Inherits (s.asyncReceiveFrom buf) s := by
  unfold UdpSocket.asyncReceiveFrom
  split
  · exact fun _ hr => .inl hr
  · intro r hr
    rcases List.mem_append.mp hr with hr | hr
    · exact .inl hr
    · obtain rfl := List.mem_singleton.mp hr
      exact .inr ⟨nofun, rfl⟩

theorem inherits_close (s : UdpSocket) : Inherits s.close s := by
  intro r hr
  rcases List.mem_append.mp hr with hr | hr
  · exact .inl hr
  · obtain ⟨buf, -, rfl⟩ := List.mem_map.mp hr
    exact .inr ⟨nofun, rfl⟩

theorem inherits_init (outcome : InitOutcome) (now : Msec) (e : UdpEndpointProxy) :
    Inherits (e.init outcome now).proxySocket e.proxySocket := by
  unfold UdpEndpointProxy.init
  split
  · exact .refl _
  · dsimp only
    split
    · exact inherits_asyncReceiveFrom _ _
    · exact fun _ hr => .inl hr

theorem inherits_restart (outcome : InitOutcome) (now : Msec) (e : UdpEndpointProxy) :
    Inherits (e.restart outcome now).proxySocket e.proxySocket := by
  unfold restart
  split
  · exact (inherits_init outcome now e.stop).trans (inherits_close _)
  · exact inherits_close _

theorem inherits_popRecv (e : UdpEndpointProxy) : Inherits e.popRecv.proxySocket e.proxySocket := by
  unfold popRecv
  dsimp only
  split
  · exact inherits_asyncReceiveFrom _ _
  · exact .refl _

theorem inherits_handled (w : World) (r : RecvResult) (draw : ℤ) (outcome : InitOutcome)
    (e : UdpEndpointProxy) :
    Inherits (handled w r draw outcome e).1.proxySocket (e.proxySocket.take r) := by
  unfold handled UdpEndpointProxy.handleRecv
  split
  · split
    · exact inherits_asyncReceiveFrom _ _
    · split
      · exact inherits_restart outcome w.clock { e with proxySocket := e.proxySocket.take r }
      · exact .refl _
  · dsimp only
    split
    · exact inherits_asyncReceiveFrom _ _
    · split
      · exact .refl _
      · exact inherits_asyncReceiveFrom _ _

end shapes

def popping (cfg : Config) (w : World) : Option (EptId × Endpoint × UdpMsg) :=
  match w.phase with
  | .relay key id _ =>
    (w.epts id).bind fun e =>
      match recvVerdict cfg key w e with
      | .take msg => some (id, key, msg)
      | _ => none
  | _ => none

def sending (cfg : Config) (w : World) : Option (EptId × UdpMsg) :=
  match w.phase with
  | .flush id _ =>
    (w.epts id).bind fun e =>
      match sendVerdict cfg w e with
      | .take msg => some (id, msg)
      | _ => none
  | _ => none

inductive Became (cfg : Config) (w : World) (ev : Event) (id : EptId) : UdpEndpointProxy → Prop
  | same {e} (he : w.epts id = some e)
      (hvisit : ∀ key, ev = .visit key → w.endpoints.lookup key ≠ some id)
      (hpop : ∀ outcome, ev = .relay outcome → ∀ key msg, popping cfg w ≠ some (id, key, msg))
      (hsend : ∀ error outcome, ev = .flush error outcome → ∀ msg, sending cfg w ≠ some (id, msg))
      (harrive : ∀ buf src data, ev ≠ .arrive id buf src data)
      (hhandle : ∀ r draw outcome, ev ≠ .handleRecv id r draw outcome) : Became cfg w ev id e
  | added {rule outcome} (hev : ev = .addServerProxy rule outcome) (hphase : w.phase = .setup)
      (hid : id = w.nextEpt) :
      Became cfg w ev id (create (fun _ => 0) rule w.nextBuf outcome w.clock)
  | credited {key todo e} (hev : ev = .visit key) (hphase : w.phase = .scan todo) (hkey : key ∈ todo)
      (hlookup : w.endpoints.lookup key = some id) (he : w.epts id = some e)
      (hlive : expired cfg w e = false) : Became cfg w ev id (credit w.interval e)
  | popped {outcome key todo e msg} (hev : ev = .relay outcome) (hphase : w.phase = .relay key id todo)
      (he : w.epts id = some e) (hverdict : recvVerdict cfg key w e = .take msg) :
      Became cfg w ev id (debitRecv msg e).popRecv
  | handed {outcome key rid msg e} (hev : ev = .relay outcome) (hpop : popping cfg w = some (rid, key, msg))
      (hne : id ≠ rid) (hsender : w.endpoints.lookup msg.src = some id) (he : w.epts id = some e) :
      Became cfg w ev id (pushSend { msg with src := key } (touch w.now e))
  | made {outcome key rid msg e} (hev : ev = .relay outcome) (hpop : popping cfg w = some (rid, key, msg))
      (he : w.epts rid = some e) (hsender : w.endpoints.lookup msg.src = none) (hid : id = w.nextEpt)
      (hactive : (create cfg.bandwidth (World.clientRule e.proxyRule msg.src) w.nextBuf outcome
        w.clock).activeTm ≠ 0) :
      Became cfg w ev id (pushSend { msg with src := key }
        (create cfg.bandwidth (World.clientRule e.proxyRule msg.src) w.nextBuf outcome w.clock))
  | restarted {error outcome msg e} (hev : ev = .flush error outcome) (herror : error ≠ .success)
      (hsend : sending cfg w = some (id, msg)) (he : w.epts id = some e) :
      Became cfg w ev id (e.restart outcome w.clock)
  | sent {outcome msg e} (hev : ev = .flush .success outcome) (hsend : sending cfg w = some (id, msg))
      (he : w.epts id = some e) : Became cfg w ev id (sent msg e)
  | stopped {e} (hev : ev = .stop) (hphase : w.phase = .sleep) (he : w.epts id = some e) :
      Became cfg w ev id e.stop
  | arrived {buf src data e} (hev : ev = .arrive id buf src data) (he : w.epts id = some e)
      (hbuf : buf ∈ e.proxySocket.pending) (hlen : data.length ≤ udpBufferSize) :
      Became cfg w ev id (e.arrive buf src data.length)
  | failed {buf error e} (hev : ev = .fail id buf error) (he : w.epts id = some e)
      (hbuf : buf ∈ e.proxySocket.pending) (herror : error ≠ .success) :
      Became cfg w ev id { e with proxySocket := e.proxySocket.complete ⟨buf, error, 0⟩ }
  | handled {r draw outcome e} (hev : ev = .handleRecv id r draw outcome) (he : w.epts id = some e)
      (hr : r ∈ e.proxySocket.ready) (hfree : blocked w.phase id r.error = false) :
      Became cfg w ev id (handled w r draw outcome e).1

variable {cfg : Config} {w w' : World} {ev : Event} {id rid : EptId} {e e' : UdpEndpointProxy}
  {key : Endpoint} {msg : UdpMsg} {todo : List Endpoint} {outcome : InitOutcome}

theorem popping_eq (hphase : w.phase = .relay key rid todo) (he : w.epts rid = some e)
    (hverdict : recvVerdict cfg key w e = .take msg) : popping cfg w = some (rid, key, msg) := by
  simp [popping, hphase, he, hverdict]

theorem popping_none (hphase : w.phase = .relay key rid todo) (he : w.epts rid = some e)
    (hverdict : ∀ msg, recvVerdict cfg key w e ≠ .take msg) : popping cfg w = none := by
  unfold popping
  rw [hphase]
  dsimp only
  rw [he, Option.bind_some]
  split
  · rename_i msg htake
    exact absurd htake (hverdict msg)
  · rfl

theorem popping_cases (h : popping cfg w = some (rid, key, msg)) :
    ∃ todo e, w.phase = .relay key rid todo ∧ w.epts rid = some e ∧
      recvVerdict cfg key w e = .take msg := by
  unfold popping at h
  split at h
  · rename_i key' id' todo hphase
    obtain ⟨e, he, h⟩ := Option.bind_eq_some_iff.mp h
    split at h
    · rename_i msg' hverdict
      cases h
      exact ⟨todo, e, hphase, he, hverdict⟩
    · cases h
  · cases h

theorem sending_eq (hphase : w.phase = .flush id todo) (he : w.epts id = some e)
    (hverdict : sendVerdict cfg w e = .take msg) : sending cfg w = some (id, msg) := by
  simp [sending, hphase, he, hverdict]

theorem sending_none (hphase : w.phase = .flush id todo) (he : w.epts id = some e)
    (hverdict : ∀ msg, sendVerdict cfg w e ≠ .take msg) : sending cfg w = none := by
  unfold sending
  rw [hphase]
  dsimp only
  rw [he, Option.bind_some]
  split
  · rename_i msg htake
    exact absurd htake (hverdict msg)
  · rfl

theorem sending_cases (h : sending cfg w = some (id, msg)) :
    ∃ todo e, w.phase = .flush id todo ∧ w.epts id = some e ∧ sendVerdict cfg w e = .take msg := by
  unfold sending at h
  split at h
  · rename_i id' todo hphase
    obtain ⟨e, he, h⟩ := Option.bind_eq_some_iff.mp h
    split at h
    · rename_i msg' hverdict
      cases h
      exact ⟨todo, e, hphase, he, hverdict⟩
    · cases h
  · cases h

theorem recvVerdict_take (h : recvVerdict cfg key w e = .take msg) :
    ∃ rest, e.recvQueue = msg :: rest ∧ 0 ≤ e.recvAvailBytes ∧ msg.src ≠ key ∧ msg.time ≤ w.now ∧
      ipGate cfg 1 w e = .ok true := by
  unfold recvVerdict at h
  split at h
  · cases h
  · rename_i msg' rest hqueue
    split at h
    · cases h
    · rename_i havail
      split at h
      · cases h
      · rename_i hsrc
        split at h
        · cases h
        · rename_i htime
          split at h
          · cases h
          · cases h
          · rename_i hgate
            cases h
            exact ⟨rest, hqueue, not_lt.mp havail, hsrc, not_lt.mp htime, hgate⟩

theorem sendVerdict_take (h : sendVerdict cfg w e = .take msg) :
    ∃ rest, e.sendQueue = msg :: rest ∧ 0 ≤ e.sendAvailBytes ∧ ipGate cfg 0 w e = .ok true := by
  unfold sendVerdict at h
  split at h
  · cases h
  · rename_i msg' rest hqueue
    split at h
    · cases h
    · rename_i havail
      split at h
      · cases h
      · cases h
      · rename_i hgate
        cases h
        exact ⟨rest, hqueue, not_lt.mp havail, hgate⟩

theorem hand_some {rule : UdpProxyRule} {src : Endpoint}
    (h : (w.hand cfg outcome rule src msg).epts id = some e') :
    w.endpoints.lookup src ≠ some id ∧ w.epts id = some e' ∨
    (∃ e, w.endpoints.lookup src = some id ∧ w.epts id = some e ∧ e' = pushSend msg (touch w.now e)) ∨
    w.endpoints.lookup src = none ∧ id = w.nextEpt ∧
      (create cfg.bandwidth (World.clientRule rule src) w.nextBuf outcome w.clock).activeTm ≠ 0 ∧
      e' = pushSend msg (create cfg.bandwidth (World.clientRule rule src) w.nextBuf outcome w.clock) := by
  unfold World.hand at h
  split at h
  · rename_i sender hsender
    obtain ⟨hne, he⟩ | ⟨rfl, e, he, rfl⟩ := World.modify_some h
    · obtain ⟨-, he⟩ | ⟨rfl, -⟩ := World.modify_some he
      · left
        refine ⟨?_, he⟩
        intro hid
        rw [hsender] at hid
        cases hid
        exact hne rfl
      · exact absurd rfl hne
    · obtain ⟨hne, -⟩ | ⟨-, e₀, he₀, rfl⟩ := World.modify_some he
      · exact absurd rfl hne
      · exact .inr (.inl ⟨e₀, hsender, he₀, rfl⟩)
  · rename_i hnone
    have hother : w.endpoints.lookup src ≠ some id := by
      rw [hnone]
      nofun
    unfold World.passNew at h
    dsimp only at h
    split at h
    · rename_i hactive
      obtain ⟨hne, he⟩ | ⟨rfl, e, he, rfl⟩ := World.modify_some h
      · obtain ⟨-, he⟩ | ⟨rfl, -⟩ := World.make_some (World.replace_some he)
        · exact .inl ⟨hother, he⟩
        · exact absurd rfl hne
      · obtain ⟨hne, -⟩ | ⟨-, rfl⟩ := World.make_some (World.replace_some he)
        · exact absurd rfl hne
        · refine .inr (.inr ⟨hnone, rfl, ?_, rfl⟩)
          simpa [World.make] using hactive
    · obtain ⟨hne, he⟩ := World.destroy_some h
      obtain ⟨-, he⟩ | ⟨rfl, -⟩ := World.modify_some he
      · obtain ⟨-, he⟩ | ⟨rfl, -⟩ := World.make_some he
        · exact .inl ⟨hother, he⟩
        · exact absurd rfl hne
      · exact absurd rfl hne

theorem became_transfer (hk : Keyed w) (hphase : w.phase = .relay key rid todo) (he : w.epts rid = some e)
    (hverdict : recvVerdict cfg key w e = .take msg)
    (h : (w.transfer cfg outcome key rid e msg).epts id = some e') :
    Became cfg w (.relay outcome) id e' := by
  have hpop : popping cfg w = some (rid, key, msg) := popping_eq hphase he hverdict
  obtain ⟨-, -, -, hsrc, -, -⟩ := recvVerdict_take hverdict
  obtain ⟨ip, hip⟩ := payIp_eq cfg 1 e msg.cost w
  unfold World.transfer at h
  rw [hip] at h
  obtain ⟨hne, hhand⟩ | ⟨rfl, e₀, hhand, rfl⟩ := World.modify_some h
  · obtain ⟨-, he'⟩ | ⟨s, hsender, hs, rfl⟩ | ⟨hnone, rfl, hactive, rfl⟩ := hand_some hhand
    · refine .same he' nofun ?_ nofun nofun nofun
      intro _ _ key' msg' hpop'
      rw [hpop] at hpop'
      cases hpop'
      exact hne rfl
    · exact .handed rfl hpop hne hsender hs
    · exact .made rfl hpop he hnone rfl hactive
  · -- a datagram is never handed to the endpoint that has received it
    obtain ⟨-, he₀⟩ | ⟨s, hsender, -, rfl⟩ | ⟨hnone, rfl, -, rfl⟩ := hand_some hhand
    · rw [he] at he₀
      cases he₀
      exact .popped rfl hphase he hverdict
    · have hsame := hk.mapped.unique hk.mapped hsender (hk.locked key id todo hphase)
      exact absurd hsame hsrc
    · rw [hk.fresh w.nextEpt (le_refl _)] at he
      cases he

theorem became_addServerProxy {rule : UdpProxyRule} (hphase : w.phase = .setup)
    (he' : (w.addServerProxy rule outcome).epts id = some e') :
    Became cfg w (.addServerProxy rule outcome) id e' := by
  obtain ⟨hne, he⟩ | ⟨hid, rfl⟩ := World.make_some he'
  · exact .same (World.replace_some he) nofun nofun nofun nofun nofun
  · have hid' : id = w.nextEpt := by
      rw [hid]
      unfold World.replace
      split <;> rfl
    have hcreate : create (fun _ => 0) rule (w.replace (w.endpoints.lookup rule.dstEndpoint)).nextBuf
        outcome (w.replace (w.endpoints.lookup rule.dstEndpoint)).clock =
        create (fun _ => 0) rule w.nextBuf outcome w.clock := by
      unfold World.replace
      split <;> rfl
    rw [hcreate]
    exact .added rfl hphase hid'

theorem became_visit (h : visit cfg key w = some w') (he' : w'.epts id = some e') :
    Became cfg w (.visit key) id e' := by
  unfold visit at h
  split at h
  · rename_i todo vid hphase hlookup
    split at h
    · rename_i hkey
      obtain ⟨e, he, h⟩ := Option.map_eq_some_iff.mp h
      have hother : id ≠ vid → ∀ key', Event.visit key = .visit key' → w.endpoints.lookup key' ≠ some id := by
        rintro hne _ ⟨⟩ hid
        rw [hlookup] at hid
        cases hid
        exact hne rfl
      split at h
      · subst h
        obtain ⟨hne, hold⟩ := World.destroy_some he'
        exact .same hold (hother hne) nofun nofun nofun nofun
      · rename_i hlive
        subst h
        obtain ⟨hne, hold⟩ | ⟨rfl, e₀, he₀, rfl⟩ := World.modify_some he'
        · exact .same hold (hother hne) nofun nofun nofun nofun
        · rw [he] at he₀
          cases he₀
          exact .credited rfl hphase hkey hlookup he (by simpa using hlive)
    · cases h
  · cases h

theorem became_relay (hk : Keyed w) (h : relay cfg outcome w = some w') (he' : w'.epts id = some e') :
    Became cfg w (.relay outcome) id e' := by
  have hquiet : w.epts id = some e' → popping cfg w = none → Became cfg w (.relay outcome) id e' := by
    intro hold hnone
    refine .same hold nofun ?_ nofun nofun nofun
    intro _ _ key msg hpop
    rw [hnone] at hpop
    cases hpop
  unfold relay at h
  split at h
  · rename_i key rid todo hphase
    obtain ⟨e, he, h⟩ := Option.map_eq_some_iff.mp h
    split at h
    · rename_i hverdict
      subst h
      exact hquiet he' (popping_none hphase he (by rw [hverdict]; nofun))
    · rename_i hverdict
      subst h
      exact hquiet he' (popping_none hphase he (by rw [hverdict]; nofun))
    · rename_i msg hverdict
      subst h
      exact became_transfer hk hphase he hverdict he'
  · cases h

theorem became_flush {error : ErrorCode} (h : flush cfg error outcome w = some w')
    (he' : w'.epts id = some e') : Became cfg w (.flush error outcome) id e' := by
  have hother : w.epts id = some e' → (∀ msg, sending cfg w ≠ some (id, msg)) →
      Became cfg w (.flush error outcome) id e' := by
    intro hold hsend
    exact .same hold nofun nofun (fun _ _ _ => hsend) nofun nofun
  unfold flush at h
  split at h
  · rename_i sid todo hphase
    obtain ⟨e, he, h⟩ := Option.map_eq_some_iff.mp h
    split at h
    · rename_i hverdict
      subst h
      have hnone := sending_none hphase he (by rw [hverdict]; nofun)
      exact hother he' (by rw [hnone]; nofun)
    · rename_i hverdict
      subst h
      have hnone := sending_none hphase he (by rw [hverdict]; nofun)
      exact hother he' (by rw [hnone]; nofun)
    · rename_i msg hverdict
      have hsend : sending cfg w = some (sid, msg) := sending_eq hphase he hverdict
      obtain ⟨ip, hip⟩ := payIp_eq cfg 0 e msg.cost w
      rw [hip] at h
      have hapart : id ≠ sid → ∀ msg', sending cfg w ≠ some (id, msg') := by
        intro hne msg' hsend'
        rw [hsend] at hsend'
        cases hsend'
        exact hne rfl
      split at h
      · rename_i herror
        subst h
        obtain ⟨hne, hold⟩ | ⟨rfl, e₀, he₀, rfl⟩ := World.modify_some he'
        · exact hother hold (hapart hne)
        · exact .restarted rfl herror hsend he₀
      · rename_i herror
        subst h
        obtain rfl := not_ne_iff.mp herror
        obtain ⟨hne, hold⟩ | ⟨rfl, e₀, he₀, rfl⟩ := World.modify_some he'
        · exact hother hold (hapart hne)
        · exact .sent rfl hsend he₀
  · cases h

theorem became_arrive {aid : EptId} {buf : BufId} {src : Endpoint} {data : List UInt8}
    (h : arrive aid buf src data w = some w') (he' : w'.epts id = some e') :
    Became cfg w (.arrive aid buf src data) id e' := by
  unfold arrive at h
  split at h
  · cases h
  · rename_i e he
    simp only [Option.ite_none_right_eq_some, Option.some.injEq] at h
    obtain ⟨⟨hbuf, hlen⟩, rfl⟩ := h
    obtain ⟨hne, hold⟩ | ⟨rfl, e₀, he₀, rfl⟩ := World.modify_some he'
    · exact .same hold nofun nofun nofun (fun _ _ _ heq => hne (by cases heq; rfl)) nofun
    · rw [he] at he₀
      cases he₀
      exact .arrived rfl he hbuf hlen

theorem became_fail {fid : EptId} {buf : BufId} {error : ErrorCode}
    (h : fail fid buf error w = some w') (he' : w'.epts id = some e') :
    Became cfg w (.fail fid buf error) id e' := by
  unfold fail at h
  split at h
  · cases h
  · rename_i e he
    simp only [Option.ite_none_right_eq_some, Option.some.injEq] at h
    obtain ⟨⟨hbuf, herror⟩, rfl⟩ := h
    obtain ⟨hne, hold⟩ | ⟨rfl, e₀, he₀, rfl⟩ := World.modify_some he'
    · exact .same hold nofun nofun nofun nofun nofun
    · rw [he] at he₀
      cases he₀
      exact .failed rfl he hbuf herror

theorem became_handleRecv {hid : EptId} {r : RecvResult} {draw : ℤ}
    (h : handleRecv hid r draw outcome w = some w') (he' : w'.epts id = some e') :
    Became cfg w (.handleRecv hid r draw outcome) id e' := by
  unfold handleRecv at h
  split at h
  · cases h
  · rename_i e he
    simp only [Option.ite_none_right_eq_some, Option.some.injEq] at h
    obtain ⟨⟨hr, hfree⟩, rfl⟩ := h
    by_cases hne : id = hid
    · subst hne
      simp only [Function.update_self, Option.some.injEq] at he'
      subst he'
      exact .handled rfl he hr (by simpa using hfree)
    · simp only [Function.update_of_ne hne] at he'
      exact .same he' nofun nofun nofun nofun (fun _ _ _ heq => hne (by cases heq; rfl))

theorem became_step (hk : Keyed w) (h : step cfg w ev = some w') (he' : w'.epts id = some e') :
    Became cfg w ev id e' := by
  obtain ⟨-, hrun⟩ := run_of_step h
  clear h
  unfold run at hrun
  cases ev with
  | addServerProxy rule outcome =>
    simp only [Option.ite_none_right_eq_some, Option.some.injEq] at hrun
    obtain ⟨hphase, rfl⟩ := hrun
    exact became_addServerProxy hphase he'
  | visit key => exact became_visit hrun he'
  | relay outcome => exact became_relay hk hrun he'
  | flush error outcome => exact became_flush hrun he'
  | stop =>
    simp only [Option.ite_none_right_eq_some, Option.some.injEq] at hrun
    obtain ⟨hphase, rfl⟩ := hrun
    obtain ⟨e, he, rfl⟩ := Option.map_eq_some_iff.mp he'
    exact .stopped rfl hphase he
  | arrive aid buf src data => exact became_arrive hrun he'
  | fail fid buf error => exact became_fail hrun he'
  | handleRecv hid r draw outcome => exact became_handleRecv hrun he'
  | start | rest =>
    simp only [Option.ite_none_right_eq_some, Option.some.injEq] at hrun
    obtain ⟨-, rfl⟩ := hrun
    exact .same he' nofun nofun nofun nofun nofun
  | tick =>
    simp only [Option.ite_none_right_eq_some, Option.some.injEq] at hrun
    obtain ⟨-, rfl⟩ := hrun
    have hepts : w.tick.epts = w.epts := by
      unfold World.tick
      split <;> rfl
    rw [hepts] at he'
    exact .same he' nofun nofun nofun nofun nofun
  | merge =>
    change merge w = some w' at hrun
    unfold merge at hrun
    split at hrun
    · cases hrun
      exact .same he' nofun nofun nofun nofun nofun
    · cases hrun
  | enter key =>
    change enter key w = some w' at hrun
    unfold enter at hrun
    split at hrun
    · split at hrun
      · cases hrun
        exact .same he' nofun nofun nofun nofun nofun
      · cases hrun
    · cases hrun
  | clock | ip =>
    cases hrun
    exact .same he' nofun nofun nofun nofun nofun

end TcpUdpProxy.UdpServer
