import TcpUdpProxy.UdpBuffers

namespace TcpUdpProxy.UdpServer

open UdpEndpointProxy AssociationList Relation Execution

def Phase.scanning : Phase → Bool
  | .scan _ | .relay .. => true
  | _ => false

/-- The clock is positive where it is read, and during the relay pass no older than the timeout. -/
def ClockSteady (cfg : Config) (w : World) : Event → Prop
  | .addServerProxy .. | .tick => 0 < w.clock
  | .relay _ | .handleRecv .. =>
    0 < w.clock ∧ (w.phase.scanning = true → w.now - cfg.udpTimeout ≤ w.clock)
  | _ => True

def taken (cfg : Config) (w : World) : Option UdpMsg :=
  match w.phase with
  | .relay key id _ =>
    (w.epts id).bind fun e =>
      match recvVerdict cfg key w e with
      | .take msg => some msg
      | _ => none
  | _ => none

/-- No second datagram comes from a source that has got its endpoint in the same tick. -/
def SourceFresh (cfg : Config) (w : World) : Event → Prop
  | .relay _ => ∀ msg ∈ taken cfg w, msg.src ∈ w.endpoints ∨ msg.src ∉ w.newEpts
  | _ => True

def Lossless (cfg : Config) (w : World) (ev : Event) : Prop := ClockSteady cfg w ev ∧ SourceFresh cfg w ev

instance (cfg : Config) (w : World) : ∀ ev, Decidable (ClockSteady cfg w ev)
  | .addServerProxy .. | .tick => inferInstanceAs (Decidable (0 < w.clock))
  | .relay _ | .handleRecv .. => inferInstanceAs (Decidable (_ ∧ (_ → _)))
  | .start | .visit _ | .merge | .enter _ | .flush .. | .rest | .stop | .arrive .. | .fail ..
  | .clock _ | .ip _ => isTrue trivial

instance (cfg : Config) (w : World) : ∀ ev, Decidable (SourceFresh cfg w ev)
  | .relay _ => inferInstanceAs (Decidable (∀ msg ∈ taken cfg w, _ ∨ _))
  | .addServerProxy .. | .tick | .handleRecv .. | .start | .visit _ | .merge | .enter _ | .flush ..
  | .rest | .stop | .arrive .. | .fail .. | .clock _ | .ip _ => isTrue trivial

instance (cfg : Config) (w : World) (ev : Event) : Decidable (Lossless cfg w ev) :=
  inferInstanceAs (Decidable (_ ∧ _))

def Relayed.Settled (r : Relayed) (e : UdpEndpointProxy) : Prop :=
  r.kept = true ∧ r.msg ∈ e.sendQueue ∨ r.kept = false ∧ maxUdpMsgQueueSize ≤ e.sendQueue.length

def Active (cfg : Config) (w : World) (t : Msec) : Prop := 0 < t ∧ w.now - cfg.udpTimeout ≤ t

def Listed (w : World) (id : EptId) : Prop :=
  ∃ k, w.endpoints.lookup k = some id ∨ w.newEpts.lookup k = some id

structure Logged (cfg : Config) (w : World) (r : Relayed) : Prop where
  released : Released w r.msg.msg.buf
  bytes : r.msg.msg.bytes w.heap = r.bytes
  listed : Listed w r.sender
  settled : ∀ e, w.epts r.sender = some e → r.Settled e ∧ Active cfg w e.activeTm

structure Ticking (cfg : Config) (w : World) : Prop where
  keyed : Keyed w
  healthy : Healthy w
  awake : w.phase ≠ .stopped → ∀ id e, w.epts id = some e → 0 < e.activeTm
  now_pos : w.phase.scanning = true → 0 < w.now
  logged : w.phase.scanning = true → ∀ r ∈ w.relayed, Logged cfg w r

section queues

variable {w : World} {ev : Event} {e e' : UdpEndpointProxy}

theorem sendQueue_debitRecv (msg : UdpMsg) (e : UdpEndpointProxy) :
    (debitRecv msg e).popRecv.sendQueue = e.sendQueue ∧
      (debitRecv msg e).popRecv.activeTm = e.activeTm := by
  unfold popRecv debitRecv
  dsimp only
  split <;> split <;> exact ⟨rfl, rfl⟩

theorem sendQueue_pushSend (msg : UdpMsg) (e : UdpEndpointProxy) :
    e.sendQueue <+: (pushSend msg e).sendQueue ∧ (pushSend msg e).activeTm = e.activeTm := by
  unfold pushSend
  split
  · exact ⟨List.prefix_append _ _, rfl⟩
  · exact ⟨List.prefix_rfl, rfl⟩

theorem sendQueue_credit (interval : Msec) (e : UdpEndpointProxy) :
    (credit interval e).sendQueue = e.sendQueue ∧ (credit interval e).activeTm = e.activeTm := by
  unfold credit
  split <;> exact ⟨rfl, rfl⟩

theorem sendQueue_touch (now : Msec) (e : UdpEndpointProxy) :
    (touch now e).sendQueue = e.sendQueue ∧
      ((touch now e).activeTm = now ∨ (touch now e).activeTm = e.activeTm) := by
  unfold touch
  split
  · exact ⟨rfl, .inl rfl⟩
  · exact ⟨rfl, .inr rfl⟩

theorem sendQueue_handled {r : RecvResult} {draw : ℤ} {outcome : InitOutcome}
    (hr : r.error = .success ∨ r.error = .operationAborted) :
    (handled w r draw outcome e).1.sendQueue = e.sendQueue ∧
      ((handled w r draw outcome e).1.activeTm = w.clock ∨
        (handled w r draw outcome e).1.activeTm = e.activeTm) := by
  rcases hr with hr | hr
  · unfold handled UdpEndpointProxy.handleRecv
    rw [if_neg (not_ne_iff.mpr hr)]
    dsimp only
    split
    · exact ⟨rfl, .inl rfl⟩
    · split <;> exact ⟨rfl, .inl rfl⟩
  · rw [handled_aborted hr]
    exact ⟨rfl, .inr rfl⟩

theorem Change.activeTm {P : Msec → Prop} (h : Change w ev e e') (hg : Succeeds w ev)
    (hstop : ev ≠ .stop) (hnow : ∀ outcome, ev = .relay outcome → P w.now)
    (hclock : ∀ id r draw outcome, ev = .handleRecv id r draw outcome → P w.clock)
    (he : P e.activeTm) : P e'.activeTm := by
  cases h with
  | credit =>
    rw [(sendQueue_credit _ e).2]
    exact he
  | touch =>
    rcases (sendQueue_touch w.now e).2 with heq | heq
    · rw [heq]
      exact hnow _ rfl
    · rw [heq]
      exact he
  | pushSend msg =>
    rw [(sendQueue_pushSend msg e).2]
    exact he
  | popRecv msg =>
    rw [(sendQueue_debitRecv msg e).2]
    exact he
  | restart herror => exact absurd hg herror
  | sent | arrive => exact he
  | stop => exact absurd rfl hstop
  | fail => exact absurd hg id
  | handleRecv =>
    rcases (sendQueue_handled (w := w) (e := e) hg).2 with heq | heq
    · rw [heq]
      exact hclock _ _ _ _ rfl
    · rw [heq]
      exact he

theorem activeTm_changes {P : Msec → Prop} (h : ReflTransGen (Change w ev) e e') (hg : Succeeds w ev)
    (hstop : ev ≠ .stop) (hnow : ∀ outcome, ev = .relay outcome → P w.now)
    (hclock : ∀ id r draw outcome, ev = .handleRecv id r draw outcome → P w.clock)
    (he : P e.activeTm) : P e'.activeTm := by
  induction h with
  | refl => exact he
  | tail _ hstep ih => exact hstep.activeTm hg hstop hnow hclock ih

theorem prefix_of_eq {α : Type} {xs ys : List α} (h : ys = xs) : xs <+: ys := ⟨[], by simp [h]⟩

theorem Change.sendQueue (h : Change w ev e e') (hg : Succeeds w ev) (hscan : w.phase.scanning = true) :
    e.sendQueue <+: e'.sendQueue := by
  cases h with
  | credit =>
    exact prefix_of_eq (sendQueue_credit _ e).1
  | touch =>
    exact prefix_of_eq (sendQueue_touch _ e).1
  | pushSend msg => exact (sendQueue_pushSend msg e).1
  | popRecv msg =>
    exact prefix_of_eq (sendQueue_debitRecv msg e).1
  | restart herror => exact absurd hg herror
  | sent msg hphase =>
    rw [hphase] at hscan
    cases hscan
  | stop | arrive => exact List.prefix_rfl
  | fail => exact absurd hg id
  | handleRecv =>
    exact prefix_of_eq (sendQueue_handled (w := w) (e := e) hg).1

theorem sendQueue_changes (h : ReflTransGen (Change w ev) e e') (hg : Succeeds w ev)
    (hscan : w.phase.scanning = true) : e.sendQueue <+: e'.sendQueue := by
  induction h with
  | refl => exact List.prefix_rfl
  | tail _ hstep ih => exact ih.trans (hstep.sendQueue hg hscan)

theorem Relayed.Settled.mono {r : Relayed} (h : r.Settled e) (hq : e.sendQueue <+: e'.sendQueue) :
    r.Settled e' := by
  rcases h with ⟨hkept, hmem⟩ | ⟨hkept, hlen⟩
  · exact .inl ⟨hkept, hq.subset hmem⟩
  · exact .inr ⟨hkept, hlen.trans hq.length_le⟩

theorem settled_pushSend (msg : UdpMsg) (bytes : List UInt8) (sender : EptId) (e : UdpEndpointProxy) :
    Relayed.Settled ⟨msg, bytes, sender, hasRoom e⟩ (pushSend msg e) := by
  unfold pushSend hasRoom Relayed.Settled
  split
  · rename_i hroom
    exact .inl ⟨by simpa using hroom, by simp⟩
  · rename_i hfull
    exact .inr ⟨by simpa using hfull, not_lt.mp hfull⟩

end queues

section log

variable {cfg : Config} {w w' : World} {ev : Event} {r : Relayed} {id : EptId}
  {e e' : UdpEndpointProxy}

theorem Keyed.exists_of_listed (h : Keyed w) (hl : Listed w id) : ∃ e, w.epts id = some e := by
  obtain ⟨k, hk | hk⟩ := hl
  · obtain ⟨e, he, -⟩ := h.mapped k id hk
    exact ⟨e, he⟩
  · obtain ⟨e, he, -⟩ := h.staged k id hk
    exact ⟨e, he⟩

theorem Keyed.ne_nextEpt (h : Keyed w) (he : w.epts id = some e) : id ≠ w.nextEpt := by
  rintro rfl
  rw [h.fresh _ (le_refl _)] at he
  cases he

theorem relay_scanning {outcome : InitOutcome} (h : Stepped cfg w (.relay outcome) w') : w.phase.scanning = true := by
  cases h with
  | unlock hphase | relayFault hphase | transfer hphase =>
    rw [hphase]
    rfl

theorem Logged.next (hl : Logged cfg w r) (hw : Ticking cfg w) (h : Stepped cfg w ev w')
    (hg : Succeeds w ev) (hc : ClockSteady cfg w ev) (htimeout : 0 ≤ cfg.udpTimeout)
    (hscan : w.phase.scanning = true) (hstop : ev ≠ .stop) (hnow : w'.now = w.now)
    (hlisted : Listed w' r.sender) : Logged cfg w' r := by
  refine ⟨released_step h hl.released, ?_, hlisted, ?_⟩
  · rw [bytes_step hw.healthy h hl.released]
    exact hl.bytes
  · intro e' he'
    obtain ⟨e, he⟩ := hw.keyed.exists_of_listed hl.listed
    cases (makes_step h).origin _ e' he' with
    | created hid => exact absurd hid (hw.keyed.ne_nextEpt he)
    | changed hd hchain =>
      rw [he] at hd
      cases hd
      obtain ⟨hsettled, hactive⟩ := hl.settled e he
      refine ⟨hsettled.mono (sendQueue_changes hchain hg hscan), ?_⟩
      unfold Active
      rw [hnow]
      apply activeTm_changes hchain hg hstop _ _ hactive
      · rintro outcome rfl
        exact ⟨hw.now_pos hscan, Int.sub_le_self _ htimeout⟩
      · rintro id r draw outcome rfl
        exact ⟨hc.1, hc.2 hscan⟩

theorem pass_settled {u : World} {sender : EptId} {msg : UdpMsg}
    (he' : (u.pass sender msg).epts sender = some e') : ∃ e, u.epts sender = some e ∧
      e'.activeTm = e.activeTm ∧
      Relayed.Settled ⟨msg, msg.msg.bytes u.heap, sender, (u.epts sender).any hasRoom⟩ e' := by
  obtain ⟨hne, -⟩ | ⟨-, e, he, rfl⟩ := World.modify_some (w := u) he'
  · exact absurd rfl hne
  · refine ⟨e, he, (sendQueue_pushSend msg e).2, ?_⟩
    rw [he]
    exact settled_pushSend msg _ sender e

structure Handed (cfg : Config) (w : World) (msg : UdpMsg) (v : World) (r : Relayed) : Prop where
  log : v.relayed = w.relayed ++ [r]
  msg_eq : r.msg = msg
  bytes : r.bytes = msg.msg.bytes w.heap
  listed : Listed v r.sender
  settled : ∀ e, v.epts r.sender = some e → r.Settled e ∧ Active cfg w e.activeTm
  lists : ∀ id, Listed w id → Listed v id

theorem activeTm_create (bandwidth : PairId → ℤ) (rule : UdpProxyRule) (buf : BufId) (now : Msec) :
    (create bandwidth rule buf .success now).activeTm = now := rfl

theorem handed_known {src : Endpoint} {sender : EptId} {rule : UdpProxyRule} {outcome : InitOutcome}
    {msg : UdpMsg} (hw : Ticking cfg w) (hscan : w.phase.scanning = true)
    (htimeout : 0 ≤ cfg.udpTimeout) (hsrc : w.endpoints.lookup src = some sender) :
    ∃ r, Handed cfg w msg (w.hand cfg outcome rule src msg) r := by
  have hhand : w.hand cfg outcome rule src msg = (w.modify sender (touch w.now)).pass sender msg := by
    simp only [World.hand, hsrc]
  rw [hhand]
  refine ⟨_, rfl, rfl, rfl, ⟨src, .inl hsrc⟩, ?_, fun _ h => h⟩
  intro e' he'
  obtain ⟨e, he, htm, hsettled⟩ := pass_settled he'
  refine ⟨hsettled, ?_⟩
  obtain ⟨hne, -⟩ | ⟨-, d, hd, rfl⟩ := World.modify_some he
  · exact absurd rfl hne
  · have hphase : w.phase ≠ .stopped := by
      intro hphase
      rw [hphase] at hscan
      cases hscan
    have hpos := hw.awake hphase sender d hd
    have hnow : (touch w.now d).activeTm = w.now := by
      unfold touch
      rw [if_pos hpos.ne']
    rw [htm, hnow]
    exact ⟨hw.now_pos hscan, Int.sub_le_self _ htimeout⟩

theorem handed_new {src : Endpoint} {rule : UdpProxyRule} {msg : UdpMsg}
    (hclock : Active cfg w w.clock) (hsrc : w.endpoints.lookup src = none)
    (hnew : w.newEpts.lookup src = none) :
    ∃ r, Handed cfg w msg (w.hand cfg .success rule src msg) r := by
  have hmade : ((w.make cfg.bandwidth (World.clientRule rule src) .success).epts w.nextEpt).any
      (fun e => e.activeTm ≠ 0) = true := by
    simp only [World.make, Function.update_self, Option.any_some]
    rw [activeTm_create]
    simpa using hclock.1.ne'
  have hhand : w.hand cfg .success rule src msg =
      { w.make cfg.bandwidth (World.clientRule rule src) .success with
        newEpts := w.newEpts.insert src w.nextEpt }.pass w.nextEpt msg := by
    have hstaged : (w.make cfg.bandwidth (World.clientRule rule src) .success).newEpts.lookup src = none :=
      hnew
    simp only [World.hand, hsrc, World.passNew, hmade, if_true, World.stage, hstaged, World.replace]
    rfl
  rw [hhand]
  refine ⟨_, rfl, rfl, rfl, ⟨src, .inr (AList.lookup_insert _)⟩, ?_, ?_⟩
  · intro e' he'
    obtain ⟨e, he, htm, hsettled⟩ := pass_settled he'
    refine ⟨hsettled, ?_⟩
    simp only [World.make, Function.update_self, Option.some.injEq] at he
    subst he
    rw [htm]
    exact hclock
  · rintro id ⟨k, hk | hk⟩
    · exact ⟨k, .inl hk⟩
    · exact ⟨k, .inr (lookup_insert_new hnew hk)⟩

theorem Handed.popRecv {v : World} {msg : UdpMsg} (id : EptId) (m : UdpMsg)
    (h : Handed cfg w msg v r) :
    Handed cfg w msg (v.modify id fun e => (debitRecv m e).popRecv) r := by
  refine ⟨h.log, h.msg_eq, h.bytes, h.listed, ?_, h.lists⟩
  intro e' he'
  obtain ⟨-, he'⟩ | ⟨rfl, e, he, rfl⟩ := World.modify_some he'
  · exact h.settled e' he'
  · obtain ⟨hsettled, hactive⟩ := h.settled e he
    obtain ⟨hqueue, htm⟩ := sendQueue_debitRecv m e
    rw [htm]
    refine ⟨hsettled.mono ?_, hactive⟩
    exact prefix_of_eq hqueue

theorem Ticking.withIp (h : Ticking cfg w) (ip : Address → IPProxy) : Ticking cfg { w with ip := ip } where
  keyed := ⟨h.keyed.mapped, h.keyed.staged, h.keyed.apart, h.keyed.fresh, h.keyed.locked, h.keyed.setup⟩
  healthy := ⟨h.healthy.single, h.healthy.distinct, h.healthy.queued⟩
  awake := h.awake
  now_pos := h.now_pos
  logged hscan r hr :=
    have hl := h.logged hscan r hr
    ⟨hl.released, hl.bytes, hl.listed, hl.settled⟩

theorem mem_of_take {key : Endpoint} {msg : UdpMsg} (h : recvVerdict cfg key w e = .take msg) :
    msg ∈ e.recvQueue := by
  unfold recvVerdict at h
  split at h
  · cases h
  · rename_i head rest hqueue
    have hhead : head = msg := by
      split at h
      · cases h
      · split at h
        · cases h
        · split at h
          · cases h
          · split at h <;> cases h
            rfl
    rw [hqueue, hhead]
    exact List.mem_cons_self

theorem mem_taken {key : Endpoint} {todo : List Endpoint} {msg : UdpMsg}
    (hphase : w.phase = .relay key id todo) (he : w.epts id = some e)
    (hverdict : recvVerdict cfg key w e = .take msg) : msg ∈ taken cfg w := by
  simp [taken, hphase, he, hverdict]

theorem handed_transfer {outcome : InitOutcome} {key : Endpoint} {todo : List Endpoint} {msg : UdpMsg}
    (hw : Ticking cfg w) (hg : Succeeds w (.relay outcome)) (hc : Lossless cfg w (.relay outcome))
    (htimeout : 0 ≤ cfg.udpTimeout) (hphase : w.phase = .relay key id todo) (he : w.epts id = some e)
    (hverdict : recvVerdict cfg key w e = .take msg) :
    ∃ r, Handed cfg w { msg with src := key } (w.transfer cfg outcome key id e msg) r := by
  have hscan : w.phase.scanning = true := by
    rw [hphase]
    rfl
  obtain rfl : outcome = .success := hg
  obtain ⟨ip, hip⟩ := payIp_eq cfg 1 e msg.cost w
  have hhand : ∃ r, Handed cfg { w with ip := ip } { msg with src := key }
      (World.hand cfg .success e.proxyRule msg.src { msg with src := key } { w with ip := ip }) r := by
    cases hsrc : w.endpoints.lookup msg.src with
    | some sender => exact handed_known (hw.withIp ip) hscan htimeout hsrc
    | none =>
      have hnew : w.newEpts.lookup msg.src = none := by
        apply AList.lookup_eq_none.mpr
        apply (hc.2 msg (mem_taken hphase he hverdict)).resolve_left
        exact AList.lookup_eq_none.mp hsrc
      exact handed_new ⟨hc.1.1, hc.1.2 hscan⟩ hsrc hnew
  obtain ⟨r, hr⟩ := hhand
  have hpop := hr.popRecv id msg
  unfold World.transfer
  rw [hip]
  exact ⟨r, hpop.log, hpop.msg_eq, hpop.bytes, hpop.listed, hpop.settled, hpop.lists⟩

theorem logged_step (hw : Ticking cfg w) (h : Stepped cfg w ev w') (hg : Succeeds w ev)
    (hc : Lossless cfg w ev) (htimeout : 0 ≤ cfg.udpTimeout) (hscan' : w'.phase.scanning = true) :
    0 < w'.now ∧ ∀ r ∈ w'.relayed, Logged cfg w' r := by
  -- a step of the relay pass that leaves the log alone
  have hkeep : w.phase.scanning = true → ev ≠ .stop → w'.now = w.now → w'.relayed = w.relayed →
      (∀ r ∈ w.relayed, Listed w' r.sender) → 0 < w'.now ∧ ∀ r ∈ w'.relayed, Logged cfg w' r := by
    intro hscan hstop hnow hlog hlisted
    rw [hnow, hlog]
    refine ⟨hw.now_pos hscan, ?_⟩
    intro r hr
    exact (hw.logged hscan r hr).next hw h hg hc.1 htimeout hscan hstop hnow (hlisted r hr)
  have hsame : w'.endpoints = w.endpoints → w'.newEpts = w.newEpts → w.phase.scanning = true →
      ∀ r ∈ w.relayed, Listed w' r.sender := by
    intro hendpoints hnewEpts hscan r hr
    obtain ⟨k, hk⟩ := (hw.logged hscan r hr).listed
    exact ⟨k, by rwa [hendpoints, hnewEpts]⟩
  cases h with
  | tick => exact ⟨hc.1, by simp⟩
  | @expire key id todo e hphase hkey hlookup he hexpired =>
    have hscan : w.phase.scanning = true := by rw [hphase]; rfl
    refine hkeep hscan nofun rfl rfl ?_
    intro r hr
    have hl := hw.logged hscan r hr
    obtain ⟨k, hk | hk⟩ := hl.listed
    · have hne : k ≠ key := by
        rintro rfl
        rw [hlookup] at hk
        cases hk
        -- a sender was touched in this very pass, so the scan cannot find it expired
        obtain ⟨-, hpos, hfresh⟩ := hl.settled e he
        simp only [expired, Bool.or_eq_true, Bool.and_eq_true, decide_eq_true_eq] at hexpired
        obtain hzero | ⟨hold, -⟩ := hexpired
        · exact hpos.ne' hzero
        · exact absurd hfresh (not_le.mpr hold)
      exact ⟨k, .inl ((AList.lookup_erase_ne hne).trans hk)⟩
    · exact ⟨k, .inr hk⟩
  | lock hphase | unlock hphase | relayFault hphase =>
    have hscan : w.phase.scanning = true := by rw [hphase]; rfl
    exact hkeep hscan nofun rfl rfl (hsame rfl rfl hscan)
  | arrive | fail | handleRecv | clock | ip =>
    exact hkeep hscan' nofun rfl rfl (hsame rfl rfl hscan')
  | @transfer outcome key id todo e msg hphase he hverdict =>
    have hscan : w.phase.scanning = true := by rw [hphase]; rfl
    obtain ⟨r, hr⟩ := handed_transfer hw hg hc htimeout hphase he hverdict
    have hnow : (w.transfer cfg outcome key id e msg).now = w.now := by
      obtain ⟨ip, newEpts, epts, nextEpt, nextBuf, relayed, heq⟩ := transfer_eq cfg outcome key id e msg w
      rw [heq]
    have hstep : Stepped cfg w (.relay outcome) (w.transfer cfg outcome key id e msg) :=
      .transfer hphase he hverdict
    rw [hnow, hr.log]
    refine ⟨hw.now_pos hscan, ?_⟩
    intro r' hr'
    rcases List.mem_append.mp hr' with hr' | hr'
    · have hl := hw.logged hscan r' hr'
      exact hl.next hw hstep hg hc.1 htimeout hscan nofun hnow (hr.lists _ hl.listed)
    · obtain rfl := List.mem_singleton.mp hr'
      have hmsg : Released w msg.msg.buf := hw.healthy.queued id e he msg (mem_of_take hverdict)
      refine ⟨?_, ?_, hr.listed, ?_⟩
      · rw [hr.msg_eq]
        exact released_step hstep hmsg
      · rw [hr.bytes, hr.msg_eq]
        exact bytes_step hw.healthy hstep (b := msg.msg) hmsg
      · intro e' he'
        obtain ⟨hsettled, hactive⟩ := hr.settled e' he'
        unfold Active at hactive ⊢
        rw [hnow]
        exact ⟨hsettled, hactive⟩
  | @addServerProxy rule outcome hphase =>
    obtain ⟨epts, heq⟩ := addServerProxy_eq rule outcome w
    have hscan : w.phase.scanning = true := by
      rw [heq] at hscan'
      exact hscan'
    rw [hphase] at hscan
    cases hscan
  | early hphase | flushFault hphase | sent hphase =>
    have hscan : w.phase.scanning = true := hscan'
    rw [hphase] at hscan
    cases hscan
  | _ => cases hscan'

theorem phase_stopped (h : Stepped cfg w ev w') (hstopped : w.phase = .stopped) :
    w'.phase = .stopped := by
  cases h with
  | arrive | fail | handleRecv | clock | ip => exact hstopped
  | addServerProxy hphase | start hphase | early hphase | tick hphase | expire hphase | lock hphase
  | unlock hphase | relayFault hphase | transfer hphase | merge hphase | enter hphase | leave hphase
  | flushFault hphase | restart hphase | sent hphase | rest hphase =>
    rw [hphase] at hstopped
    cases hstopped
  | stop => rfl

theorem awake_step (hw : Ticking cfg w) (h : Stepped cfg w ev w') (hg : Succeeds w ev)
    (hc : ClockSteady cfg w ev) (hphase : w'.phase ≠ .stopped) (he' : w'.epts id = some e') :
    0 < e'.activeTm := by
  have hstop : ev ≠ .stop := by
    rintro rfl
    cases h
    exact hphase rfl
  have hnow : ∀ outcome, ev = .relay outcome → 0 < w.now := by
    rintro outcome rfl
    exact hw.now_pos (relay_scanning h)
  have hclock : ∀ id r draw outcome, ev = .handleRecv id r draw outcome → 0 < w.clock := by
    rintro id r draw outcome rfl
    exact hc.1
  cases (makes_step h).origin id e' he' with
  | changed he hchain =>
    apply activeTm_changes hchain hg hstop hnow hclock
    exact hw.awake (fun hstopped => hphase (phase_stopped h hstopped)) id _ he
  | @created bandwidth rule outcome hid hmakes hbuf hchain =>
    have hcreated : outcome = .success ∧ 0 < w.clock := by
      cases ev with
      | addServerProxy | relay =>
        cases hmakes
        first | exact ⟨hg, hc⟩ | exact ⟨hg, hc.1⟩
      | _ => cases hmakes
    apply activeTm_changes hchain hg hstop hnow hclock
    rw [hcreated.1, activeTm_create]
    exact hcreated.2

theorem ticking_step (hw : Ticking cfg w) (h : Stepped cfg w ev w') (hg : Succeeds w ev)
    (hc : Lossless cfg w ev) (htimeout : 0 ≤ cfg.udpTimeout) : Ticking cfg w' where
  keyed := keyed_step hw.keyed h
  healthy := healthy_step hw.healthy hg h
  awake hphase _ _ he := awake_step hw h hg hc.1 hphase he
  now_pos hscan := (logged_step hw h hg hc htimeout hscan).1
  logged hscan := (logged_step hw h hg hc htimeout hscan).2

theorem ticking_initial (h : Initial w) : Ticking cfg w := by
  have hkeyed := keyed_initial h
  have hhealthy := healthy_initial h
  obtain ⟨clock, ip, heap, rfl⟩ := h
  refine ⟨hkeyed, hhealthy, ?_, ?_, ?_⟩
  · intro hphase id e he
    cases he
  · intro hscan
    cases hscan
  · intro hscan
    cases hscan

end log

/-- When the send pass begins, the datagram is in the queue of an endpoint of `endpoints`, with
the bytes it was taken with, or that queue was full. -/
def Delivered (w : World) (r : Relayed) : Prop :=
  ∃ k e, w.endpoints.lookup k = some r.sender ∧ w.epts r.sender = some e ∧ r.Settled e ∧
    r.msg.msg.bytes w.heap = r.bytes

def conversation : List Event :=
  [.addServerProxy ⟨53, ⟨1, 53⟩, 0, 0, 0⟩ .success, .start, .arrive 0 1 ⟨9, 4000⟩ [7],
    .handleRecv 0 ⟨1, .success, 1⟩ 1 .success, .clock 20, .tick, .visit ⟨1, 53⟩, .relay .success,
    .relay .success]

def burst : List Event :=
  [.addServerProxy ⟨53, ⟨1, 53⟩, 0, 0, 0⟩ .success, .start, .arrive 0 1 ⟨9, 4000⟩ [7],
    .handleRecv 0 ⟨1, .success, 1⟩ 1 .success, .arrive 0 2 ⟨9, 4000⟩ [8],
    .handleRecv 0 ⟨2, .success, 1⟩ 1 .success, .clock 20, .tick, .visit ⟨1, 53⟩, .relay .success,
    .relay .success, .relay .success]

end TcpUdpProxy.UdpServer
