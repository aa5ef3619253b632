import TcpUdpProxy.UdpPass

namespace TcpUdpProxy.UdpServer

open UdpEndpointProxy Execution

def Orderly (w : World) : Event → Prop
  | .addServerProxy rule _ => 0 ≤ rule.delayMs
  | .clock now => w.clock ≤ now
  | .flush error _ => error = .success
  | _ => True

instance (w : World) : ∀ ev, Decidable (Orderly w ev)
  | .addServerProxy rule _ => inferInstanceAs (Decidable (0 ≤ rule.delayMs))
  | .clock now => inferInstanceAs (Decidable (w.clock ≤ now))
  | .flush error _ => inferInstanceAs (Decidable (error = .success))
  | .start | .tick | .visit _ | .relay _ | .merge | .enter _ | .rest | .stop | .arrive .. | .fail ..
  | .handleRecv .. | .ip _ => isTrue trivial

def Served (now : Msec) (e : UdpEndpointProxy) : Prop :=
  e.recvAvailBytes < 0 ∨ ∀ msg ∈ e.recvQueue, now ≤ msg.time

def Drained (e : UdpEndpointProxy) : Prop := e.sendAvailBytes < 0 ∨ e.sendQueue = []

def Phase.Scanned (key : Endpoint) : Phase → Prop
  | .scan todo => key ∉ todo
  | .relay key' _ todo => key ≠ key' ∧ key ∉ todo
  | .send _ | .flush .. => True
  | _ => False

def Phase.Flushed (key : Endpoint) (id : EptId) : Phase → Prop
  | .send todo => key ∉ todo
  | .flush id' todo => id ≠ id' ∧ key ∉ todo
  | _ => False

structure Stamped (clock : Msec) (e : UdpEndpointProxy) : Prop where
  delay : 0 ≤ e.proxyRule.delayMs
  sorted : e.recvQueue.Pairwise fun msg msg' => msg.time ≤ msg'.time
  bounded : ∀ msg ∈ e.recvQueue, msg.time ≤ clock + e.proxyRule.delayMs

structure Timely (w : World) : Prop where
  visiting : Visiting w
  now_le : w.now ≤ w.clock
  stamped : ∀ id e, w.epts id = some e → Stamped w.clock e
  served : ∀ id e, w.epts id = some e → w.phase.Scanned e.proxyRule.dstEndpoint → Served w.now e
  drained : ∀ id e, w.epts id = some e → w.phase.Flushed e.proxyRule.dstEndpoint id → Drained e

variable {cfg : Config} {w w' w₀ : World} {ev : Event} {id : EptId} {e e' : UdpEndpointProxy} {key : Endpoint}
  {msg : UdpMsg} {todo : List Endpoint} {es : List Event}

section verdicts

theorem ipGate_unlimited {direction : PairId} (hbandwidth : cfg.bandwidth direction ≤ 0) :
    ipGate cfg direction w e = .ok true := by
  unfold ipGate
  rw [if_neg]
  rintro ⟨-, hpos⟩
  omega

theorem served_of_done (hbandwidth : cfg.bandwidth 1 ≤ 0) (he : Stamped w.clock e)
    (h : recvVerdict cfg key w e = .done) : Served w.now e := by
  unfold recvVerdict at h
  split at h
  · rename_i hqueue
    right
    intro msg hmsg
    rw [hqueue] at hmsg
    cases hmsg
  · rename_i head rest hqueue
    split at h
    · rename_i havail
      exact .inl havail
    · split at h
      · cases h
      · split at h
        · rename_i htime
          right
          have hsorted := he.sorted
          rw [hqueue] at hsorted ⊢
          intro msg hmsg
          rcases List.mem_cons.mp hmsg with rfl | hmsg
          · exact htime.le
          · exact htime.le.trans ((List.pairwise_cons.mp hsorted).1 msg hmsg)
        · rw [ipGate_unlimited hbandwidth] at h
          cases h

theorem drained_of_done (hbandwidth : cfg.bandwidth 0 ≤ 0) (h : sendVerdict cfg w e = .done) : Drained e := by
  unfold sendVerdict at h
  split at h
  · rename_i hqueue
    exact .inr hqueue
  · split at h
    · rename_i havail
      exact .inl havail
    · rw [ipGate_unlimited hbandwidth] at h
      cases h

end verdicts

section stamps

theorem Stamped.later {clock : Msec} (h : Stamped w.clock e) (hclock : w.clock ≤ clock) : Stamped clock e := by
  refine ⟨h.delay, h.sorted, fun msg hmsg => ?_⟩
  exact (h.bounded msg hmsg).trans (Int.add_le_add_right hclock _)

theorem Stamped.congr {clock : Msec} (h : Stamped clock e) (hrule : e'.proxyRule = e.proxyRule)
    (hqueue : e'.recvQueue = e.recvQueue) : Stamped clock e' := by
  obtain ⟨hdelay, hsorted, hbounded⟩ := h
  rw [← hrule] at hdelay hbounded
  rw [← hqueue] at hsorted hbounded
  exact ⟨hdelay, hsorted, hbounded⟩

theorem stamped_new {clock : Msec} (hdelay : 0 ≤ e.proxyRule.delayMs) (hqueue : e.recvQueue = []) :
    Stamped clock e := by
  refine ⟨hdelay, ?_, ?_⟩ <;> rw [hqueue]
  · exact .nil
  · nofun

theorem Stamped.tail {clock : Msec} (h : Stamped clock e) (hrule : e'.proxyRule = e.proxyRule)
    (hqueue : e'.recvQueue = e.recvQueue.tail) : Stamped clock e' := by
  refine ⟨hrule ▸ h.delay, hqueue ▸ h.sorted.tail, ?_⟩
  intro msg hmsg
  rw [hrule]
  rw [hqueue] at hmsg
  exact h.bounded msg (List.mem_of_mem_tail hmsg)

theorem Stamped.push {clock : Msec} (h : Stamped clock e) (hrule : e'.proxyRule = e.proxyRule)
    (hqueue : e'.recvQueue = e.recvQueue ++ [msg]) (htime : msg.time = clock + e.proxyRule.delayMs) :
    Stamped clock e' := by
  refine ⟨hrule ▸ h.delay, ?_, ?_⟩
  · rw [hqueue, List.pairwise_append]
    refine ⟨h.sorted, List.pairwise_singleton _ _, ?_⟩
    intro msg' hmsg' msg'' hmsg''
    obtain rfl := List.mem_singleton.mp hmsg''
    exact (h.bounded msg' hmsg').trans htime.ge
  · intro msg' hmsg'
    rw [hrule]
    rw [hqueue] at hmsg'
    rcases List.mem_append.mp hmsg' with hmsg' | hmsg'
    · exact h.bounded msg' hmsg'
    · obtain rfl := List.mem_singleton.mp hmsg'
      exact htime.le

end stamps

section endpoints

theorem recvQueue_create (bandwidth : PairId → ℤ) (rule : UdpProxyRule) (buf : BufId) (outcome : InitOutcome)
    (now : Msec) : (create bandwidth rule buf outcome now).recvQueue = [] := by
  obtain ⟨s, t, heq⟩ := create_eq bandwidth rule buf outcome now
  rw [heq]

inductive QueueStep (w : World) (id : EptId) (e' : UdpEndpointProxy) : Prop
  | kept {e : UdpEndpointProxy} (he : w.epts id = some e) (hrule : e'.proxyRule = e.proxyRule)
      (hqueue : e'.recvQueue = e.recvQueue) (hbudget : e'.recvAvailBytes ≤ e.recvAvailBytes)
  | credited {e : UdpEndpointProxy} {todo : List Endpoint} (he : w.epts id = some e) (hphase : w.phase = .scan todo)
      (hkey : e'.proxyRule.dstEndpoint ∈ todo) (hrule : e'.proxyRule = e.proxyRule)
      (hqueue : e'.recvQueue = e.recvQueue)
  | popped {e : UdpEndpointProxy} (he : w.epts id = some e) (hrule : e'.proxyRule = e.proxyRule)
      (hqueue : e'.recvQueue = e.recvQueue.tail) (hbudget : e'.recvAvailBytes ≤ e.recvAvailBytes)
  | pushed {e : UdpEndpointProxy} {msg : UdpMsg} (he : w.epts id = some e) (hrule : e'.proxyRule = e.proxyRule)
      (hqueue : e'.recvQueue = e.recvQueue ++ [msg]) (htime : msg.time = w.clock + e.proxyRule.delayMs)
      (hbudget : e'.recvAvailBytes ≤ e.recvAvailBytes)
  | made (hqueue : e'.recvQueue = []) (hdelay : 0 ≤ e'.proxyRule.delayMs)

theorem recvAvailBytes_debitRecv (msg : UdpMsg) (e : UdpEndpointProxy) :
    (debitRecv msg e).recvAvailBytes ≤ e.recvAvailBytes := by
  unfold debitRecv
  split
  · have hcost : 0 ≤ msg.cost := Int.add_nonneg (Int.natCast_nonneg _) (by decide)
    exact Int.sub_le_self _ hcost
  · exact le_refl _

theorem queueStep (hk : Keyed w) (hrules : ∀ id e, w.epts id = some e → 0 ≤ e.proxyRule.delayMs)
    (hg : Orderly w ev) (h : step cfg w ev = some w') (he' : w'.epts id = some e') : QueueStep w id e' := by
  cases became_step hk h he' with
  | same he => exact .kept he rfl rfl (le_refl _)
  | @added rule outcome hev =>
    rw [hev] at hg
    refine .made (recvQueue_create ..) ?_
    rw [proxyRule_create]
    exact hg
  | @credited key todo e hev hphase hkey hlookup he =>
    obtain ⟨e₁, he₁, hdst⟩ := hk.mapped key id hlookup
    rw [he] at he₁
    cases he₁
    refine .credited he hphase ?_ (proxyRule_credit _ _) (recvQueue_credit _ _)
    rwa [proxyRule_credit, hdst]
  | @popped outcome key todo e msg hev hphase he =>
    refine .popped he (proxyRule_popRecv msg e) ?_ ?_
    · rw [recvQueue_popRecv, recvQueue_debitRecv]
    · obtain ⟨s, f, heq⟩ := popRecv_eq (debitRecv msg e)
      rw [heq]
      exact recvAvailBytes_debitRecv msg e
  | @handed outcome key rid msg e hev hpop hne hsender he =>
    obtain ⟨t, heq⟩ := touch_eq w.now e
    refine .kept he ?_ ?_ ?_ <;> rw [pushSend_eq, heq]
  | @made outcome key rid msg e hev hpop he =>
    refine .made ?_ ?_
    · rw [recvQueue_pushSend, recvQueue_create]
    · rw [proxyRule_pushSend, proxyRule_create]
      exact hrules rid e he
  | @restarted error outcome msg e hev herror hsend he =>
    obtain ⟨s, t, heq⟩ := restart_eq outcome w.clock e
    refine .kept he ?_ ?_ ?_ <;> rw [heq]
  | sent hev hsend he => exact .kept he rfl rfl (le_refl _)
  | stopped hev hphase he => exact .kept he rfl rfl (le_refl _)
  | arrived hev he => exact .kept he rfl rfl (le_refl _)
  | failed hev he => exact .kept he rfl rfl (le_refl _)
  | @handled r draw outcome e hev he =>
    rcases handled_cases w r draw outcome e with ⟨s, t, heq⟩ | ⟨-, -, s, f, heq⟩
    · refine .kept he ?_ ?_ ?_ <;> rw [heq]
    · rw [heq]
      exact .pushed he rfl rfl rfl (le_refl _)

theorem QueueStep.stamped (h : QueueStep w id e') (hw : ∀ id e, w.epts id = some e → Stamped w.clock e) :
    Stamped w.clock e' := by
  cases h with
  | kept he hrule hqueue | credited he hphase hkey hrule hqueue => exact (hw id _ he).congr hrule hqueue
  | popped he hrule hqueue => exact (hw id _ he).tail hrule hqueue
  | pushed he hrule hqueue htime => exact (hw id _ he).push hrule hqueue htime
  | made hqueue hdelay => exact stamped_new hdelay hqueue

theorem QueueStep.served (h : QueueStep w id e') (hw : ∀ id e, w.epts id = some e → Stamped w.clock e)
    (hnow : w.now ≤ w.clock) (hold : ∀ e, w.epts id = some e → e'.proxyRule = e.proxyRule → Served w.now e)
    (hscanned : ∀ todo, w.phase = .scan todo → e'.proxyRule.dstEndpoint ∉ todo) : Served w.now e' := by
  have hless : ∀ e, e'.recvAvailBytes ≤ e.recvAvailBytes → (∀ msg ∈ e'.recvQueue, msg ∈ e.recvQueue ∨
      w.now ≤ msg.time) → Served w.now e → Served w.now e' := by
    intro e hbudget hqueue hserved
    rcases hserved with havail | htimes
    · exact .inl (hbudget.trans_lt havail)
    · right
      intro msg hmsg
      rcases hqueue msg hmsg with hmsg | htime
      · exact htimes msg hmsg
      · exact htime
  cases h with
  | @kept e he hrule hqueue hbudget =>
    apply hless e hbudget _ (hold e he hrule)
    intro msg hmsg
    exact .inl (hqueue ▸ hmsg)
  | credited he hphase hkey => exact absurd hkey (hscanned _ hphase)
  | @popped e he hrule hqueue hbudget =>
    apply hless e hbudget _ (hold e he hrule)
    intro msg hmsg
    rw [hqueue] at hmsg
    exact .inl (List.mem_of_mem_tail hmsg)
  | @pushed e msg he hrule hqueue htime hbudget =>
    apply hless e hbudget _ (hold e he hrule)
    intro msg' hmsg'
    rw [hqueue] at hmsg'
    rcases List.mem_append.mp hmsg' with hmsg' | hmsg'
    · exact .inl hmsg'
    · obtain rfl := List.mem_singleton.mp hmsg'
      right
      rw [htime]
      exact hnow.trans (Int.le_add_of_nonneg_right (hw id e he).delay)
  | made hqueue =>
    right
    rw [hqueue]
    nofun

end endpoints

theorem Owned.key_unique (hw : Owned w) (he : w.epts id = some e) {id' : EptId}
    (hlookup : w.endpoints.lookup e.proxyRule.dstEndpoint = some id') : id = id' := by
  have howner := hw.owner id e he
  rw [owner_of_lookup hlookup] at howner
  cases howner
  rfl

theorem Owned.key_mem (hw : Owned w) (hscanning : w.phase.scanning = false) (he : w.epts id = some e) :
    e.proxyRule.dstEndpoint ∈ w.endpoints.keys := by
  have howner := hw.owner id e he
  unfold World.owner at howner
  split at howner
  · rename_i hlookup
    exact AList.mem_keys.mp (AList.lookup_isSome.mp (by rw [hlookup]; rfl))
  · rw [hw.unstaged hscanning, AList.lookup_empty] at howner
    cases howner

theorem mem_of_erase {key₀ : Endpoint} (h : key ∉ todo.erase key₀) (hkey : key ∈ todo) : key = key₀ := by
  by_contra hne
  exact h ((List.mem_erase_of_ne hne).mpr hkey)

theorem served_of_scanned (hw : Timely w) (hq : QueueStep w id e')
    (hscanned : w.phase.Scanned e'.proxyRule.dstEndpoint) : Served w.now e' := by
  apply hq.served hw.stamped hw.now_le
  · intro e he hrule
    apply hw.served id e he
    rwa [hrule] at hscanned
  · intro todo hphase
    rwa [hphase] at hscanned

theorem relay_done {outcome : InitOutcome} {id₀ : EptId} (h : step cfg w (.relay outcome) = some w')
    (hphase : w.phase = .relay key id₀ todo) (hphase' : w'.phase = .scan todo) (he : w.epts id₀ = some e) :
    recvVerdict cfg key w e = .done := by
  obtain ⟨-, hrun⟩ := run_of_step h
  simp only [run, relay, hphase, he, Option.map_some, Option.some.injEq] at hrun
  split at hrun
  · assumption
  · subst hrun
    cases hphase'
  · rename_i msg hverdict
    obtain ⟨ip, newEpts, epts, nextEpt, nextBuf, relayed, heq⟩ := transfer_eq cfg outcome key id₀ e msg w
    rw [heq] at hrun
    subst hrun
    cases hphase.symm.trans hphase'

theorem served_step (hw : Timely w) (hbandwidth : cfg.bandwidth 1 ≤ 0) (hg : Orderly w ev)
    (h : step cfg w ev = some w') (he' : w'.epts id = some e')
    (hscanned : w'.phase.Scanned e'.proxyRule.dstEndpoint) : Served w'.now e' := by
  have hqueue := queueStep hw.visiting.keyed (fun id e he => (hw.stamped id e he).delay) hg h he'
  have hserved : w.phase.Scanned e'.proxyRule.dstEndpoint → Served w.now e' := served_of_scanned hw hqueue
  cases step_cases h with
  | addServerProxy hphase =>
    obtain ⟨epts, heq⟩ := addServerProxy_eq _ _ w
    rw [heq, hphase] at hscanned
    exact hscanned.elim
  | start | rest | stop => exact hscanned.elim
  | early hphase =>
    rw [show _ = Phase.sleep from hphase] at hscanned
    exact hscanned.elim
  | tick hphase =>
    exact absurd (hw.visiting.owned.key_mem (by rw [hphase]; rfl) he') hscanned
  | @expire key id₀ todo e hphase hkey hlookup =>
    obtain ⟨hne, he⟩ := World.destroy_some he'
    apply hw.served id e' he
    rw [hphase]
    intro hmem
    have hsame := mem_of_erase hscanned hmem
    exact hne (hw.visiting.owned.key_unique he (by rw [hsame, hlookup]))
  | @lock key id₀ todo e hphase hkey hlookup =>
    apply hserved
    rw [hphase]
    intro hmem
    exact hscanned.1 (mem_of_erase hscanned.2 hmem)
  | @unlock outcome key id₀ todo e hphase he =>
    by_cases hsame : e'.proxyRule.dstEndpoint = key
    · have hlookup := hw.visiting.keyed.locked key id₀ todo hphase
      obtain rfl := hw.visiting.owned.key_unique he' (by rw [hsame, hlookup])
      exact served_of_done (w := w) hbandwidth (hw.stamped id e' he') (relay_done (w := w) h hphase rfl he')
    · apply hw.served id e' he'
      rw [hphase]
      exact ⟨hsame, hscanned⟩
  | @transfer outcome key id₀ todo e msg =>
    obtain ⟨ip, newEpts, epts, nextEpt, nextBuf, relayed, heq⟩ := transfer_eq cfg outcome key id₀ e msg w
    rw [heq] at hscanned ⊢
    exact hserved hscanned
  | merge hphase =>
    apply hserved
    rw [hphase]
    nofun
  | enter hphase | leave hphase | restart hphase =>
    apply hserved
    rw [hphase]
    trivial
  | _ => exact hserved hscanned

theorem outgoing_network (hk : Keyed w) (h : step cfg w ev = some w') (hev : ¬ Routine ev)
    (hphase : w.phase ≠ .setup) (he' : w'.epts id = some e') : ∃ e, w.epts id = some e ∧
      e'.proxyRule = e.proxyRule ∧ e'.sendQueue = e.sendQueue ∧ e'.sendAvailBytes = e.sendAvailBytes := by
  cases became_step hk h he' with
  | same he => exact ⟨e', he, rfl, rfl, rfl⟩
  | added hadd hsetup => exact absurd hsetup hphase
  | credited hvisit | popped hvisit | handed hvisit | made hvisit | restarted hvisit | sent hvisit
  | stopped hvisit =>
    rw [hvisit] at hev
    exact absurd trivial hev
  | @arrived buf src data e harrive he => exact ⟨e, he, rfl, rfl, rfl⟩
  | @failed buf error e hfail he => exact ⟨e, he, rfl, rfl, rfl⟩
  | @handled r draw outcome e hhandle he =>
    refine ⟨e, he, ?_⟩
    rcases handled_cases w r draw outcome e with ⟨s, t, heq⟩ | ⟨-, -, s, f, heq⟩ <;> rw [heq] <;>
      exact ⟨rfl, rfl, rfl⟩

theorem flush_done {error : ErrorCode} {outcome : InitOutcome} (h : step cfg w (.flush error outcome) = some w')
    (hsuccess : error = .success) (hphase : w.phase = .flush id todo) (hphase' : w'.phase = .send todo)
    (he : w.epts id = some e) : sendVerdict cfg w e = .done := by
  obtain ⟨-, hrun⟩ := run_of_step h
  simp only [run, flush, hphase, he, Option.map_some, Option.some.injEq] at hrun
  split at hrun
  · assumption
  · subst hrun
    cases hphase'
  · rename_i msg hverdict
    obtain ⟨ip, hip⟩ := payIp_eq cfg 0 e msg.cost w
    rw [hip, if_neg (not_not.mpr hsuccess)] at hrun
    subst hrun
    cases hphase.symm.trans hphase'

theorem drained_step (hw : Timely w) (hbandwidth : cfg.bandwidth 0 ≤ 0) (hg : Orderly w ev)
    (h : step cfg w ev = some w') (he' : w'.epts id = some e')
    (hflushed : w'.phase.Flushed e'.proxyRule.dstEndpoint id) : Drained e' := by
  have hvisiting' := visiting_step hw.visiting h
  have hnetwork : ¬ Routine ev → w'.phase = w.phase → Drained e' := by
    intro hev hsame
    rw [hsame] at hflushed
    have hphase : w.phase ≠ .setup := by
      intro hphase
      rw [hphase] at hflushed
      exact hflushed
    obtain ⟨e, he, hrule, hqueue, hbudget⟩ := outgoing_network hw.visiting.keyed h hev hphase he'
    rw [hrule] at hflushed
    rcases hw.drained id e he hflushed with havail | hempty
    · exact .inl (hbudget ▸ havail)
    · exact .inr (hqueue.trans hempty)
  cases step_cases h with
  | addServerProxy hphase =>
    obtain ⟨epts, heq⟩ := addServerProxy_eq _ _ w
    rw [heq, hphase] at hflushed
    exact hflushed.elim
  | start | rest | stop | tick | expire | lock | unlock => exact hflushed.elim
  | early hphase =>
    rw [show _ = Phase.sleep from hphase] at hflushed
    exact hflushed.elim
  | relayFault hphase =>
    rw [show _ = Phase.relay _ _ _ from hphase] at hflushed
    exact hflushed.elim
  | @transfer outcome key id₀ todo e msg hphase =>
    obtain ⟨ip, newEpts, epts, nextEpt, nextBuf, relayed, heq⟩ := transfer_eq cfg outcome key id₀ e msg w
    rw [heq, hphase] at hflushed
    exact hflushed.elim
  | merge => exact absurd (hvisiting'.owned.key_mem rfl he') hflushed
  | @enter key id₀ todo hphase =>
    apply hw.drained id e' he'
    rw [hphase]
    intro hmem
    have hsame := mem_of_erase hflushed.2 hmem
    obtain ⟨id₁, todo₁, hlookup, heq⟩ := entered h
    obtain rfl := hw.visiting.owned.key_unique he' (by rw [hsame, hlookup])
    have hphases := congrArg World.phase heq
    cases hphases
    exact hflushed.1 rfl
  | @leave error outcome id₀ todo hphase =>
    by_cases hsame : id = id₀
    · subst hsame
      exact drained_of_done hbandwidth (flush_done h hg hphase rfl he')
    · apply hw.drained id e' he'
      rw [hphase]
      exact ⟨hsame, hflushed⟩
  | flushFault => exact hw.drained id e' he' hflushed
  | restart hphase he herror => exact absurd hg herror
  | @sent error outcome id₀ todo e ip msg hphase =>
    have hat : Phase.Flushed e'.proxyRule.dstEndpoint id (.flush id₀ todo) := hphase ▸ hflushed
    obtain ⟨hne, he⟩ | ⟨rfl, -⟩ := World.modify_some he'
    · exact hw.drained id e' he hflushed
    · exact absurd rfl hat.1
  | arrive | fail | handleRecv | clock | ip => exact hnetwork nofun rfl

theorem timely_step (hrecv : cfg.bandwidth 1 ≤ 0) (hsend : cfg.bandwidth 0 ≤ 0) (hw : Timely w)
    (hg : Orderly w ev) (h : step cfg w ev = some w') : Timely w' := by
  have hclock : w.clock ≤ w'.clock ∧ w'.now ≤ w'.clock := by
    have hnow := hw.now_le
    cases step_cases h with
    | addServerProxy =>
      obtain ⟨epts, heq⟩ := addServerProxy_eq _ _ w
      rw [heq]
      exact ⟨le_refl _, hnow⟩
    | start | early | tick => exact ⟨le_refl _, le_refl _⟩
    | @transfer outcome key id todo e msg =>
      obtain ⟨ip, newEpts, epts, nextEpt, nextBuf, relayed, heq⟩ := transfer_eq cfg outcome key id e msg w
      rw [heq]
      exact ⟨le_refl _, hnow⟩
    | clock => exact ⟨hg, hnow.trans hg⟩
    | _ => exact ⟨le_refl _, hnow⟩
  refine ⟨visiting_step hw.visiting h, hclock.2, ?_, ?_, ?_⟩
  · intro id e' he'
    have hqueue := queueStep hw.visiting.keyed (fun id e he => (hw.stamped id e he).delay) hg h he'
    exact (hqueue.stamped hw.stamped).later hclock.1
  · exact fun id e' he' => served_step hw hrecv hg h he'
  · exact fun id e' he' => drained_step hw hsend hg h he'

theorem timely_initial (h : Initial w) : Timely w := by
  refine ⟨visiting_initial h, ?_, ?_, ?_, ?_⟩ <;> obtain ⟨clock, ip, heap, rfl⟩ := h
  · exact le_refl _
  all_goals
    intro id e he
    cases he

theorem pass_conserves_work (h₀ : Initial w₀) (h : exec (step cfg) w₀ es = some w)
    (hg : Along (step cfg) Orderly w₀ es) (hrecv : cfg.bandwidth 1 ≤ 0) (hsend : cfg.bandwidth 0 ≤ 0)
    (hphase : w.phase = .send []) : ∀ id e, w.epts id = some e →
      (e.recvAvailBytes < 0 ∨ ∀ msg ∈ e.recvQueue, w.now ≤ msg.time) ∧
        (e.sendAvailBytes < 0 ∨ e.sendQueue = []) := by
  have hw : Timely w :=
    exec_guarded (fun _ _ _ hw hg hstep => timely_step hrecv hsend hw hg hstep) h hg (timely_initial h₀)
  intro id e he
  refine ⟨hw.served id e he ?_, hw.drained id e he ?_⟩ <;> rw [hphase]
  · trivial
  · nofun

def onePass : List Event :=
  conversation ++ [.arrive 0 2 ⟨9, 4000⟩ [8], .handleRecv 0 ⟨2, .success, 1⟩ 1 .success, .merge,
    .enter ⟨1, 53⟩, .flush .success .success, .enter ⟨9, 4000⟩, .flush .success .success,
    .flush .success .success]

theorem pass_conserves_work_onePass : ∃ e, (after plain start onePass).epts 0 = some e ∧
    e.recvQueue.length = 1 ∧ (e.recvAvailBytes < 0 ∨ ∀ msg ∈ e.recvQueue, 20 ≤ msg.time) ∧
      (e.sendAvailBytes < 0 ∨ e.sendQueue = []) := by
  have hexec : exec (step plain) start onePass = some (after plain start onePass) := rfl
  have hg : Along (step plain) Orderly start onePass := by decide
  refine ⟨_, rfl, rfl, ?_⟩
  exact pass_conserves_work initial_start hexec hg (le_refl 0) (le_refl 0) rfl 0 _ rfl

end TcpUdpProxy.UdpServer
