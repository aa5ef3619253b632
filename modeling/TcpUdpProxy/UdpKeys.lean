import TcpUdpProxy.UdpServerSteps
import TcpUdpProxy.Library.AssociationList

namespace TcpUdpProxy.UdpServer

open UdpEndpointProxy AssociationList Relation Execution

def Keys (epts : EptId → Option UdpEndpointProxy) (t : AList fun _ : Endpoint => EptId) : Prop :=
  ∀ k id, t.lookup k = some id → ∃ e, epts id = some e ∧ e.proxyRule.dstEndpoint = k

section keys

variable {epts : EptId → Option UdpEndpointProxy} {t t' : AList fun _ : Endpoint => EptId}
  {id : EptId} {k k' : Endpoint} {e : UdpEndpointProxy}

theorem Keys.unique (h : Keys epts t) (h' : Keys epts t') (hk : t.lookup k = some id)
    (hk' : t'.lookup k' = some id) : k = k' := by
  obtain ⟨e, he, rfl⟩ := h k id hk
  obtain ⟨e', he', rfl⟩ := h' k' id hk'
  rw [he] at he'
  cases he'
  rfl

theorem keys_empty : Keys epts ∅ := by
  intro k id h
  rw [AList.lookup_empty] at h
  cases h

def SameRules (epts epts' : EptId → Option UdpEndpointProxy) : Prop :=
  ∀ id, (epts' id).map UdpEndpointProxy.proxyRule = (epts id).map UdpEndpointProxy.proxyRule

theorem Keys.congr {epts' : EptId → Option UdpEndpointProxy} (h : Keys epts t)
    (hs : SameRules epts epts') : Keys epts' t := by
  intro k id hk
  obtain ⟨e, he, rfl⟩ := h k id hk
  have hrule := hs id
  rw [he] at hrule
  obtain ⟨e', he', hrule⟩ := Option.map_eq_some_iff.mp hrule
  exact ⟨e', he', by rw [hrule]⟩

theorem sameRules_update {e' : UdpEndpointProxy} (he : epts id = some e)
    (h : e'.proxyRule = e.proxyRule) : SameRules epts (Function.update epts id (some e')) := by
  intro id'
  by_cases hid : id' = id
  · subst hid
    simp [he, h]
  · simp [hid]

theorem sameRules_modify {f : UdpEndpointProxy → UdpEndpointProxy}
    (hf : ∀ e, (f e).proxyRule = e.proxyRule) :
    SameRules epts (Function.update epts id ((epts id).map f)) := by
  intro id'
  by_cases hid : id' = id
  · subst hid
    cases epts id' <;> simp [hf]
  · simp [hid]

theorem Keys.destroy (h : Keys epts t) (hid : ∀ k, t.lookup k ≠ some id) :
    Keys (Function.update epts id none) t := by
  intro k id' hk
  obtain ⟨e, he, rfl⟩ := h k id' hk
  have hne : id' ≠ id := by
    rintro rfl
    exact hid _ hk
  exact ⟨e, by simp [hne, he], rfl⟩

theorem Keys.lookup_ne (h : Keys epts t) (hid : epts id = none) (k : Endpoint) :
    t.lookup k ≠ some id := by
  intro hk
  obtain ⟨e, he, -⟩ := h k id hk
  rw [hid] at he
  cases he

theorem Keys.make (h : Keys epts t) (hid : epts id = none) :
    Keys (Function.update epts id (some e)) t := by
  intro k id' hk
  obtain ⟨e', he', rfl⟩ := h k id' hk
  have hne : id' ≠ id := by
    rintro rfl
    exact h.lookup_ne hid _ hk
  exact ⟨e', by simp [hne, he'], rfl⟩

theorem Keys.erase (h : Keys epts t) : Keys epts (t.erase k) := by
  intro k' id' hk
  exact h k' id' (lookup_erase_some.mp hk).2

theorem Keys.insert {epts' : EptId → Option UdpEndpointProxy} (h : Keys epts t)
    (hsame : ∀ k' id', k' ≠ k → t.lookup k' = some id' → epts' id' = epts id')
    (he : epts' id = some e) (hk : e.proxyRule.dstEndpoint = k) : Keys epts' (t.insert k id) := by
  intro k' id' hk'
  obtain ⟨rfl, rfl⟩ | ⟨hne, hk'⟩ := lookup_insert_some.mp hk'
  · exact ⟨e, he, hk⟩
  · rw [hsame k' id' hne hk']
    exact h k' id' hk'

theorem Keys.union (h : Keys epts t) (h' : Keys epts t') : Keys epts (t ∪ t') := by
  intro k id hk
  by_cases hmem : k ∈ t
  · rw [AList.lookup_union_left hmem] at hk
    exact h k id hk
  · rw [AList.lookup_union_right hmem] at hk
    exact h' k id hk

end keys

structure Keyed (w : World) : Prop where
  mapped : Keys w.epts w.endpoints
  staged : Keys w.epts w.newEpts
  apart : ∀ k ∈ w.newEpts, k ∉ w.endpoints
  fresh : ∀ id, w.nextEpt ≤ id → w.epts id = none
  locked : ∀ key id todo, w.phase = .relay key id todo → w.endpoints.lookup key = some id
  setup : w.phase = .setup → w.newEpts = ∅

variable {cfg : Config} {w w' : World} {ev : Event} {id : EptId}

theorem keyed_initial (h : Initial w) : Keyed w := by
  obtain ⟨clock, ip, heap, rfl⟩ := h
  refine ⟨keys_empty, keys_empty, ?_, fun _ _ => rfl, ?_, fun _ => rfl⟩
  · simp [initial]
  · intro key id todo hphase
    cases hphase

theorem Keyed.congr {epts' : EptId → Option UdpEndpointProxy} (h : Keyed w)
    (hs : SameRules w.epts epts') : Keyed { w with epts := epts' } where
  mapped := h.mapped.congr hs
  staged := h.staged.congr hs
  apart := h.apart
  fresh id hid := by
    have hrule := hs id
    rw [h.fresh id hid] at hrule
    exact Option.map_eq_none_iff.mp hrule
  locked := h.locked
  setup := h.setup

theorem Keyed.modify {f : UdpEndpointProxy → UdpEndpointProxy} (h : Keyed w)
    (hf : ∀ e, (f e).proxyRule = e.proxyRule) : Keyed (w.modify id f) :=
  h.congr (sameRules_modify hf)

theorem proxyRule_touch (now : Msec) (e : UdpEndpointProxy) : (touch now e).proxyRule = e.proxyRule := by
  unfold touch
  split <;> rfl

theorem proxyRule_pushSend (msg : UdpMsg) (e : UdpEndpointProxy) :
    (pushSend msg e).proxyRule = e.proxyRule := by
  unfold pushSend
  split <;> rfl

theorem proxyRule_credit (interval : Msec) (e : UdpEndpointProxy) :
    (credit interval e).proxyRule = e.proxyRule := by
  unfold credit
  split <;> rfl

theorem proxyRule_popRecv (msg : UdpMsg) (e : UdpEndpointProxy) :
    (debitRecv msg e).popRecv.proxyRule = e.proxyRule := by
  unfold popRecv debitRecv
  dsimp only
  split <;> split <;> rfl

theorem proxyRule_init (outcome : InitOutcome) (now : Msec) (e : UdpEndpointProxy) :
    (e.init outcome now).proxyRule = e.proxyRule := by
  unfold UdpEndpointProxy.init
  split
  · rfl
  · dsimp only
    split <;> rfl

theorem proxyRule_create (bandwidth : PairId → ℤ) (rule : UdpProxyRule) (buf : BufId)
    (outcome : InitOutcome) (now : Msec) : (create bandwidth rule buf outcome now).proxyRule = rule :=
  proxyRule_init outcome now _

theorem proxyRule_restart (outcome : InitOutcome) (now : Msec) (e : UdpEndpointProxy) :
    (e.restart outcome now).proxyRule = e.proxyRule := by
  unfold restart
  split
  · exact proxyRule_init outcome now e.stop
  · rfl

theorem proxyRule_handleRecv (now draw : ℤ) (outcome : InitOutcome) (r : RecvResult) (nextBuf : BufId)
    (e : UdpEndpointProxy) : (e.handleRecv now draw outcome r nextBuf).1.proxyRule = e.proxyRule := by
  unfold UdpEndpointProxy.handleRecv
  split
  · split
    · rfl
    · split
      · exact proxyRule_restart outcome now e
      · rfl
  · dsimp only
    split
    · rfl
    · split <;> rfl

theorem Change.proxyRule {e e' : UdpEndpointProxy} (h : Change w ev e e') : e'.proxyRule = e.proxyRule := by
  cases h with
  | credit => exact proxyRule_credit _ _
  | touch => exact proxyRule_touch _ _
  | pushSend msg => exact proxyRule_pushSend msg _
  | popRecv msg => exact proxyRule_popRecv msg _
  | restart => exact proxyRule_restart _ _ _
  | handleRecv => exact proxyRule_handleRecv _ _ _ _ _ _
  | sent | stop | arrive | fail => rfl

theorem Keyed.pass {msg : UdpMsg} (h : Keyed w) : Keyed (w.pass id msg) := by
  have hmodify : Keyed (w.modify id (pushSend msg)) := h.modify (proxyRule_pushSend msg)
  exact ⟨hmodify.mapped, hmodify.staged, hmodify.apart, hmodify.fresh, hmodify.locked, hmodify.setup⟩

theorem Keyed.make {bandwidth : PairId → ℤ} {rule : UdpProxyRule} {outcome : InitOutcome} (h : Keyed w) :
    Keyed (w.make bandwidth rule outcome) where
  mapped := h.mapped.make (h.fresh _ (le_refl _))
  staged := h.staged.make (h.fresh _ (le_refl _))
  apart := h.apart
  fresh id hid := by
    have hlt : w.nextEpt < id := hid
    unfold World.make
    simp [hlt.ne', h.fresh id hlt.le]
  locked := h.locked
  setup := h.setup

theorem fresh_destroy (h : ∀ id, w.nextEpt ≤ id → w.epts id = none) :
    ∀ id', w.nextEpt ≤ id' → (w.destroy id).epts id' = none := by
  intro id' hid'
  unfold World.destroy
  by_cases heq : id' = id
  · subst heq
    simp
  · simp [heq, h id' hid']

theorem Keyed.destroy (h : Keyed w) (hm : ∀ k, w.endpoints.lookup k ≠ some id)
    (hs : ∀ k, w.newEpts.lookup k ≠ some id) : Keyed (w.destroy id) :=
  ⟨h.mapped.destroy hm, h.staged.destroy hs, h.apart, fresh_destroy h.fresh, h.locked, h.setup⟩

theorem Keyed.stage {src : Endpoint} {e : UdpEndpointProxy} (h : Keyed w)
    (hphase : w.phase ≠ .setup) (hsrc : w.endpoints.lookup src = none) (he : w.epts id = some e)
    (hk : e.proxyRule.dstEndpoint = src) (hnew : ∀ k, w.newEpts.lookup k ≠ some id) :
    Keyed (w.stage src id) := by
  have hapart : ∀ k ∈ w.newEpts.insert src id, k ∉ w.endpoints := by
    intro k hk
    rcases (AList.mem_insert _).mp hk with rfl | hk
    · exact AList.lookup_eq_none.mp hsrc
    · exact h.apart k hk
  unfold World.stage World.replace
  split
  · rename_i old hold
    have hother : ∀ k, w.endpoints.lookup k ≠ some old := by
      intro k hk
      have := h.mapped.unique h.staged hk hold
      rw [this, hsrc] at hk
      cases hk
    have hne : id ≠ old := by
      rintro rfl
      exact hnew src hold
    refine ⟨h.mapped.destroy hother, ?_, hapart, fresh_destroy h.fresh, h.locked, fun h => absurd h hphase⟩
    apply h.staged.insert _ (by simp [World.destroy, hne, he]) hk
    intro k' id' hks hk'
    have hne' : id' ≠ old := by
      rintro rfl
      exact hks (h.staged.unique h.staged hk' hold)
    simp [World.destroy, hne']
  · exact ⟨h.mapped, h.staged.insert (fun _ _ _ _ => rfl) he hk, hapart, h.fresh, h.locked,
      fun h => absurd h hphase⟩

theorem Keyed.hand {outcome : InitOutcome} {rule : UdpProxyRule} {src : Endpoint} {msg : UdpMsg}
    (h : Keyed w) (hphase : w.phase ≠ .setup) : Keyed (w.hand cfg outcome rule src msg) := by
  have hnone := h.fresh w.nextEpt (le_refl _)
  unfold World.hand
  split
  · exact (h.modify (proxyRule_touch w.now)).pass
  · rename_i hsrc
    unfold World.passNew
    dsimp only
    split
    · apply Keyed.pass
      apply h.make.stage hphase hsrc (e := create cfg.bandwidth (World.clientRule rule src) w.nextBuf outcome w.clock)
      · simp [World.make]
      · rw [proxyRule_create]
        rfl
      · exact h.staged.lookup_ne hnone
    · exact h.make.pass.destroy (h.mapped.lookup_ne hnone) (h.staged.lookup_ne hnone)

theorem epts_addServerProxy_new (rule : UdpProxyRule) (outcome : InitOutcome) (w : World) :
    (w.addServerProxy rule outcome).epts w.nextEpt =
      some (create (fun _ => 0) rule w.nextBuf outcome w.clock) := by
  unfold World.addServerProxy World.make World.replace
  split <;> simp [World.destroy]

theorem epts_addServerProxy_other (rule : UdpProxyRule) (outcome : InitOutcome) {id : EptId}
    (hid : id ≠ w.nextEpt) (hold : w.endpoints.lookup rule.dstEndpoint ≠ some id) :
    (w.addServerProxy rule outcome).epts id = w.epts id := by
  unfold World.addServerProxy World.make World.replace
  split
  next old hlookup =>
    have hne : id ≠ old := by
      rintro rfl
      exact hold hlookup
    simp [World.destroy, hid, hne]
  next => simp [hid]

theorem keyed_addServerProxy {rule : UdpProxyRule} {outcome : InitOutcome} (h : Keyed w)
    (hphase : w.phase = .setup) : Keyed (w.addServerProxy rule outcome) := by
  have hnone := h.fresh w.nextEpt (le_refl _)
  have hempty : w.newEpts = ∅ := h.setup hphase
  have hrest : (w.addServerProxy rule outcome).newEpts = ∅ ∧
      (w.addServerProxy rule outcome).nextEpt = w.nextEpt + 1 ∧
      (w.addServerProxy rule outcome).phase = .setup := by
    obtain ⟨epts, heq⟩ := addServerProxy_eq rule outcome w
    rw [heq]
    exact ⟨hempty, rfl, hphase⟩
  refine ⟨?_, ?_, ?_, ?_, ?_, fun _ => hrest.1⟩
  · apply h.mapped.insert _ (epts_addServerProxy_new rule outcome w)
      (congrArg UdpProxyRule.dstEndpoint (proxyRule_create ..))
    intro k id hk hlookup
    apply epts_addServerProxy_other rule outcome
    · rintro rfl
      exact h.mapped.lookup_ne hnone k hlookup
    · intro hold
      exact hk (h.mapped.unique h.mapped hlookup hold)
  · rw [hrest.1]
    exact keys_empty
  · rw [hrest.1]
    intro k hk
    exact absurd hk (AList.notMem_empty k)
  · intro id hid
    rw [hrest.2.1] at hid
    have hlt : w.nextEpt < id := hid
    rw [epts_addServerProxy_other rule outcome hlt.ne', h.fresh id hlt.le]
    exact h.mapped.lookup_ne (h.fresh id hlt.le) _
  · intro key id todo hrelay
    rw [hrest.2.2] at hrelay
    cases hrelay

theorem keyed_step (hw : Keyed w) (h : Stepped cfg w ev w') : Keyed w' := by
  cases h with
  | addServerProxy hphase => exact keyed_addServerProxy hw hphase
  | start hphase =>
    exact ⟨hw.mapped, hw.staged, hw.apart, hw.fresh, nofun, nofun⟩
  | tick hphase => exact ⟨hw.mapped, keys_empty, by simp, hw.fresh, nofun, nofun⟩
  | @expire key id todo e hphase hkey hlookup he =>
    refine ⟨?_, ?_, ?_, fresh_destroy hw.fresh, nofun, nofun⟩
    · apply hw.mapped.erase.destroy
      intro k hk
      exact (lookup_erase_some.mp hk).1 (hw.mapped.erase.unique hw.mapped hk hlookup)
    · apply hw.staged.destroy
      intro k hk
      have hkk := hw.staged.unique hw.mapped hk hlookup
      have hin : k ∈ w.newEpts := AList.lookup_isSome.mp (by simp [hk])
      apply hw.apart k hin
      rw [hkk]
      exact AList.lookup_isSome.mp (by simp [hlookup])
    · intro k hk hin
      exact hw.apart k hk (AList.mem_erase.mp hin).2
  | @lock key id todo e hphase hkey hlookup he =>
    have hmodify : Keyed (w.modify id (credit w.interval)) := hw.modify (proxyRule_credit w.interval)
    refine ⟨hmodify.mapped, hmodify.staged, hmodify.apart, hmodify.fresh, ?_, nofun⟩
    rintro _ _ _ ⟨⟩
    exact hlookup
  | @transfer outcome key id todo e msg hphase =>
    obtain ⟨ip, hip⟩ := payIp_eq cfg 1 e msg.cost w
    unfold World.transfer
    rw [hip]
    have hpaid : Keyed { w with ip := ip } :=
      ⟨hw.mapped, hw.staged, hw.apart, hw.fresh, hw.locked, hw.setup⟩
    apply Keyed.modify _ (proxyRule_popRecv msg)
    apply hpaid.hand
    rw [hphase]
    nofun
  | merge hphase =>
    exact ⟨hw.mapped.union hw.staged, keys_empty, by simp, hw.fresh, nofun, nofun⟩
  | unlock | enter | leave | rest => exact ⟨hw.mapped, hw.staged, hw.apart, hw.fresh, nofun, nofun⟩
  | @restart error outcome id =>
    have hmodify : Keyed (w.modify id (UdpEndpointProxy.restart outcome w.clock)) :=
      hw.modify (proxyRule_restart outcome w.clock)
    exact ⟨hmodify.mapped, hmodify.staged, hmodify.apart, hmodify.fresh, nofun, nofun⟩
  | @sent error outcome id todo e ip msg =>
    have hmodify : Keyed (w.modify id (sent msg)) := hw.modify fun _ => rfl
    exact ⟨hmodify.mapped, hmodify.staged, hmodify.apart, hmodify.fresh, hmodify.locked, hmodify.setup⟩
  | stop =>
    have hrules : SameRules w.epts fun id => (w.epts id).map .stop := by
      intro id
      exact Option.map_map ..
    have hstop := hw.congr hrules
    exact ⟨hstop.mapped, hstop.staged, hstop.apart, hstop.fresh, nofun, nofun⟩
  | @arrive id buf src data =>
    have hmodify : Keyed (w.modify id (UdpEndpointProxy.arrive buf src data.length)) :=
      hw.modify fun _ => rfl
    exact ⟨hmodify.mapped, hmodify.staged, hmodify.apart, hmodify.fresh, hmodify.locked, hmodify.setup⟩
  | fail => exact hw.modify fun _ => rfl
  | @handleRecv id r draw outcome e he hr =>
    have hrule : (handled w r draw outcome e).1.proxyRule = e.proxyRule := proxyRule_handleRecv ..
    have hchange := hw.congr (sameRules_update he hrule)
    exact ⟨hchange.mapped, hchange.staged, hchange.apart, hchange.fresh, hchange.locked, hchange.setup⟩
  | early | relayFault | flushFault | clock | ip =>
    exact ⟨hw.mapped, hw.staged, hw.apart, hw.fresh, hw.locked, hw.setup⟩

end TcpUdpProxy.UdpServer
