import TcpUdpProxy.UdpEndpoints
import TcpUdpProxy.UdpRelay

namespace TcpUdpProxy.UdpServer

open UdpEndpointProxy Execution

def World.owner (w : World) (key : Endpoint) : Option EptId :=
  match w.endpoints.lookup key with
  | some id => some id
  | none => w.newEpts.lookup key

structure Owned (w : World) : Prop where
  owner : ∀ id e, w.epts id = some e → w.owner e.proxyRule.dstEndpoint = some id
  unstaged : w.phase.scanning = false → w.newEpts = ∅
  flushing : ∀ id todo, w.phase = .flush id todo → ∃ key, w.endpoints.lookup key = some id

variable {cfg : Config} {w w' w₀ : World} {ev : Event} {id id' rid : EptId} {e e' : UdpEndpointProxy}
  {key : Endpoint} {msg : UdpMsg} {outcome : InitOutcome} {es : List Event}

theorem Owned.unique (hw : Owned w) (he : w.epts id = some e) (he' : w.epts id' = some e')
    (heq : e.proxyRule.dstEndpoint = e'.proxyRule.dstEndpoint) : id = id' := by
  have howner := hw.owner id e he
  rw [heq, hw.owner id' e' he'] at howner
  cases howner
  rfl

theorem owner_of_lookup (h : w.endpoints.lookup key = some id) : w.owner key = some id := by
  unfold World.owner
  rw [h]

theorem Keyed.owned (hk : Keyed w) (h : w.owner key = some id) :
    ∃ e, w.epts id = some e ∧ e.proxyRule.dstEndpoint = key := by
  unfold World.owner at h
  split at h
  · rename_i hlookup
    cases h
    exact hk.mapped key id hlookup
  · exact hk.staged key id h

theorem Keyed.popping (hk : Keyed w) (hpop : popping cfg w = some (rid, key, msg)) : ∃ e rest,
    w.epts rid = some e ∧ e.proxyRule.dstEndpoint = key ∧ e.recvQueue = msg :: rest ∧ msg.src ≠ key := by
  obtain ⟨todo, e, hphase, he, hverdict⟩ := popping_cases hpop
  obtain ⟨rest, hqueue, -, hne, -⟩ := recvVerdict_take hverdict
  obtain ⟨e₁, he₁, hkey⟩ := hk.mapped key rid (hk.locked key rid todo hphase)
  rw [he] at he₁
  cases he₁
  exact ⟨e, rest, he, hkey, hqueue, hne⟩

theorem transfer_tables (hk : Keyed w) (cfg : Config) (outcome : InitOutcome) (key : Endpoint) (rid : EptId)
    (e : UdpEndpointProxy) (msg : UdpMsg) :
    (w.transfer cfg outcome key rid e msg).endpoints = w.endpoints ∧
    ((w.transfer cfg outcome key rid e msg).newEpts = w.newEpts ∧
        (w.transfer cfg outcome key rid e msg).epts w.nextEpt = none ∨
      w.endpoints.lookup msg.src = none ∧
        (w.transfer cfg outcome key rid e msg).newEpts = w.newEpts.insert msg.src w.nextEpt ∧
        ∀ old, w.newEpts.lookup msg.src = some old →
          (w.transfer cfg outcome key rid e msg).epts old = none) := by
  have hnone := hk.fresh w.nextEpt (le_refl _)
  have hmodify : ∀ (v : World) (f : UdpEndpointProxy → UdpEndpointProxy) (i j : EptId),
      v.epts j = none → (v.modify i f).epts j = none := by
    intro v f i j hj
    by_cases hij : j = i
    · subst hij
      simp [World.modify, hj]
    · simp [World.modify, hij, hj]
  obtain ⟨ip, hip⟩ := payIp_eq cfg 1 e msg.cost w
  unfold World.transfer World.hand
  rw [hip]
  dsimp only
  split
  · refine ⟨rfl, .inl ⟨rfl, ?_⟩⟩
    exact hmodify _ _ _ _ (hmodify _ _ _ _ (hmodify _ _ _ _ hnone))
  · rename_i hlookup
    unfold World.passNew
    dsimp only
    split
    · have hstage : ∀ v : World, (v.stage msg.src w.nextEpt).endpoints = v.endpoints ∧
          (v.stage msg.src w.nextEpt).newEpts = v.newEpts.insert msg.src w.nextEpt := by
        intro v
        unfold World.stage World.replace
        split <;> exact ⟨rfl, rfl⟩
      refine ⟨(hstage _).1, .inr ⟨hlookup, (hstage _).2, ?_⟩⟩
      intro old hold
      apply hmodify
      apply hmodify
      unfold World.stage World.replace
      have hold' : (World.make cfg.bandwidth (World.clientRule e.proxyRule msg.src) outcome
          { w with ip := ip }).newEpts.lookup msg.src = some old := hold
      rw [hold']
      simp [World.destroy]
    · refine ⟨rfl, .inl ⟨rfl, ?_⟩⟩
      apply hmodify
      simp [World.destroy]

theorem owner_transfer (hk : Keyed w) (hk' : Keyed (w.transfer cfg outcome key rid e msg)) (hw : Owned w)
    (hbecame : Became cfg w ev id e') (hlive : (w.transfer cfg outcome key rid e msg).epts id = some e') :
    (w.transfer cfg outcome key rid e msg).owner e'.proxyRule.dstEndpoint = some id := by
  obtain ⟨hendpoints, htables⟩ := transfer_tables hk cfg outcome key rid e msg
  obtain ⟨hsame, hdead⟩ | ⟨hsrc, hinsert, hold⟩ := htables
  · obtain ⟨e₀, he₀, hparams⟩ | ⟨rfl, -⟩ := hbecame.params
    · simp only [params, Prod.mk.injEq] at hparams
      unfold World.owner
      rw [hendpoints, hsame, hparams.1]
      exact hw.owner id e₀ he₀
    · rw [hdead] at hlive
      cases hlive
  · obtain ⟨e₀, he₀, hparams⟩ | ⟨rfl, -⟩ := hbecame.params
    · simp only [params, Prod.mk.injEq] at hparams
      have howner := hw.owner id e₀ he₀
      unfold World.owner at howner ⊢
      rw [hendpoints, hinsert, hparams.1]
      by_cases hkey : e₀.proxyRule.dstEndpoint = msg.src
      · rw [hkey, hsrc] at howner
        rw [hold id howner] at hlive
        cases hlive
      · rwa [AList.lookup_insert_ne hkey]
    · have hstaged : (w.transfer cfg outcome key rid e msg).newEpts.lookup msg.src = some w.nextEpt := by
        rw [hinsert, AList.lookup_insert]
      obtain ⟨e₁, he₁, hkey⟩ := hk'.staged _ _ hstaged
      rw [hlive] at he₁
      cases he₁
      unfold World.owner
      rw [hkey, hendpoints, hsrc]
      exact hstaged

theorem owner_addServerProxy {rule : UdpProxyRule} (hk' : Keyed (w.addServerProxy rule outcome))
    (hw : Owned w) (hphase : w.phase = .setup) (hbecame : Became cfg w ev id e')
    (hlive : (w.addServerProxy rule outcome).epts id = some e') :
    (w.addServerProxy rule outcome).owner e'.proxyRule.dstEndpoint = some id := by
  have hnew : (w.addServerProxy rule outcome).endpoints.lookup rule.dstEndpoint = some w.nextEpt :=
    AList.lookup_insert _
  have hempty : w.newEpts = ∅ := hw.unstaged (by rw [hphase]; rfl)
  obtain ⟨e₀, he₀, hparams⟩ | ⟨rfl, -⟩ := hbecame.params
  · simp only [params, Prod.mk.injEq] at hparams
    have howner := hw.owner id e₀ he₀
    rw [hparams.1]
    have hlookup : w.endpoints.lookup e₀.proxyRule.dstEndpoint = some id := by
      unfold World.owner at howner
      split at howner
      · rename_i hlookup
        rw [hlookup, howner]
      · rw [hempty, AList.lookup_empty] at howner
        cases howner
    apply owner_of_lookup
    by_cases hkey : e₀.proxyRule.dstEndpoint = rule.dstEndpoint
    · obtain ⟨e₁, he₁, hkey₁⟩ := hk'.mapped _ _ hnew
      obtain ⟨hne, hkept⟩ | ⟨hid, -⟩ := World.make_some hlive
      · -- the endpoint that had the key is destroyed
        rw [hkey] at hlookup
        unfold World.replace at hkept
        rw [hlookup] at hkept
        exact absurd rfl (World.destroy_some hkept).1
      · have hid' : id = w.nextEpt := by
          rw [hid]
          unfold World.replace
          split <;> rfl
        rw [hkey, hid']
        exact hnew
    · obtain ⟨epts, heq⟩ := addServerProxy_eq rule outcome w
      rw [heq]
      dsimp only
      rw [AList.lookup_insert_ne hkey]
      exact hlookup
  · obtain ⟨e₁, he₁, hkey⟩ := hk'.mapped _ _ hnew
    rw [hlive] at he₁
    cases he₁
    rw [hkey]
    exact owner_of_lookup hnew

theorem entered (h : step cfg w (.enter key) = some w') : ∃ id todo, w.endpoints.lookup key = some id ∧
    w' = { w with phase := .flush id todo } := by
  obtain ⟨-, hrun⟩ := run_of_step h
  simp only [run, enter] at hrun
  split at hrun
  · rename_i todo id hphase hlookup
    split at hrun
    · cases hrun
      exact ⟨id, _, hlookup, rfl⟩
    · cases hrun
  · cases hrun

theorem owner_step (hk : Keyed w) (hw : Owned w) (h : step cfg w ev = some w') (he' : w'.epts id = some e') :
    w'.owner e'.proxyRule.dstEndpoint = some id := by
  have hbecame := became_step hk h he'
  have hk' := keyed_step hk (step_cases h)
  have hold : ev.makes = none → w.owner e'.proxyRule.dstEndpoint = some id ∧ w.epts id ≠ none := by
    intro hmakes
    obtain ⟨e₀, he₀, hparams⟩ | ⟨-, ⟨outcome, hev⟩, -⟩ := hbecame.params
    · simp only [params, Prod.mk.injEq] at hparams
      rw [hparams.1, he₀]
      exact ⟨hw.owner id e₀ he₀, Option.some_ne_none e₀⟩
    · rw [hmakes] at hev
      cases hev
  cases step_cases h with
  | addServerProxy hphase => exact owner_addServerProxy hk' hw hphase hbecame he'
  | transfer => exact owner_transfer hk hk' hw hbecame he'
  | unlock | relayFault =>
    exact hw.owner id e' he'
  | tick hphase =>
    have hempty : w.newEpts = ∅ := hw.unstaged (by rw [hphase]; rfl)
    have howner := (hold rfl).1
    unfold World.owner at howner ⊢
    rwa [hempty] at howner
  | @expire key vid todo e hphase hkey hlookup he =>
    have howner := (hold rfl).1
    obtain ⟨hne, -⟩ := World.destroy_some he'
    unfold World.owner at howner ⊢
    dsimp only
    have hkey : e'.proxyRule.dstEndpoint ≠ key := by
      intro heq
      rw [heq, hlookup] at howner
      cases howner
      exact hne rfl
    rwa [AList.lookup_erase_ne hkey]
  | merge hphase =>
    have howner := (hold rfl).1
    have hunion : (w.endpoints ∪ w.newEpts).lookup e'.proxyRule.dstEndpoint = some id := by
      unfold World.owner at howner
      split at howner
      · rename_i hlookup
        rw [← howner, ← hlookup]
        exact AList.lookup_union_left (AList.lookup_isSome.mp (by rw [hlookup]; rfl))
      · rename_i hlookup
        rw [← howner]
        exact AList.lookup_union_right (AList.lookup_eq_none.mp hlookup)
    exact owner_of_lookup hunion
  | _ => exact (hold rfl).1

theorem owned_step (hk : Keyed w) (hw : Owned w) (h : step cfg w ev = some w') : Owned w' := by
  have howner : ∀ id e', w'.epts id = some e' → w'.owner e'.proxyRule.dstEndpoint = some id :=
    fun id e' he' => owner_step hk hw h he'
  have hunstaged := hw.unstaged
  have hflushing := hw.flushing
  refine ⟨howner, ?_, ?_⟩
  · cases step_cases h with
    | addServerProxy hphase =>
      obtain ⟨epts, heq⟩ := addServerProxy_eq _ _ w
      rw [heq]
      exact hunstaged
    | @transfer outcome key id todo e msg hphase =>
      obtain ⟨ip, newEpts, epts, nextEpt, nextBuf, relayed, heq⟩ := transfer_eq cfg outcome key id e msg w
      rw [heq, hphase]
      nofun
    | merge => exact fun _ => rfl
    | start hphase | enter hphase | leave hphase | restart hphase | rest hphase | stop hphase =>
      intro _
      exact hunstaged (by rw [hphase]; rfl)
    | tick | expire | lock | unlock => nofun
    | _ => exact hunstaged
  · cases step_cases h with
    | addServerProxy hphase =>
      obtain ⟨epts, heq⟩ := addServerProxy_eq _ _ w
      rw [heq, hphase]
      nofun
    | @transfer outcome key id todo e msg hphase =>
      obtain ⟨ip, newEpts, epts, nextEpt, nextBuf, relayed, heq⟩ := transfer_eq cfg outcome key id e msg w
      rw [heq, hphase]
      nofun
    | @enter key =>
      obtain ⟨id, todo, hlookup, heq⟩ := entered h
      rw [heq]
      rintro _ _ ⟨⟩
      exact ⟨key, hlookup⟩
    | start | tick | expire | lock | unlock | merge | leave | restart | rest | stop => nofun
    | _ => exact hflushing

theorem owned_initial (h : Initial w) : Owned w := by
  obtain ⟨clock, ip, heap, rfl⟩ := h
  refine ⟨?_, fun _ => rfl, nofun⟩
  intro id e he
  cases he

end TcpUdpProxy.UdpServer
