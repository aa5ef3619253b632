import TcpUdpProxy.UdpBudget
import TcpUdpProxy.UdpRules

namespace TcpUdpProxy.UdpServer

open UdpEndpointProxy Execution

variable {cfg : Config} {w w' : World} {ev : Event} {id : EptId} {e e' : UdpEndpointProxy} {i : PairId}
  {amount : ℤ} {a : Address} {outcome : InitOutcome} {error : ErrorCode}

def Phase.locked : Phase → Option EptId
  | .relay _ id _ | .flush id _ => some id
  | _ => none

theorem payIp_server (hserver : e.serverFlag = true) : payIp cfg i e amount w = w := by
  unfold payIp
  split
  · rw [if_neg (by simp [hserver])]
  · rfl

theorem payIp_client (hclient : e.serverFlag = false) (ha : e.clientIp = some a) (hlimit : 0 < cfg.bandwidth i) :
    (payIp cfg i e amount w).ip = Function.update w.ip a ((w.ip a).charge i amount) := by
  unfold payIp
  rw [ha]
  dsimp only
  rw [if_pos ⟨hclient, hlimit⟩]

theorem ipGate_open (hclient : e.serverFlag = false) (hlimit : 0 < cfg.bandwidth i)
    (h : ipGate cfg i w e = .ok true) : ∃ a, e.clientIp = some a ∧ 0 ≤ (w.ip a).availBytes i := by
  unfold ipGate at h
  rw [if_pos ⟨hclient, hlimit⟩] at h
  split at h
  · cases h
  · rename_i a ha
    exact ⟨a, ha, by simpa using h⟩

inductive Pays (cfg : Config) (w : World) (ev : Event) (ip : Address → IPProxy) : Prop
  | popped {outcome key todo id msg e} (hev : ev = .relay outcome) (hphase : w.phase = .relay key id todo)
      (hpop : popping cfg w = some (id, key, msg)) (he : w.epts id = some e) (hmem : msg ∈ e.recvQueue)
      (hgate : ipGate cfg 1 w e = .ok true) (hip : ip = (payIp cfg 1 e msg.cost w).ip)
  | sent {error outcome todo id msg e} (hev : ev = .flush error outcome) (hphase : w.phase = .flush id todo)
      (hsend : sending cfg w = some (id, msg)) (he : w.epts id = some e) (hmem : msg ∈ e.sendQueue)
      (hgate : ipGate cfg 0 w e = .ok true) (hip : ip = (payIp cfg 0 e msg.cost w).ip)
  | nothing (hpop : ∀ outcome, ev = .relay outcome → popping cfg w = none)
      (hsend : ∀ error outcome, ev = .flush error outcome → sending cfg w = none) (hip : ip = w.ip)

theorem relay_pays (h : relay cfg outcome w = some w') : Pays cfg w (.relay outcome) w'.ip := by
  unfold relay at h
  split at h
  · rename_i key id todo hphase
    obtain ⟨e, he, h⟩ := Option.map_eq_some_iff.mp h
    split at h
    · rename_i hverdict
      subst h
      have hnone := popping_none hphase he (by rw [hverdict]; nofun)
      exact .nothing (fun _ _ => hnone) nofun rfl
    · rename_i hverdict
      subst h
      have hnone := popping_none hphase he (by rw [hverdict]; nofun)
      exact .nothing (fun _ _ => hnone) nofun rfl
    · rename_i msg hverdict
      subst h
      obtain ⟨rest, hqueue, -, -, -, hgate⟩ := recvVerdict_take hverdict
      refine .popped rfl hphase (popping_eq hphase he hverdict) he (by simp [hqueue]) hgate ?_
      unfold World.transfer
      obtain ⟨newEpts, epts, nextEpt, nextBuf, relayed, heq⟩ :=
        hand_eq cfg outcome e.proxyRule msg.src { msg with src := key } (payIp cfg 1 e msg.cost w)
      rw [heq]
      rfl
  · cases h

theorem flush_pays (h : flush cfg error outcome w = some w') : Pays cfg w (.flush error outcome) w'.ip := by
  unfold flush at h
  split at h
  · rename_i id todo hphase
    obtain ⟨e, he, h⟩ := Option.map_eq_some_iff.mp h
    dsimp only at h
    split at h
    · rename_i hverdict
      subst h
      have hnone := sending_none hphase he (by rw [hverdict]; nofun)
      exact .nothing nofun (fun _ _ _ => hnone) rfl
    · rename_i hverdict
      subst h
      have hnone := sending_none hphase he (by rw [hverdict]; nofun)
      exact .nothing nofun (fun _ _ _ => hnone) rfl
    · rename_i msg hverdict
      obtain ⟨rest, hqueue, -, hgate⟩ := sendVerdict_take hverdict
      refine .sent rfl hphase (sending_eq hphase he hverdict) he (by simp [hqueue]) hgate ?_
      split at h
      · subst h
        rfl
      · subst h
        rfl
  · cases h

theorem step_pays (hev : ∀ ip, ev ≠ .ip ip) (h : step cfg w ev = some w') : Pays cfg w ev w'.ip := by
  cases ev with
  | relay outcome => exact relay_pays (run_of_step h).2
  | flush error outcome => exact flush_pays (run_of_step h).2
  | addServerProxy rule outcome =>
    cases step_cases h with
    | addServerProxy =>
      obtain ⟨epts, heq⟩ := addServerProxy_eq rule outcome w
      rw [heq]
      exact .nothing nofun nofun rfl
  | ip ip => exact absurd rfl (hev ip)
  | _ => cases step_cases h <;> exact .nothing nofun nofun rfl

def Billed (e : UdpEndpointProxy) : Prop :=
  e.serverFlag = false → e.clientIp = some e.proxyRule.dstEndpoint.address

def Event.Listens : Event → Prop
  | .addServerProxy rule _ => rule.srcPort ≠ 0
  | _ => True

theorem Billed.congr (h : Billed e) (hparams : params e' = params e) : Billed e' := by
  simp only [params, Prod.mk.injEq] at hparams
  intro hclient
  rw [hparams.1, hparams.2.2]
  exact h (hparams.2.1 ▸ hclient)

theorem billed_step (hlimit : 0 < cfg.bandwidth 0) (hk : Keyed w) (hlistens : ev.Listens)
    (hw : ∀ id e, w.epts id = some e → Billed e) (h : step cfg w ev = some w') (he' : w'.epts id = some e') :
    Billed e' := by
  have hbecame := became_step hk h he'
  obtain ⟨e, he, hparams⟩ | ⟨hid, ⟨outcome, hmakes⟩, hflag⟩ := hbecame.params
  · exact (hw id e he).congr hparams
  · cases hbecame with
    | @added rule outcome hev =>
      subst hev
      have hport : rule.srcPort ≠ 0 := hlistens
      intro hclient
      rw [hclient, proxyRule_create] at hflag
      exact absurd hflag.symm (by simpa using hport)
    | @made outcome key rid msg e hev hpop he hsender hid =>
      intro _
      have hpushed := params_pushSend { msg with src := key }
        (create cfg.bandwidth (World.clientRule e.proxyRule msg.src) w.nextBuf outcome w.clock)
      obtain ⟨s, t, heq⟩ := create_eq cfg.bandwidth (World.clientRule e.proxyRule msg.src) w.nextBuf
        outcome w.clock
      rw [heq] at hpushed ⊢
      simp only [params, Prod.mk.injEq] at hpushed
      rw [hpushed.1, hpushed.2.2]
      have hlimited : ¬ (cfg.bandwidth 0 = 0 ∧ cfg.bandwidth 1 = 0) := fun hzero => hlimit.ne' hzero.1
      simp [World.clientRule, getIPProxy, hlimited]
    | same he | credited _ _ _ _ he | popped _ _ he | handed _ _ _ _ he | restarted _ _ _ he | sent _ _ he
    | stopped _ _ he | arrived _ he | failed _ he | handled _ he =>
      rw [hid, hk.fresh w.nextEpt (le_refl _)] at he
      cases he

end TcpUdpProxy.UdpServer
