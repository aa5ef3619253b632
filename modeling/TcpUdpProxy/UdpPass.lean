import Mathlib.Data.Prod.Lex
import TcpUdpProxy.Library.Progress
import TcpUdpProxy.UdpOwnership
import TcpUdpProxy.UdpAssertion

namespace TcpUdpProxy.UdpServer

open UdpEndpointProxy AssociationList Execution Progress

def Routine : Event → Prop
  | .tick | .visit _ | .relay _ | .merge | .enter _ | .flush .. | .rest | .stop => True
  | _ => False

def Phase.passing : Phase → Bool
  | .scan _ | .relay .. | .send _ | .flush .. => true
  | _ => false

def unvisited : Phase → List Endpoint
  | .scan todo | .relay _ _ todo | .send todo | .flush _ todo => todo
  | _ => []

structure Visiting (w : World) : Prop where
  keyed : Keyed w
  owned : Owned w
  nodup : (unvisited w.phase).Nodup
  listed : ∀ key ∈ unvisited w.phase, key ∈ w.endpoints

variable {cfg : Config} {w w' : World} {ev : Event} {id : EptId} {e e' : UdpEndpointProxy} {key : Endpoint}
  {todo : List Endpoint}

theorem visiting_step (hw : Visiting w) (h : step cfg w ev = some w') : Visiting w' := by
  have hkeyed := keyed_step hw.keyed (step_cases h)
  have howned := owned_step hw.keyed hw.owned h
  have hnodup := hw.nodup
  have hlisted := hw.listed
  cases step_cases h with
  | addServerProxy hphase =>
    obtain ⟨epts, heq⟩ := addServerProxy_eq _ _ w
    rw [heq] at hkeyed howned ⊢
    have hnone : unvisited w.phase = [] := by rw [hphase]; rfl
    refine ⟨hkeyed, howned, hnodup, ?_⟩
    intro key hkey
    rw [hnone] at hkey
    cases hkey
  | start | rest | stop => exact ⟨hkeyed, howned, List.nodup_nil, nofun⟩
  | tick => exact ⟨hkeyed, howned, AList.keys_nodup _, fun key hkey => AList.mem_keys.mp hkey⟩
  | merge => exact ⟨hkeyed, howned, AList.keys_nodup _, fun key hkey => AList.mem_keys.mp hkey⟩
  | @expire key id todo e hphase hkey =>
    rw [hphase] at hnodup hlisted
    refine ⟨hkeyed, howned, hnodup.erase _, ?_⟩
    intro key' hkey'
    obtain ⟨hne, hmem⟩ := hnodup.mem_erase_iff.mp hkey'
    exact AList.mem_erase.mpr ⟨hne, hlisted key' hmem⟩
  | lock hphase | enter hphase =>
    rw [hphase] at hnodup hlisted
    exact ⟨hkeyed, howned, hnodup.erase _, fun key' hkey' => hlisted key' (List.mem_of_mem_erase hkey')⟩
  | unlock hphase | leave hphase | restart hphase =>
    rw [hphase] at hnodup hlisted
    exact ⟨hkeyed, howned, hnodup, hlisted⟩
  | @transfer outcome key id todo e msg =>
    obtain ⟨ip, newEpts, epts, nextEpt, nextBuf, relayed, heq⟩ := transfer_eq cfg outcome key id e msg w
    rw [heq] at hkeyed howned ⊢
    exact ⟨hkeyed, howned, hnodup, hlisted⟩
  | _ => exact ⟨hkeyed, howned, hnodup, hlisted⟩

theorem visiting_initial (h : Initial w) : Visiting w := by
  refine ⟨keyed_initial h, owned_initial h, ?_, ?_⟩ <;> obtain ⟨clock, ip, heap, rfl⟩ := h
  · exact List.nodup_nil
  · nofun

def backlog (queue : UdpEndpointProxy → List UdpMsg) (id : EptId) (w : World) : ℕ :=
  (w.epts id).elim 0 fun e => (queue e).length

def passRank (w : World) : ℕ ×ₗ ℕ ×ₗ ℕ :=
  match w.phase with
  | .scan todo => toLex (1, toLex (2 * todo.length, 0))
  | .relay _ id todo => toLex (1, toLex (2 * todo.length + 1, backlog recvQueue id w))
  | .send todo => toLex (0, toLex (2 * todo.length, 0))
  | .flush id todo => toLex (0, toLex (2 * todo.length + 1, backlog sendQueue id w))
  | _ => toLex (0, toLex (0, 0))

theorem routine_enabled (hw : Visiting w) (hfault : w.fault = none) (hphase : w.phase.passing = true) :
    Enabled (step cfg) Routine w := by
  have henabled : ∀ ev, Routine ev → (run cfg w ev).isSome = true → Enabled (step cfg) Routine w := by
    intro ev hev hrun
    obtain ⟨w', hrun⟩ := Option.isSome_iff_exists.mp hrun
    exact ⟨ev, w', hev, by simpa [step, hfault] using hrun⟩
  have hlookup : ∀ key ∈ unvisited w.phase, ∃ id, w.endpoints.lookup key = some id := by
    intro key hkey
    exact Option.isSome_iff_exists.mp (AList.lookup_isSome.mpr (hw.listed key hkey))
  cases hw' : w.phase with
  | scan todo =>
    rw [hw'] at hlookup
    cases todo with
    | nil => exact henabled .merge trivial (by simp [run, merge, hw'])
    | cons key todo =>
      obtain ⟨id, hid⟩ := hlookup key List.mem_cons_self
      obtain ⟨e, he, -⟩ := hw.keyed.mapped key id hid
      exact henabled (.visit key) trivial (by simp [run, visit, hw', hid, he])
  | relay key id todo =>
    obtain ⟨e, he, -⟩ := hw.keyed.mapped key id (hw.keyed.locked key id todo hw')
    exact henabled (.relay .success) trivial (by simp [run, relay, hw', he])
  | send todo =>
    rw [hw'] at hlookup
    cases todo with
    | nil => exact henabled .rest trivial (by simp [run, hw'])
    | cons key todo =>
      obtain ⟨id, hid⟩ := hlookup key List.mem_cons_self
      exact henabled (.enter key) trivial (by simp [run, enter, hw', hid])
  | flush id todo =>
    obtain ⟨key, hkey⟩ := hw.owned.flushing id todo hw'
    obtain ⟨e, he, -⟩ := hw.keyed.mapped key id hkey
    exact henabled (.flush .success .success) trivial (by simp [run, flush, hw', he])
  | setup | sleep | stopped => rw [hw'] at hphase; cases hphase

theorem backlog_eq (queue : UdpEndpointProxy → List UdpMsg) (he : w.epts id = some e) :
    backlog queue id w = (queue e).length := by
  unfold backlog
  rw [he]
  rfl

/-- A handler that has to wait for the mutex cannot add to the queue that the routine thread is at. -/
theorem recvQueue_blocked {r : RecvResult} {draw : ℤ} {outcome : InitOutcome}
    (hphase : w.phase = .relay key id todo) (hfree : blocked w.phase id r.error = false) :
    (handled w r draw outcome e).1.recvQueue = e.recvQueue := by
  rcases handled_cases w r draw outcome e with ⟨s, t, heq⟩ | ⟨hsuccess, -⟩
  · rw [heq]
  · rw [hphase, hsuccess] at hfree
    simp [blocked] at hfree

theorem queues_network (hw : Visiting w) (h : step cfg w ev = some w') (hev : ¬ Routine ev)
    (he' : w'.epts id = some e') (hid : id < w.nextEpt) : ∃ e, w.epts id = some e ∧
      e'.sendQueue = e.sendQueue ∧
      ((∃ key todo, w.phase = .relay key id todo) → e'.recvQueue = e.recvQueue) := by
  cases became_step hw.keyed h he' with
  | same he => exact ⟨e', he, rfl, fun _ => rfl⟩
  | added hadd hphase hnew => exact absurd hnew hid.ne
  | credited hvisit | popped hvisit | handed hvisit | made hvisit | restarted hvisit | sent hvisit
  | stopped hvisit =>
    rw [hvisit] at hev
    exact absurd trivial hev
  | @arrived buf src data e harrive he => exact ⟨e, he, rfl, fun _ => rfl⟩
  | @failed buf error e hfail he => exact ⟨e, he, rfl, fun _ => rfl⟩
  | @handled r draw outcome e hhandle he hr hfree =>
    refine ⟨e, he, ?_, ?_⟩
    · rcases handled_cases w r draw outcome e with ⟨s, t, heq⟩ | ⟨-, -, s, f, heq⟩ <;> rw [heq]
    · rintro ⟨key, todo, hphase⟩
      exact recvQueue_blocked hphase hfree

theorem phase_network (h : step cfg w ev = some w') (hev : ¬ Routine ev) (hphase : w.phase.passing = true) :
    w'.phase = w.phase := by
  cases step_cases h with
  | addServerProxy hsetup | start hsetup => rw [hsetup] at hphase; cases hphase
  | arrive | fail | handleRecv | clock | ip => rfl
  | _ => exact absurd trivial hev

theorem passRank_network (hw : Visiting w) (h : step cfg w ev = some w') (hev : ¬ Routine ev)
    (hphase : w.phase.passing = true) : passRank w' = passRank w := by
  have hsame := phase_network h hev hphase
  have hw' := visiting_step hw h
  unfold passRank
  rw [hsame]
  cases hat : w.phase with
  | relay key id todo =>
    obtain ⟨e', he', -⟩ := hw'.keyed.mapped key id (hw'.keyed.locked key id todo (hsame.trans hat))
    obtain ⟨e₀, he₀, -⟩ := hw.keyed.mapped key id (hw.keyed.locked key id todo hat)
    obtain ⟨e, he, -, hqueue⟩ := queues_network hw h hev he' (hw.keyed.lt_nextEpt he₀)
    dsimp only
    rw [backlog_eq recvQueue he', backlog_eq recvQueue he, hqueue ⟨key, todo, hat⟩]
  | flush id todo =>
    obtain ⟨key, hkey⟩ := hw'.owned.flushing id todo (hsame.trans hat)
    obtain ⟨e', he', -⟩ := hw'.keyed.mapped key id hkey
    obtain ⟨key₀, hkey₀⟩ := hw.owned.flushing id todo hat
    obtain ⟨e₀, he₀, -⟩ := hw.keyed.mapped key₀ id hkey₀
    obtain ⟨e, he, hqueue, -⟩ := queues_network hw h hev he' (hw.keyed.lt_nextEpt he₀)
    dsimp only
    rw [backlog_eq sendQueue he', backlog_eq sendQueue he, hqueue]
  | _ => rfl

theorem length_tail_lt {α : Type} {x : α} {xs ys : List α} (h : ys = x :: xs) : ys.tail.length < ys.length := by
  rw [h]
  exact Nat.lt_succ_self _

theorem relay_shrinks {outcome : InitOutcome} {msg : UdpMsg} (hw : Visiting w)
    (h : step cfg w (.relay outcome) = some w') (hphase : w.phase = .relay key id todo)
    (he : w.epts id = some e) (hverdict : recvVerdict cfg key w e = .take msg) (hphase' : w'.phase = w.phase) :
    backlog recvQueue id w' < backlog recvQueue id w := by
  have hk' := keyed_step hw.keyed (step_cases h)
  obtain ⟨e', he', -⟩ := hk'.mapped key id (hk'.locked key id todo (hphase'.trans hphase))
  have hpop := popping_eq hphase he hverdict
  obtain ⟨rest, hqueue, -⟩ := recvVerdict_take hverdict
  rw [backlog_eq recvQueue he, backlog_eq recvQueue he']
  cases became_step hw.keyed h he' with
  | same he₁ hvisit hnot => exact absurd hpop (hnot outcome rfl key msg)
  | popped hev hat he₁ hverdict₁ =>
    rw [he] at he₁
    cases he₁
    rw [recvQueue_popRecv, recvQueue_debitRecv]
    exact length_tail_lt hqueue
  | handed hev hpop₁ hne =>
    rw [hpop] at hpop₁
    cases hpop₁
    exact absurd rfl hne
  | made hev hpop₁ he₁ hsender hnew => exact absurd hnew (hw.keyed.lt_nextEpt he).ne
  | added hev | credited hev | restarted hev | sent hev | stopped hev | arrived hev | failed hev | handled hev =>
    cases hev

theorem flush_shrinks {error : ErrorCode} {outcome : InitOutcome} (h : flush cfg error outcome w = some w')
    (hphase : w.phase = .flush id todo) (he : w.epts id = some e) : w'.phase = .send todo ∨
      w'.fault.isSome = true ∨ w'.phase = .flush id todo ∧ backlog sendQueue id w' < backlog sendQueue id w := by
  simp only [flush, hphase, he, Option.map_some, Option.some.injEq] at h
  split at h
  · subst h
    exact .inl rfl
  · subst h
    exact .inr (.inl rfl)
  · rename_i msg hverdict
    obtain ⟨rest, hqueue, -⟩ := sendVerdict_take hverdict
    obtain ⟨ip, hip⟩ := payIp_eq cfg 0 e msg.cost w
    rw [hip] at h
    split at h
    · subst h
      exact .inl rfl
    · subst h
      refine .inr (.inr ⟨hphase, ?_⟩)
      have he' : (World.modify id (sent msg) { w with ip := ip }).epts id = some (sent msg e) := by
        simp [World.modify, he]
      rw [backlog_eq sendQueue he, backlog_eq sendQueue he']
      exact length_tail_lt hqueue

theorem erase_lt (hkey : key ∈ todo) : (todo.erase key).length + 1 = todo.length :=
  List.length_erase_add_one hkey

theorem passRank_lt {a b c a' b' c' : ℕ} (h : a' < a ∨ a' = a ∧ (b' < b ∨ b' = b ∧ c' < c)) :
    (toLex (a', toLex (b', c')) : ℕ ×ₗ ℕ ×ₗ ℕ) < toLex (a, toLex (b, c)) := by
  rcases h with h | ⟨rfl, h | ⟨rfl, h⟩⟩
  · exact Prod.Lex.toLex_lt_toLex.mpr (.inl h)
  · exact Prod.Lex.toLex_lt_toLex.mpr (.inr ⟨rfl, Prod.Lex.toLex_lt_toLex.mpr (.inl h)⟩)
  · exact Prod.Lex.toLex_lt_toLex.mpr (.inr ⟨rfl, Prod.Lex.toLex_lt_toLex.mpr (.inr ⟨rfl, h⟩)⟩)

theorem passRank_routine (hw : Visiting w) (h : step cfg w ev = some w') (hev : Routine ev)
    (hphase : w.phase.passing = true) :
    w'.phase.passing = false ∨ w'.fault.isSome = true ∨ passRank w' < passRank w := by
  cases step_cases h with
  | addServerProxy | start | arrive | fail | handleRecv | clock | ip => exact hev.elim
  | early hat | tick hat | stop hat => rw [hat] at hphase; cases hphase
  | rest => exact .inl rfl
  | relayFault | flushFault => exact .inr (.inl rfl)
  | @expire key id todo e hat hkey =>
    refine .inr (.inr ?_)
    have herase := erase_lt hkey
    simp only [passRank, hat]
    apply passRank_lt
    omega
  | @lock key id todo e hat hkey =>
    refine .inr (.inr ?_)
    have herase := erase_lt hkey
    simp only [passRank, hat]
    apply passRank_lt
    omega
  | unlock hat =>
    refine .inr (.inr ?_)
    simp only [passRank, hat]
    apply passRank_lt
    omega
  | @transfer outcome key id todo e msg hat he hverdict =>
    have hphase' : (w.transfer cfg outcome key id e msg).phase = w.phase := by
      obtain ⟨ip, newEpts, epts, nextEpt, nextBuf, relayed, heq⟩ := transfer_eq cfg outcome key id e msg w
      rw [heq]
    have hless := relay_shrinks hw h hat he hverdict hphase'
    refine .inr (.inr ?_)
    simp only [passRank, hphase', hat]
    apply passRank_lt
    omega
  | merge hat =>
    refine .inr (.inr ?_)
    simp only [passRank, hat]
    apply passRank_lt
    omega
  | @enter key id todo hat =>
    obtain ⟨-, hrun⟩ := run_of_step h
    have hkey : key ∈ todo := by
      by_contra hkey
      simp only [run, enter, hat] at hrun
      split at hrun
      · rename_i heq hlookup
        cases heq
        rw [if_neg hkey] at hrun
        cases hrun
      · cases hrun
    refine .inr (.inr ?_)
    have herase := erase_lt hkey
    simp only [passRank, hat]
    apply passRank_lt
    omega
  | leave hat | restart hat =>
    refine .inr (.inr ?_)
    simp only [passRank, hat]
    apply passRank_lt
    omega
  | @sent error outcome id todo e ip msg hat he =>
    obtain ⟨-, hrun⟩ := run_of_step h
    refine .inr ?_
    rcases flush_shrinks hrun hat he with hsend | hfault | ⟨hat', hless⟩
    · cases hat.symm.trans hsend
    · exact .inl hfault
    · refine .inr ?_
      unfold passRank
      rw [hat', hat]
      apply passRank_lt
      omega

theorem run_fault (r : Run (step cfg)) (n : ℕ) : (r.state n).fault = none := (run_of_step (r.next n)).1

theorem pass_ends (r : Run (step cfg)) (hstart : Initial (r.state 0)) (hfair : r.Fair Routine) :
    r.Often fun w => w.phase.passing = false := by
  have hvisiting : ∀ n, Visiting (r.state n) :=
    r.invariant (fun _ _ _ hw h => visiting_step hw h) (visiting_initial hstart)
  have hoften : r.Often fun w => w.phase.passing = false ∨ w.fault.isSome = true := by
    apply r.often_of_rank (fun _ : Unit => Routine) (fun _ => ()) passRank hvisiting (fun _ => hfair)
    · intro w hw hgoal
      apply routine_enabled hw
      · simpa using fun hfault => hgoal (.inr hfault)
      · simpa using fun hphase => hgoal (.inl hphase)
    · intro w ev w' hw hgoal h
      have hphase : w.phase.passing = true := by simpa using fun hphase => hgoal (.inl hphase)
      by_cases hev : Routine ev
      · rcases passRank_routine hw h hev hphase with hrest | hfault | hless
        · exact .inl (.inl hrest)
        · exact .inl (.inr hfault)
        · exact .inr (.inl hless)
      · exact .inr (.inr ⟨(passRank_network hw h hev hphase).le, rfl, hev⟩)
  intro n
  obtain ⟨m, hm, hrest | hfault⟩ := hoften n
  · exact ⟨m, hm, hrest⟩
  · rw [run_fault r m] at hfault
    cases hfault

def idleEvent (w : World) : Event :=
  match w.phase with
  | .setup => .start
  | .sleep => if w.clock ≤ w.lastFlushTm then .clock (w.lastFlushTm + 10) else .tick
  | .scan _ => .merge
  | _ => .rest

def idleNext (w : World) : World := (step plain w (idleEvent w)).getD w

structure Idle (w : World) : Prop where
  fault : w.fault = none
  endpoints : w.endpoints = ∅
  newEpts : w.newEpts = ∅
  phase : w.phase = .setup ∨ w.phase = .sleep ∨ w.phase = .scan [] ∨ w.phase = .send []

theorem idle_sleep (hw : Idle w) (hphase : w.phase = .sleep) (hclock : ¬ w.clock ≤ w.lastFlushTm) :
    step plain w .tick = some w.tick ∧ w.tick.phase = .scan [] := by
  have hpos : ¬ w.clock - w.lastFlushTm ≤ 0 := fun hle => hclock (Int.le_of_sub_nonpos hle)
  refine ⟨by simp [step, run, hw.fault, hphase], ?_⟩
  rw [World.tick, if_neg hpos, hw.endpoints]
  rfl

theorem idle_step (hw : Idle w) : step plain w (idleEvent w) = some (idleNext w) ∧ Idle (idleNext w) := by
  have hstep : ∀ w', step plain w (idleEvent w) = some w' → Idle w' →
      step plain w (idleEvent w) = some (idleNext w) ∧ Idle (idleNext w) := by
    intro w' hstep hidle
    unfold idleNext
    rw [hstep]
    exact ⟨rfl, hidle⟩
  obtain ⟨hfault, hendpoints, hnewEpts, hphase⟩ := hw
  rcases hphase with hphase | hphase | hphase | hphase
  · apply hstep { w with now := w.clock, lastFlushTm := w.clock, phase := .sleep }
    · simp [idleEvent, hphase, step, run, hfault]
    · exact ⟨hfault, hendpoints, hnewEpts, .inr (.inl rfl)⟩
  · by_cases hclock : w.clock ≤ w.lastFlushTm
    · apply hstep { w with clock := w.lastFlushTm + 10 }
      · simp [idleEvent, hphase, hclock, step, run, hfault]
      · exact ⟨hfault, hendpoints, hnewEpts, .inr (.inl hphase)⟩
    · obtain ⟨htick, hscan⟩ := idle_sleep ⟨hfault, hendpoints, hnewEpts, .inr (.inl hphase)⟩ hphase hclock
      have hpos : ¬ w.clock - w.lastFlushTm ≤ 0 := fun hle => hclock (Int.le_of_sub_nonpos hle)
      apply hstep w.tick
      · simpa [idleEvent, hphase, hclock] using htick
      · rw [World.tick, if_neg hpos] at hscan ⊢
        exact ⟨hfault, hendpoints, rfl, .inr (.inr (.inl hscan))⟩
  · apply hstep { w with
      endpoints := w.endpoints ∪ w.newEpts
      newEpts := ∅
      phase := .send (w.endpoints ∪ w.newEpts).keys }
    · simp [idleEvent, hphase, step, run, merge, hfault]
    · rw [hendpoints, hnewEpts]
      exact ⟨hfault, rfl, rfl, .inr (.inr (.inr rfl))⟩
  · apply hstep { w with phase := .sleep }
    · simp [idleEvent, hphase, step, run, hfault]
    · exact ⟨hfault, hendpoints, hnewEpts, .inr (.inl rfl)⟩

theorem idle_start : Idle start := ⟨rfl, rfl, rfl, .inl rfl⟩

def idleRun : Run (step plain) := .follow idleEvent idleNext (fun _ hw => idle_step hw) start idle_start

theorem idle_state (n : ℕ) : Idle (idleRun.state n) := by
  induction n with
  | zero => exact idle_start
  | succ n ih =>
    have hnext : idleRun.state (n + 1) = idleNext (idleRun.state n) := Function.iterate_succ_apply' ..
    rw [hnext]
    exact (idle_step ih).2

theorem fair_idle : idleRun.Fair Routine := by
  have hnext : ∀ n, idleRun.state (n + 1) = idleNext (idleRun.state n) :=
    fun n => Function.iterate_succ_apply' ..
  have hsleep : ∀ n, (idleRun.state n).phase = .sleep →
      ∃ m, n ≤ m ∧ (Routine (idleRun.event m) ∨ ¬ Enabled (step plain) Routine (idleRun.state m)) := by
    intro n hphase
    by_cases hclock : (idleRun.state n).clock ≤ (idleRun.state n).lastFlushTm
    · have hstate : idleRun.state (n + 1) =
          { idleRun.state n with clock := (idleRun.state n).lastFlushTm + 10 } := by
        rw [hnext]
        simp [idleNext, idleEvent, hphase, hclock, step, run, (idle_state n).fault]
      refine ⟨n + 1, Nat.le_succ n, .inl ?_⟩
      have hevent : idleRun.event (n + 1) = idleEvent (idleRun.state (n + 1)) := rfl
      have hlater : ¬ (idleRun.state n).lastFlushTm + 10 ≤ (idleRun.state n).lastFlushTm :=
        Int.not_le.mpr (Int.lt_add_of_pos_right _ (by decide))
      rw [hevent, hstate]
      simp [idleEvent, hphase, hlater, Routine]
    · refine ⟨n, le_refl n, .inl ?_⟩
      have hevent : idleRun.event n = idleEvent (idleRun.state n) := rfl
      rw [hevent]
      simp [idleEvent, hphase, hclock, Routine]
  intro n
  have hevent : idleRun.event n = idleEvent (idleRun.state n) := rfl
  rcases (idle_state n).phase with hphase | hphase | hphase | hphase
  · obtain ⟨m, hm, hturn⟩ := hsleep (n + 1) (by
      rw [hnext]
      simp [idleNext, idleEvent, hphase, step, run, (idle_state n).fault])
    exact ⟨m, by omega, hturn⟩
  · exact hsleep n hphase
  · exact ⟨n, le_refl n, .inl (by rw [hevent]; simp [idleEvent, hphase, Routine])⟩
  · exact ⟨n, le_refl n, .inl (by rw [hevent]; simp [idleEvent, hphase, Routine])⟩

theorem pass_ends_idle : idleRun.Often fun w => w.phase.passing = false :=
  pass_ends idleRun initial_start fair_idle

end TcpUdpProxy.UdpServer
