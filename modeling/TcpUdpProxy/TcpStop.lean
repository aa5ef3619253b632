import TcpUdpProxy.TcpListener

namespace TcpUdpProxy.TcpProxy

open TcpConnection TcpMachine Execution Progress

structure Closed (w : World) : Prop where
  acceptor : w.acceptorOpen = false
  cancelled : ∀ job ∈ w.io.outstanding, job.isAccept = false ∧ job.isWait = false
  connections : ∀ e ∈ w.tcpConnections, e.conn.closeFlag = true

structure Stopping (w : World) : Prop where
  told : w.closeFlag = true
  waits : 1 ≤ w.io.live Job.isWait
  genuine : WaitsGenuine w

inductive Party
  | timer
  | loop

def Party.own : Party → Event → Prop
  | .timer, ev => ∃ n, ev = .complete .wait .success n
  | .loop, ev => ∃ s, ev = .dispatch s

def Outside : Event → Prop
  | .complete _ _ _ | .dispatch _ => False
  | _ => True

theorem Outside.not_own {ev : Event} (h : Outside ev) (party : Party) : ¬ party.own ev := by
  intro hown
  cases party with
  | timer | loop =>
    obtain ⟨x, rfl⟩ := hown
    exact h

def ringsIn (ready : List Completion) : ℕ := ready.findIdx (Completion.live Job.isWait)

def helper (w : World) : Party := if 0 < w.io.queued Job.isWait then .loop else .timer

def rank (w : World) : ℕ ×ₗ ℕ :=
  if 0 < w.io.queued Job.isWait then toLex (0, ringsIn w.io.ready) else toLex (1, 0)

section stopping

variable {cfg : Config} {s : Surroundings} {w w' : World} {k : Completion} {rest : List Completion}

theorem stopAll_eq (s : Surroundings) (w : World) : ∃ es io, stopAll s w = { w with tcpConnections := es, io := io } ∧
    forEach (fun e => .ok (true, TcpConnection.stop (e.frame s.availBytes))) w.tcpConnections w.io = .ok (es, io) := by
  have hok : ∀ es io, ∃ r, forEach (fun e => .ok (true, TcpConnection.stop (e.frame s.availBytes))) es io = .ok r := by
    intro es
    induction es with
    | nil => exact fun io => ⟨_, rfl⟩
    | cons e es ih =>
      intro io
      obtain ⟨r, hr⟩ := ih (e.perform (TcpConnection.stop (e.frame s.availBytes)) io)
      unfold forEach
      dsimp only
      rw [hr]
      exact ⟨_, rfl⟩
  obtain ⟨⟨es, io⟩, hloop⟩ := hok w.tcpConnections w.io
  refine ⟨es, io, ?_, hloop⟩
  unfold stopAll
  rw [hloop]
  rfl

theorem closed_close : Closed (w.close s) := by
  have hcancelled : ∀ job ∈ (w.closeAcceptor.io.abort Job.isWait).outstanding,
      job.isAccept = false ∧ job.isWait = false := by
    intro job hjob
    obtain ⟨hjob, hwait⟩ := List.mem_filter.mp hjob
    obtain ⟨-, haccept⟩ := List.mem_filter.mp hjob
    exact ⟨by simpa using haccept, by simpa using hwait⟩
  obtain ⟨es, io, heq, hloop⟩ := stopAll_eq s { w.closeAcceptor with io := w.closeAcceptor.io.abort Job.isWait }
  have hclose : w.close s = { w.closeAcceptor with tcpConnections := es, io := io } := heq
  rw [hclose]
  refine ⟨rfl, ?_, ?_⟩
  · apply forEach_induction
      (I := fun _ _ io => ∀ job ∈ io.outstanding, job.isAccept = false ∧ job.isWait = false) ?_ hloop hcancelled
    intro passed e es io keep f hi _ job hjob
    rcases (stage_perform f e io).others job hjob with hjob | hof
    · exact hi job hjob
    · cases job with
      | accept | wait => cases hof
      | conn => exact ⟨rfl, rfl⟩
  · refine forEach_induction (I := fun passed _ _ => ∀ e ∈ passed, e.conn.closeFlag = true) ?_ hloop nofun
    intro passed e es io keep f hi hf e' he'
    cases hf
    rcases List.mem_append.mp he' with he' | he'
    · exact hi e' he'
    · obtain rfl := List.mem_singleton.mp he'
      rfl

theorem asyncWait_waits : Closed (w.asyncWait s) ∨
    (w.asyncWait s).closeFlag = w.closeFlag ∧ 1 ≤ (w.asyncWait s).io.live Job.isWait := by
  unfold World.asyncWait
  dsimp only
  split_ifs
  · have hwait := live_start Job.isWait (w.io.abort Job.isWait) false (Eq.refl (Job.isWait .wait))
    exact .inr ⟨rfl, (Nat.le_add_left 1 _).trans_eq hwait.symm⟩
  · exact .inl closed_close

theorem handleAccept_waits {error : ErrorCode} (hclose : w.closeFlag = true) (hwait : 1 ≤ w.io.live Job.isWait)
    (hfault : (w.handleAccept cfg s error).fault = none) : Closed (w.handleAccept cfg s error) ∨
      (w.handleAccept cfg s error).closeFlag = true ∧ 1 ≤ (w.handleAccept cfg s error).io.live Job.isWait := by
  have haccepting (v : World) : 1 ≤ v.io.live Job.isWait → 1 ≤ v.startAccept.io.live Job.isWait :=
    fun h => h.trans_eq (live_startAccept v).2.symm
  unfold World.handleAccept at hfault ⊢
  split_ifs at hfault ⊢ with herror haborted
  · have hclosed : 1 ≤ w.closeAcceptor.io.live Job.isWait := hwait.trans_eq live_closeAcceptor.2.symm
    unfold World.start
    split_ifs
    · exact asyncWait_waits.imp_right fun h => ⟨h.1.trans hclose, h.2⟩
    · exact .inr ⟨rfl, hclosed⟩
  · exact .inr ⟨hclose, hwait⟩
  · split at hfault
    · cases hfault
    · refine .inr ⟨hclose, haccepting _ ?_⟩
      exact hwait.trans_eq (live_start_other _ rfl).symm

theorem queued_pop (hready : w.io.ready = k :: rest) :
    w.io.queued Job.isWait = (w.pop rest).io.queued Job.isWait + if k.live Job.isWait then 1 else 0 := by
  unfold Io.queued
  rw [hready, List.countP_cons]
  rfl

theorem dispatch_waits (hs : Stopping w) (hready : w.io.ready = k :: rest)
    (hfault : (dispatch cfg s k (w.pop rest)).fault = none) : Closed (dispatch cfg s k (w.pop rest)) ∨
      k.live Job.isWait = false ∧ (dispatch cfg s k (w.pop rest)).closeFlag = true ∧
        1 ≤ (dispatch cfg s k (w.pop rest)).io.live Job.isWait := by
  have hpop : w.io.live Job.isWait = (w.pop rest).io.live Job.isWait + if k.live Job.isWait then 1 else 0 :=
    live_pop hready
  have htold : (w.pop rest).closeFlag = true := hs.told
  have hother (hdead : k.live Job.isWait = false) : 1 ≤ (w.pop rest).io.live Job.isWait := by
    have hwaits := hs.waits
    rw [hpop, hdead] at hwaits
    exact hwaits
  cases hjob : k.job with
  | accept =>
    have hdead : k.live Job.isWait = false := by simp [Completion.live, hjob, Job.isWait]
    simp only [dispatch, hjob] at hfault ⊢
    exact (handleAccept_waits htold (hother hdead) hfault).imp_right fun h => ⟨hdead, h⟩
  | wait =>
    simp only [dispatch, hjob]
    unfold World.handleWait
    rcases hs.genuine k (hready ▸ List.mem_cons_self ..) hjob with hsuccess | haborted
    · rw [if_neg (not_not.mpr hsuccess), if_pos htold]
      exact .inl closed_close
    · have hdead : k.live Job.isWait = false := by simp [Completion.live, haborted]
      rw [if_pos (by rw [haborted]; decide)]
      exact .inr ⟨hdead, hs.told, hother hdead⟩
  | conn c op =>
    have hdead : k.live Job.isWait = false := by simp [Completion.live, hjob, Job.isWait]
    rcases dispatch_conn (w := w.pop rest) hjob with ⟨-, -, heq⟩ | ⟨fault, heq⟩ | ⟨e, -, -, f, -, heq⟩
    · rw [heq]
      exact .inr ⟨hdead, hs.told, hother hdead⟩
    · rw [heq] at hfault
      cases hfault
    · have hlive : (e.perform f (w.pop rest).io).live Job.isWait = (w.pop rest).io.live Job.isWait :=
        live_perform wait_conn
      rw [heq]
      exact .inr ⟨hdead, hs.told, (hother hdead).trans_eq hlive.symm⟩

theorem queued_append (ready added : List Completion) :
    (ready ++ added).countP (Completion.live Job.isWait) =
      ready.countP (Completion.live Job.isWait) + added.countP (Completion.live Job.isWait) := List.countP_append ..

theorem ringsIn_append {ready added : List Completion} (h : 0 < ready.countP (Completion.live Job.isWait)) :
    ringsIn (ready ++ added) = ringsIn ready := by
  obtain ⟨k, hk, hlive⟩ := List.countP_pos_iff.mp h
  unfold ringsIn
  rw [List.findIdx_append, if_pos (List.findIdx_lt_length_of_exists ⟨k, hk, hlive⟩)]

theorem rank_grows {added : List Completion} (hready : w'.io.ready = w.io.ready ++ added) :
    rank w' < rank w ∨ rank w' = rank w ∧ helper w' = helper w := by
  have hqueued : w'.io.queued Job.isWait =
      w.io.queued Job.isWait + added.countP (Completion.live Job.isWait) := by
    unfold Io.queued
    rw [hready, queued_append]
  unfold rank helper
  by_cases hw : 0 < w.io.queued Job.isWait
  · have hw' : 0 < w'.io.queued Job.isWait := by omega
    rw [if_pos hw, if_pos hw', if_pos hw, if_pos hw', hready, ringsIn_append hw]
    exact .inr ⟨rfl, rfl⟩
  · by_cases hw' : 0 < w'.io.queued Job.isWait
    · rw [if_neg hw, if_pos hw']
      exact .inl (Prod.Lex.toLex_lt_toLex.mpr (.inl Nat.zero_lt_one))
    · rw [if_neg hw, if_neg hw', if_neg hw, if_neg hw']
      exact .inr ⟨rfl, rfl⟩

theorem rank_pop (hready : w.io.ready = k :: rest) (hdead : k.live Job.isWait = false) :
    (0 < w.io.queued Job.isWait → rank (w.pop rest) < rank w) ∧
      rank (w.pop rest) ≤ rank w ∧ helper (w.pop rest) = helper w := by
  have hqueued : (w.pop rest).io.queued Job.isWait = w.io.queued Job.isWait := by
    rw [queued_pop hready, hdead]
    rfl
  have hrings : ringsIn w.io.ready = ringsIn rest + 1 := by
    unfold ringsIn
    rw [hready, List.findIdx_cons, hdead]
    rfl
  unfold rank helper
  rw [hqueued, hrings]
  split_ifs with hw
  · have hless : toLex (0, ringsIn (w.pop rest).io.ready) < toLex ((0 : ℕ), ringsIn rest + 1) :=
      Prod.Lex.toLex_lt_toLex.mpr (.inr ⟨rfl, Nat.lt_succ_self _⟩)
    exact ⟨fun _ => hless, hless.le, rfl⟩
  · exact ⟨fun h => absurd h hw, le_refl _, rfl⟩

theorem stopping_dispatch (hs : Stopping w) (hready : w.io.ready = k :: rest)
    (hfault : (dispatch cfg s k (w.pop rest)).fault = none) (hgoal : ¬ Closed (dispatch cfg s k (w.pop rest))) :
    Stopping (dispatch cfg s k (w.pop rest)) ∧
      (rank (dispatch cfg s k (w.pop rest)) < rank w ∨
        rank (dispatch cfg s k (w.pop rest)) ≤ rank w ∧ helper (dispatch cfg s k (w.pop rest)) = helper w ∧
          helper w = .timer) := by
  have hgrows : Grows (w.pop rest).io (dispatch cfg s k (w.pop rest)).io := grows_dispatch k
  rcases dispatch_waits hs hready hfault with hclosed | ⟨hdead, htold, hwaits⟩
  · exact absurd hclosed hgoal
  · refine ⟨⟨htold, hwaits, ?_⟩, ?_⟩
    · refine hs.genuine.grows ?_ hgrows
      intro k hk
      exact hready ▸ List.mem_cons_of_mem _ hk
    · obtain ⟨added, hadded, -⟩ := hgrows
      obtain ⟨hpop, hle, hsame⟩ := rank_pop hready hdead
      rcases rank_grows hadded with hless | ⟨hrank, hhelper⟩
      · exact .inl (hless.trans_le hle)
      · rw [hrank, hhelper, hsame]
        by_cases hw : 0 < w.io.queued Job.isWait
        · exact .inl (hpop hw)
        · exact .inr ⟨hle, rfl, if_neg hw⟩

theorem stopping_complete {job : Job} {error : ErrorCode} {n : ℕ} (hs : Stopping w) (hjob : job ∈ w.io.outstanding)
    (hgenuine : Genuine (.complete job error n))
    (hw' : w'.io = ⟨w.io.outstanding.erase job, w.io.ready ++ [⟨job, error, n⟩]⟩)
    (htold : w'.closeFlag = w.closeFlag) : Stopping w' ∧
      (rank w' < rank w ∨ rank w' ≤ rank w ∧ helper w' = helper w ∧
        ¬ (helper w).own (.complete job error n)) := by
  constructor
  · refine ⟨htold.trans hs.told, ?_, ?_⟩
    · rw [hw', live_complete hjob hgenuine.1]
      exact hs.waits
    · intro k hk hwait
      rw [hw'] at hk
      rcases List.mem_append.mp hk with hk | hk
      · exact hs.genuine k hk hwait
      · obtain rfl := List.mem_singleton.mp hk
        exact .inl (hgenuine.2 hwait)
  · rcases rank_grows (congrArg Io.ready hw') with hless | ⟨hrank, hhelper⟩
    · exact .inl hless
    · refine .inr ⟨hrank.le, hhelper, ?_⟩
      intro hown
      cases hparty : helper w with
      | loop =>
        rw [hparty] at hown
        obtain ⟨s, hs⟩ := hown
        cases hs
      | timer =>
        rw [hparty] at hown
        obtain ⟨m, hm⟩ := hown
        cases hm
        -- the wait is in the queue now, so the loop has become the helper
        have hloop : helper w' = .loop := by
          refine if_pos (List.countP_pos_iff.mpr ⟨⟨.wait, .success, n⟩, ?_, rfl⟩)
          rw [hw']
          exact List.mem_append_right _ (List.mem_singleton_self _)
        rw [hloop, hparty] at hhelper
        cases hhelper

theorem Stopping.same (hs : Stopping w) (htold : w'.closeFlag = true) (hio : w'.io = w.io) {ev : Event}
    (hev : Outside ev) : Stopping w' ∧
      (rank w' < rank w ∨ rank w' ≤ rank w ∧ helper w' = helper w ∧ ¬ (helper w).own ev) := by
  obtain ⟨-, hwaits, hgenuine⟩ := hs
  refine ⟨⟨htold, hio ▸ hwaits, ?_⟩, .inr ⟨?_, ?_, hev.not_own _⟩⟩
  · unfold WaitsGenuine
    rwa [hio]
  · unfold rank
    rw [hio]
  · unfold helper
    rw [hio]

theorem stopping_step {ev : Event} (hs : Stopping w) (hgenuine : Genuine ev) (h : step cfg w ev = some w')
    (hfault : w'.fault = none) (hgoal : ¬ Closed w') : Stopping w' ∧
      (rank w' < rank w ∨ rank w' ≤ rank w ∧ helper w' = helper w ∧ ¬ (helper w).own ev) := by
  unfold step at h
  split at h
  · cases h
  cases ev with
  | complete job error n =>
    simp only [run] at h
    split at h
    next hjob =>
      cases h
      exact stopping_complete hs hjob.1 hgenuine rfl rfl
    · cases h
  | dispatch s =>
    simp only [run] at h
    split at h
    · cases h
    next k rest hready =>
      cases h
      obtain ⟨hstopping, hrank⟩ := stopping_dispatch hs hready hfault hgoal
      refine ⟨hstopping, hrank.imp_right ?_⟩
      rintro ⟨hle, hsame, hparty⟩
      refine ⟨hle, hsame, ?_⟩
      rw [hparty]
      rintro ⟨n, hn⟩
      cases hn
  | disconnect c p =>
    obtain ⟨e, -, h⟩ := Option.bind_eq_some_iff.mp h
    split at h
    · cases h
      refine Stopping.same hs ?_ ?_ trivial
      · exact hs.told
      · rfl
    · cases h
  | disconnectAccepted =>
    simp only [run] at h
    split at h
    · cases h
      refine Stopping.same hs ?_ ?_ trivial
      · exact hs.told
      · rfl
    · cases h
  | stop =>
    cases h
    refine Stopping.same hs ?_ ?_ trivial
    · rfl
    · rfl
  | clock now =>
    cases h
    refine Stopping.same hs ?_ ?_ trivial
    · exact hs.told
    · rfl

theorem helper_enabled (hs : Stopping w) (hfault : w.fault = none) :
    Enabled (step cfg) (helper w).own w := by
  unfold helper
  split_ifs with hqueued
  · obtain ⟨k, hk, -⟩ := List.countP_pos_iff.mp hqueued
    obtain ⟨k, rest, hready⟩ := List.exists_cons_of_ne_nil (List.ne_nil_of_mem hk)
    refine ⟨.dispatch calm, dispatch cfg calm k (w.pop rest), ⟨calm, rfl⟩, ?_⟩
    unfold step
    rw [if_neg (by rw [hfault]; decide)]
    simp only [run, hready]
    rfl
  · have hwaits : 0 < w.io.outstanding.countP Job.isWait := by
      have hlive := hs.waits
      unfold Io.live at hlive
      omega
    obtain ⟨job, hjob, hwait⟩ := List.countP_pos_iff.mp hwaits
    cases job with
    | wait =>
      have hsome : (step cfg w (.complete .wait .success 0)).isSome = true := by
        unfold step
        rw [if_neg (by rw [hfault]; decide)]
        simp only [run]
        rw [if_pos ⟨hjob, Nat.zero_le _⟩]
        rfl
      obtain ⟨t, ht⟩ := Option.isSome_iff_exists.mp hsome
      exact ⟨.complete .wait .success 0, t, ⟨0, rfl⟩, ht⟩
    | accept | conn => cases hwait

end stopping

theorem stop_closes {cfg : Config} (r : Run (step cfg)) {w₀ : World} {es : List Event} (hstart : Started w₀)
    (h : exec (step cfg) w₀ es = some (r.state 0)) (hes : ∀ ev ∈ es, Genuine ev)
    (hgenuine : ∀ n, Genuine (r.event n)) (hfair : ∀ party : Party, r.Fair party.own)
    (htold : (r.state 0).closeFlag = true) (hopen : (r.state 0).acceptorOpen = true) :
    ∃ n, Closed (r.state n) := by
  have hfault : ∀ n, (r.state n).fault = none := by
    intro n
    have hnext := r.next n
    unfold step at hnext
    split at hnext
    · cases hnext
    next hnone => simpa using hnone
  by_contra hnever
  have hgoal : ∀ n, ¬ Closed (r.state n) := fun n hn => hnever ⟨n, hn⟩
  have hstopping : ∀ n, Stopping (r.state n) := by
    intro n
    induction n with
    | zero =>
      obtain ⟨hl, hwaits⟩ := listening_exec hstart h hes (hfault 0)
      exact ⟨htold, hl.waits hopen, hwaits⟩
    | succ n ih => exact (stopping_step ih (hgenuine n) (r.next n) (hfault _) (hgoal _)).1
  have hoften : r.Often Closed := by
    apply r.often_of_steps Party.own helper rank hfair
    · intro m _
      exact helper_enabled (hstopping m) (hfault m)
    · intro m _
      exact .inr (stopping_step (hstopping m) (hgenuine m) (r.next m) (hfault _) (hgoal _)).2
  obtain ⟨n, -, hn⟩ := hoften 0
  exact hgoal n hn

theorem not_enabled {cfg : Config} {w : World} (hwait : .wait ∉ w.io.outstanding) (hready : w.io.ready = [])
    (party : Party) : ¬ Enabled (step cfg) party.own w := by
  rintro ⟨ev, t, hown, h⟩
  unfold step at h
  split at h
  · cases h
  cases party with
  | timer =>
    obtain ⟨n, rfl⟩ := hown
    simp only [run] at h
    rw [if_neg (fun hjob => hwait hjob.1)] at h
    cases h
  | loop =>
    obtain ⟨s, rfl⟩ := hown
    simp only [run, hready] at h
    cases h

def stopped : List Event :=
  [.complete .wait .success 0, .dispatch calm, .dispatch calm, .dispatch calm]

theorem stop_closes_stopped : ∃ r : Run (step impatient),
    (r.state 0).acceptorOpen = true ∧ ∃ n, Closed (r.state n) := by
  let accepting : List Event := [.complete .accept .success 0, .dispatch calm, .stop]
  have hbefore : (exec (step impatient) (started 0) accepting).map (fun w => (w.closeFlag, w.acceptorOpen)) =
      some (true, true) := by decide
  have hafter : (exec (step impatient) (started 0) (accepting ++ stopped)).map
      (fun w => (w.io.outstanding, w.io.ready, w.closeFlag, w.fault.isSome)) = some ([], [], true, false) := by decide
  obtain ⟨w, hw, hstate⟩ := Option.map_eq_some_iff.mp hbefore
  obtain ⟨t, ht, hend⟩ := Option.map_eq_some_iff.mp hafter
  simp only [Prod.mk.injEq] at hstate hend
  obtain ⟨houtstanding, hready, hclose, hfault⟩ := hend
  have hrun : exec (step impatient) w stopped = some t := by
    rw [exec_append, hw] at ht
    exact ht
  have hidle : step impatient t .stop = some t := by
    unfold step
    rw [hfault, if_neg Bool.false_ne_true]
    refine congrArg some ?_
    rw [← hclose]
  have hgenuine : ∀ n, Genuine ((Run.ending hrun hidle).event n) := by
    intro n
    change Genuine (stopped[n]?.getD .stop)
    cases hn : stopped[n]? with
    | none => trivial
    | some ev =>
      have hall : ∀ ev ∈ stopped, Genuine ev := by decide
      exact hall ev (List.mem_of_getElem? hn)
  refine ⟨.ending hrun hidle, hstate.2, ?_⟩
  have hstart : Started (started 0) := ⟨0, rfl⟩
  refine stop_closes (.ending hrun hidle) hstart hw (by decide) hgenuine ?_ hstate.1 hstate.2
  intro party
  refine Run.ending_fair hrun hidle (not_enabled ?_ hready party)
  rw [houtstanding]
  exact List.not_mem_nil

end TcpUdpProxy.TcpProxy
