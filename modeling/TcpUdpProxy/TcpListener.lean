import TcpUdpProxy.TcpProxyHandlers
import TcpUdpProxy.Library.Progress
import Mathlib.Data.Prod.Lex

namespace TcpUdpProxy.TcpProxy

open TcpConnection TcpMachine Execution Progress

def Completion.live (kind : Job → Bool) (k : Completion) : Bool := kind k.job && k.error ≠ .operationAborted

def Io.queued (kind : Job → Bool) (io : Io) : ℕ := io.ready.countP (Completion.live kind)

def Io.live (kind : Job → Bool) (io : Io) : ℕ := io.outstanding.countP kind + io.queued kind

section live

variable {kind cancelled : Job → Bool} {io : Io} {job : Job}

theorem queued_abort : (io.abort cancelled).queued kind = io.queued kind := by
  unfold Io.queued Io.abort
  rw [List.countP_append, Nat.add_eq_left, List.countP_eq_zero]
  intro k hk
  obtain ⟨job, -, rfl⟩ := List.mem_map.mp hk
  simp [Completion.live]

theorem live_abort (h : ∀ job, cancelled job = true → kind job = false) :
    (io.abort cancelled).live kind = io.live kind := by
  unfold Io.live
  rw [queued_abort, Nat.add_right_cancel_iff, Io.abort, List.countP_filter]
  apply List.countP_congr
  intro job _
  cases hc : cancelled job with
  | true => simp [h job hc]
  | false => simp

theorem live_abort_self : (io.abort kind).live kind = io.queued kind := by
  unfold Io.live
  rw [queued_abort, Nat.add_eq_right, Io.abort, List.countP_eq_zero]
  intro job hjob
  simpa using (List.mem_filter.mp hjob).2

theorem live_start_other (closed : Bool) (h : kind job = false) :
    (io.start closed job).live kind = io.live kind := by
  unfold Io.start Io.live Io.queued
  cases closed <;> simp [Completion.live, h]

theorem live_start (kind : Job → Bool) (io : Io) (closed : Bool) (h : kind job = true) :
    (io.start closed job).live kind = io.live kind + 1 := by
  unfold Io.start Io.live Io.queued
  cases closed
  · simp [h]
    omega
  · simp [Completion.live, h]
    omega

theorem live_pop {k : Completion} {rest : List Completion} (hready : io.ready = k :: rest) :
    io.live kind = Io.live kind { io with ready := rest } + if k.live kind then 1 else 0 := by
  unfold Io.live Io.queued
  rw [hready, List.countP_cons, Nat.add_assoc]

theorem live_complete {error : ErrorCode} {n : ℕ} (hjob : job ∈ io.outstanding)
    (herror : error ≠ .operationAborted) :
    Io.live kind ⟨io.outstanding.erase job, io.ready ++ [⟨job, error, n⟩]⟩ = io.live kind := by
  unfold Io.live Io.queued
  rw [List.countP_append, List.countP_singleton, (List.perm_cons_erase hjob).countP_eq, List.countP_cons]
  simp only [Completion.live, herror, ne_eq, not_false_eq_true, decide_true, Bool.and_true]
  omega

theorem live_perform {actions : List Action} {id : ConnId} {s : Bool × Io}
    (hkind : ∀ id op, kind (.conn id op) = false) :
    (actions.foldl (Io.perform id) s).2.live kind = s.2.live kind := by
  induction actions generalizing s with
  | nil => rfl
  | cons a actions ih =>
    rw [List.foldl_cons, ih]
    cases a with
    | asyncConnect => exact live_start_other _ (hkind _ _)
    | asyncRead p buf => exact live_start_other _ (hkind _ _)
    | asyncWrite p msg => exact live_start_other _ (hkind _ _)
    | stop =>
      apply live_abort
      intro job hof
      cases job with
      | conn id op => exact hkind id op
      | accept | wait => cases hof
    | received | popped | charge => rfl

theorem live_forEach {run : Entry → Except Fault (Bool × Frame)} {es es' : List Entry} {io' : Io}
    (hkind : ∀ id op, kind (.conn id op) = false) (h : forEach run es io = .ok (es', io')) :
    io'.live kind = io.live kind := by
  apply forEach_induction (I := fun _ _ io' => io'.live kind = io.live kind) ?_ h rfl
  intro passed e es io' keep f hi _
  exact (live_perform hkind).trans hi

end live

/-- A handler only adds results to the queue, and a wait that it adds is cancelled. -/
def Grows (io io' : Io) : Prop :=
  ∃ added, io'.ready = io.ready ++ added ∧ ∀ k ∈ added, k.job = .wait → k.error = .operationAborted

section grows

variable {io io' : Io}

theorem Grows.refl (io : Io) : Grows io io := ⟨[], (List.append_nil _).symm, nofun⟩

theorem Grows.trans {io'' : Io} (h : Grows io io') (h' : Grows io' io'') : Grows io io'' := by
  obtain ⟨added, hready, hadded⟩ := h
  obtain ⟨more, hmore, hwaits⟩ := h'
  refine ⟨added ++ more, ?_, ?_⟩
  · rw [hmore, hready, List.append_assoc]
  · intro k hk
    rcases List.mem_append.mp hk with hk | hk
    · exact hadded k hk
    · exact hwaits k hk

theorem Grows.abort (h : Grows io io') (cancelled : Job → Bool) : Grows io (io'.abort cancelled) := by
  refine h.trans ⟨_, rfl, ?_⟩
  intro k hk _
  obtain ⟨job, -, rfl⟩ := List.mem_map.mp hk
  rfl

theorem Grows.start (h : Grows io io') {closed : Bool} {job : Job} (hjob : closed = true → job ≠ .wait) :
    Grows io (io'.start closed job) := by
  apply h.trans
  unfold Io.start
  split
  next hclosed =>
    refine ⟨_, rfl, ?_⟩
    intro k hk hwait
    obtain rfl := List.mem_singleton.mp hk
    exact absurd hwait (hjob hclosed)
  next => exact Grows.refl _

theorem Grows.foldl {id : ConnId} {actions : List Action} {s : Bool × Io} (h : Grows io s.2) :
    Grows io (actions.foldl (Io.perform id) s).2 := by
  induction actions generalizing s with
  | nil => exact h
  | cons a actions ih =>
    apply ih
    cases a with
    | asyncConnect => exact h.start fun _ => nofun
    | asyncRead p buf => exact h.start fun _ => nofun
    | asyncWrite p msg => exact h.start fun _ => nofun
    | stop => exact h.abort _
    | received | popped | charge => exact h

theorem Grows.withLoop {run : Entry → Except Fault (Bool × Frame)} {w : World} {es : List Entry}
    (h : Grows io w.io) : Grows io (w.withLoop (forEach run es w.io)).io := by
  unfold World.withLoop
  split
  next es' io' hloop =>
    apply forEach_induction (I := fun _ _ io' => Grows io io') ?_ hloop h
    intro passed e es io' keep f hgrows _
    exact hgrows.foldl
  next => exact h

variable {cfg : Config} {s : Surroundings} {w : World}

theorem Grows.close (h : Grows io w.io) : Grows io (w.close s).io :=
  Grows.withLoop (w := { w.closeAcceptor with io := w.closeAcceptor.io.abort Job.isWait }) ((h.abort _).abort _)

theorem Grows.asyncWait (h : Grows io w.io) : Grows io (w.asyncWait s).io := by
  unfold World.asyncWait
  dsimp only
  split
  · exact (h.abort _).start nofun
  · exact Grows.close (h.abort _)

theorem Grows.startAccept (h : Grows io w.io) : Grows io w.startAccept.io := h.start fun _ => nofun

theorem Grows.restart (h : Grows io w.io) : Grows io (w.start s).io := by
  unfold World.start
  split
  · exact Grows.asyncWait (Grows.startAccept h)
  · exact h

theorem grows_handleAccept {error : ErrorCode} : Grows w.io (w.handleAccept cfg s error).io := by
  unfold World.handleAccept
  split
  · split
    · exact Grows.restart ((Grows.refl _).abort _)
    · exact Grows.refl _
  · split
    · exact Grows.refl _
    · exact Grows.startAccept ((Grows.refl _).start fun _ => nofun)

theorem grows_handleWait {error : ErrorCode} : Grows w.io (w.handleWait cfg s error).io := by
  unfold World.handleWait
  split
  · exact Grows.refl _
  · split
    · exact (Grows.refl _).close
    · dsimp only
      split
      · exact (Grows.refl _).asyncWait
      · exact Grows.withLoop (w := { World.asyncWait s w with
          now := (World.asyncWait s w).clock, lastFlushTm := (World.asyncWait s w).clock }) (Grows.refl _).asyncWait

theorem grows_dispatch (k : Completion) : Grows w.io (dispatch cfg s k w).io := by
  cases hjob : k.job with
  | accept =>
    simp only [dispatch, hjob]
    exact grows_handleAccept
  | wait =>
    simp only [dispatch, hjob]
    exact grows_handleWait
  | conn c op =>
    rcases dispatch_conn (w := w) hjob with
      ⟨-, -, heq⟩ | ⟨fault, heq⟩ | ⟨e, -, -, f, -, heq⟩
    · rw [heq]
      exact Grows.refl _
    · rw [heq]
      exact Grows.refl _
    · rw [heq]
      exact (Grows.refl _).foldl

end grows

theorem accept_conn (id : ConnId) (op : TcpMachine.Op) : Job.isAccept (.conn id op) = false := rfl

theorem wait_conn (id : ConnId) (op : TcpMachine.Op) : Job.isWait (.conn id op) = false := rfl

structure Listening (w : World) : Prop where
  opened : w.closeFlag = false → w.acceptorOpen = true
  accepts : w.acceptorOpen = true → w.io.live Job.isAccept = 1
  once : w.io.live Job.isAccept ≤ 1
  waits : w.acceptorOpen = true → 1 ≤ w.io.live Job.isWait

/-- asio gives `operation_aborted` to the operations that it cancels and to no others, and a timer has no
other error. -/
def Genuine : Event → Prop
  | .complete job error _ => error ≠ .operationAborted ∧ (job = .wait → error = .success)
  | _ => True

def WaitsGenuine (w : World) : Prop :=
  ∀ k ∈ w.io.ready, k.job = .wait → k.error = .success ∨ k.error = .operationAborted

section listening

variable {cfg : Config} {s : Surroundings} {w w' : World}

theorem live_startAccept (w : World) : w.startAccept.io.live Job.isAccept = w.io.live Job.isAccept + 1 ∧
    w.startAccept.io.live Job.isWait = w.io.live Job.isWait :=
  ⟨live_start _ _ _ rfl, live_start_other _ rfl⟩

theorem live_closeAcceptor : w.closeAcceptor.io.live Job.isAccept = w.io.queued Job.isAccept ∧
    w.closeAcceptor.io.live Job.isWait = w.io.live Job.isWait := by
  constructor
  · exact live_abort_self
  · apply live_abort
    intro job hjob
    cases job <;> first | rfl | cases hjob

theorem stopAll_listener (s : Surroundings) (w : World) (kind : Job → Bool) :
    (stopAll s w).acceptorOpen = w.acceptorOpen ∧ (stopAll s w).closeFlag = w.closeFlag ∧
    ((∀ id op, kind (.conn id op) = false) → (stopAll s w).io.live kind = w.io.live kind) := by
  unfold stopAll World.withLoop
  cases hloop : forEach (fun e => .ok (true, TcpConnection.stop (e.frame s.availBytes)))
      w.tcpConnections w.io with
  | error fault => exact ⟨rfl, rfl, fun _ => rfl⟩
  | ok r => exact ⟨rfl, rfl, fun hkind => live_forEach hkind hloop⟩

theorem close_listener (s : Surroundings) (w : World) :
    (w.close s).acceptorOpen = false ∧ (w.close s).closeFlag = w.closeFlag ∧
    (w.close s).io.live Job.isAccept = w.io.queued Job.isAccept := by
  obtain ⟨hopen, hclose, hlive⟩ := stopAll_listener s
    { w.closeAcceptor with io := w.closeAcceptor.io.abort Job.isWait } Job.isAccept
  refine ⟨hopen, hclose, (hlive accept_conn).trans ?_⟩
  refine (live_abort ?_).trans live_closeAcceptor.1
  intro job hjob
  cases job <;> first | rfl | cases hjob

theorem queued_le (w : World) (kind : Job → Bool) : w.io.queued kind ≤ w.io.live kind := Nat.le_add_left _ _

theorem Listening.closed (hopen : w.acceptorOpen = false) (hclose : w.closeFlag = true)
    (hlive : w.io.live Job.isAccept ≤ 1) : Listening w := by
  constructor
  · rw [hclose]
    nofun
  · rw [hopen]
    nofun
  · exact hlive
  · rw [hopen]
    nofun

theorem listening_close (hclose : w.closeFlag = true) (hlive : w.io.queued Job.isAccept ≤ 1) :
    Listening (w.close s) := by
  obtain ⟨hopen, hflag, haccept⟩ := close_listener s w
  exact .closed hopen (hflag.trans hclose) (haccept ▸ hlive)

theorem live_abort_wait {io : Io} : (io.abort Job.isWait).live Job.isAccept = io.live Job.isAccept := by
  apply live_abort
  intro job hjob
  cases job <;> first | rfl | cases hjob

theorem asyncWait_cases (s : Surroundings) (hlive : w.io.live Job.isAccept ≤ 1) :
    (w.asyncWait s).closeFlag = true ∧ Listening (w.asyncWait s) ∨
    (w.asyncWait s).acceptorOpen = w.acceptorOpen ∧ (w.asyncWait s).closeFlag = w.closeFlag ∧
      (w.asyncWait s).io.live Job.isAccept = w.io.live Job.isAccept ∧
      1 ≤ (w.asyncWait s).io.live Job.isWait := by
  unfold World.asyncWait
  dsimp only
  split_ifs with htimer
  · refine .inr ⟨rfl, rfl, ?_, ?_⟩
    · exact (live_start_other _ rfl).trans live_abort_wait
    · have hwait := live_start Job.isWait (w.io.abort Job.isWait) false (Eq.refl (Job.isWait .wait))
      exact (Nat.le_add_left 1 _).trans_eq hwait.symm
  · left
    constructor
    · exact (close_listener _ _).2.1
    · apply listening_close rfl
      exact (queued_abort.trans_le (queued_le w _)).trans hlive

theorem Listening.asyncWait (hl : Listening w) : Listening (w.asyncWait s) := by
  rcases asyncWait_cases s hl.once with ⟨-, hlistening⟩ | ⟨hopen, hclose, haccept, hwait⟩
  · exact hlistening
  · constructor
    · rw [hclose, hopen]
      exact hl.opened
    · rw [hopen, haccept]
      exact hl.accepts
    · rw [haccept]
      exact hl.once
    · exact fun _ => hwait

theorem listening_start (hlive : w.io.live Job.isAccept = 0) (hopen : w.acceptorOpen = false) :
    Listening (w.start s) := by
  unfold World.start
  split_ifs with hstart
  · have hone : (World.startAccept { w with acceptorOpen := true }).io.live Job.isAccept = 1 :=
      (live_startAccept _).1.trans (congrArg Nat.succ hlive)
    rcases asyncWait_cases s hone.le with
      ⟨-, hlistening⟩ | ⟨hsame, -, haccept, hwait⟩
    · exact hlistening
    · constructor
      · exact fun _ => hsame
      · exact fun _ => haccept.trans hone
      · exact (haccept.trans hone).le
      · exact fun _ => hwait
  · have hclosed : Listening { w with closeFlag := true } :=
      .closed hopen rfl ((Nat.le_of_eq hlive).trans (Nat.zero_le 1))
    exact hclosed

variable {k : Completion} {rest : List Completion}

theorem listening_handleAccept (hl : Listening w) (hready : w.io.ready = k :: rest) (hjob : k.job = .accept)
    (hfault : ((w.pop rest).handleAccept cfg s k.error).fault = none) :
    Listening ((w.pop rest).handleAccept cfg s k.error) := by
  have hpop (kind : Job → Bool) : w.io.live kind =
      (w.pop rest).io.live kind + if k.live kind then 1 else 0 := live_pop hready
  have hdead : k.live Job.isWait = false := by simp [Completion.live, hjob, Job.isWait]
  have hwaits : (w.pop rest).io.live Job.isWait = w.io.live Job.isWait := by
    rw [hpop, hdead]
    rfl
  unfold World.handleAccept at hfault ⊢
  by_cases hsuccess : k.error = .success
  · have hlive : k.live Job.isAccept = true := by simp [Completion.live, hjob, Job.isAccept, hsuccess]
    have hzero : (w.pop rest).io.live Job.isAccept = 0 := by
      have hsum := hpop Job.isAccept
      rw [hlive, if_pos rfl] at hsum
      have hle := hl.once
      omega
    rw [if_neg (not_not.mpr hsuccess)] at hfault ⊢
    split at hfault
    · cases hfault
    · obtain ⟨haccept, hwait⟩ := live_startAccept ((w.pop rest).addConnection cfg s)
      have hone : ((w.pop rest).addConnection cfg s).startAccept.io.live Job.isAccept = 1 := by
        rw [haccept]
        exact congrArg Nat.succ ((live_start_other _ rfl).trans hzero)
      constructor
      · exact hl.opened
      · exact fun _ => hone
      · exact hone.le
      · intro hopen
        rw [hwait]
        exact (hl.waits hopen).trans_eq (hwaits.symm.trans (live_start_other _ rfl).symm)
  · rw [if_pos hsuccess]
    split_ifs with haborted
    · have hlive : k.live Job.isAccept = true := by simp [Completion.live, hjob, Job.isAccept, haborted]
      apply listening_start
      · rw [live_closeAcceptor.1]
        have hsum := hpop Job.isAccept
        rw [hlive, if_pos rfl] at hsum
        have hle := hl.once
        have hqueued := queued_le (w.pop rest) Job.isAccept
        omega
      · rfl
    · have hdead : k.live Job.isAccept = false := by simp [Completion.live, not_not.mp haborted]
      have haccepts : (w.pop rest).io.live Job.isAccept = w.io.live Job.isAccept := by
        rw [hpop, hdead]
        rfl
      constructor
      · exact hl.opened
      · exact fun hopen => haccepts.trans (hl.accepts hopen)
      · exact haccepts.trans_le hl.once
      · exact fun hopen => (hl.waits hopen).trans_eq hwaits.symm

theorem flush_listener (cfg : Config) (s : Surroundings) (w : World) :
    (w.flush cfg s).acceptorOpen = w.acceptorOpen ∧ (w.flush cfg s).closeFlag = w.closeFlag ∧
    ∀ kind, (∀ id op, kind (.conn id op) = false) → (w.flush cfg s).io.live kind = w.io.live kind := by
  unfold World.flush World.withLoop
  dsimp only
  split
  next hloop => exact ⟨rfl, rfl, fun kind hkind => live_forEach hkind hloop⟩
  next => exact ⟨rfl, rfl, fun _ _ => rfl⟩

theorem Listening.same (hl : Listening w) (hopen : w'.acceptorOpen = w.acceptorOpen)
    (hclose : w.closeFlag = true → w'.closeFlag = true)
    (hlive : ∀ kind, (∀ id op, kind (.conn id op) = false) → w'.io.live kind = w.io.live kind) :
    Listening w' := by
  constructor
  · intro hflag
    rw [hopen]
    apply hl.opened
    by_contra hset
    rw [hclose (by simpa using hset)] at hflag
    cases hflag
  · rw [hopen, hlive _ accept_conn]
    exact hl.accepts
  · rw [hlive _ accept_conn]
    exact hl.once
  · rw [hopen, hlive _ wait_conn]
    exact hl.waits

theorem listening_handleWait (hl : Listening w) (hready : w.io.ready = k :: rest) (hjob : k.job = .wait)
    (hgenuine : k.error = .success ∨ k.error = .operationAborted) :
    Listening ((w.pop rest).handleWait cfg s k.error) := by
  have hpop (kind : Job → Bool) : w.io.live kind =
      (w.pop rest).io.live kind + if k.live kind then 1 else 0 := live_pop hready
  have haccepts : (w.pop rest).io.live Job.isAccept = w.io.live Job.isAccept := by
    have hdead : k.live Job.isAccept = false := by simp [Completion.live, hjob, Job.isAccept]
    rw [hpop, hdead]
    rfl
  unfold World.handleWait
  rcases hgenuine with hsuccess | haborted
  · rw [if_neg (not_not.mpr hsuccess)]
    split_ifs with hclose
    · apply listening_close hclose
      exact (queued_le (w.pop rest) _).trans (haccepts.trans_le hl.once)
    · have hwait : Listening ((w.pop rest).asyncWait s) := by
        rcases asyncWait_cases (w := w.pop rest) s (haccepts.trans_le hl.once) with
          ⟨-, hlistening⟩ | ⟨hopen, hflag, haccept, hwait⟩
        · exact hlistening
        · constructor
          · rw [hflag, hopen]
            exact hl.opened
          · rw [hopen, haccept, haccepts]
            exact hl.accepts
          · rw [haccept, haccepts]
            exact hl.once
          · exact fun _ => hwait
      dsimp only
      split_ifs
      · exact ⟨hwait.opened, hwait.accepts, hwait.once, hwait.waits⟩
      · obtain ⟨hopen, hflag, hlive⟩ := flush_listener cfg s ((w.pop rest).asyncWait s)
        exact hwait.same hopen hflag.trans hlive
  · rw [if_pos (by rw [haborted]; decide)]
    have hdead : k.live Job.isWait = false := by simp [Completion.live, haborted]
    constructor
    · exact hl.opened
    · exact fun hopen => haccepts.trans (hl.accepts hopen)
    · exact haccepts.trans_le hl.once
    · intro hopen
      have hwait := hl.waits hopen
      rw [hpop, hdead] at hwait
      exact hwait

theorem listening_conn {c : ConnId} {op : TcpMachine.Op} (hl : Listening w) (hready : w.io.ready = k :: rest)
    (hjob : k.job = .conn c op) (hfault : (dispatch cfg s k (w.pop rest)).fault = none) :
    Listening (dispatch cfg s k (w.pop rest)) := by
  have hpopped : Listening (w.pop rest) := by
    refine Listening.same hl rfl id ?_
    intro kind hkind
    have hdead : k.live kind = false := by simp [Completion.live, hjob, hkind]
    have hpop : w.io.live kind = (w.pop rest).io.live kind + if k.live kind then 1 else 0 := live_pop hready
    rw [hpop, hdead]
    rfl
  rcases dispatch_conn (w := w.pop rest) hjob with
    ⟨-, -, heq⟩ | ⟨fault, heq⟩ | ⟨e, -, -, f, -, heq⟩
  · rw [heq]
    exact hpopped
  · rw [heq] at hfault
    cases hfault
  · rw [heq]
    exact hpopped.same rfl id fun kind hkind => live_perform hkind

theorem listening_step {ev : Event} (hl : Listening w) (hwaits : WaitsGenuine w) (hgenuine : Genuine ev)
    (h : step cfg w ev = some w') (hfault : w'.fault = none) : Listening w' := by
  unfold step at h
  split at h
  · cases h
  cases ev with
  | complete job error n =>
    simp only [run] at h
    split at h
    next hjob =>
      cases h
      exact hl.same rfl id fun kind _ => live_complete hjob.1 hgenuine.1
    · cases h
  | dispatch s =>
    simp only [run] at h
    split at h
    · cases h
    next k rest hready =>
      cases h
      cases hjob : k.job with
      | accept =>
        simp only [dispatch, hjob] at hfault ⊢
        exact listening_handleAccept hl hready hjob hfault
      | wait =>
        simp only [dispatch, hjob]
        exact listening_handleWait hl hready hjob (hwaits k (hready ▸ List.mem_cons_self ..) hjob)
      | conn id op => exact listening_conn hl hready hjob hfault
  | disconnect c p =>
    obtain ⟨e, -, h⟩ := Option.bind_eq_some_iff.mp h
    split at h
    · cases h
      exact hl.same rfl id fun _ _ => rfl
    · cases h
  | disconnectAccepted =>
    simp only [run] at h
    split at h
    · cases h
      exact hl.same rfl id fun _ _ => rfl
    · cases h
  | stop =>
    cases h
    exact hl.same rfl (fun _ => rfl) fun _ _ => rfl
  | clock now =>
    cases h
    exact hl.same rfl id fun _ _ => rfl

theorem WaitsGenuine.grows (hw : WaitsGenuine w) {io : Io} (hio : ∀ k ∈ io.ready, k ∈ w.io.ready)
    (hgrows : Grows io w'.io) : WaitsGenuine w' := by
  obtain ⟨added, hready, hadded⟩ := hgrows
  intro k hk hjob
  rw [hready] at hk
  rcases List.mem_append.mp hk with hk | hk
  · exact hw k (hio k hk) hjob
  · exact .inr (hadded k hk hjob)

theorem waitsGenuine_step {ev : Event} (hw : WaitsGenuine w) (hgenuine : Genuine ev)
    (h : step cfg w ev = some w') : WaitsGenuine w' := by
  unfold step at h
  split at h
  · cases h
  cases ev with
  | complete job error n =>
    simp only [run] at h
    split at h
    · cases h
      intro k hk hjob
      rcases List.mem_append.mp hk with hk | hk
      · exact hw k hk hjob
      · obtain rfl := List.mem_singleton.mp hk
        exact .inl (hgenuine.2 hjob)
    · cases h
  | dispatch s =>
    simp only [run] at h
    split at h
    · cases h
    next k rest hready =>
      cases h
      refine hw.grows ?_ (grows_dispatch k)
      intro k hk
      exact hready ▸ List.mem_cons_of_mem _ hk
  | disconnect c p =>
    obtain ⟨e, -, h⟩ := Option.bind_eq_some_iff.mp h
    split at h
    · cases h
      exact hw
    · cases h
  | disconnectAccepted =>
    simp only [run] at h
    split at h
    · cases h
      exact hw
    · cases h
  | stop | clock =>
    cases h
    exact hw

end listening

theorem listening_started {w : World} (h : Started w) : Listening w ∧ WaitsGenuine w := by
  obtain ⟨clock, rfl⟩ := h
  exact ⟨⟨fun _ => rfl, fun _ => rfl, le_refl _, fun _ => le_refl _⟩, nofun⟩

theorem listening_exec {cfg : Config} {w₀ w : World} {es : List Event} (hstart : Started w₀)
    (h : exec (step cfg) w₀ es = some w) (hgenuine : ∀ ev ∈ es, Genuine ev) (hfault : w.fault = none) :
    Listening w ∧ WaitsGenuine w := by
  have hstarted := listening_started hstart
  clear hstart
  induction es generalizing w₀ with
  | nil =>
    cases h
    exact hstarted
  | cons ev es ih =>
    obtain ⟨u, hu, h⟩ := exec_cons_some.mp h
    have hev := hgenuine ev (List.mem_cons_self ..)
    apply ih h
    · exact fun ev hev => hgenuine ev (List.mem_cons_of_mem _ hev)
    · refine ⟨listening_step hstarted.1 hstarted.2 hev hu ?_, waitsGenuine_step hstarted.2 hev hu⟩
      cases es with
      | nil =>
        cases h
        exact hfault
      | cons ev' es =>
        obtain ⟨v, hv, -⟩ := exec_cons_some.mp h
        unfold step at hv
        split at hv
        · cases hv
        next hnone => simpa using hnone

instance (ev : Event) : Decidable (Genuine ev) := by
  unfold Genuine
  split <;> infer_instance

end TcpUdpProxy.TcpProxy
