import TcpUdpProxy.TcpProxy
import TcpUdpProxy.TcpRelay

namespace TcpUdpProxy.TcpProxy

open TcpConnection TcpMachine

theorem stable_handle {P : Frame → Prop} {cfg : Config} {now : Msec} {op : TcpMachine.Op}
    {error : ErrorCode} {n : ℕ} {f f' : Frame} (hP : Stable P) (h : P f)
    (hconn : P { f with conn := connectSocket f.conn })
    (hpush : ∀ p activeTime, P (pushMsg p activeTime (readMsg ⟨cfg.proxyRule, now⟩ p n f.conn) f))
    (hf : handle cfg now op error n f = .ok f') : P f' := by
  cases op with
  | connect =>
    cases hf
    apply hP.handleConnect
    split
    · exact hconn
    · exact h
  | read p buf =>
    cases hf
    exact hP.handleRead h (hpush p)
  | write p msg => exact hP.handleWrite h hf

def isStop : Action → Bool
  | .stop _ => true
  | _ => false

def Closes (closed : Bool) (f : Frame) : Prop := f.conn.closeFlag = (closed || f.actions.any isStop)

theorem stable_closes (closed : Bool) : Stable (Closes closed) where
  asyncRead h := by simpa [Closes, asyncRead, isStop] using h
  asyncWrite h := by simpa [Closes, asyncWrite, setWriting, isStop] using h
  setWriting h := h
  setReading h := h
  chargeIp h := by simpa [Closes, chargeIp, isStop] using h
  popMsg _ h := by simpa [Closes, popMsg, isStop] using h
  creditPair h := by
    unfold creditPair
    split <;> exact h
  connect h := h
  drain h := h
  stop _ := by simp [Closes, stop, isStop]

theorem closes_pushMsg {closed : Bool} {f : Frame} (p : PairId) (activeTime : Msec) (msg : Msg)
    (h : Closes closed f) : Closes closed (pushMsg p activeTime msg f) := by
  simpa [Closes, pushMsg, isStop] using h

theorem dropped_flushMsgs {proxy : ProxyView} {bandwidth : PairId → ℤ} {flushBytes : ℤ}
    {expireTime : Msec} {f f' : Frame} (hactions : f.actions = [])
    (hf : flushMsgs proxy bandwidth flushBytes expireTime f = .ok (false, f')) :
    f'.conn.closeFlag = true ∧ f'.actions.all isStop = true := by
  rcases flushMsgs_cases hf with ⟨hclosed, -, rfl⟩ | ⟨-, -, -, rfl⟩ | ⟨-, -, hkeep, -⟩
  · exact ⟨hclosed, by rw [hactions]; rfl⟩
  · exact ⟨rfl, by simp [stop, hactions, isStop]⟩
  · cases hkeep

theorem connectSocket_closeFlag (c : TcpConnection) : (connectSocket c).closeFlag = c.closeFlag := by
  unfold connectSocket
  split <;> rfl

theorem closes_handle {closed : Bool} {cfg : Config} {now : Msec} {op : TcpMachine.Op}
    {error : ErrorCode} {n : ℕ} {f f' : Frame} (h : Closes closed f)
    (hf : handle cfg now op error n f = .ok f') : Closes closed f' :=
  stable_handle (stable_closes closed) h ((connectSocket_closeFlag f.conn).trans h)
    (fun p activeTime => closes_pushMsg p activeTime _ h) hf

structure Stage (id : ConnId) (io io' : Io) : Prop where
  others : ∀ job ∈ io'.outstanding, job ∈ io.outstanding ∨ Job.of id job = true
  ready : ∀ k ∈ io'.ready, k ∈ io.ready ∨ Job.of id k.job = true ∧ k.bytesTransferred = 0

def Own (id : ConnId) (s : Bool × Io) : Prop :=
  ∀ job ∈ s.2.outstanding, Job.of id job = true → s.1 = false

variable {id : ConnId} {io : Io} {s : Bool × Io}

theorem Job.of_conn (id : ConnId) (op : TcpMachine.Op) : Job.of id (.conn id op) = true := by
  simp [Job.of]

theorem Stage.start {io' : Io} (h : Stage id io io') (closed : Bool) (op : TcpMachine.Op) :
    Stage id io (io'.start closed (.conn id op)) := by
  unfold Io.start
  split
  · refine ⟨h.others, ?_⟩
    intro k hk
    rcases List.mem_append.mp hk with hk | hk
    · exact h.ready k hk
    · obtain rfl := List.mem_singleton.mp hk
      exact .inr ⟨Job.of_conn id op, rfl⟩
  · refine ⟨?_, h.ready⟩
    intro job hjob
    rcases List.mem_append.mp hjob with hjob | hjob
    · exact h.others job hjob
    · obtain rfl := List.mem_singleton.mp hjob
      exact .inr (Job.of_conn id op)

theorem Stage.abort {io' : Io} (h : Stage id io io') : Stage id io (io'.abort (Job.of id)) := by
  constructor
  · intro job hjob
    exact h.others job (List.mem_of_mem_filter hjob)
  · intro k hk
    rcases List.mem_append.mp hk with hk | hk
    · exact h.ready k hk
    · obtain ⟨job, hjob, rfl⟩ := List.mem_map.mp hk
      exact .inr ⟨(List.mem_filter.mp hjob).2, rfl⟩

theorem Stage.foldl (actions : List Action) (h : Stage id io s.2) :
    Stage id io (actions.foldl (Io.perform id) s).2 := by
  induction actions generalizing s with
  | nil => exact h
  | cons a actions ih =>
    apply ih
    cases a with
    | asyncConnect => exact h.start s.1 .connect
    | asyncRead p buf => exact h.start s.1 (.read p buf)
    | asyncWrite p msg => exact h.start s.1 (.write p msg)
    | stop => exact h.abort
    | received | popped | charge => exact h

theorem stage_perform (f : Frame) (e : Entry) (io : Io) : Stage e.id io (e.perform f io) :=
  Stage.foldl f.actions ⟨fun _ h => .inl h, fun _ h => .inl h⟩

theorem own_start (op : TcpMachine.Op) (h : Own id s) : Own id (s.1, s.2.start s.1 (.conn id op)) := by
  obtain ⟨closed, io⟩ := s
  cases closed with
  | true => exact h
  | false => exact fun _ _ _ => rfl

theorem own_abort : Own id (true, io.abort (Job.of id)) := by
  intro job hjob hown
  have := (List.mem_filter.mp hjob).2
  simp [hown] at this

theorem own_foldl (actions : List Action) (h : Own id s) : Own id (actions.foldl (Io.perform id) s) := by
  induction actions generalizing s with
  | nil => exact h
  | cons a actions ih =>
    apply ih
    cases a with
    | asyncConnect => exact own_start .connect h
    | asyncRead p buf => exact own_start (.read p buf) h
    | asyncWrite p msg => exact own_start (.write p msg) h
    | stop => exact own_abort
    | received | popped | charge => exact h

theorem fst_foldl_perform (actions : List Action) :
    (actions.foldl (Io.perform id) s).1 = (s.1 || actions.any isStop) := by
  induction actions generalizing s with
  | nil => simp
  | cons a actions ih =>
    rw [List.foldl_cons, ih, List.any_cons, ← Bool.or_assoc]
    congr 1
    cases a <;> simp [Io.perform, isStop]

theorem ready_foldl_stop {actions : List Action} (h : actions.all isStop = true) :
    ∀ k ∈ (actions.foldl (Io.perform id) s).2.ready, k ∈ s.2.ready ∨ k.error = .operationAborted := by
  induction actions generalizing s with
  | nil => exact fun k hk => .inl hk
  | cons a actions ih =>
    simp only [List.all_cons, Bool.and_eq_true] at h
    intro k hk
    rcases ih h.2 k hk with hk | hk
    · cases a with
      | stop =>
        rcases List.mem_append.mp hk with hk | hk
        · exact .inl hk
        · obtain ⟨job, -, rfl⟩ := List.mem_map.mp hk
          exact .inr rfl
      | _ => cases h.1
    · exact .inr hk

theorem forEach_turns {run : Entry → Except Fault (Bool × Frame)}
    {I : List Entry → List Entry → Io → Prop}
    (hrun : ∀ passed e es io keep f, I passed (e :: es) io → run e = .ok (keep, f) →
      I (if keep then passed ++ [e.leave f] else passed) es (e.perform f io))
    {passed es es' : List Entry} {io io' : Io} (h : forEach run es io = .ok (es', io'))
    (hi : I passed es io) : I (passed ++ es') [] io' := by
  induction es generalizing passed io es' with
  | nil =>
    cases h
    simpa using hi
  | cons e es ih =>
    simp only [forEach] at h
    split at h
    · cases h
    next keep f hf =>
      split at h
      · cases h
      next es₁ io₁ hes =>
        cases h
        have hnext := ih hes (hrun passed e es io keep f hi hf)
        cases keep with
        | true => simpa using hnext
        | false => exact hnext

theorem forEach_induction {run : Entry → Except Fault (Bool × Frame)}
    {I : List Entry → List Entry → Io → Prop}
    (hrun : ∀ passed e es io keep f, I passed (e :: es) io → run e = .ok (keep, f) →
      I (if keep then passed ++ [e.leave f] else passed) es (e.perform f io))
    {es es' : List Entry} {io io' : Io} (h : forEach run es io = .ok (es', io'))
    (hi : I [] es io) : I es' [] io' := forEach_turns hrun h hi

end TcpUdpProxy.TcpProxy
