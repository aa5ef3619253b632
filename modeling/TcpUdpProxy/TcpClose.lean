import TcpUdpProxy.TcpInvariant

namespace TcpUdpProxy.TcpMachine

open TcpConnection Execution

def actions (cfg : Config) (w : World) (e : Event) : List Action :=
  match (enter w e).bind fun v => handler cfg v e with
  | some (.ok f) => f.actions
  | _ => []

def Action.stopped : Action → Option (PairId → List Msg)
  | .stop queues => some queues
  | _ => none

def stops (f : Frame) : List (PairId → List Msg) := f.actions.filterMap Action.stopped

def StopsDrained (cfg : Config) (w : World) (e : Event) : Prop :=
  ∀ queues, .stop queues ∈ actions cfg w e → ∀ p, queues p = []

/-- No completion fails except reads at the end of the file, and the inactivity timeout of
`flushMsgs` does not fire. -/
def CleanEvent (w : World) : Event → Prop
  | .connect ec => ec = .success
  | .read _ _ ec _ => ec = .success ∨ ec = .eof
  | .write _ _ ec => ec = .success
  | .tick _ _ expireTime => w.conn.closeFlag = true ∨ expireTime ≤ w.conn.activeTime
  | _ => True

instance (w : World) (e : Event) : Decidable (CleanEvent w e) := by
  unfold CleanEvent
  split <;> infer_instance

/-- An end of file on `p` meets an empty `msg_queue_pair[p]`, or data that waits for the other
side; `TcpProxy::close` meets two empty queues. -/
def DrainedAtClose (w : World) : Event → Prop
  | .read p _ .eof _ => w.conn.msgQueuePair (1 - p) = [] → w.conn.msgQueuePair p = []
  | .stop => ∀ p, w.conn.msgQueuePair p = []
  | _ => True

section stops

variable (proxy : ProxyView) (p : PairId) (f : Frame)

theorem mem_stops {queues : PairId → List Msg} : .stop queues ∈ f.actions ↔ queues ∈ stops f := by
  simp only [stops, List.mem_filterMap]
  constructor
  · intro h
    exact ⟨_, h, rfl⟩
  · rintro ⟨a, ha, hq⟩
    cases a <;> simp [Action.stopped] at hq
    rwa [hq] at ha

theorem stops_stop : stops (stop f) = stops f ++ [f.conn.msgQueuePair] := by
  simp [stops, stop, Action.stopped]

theorem stops_append {action : Action} (h : Action.stopped action = none) (actions : List Action) :
    (actions ++ [action]).filterMap Action.stopped = actions.filterMap Action.stopped := by
  simp [h]

theorem steady_stops (past : List (PairId → List Msg)) : Steady fun f => stops f = past where
  asyncRead h := (stops_append rfl _).trans h
  asyncWrite h := (stops_append rfl _).trans h
  setWriting h := h
  setReading h := h
  chargeIp h := (stops_append rfl _).trans h
  popMsg _ h := (stops_append rfl _).trans h
  creditPair h := by
    unfold creditPair
    split <;> exact h
  connect h := h
  drain h := h

variable {proxy p f} {bandwidth : PairId → ℤ} {f' : Frame}

theorem stops_handleWrite (h : handleWrite proxy bandwidth p .success f = .ok f') :
    ∀ queues ∈ stops f', queues ∈ stops f ∨ ∀ q, queues q = [] := by
  have hsteady := steady_stops (stops f)
  intro queues hq
  rcases handleWrite_success h with ⟨-, hs⟩ | ⟨m, rest, -, hfront, ⟨-, hempty, rfl⟩ | hs⟩
  · left
    rwa [hsteady.startWrite rfl hs] at hq
  · have hpop : stops (popMsg p m rest f) = stops f := hsteady.popMsg hfront rfl
    rw [stops_stop, hpop] at hq
    rcases List.mem_append.mp hq with hq | hq
    · exact .inl hq
    · right
      rw [List.mem_singleton.mp hq]
      simp only [queuesEmpty, Bool.and_eq_true, List.isEmpty_iff] at hempty
      intro q
      rcases PairId.eq_or_other 0 q with rfl | rfl
      · exact hempty.1
      · exact hempty.2
  · left
    rwa [hsteady.startWrite (hsteady.resumeRead (hsteady.popMsg hfront rfl)) hs] at hq

theorem stops_handleRead {n : ℕ} : stops (handleRead proxy p .success n f) = stops f := by
  apply (steady_stops _).handleRead
  intro activeTime
  exact stops_append rfl f.actions

theorem stops_handleRead_eof {n : ℕ} : stops (handleRead proxy p .eof n f) =
    if f.conn.msgQueuePair (1 - p) = [] then stops f ++ [f.conn.msgQueuePair] else stops f := by
  by_cases hq : f.conn.msgQueuePair (1 - p) = []
  · simp [handleRead, hq, stops_stop]
  · simp only [handleRead, hq, ne_eq, reduceCtorEq, not_false_eq_true, if_true, if_false]
    rfl

end stops

variable {cfg : Config} {w w' : World} {e : Event}

theorem stopsDrained_iff_stops {v : World} {f : Frame} (hv : enter w e = some v)
    (hf : handler cfg v e = some (.ok f)) :
    StopsDrained cfg w e ↔ ∀ queues ∈ stops f, ∀ p, queues p = [] := by
  simp only [StopsDrained, actions, hv, Option.bind_some, hf, mem_stops]

theorem stopsDrained_of_quiet (h : ∀ v f, enter w e = some v → handler cfg v e ≠ some (.ok f)) :
    StopsDrained cfg w e := by
  intro queues hq
  unfold actions at hq
  cases hv : enter w e with
  | none => simp [hv] at hq
  | some v =>
    rw [hv, Option.bind_some] at hq
    split at hq
    next f hf => exact absurd hf (h v f hv)
    · simp at hq

theorem stopsDrained_iff (hclean : CleanEvent w e) (h : step cfg w e = some w') :
    StopsDrained cfg w e ↔ DrainedAtClose w e := by
  cases (step_cases h).2 with
  | @connect ec v hv =>
    cases hclean
    rw [stopsDrained_iff_stops hv rfl, (steady_stops _).handleConnect rfl]
    simp [DrainedAtClose, stops, World.frame]
  | @read p buf ec n v hv =>
    rw [stopsDrained_iff_stops hv rfl]
    obtain ⟨-, -, rfl⟩ := enter_read hv
    rcases hclean with rfl | rfl
    · rw [stops_handleRead]
      simp [DrainedAtClose, stops, World.frame]
    · rw [stops_handleRead_eof]
      have hqueues : (World.frame ((w.dispatch (.read p buf) .eof).arrive p .eof ⟨buf, n⟩)).conn.msgQueuePair =
          w.conn.msgQueuePair := rfl
      rw [hqueues]
      simp only [DrainedAtClose]
      by_cases hq : w.conn.msgQueuePair (1 - p) = []
      · rw [if_pos hq]
        simp only [stops, World.frame, List.filterMap_nil, List.nil_append, List.mem_singleton,
          forall_eq, hq, true_implies]
        constructor
        · intro hall
          exact hall p
        · intro hp q
          rcases PairId.eq_or_other p q with rfl | rfl
          · exact hp
          · exact hq
      · rw [if_neg hq]
        simp [stops, World.frame, hq]
  | @write p msg ec v f hv hf =>
    cases hclean
    rw [stopsDrained_iff_stops (f := f) hv (congrArg some hf)]
    simp only [DrainedAtClose, iff_true]
    intro queues hq
    rcases stops_handleWrite hf queues hq with hold | hempty
    · simp [stops, World.frame] at hold
    · exact hempty
  | @tick now expireTime flushBytes alive f hf =>
    have hh : handler cfg { w with now := now } (.tick now flushBytes expireTime) = some (.ok f) := by
      have hframe : World.frame { w with now := now } = w.frame := rfl
      simp only [handler, hframe, hf]
      rfl
    rw [stopsDrained_iff_stops rfl hh]
    have hsame : stops f = stops w.frame := by
      rcases flushMsgs_cases hf with
        ⟨-, -, rfl⟩ | ⟨hopen, hexpired, -⟩ | ⟨-, -, -, ⟨-, -, rfl⟩ | ⟨g, h0, h1⟩⟩
      · rfl
      · rcases hclean with hclosed | hactive
        · exact absurd (hopen.symm.trans hclosed) (by simp)
        · exact absurd hexpired (not_lt.mpr hactive)
      · rfl
      · exact (steady_stops _).flushPair ((steady_stops _).flushPair rfl h0) h1
    rw [hsame]
    simp [DrainedAtClose, stops, World.frame]
  | stop =>
    rw [stopsDrained_iff_stops rfl rfl, stops_stop]
    simp [DrainedAtClose, stops, World.frame]
  | writeFault hv hf =>
    simp only [DrainedAtClose, iff_true]
    apply stopsDrained_of_quiet
    intro v' f hv' hh
    rw [hv] at hv'
    cases hv'
    rw [handler, hf] at hh
    cases hh
  | @tickFault now expireTime flushBytes fault hf =>
    simp only [DrainedAtClose, iff_true]
    apply stopsDrained_of_quiet
    intro v f hv hh
    cases hv
    have hframe : World.frame { w with now := now } = w.frame := rfl
    rw [handler, hframe, hf] at hh
    cases hh
  | _ =>
    simp only [DrainedAtClose, iff_true]
    apply stopsDrained_of_quiet
    intro v f _ hh
    cases hh

theorem clean_run_drained {w₀ : World} {es : List Event} (h : exec (step cfg) w₀ es = some w)
    (hclean : Along (step cfg) CleanEvent w₀ es) :
    Along (step cfg) (StopsDrained cfg) w₀ es ↔ Along (step cfg) DrainedAtClose w₀ es := by
  apply along_congr _ h hclean
  intro s e t hs hstep
  exact stopsDrained_iff hs hstep

def answered : List Event :=
  [.connect .success, .store 1 2 [7], .read 1 2 .success 1, .tick 10 0 0,
    .write 0 ⟨0, ⟨2, 1⟩⟩ .success, .read 0 1 .eof 0]

theorem clean_run_drained_answered :
    Along (step plain) (StopsDrained plain) plainStart answered ↔
      Along (step plain) DrainedAtClose plainStart answered := by
  have hexec : exec (step plain) plainStart answered = some (after plain plainStart answered) := rfl
  exact clean_run_drained hexec (by decide)

def halfClosed : List Event :=
  [.connect .success, .store 1 2 [7], .read 1 2 .success 1, .read 0 1 .eof 0]

theorem halfClosed_discards : ¬ ∀ (cfg : Config) (w₀ w : World) (es : List Event), Accepted cfg w₀ →
    exec (step cfg) w₀ es = some w → Along (step cfg) CleanEvent w₀ es →
      Along (step cfg) (StopsDrained cfg) w₀ es := by
  intro hclaim
  have hclean : Along (step plain) CleanEvent plainStart halfClosed := by decide
  have hall := hclaim plain plainStart (after plain plainStart halfClosed) halfClosed
    accepted_plainStart rfl hclean
  have hlast := (((hall.2 _ rfl).2 _ rfl).2 _ rfl).1
  have hempty := hlast _ (List.mem_singleton_self _) 0
  cases hempty

end TcpUdpProxy.TcpMachine
