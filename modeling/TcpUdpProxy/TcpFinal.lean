import TcpUdpProxy.TcpCharges
import TcpUdpProxy.TcpDelay

namespace TcpUdpProxy.TcpMachine

open TcpConnection Execution

def Constructed (cfg : Config) (w : World) : Prop :=
  ∃ now ipAddr ip heap, w = accepted cfg now (getIPProxy cfg.bandwidth ipAddr) ip heap

def Action.busy : Action → Bool
  | .asyncConnect => true
  | .asyncRead _ _ => true
  | .asyncWrite _ _ => true
  | .charge _ _ => true
  | _ => false

def Final (cfg : Config) (w : World) (e : Event) : Prop :=
  w.conn.closeFlag = true → (∀ a ∈ actions cfg w e, Action.busy a = false) ∧
    ∀ w', step cfg w e = some w' → (w'.conn.fullOpen = true → w.conn.fullOpen = true) ∧
      w'.conn.availableBytesPair = w.conn.availableBytesPair

def Startable (proxy : ProxyView) (bandwidth : PairId → ℤ) (p : PairId) (queue : List Msg)
    (f : Frame) : Prop :=
  match queue with
  | [] => False
  | msg :: _ => 0 ≤ f.conn.availableBytesPair p ∧ msg.time ≤ proxy.now ∧
      (0 < bandwidth (1 - p) → 0 ≤ f.ip.availBytes (1 - p))

/-- The operation that completes leaves nothing to do: a read fills up its queue, and a write was
the last one of a draining pair, or resumes no reader and has no successor that can be written. -/
def LeavesIdle (cfg : Config) (w : World) : Event → Prop
  | .connect ec => ec ≠ .success
  | .read p _ ec _ => ec = .success → maxTcpMsgQueueSize ≤ (w.conn.msgQueuePair (1 - p)).length
  | .write p _ ec => ec = .success →
      (w.conn.fullOpen = false ∧ (w.conn.msgQueuePair p).tail = [] ∧ w.conn.msgQueuePair (1 - p) = []) ∨
        (w.conn.readingFlagPair (1 - p) = true ∧
          ¬ Startable (w.view cfg) cfg.bandwidth p (w.conn.msgQueuePair p).tail w.frame)
  | _ => True

instance (proxy : ProxyView) (bandwidth : PairId → ℤ) (p : PairId) (f : Frame) :
    ∀ queue, Decidable (Startable proxy bandwidth p queue f)
  | [] => isFalse id
  | msg :: _ => inferInstanceAs (Decidable (0 ≤ f.conn.availableBytesPair p ∧ msg.time ≤ proxy.now ∧
      (0 < bandwidth (1 - p) → 0 ≤ f.ip.availBytes (1 - p))))

instance (cfg : Config) (w : World) : ∀ e, Decidable (LeavesIdle cfg w e)
  | .connect ec => inferInstanceAs (Decidable (ec ≠ .success))
  | .read p _ ec _ => inferInstanceAs (Decidable (ec = .success →
      maxTcpMsgQueueSize ≤ (w.conn.msgQueuePair (1 - p)).length))
  | .write p _ ec => inferInstanceAs (Decidable (ec = .success →
      (w.conn.fullOpen = false ∧ (w.conn.msgQueuePair p).tail = [] ∧ w.conn.msgQueuePair (1 - p) = []) ∨
        (w.conn.readingFlagPair (1 - p) = true ∧
          ¬ Startable (w.view cfg) cfg.bandwidth p (w.conn.msgQueuePair p).tail w.frame)))
  | .store .. | .clock _ | .tick .. | .stop | .ip _ | .disconnect _ => isTrue trivial

section frames

variable {proxy : ProxyView} {bandwidth : PairId → ℤ} {p : PairId} {f f' : Frame}

theorem startWrite_idle (hidle : ¬ Startable proxy bandwidth p (f.conn.msgQueuePair p) f)
    (h : startWrite proxy bandwidth p f = .ok f') : f' = setWriting p false f := by
  unfold startWrite at h
  unfold Startable at hidle
  split at h
  · simpa using h.symm
  next msg rest hq =>
    rw [hq] at hidle
    dsimp only at hidle
    split at h
    next hdue =>
      split at h
      next hlimit =>
        split at h
        · cases h
        · split at h
          next havail => exact absurd ⟨hdue.1, hdue.2, fun _ => havail⟩ hidle
          · simpa using h.symm
      next hlimit => exact absurd ⟨hdue.1, hdue.2, fun hpos => absurd hpos hlimit⟩ hidle
    · simpa using h.symm

theorem startWrite_busy (hready : Startable proxy bandwidth p (f.conn.msgQueuePair p) f)
    (h : startWrite proxy bandwidth p f = .ok f') : ∃ msg, .asyncWrite p msg ∈ f'.actions := by
  unfold startWrite at h
  unfold Startable at hready
  split at h
  next hq =>
    rw [hq] at hready
    exact absurd hready id
  next msg rest hq =>
    rw [hq] at hready
    obtain ⟨havail, hdue, hip⟩ := hready
    refine ⟨msg, ?_⟩
    rw [if_pos ⟨havail, hdue⟩] at h
    split at h
    next hlimit =>
      rw [if_pos (hip hlimit)] at h
      split at h
      · cases h
      · cases h
        simp [asyncWrite, setWriting]
    · cases h
      simp [asyncWrite, setWriting]

structure Quiet (c : TcpConnection) (f : Frame) : Prop where
  idle : ∀ a ∈ f.actions, Action.busy a = false
  closed : f.conn.fullOpen = true → c.fullOpen = true
  unpaid : f.conn.availableBytesPair = c.availableBytesPair

variable {c : TcpConnection}

theorem Quiet.act (h : Quiet c f) {action : Action} (hidle : Action.busy action = false) :
    Quiet c { f with actions := f.actions ++ [action] } where
  idle a ha := by
    rcases List.mem_append.mp ha with hold | hnew
    · exact h.idle a hold
    · rw [List.mem_singleton.mp hnew]
      exact hidle
  closed := h.closed
  unpaid := h.unpaid

theorem Quiet.stop (h : Quiet c f) : Quiet c (stop f) :=
  ⟨(h.act rfl).idle, h.closed, h.unpaid⟩

theorem not_quiet (action : Action) (hbusy : Action.busy action = true) (hmem : action ∈ f.actions) :
    ¬ Quiet c f := by
  intro h
  have hidle := h.idle action hmem
  rw [hbusy] at hidle
  cases hidle

theorem quiet_handleConnect {ec : ErrorCode} (h : Quiet c f) :
    Quiet c (handleConnect proxy ec f) ↔ ec ≠ .success := by
  constructor
  · rintro hquiet rfl
    refine not_quiet (.asyncRead 0 f.nextBuf) rfl ?_ hquiet
    simp [handleConnect, asyncRead]
  · intro hec
    rcases handleConnect_failure proxy f hec with heq | heq
    · rw [heq]
      exact h
    · rw [heq]
      exact h.stop

theorem quiet_handleRead {ec : ErrorCode} {n : ℕ} (h : Quiet c f) :
    Quiet c (handleRead proxy p ec n f) ↔
      (ec = .success → maxTcpMsgQueueSize ≤ (f.conn.msgQueuePair (1 - p)).length) := by
  by_cases hec : ec = .success
  · subst hec
    rw [imp_iff_right rfl]
    obtain ⟨activeTime, ⟨hfull, heq⟩ | ⟨hroom, heq⟩⟩ := handleRead_success proxy p f n
    · rw [heq]
      exact iff_of_true ⟨(h.act rfl).idle, h.closed, h.unpaid⟩ (Nat.lt_succ_iff.mp hfull)
    · rw [heq]
      refine iff_of_false (not_quiet (.asyncRead p f.nextBuf) rfl ?_) (Nat.not_le.mpr hroom)
      simp [asyncRead, pushMsg]
  · refine iff_of_true ?_ fun hsuccess => absurd hsuccess hec
    rcases handleRead_failure proxy p f hec n with ⟨-, heq⟩ | ⟨-, -, heq⟩ | ⟨-, -, heq⟩
    · rw [heq]
      exact h
    · rw [heq]
      exact ⟨h.idle, fun hopen => absurd hopen Bool.false_ne_true, h.unpaid⟩
    · rw [heq]
      exact h.stop

theorem queuesEmpty_popMsg {msg : Msg} {rest : List Msg} :
    queuesEmpty (popMsg p msg rest f).conn = true ↔ rest = [] ∧ f.conn.msgQueuePair (1 - p) = [] := by
  simp only [queuesEmpty, popMsg, Bool.and_eq_true, List.isEmpty_iff]
  rcases PairId.eq_or_other 0 p with rfl | rfl
  · simp
  · simp [and_comm]

theorem startWrite_actions (h : startWrite proxy bandwidth p f = .ok f') : f.actions ⊆ f'.actions := by
  rcases startWrite_cases h with rfl | ⟨msg, rest, g, -, -, -, rfl | rfl, rfl⟩
  · exact List.Subset.refl _
  · exact List.subset_append_left _ _
  · simp [asyncWrite, setWriting, chargeIp]

theorem resumeRead_reading (hreading : f.conn.readingFlagPair (1 - p) = true) : resumeRead p f = f := by
  unfold resumeRead
  rw [if_neg (by simp [hreading])]

theorem quiet_handleWrite {msg : Msg} {rest : List Msg} (h : Quiet c f)
    (hwriting : f.conn.writingFlagPair p = true) (hq : f.conn.msgQueuePair p = msg :: rest)
    (hf : handleWrite proxy bandwidth p .success f = .ok f') :
    Quiet c f' ↔
      (f.conn.fullOpen = false ∧ rest = [] ∧ f.conn.msgQueuePair (1 - p) = []) ∨
        (f.conn.readingFlagPair (1 - p) = true ∧ ¬ Startable proxy bandwidth p rest f) := by
  have hpop : Quiet c (popMsg p msg rest f) := ⟨(h.act rfl).idle, h.closed, h.unpaid⟩
  have hqueue : (popMsg p msg rest f).conn.msgQueuePair p = rest := by simp [popMsg]
  have hstartable : Startable proxy bandwidth p rest (popMsg p msg rest f) ↔
      Startable proxy bandwidth p rest f := by
    unfold Startable
    rfl
  simp only [handleWrite, ne_eq, not_true_eq_false, if_false, hwriting, if_true, hq] at hf
  split at hf
  next hlast =>
    simp only [Bool.and_eq_true, Bool.not_eq_true', queuesEmpty_popMsg] at hlast
    cases hf
    exact iff_of_true hpop.stop (.inl hlast)
  next hlast =>
    have hmore : ¬ (f.conn.fullOpen = false ∧ rest = [] ∧ f.conn.msgQueuePair (1 - p) = []) := by
      intro hend
      apply hlast
      rw [Bool.and_eq_true, queuesEmpty_popMsg, Bool.not_eq_true']
      exact hend
    rw [or_iff_right hmore]
    cases hreading : f.conn.readingFlagPair (1 - p) with
    | false =>
      refine iff_of_false ?_ (by simp)
      have hresumed : .asyncRead (1 - p) f.nextBuf ∈ (resumeRead p (popMsg p msg rest f)).actions := by
        unfold resumeRead
        rw [if_pos (by exact hreading)]
        simp [asyncRead, setReading, popMsg]
      exact not_quiet _ rfl (startWrite_actions hf hresumed)
    | true =>
      rw [resumeRead_reading (by exact hreading)] at hf
      by_cases hready : Startable proxy bandwidth p rest f
      · refine iff_of_false ?_ (by simp [hready])
        obtain ⟨m, hmem⟩ := startWrite_busy (by rw [hqueue]; exact hstartable.mpr hready) hf
        exact not_quiet _ rfl hmem
      · refine iff_of_true ?_ ⟨rfl, hready⟩
        rw [startWrite_idle (by rw [hqueue]; exact hstartable.not.mpr hready) hf]
        exact ⟨hpop.idle, hpop.closed, hpop.unpaid⟩

end frames

def Supplied (cfg : Config) (w : World) : Prop := ∀ p, 0 < cfg.bandwidth p → w.conn.clientIp ≠ none

section steps

variable {cfg : Config} {w w' v : World} {e : Event} {f : Frame}

theorem supplied_constructed (h : Constructed cfg w) : Supplied cfg w := by
  obtain ⟨now, ipAddr, ip, heap, rfl⟩ := h
  intro p hlimit hnull
  change getIPProxy cfg.bandwidth ipAddr = none at hnull
  simp only [getIPProxy, ite_eq_left_iff, reduceCtorEq, imp_false, not_not] at hnull
  rcases PairId.eq_or_other 0 p with rfl | rfl
  · exact absurd hnull.1 hlimit.ne'
  · exact absurd hnull.2 hlimit.ne'

theorem supplied_step (hs : Supplied cfg w) (h : step cfg w e = some w') : Supplied cfg w' := by
  intro p hlimit
  rw [clientIp_step rfl h]
  exact hs p hlimit

theorem quiet_entered (h : enter w e = some v) : Quiet w.conn v.frame := by
  obtain ⟨⟨sockets, heq⟩, -⟩ := enter_conn h
  constructor
  · intro a hnone
    cases hnone
  · intro hopen
    change v.conn.fullOpen = true at hopen
    rwa [heq] at hopen
  · change v.conn.availableBytesPair = w.conn.availableBytesPair
    rw [heq]

theorem final_iff_quiet (hclosed : w.conn.closeFlag = true) (h : step cfg w e = some w')
    (hactions : actions cfg w e = f.actions) (hconn : w'.conn = f.conn) :
    Final cfg w e ↔ Quiet w.conn f := by
  unfold Final
  rw [imp_iff_right hclosed, hactions, h]
  constructor
  · rintro ⟨hidle, hafter⟩
    obtain ⟨hopen, havail⟩ := hafter w' rfl
    rw [hconn] at hopen havail
    exact ⟨hidle, hopen, havail⟩
  · rintro ⟨hidle, hopen, havail⟩
    refine ⟨hidle, ?_⟩
    rintro u hu
    cases hu
    rw [hconn]
    exact ⟨hopen, havail⟩

theorem writing_front (hs : Sound w) {p : PairId} {msg : Msg} (hop : .write p msg ∈ w.outstanding) :
    w.conn.writingFlagPair p = true ∧ ∃ rest, w.conn.msgQueuePair p = msg :: rest := by
  constructor
  · exact (hs.relay p).writing_of_write (direction_dispatch_write .success hop).1
  · apply written_queued hs
    rw [writes, Multiset.mem_filterMap]
    exact ⟨_, hop, by simp [Op.written]⟩

theorem handleWrite_runs (hs : Sound w) (hsupplied : Supplied cfg w) {p : PairId} {msg : Msg}
    (hop : .write p msg ∈ w.outstanding) :
    ∃ f, handleWrite (w.view cfg) cfg.bandwidth p .success (w.dispatch (.write p msg) .success).frame = .ok f := by
  cases hf : handleWrite (w.view cfg) cfg.bandwidth p .success (w.dispatch (.write p msg) .success).frame with
  | ok f => exact ⟨f, rfl⟩
  | error fault =>
    obtain ⟨-, rest, hq⟩ := writing_front hs hop
    rcases handleWrite_error hf with ⟨-, hec, -⟩ | ⟨-, -, -, hempty⟩ | ⟨-, -, hnull, hlimit⟩
    · exact absurd rfl hec
    · exact absurd (hq.symm.trans hempty) (by simp)
    · exact absurd hnull (hsupplied (1 - p) hlimit)

theorem final_iff_leavesIdle (hs : Sound w) (hsupplied : Supplied cfg w) (hclosed : w.conn.closeFlag = true)
    (h : step cfg w e = some w') : Final cfg w e ↔ LeavesIdle cfg w e := by
  obtain ⟨v, hv, ⟨f, hf, rfl, hactions⟩ | ⟨hactions, hconn, hnone⟩⟩ := step_ran h
  · rw [final_iff_quiet hclosed h hactions rfl]
    have hentered := quiet_entered hv
    cases e with
    | connect ec =>
      cases hf
      exact quiet_handleConnect hentered
    | read p buf ec n =>
      cases hf
      obtain ⟨-, -, rfl⟩ := enter_read hv
      exact quiet_handleRead hentered
    | write p msg ec =>
      obtain ⟨hop, rfl⟩ := enter_write hv
      by_cases hec : ec = .success
      · subst hec
        obtain ⟨hwriting, rest, hq⟩ := writing_front hs hop
        rw [LeavesIdle, imp_iff_right rfl, hq]
        exact quiet_handleWrite hentered hwriting hq (Option.some.inj hf)
      · refine iff_of_true ?_ fun hsuccess => absurd hsuccess hec
        rcases handleWrite_failure hec (Option.some.inj hf) with ⟨-, rfl⟩ | ⟨-, -, rfl⟩
        · exact hentered
        · exact hentered.stop
    | tick now flushBytes expireTime =>
      obtain ⟨alive, hflush⟩ := handler_tick hf
      refine iff_of_true ?_ trivial
      rcases flushMsgs_cases hflush with ⟨-, -, rfl⟩ | ⟨hopen, -⟩ | ⟨hopen, -⟩
      · exact hentered
      · cases hv
        exact absurd (hopen.symm.trans hclosed) Bool.false_ne_true
      · cases hv
        exact absurd (hopen.symm.trans hclosed) Bool.false_ne_true
    | stop =>
      cases hf
      exact iff_of_true hentered.stop trivial
    | _ => cases hf
  · have hquiet : Final cfg w e :=
      (final_iff_quiet (f := v.frame) hclosed h hactions hconn).mpr (quiet_entered hv)
    refine iff_of_true hquiet ?_
    cases e with
    | connect ec => exact absurd rfl (hnone _)
    | read p buf ec n => exact absurd rfl (hnone _)
    | write p msg ec =>
      rintro rfl
      obtain ⟨hop, rfl⟩ := enter_write hv
      obtain ⟨f, hf⟩ := handleWrite_runs hs hsupplied hop
      exact absurd (congrArg some hf) (hnone f)
    | _ => trivial

end steps

theorem stopped_final {cfg : Config} {w₀ w : World} {es : List Event} (hstart : Constructed cfg w₀)
    (h : exec (step cfg) w₀ es = some w) :
    Along (step cfg) (Final cfg) w₀ es ↔
      Along (step cfg) (fun s e => s.conn.closeFlag = true → LeavesIdle cfg s e) w₀ es := by
  have hsound : Along (step cfg) (fun s _ => Sound s ∧ Supplied cfg s) w₀ es := by
    apply along_of_prefixes
    intro as bs u _ hu
    obtain ⟨now, ipAddr, ip, heap, hw⟩ := hstart
    constructor
    · exact Reachable.sound ⟨w₀, as, ⟨now, _, ip, heap, hw⟩, hu⟩
    · exact exec_invariant (fun _ _ _ => supplied_step) hu (supplied_constructed ⟨now, ipAddr, ip, heap, hw⟩)
  apply along_congr _ h hsound
  rintro s e t ⟨hs, hsupplied⟩ hstep
  by_cases hclosed : s.conn.closeFlag = true
  · rw [imp_iff_right hclosed, final_iff_leavesIdle hs hsupplied hclosed hstep]
  · exact iff_of_true (fun h => absurd h hclosed) fun h => absurd h hclosed

theorem constructed_plainStart : Constructed plain plainStart := ⟨0, 0, _, _, rfl⟩

def closedIdle : List Event :=
  [.connect .success, .read 0 1 .success 1, .stop, .read 1 2 .operationAborted 0]

theorem stopped_final_closedIdle : Along (step plain) (Final plain) plainStart closedIdle := by
  have hexec : exec (step plain) plainStart closedIdle = some (after plain plainStart closedIdle) := rfl
  exact (stopped_final constructed_plainStart hexec).mpr (by decide)

/-- The read had completed when `TcpProxy::close` stopped the connection. -/
def closedReading : List Event := [.connect .success, .stop, .read 0 1 .success 1]

theorem closedReading_restarts : ¬ ∀ (cfg : Config) (w₀ w : World) (es : List Event),
    Constructed cfg w₀ → exec (step cfg) w₀ es = some w → Along (step cfg) (Final cfg) w₀ es := by
  intro hclaim
  have hall := hclaim plain plainStart (after plain plainStart closedReading) closedReading
    constructed_plainStart rfl
  have hlast := ((hall.2 _ rfl).2 _ rfl).1
  have hidle := (hlast rfl).1 (.asyncRead 0 3) (List.mem_cons_of_mem _ List.mem_cons_self)
  cases hidle

end TcpUdpProxy.TcpMachine
