import TcpUdpProxy.TcpBuffers

namespace TcpUdpProxy.TcpMachine

open TcpConnection Execution BoundedRelay

structure Sound (w : World) : Prop where
  relay : ∀ d, Inv maxTcpMsgQueueSize (direction d w)
  fresh : (readSide w).Fresh
  connecting : (readSide w).connects ≤ if w.connected then 0 else 1

theorem sound_accepted {cfg : Config} {w : World} (h : Accepted cfg w) : Sound w := by
  obtain ⟨now, clientIp, ip, heap, rfl⟩ := h
  constructor
  · intro d
    have hstart : direction d (accepted cfg now clientIp ip heap) = initial := by
      have hreads : ({Op.connect} : Multiset Op).countP (fun op => op.isRead (1 - d)) = 0 := rfl
      have hwrites : ({Op.connect} : Multiset Op).filterMap (Op.written d) = 0 := rfl
      simp [direction, accepted, create, initial, reads, writes, hreads, hwrites]
    rw [hstart]
    exact inv_initial _
  · have htargets : (readSide (accepted cfg now clientIp ip heap)).targets = 0 := rfl
    have hbufs : ∀ p, (readSide (accepted cfg now clientIp ip heap)).bufs p = [] := fun _ => rfl
    constructor
    any_goals simp [htargets, hbufs]
    exact ⟨rfl, rfl⟩
  · simp [readSide, accepted]

inductive Stepped (cfg : Config) (w : World) : Event → World → Prop
  | connect {ec : ErrorCode} {v : World} (hv : enter w (.connect ec) = some v) :
      Stepped cfg w (.connect ec) (v.leave (handleConnect (v.view cfg) ec v.frame))
  | store {p : PairId} {buf : BufId} {data : List UInt8} (hop : .read p buf ∈ w.outstanding) :
      Stepped cfg w (.store p buf data) { w with heap := w.heap.store buf data }
  | read {p : PairId} {buf : BufId} {ec : ErrorCode} {n : ℕ} {v : World}
      (hv : enter w (.read p buf ec n) = some v) :
      Stepped cfg w (.read p buf ec n) (v.leave (handleRead (v.view cfg) p ec n v.frame))
  | write {p : PairId} {msg : Msg} {ec : ErrorCode} {v : World} {f : Frame}
      (hv : enter w (.write p msg ec) = some v)
      (hf : handleWrite (v.view cfg) cfg.bandwidth p ec v.frame = .ok f) :
      Stepped cfg w (.write p msg ec) (v.leave f)
  | writeFault {p : PairId} {msg : Msg} {ec : ErrorCode} {v : World} {fault : Fault}
      (hv : enter w (.write p msg ec) = some v)
      (hf : handleWrite (v.view cfg) cfg.bandwidth p ec v.frame = .error fault) :
      Stepped cfg w (.write p msg ec) { v with fault := some fault }
  | tick {now expireTime : Msec} {flushBytes : ℤ} {alive : Bool} {f : Frame}
      (hf : flushMsgs ⟨cfg.proxyRule, now⟩ cfg.bandwidth flushBytes expireTime w.frame =
        .ok (alive, f)) :
      Stepped cfg w (.tick now flushBytes expireTime) (World.leave { w with now := now } f)
  | tickFault {now expireTime : Msec} {flushBytes : ℤ} {fault : Fault}
      (hf : flushMsgs ⟨cfg.proxyRule, now⟩ cfg.bandwidth flushBytes expireTime w.frame =
        .error fault) :
      Stepped cfg w (.tick now flushBytes expireTime) { w with now := now, fault := some fault }
  | clock {now : Msec} : Stepped cfg w (.clock now) { w with now := now }
  | ip {availBytes : PairId → ℤ} :
      Stepped cfg w (.ip availBytes) { w with ip := { w.ip with availBytes := availBytes } }
  | disconnect {p : PairId} (hp : w.conn.socketPair p = .connected) :
      Stepped cfg w (.disconnect p) { w with conn := { w.conn with
        socketPair := Function.update w.conn.socketPair p .unconnected } }
  | stop : Stepped cfg w .stop (w.leave (stop w.frame))

theorem step_cases {cfg : Config} {w w' : World} {e : Event} (h : step cfg w e = some w') :
    w.fault = none ∧ Stepped cfg w e w' := by
  unfold step at h
  split at h
  · cases h
  next hfault =>
    refine ⟨by simpa using hfault, ?_⟩
    obtain ⟨v, hv, rfl⟩ := Option.map_eq_some_iff.mp h
    cases e with
    | connect ec => exact .connect hv
    | store p buf data =>
      simp only [enter] at hv
      split at hv
      next hop =>
        cases hv
        exact .store hop.1
      · cases hv
    | read p buf ec n => exact .read hv
    | write p msg ec =>
      cases hf : handleWrite (v.view cfg) cfg.bandwidth p ec v.frame with
      | ok f =>
        simp only [handler, hf]
        exact .write hv hf
      | error fault =>
        simp only [handler, hf]
        exact .writeFault hv hf
    | tick now flushBytes expireTime =>
      cases hv
      cases hf : flushMsgs ⟨cfg.proxyRule, now⟩ cfg.bandwidth flushBytes expireTime w.frame with
      | ok r =>
        have hframe : World.frame { w with now := now } = w.frame := rfl
        simp only [handler, hframe, hf]
        exact .tick hf
      | error fault =>
        have hframe : World.frame { w with now := now } = w.frame := rfl
        simp only [handler, hframe, hf]
        exact .tickFault hf
    | clock now =>
      cases hv
      exact .clock
    | ip availBytes =>
      cases hv
      exact .ip
    | disconnect p =>
      simp only [enter] at hv
      split at hv
      next hp =>
        cases hv
        exact .disconnect hp
      · cases hv
    | stop =>
      cases hv
      exact .stop

theorem step_ok {cfg : Config} {w v : World} {e : Event} {f : Frame} (hfault : w.fault = none)
    (hv : enter w e = some v) (hf : handler cfg v e = some (.ok f)) :
    step cfg w e = some (v.leave f) := by
  unfold step
  rw [hfault, hv]
  simp [hf, World.finish]

section step

variable {cfg : Config} {w v w' : World} {e : Event} {d p : PairId}

theorem reads_zero_of_one (hi : Inv maxTcpMsgQueueSize (direction (1 - p) w)) : reads w p ≤ 1 := by
  have h := hi.reads_le
  simpa [direction] using h

theorem enter_connect {ec : ErrorCode} (h : enter w (.connect ec) = some v) :
    .connect ∈ w.outstanding ∧
      ((ec = .success ∧ v = { w.dispatch .connect ec with
          conn := connectSocket (w.dispatch .connect ec).conn, connected := true }) ∨
        (ec ≠ .success ∧ v = w.dispatch .connect ec)) := by
  simp only [enter] at h
  split at h
  next hop =>
    refine ⟨hop, ?_⟩
    split at h
    next hec => exact .inl ⟨hec, by simpa using h.symm⟩
    next hec => exact .inr ⟨hec, by simpa using h.symm⟩
  · cases h

theorem connectSocket_msgQueuePair (c : TcpConnection) :
    (connectSocket c).msgQueuePair = c.msgQueuePair ∧
      (connectSocket c).writingFlagPair = c.writingFlagPair ∧
      (connectSocket c).readingFlagPair = c.readingFlagPair ∧
      (connectSocket c).recvBufPair = c.recvBufPair := by
  unfold connectSocket
  split <;> simp

theorem direction_connectSocket :
    direction d { w with conn := connectSocket w.conn, connected := true } =
      { direction d w with opened := true } := by
  obtain ⟨hq, hw, hr, -⟩ := connectSocket_msgQueuePair w.conn
  simp [direction, hq, hw, hr, reads, writes]

theorem readSide_connectSocket :
    readSide { w with conn := connectSocket w.conn, connected := true } = readSide w := by
  obtain ⟨-, -, -, hb⟩ := connectSocket_msgQueuePair w.conn
  simp [readSide, hb]

theorem refines_connect {ec : ErrorCode} (hs : Sound w) (hv : enter w (.connect ec) = some v) :
    Moves (direction d w) (direction d (v.leave (handleConnect (v.view cfg) ec v.frame))) := by
  obtain ⟨hop, ⟨rfl, rfl⟩ | ⟨hec, rfl⟩⟩ := enter_connect hv
  · -- a second connect cannot be outstanding, so the relay is not open yet
    have hopened : w.connected = false := by
      by_contra hc
      have hconn := hs.connecting
      rw [if_pos (by simpa using hc)] at hconn
      exact (readSide_dispatch_connect .success hop).1 (Nat.le_zero.mp hconn)
    apply Moves.single .open
    rw [direction_handleConnect, leave_frame, direction_connectSocket, direction_dispatch_connect _ hop]
    simp [BoundedRelay.step, direction, hopened]
  · rw [direction_handleConnect_failure hec, leave_frame, direction_dispatch_connect _ hop]
    exact Moves.failing _

theorem enter_read {buf : BufId} {ec : ErrorCode} {n : ℕ} (h : enter w (.read p buf ec n) = some v) :
    .read p buf ∈ w.outstanding ∧ n ≤ tcpBufferSize ∧ 
      v = (w.dispatch (.read p buf) ec).arrive p ec ⟨buf, n⟩ := by
  simp only [enter] at h
  split at h
  next hop => exact ⟨hop.1, hop.2, (Option.some.inj h).symm⟩
  · cases h

theorem refines_read {buf : BufId} {ec : ErrorCode} {n : ℕ} (hs : Sound w)
    (hv : enter w (.read p buf ec n) = some v) :
    Moves (direction d w) (direction d (v.leave (handleRead (v.view cfg) p ec n v.frame))) := by
  obtain ⟨hop, -, rfl⟩ := enter_read hv
  rcases PairId.eq_or_other d p with rfl | rfl
  · have hdir := direction_dispatch_read_other ec hop
    by_cases hec : ec = .success
    · subst hec
      rw [direction_handleRead_other, leave_frame, direction_arrive, hdir]
      exact Moves.failing _
    · rw [direction_handleRead_failure hec, leave_frame, direction_arrive, hdir]
      exact Moves.failing _
  · obtain ⟨hne, hdir⟩ := direction_dispatch_read ec hop
    have hreads : (direction d w).reads ≠ 0 := hne
    by_cases hec : ec = .success
    · subst hec
      have hone : reads w (1 - d) = 1 := by
        have := (hs.relay d).reads_le
        have hd : (direction d w).reads = reads w (1 - d) := rfl
        omega
      rw [direction_handleRead, leave_frame, direction_arrive, hdir]
      apply Moves.single
        (.receive (item w.heap (readMsg (w.view cfg) (1 - d) n w.conn)))
      simp only [BoundedRelay.step, hreads, if_false]
      split
      next hfull =>
        rw [if_pos (by simpa [direction, World.frame, World.dispatch, World.arrive] using hfull)]
        simp [direction, World.frame, World.view, World.dispatch, World.arrive]
      next hroom =>
        rw [if_neg (by simpa [direction, World.frame, World.dispatch, World.arrive] using hroom)]
        simp [direction, World.frame, World.view, World.dispatch, World.arrive, hone]
    · rw [direction_handleRead_failure hec, leave_frame, direction_arrive, hdir]
      apply Moves.single .readError
      simp [BoundedRelay.step, hreads, hec]
      rfl

theorem enter_write {msg : Msg} {ec : ErrorCode} (h : enter w (.write p msg ec) = some v) :
    .write p msg ∈ w.outstanding ∧ v = w.dispatch (.write p msg) ec := by
  simp only [enter] at h
  split at h
  next hop => exact ⟨hop, by simpa using h.symm⟩
  · cases h

theorem refines_writeError {msg : Msg} {ec : ErrorCode} (hop : .write p msg ∈ w.outstanding) :
    Moves (direction d w) (direction d (w.dispatch (.write p msg) ec)) := by
  rcases PairId.eq_or_other d p with rfl | rfl
  · obtain ⟨hmem, hdir⟩ := direction_dispatch_write ec hop
    have hend : Moves (direction p w)
        { direction p w with writes := (direction p w).writes.erase (item w.heap msg) } :=
      Moves.single (.writeError (item w.heap msg)) (by simp [BoundedRelay.step, hmem])
    rw [hdir]
    exact hend.trans (Moves.failing _)
  · rw [direction_dispatch_write_other _ hop]
    exact Moves.failing _

theorem refines_write {msg : Msg} {ec : ErrorCode} {f : Frame} (hs : Sound w)
    (hv : enter w (.write p msg ec) = some v)
    (h : handleWrite (v.view cfg) cfg.bandwidth p ec v.frame = .ok f) :
    Moves (direction d w) (direction d (v.leave f)) := by
  obtain ⟨hop, rfl⟩ := enter_write hv
  by_cases hec : ec = .success
  · subst hec
    rcases PairId.eq_or_other d p with rfl | rfl
    · exact direction_handleWrite (hs.relay _) hop h
    · rw [direction_handleWrite_other h, leave_frame, direction_dispatch_write_other _ hop]
      exact Moves.failing _
  · rcases handleWrite_failure hec h with ⟨-, rfl⟩ | ⟨-, -, rfl⟩
    · exact refines_writeError hop
    · rw [direction_stop]
      exact refines_writeError hop

theorem queued_received (hs : Sound w) {msg : Msg} (hmsg : msg ∈ w.conn.msgQueuePair d) :
    msg.buffer.buf ∈ (readSide w).bufs (1 - d) := by
  have hitem : item w.heap msg ∈ (direction d w).received := by
    rw [(hs.relay d).received_eq]
    apply List.mem_append_right
    exact List.mem_map_of_mem hmsg
  exact List.mem_map_of_mem (f := fun x : Item => x.msg.buffer.buf) hitem

theorem queued_unread (hs : Sound w) {buf : BufId} (hop : .read p buf ∈ w.outstanding) {msg : Msg}
    (hmsg : msg ∈ w.conn.msgQueuePair d) : msg.buffer.buf ≠ buf := by
  intro heq
  have hrecv := queued_received hs hmsg
  rw [heq] at hrecv
  exact hs.fresh.target_unread p buf (1 - d) (mem_targets.mpr hop) hrecv

theorem written_queued (hs : Sound w) {msg : Msg} (hmsg : msg ∈ writes w d) :
    ∃ rest, w.conn.msgQueuePair d = msg :: rest := by
  have hmem : item w.heap msg ∈ (direction d w).writes := Multiset.mem_map_of_mem _ hmsg
  obtain ⟨q, hq, -⟩ := front_of_write (hs.relay d).front hmem
  have hqueue : (w.conn.msgQueuePair d).map (item w.heap) = item w.heap msg :: q := hq
  cases hm : w.conn.msgQueuePair d with
  | nil => simp [hm] at hqueue
  | cons m rest =>
    rw [hm, List.map_cons, List.cons.injEq] at hqueue
    have hmsg : m = msg := congrArg Item.msg hqueue.1
    exact ⟨rest, by rw [hmsg]⟩

theorem direction_store (hs : Sound w) {buf : BufId} {data : List UInt8}
    (hop : .read p buf ∈ w.outstanding) :
    direction d { w with heap := w.heap.store buf data } = direction d w := by
  have hsame : ∀ msg ∈ w.conn.msgQueuePair d, item (w.heap.store buf data) msg = item w.heap msg := by
    intro msg hmsg
    rw [item, Buffer.bytes_store data (queued_unread hs hop hmsg)]
    rfl
  have hqueue : (w.conn.msgQueuePair d).map (item (w.heap.store buf data)) =
      (w.conn.msgQueuePair d).map (item w.heap) := List.map_congr_left hsame
  have hwrites : (writes w d).map (item (w.heap.store buf data)) = (writes w d).map (item w.heap) := by
    apply Multiset.map_congr rfl
    intro msg hmsg
    obtain ⟨rest, hq⟩ := written_queued hs hmsg
    exact hsame msg (by simp [hq])
  have hw : writes { w with heap := w.heap.store buf data } d = writes w d := rfl
  simp only [direction, hqueue, hw, hwrites]
  rfl

theorem step_refines (hs : Sound w) (h : step cfg w e = some w') (d : PairId) :
    Moves (direction d w) (direction d w') := by
  cases (step_cases h).2 with
  | connect hv => exact refines_connect hs hv
  | store hop => exact Moves.of_eq (direction_store hs hop)
  | read hv => exact refines_read hs hv
  | write hv hf => exact refines_write hs hv hf
  | writeFault hv hf =>
    obtain ⟨hop, rfl⟩ := enter_write hv
    exact refines_writeError hop
  | @tick now _ _ _ _ hf => exact direction_flushMsgs (w := { w with now := now }) hf
  | tickFault hf => exact Moves.refl _
  | clock => exact Moves.refl _
  | ip => exact Moves.refl _
  | disconnect hp => exact Moves.refl _
  | stop =>
    rw [direction_stop]
    exact Moves.refl _

def Renews (w' : World) : Prop :=
  (readSide w').Fresh ∧ (readSide w').connects ≤ if w'.connected then 0 else 1

theorem Renews.of_eq (hs : Sound w) (h : readSide w' = readSide w)
    (hc : w'.connected = w.connected) : Renews w' := by
  unfold Renews
  rw [h, hc]
  exact ⟨hs.fresh, hs.connecting⟩

theorem renews_connect {ec : ErrorCode} {proxy : ProxyView} (hs : Sound w)
    (hv : enter w (.connect ec) = some v) : Renews (v.leave (handleConnect proxy ec v.frame)) := by
  obtain ⟨hop, hcase⟩ := enter_connect hv
  obtain ⟨hne, hside⟩ := readSide_dispatch_connect ec hop
  have hclosed : w.connected = false := by
    by_contra hc
    have hconn := hs.connecting
    rw [if_pos (by simpa using hc)] at hconn
    exact hne (Nat.le_zero.mp hconn)
  have hone : (readSide w).connects - 1 = 0 := by
    have hconn := hs.connecting
    rw [hclosed] at hconn
    simp at hconn
    omega
  rcases hcase with ⟨rfl, rfl⟩ | ⟨hec, rfl⟩
  · have hidle : ∀ p, reads w p = 0 := by
      intro p
      have h := ((hs.relay (1 - p)).unopened hclosed).1
      simpa [direction] using h
    set v := w.dispatch .connect .success
    have hfresh : (readSide v).Fresh := by
      rw [hside]
      exact hs.fresh.withConnects _
    have harm := readSide_handleConnect { v with conn := connectSocket v.conn, connected := true }
      (World.frame { v with conn := connectSocket v.conn, connected := true }) proxy
    rw [leave_frame, readSide_connectSocket] at harm
    have htargets : ∀ p b, (p, b) ∉ (readSide v).targets := by
      intro p b
      rw [hside]
      exact no_target (hidle p) b
    constructor
    · rw [harm]
      apply (hfresh.arm (htargets 0)).arm
      intro b hb
      rcases Multiset.mem_cons.mp hb with heq | hold
      · cases heq
      · exact htargets 1 b hold
    · rw [harm]
      have hzero : (((readSide v).arm 0).arm 1).connects = (readSide w).connects - 1 := by
        change (readSide v).connects = _
        rw [hside]
      rw [hzero, hone]
      exact Nat.zero_le _
  · unfold Renews
    rw [readSide_handleConnect_failure _ _ _ hec, leave_frame, hside]
    exact ⟨hs.fresh.withConnects _, by rw [hone]; exact Nat.zero_le _⟩

theorem renews_read {buf : BufId} {ec : ErrorCode} {n : ℕ} {proxy : ProxyView} (hs : Sound w)
    (hv : enter w (.read p buf ec n) = some v) :
    Renews (v.leave (handleRead proxy p ec n v.frame)) := by
  obtain ⟨hop, -, rfl⟩ := enter_read hv
  obtain ⟨t, ht, hside⟩ := readSide_dispatch_read ec hop
  by_cases hec : ec = .success
  · subst hec
    have hidle : ∀ b, (p, b) ∉ t := by
      intro b
      have hreads : reads (w.dispatch (.read p buf) .success) p = 0 := by
        obtain ⟨u, hu⟩ := Multiset.exists_cons_of_mem hop
        have hone := reads_zero_of_one (hs.relay (1 - p))
        rw [reads, hu, Multiset.countP_cons_of_pos _ (by simp)] at hone
        simp only [reads, World.dispatch, hu, Multiset.erase_cons_head]
        omega
      have hno := no_target hreads b
      rwa [hside] at hno
    have hbuf : buf = (readSide w).recvBuf p := by
      apply hs.fresh.target_eq
      rw [ht]
      exact Multiset.mem_cons_self _ _
    set v := (w.dispatch (.read p buf) .success).arrive p .success ⟨buf, n⟩ with hvdef
    have hv' : readSide v = (readSide w).deliver p (Buffer.bytes w.heap ⟨buf, n⟩) t := by
      rw [hvdef, readSide_arrive, hside]
      rfl
    have htake := hs.fresh.take (x := item w.heap (readMsg proxy p n v.frame.conn))
      (by rw [← hbuf, ht]) hidle rfl
    have hbytes : (item w.heap (readMsg proxy p n v.frame.conn)).bytes =
        Buffer.bytes w.heap ⟨buf, n⟩ := by
      rw [hbuf]
      rfl
    rw [hbytes, ← hv'] at htake
    have htargets : ∀ b, (p, b) ∉ (readSide v).targets := by
      rw [hv']
      exact hidle
    have hconn : (readSide v).connects ≤ if w.connected then 0 else 1 := by
      rw [hv']
      exact hs.connecting
    unfold Renews
    obtain ⟨activeTime, ⟨-, h⟩ | ⟨-, h⟩⟩ := handleRead_success proxy p v.frame n
    · rw [h, readSide_setReading, readSide_pushMsg, leave_frame]
      exact ⟨htake, hconn⟩
    · rw [h, readSide_asyncRead, readSide_pushMsg, leave_frame]
      exact ⟨htake.arm htargets, hconn⟩
  · have hle : t ≤ (readSide w).targets := by
      rw [ht]
      exact Multiset.le_cons_self _ _
    unfold Renews
    rw [readSide_handleRead_failure _ _ _ _ hec, leave_frame, readSide_arrive_failure _ _ _ hec, hside]
    exact ⟨hs.fresh.drop hle, hs.connecting⟩

theorem renews_write {msg : Msg} {ec : ErrorCode} {f : Frame} {proxy : ProxyView} (hs : Sound w)
    (hv : enter w (.write p msg ec) = some v)
    (h : handleWrite proxy cfg.bandwidth p ec v.frame = .ok f) : Renews (v.leave f) := by
  obtain ⟨hop, rfl⟩ := enter_write hv
  have hside := readSide_dispatch_write ec hop
  by_cases hec : ec = .success
  · subst hec
    rcases readSide_handleWrite (w.dispatch (.write p msg) .success) p _ h with hsame | ⟨hpause, harm⟩
    · exact Renews.of_eq hs (hsame.trans hside) rfl
    · have hreads : reads w (1 - p) = 0 := by
        by_contra hne
        have hreading := ((hs.relay p).read_armed hne).1
        have hpaused : w.conn.readingFlagPair (1 - p) = false := hpause
        have hr : (direction p w).reading = w.conn.readingFlagPair (1 - p) := rfl
        rw [hr, hpaused] at hreading
        cases hreading
      unfold Renews
      rw [harm, leave_frame, hside]
      exact ⟨hs.fresh.arm (no_target hreads), hs.connecting⟩
  · rcases handleWrite_failure hec h with ⟨-, rfl⟩ | ⟨-, -, rfl⟩
    · exact Renews.of_eq hs hside rfl
    · exact Renews.of_eq hs ((readSide_stop _ _).trans hside) rfl

theorem renews_tick {flushBytes : ℤ} {expireTime now : Msec} {alive : Bool} {f : Frame}
    {proxy : ProxyView} (hs : Sound w)
    (h : flushMsgs proxy cfg.bandwidth flushBytes expireTime w.frame = .ok (alive, f)) :
    Renews (World.leave { w with now := now } f) := by
  have hsame : readSide (World.leave { w with now := now } f) = readSide w := by
    rcases flushMsgs_cases h with
      ⟨-, -, rfl⟩ | ⟨-, -, -, rfl⟩ | ⟨-, -, -, ⟨-, -, rfl⟩ | ⟨g, h0, h1⟩⟩
    · rfl
    · exact readSide_stop _ _
    · rfl
    · exact (readSide_flushPair _ 1 g h1).trans (readSide_flushPair _ 0 _ h0)
  exact Renews.of_eq hs hsame rfl

theorem step_renews (hs : Sound w) (h : step cfg w e = some w') : Renews w' := by
  cases (step_cases h).2 with
  | connect hv => exact renews_connect hs hv
  | store hop => exact Renews.of_eq hs rfl rfl
  | read hv => exact renews_read hs hv
  | write hv hf => exact renews_write hs hv hf
  | @writeFault p msg ec v fault hv hf =>
    obtain ⟨hop, rfl⟩ := enter_write hv
    exact Renews.of_eq hs (readSide_dispatch_write ec hop) rfl
  | tick hf => exact renews_tick hs hf
  | tickFault hf => exact Renews.of_eq hs rfl rfl
  | clock => exact Renews.of_eq hs rfl rfl
  | ip => exact Renews.of_eq hs rfl rfl
  | disconnect hp => exact Renews.of_eq hs rfl rfl
  | stop => exact Renews.of_eq hs (readSide_stop _ _) rfl

theorem sound_step (hs : Sound w) (h : step cfg w e = some w') : Sound w' where
  relay d := (step_refines hs h d).inv (hs.relay d)
  fresh := (step_renews hs h).1
  connecting := (step_renews hs h).2

end step

theorem Sound.started_nodup {w : World} (hs : Sound w) (p : PairId) :
    ((w.history.started p).map fun x => x.msg.buffer.buf).Nodup := by
  have hrelay := hs.relay p
  have hstarted : w.history.started p <+: w.history.received (1 - p) := hrelay.started_prefix
  exact (hs.fresh.received_nodup (1 - p)).sublist (hstarted.sublist.map _)

theorem Reachable.sound {cfg : Config} {w : World}
    (h : Execution.Reachable (step cfg) (Accepted cfg) w) : Sound w :=
  h.invariant (fun _ => sound_accepted) (fun _ _ _ => sound_step)

end TcpUdpProxy.TcpMachine
