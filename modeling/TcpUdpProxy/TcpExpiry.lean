import TcpUdpProxy.TcpDelivery

namespace TcpUdpProxy.TcpMachine

open TcpConnection Execution

def refreshes (w : World) : Event → List Msec
  | .connect .success => [w.now]
  | .read _ _ .success _ => if w.conn.fullOpen then [w.now] else []
  | _ => []

section frames

variable {proxy : ProxyView} {bandwidth : PairId → ℤ} {p : PairId} {f f' : Frame}

def activity (c : TcpConnection) : Msec × Bool := (c.activeTime, c.fullOpen)

theorem activity_startWrite (h : startWrite proxy bandwidth p f = .ok f') : activity f'.conn = activity f.conn := by
  rcases startWrite_cases h with rfl | ⟨msg, rest, g, -, -, -, rfl | rfl, rfl⟩
  · rfl
  · rfl
  · rfl

theorem activity_resumeRead : activity (resumeRead p f).conn = activity f.conn := by
  unfold resumeRead
  split
  · rfl
  · rfl

theorem activity_handleWrite {ec : ErrorCode} (h : handleWrite proxy bandwidth p ec f = .ok f') :
    activity f'.conn = activity f.conn := by
  by_cases hec : ec = .success
  · subst hec
    rcases handleWrite_success h with ⟨-, hs⟩ | ⟨msg, rest, -, -, ⟨-, -, rfl⟩ | hs⟩
    · exact activity_startWrite hs
    · rfl
    · exact (activity_startWrite hs).trans activity_resumeRead
  · rcases handleWrite_failure hec h with ⟨-, rfl⟩ | ⟨-, -, rfl⟩
    · rfl
    · rfl

theorem activity_flushPair {flushBytes : ℤ} (h : flushPair proxy bandwidth flushBytes p f = .ok f') :
    activity f'.conn = activity f.conn := by
  have hcredit : activity (creditPair proxy flushBytes p f).conn = activity f.conn := by
    unfold creditPair
    split
    · rfl
    · rfl
  rw [flushPair_eq] at h
  split at h
  · exact (activity_startWrite h).trans hcredit
  · cases h
    exact hcredit

theorem activity_flushMsgs {flushBytes : ℤ} {expireTime : Msec} {alive : Bool}
    (h : flushMsgs proxy bandwidth flushBytes expireTime f = .ok (alive, f')) : activity f'.conn = activity f.conn := by
  rcases flushMsgs_cases h with ⟨-, -, rfl⟩ | ⟨-, -, -, rfl⟩ | ⟨-, -, -, ⟨-, -, rfl⟩ | ⟨g, h0, h1⟩⟩
  · rfl
  · rfl
  · rfl
  · exact (activity_flushPair h1).trans (activity_flushPair h0)

theorem activity_handleRead (n : ℕ) : activity (handleRead proxy p .success n f).conn =
    (if f.conn.fullOpen then proxy.now else f.conn.activeTime, f.conn.fullOpen) := by
  unfold handleRead
  rw [if_neg (not_not.mpr rfl)]
  dsimp only
  generalize (if f.conn.fullOpen then proxy.now else f.conn.activeTime) = activeTime
  split
  · rfl
  · rfl

end frames

section steps

variable {cfg : Config} {w w' : World} {e : Event}

theorem activity_step (h : step cfg w e = some w') :
    w'.conn.activeTime = (refreshes w e).getLastD w.conn.activeTime ∧
      (.connect ∉ w.outstanding → w.conn.fullOpen = false → w'.conn.fullOpen = false) := by
  cases (step_cases h).2 with
  | @connect ec v hv =>
    obtain ⟨hop, ⟨hec, rfl⟩ | ⟨hec, rfl⟩⟩ := enter_connect hv
    · subst hec
      exact ⟨rfl, fun hnone => absurd hop hnone⟩
    · have hrefresh : refreshes w (.connect ec) = [] := by
        cases ec <;> first | rfl | exact absurd rfl hec
      refine ⟨?_, fun hnone => absurd hop hnone⟩
      rw [hrefresh]
      rcases handleConnect_failure ((w.dispatch .connect ec).view cfg) (w.dispatch .connect ec).frame hec with heq | heq
      · rw [heq]
        rfl
      · rw [heq]
        rfl
  | store => exact ⟨rfl, fun _ => id⟩
  | @read p buf ec n v hv =>
    obtain ⟨-, -, rfl⟩ := enter_read hv
    by_cases hec : ec = .success
    · subst hec
      have hread : activity (handleRead (w.view cfg) p .success n
          ((w.dispatch (.read p buf) .success).arrive p .success ⟨buf, n⟩).frame).conn = _ := activity_handleRead n
      refine ⟨(congrArg Prod.fst hread).trans ?_, fun _ => (congrArg Prod.snd hread).trans⟩
      change (if w.conn.fullOpen then w.now else w.conn.activeTime) =
        (if w.conn.fullOpen then [w.now] else []).getLastD w.conn.activeTime
      split
      · rfl
      · rfl
    · have hrefresh : refreshes w (.read p buf ec n) = [] := by
        cases ec <;> first | rfl | exact absurd rfl hec
      rw [hrefresh]
      rcases handleRead_failure _ p ((w.dispatch (.read p buf) ec).arrive p ec ⟨buf, n⟩).frame hec n with
        ⟨-, heq⟩ | ⟨-, -, heq⟩ | ⟨-, -, heq⟩
      · rw [heq]
        exact ⟨rfl, fun _ => id⟩
      · rw [heq]
        exact ⟨rfl, fun _ _ => rfl⟩
      · rw [heq]
        exact ⟨rfl, fun _ => id⟩
  | @write p msg ec v f hv hf =>
    obtain ⟨-, rfl⟩ := enter_write hv
    have hsame : activity f.conn = activity w.conn := activity_handleWrite hf
    exact ⟨congrArg Prod.fst hsame, fun _ => (congrArg Prod.snd hsame).trans⟩
  | writeFault hv =>
    obtain ⟨-, rfl⟩ := enter_write hv
    exact ⟨rfl, fun _ => id⟩
  | tick hf =>
    have hsame := activity_flushMsgs hf
    exact ⟨congrArg Prod.fst hsame, fun _ => (congrArg Prod.snd hsame).trans⟩
  | tickFault => exact ⟨rfl, fun _ => id⟩
  | clock | ip | disconnect | stop => exact ⟨rfl, fun _ => id⟩

theorem tick_closes {now expireTime : Msec} {flushBytes : ℤ} (hopen : w.conn.closeFlag = false)
    (h : step cfg w (.tick now flushBytes expireTime) = some w') (hfault : w'.fault = none) :
    w'.conn.closeFlag = true ↔ w.conn.activeTime < expireTime := by
  cases (step_cases h).2 with
  | tick hf =>
    rcases flushMsgs_cases hf with ⟨hclosed, -, -⟩ | ⟨-, hless, -, rfl⟩ | ⟨-, hlive, -, hrest⟩
    · exact absurd (hopen.symm.trans hclosed) Bool.false_ne_true
    · exact ⟨fun _ => hless, fun _ => rfl⟩
    · have hstays : ∀ f', (f' = w.frame ∨ ∃ g,
          flushPair ⟨cfg.proxyRule, now⟩ cfg.bandwidth flushBytes 0 w.frame = .ok g ∧
          flushPair ⟨cfg.proxyRule, now⟩ cfg.bandwidth flushBytes 1 g = .ok f') → f'.conn.closeFlag = false := by
        rintro f' (rfl | ⟨g, h0, h1⟩)
        · exact hopen
        · exact (steady_closeFlag false).flushPair ((steady_closeFlag false).flushPair hopen h0) h1
      have hstill := hstays _ (hrest.imp_left fun hidle => hidle.2.2)
      constructor
      · intro hclosed
        exact absurd (hstill.symm.trans hclosed) Bool.false_ne_true
      · intro hless
        exact absurd hless (not_lt.mpr hlive)
  | tickFault => cases hfault

theorem connect_not_pending (hs : Sound w) (hconnected : w.connected = true) : .connect ∉ w.outstanding := by
  intro hop
  have hconnects := hs.connecting
  rw [if_pos hconnected] at hconnects
  exact (readSide_dispatch_connect .success hop).1 (Nat.le_zero.mp hconnects)

theorem connected_step (h : step cfg w e = some w') (hconnected : w.connected = true) : w'.connected = true := by
  cases (step_cases h).2 with
  | connect hv =>
    obtain ⟨-, ⟨-, rfl⟩ | ⟨-, rfl⟩⟩ := enter_connect hv
    · rfl
    · exact hconnected
  | read hv =>
    obtain ⟨-, -, rfl⟩ := enter_read hv
    exact hconnected
  | write hv =>
    obtain ⟨-, rfl⟩ := enter_write hv
    exact hconnected
  | writeFault hv =>
    obtain ⟨-, rfl⟩ := enter_write hv
    exact hconnected
  | store | tick | tickFault | clock | ip | disconnect | stop => exact hconnected

structure Draining (active : Msec) (w : World) : Prop where
  sound : Sound w
  connected : w.connected = true
  half : w.conn.fullOpen = false
  active : w.conn.activeTime = active

theorem draining_step {active : Msec} (hs : Draining active w) (h : step cfg w e = some w') : Draining active w' := by
  have hnone := connect_not_pending hs.sound hs.connected
  obtain ⟨hactive, hhalf⟩ := activity_step h
  have hrefresh : refreshes w e = [] := by
    cases e with
    | connect ec =>
      obtain ⟨v, hv, -⟩ := step_ran h
      exact absurd (enter_connect hv).1 hnone
    | read p buf ec n =>
      cases ec with
      | success => exact if_neg (ne_true_of_eq_false hs.half)
      | _ => rfl
    | _ => rfl
  rw [hrefresh] at hactive
  exact ⟨sound_step hs.sound h, connected_step h hs.connected, hhalf hnone hs.half, hactive.trans hs.active⟩

end steps

section runs

variable {cfg : Config} {w₀ w w' : World} {es fs : List Event} {now expireTime : Msec} {flushBytes : ℤ}

theorem activeTime_exec (hstart : Accepted cfg w₀) (h : exec (step cfg) w₀ es = some w) :
    w.conn.activeTime = (trace (step cfg) refreshes w₀ es).getLastD w₀.now := by
  have hlast : w.conn.activeTime = ([] ++ trace (step cfg) refreshes w₀ es).getLastD w₀.now := by
    apply exec_traced (I := fun w xs => w.conn.activeTime = xs.getLastD w₀.now) ?_ h (along_true w₀ es)
    · obtain ⟨now, clientIp, ip, heap, rfl⟩ := hstart
      rfl
    · intro s e t xs hs _ hstep
      rw [(activity_step hstep).1, hs]
      simp [List.getLast?_append]
  exact hlast

theorem expired_iff (hstart : Accepted cfg w₀) (h : exec (step cfg) w₀ es = some w) (hopen : w.conn.closeFlag = false)
    (htick : step cfg w (.tick now flushBytes expireTime) = some w') (hfault : w'.fault = none) :
    w'.conn.closeFlag = true ↔ (trace (step cfg) refreshes w₀ es).getLastD w₀.now < expireTime := by
  rw [← activeTime_exec hstart h]
  exact tick_closes hopen htick hfault

def usedOnce : List Event := [.connect .success, .clock 5, .read 0 1 .success 2]

theorem expired_iff_usedOnce : ∃ w w', exec (step plain) plainStart usedOnce = some w ∧
    step plain w (.tick 20 0 6) = some w' ∧ w'.conn.closeFlag = true := by
  have hbefore : (exec (step plain) plainStart usedOnce).map (fun w => w.conn.closeFlag) = some false := by decide
  have hafter : (exec (step plain) plainStart (usedOnce ++ [.tick 20 0 6])).map (fun w => w.fault) =
      some none := by decide
  obtain ⟨w, hw, hopen⟩ := Option.map_eq_some_iff.mp hbefore
  obtain ⟨w', hw', hfault⟩ := Option.map_eq_some_iff.mp hafter
  rw [exec_append, hw] at hw'
  have htick : step plain w (.tick 20 0 6) = some w' := (exec_single _ _).symm.trans hw'
  exact ⟨w, w', hw, htick, (expired_iff accepted_plainStart hw hopen htick hfault).mpr (by decide)⟩

theorem draining_expires (hstart : Accepted cfg w₀) (h : exec (step cfg) w₀ es = some w)
    (hconnected : w.connected = true) (hhalf : w.conn.fullOpen = false)
    (hdrain : exec (step cfg) w (fs ++ [.tick now flushBytes expireTime]) = some w') (hfault : w'.fault = none)
    (hexpired : w.conn.activeTime < expireTime) : w'.conn.closeFlag = true := by
  have hw : Draining w.conn.activeTime w := ⟨Reachable.sound ⟨w₀, es, hstart, h⟩, hconnected, hhalf, rfl⟩
  obtain ⟨u, hu, htick⟩ := exec_append_some.mp hdrain
  have hdraining : Draining w.conn.activeTime u := exec_invariant (fun _ _ _ => draining_step) hu hw
  rw [exec_single] at htick
  cases hclose : u.conn.closeFlag with
  | true => exact closed_step htick hclose
  | false => exact (tick_closes hclose htick hfault).mpr (hdraining.active ▸ hexpired)

/-- The client sends its end at 0, and at 50 the server still answers. -/
def stillSending : List Event := [.clock 50, .read 1 2 .success 4]

theorem draining_expires_stillSending : ∃ w w', w.conn.fullOpen = false ∧
    exec (step plain) w (stillSending ++ [.tick 100 0 60]) = some w' ∧ w'.conn.closeFlag = true := by
  let ended : List Event := [.connect .success, .read 0 1 .success 2, .read 0 3 .eof 0]
  have hbefore : (exec (step plain) plainStart ended).map
      (fun w => (w.connected, w.conn.fullOpen, w.conn.activeTime)) = some (true, false, 0) := by decide
  have hafter : (exec (step plain) plainStart (ended ++ (stillSending ++ [.tick 100 0 60]))).map
      (fun w => w.fault) = some none := by decide
  obtain ⟨w, hw, hstate⟩ := Option.map_eq_some_iff.mp hbefore
  obtain ⟨w', hw', hfault⟩ := Option.map_eq_some_iff.mp hafter
  simp only [Prod.mk.injEq] at hstate
  obtain ⟨hconnected, hhalf, hactive⟩ := hstate
  rw [exec_append, hw] at hw'
  have hlate : w.conn.activeTime < 60 := hactive.trans_lt (by decide)
  exact ⟨w, w', hhalf, hw', draining_expires accepted_plainStart hw hconnected hhalf hw' hfault hlate⟩

end runs

end TcpUdpProxy.TcpMachine
