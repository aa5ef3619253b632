import TcpUdpProxy.TcpConnection

namespace TcpUdpProxy.TcpConnection

section results

variable {proxy : ProxyView} {bandwidth : PairId → ℤ} {p : PairId} {f f' : Frame}

theorem startWrite_cases (h : startWrite proxy bandwidth p f = .ok f') :
    f' = setWriting p false f ∨
      ∃ msg rest g, f.conn.msgQueuePair p = msg :: rest ∧ 0 ≤ f.conn.availableBytesPair p ∧
        msg.time ≤ proxy.now ∧ (g = f ∨ g = chargeIp (1 - p) msg f) ∧
        f' = asyncWrite proxy p msg g := by
  unfold startWrite at h
  split at h
  · left
    simpa using h.symm
  next msg rest hq =>
    split at h
    next hdue =>
      split at h
      · split at h
        · cases h
        · split at h
          · right
            exact ⟨msg, rest, _, hq, hdue.1, hdue.2, .inr rfl, by simpa using h.symm⟩
          · left
            simpa using h.symm
      · right
        exact ⟨msg, rest, f, hq, hdue.1, hdue.2, .inl rfl, by simpa using h.symm⟩
    · left
      simpa using h.symm

theorem handleWrite_success (h : handleWrite proxy bandwidth p .success f = .ok f') :
    (f.conn.writingFlagPair p = false ∧ startWrite proxy bandwidth p f = .ok f') ∨
      ∃ msg rest, f.conn.writingFlagPair p = true ∧ f.conn.msgQueuePair p = msg :: rest ∧
        ((f.conn.fullOpen = false ∧ queuesEmpty (popMsg p msg rest f).conn = true ∧
            f' = stop (popMsg p msg rest f)) ∨
          startWrite proxy bandwidth p (resumeRead p (popMsg p msg rest f)) = .ok f') := by
  simp only [handleWrite, ne_eq, not_true_eq_false, if_false] at h
  split at h
  next hw =>
    right
    split at h
    · cases h
    next msg rest hq =>
      refine ⟨msg, rest, hw, hq, ?_⟩
      split at h
      next hlast =>
        left
        simp only [Bool.and_eq_true, Bool.not_eq_true'] at hlast
        exact ⟨hlast.1, hlast.2, by simpa using h.symm⟩
      · right
        exact h
  next hw =>
    left
    exact ⟨by simpa using hw, h⟩

theorem handleWrite_failure {ec : ErrorCode} (hec : ec ≠ .success)
    (h : handleWrite proxy bandwidth p ec f = .ok f') :
    (ec = .operationAborted ∧ f' = f) ∨
      (ec ≠ .operationAborted ∧ f.conn.socketPair p = .connected ∧ f' = stop f) := by
  simp only [handleWrite, ne_eq, hec, not_false_eq_true, if_true] at h
  split at h
  next hab =>
    right
    cases hs : f.conn.socketPair p <;> rw [hs] at h <;> cases h
    exact ⟨hab, rfl, rfl⟩
  next hab =>
    left
    exact ⟨by simpa using hab, by simpa using h.symm⟩

theorem creditPair_writingFlagPair (flushBytes : ℤ) :
    (creditPair proxy flushBytes p f).conn.writingFlagPair = f.conn.writingFlagPair := by
  unfold creditPair
  split <;> rfl

/-- `flushMsgs` starts writes only where none is in flight, so it never pops. -/
theorem flushPair_eq (flushBytes : ℤ) : flushPair proxy bandwidth flushBytes p f =
    if f.conn.writingFlagPair p = false then
      startWrite proxy bandwidth p (creditPair proxy flushBytes p f)
    else .ok (creditPair proxy flushBytes p f) := by
  simp only [flushPair, creditPair_writingFlagPair]
  split
  next hidle =>
    simp only [handleWrite, ne_eq, not_true_eq_false, if_false, creditPair_writingFlagPair, hidle]
    rfl
  next => rfl

theorem flushMsgs_cases {flushBytes : ℤ} {expireTime : Msec} {alive : Bool}
    (h : flushMsgs proxy bandwidth flushBytes expireTime f = .ok (alive, f')) :
    (f.conn.closeFlag = true ∧ alive = false ∧ f' = f) ∨
      (f.conn.closeFlag = false ∧ f.conn.activeTime < expireTime ∧ alive = false ∧ f' = stop f) ∨
      (f.conn.closeFlag = false ∧ expireTime ≤ f.conn.activeTime ∧ alive = true ∧
        ((f.conn.fullOpen = false ∧ queuesEmpty f.conn = true ∧ f' = f) ∨
          ∃ g, flushPair proxy bandwidth flushBytes 0 f = .ok g ∧
            flushPair proxy bandwidth flushBytes 1 g = .ok f')) := by
  unfold flushMsgs at h
  split at h
  next hclose =>
    cases h
    exact .inl ⟨hclose, rfl, rfl⟩
  next hclose =>
    right
    have hopen : f.conn.closeFlag = false := by simpa using hclose
    split at h
    next hexpired =>
      cases h
      exact .inl ⟨hopen, hexpired, rfl, rfl⟩
    next hactive =>
      right
      split at h
      next hidle =>
        cases h
        simp only [Bool.and_eq_true, Bool.not_eq_true'] at hidle
        exact ⟨hopen, not_lt.mp hactive, rfl, .inl ⟨hidle.1, hidle.2, rfl⟩⟩
      · cases h0 : flushPair proxy bandwidth flushBytes 0 f with
        | error e => rw [h0] at h; cases h
        | ok g =>
          rw [h0] at h
          cases h1 : flushPair proxy bandwidth flushBytes 1 g with
          | error e => simp only [bind, Except.bind, h1] at h; cases h
          | ok g' =>
            simp only [bind, Except.bind, h1, pure, Except.pure] at h
            cases h
            exact ⟨hopen, not_lt.mp hactive, rfl, .inr ⟨g, rfl, h1⟩⟩

theorem handleConnect_failure (proxy : ProxyView) (f : Frame) {ec : ErrorCode} (hec : ec ≠ .success) :
    handleConnect proxy ec f = f ∨ handleConnect proxy ec f = stop f := by
  simp only [handleConnect, ne_eq, hec, not_false_eq_true, if_true]
  split
  · exact .inr rfl
  · exact .inl rfl

theorem handleRead_failure (proxy : ProxyView) (p : PairId) (f : Frame) {ec : ErrorCode}
    (hec : ec ≠ .success) (n : ℕ) :
    (ec = .operationAborted ∧ handleRead proxy p ec n f = f) ∨
      (ec ≠ .operationAborted ∧ f.conn.msgQueuePair (1 - p) ≠ [] ∧
        handleRead proxy p ec n f = { f with conn := { f.conn with fullOpen := false } }) ∨
      (ec ≠ .operationAborted ∧ f.conn.msgQueuePair (1 - p) = [] ∧
        handleRead proxy p ec n f = stop f) := by
  simp only [handleRead, ne_eq, hec, not_false_eq_true, if_true]
  by_cases hab : ec = .operationAborted
  · left
    simp [hab]
  · right
    by_cases hq : f.conn.msgQueuePair (1 - p) = []
    · right
      simp [hab, hq]
    · left
      simp [hab, hq]

theorem handleRead_success (proxy : ProxyView) (p : PairId) (f : Frame) (n : ℕ) : ∃ activeTime,
    (maxTcpMsgQueueSize < (f.conn.msgQueuePair (1 - p)).length + 1 ∧
      handleRead proxy p .success n f =
        setReading p false (pushMsg p activeTime (readMsg proxy p n f.conn) f)) ∨
    ((f.conn.msgQueuePair (1 - p)).length + 1 ≤ maxTcpMsgQueueSize ∧
      handleRead proxy p .success n f =
        asyncRead p (pushMsg p activeTime (readMsg proxy p n f.conn) f)) := by
  refine ⟨if f.conn.fullOpen then proxy.now else f.conn.activeTime, ?_⟩
  simp only [handleRead, ne_eq, not_true_eq_false, if_false]
  generalize (if f.conn.fullOpen then proxy.now else f.conn.activeTime) = activeTime
  have hlen : ((pushMsg p activeTime (readMsg proxy p n f.conn) f).conn.msgQueuePair (1 - p)).length =
      (f.conn.msgQueuePair (1 - p)).length + 1 := by
    simp [pushMsg]
  rw [hlen]
  by_cases hfull : maxTcpMsgQueueSize < (f.conn.msgQueuePair (1 - p)).length + 1
  · left
    exact ⟨hfull, if_pos hfull⟩
  · right
    exact ⟨not_lt.mp hfull, if_neg hfull⟩

end results

section faults

variable {proxy : ProxyView} {bandwidth : PairId → ℤ} {p : PairId} {f : Frame} {fault : Fault}

theorem startWrite_error (h : startWrite proxy bandwidth p f = .error fault) :
    fault = .nullPointer ∧ f.conn.clientIp = none ∧ 0 < bandwidth (1 - p) := by
  unfold startWrite at h
  split at h
  · cases h
  · split at h
    · split at h
      next hb =>
        split at h
        next hnull =>
          cases h
          exact ⟨rfl, by simpa using hnull, hb⟩
        · split at h <;> cases h
      · cases h
    · cases h

theorem resumeRead_clientIp (f : Frame) : (resumeRead p f).conn.clientIp = f.conn.clientIp := by
  unfold resumeRead
  split <;> rfl

theorem handleWrite_error {ec : ErrorCode}
    (h : handleWrite proxy bandwidth p ec f = .error fault) :
    (fault = .systemError ∧ ec ≠ .success ∧ ec ≠ .operationAborted ∧
        f.conn.socketPair p ≠ .connected) ∨
      (fault = .xassert ∧ ec = .success ∧ f.conn.writingFlagPair p = true ∧
        f.conn.msgQueuePair p = []) ∨
      (fault = .nullPointer ∧ ec = .success ∧ f.conn.clientIp = none ∧ 0 < bandwidth (1 - p)) := by
  unfold handleWrite at h
  split at h
  next hec =>
    left
    split at h
    next hab =>
      cases hs : f.conn.socketPair p <;> rw [hs] at h <;> cases h
      · exact ⟨rfl, hec, hab, by simp⟩
      · exact ⟨rfl, hec, hab, by simp⟩
    · cases h
  next hec =>
    right
    have hsuccess : ec = .success := by simpa using hec
    split at h
    next hw =>
      split at h
      next hq =>
        cases h
        exact .inl ⟨rfl, hsuccess, hw, hq⟩
      next msg rest hq =>
        right
        dsimp only at h
        split at h
        · cases h
        · obtain ⟨hf, hnull, hb⟩ := startWrite_error h
          rw [resumeRead_clientIp] at hnull
          exact ⟨hf, hsuccess, hnull, hb⟩
    · right
      obtain ⟨hf, hnull, hb⟩ := startWrite_error h
      exact ⟨hf, hsuccess, hnull, hb⟩

theorem flushPair_error {flushBytes : ℤ} (h : flushPair proxy bandwidth flushBytes p f = .error fault) :
    fault = .nullPointer := by
  rw [flushPair_eq] at h
  split at h
  · exact (startWrite_error h).1
  · cases h

theorem flushMsgs_error {flushBytes : ℤ} {expireTime : Msec}
    (h : flushMsgs proxy bandwidth flushBytes expireTime f = .error fault) :
    fault = .nullPointer := by
  unfold flushMsgs at h
  split at h
  · cases h
  · split at h
    · cases h
    · split at h
      · cases h
      · cases h0 : flushPair proxy bandwidth flushBytes 0 f with
        | error e =>
          rw [h0] at h
          cases h
          exact flushPair_error h0
        | ok g =>
          rw [h0] at h
          cases h1 : flushPair proxy bandwidth flushBytes 1 g with
          | error e =>
            simp only [bind, Except.bind, h1] at h
            cases h
            exact flushPair_error h1
          | ok g' =>
            simp only [bind, Except.bind, h1] at h
            cases h

end faults

/-- A property of a running handler that none of its actions destroys, `stop` and the messages
of `handleRead` left aside. -/
structure Steady (P : Frame → Prop) : Prop where
  asyncRead {p : PairId} {f : Frame} : P f → P (asyncRead p f)
  asyncWrite {proxy : ProxyView} {p : PairId} {msg : Msg} {f : Frame} :
    P f → P (asyncWrite proxy p msg f)
  setWriting {p : PairId} {b : Bool} {f : Frame} : P f → P (setWriting p b f)
  setReading {p : PairId} {b : Bool} {f : Frame} : P f → P (setReading p b f)
  chargeIp {i : PairId} {msg : Msg} {f : Frame} : P f → P (chargeIp i msg f)
  popMsg {p : PairId} {msg : Msg} {rest : List Msg} {f : Frame} :
    f.conn.msgQueuePair p = msg :: rest → P f → P (popMsg p msg rest f)
  creditPair {proxy : ProxyView} {flushBytes : ℤ} {p : PairId} {f : Frame} :
    P f → P (creditPair proxy flushBytes p f)
  connect {activeTime : Msec} {f : Frame} :
    P f → P { f with conn := { f.conn with activeTime := activeTime, fullOpen := true } }
  drain {f : Frame} : P f → P { f with conn := { f.conn with fullOpen := false } }

structure Stable (P : Frame → Prop) : Prop extends Steady P where
  stop {f : Frame} : P f → P (stop f)

section rules

variable {P : Frame → Prop} {proxy : ProxyView} {bandwidth : PairId → ℤ} {p : PairId} {f f' : Frame}

theorem Steady.resumeRead (hP : Steady P) (h : P f) : P (resumeRead p f) := by
  unfold TcpConnection.resumeRead
  split
  · exact hP.asyncRead (hP.setReading h)
  · exact h

theorem Steady.startWrite (hP : Steady P) (h : P f)
    (hf : startWrite proxy bandwidth p f = .ok f') : P f' := by
  rcases startWrite_cases hf with rfl | ⟨msg, rest, g, -, -, -, rfl | rfl, rfl⟩
  · exact hP.setWriting h
  · exact hP.asyncWrite h
  · exact hP.asyncWrite (hP.chargeIp h)

theorem Steady.flushPair (hP : Steady P) {flushBytes : ℤ} (h : P f)
    (hf : flushPair proxy bandwidth flushBytes p f = .ok f') : P f' := by
  rw [flushPair_eq] at hf
  split at hf
  · exact hP.startWrite (hP.creditPair h) hf
  · cases hf
    exact hP.creditPair h

theorem Steady.handleConnect (hP : Steady P) (h : P f) : P (handleConnect proxy .success f) :=
  hP.asyncRead (hP.asyncRead (hP.connect h))

theorem Steady.handleRead (hP : Steady P) {n : ℕ}
    (hpush : ∀ activeTime, P (pushMsg p activeTime (readMsg proxy p n f.conn) f)) :
    P (handleRead proxy p .success n f) := by
  obtain ⟨activeTime, ⟨-, heq⟩ | ⟨-, heq⟩⟩ := handleRead_success proxy p f n
  · rw [heq]
    exact hP.setReading (hpush activeTime)
  · rw [heq]
    exact hP.asyncRead (hpush activeTime)

theorem Stable.handleWrite (hP : Stable P) {ec : ErrorCode} (h : P f)
    (hf : handleWrite proxy bandwidth p ec f = .ok f') : P f' := by
  by_cases hec : ec = .success
  · subst hec
    rcases handleWrite_success hf with ⟨-, hs⟩ | ⟨msg, rest, -, hq, ⟨-, -, rfl⟩ | hs⟩
    · exact hP.startWrite h hs
    · exact hP.stop (hP.popMsg hq h)
    · exact hP.startWrite (hP.resumeRead (hP.popMsg hq h)) hs
  · rcases handleWrite_failure hec hf with ⟨-, rfl⟩ | ⟨-, -, rfl⟩
    · exact h
    · exact hP.stop h

theorem Stable.handleConnect (hP : Stable P) {ec : ErrorCode} (h : P f) :
    P (handleConnect proxy ec f) := by
  by_cases hec : ec = .success
  · subst hec
    exact hP.toSteady.handleConnect h
  · rcases handleConnect_failure proxy f hec with heq | heq
    · rw [heq]
      exact h
    · rw [heq]
      exact hP.stop h

theorem Stable.handleRead (hP : Stable P) {ec : ErrorCode} {n : ℕ} (h : P f)
    (hpush : ∀ activeTime, P (pushMsg p activeTime (readMsg proxy p n f.conn) f)) :
    P (handleRead proxy p ec n f) := by
  by_cases hec : ec = .success
  · subst hec
    exact hP.toSteady.handleRead hpush
  · rcases handleRead_failure proxy p f hec n with ⟨-, heq⟩ | ⟨-, -, heq⟩ | ⟨-, -, heq⟩
    · rw [heq]
      exact h
    · rw [heq]
      exact hP.drain h
    · rw [heq]
      exact hP.stop h

theorem Stable.flushMsgs (hP : Stable P) {flushBytes : ℤ} {expireTime : Msec} {keep : Bool} (h : P f)
    (hf : flushMsgs proxy bandwidth flushBytes expireTime f = .ok (keep, f')) : P f' := by
  rcases flushMsgs_cases hf with
    ⟨-, -, rfl⟩ | ⟨-, -, -, rfl⟩ | ⟨-, -, -, ⟨-, -, rfl⟩ | ⟨g, h0, h1⟩⟩
  · exact h
  · exact hP.stop h
  · exact h
  · exact hP.flushPair (hP.flushPair h h0) h1

end rules

end TcpUdpProxy.TcpConnection
