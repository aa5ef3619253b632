import TcpUdpProxy.TcpDirection
import TcpUdpProxy.TcpHandlers

namespace TcpUdpProxy.TcpMachine

open TcpConnection Execution BoundedRelay

def Moves (r s : State Item) : Prop :=
  ∃ ops, exec (BoundedRelay.step maxTcpMsgQueueSize) r ops = some s

theorem Moves.refl (r : State Item) : Moves r r := ⟨[], rfl⟩

theorem Moves.of_eq {r s : State Item} (h : s = r) : Moves r s := h ▸ Moves.refl r

theorem Moves.single {r s : State Item} (op : BoundedRelay.Op Item)
    (h : BoundedRelay.step maxTcpMsgQueueSize r op = some s) : Moves r s := ⟨[op], by simpa using h⟩

theorem Moves.trans {r s t : State Item} (h : Moves r s) (h' : Moves s t) : Moves r t := by
  obtain ⟨as, ha⟩ := h
  obtain ⟨bs, hb⟩ := h'
  exact ⟨as ++ bs, exec_append_some.mpr ⟨s, ha, hb⟩⟩

theorem Moves.inv {r s : State Item} (h : Moves r s) (hi : Inv maxTcpMsgQueueSize r) :
    Inv maxTcpMsgQueueSize s := by
  obtain ⟨ops, h⟩ := h
  exact inv_exec (by decide) hi h

theorem Moves.failing {r : State Item} (b : Bool) : Moves r { r with failed := r.failed || b } := by
  cases b
  · exact Moves.of_eq (by simp)
  · exact Moves.single .fail (by simp [BoundedRelay.step])

theorem leave_frame (w : World) : w.leave w.frame = w := rfl

theorem direction_arrive (w : World) (d p : PairId) (ec : ErrorCode) (b : Buffer) :
    direction d (w.arrive p ec b) = direction d w := rfl

section dispatch

variable {w : World} {d p : PairId} (ec : ErrorCode)

theorem direction_dispatch_connect (h : .connect ∈ w.outstanding) :
    direction d (w.dispatch .connect ec) =
      { direction d w with failed := w.failed || ec ≠ .success } := by
  obtain ⟨t, ht⟩ := Multiset.exists_cons_of_mem h
  simp [direction, World.dispatch, reads, writes, ht]

theorem direction_dispatch_read {buf : BufId} (h : .read (1 - d) buf ∈ w.outstanding) :
    reads w (1 - d) ≠ 0 ∧ direction d (w.dispatch (.read (1 - d) buf) ec) =
      { direction d w with
        reads := reads w (1 - d) - 1
        failed := w.failed || ec ≠ .success } := by
  obtain ⟨t, ht⟩ := Multiset.exists_cons_of_mem h
  simp [direction, World.dispatch, reads, writes, ht]

theorem direction_dispatch_read_other {buf : BufId} (h : .read d buf ∈ w.outstanding) :
    direction d (w.dispatch (.read d buf) ec) =
      { direction d w with failed := w.failed || ec ≠ .success } := by
  obtain ⟨t, ht⟩ := Multiset.exists_cons_of_mem h
  simp [direction, World.dispatch, reads, writes, ht]

theorem direction_dispatch_write {msg : Msg} (h : .write d msg ∈ w.outstanding) :
    item w.heap msg ∈ (direction d w).writes ∧ direction d (w.dispatch (.write d msg) ec) =
      { direction d w with
        writes := (direction d w).writes.erase (item w.heap msg)
        failed := w.failed || ec ≠ .success } := by
  obtain ⟨t, ht⟩ := Multiset.exists_cons_of_mem h
  simp [direction, World.dispatch, reads, writes, ht]

theorem direction_dispatch_write_other {msg : Msg} (h : .write (1 - d) msg ∈ w.outstanding) :
    direction d (w.dispatch (.write (1 - d) msg) ec) =
      { direction d w with failed := w.failed || ec ≠ .success } := by
  obtain ⟨t, ht⟩ := Multiset.exists_cons_of_mem h
  simp [direction, World.dispatch, reads, writes, ht]

end dispatch

section handlers

variable {proxy : ProxyView} {bandwidth : PairId → ℤ} {w : World} {d p : PairId} {f f' : Frame}

theorem direction_startWrite (h : startWrite proxy bandwidth d f = .ok f') :
    Moves { direction d (w.leave f) with writing := false } (direction d (w.leave f')) := by
  rcases startWrite_cases h with rfl | ⟨msg, rest, g, hq, -, -, hg, rfl⟩
  · rw [direction_setWriting]
    exact Moves.refl _
  · have hdir : direction d (w.leave g) = direction d (w.leave f) := by
      rcases hg with rfl | rfl
      · rfl
      · exact direction_chargeIp w d (1 - d) f msg
    rw [direction_asyncWrite, hdir]
    apply Moves.single .start
    have hqueue : (direction d (w.leave f)).queue = item w.heap msg :: rest.map (item w.heap) := by
      simp [direction, World.leave, hq]
    simp [BoundedRelay.step, hqueue]

theorem direction_startWrite_other (h : startWrite proxy bandwidth (1 - d) f = .ok f') :
    direction d (w.leave f') = direction d (w.leave f) := by
  rcases startWrite_cases h with rfl | ⟨msg, rest, g, -, -, -, hg, rfl⟩
  · exact direction_setWriting_other w d f false
  · rw [direction_asyncWrite_other]
    rcases hg with rfl | rfl
    · rfl
    · exact direction_chargeIp w d _ f msg

theorem direction_resumeRead :
    direction d (w.leave (resumeRead d f)) =
      { direction d (w.leave f) with
        reading := true
        reads := if (direction d (w.leave f)).reading then (direction d (w.leave f)).reads
          else (direction d (w.leave f)).reads + 1 } := by
  unfold resumeRead
  by_cases hr : f.conn.readingFlagPair (1 - d) = false
  · rw [if_pos hr, direction_asyncRead, direction_setReading]
    have hreading : (direction d (w.leave f)).reading = false := hr
    simp [hreading]
  · rw [if_neg hr]
    have hreading : (direction d (w.leave f)).reading = true := by
      simpa [direction, World.leave] using hr
    simp only [hreading, if_true]
    rw [← hreading]

theorem direction_resumeRead_other :
    direction d (w.leave (resumeRead (1 - d) f)) = direction d (w.leave f) := by
  unfold resumeRead
  rw [PairId.other_other]
  split
  · rw [direction_asyncRead_other, direction_setReading_other]
  · rfl

theorem direction_handleWrite {msg : Msg} (hi : Inv maxTcpMsgQueueSize (direction d w))
    (hop : .write d msg ∈ w.outstanding)
    (h : handleWrite proxy bandwidth d .success (w.dispatch (.write d msg) .success).frame = .ok f') :
    Moves (direction d w) (direction d ((w.dispatch (.write d msg) .success).leave f')) := by
  obtain ⟨hmem, hdir⟩ := direction_dispatch_write .success hop
  have hwriting : w.conn.writingFlagPair d = true := hi.writing_of_write hmem
  set v := w.dispatch (.write d msg) .success with hv
  rcases handleWrite_success h with ⟨hw, -⟩ | ⟨m, rest, -, hq, hend | hstart⟩
  · exact absurd (hwriting.symm.trans hw) (by simp)
  · obtain ⟨-, hempty, rfl⟩ := hend
    have hrest : rest = [] := by
      simp only [queuesEmpty, popMsg, Bool.and_eq_true, List.isEmpty_iff] at hempty
      rcases PairId.eq_or_other 0 d with rfl | rfl
      · simpa using hempty.1
      · simpa using hempty.2
    subst hrest
    have hqueue : (direction d w).queue = [item w.heap m] := by
      have : w.conn.msgQueuePair d = [m] := hq
      simp [direction, this]
    apply Moves.single (.finishLast (item w.heap msg))
    rw [direction_stop, direction_popMsg, leave_frame, hdir]
    simp only [BoundedRelay.step, hqueue]
    rw [if_pos ⟨hwriting, hmem⟩]
    simp [direction, hv, World.dispatch]
  · have hqueue : (direction d w).queue = item w.heap m :: rest.map (item w.heap) := by
      have : w.conn.msgQueuePair d = m :: rest := hq
      simp [direction, this]
    refine Moves.trans (Moves.single (.finish (item w.heap msg)) ?_) (direction_startWrite hstart)
    rw [direction_resumeRead, direction_popMsg, leave_frame, hdir]
    simp only [BoundedRelay.step, hqueue]
    rw [if_pos ⟨hwriting, hmem⟩]
    simp [direction, hv, World.dispatch]

theorem direction_handleWrite_other (h : handleWrite proxy bandwidth (1 - d) .success f = .ok f') :
    direction d (w.leave f') = direction d (w.leave f) := by
  rcases handleWrite_success h with ⟨-, hs⟩ | ⟨m, rest, -, -, ⟨-, -, rfl⟩ | hs⟩
  · exact direction_startWrite_other hs
  · rw [direction_stop, direction_popMsg_other]
  · rw [direction_startWrite_other hs, direction_resumeRead_other, direction_popMsg_other]

theorem direction_flushPair {flushBytes : ℤ} (h : flushPair proxy bandwidth flushBytes p f = .ok f') :
    Moves (direction d (w.leave f)) (direction d (w.leave f')) := by
  rw [flushPair_eq] at h
  have hcredit := direction_creditPair w d p f proxy flushBytes
  split at h
  next hw =>
    rcases PairId.eq_or_other d p with rfl | rfl
    · have hmove := direction_startWrite (w := w) h
      have hidle : (direction p (w.leave f)).writing = false := hw
      rw [hcredit, ← hidle] at hmove
      exact hmove
    · rw [direction_startWrite_other h, hcredit]
      exact Moves.refl _
  · cases h
    rw [hcredit]
    exact Moves.refl _

theorem direction_flushMsgs {flushBytes : ℤ} {expireTime : Msec} {alive : Bool}
    (h : flushMsgs proxy bandwidth flushBytes expireTime f = .ok (alive, f')) :
    Moves (direction d (w.leave f)) (direction d (w.leave f')) := by
  rcases flushMsgs_cases h with ⟨-, -, rfl⟩ | ⟨-, -, -, rfl⟩ | ⟨-, -, -, ⟨-, -, rfl⟩ | ⟨g, h0, h1⟩⟩
  · exact Moves.refl _
  · rw [direction_stop]
    exact Moves.refl _
  · exact Moves.refl _
  · exact (direction_flushPair h0).trans (direction_flushPair h1)

theorem direction_handleConnect :
    direction d (w.leave (handleConnect proxy .success f)) =
      { direction d (w.leave f) with reads := (direction d (w.leave f)).reads + 1 } := by
  simp only [handleConnect, ne_eq, not_true_eq_false, if_false]
  rcases PairId.eq_or_other 0 d with rfl | rfl
  · apply (direction_asyncRead w 0 _).trans
    rw [direction_asyncRead_other w 0]
    rfl
  · exact (direction_asyncRead_other w 1 _).trans (direction_asyncRead w 1 _)

theorem direction_handleConnect_failure {ec : ErrorCode} (hec : ec ≠ .success) :
    direction d (w.leave (handleConnect proxy ec f)) = direction d (w.leave f) := by
  rcases handleConnect_failure proxy f hec with h | h
  · rw [h]
  · rw [h, direction_stop]

theorem direction_handleRead_failure {ec : ErrorCode} {n : ℕ} (hec : ec ≠ .success) :
    direction d (w.leave (handleRead proxy p ec n f)) = direction d (w.leave f) := by
  rcases handleRead_failure proxy p f hec n with
    ⟨-, h⟩ | ⟨-, -, h⟩ | ⟨-, -, h⟩
  · rw [h]
  · rw [h]
    rfl
  · rw [h, direction_stop]

theorem direction_handleRead {n : ℕ} :
    direction d (w.leave (handleRead proxy (1 - d) .success n f)) =
      let x := item w.heap (readMsg proxy (1 - d) n f.conn)
      let queue := (direction d (w.leave f)).queue ++ [x]
      if maxTcpMsgQueueSize < queue.length then
        { direction d (w.leave f) with
          queue := queue
          received := (direction d (w.leave f)).received ++ [x]
          reading := false }
      else
        { direction d (w.leave f) with
          queue := queue
          received := (direction d (w.leave f)).received ++ [x]
          reads := (direction d (w.leave f)).reads + 1 } := by
  have hlen : ((direction d (w.leave f)).queue ++ [item w.heap (readMsg proxy (1 - d) n f.conn)]).length =
      (f.conn.msgQueuePair d).length + 1 := by
    simp [direction, World.leave]
  dsimp only
  rw [hlen]
  obtain ⟨activeTime, ⟨hfull, h⟩ | ⟨hroom, h⟩⟩ :=
    handleRead_success proxy (1 - d) f n
  · rw [PairId.other_other] at hfull
    rw [if_pos hfull, h, direction_setReading, direction_pushMsg]
  · rw [PairId.other_other] at hroom
    rw [if_neg (not_lt.mpr hroom), h, direction_asyncRead, direction_pushMsg]

theorem direction_handleRead_other {n : ℕ} :
    direction d (w.leave (handleRead proxy d .success n f)) = direction d (w.leave f) := by
  obtain ⟨activeTime, ⟨-, h⟩ | ⟨-, h⟩⟩ := handleRead_success proxy d f n
  · rw [h, direction_setReading_other, direction_pushMsg_other]
  · rw [h, direction_asyncRead_other, direction_pushMsg_other]

end handlers

end TcpUdpProxy.TcpMachine
