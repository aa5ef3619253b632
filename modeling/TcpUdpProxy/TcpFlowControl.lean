import TcpUdpProxy.TcpInvariant

namespace TcpUdpProxy.TcpMachine

open TcpConnection Execution BoundedRelay

variable {cfg : Config} {w w' : World} {e : Event}

theorem no_xassert_step (hs : Sound w) (hf : w.fault ≠ some .xassert)
    (h : step cfg w e = some w') : w'.fault ≠ some .xassert := by
  cases (step_cases h).2 with
  | connect hv =>
    obtain ⟨-, ⟨-, rfl⟩ | ⟨-, rfl⟩⟩ := enter_connect hv
    · exact hf
    · exact hf
  | read hv =>
    obtain ⟨-, -, rfl⟩ := enter_read hv
    exact hf
  | write hv _ =>
    obtain ⟨-, rfl⟩ := enter_write hv
    exact hf
  | @writeFault p msg ec v fault hv hh =>
    obtain ⟨hop, rfl⟩ := enter_write hv
    rcases handleWrite_error hh with ⟨rfl, -⟩ | ⟨-, -, -, hempty⟩ | ⟨rfl, -⟩
    · simp
    · have hwrite : msg ∈ writes w p :=
        Multiset.mem_filterMap _ _ |>.mpr ⟨_, hop, by simp [Op.written]⟩
      obtain ⟨rest, hq⟩ := written_queued hs hwrite
      have hnil : w.conn.msgQueuePair p = [] := hempty
      rw [hq] at hnil
      cases hnil
    · simp
  | tickFault hh =>
    rw [flushMsgs_error hh]
    simp
  | _ => exact hf

theorem reachable_no_xassert (h : Execution.Reachable (step cfg) (Accepted cfg) w) :
    w.fault ≠ some .xassert := by
  have hboth : Sound w ∧ w.fault ≠ some .xassert := by
    apply h.invariant (I := fun w => Sound w ∧ w.fault ≠ some .xassert)
    · rintro w hw
      refine ⟨sound_accepted hw, ?_⟩
      obtain ⟨now, clientIp, ip, heap, rfl⟩ := hw
      simp [accepted]
    · rintro s e t ⟨hs, hf⟩ hstep
      exact ⟨sound_step hs hstep, no_xassert_step hs hf hstep⟩
  exact hboth.2

theorem card_writes_le (hs : Sound w) (p : PairId) : (writes w p).card ≤ 1 := by
  have hcard := (hs.relay p).card_writes
  simpa [direction] using hcard

theorem reads_le (hs : Sound w) (p : PairId) : reads w p ≤ 1 :=
  reads_zero_of_one (hs.relay (1 - p))

theorem flow_control (h : Execution.Reachable (step cfg) (Accepted cfg) w) (p : PairId) :
    ((writes w p).card ≤ 1 ∧
      (∀ msg ∈ writes w p, w.conn.writingFlagPair p = true ∧
        ∃ rest, w.conn.msgQueuePair p = msg :: rest)) ∧
    w.fault ≠ some .xassert ∧
    reads w p ≤ 1 ∧
    (w.conn.msgQueuePair p).length ≤ maxTcpMsgQueueSize + 1 ∧
    (w.connected = true → w.failed = false →
      (reads w p = 1 ↔ w.conn.readingFlagPair p = true) ∧
      (w.conn.readingFlagPair p = false → w.conn.msgQueuePair (1 - p) ≠ [])) := by
  have hs := Reachable.sound h
  refine ⟨⟨card_writes_le hs p, ?_⟩, reachable_no_xassert h, reads_le hs p, ?_, ?_⟩
  · intro msg hmsg
    have hmem : item w.heap msg ∈ (direction p w).writes := Multiset.mem_map_of_mem _ hmsg
    exact ⟨(hs.relay p).writing_of_write hmem, written_queued hs hmsg⟩
  · have hlen := (hs.relay p).length_le
    simpa [direction] using hlen
  · intro hconn hok
    have hother := hs.relay (1 - p)
    have hreads : (direction (1 - p) w).reads = reads w p := by simp [direction]
    have hreading : (direction (1 - p) w).reading = w.conn.readingFlagPair p := by simp [direction]
    refine ⟨⟨?_, ?_⟩, ?_⟩
    · intro hone
      have harmed := hother.read_armed (by rw [hreads, hone]; decide)
      rw [← hreading]
      exact harmed.1
    · intro hflag
      rw [← hreads]
      exact hother.armed_read hconn hok (by rw [hreading, hflag])
    · intro hflag hempty
      apply hother.paused_nonempty (by rw [hreading, hflag])
      simp [direction, hempty]

def forwarding : List Event :=
  [.connect .success, .store 0 1 [104, 105], .read 0 1 .success 2, .tick 10 5 0]

theorem flow_control_forwarding :
    writes (after plain plainStart forwarding) 1 = {⟨0, ⟨1, 2⟩⟩} ∧
    (reads (after plain plainStart forwarding) 1 = 1 ↔
      (after plain plainStart forwarding).conn.readingFlagPair 1 = true) :=
  ⟨by decide,
    ((flow_control (reachable_after accepted_plainStart forwarding) 1).2.2.2.2 rfl rfl).1⟩

theorem stream_integrity (h : Execution.Reachable (step cfg) (Accepted cfg) w) (p : PairId) :
    payload (w.history.started p) <+: w.arrived (1 - p) ∧
    w.arrived (1 - p) =
      payload (w.history.popped p) ++
        (w.conn.msgQueuePair p).flatMap (fun msg => msg.buffer.bytes w.heap) ∧
    ((w.history.started p).map (fun x => x.msg.buffer.buf)).Nodup ∧
    (∀ q buf, .read q buf ∈ w.outstanding →
      ∀ msg ∈ w.conn.msgQueuePair p, msg.buffer.buf ≠ buf) := by
  have hs := Reachable.sound h
  have hrelay := hs.relay p
  have hstarted : w.history.started p <+: w.history.received (1 - p) := hrelay.started_prefix
  have harrived : w.arrived (1 - p) = payload (w.history.received (1 - p)) :=
    hs.fresh.arrived_eq (1 - p)
  rw [harrived]
  refine ⟨?_, ?_, ?_, ?_⟩
  · obtain ⟨rest, hrest⟩ := hstarted
    refine ⟨payload rest, ?_⟩
    rw [← hrest, payload, payload, payload, List.flatMap_append]
  · have hrecv : w.history.received (1 - p) =
        w.history.popped p ++ (w.conn.msgQueuePair p).map (item w.heap) := hrelay.received_eq
    rw [hrecv, payload, payload, List.flatMap_append, List.flatMap_map]
    rfl
  · exact hs.started_nodup p
  · intro q buf hop msg hmsg
    exact queued_unread hs hop hmsg

theorem stream_integrity_forwarding :
    payload ((after plain plainStart forwarding).history.started 1) = [104, 105] ∧
    payload ((after plain plainStart forwarding).history.started 1) <+:
      (after plain plainStart forwarding).arrived 0 :=
  ⟨by decide, (stream_integrity (reachable_after accepted_plainStart forwarding) 1).1⟩

end TcpUdpProxy.TcpMachine
