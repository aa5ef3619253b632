import TcpUdpProxy.TcpRelay

/-!
Buffers are shared, not copied: a queued message points into the array its read filled.
No array is handed to a second read, and none is refilled while a message refers to it.
-/

namespace TcpUdpProxy.TcpMachine

open TcpConnection Execution BoundedRelay

def Op.target : Op → Option (PairId × BufId)
  | .read p buf => some (p, buf)
  | _ => none

structure ReadSide where
  recvBuf : PairId → BufId
  nextBuf : BufId
  targets : Multiset (PairId × BufId)
  received : PairId → List Item
  arrived : PairId → List UInt8
  connects : ℕ

def readSide (w : World) : ReadSide where
  recvBuf := w.conn.recvBufPair
  nextBuf := w.nextBuf
  targets := w.outstanding.filterMap Op.target
  received := w.history.received
  arrived := w.arrived
  connects := w.outstanding.count .connect

def ReadSide.bufs (r : ReadSide) (p : PairId) : List BufId :=
  (r.received p).map (·.msg.buffer.buf)

structure ReadSide.Fresh (r : ReadSide) : Prop where
  target_eq : ∀ p b, (p, b) ∈ r.targets → b = r.recvBuf p
  target_lt : ∀ p b, (p, b) ∈ r.targets → b < r.nextBuf
  target_unread : ∀ p b q, (p, b) ∈ r.targets → b ∉ r.bufs q
  target_disjoint : ∀ p b, (p, b) ∈ r.targets → (1 - p, b) ∉ r.targets
  received_lt : ∀ p, ∀ b ∈ r.bufs p, b < r.nextBuf
  received_nodup : ∀ p, (r.bufs p).Nodup
  received_disjoint : ∀ p, ∀ b ∈ r.bufs p, b ∉ r.bufs (1 - p)
  arrived_eq : ∀ p, r.arrived p = payload (r.received p)

def ReadSide.arm (p : PairId) (r : ReadSide) : ReadSide :=
  { r with
    recvBuf := Function.update r.recvBuf p r.nextBuf
    nextBuf := r.nextBuf + 1
    targets := (p, r.nextBuf) ::ₘ r.targets }

def ReadSide.take (p : PairId) (x : Item) (r : ReadSide) : ReadSide :=
  { r with received := Function.update r.received p (r.received p ++ [x]) }

def ReadSide.deliver (p : PairId) (bytes : List UInt8) (t : Multiset (PairId × BufId))
    (r : ReadSide) : ReadSide :=
  { r with targets := t, arrived := Function.update r.arrived p (r.arrived p ++ bytes) }

theorem ReadSide.Fresh.arm {r : ReadSide} {p : PairId} (h : r.Fresh)
    (hidle : ∀ b, (p, b) ∉ r.targets) : (r.arm p).Fresh where
  target_eq q b hb := by
    rcases Multiset.mem_cons.mp hb with heq | hold
    · cases heq
      simp [ReadSide.arm]
    · have hqp : q ≠ p := by
        rintro rfl
        exact hidle b hold
      simpa [ReadSide.arm, hqp] using h.target_eq q b hold
  target_lt q b hb := by
    rcases Multiset.mem_cons.mp hb with heq | hb
    · cases heq
      exact Nat.lt_succ_self _
    · exact (h.target_lt q b hb).trans (Nat.lt_succ_self _)
  target_unread q b o hb := by
    rcases Multiset.mem_cons.mp hb with heq | hb
    · cases heq
      intro hmem
      exact absurd (h.received_lt o _ hmem) (lt_irrefl _)
    · exact h.target_unread q b o hb
  target_disjoint q b hb hb' := by
    rcases Multiset.mem_cons.mp hb with heq | hold
    · rcases Multiset.mem_cons.mp hb' with heq' | hold'
      · rw [← heq] at heq'
        exact absurd (congrArg Prod.fst heq') (PairId.other_ne q)
      · cases heq
        exact absurd (h.target_lt _ _ hold') (lt_irrefl _)
    · rcases Multiset.mem_cons.mp hb' with heq' | hold'
      · cases heq'
        exact absurd (h.target_lt _ _ hold) (lt_irrefl _)
      · exact h.target_disjoint q b hold hold'
  received_lt q b hb := (h.received_lt q b hb).trans (Nat.lt_succ_self _)
  received_nodup := h.received_nodup
  received_disjoint := h.received_disjoint
  arrived_eq := h.arrived_eq

theorem ReadSide.Fresh.take {r : ReadSide} {p : PairId} {t : Multiset (PairId × BufId)} {x : Item}
    (h : r.Fresh) (ht : r.targets = (p, r.recvBuf p) ::ₘ t) (hidle : ∀ b, (p, b) ∉ t)
    (hx : x.msg.buffer.buf = r.recvBuf p) : ((r.deliver p x.bytes t).take p x).Fresh := by
  have hmem : (p, r.recvBuf p) ∈ r.targets := by
    rw [ht]
    exact Multiset.mem_cons_self _ _
  have hsub : ∀ y, y ∈ t → y ∈ r.targets := by
    intro y hy
    rw [ht]
    exact Multiset.mem_cons_of_mem hy
  have hsame : ((r.deliver p x.bytes t).take p x).bufs p = r.bufs p ++ [r.recvBuf p] := by
    simp [ReadSide.bufs, ReadSide.take, ReadSide.deliver, hx]
  have hother : ∀ q, q ≠ p → ((r.deliver p x.bytes t).take p x).bufs q = r.bufs q := by
    intro q hq
    simp [ReadSide.bufs, ReadSide.take, ReadSide.deliver, hq]
  have hin : ∀ q b, b ∈ ((r.deliver p x.bytes t).take p x).bufs q →
      b ∈ r.bufs q ∨ (q = p ∧ b = r.recvBuf p) := by
    intro q b hb
    by_cases hq : q = p
    · subst hq
      rw [hsame] at hb
      simpa using hb
    · left
      rwa [hother q hq] at hb
  constructor
  · intro q b hb
    exact h.target_eq q b (hsub _ hb)
  · intro q b hb
    exact h.target_lt q b (hsub _ hb)
  · intro q b o hb hmem'
    rcases hin o b hmem' with hold | ⟨rfl, rfl⟩
    · exact h.target_unread q b o (hsub _ hb) hold
    · rcases PairId.eq_or_other o q with rfl | rfl
      · exact hidle _ hb
      · exact h.target_disjoint o _ hmem (hsub _ hb)
  · intro q b hb hb'
    exact h.target_disjoint q b (hsub _ hb) (hsub _ hb')
  · intro q b hb
    rcases hin q b hb with hold | ⟨rfl, rfl⟩
    · exact h.received_lt q b hold
    · exact h.target_lt _ _ hmem
  · intro q
    by_cases hq : q = p
    · subst hq
      rw [hsame]
      apply List.Nodup.append (h.received_nodup q) (List.nodup_singleton _)
      rw [List.disjoint_singleton]
      exact h.target_unread q _ q hmem
    · rw [hother q hq]
      exact h.received_nodup q
  · intro q b hb hb'
    rcases hin q b hb with hold | ⟨rfl, rfl⟩
    · rcases hin _ b hb' with hold' | ⟨-, rfl⟩
      · exact h.received_disjoint q b hold hold'
      · exact h.target_unread p _ q hmem hold
    · rcases hin _ _ hb' with hold' | ⟨hq, -⟩
      · exact h.target_unread q _ _ hmem hold'
      · exact absurd hq (PairId.other_ne q)
  · intro q
    by_cases hq : q = p
    · subst hq
      simp [ReadSide.take, ReadSide.deliver, payload, h.arrived_eq]
    · simp [ReadSide.take, ReadSide.deliver, hq, h.arrived_eq]

theorem ReadSide.Fresh.drop {r : ReadSide} {t : Multiset (PairId × BufId)} (h : r.Fresh)
    (ht : t ≤ r.targets) : ({ r with targets := t } : ReadSide).Fresh where
  target_eq q b hb := h.target_eq q b (Multiset.mem_of_le ht hb)
  target_lt q b hb := h.target_lt q b (Multiset.mem_of_le ht hb)
  target_unread q b o hb := h.target_unread q b o (Multiset.mem_of_le ht hb)
  target_disjoint q b hb hb' :=
    h.target_disjoint q b (Multiset.mem_of_le ht hb) (Multiset.mem_of_le ht hb')
  received_lt := h.received_lt
  received_nodup := h.received_nodup
  received_disjoint := h.received_disjoint
  arrived_eq := h.arrived_eq

theorem ReadSide.Fresh.withConnects {r : ReadSide} (h : r.Fresh) (n : ℕ) :
    ({ r with connects := n } : ReadSide).Fresh := { h with }

theorem mem_targets {w : World} {p : PairId} {b : BufId} :
    (p, b) ∈ (readSide w).targets ↔ .read p b ∈ w.outstanding := by
  simp only [readSide, Multiset.mem_filterMap]
  constructor
  · rintro ⟨op, hop, ht⟩
    cases op <;> simp [Op.target] at ht
    obtain ⟨rfl, rfl⟩ := ht
    exact hop
  · intro h
    exact ⟨_, h, rfl⟩

theorem no_target {w : World} {p : PairId} (h : reads w p = 0) (b : BufId) :
    (p, b) ∉ (readSide w).targets := by
  rw [mem_targets]
  intro hb
  rw [reads, Multiset.countP_eq_zero] at h
  exact h _ hb (by simp)

section parts

variable (w : World) (p : PairId) (f : Frame)

theorem readSide_stop : readSide (w.leave (stop f)) = readSide (w.leave f) := by
  simp [readSide, World.leave, stop, issue, History.note]

theorem readSide_asyncRead :
    readSide (w.leave (asyncRead p f)) = (readSide (w.leave f)).arm p := by
  simp [readSide, World.leave, asyncRead, issue, History.note, ReadSide.arm,
    Multiset.filterMap_cons_some _ _ _ (show Op.target (.read p f.nextBuf) = some (p, f.nextBuf) from rfl)]

theorem readSide_setReading (b : Bool) :
    readSide (w.leave (setReading p b f)) = readSide (w.leave f) := rfl

theorem readSide_chargeIp (msg : Msg) :
    readSide (w.leave (chargeIp p msg f)) = readSide (w.leave f) := by
  simp [readSide, World.leave, chargeIp, issue, History.note]

theorem readSide_creditPair (proxy : ProxyView) (flushBytes : ℤ) :
    readSide (w.leave (creditPair proxy flushBytes p f)) = readSide (w.leave f) := by
  unfold creditPair
  split <;> rfl

theorem readSide_asyncWrite (proxy : ProxyView) (msg : Msg) :
    readSide (w.leave (asyncWrite proxy p msg f)) = readSide (w.leave f) := by
  simp [readSide, World.leave, asyncWrite, setWriting, issue, History.note,
    Multiset.filterMap_cons_none _ _ (show Op.target (.write p msg) = none from rfl)]

theorem readSide_popMsg (msg : Msg) (rest : List Msg) :
    readSide (w.leave (popMsg p msg rest f)) = readSide (w.leave f) := by
  simp [readSide, World.leave, popMsg, issue, History.note]

theorem readSide_pushMsg (activeTime : Msec) (msg : Msg) :
    readSide (w.leave (pushMsg p activeTime msg f)) =
      (readSide (w.leave f)).take p (item w.heap msg) := by
  simp [readSide, World.leave, pushMsg, issue, History.note, ReadSide.take, snoc]

theorem readSide_startWrite {proxy : ProxyView} {bandwidth : PairId → ℤ} {f' : Frame}
    (h : startWrite proxy bandwidth p f = .ok f') :
    readSide (w.leave f') = readSide (w.leave f) := by
  rcases startWrite_cases h with rfl | ⟨msg, rest, g, -, -, -, hg, rfl⟩
  · rfl
  · rw [readSide_asyncWrite]
    rcases hg with rfl | rfl
    · rfl
    · exact readSide_chargeIp w _ f msg

theorem readSide_resumeRead :
    readSide (w.leave (resumeRead p f)) =
      if f.conn.readingFlagPair (1 - p) = false then (readSide (w.leave f)).arm (1 - p)
      else readSide (w.leave f) := by
  unfold resumeRead
  split
  · rw [readSide_asyncRead, readSide_setReading]
  · rfl

theorem readSide_handleWrite {proxy : ProxyView} {bandwidth : PairId → ℤ} {f' : Frame}
    (h : handleWrite proxy bandwidth p .success f = .ok f') :
    readSide (w.leave f') = readSide (w.leave f) ∨
      (f.conn.readingFlagPair (1 - p) = false ∧
        readSide (w.leave f') = (readSide (w.leave f)).arm (1 - p)) := by
  rcases handleWrite_success h with ⟨-, hs⟩ | ⟨m, rest, -, -, ⟨-, -, rfl⟩ | hs⟩
  · exact .inl (readSide_startWrite w p f hs)
  · left
    rw [readSide_stop, readSide_popMsg]
  · rw [readSide_startWrite w p _ hs, readSide_resumeRead, readSide_popMsg]
    by_cases hr : f.conn.readingFlagPair (1 - p) = false
    · exact .inr ⟨hr, if_pos hr⟩
    · exact .inl (if_neg hr)

theorem readSide_flushPair {proxy : ProxyView} {bandwidth : PairId → ℤ} {flushBytes : ℤ}
    {f' : Frame} (h : flushPair proxy bandwidth flushBytes p f = .ok f') :
    readSide (w.leave f') = readSide (w.leave f) := by
  rw [flushPair_eq] at h
  split at h
  · rw [readSide_startWrite w p _ h, readSide_creditPair]
  · cases h
    exact readSide_creditPair w p f proxy flushBytes

theorem readSide_handleConnect (proxy : ProxyView) :
    readSide (w.leave (handleConnect proxy .success f)) = ((readSide (w.leave f)).arm 0).arm 1 := by
  simp only [handleConnect, ne_eq, not_true_eq_false, if_false]
  rw [readSide_asyncRead, readSide_asyncRead]
  rfl

theorem readSide_handleConnect_failure {ec : ErrorCode} (proxy : ProxyView) (hec : ec ≠ .success) :
    readSide (w.leave (handleConnect proxy ec f)) = readSide (w.leave f) := by
  rcases handleConnect_failure proxy f hec with h | h
  · rw [h]
  · rw [h, readSide_stop]

theorem readSide_handleRead_failure {ec : ErrorCode} {n : ℕ} (proxy : ProxyView)
    (hec : ec ≠ .success) : readSide (w.leave (handleRead proxy p ec n f)) = readSide (w.leave f) := by
  rcases handleRead_failure proxy p f hec n with ⟨-, h⟩ | ⟨-, -, h⟩ | ⟨-, -, h⟩
  · rw [h]
  · rw [h]
    rfl
  · rw [h, readSide_stop]

end parts

section dispatch

variable {w : World} {p : PairId} (ec : ErrorCode)

theorem readSide_dispatch_connect (h : .connect ∈ w.outstanding) :
    (readSide w).connects ≠ 0 ∧ readSide (w.dispatch .connect ec) =
      { readSide w with connects := (readSide w).connects - 1 } := by
  obtain ⟨t, ht⟩ := Multiset.exists_cons_of_mem h
  simp [readSide, World.dispatch, ht,
    Multiset.filterMap_cons_none _ _ (show Op.target .connect = none from rfl)]

theorem readSide_dispatch_read {buf : BufId} (h : .read p buf ∈ w.outstanding) :
    ∃ t, (readSide w).targets = (p, buf) ::ₘ t ∧
      readSide (w.dispatch (.read p buf) ec) = { readSide w with targets := t } := by
  obtain ⟨t, ht⟩ := Multiset.exists_cons_of_mem h
  refine ⟨t.filterMap Op.target, ?_⟩
  simp [readSide, World.dispatch, ht,
    Multiset.filterMap_cons_some _ _ _ (show Op.target (.read p buf) = some (p, buf) from rfl)]

theorem readSide_arrive (w : World) (p : PairId) (b : Buffer) :
    readSide (w.arrive p .success b) =
      (readSide w).deliver p (b.bytes w.heap) (readSide w).targets := by
  simp [readSide, World.arrive, ReadSide.deliver]

theorem readSide_arrive_failure (w : World) (p : PairId) (b : Buffer) {ec : ErrorCode}
    (hec : ec ≠ .success) : readSide (w.arrive p ec b) = readSide w := by
  simp [readSide, World.arrive, hec]

theorem readSide_dispatch_write {msg : Msg} (h : .write p msg ∈ w.outstanding) :
    readSide (w.dispatch (.write p msg) ec) = readSide w := by
  obtain ⟨t, ht⟩ := Multiset.exists_cons_of_mem h
  simp [readSide, World.dispatch, ht,
    Multiset.filterMap_cons_none _ _ (show Op.target (.write p msg) = none from rfl)]

end dispatch

end TcpUdpProxy.TcpMachine
