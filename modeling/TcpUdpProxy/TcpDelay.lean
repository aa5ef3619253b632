import TcpUdpProxy.Library.Trace
import TcpUdpProxy.TcpClose

namespace TcpUdpProxy.TcpMachine

open TcpConnection Execution

/-- A message at the time a handler queues it, or starts to write it. -/
structure Moment where
  pairId : PairId
  msg : Msg
  now : Msec
  deriving DecidableEq

def Action.receipt (now : Msec) : Action → Option Moment
  | .received p msg => some ⟨p, msg, now⟩
  | _ => none

def Action.departure (now : Msec) : Action → Option Moment
  | .asyncWrite p msg => some ⟨p, msg, now⟩
  | _ => none

def noticed (w : World) : Event → Msec
  | .tick now _ _ => now
  | .clock now => now
  | _ => w.now

def receipts (cfg : Config) (w : World) (e : Event) : List Moment :=
  (actions cfg w e).filterMap (Action.receipt (noticed w e))

def departures (cfg : Config) (w : World) (e : Event) : List Moment :=
  (actions cfg w e).filterMap (Action.departure (noticed w e))

def received (cfg : Config) (w₀ : World) (es : List Event) : List Moment :=
  trace (step cfg) (receipts cfg) w₀ es

def Delayed (cfg : Config) (w₀ : World) (es : List Event) : Prop :=
  ∀ as e bs w, es = as ++ e :: bs → exec (step cfg) w₀ as = some w → ∀ s ∈ departures cfg w e,
    (∃ r ∈ received cfg w₀ as, r.pairId = 1 - s.pairId ∧ r.msg = s.msg) ∧
      ∀ r ∈ received cfg w₀ as, r.pairId = 1 - s.pairId → r.msg = s.msg →
        r.now + cfg.proxyRule.delayMs ≤ s.now

/-- A read that succeeds meets an open pair, or an `active_time` that is not in the past. -/
def StampedNow (w : World) : Event → Prop
  | .read _ _ .success _ => w.conn.fullOpen = true ∨ w.now ≤ w.conn.activeTime
  | _ => True

def ClockForward (w : World) : Event → Prop
  | .tick now _ _ => w.now ≤ now
  | .clock now => w.now ≤ now
  | _ => True

instance (w : World) (e : Event) : Decidable (StampedNow w e) := by
  unfold StampedNow
  split <;> infer_instance

theorem mem_receipts {cfg : Config} {w : World} {e : Event} {r : Moment} :
    r ∈ receipts cfg w e ↔ .received r.pairId r.msg ∈ actions cfg w e ∧ r.now = noticed w e := by
  simp only [receipts, List.mem_filterMap]
  constructor
  · rintro ⟨a, ha, hr⟩
    cases a <;> simp [Action.receipt] at hr
    subst hr
    exact ⟨ha, rfl⟩
  · rintro ⟨ha, hnow⟩
    refine ⟨_, ha, ?_⟩
    rw [Action.receipt, ← hnow]

theorem mem_departures {cfg : Config} {w : World} {e : Event} {s : Moment} :
    s ∈ departures cfg w e ↔ .asyncWrite s.pairId s.msg ∈ actions cfg w e ∧ s.now = noticed w e := by
  simp only [departures, List.mem_filterMap]
  constructor
  · rintro ⟨a, ha, hs⟩
    cases a <;> simp [Action.departure] at hs
    subst hs
    exact ⟨ha, rfl⟩
  · rintro ⟨ha, hnow⟩
    refine ⟨_, ha, ?_⟩
    rw [Action.departure, ← hnow]

def Carries (queues : PairId → List Msg) (f : Frame) : Prop :=
  ∀ p, ∀ msg ∈ f.conn.msgQueuePair p, msg ∈ queues p ∨ .received (1 - p) msg ∈ f.actions

structure Due (now : Msec) (queues : PairId → List Msg) (f : Frame) : Prop where
  queued : ∀ p, f.conn.msgQueuePair p ⊆ queues p
  started : ∀ p msg, .asyncWrite p msg ∈ f.actions → msg ∈ queues p ∧ msg.time ≤ now

section frames

variable {proxy : ProxyView} {bandwidth : PairId → ℤ} {queues : PairId → List Msg} {p : PairId}
  {f f' : Frame}

theorem Carries.act (h : Carries queues f) (action : Action) :
    Carries queues { f with actions := f.actions ++ [action] } := by
  intro q msg hmsg
  rcases h q msg hmsg with hold | hnew
  · exact .inl hold
  · exact .inr (List.mem_append_left _ hnew)

theorem Carries.popMsg {msg : Msg} {rest : List Msg} (hq : f.conn.msgQueuePair p = msg :: rest)
    (h : Carries queues f) : Carries queues (popMsg p msg rest f) := by
  apply Carries.act (f := { f with conn := _ })
  intro q m hm
  apply h q m
  by_cases hqp : q = p
  · subst hqp
    rw [hq]
    apply List.mem_cons_of_mem
    simpa using hm
  · simpa [hqp] using hm

theorem stable_carries (queues : PairId → List Msg) : Stable (Carries queues) where
  asyncRead h := h.act _
  asyncWrite h := h.act _
  setWriting h := h
  setReading h := h
  chargeIp h := h.act _
  popMsg hq h := h.popMsg hq
  creditPair h := by
    unfold creditPair
    split <;> exact h
  connect h := h
  drain h := h
  stop h := h.act _

theorem Carries.pushMsg (h : Carries queues f) (activeTime : Msec) (msg : Msg) :
    Carries queues (pushMsg p activeTime msg f) := by
  intro q m hm
  have hacts : (TcpConnection.pushMsg p activeTime msg f).actions = f.actions ++ [.received p msg] := rfl
  rw [hacts]
  rcases PairId.eq_or_other p q with rfl | rfl
  · have hsame : m ∈ f.conn.msgQueuePair q := by simpa [TcpConnection.pushMsg] using hm
    exact (h.act _) q m hsame
  · have hnew : m ∈ f.conn.msgQueuePair (1 - p) ∨ m = msg := by simpa [TcpConnection.pushMsg] using hm
    rcases hnew with hold | rfl
    · exact (h.act _) (1 - p) m hold
    · right
      rw [PairId.other_other]
      exact List.mem_append_right _ (List.mem_singleton_self _)

theorem Due.of_actions {now : Msec} (h : Due now queues f) {actions : List Action}
    (hqueues : ∀ q, f'.conn.msgQueuePair q ⊆ f.conn.msgQueuePair q)
    (hactions : f'.actions = f.actions ++ actions) (hquiet : ∀ q msg, .asyncWrite q msg ∉ actions) :
    Due now queues f' where
  queued q := List.Subset.trans (hqueues q) (h.queued q)
  started q msg hmem := by
    rw [hactions] at hmem
    rcases List.mem_append.mp hmem with hold | hnew
    · exact h.started q msg hold
    · exact absurd hnew (hquiet q msg)

theorem Due.congr {now : Msec} (h : Due now queues f)
    (hqueues : f'.conn.msgQueuePair = f.conn.msgQueuePair) (hactions : f'.actions = f.actions) :
    Due now queues f' where
  queued := hqueues ▸ h.queued
  started := hactions ▸ h.started

theorem Due.asyncRead {now : Msec} (h : Due now queues f) : Due now queues (asyncRead p f) :=
  h.of_actions (fun _ => List.Subset.refl _) rfl (by simp)

theorem Due.popMsg {now : Msec} {msg : Msg} {rest : List Msg} (h : Due now queues f)
    (hq : f.conn.msgQueuePair p = msg :: rest) : Due now queues (popMsg p msg rest f) := by
  apply h.of_actions _ rfl (by simp)
  intro q
  by_cases hqp : q = p
  · subst hqp
    rw [hq]
    simp [TcpConnection.popMsg]
  · simp [TcpConnection.popMsg, hqp]

theorem Due.resumeRead {now : Msec} (h : Due now queues f) : Due now queues (resumeRead p f) := by
  unfold TcpConnection.resumeRead
  split
  · apply Due.asyncRead
    exact h.congr rfl rfl
  · exact h

theorem Due.creditPair {now : Msec} (h : Due now queues f) (flushBytes : ℤ) :
    Due now queues (creditPair proxy flushBytes p f) := by
  unfold TcpConnection.creditPair
  split
  · exact h.congr rfl rfl
  · exact h

theorem Due.startWrite (h : Due proxy.now queues f) (hf : startWrite proxy bandwidth p f = .ok f') :
    Due proxy.now queues f' := by
  rcases startWrite_cases hf with rfl | ⟨msg, rest, g, hq, -, hdue, hg, rfl⟩
  · exact h.congr rfl rfl
  · have hfront : msg ∈ queues p := h.queued p (by simp [hq])
    have hcharged : Due proxy.now queues g := by
      rcases hg with rfl | rfl
      · exact h
      · exact h.of_actions (fun _ => List.Subset.refl _) rfl (by simp)
    constructor
    · exact hcharged.queued
    · intro q m hm
      have hacts : (asyncWrite proxy p msg g).actions = g.actions ++ [.asyncWrite p msg] := rfl
      rw [hacts] at hm
      rcases List.mem_append.mp hm with hold | hnew
      · exact hcharged.started q m hold
      · cases List.mem_singleton.mp hnew
        exact ⟨hfront, hdue⟩

theorem Due.stop {now : Msec} (h : Due now queues f) : Due now queues (stop f) :=
  h.of_actions (fun _ => List.Subset.refl _) rfl (by simp)

theorem Due.handleWrite {ec : ErrorCode} (h : Due proxy.now queues f)
    (hf : handleWrite proxy bandwidth p ec f = .ok f') : Due proxy.now queues f' := by
  by_cases hec : ec = .success
  · subst hec
    rcases handleWrite_success hf with ⟨-, hs⟩ | ⟨msg, rest, -, hq, ⟨-, -, rfl⟩ | hs⟩
    · exact h.startWrite hs
    · exact (h.popMsg hq).stop
    · exact (h.popMsg hq).resumeRead.startWrite hs
  · rcases handleWrite_failure hec hf with ⟨-, rfl⟩ | ⟨-, -, rfl⟩
    · exact h
    · exact h.stop

theorem Due.flushPair {flushBytes : ℤ} (h : Due proxy.now queues f)
    (hf : flushPair proxy bandwidth flushBytes p f = .ok f') : Due proxy.now queues f' := by
  rw [flushPair_eq] at hf
  split at hf
  · exact (h.creditPair flushBytes).startWrite hf
  · cases hf
    exact h.creditPair flushBytes

theorem Due.flushMsgs {flushBytes : ℤ} {expireTime : Msec} {alive : Bool} (h : Due proxy.now queues f)
    (hf : flushMsgs proxy bandwidth flushBytes expireTime f = .ok (alive, f')) :
    Due proxy.now queues f' := by
  rcases flushMsgs_cases hf with
    ⟨-, -, rfl⟩ | ⟨-, -, -, rfl⟩ | ⟨-, -, -, ⟨-, -, rfl⟩ | ⟨g, h0, h1⟩⟩
  · exact h
  · exact h.stop
  · exact h
  · exact (h.flushPair h0).flushPair h1

end frames

section steps

variable {cfg : Config} {w w' v : World} {e : Event} {f : Frame}

theorem connectSocket_eq (c : TcpConnection) : ∃ sockets, connectSocket c = { c with socketPair := sockets } := by
  unfold connectSocket
  split
  · exact ⟨_, rfl⟩
  · exact ⟨c.socketPair, rfl⟩

theorem enter_conn (h : enter w e = some v) :
    (∃ sockets, v.conn = { w.conn with socketPair := sockets }) ∧ noticed v e = noticed w e := by
  cases e with
  | connect ec =>
    obtain ⟨-, ⟨-, rfl⟩ | ⟨-, rfl⟩⟩ := enter_connect h
    · exact ⟨connectSocket_eq w.conn, rfl⟩
    · exact ⟨⟨_, rfl⟩, rfl⟩
  | read p buf ec n =>
    obtain ⟨-, -, rfl⟩ := enter_read h
    exact ⟨⟨_, rfl⟩, rfl⟩
  | write p msg ec =>
    obtain ⟨-, rfl⟩ := enter_write h
    exact ⟨⟨_, rfl⟩, rfl⟩
  | store p buf data =>
    simp only [enter, Option.ite_none_right_eq_some, Option.some.injEq] at h
    obtain ⟨-, rfl⟩ := h
    exact ⟨⟨_, rfl⟩, rfl⟩
  | disconnect p =>
    simp only [enter, Option.ite_none_right_eq_some, Option.some.injEq] at h
    obtain ⟨-, rfl⟩ := h
    exact ⟨⟨_, rfl⟩, rfl⟩
  | _ =>
    cases h
    exact ⟨⟨_, rfl⟩, rfl⟩

theorem enter_queues (h : enter w e = some v) : v.conn.msgQueuePair = w.conn.msgQueuePair := by
  obtain ⟨⟨sockets, heq⟩, -⟩ := enter_conn h
  rw [heq]

theorem handler_tick {now expireTime : Msec} {flushBytes : ℤ}
    (h : handler cfg v (.tick now flushBytes expireTime) = some (.ok f)) : ∃ alive,
    flushMsgs ⟨cfg.proxyRule, now⟩ cfg.bandwidth flushBytes expireTime v.frame = .ok (alive, f) := by
  have hmap := Option.some.inj h
  cases hflush : flushMsgs ⟨cfg.proxyRule, now⟩ cfg.bandwidth flushBytes expireTime v.frame with
  | error fault =>
    rw [hflush] at hmap
    cases hmap
  | ok r =>
    rw [hflush] at hmap
    cases hmap
    exact ⟨r.1, rfl⟩

theorem step_ran (h : step cfg w e = some w') : ∃ v, enter w e = some v ∧
    ((∃ f, handler cfg v e = some (.ok f) ∧ w' = v.leave f ∧ actions cfg w e = f.actions) ∨
      (actions cfg w e = [] ∧ w'.conn = v.conn ∧ ∀ f, handler cfg v e ≠ some (.ok f))) := by
  unfold step at h
  split at h
  · cases h
  · obtain ⟨v, hv, rfl⟩ := Option.map_eq_some_iff.mp h
    refine ⟨v, hv, ?_⟩
    unfold actions
    rw [hv, Option.bind_some]
    cases hf : handler cfg v e with
    | none => exact .inr ⟨rfl, rfl, by simp⟩
    | some r =>
      cases r with
      | error fault => exact .inr ⟨rfl, rfl, by simp⟩
      | ok f => exact .inl ⟨f, rfl, rfl, rfl⟩

theorem stable_handler {P : Frame → Prop} (hP : Stable P) (hf : handler cfg v e = some (.ok f))
    (h : P v.frame) (hpush : ∀ p buf n activeTime, e = .read p buf .success n →
      P (pushMsg p activeTime (readMsg (v.view cfg) p n v.conn) v.frame)) : P f := by
  cases e with
  | connect ec =>
    cases hf
    exact hP.handleConnect h
  | read p buf ec n =>
    cases hf
    by_cases hec : ec = .success
    · subst hec
      exact hP.toSteady.handleRead fun activeTime => hpush p buf n activeTime rfl
    · rcases handleRead_failure (v.view cfg) p v.frame hec n with ⟨-, heq⟩ | ⟨-, -, heq⟩ | ⟨-, -, heq⟩
      · rwa [heq]
      · rw [heq]
        exact hP.drain h
      · rw [heq]
        exact hP.stop h
  | write p msg ec => exact hP.handleWrite h (Option.some.inj hf)
  | tick now flushBytes expireTime =>
    obtain ⟨alive, hflush⟩ := handler_tick hf
    exact hP.flushMsgs h hflush
  | stop =>
    cases hf
    exact hP.stop h
  | _ => cases hf

theorem carries_handler (hf : handler cfg v e = some (.ok f)) : Carries v.conn.msgQueuePair f := by
  have hstart : Carries v.conn.msgQueuePair v.frame := fun p msg hmsg => .inl hmsg
  apply stable_handler (stable_carries _) hf hstart
  intro p buf n activeTime _
  exact hstart.pushMsg activeTime _

theorem due_frame (now : Msec) (v : World) : Due now v.conn.msgQueuePair v.frame where
  queued _ := List.Subset.refl _
  started _ _ hmem := absurd hmem List.not_mem_nil

theorem due_handleConnect (proxy : ProxyView) (ec : ErrorCode) (v : World) :
    Due proxy.now v.conn.msgQueuePair (handleConnect proxy ec v.frame) := by
  by_cases hec : ec = .success
  · subst hec
    have hopen : Due proxy.now v.conn.msgQueuePair
        { v.frame with conn := { v.conn with activeTime := proxy.now, fullOpen := true } } :=
      ⟨(due_frame proxy.now v).queued, (due_frame proxy.now v).started⟩
    exact hopen.asyncRead.asyncRead
  · rcases handleConnect_failure proxy v.frame hec with heq | heq
    · rw [heq]
      exact due_frame _ v
    · rw [heq]
      exact (due_frame _ v).stop

theorem handleRead_starts_none (proxy : ProxyView) (p : PairId) (ec : ErrorCode) (n : ℕ) (v : World)
    (q : PairId) (msg : Msg) : .asyncWrite q msg ∉ (handleRead proxy p ec n v.frame).actions := by
  by_cases hec : ec = .success
  · subst hec
    obtain ⟨activeTime, ⟨-, heq⟩ | ⟨-, heq⟩⟩ := handleRead_success proxy p v.frame n
    · rw [heq]
      simp [setReading, pushMsg, World.frame]
    · rw [heq]
      simp [asyncRead, pushMsg, World.frame]
  · rcases handleRead_failure proxy p v.frame hec n with ⟨-, heq⟩ | ⟨-, -, heq⟩ | ⟨-, -, heq⟩
    · rw [heq]
      simp [World.frame]
    · rw [heq]
      simp [World.frame]
    · rw [heq]
      simp [stop, World.frame]

theorem started_due (hf : handler cfg v e = some (.ok f)) {p : PairId} {msg : Msg}
    (hmem : .asyncWrite p msg ∈ f.actions) :
    msg ∈ v.conn.msgQueuePair p ∧ msg.time ≤ noticed v e := by
  cases e with
  | connect ec =>
    cases hf
    exact (due_handleConnect (v.view cfg) ec v).started p msg hmem
  | read q buf ec n =>
    cases hf
    exact absurd hmem (handleRead_starts_none _ _ _ _ v p msg)
  | write q m ec => exact ((due_frame v.now v).handleWrite (Option.some.inj hf)).started p msg hmem
  | tick now flushBytes expireTime =>
    obtain ⟨alive, hflush⟩ := handler_tick hf
    exact ((due_frame now v).flushMsgs hflush).started p msg hmem
  | stop =>
    cases hf
    exact (due_frame v.now v).stop.started p msg hmem
  | _ => cases hf

def ReadNow (cfg : Config) (v : World) (e : Event) (f : Frame) : Prop :=
  ∀ p msg, .received p msg ∈ f.actions →
    ∃ buf n, e = .read p buf .success n ∧ msg = readMsg (v.view cfg) p n v.conn

theorem ReadNow.act (h : ReadNow cfg v e f) {action : Action}
    (hother : ∀ p msg, action ≠ .received p msg) :
    ReadNow cfg v e { f with actions := f.actions ++ [action] } := by
  intro p msg hmem
  rcases List.mem_append.mp hmem with hold | hnew
  · exact h p msg hold
  · exact absurd (List.mem_singleton.mp hnew).symm (hother p msg)

theorem stable_readNow (cfg : Config) (v : World) (e : Event) : Stable (ReadNow cfg v e) where
  asyncRead h := h.act (by simp)
  asyncWrite h := h.act (by simp)
  setWriting h := h
  setReading h := h
  chargeIp h := h.act (by simp)
  popMsg _ h := h.act (by simp)
  creditPair h := by
    unfold creditPair
    split <;> exact h
  connect h := h
  drain h := h
  stop h := h.act (by simp)

theorem readNow_handler (hf : handler cfg v e = some (.ok f)) : ReadNow cfg v e f := by
  have hstart : ReadNow cfg v e v.frame := fun _ _ hmem => absurd hmem List.not_mem_nil
  apply stable_handler (stable_readNow cfg v e) hf hstart
  rintro p buf n activeTime rfl q msg hmem
  rcases List.mem_append.mp hmem with hold | hnew
  · exact absurd hold List.not_mem_nil
  · cases List.mem_singleton.mp hnew
    exact ⟨buf, n, rfl, rfl⟩

theorem actions_ran {action : Action} (hmem : action ∈ actions cfg w e) :
    ∃ v f, enter w e = some v ∧ handler cfg v e = some (.ok f) ∧ action ∈ f.actions := by
  unfold actions at hmem
  split at hmem
  next f hf =>
    obtain ⟨v, hv, hf⟩ := Option.bind_eq_some_iff.mp hf
    exact ⟨v, f, hv, hf, hmem⟩
  · cases hmem

theorem departures_due {s : Moment} (hs : s ∈ departures cfg w e) :
    s.msg ∈ w.conn.msgQueuePair s.pairId ∧ s.msg.time ≤ s.now := by
  obtain ⟨hmem, hnow⟩ := mem_departures.mp hs
  obtain ⟨v, f, hv, hf, hmem⟩ := actions_ran hmem
  rw [hnow, ← enter_queues hv, ← (enter_conn hv).2]
  exact started_due hf hmem

theorem receipts_stamped {r : Moment} (hstamp : StampedNow w e) (hr : r ∈ receipts cfg w e) :
    r.now + cfg.proxyRule.delayMs ≤ r.msg.time := by
  obtain ⟨hmem, hnow⟩ := mem_receipts.mp hr
  obtain ⟨v, f, hv, hf, hmem⟩ := actions_ran hmem
  obtain ⟨buf, n, rfl, hmsg⟩ := readNow_handler hf _ _ hmem
  obtain ⟨-, -, rfl⟩ := enter_read hv
  rw [hnow, hmsg]
  have hstamp' : w.now ≤ if w.conn.fullOpen then w.now else w.conn.activeTime := by
    rcases hstamp with hopen | hactive
    · rw [if_pos hopen]
    · split
      · exact le_rfl
      · exact hactive
  exact Int.add_le_add_right hstamp' _

theorem queues_step (h : step cfg w e = some w') {p : PairId} {msg : Msg}
    (hmsg : msg ∈ w'.conn.msgQueuePair p) : msg ∈ w.conn.msgQueuePair p ∨
      ∃ r ∈ receipts cfg w e, r.pairId = 1 - p ∧ r.msg = msg := by
  obtain ⟨v, hv, ⟨f, hf, rfl, hactions⟩ | ⟨-, hconn, -⟩⟩ := step_ran h
  · rw [← enter_queues hv]
    rcases carries_handler hf p msg hmsg with hold | hnew
    · exact .inl hold
    · right
      refine ⟨⟨1 - p, msg, noticed w e⟩, mem_receipts.mpr ⟨?_, rfl⟩, rfl, rfl⟩
      rw [hactions]
      exact hnew
  · left
    rwa [hconn, enter_queues hv] at hmsg

theorem now_step (h : step cfg w e = some w') : w'.now = noticed w e := by
  cases (step_cases h).2 with
  | connect hv =>
    obtain ⟨-, ⟨-, rfl⟩ | ⟨-, rfl⟩⟩ := enter_connect hv
    · rfl
    · rfl
  | read hv =>
    obtain ⟨-, -, rfl⟩ := enter_read hv
    rfl
  | write hv hf =>
    obtain ⟨-, rfl⟩ := enter_write hv
    rfl
  | writeFault hv hf =>
    obtain ⟨-, rfl⟩ := enter_write hv
    rfl
  | _ => rfl

theorem noticed_ge (h : ClockForward w e) : w.now ≤ noticed w e := by
  cases e with
  | tick now flushBytes expireTime => exact h
  | clock now => exact h
  | _ => exact le_rfl

end steps

section runs

variable {cfg : Config} {w₀ w : World} {es : List Event}

theorem queued_received_before (hstart : Accepted cfg w₀) (h : exec (step cfg) w₀ es = some w)
    {p : PairId} {msg : Msg} (hmsg : msg ∈ w.conn.msgQueuePair p) :
    ∃ r ∈ received cfg w₀ es, r.pairId = 1 - p ∧ r.msg = msg := by
  let I (w : World) (xs : List Moment) : Prop :=
    ∀ p, ∀ msg ∈ w.conn.msgQueuePair p, ∃ r ∈ xs, r.pairId = 1 - p ∧ r.msg = msg
  have hI : I w ([] ++ received cfg w₀ es) := by
    apply exec_traced (G := fun _ _ => True) (I := I) _ h (along_true w₀ es)
    · obtain ⟨now, clientIp, ip, heap, rfl⟩ := hstart
      intro p msg hnone
      cases hnone
    · intro s e t xs hI _ hstep p msg hmsg
      rcases queues_step hstep hmsg with hold | ⟨r, hr, hsame⟩
      · obtain ⟨r, hr, hsame⟩ := hI p msg hold
        exact ⟨r, List.mem_append_left _ hr, hsame⟩
      · exact ⟨r, List.mem_append_right _ hr, hsame⟩
  exact hI p msg hmsg

theorem received_stamped (h : exec (step cfg) w₀ es = some w) (hstamped : Along (step cfg) StampedNow w₀ es)
    {r : Moment} (hr : r ∈ received cfg w₀ es) : r.now + cfg.proxyRule.delayMs ≤ r.msg.time := by
  let I (_ : World) (xs : List Moment) : Prop := ∀ r ∈ xs, r.now + cfg.proxyRule.delayMs ≤ r.msg.time
  have hI : I w ([] ++ received cfg w₀ es) := by
    apply exec_traced (I := I) _ h hstamped
    · intro r hnone
      cases hnone
    · intro s e t xs hI hstamp _ r hr
      rcases List.mem_append.mp hr with hold | hnew
      · exact hI r hold
      · exact receipts_stamped hstamp hnew
  exact hI r hr

theorem received_past (h : exec (step cfg) w₀ es = some w) (hclock : Along (step cfg) ClockForward w₀ es)
    {r : Moment} (hr : r ∈ received cfg w₀ es) : r.now ≤ w.now := by
  let I (w : World) (xs : List Moment) : Prop := ∀ r ∈ xs, r.now ≤ w.now
  have hI : I w ([] ++ received cfg w₀ es) := by
    apply exec_traced (I := I) _ h hclock
    · intro r hnone
      cases hnone
    · intro s e t xs hI hforward hstep r hr
      rw [now_step hstep]
      rcases List.mem_append.mp hr with hold | hnew
      · exact (hI r hold).trans (noticed_ge hforward)
      · exact (mem_receipts.mp hnew).2.le
  exact hI r hr

theorem delayed_of_stamped (hstart : Accepted cfg w₀) (h : exec (step cfg) w₀ es = some w)
    (hstamped : Along (step cfg) StampedNow w₀ es ∨
      (cfg.proxyRule.delayMs = 0 ∧ Along (step cfg) ClockForward w₀ es)) : Delayed cfg w₀ es := by
  rintro as e bs u rfl hu s hs
  obtain ⟨hqueued, hdue⟩ := departures_due hs
  refine ⟨queued_received_before hstart hu hqueued, ?_⟩
  intro r hr _ hmsg
  rcases hstamped with hstamped | ⟨hzero, hclock⟩
  · have hearlier := ((along_append hu).mp hstamped).1
    have hstamp := received_stamped hu hearlier hr
    rw [hmsg] at hstamp
    exact hstamp.trans hdue
  · obtain ⟨hearlier, hlater⟩ := (along_append hu).mp hclock
    rw [hzero, Int.add_zero, (mem_departures.mp hs).2]
    exact (received_past hu hearlier hr).trans (noticed_ge hlater.1)

end runs

def slow : Config := ⟨⟨3443, ⟨1, 3443⟩, 0, 100⟩, fun _ => 0⟩

def slowStart : World := accepted slow 0 none IPProxy.create fun _ _ => 0

theorem accepted_slowStart : Accepted slow slowStart := ⟨0, none, _, _, rfl⟩

def echoed : List Event := [.connect .success, .clock 40, .read 0 1 .success 1, .tick 140 0 0]

theorem delayed_of_stamped_echoed : Delayed slow slowStart echoed := by
  have hexec : exec (step slow) slowStart echoed = some (after slow slowStart echoed) := rfl
  exact delayed_of_stamped accepted_slowStart hexec (.inl (by decide))

/-- The client has sent all it had; the answer of the server, read at 1050, is sent to it at 1100. -/
def answeredLate : List Event :=
  [.connect .success, .clock 1000, .read 0 1 .success 1, .read 0 3 .eof 0, .clock 1050,
    .read 1 2 .success 1, .tick 1100 0 0]

theorem answeredLate_early : ¬ ∀ (cfg : Config) (w₀ w : World) (es : List Event), Accepted cfg w₀ →
    0 ≤ cfg.proxyRule.delayMs → exec (step cfg) w₀ es = some w → Delayed cfg w₀ es := by
  intro hclaim
  have hdelayed := hclaim slow slowStart (after slow slowStart answeredLate) answeredLate
    accepted_slowStart (by decide) rfl
  have hbefore : exec (step slow) slowStart (answeredLate.take 6) =
      some (after slow slowStart (answeredLate.take 6)) := rfl
  obtain ⟨-, hlaw⟩ := hdelayed (answeredLate.take 6) (.tick 1100 0 0) [] _ rfl hbefore
    ⟨0, ⟨1100, ⟨2, 1⟩⟩, 1100⟩ (by decide)
  have hearly := hlaw ⟨1, ⟨1100, ⟨2, 1⟩⟩, 1050⟩ (by decide) rfl rfl
  exact absurd hearly (by decide)

end TcpUdpProxy.TcpMachine
