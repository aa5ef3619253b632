import TcpUdpProxy.TcpDelay
import TcpUdpProxy.TcpFlowControl
import TcpUdpProxy.Library.Progress
import Mathlib.Data.Finset.Dedup
import Mathlib.Data.Finset.Order
import Mathlib.Data.Prod.Lex

namespace TcpUdpProxy.TcpMachine

open TcpConnection Execution Progress BoundedRelay

def isPop (p : PairId) : Action → Bool
  | .popped q _ => q = p
  | _ => false

def isStart (p : PairId) : Action → Bool
  | .asyncWrite q _ => q = p
  | _ => false

structure Sending where
  queue : List Msg
  writing : Bool
  avail : ℤ
  ipAvail : ℤ
  pops : ℕ
  flights : ℕ

def sending (p : PairId) (f : Frame) : Sending where
  queue := f.conn.msgQueuePair p
  writing := f.conn.writingFlagPair p
  avail := f.conn.availableBytesPair p
  ipAvail := f.ip.availBytes (1 - p)
  pops := f.actions.countP (isPop p)
  flights := f.actions.countP (isStart p)

def Blocked (bandwidth : PairId → ℤ) (now : Msec) (p : PairId) (s : Sending) : Prop :=
  s.avail < 0 ∨ (0 < bandwidth (1 - p) ∧ s.ipAvail < 0) ∨ ∀ msg ∈ s.queue.head?, now < msg.time

def credited (rule : TcpProxyRule) (flushBytes avail : ℤ) : ℤ :=
  if 0 < rule.maxBandwidth ∧ avail < 0 then avail + flushBytes else avail

section sending

variable {p : PairId} {f f' : Frame} {proxy : ProxyView} {bandwidth : PairId → ℤ}

theorem sending_stop : sending p (stop f) = sending p f := by
  simp [sending, stop, isPop, isStart]

theorem sending_asyncRead (q : PairId) : sending p (asyncRead q f) = sending p f := by
  simp [sending, asyncRead, isPop, isStart]

theorem sending_resumeRead (q : PairId) : sending p (resumeRead q f) = sending p f := by
  unfold resumeRead
  split
  · exact sending_asyncRead _
  · rfl

theorem sending_setWriting_other (b : Bool) : sending p (setWriting (1 - p) b f) = sending p f := by
  simp [sending, setWriting]

theorem sending_chargeIp_other (msg : Msg) : sending p (chargeIp (1 - (1 - p)) msg f) = sending p f := by
  simp [sending, chargeIp, isPop, isStart, IPProxy.charge]

theorem sending_asyncWrite_other (msg : Msg) :
    sending p (asyncWrite proxy (1 - p) msg f) = sending p f := by
  simp only [sending, asyncWrite, setWriting, List.countP_append]
  split <;> simp [isPop, isStart]

theorem sending_popMsg_other (msg : Msg) (rest : List Msg) :
    sending p (popMsg (1 - p) msg rest f) = sending p f := by
  simp [sending, popMsg, isPop, isStart]

theorem sending_creditPair_other (flushBytes : ℤ) :
    sending p (creditPair proxy flushBytes (1 - p) f) = sending p f := by
  unfold creditPair
  split
  · simp [sending]
  · rfl

theorem sending_startWrite_other (h : startWrite proxy bandwidth (1 - p) f = .ok f') :
    sending p f' = sending p f := by
  rcases startWrite_cases h with rfl | ⟨msg, rest, g, -, -, -, rfl | rfl, rfl⟩
  · exact sending_setWriting_other false
  · exact sending_asyncWrite_other msg
  · exact (sending_asyncWrite_other msg).trans (sending_chargeIp_other msg)

theorem sending_handleWrite_other (h : handleWrite proxy bandwidth (1 - p) .success f = .ok f') :
    sending p f' = sending p f := by
  rcases handleWrite_success h with ⟨-, hs⟩ | ⟨msg, rest, -, -, ⟨-, -, rfl⟩ | hs⟩
  · exact sending_startWrite_other hs
  · exact sending_stop.trans (sending_popMsg_other msg rest)
  · exact (sending_startWrite_other hs).trans ((sending_resumeRead _).trans (sending_popMsg_other msg rest))

theorem sending_flushPair_other {flushBytes : ℤ}
    (h : flushPair proxy bandwidth flushBytes (1 - p) f = .ok f') : sending p f' = sending p f := by
  rw [flushPair_eq] at h
  split at h
  · exact (sending_startWrite_other h).trans (sending_creditPair_other flushBytes)
  · cases h
    exact sending_creditPair_other flushBytes

def Kept (s s' : Sending) : Prop :=
  s'.writing = s.writing ∧ s'.avail = s.avail ∧ s'.pops = s.pops ∧ s'.flights = s.flights

theorem Kept.of_eq {s s' : Sending} (h : s' = s) : Kept s s' := h ▸ ⟨rfl, rfl, rfl, rfl⟩

theorem Kept.trans {s s' s'' : Sending} (h : Kept s s') (h' : Kept s' s'') : Kept s s'' :=
  ⟨h'.1.trans h.1, h'.2.1.trans h.2.1, h'.2.2.1.trans h.2.2.1, h'.2.2.2.trans h.2.2.2⟩

theorem kept_handleConnect (ec : ErrorCode) : Kept (sending p f) (sending p (handleConnect proxy ec f)) := by
  by_cases hec : ec = .success
  · subst hec
    exact .of_eq ((sending_asyncRead 1).trans (sending_asyncRead 0))
  · rcases handleConnect_failure proxy f hec with heq | heq
    · rw [heq]
      exact .of_eq rfl
    · rw [heq]
      exact .of_eq sending_stop

theorem kept_pushMsg (q : PairId) (activeTime : Msec) (msg : Msg) :
    Kept (sending p f) (sending p (pushMsg q activeTime msg f)) := by
  simp [Kept, sending, pushMsg, isPop, isStart]

theorem kept_handleRead (q : PairId) (ec : ErrorCode) (n : ℕ) :
    Kept (sending p f) (sending p (handleRead proxy q ec n f)) := by
  by_cases hec : ec = .success
  · subst hec
    obtain ⟨activeTime, ⟨-, heq⟩ | ⟨-, heq⟩⟩ := handleRead_success proxy q f n
    · rw [heq]
      exact kept_pushMsg q activeTime _
    · rw [heq]
      exact (kept_pushMsg q activeTime _).trans (.of_eq (sending_asyncRead q))
  · rcases handleRead_failure proxy q f hec n with ⟨-, heq⟩ | ⟨-, -, heq⟩ | ⟨-, -, heq⟩
    · rw [heq]
      exact .of_eq rfl
    · rw [heq]
      exact .of_eq rfl
    · rw [heq]
      exact .of_eq sending_stop

theorem kept_handleWrite {ec : ErrorCode} (h : handleWrite proxy bandwidth (1 - p) ec f = .ok f') :
    Kept (sending p f) (sending p f') := by
  by_cases hec : ec = .success
  · subst hec
    exact .of_eq (sending_handleWrite_other h)
  · rcases handleWrite_failure hec h with ⟨-, rfl⟩ | ⟨-, -, rfl⟩
    · exact .of_eq rfl
    · exact .of_eq sending_stop

structure Started (rule : TcpProxyRule) (s s' : Sending) : Prop where
  queue : s'.queue = s.queue
  pops : s'.pops = s.pops
  writing : s'.writing = true
  flights : s'.flights = s.flights + 1
  avail : rule.maxBandwidth ≤ 0 → s'.avail = s.avail

theorem started_asyncWrite (proxy : ProxyView) (f : Frame) (msg : Msg) :
    Started proxy.proxyRule (sending p f) (sending p (asyncWrite proxy p msg f)) where
  queue := by simp [sending, asyncWrite, setWriting]
  pops := by simp [sending, asyncWrite, setWriting, isPop]
  writing := by simp [sending, asyncWrite, setWriting]
  flights := by simp [sending, asyncWrite, setWriting, isStart]
  avail hfree := by simp [sending, asyncWrite, setWriting, not_lt.mpr hfree]

theorem sending_startWrite (h : startWrite proxy bandwidth p f = .ok f') :
    Started proxy.proxyRule (sending p f) (sending p f') ∨
      (sending p f') = { sending p f with writing := false } ∧ Blocked bandwidth proxy.now p (sending p f) := by
  have hclear : sending p (setWriting p false f) = { sending p f with writing := false } := by
    simp [sending, setWriting]
  unfold startWrite at h
  split at h
  next hq =>
    cases h
    refine .inr ⟨hclear, .inr (.inr ?_)⟩
    intro msg hmsg
    simp [sending, hq] at hmsg
  next msg rest hq =>
    split at h
    next hdue =>
      split at h
      next hlimit =>
        split at h
        · cases h
        · split at h
          · cases h
            have hstarted := started_asyncWrite (p := p) proxy (chargeIp (1 - p) msg f) msg
            have hcharge : (sending p (chargeIp (1 - p) msg f)).pops = (sending p f).pops ∧
                (sending p (chargeIp (1 - p) msg f)).flights = (sending p f).flights := by
              simp [sending, chargeIp, isPop, isStart]
            exact .inl ⟨hstarted.queue, hstarted.pops.trans hcharge.1, hstarted.writing,
              hstarted.flights.trans (congrArg (· + 1) hcharge.2), hstarted.avail⟩
          next hspent =>
            cases h
            exact .inr ⟨hclear, .inr (.inl ⟨hlimit, not_le.mp hspent⟩)⟩
      next hfree =>
        cases h
        exact .inl (started_asyncWrite proxy f msg)
    next hnot =>
      cases h
      refine .inr ⟨hclear, ?_⟩
      rw [not_and_or, not_le, not_le] at hnot
      refine hnot.imp id fun hearly => .inr ?_
      intro other hother
      have hhead : msg = other := by simpa [sending, hq] using hother
      exact hhead ▸ hearly

theorem sending_creditPair (flushBytes : ℤ) : sending p (creditPair proxy flushBytes p f) =
    { sending p f with avail := credited proxy.proxyRule flushBytes (sending p f).avail } := by
  by_cases hspent : 0 < proxy.proxyRule.maxBandwidth ∧ (sending p f).avail < 0
  · have hcredit : creditPair proxy flushBytes p f = _ := if_pos hspent
    rw [hcredit, credited, if_pos hspent]
    simp [sending]
  · have hcredit : creditPair proxy flushBytes p f = f := if_neg hspent
    rw [hcredit, credited, if_neg hspent]

theorem sending_flushPair {flushBytes : ℤ} (h : flushPair proxy bandwidth flushBytes p f = .ok f') :
    (sending p f).writing = false ∧ Started proxy.proxyRule (sending p f) (sending p f') ∨
      (sending p f).writing = true ∧
        sending p f' = { sending p f with avail := credited proxy.proxyRule flushBytes (sending p f).avail } ∨
      (sending p f).writing = false ∧
        sending p f' = { sending p f with avail := credited proxy.proxyRule flushBytes (sending p f).avail } ∧
        Blocked bandwidth proxy.now p (sending p f') := by
  have hcredit : sending p (creditPair proxy flushBytes p f) = _ := sending_creditPair flushBytes
  rw [flushPair_eq] at h
  split at h
  next hidle =>
    have hwriting : (sending p f).writing = false := hidle
    rcases sending_startWrite h with hstarted | ⟨heq, hblocked⟩
    · rw [hcredit] at hstarted
      refine .inl ⟨hwriting, hstarted.queue, hstarted.pops, hstarted.writing, hstarted.flights, fun hfree => ?_⟩
      refine (hstarted.avail hfree).trans (if_neg ?_)
      exact fun hlimit => absurd hlimit.1 (not_lt.mpr hfree)
    · rw [hcredit] at heq
      refine .inr (.inr ⟨hwriting, ?_, ?_⟩)
      · rw [heq, ← hwriting]
      · rw [heq, ← hcredit]
        exact hblocked
  next hbusy =>
    cases h
    exact .inr (.inl ⟨Bool.of_not_eq_false hbusy, hcredit⟩)

theorem sending_flushMsgs {flushBytes : ℤ} {g g' : Frame} (h0 : flushPair proxy bandwidth flushBytes 0 f = .ok g)
    (h1 : flushPair proxy bandwidth flushBytes 1 g = .ok g') :
    ∃ u u', sending p u = sending p f ∧ sending p u' = sending p g' ∧
      flushPair proxy bandwidth flushBytes p u = .ok u' := by
  have hother (q : PairId) : (q = 0 ∧ 1 - q = 1) ∨ (q = 1 ∧ 1 - q = 0) := by
    revert q
    decide
  rcases hother p with ⟨rfl, hq⟩ | ⟨rfl, hq⟩
  · rw [← hq] at h1
    exact ⟨f, g, rfl, (sending_flushPair_other h1).symm, h0⟩
  · rw [← hq] at h0
    exact ⟨g, g', sending_flushPair_other h0, rfl, h1⟩

end sending

section outgoing

variable {cfg : Config} {p q : PairId} {w v w' : World} {e : Event} {f : Frame}

def outgoing (p : PairId) (w : World) : Sending :=
  { sending p w.frame with pops := (w.history.popped p).length, flights := (writes w p).card }

theorem popped_leave (w : World) (actions : List Action) (h : History) :
    ((actions.foldl (History.note w.heap) h).popped p).length = (h.popped p).length + actions.countP (isPop p) := by
  induction actions generalizing h with
  | nil => rfl
  | cons action actions ih =>
    rw [List.foldl_cons, ih, List.countP_cons]
    cases action with
    | popped q msg =>
      by_cases hq : q = p
      · subst hq
        simp [History.note, snoc, isPop]
        omega
      · simp [History.note, snoc, isPop, hq, Function.update_of_ne (Ne.symm hq)]
    | _ => simp [History.note, isPop]

theorem writes_leave (actions : List Action) (ops : Multiset Op) :
    ((actions.foldl issue ops).filterMap (Op.written p)).card =
      (ops.filterMap (Op.written p)).card + actions.countP (isStart p) := by
  induction actions generalizing ops with
  | nil => rfl
  | cons action actions ih =>
    rw [List.foldl_cons, ih, List.countP_cons]
    cases action with
    | asyncWrite q msg =>
      rcases PairId.eq_or_other p q with rfl | rfl
      · simp [issue, isStart]
        omega
      · simp [issue, isStart]
    | _ => simp [issue, isStart]

theorem outgoing_leave : outgoing p (w.leave f) =
    { sending p f with
      pops := (outgoing p w).pops + (sending p f).pops
      flights := (outgoing p w).flights + (sending p f).flights } := by
  have hpops : ((w.leave f).history.popped p).length = _ := popped_leave w f.actions w.history
  have hflights : (writes (w.leave f) p).card = _ := writes_leave f.actions w.outstanding
  unfold outgoing
  rw [hpops, hflights]
  rfl

theorem outgoing_dispatch {op : Op} (ec : ErrorCode) (hop : op ∈ w.outstanding) (hother : op.written p = none) :
    outgoing p (w.dispatch op ec) = outgoing p w := by
  obtain ⟨ops, hops⟩ := Multiset.exists_cons_of_mem hop
  have hwrites : (writes (w.dispatch op ec) p) = writes w p := by
    unfold writes World.dispatch
    rw [hops, Multiset.erase_cons_head, Multiset.filterMap_cons_none _ _ hother]
  unfold outgoing
  rw [hwrites]
  rfl

theorem Started.leave (h : Started cfg.proxyRule (sending p v.frame) (sending p f)) :
    Started cfg.proxyRule (outgoing p v) (outgoing p (v.leave f)) := by
  rw [outgoing_leave]
  exact ⟨h.queue, congrArg ((outgoing p v).pops + ·) h.pops, h.writing,
    congrArg ((outgoing p v).flights + ·) h.flights, h.avail⟩

theorem Kept.leave (h : Kept (sending p v.frame) (sending p f)) :
    Kept (outgoing p v) (outgoing p (v.leave f)) := by
  obtain ⟨hwriting, havail, hpops, hflights⟩ := h
  rw [outgoing_leave]
  exact ⟨hwriting, havail, congrArg ((outgoing p v).pops + ·) hpops, congrArg ((outgoing p v).flights + ·) hflights⟩

def Event.drives (p : PairId) : Event → Bool
  | .write q _ _ => q = p
  | .tick _ _ _ => true
  | _ => false

inductive Outcome (cfg : Config) (p : PairId) (s : Sending) : Event → Sending → Prop
  | popped {msg : Msg} {s' : Sending} (hpops : s'.pops = s.pops + 1)
      (hflights : s'.writing = true → 0 < s'.flights)
      (havail : cfg.proxyRule.maxBandwidth ≤ 0 → s'.avail = s.avail) : Outcome cfg p s (.write p msg .success) s'
  | started {now expireTime : Msec} {flushBytes : ℤ} {s' : Sending} (hidle : s.writing = false)
      (h : Started cfg.proxyRule s s') :
      Outcome cfg p s (.tick now flushBytes expireTime) s'
  | held {now expireTime : Msec} {flushBytes : ℤ}
      (h : s.writing = false → Blocked cfg.bandwidth now p
        { s with avail := credited cfg.proxyRule flushBytes s.avail }) :
      Outcome cfg p s (.tick now flushBytes expireTime)
        { s with avail := credited cfg.proxyRule flushBytes s.avail }
  | idle {now expireTime : Msec} {flushBytes : ℤ} (hqueue : s.queue = []) :
      Outcome cfg p s (.tick now flushBytes expireTime) s
  | kept {e : Event} {s' : Sending} (he : e.drives p = false) (h : Kept s s') : Outcome cfg p s e s'

theorem outcome_write (hs : Sound w) {msg : Msg} (hop : .write p msg ∈ w.outstanding)
    (hf : handleWrite ((w.dispatch (.write p msg) .success).view cfg) cfg.bandwidth p .success
      (w.dispatch (.write p msg) .success).frame = .ok f) (hopen : f.conn.closeFlag = false) :
    Outcome cfg p (outgoing p w) (.write p msg .success)
      (outgoing p ((w.dispatch (.write p msg) .success).leave f)) := by
  obtain ⟨hmem, -⟩ := direction_dispatch_write .success hop
  have hwriting : w.conn.writingFlagPair p = true := (hs.relay p).writing_of_write hmem
  rcases handleWrite_success hf with ⟨hw, -⟩ | ⟨m, rest, -, -, ⟨-, -, rfl⟩ | hstart⟩
  · exact absurd (hwriting.symm.trans hw) (by decide)
  · cases hopen
  · have hbase : sending p (resumeRead p (popMsg p m rest (w.dispatch (.write p msg) .success).frame)) =
        { sending p w.frame with queue := rest, pops := 1 } := by
      rw [sending_resumeRead]
      simp [sending, popMsg, isPop, isStart, World.frame, World.dispatch]
    rcases sending_startWrite hstart with hstarted | ⟨heq, -⟩
    · rw [hbase] at hstarted
      rw [outgoing_leave]
      refine .popped ?_ (fun _ => ?_) hstarted.avail
      · exact congrArg (_ + ·) hstarted.pops
      · dsimp only
        rw [hstarted.flights]
        omega
    · rw [outgoing_leave, heq, hbase]
      exact .popped rfl (fun hset => absurd hset Bool.false_ne_true) fun _ => rfl

theorem outcome_tick {now expireTime : Msec} {flushBytes : ℤ} {alive : Bool}
    (hf : flushMsgs ⟨cfg.proxyRule, now⟩ cfg.bandwidth flushBytes expireTime w.frame = .ok (alive, f))
    (hopen : f.conn.closeFlag = false) : Outcome cfg p (outgoing p w) (.tick now flushBytes expireTime)
      (outgoing p (World.leave { w with now := now } f)) := by
  rcases flushMsgs_cases hf with ⟨hclosed, -, rfl⟩ | ⟨-, -, -, rfl⟩ | ⟨-, -, -, ⟨-, hempty, rfl⟩ | ⟨g, h0, h1⟩⟩
  · exact absurd (hopen.symm.trans hclosed) (by decide)
  · cases hopen
  · refine .idle ?_
    simp only [queuesEmpty, Bool.and_eq_true, List.isEmpty_iff] at hempty
    rcases PairId.eq_or_other 0 p with rfl | rfl
    · exact hempty.1
    · exact hempty.2
  · obtain ⟨u, u', hu, hu', hpair⟩ := sending_flushMsgs (p := p) h0 h1
    rcases sending_flushPair hpair with ⟨hidle, hstarted⟩ | ⟨hbusy, heq⟩ | ⟨-, heq, hblocked⟩
    · rw [hu] at hidle
      rw [hu, hu'] at hstarted
      exact .started hidle (Started.leave (v := { w with now := now }) hstarted)
    · rw [outgoing_leave, ← hu', heq, hu]
      refine .held fun hidle => ?_
      rw [hu] at hbusy
      exact absurd (hidle.symm.trans hbusy) (by decide)
    · rw [outgoing_leave, ← hu', heq, hu]
      rw [heq, hu] at hblocked
      exact .held fun _ => hblocked

theorem outcome_step (hs : Sound w) (h : step cfg w e = some w') (hfault : w'.fault = none)
    (hopen : w'.conn.closeFlag = false) (haborted : ∀ msg, e ≠ .write p msg .operationAborted) :
    Outcome cfg p (outgoing p w) e (outgoing p w') := by
  cases (step_cases h).2 with
  | @connect ec v hv =>
    obtain ⟨hop, hv⟩ := enter_connect hv
    refine .kept rfl (Kept.trans ?_ (kept_handleConnect ec).leave)
    obtain ⟨sockets, hsockets⟩ := connectSocket_eq w.conn
    have hdispatch : outgoing p (w.dispatch .connect ec) = outgoing p w := outgoing_dispatch ec hop rfl
    rcases hv with ⟨-, rfl⟩ | ⟨-, rfl⟩
    · refine .of_eq (Eq.trans ?_ hdispatch)
      change outgoing p { w.dispatch .connect ec with conn := connectSocket w.conn, connected := true } = _
      rw [hsockets]
      rfl
    · exact .of_eq hdispatch
  | store hop => exact .kept rfl (.of_eq rfl)
  | @read q buf ec n v hv =>
    obtain ⟨hop, -, rfl⟩ := enter_read hv
    refine .kept rfl (Kept.trans (.of_eq ?_) (kept_handleRead q ec n).leave)
    exact outgoing_dispatch ec hop rfl
  | @write q msg ec v f hv hf =>
    obtain ⟨hop, rfl⟩ := enter_write hv
    rcases PairId.eq_or_other p q with rfl | rfl
    · by_cases hec : ec = .success
      · subst hec
        exact outcome_write hs hop hf hopen
      · rcases handleWrite_failure hec hf with ⟨rfl, -⟩ | ⟨-, -, rfl⟩
        · exact absurd rfl (haborted msg)
        · cases hopen
    · refine .kept (by simp [Event.drives]) (Kept.trans (.of_eq ?_) (kept_handleWrite hf).leave)
      exact outgoing_dispatch ec hop (by simp [Op.written])
  | writeFault | tickFault => cases hfault
  | tick hf => exact outcome_tick hf hopen
  | clock | disconnect => exact .kept rfl (.of_eq rfl)
  | ip => exact .kept rfl ⟨rfl, rfl, rfl, rfl⟩
  | stop => cases hopen

end outgoing

section ranks

variable {cfg : Config} {p : PairId} {s s' : Sending} {e : Event} {target : ℕ} {due : Msec}

/-- A tick at which nothing but a write in flight keeps a message in the queue that is due at `due`. -/
def Opportune (cfg : Config) (p : PairId) (due : Msec) (ipAvail : ℤ) : Event → Prop
  | .tick now flushBytes _ => due ≤ now ∧ (0 < cfg.proxyRule.maxBandwidth → 0 < flushBytes) ∧
      (0 < cfg.bandwidth (1 - p) → 0 ≤ ipAvail)
  | _ => False

def WriteEnds (p : PairId) (e : Event) : Prop := ∃ msg ec, e = .write p msg ec

/-- The messages that are still to go, and below them what the bucket lacks before the next write. -/
def rank (target : ℕ) (s : Sending) : ℕ ×ₗ ℕ :=
  toLex (2 * (target - s.pops) + if s.writing then 0 else 1, if s.writing then 0 else (-s.avail).toNat)

structure Waiting (cfg : Config) (target : ℕ) (due : Msec) (s : Sending) : Prop where
  less : s.pops < target
  head : ∃ msg rest, s.queue = msg :: rest ∧ msg.time ≤ due
  unlimited : cfg.proxyRule.maxBandwidth ≤ 0 → 0 ≤ s.avail

theorem rank_held {now : Msec} (expireTime : Msec) {flushBytes : ℤ} (hw : Waiting cfg target due s)
    (hflush : 0 ≤ flushBytes) (hidle : s.writing = false)
    (hblocked : Blocked cfg.bandwidth now p { s with avail := credited cfg.proxyRule flushBytes s.avail }) :
    rank target { s with avail := credited cfg.proxyRule flushBytes s.avail } ≤ rank target s ∧
      (Opportune cfg p due s.ipAvail (.tick now flushBytes expireTime) →
        rank target { s with avail := credited cfg.proxyRule flushBytes s.avail } < rank target s) := by
  have hrank (avail : ℤ) : rank target { s with avail := avail } =
      toLex (2 * (target - s.pops) + 1, (-avail).toNat) := by
    simp [rank, hidle]
  have hself : rank target s = toLex (2 * (target - s.pops) + 1, (-s.avail).toNat) := hrank s.avail
  rw [hself, hrank]
  constructor
  · refine Prod.Lex.toLex_le_toLex.mpr (.inr ⟨rfl, ?_⟩)
    unfold credited
    dsimp only
    split_ifs <;> omega
  · rintro ⟨hdue, hflush, hip⟩
    refine Prod.Lex.toLex_lt_toLex.mpr (.inr ⟨rfl, ?_⟩)
    have hspent : s.avail < 0 := by
      by_contra hnot
      have hkept : credited cfg.proxyRule flushBytes s.avail = s.avail := if_neg fun h => hnot h.2
      rw [hkept] at hblocked
      rcases hblocked with havail | ⟨hlimit, havail⟩ | hearly
      · exact hnot havail
      · exact absurd (hip hlimit) (not_le.mpr havail)
      · obtain ⟨msg, rest, hqueue, htime⟩ := hw.head
        have hlate : now < msg.time := hearly msg (by simp [hqueue])
        exact absurd (htime.trans hdue) (not_le.mpr hlate)
    have hlimit : 0 < cfg.proxyRule.maxBandwidth := by
      by_contra hfree
      exact absurd (hw.unlimited (not_lt.mp hfree)) (not_le.mpr hspent)
    have hcredit : credited cfg.proxyRule flushBytes s.avail = s.avail + flushBytes := if_pos ⟨hlimit, hspent⟩
    have hpos := hflush hlimit
    dsimp only
    rw [hcredit]
    omega

theorem rank_step (hw : Waiting cfg target due s)
    (hflush : ∀ now flushBytes expireTime, e = .tick now flushBytes expireTime → 0 ≤ flushBytes)
    (h : Outcome cfg p s e s') : rank target s' < rank target s ∨
      rank target s' ≤ rank target s ∧ s'.writing = s.writing ∧
        (s.writing = true → ¬ WriteEnds p e) ∧ (s.writing = false → ¬ Opportune cfg p due s.ipAvail e) := by
  have hless := hw.less
  cases h with
  | popped hpops _ _ =>
    refine .inl (Prod.Lex.toLex_lt_toLex.mpr (.inl ?_))
    dsimp only
    split_ifs <;> omega
  | started hidle h =>
    refine .inl (Prod.Lex.toLex_lt_toLex.mpr (.inl ?_))
    dsimp only
    rw [h.pops, h.writing, hidle]
    exact Nat.lt_succ_self _
  | @held now expireTime flushBytes h =>
    cases hwriting : s.writing with
    | true =>
      refine .inr ⟨?_, rfl, fun _ => ?_, fun hidle => absurd hidle.symm Bool.false_ne_true⟩
      · unfold rank
        dsimp only
        rw [hwriting]
        exact le_refl _
      · rintro ⟨msg, ec, hwrite⟩
        cases hwrite
    | false =>
      obtain ⟨hle, hlt⟩ := rank_held expireTime hw (hflush _ _ _ rfl) hwriting (h hwriting)
      rw [← hwriting]
      by_cases hgood : Opportune cfg p due s.ipAvail (.tick now flushBytes expireTime)
      · exact .inl (hlt hgood)
      · refine .inr ⟨hle, rfl, ?_, fun _ => hgood⟩
        intro hbusy
        exact absurd (hwriting.symm.trans hbusy) Bool.false_ne_true
  | idle hqueue =>
    obtain ⟨msg, rest, hhead, -⟩ := hw.head
    rw [hqueue] at hhead
    cases hhead
  | kept he h =>
    obtain ⟨hwriting, havail, hpops, -⟩ := h
    refine .inr ⟨?_, hwriting, fun _ => ?_, fun _ => ?_⟩
    · unfold rank
      rw [hwriting, havail, hpops]
    · rintro ⟨msg, ec, rfl⟩
      simp [Event.drives] at he
    · intro hgood
      cases e with
      | tick => cases he
      | _ => exact hgood

end ranks

section delivery

variable {cfg : Config} {p : PairId} {w w' : World} {e : Event}

theorem steady_closeFlag (b : Bool) : Steady (fun f => f.conn.closeFlag = b) where
  asyncRead h := h
  asyncWrite h := h
  setWriting h := h
  setReading h := h
  chargeIp h := h
  popMsg _ h := h
  creditPair h := by
    unfold creditPair
    split
    · exact h
    · exact h
  connect h := h
  drain h := h

theorem stable_closed : Stable (fun f => f.conn.closeFlag = true) where
  toSteady := steady_closeFlag true
  stop _ := rfl

theorem closed_step (h : step cfg w e = some w') (hclosed : w.conn.closeFlag = true) : w'.conn.closeFlag = true := by
  obtain ⟨v, hv, hran⟩ := step_ran h
  obtain ⟨sockets, hconn⟩ := (enter_conn hv).1
  have hentered : v.conn.closeFlag = true := by
    rw [hconn]
    exact hclosed
  rcases hran with ⟨f, hf, rfl, -⟩ | ⟨-, heq, -⟩
  · exact stable_handler stable_closed hf hentered fun _ _ _ _ _ => hentered
  · rw [heq]
    exact hentered

theorem received_grows (hs : Sound w) (h : step cfg w e = some w') :
    w.history.received (1 - p) <+: w'.history.received (1 - p) := by
  obtain ⟨ops, hops⟩ := step_refines hs h p
  exact received_exec hops

structure Flying (cfg : Config) (s : Sending) : Prop where
  flights : s.writing = true → 0 < s.flights
  unlimited : cfg.proxyRule.maxBandwidth ≤ 0 → s.avail = 0

theorem flying_accepted (h : Accepted cfg w) : Flying cfg (outgoing p w) := by
  obtain ⟨now, clientIp, ip, heap, rfl⟩ := h
  exact ⟨fun hwriting => absurd hwriting Bool.false_ne_true, fun _ => rfl⟩

theorem Flying.step {s s' : Sending} (hs : Flying cfg s) (h : Outcome cfg p s e s') : Flying cfg s' := by
  cases h with
  | popped _ hflights havail => exact ⟨hflights, fun hfree => (havail hfree).trans (hs.unlimited hfree)⟩
  | started _ h =>
    refine ⟨fun _ => ?_, fun hfree => (h.avail hfree).trans (hs.unlimited hfree)⟩
    rw [h.flights]
    exact Nat.succ_pos _
  | held h =>
    refine ⟨hs.flights, fun hfree => Eq.trans (if_neg ?_) (hs.unlimited hfree)⟩
    exact fun hlimit => absurd hlimit.1 (not_lt.mpr hfree)
  | idle => exact hs
  | kept _ h =>
    obtain ⟨hwriting, havail, -, hflights⟩ := h
    refine ⟨?_, fun hfree => havail.trans (hs.unlimited hfree)⟩
    rw [hwriting, hflights]
    exact hs.flights

theorem enabled_of_flying (hfault : w.fault = none) (h : Flying cfg (outgoing p w))
    (hwriting : w.conn.writingFlagPair p = true) : Enabled (step cfg) (WriteEnds p) w := by
  obtain ⟨msg, hmsg⟩ := Multiset.card_pos_iff_exists_mem.mp (h.flights hwriting)
  obtain ⟨op, hop, hwritten⟩ := (Multiset.mem_filterMap _ _).mp hmsg
  have heq : op = .write p msg := by
    cases op with
    | write q m =>
      simp only [Op.written, Option.ite_none_right_eq_some, Option.some.injEq] at hwritten
      rw [hwritten.1, hwritten.2]
    | connect | read => cases hwritten
  subst heq
  exact ⟨_, _, ⟨msg, .operationAborted, rfl⟩, step_ok hfault (if_pos hop) rfl⟩

theorem mem_of_initial {α : Type} {xs ys zs : List α} {y : α} (h : xs <+: zs ++ y :: ys)
    (hlen : zs.length < xs.length) : y ∈ xs := by
  have hget : xs[zs.length]? = some y := by
    obtain ⟨rest, hrest⟩ := h
    have hleft : (xs ++ rest)[zs.length]? = xs[zs.length]? := List.getElem?_append_left hlen
    rw [← hleft, hrest]
    simp
  exact List.mem_of_getElem? hget

theorem waiting_of_open {items : List Item} {due : Msec} (hs : Sound w) (hflying : Flying cfg (outgoing p w))
    (hinitial : items <+: w.history.received (1 - p)) (hdue : ∀ x ∈ items, x.msg.time ≤ due)
    (hless : (w.history.popped p).length < items.length) : Waiting cfg items.length due (outgoing p w) := by
  refine ⟨hless, ?_, fun hfree => (hflying.unlimited hfree).ge⟩
  have hreceived : w.history.received (1 - p) = w.history.popped p ++ (w.conn.msgQueuePair p).map (item w.heap) :=
    (hs.relay p).received_eq
  rw [hreceived] at hinitial
  cases hqueue : w.conn.msgQueuePair p with
  | nil =>
    rw [hqueue, List.map_nil, List.append_nil] at hinitial
    exact absurd hinitial.length_le (not_le.mpr hless)
  | cons msg rest =>
    rw [hqueue, List.map_cons] at hinitial
    exact ⟨msg, rest, hqueue, hdue (item w.heap msg) (mem_of_initial hinitial hless)⟩

end delivery

section resting

variable {proxy : ProxyView} {bandwidth : PairId → ℤ} {f : Frame} {w : World}

structure Resting (c : TcpConnection) : Prop where
  closeFlag : c.closeFlag = false
  idle : ∀ p, c.writingFlagPair p = false
  empty : ∀ p, c.msgQueuePair p = []

theorem flushPair_resting (h : Resting f.conn) (hfree : proxy.proxyRule.maxBandwidth ≤ 0) (flushBytes : ℤ)
    (p : PairId) : flushPair proxy bandwidth flushBytes p f = .ok f := by
  have hcredit : creditPair proxy flushBytes p f = f := if_neg fun hspent => absurd hspent.1 (not_lt.mpr hfree)
  have hclear : setWriting p false f = f := by
    unfold setWriting
    rw [← h.idle p, Function.update_eq_self]
  rw [flushPair_eq, if_pos (h.idle p), hcredit]
  unfold startWrite
  rw [h.empty p]
  exact congrArg _ hclear

theorem tick_resting (hfault : w.fault = none) (h : Resting w.conn) {expireTime : Msec}
    (hactive : expireTime ≤ w.conn.activeTime) (now : Msec) (flushBytes : ℤ) :
    step plain w (.tick now flushBytes expireTime) = some { w with now := now } := by
  have hpair (p : PairId) : flushPair ⟨plain.proxyRule, now⟩ plain.bandwidth flushBytes p w.frame = .ok w.frame :=
    flushPair_resting h (le_refl _) flushBytes p
  have hflush : flushMsgs ⟨plain.proxyRule, now⟩ plain.bandwidth flushBytes expireTime w.frame =
      .ok (true, w.frame) := by
    unfold flushMsgs
    have hopen : ¬ w.frame.conn.closeFlag = true := ne_true_of_eq_false h.closeFlag
    have hlive : ¬ w.frame.conn.activeTime < expireTime := not_lt.mpr hactive
    rw [if_neg hopen, if_neg hlive]
    split
    · rfl
    · rw [hpair 0]
      simp only [bind, Except.bind, hpair 1]
      rfl
  refine (step_ok hfault (v := { w with now := now }) (f := w.frame) rfl ?_).trans rfl
  exact congrArg (fun r => some (Except.map Prod.snd r)) hflush

theorem exists_resting (hfault : w.fault = none) (h : Resting w.conn) {expireTime : Msec}
    (hactive : expireTime ≤ w.conn.activeTime) : ∃ r : Run (step plain), r.state 0 = w ∧
      (∀ n, r.event n = .tick (w.now + n + 1) 0 expireTime) ∧ ∀ n, r.state n = { w with now := w.now + n } := by
  refine ⟨⟨fun n => { w with now := w.now + n }, fun n => .tick (w.now + n + 1) 0 expireTime, fun n => ?_⟩, ?_,
    fun _ => rfl, fun _ => rfl⟩
  · refine (tick_resting hfault h hactive _ _).trans ?_
    push_cast
    rw [add_assoc]
  · dsimp only
    rw [Nat.cast_zero, add_zero]

end resting

def Event.orderly : Event → Bool
  | .write _ _ ec => ec ≠ .operationAborted
  | .tick _ flushBytes _ => 0 ≤ flushBytes
  | _ => true

def delivered : List Event :=
  [.connect .success, .store 0 1 [104, 105], .read 0 1 .success 2, .tick 10 5 0, .write 1 ⟨0, ⟨1, 2⟩⟩ .success]

end TcpUdpProxy.TcpMachine
