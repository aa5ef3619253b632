import TcpUdpProxy.Library.TokenBucket
import TcpUdpProxy.TcpInvariant

namespace TcpUdpProxy.TcpMachine

open TcpConnection Execution

def maxCost : ℤ := tcpBufferSize + tcpPacketExtraOverhead

def cost (items : List Item) : ℤ := (items.map (fun x => x.msg.cost)).sum

@[simp] theorem cost_append (xs ys : List Item) : cost (xs ++ ys) = cost xs + cost ys := by
  simp [cost]

def flushOf : Event → Option ℤ
  | .tick _ flushBytes _ => some flushBytes
  | _ => none

def flushed (es : List Event) : ℤ := (es.filterMap flushOf).sum

def largestFlush (es : List Event) : ℤ := (es.filterMap flushOf).foldr max 0

def Sized (w : World) : Prop :=
  ∀ p, ∀ msg ∈ w.conn.msgQueuePair p, msg.buffer.bufSize ≤ tcpBufferSize

/-- `w'` is reached from `w` by credits of together at most `credit` and by paying for each
write that is started on `p`. -/
def Pays (largest credit : ℤ) (p : PairId) (w w' : World) : Prop :=
  ∃ ops new, exec TokenBucket.step (w.conn.availableBytesPair p) ops =
      some (w'.conn.availableBytesPair p) ∧
    (∀ op ∈ ops, op.Within largest maxCost) ∧
    w'.history.started p = w.history.started p ++ new ∧
    TokenBucket.spent ops = cost new ∧ TokenBucket.offered ops ≤ credit

section pays

variable {largest credit : ℤ} {p q : PairId} {u v w : World}

theorem Pays.same (hcredit : 0 ≤ credit)
    (havail : w.conn.availableBytesPair p = v.conn.availableBytesPair p)
    (hstarted : w.history.started p = v.history.started p) : Pays largest credit p v w :=
  ⟨[], [], by rw [havail]; rfl, by simp, by simp [hstarted], rfl, hcredit⟩

theorem Pays.trans {credit' : ℤ} (h : Pays largest credit p u v) (h' : Pays largest credit' p v w) :
    Pays largest (credit + credit') p u w := by
  obtain ⟨as, xs, ha, hwa, hsa, hpa, hca⟩ := h
  obtain ⟨bs, ys, hb, hwb, hsb, hpb, hcb⟩ := h'
  refine ⟨as ++ bs, xs ++ ys, exec_append_some.mpr ⟨_, ha, hb⟩, ?_, ?_, ?_, ?_⟩
  · intro op hop
    rcases List.mem_append.mp hop with hop | hop
    · exact hwa op hop
    · exact hwb op hop
  · rw [hsb, hsa, List.append_assoc]
  · rw [TokenBucket.spent_append, hpa, hpb, cost_append]
  · rw [TokenBucket.offered_append]
    omega

theorem Pays.mono {credit' : ℤ} (h : Pays largest credit p v w) (hle : credit ≤ credit') :
    Pays largest credit' p v w := by
  obtain ⟨ops, new, hexec, hops, hstarted, hspent, hoffered⟩ := h
  exact ⟨ops, new, hexec, hops, hstarted, hspent, hoffered.trans hle⟩

end pays

section handlers

variable {largest : ℤ} {proxy : ProxyView} {bandwidth : PairId → ℤ} {w : World} {p q : PairId}
  {f f' : Frame}

def bill (p : PairId) (w : World) (f : Frame) : ℤ × List Item :=
  (f.conn.availableBytesPair p, (f.actions.foldl (History.note w.heap) w.history).started p)

theorem bill_stop : bill p w (stop f) = bill p w f := by
  simp [bill, stop, History.note]

theorem bill_asyncRead : bill p w (asyncRead q f) = bill p w f := by
  simp [bill, asyncRead, History.note]

theorem bill_popMsg (msg : Msg) (rest : List Msg) : bill p w (popMsg q msg rest f) = bill p w f := by
  simp [bill, popMsg, History.note]

theorem bill_pushMsg (activeTime : Msec) (msg : Msg) :
    bill p w (pushMsg q activeTime msg f) = bill p w f := by
  simp [bill, pushMsg, History.note]

theorem bill_chargeIp (msg : Msg) : bill p w (chargeIp q msg f) = bill p w f := by
  simp [bill, chargeIp, History.note]

theorem bill_resumeRead : bill p w (resumeRead q f) = bill p w f := by
  unfold resumeRead
  split
  · rw [bill_asyncRead]
    rfl
  · rfl

theorem bill_asyncWrite (hlimit : 0 < proxy.proxyRule.maxBandwidth) (msg : Msg) :
    bill p w (asyncWrite proxy p msg f) =
      ((bill p w f).1 - msg.cost, (bill p w f).2 ++ [item w.heap msg]) := by
  simp [bill, asyncWrite, setWriting, History.note, snoc, hlimit]

theorem bill_asyncWrite_other (msg : Msg) :
    bill p w (asyncWrite proxy (1 - p) msg f) = bill p w f := by
  simp only [bill, asyncWrite, setWriting, History.note, snoc, List.foldl_append, List.foldl_cons,
    List.foldl_nil]
  split <;> simp

theorem Pays.of_bill {credit : ℤ} (hcredit : 0 ≤ credit) (h : bill p w f' = bill p w f) :
    Pays largest credit p (w.leave f) (w.leave f') :=
  Pays.same hcredit (congrArg Prod.fst h) (congrArg Prod.snd h)

theorem cost_within {msg : Msg} (h : msg.buffer.bufSize ≤ tcpBufferSize) :
    (TokenBucket.Op.spend msg.cost).Within largest maxCost := by
  have hsize : (msg.buffer.bufSize : ℤ) ≤ tcpBufferSize := by exact_mod_cast h
  unfold TokenBucket.Op.Within maxCost Msg.cost tcpPacketExtraOverhead
  omega

theorem pays_startWrite (hlimit : 0 < proxy.proxyRule.maxBandwidth)
    (hsize : ∀ msg ∈ f.conn.msgQueuePair q, msg.buffer.bufSize ≤ tcpBufferSize)
    (h : startWrite proxy bandwidth q f = .ok f') : Pays largest 0 p (w.leave f) (w.leave f') := by
  rcases startWrite_cases h with rfl | ⟨msg, rest, g, hq, havail, -, hg, rfl⟩
  · exact Pays.of_bill (le_refl _) rfl
  · have hsame : bill p w g = bill p w f := by
      rcases hg with rfl | rfl
      · rfl
      · exact bill_chargeIp msg
    rcases PairId.eq_or_other p q with rfl | rfl
    · have hbill := bill_asyncWrite (w := w) (p := q) (f := g) hlimit msg
      rw [hsame] at hbill
      refine ⟨[.spend msg.cost], [item w.heap msg], ?_, ?_, congrArg Prod.snd hbill, ?_, le_refl _⟩
      · rw [exec_single]
        simp only [TokenBucket.step]
        have hpos : 0 ≤ (w.leave f).conn.availableBytesPair q := havail
        rw [if_pos hpos]
        exact congrArg some (congrArg Prod.fst hbill).symm
      · intro op hop
        rw [List.mem_singleton.mp hop]
        exact cost_within (hsize msg (by simp [hq]))
      · simp [TokenBucket.spent, TokenBucket.Op.spent, cost, item]
    · exact Pays.of_bill (le_refl _) ((bill_asyncWrite_other msg).trans hsame)

theorem resumeRead_msgQueuePair (f : Frame) :
    (resumeRead q f).conn.msgQueuePair = f.conn.msgQueuePair := by
  unfold resumeRead
  split <;> rfl

theorem creditPair_msgQueuePair (flushBytes : ℤ) (f : Frame) :
    (creditPair proxy flushBytes q f).conn.msgQueuePair = f.conn.msgQueuePair := by
  unfold creditPair
  split <;> rfl

theorem pays_handleWrite (hlimit : 0 < proxy.proxyRule.maxBandwidth)
    (hsize : ∀ msg ∈ f.conn.msgQueuePair q, msg.buffer.bufSize ≤ tcpBufferSize)
    (h : handleWrite proxy bandwidth q .success f = .ok f') :
    Pays largest 0 p (w.leave f) (w.leave f') := by
  rcases handleWrite_success h with ⟨-, hs⟩ | ⟨m, rest, -, hq, ⟨-, -, rfl⟩ | hs⟩
  · exact pays_startWrite hlimit hsize hs
  · apply Pays.of_bill (le_refl _)
    rw [bill_stop, bill_popMsg]
  · have hpop : Pays largest 0 p (w.leave f) (w.leave (resumeRead q (popMsg q m rest f))) := by
      apply Pays.of_bill (le_refl _)
      rw [bill_resumeRead, bill_popMsg]
    apply hpop.trans (pays_startWrite hlimit _ hs)
    intro msg hmsg
    rw [resumeRead_msgQueuePair] at hmsg
    have hrest : msg ∈ rest := by simpa [popMsg] using hmsg
    exact hsize msg (by simp [hq, hrest])

theorem pays_creditPair {flushBytes : ℤ} (hlimit : 0 < proxy.proxyRule.maxBandwidth)
    (hflush : 0 ≤ flushBytes) (hlargest : flushBytes ≤ largest) :
    Pays largest (if p = q then flushBytes else 0) p (w.leave f)
      (w.leave (creditPair proxy flushBytes q f)) := by
  rcases PairId.eq_or_other p q with rfl | rfl
  · rw [if_pos rfl]
    refine ⟨[.credit flushBytes], [], ?_, ?_, ?_, rfl, by simp [TokenBucket.offered, TokenBucket.Op.offered]⟩
    · simp only [exec_single, TokenBucket.step, creditPair, World.leave]
      by_cases hdebt : f.conn.availableBytesPair q < 0
      · rw [if_pos hdebt, if_pos ⟨hlimit, hdebt⟩]
        simp
      · rw [if_neg hdebt, if_neg (fun h => hdebt h.2)]
    · intro op hop
      rw [List.mem_singleton.mp hop]
      exact ⟨hflush, hlargest⟩
    · unfold creditPair
      split <;> simp [World.leave]
  · rw [if_neg (PairId.ne_other p)]
    apply Pays.of_bill (le_refl _)
    unfold creditPair
    split
    · simp [bill]
    · rfl

theorem pays_flushPair {flushBytes : ℤ} (hlimit : 0 < proxy.proxyRule.maxBandwidth)
    (hflush : 0 ≤ flushBytes) (hlargest : flushBytes ≤ largest)
    (hsize : ∀ msg ∈ f.conn.msgQueuePair q, msg.buffer.bufSize ≤ tcpBufferSize)
    (h : flushPair proxy bandwidth flushBytes q f = .ok f') :
    Pays largest (if p = q then flushBytes else 0) p (w.leave f) (w.leave f') := by
  have hcredit := pays_creditPair (w := w) (p := p) (q := q) (f := f) hlimit hflush hlargest
  rw [flushPair_eq] at h
  split at h
  · rw [← creditPair_msgQueuePair flushBytes f] at hsize
    have hpaid := hcredit.trans (pays_startWrite hlimit hsize h)
    rwa [add_zero] at hpaid
  · cases h
    exact hcredit

def Fits (f : Frame) : Prop :=
  ∀ p, ∀ msg ∈ f.conn.msgQueuePair p, msg.buffer.bufSize ≤ tcpBufferSize

theorem stable_fits : Stable Fits where
  asyncRead h := h
  asyncWrite h := h
  setWriting h := h
  setReading h := h
  chargeIp h := h
  popMsg {p m rest f} hq h q msg hmsg := by
    by_cases hp : q = p
    · subst hp
      have hrest : msg ∈ rest := by simpa [popMsg] using hmsg
      exact h q msg (by simp [hq, hrest])
    · exact h q msg (by simpa [popMsg, hp] using hmsg)
  creditPair {proxy flushBytes p f} h q := by
    rw [creditPair_msgQueuePair]
    exact h q
  connect h := h
  drain h := h
  stop h := h

theorem fits_pushMsg {n : ℕ} (hn : n ≤ tcpBufferSize) (h : Fits f) (activeTime : Msec) :
    Fits (pushMsg q activeTime (readMsg proxy q n f.conn) f) := by
  intro p msg hmsg
  by_cases hp : p = 1 - q
  · subst hp
    have hmsg : msg ∈ f.conn.msgQueuePair (1 - q) ++ [readMsg proxy q n f.conn] := by
      simpa [pushMsg] using hmsg
    rcases List.mem_append.mp hmsg with hold | hnew
    · exact h _ msg hold
    · rw [List.mem_singleton.mp hnew]
      exact hn
  · exact h p msg (by simpa [pushMsg, hp] using hmsg)

end handlers

section runs

variable {cfg : Config} {w w' : World} {e : Event}

theorem sized_accepted (h : Accepted cfg w) : Sized w := by
  obtain ⟨now, clientIp, ip, heap, rfl⟩ := h
  intro p msg hmsg
  simp [accepted, create] at hmsg

theorem sized_step (hw : Sized w) (h : step cfg w e = some w') : Sized w' := by
  have hfits : Fits w.frame := hw
  cases (step_cases h).2 with
  | @connect ec v hv =>
    have hentered : Fits v.frame := by
      obtain ⟨-, ⟨rfl, rfl⟩ | ⟨-, rfl⟩⟩ := enter_connect hv
      · intro p
        rw [show (World.frame _).conn = connectSocket w.conn from rfl,
          (connectSocket_msgQueuePair w.conn).1]
        exact hw p
      · exact hw
    exact stable_fits.handleConnect hentered
  | read hv =>
    obtain ⟨-, hn, rfl⟩ := enter_read hv
    exact stable_fits.handleRead hfits (fits_pushMsg hn hfits)
  | write hv hf =>
    obtain ⟨-, rfl⟩ := enter_write hv
    exact stable_fits.handleWrite hfits hf
  | writeFault hv hf =>
    obtain ⟨-, rfl⟩ := enter_write hv
    exact hw
  | tick hf => exact stable_fits.flushMsgs hfits hf
  | _ => exact hw

theorem step_pays {largest : ℤ} (hlimit : 0 < cfg.proxyRule.maxBandwidth) (hw : Sized w)
    (hflush : ∀ f ∈ flushOf e, 0 ≤ f ∧ f ≤ largest) (h : step cfg w e = some w') (p : PairId) :
    Pays largest ((flushOf e).getD 0) p w w' := by
  cases (step_cases h).2 with
  | @connect ec v hv =>
    obtain ⟨-, ⟨rfl, rfl⟩ | ⟨hec, rfl⟩⟩ := enter_connect hv
    · have hsocket : (connectSocket w.conn).availableBytesPair = w.conn.availableBytesPair := by
        unfold connectSocket
        split <;> rfl
      apply Pays.same (le_refl _)
      · simp only [handleConnect, ne_eq, not_true_eq_false, if_false]
        exact congrFun hsocket p
      · simp [World.leave, handleConnect, asyncRead, World.frame, History.note, World.dispatch]
    · apply Pays.of_bill (w := w.dispatch .connect ec) (f := w.frame) (le_refl _)
      rcases handleConnect_failure (World.view cfg (w.dispatch .connect ec)) w.frame hec with h | h
      · exact congrArg (bill p _) h
      · exact (congrArg (bill p _) h).trans bill_stop
  | @read q buf ec n v hv =>
    obtain ⟨-, -, rfl⟩ := enter_read hv
    set v := (w.dispatch (.read q buf) ec).arrive q ec ⟨buf, n⟩
    have hbill : bill p v (handleRead (v.view cfg) q ec n v.frame) = bill p v v.frame := by
      by_cases hec : ec = .success
      · subst hec
        obtain ⟨activeTime, ⟨-, h⟩ | ⟨-, h⟩⟩ := handleRead_success (v.view cfg) q v.frame n
        · rw [h]
          exact bill_pushMsg (q := q) (f := v.frame) activeTime _
        · rw [h, bill_asyncRead, bill_pushMsg]
      · rcases handleRead_failure (v.view cfg) q v.frame hec n with ⟨-, h⟩ | ⟨-, -, h⟩ | ⟨-, -, h⟩
        · rw [h]
        · rw [h]
          rfl
        · rw [h, bill_stop]
    exact Pays.of_bill (le_refl _) hbill
  | @write q msg ec v f hv hf =>
    obtain ⟨-, rfl⟩ := enter_write hv
    by_cases hec : ec = .success
    · subst hec
      exact pays_handleWrite (w := w.dispatch (.write q msg) .success) hlimit (hw q) hf
    · rcases handleWrite_failure hec hf with ⟨-, rfl⟩ | ⟨-, -, rfl⟩
      · exact Pays.same (le_refl _) rfl rfl
      · exact Pays.of_bill (w := w.dispatch (.write q msg) ec) (f := w.frame) (le_refl _) bill_stop
  | writeFault hv hf =>
    obtain ⟨-, rfl⟩ := enter_write hv
    exact Pays.same (le_refl _) rfl rfl
  | @tick now expireTime flushBytes alive f hf =>
    obtain ⟨hpos, hlargest⟩ := hflush flushBytes rfl
    rcases flushMsgs_cases hf with
      ⟨-, -, rfl⟩ | ⟨-, -, -, rfl⟩ | ⟨-, -, -, ⟨-, -, rfl⟩ | ⟨g, h0, h1⟩⟩
    · exact Pays.same hpos rfl rfl
    · exact Pays.of_bill (w := { w with now := now }) (f := w.frame) hpos bill_stop
    · exact Pays.same hpos rfl rfl
    · have hfits : Fits w.frame := hw
      have hfirst := pays_flushPair (w := { w with now := now }) (p := p) hlimit hpos hlargest
        (hw 0) h0
      have hsecond := pays_flushPair (w := { w with now := now }) (p := p) hlimit hpos hlargest
        (stable_fits.flushPair hfits h0 1) h1
      apply (hfirst.trans hsecond).mono
      rcases PairId.eq_or_other 0 p with rfl | rfl <;> simp [flushOf]
  | tickFault hf => exact Pays.same (hflush _ rfl).1 rfl rfl
  | stop => exact Pays.of_bill (w := w) (f := w.frame) (le_refl _) bill_stop
  | _ => exact Pays.same (le_refl _) rfl rfl

theorem exec_pays {largest : ℤ} {es : List Event} (hlimit : 0 < cfg.proxyRule.maxBandwidth)
    (hw : Sized w) (hflush : ∀ f ∈ es.filterMap flushOf, 0 ≤ f ∧ f ≤ largest)
    (h : exec (step cfg) w es = some w') (p : PairId) : Pays largest (flushed es) p w w' := by
  induction es generalizing w with
  | nil =>
    cases h
    exact Pays.same (le_refl _) rfl rfl
  | cons e es ih =>
    obtain ⟨v, hv, h⟩ := exec_cons_some.mp h
    have hfirst : ∀ f ∈ flushOf e, 0 ≤ f ∧ f ≤ largest := by
      intro f hf
      exact hflush f (List.mem_filterMap.mpr ⟨e, by simp, hf⟩)
    have hrest : ∀ f ∈ es.filterMap flushOf, 0 ≤ f ∧ f ≤ largest := by
      intro f hf
      obtain ⟨e', he', hf⟩ := List.mem_filterMap.mp hf
      exact hflush f (List.mem_filterMap.mpr ⟨e', by simp [he'], hf⟩)
    apply ((step_pays hlimit hw hfirst hv p).trans (ih (sized_step hw hv) hrest h)).mono
    cases hf : flushOf e <;> simp [flushed, hf]

theorem le_largestFlush (es : List Event) : ∀ f ∈ es.filterMap flushOf, f ≤ largestFlush es :=
  TokenBucket.le_largest

theorem bandwidth_window {w₀ w₁ w₂ : World} {before window : List Event}
    (hlimit : 0 < cfg.proxyRule.maxBandwidth) (h₀ : Accepted cfg w₀)
    (hflush : ∀ f ∈ (before ++ window).filterMap flushOf, 0 ≤ f)
    (h₁ : exec (step cfg) w₀ before = some w₁) (h₂ : exec (step cfg) w₁ window = some w₂)
    (p : PairId) :
    (∃ new, w₂.history.started p = w₁.history.started p ++ new ∧
      cost new ≤ flushed window + max 0 (largestFlush (before ++ window) - 1) +
        tcpBufferSize + tcpPacketExtraOverhead) ∧
    -(tcpBufferSize + tcpPacketExtraOverhead) ≤ w₂.conn.availableBytesPair p ∧
    w₂.conn.availableBytesPair p ≤ max 0 (largestFlush (before ++ window) - 1) := by
  have hbounds : ∀ f ∈ (before ++ window).filterMap flushOf,
      0 ≤ f ∧ f ≤ largestFlush (before ++ window) :=
    fun f hf => ⟨hflush f hf, le_largestFlush _ f hf⟩
  rw [List.filterMap_append] at hbounds
  have hsized₁ : Sized w₁ := exec_invariant (fun _ _ _ => sized_step) h₁ (sized_accepted h₀)
  obtain ⟨ops₁, -, hops₁, hwithin₁, -⟩ := exec_pays hlimit (sized_accepted h₀)
    (fun f hf => hbounds f (List.mem_append_left _ hf)) h₁ p
  obtain ⟨ops₂, new, hops₂, hwithin₂, hstarted, hspent, hoffered⟩ := exec_pays hlimit hsized₁
    (fun f hf => hbounds f (List.mem_append_right _ hf)) h₂ p
  have hzero : w₀.conn.availableBytesPair p = 0 := by
    obtain ⟨now, clientIp, ip, heap, rfl⟩ := h₀
    rfl
  rw [hzero] at hops₁
  have hstart : TokenBucket.Bounded (largestFlush (before ++ window)) maxCost
      (w₁.conn.availableBytesPair p) :=
    TokenBucket.bounded_exec (TokenBucket.bounded_zero (by decide)) hwithin₁ hops₁
  have hend := TokenBucket.bounded_exec hstart hwithin₂ hops₂
  have hwindow := TokenBucket.spent_window hstart hwithin₂ hops₂
  refine ⟨⟨new, hstarted, ?_⟩, hend.1, hend.2⟩
  rw [hspent] at hwindow
  unfold maxCost at hwindow
  omega

end runs

def limited : Config := ⟨⟨3443, ⟨1, 3443⟩, 100, 0⟩, fun _ => 0⟩

def limitedStart : World := accepted limited 0 none IPProxy.create fun _ _ => 0

def firstWrite : List Event :=
  [.connect .success, .store 0 1 [104, 105], .read 0 1 .success 2, .tick 10 1 0]

def secondWrite : List Event :=
  [.write 1 ⟨0, ⟨1, 2⟩⟩ .success, .read 0 3 .success 5, .tick 510 50 0, .tick 610 10 0]

theorem bandwidth_window_second :
    cost ((after limited limitedStart (firstWrite ++ secondWrite)).history.started 1) = 115 ∧
    ∃ new, (after limited limitedStart (firstWrite ++ secondWrite)).history.started 1 =
        (after limited limitedStart firstWrite).history.started 1 ++ new ∧
      cost new ≤ 60 + 49 + 4096 + 54 := by
  have hlimit : 0 < limited.proxyRule.maxBandwidth := by decide
  have hflush : ∀ f ∈ (firstWrite ++ secondWrite).filterMap flushOf, 0 ≤ f := by decide
  have hfirst : exec (step limited) limitedStart firstWrite =
    some (after limited limitedStart firstWrite) := rfl
  have hsecond : exec (step limited) (after limited limitedStart firstWrite) secondWrite =
    some (after limited limitedStart (firstWrite ++ secondWrite)) := rfl
  refine ⟨by decide, ?_⟩
  exact (bandwidth_window hlimit ⟨0, none, _, _, rfl⟩ hflush hfirst hsecond 1).1

end TcpUdpProxy.TcpMachine
