import TcpUdpProxy.Library.TokenBucket
import TcpUdpProxy.UdpEndpoints
import TcpUdpProxy.UdpRelay

namespace TcpUdpProxy.UdpServer

open UdpEndpointProxy Execution

def maxCost : ℤ := udpBufferSize + udpPacketExtraOverhead

def Sized (e : UdpEndpointProxy) : Prop :=
  (∀ r ∈ e.proxySocket.ready, r.bytesTransferred ≤ udpBufferSize) ∧
    ∀ msg ∈ e.recvQueue ++ e.sendQueue, msg.msg.bufSize ≤ udpBufferSize

variable {cfg : Config} {w w' w₀ : World} {ev : Event} {id rid : EptId} {e e' : UdpEndpointProxy}
  {key : Endpoint} {msg : UdpMsg} {es : List Event}

theorem Sized.congr (h : Sized e) (hready : Inherits e'.proxySocket e.proxySocket)
    (hqueues : ∀ msg ∈ e'.recvQueue ++ e'.sendQueue, msg ∈ e.recvQueue ++ e.sendQueue) : Sized e' := by
  constructor
  · intro r hr
    rcases hready r hr with hr | ⟨-, hzero⟩
    · exact h.1 r hr
    · rw [hzero]
      exact Nat.zero_le _
  · exact fun msg hmsg => h.2 msg (hqueues msg hmsg)

theorem Sized.pushSend (h : Sized e) (hmsg : msg.msg.bufSize ≤ udpBufferSize) : Sized (pushSend msg e) := by
  rw [pushSend_eq]
  refine ⟨h.1, ?_⟩
  intro msg' hmsg'
  rcases List.mem_append.mp hmsg' with hin | hin
  · exact h.2 msg' (List.mem_append_left _ hin)
  · rcases List.mem_append.mp hin with hin | hin
    · exact h.2 msg' (List.mem_append_right _ hin)
    · split at hin
      · obtain rfl := List.mem_singleton.mp hin
        exact hmsg
      · cases hin

theorem sized_create (bandwidth : PairId → ℤ) (rule : UdpProxyRule) (buf : BufId) (outcome : InitOutcome)
    (now : Msec) : Sized (create bandwidth rule buf outcome now) := by
  constructor
  · intro r hr
    rcases inherits_init outcome now _ r hr with hr | ⟨-, hzero⟩
    · cases hr
    · rw [hzero]
      exact Nat.zero_le _
  · obtain ⟨s, t, heq⟩ := create_eq bandwidth rule buf outcome now
    simp [heq]

theorem popping_head (h : popping cfg w = some (rid, key, msg)) :
    ∃ e, w.epts rid = some e ∧ msg ∈ e.recvQueue := by
  obtain ⟨todo, e, -, he, hverdict⟩ := popping_cases h
  obtain ⟨rest, hqueue, -⟩ := recvVerdict_take hverdict
  exact ⟨e, he, by simp [hqueue]⟩

theorem sized_handled {r : RecvResult} {draw : ℤ} {outcome : InitOutcome} (h : Sized e)
    (hr : r ∈ e.proxySocket.ready) : Sized (handled w r draw outcome e).1 := by
  have hready : Inherits (handled w r draw outcome e).1.proxySocket e.proxySocket :=
    (inherits_handled w r draw outcome e).trans fun _ hr' => .inl (List.mem_of_mem_erase hr')
  rcases handled_cases w r draw outcome e with ⟨s, t, heq⟩ | ⟨-, -, s, f, heq⟩
  · apply h.congr hready
    rw [heq]
    exact fun _ hmsg => hmsg
  · have hkept : Sized { e with proxySocket := (handled w r draw outcome e).1.proxySocket } :=
      h.congr hready fun _ hmsg => hmsg
    refine ⟨hkept.1, ?_⟩
    rw [heq]
    intro msg hmsg
    simp only [List.mem_append, List.mem_singleton] at hmsg
    rcases hmsg with (hin | rfl) | hin
    · exact h.2 msg (List.mem_append_left _ hin)
    · exact h.1 r hr
    · exact h.2 msg (List.mem_append_right _ hin)

theorem sized_run (h₀ : Initial w₀) (h : exec (step cfg) w₀ es = some w) :
    ∀ id e, w.epts id = some e → Sized e := by
  apply endpoints_run (P := Sized) _ h₀ h
  intro w ev id e' hk hw hbecame
  cases hbecame with
  | same he => exact hw id _ he
  | added => exact sized_create _ _ _ _ _
  | credited hev hphase hkey hlookup he =>
    apply (hw id _ he).congr
    · unfold credit
      split <;> exact .refl _
    · rw [recvQueue_credit, (sendQueue_credit _ _).1]
      exact fun _ hmsg => hmsg
  | @popped outcome key todo e msg hev hphase he =>
    apply (hw id _ he).congr
    · apply (inherits_popRecv _).trans
      unfold debitRecv
      split <;> exact .refl _
    · rw [recvQueue_popRecv, recvQueue_debitRecv, (sendQueue_debitRecv msg e).1]
      intro msg' hmsg'
      rcases List.mem_append.mp hmsg' with hin | hin
      · exact List.mem_append_left _ (List.mem_of_mem_tail hin)
      · exact List.mem_append_right _ hin
  | @handed outcome key rid msg e hev hpop hne hsender he =>
    obtain ⟨e₀, he₀, hmsg⟩ := popping_head hpop
    obtain ⟨t, heq⟩ := touch_eq w.now e
    rw [heq]
    exact Sized.pushSend (hw id e he) ((hw rid e₀ he₀).2 msg (List.mem_append_left _ hmsg))
  | @made outcome key rid msg e hev hpop he =>
    obtain ⟨e₀, he₀, hmsg⟩ := popping_head hpop
    exact (sized_create _ _ _ _ _).pushSend ((hw rid e₀ he₀).2 msg (List.mem_append_left _ hmsg))
  | @restarted error outcome msg e hev herror hsend he =>
    apply (hw id e he).congr (inherits_restart _ _ _)
    obtain ⟨s, t, heq⟩ := restart_eq outcome w.clock e
    rw [heq]
    exact fun _ hmsg => hmsg
  | @sent outcome msg e hev hsend he =>
    refine ⟨(hw id e he).1, ?_⟩
    intro msg' hmsg'
    rcases List.mem_append.mp hmsg' with hin | hin
    · exact (hw id e he).2 msg' (List.mem_append_left _ hin)
    · exact (hw id e he).2 msg' (List.mem_append_right _ (List.mem_of_mem_tail hin))
  | stopped hev hphase he => exact (hw id _ he).congr (inherits_close _) fun _ hmsg => hmsg
  | @arrived buf src data e hev he hbuf hlen =>
    refine ⟨?_, (hw id e he).2⟩
    intro r hr
    rcases List.mem_append.mp hr with hr | hr
    · exact (hw id e he).1 r hr
    · obtain rfl := List.mem_singleton.mp hr
      exact hlen
  | @failed buf error e hev he hbuf herror =>
    refine (hw id e he).congr ?_ fun _ hmsg => hmsg
    intro r hr
    rcases List.mem_append.mp hr with hr | hr
    · exact .inl hr
    · obtain rfl := List.mem_singleton.mp hr
      exact .inr ⟨herror, rfl⟩
  | handled hev he hr => exact sized_handled (hw id _ he) hr

section buckets

def popped (cfg : Config) (id : EptId) (w : World) : Event → List UdpMsg
  | .relay _ =>
    match popping cfg w with
    | some (rid, _, msg) => if rid = id then [msg] else []
    | none => []
  | _ => []

def delivered (cfg : Config) (id : EptId) (w : World) : Event → List UdpMsg
  | .flush error _ =>
    match sending cfg w with
    | some (sid, msg) => if sid = id ∧ error = .success then [msg] else []
    | none => []
  | _ => []

/-- As in `avail_bytes`, 0 stands for sending and 1 for receiving. -/
def traffic (cfg : Config) (id : EptId) (i : PairId) : World → Event → List UdpMsg :=
  if i = 0 then delivered cfg id else popped cfg id

def budget (i : PairId) (e : UdpEndpointProxy) : ℤ := if i = 0 then e.sendAvailBytes else e.recvAvailBytes

def tickBytes (rule : UdpProxyRule) (interval : Msec) : ℤ := (interval * rule.maxBandwidth).tdiv 1000

def credits (cfg : Config) (id : EptId) (w : World) : Event → List ℤ
  | .visit key =>
    if w.endpoints.lookup key = some id then
      match w.epts id with
      | some e => if expired cfg w e then [] else [tickBytes e.proxyRule w.interval]
      | none => []
    else []
  | _ => []

def ops (cfg : Config) (id : EptId) (i : PairId) (w : World) (ev : Event) : List TokenBucket.Op :=
  (credits cfg id w ev).map .credit ++ ((traffic cfg id i w ev).map UdpMsg.cost).map .spend

theorem mem_popped : msg ∈ popped cfg id w ev ↔
    ∃ outcome key, ev = .relay outcome ∧ popping cfg w = some (id, key, msg) := by
  constructor
  · intro hmsg
    cases ev with
    | relay outcome =>
      simp only [popped] at hmsg
      split at hmsg
      · rename_i rid key msg' hpop
        split at hmsg
        · rename_i hid
          obtain rfl := List.mem_singleton.mp hmsg
          exact ⟨outcome, key, rfl, hid ▸ hpop⟩
        · cases hmsg
      · cases hmsg
    | _ => cases hmsg
  · rintro ⟨outcome, key, rfl, hpop⟩
    simp [popped, hpop]

theorem mem_delivered : msg ∈ delivered cfg id w ev ↔
    ∃ outcome, ev = .flush .success outcome ∧ sending cfg w = some (id, msg) := by
  constructor
  · intro hmsg
    cases ev with
    | flush error outcome =>
      simp only [delivered] at hmsg
      split at hmsg
      · rename_i sid msg' hsend
        split at hmsg
        · rename_i hid
          obtain rfl := List.mem_singleton.mp hmsg
          exact ⟨outcome, by rw [hid.2], hid.1 ▸ hsend⟩
        · cases hmsg
      · cases hmsg
    | _ => cases hmsg
  · rintro ⟨outcome, rfl, hsend⟩
    simp [delivered, hsend]

theorem budget_credit (hlimit : limited e = true) (i : PairId) (interval : Msec) :
    budget i (credit interval e) =
      if budget i e < 0 then budget i e + tickBytes e.proxyRule interval else budget i e := by
  unfold credit budget tickBytes
  rw [if_pos hlimit]
  split <;> rfl

theorem budget_popped (hlimit : limited e = true) (msg : UdpMsg) (i : PairId) :
    budget i (debitRecv msg e).popRecv = if i = 0 then budget i e else budget i e - msg.cost := by
  obtain ⟨s, f, heq⟩ := popRecv_eq (debitRecv msg e)
  rw [heq]
  unfold debitRecv budget
  rw [if_pos hlimit]
  split <;> rfl

theorem budget_sent (hlimit : limited e = true) (msg : UdpMsg) (i : PairId) :
    budget i (sent msg e) = if i = 0 then budget i e - msg.cost else budget i e := by
  unfold sent budget
  rw [hlimit]
  split <;> rfl

theorem budget_handled (i : PairId) (r : RecvResult) (draw : ℤ) (outcome : InitOutcome)
    (e : UdpEndpointProxy) : budget i (handled w r draw outcome e).1 = budget i e := by
  rcases handled_cases w r draw outcome e with ⟨s, t, heq⟩ | ⟨-, -, s, f, heq⟩ <;> rw [heq] <;> rfl

theorem traffic_nil
    (hpop : ∀ outcome, ev = .relay outcome → ∀ key msg, popping cfg w ≠ some (id, key, msg))
    (hsend : ∀ outcome, ev = .flush .success outcome → ∀ msg, sending cfg w ≠ some (id, msg))
    (i : PairId) : traffic cfg id i w ev = [] := by
  apply List.eq_nil_iff_forall_not_mem.mpr
  intro msg hmsg
  unfold traffic at hmsg
  split at hmsg
  · obtain ⟨outcome, hev, hin⟩ := mem_delivered.mp hmsg
    exact hsend outcome hev msg hin
  · obtain ⟨outcome, key, hev, hin⟩ := mem_popped.mp hmsg
    exact hpop outcome hev key msg hin

theorem ops_nil (hvisit : ∀ key, ev = .visit key → w.endpoints.lookup key ≠ some id)
    (hpop : ∀ outcome, ev = .relay outcome → ∀ key msg, popping cfg w ≠ some (id, key, msg))
    (hsend : ∀ outcome, ev = .flush .success outcome → ∀ msg, sending cfg w ≠ some (id, msg))
    (i : PairId) : ops cfg id i w ev = [] := by
  have hcredits : credits cfg id w ev = [] := by
    cases ev with
    | visit key => exact if_neg (hvisit key rfl)
    | _ => rfl
  simp [ops, hcredits, traffic_nil hpop hsend]

theorem traffic_relay {outcome : InitOutcome} (hpop : popping cfg w = some (id, key, msg)) (i : PairId) :
    traffic cfg id i w (.relay outcome) = if i = 0 then [] else [msg] := by
  unfold traffic
  split
  · rfl
  · simp [popped, hpop]

theorem traffic_flush {outcome : InitOutcome} (hsend : sending cfg w = some (id, msg)) (i : PairId) :
    traffic cfg id i w (.flush .success outcome) = if i = 0 then [msg] else [] := by
  unfold traffic
  split
  · simp [delivered, hsend]
  · rfl

theorem bucket_spend {level cost : ℤ} (h : 0 ≤ level) :
    exec TokenBucket.step level [.spend cost] = some (level - cost) := by
  simp [TokenBucket.step, h]

theorem bucket_credit (level amount : ℤ) : exec TokenBucket.step level [.credit amount] =
    some (if level < 0 then level + amount else level) := by
  simp [TokenBucket.step]

theorem credits_live (hlookup : w.endpoints.lookup key = some id) (he : w.epts id = some e)
    (hlive : expired cfg w e = false) : credits cfg id w (.visit key) = [tickBytes e.proxyRule w.interval] := by
  simp [credits, hlookup, he, hlive]

theorem bucket_step (hk : Keyed w) (hlimit : limited e = true) (he : w.epts id = some e)
    (hstep : step cfg w ev = some w') (he' : w'.epts id = some e') (i : PairId) :
    exec TokenBucket.step (budget i e) (ops cfg id i w ev) = some (budget i e') := by
  have hnone : ops cfg id i w ev = [] → budget i e' = budget i e →
      exec TokenBucket.step (budget i e) (ops cfg id i w ev) = some (budget i e') := by
    intro hops hbudget
    rw [hops, hbudget, exec_nil]
  cases became_step hk hstep he' with
  | same he₁ hvisit hpop hsend =>
    rw [he] at he₁
    cases he₁
    exact hnone (ops_nil hvisit hpop (fun outcome => hsend _ outcome) i) rfl
  | added hev hphase hid => exact absurd hid (hk.lt_nextEpt he).ne
  | made hev hpop he₁ hsender hid => exact absurd hid (hk.lt_nextEpt he).ne
  | @credited key todo e₁ hev hphase hkey hlookup he₁ hlive =>
    rw [he] at he₁
    cases he₁
    subst hev
    have htraffic : traffic cfg id i w (.visit key) = [] := by
      unfold traffic
      split <;> rfl
    have hops : ops cfg id i w (.visit key) = [.credit (tickBytes e.proxyRule w.interval)] := by
      unfold ops
      rw [credits_live hlookup he hlive, htraffic]
      rfl
    rw [hops, budget_credit hlimit, bucket_credit]
  | @popped outcome key todo e₁ msg hev hphase he₁ hverdict =>
    rw [he] at he₁
    cases he₁
    subst hev
    obtain ⟨rest, -, havail, -⟩ := recvVerdict_take hverdict
    have hpop : popping cfg w = some (id, key, msg) := popping_eq hphase he hverdict
    have hops : ops cfg id i w (.relay outcome) = if i = 0 then [] else [.spend msg.cost] := by
      unfold ops
      rw [traffic_relay hpop]
      split <;> rfl
    rw [hops, budget_popped hlimit]
    by_cases hi : i = 0
    · simp [hi]
    · have hlevel : 0 ≤ budget i e := by simpa [budget, hi] using havail
      simpa [hi] using bucket_spend hlevel
  | @sent outcome msg e₁ hev hsend he₁ =>
    rw [he] at he₁
    cases he₁
    subst hev
    obtain ⟨todo, e₂, -, he₂, hverdict⟩ := sending_cases hsend
    rw [he] at he₂
    cases he₂
    obtain ⟨rest, -, havail, -⟩ := sendVerdict_take hverdict
    have hops : ops cfg id i w (.flush .success outcome) = if i = 0 then [.spend msg.cost] else [] := by
      unfold ops
      rw [traffic_flush hsend]
      split <;> rfl
    rw [hops, budget_sent hlimit]
    by_cases hi : i = 0
    · have hlevel : 0 ≤ budget i e := by simpa [budget, hi] using havail
      simpa [hi] using bucket_spend hlevel
    · simp [hi]
  | @handed outcome key rid msg e₁ hev hpop hne hsender he₁ =>
    rw [he] at he₁
    cases he₁
    subst hev
    apply hnone
    · apply ops_nil
      · nofun
      · intro _ _ key' msg' hpop'
        rw [hpop] at hpop'
        cases hpop'
        exact hne rfl
      · nofun
    · obtain ⟨t, heq⟩ := touch_eq w.now e
      rw [pushSend_eq, heq]
      rfl
  | @restarted error outcome msg e₁ hev herror hsend he₁ =>
    rw [he] at he₁
    cases he₁
    subst hev
    apply hnone
    · apply ops_nil
      · nofun
      · nofun
      · rintro _ ⟨⟩
        exact absurd rfl herror
    · obtain ⟨s, t, heq⟩ := restart_eq outcome w.clock e
      rw [heq]
      rfl
  | handled hev he₁ =>
    rw [he] at he₁
    cases he₁
    subst hev
    exact hnone (by apply ops_nil <;> nofun) (budget_handled ..)
  | stopped hev hphase he₁ | arrived hev he₁ | failed hev he₁ =>
    rw [he] at he₁
    cases he₁
    subst hev
    exact hnone (by apply ops_nil <;> nofun) rfl

theorem traffic_cases (cfg : Config) (ev : Event) (he : w.epts id = some e) (i : PairId) : traffic cfg id i w ev = [] ∨
    credits cfg id w ev = [] ∧ ∃ msg, traffic cfg id i w ev = [msg] ∧ 0 ≤ budget i e := by
  by_cases hpop : ∃ outcome key msg, ev = .relay outcome ∧ popping cfg w = some (id, key, msg)
  · obtain ⟨outcome, key, msg, rfl, hpop⟩ := hpop
    obtain ⟨todo, e₁, -, he₁, hverdict⟩ := popping_cases hpop
    rw [he] at he₁
    cases he₁
    obtain ⟨rest, -, havail, -⟩ := recvVerdict_take hverdict
    rw [traffic_relay hpop]
    by_cases hi : i = 0
    · exact .inl (if_pos hi)
    · exact .inr ⟨rfl, msg, if_neg hi, by simpa [budget, hi] using havail⟩
  by_cases hsend : ∃ outcome msg, ev = .flush .success outcome ∧ sending cfg w = some (id, msg)
  · obtain ⟨outcome, msg, rfl, hsend⟩ := hsend
    obtain ⟨todo, e₁, -, he₁, hverdict⟩ := sending_cases hsend
    rw [he] at he₁
    cases he₁
    obtain ⟨rest, -, havail, -⟩ := sendVerdict_take hverdict
    rw [traffic_flush hsend]
    by_cases hi : i = 0
    · exact .inr ⟨rfl, msg, if_pos hi, by simpa [budget, hi] using havail⟩
    · exact .inl (if_neg hi)
  · left
    apply traffic_nil
    · exact fun outcome hev key msg h => hpop ⟨outcome, key, msg, hev, h⟩
    · exact fun outcome hev msg h => hsend ⟨outcome, msg, hev, h⟩

theorem ops_exec (cfg : Config) (ev : Event) (he : w.epts id = some e) (i : PairId) :
    ∃ level, exec TokenBucket.step (budget i e) (ops cfg id i w ev) = some level := by
  unfold ops
  rcases traffic_cases cfg ev he i with htraffic | ⟨hcredits, msg, htraffic, hlevel⟩
  · rw [htraffic, List.map_nil, List.map_nil, List.append_nil]
    exact TokenBucket.exec_credits _ _
  · rw [htraffic, hcredits]
    exact ⟨_, bucket_spend hlevel⟩

theorem ops_none (hk : Keyed w) (he : w.epts id = none) (i : PairId) : ops cfg id i w ev = [] := by
  apply ops_nil
  · intro key hev hlookup
    obtain ⟨e, he', -⟩ := hk.mapped key id hlookup
    rw [he] at he'
    cases he'
  · intro outcome hev key msg hpop
    obtain ⟨todo, e, -, he', -⟩ := popping_cases hpop
    rw [he] at he'
    cases he'
  · intro outcome hev msg hsend
    obtain ⟨todo, e, -, he', -⟩ := sending_cases hsend
    rw [he] at he'
    cases he'

end buckets

end TcpUdpProxy.UdpServer
