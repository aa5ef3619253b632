import TcpUdpProxy.TcpProxyHandlers
import TcpUdpProxy.TcpInvariant
import Mathlib.Data.Multiset.Filter

namespace TcpUdpProxy.TcpProxy

open TcpConnection TcpMachine Execution

def Io.jobs (io : Io) : Multiset Job := ↑(io.outstanding ++ io.ready.map Completion.job)

def Job.opOf (id : ConnId) : Job → Option TcpMachine.Op
  | .conn id' op => if id' = id then some op else none
  | _ => none

def Io.ops (id : ConnId) (io : Io) : Multiset TcpMachine.Op := io.jobs.filterMap (Job.opOf id)

section ops

variable {io io' : Io} {id id' : ConnId} {op : TcpMachine.Op} {e e' : Entry} {f : Frame}

theorem jobs_start (closed : Bool) (job : Job) : (io.start closed job).jobs = job ::ₘ io.jobs := by
  unfold Io.start Io.jobs
  rw [Multiset.cons_coe, Multiset.coe_eq_coe]
  split
  · rw [List.map_append, ← List.append_assoc]
    exact List.perm_append_singleton job _
  · rw [List.append_assoc]
    exact List.perm_middle

theorem jobs_abort (cancelled : Job → Bool) : (io.abort cancelled).jobs = io.jobs := by
  unfold Io.abort Io.jobs
  rw [Multiset.coe_eq_coe, List.map_append, List.map_map]
  have hmap : (io.outstanding.filter cancelled).map
      (Completion.job ∘ fun job => ⟨job, .operationAborted, 0⟩) = io.outstanding.filter cancelled :=
    List.map_id _
  rw [hmap]
  have hsplit := List.filter_append_perm cancelled io.outstanding
  refine List.perm_append_comm.trans ?_
  rw [List.append_assoc]
  exact List.perm_append_comm.trans (hsplit.append_right _)

theorem ops_start (closed : Bool) : (io.start closed (.conn id op)).ops id = op ::ₘ io.ops id := by
  rw [Io.ops, jobs_start]
  exact Multiset.filterMap_cons_some _ _ _ (by simp [Job.opOf])

theorem ops_start_other (closed : Bool) (h : id ≠ id') :
    (io.start closed (.conn id op)).ops id' = io.ops id' := by
  rw [Io.ops, jobs_start, Multiset.filterMap_cons_none _ _ (by simp [Job.opOf, h])]
  rfl

theorem ops_abort (cancelled : Job → Bool) : (io.abort cancelled).ops id = io.ops id := by
  rw [Io.ops, jobs_abort]
  rfl

theorem ops_foldl (actions : List Action) (s : Bool × Io) :
    (actions.foldl (Io.perform id) s).2.ops id = actions.foldl issue (s.2.ops id) := by
  induction actions generalizing s with
  | nil => rfl
  | cons a actions ih =>
    rw [List.foldl_cons, List.foldl_cons, ih]
    congr 1
    cases a with
    | asyncConnect => exact ops_start s.1
    | asyncRead => exact ops_start s.1
    | asyncWrite => exact ops_start s.1
    | stop => exact ops_abort _
    | received | popped | charge => rfl

theorem ops_foldl_other (actions : List Action) (s : Bool × Io) (h : id ≠ id') :
    (actions.foldl (Io.perform id) s).2.ops id' = s.2.ops id' := by
  induction actions generalizing s with
  | nil => rfl
  | cons a actions ih =>
    rw [List.foldl_cons, ih]
    cases a with
    | asyncConnect => exact ops_start_other s.1 h
    | asyncRead => exact ops_start_other s.1 h
    | asyncWrite => exact ops_start_other s.1 h
    | stop => exact ops_abort _
    | received | popped | charge => rfl

theorem ops_conns (io : Io) (id : ConnId) : io.conns.ops id = io.ops id := by
  have hjobs : io.conns.jobs = io.jobs.filter fun job => job.isConn = true := by
    simp [Io.jobs, Io.conns, List.filter_map, Function.comp_def]
  have hop : (fun job => if Job.isConn job = true then Job.opOf id job else none) = Job.opOf id := by
    funext job
    cases job <;> rfl
  rw [Io.ops, hjobs, Multiset.filterMap_filter, hop]
  rfl

theorem ops_pop {k : Completion} {rest : List Completion} (hready : io.ready = k :: rest)
    (hjob : k.job = .conn id op) : io.ops id = op ::ₘ Io.ops id { io with ready := rest } := by
  have hjobs : io.jobs = .conn id op ::ₘ Io.jobs { io with ready := rest } := by
    simp only [Io.jobs, hready, List.map_cons, hjob, Multiset.cons_coe]
    exact Multiset.coe_eq_coe.mpr List.perm_middle
  rw [Io.ops, hjobs]
  exact Multiset.filterMap_cons_some _ _ _ (by simp [Job.opOf])

theorem ops_pop_other {k : Completion} {rest : List Completion} (hready : io.ready = k :: rest)
    (hjob : k.job = .conn id op) (h : id ≠ id') : Io.ops id' { io with ready := rest } = io.ops id' := by
  have hjobs : io.jobs = .conn id op ::ₘ Io.jobs { io with ready := rest } := by
    simp only [Io.jobs, hready, List.map_cons, hjob, Multiset.cons_coe]
    exact Multiset.coe_eq_coe.mpr List.perm_middle
  rw [Io.ops, Io.ops, hjobs]
  exact (Multiset.filterMap_cons_none _ _ (by simp [Job.opOf, h])).symm

theorem ops_complete {job : Job} (error : ErrorCode) (n : ℕ) (hjob : job ∈ io.outstanding) :
    Io.ops id ⟨io.outstanding.erase job, io.ready ++ [⟨job, error, n⟩]⟩ = io.ops id := by
  have hjobs : Io.jobs ⟨io.outstanding.erase job, io.ready ++ [⟨job, error, n⟩]⟩ = io.jobs := by
    simp only [Io.jobs, List.map_append, List.map_cons, List.map_nil]
    rw [Multiset.coe_eq_coe, ← List.append_assoc]
    refine (List.perm_append_singleton job _).trans ?_
    exact (List.perm_cons_erase hjob).symm.append_right _
  rw [Io.ops, hjobs]
  rfl

theorem ops_fresh {next : ConnId} {es : List Entry} (h : Numbered next es io) : io.ops next = 0 := by
  apply Multiset.eq_zero_of_forall_notMem
  intro op hop
  obtain ⟨job, hjob, hof⟩ := (Multiset.mem_filterMap _ _).mp hop
  cases job with
  | accept => cases hof
  | wait => cases hof
  | conn id op' =>
    have hid : id = next := by
      by_contra hne
      simp [Job.opOf, hne] at hof
    subst hid
    apply lt_irrefl id
    rcases List.mem_append.mp (Multiset.mem_coe.mp hjob) with hjob | hjob
    · exact h.outstanding id op' hjob
    · obtain ⟨k, hk, hkjob⟩ := List.mem_map.mp hjob
      exact h.ready k hk id op' hkjob

end ops

/-- The machine `u` has gone where the proxy has brought the connection `e`. -/
structure Tracks (cfg : Config) (now : Msec) (io : Io) (e : Entry) (u : TcpMachine.World) : Prop where
  reachable : Reachable (TcpMachine.step cfg.toConfig) (Accepted cfg.toConfig) u
  conn : u.conn = e.conn
  ip : u.ip.refCnt = 0
  nextBuf : u.nextBuf = e.nextBuf
  now : u.now = now
  outstanding : u.outstanding = io.ops e.id
  fault : u.fault = none
  client : e.conn.clientIp = none → ∀ i, cfg.bandwidth i = 0

def Identity (clientIp : Option Address) (f : Frame) : Prop :=
  f.conn.clientIp = clientIp ∧ f.ip.refCnt = 0

theorem stable_identity (clientIp : Option Address) : Stable (Identity clientIp) where
  asyncRead h := h
  asyncWrite h := h
  setWriting h := h
  setReading h := h
  chargeIp h := h
  popMsg _ h := h
  creditPair h := by
    unfold creditPair
    split <;> exact h
  connect h := h
  drain h := h
  stop h := h

namespace Tracks

variable {cfg : Config} {now : Msec} {io io' : Io} {e e' : Entry} {u v : TcpMachine.World} {f : Frame}
  {availBytes : ConnId → PairId → ℤ}

theorem other (h : Tracks cfg now io e' u) (hid : e.id ≠ e'.id) (f : Frame) :
    Tracks cfg now (e.perform f io) e' u :=
  { h with
    outstanding := h.outstanding.trans (ops_foldl_other f.actions (e.conn.closeFlag, io) hid).symm }

theorem budget (h : Tracks cfg now io e u) (availBytes : ConnId → PairId → ℤ) :
    ∃ v, Tracks cfg now io e v ∧ v.frame = e.frame availBytes := by
  refine ⟨{ u with ip := { u.ip with availBytes := availBytes e.id } }, ?_, ?_⟩
  · refine { h with reachable := h.reachable.next (e := .ip (availBytes e.id)) ?_ }
    simp [TcpMachine.step, h.fault, enter, handler]
  · simp [World.frame, Entry.frame, h.conn, h.nextBuf, IPProxy.create, ← h.ip]

theorem leave (hv : Reachable (TcpMachine.step cfg.toConfig) (Accepted cfg.toConfig) (v.leave f))
    (hnow : v.now = now) (hfault : v.fault = none) (hops : v.outstanding = io.ops e.id)
    (hid : Identity e.conn.clientIp f) (hclient : e.conn.clientIp = none → ∀ i, cfg.bandwidth i = 0) :
    Tracks cfg now (e.perform f io) (e.leave f) (v.leave f) where
  reachable := hv
  conn := rfl
  ip := hid.2
  nextBuf := rfl
  now := hnow
  outstanding := by
    rw [show (v.leave f).outstanding = f.actions.foldl issue v.outstanding from rfl, hops]
    exact (ops_foldl f.actions (e.conn.closeFlag, io)).symm
  fault := hfault
  client hnone := hclient (hid.1 ▸ hnone)

def eventOf (error : ErrorCode) (n : ℕ) : TcpMachine.Op → TcpMachine.Event
  | .connect => .connect error
  | .read p buf => .read p buf error n
  | .write p msg => .write p msg error

theorem step_eventOf {op : TcpMachine.Op} {error : ErrorCode} {n : ℕ} (hfault : v.fault = none)
    (hop : op ∈ v.outstanding) (hn : n ≤ tcpBufferSize)
    (hf : TcpProxy.handle cfg v.now op error n v.frame = .ok f) :
    ∃ x : TcpMachine.World, TcpMachine.step cfg.toConfig v (eventOf error n op) = some (x.leave f) ∧
      x.now = v.now ∧ x.fault = none ∧ x.outstanding = v.outstanding.erase op := by
  cases op with
  | connect =>
    by_cases herror : error = .success
    · subst herror
      refine ⟨{ v.dispatch .connect .success with
        conn := connectSocket v.conn, connected := true }, ?_, rfl, hfault, rfl⟩
      apply step_ok (e := .connect .success) hfault
      · exact if_pos hop
      · exact congrArg some hf
    · refine ⟨v.dispatch .connect error, ?_, rfl, hfault, rfl⟩
      simp only [TcpProxy.handle, if_neg herror] at hf
      apply step_ok (e := .connect error) hfault
      · exact (if_pos hop).trans (if_neg herror)
      · exact congrArg some hf
  | read p buf =>
    refine ⟨(v.dispatch (.read p buf) error).arrive p error ⟨buf, n⟩, ?_, rfl, hfault, rfl⟩
    apply step_ok (e := .read p buf error n) hfault
    · exact if_pos ⟨hop, hn⟩
    · exact congrArg some hf
  | write p msg =>
    refine ⟨v.dispatch (.write p msg) error, ?_, rfl, hfault, rfl⟩
    apply step_ok (e := .write p msg error) hfault
    · exact if_pos hop
    · exact congrArg some hf

theorem handle {op : TcpMachine.Op} {error : ErrorCode} {n : ℕ} (h : Tracks cfg now io e u)
    (hop : op ∈ io.ops e.id) (hn : n ≤ tcpBufferSize)
    (hrest : io'.ops e.id = (io.ops e.id).erase op)
    (hf : TcpProxy.handle cfg now op error n (e.frame availBytes) = .ok f) :
    ∃ u', Tracks cfg now (e.perform f io') (e.leave f) u' := by
  obtain ⟨v, hv, hframe⟩ := h.budget availBytes
  have hid : Identity e.conn.clientIp f := by
    apply stable_handle (stable_identity e.conn.clientIp) ⟨rfl, rfl⟩ ⟨?_, rfl⟩
      (fun _ _ => ⟨rfl, rfl⟩) hf
    simp only [connectSocket]
    split <;> rfl
  rw [← hframe, ← hv.now] at hf
  obtain ⟨x, hx, hnow, hfault, hops⟩ := step_eventOf hv.fault (hv.outstanding ▸ hop) hn hf
  refine ⟨x.leave f, leave (hv.reachable.next hx) (hnow.trans hv.now) hfault ?_ hid h.client⟩
  rw [hops, hv.outstanding, hrest]

theorem flushMsgs {clock : Msec} {flushBytes : ℤ} {expireTime : Msec} {keep : Bool}
    (h : Tracks cfg now io e u)
    (hf : TcpConnection.flushMsgs ⟨cfg.proxyRule, clock⟩ cfg.bandwidth flushBytes expireTime
      (e.frame availBytes) = .ok (keep, f)) :
    ∃ u', Tracks cfg clock (e.perform f io) (e.leave f) u' := by
  obtain ⟨v, hv, hframe⟩ := h.budget availBytes
  have hid : Identity e.conn.clientIp f := (stable_identity _).flushMsgs ⟨rfl, rfl⟩ hf
  have hstep : TcpMachine.step cfg.toConfig v (.tick clock flushBytes expireTime) =
      some (TcpMachine.World.leave { v with now := clock } f) := by
    apply step_ok hv.fault rfl
    rw [← hframe] at hf
    exact congrArg (fun r => some (r.map Prod.snd)) hf
  exact ⟨_, leave (hv.reachable.next hstep) rfl hv.fault hv.outstanding hid h.client⟩

theorem stop (h : Tracks cfg now io e u) (s : Surroundings)
    (hf : f = TcpConnection.stop (e.frame s.availBytes)) :
    ∃ u', Tracks cfg now (e.perform f io) (e.leave f) u' := by
  obtain ⟨v, hv, hframe⟩ := h.budget s.availBytes
  have hid : Identity e.conn.clientIp f := hf ▸ (stable_identity _).stop ⟨rfl, rfl⟩
  have hstep : TcpMachine.step cfg.toConfig v .stop = some (v.leave f) := by
    apply step_ok hv.fault rfl
    rw [hf, ← hframe]
    rfl
  exact ⟨_, leave (hv.reachable.next hstep) hv.now hv.fault hv.outstanding hid h.client⟩

theorem clock (h : Tracks cfg now io e u) (now' : Msec) : ∃ u', Tracks cfg now' io e u' := by
  refine ⟨{ u with now := now' }, ?_⟩
  refine { h with reachable := h.reachable.next (e := .clock now') ?_, now := rfl }
  simp [TcpMachine.step, h.fault, enter, handler]

theorem disconnect {p : PairId} (h : Tracks cfg now io e u) (hp : e.conn.socketPair p = .connected) :
    ∃ u', Tracks cfg now io { e with conn := { e.conn with
      socketPair := Function.update e.conn.socketPair p .unconnected } } u' := by
  refine ⟨{ u with conn := { u.conn with
    socketPair := Function.update u.conn.socketPair p .unconnected } }, ?_⟩
  refine { h with reachable := h.reachable.next (e := .disconnect p) ?_, conn := by rw [h.conn] }
  simp [TcpMachine.step, h.fault, enter, handler, h.conn, hp]

end Tracks

def Io.Sized (io : Io) : Prop :=
  ∀ k ∈ io.ready, k.job.isConn = true → k.bytesTransferred ≤ tcpBufferSize

structure World.Tracked (cfg : Config) (w : World) : Prop where
  numbered : w.Numbered
  sized : w.io.Sized
  entries : w.fault = none → ∀ e ∈ w.tcpConnections, ∃ u, Tracks cfg w.now w.io e u

section tracked

variable {cfg : Config} {next : ConnId} {es es' : List Entry} {io io' : Io} {w : World}
  {now now' : Msec} {e : Entry} {f : Frame}

theorem Io.Sized.perform (h : io.Sized) (f : Frame) (e : Entry) : (e.perform f io).Sized := by
  intro k hk hconn
  rcases (stage_perform f e io).ready k hk with hk | ⟨-, hzero⟩
  · exact h k hk hconn
  · rw [hzero]
    exact Nat.zero_le _

theorem Io.Sized.pop (h : io.Sized) {k : Completion} {rest : List Completion}
    (hready : io.ready = k :: rest) : Io.Sized { io with ready := rest } :=
  fun k hk => h k (hready ▸ List.mem_cons_of_mem _ hk)

theorem sized_forEach {run : Entry → Except Fault (Bool × Frame)} (hs : io.Sized)
    (hloop : forEach run es io = .ok (es', io')) : io'.Sized :=
  forEach_induction (I := fun _ _ io => io.Sized)
    (fun _ e _ _ _ f hs _ => hs.perform f e) hloop hs

theorem tracked_forEach {run : Entry → Except Fault (Bool × Frame)} (hn : Numbered next es io)
    (h : ∀ e ∈ es, ∃ u, Tracks cfg now io e u)
    (hrun : ∀ e io u keep f, Tracks cfg now io e u → run e = .ok (keep, f) →
      ∃ u', Tracks cfg now' (e.perform f io) (e.leave f) u')
    (hloop : forEach run es io = .ok (es', io')) : ∀ e ∈ es', ∃ u, Tracks cfg now' io' e u := by
  -- the entries already passed are tracked at the new time, the others still at the old one
  let I (passed es : List Entry) (io : Io) : Prop :=
    Numbered next (passed ++ es) io ∧ (∀ e ∈ passed, ∃ u, Tracks cfg now' io e u) ∧
      ∀ e ∈ es, ∃ u, Tracks cfg now io e u
  have hturn : I es' [] io' := by
    apply forEach_induction (I := I) ?_ hloop ⟨hn, by simp, h⟩
    rintro passed e es io keep f ⟨hn, hpassed, htodo⟩ hf
    have hnodup := hn.nodup
    simp only [List.map_append, List.map_cons, List.nodup_append, List.nodup_cons] at hnodup
    refine ⟨?_, ?_, ?_⟩
    · apply (hn.stage (e := e) (by simp) (stage_perform f e io)).sublist
      cases keep with
      | true => simp [Entry.leave]
      | false => simp
    · have hothers : ∀ e' ∈ passed, ∃ u, Tracks cfg now' (e.perform f io) e' u := by
        intro e' he'
        obtain ⟨u, hu⟩ := hpassed e' he'
        refine ⟨u, hu.other ?_ f⟩
        exact fun hid => hnodup.2.2 _ (List.mem_map_of_mem he') _ List.mem_cons_self hid.symm
      cases keep with
      | false => exact hothers
      | true =>
        intro e' he'
        rcases List.mem_append.mp he' with he' | he'
        · exact hothers e' he'
        · obtain rfl := List.mem_singleton.mp he'
          obtain ⟨u, hu⟩ := htodo e List.mem_cons_self
          exact hrun e io u true f hu hf
    · intro e' he'
      obtain ⟨u, hu⟩ := htodo e' (List.mem_cons_of_mem _ he')
      refine ⟨u, hu.other ?_ f⟩
      exact fun hid => hnodup.2.1.1 (hid ▸ List.mem_map_of_mem he')
  exact hturn.2.1

theorem tracked_withLoop {run : Entry → Except Fault (Bool × Frame)} (hn : w.Numbered)
    (hs : w.io.Sized) (h : w.fault = none → ∀ e ∈ w.tcpConnections, ∃ u, Tracks cfg now w.io e u)
    (hrun : ∀ e io u keep f, Tracks cfg now io e u → run e = .ok (keep, f) →
      ∃ u', Tracks cfg w.now (e.perform f io) (e.leave f) u') :
    (w.withLoop (forEach run w.tcpConnections w.io)).Tracked cfg := by
  have hnumbered : (w.withLoop (forEach run w.tcpConnections w.io)).Numbered := numbered_withLoop hn
  cases hloop : forEach run w.tcpConnections w.io with
  | error fault => exact ⟨hn, hs, fun hfault => by cases hfault⟩
  | ok r =>
    rw [hloop] at hnumbered
    refine ⟨hnumbered, sized_forEach hs hloop, fun hfault => ?_⟩
    exact tracked_forEach hn (h hfault) hrun hloop

theorem tracked_flush (s : Surroundings) (h : w.Tracked cfg) : (w.flush cfg s).Tracked cfg := by
  let v : World := { w with now := w.clock, lastFlushTm := w.clock }
  have hv : v.fault = none → ∀ e ∈ v.tcpConnections, ∃ u, Tracks cfg w.now v.io e u := h.entries
  apply tracked_withLoop (w := v) h.numbered h.sized hv
  intro e io u keep f hu hf
  exact hu.flushMsgs hf

theorem Tracks.pop_other {u : TcpMachine.World} {k : Completion} {rest : List Completion}
    {id : ConnId} {op : TcpMachine.Op} (h : Tracks cfg now io e u) (hready : io.ready = k :: rest)
    (hjob : k.job = .conn id op) (hid : id ≠ e.id) : Tracks cfg now { io with ready := rest } e u :=
  { h with outstanding := h.outstanding.trans (ops_pop_other hready hjob hid).symm }

theorem keeps_tracked : Keeps cfg (World.Tracked cfg) where
  same {w w'} hsame h := by
    have hops : ∀ id, w'.io.ops id = w.io.ops id := by
      intro id
      rw [← ops_conns, hsame.conns, ops_conns]
    refine ⟨(keeps_numbered cfg).same hsame h.numbered, ?_, ?_⟩
    · intro k hk hconn
      have hk' : k ∈ w'.io.conns.ready := List.mem_filter.mpr ⟨hk, hconn⟩
      rw [hsame.conns] at hk'
      exact h.sized k (List.mem_of_mem_filter hk') hconn
    · intro hfault e he
      rw [hsame.entries] at he
      rw [hsame.fault] at hfault
      obtain ⟨u, hu⟩ := h.entries hfault e he
      exact ⟨u, { hu with now := hu.now.trans hsame.now.symm,
                          outstanding := hu.outstanding.trans (hops e.id).symm }⟩
  fault _ h := ⟨h.numbered, h.sized, fun hfault => by cases hfault⟩
  now now h := by
    refine ⟨h.numbered, h.sized, ?_⟩
    intro hfault e he
    obtain ⟨u, hu⟩ := h.entries hfault e he
    exact hu.clock now
  stopAll {w} s h := by
    apply tracked_withLoop h.numbered h.sized h.entries
    intro e io u keep f hu hf
    cases hf
    exact hu.stop s rfl
  add {w} s h := by
    refine ⟨(keeps_numbered cfg).add s h.numbered, h.sized, ?_⟩
    intro hfault e he
    rcases List.mem_append.mp he with he | he
    · obtain ⟨u, hu⟩ := h.entries hfault e he
      refine ⟨u, { hu with outstanding := hu.outstanding.trans ?_ }⟩
      exact (ops_start_other false (h.numbered.entries e he).ne').symm
    · obtain rfl := List.mem_singleton.mp he
      let clientIp := getIPProxy cfg.bandwidth s.peer
      refine ⟨accepted cfg.toConfig w.now clientIp IPProxy.create fun _ _ => 0, ?_⟩
      refine ⟨.start ⟨_, _, _, _, rfl⟩, rfl, rfl, rfl, rfl, ?_, rfl, ?_⟩
      · exact ((ops_start false).trans (congrArg _ (ops_fresh h.numbered))).symm
      · intro hnone
        have hlimits : cfg.bandwidth 0 = 0 ∧ cfg.bandwidth 1 = 0 := by
          simpa [create, getIPProxy] using hnone
        intro i
        rcases PairId.eq_or_other 0 i with rfl | rfl
        · exact hlimits.1
        · exact hlimits.2
  complete {w job} error n hjob hn h := by
    refine ⟨(keeps_numbered cfg).complete error hjob hn h.numbered, ?_, ?_⟩
    · intro k hk hconn
      rcases List.mem_append.mp hk with hk | hk
      · exact h.sized k hk hconn
      · obtain rfl := List.mem_singleton.mp hk
        exact hn
    · intro hfault e he
      obtain ⟨u, hu⟩ := h.entries hfault e he
      exact ⟨u, { hu with outstanding := hu.outstanding.trans (ops_complete error n hjob).symm }⟩
  orphan {w k rest id op} hready hjob hfind h := by
    refine ⟨(keeps_numbered cfg).orphan hready hjob hfind h.numbered, h.sized.pop hready, ?_⟩
    intro hfault e he
    obtain ⟨u, hu⟩ := h.entries hfault e he
    exact ⟨u, hu.pop_other hready hjob (World.find_none hfind e he)⟩
  crash fault hready h := by
    refine ⟨(keeps_numbered cfg).crash fault hready h.numbered, h.sized.pop hready, ?_⟩
    intro hfault
    cases hfault
  handled {w} s k rest e op f hready hjob he hf h := by
    refine ⟨(keeps_numbered cfg).handled s hready hjob he hf h.numbered, (h.sized.pop hready).perform f e, ?_⟩
    intro hfault e' he'
    rcases World.mem_replace he' with rfl | ⟨he', hid⟩
    · obtain ⟨u, hu⟩ := h.entries hfault e he
      have hops := ops_pop hready hjob
      apply hu.handle (hops ▸ Multiset.mem_cons_self op _) ?_ ?_ hf
      · exact h.sized k (hready ▸ List.mem_cons_self) (by rw [hjob]; rfl)
      · rw [hops, Multiset.erase_cons_head]
    · obtain ⟨u, hu⟩ := h.entries hfault e' he'
      have hne : e.id ≠ e'.id := Ne.symm hid
      exact ⟨u, (hu.pop_other hready hjob hne).other hne f⟩
  disconnect {w e p} he hp h := by
    refine ⟨(keeps_numbered cfg).disconnect he hp h.numbered, h.sized, ?_⟩
    intro hfault e' he'
    rcases World.mem_replace he' with rfl | ⟨he', -⟩
    · obtain ⟨u, hu⟩ := h.entries hfault e he
      exact hu.disconnect hp
    · exact h.entries hfault e' he'

theorem tracked_step {w' : World} {ev : Event} (h : w.Tracked cfg) (hstep : step cfg w ev = some w') :
    w'.Tracked cfg :=
  keeps_tracked.step h hstep fun s _ _ _ _ _ _ _ _ hv => tracked_flush s hv

theorem Reachable.tracked (h : Reachable (step cfg) Started w) : w.Tracked cfg := by
  apply h.invariant ?_ fun _ _ _ => tracked_step
  rintro w ⟨clock, rfl⟩
  refine ⟨⟨List.nodup_nil, ?_, ?_, ?_⟩, ?_, ?_⟩
  all_goals simp [started, Io.Sized]

end tracked

end TcpUdpProxy.TcpProxy
