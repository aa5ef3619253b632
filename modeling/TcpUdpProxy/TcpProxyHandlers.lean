import TcpUdpProxy.TcpProxyIo

/-!
What the handlers of `TcpProxy` do to the connections. An invariant of the connections is shown
for the few changes named in `Keeps`, and holds then after every step that keeps it in `flush`.
-/

namespace TcpUdpProxy.TcpProxy

open TcpConnection TcpMachine

def Job.isConn : Job → Bool
  | .conn _ _ => true
  | _ => false

def Io.conns (io : Io) : Io where
  outstanding := io.outstanding.filter Job.isConn
  ready := io.ready.filter fun k => k.job.isConn

section conns

variable {io : Io} {id : ConnId} {op : TcpMachine.Op}

theorem conns_abort {cancelled : Job → Bool} (h : ∀ job, cancelled job = true → job.isConn = false) :
    (io.abort cancelled).conns = io.conns := by
  simp only [Io.conns, Io.abort, List.filter_filter, List.filter_append, Io.mk.injEq]
  constructor
  · apply List.filter_congr
    intro job _
    cases hc : cancelled job with
    | true => simp [h job hc]
    | false => simp
  · rw [List.append_right_eq_self, List.filter_eq_nil_iff]
    intro k hk
    obtain ⟨job, hjob, rfl⟩ := List.mem_map.mp hk
    simp [h job (List.mem_filter.mp hjob).2]

theorem conns_abort_accept : (io.abort Job.isAccept).conns = io.conns :=
  conns_abort fun job h => by cases job <;> simp_all [Job.isAccept, Job.isConn]

theorem conns_abort_wait : (io.abort Job.isWait).conns = io.conns :=
  conns_abort fun job h => by cases job <;> simp_all [Job.isWait, Job.isConn]

theorem conns_start {closed : Bool} {job : Job} (h : job.isConn = false) :
    (io.start closed job).conns = io.conns := by
  unfold Io.start
  split <;> simp [Io.conns, h]

theorem conns_pop {k : Completion} {rest : List Completion} (hready : io.ready = k :: rest)
    (h : k.job.isConn = false) : Io.conns { io with ready := rest } = io.conns := by
  simp [Io.conns, hready, h]

theorem mem_conns_outstanding : .conn id op ∈ io.conns.outstanding ↔ .conn id op ∈ io.outstanding := by
  simp [Io.conns, Job.isConn]

theorem mem_conns_ready {k : Completion} (h : k.job = .conn id op) :
    k ∈ io.conns.ready ↔ k ∈ io.ready := by
  simp [Io.conns, h, Job.isConn]

end conns

structure SameConnections (w w' : World) : Prop where
  entries : w'.tcpConnections = w.tcpConnections
  next : w'.nextConn = w.nextConn
  now : w'.now = w.now
  fault : w'.fault = w.fault
  conns : w'.io.conns = w.io.conns

def stopAll (s : Surroundings) (w : World) : World :=
  w.withLoop (forEach (fun e => .ok (true, TcpConnection.stop (e.frame s.availBytes)))
    w.tcpConnections w.io)

def World.pop (rest : List Completion) (w : World) : World :=
  { w with io := { w.io with ready := rest } }

def Entry.disconnect (p : PairId) (e : Entry) : Entry :=
  { e with conn := { e.conn with socketPair := Function.update e.conn.socketPair p .unconnected } }

/-- What an invariant of the connections has to survive, the ticks apart. -/
structure Keeps (cfg : Config) (I : World → Prop) : Prop where
  same {w w' : World} : SameConnections w w' → I w → I w'
  fault {w : World} (fault : Fault) : I w → I { w with fault := some fault }
  now {w : World} (now : Msec) : I w → I { w with now := now }
  stopAll {w : World} (s : Surroundings) : I w → I (stopAll s w)
  add {w : World} (s : Surroundings) : I w → I (w.addConnection cfg s)
  complete {w : World} {job : Job} (error : ErrorCode) {n : ℕ} :
    job ∈ w.io.outstanding → n ≤ tcpBufferSize → I w →
      I { w with io := ⟨w.io.outstanding.erase job, w.io.ready ++ [⟨job, error, n⟩]⟩ }
  orphan {w : World} {k : Completion} {rest : List Completion} {id : ConnId} {op : TcpMachine.Op} :
    w.io.ready = k :: rest → k.job = .conn id op → w.find id = none → I w → I (w.pop rest)
  crash {w : World} {k : Completion} {rest : List Completion} (fault : Fault) :
    w.io.ready = k :: rest → I w → I { w.pop rest with fault := some fault }
  handled {w : World} (s : Surroundings) {k : Completion} {rest : List Completion} {e : Entry}
    {op : TcpMachine.Op} {f : Frame} :
    w.io.ready = k :: rest → k.job = .conn e.id op → e ∈ w.tcpConnections →
      handle cfg w.now op k.error k.bytesTransferred (e.frame s.availBytes) = .ok f → I w →
        I { w.replace (e.leave f) with io := e.perform f { w.io with ready := rest } }
  disconnect {w : World} {e : Entry} {p : PairId} :
    e ∈ w.tcpConnections → e.conn.socketPair p = .connected → I w → I (w.replace (e.disconnect p))

theorem World.mem_of_find {w : World} {id : ConnId} {e : Entry} (h : w.find id = some e) :
    e ∈ w.tcpConnections ∧ e.id = id := by
  refine ⟨List.mem_of_find?_eq_some h, ?_⟩
  simpa using List.find?_some h

theorem World.find_none {w : World} {id : ConnId} (h : w.find id = none) :
    ∀ e ∈ w.tcpConnections, id ≠ e.id := by
  intro e he hid
  exact List.find?_eq_none.mp h e he (by simpa using hid.symm)

theorem World.mem_replace {w : World} {e e' : Entry} (he' : e' ∈ (w.replace e).tcpConnections) :
    e' = e ∨ e' ∈ w.tcpConnections ∧ e'.id ≠ e.id := by
  obtain ⟨e₀, he₀, heq⟩ := List.mem_map.mp he'
  split at heq
  · exact .inl heq.symm
  next hne => exact .inr ⟨heq ▸ he₀, heq ▸ hne⟩

theorem dispatch_conn {cfg : Config} {s : Surroundings} {w : World} {k : Completion}
    {id : ConnId} {op : TcpMachine.Op} (hjob : k.job = .conn id op) :
    (w.find id = none ∧ k.error = .operationAborted ∧ dispatch cfg s k w = w) ∨
      (∃ fault, dispatch cfg s k w = { w with fault := some fault }) ∨
      ∃ e ∈ w.tcpConnections, e.id = id ∧ ∃ f,
        handle cfg w.now op k.error k.bytesTransferred (e.frame s.availBytes) = .ok f ∧
          dispatch cfg s k w = { w.replace (e.leave f) with io := e.perform f w.io } := by
  simp only [dispatch, hjob]
  cases hfind : w.find id with
  | none =>
    by_cases haborted : k.error = .operationAborted
    · exact .inl ⟨rfl, haborted, if_pos haborted⟩
    · exact .inr (.inl ⟨_, if_neg haborted⟩)
  | some e =>
    obtain ⟨he, hid⟩ := World.mem_of_find hfind
    dsimp only
    cases hf : handle cfg w.now op k.error k.bytesTransferred (e.frame s.availBytes) with
    | error fault => exact .inr (.inl ⟨fault, rfl⟩)
    | ok f => exact .inr (.inr ⟨e, he, hid, f, hf, rfl⟩)

namespace Keeps

variable {cfg : Config} {I : World → Prop} {s : Surroundings} {w w' : World}

theorem startAccept (hI : Keeps cfg I) (h : I w) : I w.startAccept :=
  hI.same (by exact ⟨rfl, rfl, rfl, rfl, conns_start rfl⟩) h

theorem closeAcceptor (hI : Keeps cfg I) (h : I w) : I w.closeAcceptor :=
  hI.same (by exact ⟨rfl, rfl, rfl, rfl, conns_abort_accept⟩) h

theorem close (hI : Keeps cfg I) (h : I w) : I (w.close s) := by
  apply hI.stopAll s
  exact hI.same (by exact ⟨rfl, rfl, rfl, rfl, conns_abort_wait⟩) (hI.closeAcceptor h)

theorem asyncWait (hI : Keeps cfg I) (h : I w) : I (w.asyncWait s) := by
  have hcancel : I { w with io := w.io.abort Job.isWait } :=
    hI.same (by exact ⟨rfl, rfl, rfl, rfl, conns_abort_wait⟩) h
  unfold World.asyncWait
  dsimp only
  split
  · exact hI.same (by exact ⟨rfl, rfl, rfl, rfl, conns_start rfl⟩) hcancel
  · apply hI.close
    exact hI.same (by exact ⟨rfl, rfl, rfl, rfl, rfl⟩) hcancel

theorem start (hI : Keeps cfg I) (h : I w) : I (w.start s) := by
  unfold World.start
  split
  · apply hI.asyncWait
    apply hI.startAccept
    exact hI.same (by exact ⟨rfl, rfl, rfl, rfl, rfl⟩) h
  · exact hI.same (by exact ⟨rfl, rfl, rfl, rfl, rfl⟩) h

theorem handleAccept (hI : Keeps cfg I) {error : ErrorCode} (h : I w) :
    I (w.handleAccept cfg s error) := by
  unfold World.handleAccept
  split
  · split
    · exact hI.start (hI.closeAcceptor h)
    · exact h
  · split
    · exact hI.fault _ h
    · exact hI.startAccept (hI.add s h)

theorem handleWait (hI : Keeps cfg I) {error : ErrorCode} (h : I w)
    (hflush : error = .success → w.closeFlag = false →
      (w.asyncWait s).lastFlushTm < (w.asyncWait s).clock →
        I (w.asyncWait s) → I ((w.asyncWait s).flush cfg s)) :
    I (w.handleWait cfg s error) := by
  unfold World.handleWait
  split
  · exact h
  next hsuccess =>
    split
    · exact hI.close h
    next hopen =>
      dsimp only
      split
      · exact hI.now _ (hI.asyncWait h)
      next hlate =>
        exact hflush (by simpa using hsuccess) (by simpa using hopen) (not_le.mp hlate) (hI.asyncWait h)

theorem step (hI : Keeps cfg I) {ev : Event} (h : I w) (hstep : step cfg w ev = some w')
    (hflush : ∀ s k rest, ev = .dispatch s → w.io.ready = k :: rest → k.job = .wait →
      k.error = .success → w.closeFlag = false →
        let v := World.asyncWait s { w with io := { w.io with ready := rest } }
        v.lastFlushTm < v.clock → I v → I (v.flush cfg s)) : I w' := by
  unfold TcpProxy.step at hstep
  split at hstep
  · cases hstep
  cases ev with
  | complete job error n =>
    simp only [run] at hstep
    split at hstep
    next hjob =>
      cases hstep
      exact hI.same (by exact ⟨rfl, rfl, rfl, rfl, rfl⟩) (hI.complete error hjob.1 hjob.2 h)
    · cases hstep
  | dispatch s =>
    simp only [run] at hstep
    split at hstep
    · cases hstep
    next k rest hready =>
      cases hstep
      cases hjob : k.job with
      | accept =>
        simp only [dispatch, hjob]
        apply hI.handleAccept
        exact hI.same (by exact ⟨rfl, rfl, rfl, rfl, conns_pop hready (by rw [hjob]; rfl)⟩) h
      | wait =>
        simp only [dispatch, hjob]
        have hpop : I { w with io := { w.io with ready := rest } } :=
          hI.same (by exact ⟨rfl, rfl, rfl, rfl, conns_pop hready (by rw [hjob]; rfl)⟩) h
        apply hI.handleWait hpop
        intro herror hopen hlate hv
        exact hflush s k rest rfl hready hjob herror hopen hlate hv
      | conn id op =>
        rcases dispatch_conn (w := w.pop rest) hjob with
          ⟨hfind, -, heq⟩ | ⟨fault, heq⟩ | ⟨e, he, rfl, f, hf, heq⟩
        · exact heq ▸ hI.orphan hready hjob hfind h
        · exact heq ▸ hI.crash fault hready h
        · have hhandled := hI.handled (w := w) s hready hjob he hf h
          exact heq ▸ hhandled
  | disconnect id p =>
    obtain ⟨e, hfind, hstep⟩ := Option.bind_eq_some_iff.mp hstep
    split at hstep
    next hp =>
      cases hstep
      exact hI.disconnect (World.mem_of_find hfind).1 hp h
    · cases hstep
  | disconnectAccepted =>
    simp only [run] at hstep
    split at hstep
    · cases hstep
      exact hI.same (by exact ⟨rfl, rfl, rfl, rfl, rfl⟩) h
    · cases hstep
  | stop =>
    cases hstep
    exact hI.same (by exact ⟨rfl, rfl, rfl, rfl, rfl⟩) h
  | clock now =>
    cases hstep
    exact hI.same (by exact ⟨rfl, rfl, rfl, rfl, rfl⟩) h

end Keeps

structure Numbered (next : ConnId) (es : List Entry) (io : Io) : Prop where
  nodup : (es.map Entry.id).Nodup
  entries : ∀ e ∈ es, e.id < next
  outstanding : ∀ id op, .conn id op ∈ io.outstanding → id < next
  ready : ∀ k ∈ io.ready, ∀ id op, k.job = .conn id op → id < next

section numbered

variable {cfg : Config} {next : ConnId} {es es' : List Entry} {io io' : Io} {w : World}

theorem Numbered.unique (h : Numbered next es io) {e e' : Entry} (he : e ∈ es) (he' : e' ∈ es)
    (hid : e'.id = e.id) : e' = e := List.inj_on_of_nodup_map h.nodup he' he hid

theorem Numbered.sublist (h : Numbered next es io) (hes : (es'.map Entry.id).Sublist (es.map Entry.id)) :
    Numbered next es' io := by
  refine ⟨h.nodup.sublist hes, ?_, h.outstanding, h.ready⟩
  intro e he
  obtain ⟨e', he', hid⟩ := List.mem_map.mp (hes.subset (List.mem_map_of_mem he))
  exact hid ▸ h.entries e' he'

theorem Numbered.stage (h : Numbered next es io) {e : Entry} (he : e ∈ es) (hs : Stage e.id io io') :
    Numbered next es io' := by
  refine ⟨h.nodup, h.entries, ?_, ?_⟩
  · intro id op hjob
    rcases hs.others _ hjob with hjob | hown
    · exact h.outstanding id op hjob
    · obtain rfl : id = e.id := by simpa [Job.of] using hown
      exact h.entries e he
  · intro k hk id op hjob
    rcases hs.ready k hk with hk | ⟨hown, -⟩
    · exact h.ready k hk id op hjob
    · obtain rfl : id = e.id := by simpa [Job.of, hjob] using hown
      exact h.entries e he

theorem Numbered.pop (h : Numbered next es io) {k : Completion} {rest : List Completion}
    (hready : io.ready = k :: rest) : Numbered next es { io with ready := rest } :=
  ⟨h.nodup, h.entries, h.outstanding, fun k hk => h.ready k (hready ▸ List.mem_cons_of_mem _ hk)⟩

theorem numbered_forEach {run : Entry → Except Fault (Bool × Frame)} (h : Numbered next es io)
    (hloop : forEach run es io = .ok (es', io')) : Numbered next es' io' := by
  have hturn := forEach_induction (I := fun passed es io => Numbered next (passed ++ es) io) ?_ hloop h
  · simpa using hturn
  · intro passed e es io keep f hi _
    apply Numbered.sublist (hi.stage (by simp) (stage_perform f e io))
    cases keep with
    | true => simp [Entry.leave]
    | false => simp

theorem map_id_replace (e : Entry) (w : World) :
    (w.replace e).tcpConnections.map Entry.id = w.tcpConnections.map Entry.id := by
  simp only [World.replace, List.map_map]
  apply List.map_congr_left
  intro e' _
  simp only [Function.comp]
  split
  next h => exact h.symm
  · rfl

def World.Numbered (w : World) : Prop := TcpProxy.Numbered w.nextConn w.tcpConnections w.io

theorem numbered_withLoop {run : Entry → Except Fault (Bool × Frame)} (h : w.Numbered) :
    (w.withLoop (forEach run w.tcpConnections w.io)).Numbered := by
  cases hloop : forEach run w.tcpConnections w.io with
  | error fault => exact h
  | ok r => exact numbered_forEach h hloop

theorem keeps_numbered (cfg : Config) : Keeps cfg World.Numbered where
  same {w w'} hsame h := by
    refine ⟨hsame.entries ▸ h.nodup, ?_, ?_, ?_⟩
    · rw [hsame.entries, hsame.next]
      exact h.entries
    · intro id op hjob
      rw [← mem_conns_outstanding, hsame.conns, mem_conns_outstanding] at hjob
      rw [hsame.next]
      exact h.outstanding id op hjob
    · intro k hk id op hjob
      rw [← mem_conns_ready hjob, hsame.conns, mem_conns_ready hjob] at hk
      rw [hsame.next]
      exact h.ready k hk id op hjob
  fault _ h := h
  now _ h := h
  stopAll _ h := numbered_withLoop h
  add {w} s h := by
    constructor
    · simp only [World.addConnection, List.map_append, List.map_cons, List.map_nil]
      rw [List.nodup_append]
      refine ⟨h.nodup, List.nodup_singleton _, ?_⟩
      rintro _ hid _ hnew rfl
      obtain ⟨e, he, rfl⟩ := List.mem_map.mp hid
      exact absurd (h.entries e he) (by simp [List.mem_singleton.mp hnew])
    · intro e he
      rcases List.mem_append.mp he with he | he
      · exact Nat.lt_succ_of_lt (h.entries e he)
      · obtain rfl := List.mem_singleton.mp he
        exact Nat.lt_succ_self _
    · intro id op hjob
      rcases List.mem_append.mp hjob with hjob | hjob
      · exact Nat.lt_succ_of_lt (h.outstanding id op hjob)
      · cases List.mem_singleton.mp hjob
        exact Nat.lt_succ_self _
    · intro k hk id op hjob
      exact Nat.lt_succ_of_lt (h.ready k hk id op hjob)
  complete {w job} error n hjob _ h := by
    refine ⟨h.nodup, h.entries, fun id op hop => h.outstanding id op (List.mem_of_mem_erase hop), ?_⟩
    intro k hk id op hop
    rcases List.mem_append.mp hk with hk | hk
    · exact h.ready k hk id op hop
    · obtain rfl := List.mem_singleton.mp hk
      exact h.outstanding id op (hop ▸ hjob)
  orphan hready _ _ h := h.pop hready
  crash _ hready h := h.pop hready
  handled {w} s k rest e op f hready _ he _ h := by
    have hstage := (h.pop hready).stage he (stage_perform f e _)
    exact hstage.sublist (map_id_replace _ w ▸ List.Sublist.refl _)
  disconnect {w e p} _ _ h := h.sublist (map_id_replace _ w ▸ List.Sublist.refl _)

end numbered

end TcpUdpProxy.TcpProxy
