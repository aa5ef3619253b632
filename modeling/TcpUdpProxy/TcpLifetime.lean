import TcpUdpProxy.TcpProxyHandlers

namespace TcpUdpProxy.TcpProxy

open TcpConnection TcpMachine Execution

/-- A handler of a connection that `handleWait` has erased runs with `operation_aborted` only. -/
def NoUseAfterFree (w : World) : Event → Prop
  | .dispatch _ =>
    match w.io.ready with
    | ⟨.conn id _, error, _⟩ :: _ => error = .operationAborted ∨ (w.find id).isSome = true
    | _ => True
  | _ => True

def Drained (id : ConnId) (io : Io) : Prop :=
  ∀ k ∈ io.ready, Job.of id k.job = true → k.error = .operationAborted

def erases (cfg : Config) (s : Surroundings) (w : World) (e : Entry) : Bool :=
  !s.timerOk || e.conn.closeFlag || e.conn.activeTime < w.clock - cfg.tcpTimeout

def ErasesDrained (cfg : Config) (w : World) : Event → Prop
  | .dispatch s =>
    match w.io.ready with
    | ⟨.wait, .success, _⟩ :: _ =>
      w.closeFlag = false → w.lastFlushTm < w.clock →
        ∀ e ∈ w.tcpConnections, erases cfg s w e = true → Drained e.id w.io
    | _ => True
  | _ => True

structure Owned (es : List Entry) (io : Io) : Prop where
  outstanding : ∀ id op, .conn id op ∈ io.outstanding → ∃ e ∈ es, e.id = id ∧ e.conn.closeFlag = false
  ready : ∀ k ∈ io.ready, ∀ id op, k.job = .conn id op → k.error ≠ .operationAborted →
    ∃ e ∈ es, e.id = id

section owned

variable {cfg : Config} {next : ConnId} {es es' : List Entry} {io io' : Io} {w : World} {e : Entry}
  {f : Frame} {s : Surroundings}

theorem Drained.perform {id : ConnId} (h : Drained id io) (hid : id ≠ e.id) :
    Drained id (e.perform f io) := by
  intro k hk hown
  rcases (stage_perform f e io).ready k hk with hk | ⟨hother, -⟩
  · exact h k hk hown
  · cases hjob : k.job with
    | accept => simp [Job.of, hjob] at hown
    | wait => simp [Job.of, hjob] at hown
    | conn id' op =>
      simp only [Job.of, hjob, decide_eq_true_eq] at hown hother
      exact absurd (hown.symm.trans hother) hid

theorem Owned.turn (hn : Numbered next es io) (h : Owned es io) (he : e ∈ es)
    (hcloses : Closes e.conn.closeFlag f) (hothers : ∀ e' ∈ es, e'.id ≠ e.id → e' ∈ es')
    (hleft : e.leave f ∈ es' ∨
      f.conn.closeFlag = true ∧ f.actions.all isStop = true ∧ Drained e.id io) :
    Owned es' (e.perform f io) := by
  have hstage := stage_perform f e io
  constructor
  · intro id op hjob
    by_cases hid : id = e.id
    · subst hid
      have hown : Own e.id (e.conn.closeFlag, io) := by
        intro job hjob hof
        cases job with
        | accept => cases hof
        | wait => cases hof
        | conn id op =>
          obtain ⟨e', he', hid, hopen⟩ := h.outstanding id op hjob
          have : e' = e := hn.unique he he' (hid.trans (by simpa [Job.of] using hof))
          exact this ▸ hopen
      have hopen := own_foldl f.actions hown _ hjob (Job.of_conn e.id op)
      rw [fst_foldl_perform, ← show f.conn.closeFlag = _ from hcloses] at hopen
      -- an erased connection is closed and so has nothing outstanding any more
      rcases hleft with hleft | ⟨hclosed, -⟩
      · exact ⟨_, hleft, rfl, hopen⟩
      · rw [hopen] at hclosed
        cases hclosed
    · rcases hstage.others _ hjob with hjob | hown
      · obtain ⟨e', he', hid', hopen⟩ := h.outstanding id op hjob
        exact ⟨e', hothers e' he' (by rwa [hid']), hid', hopen⟩
      · exact absurd (by simpa [Job.of] using hown) hid
  · intro k hk id op hjob hlive
    by_cases hid : id = e.id
    · subst hid
      rcases hleft with hleft | ⟨-, hstops, hdrained⟩
      · exact ⟨_, hleft, rfl⟩
      · rcases ready_foldl_stop hstops k hk with hk | haborted
        · exact absurd (hdrained k hk (by rw [hjob]; exact Job.of_conn _ _)) hlive
        · exact absurd haborted hlive
    · rcases hstage.ready k hk with hk | ⟨hown, -⟩
      · obtain ⟨e', he', hid'⟩ := h.ready k hk id op hjob hlive
        exact ⟨e', hothers e' he' (by rwa [hid']), hid'⟩
      · exact absurd (by simpa [Job.of, hjob] using hown) hid

theorem Owned.pop (h : Owned es io) {k : Completion} {rest : List Completion}
    (hready : io.ready = k :: rest) : Owned es { io with ready := rest } :=
  ⟨h.outstanding, fun k hk => h.ready k (hready ▸ List.mem_cons_of_mem _ hk)⟩

theorem owned_forEach {run : Entry → Except Fault (Bool × Frame)} (hn : Numbered next es io)
    (h : Owned es io)
    (hcloses : ∀ e keep f, run e = .ok (keep, f) → Closes e.conn.closeFlag f)
    (hdrops : ∀ e f, run e = .ok (false, f) →
      f.conn.closeFlag = true ∧ f.actions.all isStop = true)
    (hdrained : ∀ e ∈ es, ∀ f, run e = .ok (false, f) → Drained e.id io)
    (hloop : forEach run es io = .ok (es', io')) : Owned es' io' := by
  let I (passed es : List Entry) (io : Io) : Prop :=
    Numbered next (passed ++ es) io ∧ Owned (passed ++ es) io ∧
      ∀ e ∈ es, ∀ f, run e = .ok (false, f) → Drained e.id io
  have hturn : I es' [] io' := by
    apply forEach_induction (I := I) ?_ hloop ⟨hn, h, hdrained⟩
    rintro passed e es io keep f ⟨hn, h, hdrained⟩ hf
    have he : e ∈ passed ++ e :: es := by simp
    have hnodup := hn.nodup
    simp only [List.map_append, List.map_cons, List.nodup_append, List.nodup_cons] at hnodup
    refine ⟨?_, ?_, ?_⟩
    · apply (hn.stage he (stage_perform f e io)).sublist
      cases keep with
      | true => simp [Entry.leave]
      | false => simp
    · apply h.turn hn he (hcloses e keep f hf)
      · intro e' he' hid
        rcases List.mem_append.mp he' with hpassed | htodo
        · cases keep <;> simp [hpassed]
        · rcases List.mem_cons.mp htodo with rfl | htodo
          · exact absurd rfl hid
          · simp [htodo]
      · cases keep with
        | true => exact .inl (by simp)
        | false => exact .inr ⟨(hdrops e f hf).1, (hdrops e f hf).2, hdrained e (by simp) f hf⟩
    · intro e' he' f' hf'
      apply (hdrained e' (List.mem_cons_of_mem _ he') f' hf').perform
      intro hid
      exact hnodup.2.1.1 (hid ▸ List.mem_map_of_mem he')
  simpa using hturn.2.1

theorem closes_frame (s : Surroundings) (e : Entry) :
    Closes e.conn.closeFlag (e.frame s.availBytes) := by
  simp [Closes, Entry.frame]

theorem owned_stopAll (hn : w.Numbered) (h : Owned w.tcpConnections w.io) :
    Owned (stopAll s w).tcpConnections (stopAll s w).io := by
  unfold stopAll
  cases hloop : forEach (fun e => .ok (true, TcpConnection.stop (e.frame s.availBytes)))
      w.tcpConnections w.io with
  | error fault => exact h
  | ok r =>
    apply owned_forEach hn h ?_ ?_ ?_ hloop
    · intro e keep f hf
      cases hf
      exact (stable_closes _).stop (closes_frame s e)
    · intro e f hf
      cases hf
    · intro e _ f hf
      cases hf

theorem keeps_owned : Keeps cfg fun w => w.Numbered ∧ Owned w.tcpConnections w.io where
  same {w w'} hsame h := by
    refine ⟨(keeps_numbered cfg).same hsame h.1, ?_, ?_⟩
    · intro id op hjob
      rw [← mem_conns_outstanding, hsame.conns, mem_conns_outstanding] at hjob
      rw [hsame.entries]
      exact h.2.outstanding id op hjob
    · intro k hk id op hjob
      rw [← mem_conns_ready hjob, hsame.conns, mem_conns_ready hjob] at hk
      rw [hsame.entries]
      exact h.2.ready k hk id op hjob
  fault _ h := h
  now _ h := h
  stopAll s h := ⟨(keeps_numbered cfg).stopAll s h.1, owned_stopAll h.1 h.2⟩
  add {w} s h := by
    refine ⟨(keeps_numbered cfg).add s h.1, ?_, ?_⟩
    · intro id op hjob
      rcases List.mem_append.mp hjob with hjob | hjob
      · obtain ⟨e, he, hid⟩ := h.2.outstanding id op hjob
        exact ⟨e, List.mem_append_left _ he, hid⟩
      · cases List.mem_singleton.mp hjob
        exact ⟨_, List.mem_append_right _ (List.mem_singleton_self _), rfl, rfl⟩
    · intro k hk id op hjob hlive
      obtain ⟨e, he, hid⟩ := h.2.ready k hk id op hjob hlive
      exact ⟨e, List.mem_append_left _ he, hid⟩
  complete {w job} error n hjob hn h := by
    refine ⟨(keeps_numbered cfg).complete error hjob hn h.1, ?_, ?_⟩
    · intro id op hop
      exact h.2.outstanding id op (List.mem_of_mem_erase hop)
    · intro k hk id op hop hlive
      rcases List.mem_append.mp hk with hk | hk
      · exact h.2.ready k hk id op hop hlive
      · obtain rfl := List.mem_singleton.mp hk
        obtain ⟨e, he, hid, -⟩ := h.2.outstanding id op (hop ▸ hjob)
        exact ⟨e, he, hid⟩
  orphan hready hjob hfind h :=
    ⟨(keeps_numbered cfg).orphan hready hjob hfind h.1, h.2.pop hready⟩
  crash fault hready h := ⟨(keeps_numbered cfg).crash fault hready h.1, h.2.pop hready⟩
  handled {w} s k rest e op f hready hjob he hf h := by
    refine ⟨(keeps_numbered cfg).handled s hready hjob he hf h.1, ?_⟩
    apply (h.2.pop hready).turn (h.1.pop hready) he (closes_handle (closes_frame s e) hf)
    · intro e' he' hid
      exact List.mem_map.mpr ⟨e', he', if_neg hid⟩
    · exact .inl (List.mem_map.mpr ⟨e, he, if_pos rfl⟩)
  disconnect {w e p} he hp h := by
    refine ⟨(keeps_numbered cfg).disconnect he hp h.1, ?_, ?_⟩
    · intro id op hjob
      obtain ⟨e', he', hid, hopen⟩ := h.2.outstanding id op hjob
      by_cases heq : e'.id = e.id
      · obtain rfl := h.1.unique he he' heq
        exact ⟨_, List.mem_map.mpr ⟨e', he', if_pos rfl⟩, hid, hopen⟩
      · exact ⟨e', List.mem_map.mpr ⟨e', he', if_neg heq⟩, hid, hopen⟩
    · intro k hk id op hjob hlive
      obtain ⟨e', he', hid⟩ := h.2.ready k hk id op hjob hlive
      by_cases heq : e'.id = e.id
      · exact ⟨_, List.mem_map.mpr ⟨e', he', if_pos heq⟩, heq.symm.trans hid⟩
      · exact ⟨e', List.mem_map.mpr ⟨e', he', if_neg heq⟩, hid⟩

theorem owned_flush (h : w.Numbered ∧ Owned w.tcpConnections w.io)
    (hdrained : ∀ e ∈ w.tcpConnections,
      e.conn.closeFlag = true ∨ e.conn.activeTime < w.clock - cfg.tcpTimeout → Drained e.id w.io) :
    (w.flush cfg s).Numbered ∧ Owned (w.flush cfg s).tcpConnections (w.flush cfg s).io := by
  refine ⟨numbered_withLoop (w := { w with now := w.clock, lastFlushTm := w.clock }) h.1, ?_⟩
  simp only [World.flush]
  generalize hrun : (fun e : Entry => flushMsgs ⟨cfg.proxyRule, w.clock⟩ cfg.bandwidth
    (w.flushBytes cfg) (w.clock - cfg.tcpTimeout) (e.frame s.availBytes)) = run
  cases hloop : forEach run w.tcpConnections w.io with
  | error fault => exact h.2
  | ok r =>
    subst hrun
    apply owned_forEach h.1 h.2 ?_ ?_ ?_ hloop
    · intro e keep f hf
      exact (stable_closes _).flushMsgs (closes_frame s e) hf
    · intro e f hf
      exact dropped_flushMsgs rfl hf
    · intro e he f hf
      apply hdrained e he
      rcases flushMsgs_cases hf with ⟨hclosed, -⟩ | ⟨-, hexpired, -⟩ | ⟨-, -, hkeep, -⟩
      · exact .inl hclosed
      · exact .inr hexpired
      · cases hkeep

theorem ready_abort {cancelled : Job → Bool} {k : Completion} (hk : k ∈ (io.abort cancelled).ready) :
    k ∈ io.ready ∨ k.error = .operationAborted := by
  rcases List.mem_append.mp hk with hk | hk
  · exact .inl hk
  · obtain ⟨job, -, rfl⟩ := List.mem_map.mp hk
    exact .inr rfl

theorem ready_stopAll {k : Completion} (hk : k ∈ (stopAll s w).io.ready) :
    k ∈ w.io.ready ∨ k.error = .operationAborted := by
  unfold stopAll at hk
  cases hloop : forEach (fun e => .ok (true, TcpConnection.stop (e.frame s.availBytes)))
      w.tcpConnections w.io with
  | error fault =>
    rw [hloop] at hk
    exact .inl hk
  | ok r =>
    rw [hloop] at hk
    apply forEach_induction
      (I := fun _ _ io => ∀ k ∈ io.ready, k ∈ w.io.ready ∨ k.error = .operationAborted)
      ?_ hloop (fun k hk => .inl hk) k hk
    intro _ e _ io keep f hi hf k hk
    cases hf
    rcases ready_foldl_stop (by rfl) k hk with hk | haborted
    · exact hi k hk
    · exact .inr haborted

theorem ids_stopAll {e : Entry} (he : e ∈ (stopAll s w).tcpConnections) :
    ∃ e' ∈ w.tcpConnections, e'.id = e.id := by
  unfold stopAll at he
  cases hloop : forEach (fun e => .ok (true, TcpConnection.stop (e.frame s.availBytes)))
      w.tcpConnections w.io with
  | error fault =>
    rw [hloop] at he
    exact ⟨e, he, rfl⟩
  | ok r =>
    rw [hloop] at he
    have hturn := forEach_induction
      (I := fun passed es _ => ∀ e ∈ passed ++ es, ∃ e' ∈ w.tcpConnections, e'.id = e.id)
      ?_ hloop (fun e he => ⟨e, he, rfl⟩)
    · exact hturn e (List.mem_append_left _ he)
    · intro passed e es io keep f hi hf e' he'
      cases hf
      simp only [if_true, List.mem_append, List.mem_singleton] at he'
      rcases he' with (hpassed | rfl) | htodo
      · exact hi e' (by simp [hpassed])
      · exact hi e (by simp)
      · exact hi e' (by simp [htodo])

theorem drained_asyncWait (hdrained : ∀ e ∈ w.tcpConnections, erases cfg s w e = true →
    Drained e.id w.io) (e : Entry) (he : e ∈ (w.asyncWait s).tcpConnections)
    (hdropped : e.conn.closeFlag = true ∨ e.conn.activeTime < w.clock - cfg.tcpTimeout) :
    Drained e.id (w.asyncWait s).io := by
  unfold World.asyncWait at he ⊢
  dsimp only at he ⊢
  intro k hk hown
  split at he
  next htimer =>
    rw [if_pos htimer] at hk
    rcases ready_abort hk with hk | haborted
    · exact hdrained e he (by simpa [erases, or_assoc] using .inr hdropped) k hk hown
    · exact haborted
  next htimer =>
    rw [if_neg htimer] at hk
    obtain ⟨e', he', hid⟩ := ids_stopAll he
    rcases ready_stopAll hk with hk | haborted
    · rcases ready_abort hk with hk | haborted
      · rcases ready_abort hk with hk | haborted
        · rcases ready_abort hk with hk | haborted
          · exact hdrained e' he' (by simp [erases, htimer]) k hk (hid ▸ hown)
          · exact haborted
        · exact haborted
      · exact haborted
    · exact haborted

theorem owned_step {w' : World} {ev : Event} (h : w.Numbered ∧ Owned w.tcpConnections w.io)
    (hdrained : ErasesDrained cfg w ev) (hstep : step cfg w ev = some w') :
    w'.Numbered ∧ Owned w'.tcpConnections w'.io := by
  apply keeps_owned.step h hstep
  rintro s ⟨job, error, n⟩ rest rfl hready rfl rfl hopen v hlate hv
  apply owned_flush hv
  intro e he hdropped
  have hclock : v.lastFlushTm = w.lastFlushTm ∧ v.clock = w.clock := by
    simp only [v, World.asyncWait]
    split
    · exact ⟨rfl, rfl⟩
    · rw [show World.close s _ = stopAll s _ from rfl]
      simp only [stopAll, World.withLoop]
      split <;> exact ⟨rfl, rfl⟩
  rw [hclock.1, hclock.2] at hlate
  rw [hclock.2] at hdropped
  have hall : ∀ e ∈ w.tcpConnections, erases cfg s w e = true → Drained e.id w.io := by
    have hguard := hdrained
    simp only [ErasesDrained, hready] at hguard
    exact hguard hopen hlate
  apply drained_asyncWait ?_ e he hdropped
  intro e he herases k hk hown
  exact hall e he herases k (hready ▸ List.mem_cons_of_mem _ hk) hown

theorem Owned.noUseAfterFree (h : Owned w.tcpConnections w.io) (ev : Event) : NoUseAfterFree w ev := by
  cases ev with
  | dispatch s =>
    unfold NoUseAfterFree
    dsimp only
    split
    next id op error n rest hready =>
      by_cases haborted : error = .operationAborted
      · exact .inl haborted
      · right
        obtain ⟨e, he, hid⟩ := h.ready _ (by rw [hready]; exact List.mem_cons_self) id op rfl haborted
        rw [World.find, List.find?_isSome]
        exact ⟨e, he, by simpa using hid⟩
    · trivial
  | _ => trivial

end owned

theorem owned_started {w : World} (h : Started w) : w.Numbered ∧ Owned w.tcpConnections w.io := by
  obtain ⟨clock, rfl⟩ := h
  refine ⟨⟨List.nodup_nil, ?_, ?_, ?_⟩, ?_, ?_⟩
  all_goals simp [started]

theorem no_useAfterFree {cfg : Config} {w₀ w : World} {es : List Event} (h₀ : Started w₀)
    (h : exec (step cfg) w₀ es = some w) (hdrained : Along (step cfg) (ErasesDrained cfg) w₀ es) :
    Along (step cfg) NoUseAfterFree w₀ es := by
  have howned := owned_started h₀
  clear h₀
  induction es generalizing w₀ with
  | nil => trivial
  | cons ev es ih =>
    obtain ⟨u, hu, h⟩ := exec_cons_some.mp h
    rw [along_cons hu] at hdrained ⊢
    exact ⟨howned.2.noUseAfterFree ev, ih h hdrained.2 (owned_step howned hdrained.1 hu)⟩

instance (id : ConnId) (io : Io) : Decidable (Drained id io) :=
  inferInstanceAs (Decidable (∀ k ∈ io.ready, _))

instance (cfg : Config) (w : World) (ev : Event) : Decidable (ErasesDrained cfg w ev) := by
  unfold ErasesDrained
  split
  · split <;> infer_instance
  · infer_instance

def expiredConnection : List Event :=
  [.complete .accept .success 0, .dispatch calm, .complete (.conn 0 .connect) .success 0,
    .dispatch calm, .clock 2000, .complete .wait .success 0]

theorem no_useAfterFree_expired : Along (step impatient) NoUseAfterFree (started 0)
    (expiredConnection ++ [.dispatch calm, .dispatch calm, .dispatch calm]) := by
  have hdrained : Along (step impatient) (ErasesDrained impatient) (started 0)
      (expiredConnection ++ [.dispatch calm, .dispatch calm, .dispatch calm]) := by decide
  have hrun : (exec (step impatient) (started 0)
      (expiredConnection ++ [.dispatch calm, .dispatch calm, .dispatch calm])).isSome = true := by decide
  obtain ⟨w, hw⟩ := Option.isSome_iff_exists.mp hrun
  exact no_useAfterFree ⟨0, rfl⟩ hw hdrained

/-- The timer erases the connection while the bytes it has just received wait behind the timer. -/
def readBehindTimer : List Event :=
  expiredConnection ++ [.complete (.conn 0 (.read 0 1)) .success 5, .dispatch calm, .dispatch calm]

instance (w : World) (ev : Event) : Decidable (NoUseAfterFree w ev) := by
  unfold NoUseAfterFree
  split
  · split <;> infer_instance
  · infer_instance

theorem readBehindTimer_useAfterFree : ¬ ∀ (cfg : Config) (w₀ w : World) (es : List Event),
    Started w₀ → exec (step cfg) w₀ es = some w → Along (step cfg) NoUseAfterFree w₀ es := by
  intro h
  have hrun : (exec (step impatient) (started 0) readBehindTimer).isSome = true := by decide
  obtain ⟨w, hw⟩ := Option.isSome_iff_exists.mp hrun
  have hbad : ¬ Along (step impatient) NoUseAfterFree (started 0) readBehindTimer := by decide
  exact hbad (h impatient (started 0) w readBehindTimer ⟨0, rfl⟩ hw)

end TcpUdpProxy.TcpProxy
