import TcpUdpProxy.LockBookkeeping
import TcpUdpProxy.Library.WaitGraph
import Mathlib.Data.Int.Order.Basic

/-!
Level order and deadlock. The level of a mutex is compared after `mutex.lock()`, so that a lock out of order
on a mutex that another thread has blocks like any other.
-/

namespace TcpUdpProxy.Xthread

open Execution

variable {T M : Type} [DecidableEq T] [DecidableEq M]

def Holds (w : World T M) (t : T) (m : M) : Prop := (w.mutexes m).owner = some t

def Wants (w : World T M) (t : T) (m : M) : Prop :=
  (w.threads t).mode = .locking m ∨ ∃ extraLock, (w.threads t).mode = .relocking m extraLock

def Deadlock (w : World T M) : Prop := WaitGraph.Deadlock (Holds w) (Wants w)

def OutOfOrder (cfg : Config M) (w : World T M) (t : T) (m : M) : Prop :=
  m ∉ (w.threads t).scopes ∧ ∃ k ∈ (w.threads t).scopes, cfg.priLevel m ≤ cfg.priLevel k

def HeldByOther (w : World T M) (t : T) (m : M) : Prop := ∃ u, u ≠ t ∧ Holds w u m

/-- The step makes no cycle, and as a lock out of order it is the failed assertion. -/
def Excludes (cfg : Config M) (w : World T M) (ev : Event T M) : Prop :=
  ∀ w', step cfg w ev = some w' →
    ¬ Deadlock w' ∧ ∀ t m, ev = .lock t m → OutOfOrder cfg w t m → w' = w.throwAssert t m

def Overtakes (cfg : Config M) (w : World T M) (ev : Event T M) : Prop :=
  ∃ t m, ev = .lock t m ∧ OutOfOrder cfg w t m ∧ HeldByOther w t m

def Ordered (cfg : Config M) (w : World T M) : Prop :=
  ∀ t m, (w.threads t).mode = .locking m → ∀ k ∈ (w.threads t).scopes, cfg.priLevel k < cfg.priLevel m

variable {cfg : Config M} {w w' : World T M} {t u : T} {m k : M} {extraLock : ℕ} {ev : Event T M}
  {es : List (Event T M)}

omit [DecidableEq M] in
theorem unavailable_iff : w.available t m = false ↔ HeldByOther w t m := by
  rw [← Bool.not_eq_true, available_iff]
  constructor
  · intro hblocked
    cases howner : (w.mutexes m).owner with
    | none => exact absurd (.inl howner) hblocked
    | some u =>
      refine ⟨u, ?_, howner⟩
      rintro rfl
      exact hblocked (.inr howner)
  · rintro ⟨u, hne, hholds⟩ (hnone | hself)
    · rw [Holds, hnone] at hholds
      cases hholds
    · rw [Holds, hself] at hholds
      exact hne (Option.some.inj hholds).symm

instance decidableOutOfOrder (cfg : Config M) (w : World T M) (t : T) (m : M) : Decidable (OutOfOrder cfg w t m) :=
  inferInstanceAs (Decidable (_ ∧ _))

omit [DecidableEq M] in
theorem overtakes_lock : Overtakes cfg w (.lock t m) ↔ OutOfOrder cfg w t m ∧ w.available t m = false := by
  rw [unavailable_iff]
  constructor
  · rintro ⟨t', m', hev, hout, hheld⟩
    cases hev
    exact ⟨hout, hheld⟩
  · rintro ⟨hout, hheld⟩
    exact ⟨t, m, rfl, hout, hheld⟩

instance decidableOvertakes (cfg : Config M) (w : World T M) : ∀ ev, Decidable (Overtakes cfg w ev)
  | .lock _ _ => decidable_of_iff' _ overtakes_lock
  | .resume _ | .unlock _ | .wait _ _ | .round _ | .wake _ => isFalse fun ⟨_, _, hev, _⟩ => nomatch hev

omit [DecidableEq M] in
theorem levelled_of (hlevels : ∀ m, 0 ≤ cfg.priLevel m) (m : M) : cfg.levelled m = true := by
  rw [levelled_iff]
  have hm := hlevels m
  unfold nocarePrimaryLevel
  omega

omit [DecidableEq T] in
theorem misordered_of (hlevels : ∀ m, 0 ≤ cfg.priLevel m) (h : OutOfOrder cfg w t m) :
    Misordered cfg (w.threads t).scopes m := by
  obtain ⟨hmem, k, hk, hle⟩ := h
  exact ⟨levelled_of hlevels m, hmem, k, mem_distinct.mpr ⟨hk, levelled_of hlevels k⟩, hle⟩

theorem InWait.below {scopes : List M} (h : InWait cfg scopes m extraLock) (hlevels : ∀ m, 0 ≤ cfg.priLevel m)
    (hdec : ((cfg.distinct scopes).map cfg.priLevel).Pairwise (· > ·)) (hk : k ∈ scopes) (hne : k ≠ m) :
    cfg.priLevel k < cfg.priLevel m := by
  have hin : k ∈ (cfg.distinct scopes).filter (· ≠ m) := by
    rw [List.mem_filter, mem_distinct]
    exact ⟨⟨hk, levelled_of hlevels k⟩, by simpa using hne⟩
  rw [h.distinct_levelled (levelled_of hlevels m), List.map_cons] at hdec
  exact List.rel_of_pairwise_cons hdec (List.mem_map_of_mem hin)

theorem ranked (hlevels : ∀ m, 0 ≤ cfg.priLevel m) (hw : w.Sound cfg) (hordered : Ordered cfg w) :
    WaitGraph.Ranked cfg.priLevel (Holds w) (Wants w) := by
  intro t m k hwants hholds
  have hdepth : 0 < (w.threads t).depth k := hw.owner_iff.mp hholds
  rcases hwants with hmode | ⟨extraLock, hmode⟩
  · have houtside : (w.threads t).Outside := .inr ⟨m, hmode⟩
    rw [houtside.depth, List.count_pos_iff] at hdepth
    exact hordered t m hmode k hdepth
  · have hsound := hw.thread t
    have hwaits : InWait cfg (w.threads t).scopes m extraLock := by
      have hwaits := hsound.waits
      unfold Thread.Waits at hwaits
      rw [hmode] at hwaits
      exact hwaits
    unfold Thread.depth at hdepth
    rw [hmode] at hdepth
    have hdepth : 0 < if k = m then 0 else (w.threads t).scopes.count k := hdepth
    split at hdepth
    · exact absurd hdepth (Nat.lt_irrefl 0)
    next hne => exact hwaits.below hlevels hsound.decreasing (List.count_pos_iff.mp hdepth) hne

theorem ordered_step (hw : w.Sound cfg) (hordered : Ordered cfg w) (h : step cfg w ev = some w')
    (hnot : ¬ Overtakes cfg w ev) : Ordered cfg w' := by
  intro t m hlocking k hk
  by_cases ht : t = ev.thread
  · subst ht
    obtain ⟨th, heq, hmoved⟩ := step_moved h
    rw [heq, Function.update_self] at hlocking hk
    cases hmoved with
    | leave => cases hlocking
    | @block t m' hmode hblocked =>
      cases hlocking
      by_contra hle
      refine hnot ⟨t, m, rfl, ⟨?_, k, hk, not_lt.mp hle⟩, unavailable_iff.mp hblocked⟩
      have houtside : (w.threads t).Outside := .inl hmode
      rw [← List.count_eq_zero, ← houtside.depth]
      exact hw.other t m hblocked
    | inside hmode => exact absurd hlocking (hmode m)
  · rw [threads_other h ht] at hlocking hk
    exact hordered t m hlocking k hk

theorem excludes_of (hlevels : ∀ m, 0 ≤ cfg.priLevel m) (hw : w.Sound cfg) (hordered : Ordered cfg w)
    (hnot : ¬ Overtakes cfg w ev) : Excludes cfg w ev := by
  intro w' hstep
  refine ⟨(ranked hlevels (sound_step hw hstep) (ordered_step hw hordered hstep hnot)).no_deadlock, ?_⟩
  rintro t m rfl hout
  obtain ⟨hfault, hstep⟩ := step_cases hstep
  cases hstep with
  | lock hmode havail =>
    obtain ⟨-, heq⟩ | ⟨hmis, -⟩ := Entering.result ⟨hw, hfault, .inl hmode, havail⟩
    · exact heq
    · exact absurd (misordered_of hlevels hout) hmis
  | block hmode hblocked => exact absurd ⟨t, m, rfl, hout, unavailable_iff.mp hblocked⟩ hnot

theorem not_overtakes_of (h : step cfg w ev = some w') (hexcludes : Excludes cfg w ev) : ¬ Overtakes cfg w ev := by
  rintro ⟨t, m, rfl, hout, hheld⟩
  have heq := (hexcludes w' h).2 t m rfl hout
  obtain ⟨-, hstep⟩ := step_cases h
  cases hstep with
  | lock hmode havail =>
    rw [unavailable_iff.mpr hheld] at havail
    cases havail
  | block =>
    have hfailures : w.failures = w.failures ++ [(t, m)] := congrArg World.failures heq
    exact absurd hfailures (by simp)

theorem deadlock_excluded_iff (hlevels : ∀ m, 0 ≤ cfg.priLevel m)
    (h : exec (step cfg) (initial T M) es = some w) :
    Along (step cfg) (Excludes cfg) (initial T M) es ↔
      Along (step cfg) (fun w ev => ¬ Overtakes cfg w ev) (initial T M) es := by
  constructor
  · exact along_mono (fun w ev w' hstep hexcludes => not_overtakes_of hstep hexcludes) h
  · intro hnot
    apply along_guarded (I := fun w => w.Sound cfg ∧ Ordered cfg w) _ _ hnot
    · exact ⟨sound_initial, nofun⟩
    · rintro w ev w' ⟨hw, hordered⟩ hnot hstep
      exact ⟨sound_step hw hstep, ordered_step hw hordered hstep hnot⟩
    · rintro w ev ⟨hw, hordered⟩ hnot
      exact excludes_of hlevels hw hordered hnot

theorem deadlock_excluded_ordered : ∃ w, exec (step twoLevels) (initial Bool Bool)
      [.lock true false, .lock false false, .lock true true, .unlock true, .unlock true, .resume false] = some w ∧
    Along (step twoLevels) (Excludes twoLevels) (initial Bool Bool)
      [.lock true false, .lock false false, .lock true true, .unlock true, .unlock true, .resume false] := by
  obtain ⟨w, hw⟩ := Option.isSome_iff_exists.mp (show (exec (step twoLevels) (initial Bool Bool)
    [.lock true false, .lock false false, .lock true true, .unlock true, .unlock true,
      .resume false]).isSome = true by decide)
  refine ⟨w, hw, (deadlock_excluded_iff ?_ hw).mpr ?_⟩
  · intro m
    cases m <;> decide
  · decide

/-- Each thread has one of the two mutexes. The last lock is out of order, and blocks. -/
theorem crossed_deadlock : (∀ m, 0 ≤ twoLevels.priLevel m) ∧ ∃ u w, exec (step twoLevels) (initial Bool Bool)
      [.lock true true, .lock false false, .lock false true] = some u ∧ OutOfOrder twoLevels u true false ∧
    step twoLevels u (.lock true false) = some w ∧ Deadlock w ∧ w.failures = [] := by
  have hrun : ((exec (step twoLevels) (initial Bool Bool)
      [.lock true true, .lock false false, .lock false true]).bind fun u =>
        (step twoLevels u (.lock true false)).map fun w => (decide (OutOfOrder twoLevels u true false),
          (w.threads true).mode, (w.threads false).mode, (w.mutexes true).owner, (w.mutexes false).owner,
          w.failures)) =
      some (true, .locking false, .locking true, some true, some false, []) := rfl
  refine ⟨fun m => by cases m <;> decide, ?_⟩
  obtain ⟨u, hu, hrun⟩ := Option.bind_eq_some_iff.mp hrun
  obtain ⟨w, hw, hlast⟩ := Option.map_eq_some_iff.mp hrun
  simp only [Prod.mk.injEq, decide_eq_true_eq] at hlast
  obtain ⟨hout, hfirst, hsecond, hupper, hlower, hfailures⟩ := hlast
  have hforth : WaitGraph.WaitsFor (Holds w) (Wants w) true false := ⟨false, .inl hfirst, hlower⟩
  have hback : WaitGraph.WaitsFor (Holds w) (Wants w) false true := ⟨true, .inl hsecond, hupper⟩
  exact ⟨u, w, hu, hout, hw, ⟨true, .tail (.single hforth) hback⟩, hfailures⟩

end TcpUdpProxy.Xthread
