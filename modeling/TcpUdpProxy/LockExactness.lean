import TcpUdpProxy.LockBookkeeping
import Mathlib.Data.List.Perm.Subperm

namespace TcpUdpProxy.Xthread

open Execution

variable {T M : Type} [DecidableEq T] [DecidableEq M]

/-- No thread has more levelled mutexes than its stack has room for. -/
def Fits (cfg : Config M) (w : World T M) : Prop :=
  ∀ t, (cfg.distinct (w.threads t).scopes).length ≤ maxStackElement

structure Exact (cfg : Config M) (w : World T M) (t : T) : Prop where
  increasing : (w.threads t).levels.reverse.Pairwise (· < ·)
  levels : (w.threads t).levels = (cfg.distinct (w.threads t).scopes).map cfg.priLevel
  held : ∀ m, (w.mutexes m).owner = some t ↔ m ∈ (w.threads t).scopes
  count : ∀ m ∈ (w.threads t).scopes, (w.mutexes m).recursionCount = (w.threads t).scopes.count m

structure Unchanged (w w' : World T M) : Prop where
  mutexes : w'.mutexes = w.mutexes
  scopes : ∀ t, (w'.threads t).scopes = (w.threads t).scopes
  levels : ∀ t, (w'.threads t).locksHold = (w.threads t).locksHold

def Refused (cfg : Config M) (w : World T M) (ev : Event T M) (t : T) (m : M) : Prop :=
  (Misordered cfg (w.threads t).scopes m ∧ (ev = .lock t m ∨ ev = .resume t ∧ (w.threads t).mode = .locking m)) ∨
  (ev = .wait t m ∧ cfg.levelled m = true ∧ (cfg.distinct (w.threads t).scopes).head? ≠ some m)

structure Returned (t : T) (u w : World T M) : Prop where
  scopes : (w.threads t).scopes = (u.threads t).scopes
  levels : (w.threads t).levels = (u.threads t).levels
  count : ∀ m ∈ (u.threads t).scopes, (w.mutexes m).recursionCount = (u.mutexes m).recursionCount

structure Bookkept (cfg : Config M) (es : List (Event T M)) (w : World T M) : Prop where
  fault : w.fault = none
  exact : ∀ t, (w.threads t).Outside → Exact cfg w t
  failed : ∀ ev w', step cfg w ev = some w' → w'.failures ≠ w.failures →
    Unchanged w w' ∧ ∃ t m, w'.failures = w.failures ++ [(t, m)] ∧ Refused cfg w ev t m
  blocked : ∀ t m w', step cfg w (.lock t m) = some w' → (w'.threads t).mode = .locking m → Unchanged w w'
  released : ∀ t m extraLock, (w.threads t).mode = .waiting m extraLock →
    (w.mutexes m).owner ≠ some t ∧ ((w.mutexes m).owner = none → (w.mutexes m).recursionCount = 0)
  returned : ∀ t m as bs u u', es = as ++ .wait t m :: bs →
    exec (step cfg) (initial T M) as = some u → step cfg u (.wait t m) = some u' →
    Along (step cfg) (fun s _ => (s.threads t).mode ≠ .idle) u' bs →
    (w.threads t).mode = .idle → Returned t u w

variable {cfg : Config M} {w w' : World T M} {t u : T} {m : M} {extraLock left : ℕ} {ev : Event T M}

omit [DecidableEq M] in
theorem Thread.not_outside {th : Thread M} (hidle : th.mode ≠ .idle) (hlocking : ∀ m, th.mode ≠ .locking m) :
    ¬ th.Outside := by
  rintro (hmode | ⟨m, hmode⟩)
  · exact hidle hmode
  · exact hlocking m hmode

section calls

theorem inWait_step (h : step cfg w ev = some w') (hwait : ¬ (w.threads t).Outside) :
    (w'.threads t).scopes = (w.threads t).scopes ∧ ((w'.threads t).mode = .idle ∨ ¬ (w'.threads t).Outside) := by
  by_cases ht : t = ev.thread
  · subst ht
    obtain ⟨th, heq, hmoved⟩ := step_moved h
    rw [heq, Function.update_self]
    cases hmoved with
    | leave houtside => exact absurd houtside hwait
    | block hmode => exact absurd (.inl hmode) hwait
    | @inside ev levels mode hlocking =>
      by_cases hidle : mode = .idle
      · exact ⟨rfl, .inl hidle⟩
      · exact ⟨rfl, .inr (Thread.not_outside hidle hlocking)⟩
  · rw [threads_other h ht]
    exact ⟨rfl, .inr hwait⟩

theorem inWait_run {es : List (Event T M)} (h : exec (step cfg) w es = some w')
    (hbusy : Along (step cfg) (fun s _ => (s.threads t).mode ≠ .idle) w es)
    (hwait : (w.threads t).mode = .idle ∨ ¬ (w.threads t).Outside) :
    (w'.threads t).scopes = (w.threads t).scopes := by
  induction es generalizing w with
  | nil =>
    cases h
    rfl
  | cons ev es ih =>
    obtain ⟨u, hu, h⟩ := exec_cons_some.mp h
    rw [along_cons hu] at hbusy
    obtain ⟨hscopes, hnext⟩ := inWait_step hu (hwait.resolve_left hbusy.1)
    rw [ih h hbusy.2 hnext, hscopes]

omit [DecidableEq M] in
theorem wait_entered (cfg : Config M) (t : T) (m : M) (w : World T M) :
    ((w.wait cfg t m).threads t).scopes = (w.threads t).scopes ∧
    (((w.wait cfg t m).threads t).mode = .idle ∨ ¬ ((w.wait cfg t m).threads t).Outside) := by
  unfold World.wait
  split
  · rw [enter_self]
    exact ⟨rfl, .inr (Thread.not_outside nofun nofun)⟩
  · rw [throwAssert_self]
    exact ⟨rfl, .inl rfl⟩

end calls

section results

theorem fault_step (hw : w.Sound cfg) (h : step cfg w ev = some w') (hfits : Fits cfg w') : w'.fault = none := by
  obtain ⟨hfault, hstep⟩ := step_cases h
  have hscoped : ∀ {t m}, Entering cfg w t m → Fits cfg (w.scopedLock cfg t m) →
      (w.scopedLock cfg t m).fault = none := by
    intro t m hentering hfits
    obtain ⟨-, heq⟩ | ⟨-, levels, fault, heq, -, hfull⟩ := hentering.result
    · rw [heq]
      exact hfault
    · rw [heq] at hfits ⊢
      by_contra hne
      have hroom := hfits t
      dsimp only at hroom
      rw [Function.update_self] at hroom
      exact absurd hroom (Nat.not_le.mpr (hfull hne))
  cases hstep with
  | lock hmode havail => exact hscoped ⟨hw, hfault, .inl hmode, havail⟩ hfits
  | resume hmode havail => exact hscoped ⟨hw, hfault, .inr ⟨_, hmode⟩, havail⟩ hfits
  | block | unlock | releasing | released | miscounted | wake | restored => exact hfault
  | wait =>
    unfold World.wait
    split
    · exact hfault
    · exact hfault
  | relock hth havail => exact (sound_relock hw hfault havail hth).2
  | restore hth =>
    rw [(restore_eq hw hth).2]
    exact hfault

theorem exact_outside (hw : w.Sound cfg) (hfault : w.fault = none) (houtside : (w.threads t).Outside) :
    Exact cfg w t := by
  have hlevels : (w.threads t).levels = (cfg.distinct (w.threads t).scopes).map cfg.priLevel :=
    hw.levels_outside hfault houtside
  refine ⟨?_, hlevels, ?_, ?_⟩
  · rw [hlevels, List.pairwise_reverse]
    exact (hw.thread t).decreasing
  · intro m
    rw [hw.owner_iff, houtside.depth, List.count_pos_iff]
  · intro m hm
    obtain ⟨-, hmutex⟩ := mutex_at hw (houtside.depth m) (List.count_pos_iff.mpr hm)
    rw [hmutex]
    rfl

theorem check_refused (hw : w.Sound cfg) (hfault : w.fault = none) (houtside : (w.threads t).Outside)
    (hcheck : ¬ (cfg.priLevel m = nocarePrimaryLevel ∨
      (w.threads t).locksHold.bind QuickIntStack.top = some (cfg.priLevel m))) :
    cfg.levelled m = true ∧ (cfg.distinct (w.threads t).scopes).head? ≠ some m := by
  refine ⟨levelled_iff.mpr fun hlevel => hcheck (.inl hlevel), fun hhead => hcheck (.inr ?_)⟩
  obtain ⟨rest, hrest⟩ := List.head?_eq_some_iff.mp hhead
  have hstack := hw.levels_outside hfault houtside
  rw [hrest, List.map_cons] at hstack
  obtain ⟨s, hs, htop, -⟩ := levels_some hstack
  rw [hs]
  exact htop

theorem failed_step (hw : w.Sound cfg) (h : step cfg w ev = some w') (hne : w'.failures ≠ w.failures) :
    ∃ t m, w' = w.throwAssert t m ∧ Refused cfg w ev t m := by
  obtain ⟨hfault, hstep⟩ := step_cases h
  have hscoped : ∀ {t m}, Entering cfg w t m → (w.scopedLock cfg t m).failures ≠ w.failures →
      Misordered cfg (w.threads t).scopes m ∧ w.scopedLock cfg t m = w.throwAssert t m := by
    intro t m hentering hne
    obtain hmisordered | ⟨-, levels, fault, heq, -⟩ := hentering.result
    · exact hmisordered
    · rw [heq] at hne
      exact absurd rfl hne
  cases hstep with
  | @lock t m hmode havail =>
    obtain ⟨hmisordered, heq⟩ := hscoped ⟨hw, hfault, .inl hmode, havail⟩ hne
    exact ⟨t, m, heq, .inl ⟨hmisordered, .inl rfl⟩⟩
  | @resume t m hmode havail =>
    obtain ⟨hmisordered, heq⟩ := hscoped ⟨hw, hfault, .inr ⟨m, hmode⟩, havail⟩ hne
    exact ⟨t, m, heq, .inl ⟨hmisordered, .inr ⟨rfl, hmode⟩⟩⟩
  | @wait t m scopes levels hth =>
    have houtside : (w.threads t).Outside := .inl (by rw [hth])
    unfold World.wait at hne ⊢
    split at hne
    · exact absurd rfl hne
    next hcheck =>
      rw [if_neg hcheck]
      exact ⟨t, m, rfl, .inr ⟨rfl, check_refused hw hfault houtside hcheck⟩⟩
  | block | unlock | releasing | released | wake | restored => exact absurd rfl hne
  | miscounted hth hcount => exact absurd (sound_released hw hfault hth).1 hcount
  | relock => exact absurd (w.relock_threads cfg _ _ _).1 hne
  | restore hth =>
    rw [(restore_eq hw hth).2] at hne
    exact absurd rfl hne

omit [DecidableEq M] in
theorem unchanged_enter (mode : Mode M) (hthreads : w'.threads = (w.enter t mode).threads)
    (hmutexes : w'.mutexes = w.mutexes) : Unchanged w w' := by
  have hscopes : ∀ u, (w'.threads u).scopes = (w.threads u).scopes ∧
      (w'.threads u).locksHold = (w.threads u).locksHold := by
    intro u
    rw [hthreads]
    by_cases hu : u = t
    · rw [hu, enter_self]
      exact ⟨rfl, rfl⟩
    · rw [show (w.enter t mode).threads u = w.threads u from Function.update_of_ne hu _ _]
      exact ⟨rfl, rfl⟩
  exact ⟨hmutexes, fun u => (hscopes u).1, fun u => (hscopes u).2⟩

theorem blocked_step (h : step cfg w (.lock t m) = some w') (hmode : (w'.threads t).mode = .locking m) :
    Unchanged w w' := by
  obtain ⟨-, hstep⟩ := step_cases h
  cases hstep with
  | lock =>
    obtain ⟨scopes, levels, heq⟩ := w.scopedLock_threads cfg t m
    rw [heq, Function.update_self] at hmode
    cases hmode
  | block => exact unchanged_enter (.locking m) rfl rfl

theorem released_waiting (hw : w.Sound cfg) (hmode : (w.threads t).mode = .waiting m extraLock) :
    (w.mutexes m).owner ≠ some t ∧ ((w.mutexes m).owner = none → (w.mutexes m).recursionCount = 0) := by
  have hdepth : (w.threads t).depth m = 0 := by
    unfold Thread.depth
    rw [hmode]
    exact if_pos rfl
  constructor
  · intro howner
    exact absurd (hw.owner_iff.mp howner) (hdepth ▸ Nat.lt_irrefl 0)
  · intro hnone
    rw [hw.mutex t m (available_iff.mpr (.inl hnone)), hdepth]
    rfl

omit [DecidableEq T] in
theorem Exact.returned (hu : Exact cfg w t) (hw : Exact cfg w' t)
    (hscopes : (w'.threads t).scopes = (w.threads t).scopes) : Returned t w w' := by
  refine ⟨hscopes, ?_, ?_⟩
  · rw [hw.levels, hu.levels, hscopes]
  · intro m hm
    rw [hu.count m hm, hw.count m (hscopes ▸ hm), hscopes]

end results

section runs

variable {es : List (Event T M)}

theorem fault_run (h : exec (step cfg) (initial T M) es = some w)
    (hfits : ∀ as bs u, es = as ++ bs → exec (step cfg) (initial T M) as = some u → Fits cfg u) :
    w.fault = none := by
  obtain rfl | ⟨as, ev, hes⟩ := List.eq_nil_or_concat es
  · cases h
    rfl
  · rw [List.concat_eq_append] at hes
    obtain ⟨u, hu, hstep⟩ := exec_append_some.mp (hes ▸ h)
    rw [exec_single] at hstep
    exact fault_step (sound_run hu) hstep (hfits es [] w (List.append_nil es).symm h)

theorem bookkeeping_exact (h : exec (step cfg) (initial T M) es = some w)
    (hfits : ∀ as bs u, es = as ++ bs → exec (step cfg) (initial T M) as = some u → Fits cfg u) :
    Bookkept cfg es w := by
  have hw : w.Sound cfg := sound_run h
  have hfault : w.fault = none := fault_run h hfits
  refine ⟨hfault, fun t => exact_outside hw hfault, ?_, fun t m w' => blocked_step,
    fun t m extraLock => released_waiting hw, ?_⟩
  · intro ev w' hstep hne
    obtain ⟨t, m, heq, hrefused⟩ := failed_step hw hstep hne
    rw [heq]
    exact ⟨unchanged_enter .idle rfl rfl, t, m, rfl, hrefused⟩
  · intro t m as bs u u' hes hu hu' hbusy hmode
    have hrest : exec (step cfg) u' bs = some w := by
      rw [hes, exec_append, hu] at h
      obtain ⟨v, hv, h⟩ := exec_cons_some.mp h
      rw [hu'] at hv
      cases hv
      exact h
    obtain ⟨hufault, hstep⟩ := step_cases hu'
    cases hstep with
    | wait hth =>
      have houtside : (u.threads t).Outside := .inl (by rw [hth])
      obtain ⟨hscopes, hnext⟩ := wait_entered cfg t m u
      apply (exact_outside (sound_run hu) hufault houtside).returned (exact_outside hw hfault (.inl hmode))
      rw [inWait_run hrest hbusy hnext, hscopes]

def waitingRun : List (Event Bool Bool) :=
  [.lock true true, .lock true false, .unlock true, .lock true false, .lock true true, .lock true true,
    .wait true true, .round true, .round true, .lock false true, .unlock false, .wake true, .resume true,
    .round true, .round true]

theorem bookkeeping_waitingRun : ∃ w, exec (step twoLevels) (initial Bool Bool) waitingRun = some w ∧
    (w.threads true).levels = [2, 1] ∧ w.failures = [(true, false)] ∧ Bookkept twoLevels waitingRun w := by
  have hrun : ((exec (step twoLevels) (initial Bool Bool) waitingRun).map fun w =>
      ((w.threads true).levels, w.failures)) = some ([2, 1], [(true, false)]) := by decide
  obtain ⟨w, hw, heq⟩ := Option.map_eq_some_iff.mp hrun
  refine ⟨w, hw, congrArg Prod.fst heq, congrArg Prod.snd heq, bookkeeping_exact hw ?_⟩
  intro as bs u _ _ t
  have hnodup : (twoLevels.distinct (u.threads t).scopes).Nodup := (List.nodup_dedup _).filter _
  have hsubset : twoLevels.distinct (u.threads t).scopes ⊆ [true, false] := by
    intro m _
    cases m <;> decide
  calc (twoLevels.distinct (u.threads t).scopes).length ≤ [true, false].length :=
      (List.subperm_of_subset hnodup hsubset).length_le
    _ ≤ maxStackElement := by decide

end runs

end TcpUdpProxy.Xthread
