import TcpUdpProxy.LockLevels

namespace TcpUdpProxy.Xthread

def Event.thread {T M : Type} : Event T M → T
  | .lock t _ | .resume t | .unlock t | .wait t _ | .round t | .wake t => t

variable {T M : Type} [DecidableEq T] [DecidableEq M]

inductive Stepped (cfg : Config M) (w : World T M) : Event T M → World T M → Prop
  | lock {t m} (hmode : (w.threads t).mode = .idle) (havail : w.available t m = true) :
      Stepped cfg w (.lock t m) (w.scopedLock cfg t m)
  | block {t m} (hmode : (w.threads t).mode = .idle) (hblocked : w.available t m = false) :
      Stepped cfg w (.lock t m) (w.enter t (.locking m))
  | resume {t m} (hmode : (w.threads t).mode = .locking m) (havail : w.available t m = true) :
      Stepped cfg w (.resume t) (w.scopedLock cfg t m)
  | unlock {t m scopes levels} (hth : w.threads t = ⟨m :: scopes, levels, .idle⟩) :
      Stepped cfg w (.unlock t) ((w.unlockMutex cfg t m).modify t fun th => { th with scopes := scopes })
  | wait {t m scopes levels} (hth : w.threads t = ⟨scopes, levels, .idle⟩) (hmem : m ∈ scopes) :
      Stepped cfg w (.wait t m) (w.wait cfg t m)
  | releasing {t m scopes levels extraLock left}
      (hth : w.threads t = ⟨scopes, levels, .releasing m extraLock (left + 1)⟩) :
      Stepped cfg w (.round t) ((w.unlockMutex cfg t m).enter t (.releasing m extraLock left))
  | released {t m scopes levels extraLock} (hth : w.threads t = ⟨scopes, levels, .releasing m extraLock 0⟩)
      (hcount : (w.mutexes m).recursionCount = 1) :
      Stepped cfg w (.round t) ((w.unlockMutex cfg t m).enter t (.waiting m extraLock))
  | miscounted {t m scopes levels extraLock} (hth : w.threads t = ⟨scopes, levels, .releasing m extraLock 0⟩)
      (hcount : (w.mutexes m).recursionCount ≠ 1) : Stepped cfg w (.round t) (w.throwAssert t m)
  | wake {t m scopes levels extraLock} (hth : w.threads t = ⟨scopes, levels, .waiting m extraLock⟩) :
      Stepped cfg w (.wake t) (w.enter t (.relocking m extraLock))
  | relock {t m scopes levels extraLock} (hth : w.threads t = ⟨scopes, levels, .relocking m extraLock⟩)
      (havail : w.available t m = true) : Stepped cfg w (.resume t) (w.relock cfg t m extraLock)
  | restore {t m scopes levels left} (hth : w.threads t = ⟨scopes, levels, .restoring m (left + 1)⟩) :
      Stepped cfg w (.round t) (w.restore cfg t m left)
  | restored {t m scopes levels} (hth : w.threads t = ⟨scopes, levels, .restoring m 0⟩) :
      Stepped cfg w (.round t) (w.enter t .idle)

def Thread.Outside {M : Type} (th : Thread M) : Prop := th.mode = .idle ∨ ∃ m, th.mode = .locking m

inductive Moved (w : World T M) : Event T M → Thread M → Prop
  | leave {ev scopes levels} (houtside : (w.threads ev.thread).Outside) : Moved w ev ⟨scopes, levels, .idle⟩
  | block {t m} (hmode : (w.threads t).mode = .idle) (hblocked : w.available t m = false) :
      Moved w (.lock t m) { w.threads t with mode := .locking m }
  | inside {ev levels mode} (hmode : ∀ m, mode ≠ .locking m) : Moved w ev ⟨(w.threads ev.thread).scopes, levels, mode⟩

section steps

variable {cfg : Config M} {w w' : World T M} {t : T} {m : M} {ev : Event T M}

omit [DecidableEq T] [DecidableEq M] in
theorem thread_eq {mode : Mode M} (h : (w.threads t).mode = mode) :
    w.threads t = ⟨(w.threads t).scopes, (w.threads t).locksHold, mode⟩ := by
  rw [← h]

theorem round_cases (h : w.round cfg t = some w') : Stepped cfg w (.round t) w' := by
  unfold World.round at h
  split at h
  next m extraLock left hmode =>
    cases h
    exact .releasing (thread_eq hmode)
  next m extraLock hmode =>
    split at h
    next hcount =>
      cases h
      exact .released (thread_eq hmode) hcount
    next hcount =>
      cases h
      exact .miscounted (thread_eq hmode) hcount
  next m left hmode =>
    cases h
    exact .restore (thread_eq hmode)
  next m hmode =>
    cases h
    exact .restored (thread_eq hmode)
  · cases h

theorem resume_cases (h : w.resume cfg t = some w') : Stepped cfg w (.resume t) w' := by
  unfold World.resume at h
  split at h
  next m hmode =>
    split at h
    next havail =>
      cases h
      exact .resume hmode havail
    · cases h
  next m extraLock hmode =>
    split at h
    next havail =>
      cases h
      exact .relock (thread_eq hmode) havail
    · cases h
  · cases h

theorem step_cases (h : step cfg w ev = some w') : w.fault = none ∧ Stepped cfg w ev w' := by
  unfold step at h
  split at h
  · cases h
  next hfault =>
    refine ⟨by simpa using hfault, ?_⟩
    cases ev with
    | lock t m =>
      obtain ⟨hmode, h⟩ := Option.ite_none_right_eq_some.mp h
      cases h
      unfold World.lock
      cases havail : w.available t m with
      | true => exact .lock hmode havail
      | false => exact .block hmode havail
    | resume t => exact resume_cases h
    | unlock t =>
      obtain ⟨hmode, h⟩ := Option.ite_none_right_eq_some.mp h
      unfold World.unlock at h
      split at h
      next m scopes hscopes =>
        cases h
        have hth : w.threads t = ⟨m :: scopes, (w.threads t).locksHold, .idle⟩ := by
          rw [← hscopes]
          exact thread_eq hmode
        exact .unlock hth
      · cases h
    | wait t m =>
      obtain ⟨⟨hmode, hmem⟩, h⟩ := Option.ite_none_right_eq_some.mp h
      cases h
      exact .wait (thread_eq hmode) hmem
    | round t => exact round_cases h
    | wake t =>
      change w.wake t = some w' at h
      unfold World.wake at h
      split at h
      next m extraLock hmode =>
        cases h
        exact .wake (thread_eq hmode)
      · cases h

end steps

section results

variable {cfg : Config M} {w : World T M} {t : T} {m : M} {levels levels' : Option QuickIntStack}
  {mtx : XrecursiveMutex T} {scopes : List M} {extraLock left : ℕ} {mode : Mode M}

theorem lockMutex_eq {outcome : Outcome}
    (h : (w.mutexes m).lock (cfg.priLevel m) t (w.threads t).locksHold = (mtx, levels, outcome)) :
    w.lockMutex cfg t m = ({ w with
      threads := Function.update w.threads t { w.threads t with locksHold := levels }
      mutexes := Function.update w.mutexes m mtx }, outcome) := by
  unfold World.lockMutex
  rw [h]
  rfl

theorem unlockMutex_eq
    (h : (w.mutexes m).unlock (cfg.priLevel m) (w.threads t).locksHold = (mtx, levels, false)) :
    w.unlockMutex cfg t m = { w with
      threads := Function.update w.threads t { w.threads t with locksHold := levels }
      mutexes := Function.update w.mutexes m mtx } := by
  unfold World.unlockMutex
  rw [h]
  rfl

theorem unlockMutex_enter (hth : w.threads t = ⟨scopes, levels, mode⟩) (next : Mode M)
    (h : (w.mutexes m).unlock (cfg.priLevel m) levels = (mtx, levels', false)) :
    (w.unlockMutex cfg t m).enter t next = { w with
      threads := Function.update w.threads t ⟨scopes, levels', next⟩
      mutexes := Function.update w.mutexes m mtx } := by
  have h : (w.mutexes m).unlock (cfg.priLevel m) (w.threads t).locksHold = (mtx, levels', false) := by rwa [hth]
  rw [unlockMutex_eq h]
  simp [World.enter, World.modify, hth]

theorem unlockMutex_leave (hth : w.threads t = ⟨m :: scopes, levels, mode⟩)
    (h : (w.mutexes m).unlock (cfg.priLevel m) levels = (mtx, levels', false)) :
    ((w.unlockMutex cfg t m).modify t fun th => { th with scopes := scopes }) = { w with
      threads := Function.update w.threads t ⟨scopes, levels', mode⟩
      mutexes := Function.update w.mutexes m mtx } := by
  have h : (w.mutexes m).unlock (cfg.priLevel m) (w.threads t).locksHold = (mtx, levels', false) := by rwa [hth]
  rw [unlockMutex_eq h]
  simp [World.modify, hth]

theorem relock_success (hth : w.threads t = ⟨scopes, levels, mode⟩)
    (h : (w.mutexes m).lock (cfg.priLevel m) t levels = (mtx, levels', .success)) :
    w.relock cfg t m extraLock = { w with
      threads := Function.update w.threads t ⟨scopes, levels', .restoring m extraLock⟩
      mutexes := Function.update w.mutexes m mtx } := by
  have h : (w.mutexes m).lock (cfg.priLevel m) t (w.threads t).locksHold = (mtx, levels', .success) := by rwa [hth]
  unfold World.relock
  rw [lockMutex_eq h]
  simp [World.enter, World.modify, hth]

theorem restore_success (hth : w.threads t = ⟨scopes, levels, mode⟩)
    (h : (w.mutexes m).lock (cfg.priLevel m) t levels = (mtx, levels', .success)) :
    w.restore cfg t m left = { w with
      threads := Function.update w.threads t ⟨scopes, levels', .restoring m left⟩
      mutexes := Function.update w.mutexes m mtx } := by
  have h : (w.mutexes m).lock (cfg.priLevel m) t (w.threads t).locksHold = (mtx, levels', .success) := by rwa [hth]
  unfold World.restore
  rw [lockMutex_eq h]
  simp [World.enter, World.modify, hth]

theorem scopedLock_success
    (h : (w.mutexes m).lock (cfg.priLevel m) t (w.threads t).locksHold = (mtx, levels, .success)) :
    w.scopedLock cfg t m = { w with
      threads := Function.update w.threads t ⟨m :: (w.threads t).scopes, levels, .idle⟩
      mutexes := Function.update w.mutexes m mtx } := by
  unfold World.scopedLock
  rw [lockMutex_eq h]
  simp [World.modify]

theorem scopedLock_xassert
    (h : (w.mutexes m).lock (cfg.priLevel m) t (w.threads t).locksHold = (mtx, levels, .xassert)) :
    w.scopedLock cfg t m = { w with
      threads := Function.update w.threads t ⟨(w.threads t).scopes, levels, .idle⟩
      mutexes := Function.update w.mutexes m mtx
      failures := w.failures ++ [(t, m)] } := by
  unfold World.scopedLock
  rw [lockMutex_eq h]
  simp [World.modify, World.throwAssert, World.enter]

theorem scopedLock_overflow
    (h : (w.mutexes m).lock (cfg.priLevel m) t (w.threads t).locksHold = (mtx, levels, .overflow)) :
    w.scopedLock cfg t m = { w with
      threads := Function.update w.threads t ⟨m :: (w.threads t).scopes, levels, .idle⟩
      mutexes := Function.update w.mutexes m mtx
      fault := some .overflow } := by
  unfold World.scopedLock
  rw [lockMutex_eq h]
  simp [World.modify]

end results

section frame

variable (cfg : Config M) (w : World T M) (t : T) (m : M)

theorem World.scopedLock_threads : ∃ scopes levels, (w.scopedLock cfg t m).threads =
    Function.update w.threads t ⟨scopes, levels, .idle⟩ := by
  rcases hlock : (w.mutexes m).lock (cfg.priLevel m) t (w.threads t).locksHold with ⟨mtx, levels, outcome⟩
  cases outcome with
  | success => exact ⟨_, _, by rw [scopedLock_success hlock]⟩
  | xassert => exact ⟨_, _, by rw [scopedLock_xassert hlock]⟩
  | overflow => exact ⟨_, _, by rw [scopedLock_overflow hlock]⟩

theorem World.relock_threads (extraLock : ℕ) : (w.relock cfg t m extraLock).failures = w.failures ∧
    ∃ levels mode, (w.relock cfg t m extraLock).threads =
      Function.update w.threads t ⟨(w.threads t).scopes, levels, mode⟩ ∧
        (mode = .restoring m extraLock ∨ mode = (w.threads t).mode) := by
  rcases hlock : (w.mutexes m).lock (cfg.priLevel m) t (w.threads t).locksHold with ⟨mtx, levels, outcome⟩
  cases outcome with
  | success =>
    rw [relock_success rfl hlock]
    exact ⟨rfl, _, _, rfl, .inl rfl⟩
  | xassert | overflow =>
    unfold World.relock
    rw [lockMutex_eq hlock]
    exact ⟨rfl, _, _, rfl, .inr rfl⟩

theorem World.restore_threads (left : ℕ) : ∃ levels mode, (w.restore cfg t m left).threads =
    Function.update w.threads t ⟨(w.threads t).scopes, levels, mode⟩ ∧
      (mode = .idle ∨ mode = .restoring m left ∨ mode = (w.threads t).mode) := by
  rcases hlock : (w.mutexes m).lock (cfg.priLevel m) t (w.threads t).locksHold with ⟨mtx, levels, outcome⟩
  cases outcome with
  | success => exact ⟨_, _, by rw [restore_success rfl hlock], .inr (.inl rfl)⟩
  | xassert =>
    refine ⟨levels, _, ?_, .inl rfl⟩
    unfold World.restore
    rw [lockMutex_eq hlock]
    simp [World.throwAssert, World.enter, World.modify]
  | overflow =>
    refine ⟨levels, _, ?_, .inr (.inr rfl)⟩
    unfold World.restore
    rw [lockMutex_eq hlock]

theorem World.unlockMutex_modify (f : Thread M → Thread M) : ∃ levels, ((w.unlockMutex cfg t m).modify t f).threads =
    Function.update w.threads t (f { w.threads t with locksHold := levels }) := by
  rcases hunlock : (w.mutexes m).unlock (cfg.priLevel m) (w.threads t).locksHold with ⟨mtx, levels, misplaced⟩
  refine ⟨levels, ?_⟩
  unfold World.unlockMutex
  rw [hunlock]
  simp [World.modify]

variable {cfg w t m} {w' : World T M} {u : T} {ev : Event T M}

theorem step_moved (h : step cfg w ev = some w') :
    ∃ th, w'.threads = Function.update w.threads ev.thread th ∧ Moved w ev th := by
  obtain ⟨-, hstep⟩ := step_cases h
  cases hstep with
  | @lock t m hmode =>
    obtain ⟨scopes, levels, heq⟩ := w.scopedLock_threads cfg t m
    exact ⟨_, heq, .leave (.inl hmode)⟩
  | @resume t m hmode =>
    obtain ⟨scopes, levels, heq⟩ := w.scopedLock_threads cfg t m
    exact ⟨_, heq, .leave (.inr ⟨m, hmode⟩)⟩
  | block hmode hblocked => exact ⟨_, rfl, .block hmode hblocked⟩
  | @unlock t m scopes levels hth =>
    obtain ⟨levels, heq⟩ := w.unlockMutex_modify cfg t m fun th => { th with scopes := scopes }
    rw [hth] at heq
    exact ⟨_, heq, .leave (.inl (by rw [Event.thread, hth]))⟩
  | wait =>
    unfold World.wait
    split
    · exact ⟨_, rfl, .inside nofun⟩
    · exact ⟨_, rfl, .inside nofun⟩
  | @releasing t m | @released t m =>
    obtain ⟨levels, heq⟩ := w.unlockMutex_modify cfg t m _
    exact ⟨_, heq, .inside nofun⟩
  | miscounted | wake | restored => exact ⟨_, rfl, .inside nofun⟩
  | @relock t m scopes levels extraLock hth =>
    obtain ⟨-, levels, mode, heq, hmode⟩ := w.relock_threads cfg t m extraLock
    refine ⟨_, heq, .inside ?_⟩
    rw [hth] at hmode
    rcases hmode with rfl | rfl <;> nofun
  | @restore t m scopes levels left hth =>
    obtain ⟨levels, mode, heq, hmode⟩ := w.restore_threads cfg t m left
    refine ⟨_, heq, .inside ?_⟩
    rw [hth] at hmode
    rcases hmode with rfl | rfl | rfl <;> nofun

theorem threads_other (h : step cfg w ev = some w') (hne : u ≠ ev.thread) : w'.threads u = w.threads u := by
  obtain ⟨th, heq, -⟩ := step_moved h
  rw [heq]
  exact Function.update_of_ne hne _ _

omit [DecidableEq M] in
theorem enter_self (mode : Mode M) : (w.enter t mode).threads t = { w.threads t with mode := mode } :=
  Function.update_self _ _ _

omit [DecidableEq M] in
theorem throwAssert_self : (w.throwAssert t m).threads t = { w.threads t with mode := .idle } :=
  Function.update_self _ _ _

end frame

end TcpUdpProxy.Xthread
