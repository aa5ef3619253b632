import TcpUdpProxy.LockSteps

namespace TcpUdpProxy.Xthread

open Execution

variable {T M : Type} [DecidableEq T] [DecidableEq M]

namespace Config

def levelled (cfg : Config M) (m : M) : Bool := cfg.priLevel m ≠ nocarePrimaryLevel

def distinct (cfg : Config M) (scopes : List M) : List M := scopes.dedup.filter cfg.levelled

end Config

def Misordered (cfg : Config M) (scopes : List M) (m : M) : Prop :=
  cfg.levelled m = true ∧ m ∉ scopes ∧ ∃ k ∈ cfg.distinct scopes, cfg.priLevel m ≤ cfg.priLevel k

structure InWait (cfg : Config M) (scopes : List M) (m : M) (extraLock : ℕ) : Prop where
  count : scopes.count m = extraLock + 1
  top : cfg.levelled m = true → (cfg.distinct scopes).head? = some m
  room : (cfg.distinct scopes).length ≤ maxStackElement

namespace Thread

def levels (th : Thread M) : List ℤ := th.locksHold.elim [] QuickIntStack.elements

/-- How often the thread has locked a mutex, `wait` on the way out or back included. -/
def depth (th : Thread M) (m : M) : ℕ :=
  match th.mode with
  | .idle | .locking _ => th.scopes.count m
  | .releasing mtx _ left => if m = mtx then left + 1 else th.scopes.count m
  | .waiting mtx _ | .relocking mtx _ => if m = mtx then 0 else th.scopes.count m
  | .restoring mtx left => if m = mtx then th.scopes.count m - left else th.scopes.count m

def held (cfg : Config M) (th : Thread M) : List M :=
  match th.mode with
  | .waiting mtx _ | .relocking mtx _ => (cfg.distinct th.scopes).filter (· ≠ mtx)
  | _ => cfg.distinct th.scopes

def Waits (cfg : Config M) (th : Thread M) : Prop :=
  match th.mode with
  | .idle | .locking _ => True
  | .releasing m extraLock left => InWait cfg th.scopes m extraLock ∧ left ≤ extraLock
  | .waiting m extraLock | .relocking m extraLock => InWait cfg th.scopes m extraLock
  | .restoring m left => ∃ extraLock, InWait cfg th.scopes m extraLock ∧ left ≤ extraLock

structure Sound (cfg : Config M) (th : Thread M) : Prop where
  decreasing : ((cfg.distinct th.scopes).map cfg.priLevel).Pairwise (· > ·)
  waits : th.Waits cfg

end Thread

/-- The mutex while `t` has locked it `n` times, or no thread has, where `n` is 0. -/
def holding (t : T) (n : ℕ) : XrecursiveMutex T := ⟨n, if n = 0 then none else some t, n⟩

structure World.Sound (cfg : Config M) (w : World T M) : Prop where
  thread : ∀ t, (w.threads t).Sound cfg
  levels : w.fault = none → ∀ t, (w.threads t).levels = ((w.threads t).held cfg).map cfg.priLevel
  mutex : ∀ t m, w.available t m = true → w.mutexes m = holding t ((w.threads t).depth m)
  other : ∀ t m, w.available t m = false → (w.threads t).depth m = 0

variable {cfg : Config M} {w w' : World T M} {t u : T} {m k : M} {n extraLock left : ℕ} {th th' : Thread M}
  {ev : Event T M}

omit [DecidableEq M] in
theorem levelled_iff : cfg.levelled m = true ↔ cfg.priLevel m ≠ nocarePrimaryLevel := by
  simp [Config.levelled]

omit [DecidableEq M] in
theorem plain_skips (hlevel : cfg.levelled m = false) (n : ℕ) :
    ¬ (cfg.priLevel m ≠ nocarePrimaryLevel ∧ n = 0) := by
  rintro ⟨hlevel', -⟩
  rw [levelled_iff.mpr hlevel'] at hlevel
  cases hlevel

omit [DecidableEq M] in
theorem available_iff : w.available t m = true ↔
    (w.mutexes m).owner = none ∨ (w.mutexes m).owner = some t := by
  simp [World.available]

omit [DecidableEq T] in
theorem holding_zero (t u : T) : holding t 0 = holding u 0 := rfl

theorem World.Sound.owner_iff (hw : w.Sound cfg) :
    (w.mutexes m).owner = some t ↔ 0 < (w.threads t).depth m := by
  constructor
  · intro howner
    by_contra hzero
    rw [hw.mutex t m (available_iff.mpr (.inr howner)), Nat.eq_zero_of_not_pos hzero] at howner
    cases howner
  · intro hpos
    cases havail : w.available t m with
    | false => exact absurd (hw.other t m havail) hpos.ne'
    | true =>
      rw [hw.mutex t m havail]
      exact if_neg hpos.ne'

theorem World.Sound.depth_other (hw : w.Sound cfg) (havail : w.available t m = true) (hne : u ≠ t) :
    (w.threads u).depth m = 0 := by
  by_contra hpos
  have howner := hw.owner_iff.mpr (Nat.pos_of_ne_zero hpos)
  rcases available_iff.mp havail with hnone | hsome
  · rw [hnone] at howner
    cases howner
  · rw [hsome] at howner
    exact hne (Option.some.inj howner).symm

theorem World.Sound.change (hw : w.Sound cfg) (hfault : w.fault = none)
    (hthreads : w'.threads = Function.update w.threads t th')
    (hmutexes : ∀ k, (w'.mutexes k = w.mutexes k ∧ th'.depth k = (w.threads t).depth k) ∨
      (w.available t k = true ∧ w'.mutexes k = holding t (th'.depth k)))
    (hsound : th'.Sound cfg)
    (hlevels : w'.fault = none → th'.levels = (th'.held cfg).map cfg.priLevel) : w'.Sound cfg := by
  have hself : w'.threads t = th' := by rw [hthreads, Function.update_self]
  have hothers : ∀ u, u ≠ t → w'.threads u = w.threads u := by
    intro u hu
    rw [hthreads, Function.update_of_ne hu]
  have hsame : ∀ u k, w'.mutexes k = w.mutexes k → w'.available u k = w.available u k := by
    intro u k hk
    unfold World.available
    rw [hk]
  have hkept : ∀ u k, th'.depth k = (w.threads t).depth k → (w'.threads u).depth k = (w.threads u).depth k := by
    intro u k hk
    by_cases hu : u = t
    · rw [hu, hself, hk]
    · rw [hothers u hu]
  have hzero : ∀ u k, u ≠ t → w.available t k = true → (w'.threads u).depth k = 0 := by
    intro u k hu havail
    rw [hothers u hu]
    exact hw.depth_other havail hu
  refine ⟨?_, ?_, ?_, ?_⟩
  · intro u
    by_cases hu : u = t
    · rwa [hu, hself]
    · rw [hothers u hu]
      exact hw.thread u
  · intro hnone u
    by_cases hu : u = t
    · rw [hu, hself]
      exact hlevels hnone
    · rw [hothers u hu]
      exact hw.levels hfault u
  · intro u k hk
    rcases hmutexes k with ⟨hmutex, hdepth⟩ | ⟨havail, hmutex⟩
    · rw [hsame u k hmutex] at hk
      rw [hmutex, hkept u k hdepth]
      exact hw.mutex u k hk
    · rw [hmutex]
      by_cases hu : u = t
      · rw [hu, hself]
      · rw [hzero u k hu havail]
        have hfree : th'.depth k = 0 := by
          by_contra hpos
          rw [available_iff, hmutex] at hk
          simp only [holding, hpos, if_false, reduceCtorEq, false_or, Option.some.injEq] at hk
          exact hu hk.symm
        rw [hfree]
        exact holding_zero t u
  · intro u k hk
    rcases hmutexes k with ⟨hmutex, hdepth⟩ | ⟨havail, hmutex⟩
    · rw [hsame u k hmutex] at hk
      rw [hkept u k hdepth]
      exact hw.other u k hk
    · by_cases hu : u = t
      · subst hu
        have havail' : w'.available u k = true := by
          rw [available_iff, hmutex]
          simp only [holding]
          split
          · exact .inl rfl
          · exact .inr rfl
        rw [havail'] at hk
        cases hk
      · exact hzero u k hu havail

theorem World.Sound.update (hw : w.Sound cfg) (hfault : w.fault = none) (havail : w.available t m = true)
    (hthreads : w'.threads = Function.update w.threads t th')
    (hmutexes : w'.mutexes = Function.update w.mutexes m (holding t (th'.depth m)))
    (hsound : th'.Sound cfg)
    (hlevels : w'.fault = none → th'.levels = (th'.held cfg).map cfg.priLevel)
    (hdepth : ∀ k, k ≠ m → th'.depth k = (w.threads t).depth k) : w'.Sound cfg := by
  apply hw.change hfault hthreads _ hsound hlevels
  intro k
  by_cases hk : k = m
  · subst hk
    refine .inr ⟨havail, ?_⟩
    rw [hmutexes, Function.update_self]
  · refine .inl ⟨?_, hdepth k hk⟩
    rw [hmutexes, Function.update_of_ne hk]

theorem World.Sound.update_thread (hw : w.Sound cfg) (hfault : w.fault = none)
    (hthreads : w'.threads = Function.update w.threads t th') (hmutexes : w'.mutexes = w.mutexes)
    (hsound : th'.Sound cfg) (hlevels : th'.levels = (th'.held cfg).map cfg.priLevel)
    (hdepth : ∀ k, th'.depth k = (w.threads t).depth k) : w'.Sound cfg := by
  apply hw.change hfault hthreads _ hsound fun _ => hlevels
  intro k
  refine .inl ⟨?_, hdepth k⟩
  rw [hmutexes]

section calls

omit [DecidableEq T]

variable {priLevel : ℤ} {levels : Option QuickIntStack} {s : QuickIntStack}

theorem acquire_holding (t : T) (n : ℕ) : { (holding t n).acquire t with recursionCount := (n : ℤ) + 1 } =
    holding t (n + 1) := by
  simp [XrecursiveMutex.acquire, holding]

theorem release_holding (t : T) (n : ℕ) :
    XrecursiveMutex.release { holding t (n + 1) with recursionCount := (n : ℤ) } = holding t n := by
  cases n <;> simp [XrecursiveMutex.release, holding]

theorem lock_again (t : T) (levels : Option QuickIntStack) (h : ¬ (priLevel ≠ nocarePrimaryLevel ∧ n = 0)) :
    (holding t n).lock priLevel t levels = (holding t (n + 1), levels, .success) := by
  have hcount : ¬ (priLevel ≠ nocarePrimaryLevel ∧ ((holding t n).acquire t).recursionCount + 1 = 1) := by
    rintro ⟨hlevel, hn⟩
    have hn : (n : ℤ) + 1 = 1 := hn
    exact h ⟨hlevel, by omega⟩
  unfold XrecursiveMutex.lock
  dsimp only
  rw [if_neg hcount]
  exact congrArg (fun mtx => (mtx, levels, Outcome.success)) (acquire_holding t n)

theorem lock_misordered (t : T) (hlevel : priLevel ≠ nocarePrimaryLevel)
    (htop : ((levels.getD .create).top.any (priLevel ≤ ·)) = true) :
    (holding t 0).lock priLevel t levels = (holding t 0, some (levels.getD .create), .xassert) := by
  unfold XrecursiveMutex.lock
  dsimp only
  rw [if_pos ⟨hlevel, rfl⟩, if_pos htop]
  rfl

theorem lock_first (t : T) (hlevel : priLevel ≠ nocarePrimaryLevel)
    (htop : ((levels.getD .create).top.any (priLevel ≤ ·)) = false) :
    (holding t 0).lock priLevel t levels =
      match (levels.getD .create).push priLevel with
      | some priLevels => (holding t 1, some priLevels, .success)
      | none => (holding t 1, some (levels.getD .create), .overflow) := by
  unfold XrecursiveMutex.lock
  dsimp only
  rw [if_pos ⟨hlevel, rfl⟩, htop]
  rfl

theorem unlock_again (t : T) (levels : Option QuickIntStack) (h : ¬ (priLevel ≠ nocarePrimaryLevel ∧ n = 0)) :
    (holding t (n + 1)).unlock priLevel levels = (holding t n, levels, false) := by
  have hcount : ¬ (priLevel ≠ nocarePrimaryLevel ∧ (holding t (n + 1)).recursionCount = 1) := by
    rintro ⟨hlevel, hn⟩
    apply h ⟨hlevel, ?_⟩
    simp only [holding] at hn
    omega
  unfold XrecursiveMutex.unlock
  rw [if_neg hcount]
  have hback := release_holding t n
  simp only [holding, Nat.cast_add, Nat.cast_one, add_sub_cancel_right] at hback ⊢
  rw [hback]

theorem unlock_last (t : T) (hlevel : priLevel ≠ nocarePrimaryLevel) (htop : s.top = some priLevel) :
    (holding t 1).unlock priLevel (some s) = (holding t 0, some s.pop, false) := by
  unfold XrecursiveMutex.unlock
  rw [if_pos ⟨hlevel, rfl⟩]
  dsimp only
  rw [if_pos htop]
  rfl

end calls

namespace QuickIntStack

theorem elements_getD (levels : Option QuickIntStack) : (levels.getD .create).elements = levels.elim [] elements := by
  cases levels <;> rfl

theorem elements_push {i : ℤ} {s s' : QuickIntStack} (h : s.push i = some s') : s'.elements = i :: s.elements := by
  unfold push at h
  split at h
  · cases h
    rfl
  · cases h

theorem push_room {i : ℤ} {s : QuickIntStack} (h : s.elements.length < maxStackElement) : ∃ s', s.push i = some s' := by
  unfold push
  rw [dif_pos h]
  exact ⟨_, rfl⟩

end QuickIntStack

theorem below_of_top {l : ℤ} {xs : List ℤ} (hdec : xs.Pairwise (· > ·)) (htop : xs.head?.any (l ≤ ·) = false) :
    ∀ x ∈ xs, x < l := by
  cases xs with
  | nil => nofun
  | cons y ys =>
    have hy : y < l := by simpa using htop
    intro x hx
    rcases List.mem_cons.mp hx with rfl | hx
    · exact hy
    · have hxy : x < y := List.rel_of_pairwise_cons hdec hx
      omega

section scopes

variable {scopes : List M}

theorem distinct_first (hlevel : cfg.priLevel m ≠ nocarePrimaryLevel) (hcount : scopes.count m = 0) :
    cfg.distinct (m :: scopes) = m :: cfg.distinct scopes := by
  unfold Config.distinct
  rw [List.dedup_cons_of_notMem (List.count_eq_zero.mp hcount)]
  exact List.filter_cons_of_pos (by simpa [Config.levelled] using hlevel)

theorem distinct_again (h : ¬ (cfg.priLevel m ≠ nocarePrimaryLevel ∧ scopes.count m = 0)) :
    cfg.distinct (m :: scopes) = cfg.distinct scopes := by
  unfold Config.distinct
  by_cases hmem : m ∈ scopes
  · rw [List.dedup_cons_of_mem hmem]
  · have hplain : cfg.priLevel m = nocarePrimaryLevel := by
      by_contra hlevel
      exact h ⟨hlevel, List.count_eq_zero.mpr hmem⟩
    rw [List.dedup_cons_of_notMem hmem]
    exact List.filter_cons_of_neg (by simp [Config.levelled, hplain])

end scopes

namespace Thread

theorem Outside.depth (h : th.Outside) (k : M) : th.depth k = th.scopes.count k := by
  unfold Thread.depth
  rcases h with hmode | ⟨m, hmode⟩ <;> rw [hmode]

theorem Outside.held (h : th.Outside) : th.held cfg = cfg.distinct th.scopes := by
  unfold Thread.held
  rcases h with hmode | ⟨m, hmode⟩ <;> rw [hmode]

end Thread

theorem World.Sound.levels_outside (hw : w.Sound cfg) (hfault : w.fault = none)
    (hmode : (w.threads t).Outside) :
    (w.threads t).locksHold.elim [] QuickIntStack.elements =
      (cfg.distinct (w.threads t).scopes).map cfg.priLevel := by
  rw [← hmode.held]
  exact hw.levels hfault t

structure Entering (cfg : Config M) (w : World T M) (t : T) (m : M) : Prop where
  sound : w.Sound cfg
  fault : w.fault = none
  mode : (w.threads t).Outside
  avail : w.available t m = true

namespace Entering

variable {levels : Option QuickIntStack}

theorem mutex (h : Entering cfg w t m) : w.mutexes m = holding t ((w.threads t).scopes.count m) := by
  rw [← h.mode.depth]
  exact h.sound.mutex t m h.avail

theorem stack (h : Entering cfg w t m) : (w.threads t).locksHold.elim [] QuickIntStack.elements =
    (cfg.distinct (w.threads t).scopes).map cfg.priLevel := by
  rw [← h.mode.held]
  exact h.sound.levels h.fault t

theorem top (h : Entering cfg w t m) : ((w.threads t).locksHold.getD .create).top =
    ((cfg.distinct (w.threads t).scopes).map cfg.priLevel).head? := by
  unfold QuickIntStack.top
  rw [QuickIntStack.elements_getD, h.stack]

theorem depth_other (h : Entering cfg w t m) (hk : k ≠ m) :
    (Thread.mk (m :: (w.threads t).scopes) levels .idle).depth k = (w.threads t).depth k := by
  rw [h.mode.depth]
  exact List.count_cons_of_ne (Ne.symm hk)

theorem top_any (h : Entering cfg w t m) :
    ((w.threads t).locksHold.getD .create).top.any (cfg.priLevel m ≤ ·) = true ↔
      ∃ k ∈ cfg.distinct (w.threads t).scopes, cfg.priLevel m ≤ cfg.priLevel k := by
  rw [h.top]
  constructor
  · intro htop
    cases hdistinct : cfg.distinct (w.threads t).scopes with
    | nil =>
      rw [hdistinct] at htop
      cases htop
    | cons k ks =>
      rw [hdistinct] at htop
      exact ⟨k, List.mem_cons_self, by simpa using htop⟩
  · rintro ⟨k, hk, hle⟩
    by_contra htop
    have hbelow := below_of_top (h.sound.thread t).decreasing (Bool.not_eq_true _ ▸ htop)
      (cfg.priLevel k) (List.mem_map_of_mem hk)
    omega

theorem result (h : Entering cfg w t m) :
    (Misordered cfg (w.threads t).scopes m ∧ w.scopedLock cfg t m = w.throwAssert t m) ∨
    (¬ Misordered cfg (w.threads t).scopes m ∧ ∃ levels fault, w.scopedLock cfg t m = { w with
        threads := Function.update w.threads t ⟨m :: (w.threads t).scopes, levels, .idle⟩
        mutexes := Function.update w.mutexes m (holding t ((w.threads t).scopes.count m + 1))
        fault := fault } ∧
      (fault = none → levels.elim [] QuickIntStack.elements =
        (cfg.distinct (m :: (w.threads t).scopes)).map cfg.priLevel) ∧
      (fault ≠ none → maxStackElement < (cfg.distinct (m :: (w.threads t).scopes)).length)) := by
  have hmutex := h.mutex
  by_cases hfirst : cfg.priLevel m ≠ nocarePrimaryLevel ∧ (w.threads t).scopes.count m = 0
  · obtain ⟨hlevel, hcount⟩ := hfirst
    rw [hcount] at hmutex
    cases htop : ((w.threads t).locksHold.getD .create).top.any (cfg.priLevel m ≤ ·) with
    | true =>
      refine .inl ⟨⟨levelled_iff.mpr hlevel, List.count_eq_zero.mp hcount, h.top_any.mp htop⟩, ?_⟩
      have hlock := lock_misordered t hlevel htop
      rw [← hmutex] at hlock
      have hkept : some ((w.threads t).locksHold.getD .create) = (w.threads t).locksHold := by
        cases hlevels : (w.threads t).locksHold with
        | none =>
          rw [hlevels] at htop
          cases htop
        | some s => rfl
      rw [scopedLock_xassert hlock, Function.update_eq_self, hkept]
      rfl
    | false =>
      refine .inr ⟨fun hmis => ?_, ?_⟩
      · rw [h.top_any.mpr hmis.2.2] at htop
        cases htop
      have hlock := lock_first t hlevel htop
      cases hpush : ((w.threads t).locksHold.getD .create).push (cfg.priLevel m) with
      | some levels =>
        rw [hpush, ← hmutex] at hlock
        refine ⟨some levels, none, ?_, fun _ => ?_, nofun⟩
        · rw [scopedLock_success hlock, hcount, h.fault]
        · rw [distinct_first hlevel hcount, List.map_cons]
          exact (QuickIntStack.elements_push hpush).trans (congrArg _ ((QuickIntStack.elements_getD _).trans h.stack))
      | none =>
        rw [hpush, ← hmutex] at hlock
        refine ⟨some ((w.threads t).locksHold.getD .create), some .overflow, ?_, nofun, fun _ => ?_⟩
        · rw [scopedLock_overflow hlock, hcount]
        · have hfull : ¬ ((w.threads t).locksHold.getD .create).elements.length < maxStackElement := by
            intro hroom
            obtain ⟨s, hs⟩ := QuickIntStack.push_room (i := cfg.priLevel m) hroom
            rw [hs] at hpush
            cases hpush
          rw [QuickIntStack.elements_getD, h.stack, List.length_map] at hfull
          rw [distinct_first hlevel hcount, List.length_cons]
          omega
  · have hordered : ¬ Misordered cfg (w.threads t).scopes m := by
      rintro ⟨hlevel, hmem, -⟩
      exact hfirst ⟨levelled_iff.mp hlevel, List.count_eq_zero.mpr hmem⟩
    have hlock := lock_again t (w.threads t).locksHold hfirst
    rw [← hmutex] at hlock
    refine .inr ⟨hordered, (w.threads t).locksHold, none, ?_, fun _ => ?_, nofun⟩
    · rw [scopedLock_success hlock, h.fault]
    · rw [distinct_again hfirst, h.stack]

end Entering

theorem sound_throwAssert (hw : w.Sound cfg) (hfault : w.fault = none) (hmode : (w.threads t).Outside)
    (m : M) : (w.throwAssert t m).Sound cfg := by
  have hthreads : (w.throwAssert t m).threads = Function.update w.threads t { w.threads t with mode := .idle } :=
    rfl
  apply hw.update_thread hfault hthreads rfl
  · exact ⟨(hw.thread t).decreasing, trivial⟩
  · exact hw.levels_outside hfault hmode
  · intro k
    rw [hmode.depth]
    rfl

theorem decreasing_cons {scopes : List M} (hdec : ((cfg.distinct scopes).map cfg.priLevel).Pairwise (· > ·))
    (hordered : ¬ Misordered cfg scopes m) :
    ((cfg.distinct (m :: scopes)).map cfg.priLevel).Pairwise (· > ·) := by
  by_cases hfirst : cfg.priLevel m ≠ nocarePrimaryLevel ∧ scopes.count m = 0
  · rw [distinct_first hfirst.1 hfirst.2, List.map_cons]
    refine List.pairwise_cons.mpr ⟨?_, hdec⟩
    intro l hl
    obtain ⟨k, hk, rfl⟩ := List.mem_map.mp hl
    by_contra hle
    apply hordered
    refine ⟨levelled_iff.mpr hfirst.1, List.count_eq_zero.mp hfirst.2, k, hk, ?_⟩
    omega
  · rwa [distinct_again hfirst]

theorem sound_scopedLock (h : Entering cfg w t m) : (w.scopedLock cfg t m).Sound cfg := by
  obtain ⟨-, heq⟩ | ⟨hordered, levels, fault, heq, hstack, -⟩ := h.result
  · rw [heq]
    exact sound_throwAssert h.sound h.fault h.mode m
  · rw [heq]
    refine h.sound.update h.fault h.avail rfl ?_ ⟨?_, trivial⟩ hstack fun k hk => h.depth_other hk
    · rw [show (Thread.mk (m :: (w.threads t).scopes) levels .idle).depth m =
        (w.threads t).scopes.count m + 1 from List.count_cons_self]
    · exact decreasing_cons (h.sound.thread t).decreasing hordered

theorem levels_some {levels : Option QuickIntStack} {l : ℤ} {ls : List ℤ}
    (h : levels.elim [] QuickIntStack.elements = l :: ls) :
    ∃ s, levels = some s ∧ s.top = some l ∧ s.pop.elements = ls := by
  cases levels with
  | none => cases h
  | some s =>
    have helements : s.elements = l :: ls := h
    refine ⟨s, rfl, ?_, ?_⟩
    · unfold QuickIntStack.top
      rw [helements, List.head?_cons]
    · change s.elements.tail = ls
      rw [helements, List.tail_cons]

theorem sound_unlock (hw : w.Sound cfg) (hfault : w.fault = none) {scopes : List M}
    {levels : Option QuickIntStack} (hth : w.threads t = ⟨m :: scopes, levels, .idle⟩) :
    ((w.unlockMutex cfg t m).modify t fun th => { th with scopes := scopes }).Sound cfg := by
  have houtside : (w.threads t).Outside := .inl (by rw [hth])
  have hdepth : (w.threads t).depth m = scopes.count m + 1 := by
    rw [houtside.depth, hth]
    exact List.count_cons_self
  have havail : w.available t m = true := available_iff.mpr (.inr (hw.owner_iff.mpr (hdepth ▸ Nat.succ_pos _)))
  have hmutex := hw.mutex t m havail
  rw [hdepth] at hmutex
  have hdec := (hw.thread t).decreasing
  have hstack := hw.levels_outside hfault houtside
  rw [hth] at hdec hstack
  have hothers : ∀ (levels' : Option QuickIntStack) k, k ≠ m →
      (Thread.mk scopes levels' .idle).depth k = (w.threads t).depth k := by
    intro levels' k hk
    rw [houtside.depth, hth]
    exact (List.count_cons_of_ne (Ne.symm hk)).symm
  by_cases hlast : cfg.priLevel m ≠ nocarePrimaryLevel ∧ scopes.count m = 0
  · obtain ⟨hlevel, hcount⟩ := hlast
    rw [distinct_first hlevel hcount, List.map_cons] at hdec hstack
    obtain ⟨s, hs, htop, hpop⟩ := levels_some hstack
    have hunlock := unlock_last t hlevel htop
    rw [hcount] at hmutex
    rw [← hmutex, ← hs] at hunlock
    rw [unlockMutex_leave hth hunlock]
    refine hw.update hfault havail rfl ?_ ⟨(List.pairwise_cons.mp hdec).2, trivial⟩ (fun _ => hpop) (hothers _)
    rw [show (Thread.mk scopes (some s.pop) .idle).depth m = scopes.count m from rfl, hcount]
  · rw [distinct_again hlast] at hdec hstack
    have hunlock := unlock_again t levels hlast
    rw [← hmutex] at hunlock
    rw [unlockMutex_leave hth hunlock]
    exact hw.update hfault havail rfl rfl ⟨hdec, trivial⟩ (fun _ => hstack) (hothers _)

namespace InWait

variable {scopes : List M}

theorem distinct_levelled (h : InWait cfg scopes m extraLock) (hlevel : cfg.levelled m = true) :
    cfg.distinct scopes = m :: (cfg.distinct scopes).filter (· ≠ m) := by
  have hnodup : (cfg.distinct scopes).Nodup := (List.nodup_dedup scopes).filter _
  obtain ⟨rest, hrest⟩ := List.head?_eq_some_iff.mp (h.top hlevel)
  rw [hrest] at hnodup ⊢
  rw [List.filter_cons_of_neg (by simp)]
  congr 1
  apply (List.filter_eq_self.mpr _).symm
  intro k hk
  simp only [ne_eq, decide_eq_true_eq]
  rintro rfl
  exact (List.nodup_cons.mp hnodup).1 hk

theorem distinct_plain (hlevel : cfg.levelled m = false) :
    (cfg.distinct scopes).filter (· ≠ m) = cfg.distinct scopes := by
  apply List.filter_eq_self.mpr
  intro k hk
  simp only [ne_eq, decide_eq_true_eq]
  rintro rfl
  have hlevelled := (List.mem_filter.mp hk).2
  rw [hlevel] at hlevelled
  cases hlevelled

theorem pushed {levels : Option QuickIntStack} (h : InWait cfg scopes m extraLock) (hlevel : cfg.levelled m = true)
    (hdec : ((cfg.distinct scopes).map cfg.priLevel).Pairwise (· > ·))
    (hstack : levels.elim [] QuickIntStack.elements = ((cfg.distinct scopes).filter (· ≠ m)).map cfg.priLevel) :
    ∃ s, (levels.getD .create).top.any (cfg.priLevel m ≤ ·) = false ∧
      (levels.getD .create).push (cfg.priLevel m) = some s ∧ s.elements = (cfg.distinct scopes).map cfg.priLevel := by
  have hdistinct := h.distinct_levelled hlevel
  have helements : (levels.getD .create).elements = ((cfg.distinct scopes).filter (· ≠ m)).map cfg.priLevel :=
    (QuickIntStack.elements_getD levels).trans hstack
  have hroom : (levels.getD .create).elements.length < maxStackElement := by
    have hlength := h.room
    rw [hdistinct, List.length_cons] at hlength
    rw [helements, List.length_map]
    omega
  obtain ⟨s, hpush⟩ := QuickIntStack.push_room (i := cfg.priLevel m) hroom
  refine ⟨s, ?_, hpush, ?_⟩
  · rw [hdistinct, List.map_cons] at hdec
    unfold QuickIntStack.top
    rw [helements]
    cases hhead : (((cfg.distinct scopes).filter (· ≠ m)).map cfg.priLevel).head? with
    | none => rfl
    | some l =>
      have hless : cfg.priLevel m > l := List.rel_of_pairwise_cons hdec (List.mem_of_mem_head? hhead)
      simpa using hless
  · rw [QuickIntStack.elements_push hpush, helements, hdistinct, List.map_cons, ← hdistinct]

end InWait

theorem mem_distinct {scopes : List M} : m ∈ cfg.distinct scopes ↔ m ∈ scopes ∧ cfg.levelled m = true := by
  unfold Config.distinct
  rw [List.mem_filter, List.mem_dedup]

omit [DecidableEq M] in
theorem head_of_level {ks : List M} (hdec : (ks.map cfg.priLevel).Pairwise (· > ·)) (hm : m ∈ ks)
    (hhead : (ks.map cfg.priLevel).head? = some (cfg.priLevel m)) : ks.head? = some m := by
  cases ks with
  | nil => cases hm
  | cons k ks =>
    have hk : cfg.priLevel k = cfg.priLevel m := by simpa using hhead
    rcases List.mem_cons.mp hm with rfl | hm
    · rfl
    · have hless : cfg.priLevel k > cfg.priLevel m := List.rel_of_pairwise_cons hdec (List.mem_map_of_mem hm)
      omega

theorem sound_wait (hw : w.Sound cfg) (hfault : w.fault = none) {scopes : List M}
    {levels : Option QuickIntStack} (hth : w.threads t = ⟨scopes, levels, .idle⟩) (hmem : m ∈ scopes) :
    (w.wait cfg t m).Sound cfg := by
  have houtside : (w.threads t).Outside := .inl (by rw [hth])
  have hdepth : (w.threads t).depth m = scopes.count m := by rw [houtside.depth, hth]
  have hpos : 0 < scopes.count m := List.count_pos_iff.mpr hmem
  have hmutex := hw.mutex t m (available_iff.mpr (.inr (hw.owner_iff.mpr (hdepth ▸ hpos))))
  rw [hdepth] at hmutex
  have hdec := (hw.thread t).decreasing
  have hstack := hw.levels_outside hfault houtside
  rw [hth] at hdec hstack
  unfold World.wait
  split
  next hcheck =>
    have hextra : ((w.mutexes m).recursionCount - 1).toNat + 1 = scopes.count m := by
      rw [hmutex]
      change ((scopes.count m : ℤ) - 1).toNat + 1 = scopes.count m
      omega
    have hthreads : (w.enter t (.releasing m ((w.mutexes m).recursionCount - 1).toNat
        ((w.mutexes m).recursionCount - 1).toNat)).threads = Function.update w.threads t ⟨scopes, levels,
          .releasing m ((w.mutexes m).recursionCount - 1).toNat ((w.mutexes m).recursionCount - 1).toNat⟩ := by
      simp [World.enter, World.modify, hth]
    refine hw.update_thread hfault hthreads rfl ⟨hdec, ⟨hextra.symm, ?_, ?_⟩, le_refl _⟩ hstack ?_
    · intro hlevel
      have htop : levels.bind QuickIntStack.top = some (cfg.priLevel m) := by
        rw [hth] at hcheck
        exact hcheck.resolve_left (levelled_iff.mp hlevel)
      obtain ⟨s, hs, htop⟩ := Option.bind_eq_some_iff.mp htop
      subst hs
      have hhead : ((cfg.distinct scopes).map cfg.priLevel).head? = some (cfg.priLevel m) := by
        rw [← hstack]
        exact htop
      exact head_of_level hdec (mem_distinct.mpr ⟨hmem, hlevel⟩) hhead
    · have hlength := congrArg List.length hstack
      rw [List.length_map] at hlength
      rw [← hlength]
      cases levels with
      | none => exact Nat.zero_le _
      | some s => exact s.length_le
    · intro k
      rw [houtside.depth, hth]
      change (if k = m then _ else scopes.count k) = scopes.count k
      split
      next hk => rw [hk, hextra]
      · rfl
  · exact sound_throwAssert hw hfault houtside m

section phases

variable {scopes : List M} {levels : Option QuickIntStack}

theorem mutex_at (hw : w.Sound cfg) (hdepth : (w.threads t).depth m = n) (hpos : 0 < n) :
    w.available t m = true ∧ w.mutexes m = holding t n := by
  have havail : w.available t m = true := available_iff.mpr (.inr (hw.owner_iff.mpr (hdepth ▸ hpos)))
  exact ⟨havail, hdepth ▸ hw.mutex t m havail⟩

theorem sound_releasing (hw : w.Sound cfg) (hfault : w.fault = none)
    (hth : w.threads t = ⟨scopes, levels, .releasing m extraLock (left + 1)⟩) :
    ((w.unlockMutex cfg t m).enter t (.releasing m extraLock left)).Sound cfg := by
  have hdepth : (w.threads t).depth m = left + 1 + 1 := by
    rw [hth]
    exact if_pos rfl
  obtain ⟨havail, hmutex⟩ := mutex_at hw hdepth (Nat.succ_pos _)
  have hsound := hw.thread t
  have hstack := hw.levels hfault t
  have hskip : ¬ (cfg.priLevel m ≠ nocarePrimaryLevel ∧ left + 1 = 0) := fun h => Nat.succ_ne_zero left h.2
  have hunlock := unlock_again t levels hskip
  rw [hth] at hsound hstack
  rw [← hmutex] at hunlock
  rw [unlockMutex_enter hth _ hunlock]
  refine hw.update hfault havail rfl ?_ ⟨hsound.decreasing, hsound.waits.1, ?_⟩ (fun _ => hstack) ?_
  · rw [show (Thread.mk scopes levels (.releasing m extraLock left)).depth m = left + 1 from if_pos rfl]
  · exact (Nat.le_succ left).trans hsound.waits.2
  · intro k hk
    rw [hth]
    exact (if_neg hk).trans (if_neg hk).symm

theorem sound_released (hw : w.Sound cfg) (hfault : w.fault = none)
    (hth : w.threads t = ⟨scopes, levels, .releasing m extraLock 0⟩) :
    (w.mutexes m).recursionCount = 1 ∧ ((w.unlockMutex cfg t m).enter t (.waiting m extraLock)).Sound cfg := by
  have hdepth : (w.threads t).depth m = 1 := by
    rw [hth]
    exact if_pos rfl
  obtain ⟨havail, hmutex⟩ := mutex_at hw hdepth Nat.one_pos
  have hsound := hw.thread t
  have hstack := hw.levels hfault t
  rw [hth] at hsound hstack
  have hstack : levels.elim [] QuickIntStack.elements = (cfg.distinct scopes).map cfg.priLevel := hstack
  have hwaits : InWait cfg scopes m extraLock := hsound.waits.1
  refine ⟨by rw [hmutex]; rfl, ?_⟩
  have hothers : ∀ (levels' : Option QuickIntStack) k, k ≠ m →
      (Thread.mk scopes levels' (.waiting m extraLock)).depth k = (w.threads t).depth k := by
    intro levels' k hk
    rw [hth]
    exact (if_neg hk).trans (if_neg hk).symm
  have hzero : ∀ levels' : Option QuickIntStack,
      (Thread.mk scopes levels' (.waiting m extraLock)).depth m = 0 := fun _ => if_pos rfl
  cases hlevel : cfg.levelled m with
  | true =>
    rw [hwaits.distinct_levelled hlevel, List.map_cons] at hstack
    obtain ⟨s, hs, htop, hpop⟩ := levels_some hstack
    have hunlock := unlock_last t (levelled_iff.mp hlevel) htop
    rw [← hmutex, ← hs] at hunlock
    rw [unlockMutex_enter hth _ hunlock]
    refine hw.update hfault havail rfl ?_ ⟨hsound.decreasing, hwaits⟩ (fun _ => hpop) (hothers _)
    rw [hzero]
  | false =>
    have hunlock := unlock_again t levels (plain_skips hlevel 0)
    rw [← hmutex] at hunlock
    rw [unlockMutex_enter hth _ hunlock]
    refine hw.update hfault havail rfl ?_ ⟨hsound.decreasing, hwaits⟩ (fun _ => ?_) (hothers _)
    · rw [hzero]
    · change levels.elim [] QuickIntStack.elements =
        ((cfg.distinct scopes).filter (· ≠ m)).map cfg.priLevel
      rw [InWait.distinct_plain hlevel, hstack]

theorem sound_wake (hw : w.Sound cfg) (hfault : w.fault = none)
    (hth : w.threads t = ⟨scopes, levels, .waiting m extraLock⟩) :
    (w.enter t (.relocking m extraLock)).Sound cfg := by
  have hsound := hw.thread t
  have hstack := hw.levels hfault t
  rw [hth] at hsound hstack
  have hthreads : (w.enter t (.relocking m extraLock)).threads =
      Function.update w.threads t ⟨scopes, levels, .relocking m extraLock⟩ := by
    simp [World.enter, World.modify, hth]
  refine hw.update_thread hfault hthreads rfl ⟨hsound.decreasing, hsound.waits⟩ hstack ?_
  intro k
  rw [hth]
  rfl

theorem sound_relock (hw : w.Sound cfg) (hfault : w.fault = none) (havail : w.available t m = true)
    (hth : w.threads t = ⟨scopes, levels, .relocking m extraLock⟩) :
    (w.relock cfg t m extraLock).Sound cfg ∧ (w.relock cfg t m extraLock).fault = none := by
  have hdepth : (w.threads t).depth m = 0 := by
    rw [hth]
    exact if_pos rfl
  have hmutex := hw.mutex t m havail
  rw [hdepth] at hmutex
  have hsound := hw.thread t
  have hstack := hw.levels hfault t
  rw [hth] at hsound hstack
  have hstack : levels.elim [] QuickIntStack.elements =
      ((cfg.distinct scopes).filter (· ≠ m)).map cfg.priLevel := hstack
  have hwaits : InWait cfg scopes m extraLock := hsound.waits
  have hothers : ∀ (levels' : Option QuickIntStack) k, k ≠ m →
      (Thread.mk scopes levels' (.restoring m extraLock)).depth k = (w.threads t).depth k := by
    intro levels' k hk
    rw [hth]
    exact (if_neg hk).trans (if_neg hk).symm
  have hone : ∀ levels' : Option QuickIntStack,
      (Thread.mk scopes levels' (.restoring m extraLock)).depth m = 0 + 1 := by
    intro levels'
    change (if m = m then scopes.count m - extraLock else scopes.count m) = 0 + 1
    rw [if_pos rfl, hwaits.count]
    omega
  have hnext : ∀ levels' : Option QuickIntStack,
      (Thread.mk scopes levels' (.restoring m extraLock)).Sound cfg :=
    fun levels' => ⟨hsound.decreasing, extraLock, hwaits, le_refl _⟩
  cases hlevel : cfg.levelled m with
  | true =>
    obtain ⟨s, htop, hpush, helements⟩ := hwaits.pushed hlevel hsound.decreasing hstack
    have hlock := lock_first t (levelled_iff.mp hlevel) htop
    rw [hpush, ← hmutex] at hlock
    rw [relock_success hth hlock]
    refine ⟨hw.update hfault havail rfl ?_ (hnext _) (fun _ => helements) (hothers _), hfault⟩
    rw [hone]
  | false =>
    have hlock := lock_again t levels (plain_skips hlevel 0)
    rw [← hmutex] at hlock
    rw [relock_success hth hlock]
    refine ⟨hw.update hfault havail rfl ?_ (hnext _) (fun _ => ?_) (hothers _), hfault⟩
    · rw [hone]
    · change levels.elim [] QuickIntStack.elements = (cfg.distinct scopes).map cfg.priLevel
      rw [hstack, InWait.distinct_plain hlevel]

theorem restore_eq (hw : w.Sound cfg) (hth : w.threads t = ⟨scopes, levels, .restoring m (left + 1)⟩) :
    w.available t m = true ∧ w.restore cfg t m left = { w with
      threads := Function.update w.threads t ⟨scopes, levels, .restoring m left⟩
      mutexes := Function.update w.mutexes m (holding t (scopes.count m - left)) } := by
  have hsound := hw.thread t
  rw [hth] at hsound
  obtain ⟨extraLock, hwaits, hleft⟩ := hsound.waits
  have hcount : scopes.count m = extraLock + 1 := hwaits.count
  have hpos : 0 < scopes.count m - (left + 1) := by omega
  have hmore : scopes.count m - (left + 1) + 1 = scopes.count m - left := by omega
  have hdepth : (w.threads t).depth m = scopes.count m - (left + 1) := by
    rw [hth]
    exact if_pos rfl
  obtain ⟨havail, hmutex⟩ := mutex_at hw hdepth hpos
  have hskip : ¬ (cfg.priLevel m ≠ nocarePrimaryLevel ∧ scopes.count m - (left + 1) = 0) := fun h => hpos.ne' h.2
  have hlock := lock_again t levels hskip
  rw [hmore, ← hmutex] at hlock
  exact ⟨havail, restore_success hth hlock⟩

theorem sound_restore (hw : w.Sound cfg) (hfault : w.fault = none)
    (hth : w.threads t = ⟨scopes, levels, .restoring m (left + 1)⟩) : (w.restore cfg t m left).Sound cfg := by
  obtain ⟨havail, heq⟩ := restore_eq hw hth
  have hsound := hw.thread t
  have hstack := hw.levels hfault t
  rw [hth] at hsound hstack
  obtain ⟨extraLock, hwaits, hleft⟩ := hsound.waits
  rw [heq]
  refine hw.update hfault havail rfl ?_
    ⟨hsound.decreasing, extraLock, hwaits, (Nat.le_succ left).trans hleft⟩ (fun _ => hstack) ?_
  · rw [show (Thread.mk scopes levels (.restoring m left)).depth m = scopes.count m - left from if_pos rfl]
  · intro k hk
    rw [hth]
    exact (if_neg hk).trans (if_neg hk).symm

theorem sound_restored (hw : w.Sound cfg) (hfault : w.fault = none)
    (hth : w.threads t = ⟨scopes, levels, .restoring m 0⟩) : (w.enter t .idle).Sound cfg := by
  have hsound := hw.thread t
  have hstack := hw.levels hfault t
  rw [hth] at hsound hstack
  have hthreads : (w.enter t .idle).threads = Function.update w.threads t ⟨scopes, levels, .idle⟩ := by
    simp [World.enter, World.modify, hth]
  refine hw.update_thread hfault hthreads rfl ⟨hsound.decreasing, trivial⟩ hstack ?_
  intro k
  rw [hth]
  change scopes.count k = if k = m then scopes.count k - 0 else scopes.count k
  split <;> rfl

end phases

theorem sound_step (hw : w.Sound cfg) (h : step cfg w ev = some w') : w'.Sound cfg := by
  obtain ⟨hfault, hstep⟩ := step_cases h
  cases hstep with
  | lock hmode havail => exact sound_scopedLock ⟨hw, hfault, .inl hmode, havail⟩
  | @block t m hmode hblocked =>
    have houtside : (w.threads t).Outside := .inl hmode
    have hthreads : (w.enter t (.locking m)).threads =
      Function.update w.threads t { w.threads t with mode := .locking m } := rfl
    apply hw.update_thread hfault hthreads rfl ⟨(hw.thread t).decreasing, trivial⟩
    · exact hw.levels_outside hfault houtside
    · intro k
      rw [houtside.depth]
      rfl
  | resume hmode havail => exact sound_scopedLock ⟨hw, hfault, .inr ⟨_, hmode⟩, havail⟩
  | unlock hth => exact sound_unlock hw hfault hth
  | wait hth hmem => exact sound_wait hw hfault hth hmem
  | releasing hth => exact sound_releasing hw hfault hth
  | released hth => exact (sound_released hw hfault hth).2
  | miscounted hth hcount => exact absurd (sound_released hw hfault hth).1 hcount
  | wake hth => exact sound_wake hw hfault hth
  | relock hth havail => exact (sound_relock hw hfault havail hth).1
  | restore hth => exact sound_restore hw hfault hth
  | restored hth => exact sound_restored hw hfault hth

theorem sound_initial : (initial T M).Sound cfg where
  thread _ := ⟨List.Pairwise.nil, trivial⟩
  levels _ _ := rfl
  mutex _ _ _ := rfl
  other _ _ _ := rfl

theorem sound_run {es : List (Event T M)} (h : exec (step cfg) (initial T M) es = some w) : w.Sound cfg :=
  exec_invariant (fun _ _ _ hs he => sound_step hs he) h sound_initial

end TcpUdpProxy.Xthread
