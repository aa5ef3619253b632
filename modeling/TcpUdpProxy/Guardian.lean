import TcpUdpProxy.Common
import TcpUdpProxy.Library.Progress
import Mathlib.Data.Prod.Lex

/-!
The guardian of `xdaemon.h`: it forks the processes that serve, and forks again when one of them has ended, until
ten of them have or the flag that they share is cleared.
-/

namespace TcpUdpProxy.Guardian

open Execution Progress

inductive Place
  | loop
  | fork
  | wait
  | left
  | returned (launched : Bool)
  | exited
  deriving DecidableEq

/-- The locals of `guardian` and the shared flag, with the children that run and those that ended since;
`forked` and `waited` count what has been done. -/
structure State where
  place : Place
  nowChildCnt : ℤ
  timesLeft : ℤ
  globalRunningFlag : Bool
  running : ℕ
  ended : ℕ
  forked : ℕ
  waited : ℕ

/-- `terminate` is called by a child or by the signal handler of the guardian. -/
inductive Event
  | test
  | fork (ok : Bool)
  | wait (ok : Bool)
  | childEnds
  | terminate
  deriving DecidableEq

def guardian (childCnt : ℤ) (mapped : Bool) : Except Fault State :=
  if childCnt ≤ 0 then .error .xassert
  else .ok ⟨if mapped then .loop else .returned false, 0, 10, true, 0, 0, 0, 0⟩

def forkChild (s : State) : State :=
  { s with place := .loop, nowChildCnt := s.nowChildCnt + 1, running := s.running + 1, forked := s.forked + 1 }

def waitChild (s : State) : State :=
  let s := { s with timesLeft := s.timesLeft - 1, ended := s.ended - 1, waited := s.waited + 1 }
  if s.timesLeft = 0 then { s with place := .returned false }
  else { s with place := .loop, nowChildCnt := s.nowChildCnt - 1 }

def step (childCnt : ℤ) (s : State) : Event → Option State
  | .test =>
    match s.place with
    | .loop =>
      let next := if s.nowChildCnt < childCnt then .fork else .wait
      some { s with place := if s.globalRunningFlag then next else .left }
    | .left => some { s with place := if s.globalRunningFlag = false then .exited else .returned true }
    | _ => none
  | .fork ok =>
    if s.place = .fork then some (if ok then forkChild s else { s with place := .returned false }) else none
  | .wait ok =>
    if s.place = .wait then
      if ok then
        if 0 < s.ended then some (waitChild s) else none
      else some { s with place := .returned false }
    else none
  | .childEnds => if 0 < s.running then some { s with running := s.running - 1, ended := s.ended + 1 } else none
  | .terminate => some { s with globalRunningFlag := false }

def children (s : State) : ℕ := s.running + s.ended

def Agrees (childCnt : ℤ) (s : State) : Place → Prop
  | .fork => (children s : ℤ) < childCnt
  | .wait => (children s : ℤ) = childCnt
  | .left | .exited => s.globalRunningFlag = false
  | .returned true => False
  | .loop | .returned false => True

structure Counted (childCnt : ℤ) (s : State) : Prop where
  forked : s.forked = children s + s.waited
  times : s.timesLeft + s.waited = 10
  counted : s.timesLeft ≠ 0 → 0 < s.timesLeft ∧ s.nowChildCnt = children s
  most : (children s : ℤ) ≤ childCnt
  last : s.timesLeft = 0 → s.place = .returned false ∧ (s.forked : ℤ) = childCnt + 9
  agrees : Agrees childCnt s s.place

section steps

variable {n : ℤ} {s t : State} {e : Event}

theorem Agrees.congr {place : Place} (h : Agrees n s place) (hchildren : children t = children s)
    (hflag : s.globalRunningFlag = false → t.globalRunningFlag = false) : Agrees n t place := by
  cases place with
  | loop => trivial
  | fork | wait =>
    simp only [Agrees, hchildren]
    exact h
  | left | exited => exact hflag h
  | returned launched => cases launched <;> exact h

theorem counted_guardian {mapped : Bool} (h : guardian n mapped = .ok s) : Counted n s := by
  unfold guardian at h
  split at h
  · cases h
  next hpos =>
    have hten : (10 : ℤ) ≠ 0 := by decide
    cases h
    constructor
    · rfl
    · rfl
    · exact fun _ => ⟨(by decide : (0 : ℤ) < 10), rfl⟩
    · exact (not_le.mp hpos).le
    · exact fun hzero => absurd hzero hten
    · cases mapped <;> trivial

theorem Counted.timesLeft (hs : Counted n s) (hplace : s.place ≠ .returned false) : s.timesLeft ≠ 0 :=
  fun hzero => hplace (hs.last hzero).1

theorem Counted.move (hs : Counted n s) (hplace : s.place ≠ .returned false) {place : Place}
    (hagrees : Agrees n s place) : Counted n { s with place := place } where
  forked := hs.forked
  times := hs.times
  counted := hs.counted
  most := hs.most
  last hzero := absurd hzero (hs.timesLeft hplace)
  agrees := hagrees.congr rfl id

theorem counted_test (hs : Counted n s) (h : step n s .test = some t) : Counted n t := by
  simp only [step] at h
  split at h
  next hplace =>
    have hgoes : s.place ≠ .returned false := by rw [hplace]; decide
    obtain ⟨-, hcounted⟩ := hs.counted (hs.timesLeft hgoes)
    have hmost := hs.most
    cases h
    apply hs.move hgoes
    split_ifs with hflag hless
    · exact hcounted.symm.trans_lt hless
    · exact le_antisymm hmost ((not_lt.mp hless).trans_eq hcounted)
    · exact Bool.of_not_eq_true hflag
  next hplace =>
    have hagrees := hs.agrees
    rw [hplace] at hagrees
    have hflag : s.globalRunningFlag = false := hagrees
    cases h
    rw [if_pos hflag]
    exact hs.move (by rw [hplace]; decide) hflag
  · cases h

theorem counted_forkChild (hs : Counted n s) (hplace : s.place = .fork) : Counted n (forkChild s) := by
  have hleft := hs.timesLeft (by rw [hplace]; decide)
  have hagrees := hs.agrees
  rw [hplace] at hagrees
  have hless : (children s : ℤ) < n := hagrees
  obtain ⟨hpos, hcounted⟩ := hs.counted hleft
  have hchildren : children (forkChild s) = children s + 1 := Nat.add_right_comm _ _ _
  constructor
  · rw [hchildren]
    change s.forked + 1 = _ + s.waited
    rw [hs.forked, Nat.add_right_comm]
  · exact hs.times
  · intro _
    rw [hchildren]
    exact ⟨hpos, congrArg (· + 1) hcounted⟩
  · rw [hchildren]
    exact hless
  · exact fun hzero => absurd hzero hleft
  · trivial

theorem counted_waitChild (hs : Counted n s) (hplace : s.place = .wait) (hended : 0 < s.ended) :
    Counted n (waitChild s) := by
  have hleft := hs.timesLeft (by rw [hplace]; decide)
  have hagrees := hs.agrees
  rw [hplace] at hagrees
  have hall : (children s : ℤ) = n := hagrees
  obtain ⟨hpos, hcounted⟩ := hs.counted hleft
  have hforked := hs.forked
  have htimes := hs.times
  unfold children at hall hcounted hforked
  unfold waitChild
  dsimp only
  split_ifs with hlast
  · constructor
    · change s.forked = s.running + (s.ended - 1) + (s.waited + 1)
      omega
    · change s.timesLeft - 1 + (s.waited + 1 : ℕ) = 10
      omega
    · exact fun hnot => absurd hlast hnot
    · change ((s.running + (s.ended - 1) : ℕ) : ℤ) ≤ n
      omega
    · refine fun _ => ⟨rfl, ?_⟩
      change (s.forked : ℤ) = n + 9
      omega
    · trivial
  · constructor
    · change s.forked = s.running + (s.ended - 1) + (s.waited + 1)
      omega
    · change s.timesLeft - 1 + (s.waited + 1 : ℕ) = 10
      omega
    · intro _
      change 0 < s.timesLeft - 1 ∧ s.nowChildCnt - 1 = (s.running + (s.ended - 1) : ℕ)
      omega
    · change ((s.running + (s.ended - 1) : ℕ) : ℤ) ≤ n
      omega
    · exact fun hzero => absurd hzero hlast
    · trivial

theorem counted_childEnds (hs : Counted n s) (hrunning : 0 < s.running) :
    Counted n { s with running := s.running - 1, ended := s.ended + 1 } := by
  have hchildren : children { s with running := s.running - 1, ended := s.ended + 1 } = children s := by
    change s.running - 1 + (s.ended + 1) = s.running + s.ended
    omega
  constructor
  · rw [hchildren]
    exact hs.forked
  · exact hs.times
  · rw [hchildren]
    exact hs.counted
  · rw [hchildren]
    exact hs.most
  · exact hs.last
  · exact hs.agrees.congr hchildren id

theorem counted_terminate (hs : Counted n s) : Counted n { s with globalRunningFlag := false } where
  forked := hs.forked
  times := hs.times
  counted := hs.counted
  most := hs.most
  last := hs.last
  agrees := hs.agrees.congr rfl fun _ => rfl

theorem counted_step (hs : Counted n s) (h : step n s e = some t) : Counted n t := by
  cases e with
  | test => exact counted_test hs h
  | fork ok =>
    obtain ⟨hplace, h⟩ := Option.ite_none_right_eq_some.mp h
    cases h
    cases ok with
    | true => exact counted_forkChild hs hplace
    | false => exact hs.move (by rw [hplace]; decide) trivial
  | wait ok =>
    obtain ⟨hplace, h⟩ := Option.ite_none_right_eq_some.mp h
    cases ok with
    | true =>
      obtain ⟨hended, h⟩ := Option.ite_none_right_eq_some.mp h
      cases h
      exact counted_waitChild hs hplace hended
    | false =>
      cases h
      exact hs.move (by rw [hplace]; decide) trivial
  | childEnds =>
    obtain ⟨hrunning, h⟩ := Option.ite_none_right_eq_some.mp h
    cases h
    exact counted_childEnds hs hrunning
  | terminate =>
    cases h
    exact counted_terminate hs

end steps

section runs

variable {n : ℤ} {mapped : Bool} {s₀ s t : State} {e : Event} {es : List Event}

theorem counted_exec (hstart : guardian n mapped = .ok s₀) (h : exec (step n) s₀ es = some s) : Counted n s :=
  exec_invariant (I := Counted n) (fun _ _ _ hs h => counted_step hs h) h (counted_guardian hstart)

theorem guardian_ok (h : guardian n mapped = .ok s₀) : 0 < n ∧ s₀.globalRunningFlag = true ∧
    (s₀.place = .returned false → mapped = false) := by
  unfold guardian at h
  split at h
  · cases h
  next hpos =>
    cases h
    refine ⟨not_le.mp hpos, rfl, ?_⟩
    cases mapped with
    | true => intro hplace; cases hplace
    | false => exact fun _ => rfl

theorem flag_step (he : e ≠ .terminate) (h : step n s e = some t) : t.globalRunningFlag = s.globalRunningFlag := by
  cases e with
  | test =>
    simp only [step] at h
    split at h <;> cases h <;> rfl
  | fork ok =>
    obtain ⟨-, h⟩ := Option.ite_none_right_eq_some.mp h
    cases h
    cases ok <;> rfl
  | wait ok =>
    obtain ⟨-, h⟩ := Option.ite_none_right_eq_some.mp h
    cases ok with
    | true =>
      obtain ⟨-, h⟩ := Option.ite_none_right_eq_some.mp h
      cases h
      unfold waitChild
      dsimp only
      split <;> rfl
    | false =>
      cases h
      rfl
  | childEnds =>
    obtain ⟨-, h⟩ := Option.ite_none_right_eq_some.mp h
    cases h
    rfl
  | terminate => exact absurd rfl he

theorem terminate_of_cleared (hstart : guardian n mapped = .ok s₀) (h : exec (step n) s₀ es = some s)
    (hflag : s.globalRunningFlag = false) : .terminate ∈ es := by
  by_contra hnever
  have hset : s.globalRunningFlag = true := by
    refine exec_guarded (I := fun s => s.globalRunningFlag = true) (G := fun _ e => e ≠ .terminate) ?_ h ?_
      (guardian_ok hstart).2.1
    · intro s e t hs he h
      exact (flag_step he h).trans hs
    · refine along_of_mem (fun e he => ?_) s₀
      rintro rfl
      exact hnever he
  rw [hset] at hflag
  cases hflag

theorem returned_step (hs : s.place = .returned false → s.timesLeft = 0) (hfork : e ≠ .fork false)
    (hwait : e ≠ .wait false) (h : step n s e = some t) (hplace : t.place = .returned false) : t.timesLeft = 0 := by
  cases e with
  | test =>
    simp only [step] at h
    split at h
    · cases h
      dsimp only at hplace
      split_ifs at hplace
    · cases h
      dsimp only at hplace
      split_ifs at hplace
      cases hplace
    · cases h
  | fork ok =>
    obtain ⟨-, h⟩ := Option.ite_none_right_eq_some.mp h
    cases h
    cases ok with
    | true => cases hplace
    | false => exact absurd rfl hfork
  | wait ok =>
    obtain ⟨-, h⟩ := Option.ite_none_right_eq_some.mp h
    cases ok with
    | true =>
      obtain ⟨-, h⟩ := Option.ite_none_right_eq_some.mp h
      cases h
      unfold waitChild at hplace ⊢
      dsimp only at hplace ⊢
      split_ifs at hplace ⊢ with hlast
      exact hlast
    | false => exact absurd rfl hwait
  | childEnds =>
    obtain ⟨-, h⟩ := Option.ite_none_right_eq_some.mp h
    cases h
    exact hs hplace
  | terminate =>
    cases h
    exact hs hplace

def replaced : List Event :=
  [.test, .fork true, .test, .childEnds, .wait true, .test, .fork true, .test, .terminate, .childEnds, .wait true,
    .test, .test]

def calls (s : State) : ℕ := s.forked + s.waited

def pending (s : State) : ℕ := if s.place = .fork ∨ s.place = .wait then 1 else 0

theorem pending_step (hflag : s.globalRunningFlag = false) (h : step n s e = some t) :
    t.globalRunningFlag = false ∧ calls t + pending t ≤ calls s + pending s := by
  cases e with
  | test =>
    simp only [step] at h
    split at h
    · cases h
      exact ⟨hflag, hflag ▸ Nat.le_add_right _ _⟩
    · cases h
      rw [if_pos hflag]
      exact ⟨hflag, Nat.le_add_right _ _⟩
    · cases h
  | fork ok =>
    obtain ⟨hplace, h⟩ := Option.ite_none_right_eq_some.mp h
    have hpending : pending s = 1 := if_pos (.inl hplace)
    rw [hpending]
    cases h
    cases ok with
    | true =>
      refine ⟨hflag, ?_⟩
      change s.forked + 1 + s.waited + 0 ≤ s.forked + s.waited + 1
      omega
    | false => exact ⟨hflag, Nat.le_succ _⟩
  | wait ok =>
    obtain ⟨hplace, h⟩ := Option.ite_none_right_eq_some.mp h
    have hpending : pending s = 1 := if_pos (.inr hplace)
    rw [hpending]
    cases ok with
    | true =>
      obtain ⟨-, h⟩ := Option.ite_none_right_eq_some.mp h
      cases h
      unfold waitChild
      dsimp only
      split_ifs
      · exact ⟨hflag, le_refl _⟩
      · exact ⟨hflag, le_refl _⟩
    | false =>
      cases h
      exact ⟨hflag, Nat.le_succ _⟩
  | childEnds =>
    obtain ⟨-, h⟩ := Option.ite_none_right_eq_some.mp h
    cases h
    exact ⟨hflag, le_refl _⟩
  | terminate =>
    cases h
    exact ⟨rfl, le_refl _⟩

theorem one_call_after_terminate (h : exec (step n) s (.terminate :: es) = some t) :
    calls t ≤ calls s + pending s := by
  obtain ⟨u, hu, h⟩ := exec_cons_some.mp h
  cases hu
  have hpending : t.globalRunningFlag = false ∧ calls t + pending t ≤ calls s + pending s := by
    refine exec_invariant (I := fun t => t.globalRunningFlag = false ∧ calls t + pending t ≤ calls s + pending s)
      ?_ h ⟨rfl, le_refl _⟩
    rintro u e v ⟨hflag, hle⟩ h
    obtain ⟨hflag', hle'⟩ := pending_step hflag h
    exact ⟨hflag', hle'.trans hle⟩
  exact (Nat.le_add_right _ _).trans hpending.2

theorem one_call_after_terminate_replaced : ∃ s t,
    exec (step 1) s [.terminate, .childEnds, .wait true, .test] = some t ∧
    pending s = 1 ∧ calls t ≤ calls s + pending s := by
  have hsome : (exec (step 1) ⟨.wait, 1, 10, true, 1, 0, 1, 0⟩ [.terminate, .childEnds, .wait true, .test]).isSome =
      true := by decide
  obtain ⟨t, ht⟩ := Option.isSome_iff_exists.mp hsome
  exact ⟨_, t, ht, rfl, one_call_after_terminate ht⟩

end runs

section liveness

variable {n : ℤ} {s t : State} {e : Event}

inductive Party
  | guardian
  | child
  deriving DecidableEq

def Party.own : Party → Event → Prop
  | .guardian, .test | .guardian, .fork _ | .guardian, .wait _ => True
  | .child, .childEnds => True
  | _, _ => False

def Finished (s : State) : Prop := s.place = .returned false ∨ s.place = .exited

def stage (s : State) : ℕ :=
  match s.place with
  | .loop => 3
  | .fork => 2
  | .wait => if s.ended = 0 then 2 else 1
  | _ => 1

def rank (n : ℤ) (s : State) : ℕ ×ₗ ℕ :=
  toLex (s.timesLeft.toNat, 3 * (n - s.nowChildCnt).toNat + stage s)

def helper (s : State) : Party := if s.place = .wait ∧ s.ended = 0 then .child else .guardian

theorem helper_enabled (hs : Counted n s) (hpos : 0 < n) (hgoal : ¬ Finished s) :
    Enabled (step n) (helper s).own s := by
  have hagrees := hs.agrees
  cases hplace : s.place with
  | loop | left =>
    have hhelper : helper s = .guardian := if_neg fun hwait => by rw [hplace] at hwait; cases hwait.1
    have hsome : (step n s .test).isSome = true := by
      simp only [step, hplace]
      rfl
    obtain ⟨t, ht⟩ := Option.isSome_iff_exists.mp hsome
    rw [hhelper]
    exact ⟨.test, t, trivial, ht⟩
  | fork =>
    have hhelper : helper s = .guardian := if_neg fun hwait => by rw [hplace] at hwait; cases hwait.1
    rw [hhelper]
    exact ⟨.fork true, _, trivial, if_pos hplace⟩
  | wait =>
    by_cases hended : s.ended = 0
    · have hhelper : helper s = .child := if_pos ⟨hplace, hended⟩
      rw [hplace] at hagrees
      have hall : (children s : ℤ) = n := hagrees
      unfold children at hall
      rw [hhelper]
      exact ⟨.childEnds, _, trivial, if_pos (by omega)⟩
    · have hhelper : helper s = .guardian := if_neg fun hwait => hended hwait.2
      rw [hhelper]
      exact ⟨.wait true, waitChild s, trivial, (if_pos hplace).trans (if_pos (Nat.pos_of_ne_zero hended))⟩
  | returned launched =>
    rw [hplace] at hagrees
    cases launched with
    | true => exact absurd hagrees id
    | false => exact absurd (.inl hplace) hgoal
  | exited => exact absurd (.inr hplace) hgoal

theorem rank_lt_of_stage (htimes : t.timesLeft = s.timesLeft) (hchildren : t.nowChildCnt = s.nowChildCnt)
    (hless : stage t < stage s) : rank n t < rank n s := by
  unfold rank
  rw [htimes, hchildren]
  exact Prod.Lex.toLex_lt_toLex.mpr (.inr ⟨rfl, Nat.add_lt_add_left hless _⟩)

theorem rank_step (hs : Counted n s) (h : step n s e = some t) :
    Finished t ∨ rank n t < rank n s ∨ rank n t ≤ rank n s ∧ helper t = helper s ∧ ¬ (helper s).own e := by
  have hagrees := hs.agrees
  cases e with
  | test =>
    simp only [step] at h
    split at h
    next hplace =>
      cases h
      refine .inr (.inl (rank_lt_of_stage rfl rfl ?_))
      have hstage : stage s = 3 := by rw [stage, hplace]
      rw [hstage]
      unfold stage
      dsimp only
      split_ifs <;> decide
    next hplace =>
      rw [hplace] at hagrees
      have hflag : s.globalRunningFlag = false := hagrees
      cases h
      exact .inl (.inr (if_pos hflag))
    · cases h
  | fork ok =>
    obtain ⟨hplace, h⟩ := Option.ite_none_right_eq_some.mp h
    cases h
    cases ok with
    | true =>
      obtain ⟨-, hcounted⟩ := hs.counted (hs.timesLeft (by rw [hplace]; decide))
      rw [hplace] at hagrees
      have hless : (children s : ℤ) < n := hagrees
      have hstage : stage s = 2 := by rw [stage, hplace]
      refine .inr (.inl (Prod.Lex.toLex_lt_toLex.mpr (.inr ⟨rfl, ?_⟩)))
      change 3 * (n - (s.nowChildCnt + 1)).toNat + 3 < 3 * (n - s.nowChildCnt).toNat + stage s
      omega
    | false => exact .inl (.inl rfl)
  | wait ok =>
    obtain ⟨hplace, h⟩ := Option.ite_none_right_eq_some.mp h
    cases ok with
    | true =>
      obtain ⟨-, h⟩ := Option.ite_none_right_eq_some.mp h
      obtain ⟨hpos, -⟩ := hs.counted (hs.timesLeft (by rw [hplace]; decide))
      cases h
      unfold waitChild
      dsimp only
      split_ifs
      · exact .inl (.inl rfl)
      · refine .inr (.inl (Prod.Lex.toLex_lt_toLex.mpr (.inl ?_)))
        change (s.timesLeft - 1).toNat < s.timesLeft.toNat
        omega
    | false =>
      cases h
      exact .inl (.inl rfl)
  | childEnds =>
    obtain ⟨-, h⟩ := Option.ite_none_right_eq_some.mp h
    cases h
    by_cases hwait : s.place = .wait ∧ s.ended = 0
    · refine .inr (.inl (rank_lt_of_stage rfl rfl ?_))
      have hstage : stage s = 2 := by
        rw [stage, hwait.1]
        exact if_pos hwait.2
      rw [hstage, stage, hwait.1]
      exact Nat.lt_succ_self _
    · have hhelper : helper s = .guardian := if_neg hwait
      refine .inr (.inr ⟨?_, ?_, ?_⟩)
      · refine Prod.Lex.toLex_le_toLex.mpr (.inr ⟨rfl, Nat.add_le_add_left ?_ _⟩)
        unfold stage
        cases hplace : s.place with
        | wait =>
          have hended : s.ended ≠ 0 := fun hended => hwait ⟨hplace, hended⟩
          dsimp only
          rw [if_neg hended]
          exact le_refl _
        | _ => exact le_refl _
      · rw [hhelper]
        exact if_neg fun hnone => Nat.succ_ne_zero _ hnone.2
      · rw [hhelper]
        exact id
  | terminate =>
    cases h
    refine .inr (.inr ⟨le_refl _, rfl, ?_⟩)
    cases helper s <;> exact id

end liveness

end TcpUdpProxy.Guardian
