import TcpUdpProxy.Library.Execution
import Mathlib.Algebra.Ring.Int.Defs
import Mathlib.Data.List.Dedup

/-!
`xrecursive_mutex` with its `scoped_lock`, and `wait` and `timed_wait` of
`condition_variable_recursive_mutex`. A step of a thread is what it does while it owns the boost mutex, or
that it has to wait for one; `T` are the threads and `M` the mutexes.
-/

namespace TcpUdpProxy.Xthread

def nocarePrimaryLevel : ℤ := -1

def maxStackElement : ℕ := 1024

/-- The elements are listed from the top. -/
structure QuickIntStack where
  elements : List ℤ
  length_le : elements.length ≤ maxStackElement

namespace QuickIntStack

def create : QuickIntStack := ⟨[], Nat.zero_le maxStackElement⟩

/-- There is no top of an empty stack; `empty()` is asked before `top()` everywhere. -/
def top (s : QuickIntStack) : Option ℤ := s.elements.head?

/-- There is no check: a push on a full stack writes behind the array. -/
def push (i : ℤ) (s : QuickIntStack) : Option QuickIntStack :=
  if h : s.elements.length < maxStackElement then some ⟨i :: s.elements, h⟩ else none

theorem length_pop (s : QuickIntStack) : s.elements.tail.length ≤ maxStackElement := by
  rw [List.length_tail]
  exact (Nat.sub_le _ _).trans s.length_le

def pop (s : QuickIntStack) : QuickIntStack := ⟨s.elements.tail, s.length_pop⟩

end QuickIntStack

/-- The constructor asserts that a level is not below `NOCARE_PRIMARY_LEVEL`. -/
structure Config (M : Type) where
  priLevel : M → ℤ
  nocare_le : ∀ m, nocarePrimaryLevel ≤ priLevel m

/-- `owner` and `depth` are those of the boost mutex. -/
structure XrecursiveMutex (T : Type) where
  recursionCount : ℤ
  owner : Option T
  depth : ℕ

inductive Outcome
  | success
  | xassert
  | overflow
  deriving DecidableEq

namespace XrecursiveMutex

variable {T : Type}

def create : XrecursiveMutex T := ⟨0, none, 0⟩

def acquire (t : T) (mtx : XrecursiveMutex T) : XrecursiveMutex T :=
  { mtx with owner := some t, depth := mtx.depth + 1 }

def release (mtx : XrecursiveMutex T) : XrecursiveMutex T :=
  { mtx with owner := if mtx.depth ≤ 1 then none else mtx.owner, depth := mtx.depth - 1 }

/-- `levels` is what `locks_hold_by_current_thread` points to, `none` until it is first used. -/
def lock (priLevel : ℤ) (t : T) (levels : Option QuickIntStack) (mtx : XrecursiveMutex T) :
    XrecursiveMutex T × Option QuickIntStack × Outcome :=
  let mtx := mtx.acquire t
  let mtx := { mtx with recursionCount := mtx.recursionCount + 1 }
  if priLevel ≠ nocarePrimaryLevel ∧ mtx.recursionCount = 1 then
    let priLevels := levels.getD .create
    if priLevels.top.any (priLevel ≤ ·) then
      let mtx := { mtx with recursionCount := mtx.recursionCount - 1 }
      (mtx.release, some priLevels, .xassert)
    else
      match priLevels.push priLevel with
      | some priLevels => (mtx, some priLevels, .success)
      | none => (mtx, some priLevels, .overflow)
  else (mtx, levels, .success)

/-- The last component tells whether the level was not on the top, which is logged. -/
def unlock (priLevel : ℤ) (levels : Option QuickIntStack) (mtx : XrecursiveMutex T) :
    XrecursiveMutex T × Option QuickIntStack × Bool :=
  let (levels, misplaced) :=
    if priLevel ≠ nocarePrimaryLevel ∧ mtx.recursionCount = 1 then
      match levels with
      | some priLevels =>
        if priLevels.top = some priLevel then (some priLevels.pop, false) else (levels, true)
      | none => (levels, false)
    else (levels, false)
  let mtx := { mtx with recursionCount := mtx.recursionCount - 1 }
  (mtx.release, levels, misplaced)

end XrecursiveMutex

/-- Where a thread is: in `lock()`, waiting for the boost mutex, or in one of the parts of `wait`. The
loops of `wait` have `left` rounds still to go. -/
inductive Mode (M : Type)
  | idle
  | locking (mtx : M)
  | releasing (mtx : M) (extraLock left : ℕ)
  | waiting (mtx : M) (extraLock : ℕ)
  | relocking (mtx : M) (extraLock : ℕ)
  | restoring (mtx : M) (left : ℕ)
  deriving DecidableEq

structure Thread (M : Type) where
  scopes : List M
  locksHold : Option QuickIntStack
  mode : Mode M

inductive Fault
  | overflow
  | terminate
  deriving DecidableEq

structure World (T M : Type) where
  mutexes : M → XrecursiveMutex T
  threads : T → Thread M
  failures : List (T × M)
  reports : List (T × M)
  fault : Option Fault

inductive Event (T M : Type)
  | lock (t : T) (m : M)
  | resume (t : T)
  | unlock (t : T)
  | wait (t : T) (m : M)
  | round (t : T)
  | wake (t : T)

section steps

variable {T M : Type} [DecidableEq T] [DecidableEq M]

namespace World

def modify (t : T) (f : Thread M → Thread M) (w : World T M) : World T M :=
  { w with threads := Function.update w.threads t (f (w.threads t)) }

def enter (t : T) (mode : Mode M) (w : World T M) : World T M := w.modify t fun th => { th with mode := mode }

def throwAssert (t : T) (m : M) (w : World T M) : World T M :=
  { w.enter t .idle with failures := w.failures ++ [(t, m)] }

def available (t : T) (m : M) (w : World T M) : Bool :=
  (w.mutexes m).owner = none || (w.mutexes m).owner = some t

def lockMutex (cfg : Config M) (t : T) (m : M) (w : World T M) : World T M × Outcome :=
  let (mtx, levels, outcome) := (w.mutexes m).lock (cfg.priLevel m) t (w.threads t).locksHold
  ({ w.modify t fun th => { th with locksHold := levels } with mutexes := Function.update w.mutexes m mtx },
    outcome)

def unlockMutex (cfg : Config M) (t : T) (m : M) (w : World T M) : World T M :=
  let (mtx, levels, misplaced) := (w.mutexes m).unlock (cfg.priLevel m) (w.threads t).locksHold
  { w.modify t fun th => { th with locksHold := levels } with
    mutexes := Function.update w.mutexes m mtx
    reports := if misplaced then w.reports ++ [(t, m)] else w.reports }

def scopedLock (cfg : Config M) (t : T) (m : M) (w : World T M) : World T M :=
  match w.lockMutex cfg t m with
  | (w, .success) => w.modify t fun th => { th with scopes := m :: th.scopes, mode := .idle }
  | (w, .xassert) => w.throwAssert t m
  | (w, .overflow) =>
    { w.modify t fun th => { th with scopes := m :: th.scopes, mode := .idle } with fault := some .overflow }

/-- The `mtx.lock()` at the end of `cond.wait`, which a destructor calls. -/
def relock (cfg : Config M) (t : T) (m : M) (extraLock : ℕ) (w : World T M) : World T M :=
  match w.lockMutex cfg t m with
  | (w, .success) => w.enter t (.restoring m extraLock)
  | (w, .xassert) => { w with fault := some .terminate }
  | (w, .overflow) => { w with fault := some .overflow }

def restore (cfg : Config M) (t : T) (m : M) (left : ℕ) (w : World T M) : World T M :=
  match w.lockMutex cfg t m with
  | (w, .success) => w.enter t (.restoring m left)
  | (w, .xassert) => w.throwAssert t m
  | (w, .overflow) => { w with fault := some .overflow }

def wait (cfg : Config M) (t : T) (m : M) (w : World T M) : World T M :=
  if cfg.priLevel m = nocarePrimaryLevel ∨
      ((w.threads t).locksHold.bind QuickIntStack.top) = some (cfg.priLevel m) then
    let extraLock := ((w.mutexes m).recursionCount - 1).toNat
    w.enter t (.releasing m extraLock extraLock)
  else w.throwAssert t m

def round (cfg : Config M) (t : T) (w : World T M) : Option (World T M) :=
  match (w.threads t).mode with
  | .releasing m extraLock (left + 1) => some ((w.unlockMutex cfg t m).enter t (.releasing m extraLock left))
  | .releasing m extraLock 0 =>
    if (w.mutexes m).recursionCount = 1 then some ((w.unlockMutex cfg t m).enter t (.waiting m extraLock))
    else some (w.throwAssert t m)
  | .restoring m (left + 1) => some (w.restore cfg t m left)
  | .restoring _ 0 => some (w.enter t .idle)
  | _ => none

def lock (cfg : Config M) (t : T) (m : M) (w : World T M) : World T M :=
  if w.available t m then w.scopedLock cfg t m else w.enter t (.locking m)

def resume (cfg : Config M) (t : T) (w : World T M) : Option (World T M) :=
  match (w.threads t).mode with
  | .locking m => if w.available t m then some (w.scopedLock cfg t m) else none
  | .relocking m extraLock => if w.available t m then some (w.relock cfg t m extraLock) else none
  | _ => none

def unlock (cfg : Config M) (t : T) (w : World T M) : Option (World T M) :=
  match (w.threads t).scopes with
  | m :: scopes => some ((w.unlockMutex cfg t m).modify t fun th => { th with scopes := scopes })
  | [] => none

def wake (t : T) (w : World T M) : Option (World T M) :=
  match (w.threads t).mode with
  | .waiting m extraLock => some (w.enter t (.relocking m extraLock))
  | _ => none

end World

def run (cfg : Config M) (w : World T M) : Event T M → Option (World T M)
  | .lock t m => if (w.threads t).mode = .idle then some (w.lock cfg t m) else none
  | .resume t => w.resume cfg t
  | .unlock t => if (w.threads t).mode = .idle then w.unlock cfg t else none
  -- only a thread that has locked the mutex may wait for the condition
  | .wait t m =>
    if (w.threads t).mode = .idle ∧ m ∈ (w.threads t).scopes then some (w.wait cfg t m) else none
  | .round t => w.round cfg t
  | .wake t => w.wake t

def step (cfg : Config M) (w : World T M) (ev : Event T M) : Option (World T M) :=
  if w.fault.isSome then none else run cfg w ev

end steps

def initial (T M : Type) : World T M where
  mutexes _ := .create
  threads _ := ⟨[], none, .idle⟩
  failures := []
  reports := []
  fault := none

def twoLevels : Config Bool where
  priLevel m := if m then 2 else 1
  nocare_le m := by cases m <;> decide

end TcpUdpProxy.Xthread
