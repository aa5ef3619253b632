import TcpUdpProxy.Library.Execution
import Mathlib.Data.Multiset.AddSub

/-!
A store-and-forward relay with one reader, one writer and a bounded queue between them.
The front of the queue stays there while it is being written, and the reader pauses
when the queue grows past `capacity`.
-/

namespace TcpUdpProxy.BoundedRelay

open TcpUdpProxy.Execution

structure State (α : Type) where
  queue : List α
  writing : Bool
  reading : Bool
  opened : Bool
  failed : Bool
  reads : ℕ
  writes : Multiset α
  received : List α
  popped : List α
  started : List α

inductive Op (α : Type)
  | open
  | receive (x : α)
  | readError
  | start
  | finish (x : α)
  | finishLast (x : α)
  | writeError (x : α)
  | fail

variable {α : Type}

def initial : State α := ⟨[], false, true, false, false, 0, 0, [], [], []⟩

def step [DecidableEq α] (capacity : ℕ) (r : State α) : Op α → Option (State α)
  | .open => if r.opened then none else some { r with opened := true, reads := r.reads + 1 }
  | .receive x =>
    if r.reads = 0 then none
    else if capacity < (r.queue ++ [x]).length then
      some { r with
        queue := r.queue ++ [x], received := r.received ++ [x],
        reads := r.reads - 1, reading := false }
    else some { r with queue := r.queue ++ [x], received := r.received ++ [x] }
  | .readError => if r.reads = 0 then none else some { r with reads := r.reads - 1, failed := true }
  | .start =>
    match r.queue with
    | [] => none
    | x :: _ =>
      if r.writing then none
      else some { r with writing := true, writes := x ::ₘ r.writes, started := r.started ++ [x] }
  | .finish x =>
    match r.queue with
    | [] => none
    | y :: q =>
      if r.writing ∧ x ∈ r.writes then
        some { r with
          queue := q, popped := r.popped ++ [y], writes := r.writes.erase x, writing := false,
          reading := true, reads := if r.reading then r.reads else r.reads + 1 }
      else none
  | .finishLast x =>
    match r.queue with
    | [y] =>
      if r.writing ∧ x ∈ r.writes then
        some { r with queue := [], popped := r.popped ++ [y], writes := r.writes.erase x }
      else none
    | _ => none
  | .writeError x => if x ∈ r.writes then some { r with writes := r.writes.erase x } else none
  | .fail => some { r with failed := true }

def FrontStarted (r : State α) : Prop :=
  (r.started = r.popped ∧ r.writes = 0) ∨
    (r.writing = true ∧ ∃ x q, r.queue = x :: q ∧ r.started = r.popped ++ [x] ∧ r.writes ≤ {x})

structure Inv (capacity : ℕ) (r : State α) : Prop where
  received_eq : r.received = r.popped ++ r.queue
  length_le : r.queue.length ≤ capacity + 1
  reads_le : r.reads ≤ 1
  read_armed : r.reads ≠ 0 → r.reading = true ∧ r.queue.length ≤ capacity
  paused_full : r.reading = false → r.queue.length = capacity + 1
  armed_read : r.opened = true → r.failed = false → r.reading = true → r.reads = 1
  unopened : r.opened = false → r.reads = 0 ∧ r.queue = []
  front : FrontStarted r

theorem inv_initial (capacity : ℕ) : Inv capacity (initial : State α) where
  received_eq := rfl
  length_le := Nat.zero_le _
  reads_le := Nat.zero_le _
  read_armed h := absurd rfl h
  paused_full h := by simp [initial] at h
  armed_read h := by simp [initial] at h
  unopened _ := ⟨rfl, rfl⟩
  front := .inl ⟨rfl, rfl⟩

theorem front_append {r : State α} (hf : FrontStarted r) (y : α) :
    FrontStarted { r with queue := r.queue ++ [y], received := r.received ++ [y] } := by
  rcases hf with h | ⟨hw, x, q, hq, hs, hx⟩
  · exact .inl h
  · exact .inr ⟨hw, x, q ++ [y], by simp [hq], hs, hx⟩

theorem front_of_write {r : State α} {x : α} (hf : FrontStarted r)
    (hx : x ∈ r.writes) :
    ∃ q, r.queue = x :: q ∧ r.started = r.popped ++ [x] ∧ r.writes = {x} := by
  rcases hf with ⟨-, hw⟩ | ⟨-, y, q, hq, hs, hle⟩
  · simp [hw] at hx
  · have hxy : x = y := Multiset.mem_singleton.mp (Multiset.subset_of_le hle hx)
    subst hxy
    exact ⟨q, hq, hs, le_antisymm hle (Multiset.singleton_le.mpr hx)⟩

section steps

variable [DecidableEq α] {capacity : ℕ} {r s : State α} {x : α}

theorem inv_open (hi : Inv capacity r) (h : step capacity r .open = some s) : Inv capacity s := by
  simp only [step] at h
  split at h
  · cases h
  next hopen =>
    have hclosed := hi.unopened (by simpa using hopen)
    have hreading : r.reading = true := by
      by_contra hr
      have := hi.paused_full (by simpa using hr)
      simp [hclosed.2] at this
    cases h
    exact { hi with
      reads_le := by simp [hclosed.1]
      read_armed := fun _ => ⟨hreading, by simp [hclosed.2]⟩
      armed_read := fun _ _ _ => by simp [hclosed.1]
      unopened := fun h => by simp at h }

theorem inv_receive (hi : Inv capacity r) (h : step capacity r (.receive x) = some s) :
    Inv capacity s := by
  simp only [step] at h
  split at h
  · cases h
  next hreads =>
    have hone : r.reads = 1 := by have := hi.reads_le; omega
    have harm := hi.read_armed hreads
    have hopen : r.opened = true := by
      by_contra ho
      exact hreads (hi.unopened (by simpa using ho)).1
    have hfront := front_append hi.front x
    split at h
    next hfull =>
      cases h
      exact {
        received_eq := by simp [hi.received_eq]
        length_le := by simpa using harm.2
        reads_le := by simp [hone]
        read_armed := fun h => by simp [hone] at h
        paused_full := fun _ => by simp at hfull ⊢; omega
        armed_read := fun _ _ h => by simp at h
        unopened := fun h => by simp [hopen] at h
        front := hfront }
    next hroom =>
      cases h
      exact {
        received_eq := by simp [hi.received_eq]
        length_le := by simpa using harm.2
        reads_le := hi.reads_le
        read_armed := fun _ => ⟨harm.1, by simpa using hroom⟩
        paused_full := fun h => by simp [harm.1] at h
        armed_read := hi.armed_read
        unopened := fun h => by simp [hopen] at h
        front := hfront }

theorem inv_readError (hi : Inv capacity r) (h : step capacity r .readError = some s) :
    Inv capacity s := by
  simp only [step] at h
  split at h
  · cases h
  next hreads =>
    have hone : r.reads = 1 := by have := hi.reads_le; omega
    cases h
    exact { hi with
      reads_le := by simp [hone]
      read_armed := fun h => by simp [hone] at h
      armed_read := fun _ h => by simp at h
      unopened := fun h => ⟨by simp [hone], (hi.unopened h).2⟩ }

theorem inv_start (hi : Inv capacity r) (h : step capacity r .start = some s) : Inv capacity s := by
  simp only [step] at h
  split at h
  · cases h
  next y q hq =>
    split at h
    · cases h
    next hwriting =>
      rcases hi.front with ⟨hs, hw⟩ | ⟨hw, -⟩
      · cases h
        exact { hi with front := .inr ⟨rfl, y, q, hq, by simp [hs], by simp [hw]⟩ }
      · exact absurd hw hwriting

theorem inv_finish (hi : Inv capacity r) (h : step capacity r (.finish x) = some s) :
    Inv capacity s := by
  simp only [step] at h
  split at h
  · cases h
  next y q hq =>
    split at h
    next hx =>
      -- the write that ends is the front of the queue and the only one in flight
      obtain ⟨q', hq', hs, hw⟩ := front_of_write hi.front hx.2
      have hlen := hi.length_le
      have hone := hi.reads_le
      have hopen : r.opened = true := by
        by_contra ho
        simp [(hi.unopened (by simpa using ho)).2] at hq
      rw [hq] at hq' hlen
      cases hq'
      have hpause : r.reading = false → r.reads = 0 := by
        intro hr
        by_contra hn
        simp [(hi.read_armed hn).1] at hr
      cases h
      exact {
        received_eq := by simp [hi.received_eq, hq]
        length_le := by simp at hlen ⊢; omega
        reads_le := by
          cases hr : r.reading
          · simp [hpause hr]
          · simpa using hone
        read_armed := fun _ => ⟨rfl, by simpa using hlen⟩
        paused_full := fun h => by simp at h
        armed_read := by
          intro ho hf _
          cases hr : r.reading
          · simp [hpause hr]
          · simpa using hi.armed_read ho hf hr
        unopened := fun h => by simp [hopen] at h
        front := .inl ⟨hs, by simp [hw]⟩ }
    · cases h

theorem inv_finishLast (hcap : 0 < capacity) (hi : Inv capacity r)
    (h : step capacity r (.finishLast x) = some s) : Inv capacity s := by
  simp only [step] at h
  split at h
  next y hq =>
    split at h
    next hx =>
      obtain ⟨q', hq', hs, hw⟩ := front_of_write hi.front hx.2
      rw [hq] at hq'
      cases hq'
      cases h
      exact { hi with
        received_eq := by simp [hi.received_eq, hq]
        length_le := Nat.zero_le _
        read_armed := fun h => ⟨(hi.read_armed h).1, Nat.zero_le _⟩
        -- a paused reader would need a queue of two: this is where the capacity is used
        paused_full := fun h => by have := hi.paused_full h; simp [hq] at this; omega
        unopened := fun h => ⟨(hi.unopened h).1, rfl⟩
        front := .inl ⟨hs, by simp [hw]⟩ }
    · cases h
  · cases h

theorem inv_writeError (hi : Inv capacity r) (h : step capacity r (.writeError x) = some s) :
    Inv capacity s := by
  simp only [step] at h
  split at h
  next hx =>
    cases h
    refine { hi with front := ?_ }
    rcases hi.front with ⟨-, hw⟩ | ⟨hw, y, q, hq, hs, hle⟩
    · simp [hw] at hx
    · exact .inr ⟨hw, y, q, hq, hs, (Multiset.erase_le x r.writes).trans hle⟩
  · cases h

theorem inv_fail (hi : Inv capacity r) (h : step capacity r .fail = some s) : Inv capacity s := by
  cases h
  exact { hi with armed_read := fun _ h => by simp at h }

theorem inv_step (hcap : 0 < capacity) (hi : Inv capacity r) (op : Op α)
    (h : step capacity r op = some s) : Inv capacity s := by
  cases op with
  | «open» => exact inv_open hi h
  | receive x => exact inv_receive hi h
  | readError => exact inv_readError hi h
  | start => exact inv_start hi h
  | finish x => exact inv_finish hi h
  | finishLast x => exact inv_finishLast hcap hi h
  | writeError x => exact inv_writeError hi h
  | fail => exact inv_fail hi h

theorem inv_exec (hcap : 0 < capacity) {ops : List (Op α)} (hi : Inv capacity r)
    (h : exec (step capacity) r ops = some s) : Inv capacity s :=
  exec_invariant (fun _ op _ hi h => inv_step hcap hi op h) h hi

theorem received_step (op : Op α) (h : step capacity r op = some s) : r.received <+: s.received := by
  cases op with
  | receive x =>
    simp only [step] at h
    split at h
    · cases h
    · split at h
      · cases h
        exact List.prefix_append _ _
      · cases h
        exact List.prefix_append _ _
  | «open» | readError =>
    simp only [step] at h
    split at h
    · cases h
    · cases h
      exact List.prefix_rfl
  | writeError x =>
    simp only [step] at h
    split at h
    · cases h
      exact List.prefix_rfl
    · cases h
  | fail =>
    cases h
    exact List.prefix_rfl
  | start | finish x =>
    simp only [step] at h
    split at h
    · cases h
    · split at h <;> cases h
      exact List.prefix_rfl
  | finishLast x =>
    simp only [step] at h
    split at h
    · split at h <;> cases h
      exact List.prefix_rfl
    · cases h

theorem received_exec {ops : List (Op α)} (h : exec (step capacity) r ops = some s) :
    r.received <+: s.received :=
  exec_invariant (I := fun t => r.received <+: t.received)
    (fun _ op _ hr h => hr.trans (received_step op h)) h List.prefix_rfl

end steps

section consequences

variable {capacity : ℕ} {r : State α}

theorem Inv.started_prefix (hi : Inv capacity r) : r.started <+: r.received := by
  rw [hi.received_eq]
  rcases hi.front with ⟨hs, -⟩ | ⟨-, x, q, hq, hs, -⟩
  · rw [hs]
    exact List.prefix_append _ _
  · exact ⟨q, by simp [hs, hq]⟩

theorem Inv.card_writes (hi : Inv capacity r) : r.writes.card ≤ 1 := by
  rcases hi.front with ⟨-, hw⟩ | ⟨-, x, q, -, -, hle⟩
  · simp [hw]
  · simpa using Multiset.card_le_card hle

theorem Inv.writing_of_write (hi : Inv capacity r) {x : α} (hx : x ∈ r.writes) :
    r.writing = true := by
  rcases hi.front with ⟨-, hw⟩ | ⟨hw, -⟩
  · simp [hw] at hx
  · exact hw

theorem Inv.paused_nonempty (hi : Inv capacity r) (h : r.reading = false) : r.queue ≠ [] := by
  have := hi.paused_full h
  intro hq
  simp [hq] at this

end consequences

end TcpUdpProxy.BoundedRelay
