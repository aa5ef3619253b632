import Mathlib.Data.Int.Notation
import Mathlib.Tactic.Common

namespace TcpUdpProxy.SharedCounter

/-- A counter of `users` whose two updates read `value` first and write it later. -/
structure State where
  value : ℤ
  users : ℕ
  raising : Option ℤ
  lowering : Option ℤ

inductive Op
  | readUp
  | writeUp
  | readDown
  | writeDown

def step (s : State) : Op → Option State
  | .readUp => if s.raising = none then some { s with raising := some s.value } else none
  | .writeUp =>
    s.raising.map fun v => { s with value := v + 1, users := s.users + 1, raising := none }
  | .readDown =>
    if s.lowering = none ∧ 0 < s.users then some { s with lowering := some s.value } else none
  | .writeDown =>
    s.lowering.map fun v => { s with value := v - 1, users := s.users - 1, lowering := none }

def Alone (s : State) : Op → Prop
  | .readUp => s.lowering = none
  | .readDown => s.raising = none
  | _ => True

structure Exact (s : State) : Prop where
  value_eq : s.value = s.users
  one : s.raising = none ∨ s.lowering = none
  raising_eq : ∀ v, s.raising = some v → v = s.value
  lowering_eq : ∀ v, s.lowering = some v → v = s.value
  used : s.lowering ≠ none → 0 < s.users

theorem exact_zero : Exact ⟨0, 0, none, none⟩ := by
  constructor <;> simp

theorem exact_step {s t : State} {op : Op} (hs : Exact s) (ha : Alone s op)
    (h : step s op = some t) : Exact t := by
  obtain ⟨hvalue, hone, hraising, hlowering, hused⟩ := hs
  cases op with
  | readUp =>
    simp only [step, Option.ite_none_right_eq_some, Option.some.injEq] at h
    obtain ⟨-, rfl⟩ := h
    have hnone : s.lowering = none := ha
    constructor <;> simp_all
  | writeUp =>
    obtain ⟨v, hv, rfl⟩ := Option.map_eq_some_iff.mp h
    -- nobody has written since the read, so the value that was read is still there
    have hvs := hraising v hv
    have hnone : s.lowering = none := by
      apply hone.resolve_left
      rw [hv]
      simp
    constructor
    · show v + 1 = ((s.users + 1 : ℕ) : ℤ)
      omega
    · exact .inl rfl
    · intro u hu
      cases hu
    · intro u hu
      rw [hnone] at hu
      cases hu
    · intro hne
      exact absurd hnone hne
  | readDown =>
    simp only [step, Option.ite_none_right_eq_some, Option.some.injEq] at h
    obtain ⟨⟨-, hpos⟩, rfl⟩ := h
    have hnone : s.raising = none := ha
    constructor <;> simp_all
  | writeDown =>
    obtain ⟨v, hv, rfl⟩ := Option.map_eq_some_iff.mp h
    have hvs := hlowering v hv
    have hpos : 0 < s.users := by
      apply hused
      rw [hv]
      simp
    have hnone : s.raising = none := by
      apply hone.resolve_right
      rw [hv]
      simp
    constructor
    · show v - 1 = ((s.users - 1 : ℕ) : ℤ)
      omega
    · exact .inr rfl
    · intro u hu
      rw [hnone] at hu
      cases hu
    · intro u hu
      cases hu
    · intro hne
      exact absurd rfl hne

end TcpUdpProxy.SharedCounter
