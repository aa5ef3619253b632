import Mathlib.Data.List.AList

namespace TcpUdpProxy.AssociationList

variable {α β : Type} [DecidableEq α] {s : AList fun _ : α => β} {a b : α} {c d : β}

theorem lookup_erase_some : (s.erase a).lookup b = some c ↔ b ≠ a ∧ s.lookup b = some c := by
  by_cases hb : b = a
  · subst hb
    rw [AList.lookup_erase]
    simp
  · simp [hb, AList.lookup_erase_ne]

theorem lookup_insert_some :
    (s.insert a c).lookup b = some d ↔ b = a ∧ d = c ∨ b ≠ a ∧ s.lookup b = some d := by
  by_cases hb : b = a
  · subst hb
    simp [AList.lookup_insert, eq_comm]
  · simp [hb, AList.lookup_insert_ne]

theorem lookup_insert_new (ha : s.lookup a = none) (hb : s.lookup b = some d) :
    (s.insert a c).lookup b = some d := by
  apply lookup_insert_some.mpr
  refine .inr ⟨?_, hb⟩
  rintro rfl
  rw [ha] at hb
  cases hb

end TcpUdpProxy.AssociationList
