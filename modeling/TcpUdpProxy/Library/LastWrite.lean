import Mathlib.Data.List.DropRight
import Mathlib.Data.List.Induction

namespace TcpUdpProxy.LastWrite

variable {α β : Type} (write : α → Option β)

def final (v : β) (l : List α) : β := l.foldl (fun v a => (write a).getD v) v

@[simp] theorem final_nil (v : β) : final write v [] = v := rfl

@[simp] theorem final_concat (v : β) (l : List α) (a : α) :
    final write v (l ++ [a]) = (write a).getD (final write v l) := by
  simp [final]

def trailing (kept : α → Bool) (l : List α) : List α :=
  l.rtakeWhile fun a => !(kept a && (write a).isSome)

theorem final_filter_iff (kept : α → Bool) (v : β) (l : List α) :
    final write v l = final write v (l.filter kept) ↔
      ∀ x ∈ ((trailing write kept l).filterMap write).getLast?, x = final write v (l.filter kept) := by
  induction l using List.reverseRecOn with
  | nil => simp [trailing]
  | append_singleton l a ih =>
    unfold trailing at ih ⊢
    cases hwrite : write a with
    | none =>
      have hrest : final write v ((l ++ [a]).filter kept) = final write v (l.filter kept) := by
        rw [List.filter_append]
        cases hkept : kept a <;> simp [hkept, hwrite]
      rw [final_concat, hrest, hwrite, Option.getD_none, ih, List.rtakeWhile_concat_pos _ _ _ (by simp [hwrite])]
      simp [hwrite]
    | some x =>
      cases hkept : kept a with
      | true =>
        rw [List.rtakeWhile_concat_neg _ _ _ (by simp [hwrite, hkept])]
        simp [List.filter_append, hkept, hwrite]
      | false =>
        rw [List.rtakeWhile_concat_pos _ _ _ (by simp [hkept])]
        simp [List.filter_append, hkept, hwrite]

end TcpUdpProxy.LastWrite
