import Mathlib.Order.Basic

namespace TcpUdpProxy.WhileLoop

variable {σ : Type} {cond : σ → Bool} {body : σ → σ} {I : σ → Prop} {s : σ}

/-- `none` when the fuel is spent while the condition still holds. -/
def loop (cond : σ → Bool) (body : σ → σ) : ℕ → σ → Option σ
  | 0, s => if cond s then none else some s
  | fuel + 1, s => if cond s then loop cond body fuel (body s) else some s

theorem loop_exit (h : cond s = false) (fuel : ℕ) : loop cond body fuel s = some s := by
  cases fuel <;> simp [loop, h]

theorem loop_round (h : cond s = true) (fuel : ℕ) :
    loop cond body (fuel + 1) s = loop cond body fuel (body s) := by
  simp [loop, h]

theorem loop_ends {m : σ → ℕ} (hround : ∀ s, I s → cond s = true → I (body s) ∧ m (body s) < m s)
    {fuel : ℕ} (hs : I s) (hfuel : m s ≤ fuel) :
    ∃ t, loop cond body fuel s = some t ∧ I t ∧ cond t = false := by
  induction fuel generalizing s with
  | zero =>
    cases hc : cond s with
    | false => exact ⟨s, loop_exit hc 0, hs, hc⟩
    | true =>
      have hless := (hround s hs hc).2
      omega
  | succ fuel ih =>
    cases hc : cond s with
    | false => exact ⟨s, loop_exit hc _, hs, hc⟩
    | true =>
      obtain ⟨hnext, hless⟩ := hround s hs hc
      rw [loop_round hc]
      apply ih hnext
      omega

theorem loop_diverges (hround : ∀ s, I s → cond s = true ∧ I (body s)) (hs : I s) (fuel : ℕ) :
    loop cond body fuel s = none := by
  induction fuel generalizing s with
  | zero => simp [loop, (hround s hs).1]
  | succ fuel ih =>
    obtain ⟨hc, hnext⟩ := hround s hs
    rw [loop_round hc]
    exact ih hnext

end TcpUdpProxy.WhileLoop
