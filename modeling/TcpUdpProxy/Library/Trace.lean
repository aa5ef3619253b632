import Mathlib.Algebra.BigOperators.Group.List.Basic
import Mathlib.Algebra.Ring.Int.Defs
import TcpUdpProxy.Library.Execution

namespace TcpUdpProxy.Execution

variable {σ ε α β : Type} {step : σ → ε → Option σ} {f : σ → ε → List α}

def trace (step : σ → ε → Option σ) (f : σ → ε → List α) : σ → List ε → List α
  | _, [] => []
  | s, e :: es => f s e ++ (step s e).elim [] fun t => trace step f t es

@[simp] theorem trace_nil (s : σ) : trace step f s [] = [] := rfl

theorem trace_cons {s t : σ} {e : ε} (he : step s e = some t) (es : List ε) :
    trace step f s (e :: es) = f s e ++ trace step f t es := by
  simp [trace, he]

theorem trace_append {s t : σ} {es : List ε} (h : exec step s es = some t) (fs : List ε) :
    trace step f s (es ++ fs) = trace step f s es ++ trace step f t fs := by
  induction es generalizing s with
  | nil => cases h; rfl
  | cons e es ih =>
    obtain ⟨u, hu, h⟩ := exec_cons_some.mp h
    rw [List.cons_append, trace_cons hu, trace_cons hu, ih h, List.append_assoc]

theorem trace_map (g : α → β) (s : σ) (es : List ε) :
    (trace step f s es).map g = trace step (fun s e => (f s e).map g) s es := by
  induction es generalizing s with
  | nil => rfl
  | cons e es ih =>
    cases he : step s e with
    | none => simp [trace, he]
    | some t => rw [trace_cons he, trace_cons he, List.map_append, ih]

theorem mem_trace {s t : σ} {es : List ε} {a : α} (h : exec step s es = some t) :
    a ∈ trace step f s es ↔ ∃ as e bs u v, es = as ++ e :: bs ∧ exec step s as = some u ∧
      step u e = some v ∧ a ∈ f u e := by
  induction es generalizing s with
  | nil => simp
  | cons e es ih =>
    obtain ⟨u, hu, h⟩ := exec_cons_some.mp h
    rw [trace_cons hu, List.mem_append, ih h]
    constructor
    · rintro (ha | ⟨as, e', bs, v, v', rfl, hv, hstep, ha⟩)
      · exact ⟨[], e, es, s, u, rfl, rfl, hu, ha⟩
      · exact ⟨e :: as, e', bs, v, v', rfl, by rw [exec_cons, hu]; exact hv, hstep, ha⟩
    · rintro ⟨as, e', bs, v, v', hes, hv, hstep, ha⟩
      cases as with
      | nil =>
        cases hes
        cases hv
        exact .inl ha
      | cons a as =>
        cases hes
        rw [exec_cons, hu] at hv
        exact .inr ⟨as, e', bs, v, v', rfl, hv, hstep, ha⟩

theorem trace_congr {g : σ → ε → List α} {k : σ → ε → List β} {P : β → Prop}
    (hfg : ∀ s e, (∀ b ∈ k s e, P b) → f s e = g s e) {s : σ} {es : List ε}
    (h : ∀ b ∈ trace step k s es, P b) : trace step f s es = trace step g s es := by
  induction es generalizing s with
  | nil => rfl
  | cons e es ih =>
    have hhead : f s e = g s e := hfg s e fun b hb => h b (List.mem_append_left _ hb)
    cases he : step s e with
    | none => simp [trace, he, hhead]
    | some t =>
      rw [trace_cons he] at h
      rw [trace_cons he, trace_cons he, hhead, ih fun b hb => h b (List.mem_append_right _ hb)]

theorem sum_trace_congr {f : σ → ε → List α} {g : σ → ε → List ℤ} {φ : α → ℤ}
    (hfg : ∀ s e, ((f s e).map φ).sum = (g s e).sum) (s : σ) (es : List ε) :
    ((trace step f s es).map φ).sum = (trace step g s es).sum := by
  induction es generalizing s with
  | nil => rfl
  | cons e es ih =>
    cases he : step s e with
    | none => simp [trace, he, hfg]
    | some t => simp [trace_cons he, hfg, ih]

theorem sum_trace_le {I : σ → Prop} {G : σ → ε → Prop} {V : σ → ℤ} {f g : σ → ε → List ℤ}
    (hI : ∀ s e t, I s → G s e → step s e = some t → I t)
    (hV : ∀ s e t, I s → G s e → step s e = some t → (f s e).sum + V t ≤ V s + (g s e).sum)
    {s t : σ} {es : List ε} (h : exec step s es = some t) (hg : Along step G s es) (hs : I s) :
    (trace step f s es).sum + V t ≤ V s + (trace step g s es).sum := by
  induction es generalizing s with
  | nil => cases h; simp
  | cons e es ih =>
    obtain ⟨u, hu, h⟩ := exec_cons_some.mp h
    rw [along_cons hu] at hg
    have hfirst := hV s e u hs hg.1 hu
    have hrest := ih h hg.2 (hI s e u hs hg.1 hu)
    rw [trace_cons hu, trace_cons hu, List.sum_append, List.sum_append]
    omega

theorem exec_traced {I : σ → List α → Prop} {G : σ → ε → Prop}
    (hstep : ∀ s e t xs, I s xs → G s e → step s e = some t → I t (xs ++ f s e))
    {s t : σ} {es : List ε} {xs : List α} (h : exec step s es = some t) (hg : Along step G s es)
    (hs : I s xs) : I t (xs ++ trace step f s es) := by
  induction es generalizing s xs with
  | nil => cases h; simpa using hs
  | cons e es ih =>
    obtain ⟨u, hu, h⟩ := exec_cons_some.mp h
    rw [along_cons hu] at hg
    rw [trace_cons hu, ← List.append_assoc]
    exact ih h hg.2 (hstep s e u xs hs hg.1 hu)

theorem sublist_of_ordered {f : α → ℕ} {xs ys : List α} (hxs : xs.Pairwise fun x x' => f x < f x')
    (hys : ys.Pairwise fun y y' => f y ≤ f y') (hsub : xs ⊆ ys) : xs.Sublist ys := by
  induction ys generalizing xs with
  | nil =>
    rw [List.subset_nil.mp hsub]
  | cons y ys ih =>
    cases xs with
    | nil => exact List.nil_sublist _
    | cons x xs =>
      obtain ⟨hx, hxs'⟩ := List.pairwise_cons.mp hxs
      obtain ⟨hy, hys'⟩ := List.pairwise_cons.mp hys
      by_cases heq : x = y
      · subst heq
        apply List.Sublist.cons_cons
        apply ih hxs' hys'
        intro x' hx'
        rcases List.mem_cons.mp (hsub (List.mem_cons_of_mem x hx')) with rfl | hin
        · exact absurd (hx x' hx') (Nat.lt_irrefl _)
        · exact hin
      · have hmem : x ∈ ys := (List.mem_cons.mp (hsub List.mem_cons_self)).resolve_left heq
        apply List.Sublist.cons
        apply ih hxs hys'
        intro x' hx'
        rcases List.mem_cons.mp (hsub hx') with rfl | hin
        · have hlt := hx x' ((List.mem_cons.mp hx').resolve_left (Ne.symm heq))
          exact absurd (hy x hmem) (Nat.not_le.mpr hlt)
        · exact hin

end TcpUdpProxy.Execution
