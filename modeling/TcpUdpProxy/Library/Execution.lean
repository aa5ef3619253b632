import Mathlib.Data.List.Basic
import Mathlib.Order.Basic

namespace TcpUdpProxy.Execution

variable {σ ε : Type} {step : σ → ε → Option σ}

def exec (step : σ → ε → Option σ) : σ → List ε → Option σ
  | s, [] => some s
  | s, e :: es => (step s e).bind fun t => exec step t es

@[simp] theorem exec_nil (s : σ) : exec step s [] = some s := rfl

theorem exec_cons (s : σ) (e : ε) (es : List ε) :
    exec step s (e :: es) = (step s e).bind fun t => exec step t es := rfl

theorem exec_cons_some {s u : σ} {e : ε} {es : List ε} :
    exec step s (e :: es) = some u ↔ ∃ t, step s e = some t ∧ exec step t es = some u := by
  simp [exec_cons, Option.bind_eq_some_iff]

@[simp] theorem exec_single (s : σ) (e : ε) : exec step s [e] = step s e := by
  simp [exec_cons]

theorem exec_append (s : σ) (es fs : List ε) :
    exec step s (es ++ fs) = (exec step s es).bind fun t => exec step t fs := by
  induction es generalizing s with
  | nil => rfl
  | cons e es ih => simp only [List.cons_append, exec_cons, ih, Option.bind_assoc]

theorem exec_append_some {s u : σ} {es fs : List ε} :
    exec step s (es ++ fs) = some u ↔ ∃ t, exec step s es = some t ∧ exec step t fs = some u := by
  simp [exec_append, Option.bind_eq_some_iff]

def Reachable (step : σ → ε → Option σ) (initial : σ → Prop) (s : σ) : Prop :=
  ∃ s₀ es, initial s₀ ∧ exec step s₀ es = some s

theorem Reachable.start {initial : σ → Prop} {s : σ} (h : initial s) : Reachable step initial s :=
  ⟨s, [], h, rfl⟩

theorem Reachable.next {initial : σ → Prop} {s t : σ} {e : ε} (h : Reachable step initial s)
    (he : step s e = some t) : Reachable step initial t := by
  obtain ⟨s₀, es, h₀, hs⟩ := h
  exact ⟨s₀, es ++ [e], h₀, exec_append_some.mpr ⟨s, hs, by simpa using he⟩⟩

/-- `P` holds of each event of the list together with the state it meets. -/
def Along (step : σ → ε → Option σ) (P : σ → ε → Prop) : σ → List ε → Prop
  | _, [] => True
  | s, e :: es => P s e ∧ ∀ t, step s e = some t → Along step P t es

@[simp] theorem along_nil (P : σ → ε → Prop) (s : σ) : Along step P s [] := trivial

theorem along_cons {P : σ → ε → Prop} {s t : σ} {e : ε} {es : List ε} (he : step s e = some t) :
    Along step P s (e :: es) ↔ P s e ∧ Along step P t es := by
  constructor
  · rintro ⟨hp, h⟩
    exact ⟨hp, h t he⟩
  · rintro ⟨hp, h⟩
    refine ⟨hp, fun u hu => ?_⟩
    rw [he] at hu
    cases hu
    exact h

instance decidableAlong {P : σ → ε → Prop} [∀ s e, Decidable (P s e)] :
    ∀ s es, Decidable (Along step P s es)
  | _, [] => isTrue trivial
  | s, e :: es =>
    match h : step s e with
    | none => decidable_of_iff (P s e) ⟨fun hp => ⟨hp, fun t ht => by rw [h] at ht; cases ht⟩, And.left⟩
    | some t =>
      have : Decidable (Along step P t es) := decidableAlong t es
      decidable_of_iff (P s e ∧ Along step P t es) (along_cons h).symm

theorem along_append {P : σ → ε → Prop} {s t : σ} {es fs : List ε} (h : exec step s es = some t) :
    Along step P s (es ++ fs) ↔ Along step P s es ∧ Along step P t fs := by
  induction es generalizing s with
  | nil => cases h; simp
  | cons e es ih =>
    obtain ⟨u, hu, h⟩ := exec_cons_some.mp h
    rw [List.cons_append, along_cons hu, along_cons hu, ih h, and_assoc]

theorem exec_guarded {I : σ → Prop} {G : σ → ε → Prop}
    (hstep : ∀ s e t, I s → G s e → step s e = some t → I t) {s t : σ} {es : List ε}
    (h : exec step s es = some t) (hg : Along step G s es) (hs : I s) : I t := by
  induction es generalizing s with
  | nil => cases h; exact hs
  | cons e es ih =>
    obtain ⟨u, hu, h⟩ := exec_cons_some.mp h
    rw [along_cons hu] at hg
    exact ih h hg.2 (hstep s e u hs hg.1 hu)

theorem Along.and {P Q : σ → ε → Prop} {s : σ} {es : List ε} (hp : Along step P s es)
    (hq : Along step Q s es) : Along step (fun s e => P s e ∧ Q s e) s es := by
  induction es generalizing s with
  | nil => trivial
  | cons e es ih => exact ⟨⟨hp.1, hq.1⟩, fun t ht => ih (hp.2 t ht) (hq.2 t ht)⟩

theorem along_true (s : σ) (es : List ε) : Along step (fun _ _ => True) s es := by
  induction es generalizing s with
  | nil => trivial
  | cons e es ih => exact ⟨trivial, fun t _ => ih t⟩

theorem along_of_mem {P : ε → Prop} {es : List ε} (h : ∀ e ∈ es, P e) (s : σ) :
    Along step (fun _ e => P e) s es := by
  induction es generalizing s with
  | nil => trivial
  | cons e es ih => exact ⟨h e (by simp), fun t _ => ih (fun f hf => h f (by simp [hf])) t⟩

theorem exec_invariant {I : σ → Prop} (hstep : ∀ s e t, I s → step s e = some t → I t)
    {s t : σ} {es : List ε} (h : exec step s es = some t) (hs : I s) : I t :=
  exec_guarded (G := fun _ _ => True) (fun s e t hi _ he => hstep s e t hi he) h (along_true s es) hs

theorem Reachable.invariant {initial I : σ → Prop} (hinit : ∀ s, initial s → I s)
    (hstep : ∀ s e t, I s → step s e = some t → I t) {s : σ} (h : Reachable step initial s) : I s := by
  obtain ⟨s₀, es, h₀, hs⟩ := h
  exact exec_invariant hstep hs (hinit s₀ h₀)

theorem along_congr {G P Q : σ → ε → Prop}
    (hpq : ∀ s e t, G s e → step s e = some t → (P s e ↔ Q s e)) {s t : σ} {es : List ε}
    (h : exec step s es = some t) (hg : Along step G s es) :
    Along step P s es ↔ Along step Q s es := by
  induction es generalizing s with
  | nil => simp
  | cons e es ih =>
    obtain ⟨u, hu, h⟩ := exec_cons_some.mp h
    rw [along_cons hu] at hg ⊢
    rw [along_cons hu, hpq s e u hg.1 hu, ih h hg.2]

theorem along_guarded {I : σ → Prop} {G P : σ → ε → Prop}
    (hstep : ∀ s e t, I s → G s e → step s e = some t → I t) (hp : ∀ s e, I s → G s e → P s e)
    {s : σ} {es : List ε} (hg : Along step G s es) (hs : I s) : Along step P s es := by
  induction es generalizing s with
  | nil => trivial
  | cons e es ih => exact ⟨hp s e hs hg.1, fun t ht => ih (hg.2 t ht) (hstep s e t hs hg.1 ht)⟩

theorem along_mono {P Q : σ → ε → Prop} (hpq : ∀ s e t, step s e = some t → P s e → Q s e)
    {s t : σ} {es : List ε} (h : exec step s es = some t) (hp : Along step P s es) : Along step Q s es := by
  induction es generalizing s with
  | nil => trivial
  | cons e es ih =>
    obtain ⟨u, hu, h⟩ := exec_cons_some.mp h
    rw [along_cons hu] at hp ⊢
    exact ⟨hpq s e u hu hp.1, ih h hp.2⟩

theorem along_of_prefixes {P : σ → Prop} {s : σ} {es : List ε}
    (h : ∀ as bs u, es = as ++ bs → exec step s as = some u → P u) : Along step (fun s _ => P s) s es := by
  induction es generalizing s with
  | nil => trivial
  | cons e es ih =>
    refine ⟨h [] (e :: es) s rfl rfl, fun t ht => ih fun as bs u has hu => ?_⟩
    apply h (e :: as) bs u (by rw [has]; rfl)
    rw [exec_cons, ht]
    exact hu

end TcpUdpProxy.Execution
