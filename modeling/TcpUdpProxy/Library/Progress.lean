import TcpUdpProxy.Library.Execution
import Mathlib.Logic.Function.Iterate
import Mathlib.Order.WellFounded

/-!
Runs that do not end. Each party of a system has its own events; a ranking function together with a party
that brings it down, in every state that is not yet the goal, shows that fair runs get there.
-/

namespace TcpUdpProxy.Progress

open Execution

variable {σ ε ι α : Type} {step : σ → ε → Option σ}

structure Run (step : σ → ε → Option σ) where
  state : ℕ → σ
  event : ℕ → ε
  next : ∀ n, step (state n) (event n) = some (state (n + 1))

def Enabled (step : σ → ε → Option σ) (own : ε → Prop) (s : σ) : Prop := ∃ e t, own e ∧ step s e = some t

namespace Run

/-- A party is again and again seen to step or to be unable to. -/
def Fair (r : Run step) (own : ε → Prop) : Prop :=
  ∀ n, ∃ m, n ≤ m ∧ (own (r.event m) ∨ ¬ Enabled step own (r.state m))

def Often (r : Run step) (goal : σ → Prop) : Prop := ∀ n, ∃ m, n ≤ m ∧ goal (r.state m)

def events (r : Run step) (n : ℕ) : List ε := (List.range n).map r.event

theorem exec_events (r : Run step) (n : ℕ) : exec step (r.state 0) (r.events n) = some (r.state n) := by
  induction n with
  | zero => rfl
  | succ n ih =>
    unfold events at ih ⊢
    rw [List.range_succ, List.map_append]
    apply exec_append_some.mpr
    exact ⟨r.state n, ih, (exec_single _ _).trans (r.next n)⟩

theorem invariant (r : Run step) {I : σ → Prop} (hstep : ∀ s e t, I s → step s e = some t → I t)
    (hstart : I (r.state 0)) (n : ℕ) : I (r.state n) :=
  exec_invariant hstep (r.exec_events n) hstart

theorem descends [Preorder α] (r : Run step) {goal : σ → Prop} {turn : ι → ℕ → Prop} (helper : σ → ι)
    (rank : σ → α) (hstep : ∀ m, ¬ goal (r.state m) → goal (r.state (m + 1)) ∨
      rank (r.state (m + 1)) < rank (r.state m) ∨
      rank (r.state (m + 1)) ≤ rank (r.state m) ∧ helper (r.state (m + 1)) = helper (r.state m) ∧
        ¬ turn (helper (r.state m)) m)
    {n : ℕ} (hgoal : ∀ m, n ≤ m → ¬ goal (r.state m)) (d : ℕ) :
    (∃ k, rank (r.state (n + k)) < rank (r.state n)) ∨
      rank (r.state (n + d)) ≤ rank (r.state n) ∧ helper (r.state (n + d)) = helper (r.state n) ∧
        ∀ k, k < d → ¬ turn (helper (r.state n)) (n + k) := by
  induction d with
  | zero => exact .inr ⟨le_refl _, rfl, fun k hk => absurd hk (Nat.not_lt_zero k)⟩
  | succ d ih =>
    rcases ih with hless | ⟨hle, hsame, hidle⟩
    · exact .inl hless
    · rcases hstep (n + d) (hgoal _ (Nat.le_add_right n d)) with hthere | hless | ⟨hle', hsame', hidle'⟩
      · exact absurd hthere (hgoal (n + d + 1) (by omega))
      · exact .inl ⟨d + 1, hless.trans_le hle⟩
      · refine .inr ⟨hle'.trans hle, hsame'.trans hsame, ?_⟩
        intro k hk
        rcases Nat.lt_succ_iff_lt_or_eq.mp hk with hk | rfl
        · exact hidle k hk
        · rwa [hsame] at hidle'

theorem often_of_turns [Preorder α] [WellFoundedLT α] (r : Run step) {goal : σ → Prop}
    (turn : ι → ℕ → Prop) (helper : σ → ι) (rank : σ → α) (hturn : ∀ i n, ∃ m, n ≤ m ∧ turn i m)
    (hstep : ∀ m, ¬ goal (r.state m) → goal (r.state (m + 1)) ∨
      rank (r.state (m + 1)) < rank (r.state m) ∨
      rank (r.state (m + 1)) ≤ rank (r.state m) ∧ helper (r.state (m + 1)) = helper (r.state m) ∧
        ¬ turn (helper (r.state m)) m) : r.Often goal := by
  intro n
  induction hrank : rank (r.state n) using WellFoundedLT.induction generalizing n with
  | ind a ih =>
    subst hrank
    by_contra hnever
    have hgoal : ∀ m, n ≤ m → ¬ goal (r.state m) := fun m hm hg => hnever ⟨m, hm, hg⟩
    obtain ⟨m, hm, hcome⟩ := hturn (helper (r.state n)) n
    obtain ⟨d, rfl⟩ := Nat.exists_eq_add_of_le hm
    rcases r.descends helper rank hstep hgoal (d + 1) with ⟨k, hless⟩ | ⟨-, -, hidle⟩
    · obtain ⟨m, hm, hg⟩ := ih _ hless (n + k) rfl
      exact hgoal m (by omega) hg
    · exact hidle d (Nat.lt_succ_self d) hcome

theorem often_of_steps [Preorder α] [WellFoundedLT α] (r : Run step) {goal : σ → Prop}
    (own : ι → ε → Prop) (helper : σ → ι) (rank : σ → α) (hfair : ∀ i, r.Fair (own i))
    (henabled : ∀ m, ¬ goal (r.state m) → Enabled step (own (helper (r.state m))) (r.state m))
    (hstep : ∀ m, ¬ goal (r.state m) → goal (r.state (m + 1)) ∨
      rank (r.state (m + 1)) < rank (r.state m) ∨
      rank (r.state (m + 1)) ≤ rank (r.state m) ∧ helper (r.state (m + 1)) = helper (r.state m) ∧
        ¬ own (helper (r.state m)) (r.event m)) : r.Often goal := by
  apply r.often_of_turns (fun i m => own i (r.event m) ∨ ¬ Enabled step (own i) (r.state m)) helper rank hfair
  intro m hm
  refine (hstep m hm).imp_right (Or.imp_right ?_)
  rintro ⟨hle, hsame, hidle⟩
  exact ⟨hle, hsame, fun hcome => hcome.elim hidle fun hblocked => hblocked (henabled m hm)⟩

theorem often_of_rank [Preorder α] [WellFoundedLT α] (r : Run step) {I goal : σ → Prop}
    (own : ι → ε → Prop) (helper : σ → ι) (rank : σ → α) (hinv : ∀ n, I (r.state n))
    (hfair : ∀ i, r.Fair (own i)) (henabled : ∀ s, I s → ¬ goal s → Enabled step (own (helper s)) s)
    (hstep : ∀ s e t, I s → ¬ goal s → step s e = some t → goal t ∨ rank t < rank s ∨
      rank t ≤ rank s ∧ helper t = helper s ∧ ¬ own (helper s) e) : r.Often goal :=
  r.often_of_steps own helper rank hfair (fun m => henabled _ (hinv m))
    fun m hm => hstep _ _ _ (hinv m) hm (r.next m)

def follow (choose : σ → ε) (advance : σ → σ) {I : σ → Prop}
    (hstep : ∀ s, I s → step s (choose s) = some (advance s) ∧ I (advance s)) (s : σ) (hs : I s) : Run step :=
  have hI : ∀ n, I (advance^[n] s) := by
    intro n
    induction n with
    | zero => exact hs
    | succ n ih =>
      rw [Function.iterate_succ_apply']
      exact (hstep _ ih).2
  { state := fun n => advance^[n] s
    event := fun n => choose (advance^[n] s)
    next := fun n => by
      rw [Function.iterate_succ_apply']
      exact (hstep _ (hI n)).1 }

def cons {s : σ} {e : ε} (r : Run step) (h : step s e = some (r.state 0)) : Run step where
  state
    | 0 => s
    | n + 1 => r.state n
  event
    | 0 => e
    | n + 1 => r.event n
  next
    | 0 => h
    | n + 1 => r.next n

theorem exists_prepend {s : σ} {es : List ε} (r : Run step) (h : exec step s es = some (r.state 0)) :
    ∃ r' : Run step, r'.state 0 = s ∧ (∀ n (hn : n < es.length), r'.event n = es[n]) ∧
      ∀ n, r'.state (es.length + n) = r.state n ∧ r'.event (es.length + n) = r.event n := by
  induction es generalizing s with
  | nil =>
    refine ⟨r, (Option.some.inj h).symm, ?_, ?_⟩
    · intro n hn
      exact absurd hn (Nat.not_lt_zero n)
    · intro n
      rw [List.length_nil, Nat.zero_add]
      exact ⟨rfl, rfl⟩
  | cons e es ih =>
    obtain ⟨t, hstep, hrest⟩ := exec_cons_some.mp h
    obtain ⟨r', hstart, hevents, htail⟩ := ih hrest
    refine ⟨r'.cons (hstep.trans (congrArg some hstart.symm)), rfl, ?_, ?_⟩
    · intro n hn
      cases n with
      | zero => rfl
      | succ n => exact hevents n (Nat.lt_of_succ_lt_succ hn)
    · intro n
      rw [List.length_cons, Nat.succ_add]
      exact htail n

def ending {s t : σ} {es : List ε} (h : exec step s es = some t) {idle : ε} (hidle : step t idle = some t) :
    Run step where
  state n := (exec step s (es.take n)).getD t
  event n := es[n]?.getD idle
  next n := by
    by_cases hn : n < es.length
    · have hsplit : es.take (n + 1) = es.take n ++ [es[n]] := (List.take_append_getElem hn).symm
      rw [← List.take_append_drop (n + 1) es] at h
      obtain ⟨v, hv, -⟩ := exec_append_some.mp h
      rw [hv]
      rw [hsplit] at hv
      obtain ⟨u, hu, hstep⟩ := exec_append_some.mp hv
      rw [hu, List.getElem?_eq_getElem hn]
      exact (exec_single _ _).symm.trans hstep
    · have hn : es.length ≤ n := Nat.not_lt.mp hn
      rw [List.take_of_length_le hn, List.take_of_length_le (Nat.le_succ_of_le hn),
        List.getElem?_eq_none hn, h]
      exact hidle

theorem ending_state {s t : σ} {es : List ε} (h : exec step s es = some t) {idle : ε}
    (hidle : step t idle = some t) {n : ℕ} (hn : es.length ≤ n) : (ending h hidle).state n = t := by
  change (exec step s (es.take n)).getD t = t
  rw [List.take_of_length_le hn, h]
  rfl

theorem ending_fair {s t : σ} {es : List ε} (h : exec step s es = some t) {idle : ε}
    (hidle : step t idle = some t) {own : ε → Prop} (hown : ¬ Enabled step own t) :
    (ending h hidle).Fair own := by
  intro n
  refine ⟨max n es.length, Nat.le_max_left _ _, .inr ?_⟩
  rw [ending_state h hidle (Nat.le_max_right _ _)]
  exact hown

end Run

end TcpUdpProxy.Progress
