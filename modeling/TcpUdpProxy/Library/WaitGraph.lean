import Mathlib.Logic.Relation
import Mathlib.Order.Basic

namespace TcpUdpProxy.WaitGraph

open Relation

variable {T M α : Type}

def WaitsFor (holds wants : T → M → Prop) (t u : T) : Prop := ∃ m, wants t m ∧ holds u m

def Deadlock (holds wants : T → M → Prop) : Prop := ∃ t, TransGen (WaitsFor holds wants) t t

def Ranked [LT α] (rank : M → α) (holds wants : T → M → Prop) : Prop :=
  ∀ t m k, wants t m → holds t k → rank k < rank m

variable [Preorder α] {rank : M → α} {holds wants : T → M → Prop}

theorem Ranked.path (h : Ranked rank holds wants) {t u : T} (hpath : TransGen (WaitsFor holds wants) t u) :
    ∃ m k, wants t m ∧ holds u k ∧ rank m ≤ rank k := by
  induction hpath with
  | single he =>
    obtain ⟨m, hwants, hholds⟩ := he
    exact ⟨m, m, hwants, hholds, le_refl _⟩
  | @tail u v hpath he ih =>
    obtain ⟨m, k, hwants, hholds, hle⟩ := ih
    obtain ⟨n, hnext, hlast⟩ := he
    refine ⟨m, n, hwants, hlast, ?_⟩
    calc rank m ≤ rank k := hle
      _ ≤ rank n := (h u n k hnext hholds).le

theorem Ranked.no_deadlock (h : Ranked rank holds wants) : ¬ Deadlock holds wants := by
  rintro ⟨t, hcycle⟩
  obtain ⟨m, k, hwants, hholds, hle⟩ := h.path hcycle
  exact absurd (h t m k hwants hholds) hle.not_gt

end TcpUdpProxy.WaitGraph
