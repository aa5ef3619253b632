import TcpUdpProxy.Library.Execution
import Mathlib.Algebra.BigOperators.Group.List.Basic
import Mathlib.Algebra.Ring.Int.Defs
import Mathlib.Data.Int.Order.Basic

/-!
A bucket that is refilled only while it is in debt and spent from only while it is not,
so that one payment may overdraw it.
-/

namespace TcpUdpProxy.TokenBucket

open TcpUdpProxy.Execution

inductive Op
  | credit (amount : ℤ)
  | spend (amount : ℤ)

def step (level : ℤ) : Op → Option ℤ
  | .credit a => some (if level < 0 then level + a else level)
  | .spend a => if 0 ≤ level then some (level - a) else none

def Op.offered : Op → ℤ
  | .credit a => a
  | .spend _ => 0

def Op.spent : Op → ℤ
  | .credit _ => 0
  | .spend a => a

def offered (ops : List Op) : ℤ := (ops.map Op.offered).sum

def spent (ops : List Op) : ℤ := (ops.map Op.spent).sum

@[simp] theorem offered_append (as bs : List Op) : offered (as ++ bs) = offered as + offered bs := by
  simp [offered]

@[simp] theorem spent_append (as bs : List Op) : spent (as ++ bs) = spent as + spent bs := by
  simp [spent]

def Op.Within (largest cost : ℤ) : Op → Prop
  | .credit a => 0 ≤ a ∧ a ≤ largest
  | .spend a => 0 ≤ a ∧ a ≤ cost

def largest (credits : List ℤ) : ℤ := credits.foldr max 0

theorem le_largest {credits : List ℤ} : ∀ c ∈ credits, c ≤ largest credits := by
  induction credits with
  | nil => simp
  | cons d credits ih =>
    intro c hc
    rcases List.mem_cons.mp hc with rfl | hc
    · exact le_max_left _ _
    · exact (ih c hc).trans (le_max_right _ _)

theorem largest_nonneg (credits : List ℤ) : 0 ≤ largest credits := by
  induction credits with
  | nil => exact le_rfl
  | cons d credits ih => exact ih.trans (le_max_right _ _)

theorem largest_append (credits credits' : List ℤ) :
    largest (credits ++ credits') = max (largest credits) (largest credits') := by
  induction credits with
  | nil => exact (max_eq_right (largest_nonneg credits')).symm
  | cons d credits ih =>
    simp only [largest, List.cons_append, List.foldr_cons] at ih ⊢
    rw [ih, max_assoc]

theorem exec_credits (level : ℤ) (credits : List ℤ) :
    ∃ level', exec step level (credits.map .credit) = some level' := by
  induction credits generalizing level with
  | nil => exact ⟨level, rfl⟩
  | cons c credits ih => exact ih _

theorem offered_map (credits costs : List ℤ) :
    offered (credits.map .credit ++ costs.map .spend) = credits.sum := by
  have hcredits : Op.offered ∘ Op.credit = id := rfl
  have hcosts : Op.offered ∘ Op.spend = fun _ => 0 := rfl
  simp [offered, hcredits, hcosts]

theorem spent_map (credits costs : List ℤ) :
    spent (credits.map .credit ++ costs.map .spend) = costs.sum := by
  have hcredits : Op.spent ∘ Op.credit = fun _ => 0 := rfl
  have hcosts : Op.spent ∘ Op.spend = id := rfl
  simp [spent, hcredits, hcosts]

def Bounded (largest cost level : ℤ) : Prop := -cost ≤ level ∧ level ≤ max 0 (largest - 1)

theorem bounded_zero {largest cost : ℤ} (hc : 0 ≤ cost) : Bounded largest cost 0 :=
  ⟨by omega, le_max_left _ _⟩

theorem bounded_step {largest cost level level' : ℤ} {op : Op} (hb : Bounded largest cost level)
    (hop : op.Within largest cost) (h : step level op = some level') :
    Bounded largest cost level' := by
  obtain ⟨hlow, hhigh⟩ := hb
  cases op with
  | credit a =>
    obtain ⟨ha, hal⟩ := hop
    simp only [step, Option.some.injEq] at h
    unfold Bounded
    split at h <;> omega
  | spend a =>
    obtain ⟨ha, hac⟩ := hop
    simp only [step] at h
    split at h
    next hl =>
      cases h
      unfold Bounded
      omega
    · cases h

theorem bounded_exec {largest cost level level' : ℤ} {ops : List Op}
    (hb : Bounded largest cost level) (hops : ∀ op ∈ ops, op.Within largest cost)
    (h : exec step level ops = some level') : Bounded largest cost level' := by
  induction ops generalizing level with
  | nil => cases h; exact hb
  | cons op ops ih =>
    obtain ⟨middle, hm, h⟩ := exec_cons_some.mp h
    exact ih (bounded_step hb (hops op (by simp)) hm) (fun o ho => hops o (by simp [ho])) h

theorem low_exec {cost level level' : ℤ} {ops : List Op} (hlow : -cost ≤ level)
    (hops : ∀ op ∈ ops, 0 ≤ op.offered ∧ op.spent ≤ cost) (h : exec step level ops = some level') :
    -cost ≤ level' := by
  induction ops generalizing level with
  | nil => cases h; exact hlow
  | cons op ops ih =>
    obtain ⟨middle, hm, h⟩ := exec_cons_some.mp h
    apply ih _ (fun o ho => hops o (by simp [ho])) h
    obtain ⟨hoffered, hspent⟩ := hops op (by simp)
    cases op with
    | credit a =>
      simp only [step, Option.some.injEq] at hm
      simp only [Op.offered] at hoffered
      split at hm <;> omega
    | spend a =>
      simp only [step, Option.ite_none_right_eq_some, Option.some.injEq] at hm
      simp only [Op.spent] at hspent
      omega

theorem spent_exec {level level' : ℤ} {ops : List Op} (hops : ∀ op ∈ ops, 0 ≤ op.offered)
    (h : exec step level ops = some level') : spent ops ≤ level - level' + offered ops := by
  induction ops generalizing level with
  | nil => cases h; simp [spent, offered]
  | cons op ops ih =>
    obtain ⟨middle, hm, h⟩ := exec_cons_some.mp h
    have hrest := ih (fun o ho => hops o (by simp [ho])) h
    have hop := hops op (by simp)
    have hfirst : op.spent ≤ level - middle + op.offered := by
      cases op with
      | credit a =>
        simp only [step, Option.some.injEq] at hm
        simp only [Op.offered] at hop
        simp only [Op.spent, Op.offered]
        split at hm <;> omega
      | spend a =>
        simp only [step] at hm
        split at hm
        · cases hm; simp [Op.spent, Op.offered]
        · cases hm
    simp only [spent, offered, List.map_cons, List.sum_cons] at hrest ⊢
    omega

theorem spent_window {largest cost level level' : ℤ} {ops : List Op}
    (hb : Bounded largest cost level) (hops : ∀ op ∈ ops, op.Within largest cost)
    (h : exec step level ops = some level') :
    spent ops ≤ offered ops + max 0 (largest - 1) + cost := by
  have hpos : ∀ op ∈ ops, 0 ≤ op.offered := by
    intro op ho
    have hw := hops op ho
    cases op with
    | credit a => exact hw.1
    | spend a => exact le_refl _
  have hspent := spent_exec hpos h
  have hend := (bounded_exec hb hops h).1
  have hstart := hb.2
  omega

end TcpUdpProxy.TokenBucket
