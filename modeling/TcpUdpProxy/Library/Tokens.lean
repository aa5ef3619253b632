import Mathlib.Data.List.Basic
import Mathlib.Data.List.DropRight

namespace TcpUdpProxy.Tokens

variable {α : Type} {blank : α → Bool} {c : α} {cs bs : List α}

def tokens (blank : α → Bool) : List α → List (List α)
  | [] => []
  | c :: cs =>
    if blank c then tokens blank cs
    else if cs.head?.all blank then [c] :: tokens blank cs
    else
      match tokens blank cs with
      | [] => [[c]]
      | t :: ts => (c :: t) :: ts

@[simp] theorem tokens_nil : tokens blank [] = [] := rfl

@[simp] theorem tokens_blank (h : blank c = true) : tokens blank (c :: cs) = tokens blank cs := by
  rw [tokens, if_pos h]

theorem tokens_cons (h : blank c = false) : tokens blank (c :: cs) =
    (c :: cs.takeWhile fun d => !blank d) :: tokens blank (cs.dropWhile fun d => !blank d) := by
  induction cs generalizing c with
  | nil => simp [tokens, h]
  | cons d ds ih =>
    rw [tokens, if_neg (by simp [h])]
    by_cases hd : blank d
    · simp [hd]
    · have hd' : blank d = false := by simpa using hd
      rw [if_neg (by simp [hd']), ih hd']
      simp [hd']

theorem tokens_dropWhile (cs : List α) : tokens blank (cs.dropWhile blank) = tokens blank cs := by
  induction cs with
  | nil => rfl
  | cons c cs ih =>
    by_cases hc : blank c
    · rw [List.dropWhile_cons_of_pos hc, ih, tokens_blank hc]
    · rw [List.dropWhile_cons_of_neg hc]

theorem tokens_eq_nil : tokens blank cs = [] ↔ cs.all blank = true := by
  induction cs with
  | nil => simp
  | cons c cs ih =>
    cases hc : blank c with
    | true => rw [tokens_blank hc, ih, List.all_cons, hc, Bool.true_and]
    | false => simp [tokens_cons hc, hc]

theorem tokens_append (hbs : bs.all blank = true) : tokens blank (cs ++ bs) = tokens blank cs := by
  induction cs with
  | nil => exact tokens_eq_nil.mpr hbs
  | cons c cs ih =>
    cases hc : blank c with
    | true => rw [List.cons_append, tokens_blank hc, tokens_blank hc, ih]
    | false =>
      have hhead : (cs ++ bs).head?.all blank = cs.head?.all blank := by
        cases cs with
        | nil =>
          cases bs with
          | nil => rfl
          | cons b bs => simpa using (List.all_eq_true.mp hbs) b (by simp)
        | cons d ds => rfl
      rw [List.cons_append, tokens, tokens, hhead, ih]

theorem tokens_rdropWhile (cs : List α) : tokens blank (cs.rdropWhile blank) = tokens blank cs := by
  have hsplit : cs = cs.rdropWhile blank ++ cs.rtakeWhile blank := by
    rw [List.rdropWhile, List.rtakeWhile, ← List.reverse_append, List.takeWhile_append_dropWhile,
      List.reverse_reverse]
  have hblank : (cs.rtakeWhile blank).all blank = true := by
    rw [List.all_eq_true]
    intro b hb
    exact List.mem_rtakeWhile_imp hb
  conv_rhs => rw [hsplit]
  exact (tokens_append hblank).symm

theorem tokens_of_dropWhile {rest : List α} (h : cs.dropWhile blank = c :: rest) : tokens blank cs =
    ((c :: rest).takeWhile fun d => !blank d) :: tokens blank ((c :: rest).dropWhile fun d => !blank d) := by
  have hc : blank c = false := by
    have hhead := List.head?_dropWhile_not blank cs
    rw [h] at hhead
    simpa using hhead
  rw [← tokens_dropWhile, h, tokens_cons hc]
  simp [hc]

end TcpUdpProxy.Tokens
