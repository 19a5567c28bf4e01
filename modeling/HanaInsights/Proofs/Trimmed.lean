import Mathlib.Data.List.TakeWhile
import HanaInsights.Proofs.Decimal
import HanaInsights.Text.Blank
set_option autoImplicit false

namespace HanaInsights.Text

theorem isBlank_of_mem_space {c : Char} (h : c ∈ [' ']) : isBlank c = true := by
  obtain rfl := List.mem_singleton.1 h
  rfl

theorem isBlank_of_isDigit {c : Char} (h : isDigit c = true) : isBlank c = false := by
  simp only [isDigit, Bool.and_eq_true, decide_eq_true_eq] at h
  have hlow : 48 ≤ c.toNat := h.1
  have hhigh : c.toNat ≤ 57 := h.2
  simp only [isBlank, Bool.or_eq_false_iff, Bool.and_eq_false_iff, decide_eq_false_iff_not,
    beq_eq_false_iff_ne]
  omega

theorem isBlank_head?_dropWhile {cs : List Char} :
    ∀ c ∈ (cs.dropWhile isBlank).head?, isBlank c = false := by
  intro c hc
  have hhead := List.head?_dropWhile_not isBlank cs
  rw [Option.mem_def] at hc
  rwa [hc] at hhead

theorem isBlank_getLast?_trimChars {cs : List Char} :
    ∀ c ∈ (trimChars cs).getLast?, isBlank c = false := by
  rw [trimChars, List.getLast?_reverse]
  exact isBlank_head?_dropWhile

theorem dropWhile_isBlank_of_head? {cs : List Char} (h : ∀ c ∈ cs.head?, isBlank c = false) :
    cs.dropWhile isBlank = cs := by
  have hnone : ∀ c ∈ ([] : List Char), isBlank c = true := nofun
  exact (takeWhile_dropWhile_append hnone h).2

theorem trimChars_of_ends {cs : List Char} (hhead : ∀ c ∈ cs.head?, isBlank c = false)
    (hlast : ∀ c ∈ cs.getLast?, isBlank c = false) : trimChars cs = cs := by
  rw [← List.head?_reverse] at hlast
  rw [trimChars, dropWhile_isBlank_of_head? hhead, dropWhile_isBlank_of_head? hlast,
    List.reverse_reverse]

theorem trimChars_append_of_blank {xs ys : List Char} (h : ∀ c ∈ xs, isBlank c = true) :
    trimChars (xs ++ ys) = trimChars ys := by
  rw [trimChars, trimChars, List.dropWhile_append_of_pos h]

theorem mem_dropWhile_isBlank {cs : List Char} {c : Char} (hc : c ∈ cs) (h : isBlank c = false) :
    c ∈ cs.dropWhile isBlank := by
  rw [← List.takeWhile_append_dropWhile (p := isBlank) (l := cs), List.mem_append] at hc
  rcases hc with hc | hc
  · exact absurd (List.mem_takeWhile_imp hc) (by simp [h])
  · exact hc

theorem mem_trimChars {cs : List Char} {c : Char} (hc : c ∈ cs) (h : isBlank c = false) :
    c ∈ trimChars cs := by
  rw [trimChars, List.mem_reverse]
  exact mem_dropWhile_isBlank (List.mem_reverse.2 (mem_dropWhile_isBlank hc h)) h

theorem trim_eq_empty_iff {s : String} : trim s = "" ↔ isBlankText s = true := by
  have hchars : trim s = "" ↔ trimChars s.toList = [] := by
    simp [trim]
  rw [hchars, isBlankText, List.all_eq_true]
  constructor
  · intro h c hc
    cases hblank : isBlank c with
    | true => rfl
    | false =>
      have hkept := mem_trimChars hc hblank
      rw [h] at hkept
      exact absurd hkept List.not_mem_nil
  · intro h
    rw [trimChars, List.dropWhile_eq_nil_iff.2 h]
    rfl

end HanaInsights.Text
