import HanaInsights.Binary64.Operand
set_option autoImplicit false

namespace HanaInsights

theorem isDigit_of_mem_toDigits {n : Nat} {c : Char} (h : c ∈ Nat.toDigits 10 n) :
    isDigit c = true :=
  Nat.isDigit_of_mem_toDigits (by decide) (by decide) h

theorem digitsValue_toDigits (n : Nat) : digitsValue (Nat.toDigits 10 n) = n :=
  Nat.ofDigitChars_ten_toDigits

theorem head?_toDigits (n : Nat) :
    n < 10 ∧ Nat.toDigits 10 n = [n.digitChar] ∨
      ∃ c ds, Nat.toDigits 10 n = c :: ds ∧ c ≠ '0' := by
  induction n using Nat.strongRecOn with
  | ind n ih =>
    by_cases hn : n < 10
    · exact .inl ⟨hn, Nat.toDigits_of_lt_base hn⟩
    · right
      rw [Nat.toDigits_of_base_le (by decide) (by omega)]
      rcases ih (n / 10) (by omega) with ⟨hlt, hone⟩ | ⟨c, ds, hds, hc⟩
      · have hdigit : ∀ d < 10, 0 < d → d.digitChar ≠ '0' := by decide
        exact ⟨_, _, by rw [hone]; rfl, hdigit _ hlt (by omega)⟩
      · exact ⟨c, _, by rw [hds]; rfl, hc⟩

theorem exists_cons_toDigits (n : Nat) :
    ∃ c ds, Nat.toDigits 10 n = c :: ds ∧ isDigit c = true ∧ (c = '0' → ds = []) := by
  obtain ⟨c, ds, hds⟩ := List.exists_cons_of_ne_nil (Nat.toDigits_ne_nil (b := 10) (n := n))
  refine ⟨c, ds, hds, isDigit_of_mem_toDigits (hds ▸ List.mem_cons_self), fun hc => ?_⟩
  rcases head?_toDigits n with ⟨-, hone⟩ | ⟨c', ds', hds', hc'⟩
  · rw [hone] at hds
    exact (List.cons.inj hds).2.symm
  · rw [hds'] at hds
    exact absurd ((List.cons.inj hds).1.trans hc) hc'

theorem ne_of_class {p : Char → Bool} {c d : Char} (hc : p c = true) (hd : p d = false) :
    c ≠ d := by
  rintro rfl
  simp [hc] at hd

theorem forall_head?_cons {p : Char → Prop} {c : Char} (h : p c) (cs : List Char) :
    ∀ d ∈ (c :: cs).head?, p d := by
  intro d hd
  obtain rfl : c = d := Option.some.inj hd
  exact h

theorem takeWhile_dropWhile_append {p : Char → Bool} {cs rest : List Char}
    (hcs : ∀ c ∈ cs, p c = true) (hrest : ∀ c ∈ rest.head?, p c = false) :
    (cs ++ rest).takeWhile p = cs ∧ (cs ++ rest).dropWhile p = rest := by
  have hstop : rest.takeWhile p = [] ∧ rest.dropWhile p = rest := by
    cases rest with
    | nil => exact ⟨rfl, rfl⟩
    | cons c rest =>
      have hc : p c = false := hrest c rfl
      simp [hc]
  rw [List.takeWhile_append_of_pos hcs, List.dropWhile_append_of_pos hcs, hstop.1, hstop.2,
    List.append_nil]
  exact ⟨rfl, rfl⟩

/-- A number is told apart from what stands in front of it, if that does not end in a digit. -/
theorem append_toDigits_inj {front other : List Char} {n m : Nat}
    (hfront : ∀ c ∈ front.getLast?, isDigit c = false)
    (hother : ∀ c ∈ other.getLast?, isDigit c = false) :
    front ++ Nat.toDigits 10 n = other ++ Nat.toDigits 10 m ↔ front = other ∧ n = m := by
  have hsplit : ∀ (cs : List Char) (k : Nat), (∀ c ∈ cs.getLast?, isDigit c = false) →
      (cs ++ Nat.toDigits 10 k).reverse.takeWhile isDigit = (Nat.toDigits 10 k).reverse ∧
        (cs ++ Nat.toDigits 10 k).reverse.dropWhile isDigit = cs.reverse := by
    intro cs k hcs
    rw [List.reverse_append]
    exact takeWhile_dropWhile_append
      (fun c hc => isDigit_of_mem_toDigits (List.mem_reverse.1 hc)) (by rwa [List.head?_reverse])
  constructor
  · intro h
    obtain ⟨htake, hdrop⟩ := hsplit front n hfront
    obtain ⟨htake', hdrop'⟩ := hsplit other m hother
    rw [h] at htake hdrop
    have hdigits := List.reverse_inj.1 (htake.symm.trans htake')
    refine ⟨List.reverse_inj.1 (hdrop.symm.trans hdrop'), ?_⟩
    rw [← digitsValue_toDigits n, hdigits, digitsValue_toDigits]
  · rintro ⟨rfl, rfl⟩
    rfl

end HanaInsights
