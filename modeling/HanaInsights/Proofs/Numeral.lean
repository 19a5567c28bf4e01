import HanaInsights.Binary64.Scaled
import HanaInsights.Proofs.Decimal
set_option autoImplicit false

namespace HanaInsights

theorem toList_toString (n : Nat) : (toString n).toList = Nat.toDigits 10 n := by
  rw [Nat.toString_eq_repr, Nat.toList_repr]

theorem toLower_of_isDigit {c : Char} (h : isDigit c = true) : c.toLower = c := by
  have hle : c.val ≤ '9'.val := by
    simp only [isDigit, Bool.and_eq_true, decide_eq_true_eq] at h
    exact h.2
  have hupper : ¬ (c.val ≥ 'A'.val ∧ c.val ≤ 'Z'.val) := fun hc =>
    absurd (UInt32.le_trans hc.1 hle) (by decide)
  exact dif_neg hupper

namespace Binary64

theorem unsigned?_of_digits {ds : List Char} (hds : ∀ c ∈ ds, isDigit c = true) (hsome : ds ≠ [])
    (negative : Bool) :
    Decimal.unsigned? negative ds = some ⟨negative, digitsValue ds, 0⟩ := by
  have hend : ∀ c ∈ ([] : List Char).head?, isDigit c = false := nofun
  obtain ⟨hwhole, hrest⟩ := takeWhile_dropWhile_append hds hend
  rw [List.append_nil] at hwhole hrest
  simp [Decimal.unsigned?, hwhole, hrest, hsome, Decimal.exponent?, Decimal.ofDigits]

theorem magnitude?_of_head {c : Char} (hi : c.toLower ≠ 'i') (hn : c.toLower ≠ 'n')
    (negative : Bool) (cs : List Char) :
    magnitude? negative (c :: cs) = (Decimal.unsigned? negative (c :: cs)).map ofDecimal := by
  simp [magnitude?, hi, hn]

theorem parseChars?_of_head {c : Char} (hminus : c ≠ '-') (hplus : c ≠ '+') (cs : List Char) :
    parseChars? (c :: cs) = magnitude? false (c :: cs) := by
  rw [parseChars?]
  · exact fun tail h => hminus (List.cons.inj h).1
  · exact fun tail h => hplus (List.cons.inj h).1

theorem parse?_toString (n : Nat) : parse? (toString n) = some (ofDecimal ⟨false, n, 0⟩) := by
  have hdigits : ∀ c ∈ Nat.toDigits 10 n, isDigit c = true := fun c hc =>
    isDigit_of_mem_toDigits hc
  have hread := unsigned?_of_digits hdigits Nat.toDigits_ne_nil false
  obtain ⟨c, ds, hcons, hc, -⟩ := exists_cons_toDigits n
  rw [digitsValue_toDigits, hcons] at hread
  have hne : ∀ d, isDigit d = false → c ≠ d := fun _ => ne_of_class hc
  have hlower : ∀ d, isDigit d = false → c.toLower ≠ d := fun d hd =>
    (toLower_of_isDigit hc).symm ▸ hne d hd
  rw [parse?, toList_toString, hcons, parseChars?_of_head (hne '-' rfl) (hne '+' rfl),
    magnitude?_of_head (hlower 'i' rfl) (hlower 'n' rfl), hread, Option.map_some]

theorem two_pow_spacing_le {units : Nat} (h : 0 < units) : Nat.pow 2 (spacing units) ≤ units := by
  unfold spacing
  split
  · exact h
  · have hlog : 2 ^ units.log2 ≤ units := Nat.log2_self_le (Nat.ne_of_gt h)
    exact Nat.le_trans (Nat.pow_le_pow_right (by decide) (Nat.sub_le _ _)) hlog

theorem div_le_roundQuotient (num den : Nat) : num / den ≤ roundQuotient num den := by
  unfold roundQuotient
  dsimp only
  split
  · exact Nat.le_refl _
  · split
    · exact Nat.le_succ _
    · split
      · exact Nat.le_refl _
      · exact Nat.le_succ _

theorem roundUnits_pos {num den : Nat} (h : 0 < num / den) : 0 < roundUnits num den := by
  have hspacing := two_pow_spacing_le h
  have hquotient : 0 < num / (den * 2 ^ spacing (num / den)) := by
    rw [← Nat.div_div_eq_div_mul]
    exact Nat.div_pos hspacing (Nat.two_pow_pos _)
  exact Nat.mul_pos (Nat.lt_of_lt_of_le hquotient (div_le_roundQuotient _ _)) (Nat.two_pow_pos _)

theorem overflow_pos : 0 < overflow := by
  unfold overflow
  apply Nat.pow_pos
  decide

theorem unitsOfOne_pos : 0 < unitsOfOne := by
  unfold unitsOfOne
  apply Nat.pow_pos
  decide

theorem ratio_natural (n : Nat) : ratio ⟨false, n, 0⟩ = (n * Nat.pow 2 1074, 1) := by
  rw [ratio, if_pos (Int.le_refl 0)]
  -- The exponent is too large to be evaluated.
  generalize 1074 = k
  exact congrArg (fun m => (m * Nat.pow 2 k, 1)) (Nat.mul_one n)

theorem ratio_natural_pos {n : Nat} (h : 0 < n) :
    0 < (ratio ⟨false, n, 0⟩).1 / (ratio ⟨false, n, 0⟩).2 := by
  rw [ratio_natural, Nat.div_one]
  generalize 1074 = k
  exact Nat.mul_pos h (Nat.two_pow_pos k)

theorem exists_rank?_ofUnits {units : Nat} (h : 0 < units) :
    ∃ place, (ofUnits false units).rank? = some place ∧ 0 < place := by
  unfold ofUnits
  split
  · exact ⟨_, rfl, Int.natCast_pos.2 overflow_pos⟩
  · exact ⟨_, rfl, Int.natCast_pos.2 h⟩

theorem exists_rank?_ofDecimal {n : Nat} (h : 0 < n) :
    ∃ place, (ofDecimal ⟨false, n, 0⟩).rank? = some place ∧ 0 < place := by
  unfold ofDecimal
  dsimp only
  rw [if_neg (Nat.ne_of_gt h)]
  split
  · exact ⟨_, rfl, Int.natCast_pos.2 overflow_pos⟩
  · rw [if_neg (by omega)]
    exact exists_rank?_ofUnits (roundUnits_pos (ratio_natural_pos h))

theorem roundQuotient_mul (q : Nat) {den : Nat} (h : 0 < den) : roundQuotient (q * den) den = q := by
  simp [roundQuotient, Nat.mul_div_cancel q h, h]

theorem roundUnits_of_dvd {units : Nat} (h : Nat.pow 2 (spacing units) ∣ units) :
    roundUnits units 1 = units := by
  obtain ⟨q, hq⟩ := h
  have hpos : 0 < Nat.pow 2 (spacing units) := Nat.two_pow_pos _
  unfold roundUnits
  dsimp only
  rw [Nat.div_one, Nat.one_mul]
  generalize Nat.pow 2 (spacing units) = step at hq hpos
  rw [hq, Nat.mul_comm step q, roundQuotient_mul q hpos]

/-- A number of at most 53 bits, or 2^53, in units of 2^k is a multiple of its own spacing. -/
theorem two_pow_spacing_dvd {n : Nat} (h : n ≤ Nat.pow 2 53) (k : Nat) :
    Nat.pow 2 (spacing (n * Nat.pow 2 k)) ∣ n * Nat.pow 2 k := by
  rcases Nat.lt_or_eq_of_le h with hlt | rfl
  · have hspacing : spacing (n * Nat.pow 2 k) ≤ k := by
      unfold spacing
      split
      · exact Nat.zero_le k
      next hlarge =>
        have hne : n * Nat.pow 2 k ≠ 0 := fun hzero => hlarge (hzero ▸ Nat.two_pow_pos 53)
        have hbits : n * Nat.pow 2 k < 2 ^ (53 + k) := by
          rw [Nat.pow_add]
          exact Nat.mul_lt_mul_of_pos_right hlt (Nat.two_pow_pos k)
        have hlog := (Nat.log2_lt hne).2 hbits
        omega
    exact Nat.dvd_mul_left_of_dvd (Nat.pow_dvd_pow 2 hspacing) n
  · have hpow : Nat.pow 2 53 * Nat.pow 2 k = 2 ^ (53 + k) := (Nat.pow_add 2 53 k).symm
    rw [hpow]
    apply Nat.pow_dvd_pow 2
    unfold spacing
    split
    · exact Nat.zero_le _
    · rw [Nat.log2_two_pow]
      omega

theorem mul_two_pow_lt {n k l : Nat} (h : n ≤ Nat.pow 2 53) (hlt : 53 + k < l) :
    n * Nat.pow 2 k < Nat.pow 2 l := by
  have hpow : Nat.pow 2 53 * Nat.pow 2 k < Nat.pow 2 l :=
    (Nat.pow_add 2 53 k) ▸ Nat.pow_lt_pow_right (by decide) hlt
  exact Nat.lt_of_le_of_lt (Nat.mul_le_mul_right _ h) hpow

theorem digitCount_le_sixteen {n : Nat} (h : n ≤ Nat.pow 2 53) : digitCount n ≤ 16 := by
  rw [digitCount, Nat.length_toDigits_le_iff (by decide) (by decide)]
  exact Nat.lt_of_le_of_lt h (by decide)

theorem ofDecimal_natural {n : Nat} (h : n ≤ Nat.pow 2 53) :
    ofDecimal ⟨false, n, 0⟩ = .finite false (n * unitsOfOne) := by
  have hdigits : digitCount n ≤ 16 := digitCount_le_sixteen h
  unfold ofDecimal unitsOfOne
  dsimp only
  split
  next hzero => simp only [hzero, Nat.zero_mul]
  · rw [if_neg (by omega), if_neg (by omega), ratio_natural]
    unfold ofUnits overflow
    have hbits : 53 + 1074 < 2098 := by decide
    generalize 1074 = k, 2098 = l at hbits ⊢
    rw [roundUnits_of_dvd (two_pow_spacing_dvd h k), if_neg (Nat.not_le.2 (mul_two_pow_lt h hbits))]

end Binary64
end HanaInsights
