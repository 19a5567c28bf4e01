import Mathlib.Algebra.Order.Ring.Int
import Mathlib.Data.Int.ConditionallyCompleteOrder
import Mathlib.Data.Set.Monotone
import Mathlib.Order.ConditionallyCompleteLattice.Basic
import Mathlib.Order.WithBot
import HanaInsights.Proofs.Numeral
import HanaInsights.Trigger.Comparison
set_option autoImplicit false

/-!
What comparisons say. A number read from an operand has a place on a line with an end on both sides,
and the six comparisons of two such operands are those of their places; not-a-number has none, and
what is no number is compared as text, or not at all.
-/

namespace HanaInsights

namespace Comparison

def decides {α : Type} [LinearOrder α] : Comparison → α → α → Bool
  | .eq, x, y => x = y
  | .neq, x, y => x ≠ y
  | .lt, x, y => x < y
  | .lte, x, y => x ≤ y
  | .gt, x, y => y < x
  | .gte, x, y => y ≤ x

theorem decides_map {α β : Type} [LinearOrder α] [LinearOrder β] {f : α → β} {s : Set α}
    (hf : StrictMonoOn f s) {x y : α} (hx : x ∈ s) (hy : y ∈ s) (c : Comparison) :
    c.decides (f x) (f y) = c.decides x y := by
  have heq : f x = f y ↔ x = y := hf.injOn.eq_iff hx hy
  cases c <;>
    simp only [decides, heq, hf.lt_iff_lt hx hy, hf.lt_iff_lt hy hx, hf.le_iff_le hx hy,
      hf.le_iff_le hy hx, ne_eq]

def isOrdering : Comparison → Bool
  | .eq | .neq => false
  | .lt | .lte | .gt | .gte => true

/-- What two operands that are numbers are worth to a comparison if one of them has no place. -/
def unplaced : Comparison → Bool
  | .neq => true
  | _ => false

abbrev holds (c : Comparison) : String → String → Bool := (Operation.comparison c).holds

end Comparison

/-- A line of whole units with an end on both sides. -/
abbrev Place := WithBot (WithTop ℤ)

abbrev Place.units (z : ℤ) : Place := (z : WithTop ℤ)

namespace Binary64

def place? : Binary64 → Option Place
  | .nan => none
  | .infinity true => some ⊥
  | .infinity false => some ⊤
  | .finite true units => some (Place.units (-units))
  | .finite false units => some (Place.units units)

def rankOf : Place → ℤ
  | ⊥ => -overflow
  | (⊤ : WithTop ℤ) => overflow
  | ((z : ℤ) : WithTop ℤ) => z

theorem place?_eq_none_iff {x : Binary64} : x.place? = none ↔ x = .nan := by
  cases x with
  | nan => simp [place?]
  | infinity negative => cases negative <;> simp [place?]
  | finite negative units => cases negative <;> simp [place?]

theorem rank?_eq (x : Binary64) : x.rank? = x.place?.map rankOf := by
  cases x with
  | nan => rfl
  | infinity negative => cases negative <;> rfl
  | finite negative units => cases negative <;> rfl

def Bounded : Set Place :=
  {p | p = ⊥ ∨ p = ⊤ ∨ ∃ z : ℤ, z.natAbs < overflow ∧ p = Place.units z}

theorem rankOf_bot : rankOf ⊥ = -overflow := rfl

theorem rankOf_top : rankOf ⊤ = overflow := rfl

theorem rankOf_units (z : ℤ) : rankOf (Place.units z) = z := rfl

theorem strictMonoOn_rankOf : StrictMonoOn rankOf Bounded := by
  intro p hp q hq hlt
  have hpos : 0 < overflow := overflow_pos
  rcases hp with rfl | rfl | ⟨x, hx, rfl⟩
  · rcases hq with rfl | rfl | ⟨y, hy, rfl⟩
    · exact absurd hlt (lt_irrefl _)
    · rw [rankOf_bot, rankOf_top]
      omega
    · rw [rankOf_bot, rankOf_units]
      omega
  · exact absurd hlt not_top_lt
  · rcases hq with rfl | rfl | ⟨y, hy, rfl⟩
    · exact absurd hlt not_lt_bot
    · rw [rankOf_top, rankOf_units]
      omega
    · exact WithTop.coe_lt_coe.1 (WithBot.coe_lt_coe.1 hlt)

def Rounded (x : Binary64) : Prop := ∀ p ∈ x.place?, p ∈ Bounded

theorem rounded_infinity (negative : Bool) : Rounded (.infinity negative) := by
  rintro p hp
  cases negative with
  | false => exact .inr (.inl (Option.some.inj hp).symm)
  | true => exact .inl (Option.some.inj hp).symm

theorem rounded_finite {units : Nat} (h : units < overflow) (negative : Bool) :
    Rounded (.finite negative units) := by
  rintro p hp
  cases negative with
  | false => exact .inr (.inr ⟨units, by omega, (Option.some.inj hp).symm⟩)
  | true => exact .inr (.inr ⟨-units, by omega, (Option.some.inj hp).symm⟩)

theorem rounded_ofDecimal (d : Decimal) : Rounded (ofDecimal d) := by
  unfold ofDecimal ofUnits
  dsimp only
  split
  · exact rounded_finite overflow_pos _
  · split
    · exact rounded_infinity _
    · split
      · exact rounded_finite overflow_pos _
      · split
        · exact rounded_infinity _
        next h => exact rounded_finite (Nat.not_le.1 h) _

theorem rounded_of_magnitude? {negative : Bool} {cs : List Char} {x : Binary64}
    (h : magnitude? negative cs = some x) : Rounded x := by
  unfold magnitude? at h
  dsimp only at h
  split at h
  · obtain rfl := Option.some.inj h
    exact rounded_infinity _
  · split at h
    · obtain rfl := Option.some.inj h
      exact nofun
    · obtain ⟨d, -, rfl⟩ := Option.map_eq_some_iff.1 h
      exact rounded_ofDecimal d

theorem rounded_of_parse? {text : String} {x : Binary64} (h : parse? text = some x) :
    Rounded x := by
  unfold parse? parseChars? at h
  split at h <;> exact rounded_of_magnitude? h

end Binary64

namespace Operand

/-- The place of an operand; none if it is no number, and none within if it is not-a-number. -/
def place? (operand : String) : Option (Option Place) :=
  (Binary64.parse? operand).map Binary64.place?

theorem place?_eq_none_iff {operand : String} :
    place? operand = none ↔ Binary64.parse? operand = none := Option.map_eq_none_iff

section
variable {lhs rhs : String} {c : Comparison}

theorem compare_of_numbers {l r : Binary64} (hl : Binary64.parse? lhs = some l)
    (hr : Binary64.parse? rhs = some r) :
    compare c lhs rhs = .ok (match l.rank?, r.rank? with
      | some x, some y => c.decides x y
      | _, _ => c.unplaced) := by
  cases c <;> cases hx : l.rank? <;> cases hy : r.rank? <;>
    simp [compare, equal, ordered, number, hl, hr, Binary64.eq, Binary64.lt, Binary64.le,
      Binary64.relates, hx, hy, Comparison.decides, Comparison.unplaced, beq_eq_decide]

theorem compare_of_places {x y : Place} (hx : place? lhs = some (some x))
    (hy : place? rhs = some (some y)) : compare c lhs rhs = .ok (c.decides x y) := by
  obtain ⟨l, hl, hlx⟩ := Option.map_eq_some_iff.1 hx
  obtain ⟨r, hr, hry⟩ := Option.map_eq_some_iff.1 hy
  have hxb : x ∈ Binary64.Bounded := Binary64.rounded_of_parse? hl x hlx
  have hyb : y ∈ Binary64.Bounded := Binary64.rounded_of_parse? hr y hry
  rw [compare_of_numbers hl hr, Binary64.rank?_eq, Binary64.rank?_eq, hlx, hry]
  exact congrArg Except.ok (Comparison.decides_map Binary64.strictMonoOn_rankOf hxb hyb c)

theorem compare_of_unplaced {x y : Option Place} (hx : place? lhs = some x)
    (hy : place? rhs = some y) (h : x = none ∨ y = none) :
    compare c lhs rhs = .ok c.unplaced := by
  obtain ⟨l, hl, hlx⟩ := Option.map_eq_some_iff.1 hx
  obtain ⟨r, hr, hry⟩ := Option.map_eq_some_iff.1 hy
  rw [compare_of_numbers hl hr, Binary64.rank?_eq, Binary64.rank?_eq, hlx, hry]
  rcases h with rfl | rfl
  · rfl
  · cases x <;> rfl

theorem compare_eq_error_iff {e : InsightError} :
    compare c lhs rhs = .error e ↔
      c.isOrdering = true ∧
        (Binary64.parse? lhs = none ∧ e = .parseFailure lhs ∨
          Binary64.parse? lhs ≠ none ∧ Binary64.parse? rhs = none ∧ e = .parseFailure rhs) := by
  have hordered : ∀ relation, ordered relation lhs rhs = .error e ↔
      Binary64.parse? lhs = none ∧ e = .parseFailure lhs ∨
        Binary64.parse? lhs ≠ none ∧ Binary64.parse? rhs = none ∧ e = .parseFailure rhs := by
    intro relation
    cases hl : Binary64.parse? lhs <;> cases hr : Binary64.parse? rhs <;>
      simp [ordered, number, hl, hr, eq_comm]
  cases c <;> simp [compare, Comparison.isOrdering, hordered]

theorem equal_of_no_number (h : Binary64.parse? lhs = none ∨ Binary64.parse? rhs = none) :
    equal lhs rhs = (lhs == rhs) := by
  rcases h with h | h
  · simp only [equal, h]
  · cases hl : Binary64.parse? lhs <;> simp only [equal, h, hl]

theorem equal_of_numbers {x y : Option Place} (hx : place? lhs = some x)
    (hy : place? rhs = some y) : equal lhs rhs = decide (x = y ∧ x ≠ none) := by
  have hcompare : compare .eq lhs rhs = .ok (equal lhs rhs) := rfl
  cases x with
  | none =>
    rw [compare_of_unplaced hx hy (.inl rfl)] at hcompare
    simp [← Except.ok.inj hcompare, Comparison.unplaced]
  | some p =>
    cases y with
    | none =>
      rw [compare_of_unplaced hx hy (.inr rfl)] at hcompare
      simp [← Except.ok.inj hcompare, Comparison.unplaced]
    | some q =>
      rw [compare_of_places hx hy] at hcompare
      simp [← Except.ok.inj hcompare, Comparison.decides]

/-- Equal operands are one text that is no number, or have one place. -/
theorem equal_eq_true_iff :
    equal lhs rhs = true ↔
      Binary64.parse? lhs = none ∧ lhs = rhs ∨
        ∃ x, place? lhs = some (some x) ∧ place? rhs = some (some x) := by
  cases hx : place? lhs with
  | none =>
    have hl : Binary64.parse? lhs = none := place?_eq_none_iff.1 hx
    rw [equal_of_no_number (.inl hl), beq_iff_eq]
    simp [hl]
  | some x =>
    have hl : Binary64.parse? lhs ≠ none := by simp [← place?_eq_none_iff, hx]
    cases hy : place? rhs with
    | none =>
      have hr : Binary64.parse? rhs = none := place?_eq_none_iff.1 hy
      have hne : lhs ≠ rhs := fun heq => hl (heq ▸ hr)
      rw [equal_of_no_number (.inr hr), beq_iff_eq]
      simp [hne]
    | some y =>
      rw [equal_of_numbers hx hy, decide_eq_true_iff]
      cases x <;> cases y <;> simp [hl, eq_comm]

theorem equal_comm (lhs rhs : String) : equal lhs rhs = equal rhs lhs := by
  have hswap : ∀ a b, equal a b = true → equal b a = true := by
    intro a b h
    rw [equal_eq_true_iff] at h ⊢
    rcases h with ⟨hnone, rfl⟩ | ⟨x, ha, hb⟩
    · exact .inl ⟨hnone, rfl⟩
    · exact .inr ⟨x, hb, ha⟩
  exact Bool.eq_iff_iff.2 ⟨hswap lhs rhs, hswap rhs lhs⟩

theorem equal_trans {a b c : String} (hab : equal a b = true) (hbc : equal b c = true) :
    equal a c = true := by
  rw [equal_eq_true_iff] at hab hbc ⊢
  rcases hab with ⟨-, rfl⟩ | ⟨x, ha, hb⟩
  · exact hbc
  · rcases hbc with ⟨-, rfl⟩ | ⟨y, hb', hc⟩
    · exact .inr ⟨x, ha, hb⟩
    · obtain rfl : x = y := Option.some.inj (Option.some.inj (hb.symm.trans hb'))
      exact .inr ⟨x, ha, hc⟩

theorem equal_self_iff {a : String} : equal a a = true ↔ Binary64.parse? a ≠ some .nan := by
  rw [equal_eq_true_iff, place?]
  cases h : Binary64.parse? a with
  | none => simp
  | some x =>
    have hnan : x.place? = none ↔ x = .nan := Binary64.place?_eq_none_iff
    cases hx : x.place? <;> simp_all

end
end Operand

namespace Comparison

open Operand

theorem holds_of_compare {c : Comparison} {a b : String} {result : Bool}
    (h : Operand.compare c a b = .ok result) : c.holds a b = result := by
  simp only [Operation.holds, Operation.compare?, h]

theorem holds_of_places {a b : String} {x y : Place} (hx : place? a = some (some x))
    (hy : place? b = some (some y)) (c : Comparison) : c.holds a b = c.decides x y :=
  holds_of_compare (compare_of_places hx hy)

theorem unplaced_of_isOrdering {c : Comparison} (h : c.isOrdering = true) : c.unplaced = false := by
  cases c <;> simp_all [isOrdering, unplaced]

theorem not_holds_of_error {c : Comparison} {a b : String} {e : InsightError}
    (h : Operand.compare c a b = .error e) : c.holds a b = false := by
  simp only [Operation.holds, Operation.compare?, h]

theorem not_holds_of_isOrdering {c : Comparison} (hc : c.isOrdering = true) {a b : String}
    (h : ¬ ∃ x y, place? a = some (some x) ∧ place? b = some (some y)) : c.holds a b = false := by
  cases ha : place? a with
  | none =>
    have hnone : Binary64.parse? a = none := place?_eq_none_iff.1 ha
    exact not_holds_of_error (compare_eq_error_iff.2 ⟨hc, .inl ⟨hnone, rfl⟩⟩)
  | some x =>
    have hnumber : Binary64.parse? a ≠ none := by simp [← place?_eq_none_iff, ha]
    cases hb : place? b with
    | none =>
      have hnone : Binary64.parse? b = none := place?_eq_none_iff.1 hb
      exact not_holds_of_error (compare_eq_error_iff.2 ⟨hc, .inr ⟨hnumber, hnone, rfl⟩⟩)
    | some y =>
      have hunplaced : x = none ∨ y = none := by
        cases x with
        | none => exact .inl rfl
        | some p =>
          cases y with
          | none => exact .inr rfl
          | some q => exact absurd ⟨p, q, ha, hb⟩ h
      rw [holds_of_compare (compare_of_unplaced ha hb hunplaced), unplaced_of_isOrdering hc]

/-- Two operands with places are compared as these are, so that exactly one of less, equal and
greater holds; equality is an equivalence on what is not not-a-number, numbers and texts alike; and
an ordering fails, blaming the first operand that is no number, unless both are numbers. -/
theorem comparisons_cohere (a b c : String) :
    Comparison.neq.holds a b = !Comparison.eq.holds a b ∧
    Comparison.eq.holds a b = Comparison.eq.holds b a ∧
    (Comparison.eq.holds a b = true → Comparison.eq.holds b c = true →
      Comparison.eq.holds a c = true) ∧
    (Comparison.eq.holds a a = true ↔ Binary64.parse? a ≠ some .nan) ∧
    (Binary64.parse? a = none ∨ Binary64.parse? b = none → Comparison.eq.holds a b = (a == b)) ∧
    (∀ x y, place? a = some (some x) → place? b = some (some y) →
      (∀ op : Comparison, op.holds a b = op.decides x y) ∧
      [Comparison.lt.holds a b, Comparison.eq.holds a b, Comparison.gt.holds a b].count true = 1 ∧
      Comparison.lte.holds a b = (Comparison.lt.holds a b || Comparison.eq.holds a b) ∧
      Comparison.gte.holds a b = (Comparison.gt.holds a b || Comparison.eq.holds a b) ∧
      Comparison.lt.holds a b = Comparison.gt.holds b a) ∧
    ((¬ ∃ x y, place? a = some (some x) ∧ place? b = some (some y)) →
      ∀ op : Comparison, op.isOrdering = true → op.holds a b = false) ∧
    (∀ (op : Comparison) (e : InsightError),
      (Operation.comparison op).compare? a b = .error e ↔
        op.isOrdering = true ∧
          (Binary64.parse? a = none ∧ e = .parseFailure a ∨
            Binary64.parse? a ≠ none ∧ Binary64.parse? b = none ∧ e = .parseFailure b)) ∧
    ∀ op : Operation, op.isComparison = false →
      op.holds a b = false ∧ op.compare? a b = .error (.unrecognizedOperation op.name) := by
  refine ⟨rfl, equal_comm a b, equal_trans, equal_self_iff, equal_of_no_number, ?_,
    fun h op hop => not_holds_of_isOrdering hop h, fun op e => compare_eq_error_iff, ?_⟩
  · intro x y hx hy
    have hholds : ∀ op : Comparison, op.holds a b = op.decides x y := holds_of_places hx hy
    have hswap : Comparison.gt.holds b a = Comparison.gt.decides y x := holds_of_places hy hx .gt
    refine ⟨hholds, ?_⟩
    simp only [hholds, hswap, decides]
    -- Exactly one order holds, and with it each comparison is decided.
    rcases lt_trichotomy x y with hlt | rfl | hgt
    · simp [hlt, hlt.le, hlt.ne, hlt.not_gt]
    · simp
    · simp [hgt, hgt.le, hgt.ne', hgt.not_gt]
  · intro op hop
    cases op with
    | comparison c => cases hop
    | undefined => exact ⟨rfl, rfl⟩
    | logical c => exact ⟨rfl, rfl⟩
    | unrecognized name => exact ⟨rfl, rfl⟩

theorem comparisons_cohere_of_spellings :
    (Comparison.eq.holds "1e0" "+1.0" = true ∧ Comparison.eq.holds "+1.0" "1" = true ∧
      Comparison.eq.holds "1e0" "1" = true) ∧
    (Binary64.parse? " 1" = none ∧ Comparison.eq.holds " 1" "1" = false) ∧
    (place? "-inf" = some (some ⊥) ∧ place? "1" = some (some (Place.units (2 ^ 1074))) ∧
      Comparison.lte.holds "-inf" "1" =
        (Comparison.lt.holds "-inf" "1" || Comparison.eq.holds "-inf" "1")) ∧
    ((¬ ∃ x y, place? "NaN" = some (some x) ∧ place? "1" = some (some y)) ∧
      Comparison.gte.holds "NaN" "1" = false) ∧
    (Operation.logical .or).isComparison = false ∧
      (Operation.logical .or).compare? "1" "1" = .error (.unrecognizedOperation "OR") := by
  have hspelled : Comparison.eq.holds "1e0" "+1.0" = true := by decide +kernel
  have hplain : Comparison.eq.holds "+1.0" "1" = true := by decide +kernel
  have htext : Binary64.parse? " 1" = none := by decide +kernel
  have hinfinite : place? "-inf" = some (some ⊥) := by decide +kernel
  have hone : place? "1" = some (some (Place.units (2 ^ 1074))) := by decide +kernel
  have hnan : ¬ ∃ x y, place? "NaN" = some (some x) ∧ place? "1" = some (some y) := by
    have hunplaced : place? "NaN" = some none := by decide +kernel
    rintro ⟨x, y, hx, -⟩
    cases hunplaced.symm.trans hx
  obtain ⟨-, -, htrans, -⟩ := comparisons_cohere "1e0" "+1.0" "1"
  obtain ⟨-, -, -, -, hbytes, -⟩ := comparisons_cohere " 1" "1" ""
  obtain ⟨-, -, -, -, -, hplaces, -⟩ := comparisons_cohere "-inf" "1" ""
  obtain ⟨-, -, -, -, -, -, hordering, -⟩ := comparisons_cohere "NaN" "1" ""
  obtain ⟨-, -, -, -, -, -, -, -, hother⟩ := comparisons_cohere "1" "1" ""
  exact ⟨⟨hspelled, hplain, htrans hspelled hplain⟩, ⟨htext, (hbytes (.inl htext)).trans rfl⟩,
    ⟨hinfinite, hone, (hplaces _ _ hinfinite hone).2.2.1⟩, ⟨hnan, hordering hnan .gte rfl⟩, rfl,
    (hother (.logical .or) rfl).2⟩

end Comparison
end HanaInsights
