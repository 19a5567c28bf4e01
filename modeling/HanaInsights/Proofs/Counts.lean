import HanaInsights.Proofs.Causes
import HanaInsights.Proofs.Size
set_option autoImplicit false

namespace HanaInsights

namespace Operand

def placeOf (n : ℕ) : Place := Place.units ((n * Binary64.unitsOfOne : ℕ) : ℤ)

theorem strictMono_placeOf : StrictMono placeOf := by
  intro n m hlt
  have hunits : n * Binary64.unitsOfOne < m * Binary64.unitsOfOne :=
    Nat.mul_lt_mul_of_pos_right hlt Binary64.unitsOfOne_pos
  exact WithBot.coe_lt_coe.2 (WithTop.coe_lt_coe.2 (Int.ofNat_lt.2 hunits))

theorem place?_toString {n : ℕ} (h : n ≤ 2 ^ 53) :
    place? (toString n) = some (some (placeOf n)) := by
  rw [place?, Binary64.parse?_toString, Binary64.ofDecimal_natural h]
  rfl

theorem compare_toString {n m : ℕ} (hn : n ≤ 2 ^ 53) (hm : m ≤ 2 ^ 53) (c : Comparison) :
    compare c (toString n) (toString m) = .ok (c.decides n m) := by
  rw [compare_of_places (place?_toString hn) (place?_toString hm)]
  exact congrArg Except.ok
    (Comparison.decides_map (strictMono_placeOf.strictMonoOn Set.univ) trivial trivial c)

theorem resolve_sizeOf_of_get? {kb : KnowledgeBase} {key : String} {values : List String}
    (hplain : Plain key) (h : kb.get? key = some values) :
    resolve kb (sizeOf key) = .ok (toString values.length) := by
  simp only [resolve, sizeKey?_sizeOf_of_plain hplain, h]

theorem parse?_sizeOf (key : String) : Binary64.parse? (sizeOf key) = none := by
  have hchars : (sizeOf key).toList = 's' :: ("ize(" ++ key ++ ")").toList := by simp [sizeOf]
  rw [Binary64.parse?, hchars, Binary64.parseChars?_of_head (by decide) (by decide),
    Binary64.magnitude?_of_head (by decide) (by decide)]
  rfl

theorem sizeKey?_of_parse? {operand : String} {x : Binary64}
    (h : Binary64.parse? operand = some x) : sizeKey? operand = none := by
  cases hkey : sizeKey? operand with
  | none => rfl
  | some key =>
    obtain ⟨rfl, -⟩ := sizeKey?_eq_some_iff.1 hkey
    cases (parse?_sizeOf key).symm.trans h

theorem resolve_toString (kb : KnowledgeBase) (n : ℕ) :
    resolve kb (toString n) = .ok (toString n) := by
  simp only [resolve, sizeKey?_of_parse? (Binary64.parse?_toString n)]

end Operand

namespace Trigger

section
variable {kb : KnowledgeBase} {c : Comparison} {lhs rhs : String}

theorem diagnose_of_counts {n m : ℕ} (hl : Operand.resolve kb lhs = .ok (toString n))
    (hr : Operand.resolve kb rhs = .ok (toString m)) (hn : n ≤ 2 ^ 53) (hm : m ≤ 2 ^ 53)
    (children : List Trigger) :
    diagnose kb (.node (.comparison c) lhs rhs children) = (c.decides n m, []) := by
  rw [diagnose, compareIn, hl, hr]
  simp only [Operand.compare_toString hn hm, verdict]

theorem operand_of_mem_diagnose {children : List Trigger} {operand : String}
    (h : .parseFailure operand ∈ (diagnose kb (.node (.comparison c) lhs rhs children)).2) :
    (operand = lhs ∨ operand = rhs) ∧ Operand.sizeKey? operand = none ∧
      Binary64.parse? operand = none := by
  cases cause_of_mem_diagnose h with
  | parseFailure _ hoperand htext hnumber => exact ⟨hoperand, htext, hnumber⟩

end

open Operand

/-- Where a size is found, a comparison with it fails only at the other operand, if that is a text
and no number; up to 2^53 it is the comparison of whole numbers, on either side and with another
size. -/
theorem sizes_compare_as_integers {kb : KnowledgeBase} {key : String} {values : List String}
    (hplain : Plain key) (hvalues : kb.get? key = some values) (c : Comparison)
    (children : List Trigger) :
    (∀ other operand,
      .parseFailure operand ∈
          (diagnose kb (.node (.comparison c) (sizeOf key) other children)).2 ∨
        .parseFailure operand ∈
          (diagnose kb (.node (.comparison c) other (sizeOf key) children)).2 →
      operand = other ∧ sizeKey? other = none ∧ Binary64.parse? other = none) ∧
    (values.length ≤ 2 ^ 53 →
      (∀ m : ℕ, m ≤ 2 ^ 53 →
        diagnose kb (.node (.comparison c) (sizeOf key) (toString m) children) =
          (c.decides values.length m, []) ∧
        diagnose kb (.node (.comparison c) (toString m) (sizeOf key) children) =
          (c.decides m values.length, [])) ∧
      ∀ key' values', Plain key' → kb.get? key' = some values' → values'.length ≤ 2 ^ 53 →
        diagnose kb (.node (.comparison c) (sizeOf key) (sizeOf key') children) =
          (c.decides values.length values'.length, [])) := by
  have hkey : sizeKey? (sizeOf key) = some key := sizeKey?_sizeOf_of_plain hplain
  have hsize : resolve kb (sizeOf key) = .ok (toString values.length) :=
    resolve_sizeOf_of_get? hplain hvalues
  refine ⟨?_, fun hn => ⟨fun m hm => ⟨?_, ?_⟩, fun key' values' hplain' hvalues' hn' => ?_⟩⟩
  · rintro other operand (h | h)
    · obtain ⟨rfl | rfl, htext, hnumber⟩ := operand_of_mem_diagnose h
      · cases hkey.symm.trans htext
      · exact ⟨rfl, htext, hnumber⟩
    · obtain ⟨rfl | rfl, htext, hnumber⟩ := operand_of_mem_diagnose h
      · exact ⟨rfl, htext, hnumber⟩
      · cases hkey.symm.trans htext
  · exact diagnose_of_counts hsize (resolve_toString kb m) hn hm children
  · exact diagnose_of_counts (resolve_toString kb m) hsize hm hn children
  · exact diagnose_of_counts hsize (resolve_sizeOf_of_get? hplain' hvalues') hn hn' children

theorem sizes_compare_as_integers_of_hosts :
    let kb := (((KnowledgeBase.empty.append "q_hosts:HOST" "hana01").append "q_hosts:HOST"
      "hana02").append "q_backups:ID" "1").append "q_hosts:HOST" "hana03" |>.append
      "q_backups:ID" "2"
    diagnose kb (compare (.comparison .lt) "size(q_hosts:HOST)" "9007199254740992") = (true, []) ∧
    diagnose kb (compare (.comparison .gte) "3" "size(q_hosts:HOST)") = (true, []) ∧
    diagnose kb (compare (.comparison .neq) "size(q_hosts:HOST)" "size(q_backups:ID)") =
      (true, []) ∧
    .parseFailure "many" ∈
      (diagnose kb (compare (.comparison .gt) "size(q_hosts:HOST)" "many")).2 ∧
    sizeKey? "many" = none := by
  intro kb
  have hplain : Plain "q_hosts:HOST" := by decide
  have hvalues : kb.get? "q_hosts:HOST" = some ["hana01", "hana02", "hana03"] := by decide
  have hfailure : .parseFailure "many" ∈
      (diagnose kb (compare (.comparison .gt) "size(q_hosts:HOST)" "many")).2 := by decide +kernel
  have hexact := fun c => (sizes_compare_as_integers hplain hvalues c []).2 (by decide)
  refine ⟨((hexact .lt).1 9007199254740992 (by decide)).1, ((hexact .gte).1 3 (by decide)).2,
    (hexact .neq).2 "q_backups:ID" ["1", "2"] (by decide) (by decide) (by decide), hfailure, ?_⟩
  exact ((sizes_compare_as_integers hplain hvalues .gt []).1 "many" "many" (.inl hfailure)).2.1

end Trigger
end HanaInsights
