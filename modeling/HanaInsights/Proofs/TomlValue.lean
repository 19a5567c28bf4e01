import HanaInsights.Proofs.TomlText
set_option autoImplicit false

namespace HanaInsights.Toml

section
variable {ds : List Char} (hds : ∀ c ∈ ds, isDigit c = true) (rest : List Char)

theorem digits?_of_head {n : Nat} {c : Char} (hc : isDigit c = false) (hn : 0 < n)
    (cs : List Char) : digits? n (c :: cs) = none := by
  obtain ⟨n, rfl⟩ : ∃ k, n = k + 1 := ⟨n - 1, by omega⟩
  simp [digits?, hc]

include hds

/-- A line that starts with a number and holds nothing else is no date and no time. -/
theorem expect?_after_digits {n : Nat} (mark : Char) (hdigit : isDigit mark = false)
    (hfeed : mark ≠ '\n') {value : Nat} {tail : List Char}
    (h : digits? n (ds ++ '\n' :: rest) = some (value, tail)) : expect? mark tail = none := by
  simp only [digits?] at h
  split at h
  next hdigits =>
    obtain ⟨hlength, hall⟩ := hdigits
    have hn : n ≤ ds.length := by
      apply Nat.le_of_not_lt
      intro hlt
      have hmem : '\n' ∈ (ds ++ '\n' :: rest).take n := by
        obtain ⟨k, rfl⟩ : ∃ k, n = ds.length + (k + 1) := ⟨n - ds.length - 1, by omega⟩
        simp [List.take_length_add_append]
      have hfalse := List.all_eq_true.1 hall '\n' hmem
      cases hfalse
    have htail : tail = ds.drop n ++ '\n' :: rest := by
      rw [← (Prod.mk.inj (Option.some.inj h)).2, List.drop_append_of_le_length hn]
    subst htail
    cases hdrop : ds.drop n with
    | nil => simp [expect?, Ne.symm hfeed]
    | cons c cs =>
      have hc := hds c (List.mem_of_mem_drop (hdrop ▸ List.mem_cons_self))
      have hne : c ≠ mark := ne_of_class hc hdigit
      simp [expect?, hne]
  next => cases h

theorem groupedTail_digits :
    groupedTail isDigit (ds ++ '\n' :: rest) = some (ds, '\n' :: rest) := by
  induction ds with
  | nil => rfl
  | cons c ds ih =>
    rw [List.forall_mem_cons] at hds
    rw [List.cons_append, groupedTail, if_pos hds.1, ih hds.2, cons?]
    intro d tail hc
    rw [hc] at hds
    cases hds.1

end

theorem wholePart?_toDigits (n : Nat) (rest : List Char) :
    wholePart? (Nat.toDigits 10 n ++ '\n' :: rest) = some (Nat.toDigits 10 n, '\n' :: rest) := by
  obtain ⟨c, ds, htext, hc, hzero⟩ := exists_cons_toDigits n
  have hall : ∀ d ∈ c :: ds, isDigit d = true := fun d hd =>
    isDigit_of_mem_toDigits (htext ▸ hd)
  rw [htext, List.cons_append]
  by_cases h : c = '0'
  · rw [h, hzero h]
    rfl
  · have htail : ∀ d ∈ ds, isDigit d = true := fun d hd => hall d (.tail _ hd)
    rw [wholePart?, grouped?, if_pos hc, groupedTail_digits htail, cons?]
    intro tail ht
    exact h (List.cons.inj ht).1

theorem datetime?_of_digits {ds : List Char} (hds : ∀ c ∈ ds, isDigit c = true)
    (rest : List Char) : datetime? (ds ++ '\n' :: rest) = none := by
  have hdate : date? (ds ++ '\n' :: rest) = none := by
    cases hyear : digits? 4 (ds ++ '\n' :: rest) with
    | none => simp [date?, hyear]
    | some year =>
      have hmark := expect?_after_digits hds rest '-' rfl (by decide) hyear
      simp [date?, hyear, hmark]
  have htime : time? (ds ++ '\n' :: rest) = none := by
    cases hhour : digits? 2 (ds ++ '\n' :: rest) with
    | none => simp [time?, hhour]
    | some hour =>
      have hmark := expect?_after_digits hds rest ':' rfl (by decide) hhour
      simp [time?, hhour, hmark]
  simp [datetime?, hdate, htime]

theorem datetime?_of_minus (cs : List Char) : datetime? ('-' :: cs) = none := by
  have hdigits : ∀ n, 0 < n → digits? n ('-' :: cs) = none := fun n hn =>
    digits?_of_head rfl hn cs
  simp [datetime?, date?, time?, hdigits]

theorem decimalFloat?_toDigits (negative : Bool) (n : Nat) (rest : List Char) :
    decimalFloat? negative (Nat.toDigits 10 n ++ '\n' :: rest) = none := by
  rw [decimalFloat?, wholePart?_toDigits]
  rfl

theorem sign_integerChars (i : Int) (rest : List Char) :
    sign (Json.integerChars i ++ '\n' :: rest) =
      (decide (i < 0), Nat.toDigits 10 i.natAbs ++ '\n' :: rest) := by
  by_cases hi : i < 0
  · rw [Json.integerChars, if_pos hi]
    simp [sign, hi]
  · obtain ⟨c, ds, htext, hc, -⟩ := exists_cons_toDigits i.natAbs
    have hne : ∀ d, isDigit d = false → c ≠ d := fun _ => ne_of_class hc
    rw [Json.integerChars, if_neg hi, htext, List.cons_append, sign]
    · simp [hi]
    · exact fun tail h => hne '-' rfl (List.cons.inj h).1
    · exact fun tail h => hne '+' rfl (List.cons.inj h).1

theorem float?_integerChars (i : Int) (rest : List Char) :
    float? (Json.integerChars i ++ '\n' :: rest) = none := by
  obtain ⟨c, ds, htext, hc, -⟩ := exists_cons_toDigits i.natAbs
  have hne : ∀ d, isDigit d = false → c ≠ d := fun _ => ne_of_class hc
  have hfloat := decimalFloat?_toDigits (decide (i < 0)) i.natAbs rest
  rw [float?, sign_integerChars]
  dsimp only
  split
  next h =>
    rw [htext] at h
    exact absurd (List.cons.inj h).1 (hne 'i' rfl)
  next h =>
    rw [htext] at h
    exact absurd (List.cons.inj h).1 (hne 'n' rfl)
  next => exact hfloat

theorem integer?_integerChars {i : Int} (h : isInt64 i = true) (rest : List Char) :
    integer? (Json.integerChars i ++ '\n' :: rest) = some (.integer i, '\n' :: rest) := by
  have hdecimal : decimalInteger? (Json.integerChars i ++ '\n' :: rest) =
      some (.integer i, '\n' :: rest) := by
    have hvalue : (if decide (i < 0) = true then -(i.natAbs : Int) else i.natAbs) = i := by
      by_cases hi : i < 0
      · simp only [hi, decide_true, if_true]
        omega
      · simp only [hi, decide_false, Bool.false_eq_true, if_false]
        omega
    simp only [decimalInteger?, sign_integerChars, wholePart?_toDigits, digitsValue_toDigits,
      Option.bind_eq_bind, Option.bind_some, hvalue, int64?, h, if_true]
  have hbase : ∀ d, d ≠ '\n' → ∀ tail, Json.integerChars i ++ '\n' :: rest ≠ '0' :: d :: tail := by
    intro d hd tail htext
    by_cases hi : i < 0
    · rw [Json.integerChars, if_pos hi] at htext
      cases (List.cons.inj htext).1
    · obtain ⟨c, ds, hdigits, -, hzero⟩ := exists_cons_toDigits i.natAbs
      rw [Json.integerChars, if_neg hi, hdigits, List.cons_append] at htext
      obtain ⟨rfl, htail⟩ := List.cons.inj htext
      rw [hzero rfl, List.nil_append] at htail
      exact hd (List.cons.inj htail).1.symm
  rw [integer?, hdecimal]
  · exact hbase 'x' (by decide)
  · exact hbase 'o' (by decide)
  · exact hbase 'b' (by decide)

theorem number?_integerChars {i : Int} (h : isInt64 i = true) (rest : List Char) :
    number? (Json.integerChars i ++ '\n' :: rest) = some (.integer i, '\n' :: rest) := by
  have hdatetime : datetime? (Json.integerChars i ++ '\n' :: rest) = none := by
    rw [Json.integerChars]
    split
    next => exact datetime?_of_minus _
    next => exact datetime?_of_digits (fun _ => isDigit_of_mem_toDigits) rest
  rw [number?, hdatetime, float?_integerChars]
  exact integer?_integerChars h rest

/-- The values that stand behind a key, as far as they are written here: no fractions, no dates, and
no array with something in it. -/
inductive Leaf : Toml → Prop
  | string (s : String) : Leaf (.string s)
  | integer {i : Int} (h : isInt64 i = true) : Leaf (.integer i)
  | bool (b : Bool) : Leaf (.bool b)
  | empty : Leaf (.array [])

theorem exists_cons_stringChars (cs : List Char) :
    ∃ c tail, stringChars cs = c :: tail ∧ (c = '"' ∨ c = '\'') := by
  unfold stringChars
  dsimp only
  repeat' split
  all_goals simp [basicChars, literalChars, multilineBasicChars, multilineLiteralChars]

theorem scalar?_string (s : String) (rest : List Char) :
    scalar? (stringChars s.toList ++ '\n' :: rest) = some (.string s, '\n' :: rest) := by
  have hfeed : ∀ c ∈ ('\n' :: rest).head?, c ≠ '"' ∧ c ≠ '\'' :=
    forall_head?_cons (by decide) rest
  have hread := string?_stringChars hfeed s.toList
  obtain ⟨c, tail, htext, hc⟩ := exists_cons_stringChars s.toList
  rw [String.ofList_toList] at hread
  rw [htext, List.cons_append] at hread ⊢
  rcases hc with rfl | rfl
  · rw [scalar?, hread, Option.map_some]
  · rw [scalar?, hread, Option.map_some]

theorem exists_cons_integerChars (i : Int) :
    ∃ c tail, Json.integerChars i = c :: tail ∧ ∀ d, isDigit d = false → d ≠ '-' → c ≠ d := by
  rw [Json.integerChars]
  split
  next => exact ⟨'-', _, rfl, fun _ _ => Ne.symm⟩
  next =>
    obtain ⟨c, ds, htext, hc, -⟩ := exists_cons_toDigits i.natAbs
    exact ⟨c, ds, htext, fun _ hd _ => ne_of_class hc hd⟩

theorem scalar?_integer {i : Int} (h : isInt64 i = true) (rest : List Char) :
    scalar? (Json.integerChars i ++ '\n' :: rest) = some (.integer i, '\n' :: rest) := by
  have hread := number?_integerChars h rest
  obtain ⟨c, tail, htext, hne⟩ := exists_cons_integerChars i
  rw [htext, List.cons_append] at hread ⊢
  rw [scalar?, hread]
  · exact fun tail h => hne 't' rfl (by decide) (List.cons.inj h).1
  · exact fun tail h => hne 'f' rfl (by decide) (List.cons.inj h).1
  · exact fun tail h => hne '"' rfl (by decide) (List.cons.inj h).1
  · exact fun tail h => hne '\'' rfl (by decide) (List.cons.inj h).1

theorem value?_of_scalar {c : Char} (hspace : isSpace c = false) (hc : c ∉ ['[', '\x7b'])
    (cs : List Char) : value? (skipSpace (c :: cs)) = scalar? (c :: cs) := by
  simp only [List.mem_cons, List.not_mem_nil, or_false, not_or] at hc
  rw [skipSpace_of_head hspace, value?, show depthLimit - 1 = 78 + 1 from rfl, valueAt]
  · exact fun tail h => hc.1 (List.cons.inj h).1
  · exact fun tail h => hc.2 (List.cons.inj h).1

theorem value?_leaf {v : Toml} (h : Leaf v) (rest : List Char) :
    value? (skipSpace (valueChars v ++ '\n' :: rest)) = some (v, '\n' :: rest) := by
  cases h with
  | string s =>
    have hread := scalar?_string s rest
    obtain ⟨c, tail, htext, hc⟩ := exists_cons_stringChars s.toList
    rw [valueChars]
    rw [htext, List.cons_append] at hread ⊢
    rw [value?_of_scalar, hread] <;> rcases hc with rfl | rfl <;> decide
  | @integer i hi =>
    have hread := scalar?_integer hi rest
    obtain ⟨c, tail, htext, hne⟩ := exists_cons_integerChars i
    rw [valueChars]
    rw [htext, List.cons_append] at hread ⊢
    rw [value?_of_scalar, hread]
    · simp [isSpace, hne ' ' rfl (by decide), hne '\t' rfl (by decide)]
    · simp [hne '[' rfl (by decide), hne '\x7b' rfl (by decide)]
  | bool b => cases b <;> rfl
  | empty => rfl

end HanaInsights.Toml
