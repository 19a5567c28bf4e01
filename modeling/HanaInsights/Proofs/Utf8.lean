import Mathlib.Data.String.Basic
import HanaInsights.Text.Utf8
set_option autoImplicit false

namespace HanaInsights.Utf8

theorem toList_loop_eq (bytes : ByteArray) (i : Nat) (done : List UInt8) :
    ByteArray.toList.loop bytes i done = done.reverse ++ bytes.data.toList.drop i := by
  fun_induction ByteArray.toList.loop bytes i done with
  | case1 i done h ih =>
    have hi : i < bytes.data.toList.length := by simpa using h
    have hget : bytes.get! i = bytes.data.toList[i] := getElem!_pos bytes.data i h
    rw [ih, List.reverse_cons, List.append_assoc, List.singleton_append, hget,
      List.drop_eq_getElem_cons hi]
  | case2 i done h =>
    have hi : bytes.data.toList.length ≤ i := by simpa using h
    rw [List.drop_eq_nil_of_le hi, List.append_nil]

theorem encode_eq (s : String) : encode s = s.toList.flatMap String.utf8EncodeChar := by
  have hbytes : s.toUTF8 = s.toList.utf8Encode := by
    rw [String.toUTF8_eq_toByteArray, String.utf8Encode_toList]
  rw [encode, hbytes, ByteArray.toList, toList_loop_eq, List.utf8Encode]
  simp

section
variable {lead b c d : UInt8} (rest : List UInt8)

theorem step_of_one (h : lead.toNat < 0x80) :
    step lead rest = (some (Char.ofNat lead.toNat), rest) := by
  have hone : lead < 0x80 := h
  unfold step
  rw [if_pos hone]

theorem and_le_of_toNat {low high : UInt8} (h : low.toNat ≤ b.toNat ∧ b.toNat ≤ high.toNat) :
    (low ≤ b && b ≤ high) = true := by
  simpa using (⟨h.1, h.2⟩ : low ≤ b ∧ b ≤ high)

theorem and_le_of_lt {low : UInt8} (high : UInt8) (h : high.toNat < b.toNat) :
    (low ≤ b && b ≤ high) = false := by
  have hb : ¬ b ≤ high := fun hle => Nat.lt_irrefl _ (Nat.lt_of_lt_of_le h hle)
  simp [hb]

theorem not_lt_of_toNat (h : 0x80 ≤ lead.toNat) : ¬ lead < 0x80 :=
  fun hlt => Nat.lt_irrefl _ (Nat.lt_of_lt_of_le hlt h)

theorem step_of_two (h : 0xC2 ≤ lead.toNat ∧ lead.toNat ≤ 0xDF) (hb : isContinuation b = true) :
    step lead (b :: rest) = (some (Char.ofNat (lead.toNat % 32 * 64 + low6 b)), rest) := by
  have hone : ¬ lead < 0x80 := not_lt_of_toNat (by omega)
  have htwo : (0xC2 ≤ lead && lead ≤ 0xDF) = true := and_le_of_toNat h
  unfold step
  rw [if_neg hone, if_pos htwo]
  simp only [hb, if_true]

theorem step_of_three (h : 0xE0 ≤ lead.toNat ∧ lead.toNat ≤ 0xEF) (hb : secondOk lead b = true)
    (hc : isContinuation c = true) :
    step lead (b :: c :: rest) =
      (some (Char.ofNat (lead.toNat % 16 * 4096 + low6 b * 64 + low6 c)), rest) := by
  have hone : ¬ lead < 0x80 := not_lt_of_toNat (by omega)
  have htwo : (0xC2 ≤ lead && lead ≤ 0xDF) = false := and_le_of_lt 0xDF (by simp; omega)
  have hthree : (0xE0 ≤ lead && lead ≤ 0xEF) = true := and_le_of_toNat h
  unfold step
  rw [if_neg hone, htwo, if_pos hthree]
  simp only [hb, hc, if_true, Bool.false_eq_true, if_false]

theorem step_of_four (h : 0xF0 ≤ lead.toNat ∧ lead.toNat ≤ 0xF4) (hb : secondOk lead b = true)
    (hc : isContinuation c = true) (hd : isContinuation d = true) :
    step lead (b :: c :: d :: rest) =
      (some (Char.ofNat
        (lead.toNat % 8 * 262144 + low6 b * 4096 + low6 c * 64 + low6 d)), rest) := by
  have hone : ¬ lead < 0x80 := not_lt_of_toNat (by omega)
  have htwo : (0xC2 ≤ lead && lead ≤ 0xDF) = false := and_le_of_lt 0xDF (by simp; omega)
  have hthree : (0xE0 ≤ lead && lead ≤ 0xEF) = false := and_le_of_lt 0xEF (by simp; omega)
  have hfour : (0xF0 ≤ lead && lead ≤ 0xF4) = true := and_le_of_toNat h
  unfold step
  rw [if_neg hone, htwo, hthree, if_pos hfour]
  simp only [hb, hc, hd, if_true, Bool.false_eq_true, if_false]

/-- What a second byte must not be is what an overlong form, a surrogate or a number that is too
large would have. -/
theorem secondOk_of_toNat (h : 0x80 ≤ b.toNat ∧ b.toNat ≤ 0xBF)
    (hE0 : lead.toNat = 0xE0 → 0xA0 ≤ b.toNat) (hED : lead.toNat = 0xED → b.toNat ≤ 0x9F)
    (hF0 : lead.toNat = 0xF0 → 0x90 ≤ b.toNat) (hF4 : lead.toNat = 0xF4 → b.toNat ≤ 0x8F) :
    secondOk lead b = true := by
  have hlead : ∀ n : UInt8, (lead == n) = true → lead.toNat = n.toNat := fun n hn => by
    rw [eq_of_beq hn]
  unfold secondOk
  split
  next hn => exact and_le_of_toNat ⟨hE0 (hlead _ hn), h.2⟩
  next =>
    split
    next hn => exact and_le_of_toNat ⟨h.1, hED (hlead _ hn)⟩
    next =>
      split
      next hn => exact and_le_of_toNat ⟨hF0 (hlead _ hn), h.2⟩
      next =>
        split
        next hn => exact and_le_of_toNat ⟨h.1, hF4 (hlead _ hn)⟩
        next => exact and_le_of_toNat h

end

theorem toNat_ofNat {n : Nat} (h : n < 256) : (UInt8.ofNat n).toNat = n := by
  rw [UInt8.toNat_ofNat']
  omega

theorem toNat_tail (n : Nat) : (UInt8.ofNat (n % 64 + 128)).toNat = n % 64 + 128 :=
  toNat_ofNat (by omega)

theorem isContinuation_tail (n : Nat) : isContinuation (UInt8.ofNat (n % 64 + 128)) = true := by
  apply and_le_of_toNat
  rw [toNat_tail]
  exact ⟨by simp, by simp; omega⟩

theorem low6_tail (n : Nat) : low6 (UInt8.ofNat (n % 64 + 128)) = n % 64 := by
  rw [low6, toNat_tail]
  omega

theorem step_encoded (c : Char) (rest : List UInt8) :
    ∃ lead tail, String.utf8EncodeChar c = lead :: tail ∧
      step lead (tail ++ rest) = (some c, rest) := by
  have hchar : ∀ n, n = c.toNat → Char.ofNat n = c := fun n hn => by rw [hn, Char.ofNat_toNat]
  have hvalid : c.toNat < 0xD800 ∨ 0xDFFF < c.toNat ∧ c.toNat < 0x110000 := c.valid
  -- One case for each number of bytes; the bounds of the case rule out the other lead bytes.
  fun_cases String.utf8EncodeChar c with
  | case1 v h =>
    have hlead : (UInt8.ofNat v).toNat = v := toNat_ofNat (by omega)
    refine ⟨_, _, rfl, ?_⟩
    rw [List.nil_append, step_of_one rest (by omega), hlead, hchar v rfl]
  | case2 v h₁ h₂ =>
    have hv : v = c.toNat := rfl
    have hlead : (UInt8.ofNat (v / 64 % 32 + 192)).toNat = v / 64 % 32 + 192 :=
      toNat_ofNat (by omega)
    refine ⟨_, _, rfl, ?_⟩
    rw [List.cons_append, List.nil_append,
      step_of_two rest (by omega) (isContinuation_tail v), hlead, low6_tail, hchar _ (by omega)]
  | case3 v h₁ h₂ h₃ =>
    have hv : v = c.toNat := rfl
    have hlead : (UInt8.ofNat (v / 4096 % 16 + 224)).toNat = v / 4096 % 16 + 224 :=
      toNat_ofNat (by omega)
    have hb := toNat_tail (v / 64)
    refine ⟨_, _, rfl, ?_⟩
    simp only [List.cons_append, List.nil_append]
    rw [step_of_three rest (by omega)
        (secondOk_of_toNat (by omega) (by omega) (by omega) (by omega) (by omega))
        (isContinuation_tail v), hlead, low6_tail, low6_tail, hchar _ (by omega)]
  | case4 v h₁ h₂ h₃ =>
    have hv : v = c.toNat := rfl
    have hlead : (UInt8.ofNat (v / 262144 % 8 + 240)).toNat = v / 262144 % 8 + 240 :=
      toNat_ofNat (by omega)
    have hb := toNat_tail (v / 4096)
    refine ⟨_, _, rfl, ?_⟩
    simp only [List.cons_append, List.nil_append]
    rw [step_of_four rest (by omega)
        (secondOk_of_toNat (by omega) (by omega) (by omega) (by omega) (by omega))
        (isContinuation_tail (v / 64)) (isContinuation_tail v), hlead, low6_tail, low6_tail,
      low6_tail, hchar _ (by omega)]

theorem scan_encoded (cs : List Char) :
    scan (cs.flatMap String.utf8EncodeChar) = cs.map some := by
  induction cs with
  | nil => simp [scan]
  | cons c cs ih =>
    obtain ⟨lead, tail, hencoded, hstep⟩ :=
      step_encoded c (cs.flatMap String.utf8EncodeChar)
    rw [List.flatMap_cons, hencoded, List.cons_append, scan, hstep, ih, List.map_cons]

theorem decode?_encode (s : String) : decode? (encode s) = some s := by
  have hall : ∀ cs : List Char, (cs.map some).mapM id = some cs := fun cs => by
    induction cs with
    | nil => rfl
    | cons c cs ih => simp [ih]
  rw [decode?, encode_eq, scan_encoded, hall, Option.map_some, String.ofList_toList]

theorem div_lt_or_mod_lt {m n : Nat} (h : m < n) :
    m / 64 < n / 64 ∨ m / 64 = n / 64 ∧ m % 64 < n % 64 := by
  omega

/-- No encoded character is the beginning of another one, so what follows does not count. -/
theorem utf8EncodeChar_append_lt {c d : Char} (h : c < d) (xs ys : List UInt8) :
    String.utf8EncodeChar c ++ xs < String.utf8EncodeChar d ++ ys := by
  have hlt : c.toNat < d.toNat := h
  have hd : d.toNat < 0xD800 ∨ 0xDFFF < d.toNat ∧ d.toNat < 0x110000 := d.valid
  -- six bits are compared at a time, the last ones only if all before them agree
  have hlast := div_lt_or_mod_lt hlt
  have hthird : c.toNat / 64 < d.toNat / 64 → _ := div_lt_or_mod_lt
  have hsecond : c.toNat / 64 / 64 < d.toNat / 64 / 64 → _ := div_lt_or_mod_lt
  simp only [Nat.div_div_eq_div_mul, Nat.reduceMul] at hlast hthird hsecond
  have hlead : d.toNat / 262144 < 8 := by omega
  unfold String.utf8EncodeChar
  simp only [Char.toNat] at *
  repeat' split
  all_goals
    simp (disch := omega) only [List.cons_append, List.nil_append, List.cons_lt_cons_iff,
      UInt8.lt_iff_toNat_lt, ← UInt8.toNat_inj, toNat_ofNat]
    omega

theorem encode_lt_of_lt {s t : String} (h : s < t) : encode s < encode t := by
  have hchars : List.Lex (· < ·) s.toList t.toList := String.lt_iff_toList_lt.1 h
  rw [encode_eq, encode_eq]
  generalize s.toList = cs, t.toList = ds at hchars
  induction hchars with
  | @nil d ds =>
    obtain ⟨lead, tail, hd, -⟩ := step_encoded d []
    rw [List.flatMap_cons, hd]
    exact List.nil_lt_cons _ _
  | cons _ ih => exact List.append_left_lt ih
  | rel hlt => exact utf8EncodeChar_append_lt hlt _ _

end HanaInsights.Utf8
