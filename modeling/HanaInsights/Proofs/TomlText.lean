import HanaInsights.Proofs.Decimal
import HanaInsights.Toml.Printer
import HanaInsights.Toml.Reader
set_option autoImplicit false

namespace HanaInsights.Toml

/-- A character as it stands where escapes are understood. A line end does not come right after the
backslash. -/
inductive Escaped (c : Char) : List Char → Prop
  | escape {text : List Char} (read : ∀ rest, escape? (text ++ rest) = some (c, rest))
    (stays : ∀ rest, lineContinuation? (text ++ rest) = none) : Escaped c ('\\' :: text)
  | plain (hplain : isPlain c = true) (hslash : c ≠ '\\') : Escaped c [c]

theorem hexValue?_upperHexDigit : ∀ n < 16, Json.hexValue? (upperHexDigit n) = some n := by decide

theorem unicode?_upperHexDigits {c : Char} (h : c.toNat < 256) (rest : List Char) :
    unicode? 4
      ('0' :: '0' :: upperHexDigit (c.toNat / 16) :: upperHexDigit (c.toNat % 16) :: rest) =
        some (c, rest) := by
  have hhigh := hexValue?_upperHexDigit (c.toNat / 16) (by omega)
  have hlow := hexValue?_upperHexDigit (c.toNat % 16) (by omega)
  have hzero : Json.hexValue? '0' = some 0 := rfl
  have hn : ((0 * 16 + 0) * 16 + 0) * 16 + c.toNat / 16 = c.toNat / 16 := by omega
  have hn' : c.toNat / 16 * 16 + c.toNat % 16 = c.toNat := by omega
  have hdigits : hexDigits? 4 0
      ('0' :: '0' :: upperHexDigit (c.toNat / 16) :: upperHexDigit (c.toNat % 16) :: rest) =
        some (c.toNat, rest) := by
    simp only [hexDigits?, hhigh, hlow, hzero, hn, hn']
  rw [unicode?, hdigits]
  exact dif_pos c.valid

theorem escaped_escapeControl (c : Char) : Escaped c (escapeControl c) := by
  unfold escapeControl
  split
  case h_7 hb ht hn hf hr hslash =>
    split
    next hcontrol =>
      exact .escape (fun rest => unicode?_upperHexDigits (by omega) rest) fun _ => rfl
    next hcontrol =>
      refine .plain ?_ hslash
      simp only [not_or] at hcontrol
      simp [isPlain]
      omega
  all_goals exact .escape (fun _ => rfl) fun _ => rfl

theorem isPlain_of_not_isControl {c : Char} (h : isControl c = false) (hfeed : c ≠ '\n') :
    isPlain c = true := by
  by_cases htab : c = '\t'
  · simp [isPlain, htab]
  · simp [isControl, htab, hfeed] at h
    simp [isPlain, h]

section
variable {c d : Char} {text : List Char}

theorem Escaped.exists_cons (h : Escaped c text) :
    ∃ d tail, text = d :: tail ∧ isPlain d = true ∧ (d = '\\' ∨ d = c) := by
  cases h with
  | escape read stays => exact ⟨_, _, rfl, rfl, .inl rfl⟩
  | plain hplain hslash => exact ⟨_, _, rfl, hplain, .inr rfl⟩

theorem exists_cons_escapeBasic (c : Char) :
    ∃ d tail, escapeBasic c = d :: tail ∧ d ≠ '"' := by
  by_cases hquote : c = '"'
  · exact ⟨'\\', ['"'], by rw [escapeBasic, if_pos hquote], by decide⟩
  · obtain ⟨d, tail, htext, -, hd⟩ := (escaped_escapeControl c).exists_cons
    refine ⟨d, tail, by rw [escapeBasic, if_neg hquote, htext], ?_⟩
    rcases hd with rfl | rfl
    · decide
    · exact hquote

theorem escaped_escapeBasic (c : Char) : Escaped c (escapeBasic c) := by
  unfold escapeBasic
  split
  next hquote =>
    subst hquote
    exact .escape (fun _ => rfl) fun _ => rfl
  next => exact escaped_escapeControl c

end

theorem basicBody_escapeBasic (c : Char) (fuel : Nat) (rest : List Char) :
    basicBody (fuel + 1) (escapeBasic c ++ rest) = cons? c (basicBody fuel rest) := by
  have hescaped := escaped_escapeBasic c
  obtain ⟨d, tail, htext, hquote⟩ := exists_cons_escapeBasic c
  generalize escapeBasic c = text at hescaped htext
  cases hescaped with
  | escape read stays => simp only [List.cons_append, basicBody, read]
  | plain hplain hslash =>
    obtain rfl : c = d := (List.cons.inj htext).1
    rw [List.cons_append, List.nil_append, basicBody, if_pos hplain]
    · exact hquote
    · exact hslash

theorem basicBody_flatMap {cs rest : List Char} {fuel : Nat}
    (hfuel : (cs.flatMap escapeBasic ++ '"' :: rest).length ≤ fuel) :
    basicBody fuel (cs.flatMap escapeBasic ++ '"' :: rest) = some (cs, rest) := by
  induction cs generalizing fuel with
  | nil =>
    obtain ⟨fuel, rfl⟩ : ∃ k, fuel = k + 1 := ⟨fuel - 1, by simp at hfuel; omega⟩
    rfl
  | cons c cs ih =>
    obtain ⟨d, tail, htext, -⟩ := exists_cons_escapeBasic c
    rw [List.flatMap_cons, List.append_assoc] at hfuel ⊢
    obtain ⟨fuel, rfl⟩ : ∃ k, fuel = k + 1 := ⟨fuel - 1, by simp [htext] at hfuel; omega⟩
    rw [basicBody_escapeBasic, ih, cons?]
    simp only [htext, List.cons_append, List.length_cons, List.length_append] at hfuel ⊢
    omega

theorem literalBody_append {cs : List Char} (hplain : ∀ c ∈ cs, isPlain c = true)
    (hquote : '\'' ∉ cs) (rest : List Char) :
    literalBody (cs ++ '\'' :: rest) = some (cs, rest) := by
  induction cs with
  | nil => rfl
  | cons c cs ih =>
    rw [List.forall_mem_cons] at hplain
    rw [List.mem_cons, not_or] at hquote
    rw [List.cons_append, literalBody, if_pos hplain.1, ih hplain.2 hquote.2, cons?]
    exact Ne.symm hquote.1

/-! ## Texts on several lines -/

def Calm (quote : Char) : List Char → Prop
  | [] => True
  | c :: cs => ((c :: cs).takeWhile (· == quote)).length < 3 ∧ Calm quote cs

/-- The closing quotes follow a text at once, so quotes at the end of a text are in one row with
them. -/
theorem closingQuotes?_append {quote : Char} {cs rest : List Char}
    (hrun : (cs.takeWhile (· == quote)).length < 3) (hrest : ∀ c ∈ rest.head?, c ≠ quote) :
    closingQuotes? quote (cs ++ quote :: quote :: quote :: rest) =
      if cs.all (· == quote) then some (cs, rest) else none := by
  have hstop : rest.takeWhile (· == quote) = [] := by
    cases rest with
    | nil => rfl
    | cons c rest => simp [hrest c rfl]
  have hthree : (quote :: quote :: quote :: rest).takeWhile (· == quote) =
      [quote, quote, quote] := by
    simp [hstop]
  by_cases hall : cs.all (· == quote) = true
  · have hcs : cs = List.replicate cs.length quote :=
      List.eq_replicate_iff.2 ⟨rfl, fun c hc => by simpa using List.all_eq_true.1 hall c hc⟩
    have htake : cs.takeWhile (· == quote) = cs := by
      rw [hcs, List.takeWhile_replicate]
      simp
    have hlength : ((cs ++ quote :: quote :: quote :: rest).takeWhile (· == quote)).length =
        cs.length + 3 := by
      rw [List.takeWhile_append, if_pos (by rw [htake]), hthree, List.length_append]
      rfl
    have hmin : min (cs.length + 3 - 3) 2 = cs.length := by
      rw [htake] at hrun
      omega
    have hdrop : (cs ++ quote :: quote :: quote :: rest).drop (cs.length + 3) = rest := by
      rw [List.drop_length_add_append]
      rfl
    simp only [closingQuotes?, hlength, hmin, hdrop, ← hcs, hall, if_true]
    rw [if_neg (by omega)]
  · have hne : (cs.takeWhile (· == quote)).length ≠ cs.length := by
      intro hlength
      apply hall
      rw [← List.IsPrefix.eq_of_length (List.takeWhile_prefix _) hlength]
      exact List.all_takeWhile
    simp only [closingQuotes?, List.takeWhile_append, if_neg hne, if_pos hrun, if_neg hall]

theorem closingQuotes?_nil {quote : Char} {rest : List Char}
    (hrest : ∀ c ∈ rest.head?, c ≠ quote) :
    closingQuotes? quote (quote :: quote :: quote :: rest) = some ([], rest) := by
  have hempty : (([] : List Char).takeWhile (· == quote)).length < 3 := Nat.zero_lt_succ 2
  exact closingQuotes?_append hempty hrest

theorem multilineLiteralBody_append {cs rest : List Char} {fuel : Nat} (hcalm : Calm '\'' cs)
    (hplain : ∀ c ∈ cs, c ≠ '\n' → isPlain c = true) (hrest : ∀ c ∈ rest.head?, c ≠ '\'')
    (hfuel : cs.length < fuel) :
    multilineLiteralBody fuel (cs ++ '\'' :: '\'' :: '\'' :: rest) = some (cs, rest) := by
  induction cs generalizing fuel with
  | nil =>
    obtain ⟨fuel, rfl⟩ : ∃ k, fuel = k + 1 := ⟨fuel - 1, by omega⟩
    rw [List.nil_append, multilineLiteralBody, closingQuotes?_nil hrest]
  | cons c cs ih =>
    obtain ⟨fuel, rfl⟩ : ∃ k, fuel = k + 1 := ⟨fuel - 1, by omega⟩
    have hlength : cs.length < fuel := by
      simp only [List.length_cons] at hfuel
      omega
    have hcs := ih hcalm.2 (fun d hd => hplain d (List.mem_cons_of_mem _ hd)) hlength
    by_cases hquote : c = '\''
    · subst hquote
      have hclosing := closingQuotes?_append hcalm.1 hrest
      rw [List.cons_append] at hclosing ⊢
      rw [multilineLiteralBody, hclosing]
      by_cases hall : ('\'' :: cs).all (· == '\'') = true
      · rw [if_pos hall]
      · rw [if_neg hall, hcs]
        rfl
    by_cases hfeed : c = '\n'
    · subst hfeed
      rw [List.cons_append, multilineLiteralBody, hcs]
      rfl
    have hc := hplain c List.mem_cons_self hfeed
    rw [List.cons_append, multilineLiteralBody, if_pos hc, hcs]
    · rfl
    · exact hquote
    · exact hfeed
    · rintro rest' rfl
      cases hc

theorem exists_cons_escapeMultiline (quotes : Nat) (c : Char) (cs : List Char) :
    ∃ d tail, escapeMultiline quotes (c :: cs) = d :: tail ∧ (d = '"' → c = '"') ∧
      (d = '\n' ∧ c = '\n' ∨ isPlain d = true) := by
  obtain ⟨d, tail, htext, hplain, hd⟩ := (escaped_escapeControl c).exists_cons
  rw [escapeMultiline]
  split
  next hquote => split <;> exact ⟨_, _, rfl, fun _ => hquote, .inr rfl⟩
  next =>
    split
    next hfeed => exact ⟨'\n', _, rfl, fun h => absurd h (by decide), .inl ⟨rfl, hfeed⟩⟩
    next =>
      refine ⟨d, _, by rw [htext, List.cons_append], ?_, .inr hplain⟩
      rcases hd with rfl | rfl
      · exact fun h => absurd h (by decide)
      · exact id

theorem length_le_escapeMultiline (quotes : Nat) (cs : List Char) :
    cs.length ≤ (escapeMultiline quotes cs).length := by
  induction cs generalizing quotes with
  | nil => exact Nat.zero_le _
  | cons c cs ih =>
    have hzero := ih 0
    have hnext := ih (quotes + 1)
    obtain ⟨d, tail, htext, -⟩ := (escaped_escapeControl c).exists_cons
    rw [escapeMultiline]
    split
    next => split <;> simp only [List.length_cons] <;> omega
    next =>
      split
      next => simpa using hzero
      next =>
        simp only [htext, List.cons_append, List.length_cons, List.length_append]
        omega

theorem run_escapeMultiline {quotes : Nat} (h : quotes ≤ 2) (cs : List Char) :
    ((escapeMultiline quotes cs).takeWhile (· == '"')).length + quotes ≤ 2 := by
  induction cs generalizing quotes with
  | nil => simpa [escapeMultiline] using h
  | cons c cs ih =>
    by_cases hquote : c = '"'
    · subst hquote
      by_cases htwo : quotes = 2
      · simp [escapeMultiline, htwo]
      · have hnext : quotes + 1 ≤ 2 := by omega
        have hrest := ih hnext
        rw [escapeMultiline, if_pos rfl, if_neg htwo, List.takeWhile_cons_of_pos (by simp),
          List.length_cons]
        omega
    · obtain ⟨d, tail, htext, hd, -⟩ := exists_cons_escapeMultiline quotes c cs
      have hd : d ≠ '"' := fun h => hquote (hd h)
      simpa [htext, hd] using h

theorem eq_of_all_quotes {quotes : Nat} {cs : List Char}
    (h : (escapeMultiline quotes cs).all (· == '"') = true) : escapeMultiline quotes cs = cs := by
  induction cs generalizing quotes with
  | nil => rfl
  | cons c cs ih =>
    by_cases hquote : c = '"'
    · subst hquote
      by_cases htwo : quotes = 2
      · simp [escapeMultiline, htwo] at h
      · rw [escapeMultiline, if_pos rfl, if_neg htwo] at h ⊢
        rw [ih (by simpa using h)]
    · obtain ⟨d, tail, htext, hd, -⟩ := exists_cons_escapeMultiline quotes c cs
      have hd : d ≠ '"' := fun h => hquote (hd h)
      simp [htext, hd] at h

theorem multilineBasicBody_escapeControl {c : Char} (hquote : c ≠ '"') (hfeed : c ≠ '\n')
    (fuel : Nat) (rest : List Char) :
    multilineBasicBody (fuel + 1) (escapeControl c ++ rest) =
      cons? c (multilineBasicBody fuel rest) := by
  have hescaped := escaped_escapeControl c
  generalize escapeControl c = text at hescaped
  cases hescaped with
  | escape read stays => simp only [List.cons_append, multilineBasicBody, stays, read]
  | plain hplain hslash =>
    rw [List.cons_append, List.nil_append, multilineBasicBody, if_pos hplain]
    · exact hquote
    · exact hslash
    · exact hfeed
    · rintro rest' rfl
      cases hplain

theorem multilineBasicBody_escapeMultiline {quotes : Nat} (hquotes : quotes ≤ 2)
    {cs rest : List Char} {fuel : Nat} (hrest : ∀ c ∈ rest.head?, c ≠ '"')
    (hfuel : cs.length < fuel) :
    multilineBasicBody fuel (escapeMultiline quotes cs ++ '"' :: '"' :: '"' :: rest) =
      some (cs, rest) := by
  induction cs generalizing quotes fuel with
  | nil =>
    obtain ⟨fuel, rfl⟩ : ∃ k, fuel = k + 1 := ⟨fuel - 1, by omega⟩
    rw [escapeMultiline, List.nil_append, multilineBasicBody, closingQuotes?_nil hrest]
  | cons c cs ih =>
    obtain ⟨fuel, rfl⟩ : ∃ k, fuel = k + 1 := ⟨fuel - 1, by omega⟩
    have hlength : cs.length < fuel := by
      simp only [List.length_cons] at hfuel
      omega
    -- `quotes` of them stand in a row before `c`; a third one would close the text.
    by_cases hquote : c = '"'
    · subst hquote
      by_cases htwo : quotes = 2
      · have hcs := ih (Nat.zero_le 2) hlength
        have hstays : ∀ rest, lineContinuation? ('"' :: rest) = none := fun _ => rfl
        rw [escapeMultiline, if_pos rfl, if_pos htwo, List.cons_append, List.cons_append]
        simp only [multilineBasicBody, hstays, escape?, hcs]
        rfl
      · have hnext : quotes + 1 ≤ 2 := by omega
        have hcs := ih hnext hlength
        have hrun := run_escapeMultiline hquotes ('"' :: cs)
        rw [escapeMultiline, if_pos rfl, if_neg htwo] at hrun ⊢
        have hclosing := closingQuotes?_append (Nat.lt_succ_of_le (Nat.le_of_add_right_le hrun))
          hrest
        rw [List.cons_append] at hclosing ⊢
        rw [multilineBasicBody, hclosing]
        by_cases hall : ('"' :: escapeMultiline (quotes + 1) cs).all (· == '"') = true
        · rw [if_pos hall, eq_of_all_quotes (by simpa using hall)]
        · rw [if_neg hall, hcs]
          rfl
    · have hcs := ih (Nat.zero_le 2) hlength
      by_cases hfeed : c = '\n'
      · subst hfeed
        rw [escapeMultiline, if_neg hquote, if_pos rfl, List.cons_append, multilineBasicBody, hcs]
        rfl
      · rw [escapeMultiline, if_neg hquote, if_neg hfeed, List.append_assoc,
          multilineBasicBody_escapeControl hquote hfeed, hcs]
        rfl

theorem le_longestRun (quote : Char) (best current : Nat) (cs : List Char) :
    best ≤ longestRun quote best current cs ∧
      current + (cs.takeWhile (· == quote)).length ≤ longestRun quote best current cs := by
  induction cs generalizing best current with
  | nil =>
    simp only [longestRun, List.takeWhile_nil, List.length_nil]
    omega
  | cons c cs ih =>
    by_cases hquote : c = quote
    · obtain ⟨hbest, hcurrent⟩ := ih best (current + 1)
      rw [longestRun, if_pos hquote, List.takeWhile_cons_of_pos (by simpa using hquote),
        List.length_cons]
      omega
    · obtain ⟨hbest, -⟩ := ih (max best current) 0
      rw [longestRun, if_neg hquote, List.takeWhile_cons_of_neg (by simpa using hquote),
        List.length_nil]
      omega

theorem calm_of_longestRun {quote : Char} {best current : Nat} {cs : List Char}
    (h : longestRun quote best current cs < 3) : Calm quote cs := by
  induction cs generalizing best current with
  | nil => trivial
  | cons c cs ih =>
    have hle := (le_longestRun quote best current (c :: cs)).2
    refine ⟨by omega, ?_⟩
    rw [longestRun] at h
    split at h
    next => exact ih h
    next => exact ih h

theorem afterOpening_opening (cs body : List Char)
    (h : '\n' ∉ cs → ∀ c ∈ body.head?, isPlain c = true) :
    afterOpening (opening cs ++ body) = body := by
  by_cases hfeed : '\n' ∈ cs
  · simp [opening, hfeed, afterOpening]
  · have hhead := h hfeed
    have hopening : opening cs = [] := by simp [opening, hfeed]
    rw [hopening, List.nil_append]
    cases body with
    | nil => rfl
    | cons c cs =>
      have hc := hhead c rfl
      rw [afterOpening]
      · rintro rest' hbody
        rw [(List.cons.inj hbody).1] at hc
        cases hc
      · rintro rest' hbody
        rw [(List.cons.inj hbody).1] at hc
        cases hc

theorem basicChars_append (cs rest : List Char) :
    basicChars cs ++ rest = '"' :: (cs.flatMap escapeBasic ++ '"' :: rest) := by
  simp [basicChars]

theorem literalChars_append (cs rest : List Char) :
    literalChars cs ++ rest = '\'' :: (cs ++ '\'' :: rest) := by
  simp [literalChars]

section
variable {cs rest : List Char} (hrest : ∀ c ∈ rest.head?, c ≠ '"' ∧ c ≠ '\'')
include hrest

theorem string?_basicChars :
    string? (basicChars cs ++ rest) = some (String.ofList cs, rest) := by
  rw [basicChars_append, string?]
  · rw [basicBody_flatMap (Nat.le_succ _)]
    rfl
  · intro rest' hquotes
    cases cs with
    | nil =>
      have hhead : rest.head? = some '"' := by simp_all
      exact (hrest '"' hhead).1 rfl
    | cons c cs =>
      obtain ⟨d, tail, hcons, hd⟩ := exists_cons_escapeBasic c
      rw [List.flatMap_cons, hcons] at hquotes
      exact hd (List.cons.inj hquotes).1

theorem string?_literalChars (hplain : ∀ c ∈ cs, isPlain c = true) (hquote : '\'' ∉ cs) :
    string? (literalChars cs ++ rest) = some (String.ofList cs, rest) := by
  rw [literalChars_append, string?]
  · rw [literalBody_append hplain hquote]
    rfl
  · intro rest' hquotes
    cases cs with
    | nil =>
      have hhead : rest.head? = some '\'' := by simp_all
      exact (hrest '\'' hhead).2 rfl
    | cons c cs => exact hquote (by simp_all)

theorem string?_multilineBasicChars :
    string? (multilineBasicChars cs ++ rest) = some (String.ofList cs, rest) := by
  have htext : multilineBasicChars cs ++ rest = '"' :: '"' :: '"' ::
      (opening cs ++ (escapeMultiline 0 cs ++ '"' :: '"' :: '"' :: rest)) := by
    simp [multilineBasicChars]
  have hopening := afterOpening_opening cs (escapeMultiline 0 cs ++ '"' :: '"' :: '"' :: rest)
    fun hfeed => by
      cases cs with
      | nil => exact forall_head?_cons (by rfl) _
      | cons c cs =>
        obtain ⟨d, tail, hcons, -, hd⟩ := exists_cons_escapeMultiline 0 c cs
        rw [hcons]
        exact forall_head?_cons (hd.resolve_left fun h => hfeed (h.2 ▸ List.mem_cons_self)) _
  have hlength := length_le_escapeMultiline 0 cs
  rw [htext, string?, hopening, multilineBasicBody_escapeMultiline (Nat.zero_le 2)
    fun c hc => (hrest c hc).1]
  · rfl
  · simp only [List.length_append]
    omega

theorem string?_multilineLiteralChars (hcalm : Calm '\'' cs)
    (hplain : ∀ c ∈ cs, c ≠ '\n' → isPlain c = true) :
    string? (multilineLiteralChars cs ++ rest) = some (String.ofList cs, rest) := by
  have htext : multilineLiteralChars cs ++ rest =
      '\'' :: '\'' :: '\'' :: (opening cs ++ (cs ++ '\'' :: '\'' :: '\'' :: rest)) := by
    simp [multilineLiteralChars]
  have hopening := afterOpening_opening cs (cs ++ '\'' :: '\'' :: '\'' :: rest)
    fun hfeed => by
      cases cs with
      | nil => exact forall_head?_cons (by rfl) _
      | cons c cs =>
        have hc := hplain c List.mem_cons_self fun h => hfeed (h ▸ List.mem_cons_self)
        exact forall_head?_cons hc _
  rw [htext, string?, hopening, multilineLiteralBody_append hcalm hplain fun c hc => (hrest c hc).2]
  · rfl
  · simp only [List.length_append, List.length_cons]
    omega

theorem string?_stringChars (cs : List Char) :
    string? (stringChars cs ++ rest) = some (String.ofList cs, rest) := by
  unfold stringChars
  dsimp only
  split
  next => exact string?_basicChars hrest
  next =>
    split
    next h =>
      simp only [Bool.and_eq_true, Bool.not_eq_true', List.any_eq_false, Bool.not_eq_true,
        List.contains_eq_mem, decide_eq_false_iff_not] at h
      obtain ⟨⟨hcontrol, hfeed⟩, hquote⟩ := h
      refine string?_literalChars hrest (fun c hc => ?_) hquote
      exact isPlain_of_not_isControl (hcontrol c hc) fun h => hfeed (h ▸ hc)
    next =>
      split
      next => exact string?_multilineBasicChars hrest
      next =>
        split
        next h =>
          simp only [Bool.and_eq_true, Bool.not_eq_true', List.any_eq_false, Bool.not_eq_true,
            decide_eq_true_eq] at h
          exact string?_multilineLiteralChars hrest (calm_of_longestRun h.2) fun c hc =>
            isPlain_of_not_isControl (h.1 c hc)
        next =>
          split
          next => exact string?_multilineBasicChars hrest
          next => exact string?_basicChars hrest

end

/-! ## Keys -/

section
variable {cs rest : List Char}

theorem simpleKey?_bare (hne : cs ≠ []) (hbare : ∀ c ∈ cs, isBareKeyChar c = true)
    (hrest : ∀ c ∈ rest.head?, isBareKeyChar c = false) :
    simpleKey? (cs ++ rest) = some (String.ofList cs, rest) := by
  obtain ⟨htake, hdrop⟩ := takeWhile_dropWhile_append hbare hrest
  obtain ⟨c, tail, rfl⟩ := List.exists_cons_of_ne_nil hne
  have hother : ∀ d, isBareKeyChar d = false → c ≠ d := fun _ =>
    ne_of_class (hbare c List.mem_cons_self)
  rw [simpleKey?, htake, hdrop]
  · rfl
  · exact fun _ h => hother '"' rfl (List.cons.inj h).1
  · exact fun _ h => hother '\'' rfl (List.cons.inj h).1

theorem simpleKey?_basicChars :
    simpleKey? (basicChars cs ++ rest) = some (String.ofList cs, rest) := by
  rw [basicChars_append, simpleKey?, basicBody_flatMap (Nat.le_succ _)]
  rfl

theorem simpleKey?_literalChars (hplain : ∀ c ∈ cs, isPlain c = true) (hquote : '\'' ∉ cs) :
    simpleKey? (literalChars cs ++ rest) = some (String.ofList cs, rest) := by
  rw [literalChars_append, simpleKey?, literalBody_append hplain hquote]
  rfl

end

theorem simpleKey?_keyChars {rest : List Char} (hrest : ∀ c ∈ rest.head?, isBareKeyChar c = false)
    (cs : List Char) : simpleKey? (keyChars cs ++ rest) = some (String.ofList cs, rest) := by
  unfold keyChars
  dsimp only
  split
  next h =>
    simp only [Bool.and_eq_true, Bool.not_eq_true', List.isEmpty_eq_false_iff,
      List.all_eq_true] at h
    exact simpleKey?_bare h.1 h.2 hrest
  next =>
    split
    next => exact simpleKey?_basicChars
    next =>
      split
      next h =>
        simp only [Bool.and_eq_true, Bool.not_eq_true', Bool.or_eq_false_iff, List.any_eq_false,
          Bool.not_eq_true, List.contains_eq_mem, decide_eq_false_iff_not] at h
        obtain ⟨⟨hcontrol, hfeed⟩, hquote⟩ := h
        exact simpleKey?_literalChars (fun c hc =>
          isPlain_of_not_isControl (hcontrol c hc) fun h => hfeed (h ▸ hc)) hquote
      next => exact simpleKey?_basicChars

theorem exists_cons_keyChars (cs : List Char) :
    ∃ c tail, keyChars cs = c :: tail ∧ (c = '"' ∨ c = '\'' ∨ isBareKeyChar c = true) := by
  unfold keyChars
  dsimp only
  split
  next h =>
    simp only [Bool.and_eq_true, Bool.not_eq_true', List.all_eq_true] at h
    cases cs with
    | nil => simp at h
    | cons c cs => exact ⟨c, cs, rfl, .inr (.inr (h.2 c List.mem_cons_self))⟩
  next =>
    split
    next => exact ⟨_, _, rfl, .inl rfl⟩
    next => split <;> simp [literalChars, basicChars]

theorem head_keyChars (cs : List Char) :
    ∃ c tail, keyChars cs = c :: tail ∧ isSpace c = false ∧
      c ∉ ['[', '#', '\n', '\r', '\uFEFF'] := by
  obtain ⟨c, tail, htext, hc⟩ := exists_cons_keyChars cs
  refine ⟨c, tail, htext, ?_⟩
  rcases hc with rfl | rfl | hc
  · decide
  · decide
  · have hne : ∀ d, isBareKeyChar d = false → c ≠ d := fun _ => ne_of_class hc
    simp [isSpace, hne ' ' rfl, hne '\t' rfl, hne '[' rfl, hne '#' rfl, hne '\n' rfl, hne '\r' rfl,
      hne '\uFEFF' rfl]

theorem skipSpace_of_head {c : Char} (h : isSpace c = false) (cs : List Char) :
    skipSpace (c :: cs) = c :: cs := by
  simp [skipSpace, h]

theorem skipSpace_keyChars (cs rest : List Char) :
    skipSpace (keyChars cs ++ rest) = keyChars cs ++ rest := by
  obtain ⟨c, tail, htext, hspace, -⟩ := head_keyChars cs
  rw [htext, List.cons_append, skipSpace_of_head hspace]

theorem keyParts_pathChars {path : List String} {rest : List Char} (hpath : path ≠ [])
    (hbare : ∀ c ∈ rest.head?, isBareKeyChar c = false)
    (hdot : ∀ tail, skipSpace rest ≠ '.' :: tail) {fuel : Nat} (hfuel : path.length ≤ fuel) :
    keyParts fuel (pathChars path ++ rest) = some (path, skipSpace rest) := by
  induction path generalizing fuel with
  | nil => exact absurd rfl hpath
  | cons key path ih =>
    obtain ⟨fuel, rfl⟩ : ∃ k, fuel = k + 1 := ⟨fuel - 1, by simp at hfuel; omega⟩
    cases path with
    | nil =>
      rw [pathChars, keyParts, skipSpace_keyChars, simpleKey?_keyChars hbare,
        String.ofList_toList]
      dsimp only
      split
      next h => exact absurd h (hdot _)
      next => rfl
    | cons key' path =>
      have hlength : (key' :: path).length ≤ fuel := Nat.le_of_succ_le_succ hfuel
      have hrest := ih (List.cons_ne_nil _ _) hlength
      have hbare : ∀ c ∈ ('.' :: (pathChars (key' :: path) ++ rest)).head?,
          isBareKeyChar c = false := forall_head?_cons (by rfl) _
      have hkey := simpleKey?_keyChars hbare key.toList
      rw [pathChars, List.append_assoc, List.cons_append, keyParts, skipSpace_keyChars, hkey,
        String.ofList_toList]
      simp only [skipSpace_of_head (c := '.') rfl, hrest]
      exact List.cons_ne_nil _ _

theorem length_le_pathChars (path : List String) : path.length ≤ (pathChars path).length := by
  induction path with
  | nil => exact Nat.zero_le _
  | cons key path ih =>
    obtain ⟨c, tail, htext, -⟩ := exists_cons_keyChars key.toList
    cases path with
    | nil => simp [pathChars, htext]
    | cons key' path =>
      simp only [pathChars, htext, List.length_append, List.length_cons] at ih ⊢
      omega

theorem key?_pathChars {path : List String} {rest : List Char} (hpath : path ≠ [])
    (hdepth : path.length < depthLimit) (hbare : ∀ c ∈ rest.head?, isBareKeyChar c = false)
    (hdot : ∀ tail, skipSpace rest ≠ '.' :: tail) :
    key? (pathChars path ++ rest) = some (path, skipSpace rest) := by
  have hlength := length_le_pathChars path
  rw [key?, keyParts_pathChars hpath hbare hdot (by simp only [List.length_append]; omega)]
  exact if_pos hdepth

end HanaInsights.Toml
