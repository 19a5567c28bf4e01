import HanaInsights.Json.Printer
import HanaInsights.Json.Reader
import HanaInsights.Proofs.Decimal
set_option autoImplicit false

/-!
JSON text read back. Each piece of a printed value has its law, with what comes after the piece left
open: a string, a number, a list of texts with commas between them. A text may be laid out with any
blanks, of which the printers have two ways.
-/

namespace HanaInsights.Json

def pieceOf (c : Char) : Piece :=
  if c.toNat < 0x20 ∧ c ∉ ['\x08', '\t', '\n', '\x0c', '\r'] then .unit c.toNat else .char c

theorem hexValue?_hexDigit : ∀ n < 16, hexValue? (hexDigit n) = some n := by decide

theorem hex4?_hexDigits {n : Nat} (h : n < 0x20) :
    hex4? '0' '0' (hexDigit (n / 16)) (hexDigit (n % 16)) = some n := by
  have hhigh := hexValue?_hexDigit (n / 16) (by omega)
  have hlow := hexValue?_hexDigit (n % 16) (by omega)
  have hzero : hexValue? '0' = some 0 := rfl
  simp only [hex4?, hhigh, hlow, hzero, Option.bind_eq_bind, Option.bind_some, Option.some.injEq]
  omega

section
variable {c e : Char} (rest : List Char)

theorem pieces?_char (hquote : c ≠ '"') (hslash : c ≠ '\\') (hcontrol : ¬ c.toNat < 0x20) :
    pieces? (c :: rest) = (pieces? rest).map fun (ps, rest) => (.char c :: ps, rest) := by
  rw [pieces?]
  · rw [if_neg (not_or.2 ⟨hcontrol, hslash⟩)]
    cases pieces? rest <;> rfl
  · exact hquote
  · exact fun _ _ _ _ _ h => absurd h hslash
  · exact fun _ _ h => absurd h hslash

theorem pieces?_escape (hunit : e ≠ 'u') (h : simpleEscape? e = some c) :
    pieces? ('\\' :: e :: rest) = (pieces? rest).map fun (ps, rest) => (.char c :: ps, rest) := by
  rw [pieces?]
  · rw [h]
    cases pieces? rest <;> rfl
  · exact fun _ _ _ _ _ h => absurd h hunit

theorem pieces?_unit {n : Nat} (h : n < 0x20) :
    pieces? (['\\', 'u', '0', '0', hexDigit (n / 16), hexDigit (n % 16)] ++ rest) =
      (pieces? rest).map fun (ps, rest) => (.unit n :: ps, rest) := by
  simp only [List.cons_append, List.nil_append, pieces?, hex4?_hexDigits h]
  cases pieces? rest <;> rfl

theorem pieces?_escapeChar (c : Char) :
    pieces? (escapeChar c ++ rest) =
      (pieces? rest).map fun (ps, rest) => (pieceOf c :: ps, rest) := by
  unfold escapeChar
  split
  case h_8 hquote hslash hb ht hn hf hr =>
    split
    next hcontrol =>
      have hpiece : pieceOf c = .unit c.toNat := by
        rw [pieceOf, if_pos]
        simp only [List.mem_cons, List.not_mem_nil, or_false, not_or]
        exact ⟨hcontrol, hb, ht, hn, hf, hr⟩
      rw [hpiece]
      exact pieces?_unit rest hcontrol
    next hcontrol =>
      have hpiece : pieceOf c = .char c := if_neg fun h => hcontrol h.1
      rw [hpiece]
      exact pieces?_char rest hquote hslash hcontrol
  all_goals exact pieces?_escape rest (by decide) rfl

end

theorem pieces?_quoted (cs rest : List Char) :
    pieces? (cs.flatMap escapeChar ++ '"' :: rest) = some (cs.map pieceOf, rest) := by
  induction cs with
  | nil => rfl
  | cons c cs ih =>
    rw [List.flatMap_cons, List.append_assoc, pieces?_escapeChar, ih]
    rfl

theorem chars?_unit {n : Nat} (h : n < 0x20) (ps : List Piece) :
    chars? (.unit n :: ps) = (chars? ps).map (Char.ofNat n :: ·) := by
  have hhigh : isHigh n = false := by
    simp only [isHigh, Bool.and_eq_false_iff, decide_eq_false_iff_not]
    omega
  have hlow : isLow n = false := by
    simp only [isLow, Bool.and_eq_false_iff, decide_eq_false_iff_not]
    omega
  rw [chars?.eq_def]
  split
  next hps => cases hps
  next hps => cases hps
  next hps =>
    cases hps
    simp [hhigh, hlow]
  next hps =>
    cases hps
    simp [hhigh, hlow]

theorem chars?_pieces (cs : List Char) : chars? (cs.map pieceOf) = some cs := by
  induction cs with
  | nil => rfl
  | cons c cs ih =>
    rw [List.map_cons, pieceOf]
    split
    next h => rw [chars?_unit h.1, ih, Char.ofNat_toNat, Option.map_some]
    next => rw [chars?, ih, Option.map_some]

theorem text?_pieces (s : String) : text? (s.toList.map pieceOf) = some s := by
  rw [text?, chars?_pieces, Option.map_some, String.ofList_toList]

/-- What may come after a value: nothing, or a character that no number goes on with. -/
def Apart (rest : List Char) : Prop :=
  ∀ c ∈ rest.head?, isDigit c = false ∧ c ≠ '.' ∧ c ≠ 'e' ∧ c ≠ 'E'

theorem apart_cons {c : Char} (h : c ∈ [',', ']', '}', ' ', '\t', '\n', '\r'])
    (rest : List Char) : Apart (c :: rest) := by
  refine forall_head?_cons ?_ rest
  simp only [List.mem_cons, List.not_mem_nil, or_false] at h
  rcases h with rfl | rfl | rfl | rfl | rfl | rfl | rfl <;> decide

section
variable (instead : Option Json)

theorem wholeDigits?_digits {n : Nat} {rest : List Char} (hrest : Apart rest) :
    wholeDigits? (Nat.toDigits 10 n ++ rest) = some (Nat.toDigits 10 n, rest) := by
  obtain ⟨htake, hdrop⟩ := takeWhile_dropWhile_append
    (fun _ => isDigit_of_mem_toDigits (n := n)) fun c hc => (hrest c hc).1
  obtain ⟨c, ds, hds, -, hzero⟩ := exists_cons_toDigits n
  rw [wholeDigits?, htake, hdrop, hds]
  split
  next h => cases h
  next h => rfl
  next hone h =>
    obtain ⟨rfl, rfl⟩ := List.cons.inj h
    exact absurd (by rw [hzero rfl]) hone
  next => rfl

theorem fraction?_apart {rest : List Char} (hrest : Apart rest) :
    fraction? rest = some ([], rest) := by
  cases rest with
  | nil => rfl
  | cons c cs =>
    rw [fraction?]
    intro cs' hdot
    exact (hrest '.' (by rw [hdot]; rfl)).2.1 rfl

theorem exponent?_apart {rest : List Char} (hrest : Apart rest) :
    exponent? rest = some (none, rest) := by
  cases rest with
  | nil => rfl
  | cons c cs =>
    obtain ⟨-, -, hlower, hupper⟩ := hrest c rfl
    rw [exponent?, if_neg (not_or.2 ⟨hlower, hupper⟩)]

theorem unsignedNumber?_digits {negative : Bool} {n : Nat} {i : Int}
    (hi : integer? negative n = some i) {rest : List Char} (hrest : Apart rest) :
    unsignedNumber? instead negative (Nat.toDigits 10 n ++ rest) = some (.integer i, rest) := by
  simp only [unsignedNumber?, wholeDigits?_digits hrest, fraction?_apart hrest,
    exponent?_apart hrest, digitsValue_toDigits, hi, Option.bind_eq_bind, Option.bind_some]

theorem scalar?_of_digit {c : Char} (hc : isDigit c = true) (cs : List Char) :
    scalar? instead (c :: cs) = unsignedNumber? instead false (c :: cs) := by
  have hne : ∀ d, isDigit d = false → c ≠ d := fun _ => ne_of_class hc
  have hscalar : scalar? instead (c :: cs) = number? instead (c :: cs) := by
    rw [scalar?]
    · exact fun rest h => hne 'n' rfl (List.cons.inj h).1
    · exact fun rest h => hne 't' rfl (List.cons.inj h).1
    · exact fun rest h => hne 'f' rfl (List.cons.inj h).1
    · exact fun rest h => hne '"' rfl (List.cons.inj h).1
  rw [hscalar, number?]
  exact fun rest h => hne '-' rfl (List.cons.inj h).1

theorem scalar?_integerChars {i : Int} (least : -9223372036854775808 ≤ i)
    (greatest : i ≤ 18446744073709551615) {rest : List Char} (hrest : Apart rest) :
    scalar? instead (integerChars i ++ rest) = some (.integer i, rest) := by
  by_cases hi : i < 0
  · have hinteger : integer? true i.natAbs = some i := by
      rw [integer?, if_pos rfl, if_pos (by omega)]
      congr 1
      omega
    rw [integerChars, if_pos hi]
    exact unsignedNumber?_digits instead hinteger hrest
  · have hinteger : integer? false i.natAbs = some i := by
      rw [integer?, if_neg (by decide), if_pos (by omega)]
      congr 1
      omega
    rw [integerChars, if_neg hi, ← unsignedNumber?_digits instead hinteger hrest]
    obtain ⟨c, ds, hds, hc, -⟩ := exists_cons_toDigits i.natAbs
    rw [hds]
    exact scalar?_of_digit instead hc _

theorem scalar?_quoted (s : String) (rest : List Char) :
    scalar? instead (quoted s ++ rest) = some (.string s, rest) := by
  have hquoted : quoted s ++ rest = '"' :: (s.toList.flatMap escapeChar ++ '"' :: rest) := by
    simp [quoted]
  rw [hquoted, scalar?, pieces?_quoted]
  simp [text?_pieces]

end

/-- The values that are read as they are written: integers of 64 bits, no fractions, and arrays and
objects inside each other no deeper than can be read. -/
inductive Held : Nat → Json → Prop
  | null {depth : Nat} : Held depth .null
  | bool {depth : Nat} (b : Bool) : Held depth (.bool b)
  | integer {depth : Nat} {i : Int} (least : -9223372036854775808 ≤ i)
    (greatest : i ≤ 18446744073709551615) : Held depth (.integer i)
  | string {depth : Nat} (s : String) : Held depth (.string s)
  | array {depth : Nat} {items : List Json} (h : ∀ x ∈ items, Held depth x) :
    Held (depth + 1) (.array items)
  | object {depth : Nat} {members : List (String × Json)} (h : ∀ m ∈ members, Held depth m.2) :
    Held (depth + 1) (.object members)

def Blank (cs : List Char) : Prop := ∀ c ∈ cs, isSpace c = true

theorem skipSpace_append {cs : List Char} (h : Blank cs) (rest : List Char) :
    skipSpace (cs ++ rest) = skipSpace rest :=
  List.dropWhile_append_of_pos h

theorem Blank.apart {cs : List Char} (h : Blank cs) {rest : List Char} (hrest : Apart rest) :
    Apart (cs ++ rest) := by
  cases cs with
  | nil => exact hrest
  | cons c cs =>
    have hc := h c List.mem_cons_self
    simp only [isSpace, Bool.or_eq_true, beq_iff_eq] at hc
    refine apart_cons ?_ _
    rcases hc with ((rfl | rfl) | rfl) | rfl <;> decide

/-- A text is read as a value, whatever comes after it. No blank stands in front of it, and it
cannot be taken for the end of an array. -/
structure Reads (instead : Option Json) (depth : Nat) (text : List Char) (v : Json) : Prop where
  value : ∀ rest, Apart rest → valueAt instead depth (text ++ rest) = some (v, rest)
  starts : ∃ c cs, text = c :: cs ∧ isSpace c = false ∧ c ≠ ']'

/-- Texts with commas between them. Each has a gap in front, and another stands behind the last. -/
def listed (gap last : List Char) : List (List Char) → List Char
  | [] => []
  | t :: ts => gap ++ t ++ (ts.flatMap fun t => ',' :: gap ++ t) ++ last

def memberText (space : List Char) (text : Json → List Char) (m : String × Json) : List Char :=
  quoted m.1 ++ ':' :: space ++ text m.2

section
variable {instead : Option Json} {depth : Nat}

theorem reads_of_scalar {text : List Char} {v : Json}
    (hread : ∀ rest, Apart rest → scalar? instead (text ++ rest) = some (v, rest))
    (hstarts : ∃ c cs, text = c :: cs ∧ isSpace c = false ∧ c ∉ ['[', '{', ']']) :
    Reads instead depth text v := by
  obtain ⟨c, cs, rfl, hspace, hc⟩ := hstarts
  simp only [List.mem_cons, List.not_mem_nil, or_false, not_or] at hc
  refine ⟨fun rest hrest => ?_, c, cs, rfl, hspace, hc.2.2⟩
  rw [← hread rest hrest, List.cons_append, valueAt]
  · exact fun _ _ _ h => hc.1 (List.cons.inj h).1
  · exact fun _ _ _ h => hc.2.1 (List.cons.inj h).1
  · exact fun _ _ h => hc.1 (List.cons.inj h).1
  · exact fun _ _ h => hc.2.1 (List.cons.inj h).1

theorem reads_null : Reads instead depth ['n', 'u', 'l', 'l'] .null :=
  reads_of_scalar (fun _ _ => rfl) ⟨_, _, rfl, rfl, by decide⟩

theorem reads_true : Reads instead depth ['t', 'r', 'u', 'e'] (.bool true) :=
  reads_of_scalar (fun _ _ => rfl) ⟨_, _, rfl, rfl, by decide⟩

theorem reads_false : Reads instead depth ['f', 'a', 'l', 's', 'e'] (.bool false) :=
  reads_of_scalar (fun _ _ => rfl) ⟨_, _, rfl, rfl, by decide⟩

theorem reads_string (s : String) : Reads instead depth (quoted s) (.string s) :=
  reads_of_scalar (fun rest _ => scalar?_quoted instead s rest) ⟨_, _, rfl, rfl, by decide⟩

theorem reads_integer {i : Int} (least : -9223372036854775808 ≤ i)
    (greatest : i ≤ 18446744073709551615) :
    Reads instead depth (integerChars i) (.integer i) := by
  apply reads_of_scalar fun rest hrest => scalar?_integerChars instead least greatest hrest
  by_cases hi : i < 0
  · exact ⟨'-', _, by rw [integerChars, if_pos hi], rfl, by decide⟩
  · obtain ⟨c, ds, hds, hc, -⟩ := exists_cons_toDigits i.natAbs
    have hne : ∀ d, isDigit d = false → c ≠ d := fun _ => ne_of_class hc
    refine ⟨c, ds, by rw [integerChars, if_neg hi, hds], ?_, ?_⟩
    · simp [isSpace, hne ' ' rfl, hne '\t' rfl, hne '\n' rfl, hne '\r' rfl]
    · simp [hne '[' rfl, hne '{' rfl, hne ']' rfl]

theorem Reads.skipSpace {text : List Char} {v : Json} (h : Reads instead depth text v)
    (rest : List Char) : skipSpace (text ++ rest) = text ++ rest := by
  obtain ⟨c, cs, rfl, hspace, -⟩ := h.starts
  simp [Json.skipSpace, hspace]

/-! ## Arrays and objects -/

def following (gap last : List Char) (close : Char) (rest : List Char) :
    List (List Char) → List Char
  | [] => last ++ close :: rest
  | t :: ts => ',' :: (gap ++ (t ++ following gap last close rest ts))

section
variable {gap last : List Char} {close : Char}

theorem listed_cons (t : List Char) (ts : List (List Char)) (rest : List Char) :
    listed gap last (t :: ts) ++ close :: rest =
      gap ++ (t ++ following gap last close rest ts) := by
  have hts : (ts.flatMap fun t => ',' :: gap ++ t) ++ (last ++ close :: rest) =
      following gap last close rest ts := by
    induction ts with
    | nil => rfl
    | cons t ts ih => simp [following, ← ih]
  simp [listed, ← hts]

theorem length_lt_following (ts : List (List Char)) (rest : List Char) :
    ts.length < (following gap last close rest ts).length := by
  induction ts with
  | nil =>
    simp only [following, List.length_nil, List.length_append, List.length_cons]
    omega
  | cons t ts ih =>
    simp only [following, List.length_cons, List.length_append]
    omega

theorem apart_following (hlast : Blank last) (hclose : close ∈ [']', '}'])
    (ts : List (List Char)) (rest : List Char) : Apart (following gap last close rest ts) := by
  cases ts with
  | nil =>
    refine hlast.apart (apart_cons ?_ rest)
    simp only [List.mem_cons, List.not_mem_nil, or_false] at hclose
    rcases hclose with rfl | rfl <;> decide
  | cons t ts => exact apart_cons (by decide) _

theorem skipSpace_closing (hlast : Blank last) (hclose : isSpace close = false)
    (rest : List Char) : skipSpace (last ++ close :: rest) = close :: rest := by
  rw [skipSpace_append hlast]
  simp [skipSpace, hclose]

theorem skipSpace_comma (rest : List Char) : skipSpace (',' :: rest) = ',' :: rest := rfl

end

section
variable {gap last space : List Char} {text : Json → List Char} (hgap : Blank gap)
  (hlast : Blank last) (hspace : Blank space)

section
include hgap hlast

theorem itemsAfter_following {xs : List Json} (h : ∀ x ∈ xs, Reads instead depth (text x) x)
    {fuel : Nat} (hfuel : xs.length < fuel) (rest : List Char) :
    itemsAfter (valueAt instead depth) fuel (following gap last ']' rest (xs.map text)) =
      some (xs, rest) := by
  induction xs generalizing fuel with
  | nil =>
    obtain ⟨fuel, rfl⟩ : ∃ k, fuel = k + 1 := ⟨fuel - 1, by omega⟩
    rw [List.map_nil, following, itemsAfter, skipSpace_closing hlast (by decide)]
    rfl
  | cons x xs ih =>
    obtain ⟨fuel, rfl⟩ : ∃ k, fuel = k + 1 := ⟨fuel - 1, by omega⟩
    have hx := h x List.mem_cons_self
    have hlength : xs.length < fuel := by
      simp only [List.length_cons] at hfuel
      omega
    have hxs := ih (fun y hy => h y (List.mem_cons_of_mem _ hy)) hlength
    have hafter : Apart (following gap last ']' rest (xs.map text)) :=
      apart_following hlast (by decide) _ _
    have hvalue := hx.value _ hafter
    rw [List.map_cons, following, itemsAfter, skipSpace_comma]
    simp only [skipSpace_append hgap, hx.skipSpace, hvalue, hxs, Option.bind_eq_bind,
      Option.bind_some]

theorem items_listed {xs : List Json} (h : ∀ x ∈ xs, Reads instead depth (text x) x)
    (rest : List Char) :
    items (valueAt instead depth) (listed gap last (xs.map text) ++ ']' :: rest) =
      some (xs, rest) := by
  cases xs with
  | nil => rfl
  | cons x xs =>
    have hx := h x List.mem_cons_self
    have hlength : xs.length < (following gap last ']' rest (xs.map text)).length := by
      simpa using length_lt_following (xs.map text) rest
    have hxs := itemsAfter_following hgap hlast (fun y hy => h y (List.mem_cons_of_mem _ hy))
      (Nat.lt_succ_of_lt hlength) rest
    have hafter : Apart (following gap last ']' rest (xs.map text)) :=
      apart_following hlast (by decide) _ _
    have hvalue := hx.value _ hafter
    obtain ⟨c, cs, hstarts, -, hclose⟩ := hx.starts
    rw [List.map_cons, listed_cons, items, skipSpace_append hgap, hx.skipSpace]
    split
    next hbracket =>
      rw [hstarts] at hbracket
      exact absurd (List.cons.inj hbracket).1 hclose
    next => simp only [hvalue, hxs, Option.bind_eq_bind, Option.bind_some]

theorem reads_array {xs : List Json} (h : ∀ x ∈ xs, Reads instead depth (text x) x) :
    Reads instead (depth + 1) ('[' :: listed gap last (xs.map text) ++ [']']) (.array xs) := by
  refine ⟨fun rest _ => ?_, _, _, rfl, rfl, by decide⟩
  have hitems := items_listed hgap hlast h rest
  rw [List.append_assoc, List.cons_append, List.singleton_append, valueAt, hitems, Option.map_some]

end

theorem skipSpace_memberText (m : String × Json) (rest : List Char) :
    skipSpace (memberText space text m ++ rest) = memberText space text m ++ rest := rfl

section
include hspace

theorem memberAt_text {m : String × Json} (h : Reads instead depth (text m.2) m.2)
    {rest : List Char} (hrest : Apart rest) :
    memberAt (valueAt instead depth) (memberText space text m ++ rest) =
      some ((some m.1, m.2), rest) := by
  have hquoted : memberText space text m ++ rest =
      '"' :: (m.1.toList.flatMap escapeChar ++ '"' :: ':' :: (space ++ (text m.2 ++ rest))) := by
    simp [memberText, quoted]
  have hcolon : skipSpace (':' :: (space ++ (text m.2 ++ rest))) =
      ':' :: (space ++ (text m.2 ++ rest)) := rfl
  rw [hquoted, memberAt, pieces?_quoted]
  simp only [Option.bind_eq_bind, Option.bind_some, hcolon, skipSpace_append hspace, h.skipSpace,
    h.value rest hrest, text?_pieces]

include hgap hlast

theorem membersAfter_following {ms : List (String × Json)}
    (h : ∀ m ∈ ms, Reads instead depth (text m.2) m.2) {fuel : Nat} (hfuel : ms.length < fuel)
    (rest : List Char) :
    membersAfter (valueAt instead depth) fuel
      (following gap last '}' rest (ms.map (memberText space text))) =
        some (ms.map fun m => (some m.1, m.2), rest) := by
  induction ms generalizing fuel with
  | nil =>
    obtain ⟨fuel, rfl⟩ : ∃ k, fuel = k + 1 := ⟨fuel - 1, by omega⟩
    rw [List.map_nil, following, membersAfter, skipSpace_closing hlast (by decide)]
    rfl
  | cons m ms ih =>
    obtain ⟨fuel, rfl⟩ : ∃ k, fuel = k + 1 := ⟨fuel - 1, by omega⟩
    have hlength : ms.length < fuel := by
      simp only [List.length_cons] at hfuel
      omega
    have hms := ih (fun y hy => h y (List.mem_cons_of_mem _ hy)) hlength
    -- What follows a member starts with a comma or the closing brace, which no number goes on with.
    have hafter : Apart (following gap last '}' rest (ms.map (memberText space text))) :=
      apart_following hlast (by decide) _ _
    have hm := memberAt_text hspace (h m List.mem_cons_self) hafter
    rw [List.map_cons, following, membersAfter, skipSpace_comma]
    simp only [skipSpace_append hgap, skipSpace_memberText, hm, hms, Option.bind_eq_bind,
      Option.bind_some, List.map_cons]

theorem members_listed {ms : List (String × Json)}
    (h : ∀ m ∈ ms, Reads instead depth (text m.2) m.2) (rest : List Char) :
    members (valueAt instead depth) (listed gap last (ms.map (memberText space text)) ++
      '}' :: rest) = some (ms.map fun m => (some m.1, m.2), rest) := by
  cases ms with
  | nil => rfl
  | cons m ms =>
    have hlength : ms.length <
        (following gap last '}' rest (ms.map (memberText space text))).length := by
      simpa using length_lt_following (ms.map (memberText space text)) rest
    have hms := membersAfter_following hgap hlast hspace
      (fun y hy => h y (List.mem_cons_of_mem _ hy)) (Nat.lt_succ_of_lt hlength) rest
    have hafter : Apart (following gap last '}' rest (ms.map (memberText space text))) :=
      apart_following hlast (by decide) _ _
    have hm := memberAt_text hspace (h m List.mem_cons_self) hafter
    rw [List.map_cons, listed_cons, members, skipSpace_append hgap, skipSpace_memberText]
    split
    next hbrace => cases hbrace
    next => simp only [hm, hms, Option.bind_eq_bind, Option.bind_some, List.map_cons]

end

theorem object?_named (ms : List (String × Json)) :
    object? (ms.map fun m => (some m.1, m.2)) = some (.object ms) := by
  have hnamed : (ms.map fun m => (some m.1, m.2)).mapM
      (fun (p : Option String × Json) => p.1.map fun name => (name, p.2)) = some ms := by
    induction ms with
    | nil => rfl
    | cons m ms ih => simp [ih]
  rw [object?]
  exact congrArg (Option.bind · fun named => some (Json.object named)) hnamed

include hgap hlast hspace

theorem reads_object {ms : List (String × Json)}
    (h : ∀ m ∈ ms, Reads instead depth (text m.2) m.2) :
    Reads instead (depth + 1) ('{' :: listed gap last (ms.map (memberText space text)) ++ ['}'])
      (.object ms) := by
  refine ⟨fun rest _ => ?_, _, _, rfl, rfl, by decide⟩
  have hmembers := members_listed hgap hlast hspace h rest
  have hobject := object?_named ms
  rw [List.append_assoc, List.cons_append, List.singleton_append, valueAt, hmembers]
  simp only [Option.bind_eq_bind, Option.bind_some, hobject, Option.orElse_some]

end
end

theorem compactItems_cons (x : Json) (rest : List Json) :
    compactItems (x :: rest) =
      compactChars x ++ (rest.map compactChars).flatMap fun t => ',' :: t := by
  induction rest generalizing x with
  | nil => simp [compactItems]
  | cons y rest ih => rw [compactItems, ih y]; rfl

theorem compactMembers_cons (m : String × Json) (rest : List (String × Json)) :
    compactMembers (m :: rest) = memberText [] compactChars m ++
      (rest.map (memberText [] compactChars)).flatMap fun t => ',' :: t := by
  induction rest generalizing m with
  | nil => simp [compactMembers, memberText]
  | cons y rest ih =>
    rw [compactMembers, ih y]
    simp [memberText]

theorem compactChars_array (items : List Json) :
    compactChars (.array items) = '[' :: listed [] [] (items.map compactChars) ++ [']'] := by
  cases items with
  | nil => rfl
  | cons x rest => simp [compactChars, compactItems_cons, listed]

theorem compactChars_object (ms : List (String × Json)) :
    compactChars (.object ms) =
      '{' :: listed [] [] (ms.map (memberText [] compactChars)) ++ ['}'] := by
  cases ms with
  | nil => rfl
  | cons m rest => simp [compactChars, compactMembers_cons, listed]

theorem prettyItems_cons (depth : Nat) (x : Json) (rest : List Json) :
    prettyItems depth (x :: rest) = prettyChars depth x ++
      (rest.map (prettyChars depth)).flatMap fun t => ',' :: newline depth ++ t := by
  induction rest generalizing x with
  | nil => simp [prettyItems]
  | cons y rest ih =>
    rw [prettyItems, ih y]
    simp

theorem prettyMembers_cons (depth : Nat) (m : String × Json) (rest : List (String × Json)) :
    prettyMembers depth (m :: rest) = memberText [' '] (prettyChars depth) m ++
      (rest.map (memberText [' '] (prettyChars depth))).flatMap
        fun t => ',' :: newline depth ++ t := by
  induction rest generalizing m with
  | nil => simp [prettyMembers, memberText]
  | cons y rest ih =>
    rw [prettyMembers, ih y]
    simp [memberText]

theorem prettyChars_array (depth : Nat) (items : List Json) :
    prettyChars depth (.array items) = '[' :: listed (newline (depth + 1)) (newline depth)
      (items.map (prettyChars (depth + 1))) ++ [']'] := by
  cases items with
  | nil => simp [prettyChars, listed]
  | cons x rest => simp [prettyChars, prettyItems_cons, listed]

theorem prettyChars_object (depth : Nat) (ms : List (String × Json)) :
    prettyChars depth (.object ms) = '{' :: listed (newline (depth + 1)) (newline depth)
      (ms.map (memberText [' '] (prettyChars (depth + 1)))) ++ ['}'] := by
  cases ms with
  | nil => simp [prettyChars, listed]
  | cons m rest => simp [prettyChars, prettyMembers_cons, listed]

theorem blank_nil : Blank [] := fun _ h => by cases h

theorem blank_space : Blank [' '] := by simp [Blank, isSpace]

theorem blank_newline (depth : Nat) : Blank (newline depth) := by
  intro c hc
  rcases List.mem_cons.1 hc with rfl | hc
  · rfl
  · rw [List.eq_of_mem_replicate hc]
    rfl

section
variable {depth : Nat} {v : Json} (instead : Option Json)

theorem reads_compactChars (h : Held depth v) : Reads instead depth v.compactChars v := by
  induction h with
  | null => simpa only [compactChars] using reads_null
  | bool b =>
    cases b
    · simpa only [compactChars] using reads_false
    · simpa only [compactChars] using reads_true
  | integer least greatest => simpa only [compactChars] using reads_integer least greatest
  | string s => simpa only [compactChars] using reads_string s
  | array h ih =>
    rw [compactChars_array]
    exact reads_array blank_nil blank_nil ih
  | object h ih =>
    rw [compactChars_object]
    exact reads_object blank_nil blank_nil blank_nil ih

theorem reads_prettyChars (h : Held depth v) (indent : Nat) :
    Reads instead depth (v.prettyChars indent) v := by
  induction h generalizing indent with
  | null => simpa only [prettyChars] using reads_null
  | bool b =>
    cases b
    · simpa only [prettyChars] using reads_false
    · simpa only [prettyChars] using reads_true
  | integer least greatest => simpa only [prettyChars] using reads_integer least greatest
  | string s => simpa only [prettyChars] using reads_string s
  | array h ih =>
    rw [prettyChars_array]
    exact reads_array (blank_newline _) (blank_newline _) fun x hx => ih x hx _
  | object h ih =>
    rw [prettyChars_object]
    exact reads_object (blank_newline _) (blank_newline _) blank_space fun m hm => ih m hm _

theorem readChars?_of_reads {text : List Char} (h : Reads instead depthLimit text v) :
    readChars? instead text = some v := by
  have hskip := h.skipSpace []
  have hvalue := h.value [] fun c hc => by cases hc
  rw [List.append_nil] at hskip hvalue
  rw [readChars?, hskip, hvalue]
  rfl

end

theorem read?_compact {v : Json} (h : Held depthLimit v) : read? v.compact = some v := by
  rw [read?, compact, String.toList_ofList]
  exact readChars?_of_reads none (reads_compactChars none h)

theorem read?_pretty {v : Json} (h : Held depthLimit v) : read? v.pretty = some v := by
  rw [read?, pretty, String.toList_ofList]
  exact readChars?_of_reads none (reads_prettyChars none h 0)

theorem readPart?_pretty {v : Json} (h : Held depthLimit v) : readPart? v.pretty = some v := by
  rw [readPart?, pretty, String.toList_ofList]
  exact readChars?_of_reads (some .null) (reads_prettyChars (some .null) h 0)

end HanaInsights.Json
