set_option autoImplicit false

/-!
Letter case for words that are known by ASCII spellings. The full Unicode mappings send a few
characters outside ASCII to ASCII letters, so a word may be spelt with them; every character not
listed maps to a text with a character outside ASCII in it, which no such word contains.
-/

namespace HanaInsights.Text

/-- The ligatures, the dotless i, the long s and the sharp s are the characters outside ASCII whose
upper-case form is made of ASCII letters. -/
def upperChar (c : Char) : List Char :=
  if 'a' ≤ c ∧ c ≤ 'z' then [Char.ofNat (c.toNat - 32)]
  else match c with
    | 'ß' => ['S', 'S']
    | 'ı' => ['I']
    | 'ſ' => ['S']
    | 'ﬀ' => ['F', 'F']
    | 'ﬁ' => ['F', 'I']
    | 'ﬂ' => ['F', 'L']
    | 'ﬃ' => ['F', 'F', 'I']
    | 'ﬄ' => ['F', 'F', 'L']
    | 'ﬅ' | 'ﬆ' => ['S', 'T']
    | _ => [c]

def upper (s : String) : List Char := s.toList.flatMap upperChar

/-- The Kelvin sign is the one character outside ASCII with an ASCII lower-case form. -/
def lowerChar (c : Char) : Char :=
  if 'A' ≤ c ∧ c ≤ 'Z' then Char.ofNat (c.toNat + 32)
  else if c = '\u212A' then 'k' else c

def lower (s : String) : List Char := s.toList.map lowerChar

end HanaInsights.Text
