set_option autoImplicit false

/-!
UTF-8 read from bytes, strictly and lossily. Both read with one step, so a text that decodes
strictly decodes lossily to the same characters.
-/

namespace HanaInsights.Utf8

def isContinuation (b : UInt8) : Bool := 0x80 ≤ b && b ≤ 0xBF

/-- What the second byte may be after a lead byte; the narrowed rows keep out overlong forms,
surrogates and values beyond U+10FFFF. -/
def secondOk (lead b : UInt8) : Bool :=
  if lead == 0xE0 then 0xA0 ≤ b && b ≤ 0xBF
  else if lead == 0xED then 0x80 ≤ b && b ≤ 0x9F
  else if lead == 0xF0 then 0x90 ≤ b && b ≤ 0xBF
  else if lead == 0xF4 then 0x80 ≤ b && b ≤ 0x8F
  else isContinuation b

def low6 (b : UInt8) : Nat := b.toNat % 64

/-- One character, or none for the longest run that starts a character and does not finish it,
with what follows. -/
def step (lead : UInt8) (rest : List UInt8) : Option Char × List UInt8 :=
  if lead < 0x80 then (some (Char.ofNat lead.toNat), rest)
  else if 0xC2 ≤ lead && lead ≤ 0xDF then
    match rest with
    | b :: rest' =>
      if isContinuation b then (some (Char.ofNat (lead.toNat % 32 * 64 + low6 b)), rest')
      else (none, rest)
    | [] => (none, [])
  else if 0xE0 ≤ lead && lead ≤ 0xEF then
    match rest with
    | b :: rest' =>
      if secondOk lead b then
        match rest' with
        | c :: rest'' =>
          if isContinuation c then
            (some (Char.ofNat (lead.toNat % 16 * 4096 + low6 b * 64 + low6 c)), rest'')
          else (none, rest')
        | [] => (none, [])
      else (none, rest)
    | [] => (none, [])
  else if 0xF0 ≤ lead && lead ≤ 0xF4 then
    match rest with
    | b :: rest' =>
      if secondOk lead b then
        match rest' with
        | c :: rest'' =>
          if isContinuation c then
            match rest'' with
            | d :: rest''' =>
              if isContinuation d then
                (some (Char.ofNat
                  (lead.toNat % 8 * 262144 + low6 b * 4096 + low6 c * 64 + low6 d)), rest''')
              else (none, rest'')
            | [] => (none, [])
          else (none, rest')
        | [] => (none, [])
      else (none, rest)
    | [] => (none, [])
  else (none, rest)

theorem length_step_le (lead : UInt8) (rest : List UInt8) :
    (step lead rest).2.length ≤ rest.length := by
  unfold step
  repeat' split
  all_goals simp
  all_goals omega

def scan : List UInt8 → List (Option Char)
  | [] => []
  | b :: rest => (step b rest).1 :: scan (step b rest).2
termination_by bytes => bytes.length
decreasing_by
  have := length_step_le b rest
  simp only [List.length_cons]
  omega

def decodeLossy (bytes : List UInt8) : String :=
  String.ofList ((scan bytes).map (·.getD '\uFFFD'))

def decode? (bytes : List UInt8) : Option String :=
  ((scan bytes).mapM id).map String.ofList

def encode (s : String) : List UInt8 := s.toUTF8.toList

end HanaInsights.Utf8
