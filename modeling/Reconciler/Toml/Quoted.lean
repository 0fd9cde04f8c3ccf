import Reconciler.Toml.Chars

/-! # Quoted text

Text stands between double quotes, with escapes, or between single quotes, as it is. Three quotes open
text of several lines, which may hold up to two quotes in a row, also right before the three that close
it.
-/

namespace Reconciler.Toml

/-- The character whose code point is written in exactly `width` hexadecimal digits. -/
def charOfHex? (width : Nat) (digits : List Char) : Option Char :=
  if digits.length == width && digits.all isHexDigit && (numberOf 16 digits).isValidChar then
    some (Char.ofNat (numberOf 16 digits))
  else none

/-- The character that an escape stands for; the backslash is already gone. -/
def escape : Reader Char
  | 'b' :: rest => some ('\x08', rest)
  | 't' :: rest => some ('\t', rest)
  | 'n' :: rest => some ('\n', rest)
  | 'f' :: rest => some ('\x0c', rest)
  | 'r' :: rest => some ('\r', rest)
  | '"' :: rest => some ('"', rest)
  | '\\' :: rest => some ('\\', rest)
  | 'u' :: rest => (charOfHex? 4 (rest.take 4)).map fun char => (char, rest.drop 4)
  | 'U' :: rest => (charOfHex? 8 (rest.take 8)).map fun char => (char, rest.drop 8)
  | _ => none

private theorem escape_length {text rest : List Char} {char : Char} (read : escape text = some (char, rest)) :
    rest.length ≤ text.length := by
  unfold escape at read
  split at read
  case h_8 | h_9 =>
    obtain ⟨_, _, same⟩ := Option.map_eq_some_iff.1 read
    obtain ⟨_, rfl⟩ := Prod.mk.inj same
    simp only [List.length_drop, List.length_cons]
    omega
  case h_10 => cases read
  all_goals
    obtain ⟨_, rfl⟩ := Prod.mk.inj (Option.some.inj read)
    simp

/-- Text on one line with escapes; the opening quote is already gone. -/
def basicText (text : List Char) : Option (List Char × List Char) :=
  match text with
  | [] => none
  | '"' :: rest => some ([], rest)
  | '\\' :: rest =>
      match read : escape rest with
      | none => none
      | some (char, after) => do
          have := escape_length read
          let (content, rest) ← basicText after
          return (char :: content, rest)
  | char :: rest =>
      if isPrintable char then do
        let (content, rest) ← basicText rest
        return (char :: content, rest)
      else none
termination_by text.length
decreasing_by all_goals (simp only [List.length_cons]; omega)

/-- Text on one line without escapes; the opening quote is already gone. -/
def literalText : Reader (List Char)
  | [] => none
  | '\x27' :: rest => some ([], rest)
  | char :: rest =>
      if isPrintable char then do
        let (content, rest) ← literalText rest
        return (char :: content, rest)
      else none

/-- After three closing quotes: up to two more of them belong to the text. -/
def afterQuotes (quote : Char) : List Char → List Char
  | first :: second :: rest =>
      if first = quote ∧ second = quote then rest
      else if first = quote then second :: rest
      else first :: second :: rest
  | [only] => if only = quote then [] else [only]
  | [] => []

/-- What follows a text of several lines without escapes. -/
def afterLiteralLines? : List Char → Option (List Char)
  | '\x27' :: '\x27' :: '\x27' :: rest => some (afterQuotes '\x27' rest)
  | '\r' :: '\n' :: rest => afterLiteralLines? rest
  | char :: rest =>
      if char == '\n' || isPrintable char then afterLiteralLines? rest else none
  | [] => none

/-- Blanks and line ends after a backslash at the end of a line do not count. -/
def skipBreak : List Char → List Char
  | '\r' :: '\n' :: rest => skipBreak rest
  | char :: rest => if char == '\n' || isBlank char then skipBreak rest else char :: rest
  | [] => []

private theorem skipBreak_length (text : List Char) : (skipBreak text).length ≤ text.length := by
  fun_induction skipBreak text <;> simp_all <;> omega

/-- What follows a text of several lines with escapes. -/
def afterBasicLines? (text : List Char) : Option (List Char) :=
  match text with
  | [] => none
  | '"' :: '"' :: '"' :: rest => some (afterQuotes '"' rest)
  | '\r' :: '\n' :: rest => afterBasicLines? rest
  | '\\' :: rest =>
      if (afterLineEnd? (skipBlanks rest)).isSome then
        have := skipBreak_length rest
        afterBasicLines? (skipBreak rest)
      else
        match read : escape rest with
        | none => none
        | some (_, after) =>
            have := escape_length read
            afterBasicLines? after
  | char :: rest =>
      if char == '\n' || isPrintable char then afterBasicLines? rest else none
termination_by text.length
decreasing_by all_goals (simp only [List.length_cons]; omega)

/-- What follows a quoted text of either kind. -/
def afterText? : List Char → Option (List Char)
  | '"' :: '"' :: '"' :: rest => afterBasicLines? rest
  | '\x27' :: '\x27' :: '\x27' :: rest => afterLiteralLines? rest
  | '"' :: rest => (basicText rest).map Prod.snd
  | '\x27' :: rest => (literalText rest).map Prod.snd
  | _ => none

end Reconciler.Toml
