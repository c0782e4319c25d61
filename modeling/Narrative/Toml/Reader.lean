import Narrative.Scan
import Narrative.Decimal
import Narrative.Toml.Date

set_option autoImplicit false

/-!
# Reading TOML text

The grammar of TOML 1.0. Arrays and inline tables nest at most `maxNesting` levels
and a dotted key has at most as many parts; integers fit 64 bits; a float above the
largest double is refused.
-/

namespace Narrative.Toml

/-- The levels of arrays and inline tables in a value, and the parts of a key. -/
def maxNesting : Nat := 79

/-- Blanks inside a line. -/
def isSpace (c : Char) : Bool := c == ' ' || c == '\t'

/-- Characters that a comment or a literal string may hold. -/
def isPlain (c : Char) : Bool := c == '\t' || (0x20 ≤ c.toNat && c.toNat != 0x7F)

/-- Drops blanks inside a line. -/
def spaces : Scan Unit := Scan.skip isSpace

/-- Reads the end of a line. -/
def newline : Scan Unit
  | '\n' :: rest => some ((), rest)
  | '\r' :: '\n' :: rest => some ((), rest)
  | _ => none

/-- Reads a comment. -/
def comment : Scan Unit := do
  Scan.char '#'
  Scan.skip isPlain

/-- Reads the end of a line or of the text. -/
def lineEnd : Scan Unit
  | [] => some ((), [])
  | s => newline s

/-- Reads what may follow a statement on its line. -/
def lineTail : Scan Unit := do
  spaces
  if (← Scan.peek?) = some '#' then comment
  lineEnd

/-- Reads blanks, comments and line ends. -/
def blankLines : Scan Unit := do
  let _ ← Scan.many (do
    match ← Scan.peek? with
    | some '#' => do comment; newline
    | some c => if isSpace c then Scan.char c else newline
    | none => Scan.fail)
  return ()

/-! ## Strings -/

/-- The character of a one-letter escape. -/
def escaped? : Char → Option Char
  | 'b' => some '\x08'
  | 't' => some '\t'
  | 'n' => some '\n'
  | 'f' => some '\x0c'
  | 'r' => some '\r'
  | '"' => some '"'
  | '\\' => some '\\'
  | _ => none

/-- Reads the character of a hexadecimal escape; surrogates are not characters. -/
def scalar (digits : Nat) : Scan Char := do
  let n ← Scan.hexDigits digits 0
  if n < 0xD800 || (0xDFFF < n && n < 0x110000) then return Char.ofNat n else Scan.fail

/-- Reads an escape. -/
def escape : Scan Char
  | '\\' :: 'u' :: rest => scalar 4 rest
  | '\\' :: 'U' :: rest => scalar 8 rest
  | '\\' :: c :: rest => (escaped? c).map (·, rest)
  | _ => none

/-- Reads one character of a string with escapes. -/
def basicChar : Scan Char
  | '\\' :: rest => escape ('\\' :: rest)
  | c :: rest => if c != '"' && isPlain c then some (c, rest) else none
  | [] => none

/-- Reads a string with escapes on one line. -/
def basicString : Scan String := do
  Scan.char '"'
  let cs ← Scan.many basicChar
  Scan.char '"'
  return String.ofList cs

/-- Reads a string without escapes on one line. -/
def literalString : Scan String := do
  Scan.char '\''
  let cs ← Scan.run fun c => c != '\'' && isPlain c
  Scan.char '\''
  return String.ofList cs

/-- Reads a run of at most two quotes inside a string over several lines. -/
def innerQuotes (quote : Char) : Scan (List Char) := fun s =>
  let (quotes, rest) := s.span (· == quote)
  if quotes.isEmpty || 2 < quotes.length then none else some (quotes, rest)

/-- Reads the three quotes that end a string over several lines, with up to two quotes of the
string before them. -/
def closingQuotes (quote : Char) : Scan (List Char) := fun s =>
  let quotes := s.takeWhile (· == quote)
  if quotes.length < 3 then none
  else
    -- a longer run ends the string after its fifth quote
    let own := min (quotes.length - 3) 2
    some (quotes.take own, s.drop (own + 3))

/-- Reads the end of a line inside a string; it counts as a line feed. -/
def innerNewline : Scan (List Char) := do
  newline
  return ['\n']

/-- Reads a backslash before a line end, with all blanks and line ends after it. -/
def foldedLine : Scan (List Char) := do
  Scan.char '\\'
  spaces
  newline
  let _ ← Scan.many (do
    match ← Scan.peek? with
    | some c => if isSpace c then Scan.char c else newline
    | none => Scan.fail)
  return []

/-- Reads a string over several lines, given what it may hold. -/
def multilineString (quote : Char) (part : Scan (List Char)) : Scan String := do
  Scan.char quote
  Scan.char quote
  Scan.char quote
  newline <|> pure ()
  let parts ← Scan.many (innerNewline <|> innerQuotes quote <|> part)
  let last ← closingQuotes quote
  return String.ofList (parts.flatten ++ last)

/-- Reads any string. -/
def anyString : Scan String :=
  multilineString '"' (foldedLine <|> List.singleton <$> basicChar) <|>
  basicString <|>
  multilineString '\'' (List.singleton <$> Scan.satisfy fun c => c != '\'' && isPlain c) <|>
  literalString

/-! ## Keys -/

/-- Characters of a bare key. -/
def isBare (c : Char) : Bool := c.isAlphanum || c == '_' || c == '-'

/-- Reads one part of a key. -/
def simpleKey : Scan String := do
  match ← Scan.peek? with
  | some '"' => basicString
  | some '\'' => literalString
  | _ => do
      let cs ← Scan.run isBare
      if cs.isEmpty then Scan.fail
      return String.ofList cs

/-- Reads a dotted key: its path and its last part. -/
def dottedKey : Scan (List String × String) := do
  spaces
  let first ← simpleKey
  spaces
  let others ← Scan.many (do
    Scan.char '.'
    spaces
    let part ← simpleKey
    spaces
    return part)
  let parts := first :: others
  if maxNesting < parts.length then Scan.fail
  return (parts.dropLast, parts.getLast (List.cons_ne_nil _ _))

/-! ## Numbers -/

/-- Reads digits of a base, with single underscores between them. -/
def digitRun (base : Nat) : Scan (List Nat) := do
  let digit : Scan Nat := fun
    | c :: rest => (Scan.digitValue? base c).map (·, rest)
    | [] => none
  let first ← digit
  let others ← Scan.many (digit <|> do Scan.char '_'; digit)
  return first :: others

/-- Reads an optional sign, and says whether it is a minus. -/
def sign : Scan Bool := do
  if ← Scan.optional '-' then return true
  let _ ← Scan.optional '+'
  return false

/-- Reads the digits of a decimal integer, which has no leading zero. -/
def decimalDigits : Scan (List Nat) := do
  if ← Scan.optional '0' then return [0]
  digitRun 10

/-- The number that digits of a base spell. -/
def ofDigits (base : Nat) (ds : List Nat) : Nat := ds.foldl (fun n d => n * base + d) 0

/-- The integer value of a number, if it fits 64 bits. -/
def integer? (n : Int) : Option Toml :=
  if Int64.minValue.toInt ≤ n ∧ n ≤ Int64.maxValue.toInt then some (.integer n) else none

/-- Reads an integer with a base mark. -/
def basedInteger : Scan Toml := do
  Scan.char '0'
  let base ← (do Scan.char 'x'; pure 16) <|> (do Scan.char 'o'; pure 8) <|>
    (do Scan.char 'b'; pure 2)
  StateT.lift (integer? (ofDigits base (← digitRun base)))

/-- Reads a decimal integer. -/
def decimalInteger : Scan Toml := do
  let negative ← sign
  let n := ofDigits 10 (← decimalDigits)
  StateT.lift (integer? (if negative then -(n : Int) else n))

/-- Whether a numeral is at least half a unit above the largest double. -/
def overflows (whole fraction : List Nat) (exponent : Int) : Bool :=
  let digits := (whole ++ fraction).dropWhile (· == 0)
  let power := exponent - fraction.length
  let magnitude := digits.length + power
  -- far from the limit the number of digits decides
  if digits.isEmpty || magnitude < 300 then false
  else if 310 < magnitude then true
  else
    let n := ofDigits 10 digits
    let limit := (1 <<< 1024) - (1 <<< 970)
    if 0 ≤ power then limit ≤ n * Nat.pow 10 power.toNat else limit * Nat.pow 10 power.natAbs ≤ n

/-- Reads the power of ten of a float. -/
def floatExponent : Scan Int := do
  if !(← Scan.optional 'e') then Scan.char 'E'
  let negative ← sign
  let n := ofDigits 10 (← digitRun 10)
  return if negative then -(n : Int) else n

/-- Reads a float written in digits. Only positive ones can be too large. -/
def floatNumber : Scan Toml := do
  let negative ← sign
  let whole ← decimalDigits
  let fraction ← if ← Scan.optional '.' then digitRun 10 else pure []
  let exponent ← some <$> floatExponent <|> pure none
  if fraction.isEmpty && exponent.isNone then Scan.fail
  if !negative && overflows whole fraction (exponent.getD 0) then Scan.fail
  return .float

/-- Reads an infinity or a value that is no number. -/
def specialFloat : Scan Toml := do
  let _ ← sign
  Scan.text "inf" <|> Scan.text "nan"
  return .float

/-! ## Values and documents -/

/-- Reads a value that is neither array nor inline table. -/
def atom : Scan Toml := do
  match ← Scan.peek? with
  | some '"' | some '\'' => .string <$> anyString
  | some 't' => do Scan.text "true"; pure (.boolean true)
  | some 'f' => do Scan.text "false"; pure (.boolean false)
  | _ => writtenDate <|> floatNumber <|> specialFloat <|> basedInteger <|> decimalInteger

/-- Reads the items of an array after its bracket; a comma may follow the last. -/
def arrayItems (value : Scan Toml) : Scan (List Toml) := do
  blankLines
  if ← Scan.optional ']' then return []
  let first ← value
  blankLines
  let others ← Scan.many (do
    Scan.char ','
    blankLines
    let item ← value
    blankLines
    return item)
  if ← Scan.optional ',' then blankLines
  Scan.char ']'
  return first :: others

/-- Reads the assignment of a value to a key. -/
def assignment (value : Scan Toml) : Scan (List String × String × Toml) := do
  let (path, key) ← dottedKey
  Scan.char '='
  spaces
  return (path, key, ← value)

/-- Reads the entries of an inline table after its brace. -/
def inlineEntries (value : Scan Toml) : Scan (List (List String × String × Toml)) := do
  spaces
  Scan.commaList '\x7d' (do
    let entry ← assignment value
    spaces
    return entry)

/-- Reads a value that nests at most a number of levels. -/
def value : Nat → Scan Toml
  | 0 => atom
  | levels + 1 => do
      match ← Scan.peek? with
      | some '[' => do
          Scan.char '['
          .array <$> arrayItems (value levels)
      | some '\x7b' => do
          Scan.char '\x7b'
          StateT.lift (ofAssignments (← inlineEntries (value levels)))
      | _ => atom

/-- Reads a header. -/
def header : Scan Statement := do
  Scan.char '['
  let isArray ← Scan.optional '['
  let (path, key) ← dottedKey
  Scan.char ']'
  if isArray then
    Scan.char ']'
    return .arrayHeader path key
  else return .header path key

/-- Reads a line with its end; most lines hold a statement. -/
def line : Scan (Option Statement) := do
  spaces
  match ← Scan.peek? with
  | none => Scan.fail
  | some '#' | some '\n' | some '\r' => do lineTail; pure none
  | some '[' => do
      let h ← header
      lineTail
      pure (some h)
  | some _ => do
      let (path, key, v) ← assignment (value maxNesting)
      lineTail
      pure (some (.assign path key v))

/-- Reads all lines of a document. -/
def lines : Scan (List Statement) := do
  let _ ← Scan.optional '\ufeff'
  let ls ← Scan.many line
  spaces
  return ls.filterMap id

/-- The document that a text spells. -/
def parse? (s : String) : Option Toml :=
  (Scan.whole? lines s.toList).bind ofStatements

end Narrative.Toml
