import Narrative.Scan
import Narrative.Json

set_option autoImplicit false

/-!
# Reading JSON text

The grammar of JSON without extensions: one value with blanks around it, no
trailing comma, no leading zero, no raw control character in a string, no
byte-order mark. Nesting is unlimited here; whoever looks at a value counts the
levels.
-/

namespace Narrative.Json

/-- One element of a string body: a character, or a UTF-16 unit given by its escape. -/
inductive Piece where
  | char (c : Char)
  | unit (n : Nat)

/-- Whether a UTF-16 unit opens a surrogate pair. -/
def isHighSurrogate (n : Nat) : Bool := 0xD800 ≤ n && n ≤ 0xDBFF

/-- Whether a UTF-16 unit closes a surrogate pair. -/
def isLowSurrogate (n : Nat) : Bool := 0xDC00 ≤ n && n ≤ 0xDFFF

/-- The characters of a string body; nothing if a surrogate stands alone. -/
def joinPieces : List Piece → Option (List Char)
  | [] => some []
  | .char c :: rest => (joinPieces rest).map (c :: ·)
  | .unit high :: .unit low :: rest =>
      if isHighSurrogate high then
        if isLowSurrogate low then
          let code := 0x10000 + (high - 0xD800) * 0x400 + (low - 0xDC00)
          (joinPieces rest).map (Char.ofNat code :: ·)
        else none
      else if isLowSurrogate high then none
      else (joinPieces (.unit low :: rest)).map (Char.ofNat high :: ·)
  | .unit n :: rest =>
      if isHighSurrogate n || isLowSurrogate n then none
      else (joinPieces rest).map (Char.ofNat n :: ·)

/-- The character of a one-letter escape. -/
def escaped? : Char → Option Char
  | '"' => some '"'
  | '\\' => some '\\'
  | '/' => some '/'
  | 'b' => some '\x08'
  | 'f' => some '\x0c'
  | 'n' => some '\n'
  | 'r' => some '\r'
  | 't' => some '\t'
  | _ => none

/-- Reads one element of a string body. -/
def piece : Scan Piece
  | '\\' :: 'u' :: rest => (Scan.hexDigits 4 0 rest).map fun (n, r) => (.unit n, r)
  | '\\' :: c :: rest => (escaped? c).map fun e => (.char e, rest)
  | c :: rest => if c == '"' || c == '\\' || c.toNat < 0x20 then none else some (.char c, rest)
  | [] => none

/-- Reads a string; the text is missing if a surrogate stands alone. -/
def stringBody : Scan (Option String) := do
  Scan.char '"'
  let pieces ← Scan.many piece
  Scan.char '"'
  return (joinPieces pieces).map String.ofList

/-- Blanks between the parts of a document. -/
def isSpace (c : Char) : Bool := c == ' ' || c == '\n' || c == '\t' || c == '\r'

/-- Reads a run of at least one decimal digit. -/
def digits : Scan (List Nat) := do
  let ds ← Scan.run Char.isDigit
  if ds.isEmpty then Scan.fail
  return ds.map fun c => c.toNat - '0'.toNat

/-- The number that a list of decimal digits spells. -/
def ofDigits (ds : List Nat) : Nat := ds.foldl (fun n d => n * 10 + d) 0

/-- Reads the power of ten after its letter. -/
def exponent : Scan Int := do
  let negative ← Scan.optional '-'
  if !negative then let _ ← Scan.optional '+'
  let n := ofDigits (← digits)
  return if negative then -(n : Int) else n

/-- Reads a number. Without point, exponent and negative zero it is an integer. -/
def number : Scan Json := do
  let negative ← Scan.optional '-'
  let whole ← digits
  if whole.head? = some 0 && whole.length != 1 then Scan.fail
  let fraction ← if ← Scan.optional '.' then digits else pure []
  let marked ← if ← Scan.optional 'e' then pure true else Scan.optional 'E'
  let power ← if marked then some <$> exponent else pure none
  if fraction.isEmpty && power.isNone && !(negative && whole = [0]) then
    let n := ofDigits whole
    return .int (if negative then -(n : Int) else n)
  else
    return .decimal ⟨negative, whole, fraction, power⟩

/-- Reads a value nested at most a number of levels, with blanks around it. -/
def value : Nat → Scan Json
  | 0 => Scan.fail
  | levels + 1 => do
      Scan.skip isSpace
      let json ← match ← Scan.peek? with
        | some '"' => do
            match ← stringBody with
            | some s => pure (.string s)
            | none => pure .flawed
        | some '[' => do
            Scan.char '['
            Scan.skip isSpace
            .array <$> Scan.commaList ']' (value levels)
        | some '\x7b' => do
            Scan.char '\x7b'
            Scan.skip isSpace
            let members ← Scan.commaList '\x7d' (do
              Scan.skip isSpace
              let key ← stringBody
              Scan.skip isSpace
              Scan.char ':'
              let v ← value levels
              return (key, v))
            match members.mapM fun (key, v) => key.map (·, v) with
            | some ms => pure (.object ms)
            | none => pure .flawed
        | some 't' => do Scan.text "true"; pure (.bool true)
        | some 'f' => do Scan.text "false"; pure (.bool false)
        | some 'n' => do Scan.text "null"; pure .null
        | _ => number
      Scan.skip isSpace
      return json

/-- The document that a text spells. Each level of nesting takes a character, so the length
of the text bounds them. -/
def parse? (s : String) : Option Json :=
  let cs := s.toList
  Scan.whole? (value (cs.length + 1)) cs

end Narrative.Json
