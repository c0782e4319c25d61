set_option autoImplicit false

/-!
# Scanning text

A scanner reads a value off the front of a character list and leaves the rest, or
fails and leaves everything. The readers of both document formats are built from
the few scanners here.
-/

namespace Narrative

/-- Reads a value off the front of a character list. -/
abbrev Scan := StateT (List Char) Option

namespace Scan

variable {α : Type}

/-- Fails. -/
def fail : Scan α := fun _ => none

/-- The next character, if there is one; it stays where it is. -/
def peek? : Scan (Option Char) := fun s => some (s.head?, s)

/-- Reads one character that satisfies a test. -/
def satisfy (p : Char → Bool) : Scan Char
  | c :: rest => if p c then some (c, rest) else none
  | [] => none

/-- Reads one given character. -/
def char (c : Char) : Scan Unit
  | c' :: rest => if c' == c then some ((), rest) else none
  | [] => none

/-- Reads a given text. -/
def text (t : String) : Scan Unit := t.toList.forM char

/-- Reads a given character if it comes next, and says whether it did. -/
def optional (c : Char) : Scan Bool
  | c' :: rest => if c' == c then some (true, rest) else some (false, c' :: rest)
  | [] => some (false, [])

/-- Reads the longest run of characters that satisfy a test. -/
def run (p : Char → Bool) : Scan (List Char) := fun s => some (s.span p)

/-- Drops the longest run of characters that satisfy a test. -/
def skip (p : Char → Bool) : Scan Unit := fun s => some ((), s.dropWhile p)

/-- Reads values until the scanner fails, at most as many as a list has characters. -/
def upTo (item : Scan α) : List Char → List Char → List α × List Char
  | [], s => ([], s)
  | _ :: bound, s =>
      match item s with
      | none => ([], s)
      | some (a, rest) =>
          let (as, rest') := upTo item bound rest
          (a :: as, rest')

/-- Reads values until the scanner fails. A value takes at least one character, so the text
bounds their number. -/
def many (item : Scan α) : Scan (List α) := fun s => some (upTo item s s)

/-- Reads values with commas between them up to a closing character. -/
def commaList (close : Char) (item : Scan α) : Scan (List α) := fun s =>
  match s with
  | [] => none
  | c :: rest =>
      if c == close then some ([], rest)
      else
        (do
          let first ← item
          let others ← many (do char ','; item)
          char close
          return first :: others : Scan (List α)) s

/-- What a scanner reads when it uses up the whole text. -/
def whole? (p : Scan α) (s : List Char) : Option α :=
  match p s with
  | some (a, []) => some a
  | _ => none

/-- The value of a digit in a base of at most 16. -/
def digitValue? (base : Nat) (c : Char) : Option Nat :=
  let n := c.toNat
  let v :=
    if '0' ≤ c && c ≤ '9' then n - '0'.toNat
    else if 'a' ≤ c && c ≤ 'f' then n - 'a'.toNat + 10
    else if 'A' ≤ c && c ≤ 'F' then n - 'A'.toNat + 10
    else base
  if v < base then some v else none

/-- Reads exactly `n` hexadecimal digits as a number. -/
def hexDigits : Nat → Nat → Scan Nat
  | 0, acc => pure acc
  | n + 1, acc => fun
      | c :: rest =>
          match digitValue? 16 c with
          | some v => hexDigits n (acc * 16 + v) rest
          | none => none
      | [] => none

end Scan

end Narrative
