import Narrative.Text.Visible

set_option autoImplicit false

/-!
# Quoted text

How a string is shown inside a diagnostic: in double quotes, with a short escape for
the common controls, and `\u` with the code in braces for every other character that
does not show.
-/

namespace Narrative.Text.Quoted

/-- A character inside a quoted text. -/
def encodeChar (c : Char) : String :=
  match c with
  | '\x00' => "\\0"
  | '\t' => "\\t"
  | '\r' => "\\r"
  | '\n' => "\\n"
  | '"' => "\\\""
  | '\\' => "\\\\"
  | c =>
      if isVisible c then c.toString
      else "\\u\x7b" ++ String.ofList (Nat.toDigits 16 c.toNat) ++ "\x7d"

/-- A quoted text. -/
def encode (s : String) : String :=
  "\"" ++ String.join (s.toList.map encodeChar) ++ "\""

end Narrative.Text.Quoted
