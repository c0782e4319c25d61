set_option autoImplicit false

/-!
# Authored text

How the engine compares the strings that writers type. Surrounding blanks never
matter, a blank string counts as absent, and the case of the ASCII letters is
ignored wherever two loose ids are compared.

`isBlank` is the Unicode property `White_Space`; case folding touches the ASCII
letters only, so `É` and `é` are different ids.
-/

namespace Narrative.Text

/-- The characters with the Unicode property `White_Space`. -/
def isBlank (c : Char) : Bool :=
  let n := c.toNat
  (0x09 ≤ n && n ≤ 0x0D) || n == 0x20 || n == 0x85 || n == 0xA0 || n == 0x1680 ||
    (0x2000 ≤ n && n ≤ 0x200A) || n == 0x2028 || n == 0x2029 || n == 0x202F ||
    n == 0x205F || n == 0x3000

/-- Drops the blanks at both ends of a character list. -/
def trimChars (cs : List Char) : List Char :=
  ((cs.dropWhile isBlank).reverse.dropWhile isBlank).reverse

/-- Drops the blanks at both ends. -/
def trim (s : String) : String :=
  String.ofList (trimChars s.toList)

/-- Replaces every ASCII capital by its small letter. -/
def foldCase (s : String) : String :=
  String.ofList (s.toList.map Char.toLower)

/-- The form under which an authored type string is looked up. -/
def typeKey (s : String) : String :=
  foldCase (trim s)

/-- Equality of ids up to the case of ASCII letters. -/
def sameId (a b : String) : Bool :=
  foldCase a == foldCase b

/-- A string without its surrounding blanks, unless nothing is left. -/
def present? (s : String) : Option String :=
  let t := trim s
  if t.isEmpty then none else some t

/-- The first of two authored fields that is present; blank fields count as absent. -/
def firstPresent (primary fallback : Option String) : Option String :=
  primary.bind present? <|> fallback.bind present?

theorem sameId_refl (a : String) : sameId a a = true := by
  simp [sameId]

theorem sameId_comm (a b : String) : sameId a b = sameId b a := by
  simp [sameId, Bool.beq_comm]

theorem sameId_trans {a b c : String} (hab : sameId a b = true) (hbc : sameId b c = true) :
    sameId a c = true := by
  simp only [sameId, beq_iff_eq] at *
  exact hab.trans hbc

theorem sameId_iff {a b : String} : sameId a b = true ↔ foldCase a = foldCase b := by
  simp [sameId]

end Narrative.Text
