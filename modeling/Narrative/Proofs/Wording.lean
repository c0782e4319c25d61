import Mathlib.Data.List.DropRight
import Narrative.Text

set_option autoImplicit false

/-!
# Text in normal form

To trim a text, or to take its type key, a second time changes nothing (`trim_trim`,
`typeKey_typeKey`), for the case of a letter has no bearing on what is a blank
(`isBlank_toLower`). So an authored string has a normal form: a type string its type key, any other
string its trimmed text, if anything is left of it (`Text.tidy?`). What the engine takes from a field
it takes from the normal form of the field (`firstPresent_tidy?`). Small letters are a normal form
too, of what is compared as a loose id (`sameId_foldCase_left`, `firstPresent_foldCase`).
-/

namespace Narrative.Text

/-! ## Blanks and the case of letters -/

/-- The small letters stand 32 places after the capitals. -/
theorem toNat_toLower (c : Char) :
    c.toLower.toNat = if 65 ≤ c.toNat ∧ c.toNat ≤ 90 then c.toNat + 32 else c.toNat := by
  by_cases hcapital : c.val ≥ 'A'.val ∧ c.val ≤ 'Z'.val
  · have hrange : 65 ≤ c.toNat ∧ c.toNat ≤ 90 := hcapital
    have hlower : c.toLower.toNat = (c.val + ('a'.val - 'A'.val)).toNat :=
      congrArg Char.toNat (dif_pos hcapital)
    rw [hlower, if_pos hrange, UInt32.toNat_add]
    show (c.toNat + 32) % 2 ^ 32 = c.toNat + 32
    omega
  · have hrange : ¬(65 ≤ c.toNat ∧ c.toNat ≤ 90) := hcapital
    have hsame : c.toLower = c := dif_neg hcapital
    rw [hsame, if_neg hrange]

/-- The case of a letter has no bearing on whether it is a blank. -/
@[simp]
theorem isBlank_toLower (c : Char) : isBlank c.toLower = isBlank c := by
  rw [Bool.eq_iff_iff]
  simp only [isBlank, toNat_toLower, Bool.or_eq_true, Bool.and_eq_true, decide_eq_true_eq,
    beq_iff_eq]
  -- neither capitals nor small letters are blanks
  split <;> omega

@[simp]
theorem toLower_toLower (c : Char) : c.toLower.toLower = c.toLower := by
  have hnat : c.toLower.toLower.toNat = c.toLower.toNat := by
    simp only [toNat_toLower]
    split_ifs <;> omega
  exact Char.toNat_inj.1 hnat

/-! ## Trimming -/

theorem trimChars_eq (cs : List Char) :
    trimChars cs = (cs.dropWhile isBlank).rdropWhile isBlank :=
  rfl

/-- What is trimmed does not start with a blank. -/
theorem dropWhile_trimChars (cs : List Char) : (trimChars cs).dropWhile isBlank = trimChars cs := by
  have hkept : trimChars cs <+: cs.dropWhile isBlank := by
    rw [trimChars_eq]
    exact List.rdropWhile_prefix isBlank (cs.dropWhile isBlank)
  rw [List.dropWhile_eq_self_iff]
  intro hpos
  rw [hkept.getElem hpos]
  exact List.dropWhile_get_zero_not isBlank cs (hpos.trans_le hkept.length_le)

@[simp]
theorem trimChars_trimChars (cs : List Char) : trimChars (trimChars cs) = trimChars cs := by
  rw [trimChars_eq (trimChars cs), dropWhile_trimChars, trimChars_eq,
    List.rdropWhile_idempotent isBlank]

theorem toList_trim (s : String) : (trim s).toList = trimChars s.toList := by
  simp [trim]

@[simp]
theorem trim_trim (s : String) : trim (trim s) = trim s := by
  rw [trim, toList_trim, trimChars_trimChars, ← trim]

theorem trimChars_map_toLower (cs : List Char) :
    trimChars (cs.map Char.toLower) = (trimChars cs).map Char.toLower := by
  have hblank : isBlank ∘ Char.toLower = isBlank := funext isBlank_toLower
  simp only [trimChars, List.dropWhile_map, hblank, ← List.map_reverse]

/-- Trimming and folding the case commute. -/
theorem trim_foldCase (s : String) : trim (foldCase s) = foldCase (trim s) := by
  simp [trim, foldCase, trimChars_map_toLower]

@[simp]
theorem foldCase_foldCase (s : String) : foldCase (foldCase s) = foldCase s := by
  simp [foldCase, Function.comp_def]

/-- A type key is its own type key. -/
@[simp]
theorem typeKey_typeKey (s : String) : typeKey (typeKey s) = typeKey s := by
  simp [typeKey, trim_foldCase]

/-- A type key has no blanks around it. -/
@[simp]
theorem trim_typeKey (s : String) : trim (typeKey s) = typeKey s := by
  rw [typeKey, trim_foldCase, trim_trim]

/-! ## Optional text -/

/-- A text from which trimming takes nothing away, and not the empty one. -/
def IsTidy (s : String) : Prop := trim s = s ∧ s ≠ ""

/-- What is present of a text is tidy. -/
theorem isTidy_of_present? {s t : String} (h : present? s = some t) : IsTidy t := by
  simp only [present?] at h
  split at h
  · cases h
  · next hempty =>
      obtain rfl := Option.some.inj h
      refine ⟨trim_trim s, fun heq => hempty ?_⟩
      rw [heq]
      rfl

/-- All of a tidy text is present. -/
theorem IsTidy.present? {s : String} (h : IsTidy s) : present? s = some s := by
  have hempty : s.isEmpty = false := by
    rw [Bool.eq_false_iff]
    exact fun hempty => h.2 (String.isEmpty_iff.1 hempty)
  simp [Text.present?, h.1, hempty]

/-- The normal form of an authored field: the trimmed text, if anything is left of it. -/
def tidy? (field : Option String) : Option String :=
  (field.map trim).filter fun t => !t.isEmpty

/-- The normal form of a field is what is present of it. -/
theorem tidy?_eq (field : Option String) : tidy? field = field.bind present? := by
  cases field with
  | none => rfl
  | some s =>
      simp only [tidy?, Option.map_some, Option.filter_some, Option.bind_some, Text.present?]
      cases (trim s).isEmpty <;> rfl

/-- What is left of a field in normal form is tidy. -/
theorem isTidy_tidy? (field : Option String) : ∀ s ∈ tidy? field, IsTidy s := by
  intro s hs
  rw [tidy?_eq] at hs
  obtain ⟨t, -, ht⟩ := Option.bind_eq_some_iff.1 hs
  exact isTidy_of_present? ht

@[simp]
theorem tidy?_tidy? (field : Option String) : tidy? (tidy? field) = tidy? field := by
  cases h : tidy? field with
  | none => rfl
  | some s =>
      rw [tidy?_eq, Option.bind_some]
      exact (isTidy_tidy? field s h).present?

/-- The first present field is the first one left in normal form. -/
theorem firstPresent_eq (primary fallback : Option String) :
    firstPresent primary fallback = (tidy? primary <|> tidy? fallback) := by
  rw [firstPresent, tidy?_eq, tidy?_eq]

/-- The first present field is found among the normal forms. -/
@[simp]
theorem firstPresent_tidy? (primary fallback : Option String) :
    firstPresent (tidy? primary) (tidy? fallback) = firstPresent primary fallback := by
  simp only [firstPresent_eq, tidy?_tidy?]

@[simp]
theorem firstPresent_tidy?_none (primary : Option String) :
    firstPresent (tidy? primary) none = firstPresent primary none :=
  firstPresent_tidy? primary none

@[simp]
theorem firstPresent_none_tidy? (fallback : Option String) :
    firstPresent none (tidy? fallback) = firstPresent none fallback :=
  firstPresent_tidy? none fallback

/-- A field that is left out or tidy. -/
def IsTidyField (field : Option String) : Prop := ∀ s ∈ field, IsTidy s

/-- The first present field is tidy. -/
theorem isTidyField_firstPresent (primary fallback : Option String) :
    IsTidyField (firstPresent primary fallback) := by
  intro s hs
  rw [firstPresent_eq] at hs
  cases hprimary : tidy? primary with
  | some t =>
      obtain rfl : t = s := by simpa [hprimary] using hs
      exact isTidy_tidy? primary t hprimary
  | none => exact isTidy_tidy? fallback s (by simpa [hprimary] using hs)

/-- A tidy field stays trimmed if the empty text is put for what is left out. -/
theorem IsTidyField.trim_getD {field : Option String} (h : IsTidyField field) :
    trim (field.getD "") = field.getD "" := by
  cases field with
  | none => rfl
  | some s => exact (h s rfl).1

/-! ## Loose ids in small letters -/

theorem sameId_foldCase_left (a b : String) : sameId (foldCase a) b = sameId a b := by
  rw [sameId, foldCase_foldCase, ← sameId]

theorem sameId_foldCase_right (a b : String) : sameId a (foldCase b) = sameId a b := by
  rw [sameId, foldCase_foldCase, ← sameId]

theorem isEmpty_foldCase (s : String) : (foldCase s).isEmpty = s.isEmpty := by
  rw [Bool.eq_iff_iff, String.isEmpty_iff, String.isEmpty_iff, ← String.toList_eq_nil_iff,
    ← String.toList_eq_nil_iff, foldCase, String.toList_ofList, List.map_eq_nil_iff]

/-- What is present of a text in small letters is what is present of the text. -/
theorem present?_foldCase (s : String) : present? (foldCase s) = (present? s).map foldCase := by
  rw [Text.present?, Text.present?]
  simp only [trim_foldCase, isEmpty_foldCase]
  cases (trim s).isEmpty with
  | true => rfl
  | false => rfl

theorem firstPresent_foldCase (primary fallback : Option String) :
    firstPresent (primary.map foldCase) (fallback.map foldCase) =
      (firstPresent primary fallback).map foldCase := by
  have hfield (field : Option String) :
      (field.map foldCase).bind present? = (field.bind present?).map foldCase := by
    cases field with
    | none => rfl
    | some s => rw [Option.map_some, Option.bind_some, Option.bind_some, present?_foldCase]
  rw [firstPresent, firstPresent, hfield, hfield]
  cases primary.bind present? with
  | none => rfl
  | some s => rfl

end Narrative.Text
