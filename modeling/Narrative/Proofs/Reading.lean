import Mathlib.Data.List.Nodup
import Narrative.Json.Decoder

set_option autoImplicit false

/-!
# Reading back what was written

A decoder recovers a value from a document if it gives that value back whenever the levels
it may open suffice for the depth of the document, and refuses the document otherwise
(`Decoder.Recovers`). Scalars and lists are settled one by one. For a record the argument
goes along its fields: the reader asks for them in the order in which they are written,
and finds each under its name wherever it stands, since no other member has that name. So
a record is recovered as soon as its members, read off front to back, are the fields that
its reader takes (`FieldReader.Takes`), and no two of them share a name
(`Decoder.recovers_record`).
-/

namespace Narrative

namespace Json

/-! ## The depth of a document -/

mutual

/-- How many arrays and objects of a document stand inside one another. -/
def depth : Json → Nat
  | .array items => depthOfItems items + 1
  | .object members => depthOfMembers members + 1
  | _ => 0

/-- The depth of the deepest item of an array. -/
def depthOfItems : List Json → Nat
  | [] => 0
  | item :: rest => max (depth item) (depthOfItems rest)

/-- The depth of the deepest member of an object. -/
def depthOfMembers : List (String × Json) → Nat
  | [] => 0
  | (_, value) :: rest => max (depth value) (depthOfMembers rest)

end

theorem depthOfItems_le {items : List Json} {n : Nat} :
    depthOfItems items ≤ n ↔ ∀ item ∈ items, item.depth ≤ n := by
  induction items with
  | nil => simp [depthOfItems]
  | cons item rest ih => rw [depthOfItems, Nat.max_le, ih, List.forall_mem_cons]

theorem depthOfMembers_le {members : List (String × Json)} {n : Nat} :
    depthOfMembers members ≤ n ↔ ∀ m ∈ members, m.2.depth ≤ n := by
  induction members with
  | nil => simp [depthOfMembers]
  | cons m rest ih =>
      obtain ⟨k, v⟩ := m
      simp only [depthOfMembers, Nat.max_le, ih, List.forall_mem_cons]

theorem depthOfMembers_append (front back : List (String × Json)) :
    depthOfMembers (front ++ back) = max (depthOfMembers front) (depthOfMembers back) := by
  induction front with
  | nil => simp [depthOfMembers]
  | cons m rest ih => simp [depthOfMembers, ih, Nat.max_assoc]

mutual

/-- A document that is sound for some number of levels is sound for those that suffice for
its depth, and for no others. -/
theorem sound_iff_depth : ∀ {j : Json} {m n : Nat}, j.sound m = true →
    (j.sound n = true ↔ j.depth ≤ n)
  | .array items, m, n, hsound => by
      simp only [sound, Bool.and_eq_true, decide_eq_true_eq] at hsound ⊢
      rw [soundItems_iff_depth hsound.2, depth]
      omega
  | .object members, m, n, hsound => by
      simp only [sound, Bool.and_eq_true, decide_eq_true_eq] at hsound ⊢
      rw [soundMembers_iff_depth hsound.2, depth]
      omega
  | .int _, _, _, hsound | .decimal _, _, _, hsound => by
      simpa [sound, depth] using hsound
  | .null, _, _, _ | .bool _, _, _, _ | .string _, _, _, _ => by simp [sound, depth]
  | .flawed, _, _, hsound => by simp [sound] at hsound

theorem soundItems_iff_depth : ∀ {items : List Json} {m n : Nat}, soundItems m items = true →
    (soundItems n items = true ↔ depthOfItems items ≤ n)
  | [], _, _, _ => by simp [soundItems, depthOfItems]
  | item :: rest, m, n, hsound => by
      simp only [soundItems, Bool.and_eq_true] at hsound ⊢
      rw [sound_iff_depth hsound.1, soundItems_iff_depth hsound.2, depthOfItems, Nat.max_le]

theorem soundMembers_iff_depth : ∀ {members : List (String × Json)} {m n : Nat},
    soundMembers m members = true →
    (soundMembers n members = true ↔ depthOfMembers members ≤ n)
  | [], _, _, _ => by simp [soundMembers, depthOfMembers]
  | (_, value) :: rest, m, n, hsound => by
      simp only [soundMembers, Bool.and_eq_true] at hsound ⊢
      rw [sound_iff_depth hsound.1, soundMembers_iff_depth hsound.2, depthOfMembers, Nat.max_le]

end

theorem soundItems_iff {items : List Json} {n : Nat} :
    soundItems n items = true ↔ ∀ item ∈ items, item.sound n = true := by
  induction items with
  | nil => simp [soundItems]
  | cons item rest ih => simp [soundItems, ih]

theorem soundMembers_iff {members : List (String × Json)} {n : Nat} :
    soundMembers n members = true ↔ ∀ m ∈ members, m.2.sound n = true := by
  induction members with
  | nil => simp [soundMembers]
  | cons m rest ih =>
      obtain ⟨k, v⟩ := m
      simp only [soundMembers, Bool.and_eq_true, ih, List.forall_mem_cons]

@[simp] theorem sound_text (text : String) (n : Nat) : (toJson text).sound n = true := rfl

@[simp] theorem sound_texts (texts : List String) (n : Nat) :
    (toJson texts).sound (n + 1) = true := by
  show (decide (0 < n + 1) && soundItems n (texts.map toJson)) = true
  rw [soundItems_iff.2 (List.forall_mem_map.2 fun text _ => sound_text text n)]
  simp

@[simp] theorem sound_optionText (text : Option String) (n : Nat) :
    (toJson text).sound n = true := by
  cases text <;> rfl

/-- A quantity fits 64 bits. -/
@[simp] theorem sound_quantity (q : UInt32) (n : Nat) : (toJson q).sound n = true := by
  have hle : q.toNat ≤ Decimal.maxWord := by
    have hlt : q.toNat < 2 ^ 32 := q.toNat_lt
    simp only [Decimal.maxWord, UInt64.size]
    omega
  have hword : (0 ≤ (q.toNat : Int) && (q.toNat : Int) ≤ Decimal.maxWord) = true := by
    simpa using hle
  simp only [toJson, sound, Gain.ofInt?, hword, if_true, Option.isSome_some]

end Json

/-! ## The fields of a record -/

namespace FieldReader

variable {α β : Type} {levels : Nat} {name : String} {j : Json} {a : α}
  {ms front back : List (String × Json)}

/-- Of members with distinct names one has a name. -/
theorem filter_name (hnames : (ms.map Prod.fst).Nodup) (hmem : (name, j) ∈ ms) :
    (ms.filter fun m => [name].contains m.1) = [(name, j)] := by
  obtain ⟨before, after, rfl⟩ := List.append_of_mem hmem
  simp only [List.map_append, List.map_cons, List.nodup_append, List.nodup_cons] at hnames
  obtain ⟨-, ⟨hafter, -⟩, hbefore⟩ := hnames
  have none_before : (before.filter fun m => [name].contains m.1) = [] := by
    refine List.filter_eq_nil_iff.2 fun m hm => ?_
    simpa using hbefore m.1 (List.mem_map_of_mem hm) name List.mem_cons_self
  have none_after : (after.filter fun m => [name].contains m.1) = [] := by
    refine List.filter_eq_nil_iff.2 fun m hm => ?_
    have hne : m.1 ≠ name := fun heq => hafter (heq ▸ List.mem_map_of_mem hm)
    simpa using hne
  rw [List.filter_append, List.filter_cons_of_pos (by simp), none_before, none_after]
  rfl

/-- What a field has is found under its name. -/
theorem slot_named (hnames : (ms.map Prod.fst).Nodup) (hmem : (name, j) ∈ ms) :
    slot [name] (.named ms) = some (.given j, .named ms) := by
  simp only [slot, filter_name hnames hmem]

/-- A reader that leaves the record as it is hands its value to the reader that follows. -/
theorem bind_run {first : FieldReader Json α} {rest : α → FieldReader Json β}
    (hfirst : first (.named ms) = some (a, .named ms)) :
    (first >>= rest) (.named ms) = rest a (.named ms) := by
  show (first (.named ms)).bind (fun p => rest p.1 p.2) = _
  rw [hfirst]
  rfl

/-- A reader that refuses the record lets no reader follow. -/
theorem bind_refused {first : FieldReader Json α} {rest : α → FieldReader Json β}
    (hfirst : first (.named ms) = none) : (first >>= rest) (.named ms) = none := by
  show (first (.named ms)).bind (fun p => rest p.1 p.2) = _
  rw [hfirst]
  rfl

/-- A reader that looks a field up and reads what the field has. -/
theorem given_run {names : List String} {next : Slot Json → FieldReader Json α}
    {read : Json → Option α} (hslot : slot names (.named ms) = some (.given j, .named ms))
    (hnext : next (.given j) = StateT.lift (read j)) :
    (slot names >>= next) (.named ms) = (read j).map (·, .named ms) := by
  rw [bind_run hslot, hnext]
  cases read j <;> rfl

/-- A reader takes a value from some members: in every object that has them among members
with distinct names it finds the value if the levels suffice for them, and refuses the
object otherwise. -/
def Takes (levels : Nat) (body : FieldReader Json α) (front : List (String × Json)) (a : α) :
    Prop :=
  ∀ ⦃ms : List (String × Json)⦄, (ms.map Prod.fst).Nodup → front ⊆ ms →
    body (.named ms) = if Json.depthOfMembers front ≤ levels then some (a, .named ms) else none

theorem Takes.pure : Takes levels (pure a) [] a := fun _ _ _ => rfl

/-- What two readers take one after the other. -/
theorem Takes.bind {first : FieldReader Json α} {rest : α → FieldReader Json β} {b : β}
    (hfirst : Takes levels first front a) (hrest : Takes levels (rest a) back b) :
    Takes levels (first >>= rest) (front ++ back) b := by
  intro ms hnames hsub
  obtain ⟨hfront, hback⟩ := List.append_subset.1 hsub
  have hrun := hfirst hnames hfront
  by_cases hlevels : Json.depthOfMembers front ≤ levels
  · rw [if_pos hlevels] at hrun
    rw [bind_run hrun, hrest hnames hback]
    simp only [Json.depthOfMembers_append, Nat.max_le, hlevels, true_and]
  · rw [if_neg hlevels] at hrun
    rw [bind_refused hrun, Json.depthOfMembers_append, if_neg]
    exact fun h => hlevels (Nat.max_le.1 h).1

/-- A reader of one field takes the member with its name. -/
theorem takes_of_slot {next : Slot Json → FieldReader Json α} {read : Json → Option α}
    (hnext : next (.given j) = StateT.lift (read j))
    (hread : read j = if j.depth ≤ levels then some a else none) :
    Takes levels (slot [name] >>= next) [(name, j)] a := by
  intro ms hnames hsub
  rw [given_run (slot_named hnames (hsub List.mem_cons_self)) hnext, hread]
  simp only [Json.depthOfMembers, Nat.max_zero]
  split <;> rfl

theorem takes_field {read : Json → Option α} {default : α}
    (hread : read j = if j.depth ≤ levels then some a else none) :
    Takes levels (field name default read) [(name, j)] a :=
  takes_of_slot rfl hread

theorem takes_required {read : Json → Option α}
    (hread : read j = if j.depth ≤ levels then some a else none) :
    Takes levels (required [name] read) [(name, j)] a :=
  takes_of_slot rfl hread

theorem takes_spelled {read : Json → Option (Option α)} {o : Option α}
    (hread : read j = if j.depth ≤ levels then some o else none) :
    Takes levels (spelled name read) [(name, j)] o :=
  takes_of_slot rfl hread

end FieldReader

/-! ## Faithful decoders -/

namespace Decoder

open FieldReader

/-- A decoder gives a value back if the levels suffice for a document, and refuses the
document otherwise. -/
def Recovers {α : Type} (read : Decoder α) (j : Json) (a : α) : Prop :=
  ∀ levels : Nat, read levels j = if j.depth ≤ levels then some a else none

/-- A decoder that recovers every value from what the value is written as, and that takes
`null` for none of them. -/
class Faithful {α : Type} [ToJson α] (read : Decoder α) : Prop where
  recovers : ∀ a : α, Recovers read (toJson a) a
  strict : ∀ levels, read levels .null = none

export Faithful (recovers)

instance : Faithful text := ⟨fun _ _ => rfl, fun _ => rfl⟩

instance : Faithful flag := ⟨fun _ _ => rfl, fun _ => rfl⟩

instance : Faithful quantity where
  recovers n _ := by
    have hrange : (0 : Int) ≤ n.toNat ∧ (n.toNat : Int) < UInt32.size :=
      ⟨Int.natCast_nonneg _, Int.ofNat_lt.2 n.toNat_lt_size⟩
    simp only [toJson, quantity]
    rw [if_pos hrange, Int.toNat_natCast, UInt32.ofNat_toNat]
    rfl
  strict _ := rfl

instance : Faithful amount where
  recovers n _ := by
    simp only [toJson, amount]
    rw [if_pos ⟨n.minValue_le_toInt, n.toInt_le⟩, Int64.ofInt_toInt]
    rfl
  strict _ := rfl

/-- Two checks that give a value and those that follow it give the list of them if both
pass. -/
theorem check_cons {γ : Type} {c : γ} {rest : List γ} {p q r : Prop} [Decidable p] [Decidable q]
    [Decidable r] (h : r ↔ p ∧ q) :
    ((if p then some c else none) >>= fun c => (if q then some rest else none) >>= fun rest =>
      pure (c :: rest)) = if r then some (c :: rest) else none := by
  by_cases hp : p <;> by_cases hq : q <;> simp [h, hp, hq]

/-- Checking values one by one gives all of them or nothing. -/
theorem mapM_check {γ δ : Type} {check : γ → Option δ} {value : γ → δ} {p : γ → Prop}
    [DecidablePred p] {xs : List γ} (h : ∀ x ∈ xs, check x = if p x then some (value x) else none) :
    xs.mapM check = if ∀ x ∈ xs, p x then some (xs.map value) else none := by
  induction xs with
  | nil => rfl
  | cons x rest ih =>
      obtain ⟨hx, hrest⟩ := List.forall_mem_cons.1 h
      have hall : (∀ y ∈ x :: rest, p y) ↔ p x ∧ ∀ y ∈ rest, p y := List.forall_mem_cons
      rw [List.mapM_cons, hx, ih hrest]
      exact check_cons hall

/-- What the items of an array are read as. -/
theorem recovers_list {α γ : Type} {read : Decoder α} {shown : γ → Json} {value : γ → α}
    {xs : List γ} (h : ∀ x ∈ xs, Recovers read (shown x) (value x)) :
    Recovers (list read) (.array (xs.map shown)) (xs.map value) := by
  intro levels
  cases levels with
  | zero => rfl
  | succ n =>
      show (xs.map shown).mapM (read n) = _
      rw [List.mapM_map]
      refine (mapM_check fun x hx => h x hx n).trans (if_congr ?_ rfl rfl)
      rw [Json.depth, Nat.add_le_add_iff_right, Json.depthOfItems_le, List.forall_mem_map]

/-- What the members of an object are read as. -/
theorem recovers_members {α γ : Type} {read : Decoder α} {key : γ → String} {shown : γ → Json}
    {value : γ → α} {xs : List γ} (h : ∀ x ∈ xs, Recovers read (shown x) (value x)) :
    Recovers (members read) (.object (xs.map fun x => (key x, shown x)))
      (xs.map fun x => (key x, value x)) := by
  intro levels
  cases levels with
  | zero => rfl
  | succ n =>
      have hmember (x : γ) (hx : x ∈ xs) : (read n (shown x)).map (key x, ·) =
          if (shown x).depth ≤ n then some (key x, value x) else none := by
        rw [h x hx n]
        split <;> rfl
      show (xs.map fun x => (key x, shown x)).mapM _ = _
      rw [List.mapM_map]
      refine (mapM_check hmember).trans (if_congr ?_ rfl rfl)
      rw [Json.depth, Nat.add_le_add_iff_right, Json.depthOfMembers_le, List.forall_mem_map]

section Composite

variable {α : Type} [ToJson α] {read : Decoder α} [Faithful read]

/-- An optional value is recovered, whether it is there or not. -/
theorem recovers_optional (o : Option α) : Recovers (optional read) (toJson o) o := by
  intro levels
  cases o with
  | none => rfl
  | some a =>
      have hread : read levels (toJson a) = _ := recovers a levels
      have hnull : toJson a ≠ .null := fun h => by
        have hstrict : read levels .null = none := Faithful.strict levels
        rw [h, hstrict] at hread
        cases hread
      have hoptional : optional read levels (toJson a) = (read levels (toJson a)).map some := by
        cases hj : toJson a with
        | null => exact absurd hj hnull
        | _ => rfl
      show optional read levels (toJson a) = if (toJson a).depth ≤ levels then _ else _
      rw [hoptional, hread]
      split <;> rfl

instance : Faithful (list read) where
  recovers values := by
    have hitems : Recovers (list read) (.array (values.map toJson)) (values.map id) :=
      recovers_list fun a _ => recovers a
    rwa [List.map_id] at hitems
  strict levels := by cases levels <;> rfl

/-- The next field of a record has a value that a faithful decoder reads. -/
theorem takes_value {β : Type} {levels : Nat} {name : String} {default a : α}
    {rest : α → FieldReader Json β} {back : List (String × Json)} {b : β}
    (hrest : Takes levels (rest a) back b) :
    Takes levels (FieldReader.field name default (read levels) >>= rest)
      ((name, toJson a) :: back) b :=
  Takes.bind (takes_field (recovers a levels)) hrest

/-- The next field of a record has an optional value. -/
theorem takes_option {β : Type} {levels : Nat} {name : String} {default o : Option α}
    {rest : Option α → FieldReader Json β} {back : List (String × Json)} {b : β}
    (hrest : Takes levels (rest o) back b) :
    Takes levels (FieldReader.field name default (optional read levels) >>= rest)
      ((name, toJson o) :: back) b :=
  Takes.bind (takes_field (recovers_optional o levels)) hrest

end Composite

section Record

variable {α : Type} {body : Nat → FieldReader Json α} {ms : List (String × Json)} {a : α} {n : Nat}

/-- A record by name is what its reader finds in it. -/
theorem record_object
    (h : body n (.named ms) =
      if Json.depthOfMembers ms ≤ n then some (a, .named ms) else none) :
    record body (n + 1) (.object ms) =
      if (Json.object ms).depth ≤ n + 1 then some a else none := by
  simp only [record, readFrom, h, Json.depth, Nat.add_le_add_iff_right]
  by_cases hlevels : Json.depthOfMembers ms ≤ n
  · rw [if_pos hlevels, if_pos hlevels]
  · rw [if_neg hlevels, if_neg hlevels]

/-- A record is recovered if its members are what its reader takes. -/
theorem recovers_record (hnames : (ms.map Prod.fst).Nodup)
    (htakes : ∀ levels, Takes levels (body levels) ms a) :
    Recovers (record body) (.object ms) a := by
  intro levels
  cases levels with
  | zero => rfl
  | succ n => exact record_object (htakes n hnames (List.Subset.refl ms))

/-- A record is not read from `null`. -/
theorem record_strict (body : Nat → FieldReader Json α) (levels : Nat) :
    record body levels .null = none := by
  cases levels <;> rfl

end Record

end Decoder

end Narrative
