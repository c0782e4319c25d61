import Narrative.Proofs.Index
import Narrative.Proofs.Wording

set_option autoImplicit false

/-!
# Looking up the events of a catalog

Whatever list of events a catalog is built from, its index gives what a scan of the whole list would
give (`catalog_agrees_with_scan`): the candidates of a type, and the one event with an id. The
building fails at the first event that repeats an id, and at nothing else.

Compiled events stand under type keys, and a type key is its own type key; so each of them is a
candidate of the type that was written, in whatever spelling, and its trigger has the kind of that
type.
-/

namespace Narrative

namespace Catalog

/-- The events of a type key with their positions, found by going through the whole list. -/
def scan (key : String) (events : List Event) : List Candidate :=
  (events.zipIdx.filter fun p => p.1.trigger.typeKey == key).map fun p => ⟨p.2, p.1⟩

/-- The candidates that are filed under a key. -/
def filed (c : Catalog) (key : String) : List Candidate := (c.byTrigger.get? key).getD []

/-- What is to be found in a catalog of a list of events. -/
structure Finds (c : Catalog) (events : List Event) : Prop where
  holds : c.events = events
  /-- Under a key the events of that key are filed, each once and in order. -/
  filed : ∀ key, c.filed key = scan key events
  increasing : ∀ key, (c.filed key).Pairwise (·.position < ·.position)
  /-- What is filed stands at its position. -/
  inRange : ∀ key, ∀ x ∈ c.filed key, c.events[x.position]? = some x.event
  /-- Every event is filed under one key. -/
  partition : ∀ i e, events[i]? = some e → ∃! key, ⟨i, e⟩ ∈ c.filed key
  /-- The candidates of a trigger type are the events of its key. -/
  candidates : ∀ t, c.candidates t = scan (Text.typeKey t) events
  /-- An id that is not blank is found at one position, if some event has it. -/
  position : ∀ id i, c.position? id = some i ↔
    ∃ e, events[i]? = some e ∧ e.hasId = true ∧ e.id = id
  /-- An id that is not blank leads to the one event that has it. -/
  event : ∀ id e, c.get? id = some e ↔ e ∈ events ∧ e.hasId = true ∧ e.id = id
  /-- A blank id leads nowhere, and neither does one that no event has. -/
  missing : ∀ id, c.get? id = none ↔ (Text.trim id).isEmpty = true ∨ ∀ e ∈ events, e.id ≠ id

/-- What is to be found in a catalog of authored events. -/
structure FindsAuthored (c : Catalog) (authored : List Authored.Event) : Prop where
  /-- An event is a candidate of the type that was written, in whatever spelling, and of no other. -/
  candidate : ∀ i a t, authored[i]? = some a →
    (⟨i, Event.ofAuthored a⟩ ∈ c.candidates t ↔ Text.typeKey t = Text.typeKey a.trigger.type)
  /-- The trigger of a candidate is of the kind of the type. -/
  kind : ∀ t, ∀ x ∈ c.candidates t, x.event.trigger.kind = TriggerKind.ofKey (Text.typeKey t)

/-! ## The index and the scan -/

/-- The listeners of a key are what the scan finds. -/
theorem listeners_eq (key : String) (position : Nat) (events : List Event) :
    listeners key position events =
      ((events.zipIdx position).filter fun p => p.1.trigger.typeKey == key).map
        fun p => ⟨p.2, p.1⟩ := by
  induction events generalizing position with
  | nil => rfl
  | cons e rest ih =>
      rw [listeners, List.zipIdx_cons, List.filter_cons]
      by_cases hkey : e.trigger.typeKey = key
      · rw [if_pos hkey, if_pos (beq_iff_eq.2 hkey), List.map_cons, ih]
      · rw [if_neg hkey, if_neg (mt beq_iff_eq.1 hkey), ih]

/-! ## Ids -/

/-- Whether an event has an id is a matter of the id. -/
theorem hasId_iff {e : Event} {id : String} (h : e.id = id) :
    e.hasId = true ↔ (Text.trim id).isEmpty = false := by
  rw [Event.hasId, h, Bool.not_eq_true']

/-- The test of an event against an id. -/
theorem named_iff {e : Event} {id : String} :
    (e.hasId && e.id == id) = true ↔ e.hasId = true ∧ e.id = id := by
  rw [Bool.and_eq_true, beq_iff_eq]

/-- The event that a search comes to. -/
theorem named_of_find? {events : List Event} {id : String} {e : Event}
    (h : (events.find? fun x => x.hasId && x.id == id) = some e) :
    e ∈ events ∧ e.hasId = true ∧ e.id = id := by
  refine ⟨List.mem_of_find?_eq_some h, ?_⟩
  simpa using List.find?_some h

section Built

variable {events : List Event} {c : Catalog}

/-- The position of an id is that of the event that has it. -/
theorem position?_eq_some_iff (h : ofEvents events = .ok c) (id : String) (i : Nat) :
    c.position? id = some i ↔ ∃ e, events[i]? = some e ∧ e.hasId = true ∧ e.id = id := by
  rw [position?, events_ofEvents h, List.findIdx?_eq_some_iff_getElem]
  constructor
  · rintro ⟨hi, hnamed, -⟩
    exact ⟨events[i], List.getElem?_eq_getElem hi, named_iff.1 hnamed⟩
  · rintro ⟨e, he, hhas, hid⟩
    obtain ⟨hi, rfl⟩ := List.getElem?_eq_some_iff.1 he
    refine ⟨hi, named_iff.2 ⟨hhas, hid⟩, fun j hj hnamed => ?_⟩
    -- an earlier event of this id would be repeated
    obtain ⟨-, hid'⟩ := named_iff.1 hnamed
    have hj' : events[j]? = some events[j] := List.getElem?_eq_getElem (hj.trans hi)
    exact Nat.ne_of_gt hj (position_eq_of_id_eq h he hj' hhas (hid.trans hid'.symm))

/-- The event of an id is the one that has it. -/
theorem get?_eq_some_iff (h : ofEvents events = .ok c) (id : String) (e : Event) :
    c.get? id = some e ↔ e ∈ events ∧ e.hasId = true ∧ e.id = id := by
  rw [get?, events_ofEvents h]
  constructor
  · exact named_of_find?
  · rintro ⟨hmem, hnamed⟩
    cases hfound : events.find? fun x => x.hasId && x.id == id with
    | none => exact absurd (named_iff.2 hnamed) (List.find?_eq_none.1 hfound e hmem)
    | some x =>
        obtain ⟨hmem', hhas, hid⟩ := named_of_find? hfound
        obtain ⟨i, hi⟩ := List.mem_iff_getElem?.1 hmem'
        rw [eq_of_id_eq h hi hhas hmem (hnamed.2.trans hid.symm)]

/-- An id leads nowhere if it is blank or no event has it. -/
theorem get?_eq_none_iff (h : ofEvents events = .ok c) (id : String) :
    c.get? id = none ↔ (Text.trim id).isEmpty = true ∨ ∀ e ∈ events, e.id ≠ id := by
  rw [get?, events_ofEvents h, List.find?_eq_none]
  constructor
  · intro hnone
    by_cases hblank : (Text.trim id).isEmpty = true
    · exact .inl hblank
    · refine .inr fun e he hid => hnone e he (named_iff.2 ⟨?_, hid⟩)
      exact (hasId_iff hid).2 (Bool.eq_false_iff.2 hblank)
  · rintro (hblank | habsent) e he hnamed
    · obtain ⟨hhas, hid⟩ := named_iff.1 hnamed
      rw [(hasId_iff hid).1 hhas] at hblank
      cases hblank
    · exact habsent e he (named_iff.1 hnamed).2

/-- **A built catalog finds what a scan finds.** -/
theorem finds_of_ofEvents (h : ofEvents events = .ok c) : c.Finds events where
  holds := events_ofEvents h
  filed key := (filed_ofEvents h key).trans (listeners_eq key 0 events)
  increasing key := by
    rw [filed, filed_ofEvents h]
    exact pairwise_listeners key 0 events
  inRange key x hx := by
    rw [filed, filed_ofEvents h] at hx
    rw [events_ofEvents h]
    exact (mem_listeners_iff.1 hx).1.2
  partition i e he := by
    simp only [filed, filed_ofEvents h, mem_listeners_iff]
    refine ⟨e.trigger.typeKey, ⟨⟨Nat.zero_le i, he⟩, rfl⟩, ?_⟩
    rintro key ⟨-, hkey⟩
    exact hkey.symm
  candidates t := (candidates_ofEvents h t).trans (listeners_eq _ 0 events)
  position := position?_eq_some_iff h
  event := get?_eq_some_iff h
  missing := get?_eq_none_iff h

end Built

/-! ## Authored events -/

section Authored

variable {authored : List Authored.Event} {c : Catalog}

/-- **A catalog of authored events** finds them by the types that were written. -/
theorem findsAuthored_of_ofEvents (h : ofEvents (authored.map Event.ofAuthored) = .ok c) :
    c.FindsAuthored authored where
  candidate i a t ha := by
    have hcompiled : (authored.map Event.ofAuthored)[i]? = some (Event.ofAuthored a) := by
      rw [List.getElem?_map, ha, Option.map_some]
    rw [candidates_ofEvents h, mem_listeners_iff]
    simp only [Nat.zero_le, Nat.sub_zero, hcompiled, true_and, Event.ofAuthored,
      Trigger.ofAuthored]
    exact eq_comm
  kind t x hx := by
    rw [candidates_ofEvents h] at hx
    obtain ⟨⟨-, hevent⟩, hkey⟩ := mem_listeners_iff.1 hx
    obtain ⟨a, -, hcompiled⟩ := List.mem_map.1 (List.mem_of_getElem? hevent)
    rw [← hkey, ← hcompiled]
    simp only [Event.ofAuthored, Trigger.ofAuthored]

/-- Authored ids that differ in surrounding blanks are repeated. -/
theorem repeats_of_trim_eq {i j : Nat} {a b : Authored.Event} (hlt : i < j)
    (ha : authored[i]? = some a) (hb : authored[j]? = some b)
    (hid : Text.trim a.id = Text.trim b.id) (hblank : (Text.trim b.id).isEmpty = false) :
    Repeats (authored.map Event.ofAuthored) j := by
  have hhas : (Event.ofAuthored b).hasId = true := by
    rw [hasId_iff (show (Event.ofAuthored b).id = Text.trim b.id from rfl), Text.trim_trim, hblank]
  refine ⟨Event.ofAuthored b, ?_, hhas, i, hlt, Event.ofAuthored a, ?_, hid⟩
  · rw [List.getElem?_map, hb, Option.map_some]
  · rw [List.getElem?_map, ha, Option.map_some]

end Authored

/-- The building fails if an event repeats an id. -/
theorem exists_error_iff (events : List Event) :
    (∃ err, ofEvents events = .error err) ↔ ∃ i, Repeats events i := by
  rcases ofEvents_cases events with ⟨c, hc, hnone⟩ | ⟨i, e, herror, -, hrepeats, -⟩
  · simp [hc, hnone]
  · exact iff_of_true ⟨_, herror⟩ ⟨i, hrepeats⟩

end Catalog

open Catalog

/-- **A catalog finds what a scan finds.** For every list of events, a catalog can be built unless two
of them share an id that is not blank, and if it cannot, then the error names the id of the first
event that repeats one. Once built it holds the events; the candidates of a trigger type are those
of its key, in order; every event is filed under one key; and an id that is not blank leads to the
one event that has it. If the events were compiled, then each is a candidate of the type that was
written, and its trigger has the kind of that type; and two ids collide even if they differ in
surrounding blanks. -/
theorem catalog_agrees_with_scan (events : List Event) (authored : List Authored.Event) :
    ((∃ err, ofEvents events = .error err) ↔
      ∃ (i j : Nat) (a b : Event), i < j ∧ events[i]? = some a ∧ events[j]? = some b ∧
        b.hasId = true ∧ a.id = b.id) ∧
    (∀ err, ofEvents events = .error err →
      ∃ i e, err = .duplicateEvent e.id ∧ events[i]? = some e ∧ Repeats events i ∧
        ∀ j < i, ¬Repeats events j) ∧
    (∀ c, ofEvents events = .ok c → c.Finds events) ∧
    (∀ c, Catalog.ofAuthored authored = .ok c →
      c.Finds (authored.map Event.ofAuthored) ∧ c.FindsAuthored authored) ∧
    ∀ (i j : Nat) (a b : Authored.Event), i < j → authored[i]? = some a → authored[j]? = some b →
      Text.trim a.id = Text.trim b.id → (Text.trim b.id).isEmpty = false →
      ∃ err, Catalog.ofAuthored authored = .error err := by
  refine ⟨?_, ?_, ?_, ?_, ?_⟩
  · rw [exists_error_iff]
    constructor
    · rintro ⟨j, b, hb, hhas, i, hlt, a, ha, hid⟩
      exact ⟨i, j, a, b, hlt, ha, hb, hhas, hid⟩
    · rintro ⟨i, j, a, b, hlt, ha, hb, hhas, hid⟩
      exact ⟨j, b, hb, hhas, i, hlt, a, ha, hid⟩
  · intro err herr
    rcases ofEvents_cases events with ⟨c, hc, -⟩ | ⟨i, e, herror, he, hfirst⟩
    · rw [hc] at herr
      cases herr
    · rw [herror] at herr
      exact ⟨i, e, (Except.error.inj herr).symm, he, hfirst⟩
  · exact fun c hc => finds_of_ofEvents hc
  · intro c hc
    rw [Catalog.ofAuthored] at hc
    exact ⟨finds_of_ofEvents hc, findsAuthored_of_ofEvents hc⟩
  · intro i j a b hlt ha hb hid hblank
    exact (exists_error_iff _).2 ⟨j, repeats_of_trim_eq hlt ha hb hid hblank⟩

/-- A porter to talk to. -/
def porter : Authored.Event where
  id := " porter "
  trigger := { type := " Talk_To ", npc := some "Porter" }

/-- Somebody without a name to talk to. -/
def stranger : Authored.Event where
  id := " "
  trigger := { type := "TALK_TO", npc := some "Stranger" }

/-- A room that is named like the porter. -/
def lodge : Authored.Event where
  id := "porter"
  trigger := { type := "enter_room", roomId := some "lodge" }

/-- Any number of strangers can be talked to, but there is one porter only. -/
theorem porter_is_found_once :
    (∃ err, Catalog.ofAuthored [porter, stranger, stranger, lodge] = .error err) ∧
      ∃ c, Catalog.ofAuthored [porter, stranger, stranger] = .ok c ∧
        ⟨0, Event.ofAuthored porter⟩ ∈ c.candidates "talk_to" ∧
        ⟨2, Event.ofAuthored stranger⟩ ∈ c.candidates "talk_to" ∧ c.get? " " = none := by
  obtain ⟨c, hc⟩ : ∃ c, Catalog.ofAuthored [porter, stranger, stranger] = .ok c := ⟨_, rfl⟩
  obtain ⟨-, -, -, -, hcollide⟩ :=
    catalog_agrees_with_scan [] [porter, stranger, stranger, lodge]
  obtain ⟨-, -, -, hfinds, -⟩ := catalog_agrees_with_scan [] [porter, stranger, stranger]
  obtain ⟨hscan, hauthored⟩ := hfinds c hc
  refine ⟨hcollide 0 3 porter lodge ?_ rfl rfl ?_ ?_, c, hc, ?_, ?_, ?_⟩
  · decide
  · decide +kernel
  · decide +kernel
  · exact (hauthored.candidate 0 porter "talk_to" rfl).2 (by decide +kernel)
  · exact (hauthored.candidate 2 stranger "talk_to" rfl).2 (by decide +kernel)
  · exact (hscan.missing " ").2 (.inl (by decide +kernel))

end Narrative
