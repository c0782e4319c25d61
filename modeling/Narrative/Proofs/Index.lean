import Mathlib.Data.List.Forall2
import Narrative.Catalog

set_option autoImplicit false

/-!
# The index of a catalog

A catalog is built in one pass over its events. The pass files each event under its type
key, so the candidates of a trigger type are the events of that key in authored order
(`candidates_ofEvents`), and it stops at the first event that repeats an id (`ofEvents_cases`), so
an id that is not blank stands at one position only (`position_eq_of_id_eq`).

Whether the pass succeeds and where it files an event depends on ids and type keys only, so lists
whose events agree on these have catalogs with corresponding candidates (`exists_ofEvents`,
`forall₂_candidates`). If every event is changed in one way that leaves these alone, so is every
candidate (`ofEvents_map`).
-/

namespace Narrative

namespace Catalog

/-- The events of a list that have a type key, with their positions counted from one on. -/
def listeners (key : String) (position : Nat) : List Event → List Candidate
  | [] => []
  | e :: rest =>
      if e.trigger.typeKey = key then ⟨position, e⟩ :: listeners key (position + 1) rest
      else listeners key (position + 1) rest

/-- A candidate stands in a list of events if it is the first of them or stands in the rest. -/
theorem stands_cons {x : Candidate} {e : Event} {rest : List Event} {position : Nat} :
    (position ≤ x.position ∧ (e :: rest)[x.position - position]? = some x.event) ↔
      x = ⟨position, e⟩ ∨
        (position + 1 ≤ x.position ∧ rest[x.position - (position + 1)]? = some x.event) := by
  obtain ⟨p, event⟩ := x
  rcases Nat.lt_trichotomy p position with hlt | rfl | hgt
  · have hne : p ≠ position := Nat.ne_of_lt hlt
    simp only [Candidate.mk.injEq, hne, false_and, false_or]
    constructor <;> rintro ⟨hle, -⟩ <;> omega
  · simp only [Nat.le_refl, Nat.sub_self, List.getElem?_cons_zero, Option.some.injEq, true_and,
      Candidate.mk.injEq, Nat.not_succ_le_self, false_and, or_false]
    exact eq_comm
  · have hne : p ≠ position := Ne.symm (Nat.ne_of_lt hgt)
    obtain ⟨n, hn⟩ : ∃ n, p - position = n + 1 := ⟨p - position - 1, by omega⟩
    have hrest : p - (position + 1) = n := by omega
    simp only [Candidate.mk.injEq, hne, false_and, false_or, hn, hrest, List.getElem?_cons_succ]
    exact and_congr_left fun _ => iff_of_true (Nat.le_of_lt hgt) hgt

theorem mem_listeners_iff {key : String} {x : Candidate} {events : List Event} {position : Nat} :
    x ∈ listeners key position events ↔
      (position ≤ x.position ∧ events[x.position - position]? = some x.event) ∧
        x.event.trigger.typeKey = key := by
  induction events generalizing position with
  | nil => simp [listeners]
  | cons e rest ih =>
      rw [stands_cons, or_and_right, ← ih]
      simp only [listeners]
      split
      · next hkey =>
          rw [List.mem_cons]
          refine or_congr_left (iff_self_and.2 ?_)
          rintro rfl
          exact hkey
      · next hkey =>
          refine (or_iff_right ?_).symm
          rintro ⟨rfl, htype⟩
          exact hkey htype

/-- Listeners stand in authored order. -/
theorem pairwise_listeners (key : String) (position : Nat) (events : List Event) :
    (listeners key position events).Pairwise (·.position < ·.position) := by
  induction events generalizing position with
  | nil => exact List.Pairwise.nil
  | cons e rest ih =>
      simp only [listeners]
      split
      · refine List.pairwise_cons.2 ⟨fun x hx => ?_, ih (position + 1)⟩
        exact (mem_listeners_iff.1 hx).1.1
      · exact ih (position + 1)

/-- The listeners are the events of the key. -/
theorem map_event_listeners (key : String) (position : Nat) (events : List Event) :
    (listeners key position events).map (·.event) =
      events.filter fun e => e.trigger.typeKey == key := by
  induction events generalizing position with
  | nil => rfl
  | cons e rest ih =>
      simp only [listeners, List.filter_cons]
      split
      · next hkey => simp [hkey, ih]
      · next hkey => simp [hkey, ih]

theorem length_listeners (key : String) (position : Nat) (events : List Event) :
    (listeners key position events).length =
      events.countP fun e => e.trigger.typeKey == key := by
  rw [List.countP_eq_length_filter, ← map_event_listeners key position, List.length_map]

/-- Enrolling an event appends it to the list of its key and of no other. -/
theorem get?_enroll (index : IdMap (List Candidate)) (c : Candidate) (key : String) :
    ((enroll index c).get? key).getD [] =
      (index.get? key).getD [] ++ if c.event.trigger.typeKey = key then [c] else [] := by
  simp only [enroll, IdMap.get?_insert]
  by_cases h : key = c.event.trigger.typeKey
  · subst h
    simp
  · simp [h, Ne.symm h]

/-- What the pass files under a key: what was there, and then the listeners of the events. -/
theorem get?_indexFrom {key : String} {events : List Event} {seen : IdSet}
    {index index' : IdMap (List Candidate)} {position : Nat}
    (h : indexFrom seen index position events = .ok index') :
    (index'.get? key).getD [] = (index.get? key).getD [] ++ listeners key position events := by
  induction events generalizing seen index position with
  | nil =>
      simp only [indexFrom, Except.ok.injEq] at h
      subst h
      simp [listeners]
  | cons e rest ih =>
      simp only [indexFrom] at h
      split at h
      · simp at h
      · rw [ih h, get?_enroll, List.append_assoc]
        simp only [listeners]
        split <;> simp

/-! ## Repeated ids -/

/-- The event at a position has an id, not blank, that an event before it has. -/
def Repeats (events : List Event) (i : Nat) : Prop :=
  ∃ e, events[i]? = some e ∧ e.hasId = true ∧ ∃ j < i, ∃ a, events[j]? = some a ∧ a.id = e.id

/-- The event at a position has an id, not blank, that was seen before or that an event before it
has. -/
def Recurs (seen : IdSet) (events : List Event) (i : Nat) : Prop :=
  ∃ e, events[i]? = some e ∧ e.hasId = true ∧
    (seen.contains e.id = true ∨ ∃ j < i, ∃ a, events[j]? = some a ∧ a.id = e.id)

/-- Before the first event no id was seen. -/
theorem recurs_empty {events : List Event} {i : Nat} : Recurs ∅ events i ↔ Repeats events i := by
  have hempty (id : String) : IdMap.contains (∅ : IdSet) id = false := rfl
  simp only [Recurs, Repeats, hempty, Bool.false_eq_true, false_or]

theorem recurs_cons_zero {seen : IdSet} {e : Event} {rest : List Event} :
    Recurs seen (e :: rest) 0 ↔ e.hasId = true ∧ seen.contains e.id = true := by
  simp [Recurs]

/-- Once the pass has met an event, its id was seen. -/
theorem recurs_cons_succ {seen : IdSet} {e : Event} {rest : List Event} {i : Nat} :
    Recurs seen (e :: rest) (i + 1) ↔
      Recurs (if e.hasId then seen.add e.id else seen) rest i := by
  simp only [Recurs, List.getElem?_cons_succ, Nat.exists_lt_succ_left, List.getElem?_cons_zero,
    Option.some.injEq, exists_eq_left']
  refine exists_congr fun x => and_congr_right fun _ => and_congr_right fun hid => ?_
  rw [← or_assoc]
  refine or_congr_left ?_
  cases hhas : e.hasId with
  | true =>
      rw [if_pos rfl, IdSet.contains_add, Bool.or_eq_true, beq_iff_eq, or_comm,
        @eq_comm _ e.id]
  | false =>
      -- an event without an id has not that of one with an id
      have hne : e.id ≠ x.id := by
        intro heq
        rw [Event.hasId, ← heq, ← Event.hasId, hhas] at hid
        cases hid
      rw [if_neg Bool.false_ne_true, or_iff_left hne]

/-- **The pass** goes through if no event repeats an id, and else stops at the first one that does
and names its id. -/
theorem indexFrom_cases (seen : IdSet) (index : IdMap (List Candidate)) (position : Nat)
    (events : List Event) :
    (∃ built, indexFrom seen index position events = .ok built ∧ ∀ i, ¬Recurs seen events i) ∨
      ∃ i e, indexFrom seen index position events = .error (.duplicateEvent e.id) ∧
        events[i]? = some e ∧ Recurs seen events i ∧ ∀ j < i, ¬Recurs seen events j := by
  induction events generalizing seen index position with
  | nil => exact .inl ⟨index, rfl, by simp [Recurs]⟩
  | cons e rest ih =>
      simp only [indexFrom]
      split
      · next hrecurs =>
          refine .inr ⟨0, e, rfl, rfl, recurs_cons_zero.2 ?_, by simp⟩
          simpa using hrecurs
      · next hnew =>
          have hfirst : ¬Recurs seen (e :: rest) 0 := by
            simpa [recurs_cons_zero] using hnew
          rcases ih (if e.hasId then seen.add e.id else seen) (enroll index ⟨position, e⟩)
            (position + 1) with ⟨built, hbuilt, hnone⟩ | ⟨i, x, herror, hx, hrecurs, hbefore⟩
          · refine .inl ⟨built, hbuilt, fun i => ?_⟩
            cases i with
            | zero => exact hfirst
            | succ i => exact mt recurs_cons_succ.1 (hnone i)
          · refine .inr ⟨i + 1, x, herror, hx, recurs_cons_succ.2 hrecurs, fun j hj => ?_⟩
            cases j with
            | zero => exact hfirst
            | succ j => exact mt recurs_cons_succ.1 (hbefore j (Nat.lt_of_succ_lt_succ hj))

/-! ## Catalogs that were built -/

section Built

variable {events : List Event} {c : Catalog}

/-- A catalog is built if the pass goes through. -/
theorem ofEvents_eq_ok_iff :
    ofEvents events = .ok c ↔ ∃ index, indexFrom ∅ ∅ 0 events = .ok index ∧ ⟨events, index⟩ = c := by
  rw [ofEvents]
  cases indexFrom ∅ ∅ 0 events with
  | ok index => simp [Except.map]
  | error err => simp [Except.map]

/-- A built catalog holds the events it was built from. -/
theorem events_ofEvents (h : ofEvents events = .ok c) : c.events = events := by
  obtain ⟨index, -, rfl⟩ := ofEvents_eq_ok_iff.1 h
  rfl

/-- What is filed under a key are its listeners. -/
theorem filed_ofEvents (h : ofEvents events = .ok c) (key : String) :
    (c.byTrigger.get? key).getD [] = listeners key 0 events := by
  obtain ⟨index, hindex, rfl⟩ := ofEvents_eq_ok_iff.1 h
  exact get?_indexFrom hindex

/-- **The candidates of a trigger type** are the events of its key, in authored order. -/
theorem candidates_ofEvents (h : ofEvents events = .ok c) (triggerType : String) :
    c.candidates triggerType = listeners (Text.typeKey triggerType) 0 events :=
  filed_ofEvents h (Text.typeKey triggerType)

/-- A candidate stands at its position. -/
theorem getElem?_of_mem_candidates (h : ofEvents events = .ok c) {t : String} {x : Candidate}
    (hx : x ∈ c.candidates t) : events[x.position]? = some x.event := by
  rw [candidates_ofEvents h] at hx
  exact (mem_listeners_iff.1 hx).1.2

/-- The pass from the start. -/
theorem ofEvents_cases (events : List Event) :
    (∃ c, ofEvents events = .ok c ∧ ∀ i, ¬Repeats events i) ∨
      ∃ i e, ofEvents events = .error (.duplicateEvent e.id) ∧
        events[i]? = some e ∧ Repeats events i ∧ ∀ j < i, ¬Repeats events j := by
  rcases indexFrom_cases ∅ ∅ 0 events with ⟨index, hindex, hnone⟩ | ⟨i, e, herror, he, h, hbefore⟩
  · exact .inl ⟨_, ofEvents_eq_ok_iff.2 ⟨index, hindex, rfl⟩, fun i => mt recurs_empty.2 (hnone i)⟩
  · refine .inr ⟨i, e, ?_, he, recurs_empty.1 h, fun j hj => mt recurs_empty.2 (hbefore j hj)⟩
    rw [ofEvents, herror]
    rfl

/-- No event of a built catalog repeats an id. -/
theorem not_repeats_of_ofEvents (h : ofEvents events = .ok c) (i : Nat) : ¬Repeats events i := by
  rcases ofEvents_cases events with ⟨_, -, hnone⟩ | ⟨_, _, herror, -⟩
  · exact hnone i
  · rw [herror] at h
    cases h

/-- An id that is not blank stands at one position only. -/
theorem position_eq_of_id_eq (h : ofEvents events = .ok c) {i j : Nat} {a b : Event}
    (hi : events[i]? = some a) (hj : events[j]? = some b) (ha : a.hasId = true)
    (hid : a.id = b.id) : i = j := by
  have hb : b.hasId = true := by
    simpa only [Event.hasId, hid] using ha
  rcases Nat.lt_trichotomy i j with hlt | heq | hgt
  · exact absurd ⟨b, hj, hb, i, hlt, a, hi, hid⟩ (not_repeats_of_ofEvents h j)
  · exact heq
  · exact absurd ⟨a, hi, ha, j, hgt, b, hj, hid.symm⟩ (not_repeats_of_ofEvents h i)

/-- An id that is not blank belongs to one candidate only. -/
theorem candidate_eq_of_id_eq (h : ofEvents events = .ok c) {x y : Candidate}
    (hx : events[x.position]? = some x.event) (hy : events[y.position]? = some y.event)
    (hid : x.event.hasId = true) (heq : x.event.id = y.event.id) : x = y := by
  obtain ⟨i, a⟩ := x
  obtain ⟨j, b⟩ := y
  obtain rfl : i = j := position_eq_of_id_eq h hx hy hid heq
  obtain rfl : a = b := Option.some.inj (hx.symm.trans hy)
  rfl

/-- An event whose id is not blank is the only one with that id. -/
theorem eq_of_id_eq (h : ofEvents events = .ok c) {i : Nat} {a b : Event}
    (hi : events[i]? = some a) (ha : a.hasId = true) (hb : b ∈ events) (hid : b.id = a.id) :
    b = a := by
  obtain ⟨j, hj⟩ := List.mem_iff_getElem?.1 hb
  have hij : i = j := position_eq_of_id_eq h hi hj ha hid.symm
  rw [← hij, hi] at hj
  exact (Option.some.inj hj).symm

end Built

/-! ## Catalogs of corresponding events -/

/-- Events that correspond agree on what the pass looks at. -/
structure Indexes (P : Event → Event → Prop) : Prop where
  id : ∀ {a b : Event}, P a b → b.id = a.id
  typeKey : ∀ {a b : Event}, P a b → b.trigger.typeKey = a.trigger.typeKey

section Corresponding

variable {P : Event → Event → Prop} {events events' : List Event} (indexes : Indexes P)

include indexes

/-- Corresponding listeners stand at the same positions. -/
theorem forall₂_listeners (key : String) (position : Nat) (h : List.Forall₂ P events events') :
    List.Forall₂ (fun x y => y.position = x.position ∧ P x.event y.event)
      (listeners key position events) (listeners key position events') := by
  induction h generalizing position with
  | nil => exact .nil
  | cons hhead _ ih =>
      simp only [listeners, indexes.typeKey hhead]
      split
      · exact .cons ⟨rfl, hhead⟩ (ih (position + 1))
      · exact ih (position + 1)

/-- The pass goes through for one list if it does for the other. -/
theorem exists_indexFrom (h : List.Forall₂ P events events') {seen : IdSet}
    {index built : IdMap (List Candidate)} (index' : IdMap (List Candidate)) {position : Nat}
    (hbuilt : indexFrom seen index position events = .ok built) :
    ∃ built', indexFrom seen index' position events' = .ok built' := by
  induction h generalizing seen index index' position with
  | nil => exact ⟨index', rfl⟩
  | @cons a b _ _ hhead _ ih =>
      have hid : b.id = a.id := indexes.id hhead
      have hhas : b.hasId = a.hasId := by rw [Event.hasId, Event.hasId, hid]
      simp only [indexFrom, hid, hhas] at hbuilt ⊢
      split at hbuilt
      · cases hbuilt
      · next hnew =>
          rw [if_neg hnew]
          exact ih _ hbuilt

/-- A list of corresponding events has a catalog too. -/
theorem exists_ofEvents (h : List.Forall₂ P events events') {c : Catalog}
    (hc : ofEvents events = .ok c) : ∃ c', ofEvents events' = .ok c' := by
  obtain ⟨built, hbuilt, -⟩ := ofEvents_eq_ok_iff.1 hc
  obtain ⟨built', hbuilt'⟩ := exists_indexFrom indexes h ∅ hbuilt
  exact ⟨_, ofEvents_eq_ok_iff.2 ⟨built', hbuilt', rfl⟩⟩

/-- Its candidates correspond. -/
theorem forall₂_candidates (h : List.Forall₂ P events events') {c c' : Catalog}
    (hc : ofEvents events = .ok c) (hc' : ofEvents events' = .ok c') (triggerType : String) :
    List.Forall₂ (fun x y => y.position = x.position ∧ P x.event y.event)
      (c.candidates triggerType) (c'.candidates triggerType) := by
  rw [candidates_ofEvents hc, candidates_ofEvents hc']
  exact forall₂_listeners indexes _ 0 h

end Corresponding

end Catalog

/-! ## Catalogs with every event changed -/

/-- A candidate whose event is changed. -/
def Candidate.mapEvent (f : Event → Event) (x : Candidate) : Candidate :=
  { x with event := f x.event }

namespace Catalog

/-- A catalog with every event changed. -/
def mapEvents (f : Event → Event) (c : Catalog) : Catalog where
  events := c.events.map f
  byTrigger := c.byTrigger.mapValues (·.map (·.mapEvent f))

theorem candidates_mapEvents (f : Event → Event) (c : Catalog) (t : String) :
    (c.mapEvents f).candidates t = (c.candidates t).map (·.mapEvent f) := by
  simp only [candidates, mapEvents, IdMap.get?_mapValues]
  cases c.byTrigger.get? (Text.typeKey t) <;> rfl

section Mapped

variable {f : Event → Event} (hid : ∀ event, (f event).id = event.id)
  (htypeKey : ∀ event, (f event).trigger.typeKey = event.trigger.typeKey)

include htypeKey

theorem enroll_mapEvent (index : IdMap (List Candidate)) (x : Candidate) :
    (enroll index x).mapValues (·.map (·.mapEvent f)) =
      enroll (index.mapValues (·.map (·.mapEvent f))) (x.mapEvent f) := by
  apply IdMap.ext_get?
  intro key
  have hkey : (x.mapEvent f).event.trigger.typeKey = x.event.trigger.typeKey := htypeKey x.event
  simp only [enroll, IdMap.get?_mapValues, IdMap.get?_insert, hkey]
  split
  · cases index.get? x.event.trigger.typeKey <;> simp
  · rfl

include hid

theorem indexFrom_map (seen : IdSet) (index : IdMap (List Candidate)) (position : Nat)
    (events : List Event) :
    indexFrom seen (index.mapValues (·.map (·.mapEvent f))) position (events.map f) =
      (indexFrom seen index position events).map (·.mapValues (·.map (·.mapEvent f))) := by
  induction events generalizing seen index position with
  | nil => rfl
  | cons event rest ih =>
      have hhas : (f event).hasId = event.hasId := by rw [Event.hasId, Event.hasId, hid]
      have henroll := enroll_mapEvent htypeKey index ⟨position, event⟩
      simp only [List.map_cons, indexFrom, hid, hhas]
      split
      · rfl
      · rw [← ih, henroll]
        rfl

/-- **The catalog of the changed events** is the changed catalog, if the pass looks at nothing that
is changed. -/
theorem ofEvents_map (events : List Event) :
    ofEvents (events.map f) = (ofEvents events).map (mapEvents f) := by
  have hempty : (∅ : IdMap (List Candidate)) = (∅ : IdMap (List Candidate)).mapValues
      (·.map (·.mapEvent f)) := rfl
  rw [ofEvents, hempty, indexFrom_map hid htypeKey]
  cases h : indexFrom ∅ ∅ 0 events with
  | error err => simp only [ofEvents, h, Except.map]
  | ok index => simp only [ofEvents, h, Except.map, mapEvents]

end Mapped

end Catalog

end Narrative
