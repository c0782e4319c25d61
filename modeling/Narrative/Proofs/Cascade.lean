import Mathlib.Logic.Relation
import Narrative.Proofs.Rack

set_option autoImplicit false

/-!
# What an operation on tokens sets off

Where the tokens of a rack are, and which of them name which, decides what an operation does. To
complete a token that is on the rack fires it, and so does the first call of its callback. A token
that fires completes the one that it names, if that one is on the rack, so it is the tokens that are
reached by names that fire (`Fires`), also if they name one another in a circle, and no others. From
this it follows what becomes of every token (`Becomes`).

A cascade leaves out the token that it starts from, since that one is off the rack by then. This
makes no difference to what is reached from there (`reaches_without_start`), which is what the
induction over a cascade needs (`Orderly.cascade`). The main statement is
`tokens_fire_once_and_when_due`.
-/

namespace Narrative

open RackIncident Relation

namespace TokenRack

/-! ## Tokens that name one another -/

/-- The place that the token at a place names. -/
def next? (r : TokenRack) (i : Nat) : Option Nat := r.tokens[i]?.bind (·.next)

/-- There is a token on the rack at a place. -/
def Holds (r : TokenRack) (i : Nat) : Prop := ∃ t, r.racked? i = some t

/-- The token at a place names the one at another place, which is on the rack. -/
def Names (r : TokenRack) (i j : Nat) : Prop := r.next? i = some j ∧ r.Holds j

section Single

variable {r : TokenRack} {i j k : Nat}

theorem holds_iff : r.Holds i ↔ ∃ t, r.tokens[i]? = some t ∧ t.place = .racked :=
  exists_congr fun _ => racked?_eq_some_iff

theorem holds_iff_place {t : RackToken} (ht : r.tokens[i]? = some t) :
    r.Holds i ↔ t.place = .racked := by
  rw [holds_iff]
  constructor
  · rintro ⟨t', ht', hplace⟩
    rwa [Option.some.inj (ht.symm.trans ht')]
  · exact fun hplace => ⟨t, ht, hplace⟩

theorem next?_eq {t : RackToken} (ht : r.tokens[i]? = some t) : r.next? i = t.next := by
  rw [next?, ht, Option.bind_some]

theorem next?_put (r : TokenRack) (i : Nat) (place : TokenPlace) :
    (r.put i place).next? k = r.next? k := by
  rw [next?, next?, getElem?_put]
  cases r.tokens[k]? with
  | none => rfl
  | some t =>
      simp only [Option.map_some, Option.bind_some]
      split <;> rfl

theorem next?_spend (r : TokenRack) (i : Nat) (label : String) :
    (r.spend i label).next? k = r.next? k := by
  rw [next?, next?, getElem?_spend]
  cases r.tokens[k]? with
  | none => rfl
  | some t =>
      simp only [Option.map_some, Option.bind_some]
      split <;> rfl

/-- A token that is moved off the rack is the only one that is there no longer. -/
theorem holds_put {place : TokenPlace} (hplace : place ≠ .racked) :
    (r.put i place).Holds j ↔ r.Holds j ∧ j ≠ i := by
  simp only [holds_iff, getElem?_put, Option.map_eq_some_iff]
  constructor
  · rintro ⟨_, ⟨t, ht, rfl⟩, h⟩
    split at h
    · exact absurd h hplace
    · next hne => exact ⟨⟨t, ht, h⟩, Ne.symm hne⟩
  · rintro ⟨⟨t, ht, h⟩, hne⟩
    exact ⟨t, ⟨t, ht, if_neg hne.symm⟩, h⟩

theorem holds_spend (r : TokenRack) (i : Nat) (label : String) :
    (r.spend i label).Holds j ↔ r.Holds j := by
  simp only [holds_iff, getElem?_spend, Option.map_eq_some_iff]
  constructor
  · rintro ⟨_, ⟨t, ht, rfl⟩, h⟩
    split at h <;> exact ⟨t, ht, h⟩
  · rintro ⟨t, ht, h⟩
    refine ⟨_, ⟨t, ht, rfl⟩, ?_⟩
    split <;> exact h

theorem names_put {place : TokenPlace} (hplace : place ≠ .racked) :
    (r.put i place).Names j k ↔ r.Names j k ∧ k ≠ i := by
  rw [Names, Names, next?_put, holds_put hplace, and_assoc]

theorem names_spend (r : TokenRack) (i : Nat) (label : String) :
    (r.spend i label).Names j k ↔ r.Names j k := by
  rw [Names, Names, next?_spend, holds_spend]

end Single

/-- The rack after a token has fired and has completed the one that it names. -/
def passOn (r : TokenRack) (i : Nat) (label : String) (n : Nat) : TokenRack :=
  ((r.spend i label).put n .gone).note (.completed n)

section PassOn

variable (r : TokenRack) (i : Nat) (label : String) (n : Nat) {j k : Nat}

theorem holds_passOn : (r.passOn i label n).Holds j ↔ r.Holds j ∧ j ≠ n :=
  (holds_put (by simp)).trans (and_congr_left' (holds_spend r i label))

theorem names_passOn : (r.passOn i label n).Names k j ↔ r.Names k j ∧ j ≠ n :=
  (names_put (by simp)).trans (and_congr_left' (names_spend r i label))

theorem fired_passOn :
    .fired j ∈ (r.passOn i label n).trace ↔ j = i ∨ .fired j ∈ r.trace := by
  show .fired j ∈ .completed n :: .fired i :: r.trace ↔ _
  simp only [List.mem_cons, reduceCtorEq, RackIncident.fired.injEq, false_or]

end PassOn

/-- What is reached from a token is reached as well if the token itself is off the rack. -/
theorem reaches_without_start {r r' : TokenRack} {n : Nat}
    (h : ∀ i j, r'.Names i j ↔ r.Names i j ∧ j ≠ n) (j : Nat) :
    ReflTransGen r'.Names n j ↔ ReflTransGen r.Names n j := by
  constructor
  · exact ReflTransGen.mono (fun i j hij => ((h i j).1 hij).1) n j
  · intro hreach
    induction hreach with
    | refl => exact .refl
    | @tail i j _ hij ih =>
        by_cases hback : j = n
        · rw [hback]
        · exact ih.tail ((h i j).2 ⟨hij, hback⟩)

/-- A token that names nothing on the rack reaches itself only. -/
theorem reaches_iff_of_not_names {r : TokenRack} {i : Nat} (h : ∀ j, ¬ r.Names i j) (j : Nat) :
    ReflTransGen r.Names i j ↔ j = i := by
  rw [ReflTransGen.cases_head_iff]
  constructor
  · rintro (rfl | ⟨k, hik, -⟩)
    · rfl
    · exact absurd hik (h k)
  · exact fun hj => .inl hj.symm

/-- A token that names another one reaches itself and what that one reaches. -/
theorem reaches_iff_of_names {r : TokenRack} {i n : Nat} (h : r.Names i n) (j : Nat) :
    ReflTransGen r.Names i j ↔ j = i ∨ ReflTransGen r.Names n j := by
  rw [ReflTransGen.cases_head_iff]
  refine or_congr eq_comm ⟨?_, fun hn => ⟨n, h, hn⟩⟩
  rintro ⟨k, hik, hkj⟩
  obtain rfl : n = k := Option.some.inj (h.1.symm.trans hik.1)
  exact hkj

/-! ## What a cascade does -/

/-- Every token is still there, with its label and the place that it names, and it is a callback
exactly if it was one. -/
def Carries (r r' : TokenRack) : Prop :=
  ∀ (i : Nat) (t : RackToken), r.tokens[i]? = some t → ∃ t', r'.tokens[i]? = some t' ∧
    t'.label = t.label ∧ t'.next = t.next ∧ (t'.place = .callback ↔ t.place = .callback)

theorem Carries.refl (r : TokenRack) : r.Carries r := fun _ _ ht => ⟨_, ht, rfl, rfl, Iff.rfl⟩

theorem Carries.trans {r r' r'' : TokenRack} (h : r.Carries r') (h' : r'.Carries r'') :
    r.Carries r'' := by
  intro i t ht
  obtain ⟨t', ht', hlabel, hnext, hcallback⟩ := h i t ht
  obtain ⟨t'', ht'', hlabel', hnext', hcallback'⟩ := h' i t' ht'
  exact ⟨t'', ht'', hlabel'.trans hlabel, hnext'.trans hnext, hcallback'.trans hcallback⟩

/-- To take a token off the rack for good makes no callback of it, nor of any other. -/
theorem carries_put {r : TokenRack} {i : Nat} {t : RackToken} (hi : r.racked? i = some t) :
    r.Carries (r.put i .gone) := by
  obtain ⟨ht, hplace⟩ := racked?_eq_some_iff.1 hi
  intro j u hu
  rw [getElem?_put, hu, Option.map_some]
  refine ⟨_, rfl, ?_⟩
  split
  · next hij =>
      obtain rfl : t = u := Option.some.inj (ht.symm.trans (hij ▸ hu))
      exact ⟨rfl, rfl, iff_of_false (by simp) (by simp [hplace])⟩
  · exact ⟨rfl, rfl, Iff.rfl⟩

theorem carries_spend (r : TokenRack) (i : Nat) (label : String) : r.Carries (r.spend i label) := by
  intro j u hu
  rw [getElem?_spend, hu, Option.map_some]
  refine ⟨_, rfl, ?_⟩
  split <;> exact ⟨rfl, rfl, Iff.rfl⟩

theorem carries_fire (r : TokenRack) (i : Nat) : r.Carries (r.fire i) := by
  fun_induction fire i r with
  | case1 i r hnone => exact .refl r
  | case2 i r t ht hpending fired hnext => exact carries_spend r i t.label
  | case3 i r t ht hpending fired n hnext hracked => exact carries_spend r i t.label
  | case4 i r t ht hpending fired n hnext t' hracked ih =>
      exact ((carries_spend r i t.label).trans (carries_put hracked)).trans ih
  | case5 i r t ht hpending => exact .refl r

/-- A cascade has fired some tokens, and has left the others on the rack that were there. -/
structure Cascaded (r : TokenRack) (reached : Nat → Prop) (r' : TokenRack) : Prop where
  fired : ∀ j, .fired j ∈ r'.trace ↔ .fired j ∈ r.trace ∨ reached j
  left : ∀ j, r'.Holds j ↔ r.Holds j ∧ ¬ reached j

namespace Orderly

variable {r : TokenRack} {i : Nat}

/-- A token that is due is not on the rack. -/
theorem ne_of_due (h : r.Orderly) (hdue : due? r.trace = some i) {j : Nat} (hj : r.Holds j) :
    j ≠ i := by
  rintro rfl
  obtain ⟨t, ht, hplace, -⟩ := h.of_due hdue
  exact hplace ((holds_iff_place ht).1 hj)

/-- A token that is due and names nothing on the rack fires alone. -/
theorem cascade_of_not_names (h : r.Orderly) (hdue : due? r.trace = some i) (label : String)
    (halone : ∀ j, ¬ r.Names i j) : r.Cascaded (ReflTransGen r.Names i) (r.spend i label) := by
  refine ⟨fun j => ?_, fun j => ?_⟩
  · show .fired j ∈ .fired i :: r.trace ↔ _
    rw [reaches_iff_of_not_names halone, List.mem_cons, RackIncident.fired.injEq, or_comm]
  · rw [reaches_iff_of_not_names halone, holds_spend, iff_self_and]
    exact h.ne_of_due hdue

/-- A token that is due and names one on the rack fires, and what that one sets off is the rest of
the cascade. -/
theorem cascade_of_names (h : r.Orderly) (hdue : due? r.trace = some i) {label : String} {n : Nat}
    (hnames : r.Names i n) {r' : TokenRack}
    (hrest : (r.passOn i label n).Cascaded (ReflTransGen (r.passOn i label n).Names n) r') :
    r.Cascaded (ReflTransGen r.Names i) r' := by
  have hreach := reaches_without_start fun k j => r.names_passOn i label n
  refine ⟨fun j => ?_, fun j => ?_⟩
  · rw [hrest.fired, hreach, fired_passOn, reaches_iff_of_names hnames, or_assoc, or_left_comm]
  · rw [hrest.left, hreach, holds_passOn, reaches_iff_of_names hnames, not_or]
    constructor
    · rintro ⟨⟨hj, -⟩, hnot⟩
      exact ⟨hj, h.ne_of_due hdue hj, hnot⟩
    · rintro ⟨hj, -, hnot⟩
      refine ⟨⟨hj, ?_⟩, hnot⟩
      rintro rfl
      exact hnot .refl

/-- **A cascade fires what is reached from its start**, and takes it off the rack. -/
theorem cascade (h : r.Orderly) (hdue : due? r.trace = some i) :
    r.Cascaded (ReflTransGen r.Names i) (r.fire i) := by
  fun_induction TokenRack.fire i r with
  | case1 i r hnone =>
      obtain ⟨t, ht, -⟩ := h.of_due hdue
      rw [hnone] at ht
      cases ht
  | case2 i r t ht hpending fired hnext =>
      refine h.cascade_of_not_names hdue t.label fun j hij => ?_
      rw [Names, next?_eq ht, hnext] at hij
      cases hij.1
  | case3 i r t ht hpending fired n hnext hracked =>
      refine h.cascade_of_not_names hdue t.label fun j hij => ?_
      rw [Names, next?_eq ht, hnext] at hij
      obtain ⟨t', ht'⟩ := (holds_spend r i t.label).2 hij.2
      rw [← Option.some.inj hij.1, hracked] at ht'
      cases ht'
  | case4 i r t ht hpending fired n hnext t' hracked ih =>
      -- the token that is named is completed, and is due from then on
      have hfired : fired.Orderly := h.spend hdue ht
      have hleft := hfired.leave (due_fired i r.trace) hracked (.completed n) .gone rfl
        (.inl rfl) rfl
      have hnames : r.Names i n :=
        ⟨(next?_eq ht).trans hnext, (holds_spend r i t.label).1 ⟨t', hracked⟩⟩
      exact h.cascade_of_names hdue hnames (ih hleft (due_completed n _))
  | case5 i r t ht hpending =>
      obtain ⟨t', ht', -, hpending'⟩ := h.of_due hdue
      obtain rfl : t = t' := Option.some.inj (ht.symm.trans ht')
      exact absurd hpending' hpending

end Orderly

/-! ## What an operation does -/

/-- An operation fires a token to begin with: it completes it on the rack, or calls its callback for
the first time. -/
inductive Starts (r : TokenRack) : RackOp → Nat → Prop where
  | completed {i : Nat} {t : RackToken} (hi : r.racked? i = some t) : Starts r (.complete i) i
  | called {i : Nat} {t : RackToken} (ht : r.tokens[i]? = some t) (hplace : t.place = .callback)
      (hpending : t.pending = true) : Starts r (.call i) i

/-- An operation fires a token: the token is reached by names from the one that it fires to begin
with. -/
def Fires (r : TokenRack) (op : RackOp) (j : Nat) : Prop :=
  ∃ i, r.Starts op i ∧ ReflTransGen r.Names i j

/-- What becomes of a token in an operation. It is no longer pending if it fires, it leaves the rack
if it fires or is dropped or converted, and only the last makes a callback of it. -/
structure Becomes (r : TokenRack) (op : RackOp) (i : Nat) (t t' : RackToken) : Prop where
  label : t'.label = t.label
  next : t'.next = t.next
  pending : t'.pending = true ↔ t.pending = true ∧ ¬ r.Fires op i
  racked : t'.place = .racked ↔
    t.place = .racked ∧ ¬ r.Fires op i ∧ op ≠ .drop i ∧ op ≠ .convert i
  callback : t'.place = .callback ↔
    t.place = .callback ∨ t.place = .racked ∧ op = .convert i

section Fires

variable {r : TokenRack} {op : RackOp} {i j : Nat}

theorem Starts.fires (h : r.Starts op i) : r.Fires op i := ⟨i, h, .refl⟩

theorem fires_iff (h : r.Starts op i) : r.Fires op j ↔ ReflTransGen r.Names i j := by
  constructor
  · rintro ⟨k, hk, hreach⟩
    obtain rfl : i = k := by
      cases h with
      | completed => cases hk; rfl
      | called => cases hk; rfl
    exact hreach
  · exact fun hreach => ⟨i, h, hreach⟩

theorem not_starts_absent (hop : op = .complete i ∨ op = .drop i ∨ op = .convert i)
    (hi : r.racked? i = none) (j : Nat) : ¬ r.Starts op j := by
  rcases hop with rfl | rfl | rfl
  · rintro ⟨hi'⟩
    rw [hi] at hi'
    cases hi'
  · nofun
  · nofun

theorem not_starts_uncallable (hi : ∀ t, r.tokens[i]? = some t → t.place ≠ .callback) (j : Nat) :
    ¬ r.Starts (.call i) j := by
  intro h
  cases h with
  | called ht hplace => exact hi _ ht hplace

theorem not_fires (h : ∀ i, ¬ r.Starts op i) : ¬ r.Fires op j := fun ⟨i, hi, _⟩ => h i hi

/-- A token that does not fire and is not taken off the rack stays as it is. -/
theorem Becomes.stay {t : RackToken} (hquiet : ¬ r.Fires op i)
    (hleft : t.place = .racked → op ≠ .drop i ∧ op ≠ .convert i) : r.Becomes op i t t where
  label := rfl
  next := rfl
  pending := (and_iff_left hquiet).symm
  racked := ⟨fun hplace => ⟨hplace, hquiet, hleft hplace⟩, And.left⟩
  callback := (or_iff_left fun hconvert => (hleft hconvert.1).2 hconvert.2).symm

/-- What becomes of the tokens when one is dropped or converted. -/
theorem becomes_of_put {k : Nat} {t t₀ : RackToken} {place : TokenPlace}
    (hk : r.racked? k = some t₀)
    (hop : op = .drop k ∧ place = .gone ∨ op = .convert k ∧ place = .callback)
    (ht : r.tokens[i]? = some t) :
    ∃ t', (r.put k place).tokens[i]? = some t' ∧ r.Becomes op i t t' := by
  have hquiet : ¬ r.Fires op i := by
    rcases hop with ⟨rfl, -⟩ | ⟨rfl, -⟩ <;> exact not_fires nofun
  rw [getElem?_put, ht, Option.map_some]
  refine ⟨_, rfl, ?_⟩
  split
  · next hki =>
      obtain ⟨ht₀, hplace⟩ := racked?_eq_some_iff.1 hk
      obtain rfl : t = t₀ := Option.some.inj (ht.symm.trans (hki ▸ ht₀))
      refine ⟨rfl, rfl, (and_iff_left hquiet).symm, ?_, ?_⟩
      all_goals rcases hop with ⟨rfl, rfl⟩ | ⟨rfl, rfl⟩ <;> simp [hplace, hki]
  · next hki =>
      refine .stay hquiet fun _ => ?_
      rcases hop with ⟨rfl, -⟩ | ⟨rfl, -⟩ <;> simp [hki]

end Fires

namespace Settled

variable {r r' : TokenRack} {op : RackOp} {i : Nat} {t : RackToken}

/-- To complete a token on the rack starts a cascade. -/
theorem cascade_complete (h : r.Settled) (hi : r.racked? i = some t) :
    r.Cascaded (r.Fires (.complete i)) (((r.put i .gone).note (.completed i)).fire i) := by
  have hleft := h.leave h.due hi (.completed i) .gone rfl (.inl rfl) rfl
  have hcascade := hleft.cascade (due_completed i r.trace)
  have hreach : ∀ j, ReflTransGen ((r.put i .gone).note (.completed i)).Names i j ↔
      r.Fires (.complete i) j := by
    intro j
    rw [fires_iff (.completed hi)]
    exact reaches_without_start (fun k l => names_put (by simp)) j
  have hholds : ∀ j, ((r.put i .gone).note (.completed i)).Holds j ↔ r.Holds j ∧ j ≠ i :=
    fun j => holds_put (by simp)
  refine ⟨fun j => ?_, fun j => ?_⟩
  · rw [hcascade.fired, hreach]
    refine or_congr_left ?_
    show .fired j ∈ .completed i :: r.trace ↔ _
    rw [List.mem_cons, or_iff_right (by simp)]
  · rw [hcascade.left, hreach, hholds, and_assoc]
    refine and_congr_right' (and_iff_right_of_imp ?_)
    rintro hnot rfl
    exact hnot (Starts.completed hi).fires

/-- To call a callback starts one if the token is pending. -/
theorem cascade_call (h : r.Settled) (ht : r.tokens[i]? = some t) (hplace : t.place = .callback) :
    r.Cascaded (r.Fires (.call i)) ((r.note (.called i)).fire i) := by
  have htrace : ∀ j, .fired j ∈ (r.note (.called i)).trace ↔ .fired j ∈ r.trace := by
    intro j
    show .fired j ∈ .called i :: r.trace ↔ _
    rw [List.mem_cons, or_iff_right (by simp)]
  cases hpending : t.pending with
  | true =>
      have hcalled := h.toOrderly.call h.due ht hplace
      have hcascade := hcalled.cascade (h.due_call ht hpending)
      have hfires : ∀ j, r.Fires (.call i) j ↔ ReflTransGen r.Names i j :=
        fun j => fires_iff (.called ht hplace hpending)
      refine ⟨fun j => ?_, fun j => ?_⟩
      · rw [hcascade.fired, htrace, hfires]
        rfl
      · rw [hcascade.left, hfires]
        rfl
  | false =>
      have hsame : (r.note (.called i)).fire i = r.note (.called i) :=
        fire_of_fired (r := r.note (.called i)) ht hpending
      have hquiet : ∀ j, ¬ r.Fires (.call i) j := fun j => not_fires fun k hk => by
        cases hk with
        | called ht' _ hpending' =>
            rw [Option.some.inj (ht.symm.trans ht'), hpending'] at hpending
            cases hpending
      rw [hsame]
      exact ⟨fun j => (htrace j).trans (or_iff_left (hquiet j)).symm,
        fun j => (and_iff_left (hquiet j)).symm⟩

/-- **An operation fires what it is said to fire**, and leaves the rest as it was. -/
theorem fired_does (h : r.Settled) (hdoes : r.Does op r') (j : Nat) :
    .fired j ∈ r'.trace ↔ .fired j ∈ r.trace ∨ r.Fires op j := by
  cases hdoes with
  | absent hop hi => rw [or_iff_left (not_fires (not_starts_absent hop hi))]
  | uncallable hi => rw [or_iff_left (not_fires (not_starts_uncallable hi))]
  | added label next =>
      have hquiet : ¬ r.Fires (.create label next) j := not_fires nofun
      exact (or_iff_left hquiet).symm
  | @dropped i =>
      have hquiet : ¬ r.Fires (.drop i) j := not_fires nofun
      show .fired j ∈ .taken i .gone :: r.trace ↔ _
      rw [or_iff_left hquiet, List.mem_cons, or_iff_right (by simp)]
  | @converted i =>
      have hquiet : ¬ r.Fires (.convert i) j := not_fires nofun
      show .fired j ∈ .taken i .callback :: r.trace ↔ _
      rw [or_iff_left hquiet, List.mem_cons, or_iff_right (by simp)]
  | completed hi => exact (h.cascade_complete hi).fired j
  | called ht hplace => exact (h.cascade_call ht hplace).fired j

/-- What becomes of the tokens in a cascade. -/
theorem becomes_of_cascade (h : r.Settled) (h' : r'.Settled) (hcarries : r.Carries r')
    (hcascade : r.Cascaded (r.Fires op) r') (hop : op ≠ .drop i ∧ op ≠ .convert i)
    (ht : r.tokens[i]? = some t) :
    ∃ t', r'.tokens[i]? = some t' ∧ r.Becomes op i t t' := by
  obtain ⟨t', ht', hlabel, hnext, hcallback⟩ := hcarries i t ht
  refine ⟨t', ht', hlabel, hnext, ?_, ?_, ?_⟩
  · rw [h'.pending ht', h.pending ht, hcascade.fired, not_or]
  · rw [← holds_iff_place ht', ← holds_iff_place ht, hcascade.left, and_iff_left hop]
  · rw [hcallback, or_iff_left fun hconvert => hop.2 hconvert.2]

/-- **What becomes of every token** when something is done. -/
theorem becomes_does (h : r.Settled) (hdoes : r.Does op r') (ht : r.tokens[i]? = some t) :
    ∃ t', r'.tokens[i]? = some t' ∧ r.Becomes op i t t' := by
  have hafter := h.does hdoes
  cases hdoes with
  | @absent op k hop hi =>
      refine ⟨t, ht, .stay (not_fires (not_starts_absent hop hi)) fun hplace => ?_⟩
      have hother : k ≠ i := by
        rintro rfl
        rw [racked?_eq_some_iff.2 ⟨ht, hplace⟩] at hi
        cases hi
      rcases hop with rfl | rfl | rfl <;> simp [hother]
  | uncallable hi => exact ⟨t, ht, .stay (not_fires (not_starts_uncallable hi)) fun _ => by simp⟩
  | added label next =>
      have hlt := (List.getElem?_eq_some_iff.1 ht).1
      exact ⟨t, (List.getElem?_append_left hlt).trans ht, .stay (not_fires nofun) fun _ => by simp⟩
  | dropped hi => exact becomes_of_put hi (.inl ⟨rfl, rfl⟩) ht
  | converted hi => exact becomes_of_put hi (.inr ⟨rfl, rfl⟩) ht
  | @completed k t₀ hi =>
      have hcascade := carries_fire ((r.put k .gone).note (.completed k)) k
      have hcarries := Carries.trans (carries_put hi) hcascade
      exact h.becomes_of_cascade hafter hcarries (h.cascade_complete hi) (by simp) ht
  | @called k t₀ hi hplace =>
      have hcarries := carries_fire (r.note (.called k)) k
      exact h.becomes_of_cascade hafter hcarries (h.cascade_call hi hplace) (by simp) ht

/-- What is dropped never fires, whatever is done later. -/
theorem not_fired_of_drop (h : r.Settled) (hi : r.racked? i = some t) (more : List RackOp) :
    .fired i ∉ (more.foldl step (r.step (.drop i))).trace := by
  have hdropped : .taken i .gone ∈ (r.step (.drop i)).trace := by
    rw [step, take, hi]
    exact List.mem_cons_self
  have hlater := settled_foldl (h.does (r.does_step (.drop i))) more
  exact hlater.not_fired_of_dropped ((trace_foldl _ more).mem hdropped)

end Settled

/-- A new token is on the rack, behind those that there are. -/
theorem racked?_create (r : TokenRack) (label : String) (next : Option Nat) :
    (r.step (.create label next)).racked? r.tokens.length = some { label, next } := by
  have hnew : (r.step (.create label next)).tokens[r.tokens.length]? = some { label, next } :=
    List.getElem?_concat_length
  exact racked?_eq_some_iff.2 ⟨hnew, rfl⟩

/-- **Tokens fire once, and when they are due.** Whatever is done on a rack, with any number of
tokens that complete one another in any way, also in circles:

* each token fires at most once, and the log has the labels of those that fired, in order;
* in the history of the rack a token fires right after it was completed, by the host or by another
  token, or right after its callback was called for the first time, and at no other time; so it has
  fired if and only if one of the two has happened;
* a token that is on the rack fires when it is completed, and a callback has fired once it is called;
  with it fires every token that is reached by names along the rack, and nothing else does (`Fires`);
* a new token is on the rack, and a token stays there until it fires, is dropped or is turned into a
  callback, and keeps its label and the place that it names (`Becomes`);
* a token that is dropped from the rack, so was not turned into a callback, never fires;
* a token is pending as long as it has not fired, and never again afterwards;
* an operation, with all that it sets off, fires at most as many tokens as have yet to fire. -/
theorem tokens_fire_once_and_when_due (ops : List RackOp) :
    let r := run ops
    (∀ i, r.trace.count (.fired i) ≤ 1) ∧ r.log = (r.trace.filterMap r.heard).reverse ∧
    Punctual r.trace ∧ due? r.trace = none ∧
    (∀ i, .fired i ∈ r.trace ↔ .completed i ∈ r.trace ∨ .called i ∈ r.trace) ∧
    (∀ i t, r.racked? i = some t → .fired i ∈ (r.step (.complete i)).trace) ∧
    (∀ i t, r.tokens[i]? = some t → t.place = .callback →
      .fired i ∈ (r.step (.call i)).trace) ∧
    (∀ op i, .fired i ∈ (r.step op).trace ↔ .fired i ∈ r.trace ∨ r.Fires op i) ∧
    (∀ label next,
      (r.step (.create label next)).racked? r.tokens.length = some { label, next }) ∧
    (∀ op i t, r.tokens[i]? = some t →
      ∃ t', (r.step op).tokens[i]? = some t' ∧ r.Becomes op i t t') ∧
    (∀ i t, r.racked? i = some t →
      ∀ more : List RackOp, .fired i ∉ (more.foldl step (r.step (.drop i))).trace) ∧
    (∀ i t, r.tokens[i]? = some t → (t.pending = true ↔ .fired i ∉ r.trace)) ∧
    (∀ i more t, .fired i ∈ r.trace → (run (ops ++ more)).tokens[i]? = some t →
      t.pending = false) ∧
    ∀ op, (r.step op).log.length ≤ r.log.length + r.unfired := by
  intro r
  have h : r.Settled := settled_run ops
  have hfired : ∀ op i, .fired i ∈ (r.step op).trace ↔ .fired i ∈ r.trace ∨ r.Fires op i :=
    fun op => h.fired_does (r.does_step op)
  refine ⟨h.once, h.logged, h.punctual, h.due, h.fired_iff, fun i t hi => ?_,
    fun i t ht hplace => ?_, hfired, r.racked?_create,
    fun op i t ht => h.becomes_does (r.does_step op) ht, fun i t hi => h.not_fired_of_drop hi,
    fun i t ht => h.pending ht, fun i more t hi ht => ?_, fun op => (r.does_step op).log⟩
  · exact (hfired _ i).2 (.inr (Starts.completed hi).fires)
  · refine (hfired _ i).2 ?_
    by_cases hbefore : .fired i ∈ r.trace
    · exact .inl hbefore
    · exact .inr (Starts.called ht hplace ((h.pending ht).2 hbefore)).fires
  · rw [run_append] at ht
    have hlater : .fired i ∈ (more.foldl step r).trace := (trace_foldl r more).mem hi
    rw [Bool.eq_false_iff, Ne, (settled_foldl h more).pending ht, not_not]
    exact hlater

/-- Three tokens in a circle, and two more of which the first names the second and is a callback. -/
def circle : List RackOp :=
  [.create "a" (some 1), .create "b" (some 2), .create "c" (some 0), .create "d" (some 4),
    .create "e" none, .convert 3]

/-- Wherever the circle is entered, it fires all around; the callback fires with the token that it
names, unless that one is dropped first. -/
theorem circle_fires_around :
    let r := run circle
    r.Fires (.complete 1) 0 ∧ .fired 0 ∈ (r.step (.complete 1)).trace ∧
      (r.step (.complete 1)).log = ["b", "c", "a"] ∧
      (r.step (.complete 1)).log.length ≤ r.log.length + r.unfired ∧
      .fired 3 ∈ (r.step (.call 3)).trace ∧ (r.step (.call 3)).log = ["d", "e"] ∧
      (∀ more : List RackOp, .fired 4 ∉ (more.foldl step (r.step (.drop 4))).trace) ∧
      (run (circle ++ [.drop 4, .call 3, .complete 4])).log = ["d"] := by
  intro r
  obtain ⟨-, -, -, -, -, hcompleted, hcalled, hfires, -, -, hdropped, -, -, hlog⟩ :=
    tokens_fire_once_and_when_due circle
  have haround : r.Fires (.complete 1) 0 := by
    have hnames : r.Names 1 2 ∧ r.Names 2 0 := ⟨⟨rfl, _, rfl⟩, ⟨rfl, _, rfl⟩⟩
    exact ⟨1, .completed rfl, .tail (.single hnames.1) hnames.2⟩
  exact ⟨haround, (hfires _ 0).2 (.inr haround), by decide +kernel, hlog _, hcalled 3 _ rfl rfl,
    by decide +kernel, hdropped 4 _ rfl, by decide +kernel⟩

end TokenRack

end Narrative
