import Mathlib.Data.List.Basic
import Narrative.TokenRack

set_option autoImplicit false

/-!
# Tokens in order

Whatever is done with the tokens of a rack, each of them fires at most once, and exactly when it is
due: right after it was completed, or right after its callback was called for the first time. So it
is in a cascade too, where one token completes the next from within.

The history of a rack is `Punctual` if tokens fire in it when they are due and at no other time. A
rack stays in order (`Orderly`) under every operation. The operations themselves only take tokens
off the rack and call callbacks (`TokenRack.Does`); the rest is done by `TokenRack.fire`, which is
followed by the induction that it was defined by (`Orderly.fire`). A cascade turns one pending token
after the other into one that has fired, so their number bounds its length (`log_fire`).
-/

namespace Narrative

namespace RackIncident

/-- The token that something happens to. -/
def token : RackIncident → Nat
  | .completed i | .called i | .fired i | .taken i _ => i

/-- Where a token is once something has happened to it. -/
def Leaves : RackIncident → TokenPlace → Prop
  | .completed _, place => place = .gone
  | .called _, place => place = .callback
  | .fired _, place => place ≠ .racked
  | .taken _ target, place => place = target ∧ place ≠ .racked

theorem Leaves.ne_racked {x : RackIncident} {place : TokenPlace} (h : x.Leaves place) :
    place ≠ .racked := by
  cases x with
  | completed =>
      rintro rfl
      cases h
  | called =>
      rintro rfl
      cases h
  | fired => exact h
  | taken => exact h.2

/-- The token that has to fire next in a history, newest first: the one that was just completed, or
the one whose callback was just called for the first time. -/
def due? : List RackIncident → Option Nat
  | .completed i :: _ => some i
  | .called i :: earlier => if .called i ∈ earlier then none else some i
  | _ => none

/-- A history, newest first, in which a token fires if it is due and only then. -/
def Punctual : List RackIncident → Prop
  | [] => True
  | x :: earlier => (∀ i, x = .fired i ↔ due? earlier = some i) ∧ Punctual earlier

/-- A token that is due has been completed or called just before. -/
theorem head_of_due {trace : List RackIncident} {i : Nat} (h : due? trace = some i) :
    ∃ x earlier, trace = x :: earlier ∧ (x = .completed i ∨ x = .called i) := by
  cases trace with
  | nil => cases h
  | cons x earlier =>
      refine ⟨x, earlier, rfl, ?_⟩
      cases x with
      | completed j =>
          simp only [due?, Option.some.injEq] at h
          exact .inl (h ▸ rfl)
      | called j =>
          simp only [due?] at h
          split at h
          · cases h
          · simp only [Option.some.injEq] at h
            exact .inr (h ▸ rfl)
      | fired => cases h
      | taken => cases h

theorem due_completed (i : Nat) (earlier : List RackIncident) :
    due? (.completed i :: earlier) = some i := rfl

theorem due_called_of_not_mem {i : Nat} {earlier : List RackIncident}
    (h : .called i ∉ earlier) : due? (.called i :: earlier) = some i := by
  rw [due?, if_neg h]

theorem due_called_of_mem {i : Nat} {earlier : List RackIncident} (h : .called i ∈ earlier) :
    due? (.called i :: earlier) = none := by
  rw [due?, if_pos h]

/-- What is neither a completion nor a call makes nothing due. -/
theorem due_taken (i : Nat) (place : TokenPlace) (earlier : List RackIncident) :
    due? (.taken i place :: earlier) = none := rfl

theorem due_fired (i : Nat) (earlier : List RackIncident) : due? (.fired i :: earlier) = none := rfl

/-- As long as nothing is due, everything but a firing may happen. -/
theorem Punctual.cons {trace : List RackIncident} (h : Punctual trace) (hdue : due? trace = none)
    {x : RackIncident} (hx : ∀ i, x ≠ .fired i) : Punctual (x :: trace) := by
  refine ⟨fun i => ?_, h⟩
  rw [hdue]
  exact iff_of_false (hx i) (by simp)

/-- What is due may fire. -/
theorem Punctual.fire {trace : List RackIncident} (h : Punctual trace) {i : Nat}
    (hdue : due? trace = some i) : Punctual (.fired i :: trace) := by
  refine ⟨fun j => ?_, h⟩
  rw [hdue, RackIncident.fired.injEq, Option.some.injEq]

/-- What has fired was completed or called. -/
theorem Punctual.of_mem_fired {trace : List RackIncident} (h : Punctual trace) {i : Nat}
    (hi : .fired i ∈ trace) : .completed i ∈ trace ∨ .called i ∈ trace := by
  induction trace with
  | nil => cases hi
  | cons x earlier ih =>
      obtain ⟨hx, hearlier⟩ := h
      rcases List.mem_cons.1 hi with rfl | hi
      · obtain ⟨y, before, rfl, rfl | rfl⟩ := head_of_due ((hx i).1 rfl)
        · exact .inl (List.mem_cons_of_mem _ List.mem_cons_self)
        · exact .inr (List.mem_cons_of_mem _ List.mem_cons_self)
      · exact (ih hearlier hi).imp (List.mem_cons_of_mem x) (List.mem_cons_of_mem x)

/-- What was completed or called has fired, unless it is due. -/
theorem Punctual.fired_or_due {trace : List RackIncident} (h : Punctual trace) {i : Nat}
    (hi : .completed i ∈ trace ∨ .called i ∈ trace) : .fired i ∈ trace ∨ due? trace = some i := by
  induction trace with
  | nil => simp at hi
  | cons x earlier ih =>
      obtain ⟨hx, hearlier⟩ := h
      have hlater : .completed i ∈ earlier ∨ .called i ∈ earlier →
          .fired i ∈ x :: earlier ∨ due? (x :: earlier) = some i := by
        intro hbefore
        rcases ih hearlier hbefore with hfired | hdue
        · exact .inl (List.mem_cons_of_mem x hfired)
        · exact .inl ((hx i).2 hdue ▸ List.mem_cons_self)
      rcases hi with hi | hi
      · rcases List.mem_cons.1 hi with rfl | hi
        · exact .inr rfl
        · exact hlater (.inl hi)
      · rcases List.mem_cons.1 hi with rfl | hi
        · by_cases hbefore : .called i ∈ earlier
          · exact hlater (.inr hbefore)
          · exact .inr (due_called_of_not_mem hbefore)
        · exact hlater (.inr hi)

end RackIncident

open RackIncident

namespace TokenRack

/-! ## Single changes -/

theorem getElem?_put (r : TokenRack) (i j : Nat) (place : TokenPlace) :
    (r.put i place).tokens[j]? =
      r.tokens[j]?.map fun t => if i = j then { t with place } else t := by
  simp only [put, List.getElem?_modify]
  rfl

theorem getElem?_spend (r : TokenRack) (i j : Nat) (label : String) :
    (r.spend i label).tokens[j]? =
      r.tokens[j]?.map fun t => if i = j then { t with pending := false } else t := by
  simp only [spend, List.getElem?_modify]
  rfl

theorem racked?_eq_some_iff {r : TokenRack} {i : Nat} {t : RackToken} :
    r.racked? i = some t ↔ r.tokens[i]? = some t ∧ t.place = .racked := by
  rw [racked?, Option.filter_eq_some_iff, beq_iff_eq]

/-- What is heard when something happens: the label of a token that fires. -/
def heard (r : TokenRack) : RackIncident → Option String
  | .fired i => r.tokens[i]?.map (·.label)
  | _ => none

/-- Racks with the same labels are heard alike. -/
theorem heard_congr {r r' : TokenRack}
    (h : ∀ j : Nat, r'.tokens[j]?.map (·.label) = r.tokens[j]?.map (·.label)) :
    r'.heard = r.heard := by
  funext x
  cases x with
  | fired j => exact h j
  | _ => rfl

theorem heard_put (r : TokenRack) (i : Nat) (place : TokenPlace) :
    (r.put i place).heard = r.heard := by
  refine heard_congr fun j => ?_
  rw [getElem?_put]
  cases r.tokens[j]? with
  | none => rfl
  | some t =>
      simp only [Option.map_some]
      split <;> rfl

theorem heard_spend (r : TokenRack) (i : Nat) (label : String) :
    (r.spend i label).heard = r.heard := by
  refine heard_congr fun j => ?_
  rw [getElem?_spend]
  cases r.tokens[j]? with
  | none => rfl
  | some t =>
      simp only [Option.map_some]
      split <;> rfl

/-! ## Racks in order -/

/-- A rack is in order: its tokens fire when they are due and not twice, the tokens are where their
histories have left them, and the log has the labels of those that fired. -/
structure Orderly (r : TokenRack) : Prop where
  punctual : Punctual r.trace
  once : ∀ i, r.trace.count (.fired i) ≤ 1
  pending : ∀ {i : Nat} {t : RackToken}, r.tokens[i]? = some t →
    (t.pending = true ↔ .fired i ∉ r.trace)
  placed : ∀ x ∈ r.trace, ∃ t, r.tokens[x.token]? = some t ∧ x.Leaves t.place
  dropped : ∀ {i : Nat}, .taken i .gone ∈ r.trace → .completed i ∉ r.trace
  unfired : ∀ {i : Nat}, due? r.trace = some i → .fired i ∉ r.trace
  logged : r.log = (r.trace.filterMap r.heard).reverse

theorem orderly_empty : Orderly {} where
  punctual := trivial
  once _ := by simp
  pending h := by simp at h
  placed _ h := by cases h
  dropped h := by cases h
  unfired h := by cases h
  logged := rfl

namespace Orderly

variable {r : TokenRack} {i : Nat} {t : RackToken}

/-- Nothing has happened to a token on the rack. -/
theorem token_ne (h : r.Orderly) (hi : r.racked? i = some t) {x : RackIncident}
    (hx : x ∈ r.trace) : x.token ≠ i := by
  rintro rfl
  obtain ⟨ht, hplace⟩ := racked?_eq_some_iff.1 hi
  obtain ⟨t', ht', hleaves⟩ := h.placed x hx
  obtain rfl : t = t' := Option.some.inj (ht.symm.trans ht')
  exact hleaves.ne_racked hplace

/-- What was dropped has not fired: it was not completed, and it has no callback. -/
theorem not_fired_of_dropped (h : r.Orderly) (hi : .taken i .gone ∈ r.trace) :
    .fired i ∉ r.trace := by
  intro hfired
  obtain ⟨t, ht, hgone, -⟩ := h.placed _ hi
  rcases h.punctual.of_mem_fired hfired with hcompleted | hcalled
  · exact h.dropped hi hcompleted
  · obtain ⟨t', ht', hcallback⟩ := h.placed _ hcalled
    obtain rfl : t = t' := Option.some.inj (ht.symm.trans ht')
    have hplace : t.place = .callback := hcallback
    rw [hgone] at hplace
    cases hplace

/-- A token on the rack may be moved: nothing has happened to it yet. -/
theorem put (h : r.Orderly) (hi : r.racked? i = some t) (place : TokenPlace) :
    (r.put i place).Orderly := by
  refine { h with pending := ?_, placed := ?_, logged := ?_ }
  · intro j t' ht'
    rw [getElem?_put, Option.map_eq_some_iff] at ht'
    obtain ⟨t₀, ht₀, rfl⟩ := ht'
    have hpending := h.pending ht₀
    split
    · exact hpending
    · exact hpending
  · intro x hx
    obtain ⟨t', ht', hleaves⟩ := h.placed x hx
    refine ⟨t', ?_, hleaves⟩
    rw [getElem?_put, ht', Option.map_some, if_neg (h.token_ne hi hx).symm]
  · rw [heard_put]
    exact h.logged

/-- As long as nothing is due, everything but a firing may happen to a token where it is, if it does
not contradict what happened to the token before. -/
theorem note (h : r.Orderly) (hdue : due? r.trace = none) {x : RackIncident}
    (hx : ∀ j, x ≠ .fired j) (hplaced : ∃ t, r.tokens[x.token]? = some t ∧ x.Leaves t.place)
    (hdropped : ∀ j, .taken j .gone ∈ x :: r.trace → .completed j ∉ x :: r.trace)
    (hunfired : ∀ j, due? (x :: r.trace) = some j → .fired j ∉ r.trace) :
    (r.note x).Orderly := by
  have hmem : ∀ j, .fired j ∈ x :: r.trace ↔ .fired j ∈ r.trace := fun j => by
    rw [List.mem_cons, or_iff_right fun hj => hx j hj.symm]
  constructor
  · exact h.punctual.cons hdue hx
  · intro j
    show (x :: r.trace).count (.fired j) ≤ 1
    rw [List.count_cons_of_ne (hx j)]
    exact h.once j
  · intro j t' ht'
    exact (h.pending ht').trans (not_congr (hmem j)).symm
  · exact List.forall_mem_cons.2 ⟨hplaced, h.placed⟩
  · intro j
    exact hdropped j
  · intro j hj
    exact fun hfired => hunfired j hj ((hmem j).1 hfired)
  · have hsilent : r.heard x = none := by
      cases x with
      | fired j => exact absurd rfl (hx j)
      | _ => rfl
    show r.log = ((x :: r.trace).filterMap r.heard).reverse
    rw [List.filterMap_cons_none hsilent]
    exact h.logged

/-- A token on the rack may be completed or taken away. -/
theorem leave (h : r.Orderly) (hdue : due? r.trace = none) (hi : r.racked? i = some t)
    (x : RackIncident) (place : TokenPlace) (htoken : x.token = i)
    (hx : x = .completed i ∨ x = .taken i place) (hleaves : x.Leaves place) :
    ((r.put i place).note x).Orderly := by
  obtain ⟨ht, -⟩ := racked?_eq_some_iff.1 hi
  have hnew : ∀ y ∈ r.trace, y.token ≠ i := fun y hy => h.token_ne hi hy
  refine (h.put hi place).note hdue ?_ ?_ ?_ ?_
  · rintro j rfl
    simp at hx
  · refine ⟨{ t with place }, ?_, hleaves⟩
    rw [getElem?_put, htoken, ht, Option.map_some, if_pos rfl]
  · intro j hj hcompleted
    rcases List.mem_cons.1 hj with hj | hj
    · rcases List.mem_cons.1 hcompleted with hcompleted | hcompleted
      · rw [← hj] at hcompleted
        cases hcompleted
      · refine hnew _ hcompleted ?_
        rw [← htoken, ← hj]
        rfl
    · rcases List.mem_cons.1 hcompleted with hcompleted | hcompleted
      · refine hnew _ hj ?_
        rw [← htoken, ← hcompleted]
        rfl
      · exact h.dropped hj hcompleted
  · intro j hj hfired
    rcases hx with rfl | rfl
    · rw [due_completed, Option.some.injEq] at hj
      exact hnew _ hfired hj.symm
    · rw [due_taken] at hj
      cases hj

/-- A callback may be called. If it is called for the first time, the token has not fired. -/
theorem call (h : r.Orderly) (hdue : due? r.trace = none) (ht : r.tokens[i]? = some t)
    (hplace : t.place = .callback) : (r.note (.called i)).Orderly := by
  -- a completed token is gone
  have hcompleted : .completed i ∉ r.trace := by
    intro hcompleted
    obtain ⟨t', ht', hgone⟩ := h.placed _ hcompleted
    obtain rfl : t = t' := Option.some.inj (ht.symm.trans ht')
    have hplace' : t.place = .gone := hgone
    rw [hplace] at hplace'
    cases hplace'
  refine h.note hdue (fun j => by simp) ⟨t, ht, hplace⟩ ?_ ?_
  · intro j hj hj'
    simp only [List.mem_cons, reduceCtorEq, false_or] at hj hj'
    exact h.dropped hj hj'
  · intro j hj hfired
    by_cases hbefore : .called i ∈ r.trace
    · rw [due_called_of_mem hbefore] at hj
      cases hj
    · rw [due_called_of_not_mem hbefore, Option.some.injEq] at hj
      subst hj
      rcases h.punctual.of_mem_fired hfired with hmem | hmem
      · exact hcompleted hmem
      · exact hbefore hmem

/-- A token that is due is there, off the rack, and pending. -/
theorem of_due (h : r.Orderly) (hdue : due? r.trace = some i) :
    ∃ t, r.tokens[i]? = some t ∧ t.place ≠ .racked ∧ t.pending = true := by
  obtain ⟨x, earlier, htrace, hx⟩ := head_of_due hdue
  have htoken : x.token = i := by rcases hx with rfl | rfl <;> rfl
  obtain ⟨t, ht, hleaves⟩ := h.placed x (htrace ▸ List.mem_cons_self)
  rw [htoken] at ht
  exact ⟨t, ht, hleaves.ne_racked, (h.pending ht).2 (h.unfired hdue)⟩

/-- A token that is due may fire. -/
theorem spend (h : r.Orderly) (hdue : due? r.trace = some i) (ht : r.tokens[i]? = some t) :
    (r.spend i t.label).Orderly := by
  have hunfired := h.unfired hdue
  have htrace : (r.spend i t.label).trace = .fired i :: r.trace := rfl
  constructor
  · exact h.punctual.fire hdue
  · intro j
    rw [htrace, List.count_cons]
    have honce := h.once j
    split
    · next heq =>
        have hij : i = j := by simpa using heq
        have hnever : r.trace.count (.fired j) = 0 := List.count_eq_zero.2 (hij ▸ hunfired)
        omega
    · exact honce
  · intro j t' ht'
    rw [getElem?_spend, Option.map_eq_some_iff] at ht'
    obtain ⟨t₀, ht₀, rfl⟩ := ht'
    have hpending := h.pending ht₀
    rw [htrace, List.mem_cons]
    split
    · next heq => simp [heq]
    · next hne =>
        rw [hpending]
        simp [Ne.symm hne]
  · intro x hx
    have hmoved : ∀ {j : Nat} {t' : RackToken}, r.tokens[j]? = some t' →
        ∃ t'', (r.spend i t.label).tokens[j]? = some t'' ∧ t''.place = t'.place := by
      intro j t' ht'
      rw [getElem?_spend, ht', Option.map_some]
      refine ⟨_, rfl, ?_⟩
      split <;> rfl
    rcases List.mem_cons.1 hx with rfl | hx
    · obtain ⟨t', ht', hplace, -⟩ := h.of_due hdue
      obtain ⟨t'', ht'', hsame⟩ := hmoved ht'
      refine ⟨t'', ht'', ?_⟩
      show t''.place ≠ .racked
      rw [hsame]
      exact hplace
    · obtain ⟨t', ht', hleaves⟩ := h.placed x hx
      obtain ⟨t'', ht'', hsame⟩ := hmoved ht'
      exact ⟨t'', ht'', hsame ▸ hleaves⟩
  · intro j hj hj'
    rw [htrace] at hj hj'
    simp only [List.mem_cons, reduceCtorEq, false_or] at hj hj'
    exact h.dropped hj hj'
  · intro j hj
    rw [htrace, due_fired] at hj
    cases hj
  · have hheard : r.heard (.fired i) = some t.label := by
      simp only [heard, ht, Option.map_some]
    rw [htrace, heard_spend, List.filterMap_cons_some hheard, List.reverse_cons, ← h.logged]
    rfl

/-- **A cascade leaves the rack in order**, and nothing is due any more. -/
theorem fire (h : r.Orderly) (hdue : due? r.trace = some i) :
    (r.fire i).Orderly ∧ due? (r.fire i).trace = none := by
  fun_induction TokenRack.fire i r with
  | case1 i r hnone =>
      obtain ⟨t, ht, -⟩ := h.of_due hdue
      rw [hnone] at ht
      cases ht
  | case2 i r t ht hpending fired hnext => exact ⟨h.spend hdue ht, due_fired i r.trace⟩
  | case3 i r t ht hpending fired n hnext hracked => exact ⟨h.spend hdue ht, due_fired i r.trace⟩
  | case4 i r t ht hpending fired n hnext t' hracked ih =>
      -- the token that is named is completed, and is due from then on
      have hfired : fired.Orderly := h.spend hdue ht
      have hleft := hfired.leave (due_fired i r.trace) hracked (.completed n) .gone rfl
        (.inl rfl) rfl
      exact ih hleft (due_completed n _)
  | case5 i r t ht hpending =>
      obtain ⟨t', ht', -, hpending'⟩ := h.of_due hdue
      obtain rfl : t = t' := Option.some.inj (ht.symm.trans ht')
      exact absurd hpending' hpending

end Orderly

/-- A token that has fired does not fire again. -/
theorem fire_of_fired {r : TokenRack} {i : Nat} {t : RackToken} (ht : r.tokens[i]? = some t)
    (hfired : t.pending = false) : r.fire i = r := by
  rw [fire]
  simp only [ht, hfired, Bool.false_eq_true, if_false]

/-! ## How long cascades are -/

/-- The number of tokens that have yet to fire. -/
def unfired (r : TokenRack) : Nat := r.tokens.countP (·.pending)

theorem unfired_put (r : TokenRack) (i : Nat) (place : TokenPlace) :
    (r.put i place).unfired = r.unfired := by
  refine countP_modify_of_eq ?_ r.tokens i
  exact fun _ => rfl

theorem unfired_spend {r : TokenRack} {i : Nat} {t : RackToken} (ht : r.tokens[i]? = some t)
    (hpending : t.pending = true) : (r.spend i t.label).unfired + 1 = r.unfired :=
  countP_modify_add_one ht hpending rfl

theorem length_log_spend (r : TokenRack) (i : Nat) (label : String) :
    (r.spend i label).log.length = r.log.length + 1 := by
  simp only [spend, List.length_append, List.length_singleton]

/-- Every firing turns one token that had yet to fire into one that has. -/
theorem log_fire (r : TokenRack) (i : Nat) :
    (r.fire i).log.length + (r.fire i).unfired = r.log.length + r.unfired := by
  fun_induction fire i r with
  | case1 i r hnone => rfl
  | case5 i r t ht hpending => rfl
  | case2 i r t ht hpending fired hnext =>
      have hspent : fired.unfired + 1 = r.unfired := unfired_spend ht hpending
      have hlog : fired.log.length = r.log.length + 1 := length_log_spend r i t.label
      omega
  | case3 i r t ht hpending fired n hnext hracked =>
      have hspent : fired.unfired + 1 = r.unfired := unfired_spend ht hpending
      have hlog : fired.log.length = r.log.length + 1 := length_log_spend r i t.label
      omega
  | case4 i r t ht hpending fired n hnext t' hracked ih =>
      have hspent : fired.unfired + 1 = r.unfired := unfired_spend ht hpending
      have hlog : fired.log.length = r.log.length + 1 := length_log_spend r i t.label
      have hput : ((fired.put n .gone).note (.completed n)).unfired = fired.unfired :=
        unfired_put fired n .gone
      have hsame : ((fired.put n .gone).note (.completed n)).log = fired.log := rfl
      rw [ih, hput, hsame]
      omega

/-- A cascade adds to the history. -/
theorem trace_fire (r : TokenRack) (i : Nat) : r.trace <:+ (r.fire i).trace := by
  fun_induction fire i r with
  | case1 i r hnone => exact List.suffix_refl r.trace
  | case2 i r t ht hpending fired hnext => exact List.suffix_cons _ r.trace
  | case3 i r t ht hpending fired n hnext hracked => exact List.suffix_cons _ r.trace
  | case4 i r t ht hpending fired n hnext t' hracked ih =>
      refine List.IsSuffix.trans ?_ ih
      exact (List.suffix_cons _ r.trace).trans (List.suffix_cons _ _)
  | case5 i r t ht hpending => exact List.suffix_refl r.trace

theorem trace_fire_note (r : TokenRack) (x : RackIncident) (i : Nat) :
    x :: r.trace <:+ ((r.note x).fire i).trace :=
  trace_fire (r.note x) i

/-! ## Operations -/

end TokenRack

/-- What can be done with the tokens of a rack. -/
inductive RackOp where
  | create (label : String) (next : Option Nat)
  | complete (token : Nat)
  | drop (token : Nat)
  | convert (token : Nat)
  | call (token : Nat)
deriving DecidableEq, Repr

namespace TokenRack

/-- Does something with the tokens. -/
def step (r : TokenRack) : RackOp → TokenRack
  | .create label next => (r.add label next).2
  | .complete i => (r.complete i).2
  | .drop i => (r.take i .gone).2
  | .convert i => (r.take i .callback).2
  | .call i => (r.call i).2

/-- The rack after some operations on an empty one. -/
def run (ops : List RackOp) : TokenRack := ops.foldl step {}

theorem run_append (ops more : List RackOp) : run (ops ++ more) = more.foldl step (run ops) :=
  List.foldl_append

/-- What an operation does to a rack: it adds a token, or takes one away that is on the rack, or
completes it, or calls a callback that is there, with all that this sets off. Else it does nothing. -/
inductive Does (r : TokenRack) : RackOp → TokenRack → Prop where
  | absent {op : RackOp} {i : Nat} (hop : op = .complete i ∨ op = .drop i ∨ op = .convert i)
      (hi : r.racked? i = none) : Does r op r
  | uncallable {i : Nat} (hi : ∀ t, r.tokens[i]? = some t → t.place ≠ .callback) :
      Does r (.call i) r
  | added (label : String) (next : Option Nat) :
      Does r (.create label next) (r.add label next).2
  | dropped {i : Nat} {t : RackToken} (hi : r.racked? i = some t) :
      Does r (.drop i) ((r.put i .gone).note (.taken i .gone))
  | converted {i : Nat} {t : RackToken} (hi : r.racked? i = some t) :
      Does r (.convert i) ((r.put i .callback).note (.taken i .callback))
  | completed {i : Nat} {t : RackToken} (hi : r.racked? i = some t) :
      Does r (.complete i) (((r.put i .gone).note (.completed i)).fire i)
  | called {i : Nat} {t : RackToken} (ht : r.tokens[i]? = some t) (hplace : t.place = .callback) :
      Does r (.call i) ((r.note (.called i)).fire i)

/-- Every operation does one of these. -/
theorem does_step (r : TokenRack) (op : RackOp) : r.Does op (r.step op) := by
  cases op with
  | create label next => exact .added label next
  | complete i =>
      rw [step, complete]
      split
      · next t hi => exact .completed hi
      · next hi => exact .absent (.inl rfl) hi
  | drop i =>
      rw [step, take]
      split
      · next t hi => exact .dropped hi
      · next hi => exact .absent (.inr (.inl rfl)) hi
  | convert i =>
      rw [step, take]
      split
      · next t hi => exact .converted hi
      · next hi => exact .absent (.inr (.inr rfl)) hi
  | call i =>
      rw [step, call]
      split
      · next t ht =>
        split
        · next hplace => exact .called ht (beq_iff_eq.1 hplace)
        · next hplace =>
          refine .uncallable fun t' ht' hcallback => hplace ?_
          rw [Option.some.inj (ht.symm.trans ht'), hcallback, beq_self_eq_true]
      · next hnone => exact .uncallable fun t ht => by simp [hnone] at ht

/-- A rack between operations: it is in order and nothing is due. -/
structure Settled (r : TokenRack) : Prop extends Orderly r where
  due : due? r.trace = none

namespace Settled

variable {r : TokenRack} {i : Nat}

/-- Nothing has happened to a new token. -/
theorem add (h : r.Settled) (label : String) (next : Option Nat) : (r.add label next).2.Settled := by
  have hbound : ∀ x ∈ r.trace, x.token < r.tokens.length := by
    intro x hx
    obtain ⟨t, ht, -⟩ := h.placed x hx
    exact (List.getElem?_eq_some_iff.1 ht).1
  have hold : ∀ {j : Nat}, j < r.tokens.length →
      (r.add label next).2.tokens[j]? = r.tokens[j]? := fun hj => List.getElem?_append_left hj
  refine ⟨{ h.toOrderly with pending := ?_, placed := ?_, logged := ?_ }, h.due⟩
  · intro j t ht
    by_cases hj : j < r.tokens.length
    · rw [hold hj] at ht
      exact h.pending ht
    · have hnew : t = { label, next } := by
        have hlast : (r.add label next).2.tokens[j]? =
            [({ label, next } : RackToken)][j - r.tokens.length]? :=
          List.getElem?_append_right (Nat.le_of_not_lt hj)
        rw [hlast] at ht
        exact List.mem_singleton.1 (List.mem_of_getElem? ht)
      rw [hnew]
      exact iff_of_true rfl fun hfired => hj (hbound _ hfired)
  · intro x hx
    obtain ⟨t, ht, hleaves⟩ := h.placed x hx
    exact ⟨t, (hold (hbound x hx)).trans ht, hleaves⟩
  · have hheard : r.trace.filterMap (r.add label next).2.heard = r.trace.filterMap r.heard := by
      refine List.filterMap_congr fun x hx => ?_
      cases x with
      | fired j =>
          have hj : j < r.tokens.length := hbound _ hx
          simp only [heard, hold hj]
      | _ => rfl
    show r.log = (r.trace.filterMap (r.add label next).2.heard).reverse
    rw [hheard]
    exact h.logged

/-- A settled rack has fired what was completed and what was called, and nothing else. -/
theorem fired_iff (h : r.Settled) (i : Nat) :
    .fired i ∈ r.trace ↔ .completed i ∈ r.trace ∨ .called i ∈ r.trace := by
  constructor
  · exact h.punctual.of_mem_fired
  · intro hi
    refine (h.punctual.fired_or_due hi).resolve_right ?_
    rw [h.due]
    simp

/-- A token that is pending is due when its callback is called. -/
theorem due_call (h : r.Settled) {t : RackToken} (ht : r.tokens[i]? = some t)
    (hpending : t.pending = true) : due? (.called i :: r.trace) = some i :=
  due_called_of_not_mem fun hcalled =>
    (h.pending ht).1 hpending ((h.fired_iff i).2 (.inr hcalled))

/-- A second call finds the token fired, and does nothing but be noted. -/
theorem fire_of_called (h : r.Settled) {t : RackToken} (ht : r.tokens[i]? = some t)
    (hcalled : .called i ∈ r.trace) : (r.note (.called i)).fire i = r.note (.called i) := by
  have hpending : t.pending = false := by
    rw [Bool.eq_false_iff, Ne, h.pending ht, not_not]
    exact (h.fired_iff i).2 (.inr hcalled)
  exact fire_of_fired (r := r.note (.called i)) ht hpending

/-- **Whatever is done, a settled rack is settled afterwards.** -/
theorem does (h : r.Settled) {op : RackOp} {r' : TokenRack} (hdoes : r.Does op r') :
    r'.Settled := by
  cases hdoes with
  | absent => exact h
  | uncallable => exact h
  | added label next => exact h.add label next
  | @dropped i t hi =>
      have hleft := h.leave h.due hi (.taken i .gone) .gone rfl (.inr rfl) ⟨rfl, by simp⟩
      exact ⟨hleft, due_taken i .gone r.trace⟩
  | @converted i t hi =>
      have hleft := h.leave h.due hi (.taken i .callback) .callback rfl (.inr rfl) ⟨rfl, by simp⟩
      exact ⟨hleft, due_taken i .callback r.trace⟩
  | @completed i t hi =>
      have hleft := h.leave h.due hi (.completed i) .gone rfl (.inl rfl) rfl
      obtain ⟨hfired, hdue⟩ := hleft.fire (due_completed i r.trace)
      exact ⟨hfired, hdue⟩
  | @called i t ht hplace =>
      have hcalled := h.toOrderly.call h.due ht hplace
      by_cases hbefore : .called i ∈ r.trace
      · rw [h.fire_of_called ht hbefore]
        exact ⟨hcalled, due_called_of_mem hbefore⟩
      · obtain ⟨hfired, hdue⟩ := hcalled.fire (due_called_of_not_mem hbefore)
        exact ⟨hfired, hdue⟩

end Settled

theorem settled_foldl {r : TokenRack} (h : r.Settled) (ops : List RackOp) :
    (ops.foldl step r).Settled := by
  induction ops generalizing r with
  | nil => exact h
  | cons op rest ih => exact ih (h.does (r.does_step op))

theorem settled_run (ops : List RackOp) : (run ops).Settled :=
  settled_foldl ⟨orderly_empty, rfl⟩ ops

/-! ## What operations add -/

/-- An operation adds to the history. -/
theorem Does.trace {r r' : TokenRack} {op : RackOp} (h : r.Does op r') :
    r.trace <:+ r'.trace := by
  cases h with
  | absent => exact List.suffix_refl r.trace
  | uncallable => exact List.suffix_refl r.trace
  | added => exact List.suffix_refl r.trace
  | dropped => exact List.suffix_cons _ r.trace
  | converted => exact List.suffix_cons _ r.trace
  | @completed i =>
      exact (List.suffix_cons _ r.trace).trans (trace_fire_note (r.put i .gone) (.completed i) i)
  | @called i => exact (List.suffix_cons _ r.trace).trans (trace_fire_note r (.called i) i)

theorem trace_foldl (r : TokenRack) (ops : List RackOp) : r.trace <:+ (ops.foldl step r).trace := by
  induction ops generalizing r with
  | nil => exact List.suffix_refl r.trace
  | cons op rest ih => exact (r.does_step op).trace.trans (ih (r.step op))

/-- An operation fires no more tokens than have yet to fire. -/
theorem Does.log {r r' : TokenRack} {op : RackOp} (h : r.Does op r') :
    r'.log.length ≤ r.log.length + r.unfired := by
  cases h with
  | absent => exact Nat.le_add_right _ _
  | uncallable => exact Nat.le_add_right _ _
  | added => exact Nat.le_add_right _ _
  | dropped => exact Nat.le_add_right _ _
  | converted => exact Nat.le_add_right _ _
  | @completed i t hi =>
      have hlog := log_fire ((r.put i .gone).note (.completed i)) i
      have hput : ((r.put i .gone).note (.completed i)).unfired = r.unfired :=
        unfired_put r i .gone
      have hsame : ((r.put i .gone).note (.completed i)).log = r.log := rfl
      rw [hput, hsame] at hlog
      exact hlog ▸ Nat.le_add_right _ _
  | @called i t ht hplace =>
      have hlog := log_fire (r.note (.called i)) i
      exact hlog ▸ Nat.le_add_right _ _

end TokenRack

end Narrative
