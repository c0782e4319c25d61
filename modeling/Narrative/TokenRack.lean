import Narrative.Json

set_option autoImplicit false

/-!
# A rack of completion tokens

Tokens in numbered places. Each token logs its label when it fires and may then take
another token off the rack and complete it. A token fires at most once: by being
completed, or by the first call of the callback it was turned into. Dropping a token
uses it up without firing.

A cascade of tokens completing one another ends because every token it reaches is
taken off the rack (`fire`, by the number of tokens on the rack).

The trace keeps what happened to the tokens, newest first. Nothing reads it.
-/

namespace Narrative

/-- Where a token is: on the rack, turned into a callback, or used up. -/
inductive TokenPlace where
  | racked
  | callback
  | gone
deriving DecidableEq, Repr

/-- A token: its label, the place of the token it completes when it fires, where it is, and
whether it has yet to fire. -/
structure RackToken where
  label : String
  next : Option Nat
  place : TokenPlace := .racked
  pending : Bool := true
deriving DecidableEq, Repr

/-- What happens to a token: it is completed, its callback is called, it fires, or it is taken off
the rack without being completed. -/
inductive RackIncident where
  | completed (token : Nat)
  | called (token : Nat)
  | fired (token : Nat)
  | taken (token : Nat) (place : TokenPlace)
deriving DecidableEq, Repr

/-- The tokens by place, the labels of those that fired, in order, and what happened, newest
first. -/
structure TokenRack where
  tokens : List RackToken := []
  log : List String := []
  trace : List RackIncident := []
deriving DecidableEq, Repr

namespace TokenRack

/-- The token on the rack at a place. -/
def racked? (r : TokenRack) (i : Nat) : Option RackToken :=
  r.tokens[i]?.filter fun t => t.place == .racked

/-- The number of tokens on the rack. -/
def size (r : TokenRack) : Nat := r.tokens.countP fun t => t.place == .racked

/-- Moves the token at a place. -/
def put (r : TokenRack) (i : Nat) (place : TokenPlace) : TokenRack :=
  { r with tokens := r.tokens.modify i fun t => { t with place } }

/-- Notes what happens. -/
def note (r : TokenRack) (x : RackIncident) : TokenRack :=
  { r with trace := x :: r.trace }

/-- Notes that the token at a place has fired. -/
def spend (r : TokenRack) (i : Nat) (label : String) : TokenRack :=
  { tokens := r.tokens.modify i fun t => { t with pending := false }
    log := r.log ++ [label]
    trace := .fired i :: r.trace }

/-- A count does not change with a token that it counts as before. -/
theorem countP_modify_of_eq {p : RackToken → Bool} {f : RackToken → RackToken}
    (h : ∀ t, p (f t) = p t) (l : List RackToken) (i : Nat) :
    (l.modify i f).countP p = l.countP p := by
  induction l generalizing i with
  | nil => simp
  | cons head rest ih =>
      cases i with
      | zero => simp [List.countP_cons, h]
      | succ i => simp [List.countP_cons, ih]

/-- A token that is counted no longer makes a count smaller by one. -/
theorem countP_modify_add_one {p : RackToken → Bool} {f : RackToken → RackToken}
    {l : List RackToken} {i : Nat} {t : RackToken} (hi : l[i]? = some t) (ht : p t = true)
    (hf : p (f t) = false) : (l.modify i f).countP p + 1 = l.countP p := by
  induction l generalizing i with
  | nil => simp at hi
  | cons head rest ih =>
      cases i with
      | zero =>
          simp only [List.getElem?_cons_zero, Option.some.injEq] at hi
          subst hi
          simp [ht, hf]
      | succ i =>
          simp only [List.getElem?_cons_succ] at hi
          have hrest := ih hi
          simp only [List.modify_succ_cons, List.countP_cons]
          omega

/-- Taking a token off the rack leaves fewer on it. -/
theorem size_put_lt {r : TokenRack} {i : Nat} {t : RackToken} (h : r.racked? i = some t)
    {place : TokenPlace} (hp : place ≠ .racked) : (r.put i place).size < r.size := by
  obtain ⟨hi, ht⟩ := Option.filter_eq_some_iff.1 h
  exact Nat.lt_of_succ_le (Nat.le_of_eq (countP_modify_add_one hi ht (beq_false_of_ne hp)))

/-- Firing leaves the tokens where they are. -/
theorem size_spend (r : TokenRack) (i : Nat) (label : String) : (r.spend i label).size = r.size := by
  refine countP_modify_of_eq ?_ r.tokens i
  exact fun _ => rfl

/-- Fires the token at a place, unless it has fired: its label is logged, and the token that
it names is completed if it is still on the rack. -/
def fire (i : Nat) (r : TokenRack) : TokenRack :=
  match r.tokens[i]? with
  | none => r
  | some t =>
      if t.pending then
        let fired := r.spend i t.label
        match t.next with
        | none => fired
        | some n =>
            match _taken : fired.racked? n with
            | none => fired
            | some _ => fire n ((fired.put n .gone).note (.completed n))
      else r
termination_by r.size
decreasing_by
  have := @size_put_lt _ _ _ _taken .gone (by decide)
  rwa [size_spend] at this

/-- Takes the token at a place off the rack, and says whether there was one. -/
def take (r : TokenRack) (i : Nat) (place : TokenPlace) : Bool × TokenRack :=
  match r.racked? i with
  | some _ => (true, (r.put i place).note (.taken i place))
  | none => (false, r)

/-- Puts a new token on the rack, and gives its place. -/
def add (r : TokenRack) (label : String) (next : Option Nat) : Nat × TokenRack :=
  (r.tokens.length, { r with tokens := r.tokens ++ [{ label, next }] })

/-- Completes the token at a place, and says whether there was one. -/
def complete (r : TokenRack) (i : Nat) : Bool × TokenRack :=
  match r.racked? i with
  | some _ => (true, ((r.put i .gone).note (.completed i)).fire i)
  | none => (false, r)

/-- Calls the callback at a place, and says whether there is one. It stays. -/
def call (r : TokenRack) (i : Nat) : Bool × TokenRack :=
  match r.tokens[i]? with
  | some t => if t.place == .callback then (true, (r.note (.called i)).fire i) else (false, r)
  | none => (false, r)

end TokenRack

end Narrative
