set_option autoImplicit false

/-!
# TOML documents

A document as a tree of values and tables, and the rules by which headers and dotted
keys build it. A table remembers how it came about, because that decides who may add
to it: a header may claim a table that was only implied by longer headers, a dotted
key may extend only tables made by dotted keys, and nobody extends an inline table.
-/

namespace Narrative

/-- How a table came about. -/
inductive TableOrigin where
  /-- By a header of its own, or as the root. -/
  | header
  /-- As a step of a longer header. -/
  | implied
  /-- As a step of a dotted key. -/
  | dotted
  /-- As an inline value. -/
  | inline
deriving DecidableEq, Repr

/-- A TOML value. Only what a reader can tell apart is kept of floats and dates. -/
inductive Toml where
  | string (s : String)
  | integer (n : Int)
  | float
  | boolean (b : Bool)
  | datetime
  | array (items : List Toml)
  | table (origin : TableOrigin) (entries : List (String × Toml))
  | tables (items : List (List (String × Toml)))
deriving Inhabited

namespace Toml

/-- The entries of a table. -/
abbrev Entries := List (String × Toml)

/-- A statement of a document. Paths are never empty. -/
inductive Statement where
  | header (path : List String) (key : String)
  | arrayHeader (path : List String) (key : String)
  | assign (path : List String) (key : String) (value : Toml)

/-- Changes the entry of a key, which may be missing; the change may be refused. -/
def alter (key : String) (change : Option Toml → Option Toml) : Entries → Option Entries
  | [] => (change none).map fun v => [(key, v)]
  | (k, v) :: rest =>
      if k = key then (change (some v)).map fun v => (k, v) :: rest
      else (alter key change rest).map ((k, v) :: ·)

/-- Changes the last item of a list, if there is one. -/
def alterLast {α : Type} (change : α → Option α) : List α → Option (List α)
  | [] => none
  | [a] => (change a).map ([·])
  | a :: rest => (alterLast change rest).map (a :: ·)

/-- Changes the table at the end of a path, making the tables on the way that are missing.
The steps of a dotted key may not pass through a table with a header of its own; the last of
several tables stands for all of them. -/
def descend (isDotted : Bool) (change : TableOrigin → Entries → Option Entries) :
    List String → TableOrigin → Entries → Option Entries
  | [], origin, entries => change origin entries
  | step :: rest, _, entries =>
      alter step (fun
        | none =>
            let origin := if isDotted then .dotted else .implied
            (descend isDotted change rest origin []).map (.table origin)
        | some (.table origin inner) =>
            if origin = .inline || (isDotted && origin = .header) then none
            else (descend isDotted change rest origin inner).map (.table origin)
        | some (.tables items) =>
            (alterLast (descend isDotted change rest .header) items).map .tables
        | some _ => none) entries

/-- Adds an entry at the end of a dotted key, to a table that dotted keys made or, without a
dotted path, to the table at hand. No entry is given twice. -/
def assign (path : List String) (key : String) (value : Toml) (origin : TableOrigin)
    (entries : Entries) : Option Entries :=
  descend true (fun origin entries =>
    -- a dotted path has to end in a table that dotted keys made, a plain key anywhere else
    if (origin == .dotted) == path.isEmpty then none
    else
      alter key (fun
        | none => some value
        | some _ => none) entries) path origin entries

/-- Opens the table of a header: a new one, or one that was only implied. Either way it comes
last among its neighbours. -/
def openTable (key : String) (_ : TableOrigin) (entries : Entries) : Option Entries :=
  match entries.find? (·.1 == key) with
  | none => some (entries ++ [(key, .table .header [])])
  | some (_, .table .implied inner) =>
      some (entries.filter (·.1 != key) ++ [(key, .table .header inner)])
  | some _ => none

/-- Opens one more table of an array header. -/
def openArray (key : String) (_ : TableOrigin) : Entries → Option Entries :=
  alter key fun
    | none => some (.tables [[]])
    | some (.tables items) => some (.tables (items ++ [[]]))
    | some _ => none

/-- Carries out statements in order, from a section on. -/
def build (section' : List String) (root : Entries) : List Statement → Option Entries
  | [] => some root
  | .header path key :: rest => do
      build (path ++ [key]) (← descend false (openTable key) path .header root) rest
  | .arrayHeader path key :: rest => do
      build (path ++ [key]) (← descend false (openArray key) path .header root) rest
  | .assign path key value :: rest => do
      build section' (← descend false (assign path key value) section' .header root) rest

/-- The document that statements spell. -/
def ofStatements (statements : List Statement) : Option Toml :=
  (build [] [] statements).map (.table .header)

/-- The inline table of a list of assignments. -/
def ofAssignments (assignments : List (List String × String × Toml)) : Option Toml :=
  (assignments.foldlM
    (fun entries (path, key, value) => assign path key value .inline entries) []).map
    (.table .inline)

/-- The entry of a key. -/
def entry? (key : String) : Toml → Option Toml
  | .table _ entries => (entries.find? (·.1 == key)).map (·.2)
  | _ => none

end Toml

end Narrative
