import SchemaTypings.Toml.Value

/-!
# Tables of a TOML document

Statements build up a table of tables. What a statement may add to depends on how
a table came about: a table in braces is complete; a table made by dotted keys
grows by dotted keys only; a header makes a table once, unless the table exists
only because a longer header passed through it; and whatever leads to an array of
tables leads to its last table.
-/

namespace SchemaTypings.Toml

namespace Entries

def find? (entries : Entries) (name : String) : Option (Key × Span × Value) :=
  List.find? (fun entry => entry.1.name == name) entries

def replace (entries : Entries) (entry : Key × Span × Value) : Entries :=
  entries.map fun old => if old.1.name == entry.1.name then entry else old

end Entries

/-- A change of a table, by its origin and entries; it may be refused. -/
abbrev Change := Origin → Entries → Option Entries

/-- Applies a change to the last of several tables. -/
def changeLast (change : Entries → Option Entries) : List Entries → Option (List Entries)
  | [] => none
  | [last] => (change last).map fun entries => [entries]
  | table :: rest => (changeLast change rest).map (table :: ·)

/-- Applies a change to the table at the end of a path. Tables that are missing on
the way are made; `dotted` says whether the path is that of a dotted key. -/
def changeAt (dotted : Bool) : List Key → Change → Change
  | [], change => change
  | key :: path, change => fun _ entries =>
    match Entries.find? entries key.name with
    | none => do
      let origin := if dotted then .dotted else .implied
      let inner ← changeAt dotted path change origin []
      return entries ++ [(key, key.span, .table origin inner)]
    | some (old, span, .table origin inner) =>
      if origin = .inline || (dotted && origin = .header) then none
      else do
        let inner ← changeAt dotted path change origin inner
        return Entries.replace entries (old, span, .table origin inner)
    | some (old, span, .tables items) => do
      let items ← changeLast (changeAt dotted path change .header) items
      return Entries.replace entries (old, span, .tables items)
    | some _ => none

/-- Gives a value to a new key. A key behind dots belongs into a table that dotted
keys made. -/
def assign (isDotted : Bool) (key : Key) (span : Span) (value : Value) : Change :=
  fun origin entries =>
    if isDotted && origin != .dotted then none
    else
      match Entries.find? entries key.name with
      | none => some (entries ++ [(key, span, value)])
      | some _ => none

/-- Gives a value to a key with the keys that lead to it. -/
def assignAt (parents : List Key) (key : Key) (span : Span) (value : Value) : Change :=
  changeAt true parents (assign (!parents.isEmpty) key span value)

/-- Makes the table of a header. -/
def openTable (key : Key) (span : Span) : Change := fun _ entries =>
  match Entries.find? entries key.name with
  | none => some (entries ++ [(key, span, .table .header [])])
  | some (_, _, .table .implied inner) =>
    some (Entries.replace entries (key, span, .table .header inner))
  | some _ => none

/-- Adds a table to the array of tables of a header. -/
def openTables (key : Key) (span : Span) : Change := fun _ entries =>
  match Entries.find? entries key.name with
  | none => some (entries ++ [(key, span, .tables [[]])])
  | some (old, span, .tables items) =>
    some (Entries.replace entries (old, span, .tables (items ++ [[]])))
  | some _ => none

/-- Carries out statements; `current` is the path of the last header. -/
def build (current : List Key) (root : Entries) : List Statement → Option Entries
  | [] => some root
  | .header parents key span :: rest => do
    let root ← changeAt false parents (openTable key span) .header root
    build (parents ++ [key]) root rest
  | .arrayHeader parents key span :: rest => do
    let root ← changeAt false parents (openTables key span) .header root
    build (parents ++ [key]) root rest
  | .assignment parents key span value :: rest => do
    let root ← changeAt false current (assignAt parents key span value) .header root
    build current root rest

def rootOf (statements : List Statement) : Option Entries :=
  build [] [] statements

/-- The entries of a table in braces. -/
def inlineEntries (assignments : List (List Key × Key × Span × Value)) : Option Entries :=
  assignments.foldlM (fun entries (parents, key, span, value) =>
    assignAt parents key span value .inline entries) []

end SchemaTypings.Toml
