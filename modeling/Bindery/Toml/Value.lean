/-!
# TOML documents

A document is built statement by statement: headers open tables, assignments fill them.  A table
remembers how it came about, because that decides who may still add to it.
-/

set_option autoImplicit false

namespace Bindery

namespace Toml

/-- How a table came about: by its own header, as the parent of another table, by a dotted key, or
as an inline value. -/
inductive Kind where
  | header
  | parent
  | dotted
  | inline
deriving Repr, DecidableEq

/-- What stands under a key. -/
inductive Item where
  | string (text : String)
  | integer (value : Int)
  | float (text : String)
  | boolean (value : Bool)
  | datetime (text : String)
  | array (items : List Item)
  | table (kind : Kind) (entries : List (String × Item))
  | tables (elements : List (List (String × Item)))
deriving Repr

abbrev Entries := List (String × Item)

namespace Entries

def replace (key : String) (item : Item) (entries : Entries) : Entries :=
  entries.map fun entry => if entry.1 = key then (key, item) else entry

/-- Changes the table at the end of a path.  Missing tables on the way are made.  A dotted path does
not lead into a table with a header of its own, and no path leads into an inline table. -/
def update (byDots : Bool) (change : Kind → Entries → Option (Kind × Entries)) :
    List String → Kind → Entries → Option (Kind × Entries)
  | [], kind, entries => change kind entries
  | key :: path, kind, entries =>
      match entries.lookup key with
      | none => do
          let new := if byDots then Kind.dotted else Kind.parent
          let (inner, below) ← update byDots change path new []
          some (kind, entries ++ [(key, .table inner below)])
      | some (.table inner below) =>
          if inner = .inline || (byDots && inner = .header) then
            none
          else do
            let (inner, below) ← update byDots change path inner below
            some (kind, entries.replace key (.table inner below))
      | some (.tables elements) => do
          let last ← elements.getLast?
          let (_, below) ← update byDots change path .header last
          some (kind, entries.replace key (.tables (elements.dropLast ++ [below])))
      | some _ => none

/-- Puts a value under a new key of the table at the end of a dotted path. -/
def assign (path : List String) (key : String) (item : Item) :
    Kind → Entries → Option (Kind × Entries) :=
  update true
    (fun kind entries =>
      if (kind == .dotted) == path.isEmpty || (entries.lookup key).isSome then
        none
      else
        some (kind, entries ++ [(key, item)]))
    path

/-- Opens the table of a header; it must not have been opened before. -/
def openTable (key : String) (kind : Kind) (entries : Entries) : Option (Kind × Entries) :=
  match entries.lookup key with
  | none => some (kind, entries ++ [(key, .table .header [])])
  | some (.table .parent below) => some (kind, entries.replace key (.table .header below))
  | some _ => none

/-- Adds an element to the list of tables of a header in double brackets. -/
def openElement (key : String) (kind : Kind) (entries : Entries) : Option (Kind × Entries) :=
  match entries.lookup key with
  | none => some (kind, entries ++ [(key, .tables [[]])])
  | some (.tables elements) => some (kind, entries.replace key (.tables (elements ++ [[]])))
  | some _ => none

end Entries

/-- A line of a document. -/
inductive Statement where
  | header (path : List String)
  | elementHeader (path : List String)
  | assignment (path : List String) (key : String) (item : Item)
deriving Repr

/-- A document being built: its entries and the path of the table that is open. -/
structure Document where
  entries : Entries
  current : List String
deriving Repr

namespace Document

def empty : Document :=
  ⟨[], []⟩

/-- Changes the table at the end of a header's path. -/
def updateAt (document : Document) (path : List String)
    (change : Kind → Entries → Option (Kind × Entries)) : Option Entries :=
  (Entries.update false change path .header document.entries).map (·.2)

/-- Carries out a statement, if the ones before allow it. -/
def add (document : Document) : Statement → Option Document
  | .header path => do
      let key ← path.getLast?
      some ⟨← document.updateAt path.dropLast (Entries.openTable key), path⟩
  | .elementHeader path => do
      let key ← path.getLast?
      some ⟨← document.updateAt path.dropLast (Entries.openElement key), path⟩
  | .assignment path key item => do
      let entries ← document.updateAt document.current (Entries.assign path key item)
      some { document with entries }

end Document

end Toml

end Bindery
