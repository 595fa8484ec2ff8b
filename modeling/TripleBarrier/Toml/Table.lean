import TripleBarrier.Document.Basic

/-!
# Tables of a settings file

A settings file is a sequence of assignments, gathered into sections by headers.  Keys may be
dotted, which makes tables within tables.  No value is ever replaced: a table that was begun by
dotted keys can be added to by dotted keys, one that a header began cannot, and a table that only
came about because a longer header names it can still get a header of its own.

## Main definitions

* `Entry` — a value, a table in the making, or an array of tables.
* `Members.assign` — one assignment.
* `Section` — a header with its assignments.
* `Members.toDocument` — the finished table.
-/

namespace TripleBarrier
namespace Toml

/-- How a table came about. -/
inductive Origin
  | header
  | longerHeader
  | dottedKey
  deriving DecidableEq, Repr

/-- What stands under a key of a table in the making. -/
inductive Entry
  | value (doc : Document)
  | table (origin : Origin) (members : List (String × Entry))
  | tables (items : List (List (String × Entry)))

/-- A table in the making, with its keys in the order in which they came about. -/
abbrev Members :=
  List (String × Entry)

namespace Members

/-- What stands under a key. -/
def find? (ms : Members) (key : String) : Option Entry :=
  ms.lookup key

/-- Puts something else under a key that is there. -/
def replace (ms : Members) (key : String) (e : Entry) : Members :=
  ms.map fun m => if m.1 == key then (key, e) else m

/-- Takes out a key. -/
def remove (ms : Members) (key : String) : Members :=
  ms.filter fun m => m.1 != key

/-! ### Assignments -/

/-- Assigns a value to a key of a table that is there for dotted keys.  `within` tells how the
table came about, unless it is the one that the assignment stands in. -/
def put (within : Option Origin) (key : String) (doc : Document) (ms : Members) :
    Option Members :=
  if within = none ∨ within = some .dottedKey then
    if (ms.find? key).isNone then some (ms ++ [(key, .value doc)]) else none
  else none

/-- Assigns a value to a dotted key. -/
def assign (within : Option Origin) : List String → String → Document → Members → Option Members
  | [], key, doc, ms => put within key doc ms
  | step :: path, key, doc, ms =>
    match ms.find? step with
    | none => do
      let inner ← assign (some .dottedKey) path key doc []
      return ms ++ [(step, .table .dottedKey inner)]
    | some (.value _) => none
    | some (.table .header _) => none
    | some (.table origin inner) => do
      let inner ← assign (some origin) path key doc inner
      return ms.replace step (.table origin inner)
    | some (.tables items) =>
      match items.getLast? with
      | none => none
      | some last => do
        let last ← assign (some .header) path key doc last
        return ms.replace step (.tables (items.dropLast ++ [last]))

/-- An assignment: a dotted key by its steps and its last part, and a value. -/
abbrev Assignment :=
  List String × String × Document

/-- Makes assignments one after the other. -/
def assignAll (ms : Members) (assignments : List Assignment) : Option Members :=
  assignments.foldlM (fun ms (path, key, doc) => ms.assign none path key doc) ms

/-! ### Headers -/

/-- Changes the table that a header's path leads to, through the last one of an array of tables.
Tables that are not there come about on the way. -/
def within (f : Members → Option Members) : List String → Members → Option Members
  | [], ms => f ms
  | step :: path, ms =>
    match ms.find? step with
    | none => do
      let inner ← within f path []
      return ms ++ [(step, .table .longerHeader inner)]
    | some (.value _) => none
    | some (.table origin inner) => do
      let inner ← within f path inner
      return ms.replace step (.table origin inner)
    | some (.tables items) =>
      match items.getLast? with
      | none => none
      | some last => do
        let last ← within f path last
        return ms.replace step (.tables (items.dropLast ++ [last]))

/-- Adds a section's table under a key.  A table that a longer header brought about is completed,
and takes its place behind the others. -/
def addTable (key : String) (assignments : List Assignment) (ms : Members) : Option Members := do
  let start ← match ms.find? key with
    | none => some []
    | some (.table .longerHeader inner) => some inner
    | some _ => none
  let body ← assignAll start assignments
  return ms.remove key ++ [(key, .table .header body)]

/-- Adds a section's table to an array of tables. -/
def addItem (key : String) (assignments : List Assignment) (ms : Members) : Option Members := do
  let body ← assignAll [] assignments
  match ms.find? key with
  | none => return ms ++ [(key, .tables [body])]
  | some (.tables items) => return ms.replace key (.tables (items ++ [body]))
  | some _ => none

end Members

/-! ### Sections -/

/-- What opens a section: nothing at the top of the file, else the path and the key of a table, or
of an array of tables. -/
inductive Header
  | top
  | table (path : List String) (key : String)
  | item (path : List String) (key : String)

/-- A header with the assignments behind it. -/
structure Section where
  header : Header
  assignments : List Members.Assignment

/-- Adds a section to the tables so far. -/
def Section.add (ms : Members) (s : Section) : Option Members :=
  match s.header with
  | .top => ms.assignAll s.assignments
  | .table path key => ms.within (Members.addTable key s.assignments) path
  | .item path key => ms.within (Members.addItem key s.assignments) path

/-! ### Finished tables -/

mutual

/-- The document of an entry. -/
def Entry.toDocument : Entry → Document
  | .value doc => doc
  | .table _ members => .table (membersToDocuments members) true
  | .tables items => .list (itemsToDocuments items) true

/-- The documents of the members of a table. -/
def membersToDocuments : List (String × Entry) → List (Document × Document)
  | [] => []
  | (key, e) :: rest => (.text key, e.toDocument) :: membersToDocuments rest

/-- The documents of the tables of an array. -/
def itemsToDocuments : List (List (String × Entry)) → List Document
  | [] => []
  | members :: rest => .table (membersToDocuments members) true :: itemsToDocuments rest

end

/-- The document of a finished table. -/
def Members.toDocument (ms : Members) : Document :=
  .table (membersToDocuments ms) true

end Toml
end TripleBarrier
