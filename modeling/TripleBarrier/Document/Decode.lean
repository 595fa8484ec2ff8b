import TripleBarrier.Document.Basic

/-!
# Decoding values

A decoder takes a document to a value or to its first misfit.  Whole numbers fit where a float is
wanted, and nothing else is converted.

## Main definitions

* `Decoder` — from documents to values.
* `Decoder.float`, `Decoder.int64`, `Decoder.size`, `Decoder.bool`, `Decoder.text` — single values.
* `Decoder.optional`, `Decoder.list` — values that may be absent, and lists of values.
* `Decoder.named` — one of several names.
-/

namespace TripleBarrier

/-- Takes a document of some dialect to a value, or says why it does not fit. -/
abbrev Decoder (α : Type) :=
  Dialect → Document → Except Misfit α

namespace Decoder

/-! ### Single values -/

/-- A number, whole or not. -/
def float : Decoder Float := fun _ doc =>
  match doc with
  | .float x => .ok x
  | .int i => .ok (Float.ofInt i)
  | _ => .error (doc.misfit "f64")

/-- A whole number of 64 bits. -/
def int64 : Decoder Int64 := fun _ doc =>
  match doc with
  | .int i =>
    if Int64.minValue.toInt ≤ i ∧ i ≤ Int64.maxValue.toInt then .ok (Int64.ofInt i)
    else .error (.outOfRange i "i64")
  | _ => .error (doc.misfit "i64")

/-- A whole number that counts something. -/
def size : Decoder Nat := fun _ doc =>
  match doc with
  | .int i => if 0 ≤ i ∧ i < UInt64.size then .ok i.toNat else .error (.outOfRange i "usize")
  | _ => .error (doc.misfit "usize")

/-- A truth value. -/
def bool : Decoder Bool := fun _ doc =>
  match doc with
  | .bool b => .ok b
  | _ => .error (doc.misfit "a boolean")

/-- A text. -/
def text : Decoder String := fun _ doc =>
  match doc with
  | .text s => .ok s
  | _ => .error (doc.misfit "a string")

/-! ### Absent values and lists -/

/-- A value, or nothing where the document says so. -/
def optional {α : Type} (decode : Decoder α) : Decoder (Option α) := fun dialect doc =>
  match doc with
  | .null => .ok none
  | _ => (decode dialect doc).map some

/-- A list of values: entries come before the end of the text. -/
def list {α : Type} (decode : Decoder α) : Decoder (List α) := fun dialect doc =>
  match doc with
  | .list items closed => do
    let values ← items.mapM (decode dialect)
    if closed then .ok values else .error .malformed
  | _ => .error (doc.misfit "a sequence")

/-! ### Names -/

/-- Checks a name against the known ones. -/
def knownName (known : List String) (name : String) : Except Misfit String :=
  if known.contains name then .ok name else .error (.unknownName name known)

/-- What kind of value a document of settings holds, in the words of messages about it. -/
def kindName : Document → String
  | .text _ => "string"
  | .int _ => "integer"
  | .float _ => "float"
  | .bool _ => "boolean"
  | .dateTime => "datetime"
  | .list _ _ => "array"
  | .table _ _ => "table"
  | .null | .fault => "none"

/-- Where a name takes no value, its entry in a table holds nothing. -/
def noValue : Dialect → Document → Except Misfit Unit
  | .json, .null => .ok ()
  | .json, doc => .error (doc.misfit "unit")
  | .toml, .list [] _ => .ok ()
  | .toml, .table [] _ => .ok ()
  | .toml, .list _ _ => .error (.notEmpty "array")
  | .toml, .table _ _ => .error (.notEmpty "table")
  | .toml, doc => .error (.notTable (kindName doc))

/-- The name in the entry of a table that gives a name with a value. -/
def entryName (known : List String) : Document → Except Misfit String
  | .text name => knownName known name
  | doc => .error (doc.misfit "variant identifier")

/-- One of several names, each with what its value gives: a name may stand alone or be the only
entry of a table.  The value is checked before the table is found to go on, except in settings,
where a table is taken as a whole. -/
def named {α : Type} (known : List String) (alone : String → Except Misfit α)
    (withValue : String → Document → Except Misfit α) : Decoder α := fun dialect doc =>
  match dialect, doc with
  | _, .text name => do alone (← knownName known name)
  | .json, .table ((key, value) :: rest) closed => do
    let a ← withValue (← entryName known key) value
    if rest.isEmpty && closed then .ok a else .error .malformed
  | .json, _ => .error .malformed
  | .toml, .table [] _ => .error (.notSingle true)
  | .toml, .table [(key, value)] _ => do withValue (← entryName known key) value
  | .toml, .table _ _ => .error (.notSingle false)
  | .toml, _ => .error .notNamed

/-- One of several names that take no value. -/
def bareName (known : List String) : Decoder String := fun dialect doc =>
  named known .ok (fun name value => do noValue dialect value; return name) dialect doc

/-- A value of a list, by its name. -/
def byName {α : Type} (values : List α) (name : α → String) : Decoder α := fun dialect doc => do
  let found ← bareName (values.map name) dialect doc
  match values.find? fun a => name a == found with
  | some a => .ok a
  | none => .error (.unknownName found (values.map name))

/-! ### Checks -/

/-- A value that also has to pass a check, which speaks with a message of its own. -/
def checked {α β : Type} (decode : Decoder α) (check : α → Except String β) : Decoder β :=
  fun dialect doc => do
    match check (← decode dialect doc) with
    | .ok b => .ok b
    | .error message => .error (.rejected message)

end Decoder
end TripleBarrier
