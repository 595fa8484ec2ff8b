import TripleBarrier.Document.Decode

/-!
# Records

A record is a table with known names, in any order, or a list in the order of the fields.  Entries
of a table are checked in the order of the text; unknown names are skipped with all they hold.
Fields that are missing are noticed at the end, in the order of the record.

## Main definitions

* `Record` — the fields of a record and how to build it from them.
* `Record.field`, `Record.optionalField`, `Record.defaultField` — records of one field.
* `Record.decoder` — the decoder of a record with a name.
-/

namespace TripleBarrier

/-- What has to be known of a field before the record is built. -/
structure FieldRule where
  name : String
  /-- Checks the entry that the field is given. -/
  check : Dialect → Document → Except Misfit Unit
  /-- Whether the field may be missing at the end of a list. -/
  mayEnd : Bool

/-- Fields, and a value built from the entries they are given. -/
structure Record (α : Type) where
  fields : List FieldRule
  build : Dialect → (String → Option Document) → Except Misfit α

namespace Record

/-! ### Building records -/

/-- A field of its own, with what stands for it when it is missing. -/
private def single {α : Type} (name : String) (decode : Decoder α) (mayEnd : Bool)
    (absent : Except Misfit α) : Record α where
  fields := [⟨name, fun dialect doc => (decode dialect doc).map fun _ => (), mayEnd⟩]
  build dialect entry :=
    match entry name with
    | some doc => decode dialect doc
    | none => absent

/-- A field that has to be there. -/
def field {α : Type} (name : String) (decode : Decoder α) : Record α :=
  single name decode false (.error (.missingField name))

/-- A field that may be missing from a table, but not from a list. -/
def optionalField {α : Type} (name : String) (decode : Decoder α) : Record (Option α) :=
  single name (Decoder.optional decode) false (.ok none)

/-- A field that may be missing from tables and from the ends of lists. -/
def defaultField {α : Type} (name : String) (decode : Decoder α) (default : α) : Record α :=
  single name decode true (.ok default)

theorem build_field {α : Type} (name : String) (decode : Decoder α) (dialect : Dialect)
    (entry : String → Option Document) :
    (field name decode).build dialect entry =
      (entry name).elim (.error (.missingField name)) (decode dialect) := by
  unfold field single
  dsimp only
  cases entry name with
  | some doc => rfl
  | none => rfl

theorem build_optionalField {α : Type} (name : String) (decode : Decoder α) (dialect : Dialect)
    (entry : String → Option Document) :
    (optionalField name decode).build dialect entry =
      (entry name).elim (.ok none) (Decoder.optional decode dialect) := by
  unfold optionalField single
  dsimp only
  cases entry name with
  | some doc => rfl
  | none => rfl

theorem build_defaultField {α : Type} (name : String) (decode : Decoder α) (default : α)
    (dialect : Dialect) (entry : String → Option Document) :
    (defaultField name decode default).build dialect entry =
      (entry name).elim (.ok default) (decode dialect) := by
  unfold defaultField single
  dsimp only
  cases entry name with
  | some doc => rfl
  | none => rfl

instance : Functor Record where
  map f r := ⟨r.fields, fun dialect entry => (r.build dialect entry).map f⟩

/-- The fields of both records, those of the first one being missed first. -/
instance : Seq Record where
  seq r s := ⟨r.fields ++ (s ()).fields, fun dialect entry => do
    let f ← r.build dialect entry
    return f (← (s ()).build dialect entry)⟩

/-! ### Reading entries -/

/-- Checks the entries of a table in the order of the text.  `seen` are the fields met so far. -/
def checkTable (dialect : Dialect) (fields : List FieldRule) :
    List String → List (Document × Document) → Except Misfit Unit
  | _, [] => .ok ()
  | seen, (.text key, value) :: rest =>
    match fields.find? fun f => f.name == key with
    | none => checkTable dialect fields seen rest
    | some f =>
      if seen.contains key then .error (.duplicateField key)
      else do
        f.check dialect value
        checkTable dialect fields (key :: seen) rest
  | _, _ => .error .malformed

/-- Checks the entries of a list against the fields in their order.  What is left over ends the
well-formed part of the text where documents are read entry by entry, and is skipped where they
are taken as a whole. -/
def checkList (dialect : Dialect) (closed : Bool) (tooShort : Misfit) :
    List FieldRule → List Document → Except Misfit Unit
  | [], rest =>
    if closed && (rest.isEmpty || dialect == .toml) then .ok () else .error .malformed
  | f :: fields, [] =>
    if !closed then .error .malformed
    else if f.mayEnd then checkList dialect closed tooShort fields []
    else .error tooShort
  | f :: fields, item :: rest => do
    f.check dialect item
    checkList dialect closed tooShort fields rest

/-- The entry of a table under a name. -/
def tableEntry (members : List (Document × Document)) (name : String) : Option Document :=
  members.findSome? fun
    | (.text key, value) => if key == name then some value else none
    | _ => none

/-- The entry of a list at the place of a field. -/
def listEntry (fields : List FieldRule) (items : List Document) (name : String) :
    Option Document :=
  ((fields.zip items).find? fun entry => entry.1.name == name).map (·.2)

/-- How many elements a record has, in words. -/
def elements (n : Nat) : String :=
  String.ofList (Text.natText n) ++ (if n = 1 then " element" else " elements")

/-- The decoder of a record, which is called by `title` in messages. -/
def decoder {α : Type} (r : Record α) (title : String) : Decoder α := fun dialect doc =>
  match doc with
  | .table members closed => do
    checkTable dialect r.fields [] members
    if closed then r.build dialect (tableEntry members) else .error .malformed
  | .list items closed => do
    let tooShort := .wrongLength items.length (title ++ " with " ++ elements r.fields.length)
    checkList dialect closed tooShort r.fields items
    r.build dialect (listEntry r.fields items)
  | .dateTime => r.build dialect fun _ => none
  | _ => .error (doc.misfit title)

end Record
end TripleBarrier
