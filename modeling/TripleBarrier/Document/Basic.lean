import TripleBarrier.Decimal.Layout
import TripleBarrier.Text.Quoted

/-!
# Documents as a reader sees them

A reader turns text into a `Document`; a decoder turns the document into a value of some type, or
says why it does not fit.  The reader of a language that is decoded while it is still being read
does not give up at a fault: it leaves the fault in its place, so that the first misfit in the
order of the text is reported, be it a fault of the text or a value of the wrong type.

## Main definitions

* `Document` — values in the order of the text, with faults in their places.
* `Misfit` — why a document does not give a value, with `Misfit.message`.
* `Dialect` — the languages documents come from, where their rules differ.
-/

namespace TripleBarrier

/-- A value found in a text.  Lists and tables say whether the text closes them: if not, the text
stops being well formed behind their last entry. -/
inductive Document
  | null
  | bool (b : Bool)
  | int (i : Int)
  | float (x : Float)
  | text (s : String)
  | dateTime
  | list (items : List Document) (closed : Bool)
  | table (members : List (Document × Document)) (closed : Bool)
  /-- No value can be read here. -/
  | fault

/-- The languages that documents are written in. -/
inductive Dialect
  | json
  | toml
  deriving DecidableEq, Repr

/-! ### Misfits -/

/-- What was found in place of a value of the wanted type. -/
inductive Found
  | null
  | bool (b : Bool)
  | int (i : Int)
  | float (x : Float)
  | text (s : String)
  | list
  | table
  /-- A bare name where a name with a value was wanted. -/
  | bareName

/-- Why a document does not give a value of the wanted type. -/
inductive Misfit
  /-- The text is not well formed. -/
  | malformed
  | wrongType (found : Found) (wanted : String)
  | outOfRange (value : Int) (wanted : String)
  | wrongLength (length : Nat) (wanted : String)
  | missingField (name : String)
  | duplicateField (name : String)
  | unknownName (name : String) (known : List String)
  /-- Neither a name nor a table that gives one. -/
  | notNamed
  /-- A table that should have one entry has none, or several. -/
  | notSingle (isEmpty : Bool)
  /-- A name that takes no value was given one. -/
  | notEmpty (kind : String)
  /-- A name was given a value where at most an empty table may stand. -/
  | notTable (kind : String)
  /-- The value was read but breaks one of its rules. -/
  | rejected (message : String)

/-- How messages about documents of a dialect write a float. -/
def Dialect.floatLayout : Dialect → Decimal.Layout
  | json => Decimal.interchange
  | toml => { Decimal.plain with keepsPoint := true }

/-- How a found value is described. -/
def Found.describe (dialect : Dialect) : Found → String
  | null => "null"
  | bool b => "boolean `" ++ (if b then "true" else "false") ++ "`"
  | int i => "integer `" ++ String.ofList (Text.intText i) ++ "`"
  | float x => "floating point `" ++ String.ofList (dialect.floatLayout.render x) ++ "`"
  | text s => "string " ++ Text.quoted s
  | list => "sequence"
  | table => "map"
  | bareName => "unit variant"

/-- The names that are known: two of them, or a list. -/
def knownNames (names : List String) : String :=
  let ticked := names.map fun name => "`" ++ name ++ "`"
  match ticked with
  | [a, b] => a ++ " or " ++ b
  | _ => "one of " ++ String.intercalate ", " ticked

/-- What a misfit says.  A malformed text has no message of its own. -/
def Misfit.message (dialect : Dialect) : Misfit → String
  | malformed => ""
  | wrongType found wanted => "invalid type: " ++ found.describe dialect ++ ", expected " ++ wanted
  | outOfRange value wanted =>
    "invalid value: integer `" ++ String.ofList (Text.intText value) ++ "`, expected " ++ wanted
  | wrongLength length wanted =>
    "invalid length " ++ String.ofList (Text.natText length) ++ ", expected " ++ wanted
  | missingField name => "missing field `" ++ name ++ "`"
  | duplicateField name => "duplicate field `" ++ name ++ "`"
  | unknownName name known => "unknown variant `" ++ name ++ "`, expected " ++ knownNames known
  | notNamed => "wanted string or table"
  | notSingle isEmpty =>
    "wanted exactly 1 element, " ++ (if isEmpty then "found 0 elements" else "more than 1 element")
  | notEmpty kind => "expected empty " ++ kind
  | notTable kind => "expected table, found " ++ kind
  | rejected message => message

/-- The misfit of a document where something else was wanted: a fault stays one. -/
def Document.misfit (wanted : String) : Document → Misfit
  | null => .wrongType .null wanted
  | bool b => .wrongType (.bool b) wanted
  | int i => .wrongType (.int i) wanted
  | float x => .wrongType (.float x) wanted
  | text s => .wrongType (.text s) wanted
  | dateTime => .wrongType .table wanted
  | list _ _ => .wrongType .list wanted
  | table _ _ => .wrongType .table wanted
  | fault => .malformed

end TripleBarrier
