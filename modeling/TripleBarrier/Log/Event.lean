import TripleBarrier.Decimal.Layout

/-!
# Log events

What a run reports about itself: a message at some level with named values.  Events are values, so
that what is reported can be compared with what is returned.
-/

namespace TripleBarrier
namespace Log

/-- How much an event matters. -/
inductive Level
  | trace
  | debug
  | info
  | warn
  deriving DecidableEq, Repr

/-- The name of a level. -/
def Level.name : Level → String
  | trace => "trace"
  | debug => "debug"
  | info => "info"
  | warn => "warn"

/-- A reported value. -/
inductive Value
  | int (i : Int)
  | bool (b : Bool)
  | float (x : Float)
  | text (s : String)
  deriving DecidableEq

/-- A message with named values. -/
structure Event where
  level : Level
  message : String
  fields : List (String × Value)
  deriving DecidableEq

/-! ### Texts of values -/

/-- The decimal text of an integer. -/
def intText (i : Int) : String :=
  String.ofList (Text.intText i)

/-- The text of an integer that may be absent. -/
def optionText : Option Int → String
  | none => "None"
  | some i => "Some(" ++ intText i ++ ")"

/-- A list of texts between braces: with a name before them, blanks set the braces off. -/
def bracedText (name : String) (entries : List String) : String :=
  if name.isEmpty then "\x7b" ++ String.intercalate ", " entries ++ "\x7d"
  else name ++ " \x7b " ++ String.intercalate ", " entries ++ " \x7d"

end Log
end TripleBarrier
