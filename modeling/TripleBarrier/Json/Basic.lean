import TripleBarrier.Decimal.Layout

/-!
# JSON values and their text

A value as it is written, with the members of objects in order.  The text is compact: no blanks,
numbers in the interchange layout, and only those characters escaped that must be.

## Main definitions

* `Json` — a value to be written.
* `Json.quote` — a string with its escapes.
* `Json.render` — the text of a value.
-/

namespace TripleBarrier

/-- A value of an interchange document.  Whole numbers are kept apart from floats, which are
written differently. -/
inductive Json
  | null
  | bool (b : Bool)
  | int (i : Int)
  | float (x : Float)
  | string (s : String)
  | array (items : List Json)
  | object (members : List (String × Json))

namespace Json

/-! ### Strings -/

/-- One character of a string: quotes, backslashes and control characters are escaped. -/
def escape (c : Char) : List Char :=
  if c = '"' then ['\\', '"']
  else if c = '\\' then ['\\', '\\']
  else if c = '\x08' then ['\\', 'b']
  else if c = '\x0c' then ['\\', 'f']
  else if c = '\n' then ['\\', 'n']
  else if c = '\r' then ['\\', 'r']
  else if c = '\t' then ['\\', 't']
  else if c.toNat < 32 then
    ['\\', 'u', '0', '0', Nat.digitChar (c.toNat / 16), Nat.digitChar (c.toNat % 16)]
  else [c]

/-- The characters of a string between quotes. -/
def quote (s : List Char) : List Char :=
  '"' :: (s.flatMap escape ++ ['"'])

/-! ### Values -/

/-- The text of a truth value. -/
def boolText (b : Bool) : List Char :=
  if b then ['t', 'r', 'u', 'e'] else ['f', 'a', 'l', 's', 'e']

mutual

/-- The compact text of a value. -/
def render : Json → List Char
  | null => ['n', 'u', 'l', 'l']
  | bool b => boolText b
  | int i => Text.intText i
  | float x => Decimal.interchange.render x
  | string s => quote s.toList
  | array items => '[' :: renderItems items
  | object members => '\x7b' :: renderMembers members

/-- The rest of an array after its opening bracket. -/
def renderItems : List Json → List Char
  | [] => [']']
  | [item] => render item ++ [']']
  | item :: rest => render item ++ ',' :: renderItems rest

/-- The rest of an object after its opening brace. -/
def renderMembers : List (String × Json) → List Char
  | [] => ['\x7d']
  | [(name, value)] => quote name.toList ++ ':' :: (render value ++ ['\x7d'])
  | (name, value) :: rest => quote name.toList ++ ':' :: (render value ++ ',' :: renderMembers rest)

end

/-- The compact text of a value as a string. -/
def text (j : Json) : String :=
  String.ofList j.render

/-- The value of something that may be absent. -/
def option {α : Type} (encode : α → Json) : Option α → Json
  | none => null
  | some a => encode a

end Json
end TripleBarrier
