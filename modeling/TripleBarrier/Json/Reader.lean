import TripleBarrier.Document.Decode
import TripleBarrier.Json.Number

/-!
# Reading JSON

A text is read from the left.  Where it stops being well formed, a fault is left in the document
and nothing behind it is read.  A value that is well formed but stands for nothing (a number that
is too large, a string that names half of a surrogate pair) is a fault too, but reading goes on:
such a value may be skipped.

## Main definitions

* `Reading` — a document and the text behind it.
* `readString` — a string after its opening quote.
* `readValue` — any value.
* `Json.decode` — decodes a whole text.
-/

namespace TripleBarrier
namespace Json

/-- What was read, and the text behind it, which is absent where the text is not well formed. -/
abbrev Reading :=
  Document × Option (List Char)

/-- Nothing could be read. -/
def broken : Reading :=
  (.fault, none)

/-! ### Blanks -/

/-- Blanks that may stand between the parts of a document. -/
def isBlank (c : Char) : Bool :=
  c = ' ' || c = '\t' || c = '\n' || c = '\r'

/-- The text from the first character on that is not blank. -/
def skipBlanks (cs : List Char) : List Char :=
  cs.dropWhile isBlank

/-! ### Strings -/

/-- The character that a letter after a backslash stands for. -/
def escaped? : Char → Option Char
  | '"' => some '"'
  | '\\' => some '\\'
  | '/' => some '/'
  | 'b' => some '\x08'
  | 'f' => some '\x0c'
  | 'n' => some '\n'
  | 'r' => some '\r'
  | 't' => some '\t'
  | _ => none

/-- The units of a string after its opening quote, and the text behind its closing quote.  A unit
is a character, or the number of an escape. -/
def scanString : List Char → Option (List (Char ⊕ Nat) × List Char)
  | [] => none
  | '"' :: cs => some ([], cs)
  | '\\' :: 'u' :: a :: b :: c :: d :: cs => do
    guard ([a, b, c, d].all (Text.isDigitOf 16))
    let (units, rest) ← scanString cs
    return (.inr (Text.numeral 16 [a, b, c, d]) :: units, rest)
  | '\\' :: c :: cs => do
    let e ← escaped? c
    let (units, rest) ← scanString cs
    return (.inl e :: units, rest)
  | c :: cs =>
    if c = '\\' ∨ c.toNat < 32 then none
    else do
      let (units, rest) ← scanString cs
      return (.inl c :: units, rest)

/-- The number is the first half of a surrogate pair. -/
def isHighHalf (n : Nat) : Bool :=
  0xD800 ≤ n && n ≤ 0xDBFF

/-- The number is the second half of a surrogate pair. -/
def isLowHalf (n : Nat) : Bool :=
  0xDC00 ≤ n && n ≤ 0xDFFF

/-- The characters that units stand for: halves of surrogate pairs stand for one in pairs only. -/
def joinUnits : List (Char ⊕ Nat) → Option (List Char)
  | [] => some []
  | .inl c :: rest => (joinUnits rest).map (c :: ·)
  | .inr n :: .inr m :: rest =>
    if isHighHalf n && isLowHalf m then
      (joinUnits rest).map (Char.ofNat (0x10000 + (n - 0xD800) * 1024 + (m - 0xDC00)) :: ·)
    else if isHighHalf n || isLowHalf n then none
    else (joinUnits (.inr m :: rest)).map (Char.ofNat n :: ·)
  | .inr n :: rest =>
    if isHighHalf n || isLowHalf n then none else (joinUnits rest).map (Char.ofNat n :: ·)

/-- A string after its opening quote. -/
def readString (cs : List Char) : Reading :=
  match scanString cs with
  | none => broken
  | some (units, rest) =>
    (((joinUnits units).elim .fault fun chars => .text (String.ofList chars)), some rest)

/-! ### Values -/

/-- A word with a fixed meaning. -/
def readWord (word : List Char) (meaning : Document) (cs : List Char) : Reading :=
  if word.isPrefixOf cs then (meaning, some (cs.drop word.length)) else broken

/-- A number. -/
def readNumber (cs : List Char) : Reading :=
  match Literal.scan? cs with
  | none => broken
  | some (literal, rest) => (literal.value, some rest)

mutual

/-- The value at the start of a text, after blanks.  Every step into a value takes a character, so
two units of `fuel` for each character are enough. -/
def readValue : Nat → List Char → Reading
  | 0, _ => broken
  | fuel + 1, text =>
    match skipBlanks text with
    | '"' :: cs => readString cs
    | '[' :: cs =>
      match skipBlanks cs with
      | ']' :: rest => (.list [] true, some rest)
      | cs =>
        let (items, rest) := readItems fuel cs
        (.list items rest.isSome, rest)
    | '\x7b' :: cs =>
      match skipBlanks cs with
      | '\x7d' :: rest => (.table [] true, some rest)
      | cs =>
        let (members, rest) := readMembers fuel cs
        (.table members rest.isSome, rest)
    | 'n' :: cs => readWord ['u', 'l', 'l'] .null cs
    | 't' :: cs => readWord ['r', 'u', 'e'] (.bool true) cs
    | 'f' :: cs => readWord ['a', 'l', 's', 'e'] (.bool false) cs
    | cs => readNumber cs

/-- The items of a list up to its end, with at least one item. -/
def readItems : Nat → List Char → List Document × Option (List Char)
  | 0, _ => ([], none)
  | fuel + 1, text =>
    match readValue fuel text with
    | (item, none) => ([item], none)
    | (item, some rest) =>
      match skipBlanks rest with
      | ']' :: rest => ([item], some rest)
      | ',' :: rest =>
        let (items, rest) := readItems fuel rest
        (item :: items, rest)
      | _ => ([item], none)

/-- The members of a table up to its end, with at least one member. -/
def readMembers : Nat → List Char → List (Document × Document) × Option (List Char)
  | 0, _ => ([], none)
  | fuel + 1, text =>
    match readKey fuel text with
    | (key, none) => ([(key, .fault)], none)
    | (key, some rest) =>
      match skipBlanks rest with
      | ':' :: rest =>
        match readValue fuel rest with
        | (value, none) => ([(key, value)], none)
        | (value, some rest) =>
          match skipBlanks rest with
          | '\x7d' :: rest => ([(key, value)], some rest)
          | ',' :: rest =>
            let (members, rest) := readMembers fuel rest
            ((key, value) :: members, rest)
          | _ => ([(key, value)], none)
      | _ => ([(key, .fault)], none)

/-- The key of a member.  Any other value than a string ends the well-formed part of the text. -/
def readKey : Nat → List Char → Reading
  | 0, _ => broken
  | fuel + 1, text =>
    match skipBlanks text with
    | '"' :: cs => readString cs
    | cs => ((readValue fuel cs).1, none)

end

/-- The document at the start of a text. -/
def read (text : List Char) : Reading :=
  readValue (2 * text.length + 2) text

/-- Decodes a text that holds one document and nothing else. -/
def decode {α : Type} (decoder : Decoder α) (text : String) : Except Misfit α := do
  let (doc, rest) := read text.toList
  let a ← decoder .json doc
  match rest with
  | some rest => if (skipBlanks rest).isEmpty then .ok a else .error .malformed
  | none => .error .malformed

end Json
end TripleBarrier
