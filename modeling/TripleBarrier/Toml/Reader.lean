import TripleBarrier.Document.Decode
import TripleBarrier.Toml.Scalar
import TripleBarrier.Toml.Table
import TripleBarrier.Toml.Text

/-!
# Reading TOML

A settings file is read as a whole before anything in it is decoded.  Each line is blank, a header
or an assignment, and may end in a comment.

## Main definitions

* `key?` — a dotted key.
* `value?` — a value, with lists and tables in it up to a fixed depth.
* `read?` — a whole file.
* `Toml.decode` — decodes a whole file.
-/

namespace TripleBarrier
namespace Toml

/-! ### Blanks, comments and line ends -/

/-- The text from the first character on that is no blank. -/
def skipSpaces (cs : List Char) : List Char :=
  cs.dropWhile isSpace

/-- The text behind a comment, if there is one. -/
def skipComment : List Char → List Char
  | '#' :: cs => cs.dropWhile isTextChar
  | cs => cs

/-- The text behind the end of a line, which may hold blanks and a comment. -/
def endOfLine? (cs : List Char) : Option (List Char) :=
  match skipComment (skipSpaces cs) with
  | [] => some []
  | cs => lineEnd? cs

/-- The text from the first character on that belongs to no blank, comment or line end.  The first
argument bounds the lines. -/
def skipFiller : Nat → List Char → List Char
  | 0, cs => cs
  | fuel + 1, cs =>
    match lineEnd? (skipComment (skipSpaces cs)) with
    | some rest => skipFiller fuel rest
    | none => skipSpaces cs

/-! ### Keys -/

/-- Keys and tables may not lie deeper than this. -/
def maxDepth : Nat := 80

/-- The characters of keys without quotes. -/
def isBareChar (c : Char) : Bool :=
  c.isAlphanum || c = '-' || c = '_'

/-- One part of a dotted key, and the text behind it. -/
def simpleKey? (cs : List Char) : Option (String × List Char) :=
  match cs with
  | '"' :: rest => (basic? (rest.length + 1) rest).map fun r => (String.ofList r.1, r.2)
  | '\'' :: rest => (literal? rest).map fun r => (String.ofList r.1, r.2)
  | _ =>
    let (bare, rest) := cs.span isBareChar
    if bare.isEmpty then none else some (String.ofList bare, rest)

/-- The parts of a dotted key, with blanks around them, and the text behind them.  The first
argument bounds the parts. -/
def keyParts? : Nat → List Char → Option (List String × List Char)
  | 0, _ => none
  | fuel + 1, cs => do
    let (part, rest) ← simpleKey? (skipSpaces cs)
    match skipSpaces rest with
    | '.' :: rest =>
      let (parts, rest) ← keyParts? fuel rest
      return (part :: parts, rest)
    | rest => return ([part], rest)

/-- A dotted key by its steps and its last part, and the text behind it. -/
def key? (cs : List Char) : Option ((List String × String) × List Char) := do
  let (parts, rest) ← keyParts? (maxDepth - 1) cs
  let last ← parts.getLast?
  return ((parts.dropLast, last), rest)

/-! ### Values -/

/-- What was read, and the text behind it. -/
abbrev Read (α : Type) :=
  List Char → Option (α × List Char)

/-- A number, a truth value or a date.  A date may be followed by one blank and a time of day. -/
def scalar? : Read Document := fun cs =>
  let (word, rest) := cs.span isWordChar
  match isDate word, rest with
  | true, ' ' :: c :: rest =>
    if c.isDigit then
      let (time, rest) := (c :: rest).span isWordChar
      (word? (word ++ 'T' :: time)).map (·, rest)
    else (word? word).map (·, ' ' :: c :: rest)
  | _, _ => (word? word).map (·, rest)

/-- The items of an array up to its end.  The first argument bounds the items. -/
def items? (item : Read Document) : Nat → Read (List Document)
  | 0, _ => none
  | fuel + 1, cs =>
    match skipFiller cs.length cs with
    | ']' :: rest => some ([], rest)
    | cs => do
      let (doc, rest) ← item cs
      match skipFiller rest.length rest with
      | ']' :: rest => return ([doc], rest)
      | ',' :: rest =>
        let (docs, rest) ← items? item fuel rest
        return (doc :: docs, rest)
      | _ => none

/-- An assignment, and the text behind it. -/
def assignment? (item : Read Document) : Read Members.Assignment := fun cs => do
  let ((path, key), rest) ← key? cs
  match rest with
  | '=' :: rest =>
    let (doc, rest) ← item (skipSpaces rest)
    return ((path, key, doc), rest)
  | _ => none

/-- The assignments of a table on one line up to its end.  The first argument bounds them. -/
def inlineMembers? (item : Read Document) : Nat → Read (List Members.Assignment)
  | 0, _ => none
  | fuel + 1, cs => do
    let (a, rest) ← assignment? item cs
    match skipSpaces rest with
    | '\x7d' :: rest => return ([a], rest)
    | ',' :: rest =>
      let (others, rest) ← inlineMembers? item fuel rest
      return (a :: others, rest)
    | _ => none

/-- A value in which arrays and tables on one line may lie `depth` levels deep. -/
def value? : Nat → Read Document
  | depth, cs =>
    match depth, cs with
    | depth + 1, '[' :: rest => do
      let (docs, rest) ← items? (value? depth) (rest.length + 1) rest
      return (.list docs true, rest)
    | depth + 1, '\x7b' :: rest =>
      match skipSpaces rest with
      | '\x7d' :: rest => return (.table [] true, rest)
      | _ => do
        let (assignments, rest) ← inlineMembers? (value? depth) (rest.length + 1) rest
        let members ← Members.assignAll [] assignments
        return (members.toDocument, rest)
    | _, '"' :: _ => (text? cs).map fun r => (.text (String.ofList r.1), r.2)
    | _, '\'' :: _ => (text? cs).map fun r => (.text (String.ofList r.1), r.2)
    | _, _ => scalar? cs

/-! ### Files -/

/-- A header at the start of a line, and the text behind its line. -/
def header? : Read Header := fun cs =>
  match cs with
  | '[' :: '[' :: rest => do
    let ((path, key), rest) ← key? rest
    match rest with
    | ']' :: ']' :: rest => return (.item path key, ← endOfLine? rest)
    | _ => none
  | '[' :: rest => do
    let ((path, key), rest) ← key? rest
    match rest with
    | ']' :: rest => return (.table path key, ← endOfLine? rest)
    | _ => none
  | _ => none

/-- The sections of a file from a given one on, whose assignments so far are given in reverse.  The
first argument bounds the lines. -/
def sections? : Nat → Header → List Members.Assignment → List Char → Option (List Section)
  | 0, _, _, _ => none
  | fuel + 1, header, assignments, cs =>
    match skipSpaces cs with
    | [] => some [⟨header, assignments.reverse⟩]
    | '[' :: rest => do
      let (next, rest) ← header? ('[' :: rest)
      return ⟨header, assignments.reverse⟩ :: (← sections? fuel next [] rest)
    | c :: rest =>
      match endOfLine? (c :: rest) with
      | some rest => sections? fuel header assignments rest
      | none => do
        let (a, rest) ← assignment? (value? (maxDepth - 1)) (c :: rest)
        sections? fuel header (a :: assignments) (← endOfLine? rest)

/-- The table of a whole file.  A byte order mark at its start is skipped. -/
def read? (text : List Char) : Option Document := do
  let cs := match text with
    | '\ufeff' :: rest => rest
    | _ => text
  let sections ← sections? (cs.length + 1) .top [] cs
  let members ← sections.foldlM Section.add []
  return members.toDocument

/-- Decodes a whole file. -/
def decode {α : Type} (decoder : Decoder α) (text : String) : Except Misfit α :=
  match read? text.toList with
  | some doc => decoder .toml doc
  | none => .error .malformed

end Toml
end TripleBarrier
