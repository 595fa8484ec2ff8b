import TripleBarrier.Text.Numeral

/-!
# Quoted text of a settings file

Text stands between quotes, where backslashes escape, or between apostrophes, where they do not.
Three of them open a text that may run over several lines.

## Main definitions

* `basic?`, `literal?` — text on one line, after its opening mark.
* `basicLines?`, `literalLines?` — text on several lines, after its opening marks.
* `text?` — any quoted text.
-/

namespace TripleBarrier
namespace Toml

/-- Characters that may stand in comments and between apostrophes. -/
def isTextChar (c : Char) : Bool :=
  c = '\t' || (32 ≤ c.toNat && c.toNat != 127)

/-- Blanks within a line. -/
def isSpace (c : Char) : Bool :=
  c = ' ' || c = '\t'

/-- The text behind a line end at its start. -/
def lineEnd? : List Char → Option (List Char)
  | '\n' :: cs => some cs
  | '\r' :: '\n' :: cs => some cs
  | _ => none

/-! ### Escapes -/

/-- The character whose number is given by exactly `n` hexadecimal digits, and the text behind
them.  Numbers that belong to no character are refused. -/
def numberedChar? (n : Nat) (cs : List Char) : Option (Char × List Char) := do
  let digits := cs.take n
  guard (digits.length = n ∧ digits.all (Text.isDigitOf 16))
  let value := Text.numeral 16 digits
  guard value.isValidChar
  return (Char.ofNat value, cs.drop n)

/-- The character that an escape stands for, after its backslash, and the text behind it. -/
def escape? : List Char → Option (Char × List Char)
  | 'b' :: cs => some ('\x08', cs)
  | 't' :: cs => some ('\t', cs)
  | 'n' :: cs => some ('\n', cs)
  | 'f' :: cs => some ('\x0c', cs)
  | 'r' :: cs => some ('\r', cs)
  | '"' :: cs => some ('"', cs)
  | '\\' :: cs => some ('\\', cs)
  | 'u' :: cs => numberedChar? 4 cs
  | 'U' :: cs => numberedChar? 8 cs
  | _ => none

/-! ### Text on one line -/

/-- Text between quotes, after the opening one, and the text behind it.  `fuel` bounds the
characters. -/
def basic? : Nat → List Char → Option (List Char × List Char)
  | 0, _ => none
  | fuel + 1, cs =>
    match cs with
    | [] => none
    | '"' :: rest => some ([], rest)
    | '\\' :: rest => do
      let (c, rest) ← escape? rest
      let (text, rest) ← basic? fuel rest
      return (c :: text, rest)
    | c :: rest => do
      guard (isTextChar c)
      let (text, rest) ← basic? fuel rest
      return (c :: text, rest)

/-- Text between apostrophes, after the opening one, and the text behind it. -/
def literal? : List Char → Option (List Char × List Char)
  | [] => none
  | '\'' :: rest => some ([], rest)
  | c :: rest => do
    guard (isTextChar c)
    let (text, rest) ← literal? rest
    return (c :: text, rest)

/-! ### Text on several lines -/

/-- Closes text on several lines at a run of marks, if it is long enough: up to two marks before
the closing three belong to the text. -/
def closing? (mark : Char) (cs : List Char) : Option (List Char × List Char) :=
  let run := (cs.takeWhile (· == mark)).take 5
  if 3 ≤ run.length then some (run.drop 3, cs.drop run.length) else none

/-- The text behind the blanks and line ends at its start.  The first argument bounds the lines. -/
def skipBlankLines : Nat → List Char → List Char
  | 0, cs => cs
  | fuel + 1, cs =>
    match lineEnd? (cs.dropWhile isSpace) with
    | some rest => skipBlankLines fuel rest
    | none => cs.dropWhile isSpace

/-- Text between quotes on several lines, in which a backslash at the end of a line removes the
line end and all blanks behind it. -/
def basicLines? : Nat → List Char → Option (List Char × List Char)
  | 0, _ => none
  | fuel + 1, cs =>
    match closing? '"' cs with
    | some closed => some closed
    | none =>
      match cs with
      | [] => none
      | '\r' :: '\n' :: rest => do
        let (text, rest) ← basicLines? fuel rest
        return ('\n' :: text, rest)
      | '\\' :: rest =>
        match lineEnd? (rest.dropWhile isSpace) with
        | some rest => basicLines? fuel (skipBlankLines rest.length rest)
        | none => do
          let (c, rest) ← escape? rest
          let (text, rest) ← basicLines? fuel rest
          return (c :: text, rest)
      | c :: rest => do
        guard (isTextChar c || c = '\n')
        let (text, rest) ← basicLines? fuel rest
        return (c :: text, rest)

/-- Text between apostrophes on several lines. -/
def literalLines? : Nat → List Char → Option (List Char × List Char)
  | 0, _ => none
  | fuel + 1, cs =>
    match closing? '\'' cs with
    | some closed => some closed
    | none =>
      match cs with
      | [] => none
      | '\r' :: '\n' :: rest => do
        let (text, rest) ← literalLines? fuel rest
        return ('\n' :: text, rest)
      | c :: rest => do
        guard (isTextChar c || c = '\n')
        let (text, rest) ← literalLines? fuel rest
        return (c :: text, rest)

/-- The text behind the line end that may follow the opening marks of text on several lines. -/
def skipLineEnd (cs : List Char) : List Char :=
  (lineEnd? cs).getD cs

/-- Any quoted text at the start of a text, and the text behind it. -/
def text? (cs : List Char) : Option (List Char × List Char) :=
  match cs with
  | '"' :: '"' :: '"' :: rest => basicLines? (rest.length + 1) (skipLineEnd rest)
  | '\'' :: '\'' :: '\'' :: rest => literalLines? (rest.length + 1) (skipLineEnd rest)
  | '"' :: rest => basic? (rest.length + 1) rest
  | '\'' :: rest => literal? rest
  | _ => none

end Toml
end TripleBarrier
