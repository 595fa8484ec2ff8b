import Mathlib
import TripleBarrier.Proofs.WrittenWords
import TripleBarrier.Toml.Reader

/-!
# Files of plain lines

A settings file that is written has no headers, blanks or comments: each of its lines assigns a word
to a key without quotes.  Such a line is one step of the reader, and leaves all that follows it to
the next one.  So the sections of the file are its lines, in one section, and if no key comes twice
the file is read as the table of its lines, in their order.

## Main definitions

* `Toml.Line` — a line that assigns a word to a bare key.

## Main results

* `Toml.sections?_line` — a line is read in one step.
* `Toml.sections?_lines` — the lines of a file make one section.
* `Toml.read?_lines` — **a file of plain lines is read as the table of its lines.**
-/

namespace TripleBarrier
namespace Toml

/-- A line that assigns a word to a key without quotes. -/
structure Line where
  key : String
  word : List Char
  value : Document
  key_ne_nil : key.toList ≠ []
  isBareChar_of_mem : ∀ c ∈ key.toList, isBareChar c
  isWordChar_of_mem : ∀ c ∈ word, isWordChar c
  word?_eq : word? word = some value

/-- The text of a line, with its end. -/
def Line.text (l : Line) : List Char :=
  l.key.toList ++ " = ".toList ++ l.word ++ ['\n']

/-- The assignment that a line makes. -/
def Line.assignment (l : Line) : Members.Assignment :=
  ([], l.key, l.value)

/-! ### Words in their places -/

theorem skipSpaces_cons {c : Char} (hspace : c ≠ ' ') (htab : c ≠ '\t') (cs : List Char) :
    skipSpaces (c :: cs) = c :: cs :=
  List.dropWhile_cons_of_neg (by simp [isSpace, hspace, htab])

section
variable {word : List Char} (hword : ∀ c ∈ word, isWordChar c) (rest : List Char)
include hword

/-- A word and the end of its line start with no other character than those of words. -/
theorem exists_cons_of_word : ∃ c cs, word ++ '\n' :: rest = c :: cs ∧
    ∀ d, isWordChar d = false → d ≠ '\n' → c ≠ d := by
  cases word with
  | nil => exact ⟨'\n', rest, rfl, fun d _ hd => hd.symm⟩
  | cons c word =>
    refine ⟨c, word ++ '\n' :: rest, rfl, ?_⟩
    rintro d hd - rfl
    exact Bool.false_ne_true (hd.symm.trans (hword c List.mem_cons_self))

theorem skipSpaces_word : skipSpaces (' ' :: (word ++ '\n' :: rest)) = word ++ '\n' :: rest := by
  obtain ⟨c, cs, heq, hc⟩ := exists_cons_of_word hword rest
  have hspace : skipSpaces (' ' :: c :: cs) = skipSpaces (c :: cs) := rfl
  rw [heq, hspace]
  exact skipSpaces_cons (hc ' ' rfl (by decide)) (hc '\t' rfl (by decide)) cs

/-- A word at the end of a line is read as a whole. -/
theorem scalar?_word : scalar? (word ++ '\n' :: rest) = (word? word).map (·, '\n' :: rest) := by
  have hspan : (word ++ '\n' :: rest).span isWordChar = (word, '\n' :: rest) := by
    refine span_append hword ?_
    intro c hc
    cases Option.some.inj hc
    decide
  unfold scalar?
  rw [hspan]
  dsimp only
  split
  · next heq => exact nomatch heq
  · rfl

/-- A word is no list, no table and no text. -/
theorem value?_word (depth : ℕ) :
    value? depth (word ++ '\n' :: rest) = (word? word).map (·, '\n' :: rest) := by
  obtain ⟨c, cs, heq, hc⟩ := exists_cons_of_word hword rest
  rw [← scalar?_word hword, heq]
  unfold value?
  split
  · next hlist => exact absurd (List.cons.inj hlist).1 (hc '[' rfl (by decide))
  · next htable => exact absurd (List.cons.inj htable).1 (hc '\x7b' rfl (by decide))
  · next htext => exact absurd (List.cons.inj htext).1 (hc '"' rfl (by decide))
  · next htext => exact absurd (List.cons.inj htext).1 (hc '\'' rfl (by decide))
  · rfl

end

/-! ### Keys in their places -/

theorem ne_of_isBareChar {c d : Char} (hc : isBareChar c) (hd : isBareChar d = false) : c ≠ d := by
  rintro rfl
  exact Bool.false_ne_true (hd.symm.trans hc)

section
variable {key : List Char} (hne : key ≠ []) (hkey : ∀ c ∈ key, isBareChar c)
include hne hkey

/-- What a key starts with. -/
theorem exists_cons_of_bare (rest : List Char) :
    ∃ c cs, key ++ rest = c :: cs ∧ isBareChar c := by
  cases key with
  | nil => exact absurd rfl hne
  | cons c key => exact ⟨c, key ++ rest, rfl, hkey c List.mem_cons_self⟩

theorem simpleKey?_bare (rest : List Char) :
    simpleKey? (key ++ ' ' :: rest) = some (String.ofList key, ' ' :: rest) := by
  obtain ⟨c, cs, heq, hc⟩ := exists_cons_of_bare hne hkey (' ' :: rest)
  have hspan : (key ++ ' ' :: rest).span isBareChar = (key, ' ' :: rest) := by
    refine span_append hkey ?_
    intro d hd
    cases Option.some.inj hd
    decide
  rw [heq] at hspan ⊢
  unfold simpleKey?
  split
  · next htext => exact absurd (List.cons.inj htext).1 (ne_of_isBareChar hc rfl)
  · next htext => exact absurd (List.cons.inj htext).1 (ne_of_isBareChar hc rfl)
  · rw [hspan]
    dsimp only
    rw [if_neg (by simpa using hne)]

theorem skipSpaces_bare (rest : List Char) : skipSpaces (key ++ rest) = key ++ rest := by
  obtain ⟨c, cs, heq, hc⟩ := exists_cons_of_bare hne hkey rest
  rw [heq]
  exact skipSpaces_cons (ne_of_isBareChar hc rfl) (ne_of_isBareChar hc rfl) cs

/-- A key before an equals sign has one part. -/
theorem key?_bare (rest : List Char) :
    key? (key ++ ' ' :: '=' :: rest) = some (([], String.ofList key), '=' :: rest) := by
  have hparts : keyParts? (maxDepth - 1) (key ++ ' ' :: '=' :: rest) =
      some ([String.ofList key], '=' :: rest) := by
    rw [show maxDepth - 1 = 78 + 1 from rfl, keyParts?, skipSpaces_bare hne hkey,
      simpleKey?_bare hne hkey]
    rfl
  unfold key?
  rw [hparts]
  rfl

end

/-! ### Lines in their places -/

section
variable (l : Line) (rest : List Char)

theorem assignment?_line (depth : ℕ) :
    assignment? (value? depth) (l.text ++ rest) = some (l.assignment, '\n' :: rest) := by
  have htext : l.text ++ rest = l.key.toList ++ ' ' :: '=' :: ' ' :: (l.word ++ '\n' :: rest) := by
    simp [Line.text]
  unfold assignment?
  rw [htext, key?_bare l.key_ne_nil l.isBareChar_of_mem, Option.bind_eq_bind, Option.bind_some]
  show (value? depth (skipSpaces (' ' :: (l.word ++ '\n' :: rest))) >>= fun r =>
    some (([], String.ofList l.key.toList, r.1), r.2)) = _
  rw [skipSpaces_word l.isWordChar_of_mem, value?_word l.isWordChar_of_mem, l.word?_eq,
    String.ofList_toList]
  rfl

/-- What a line starts with. -/
theorem exists_cons_of_line : ∃ c cs, l.text ++ rest = c :: cs ∧ isBareChar c := by
  obtain ⟨c, cs, heq, hc⟩ := exists_cons_of_bare l.key_ne_nil l.isBareChar_of_mem
    (" = ".toList ++ (l.word ++ (['\n'] ++ rest)))
  refine ⟨c, cs, ?_, hc⟩
  rw [← heq]
  simp only [Line.text, List.append_assoc]

/-- A line does not end before its key. -/
theorem endOfLine?_bare {c : Char} (hc : isBareChar c) (cs : List Char) :
    endOfLine? (c :: cs) = none := by
  have hcomment : skipComment (c :: cs) = c :: cs := by
    unfold skipComment
    split
    · next heq => exact absurd (List.cons.inj heq).1 (ne_of_isBareChar hc rfl)
    · rfl
  unfold endOfLine?
  rw [skipSpaces_cons (ne_of_isBareChar hc rfl) (ne_of_isBareChar hc rfl), hcomment]
  unfold lineEnd?
  dsimp only
  split
  · next heq => exact absurd (List.cons.inj heq).1 (ne_of_isBareChar hc rfl)
  · next heq => exact absurd (List.cons.inj heq).1 (ne_of_isBareChar hc rfl)
  · rfl

/-- **A line is read in one step**, and nothing of what follows it. -/
theorem sections?_line (fuel : ℕ) (header : Header) (as : List Members.Assignment) :
    sections? (fuel + 1) header as (l.text ++ rest) =
      sections? fuel header (l.assignment :: as) rest := by
  obtain ⟨c, cs, heq, hc⟩ := exists_cons_of_line l rest
  have hassignment := assignment?_line l rest (maxDepth - 1)
  rw [heq] at hassignment ⊢
  rw [sections?, skipSpaces_cons (ne_of_isBareChar hc rfl) (ne_of_isBareChar hc rfl)]
  split
  · next hnil => exact nomatch hnil
  · next hheader => exact absurd (List.cons.inj hheader).1 (ne_of_isBareChar hc rfl)
  · next hline =>
    obtain ⟨rfl, rfl⟩ := List.cons.inj hline
    rw [endOfLine?_bare hc]
    dsimp only
    rw [hassignment]
    rfl

end

/-- **The lines of a file make one section.** -/
theorem sections?_lines (ls : List Line) {fuel : ℕ} (hfuel : ls.length < fuel) (header : Header)
    (as : List Members.Assignment) : sections? fuel header as (ls.flatMap Line.text) =
      some [⟨header, as.reverse ++ ls.map Line.assignment⟩] := by
  induction ls generalizing fuel as with
  | nil =>
    obtain ⟨fuel, rfl⟩ := Nat.exists_eq_succ_of_ne_zero (Nat.ne_zero_of_lt hfuel)
    rw [List.map_nil, List.append_nil]
    rfl
  | cons l ls ih =>
    obtain ⟨fuel, rfl⟩ := Nat.exists_eq_succ_of_ne_zero (Nat.ne_zero_of_lt hfuel)
    rw [List.flatMap_cons, sections?_line, ih (Nat.lt_of_succ_lt_succ hfuel), List.map_cons,
      List.reverse_cons, List.append_assoc]
    rfl

/-! ### Tables -/

/-- The entry that a line makes. -/
def Line.entry (l : Line) : String × Entry :=
  (l.key, .value l.value)

/-- Assignments to keys that are not there yet are added in their order. -/
theorem assignAll_lines {ms : Members} {ls : List Line}
    (h : (ms.map Prod.fst ++ ls.map Line.key).Nodup) :
    ms.assignAll (ls.map Line.assignment) = some (ms ++ ls.map Line.entry) := by
  induction ls generalizing ms with
  | nil => simp [Members.assignAll]
  | cons l ls ih =>
    rw [List.map_cons, List.nodup_middle] at h
    obtain ⟨hkey, hrest⟩ := List.nodup_cons.mp h
    rw [List.mem_append, not_or] at hkey
    have hnew : ms.find? l.key = none := by
      rw [Members.find?, List.lookup_eq_none_iff]
      rintro m hm
      rw [bne_iff_ne]
      rintro heq
      exact hkey.1 (List.mem_map.mpr ⟨m, hm, heq.symm⟩)
    have hput : ms.assign none [] l.key l.value = some (ms ++ [l.entry]) := by
      rw [Members.assign, Members.put, if_pos (.inl rfl), hnew]
      rfl
    have hlater : ((ms ++ [l.entry]).map Prod.fst ++ ls.map Line.key).Nodup := by
      rw [List.map_append, List.append_assoc]
      exact List.nodup_middle.mpr h
    have hstep : ms.assignAll ((l :: ls).map Line.assignment) =
        (ms ++ [l.entry]).assignAll (ls.map Line.assignment) := by
      rw [Members.assignAll, List.map_cons, List.foldlM_cons]
      show ms.assign none [] l.key l.value >>= _ = _
      rw [hput]
      rfl
    rw [hstep, ih hlater, List.map_cons, List.append_assoc]
    rfl

theorem toDocument_lines (ls : List Line) : Members.toDocument (ls.map Line.entry) =
    .table (ls.map fun l => (.text l.key, l.value)) true := by
  have hmembers : membersToDocuments (ls.map Line.entry) =
      ls.map fun l => (.text l.key, l.value) := by
    induction ls with
    | nil => rfl
    | cons l ls ih =>
      rw [List.map_cons, List.map_cons, Line.entry, membersToDocuments, ih, Entry.toDocument]
  rw [Members.toDocument, hmembers]

theorem length_le_length_text (ls : List Line) : ls.length ≤ (ls.flatMap Line.text).length := by
  induction ls with
  | nil => exact Nat.le_refl 0
  | cons l ls ih =>
    have hline : 0 < l.text.length := by
      rw [Line.text, List.length_append]
      exact Nat.succ_pos _
    rw [List.flatMap_cons, List.length_append, List.length_cons]
    omega

/-- A text without a byte order mark is read from its first character on. -/
theorem read?_of_head? {cs : List Char} (h : cs.head? ≠ some '\ufeff') :
    read? cs = (sections? (cs.length + 1) .top [] cs).bind fun sections =>
      (sections.foldlM Section.add []).map Members.toDocument := by
  unfold read?
  split
  · exact absurd rfl h
  · dsimp only
    cases sections? (cs.length + 1) .top [] cs with
    | none => rfl
    | some sections =>
      rw [Option.bind_eq_bind, Option.bind_some, Option.bind_some]
      cases sections.foldlM Section.add [] with
      | none => rfl
      | some members => rfl

theorem head?_lines (ls : List Line) : (ls.flatMap Line.text).head? ≠ some '\ufeff' := by
  cases ls with
  | nil => exact nofun
  | cons l ls =>
    obtain ⟨c, cs, heq, hc⟩ := exists_cons_of_line l (ls.flatMap Line.text)
    rw [List.flatMap_cons, heq, List.head?_cons, Ne, Option.some.injEq]
    exact ne_of_isBareChar hc (by decide)

/-- **A file of plain lines is read as the table of its lines**, if no key comes twice. -/
theorem read?_lines {ls : List Line} (h : (ls.map Line.key).Nodup) :
    read? (ls.flatMap Line.text) = some (.table (ls.map fun l => (.text l.key, l.value)) true) := by
  have hsections := sections?_lines ls (Nat.lt_succ_of_le (length_le_length_text ls)) .top []
  have hassign : Members.assignAll [] (ls.map Line.assignment) = some (ls.map Line.entry) :=
    assignAll_lines h
  have hmembers : [Section.mk .top (ls.map Line.assignment)].foldlM Section.add [] =
      some (ls.map Line.entry) := by
    rw [List.foldlM_cons]
    show Members.assignAll [] (ls.map Line.assignment) >>= pure = _
    rw [hassign]
    rfl
  rw [read?_of_head? (head?_lines ls), hsections, Option.bind_some, List.reverse_nil,
    List.nil_append, hmembers, Option.map_some, toDocument_lines]

end Toml
end TripleBarrier
