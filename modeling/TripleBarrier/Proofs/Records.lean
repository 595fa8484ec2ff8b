import Mathlib
import TripleBarrier.Document.Record
import TripleBarrier.Proofs.Reading

/-!
# What records give back

A record that is read from a table with every name once is built from the entries alone: whatever
the checks of the single entries would refuse, building the record would refuse too.  So a written
record is given back exactly when every one of its fields is.

## Main definitions

* `Decoder.Restores` — a decoder gives a value back where something was written.
* `Record.IsChecked` — building a record takes at least what its checks take.

## Main results

* `Record.restores_object_iff` — a written record is given back if it is built from
  the written members.
* `Record.build_seq_eq_ok_iff`, `Record.build_field_written` and kin — how a record is built from
  what its fields give.
* `Decoder.restores_optional_iff`, `Decoder.restores_list_iff` — the same for absent
  values and lists.
-/

namespace TripleBarrier

/-- The decoder gives the value back when the text of `j` is read. -/
def Decoder.Restores {α : Type} (decode : Decoder α) (j : Json) (a : α) : Prop :=
  decode .json j.document = .ok a

theorem Decoder.restores_def {α : Type} {decode : Decoder α} {j : Json} {a : α} :
    decode .json j.document = .ok a ↔ decode.Restores j a :=
  Iff.rfl

namespace Record

variable {α β : Type}

/-! ### Building and checking -/

/-- Whatever entries a record is built from pass the checks of its fields. -/
def IsChecked (r : Record α) : Prop :=
  ∀ dialect entry a, r.build dialect entry = .ok a →
    ∀ f ∈ r.fields, ∀ doc, entry f.name = some doc → f.check dialect doc = .ok ()

/-- One field that is checked by decoding it. -/
theorem isChecked_of_fields_eq {r : Record α} {name : String} {decode : Decoder α} {mayEnd : Bool}
    (hfields : r.fields = [⟨name, fun dialect doc => (decode dialect doc).map fun _ => (), mayEnd⟩])
    (hbuild : ∀ dialect entry doc, entry name = some doc →
      r.build dialect entry = decode dialect doc) : r.IsChecked := by
  intro dialect entry a ha f hf doc hdoc
  rw [hfields, List.mem_singleton] at hf
  subst hf
  rw [hbuild dialect entry doc hdoc] at ha
  show (decode dialect doc).map _ = _
  rw [ha]
  rfl

section
variable (name : String) (decode : Decoder α)

theorem isChecked_field : (field name decode).IsChecked := by
  apply isChecked_of_fields_eq rfl
  intro dialect entry doc h
  rw [build_field, h, Option.elim_some]

theorem isChecked_optionalField : (optionalField name decode).IsChecked := by
  apply isChecked_of_fields_eq rfl
  intro dialect entry doc h
  rw [build_optionalField, h, Option.elim_some]

theorem isChecked_defaultField (default : α) : (defaultField name decode default).IsChecked := by
  apply isChecked_of_fields_eq rfl
  intro dialect entry doc h
  rw [build_defaultField, h, Option.elim_some]

end

theorem build_map_eq_ok_iff {f : α → β} {r : Record α} {dialect : Dialect}
    {entry : String → Option Document} {b : β} :
    (f <$> r).build dialect entry = .ok b ↔ ∃ a, r.build dialect entry = .ok a ∧ f a = b := by
  show (r.build dialect entry).map f = .ok b ↔ _
  cases r.build dialect entry with
  | ok a => simp [Except.map]
  | error misfit => simp [Except.map]

theorem build_seq_eq_ok_iff {r : Record (α → β)} {s : Record α} {dialect : Dialect}
    {entry : String → Option Document} {b : β} :
    (r <*> s).build dialect entry = .ok b ↔
      ∃ f, r.build dialect entry = .ok f ∧ ∃ a, s.build dialect entry = .ok a ∧ f a = b := by
  show (r.build dialect entry >>= fun f => s.build dialect entry >>= fun a =>
    pure (f a)) = .ok b ↔ _
  cases r.build dialect entry with
  | ok f =>
    cases s.build dialect entry with
    | ok a => simp [bind, Except.bind, pure, Except.pure]
    | error misfit => simp [bind, Except.bind]
  | error misfit => simp [bind, Except.bind]

theorem IsChecked.map {r : Record α} (h : r.IsChecked) (f : α → β) : (f <$> r).IsChecked := by
  intro dialect entry b hb
  obtain ⟨a, ha, -⟩ := build_map_eq_ok_iff.mp hb
  exact h dialect entry a ha

theorem IsChecked.seq {r : Record (α → β)} {s : Record α} (hr : r.IsChecked) (hs : s.IsChecked) :
    (r <*> s).IsChecked := by
  intro dialect entry b hb f hf
  obtain ⟨g, hg, a, ha, -⟩ := build_seq_eq_ok_iff.mp hb
  rcases List.mem_append.mp hf with hf | hf
  · exact hr dialect entry g hg f hf
  · exact hs dialect entry a ha f hf

/-! ### Tables with every name once -/

section
variable {dialect : Dialect}

/-- The entries of a written table by their names. -/
def written (members : List (String × Json)) (name : String) : Option Document :=
  (members.lookup name).map Json.document

theorem tableEntry_memberDocuments (members : List (String × Json)) (name : String) :
    tableEntry (Json.memberDocuments members) name = written members name := by
  unfold written
  induction members with
  | nil => rfl
  | cons member members ih =>
    obtain ⟨key, value⟩ := member
    rw [Json.memberDocuments, tableEntry, List.findSome?_cons, List.lookup_cons, BEq.comm]
    dsimp only
    cases key == name with
    | true => rfl
    | false => exact ih

/-- A table with every name once passes the checks if every entry does. -/
theorem checkTable_eq_ok {fields : List FieldRule} {members : List (String × Json)}
    {seen : List String} (hnodup : (seen ++ members.map Prod.fst).Nodup)
    (hcheck : ∀ f ∈ fields, ∀ value, members.lookup f.name = some value →
      f.check dialect value.document = .ok ()) :
    checkTable dialect fields seen (Json.memberDocuments members) = .ok () := by
  induction members generalizing seen with
  | nil => rfl
  | cons member members ih =>
    obtain ⟨key, value⟩ := member
    rw [List.map_cons, List.nodup_middle] at hnodup
    obtain ⟨hkey, hrest⟩ := List.nodup_cons.mp hnodup
    rw [List.mem_append, not_or] at hkey
    -- the remaining entries stand under other names
    have htail : ∀ f ∈ fields, ∀ v, members.lookup f.name = some v →
        f.check dialect v.document = .ok () := by
      intro f hf v hv
      refine hcheck f hf v ?_
      have hne : f.name ≠ key := by
        rintro rfl
        obtain ⟨member, hmember, heq⟩ := List.lookup_isSome_iff.mp (Option.isSome_of_eq_some hv)
        exact hkey.2 (List.mem_map.mpr ⟨member, hmember, (beq_iff_eq.mp heq).symm⟩)
      rw [List.lookup_cons, beq_eq_false_iff_ne.mpr hne]
      exact hv
    rw [Json.memberDocuments, checkTable]
    split
    · exact ih hrest htail
    · next f hfind =>
      have hfound := List.find?_some hfind
      have hname : f.name = key := beq_iff_eq.mp hfound
      have hvalue : List.lookup f.name ((key, value) :: members) = some value := by
        rw [List.lookup_cons, beq_iff_eq.mpr hname]
      rw [if_neg (by simpa using hkey.1), hcheck f (List.mem_of_find?_eq_some hfind) value hvalue]
      exact ih hnodup htail

/-- An entry of a table is one of its values. -/
theorem exists_mem_of_tableEntry {members : List (Document × Document)} {name : String}
    {doc : Document} (h : tableEntry members name = some doc) : ∃ m ∈ members, m.2 = doc := by
  obtain ⟨m, hmem, hvalue⟩ := List.exists_of_findSome?_eq_some h
  refine ⟨m, hmem, ?_⟩
  split at hvalue
  · split at hvalue
    · exact Option.some.inj hvalue
    · exact nomatch hvalue
  · exact nomatch hvalue

/-- What is read from a table is built from its entries. -/
theorem build_of_decoder {r : Record α} {title : String}
    {members : List (Document × Document)} {a : α}
    (h : r.decoder title dialect (.table members true) = .ok a) :
    r.build dialect (tableEntry members) = .ok a := by
  unfold decoder at h
  dsimp only at h
  cases hcheck : checkTable dialect r.fields [] members with
  | ok u =>
    rw [hcheck] at h
    exact h
  | error misfit =>
    rw [hcheck] at h
    exact nomatch h

/-- **A written record is given back if it is built from the written members.** -/
theorem restores_object_iff {r : Record α} (hr : r.IsChecked) (title : String)
    {members : List (String × Json)} (hnodup : (members.map Prod.fst).Nodup) {a : α} :
    (r.decoder title).Restores (.object members) a ↔
      r.build .json (written members) = .ok a := by
  have hentry : tableEntry (Json.memberDocuments members) = written members :=
    funext (tableEntry_memberDocuments members)
  constructor
  · intro h
    rw [← hentry]
    exact build_of_decoder h
  · intro h
    show (checkTable .json r.fields [] (Json.memberDocuments members) >>= fun _ =>
      r.build .json (tableEntry (Json.memberDocuments members))) = .ok a
    rw [hentry, checkTable_eq_ok hnodup fun f hf value hvalue => hr _ _ a h f hf _
      (congrArg (Option.map Json.document) hvalue)]
    exact h

end

/-! ### Fields of written records -/

section
variable (name : String) (decode : Decoder α) (members : List (String × Json))

/-- A field of a written record is decoded from the member of its name. -/
theorem build_field_written :
    (field name decode).build .json (written members) =
      (members.lookup name).elim (.error (.missingField name)) fun j =>
        decode .json j.document := by
  rw [build_field, written, Option.elim_map]
  rfl

theorem build_optionalField_written :
    (optionalField name decode).build .json (written members) =
      (members.lookup name).elim (.ok none) fun j => Decoder.optional decode .json j.document := by
  rw [build_optionalField, written, Option.elim_map]
  rfl

theorem build_defaultField_written (default : α) :
    (defaultField name decode default).build .json (written members) =
      (members.lookup name).elim (.ok default) fun j => decode .json j.document := by
  rw [build_defaultField, written, Option.elim_map]
  rfl

end

end Record

namespace Decoder

/-! ### Single values -/

theorem document_int64 (n : Int64) : (Json.int n.toInt).document = .int n.toInt := by
  have hmin : Int64.minValue.toInt ≤ n.toInt := Int64.le_toInt n
  have hmax : n.toInt ≤ Int64.maxValue.toInt := Int64.toInt_le n
  have hsize : Int64.maxValue.toInt < UInt64.size := by decide
  rw [Json.document]
  exact Json.Literal.value_ofInt hmin (by omega)

/-- Every stamp is given back, the first and the last one included. -/
theorem restores_int64 (n : Int64) : int64.Restores (.int n.toInt) n := by
  unfold Restores int64
  rw [document_int64]
  dsimp only
  rw [if_pos ⟨Int64.le_toInt n, Int64.toInt_le n⟩, Int64.ofInt_toInt]

/-- A count that 64 bits can hold is given back. -/
theorem restores_size {n : ℕ} (h : n < UInt64.size) : size.Restores (.int n) n := by
  have hvalue : (Json.int n).document = .int n := by
    rw [Json.document]
    refine Json.Literal.value_ofInt ?_ (by exact_mod_cast h)
    have hmin : Int64.minValue.toInt ≤ 0 := by decide
    omega
  unfold Restores size
  rw [hvalue]
  dsimp only
  rw [if_pos ⟨by omega, by exact_mod_cast h⟩, Int.toNat_natCast]

theorem restores_bool (b : Bool) : bool.Restores (.bool b) b := by
  cases b with
  | true => rfl
  | false => rfl

/-- A finite float is given back exactly when the reader makes it of its digits. -/
theorem restores_float_iff {x : Float} (h : x.isFinite) :
    float.Restores (.float x) x ↔ Json.ReadsBack x := by
  unfold Restores Json.ReadsBack
  rw [Json.document, if_pos h]
  cases hread : Json.reread x with
  | some y =>
    rw [Option.elim_some]
    show Except.ok y = .ok x ↔ _
    simp
  | none =>
    rw [Option.elim_none]
    exact ⟨fun h => (nomatch h), fun h => (nomatch h)⟩

variable {α : Type} {decode : Decoder α} {encode : α → Json}

/-! ### Absent values and lists -/

/-- What may be absent is given back if it is given back where it is there, as long as nothing that
is there reads like an absent value. -/
theorem restores_optional_iff {o : Option α} (hnull : ∀ a ∈ o, (encode a).document ≠ .null) :
    (optional decode).Restores (Json.option encode o) o ↔
      ∀ a ∈ o, decode.Restores (encode a) a := by
  cases o with
  | none => exact ⟨fun _ _ h => (nomatch h), fun _ => rfl⟩
  | some a =>
    have hsome : optional decode .json (encode a).document =
        (decode .json (encode a).document).map some := by
      unfold optional
      split
      · next heq => exact absurd heq (hnull a rfl)
      · rfl
    unfold Restores
    rw [Json.option, hsome]
    cases h : decode .json (encode a).document with
    | ok b => simp [Except.map, h]
    | error misfit => simp [Except.map, h]

theorem itemDocuments_map (items : List α) :
    Json.itemDocuments (items.map encode) = items.map fun a => (encode a).document := by
  induction items with
  | nil => rfl
  | cons a items ih => rw [List.map_cons, Json.itemDocuments, ih, List.map_cons]

theorem mapM_eq_ok_iff (items : List α) :
    (items.map fun a => (encode a).document).mapM (decode .json) = .ok items ↔
      ∀ a ∈ items, decode.Restores (encode a) a := by
  induction items with
  | nil => exact ⟨fun _ _ h => (nomatch h), fun _ => rfl⟩
  | cons a items ih =>
    rw [List.map_cons, List.mapM_cons, List.forall_mem_cons, ← ih]
    unfold Restores
    cases decode .json (encode a).document with
    | ok b =>
      cases (items.map fun a => (encode a).document).mapM (decode .json) with
      | ok bs => simp [bind, Except.bind, pure, Except.pure]
      | error misfit => simp [bind, Except.bind]
    | error misfit => simp [bind, Except.bind]

/-- A list is given back if all of its items are. -/
theorem restores_list_iff {items : List α} :
    (list decode).Restores (.array (items.map encode)) items ↔
      ∀ a ∈ items, decode.Restores (encode a) a := by
  rw [← mapM_eq_ok_iff, ← itemDocuments_map]
  show ((Json.itemDocuments (items.map encode)).mapM (decode .json) >>= pure) = .ok items ↔ _
  rw [bind_pure]

section
variable {β : Type} {check : α → Except String β} {b : β}

/-- What a checked value is read from gives a value that passes the check. -/
theorem checked_eq_ok_iff {dialect : Dialect} {doc : Document} :
    checked decode check dialect doc = .ok b ↔
      ∃ a, decode dialect doc = .ok a ∧ check a = .ok b := by
  unfold checked
  cases decode dialect doc with
  | ok a =>
    cases h : check a with
    | ok b' => simp [bind, Except.bind, h]
    | error message => simp [bind, Except.bind, h]
  | error misfit => simp [bind, Except.bind]

end

end Decoder
end TripleBarrier
