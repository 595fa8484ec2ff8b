import Mathlib
import TripleBarrier.Batch.SettingsFile
import TripleBarrier.Proofs.PlainFiles
import TripleBarrier.Proofs.Records
import TripleBarrier.Proofs.WholeNumbers

/-!
# Settings that are saved

Loading settings normalises them.  Whatever a text leaves out, writes as a whole number or holds
besides, the settings that it gives have a sound rate, do not ask for zero workers, and ask for no
more of them than a whole number of a settings file can say.  So each of their fields is written as
one word of a plain line, and is read back from it as it is: a rate to its last bit, in full however
small it is, and a number of workers only if there is one, since nothing stands for an absent one.

## Main definitions

* `Settings.IsSound` — settings that break no rule and that a settings file can hold.

## Main results

* `Settings.ofText_eq_ok_iff` — settings are loaded if they are read and break no rule.
* `Settings.fields_of_decoder` — a field is read from its entry, or has its usual value.
* `Settings.ofText_lines` — sound settings are loaded from the text that is written for them.
* `Settings.ofText_normalises` — **settings that are loaded are sound and are loaded
  again as they are.**
-/

namespace TripleBarrier
namespace Settings

open Decimal Toml

/-! ### Rules -/

/-- Settings that break no rule, with no more workers than a whole number of a
settings file can say. -/
structure IsSound (s : Settings) : Prop where
  isFinite : s.costRate.isFinite
  nonneg : 0.0 ≤ s.costRate
  lt_one : s.costRate < 1.0
  threads : ∀ n, s.threads = some n → 0 < n ∧ n ≤ Int64.maxValue.toInt

theorem isRate_iff {x : Float} : isRate x ↔ x.isFinite ∧ 0.0 ≤ x ∧ x < 1.0 := by
  unfold isRate
  rw [Bool.and_eq_true, Bool.and_eq_true, decide_eq_true_iff, decide_eq_true_iff, and_assoc]

theorem fault?_eq_none_iff {s : Settings} :
    s.fault? = none ↔ isRate s.costRate ∧ s.threads ≠ some 0 := by
  unfold fault?
  by_cases hrate : isRate s.costRate
  · by_cases hthreads : s.threads = some 0
    · simp [hrate, hthreads]
    · simp [hrate, hthreads]
  · simp [hrate]

theorem isSound_iff {s : Settings} : s.IsSound ↔
    s.fault? = none ∧ ∀ n, s.threads = some n → n ≤ Int64.maxValue.toInt := by
  rw [fault?_eq_none_iff, isRate_iff]
  constructor
  · rintro ⟨hfinite, hnonneg, hlt, hthreads⟩
    refine ⟨⟨⟨hfinite, hnonneg, hlt⟩, ?_⟩, fun n hn => (hthreads n hn).2⟩
    intro hzero
    exact Nat.lt_irrefl 0 (hthreads 0 hzero).1
  · rintro ⟨⟨⟨hfinite, hnonneg, hlt⟩, hzero⟩, hthreads⟩
    refine ⟨hfinite, hnonneg, hlt, fun n hn => ⟨Nat.pos_of_ne_zero ?_, hthreads n hn⟩⟩
    rintro rfl
    exact hzero hn

/-- Settings are loaded if they are read and break no rule. -/
theorem ofText_eq_ok_iff {text : String} {s : Settings} :
    ofText text = .ok s ↔ Toml.decode decoder text = .ok s ∧ s.fault? = none := by
  unfold ofText
  cases Toml.decode decoder text with
  | error m => exact iff_of_false nofun (fun h => nomatch h.1)
  | ok t =>
    dsimp only
    cases hfault : t.fault? with
    | none =>
      constructor
      · intro h
        cases h
        exact ⟨rfl, hfault⟩
      · rintro ⟨h, -⟩
        cases h
        rfl
    | some f =>
      refine iff_of_false nofun ?_
      rintro ⟨h, hnone⟩
      cases h
      exact nomatch hfault.symm.trans hnone

/-! ### Fields -/

/-- A field is read from its entry, or has its usual value. -/
theorem fields_of_decoder {members : List (Document × Document)} {s : Settings}
    (h : decoder .toml (.table members true) = .ok s) :
    (Record.tableEntry members "per_trade_cost_rate").elim (.ok 0.0) (Decoder.float .toml) =
        .ok s.costRate ∧
    (Record.tableEntry members "parallel").elim (.ok true) (Decoder.bool .toml) = .ok s.parallel ∧
    (Record.tableEntry members "num_threads").elim (.ok none) (Decoder.optional .size .toml) =
        .ok s.threads := by
  unfold decoder at h
  have hbuild := Record.build_of_decoder h
  obtain ⟨f, hf, t, hthreads, rfl⟩ := Record.build_seq_eq_ok_iff.mp hbuild
  obtain ⟨g, hg, b, hparallel, rfl⟩ := Record.build_seq_eq_ok_iff.mp hf
  obtain ⟨x, hrate, rfl⟩ := Record.build_map_eq_ok_iff.mp hg
  rw [Record.build_defaultField] at hthreads hparallel hrate
  exact ⟨hrate, hparallel, hthreads⟩

/-- A number of workers that is read from a whole number that fits is one that fits. -/
theorem le_of_decode_size {doc : Document} (hdoc : doc.Fits) {n : ℕ}
    (h : Decoder.optional .size .toml doc = .ok (some n)) : n ≤ Int64.maxValue.toInt := by
  cases doc with
  | int i =>
    have hmax : i ≤ Int64.maxValue.toInt := hdoc.2
    have hsize : (if 0 ≤ i ∧ i < UInt64.size then Except.ok i.toNat
        else .error (Misfit.outOfRange i "usize")).map some = Except.ok (some n) := h
    split at hsize
    · next hbounds =>
      obtain rfl := Option.some.inj (Except.ok.inj hsize)
      rw [Int.toNat_of_nonneg hbounds.1]
      exact hmax
    · exact nomatch hsize
  | _ => exact nomatch h

/-- A whole number of a settings file that is not negative is read as a number of workers. -/
theorem decode_size {n : ℕ} (h : n ≤ Int64.maxValue.toInt) :
    Decoder.optional .size .toml (.int n) = .ok (some n) := by
  have hmax : Int64.maxValue.toInt < UInt64.size := by decide
  have hbounds : 0 ≤ (n : ℤ) ∧ (n : ℤ) < UInt64.size := ⟨Int.natCast_nonneg n, h.trans_lt hmax⟩
  show (if 0 ≤ (n : ℤ) ∧ (n : ℤ) < UInt64.size then Except.ok (n : ℤ).toNat
    else .error (Misfit.outOfRange n "usize")).map some = _
  rw [if_pos hbounds, Int.toNat_natCast]
  rfl

/-- A number of workers that is read is one that a settings file can say. -/
theorem threads_le_of_decode {text : String} {s : Settings} (h : Toml.decode decoder text = .ok s) :
    ∀ n, s.threads = some n → n ≤ Int64.maxValue.toInt := by
  intro n hn
  unfold Toml.decode at h
  split at h
  · next doc hread =>
    obtain ⟨members, rfl, hfits⟩ := read?_fits hread
    obtain ⟨-, -, hthreads⟩ := fields_of_decoder h
    rw [hn] at hthreads
    cases hentry : Record.tableEntry members "num_threads" with
    | none =>
      rw [hentry] at hthreads
      exact nomatch hthreads
    | some doc =>
      obtain ⟨m, hm, rfl⟩ := Record.exists_mem_of_tableEntry hentry
      rw [hentry] at hthreads
      exact le_of_decode_size (hfits m hm) hthreads
  · exact nomatch h

/-! ### Lines -/

/-- The line of a finite rate. -/
def rateLine {x : Float} (h : x.isFinite) : Line where
  key := "per_trade_cost_rate"
  word := pointed.render x
  value := .float x
  key_ne_nil := by decide
  isBareChar_of_mem := List.all_eq_true.mp (by decide)
  isWordChar_of_mem := isWordChar_of_mem_render h
  word?_eq := word?_render h

/-- The line of a truth value. -/
def parallelLine (b : Bool) : Line where
  key := "parallel"
  word := Json.boolText b
  value := .bool b
  key_ne_nil := by decide
  isBareChar_of_mem := List.all_eq_true.mp (by decide)
  isWordChar_of_mem := isWordChar_of_mem_boolText b
  word?_eq := word?_boolText b

/-- The line of a number of workers. -/
def threadsLine {n : ℕ} (h : n ≤ Int64.maxValue.toInt) : Line where
  key := "num_threads"
  word := Text.natText n
  value := .int n
  key_ne_nil := by decide
  isBareChar_of_mem := List.all_eq_true.mp (by decide)
  isWordChar_of_mem := isWordChar_of_mem_natText n
  word?_eq := word?_natText h

/-- The table of settings with a number of workers. -/
theorem decoder_table {x : Float} {b : Bool} {doc : Document} {threads : Option ℕ}
    (h : Decoder.optional .size .toml doc = .ok threads) :
    decoder .toml (.table [(.text "per_trade_cost_rate", .float x), (.text "parallel", .bool b),
      (.text "num_threads", doc)] true) = .ok ⟨x, b, threads⟩ := by
  show (((Decoder.optional .size .toml doc).map (fun _ => ()) >>= fun _ => Except.ok ()) >>=
    fun _ => Decoder.optional .size .toml doc >>= fun t => Except.ok (⟨x, b, t⟩ : Settings)) = _
  rw [h]
  rfl

/-- **Sound settings are loaded from the text that is written for them.** -/
theorem ofText_lines {s : Settings} (h : s.IsSound) : ofText (String.ofList s.lines) = .ok s := by
  obtain ⟨hfault, hthreads⟩ := isSound_iff.mp h
  refine ofText_eq_ok_iff.mpr ⟨?_, hfault⟩
  have hfinite : s.costRate.isFinite := h.isFinite
  obtain ⟨x, b, threads⟩ := s
  cases threads with
  | none =>
    have hkeys : ([rateLine hfinite, parallelLine b].map Line.key).Nodup := by
      show ["per_trade_cost_rate", "parallel"].Nodup
      decide
    have hlines : lines ⟨x, b, none⟩ = [rateLine hfinite, parallelLine b].flatMap Line.text := by
      show (rateLine hfinite).text ++ (parallelLine b).text ++ [] = _
      rw [List.flatMap_cons, List.flatMap_cons, List.flatMap_nil, List.append_assoc]
    rw [hlines, Toml.decode, String.toList_ofList, read?_lines hkeys]
    rfl
  | some n =>
    have hn := hthreads n rfl
    have hkeys : ([rateLine hfinite, parallelLine b, threadsLine hn].map Line.key).Nodup := by
      show ["per_trade_cost_rate", "parallel", "num_threads"].Nodup
      decide
    have hlines : lines ⟨x, b, some n⟩ =
        [rateLine hfinite, parallelLine b, threadsLine hn].flatMap Line.text := by
      show (rateLine hfinite).text ++ (parallelLine b).text ++ (threadsLine hn).text = _
      rw [List.flatMap_cons, List.flatMap_cons, List.flatMap_cons, List.flatMap_nil,
        List.append_nil, List.append_assoc]
    rw [hlines, Toml.decode, String.toList_ofList, read?_lines hkeys]
    exact decoder_table (decode_size hn)

/-- **Loading normalises.**  The settings that some text gives are the sound ones, whatever the
text leaves out, writes in another way or holds besides: the rate is finite and in `[0, 1)`, and
there are no zero workers.  Just these are loaded from the text that is written for them, and
loaded as they are: the rate is the same float, so the sign of a zero and the last bit of the
smallest number are kept. -/
theorem ofText_normalises (s : Settings) :
    ((∃ text, ofText text = .ok s) ↔ s.IsSound) ∧
    (s.IsSound ↔ ofText (String.ofList s.lines) = .ok s) := by
  have hsound : ∀ text, ofText text = .ok s → s.IsSound := by
    intro text h
    obtain ⟨hread, hfault⟩ := ofText_eq_ok_iff.mp h
    exact isSound_iff.mpr ⟨hfault, threads_le_of_decode hread⟩
  refine ⟨⟨?_, fun h => ⟨_, ofText_lines h⟩⟩, ofText_lines, hsound _⟩
  rintro ⟨text, h⟩
  exact hsound text h

/-- A file written by hand: it has a comment and keys that nothing is known of, its rate is the
smallest number above zero, and its number of workers is written in base 16. -/
def sparseText : String :=
  "# by hand\nper_trade_cost_rate = 5e-324\nnum_threads = 0x10\n[more]\nnote = \"none\"\n"

theorem ofText_normalises_of_sparse : ofText sparseText = .ok ⟨5e-324, true, some 16⟩ ∧
    IsSound ⟨5e-324, true, some 16⟩ ∧
    ofText (String.ofList (lines ⟨5e-324, true, some 16⟩)) = .ok ⟨5e-324, true, some 16⟩ := by
  have hloaded : (ofText sparseText).toOption = some ⟨5e-324, true, some 16⟩ := by
    decide +kernel
  have h : ofText sparseText = .ok ⟨5e-324, true, some 16⟩ := by
    cases htext : ofText sparseText with
    | error e =>
      rw [htext] at hloaded
      exact nomatch hloaded
    | ok s =>
      rw [htext] at hloaded
      exact congrArg Except.ok (Option.some.inj hloaded)
  obtain ⟨hsound, hagain⟩ := ofText_normalises ⟨5e-324, true, some 16⟩
  exact ⟨h, hsound.mp ⟨sparseText, h⟩, hagain.mp (hsound.mp ⟨sparseText, h⟩)⟩

/-- A rate may be written as a whole number, and zero keeps its sign. -/
example : (ofText "per_trade_cost_rate = 0").toOption = some {} ∧
    (ofText "per_trade_cost_rate = -0.0").toOption = some { costRate := -0.0 } := by
  decide +kernel

end Settings
end TripleBarrier
