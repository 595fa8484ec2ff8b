import Mathlib
import TripleBarrier.Toml.Reader

/-!
# Whole numbers of settings files

A whole number of a settings file is held in 64 bits with a sign, and a text with a larger one is
not read at all.  Words are where numbers come from, so what is assigned to a key fits, whatever the
key.  The tables of a file are put together from assignments without a change to any value, and what
stands right under a key of the whole file was assigned to it in the section at the top.

## Main definitions

* `Document.Fits` — a document is no whole number beyond 64 bits.
* `Toml.Members.Fit` — so is every value that stands right under a key.

## Main results

* `Toml.value?_fits` — a value that is read fits.
* `Toml.sections?_fit` — so does every value that is assigned.
* `Toml.Section.fit_add` — adding a section keeps what fits.
* `Toml.read?_fits` — **the values under the keys of a file fit.**
-/

namespace TripleBarrier

/-- A document is no whole number beyond 64 bits. -/
def Document.Fits : Document → Prop
  | .int i => Int64.minValue.toInt ≤ i ∧ i ≤ Int64.maxValue.toInt
  | _ => True

namespace Toml

/-! ### What is read -/

theorem integer?_bounds {word : List Char} {i : ℤ} (h : integer? word = some i) :
    Int64.minValue.toInt ≤ i ∧ i ≤ Int64.maxValue.toInt := by
  have hfits : ∀ j : ℤ, (if Int64.minValue.toInt ≤ j ∧ j ≤ Int64.maxValue.toInt then some j
      else none) = some i → Int64.minValue.toInt ≤ i ∧ i ≤ Int64.maxValue.toInt := by
    intro j hj
    split at hj
    · next hbounds => exact Option.some.inj hj ▸ hbounds
    · exact nomatch hj
  unfold integer? at h
  split at h
  all_goals
    obtain ⟨ds, -, hds⟩ := Option.bind_eq_some_iff.mp h
    exact hfits _ hds

theorem word?_fits {word : List Char} {doc : Document} (h : word? word = some doc) : doc.Fits := by
  unfold word? at h
  split_ifs at h
  · exact Option.some.inj h ▸ trivial
  · exact Option.some.inj h ▸ trivial
  · exact Option.some.inj h ▸ trivial
  · split at h
    · next hinteger => exact Option.some.inj h ▸ integer?_bounds hinteger
    · obtain ⟨x, -, rfl⟩ := Option.map_eq_some_iff.mp h
      trivial

theorem scalar?_fits {cs rest : List Char} {doc : Document} (h : scalar? cs = some (doc, rest)) :
    doc.Fits := by
  have hword : ∀ word tail, (word? word).map (·, tail) = some (doc, rest) → doc.Fits := by
    intro word tail hmap
    obtain ⟨doc', hdoc, heq⟩ := Option.map_eq_some_iff.mp hmap
    exact (Prod.mk.inj heq).1 ▸ word?_fits hdoc
  unfold scalar? at h
  dsimp only at h
  split at h
  · split at h
    · exact hword _ _ h
    · exact hword _ _ h
  · exact hword _ _ h

/-- **A value that is read fits**: lists, tables and texts are no numbers. -/
theorem value?_fits {depth : ℕ} {cs rest : List Char} {doc : Document}
    (h : value? depth cs = some (doc, rest)) : doc.Fits := by
  unfold value? at h
  split at h
  · obtain ⟨⟨docs, tail⟩, -, heq⟩ := Option.bind_eq_some_iff.mp h
    obtain ⟨rfl, -⟩ := Prod.mk.inj (Option.some.inj heq)
    trivial
  · split at h
    · obtain ⟨rfl, -⟩ := Prod.mk.inj (Option.some.inj h)
      trivial
    · obtain ⟨⟨as, tail⟩, -, hmembers⟩ := Option.bind_eq_some_iff.mp h
      obtain ⟨ms, -, heq⟩ := Option.bind_eq_some_iff.mp hmembers
      obtain ⟨rfl, -⟩ := Prod.mk.inj (Option.some.inj heq)
      trivial
  · obtain ⟨r, -, heq⟩ := Option.map_eq_some_iff.mp h
    obtain ⟨rfl, -⟩ := Prod.mk.inj heq
    trivial
  · obtain ⟨r, -, heq⟩ := Option.map_eq_some_iff.mp h
    obtain ⟨rfl, -⟩ := Prod.mk.inj heq
    trivial
  · exact scalar?_fits h

theorem assignment?_fits {depth : ℕ} {cs rest : List Char} {a : Members.Assignment}
    (h : assignment? (value? depth) cs = some (a, rest)) : a.2.2.Fits := by
  unfold assignment? at h
  obtain ⟨⟨⟨path, key⟩, tail⟩, -, hvalue⟩ := Option.bind_eq_some_iff.mp h
  dsimp only at hvalue
  split at hvalue
  · obtain ⟨⟨doc, tail'⟩, hdoc, heq⟩ := Option.bind_eq_some_iff.mp hvalue
    obtain ⟨rfl, -⟩ := Prod.mk.inj (Option.some.inj heq)
    exact value?_fits hdoc
  · exact nomatch hvalue

/-- Every value that a section assigns fits. -/
def Section.Fit (s : Section) : Prop :=
  ∀ a ∈ s.assignments, a.2.2.Fits

/-- **Every value that is assigned fits**, in every section. -/
theorem sections?_fit {fuel : ℕ} {header : Header} {as : List Members.Assignment} {cs : List Char}
    {sections : List Section} (h : sections? fuel header as cs = some sections)
    (has : ∀ a ∈ as, a.2.2.Fits) : ∀ s ∈ sections, s.Fit := by
  have hsection : (Section.mk header as.reverse).Fit :=
    fun a ha => has a (List.mem_reverse.mp ha)
  induction fuel generalizing header as cs sections with
  | zero => exact nomatch h
  | succ fuel ih =>
    rw [sections?] at h
    split at h
    · cases Option.some.inj h
      exact List.forall_mem_singleton.mpr hsection
    · obtain ⟨⟨next, rest⟩, -, hrest⟩ := Option.bind_eq_some_iff.mp h
      obtain ⟨later, hlater, heq⟩ := Option.bind_eq_some_iff.mp hrest
      cases Option.some.inj heq
      exact List.forall_mem_cons.mpr ⟨hsection, ih hlater nofun nofun⟩
    · split at h
      · exact ih h has hsection
      · obtain ⟨⟨a, rest⟩, ha, hrest⟩ := Option.bind_eq_some_iff.mp h
        obtain ⟨rest', -, hlater⟩ := Option.bind_eq_some_iff.mp hrest
        have has' : ∀ a' ∈ a :: as, a'.2.2.Fits :=
          List.forall_mem_cons.mpr ⟨assignment?_fits ha, has⟩
        exact ih hlater has' fun a' ha' => has' a' (List.mem_reverse.mp ha')

/-! ### What is put together -/

/-- An entry is no value that does not fit. -/
def Entry.Fits : Entry → Prop
  | .value doc => doc.Fits
  | _ => True

namespace Members

/-- Every value that stands right under a key fits. -/
def Fit (ms : Members) : Prop :=
  ∀ m ∈ ms, m.2.Fits

theorem fit_nil : Fit [] :=
  fun _ hm => nomatch hm

section
variable {ms : Members} (h : ms.Fit)
include h

theorem Fit.append {e : Entry} (he : e.Fits) (key : String) : Fit (ms ++ [(key, e)]) := by
  intro m hm
  rcases List.mem_append.mp hm with hm | hm
  · exact h m hm
  · rw [List.mem_singleton.mp hm]
    exact he

theorem Fit.replace {e : Entry} (he : e.Fits) (key : String) : Fit (ms.replace key e) := by
  intro m hm
  obtain ⟨m', hm', rfl⟩ := List.mem_map.mp hm
  split
  · exact he
  · exact h m' hm'

theorem Fit.remove (key : String) : Fit (ms.remove key) :=
  fun m hm => h m (List.mem_of_mem_filter hm)

/-- An assignment keeps what fits, if its value fits: behind a path it only changes a table. -/
theorem Fit.assign {origin : Option Origin} {path : List String} {key : String} {doc : Document}
    (hdoc : doc.Fits) {ms' : Members} (h' : ms.assign origin path key doc = some ms') :
    ms'.Fit := by
  cases path with
  | nil =>
    rw [Members.assign, put] at h'
    split_ifs at h'
    cases Option.some.inj h'
    apply h.append
    exact hdoc
  | cons step path =>
    rw [Members.assign.eq_def] at h'
    dsimp only at h'
    split at h'
    · obtain ⟨inner, -, heq⟩ := Option.bind_eq_some_iff.mp h'
      cases Option.some.inj heq
      apply h.append
      exact trivial
    · exact nomatch h'
    · exact nomatch h'
    · obtain ⟨inner, -, heq⟩ := Option.bind_eq_some_iff.mp h'
      cases Option.some.inj heq
      apply h.replace
      exact trivial
    · split at h'
      · exact nomatch h'
      · obtain ⟨last, -, heq⟩ := Option.bind_eq_some_iff.mp h'
        cases Option.some.inj heq
        apply h.replace
        exact trivial

/-- So do assignments one after the other. -/
theorem Fit.assignAll {as : List Assignment} (has : ∀ a ∈ as, a.2.2.Fits) {ms' : Members}
    (h' : ms.assignAll as = some ms') : ms'.Fit := by
  induction as generalizing ms with
  | nil =>
    cases Option.some.inj h'
    exact h
  | cons a as ih =>
    obtain ⟨ha, hrest⟩ := List.forall_mem_cons.mp has
    rw [Members.assignAll, List.foldlM_cons] at h'
    obtain ⟨next, hnext, hlater⟩ := Option.bind_eq_some_iff.mp h'
    exact ih (h.assign ha hnext) hrest hlater

/-- A header's path leads to a table, and that table is all that changes. -/
theorem Fit.within {f : Members → Option Members} (hf : ∀ ms', f ms = some ms' → ms'.Fit)
    {path : List String} {ms' : Members} (h' : ms.within f path = some ms') : ms'.Fit := by
  cases path with
  | nil => exact hf ms' h'
  | cons step path =>
    rw [Members.within.eq_def] at h'
    dsimp only at h'
    split at h'
    · obtain ⟨inner, -, heq⟩ := Option.bind_eq_some_iff.mp h'
      cases Option.some.inj heq
      apply h.append
      exact trivial
    · exact nomatch h'
    · obtain ⟨inner, -, heq⟩ := Option.bind_eq_some_iff.mp h'
      cases Option.some.inj heq
      apply h.replace
      exact trivial
    · split at h'
      · exact nomatch h'
      · obtain ⟨last, -, heq⟩ := Option.bind_eq_some_iff.mp h'
        cases Option.some.inj heq
        apply h.replace
        exact trivial

theorem Fit.addTable {key : String} {as : List Assignment} {ms' : Members}
    (h' : ms.addTable key as = some ms') : ms'.Fit := by
  have hcompleted : ∀ start, (Members.assignAll start as >>= fun body =>
      some (ms.remove key ++ [(key, Entry.table .header body)])) = some ms' → ms'.Fit := by
    intro start hbody
    obtain ⟨body, -, heq⟩ := Option.bind_eq_some_iff.mp hbody
    cases Option.some.inj heq
    apply (h.remove key).append
    exact trivial
  unfold Members.addTable at h'
  dsimp only at h'
  split at h'
  · exact hcompleted [] h'
  · exact hcompleted _ h'
  · exact nomatch h'

theorem Fit.addItem {key : String} {as : List Assignment} {ms' : Members}
    (h' : ms.addItem key as = some ms') : ms'.Fit := by
  unfold Members.addItem at h'
  obtain ⟨body, -, hitem⟩ := Option.bind_eq_some_iff.mp h'
  split at hitem
  · cases Option.some.inj hitem
    apply h.append
    exact trivial
  · cases Option.some.inj hitem
    apply h.replace
    exact trivial
  · exact nomatch hitem

end

end Members

/-- **Adding a section keeps what fits.** -/
theorem Section.fit_add {ms ms' : Members} (h : ms.Fit) {s : Section} (hs : s.Fit)
    (h' : s.add ms = some ms') : ms'.Fit := by
  unfold Section.add at h'
  split at h'
  · exact h.assignAll hs h'
  · exact h.within (fun _ => h.addTable) h'
  · exact h.within (fun _ => h.addItem) h'

theorem fit_of_sections {ms ms' : Members} (h : ms.Fit) {sections : List Section}
    (hsections : ∀ s ∈ sections, s.Fit) (h' : sections.foldlM Section.add ms = some ms') :
    ms'.Fit := by
  induction sections generalizing ms with
  | nil =>
    cases Option.some.inj h'
    exact h
  | cons s sections ih =>
    obtain ⟨hs, hrest⟩ := List.forall_mem_cons.mp hsections
    rw [List.foldlM_cons] at h'
    obtain ⟨next, hnext, hlater⟩ := Option.bind_eq_some_iff.mp h'
    exact ih (Section.fit_add h hs hnext) hrest hlater

/-- An entry that fits makes a document that fits. -/
theorem Entry.fits_toDocument {e : Entry} (h : e.Fits) : e.toDocument.Fits := by
  cases e with
  | value doc =>
    rw [Entry.toDocument]
    exact h
  | table origin members =>
    rw [Entry.toDocument]
    trivial
  | tables items =>
    rw [Entry.toDocument]
    trivial

theorem fits_of_mem_membersToDocuments {ms : Members} (h : ms.Fit) {key value : Document}
    (hmem : (key, value) ∈ membersToDocuments ms) : value.Fits := by
  induction ms with
  | nil =>
    rw [membersToDocuments] at hmem
    exact nomatch hmem
  | cons m ms ih =>
    obtain ⟨hm, hrest⟩ := List.forall_mem_cons.mp h
    rw [membersToDocuments] at hmem
    rcases List.mem_cons.mp hmem with heq | hmem
    · obtain ⟨-, rfl⟩ := Prod.mk.inj heq
      exact Entry.fits_toDocument hm
    · exact ih hrest hmem

/-- **What is read from a file is a table, and the values under its keys fit.** -/
theorem read?_fits {text : List Char} {doc : Document} (h : read? text = some doc) :
    ∃ members, doc = .table members true ∧ ∀ m ∈ members, m.2.Fits := by
  unfold read? at h
  obtain ⟨sections, hsections, hmembers⟩ := Option.bind_eq_some_iff.mp h
  obtain ⟨ms, hms, heq⟩ := Option.bind_eq_some_iff.mp hmembers
  have hfit := fit_of_sections Members.fit_nil (sections?_fit hsections nofun) hms
  refine ⟨membersToDocuments ms, (Option.some.inj heq).symm, ?_⟩
  rintro ⟨key, value⟩ hmem
  exact fits_of_mem_membersToDocuments hfit hmem

end Toml
end TripleBarrier
