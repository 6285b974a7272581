/-
The chunks of a closed page.

The chunks come in parts, one for each section: the section itself, what the page documents there, and
its backmatter.  What the page has collected of a kind stands in one part and nowhere else, for the
parts follow the kinds: a section has the listings of those kinds whose section it is.

A page that is closed has a section for every kind of which it has collected something.  Where no links
go in a circle, the outline keeps all sections, and so the chunks have everything once.  The members
of dictionaries are the exception.  They are listed with each dictionary of their name, so that one
without a dictionary is listed nowhere, and one with two of them is listed twice.
-/
import PluginHelp.Page.Chunks
import PluginHelp.Proofs.Page.Holding

namespace PluginHelp

/-! ### Streams without faults -/

namespace Stream

variable {α β : Type}

theorem append_nothing (s : Stream α) : s ++ ⟨[], none⟩ = s := by
  obtain ⟨items, fault⟩ := s
  cases fault with
  | none =>
      show (⟨items ++ [], none⟩ : Stream α) = ⟨items, none⟩
      rw [List.append_nil]
  | some fault => rfl

theorem concat_of_ok {stream : β → Stream α} {items : β → List α} {list : List β}
    (h : ∀ b ∈ list, stream b = ⟨items b, none⟩) :
    concat stream list = ⟨list.flatMap items, none⟩ := by
  induction list with
  | nil => rfl
  | cons b rest ih =>
      obtain ⟨hb, hrest⟩ := List.forall_mem_cons.mp h
      rw [concat, hb, ih hrest, List.flatMap_cons]
      rfl

end Stream

/-! ### Entries of a kind -/

namespace Entry

variable {e : Entry}

/-- What is asked of an entry so that its page can be brought into chunks: levels are left to the
page, and a dictionary has a name. -/
structure Arrangeable (e : Entry) : Prop where
  unlevelled : e.hasOwn "level" = false
  named : e.isOf .dictionary = true → ∃ name, e.own? "dict" = some (.text name)

theorem WellFormed.arrangeable (h : e.WellFormed) : e.Arrangeable where
  unlevelled := h.unlevelled
  named hkind := by
    obtain ⟨held, hheld⟩ := Option.isSome_iff_exists.mp (h.named hkind)
    obtain ⟨name, rfl⟩ := h.dictionary held hheld
    exact ⟨name, hheld⟩

/-- The kind that an entry is documented as.  A function may be there for an exception. -/
def documentedAs (e : Entry) : Value :=
  if e.isOf .function && e.hasOwn "exception" then Kind.exception.toValue else e.kindValue

/-- Whether an entry is listed with those of a kind.  The members of a dictionary are listed with it,
and not as functions. -/
def isListed (kind : Kind) (e : Entry) : Bool :=
  e.documentedAs == kind.toValue && !(kind == .function && e.hasOwn "dict")

theorem documentedAs_of_shelf {library : Bool} {kind : Kind}
    (h : Plugin.shelf library e = kind.toValue) : e.documentedAs = kind.toValue := by
  unfold documentedAs
  cases hfunction : e.isOf .function with
  | false =>
      rw [Plugin.shelf_of_not_function hfunction] at h
      exact h
  | true =>
      rw [Plugin.shelf, Plugin.collectionKind, hfunction, if_pos rfl] at h
      rw [Bool.true_and]
      split at h
      · cases h
      · split at h
        · cases h
        · split at h
          · cases h
          · exact h

end Entry

namespace Page

open Entry

variable {P : Entry → Prop} {e : Entry} {entries : List Entry}

/-! ### Entries of a kind -/

/-- The kinds that have a section of their own. -/
def shownKinds : List Kind :=
  kindSections.map (·.1)

theorem shownKinds_collected : ∀ kind ∈ shownKinds, kind.IsCollected := by decide

theorem shownKinds_eq_of_label :
    ∀ kind ∈ shownKinds, ∀ other ∈ shownKinds, kind.label = other.label → kind = other := by
  decide

/-- What was collected under a kind. -/
def Shelved (kind : Kind) (entries : List Entry) : Prop :=
  ∀ e ∈ entries, ∃ library, Plugin.shelf library e = kind.toValue

/-- What was collected under a kind is no section and no backmatter. -/
theorem Shelved.apart {kind : Kind} (h : Shelved kind entries) (hkind : kind.IsCollected)
    (he : e ∈ entries) : e.isOf .sect = false ∧ e.isOf .backmatter = false := by
  obtain ⟨library, hshelf⟩ := h e he
  cases hspeaks : e.speaks with
  | false => exact Bool.or_eq_false_iff.mp hspeaks
  | true =>
      have hunlike := Plugin.shelf_of_speaks hspeaks library hkind
      rw [hshelf, BEq.rfl] at hunlike
      cases hunlike

/-- What was collected under a kind is listed under that kind, the members of dictionaries apart, and
under no other one. -/
theorem Shelved.filter_isListed {kind other : Kind} (h : Shelved kind entries)
    (hkind : kind ∈ shownKinds) (hother : other ∈ shownKinds) :
    entries.filter (isListed other)
      = if other = kind then entries.filter (fun e => !(kind == .function && e.hasOwn "dict"))
        else [] := by
  have hdocumented (e : Entry) (he : e ∈ entries) : e.documentedAs = kind.toValue := by
    obtain ⟨library, hshelf⟩ := h e he
    exact documentedAs_of_shelf hshelf
  by_cases hsame : other = kind
  · rw [if_pos hsame, hsame]
    refine List.filter_congr fun e he => ?_
    rw [isListed, hdocumented e he, BEq.rfl, Bool.true_and]
  · rw [if_neg hsame, List.filter_eq_nil_iff]
    intro e he hlisted
    rw [isListed, hdocumented e he, Bool.and_eq_true, Kind.toValue, Kind.toValue,
      Value.beq_text_iff] at hlisted
    exact hsame (shownKinds_eq_of_label kind hkind other hother (Value.text.inj hlisted.1)).symm

/-! ### Listings -/

/-- What is listed in the section of a kind. -/
def listing (p : Page) : Kind → Stream Entry
  | .function => p.plainFunctions
  | .dictionary => p.dictionaries
  | kind => p.collected kind

/-- A section has the listings of those kinds whose section it is. -/
theorem sectionEntries_eq (p : Page) (id : Value) :
    p.sectionEntries id
      = .concat (fun row => if id == .text row.2.1 then p.listing row.1 else ⟨[], none⟩)
          kindSections := by
  unfold sectionEntries
  split
  · exact (Stream.append_nothing p.plainFunctions).symm
  · exact (Stream.append_nothing (p.collected .command)).symm
  · exact (Stream.append_nothing p.dictionaries).symm
  · exact (Stream.append_nothing (p.collected .exception)).symm
  · show _ = p.collected .flag ++ (p.collected .setting ++ ⟨[], none⟩)
    rw [Stream.append_nothing]
  · rename_i hfunctions hcommands hdicts hexceptions hconfig
    have hunlike {text : String} (h : id = .text text → False) : (id == .text text) = false := by
      rw [← Bool.not_eq_true, Value.beq_text_iff]
      exact h
    simp only [kindSections, Stream.concat, hunlike hfunctions, hunlike hcommands, hunlike hdicts,
      hunlike hexceptions, hunlike hconfig]
    rfl

/-- What a page has collected of a kind, or nothing if it cannot be arranged. -/
def shown (p : Page) (kind : Kind) : List Entry :=
  (p.collection kind.toValue).toOption.getD []

theorem shown_eq {p : Page} {kind : Kind} (h : p.collection kind.toValue = .ok entries) :
    p.shown kind = entries := by
  rw [shown, h]
  rfl

/-- The functions that are members of a dictionary. -/
def membersOf (p : Page) (dictionary : Entry) : List Entry :=
  (p.shown .function).filter fun e => e.ownD "dict" == dictionary.ownD "dict"

/-- The entries of a listing. -/
def listed (p : Page) : Kind → List Entry
  | .function => (p.shown .function).filter (!·.hasOwn "dict")
  | .dictionary => (p.shown .dictionary).flatMap fun d => d :: p.membersOf d
  | kind => p.shown kind

variable {p q : Page}

theorem mem_listed {kind : Kind} (he : e ∈ p.listed kind) :
    e ∈ p.shown kind ∨ e ∈ p.shown .function := by
  cases kind with
  | function => exact Or.inl (List.mem_of_mem_filter he)
  | dictionary =>
      obtain ⟨d, hd, he⟩ := List.mem_flatMap.mp he
      rcases List.mem_cons.mp he with rfl | he
      · exact Or.inl hd
      · exact Or.inr (List.mem_of_mem_filter he)
  | _ => exact Or.inl he

theorem arrangeable_placeable : Placeable Arrangeable where
  placed {e} space he := by
    refine ⟨?_, fun hkind => ?_⟩
    · rw [hasOwn_placed_of_ne space e (by decide) (by decide)]
      exact he.unlevelled
    · rw [own?_placed space e (by decide) (by decide)]
      exact he.named (by rwa [isOf_placed space e (by decide)] at hkind)
  newSection hown := (wellFormed_placeable.newSection hown).arrangeable

namespace ClosedFrom

theorem collection_eq (h : ClosedFrom P p q) {kind : Kind} (hkind : kind ∈ shownKinds) :
    q.collection kind.toValue = .ok (q.shown kind) := by
  obtain ⟨row, hrow, rfl⟩ := List.mem_map.mp hkind
  obtain ⟨entries, hentries, -⟩ := h.found row hrow
  rw [hentries, shown_eq hentries]

theorem shown_shelved (h : ClosedFrom P p q) {kind : Kind} (hkind : kind ∈ shownKinds) :
    Shelved kind (q.shown kind) :=
  fun e he => (h.collected (h.collection_eq hkind) e he).2

theorem dictionary_named (h : ClosedFrom Arrangeable p q) {d : Entry}
    (hd : d ∈ q.shown .dictionary) : ∃ name, d.own? "dict" = some (.text name) := by
  have hkind : Kind.dictionary ∈ shownKinds := by decide
  obtain ⟨library, hshelf⟩ := h.shown_shelved hkind d hd
  have hof : d.isOf .dictionary = true :=
    isOf_iff.mpr (Plugin.kindValue_of_shelf hshelf (by decide)).1
  exact (h.collected (h.collection_eq hkind) d hd).1.fits.named hof

theorem plainFunctions_eq (h : ClosedFrom Arrangeable p q) :
    q.plainFunctions = ⟨q.listed .function, none⟩ := by
  have hplain : (q.shown .function).filter (fun e => !e.hasOwn "dict" && !e.hasOwn "exception")
      = q.listed .function := by
    refine List.filter_congr fun e he => ?_
    obtain ⟨library, hshelf⟩ := h.shown_shelved (by decide) e he
    obtain ⟨hkind, hexception⟩ := Plugin.kindValue_of_shelf hshelf (by decide)
    rw [hexception (isOf_iff.mpr hkind), Bool.not_false, Bool.and_true]
  rw [plainFunctions, h.collection_eq (by decide), ← hplain]
  rfl

theorem dictionaries_eq (h : ClosedFrom Arrangeable p q) :
    q.dictionaries = ⟨q.listed .dictionary, none⟩ := by
  rw [dictionaries, h.collection_eq (by decide)]
  refine Stream.concat_of_ok fun d hd => ?_
  obtain ⟨name, hname⟩ := h.dictionary_named hd
  have hmembers : q.members d = .ok (q.membersOf d) := by
    rw [members, h.collection_eq (by decide), membersOf, needOwn, ownD, hname]
    cases q.shown .function with
    | nil => rfl
    | cons e rest => rfl
  rw [hmembers]
  rfl

/-- Nothing goes wrong in a listing. -/
theorem listing_eq (h : ClosedFrom Arrangeable p q) {kind : Kind} (hkind : kind ∈ shownKinds) :
    q.listing kind = ⟨q.listed kind, none⟩ := by
  have hcollected : q.collected kind = ⟨q.shown kind, none⟩ := by
    rw [Page.collected, h.collection_eq hkind]
    rfl
  cases kind with
  | function => exact h.plainFunctions_eq
  | dictionary => exact h.dictionaries_eq
  | _ => exact hcollected

theorem sectionEntries_eq (h : ClosedFrom Arrangeable p q) (id : Value) :
    q.sectionEntries id
      = ⟨kindSections.flatMap fun row => if id == .text row.2.1 then q.listed row.1 else [],
          none⟩ := by
  rw [Page.sectionEntries_eq]
  refine Stream.concat_of_ok fun row hrow => ?_
  split
  · exact h.listing_eq (List.mem_map_of_mem hrow)
  · rfl

/-- A member of a dictionary says so. -/
theorem hasOwn_of_member (h : ClosedFrom Arrangeable p q) {d : Entry}
    (hd : d ∈ q.shown .dictionary) (he : e ∈ q.membersOf d) : e.hasOwn "dict" = true := by
  obtain ⟨name, hname⟩ := h.dictionary_named hd
  have hlike := (List.mem_filter.mp he).2
  rw [ownD, ownD, hname, Option.getD_some, Value.beq_text_iff] at hlike
  cases hheld : e.own? "dict" with
  | none =>
      rw [hheld] at hlike
      cases hlike
  | some held =>
      rw [hasOwn_eq, hheld]
      rfl

/-- In the listing of a kind are the entries of that kind, and else only members of dictionaries. -/
theorem filter_listed (h : ClosedFrom Arrangeable p q) {kind other : Kind}
    (hkind : kind ∈ shownKinds) (hother : other ∈ shownKinds) :
    (q.listed kind).filter (isListed other)
      = if other = kind then
          (q.shown kind).filter (fun e => !(kind == .function && e.hasOwn "dict"))
        else [] := by
  have hshown := (h.shown_shelved hkind).filter_isListed hkind hother
  cases kind with
  | function =>
      have hplain : Shelved .function (q.listed .function) :=
        fun e he => h.shown_shelved hkind e (List.mem_of_mem_filter he)
      rw [hplain.filter_isListed hkind hother, listed, List.filter_filter]
      simp
  | dictionary =>
      have hmembers (d : Entry) (hd : d ∈ q.shown .dictionary) :
          (d :: q.membersOf d).filter (isListed other) = [d].filter (isListed other) := by
        have hnone : (q.membersOf d).filter (isListed other) = [] := by
          rw [List.filter_eq_nil_iff]
          intro e he hlisted
          have hmember : Shelved .function [e] := by
            intro x hx
            obtain rfl : x = e := by simpa using hx
            exact h.shown_shelved (by decide) x (List.mem_of_mem_filter he)
          have hfunction := hmember.filter_isListed (by decide) hother
          simp [hlisted, h.hasOwn_of_member hd he] at hfunction
        rw [List.filter_cons, List.filter_cons, hnone, List.filter_nil]
      calc (q.listed .dictionary).filter (isListed other)
          = (q.shown .dictionary).flatMap fun d => (d :: q.membersOf d).filter (isListed other) :=
            List.filter_flatMap
        _ = (q.shown .dictionary).flatMap fun d => [d].filter (isListed other) :=
            List.flatMap_congr hmembers
        _ = (q.shown .dictionary).filter (isListed other) := by
            rw [← List.filter_flatMap, List.flatMap_singleton']
        _ = _ := hshown
  | _ => exact hshown

/-- What is listed with a kind stands in the section of that kind and nowhere else. -/
theorem filter_sectionEntries (h : ClosedFrom Arrangeable p q) {row : Kind × String × String}
    (hrow : row ∈ kindSections) (id : Value) :
    (q.sectionEntries id).items.filter (isListed row.1)
      = if id == .text row.2.1 then
          (q.shown row.1).filter (fun e => !(row.1 == .function && e.hasOwn "dict"))
        else [] := by
  have hkind : row.1 ∈ shownKinds := List.mem_map_of_mem hrow
  have hlisted (other : Kind × String × String) (hother : other ∈ kindSections) :
      (if id == .text other.2.1 then q.listed other.1 else []).filter (isListed row.1)
        = if id == .text other.2.1 then
            if row.1 = other.1 then
              (q.shown row.1).filter (fun e => !(row.1 == .function && e.hasOwn "dict"))
            else []
          else [] := by
    split
    · rw [h.filter_listed (List.mem_map_of_mem hother) hkind]
      split
      · rename_i hsame
        rw [hsame]
      · rfl
    · rfl
  rw [h.sectionEntries_eq, List.filter_flatMap, List.flatMap_congr hlisted]
  generalize (q.shown row.1).filter (fun e => !(row.1 == .function && e.hasOwn "dict")) = found
  simp only [kindSections, List.mem_cons, List.not_mem_nil, or_false] at hrow
  rcases hrow with rfl | rfl | rfl | rfl | rfl | rfl <;> simp [kindSections]

/-- Whatever stands in a section was found under one of the kinds. -/
theorem mem_sectionEntries (h : ClosedFrom Arrangeable p q) {id : Value}
    (he : e ∈ (q.sectionEntries id).items) : ∃ kind ∈ shownKinds, e ∈ q.shown kind := by
  rw [h.sectionEntries_eq] at he
  obtain ⟨row, hrow, he⟩ := List.mem_flatMap.mp he
  split at he
  · rcases mem_listed he with he | he
    · exact ⟨row.1, List.mem_map_of_mem hrow, he⟩
    · exact ⟨.function, by decide, he⟩
  · cases he

end ClosedFrom

/-! ### Parts -/

/-- The chunks that belong to one section. -/
structure Part where
  id : Value
  sect : Entry
  entries : List Entry
  backmatter : Option Entry

/-- The chunks of a part in order. -/
def Part.chunks (part : Part) : List Entry :=
  part.sect :: part.entries ++ part.backmatter.toList

/-- The part of a section. -/
def partOf (q : Page) (row : Value × Section) : Part where
  id := row.1
  sect := row.2.entry
  entries := (q.sectionEntries row.1).items
  backmatter := q.backmatters.get? row.1

/-- Nothing goes wrong in the chunks of a closed page. -/
theorem ClosedFrom.chunks_eq (h : ClosedFrom Arrangeable p q) :
    q.chunks = ⟨(q.sections.map (partOf q)).flatMap Part.chunks, none⟩ := by
  rw [chunks, List.flatMap_map]
  refine Stream.concat_of_ok fun row _ => ?_
  have hfault : (q.sectionEntries row.1).fault = none := by rw [h.sectionEntries_eq]
  have hentries : q.sectionEntries row.1 = ⟨(q.sectionEntries row.1).items, none⟩ := by
    rw [← hfault]
  show ⟨[row.2.entry], none⟩ ++ q.sectionEntries row.1 ++ ⟨(q.backmatters.get? row.1).toList, none⟩
    = _
  rw [hentries]
  rfl

/-- A chunk is a section, or it was found under one of the kinds, or it is a backmatter. -/
theorem ClosedFrom.mem_chunks (h : ClosedFrom Arrangeable p q) (he : e ∈ q.chunks.items) :
    (∃ row ∈ q.sections, e = row.2.entry) ∨ (∃ kind ∈ shownKinds, e ∈ q.shown kind)
      ∨ ∃ id, q.backmatters.get? id = some e := by
  rw [h.chunks_eq] at he
  obtain ⟨part, hpart, he⟩ := List.mem_flatMap.mp he
  obtain ⟨row, hrow, rfl⟩ := List.mem_map.mp hpart
  rcases List.mem_append.mp he with he | he
  · rcases List.mem_cons.mp he with he | he
    · exact Or.inl ⟨row, hrow, he⟩
    · exact Or.inr (Or.inl (h.mem_sectionEntries he))
  · exact Or.inr (Or.inr ⟨row.1, Option.mem_toList.mp he⟩)

/-- Parts in which everything that a page holds stands once, and in its place.  There is one for each
section, which it begins with.  In the part of the section of a kind, and in no other, is what the
page has collected of that kind, the members of dictionaries apart.  The backmatter of the section
comes last. -/
structure InPlace (table : Table Value Section) (q : Page) (parts : List Part) : Prop where
  distinct : Distinct (parts.map Part.id)
  begins : ∀ part ∈ parts, part.sect.isOf .sect = true ∧ ∃ row ∈ table, ∃ level,
    (part.id == row.1) = true ∧ part.sect = (atLevel level row.2).entry
  sections : ∀ row ∈ table, ∃ part ∈ parts, ∃ level,
    (part.id == row.1) = true ∧ part.sect = (atLevel level row.2).entry
  apart : ∀ part ∈ parts, ∀ e ∈ part.entries, e.isOf .sect = false ∧ e.isOf .backmatter = false
  kinds : ∀ row ∈ kindSections, ∃ entries, q.collection row.1.toValue = .ok entries
    ∧ (∀ part ∈ parts, part.entries.filter (isListed row.1)
        = if part.id == .text row.2.1 then
            entries.filter (fun e => !(row.1 == .function && e.hasOwn "dict"))
          else [])
    ∧ (entries ≠ [] → ∃ part ∈ parts, part.id = .text row.2.1)
  ends : ∀ part ∈ parts, part.backmatter = q.backmatters.get? part.id
    ∧ ∀ e ∈ part.backmatter, e.isOf .backmatter = true
  backmatters : ∀ row ∈ q.backmatters, ∃ part ∈ parts,
    (part.id == row.1) = true ∧ part.backmatter = some row.2

/-- Where no links go in a circle, the parts of a closed page have everything in its place. -/
theorem ClosedFrom.inPlace (h : ClosedFrom Arrangeable p q)
    (hcircles : ∀ s, ¬Circular p.sections s) :
    InPlace p.sections q (q.sections.map (partOf q)) := by
  have hhas {key : Value} (hkey : p.sections.has key = true) :
      ∃ row ∈ q.sections, (row.1 == key) = true :=
    Table.has_iff.mp (h.has_section hcircles hkey)
  have hpart {row : Value × Section} (hrow : row ∈ q.sections) :
      partOf q row ∈ q.sections.map (partOf q) := List.mem_map_of_mem hrow
  constructor
  case distinct =>
    rw [List.map_map]
    exact h.outlined.distinct
  case begins =>
    intro part hmem
    obtain ⟨row, hrow, rfl⟩ := List.mem_map.mp hmem
    obtain ⟨s, hs, level, hkey, hheld⟩ := h.row hrow
    obtain ⟨before, hbefore, rfl⟩ := List.mem_map.mp hs
    have hown := h.filed.own before hbefore
    exact ⟨h.isOf_sect hrow, before, hbefore, level, BEq.trans hkey (BEq.symm hown),
      congrArg Section.entry hheld⟩
  case sections =>
    intro before hbefore
    obtain ⟨row, hrow, hlike⟩ := hhas (Table.has_iff.mpr ⟨before, hbefore, BEq.rfl⟩)
    obtain ⟨s, hs, level, hkey, hheld⟩ := h.row hrow
    have hown := h.filed.own before hbefore
    obtain rfl : s = before.2 := h.filed.eq_of_alike hs (List.mem_map_of_mem hbefore)
      (BEq.trans (BEq.symm hkey) (BEq.trans hlike hown))
    exact ⟨partOf q row, hpart hrow, level, hlike, congrArg Section.entry hheld⟩
  case apart =>
    intro part hmem e he
    obtain ⟨row, hrow, rfl⟩ := List.mem_map.mp hmem
    obtain ⟨kind, hkind, he⟩ := h.mem_sectionEntries he
    exact (h.shown_shelved hkind).apart (shownKinds_collected kind hkind) he
  case kinds =>
    intro row hrow
    have hshown := h.collection_eq (List.mem_map_of_mem hrow)
    refine ⟨q.shown row.1, hshown, ?_, fun hsome => ?_⟩
    · intro part hmem
      obtain ⟨held, hheld, rfl⟩ := List.mem_map.mp hmem
      exact h.filter_sectionEntries hrow held.1
    · obtain ⟨entries, hentries, hsection⟩ := h.found row hrow
      obtain rfl : entries = q.shown row.1 := Except.ok.inj (hentries.symm.trans hshown)
      obtain ⟨held, hheld, hlike⟩ := hhas (hsection hsome)
      exact ⟨partOf q held, hpart hheld, Value.beq_text_iff.mp hlike⟩
  case ends =>
    intro part hmem
    obtain ⟨row, hrow, rfl⟩ := List.mem_map.mp hmem
    exact ⟨rfl, fun e he => (h.backmatter he).2⟩
  case backmatters =>
    intro row hrow
    have hsame := h.outlined.backmatters
    rw [hsame] at hrow
    obtain ⟨held, hheld, hlike⟩ := hhas (h.outlined.backed row hrow)
    refine ⟨partOf q held, hpart hheld, hlike, ?_⟩
    show q.backmatters.get? held.1 = some row.2
    rw [hsame]
    exact Table.get?_of_mem h.holds.distinct hrow (BEq.symm hlike)

/--
**The chunks of a closed page have everything once, in its place.**

This holds of every page of which no section lies below itself, whatever was merged into it.
-/
theorem chunks_in_place {c : Context} (h : BuiltFrom Arrangeable c)
    (hclose : (close c).result = .ok ())
    (hcircles : ∀ s, ¬Circular (beforeOutline c).sections s) :
    ∃ parts, (close c).state.page.chunks = ⟨parts.flatMap Part.chunks, none⟩
      ∧ InPlace (beforeOutline c).sections (close c).state.page parts := by
  have hclosed := h.closed arrangeable_placeable (fun _ he => he.unlevelled) hclose
  exact ⟨_, hclosed.chunks_eq, hclosed.inPlace hcircles⟩

/-- On a page with a nested section, a backmatter and entries of several kinds, each of them has its
place. -/
theorem chunks_in_place_kinds :
    let c := ofFileIn (.text "demo#") "demo" ["\"\" @section Introduction, intro\n", "\n",
      "\"\" @section Usage\n", "\" @parentsection intro\n", "\n",
      "\"\" @backmatter intro\n", "\" See the manual.\n", "\n",
      "\"\" @dict Timer\n", "\" Counts down.\n", "\n",
      "\"\" @dict Timer.Stop\n", "\" @public\n", "function demo#Stop() dict\n",
      "\"\" @public\n", "function demo#Add(one, other)\n",
      "\"\" Starts.\n", "command Start call demo#Start()\n"]
    (close c).result = .ok ()
    ∧ (close c).state.page.chunks.items.map (·.kindValue)
        = [Kind.sect, .backmatter, .sect, .sect, .command, .sect, .dictionary, .function, .sect,
            .function].map Kind.toValue
    ∧ ∃ parts, (close c).state.page.chunks = ⟨parts.flatMap Part.chunks, none⟩
        ∧ InPlace (beforeOutline c).sections (close c).state.page parts := by
  intro c
  have hbuilt : BuiltFrom Arrangeable c :=
    (builtFrom_ofFileIn _ _ _).mono fun _ he => he.wellFormed.arrangeable
  obtain ⟨hclose, hkinds, hkept⟩ : (close c).result = .ok ()
      ∧ (close c).state.page.chunks.items.map (·.kindValue)
        = [Kind.sect, .backmatter, .sect, .sect, .command, .sect, .dictionary, .function, .sect,
            .function].map Kind.toValue
      ∧ (beforeOutline c).sections.keys.all (close c).state.page.sections.has = true := by
    decide +kernel
  refine ⟨hclose, hkinds, ?_⟩
  clear_value c
  have hclosed := hbuilt.closed arrangeable_placeable (fun _ he => he.unlevelled) hclose
  exact chunks_in_place hbuilt hclose (hclosed.not_circular hkept)

/-! ### Members of dictionaries -/

/-- What a row of a table has, and no other one, is there as often as the key of that row. -/
theorem count_rows {table : Table Value Section} {chunks : Value × Section → List Entry} {key : Value}
    {n : Nat} (hdistinct : Distinct table.keys)
    (hchunks : ∀ row ∈ table, (chunks row).count e = if row.1 == key then n else 0) :
    (table.flatMap chunks).count e = if table.has key then n else 0 := by
  induction table with
  | nil => rfl
  | cons row rest ih =>
      obtain ⟨hrow, hrest⟩ := List.forall_mem_cons.mp hchunks
      obtain ⟨hunlike, hdistinct⟩ := List.pairwise_cons.mp hdistinct
      rw [List.flatMap_cons, List.count_append, hrow, ih hdistinct hrest,
        Table.has_eq_any (row :: rest), List.any_cons, ← Table.has_eq_any]
      cases hlike : row.1 == key with
      | false => simp
      | true =>
          have hnone : Table.has rest key = false := by
            rw [Table.has_eq_any, List.any_eq_false]
            intro other hother
            rw [← BEq.congr_right hlike, BEq.comm, hunlike other.1 (List.mem_map_of_mem hother)]
            simp
          simp [hnone]

/-- How often a function is listed with the dictionaries that it is a member of. -/
def listings (p : Page) (e : Entry) : Nat :=
  (p.shown .function).count e
    * (p.shown .dictionary).countP fun d => e.ownD "dict" == d.ownD "dict"

theorem count_membersOf (p : Page) (dictionary e : Entry) :
    (p.membersOf dictionary).count e
      = if e.ownD "dict" == dictionary.ownD "dict" then (p.shown .function).count e else 0 := by
  split
  · rename_i hlike
    exact List.count_filter hlike
  · rename_i hunlike
    exact List.count_eq_zero.mpr fun hmem => hunlike (List.mem_filter.mp hmem).2

namespace ClosedFrom

/-- A function is in no listing of another kind, but for that of the dictionaries. -/
theorem not_mem_shown (h : ClosedFrom P p q) (he : e ∈ q.shown .function) {kind : Kind}
    (hkind : kind ∈ shownKinds) (hother : kind ≠ .function) : e ∉ q.shown kind := by
  intro hmem
  obtain ⟨library, hshelf⟩ := h.shown_shelved hkind e hmem
  obtain ⟨elsewhere, hfunction⟩ := h.shown_shelved (by decide) e he
  have hsame : kind.toValue = Kind.function.toValue := by
    rw [← documentedAs_of_shelf hshelf, documentedAs_of_shelf hfunction]
  exact hother (shownKinds_eq_of_label kind hkind .function (by decide) (Value.text.inj hsame))

/-- A member is listed once with each dictionary of its name. -/
theorem count_listed (h : ClosedFrom Arrangeable p q) (he : e ∈ q.shown .function)
    (hmember : e.hasOwn "dict" = true) {kind : Kind} (hkind : kind ∈ shownKinds) :
    (q.listed kind).count e = if kind = .dictionary then q.listings e else 0 := by
  cases kind with
  | function =>
      refine List.count_eq_zero.mpr fun hmem => ?_
      simpa [hmember] using (List.mem_filter.mp hmem).2
  | dictionary =>
      have hnot := h.not_mem_shown he hkind (by decide)
      rw [if_pos rfl, listings, listed]
      generalize q.shown .dictionary = dictionaries at hnot
      induction dictionaries with
      | nil => rfl
      | cons d rest ih =>
          obtain ⟨hne, hrest⟩ := List.ne_and_not_mem_of_not_mem_cons hnot
          rw [List.flatMap_cons, List.count_append, ih hrest, List.countP_cons,
            List.count_cons_of_ne (Ne.symm hne), count_membersOf, Nat.mul_add, Nat.add_comm]
          split
          · rw [Nat.mul_one]
          · rw [Nat.mul_zero]
  | _ => exact List.count_eq_zero.mpr (h.not_mem_shown he hkind (by simp))

/-- Of the parts of a page, only that of the dictionaries has members of them. -/
theorem count_partOf (h : ClosedFrom Arrangeable p q) (he : e ∈ q.shown .function)
    (hmember : e.hasOwn "dict" = true) {row : Value × Section} (hrow : row ∈ q.sections) :
    (partOf q row).chunks.count e = if row.1 == .text "dicts" then q.listings e else 0 := by
  obtain ⟨hsect, hback⟩ := (h.shown_shelved (by decide)).apart (by decide) he
  have hbegins : row.2.entry ≠ e := by
    rintro rfl
    rw [h.isOf_sect hrow] at hsect
    cases hsect
  have hends : (q.backmatters.get? row.1).toList.count e = 0 := by
    refine List.count_eq_zero.mpr fun hmem => ?_
    rw [(h.backmatter (Option.mem_toList.mp hmem)).2] at hback
    cases hback
  have hlisted (other : Kind × String × String) (hother : other ∈ kindSections) :
      (List.count e ∘ fun other : Kind × String × String =>
          if row.1 == .text other.2.1 then q.listed other.1 else []) other
        = if row.1 == .text other.2.1 then
            if other.1 = .dictionary then q.listings e else 0
          else 0 := by
    dsimp only [Function.comp_apply]
    split
    · exact h.count_listed he hmember (List.mem_map_of_mem hother)
    · rfl
  show (row.2.entry :: (q.sectionEntries row.1).items
    ++ (q.backmatters.get? row.1).toList).count e = _
  rw [List.count_append, List.count_cons_of_ne hbegins, hends, Nat.add_zero, h.sectionEntries_eq,
    List.count_flatMap, List.map_congr_left hlisted]
  simp [kindSections]

end ClosedFrom

/--
**A member of a dictionary is listed once with each dictionary of its name.**

So it is listed nowhere if the page documents no dictionary of that name, or if the section on
dictionaries lies on a circle, and twice if the page documents two of them.
-/
theorem count_member_chunks {c : Context} (h : BuiltFrom Arrangeable c)
    (hclose : (close c).result = .ok ()) :
    ∃ functions dictionaries,
      (close c).state.page.collection Kind.function.toValue = .ok functions
      ∧ (close c).state.page.collection Kind.dictionary.toValue = .ok dictionaries
      ∧ (dictionaries ≠ [] → (beforeOutline c).sections.has (.text "dicts") = true)
      ∧ (close c).state.page.chunks.fault = none
      ∧ ∀ e ∈ functions, e.hasOwn "dict" = true →
          (close c).state.page.chunks.items.count e
            = if (close c).state.page.sections.has (.text "dicts") then
                functions.count e
                  * dictionaries.countP fun d => e.ownD "dict" == d.ownD "dict"
              else 0 := by
  have hclosed := h.closed arrangeable_placeable (fun _ he => he.unlevelled) hclose
  obtain ⟨dictionaries, hdictionaries, hsection⟩ :=
    hclosed.found (.dictionary, "dicts", "Dictionaries") (by decide)
  obtain rfl := Except.ok.inj (hdictionaries.symm.trans (hclosed.collection_eq (by decide)))
  refine ⟨_, _, hclosed.collection_eq (by decide), hdictionaries, hsection, ?_, ?_⟩
  · rw [hclosed.chunks_eq]
  · intro e he hmember
    rw [hclosed.chunks_eq, List.flatMap_map]
    exact count_rows hclosed.outlined.distinct fun row hrow => hclosed.count_partOf he hmember hrow

/-- Without a dictionary of its name a member is in no chunk, and with two of them it is in two. -/
theorem count_member_chunks_none_and_two :
    let dictionary := ["\"\" @dict Timer\n", "\n"]
    let member := ["\"\" @dict Timer.Stop\n", "\" @public\n", "\" Stops the timer.\n",
      "function demo#Stop() dict\n"]
    let alone := (close (ofFileIn (.text "demo#") "demo" member)).state.page
    let twice :=
      (close (ofFileIn (.text "demo#") "demo" (dictionary ++ dictionary ++ member))).state.page
    (∃ e, alone.collection Kind.function.toValue = .ok [e] ∧ alone.chunks.items.count e = 0)
    ∧ ∃ e, twice.collection Kind.function.toValue = .ok [e] ∧ twice.chunks.items.count e = 2 := by
  intro dictionary member alone twice
  have hbuilt (lines : List String) : BuiltFrom Arrangeable (ofFileIn (.text "demo#") "demo" lines) :=
    (builtFrom_ofFileIn _ _ _).mono fun _ he => he.wellFormed.arrangeable
  constructor
  · obtain ⟨hclose, hlength, hmember, hnone⟩ :
        (close (ofFileIn (.text "demo#") "demo" member)).result = .ok ()
        ∧ (alone.shown .function).length = 1
        ∧ (alone.shown .function).all (·.hasOwn "dict") = true
        ∧ alone.sections.has (.text "dicts") = false := by decide +kernel
    obtain ⟨functions, dictionaries, hfunctions, -, -, -, hcount⟩ :=
      count_member_chunks (hbuilt member) hclose
    rw [shown_eq hfunctions] at hlength hmember
    obtain ⟨e, rfl⟩ := List.length_eq_one_iff.mp hlength
    refine ⟨e, hfunctions, (hcount e (by simp) (by simpa using hmember)).trans ?_⟩
    rw [if_neg (by rw [hnone]; simp)]
  · obtain ⟨hclose, hlength, hmember, hlike, hhas⟩ :
        (close (ofFileIn (.text "demo#") "demo" (dictionary ++ dictionary ++ member))).result = .ok ()
        ∧ (twice.shown .function).length = 1
        ∧ (twice.shown .function).all (·.hasOwn "dict") = true
        ∧ (twice.shown .function).map (fun e =>
            (twice.shown .dictionary).countP fun d => e.ownD "dict" == d.ownD "dict") = [2]
        ∧ twice.sections.has (.text "dicts") = true := by decide +kernel
    obtain ⟨functions, dictionaries, hfunctions, hdictionaries, -, -, hcount⟩ :=
      count_member_chunks (hbuilt _) hclose
    rw [shown_eq hfunctions] at hlength hmember
    rw [shown_eq hfunctions, shown_eq hdictionaries] at hlike
    obtain ⟨e, rfl⟩ := List.length_eq_one_iff.mp hlength
    refine ⟨e, hfunctions, (hcount e (by simp) (by simpa using hmember)).trans ?_⟩
    have htwo : dictionaries.countP (fun d => e.ownD "dict" == d.ownD "dict") = 2 :=
      (List.cons.inj hlike).1
    rw [if_pos hhas, htwo, List.count_singleton_self]

end Page

end PluginHelp
