/-
Closing a page.

A page that was built by merging entries is open, and it still is when it has got the sections on
what it documents.  So closing it ends with the outline of these sections, or with a fault that is
not about depth: following the links from a section to those below it comes to an end, also where
the links of other sections go in a circle.

The outline is a walk along the order of the page, if that repeats nothing.  The walk reaches
exactly the sections whose links lead up to the top.  A section whose links do not lies on a circle,
such as one that is said to lie below itself, or below a circle.  It is in no outline, and closing
the page drops it without a word.
-/
import PluginHelp.Proofs.Page.Building
import PluginHelp.Proofs.Source.WellFormed

namespace PluginHelp.Page

open Act

/-- The page as it is when it has got the sections on what it documents. -/
def beforeOutline (c : Context) : Page :=
  (addKindSections c).state.page

/-- Closing a page ends with the outline of its sections, or else not because of their depth. -/
theorem close_ensures {c : Context} (h : Built c) :
    Ensures close c (fun _ d => Outlined (beforeOutline c) d.page) NotTooDeep := by
  rw [close_eq]
  refine Ensures.bind (Ensures.of_keeps addKindSections_keeps h.isOpen) ?_
  rintro _ d ⟨rfl, hopen⟩
  exact Ensures.on (outline_ensures hopen)

/-- A page into which the entries of a file are merged. -/
def ofFile (name : String) (lines : List String) : Context :=
  (Act.each (Source.entries none lines).state (fun e => merge e .nothing)
    ⟨{ name := .text name }, { name := .text name }⟩).state

theorem built_ofFile (name : String) (lines : List String) : Built (ofFile name lines) :=
  (Built.start _ _).merge_each _ fun e he => (Source.entries_wellFormed none lines e he).unlevelled

/--
**The sections of a closed page are a walk along its order.**

The walk is over the sections as they are before the outline.  It starts from those at the top that
stand in the order, and lists each section right before those below it, which are sorted by title
and one level further down.  Closing never fails for want of depth, whatever lies below what.
-/
theorem close_walk {c : Context} (h : Built c) :
    (∀ fault, (close c).result = .error fault → fault.cause ≠ .tooDeep)
    ∧ ((close c).result = .ok () →
        ∃ order, completeOrder (beforeOutline c).order (beforeOutline c).sections.has = .ok order
          ∧ (close c).state.page.order = order
          ∧ (Distinct (order.items?.getD []) →
              Walk (beforeOutline c).sections 0
                (roots (beforeOutline c).sections (order.items?.getD []))
                (close c).state.page.sections)) := by
  refine ⟨fun fault hfault => (close_ensures h).of_error hfault, ?_⟩
  intro hclose
  have houtlined : Outlined (beforeOutline c) (close c).state.page :=
    (close_ensures h).of_ok (by rw [← hclose])
  exact ⟨_, houtlined.ordered, rfl, houtlined.walk⟩

/-- Two sections below another one come in the order of their titles, each followed by what lies
below it, while a section that is said to lie below itself is of no concern. -/
theorem close_walk_nested :
    let c := ofFile "demo" ["\"\" @section Intro\n", "\n",
      "\"\" @section Usage\n", "\" @parentsection intro\n", "\n",
      "\"\" @section About this\n", "\" @parentsection intro\n", "\n",
      "\"\" @section Details\n", "\" @parentsection usage\n", "\n",
      "\"\" @section Loop\n", "\" @parentsection loop\n", "\n"]
    (close c).result = .ok ()
    ∧ (close c).state.page.sections.keys
        = [.text "intro", .text "about-this", .text "usage", .text "details"]
    ∧ Walk (beforeOutline c).sections 0 (roots (beforeOutline c).sections [.text "intro"])
        (close c).state.page.sections := by
  intro c
  have hbuilt : Built c := built_ofFile _ _
  obtain ⟨hclose, hkeys, horder⟩ : (close c).result = .ok ()
      ∧ (close c).state.page.sections.keys
        = [.text "intro", .text "about-this", .text "usage", .text "details"]
      ∧ completeOrder (beforeOutline c).order (beforeOutline c).sections.has
        = .ok (.list [.text "intro"]) := by decide +kernel
  refine ⟨hclose, hkeys, ?_⟩
  clear_value c
  obtain ⟨order, hsame, -, hwalk⟩ := (close_walk hbuilt).2 hclose
  obtain rfl : Value.list [.text "intro"] = order := Except.ok.inj (horder.symm.trans hsame)
  exact hwalk (List.pairwise_singleton _ _)

/--
**Closing a page keeps exactly the sections whose links lead up to the top.**

Links that go in a circle are no fault.  What is lost are the sections on a circle and those below
one.
-/
theorem close_has_iff_rooted {c : Context} (h : Built c) (hclose : (close c).result = .ok ()) :
    ∀ row ∈ (beforeOutline c).sections,
      ((close c).state.page.sections.has row.1 = true
        ↔ Rooted (beforeOutline c).sections row.2)
      ∧ ((close c).state.page.sections.has row.1 = false
        ↔ ∃ circle, Circular (beforeOutline c).sections circle
            ∧ Under (beforeOutline c).sections circle row.2) := by
  have houtlined : Outlined (beforeOutline c) (close c).state.page :=
    (close_ensures h).of_ok (by rw [← hclose])
  have hfiled : Filed (beforeOutline c).sections := (addKindSections_keeps c h.isOpen).1.filed
  intro row hrow
  have hkept := houtlined.kept_iff row hrow
  refine ⟨hkept, ?_⟩
  rw [← Bool.not_eq_true, hkept]
  constructor
  · exact exists_circular houtlined.linked (List.mem_map_of_mem hrow)
  · rintro ⟨circle, hcircle, hunder⟩ hrooted
    exact hcircle.not_rooted hfiled (hunder.rooted hfiled hcircle.1 hrooted)

/-- A section that is said to lie below itself is there before the outline and gone after it. -/
theorem close_drops_own_parent :
    let c := ofFile "demo" ["\"\" @section Loop\n", "\" @parentsection loop\n", "\n"]
    (close c).result = .ok ()
    ∧ (beforeOutline c).sections.keys = [.text "loop"]
    ∧ (close c).state.page.sections.keys = []
    ∧ ∀ row ∈ (beforeOutline c).sections, ¬Rooted (beforeOutline c).sections row.2
      ∧ ∃ circle, Circular (beforeOutline c).sections circle
          ∧ Under (beforeOutline c).sections circle row.2 := by
  intro c
  have hbuilt : Built c := built_ofFile _ _
  obtain ⟨hclose, hbefore, hnone⟩ : (close c).result = .ok ()
      ∧ (beforeOutline c).sections.keys = [.text "loop"]
      ∧ (close c).state.page.sections.keys = [] := by decide +kernel
  refine ⟨hclose, hbefore, hnone, ?_⟩
  clear_value c
  intro row hrow
  obtain ⟨hkept, hlost⟩ := close_has_iff_rooted hbuilt hclose row hrow
  have hgone : (close c).state.page.sections.has row.1 = false := by
    rw [List.map_eq_nil_iff.mp hnone]
    rfl
  refine ⟨fun hrooted => ?_, hlost.mp hgone⟩
  rw [hkept.mpr hrooted] at hgone
  contradiction

end PluginHelp.Page
