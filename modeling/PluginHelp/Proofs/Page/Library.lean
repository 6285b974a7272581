/-
Which functions of a library are documented.

A section may say that the plugin is a library, and in a library functions are public unless they are
marked otherwise.  That is looked up when a function is merged, so it counts only for the functions
that come after that section.  A function that is marked as public or private is treated alike
wherever it stands; one that is not is documented exactly if it comes after the section.

So two orders of the same entries document the same functions exactly if the same unmarked functions
come after that section in both.
-/
import Mathlib.Data.List.Perm.Basic
import PluginHelp.Proofs.Page.Merging
import PluginHelp.Source.Draft

namespace PluginHelp

open Act

/-- Whether an entry is about a function in use that is marked neither as public nor as private. -/
def Entry.isUnmarked (e : Entry) : Bool :=
  e.isOf .function && !(e.ownD "deprecated").isGiven && !e.hasOwn "private"

/-- Outside a library an unmarked function is left out; all else is the same inside and outside. -/
theorem Plugin.shelf_false (e : Entry) :
    shelf false e = if e.isUnmarked then .nothing else shelf true e := by
  have hflag (yes : Bool) : (Value.flag yes).isGiven = yes := rfl
  unfold shelf collectionKind Entry.isUnmarked
  by_cases hfunction : e.isOf .function = true
  · by_cases hdeprecated : (e.ownD "deprecated").isGiven = true
    · simp [hfunction, hdeprecated]
    · cases hmark : e.own? "private" with
      | none =>
          have hnone : e.hasOwn "private" = false := by rw [Entry.hasOwn_eq, hmark]; rfl
          simp [hfunction, hdeprecated, hflag, hnone]
      | some mark =>
          have hsome : e.hasOwn "private" = true := by rw [Entry.hasOwn_eq, hmark]; rfl
          have hheld : e.ownD "private" = mark := by rw [Entry.ownD, hmark]; rfl
          simp [hfunction, hdeprecated, hflag, hsome, hheld]
  · simp [hfunction]

namespace Page

/-- Whether an arrival is collected under a kind, in a library or elsewhere. -/
def Arrival.goesUnder (library : Bool) (kind : Kind) (a : Arrival) : Bool :=
  Plugin.shelf library a.placed == kind.toValue

theorem Arrival.isUnmarked_placed (a : Arrival) : a.placed.isUnmarked = a.1.isUnmarked := by
  unfold Entry.isUnmarked Entry.ownD
  rw [Entry.hasOwn_eq, Entry.hasOwn_eq, placed, Entry.isOf_placed a.2 a.1 (by decide),
    Entry.own?_placed a.2 a.1 (by decide) (by decide),
    Entry.own?_placed a.2 a.1 (by decide) (by decide)]

theorem Arrival.goesUnder_false (kind : Kind) (a : Arrival) :
    a.goesUnder false kind = (a.goesUnder true kind && !a.1.isUnmarked) := by
  unfold goesUnder
  rw [Plugin.shelf_false, isUnmarked_placed]
  cases a.1.isUnmarked with
  | true => simp [Kind.toValue, Value.beq_text_iff, ← Bool.not_eq_true]
  | false => simp

/-- The arrivals before the first one that makes the plugin a library. -/
def beforeLibrary (arrivals : List Arrival) : List Arrival :=
  arrivals.takeWhile fun a => !a.1.makesLibrary

/-- The arrivals from the first one on that makes the plugin a library. -/
def fromLibrary (arrivals : List Arrival) : List Arrival :=
  arrivals.dropWhile fun a => !a.1.makesLibrary

/-- The unmarked functions that come after the section that makes the plugin a library. -/
def unmarkedInLibrary (kind : Kind) (arrivals : List Arrival) : List Entry :=
  ((fromLibrary arrivals).filter fun a => a.goesUnder true kind && a.1.isUnmarked).map
    Arrival.placed

theorem shelved_true (kind : Kind) (arrivals : List Arrival) :
    shelved true kind arrivals = (arrivals.filter (·.goesUnder true kind)).map Arrival.placed := by
  induction arrivals with
  | nil => rfl
  | cons a rest ih =>
      rw [shelved, Bool.true_or, ih, List.filter_cons]
      by_cases hunder : a.goesUnder true kind = true
      · rw [if_pos hunder, if_pos (show (Plugin.shelf true a.placed == _) = true from hunder)]
        rfl
      · rw [if_neg hunder, if_neg (show ¬(Plugin.shelf true a.placed == _) = true from hunder)]
        rfl

/-- What is collected of arrivals in a plugin that is no library at first. -/
theorem shelved_false {kind : Kind} (hkind : kind.IsCollected) (arrivals : List Arrival) :
    shelved false kind arrivals
      = ((beforeLibrary arrivals).filter (·.goesUnder false kind)
          ++ (fromLibrary arrivals).filter (·.goesUnder true kind)).map Arrival.placed := by
  induction arrivals with
  | nil => rfl
  | cons a rest ih =>
      rw [shelved, Bool.false_or]
      cases hmakes : a.1.makesLibrary with
      | true =>
          have hspeaks : a.placed.speaks = true := by
            rw [Arrival.placed, Entry.speaks_placed]
            exact (Bool.and_eq_true_iff.mp hmakes).1
          have hbefore : beforeLibrary (a :: rest) = [] := by simp [beforeLibrary, hmakes]
          have hfrom : fromLibrary (a :: rest) = a :: rest := by simp [fromLibrary, hmakes]
          have hnowhere (library : Bool) : a.goesUnder library kind = false :=
            Plugin.shelf_of_speaks hspeaks library hkind
          rw [hbefore, hfrom, List.filter_nil, List.nil_append, ← shelved_true, shelved,
            Bool.true_or]
          rw [show (Plugin.shelf false a.placed == kind.toValue) = false from hnowhere false,
            show (Plugin.shelf true a.placed == kind.toValue) = false from hnowhere true]
      | false =>
          have hbefore : beforeLibrary (a :: rest) = a :: beforeLibrary rest := by
            simp [beforeLibrary, hmakes]
          have hfrom : fromLibrary (a :: rest) = fromLibrary rest := by simp [fromLibrary, hmakes]
          rw [hbefore, hfrom, ih, List.filter_cons]
          by_cases hunder : a.goesUnder false kind = true
          · rw [if_pos hunder, if_pos (show (Plugin.shelf false a.placed == _) = true from hunder)]
            rfl
          · rw [if_neg hunder, if_neg (show ¬(Plugin.shelf false a.placed == _) = true from hunder)]
            rfl

/-- Up to order, what is collected are the arrivals that any plugin would collect, and the unmarked
functions after the section that makes the plugin a library. -/
theorem shelved_false_perm {kind : Kind} (hkind : kind.IsCollected) (arrivals : List Arrival) :
    (shelved false kind arrivals).Perm
      ((arrivals.filter (·.goesUnder false kind)).map Arrival.placed
        ++ unmarkedInLibrary kind arrivals) := by
  have hsplit : arrivals = beforeLibrary arrivals ++ fromLibrary arrivals :=
    List.takeWhile_append_dropWhile.symm
  have hmarks : ((fromLibrary arrivals).filter (·.goesUnder true kind)).Perm
      ((fromLibrary arrivals).filter (·.goesUnder false kind)
        ++ (fromLibrary arrivals).filter fun a => a.goesUnder true kind && a.1.isUnmarked) := by
    have hcut := List.filter_append_perm (fun a : Arrival => !a.1.isUnmarked)
      ((fromLibrary arrivals).filter (·.goesUnder true kind))
    simpa [List.filter_filter, Arrival.goesUnder_false, Bool.and_comm] using hcut.symm
  have hall : arrivals.filter (·.goesUnder false kind)
      = (beforeLibrary arrivals).filter (·.goesUnder false kind)
        ++ (fromLibrary arrivals).filter (·.goesUnder false kind) := by
    rw [← List.filter_append, ← hsplit]
  rw [shelved_false hkind, unmarkedInLibrary, ← List.map_append, hall, List.append_assoc]
  exact (hmarks.append_left _).map _

/--
**Whether a function is documented depends on its place only if it is unmarked.**

A page collects, in order, what every plugin collects of the entries that arrive before the section
that makes the plugin a library, and what a library collects of those that arrive later.  Two orders
of the same entries therefore lead to the same functions and exceptions, up to their order, exactly
if the same unmarked functions come after that section in both.
-/
theorem collected_perm_iff {plugin : Plugin} (hplugin : plugin.library = .nothing) (name : Value)
    {arrivals others : List Arrival} (hsame : arrivals.Perm others) {c d : Context}
    {warnings more : List Warning}
    (hrun : mergeAll arrivals ⟨plugin, { name }⟩ = ⟨c, warnings, .ok ()⟩)
    (hother : mergeAll others ⟨plugin, { name }⟩ = ⟨d, more, .ok ()⟩)
    {kind : Kind} (hkind : kind.IsCollected) :
    c.page.collections.under kind
        = ((beforeLibrary arrivals).filter (·.goesUnder false kind)
            ++ (fromLibrary arrivals).filter (·.goesUnder true kind)).map Arrival.placed
    ∧ ((c.page.collections.under kind).Perm (d.page.collections.under kind)
        ↔ (unmarkedInLibrary kind arrivals).Perm (unmarkedInLibrary kind others)) := by
  have hcollected {arrivals : List Arrival} {c : Context} {warnings : List Warning}
      (hrun : mergeAll arrivals ⟨plugin, { name }⟩ = ⟨c, warnings, .ok ()⟩) :
      c.page.collections.under kind = shelved false kind arrivals := by
    have hgrown := ((mergeAll_ensures arrivals _).of_ok hrun).page kind hkind
    rw [hplugin] at hgrown
    exact hgrown
  have hany : ((arrivals.filter (·.goesUnder false kind)).map Arrival.placed).Perm
      ((others.filter (·.goesUnder false kind)).map Arrival.placed) :=
    (hsame.filter _).map _
  refine ⟨(hcollected hrun).trans (shelved_false hkind arrivals), ?_⟩
  rw [hcollected hrun, hcollected hother]
  rw [(shelved_false_perm hkind arrivals).congr_left, (shelved_false_perm hkind others).congr_right,
    (hany.append_right _).congr_left, List.perm_append_left_iff]

/-- A function without a mark is left out if it comes before the section on the library, and
documented if it comes after it. -/
theorem collected_depends_on_place :
    let function : List Arrival := (Source.entries none
      ["\"\" Adds an item.\n", "function demo#Add(item)\n"]).state.map (·, .text "demo#")
    let library : List Arrival := (Source.entries none
      ["\"\" @section Introduction, intro\n", "\" @library\n", "\n"]).state.map (·, .nothing)
    let fresh : Context := ⟨{ name := .text "demo" }, { name := .text "demo" }⟩
    let before := mergeAll (function ++ library) fresh
    let after := mergeAll (library ++ function) fresh
    before.result = .ok ()
    ∧ after.result = .ok ()
    ∧ (before.state.page.collections.under .function).length = 0
    ∧ (after.state.page.collections.under .function).length = 1
    ∧ ¬(unmarkedInLibrary .function (function ++ library)).Perm
        (unmarkedInLibrary .function (library ++ function)) := by
  intro function library fresh before after
  obtain ⟨hbefore, hafter, hnone, hone⟩ : before.result = .ok ()
      ∧ after.result = .ok ()
      ∧ (before.state.page.collections.under .function).length = 0
      ∧ (after.state.page.collections.under .function).length = 1 := by decide +kernel
  refine ⟨hbefore, hafter, hnone, hone, ?_⟩
  intro hperm
  have hrun : mergeAll (function ++ library) fresh = ⟨before.state, before.warnings, .ok ()⟩ := by
    rw [← hbefore]
  have hother : mergeAll (library ++ function) fresh = ⟨after.state, after.warnings, .ok ()⟩ := by
    rw [← hafter]
  have hkind : Kind.function.IsCollected := by decide
  have hcollected := (collected_perm_iff rfl (.text "demo") List.perm_append_comm hrun hother
    hkind).2.mpr hperm
  rw [← hcollected.length_eq, hnone] at hone
  exact absurd hone (by decide)

end Page

end PluginHelp
