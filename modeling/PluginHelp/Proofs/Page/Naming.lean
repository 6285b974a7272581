/-
The names of pages.

A page is named when it is begun.  Neither merging nor closing changes its name, so the names of the
pages of a book are known before anything is merged.
-/
import PluginHelp.Page.Book
import PluginHelp.Proofs.Page.Building
import PluginHelp.Proofs.Page.Merging

namespace PluginHelp

open Act

namespace Page

/-- A step that leaves the name of the page alone. -/
abbrev LeavesName {α : Type} (act : Act Context α) : Prop :=
  Confined (fun c : Context => c.page.name) (fun _ => True) act

theorem onPage_name {α : Type} {act : Act Page α} (h : Confined Page.name (fun _ => True) act) :
    LeavesName (Context.onPage act) :=
  fun shown => Keeps.on (fun _ hc => hc) (fun _ _ _ hp => hp) (h shown)

/-! ### Merging -/

theorem takeIn_name (e : Entry) : LeavesName (takeIn e) := by
  have honPlugin (act : Act Plugin Unit) : LeavesName (Context.onPlugin act) :=
    fun _ _ hc => ⟨hc, fun _ _ => trivial⟩
  have hsections : Confined Page.name (fun _ => True) (addSection e) :=
    Confined.get.bind fun _ => Confined.bind (Confined.ofExcept fun _ _ => trivial) fun _ =>
      Confined.modify fun _ => rfl
  have hbackmatters : Confined Page.name (fun _ => True) (addBackmatter e) :=
    Confined.get.bind fun _ => Confined.bind (Confined.ofExcept fun _ _ => trivial) fun _ =>
      Confined.modify fun _ => rfl
  have horder : LeavesName (Context.onPage (takeOrder e)) :=
    onPage_name ((takeOrder_confined e).comp Page.name)
  exact fun shown => takeIn_of_steps (horder shown) (honPlugin _ shown)
    (fun _ => onPage_name hsections shown) (fun _ => onPage_name hbackmatters shown)
    (fun _ _ _ _ => trivial) fun _ _ hc _ _ => hc

/-- Merging leaves the name of a page alone. -/
theorem merge_name (e : Entry) (space : Value) : LeavesName (merge e space) :=
  fun shown => merge_of_takeIn trivial (fun _ => trivial) (takeIn_name _ shown)

/-! ### Closing -/

/-- What the outline of a page has no part in: its name and what it has collected. -/
def outside (p : Page) : Value × Collections :=
  (p.name, p.collections)

theorem addBranch_outside (depth : Nat) (id : Value) (s : Section) :
    Confined outside (fun _ => True) (addBranch depth id s) := by
  induction depth generalizing id s with
  | zero => exact Confined.fail trivial
  | succ depth ih =>
      rw [addBranch]
      refine Confined.bind (Confined.modify fun _ => rfl) fun _ => Confined.get.bind fun p => ?_
      refine Confined.bind (Confined.ofExcept fun _ _ => trivial) fun children => ?_
      refine fun shown => Keeps.each fun child _ => ?_
      refine Keeps.bind (Keeps.ofExcept fun _ _ => trivial) fun lower => ?_
      exact Keeps.bind (Keeps.ofExcept fun _ _ => trivial) fun lowerId => ih lowerId lower shown

theorem addOrdered_outside (order id : Value) :
    Confined outside (fun _ => True) (addOrdered order id) := by
  unfold addOrdered
  refine Confined.get.bind fun p => ?_
  split
  · exact Confined.pure ()
  · refine Confined.bind (Confined.modify fun _ => rfl) fun _ => ?_
    refine Confined.ite (fun _ => ?_) fun _ => addBranch_outside _ _ _
    refine Confined.bind (Confined.ofExcept fun _ _ => trivial) fun _ => ?_
    exact Confined.bind (Confined.fail trivial) fun _ => addBranch_outside _ _ _

theorem beforeOrder_outside : Confined outside (fun _ => True) beforeOrder := by
  have hattach : Confined outside (fun _ => True) attachNested := by
    refine Confined.get.bind fun p shown => Keeps.each fun row _ => ?_
    refine Keeps.bind (Keeps.ofExcept fun _ _ => trivial) fun upper => ?_
    exact Keeps.modify fun _ hname => hname
  unfold beforeOrder
  refine Confined.get.bind fun p => ?_
  dsimp only
  split
  on_goal 1 => refine Confined.bind (Confined.fail trivial) fun _ => ?_
  all_goals
    refine Confined.bind (Confined.ofExcept fun _ _ => trivial) fun order => ?_
    refine Confined.bind (Confined.modify fun _ => rfl) fun _ => hattach.bind fun _ => ?_
    refine Confined.bind (Confined.modify fun _ => rfl) fun _ => Confined.get.bind fun q => ?_
    exact Confined.bind (Confined.ofExcept fun _ _ => trivial) fun _ => Confined.pure order

theorem outline_outside : Confined outside (fun _ => True) outline := by
  rw [outline_eq]
  refine beforeOrder_outside.bind fun order shown => Keeps.each fun id _ => ?_
  exact addOrdered_outside order id shown

/-- Closing leaves the name of a page alone. -/
theorem close_name : LeavesName close := by
  rw [close_eq]
  refine Confined.bind (fun shown => ?_) fun _ => onPage_name (outline_outside.comp Prod.fst)
  exact addKindSections_of_merge (fun _ _ => trivial) (fun _ _ _ _ => trivial)
    fun e _ _ _ => merge_name e .nothing shown

end Page

namespace Book

/-- A step that leaves the name of its page alone leaves those of all pages alone. -/
theorem names_onPage {α : Type} {act : Act Context α} (h : Page.LeavesName act) (i : Nat)
    (b : Book) : (onPage i act b).state.pages.map (·.name) = b.pages.map (·.name) := by
  unfold onPage
  split
  · rfl
  · rename_i page hpage
    obtain ⟨hi, rfl⟩ := List.getElem?_eq_some_iff.mp hpage
    have hname := h.view_eq ⟨b.plugin, b.pages[i]⟩
    have hi' : i < (b.pages.map (·.name)).length := by simpa using hi
    have hsame : b.pages[i].name = (b.pages.map (·.name))[i] := by simp
    dsimp only at hname ⊢
    rw [List.map_set, hname, hsame, List.set_getElem_self]

/-- Merging the entries of a file leaves the names of all pages alone. -/
theorem names_mergeAll (i : Nat) (space : Value) (entries : List Entry) (b : Book) :
    (mergeAll i space entries b).state.pages.map (·.name) = b.pages.map (·.name) :=
  names_onPage (fun shown => Keeps.each fun e _ => Page.merge_name e space shown) i b

end Book

end PluginHelp
