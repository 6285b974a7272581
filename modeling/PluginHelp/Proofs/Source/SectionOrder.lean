/-
Orders of sections, from what is written to what is stored.

An order is checked with one pattern and cut into its items with another one.  The check can go
through a text in many ways: identifiers may touch, and a dash at the end may belong to the last
identifier or be a sign of its own.  The search goes through it in one way, as each identifier is
found as far as it goes.

The two agree since every way of the check can be turned into a row of items: an identifier that
touches the one behind it is one with it, and so is a dash that touches the identifier before it.
The items are then what is written without the blanks, and a sign can only be the last of them.
-/
import PluginHelp.Proofs.Entry.Controls
import PluginHelp.Proofs.Pattern.UsageSlots
import PluginHelp.Proofs.Source.Directives

namespace PluginHelp

open PluginHelp.Text

namespace Pattern

variable {text rest word : List Char} {items : List (List Char)} {c : Char}

/-! ### The items of a row -/

/-- The items of a row are what is written, without the blanks. -/
theorem OrderRow.flatten (h : OrderRow text items) : items.flatten = unblanked text := by
  induction h with
  | done => rfl
  | blank hc _ ih =>
      rw [ih, unblanked, unblanked, List.filter_cons_of_neg]
      simp [hc]
  | name hword _ _ ih =>
      rw [List.flatten_cons, ih, unblanked_append]
      exact fun c hc => isBlank_of_isDashedRest (isDashedRest_of_isOrderedName hword c hc)
  | sign hc =>
      rw [unblanked, List.filter_cons_of_pos]
      · rfl
      · rw [isBlank_of_isOrderSign hc, Bool.not_false]

theorem OrderRow.join_findTexts {s : String} (h : OrderRow s.toList items) :
    String.join (orderItem.findTexts s) = String.ofList (unblanked s.toList) := by
  rw [h.findTexts, ← String.toList_inj, String.toList_join, List.flatMap_map, String.toList_ofList,
    ← h.flatten]
  simp only [String.toList_ofList]
  exact List.flatMap_id'

/-- All items of a row but the last one are identifiers. -/
theorem OrderRow.shape (h : OrderRow text items) :
    items = [] ∨ ∃ names last, items = names ++ [last]
      ∧ (∀ name ∈ names, isOrderedName name = true)
      ∧ (isOrderedName last = true ∨ last = ['+'] ∨ last = ['-']) := by
  induction h with
  | done => exact Or.inl rfl
  | blank _ _ ih => exact ih
  | @name word rest items hword _ _ ih =>
      right
      rcases ih with rfl | ⟨names, last, rfl, hnames, hlast⟩
      · exact ⟨[], word, rfl, List.forall_mem_nil _, Or.inl hword⟩
      · exact ⟨word :: names, last, rfl, List.forall_mem_cons.mpr ⟨hword, hnames⟩, hlast⟩
  | sign hc =>
      refine Or.inr ⟨[], _, rfl, List.forall_mem_nil _, Or.inr ?_⟩
      rcases isOrderSign_iff.mp hc with rfl | rfl
      · exact Or.inl rfl
      · exact Or.inr rfl

/-! ### Accepted texts are rows -/

theorem isOrderedName_append {more : List Char} (hword : isOrderedName word = true)
    (hmore : ∀ c ∈ more, isDashedRest c = true) : isOrderedName (word ++ more) = true := by
  cases word with
  | nil => cases hword
  | cons c word =>
      obtain ⟨hc, hword⟩ := isOrderedName_cons.mp hword
      exact isOrderedName_cons.mpr ⟨hc, List.forall_mem_append.mpr ⟨hword, hmore⟩⟩

theorem OrderRow.indent {gap : List Char} (hgap : ∀ c ∈ gap, isBlank c = true)
    (hrest : OrderRow rest items) : OrderRow (gap ++ rest) items := by
  induction gap with
  | nil => exact hrest
  | cons c gap ih =>
      obtain ⟨hc, hgap⟩ := List.forall_mem_cons.mp hgap
      exact .blank hc (ih hgap)

/-- An identifier before a row, which it may touch. -/
theorem OrderRow.after_name (h : OrderRow rest items) (hword : isOrderedName word = true) :
    ∃ first more, OrderRow (word ++ rest) (first :: more) := by
  have hrow := h
  cases h with
  | done => exact ⟨word, [], .name hword (by simp) .done⟩
  | @blank c rest items hc _ =>
      refine ⟨word, items, .name hword ?_ hrow⟩
      rintro d ⟨⟩
      refine Bool.eq_false_iff.mpr fun hrest => ?_
      rw [isBlank_of_isDashedRest hrest] at hc
      cases hc
  | @name next rest items hnext hend hrest =>
      have hboth := isOrderedName_append hword (isDashedRest_of_isOrderedName hnext)
      rw [← List.append_assoc]
      exact ⟨word ++ next, items, .name hboth hend hrest⟩
  | @sign c hc =>
      rcases isOrderSign_iff.mp hc with rfl | rfl
      · refine ⟨word, [['+']], .name hword ?_ hrow⟩
        rintro d ⟨⟩
        rfl
      · -- A dash right behind an identifier belongs to it.
        have hdashed : isOrderedName (word ++ ['-']) = true :=
          isOrderedName_append hword (List.forall_mem_singleton.mpr rfl)
        have hone : OrderRow (word ++ ['-'] ++ []) [word ++ ['-']] := .name hdashed (by simp) .done
        rw [List.append_nil] at hone
        exact ⟨_, [], hone⟩

theorem OrderRow.after_part {part : List Char} (h : OrderRow rest items)
    (hpart : IsSpacedName part) : ∃ first more, OrderRow (part ++ rest) (first :: more) := by
  obtain ⟨gap, word, rfl, hgap, hword⟩ := hpart
  obtain ⟨first, more, hrow⟩ := h.after_name hword
  rw [List.append_assoc]
  exact ⟨first, more, hrow.indent hgap⟩

theorem OrderRow.after_parts {parts : List (List Char)} (h : OrderRow rest items)
    (hparts : ∀ part ∈ parts, IsSpacedName part) :
    ∃ items, OrderRow (parts.flatten ++ rest) items := by
  induction parts with
  | nil => exact ⟨items, h⟩
  | cons part parts ih =>
      obtain ⟨hpart, hmore⟩ := List.forall_mem_cons.mp hparts
      obtain ⟨_, hrow⟩ := ih hmore
      obtain ⟨first, others, hrow⟩ := hrow.after_part hpart
      rw [List.flatten_cons, List.append_assoc]
      exact ⟨first :: others, hrow⟩

/-- Whichever way the check goes through a text, the text is a row of items. -/
theorem spells_orderRow :
    Spells (oneOrMore (blanks ++ orderedName) ++ Pattern.optional (blanks ++ orderSign)) fun text =>
      ∃ first more, OrderRow text (first :: more) := by
  have hsign : Spells (Pattern.optional (blanks ++ orderSign)) fun text =>
      ∃ items, OrderRow text items := by
    refine ((spells_many_one _).seq (spells_one _)).optional.mono ?_
    rintro _ (⟨gap, _, rfl, hgap, c, rfl, hc⟩ | rfl)
    · exact ⟨_, OrderRow.indent hgap (.sign hc)⟩
    · exact ⟨_, .done⟩
  refine ((spells_spacedName.seq spells_spacedName.many).seq hsign).mono ?_
  rintro _ ⟨_, sign, rfl, ⟨part, _, rfl, hpart, parts, rfl, hparts⟩, _, hsign⟩
  obtain ⟨_, hrow⟩ := hsign.after_parts hparts
  rw [List.append_assoc]
  exact hrow.after_part hpart

/-- What is captured of an accepted text is a row of items, and all of the text but blanks. -/
theorem exists_row_of_match {s : String} {m : Match} (hm : sectionOrder.match? s = some m) :
    (∃ first more, OrderRow (m.group 1).toList (first :: more))
      ∧ unblanked s.toList = unblanked (m.group 1).toList := by
  obtain ⟨last, hs, hrow, hlast⟩ := spells_orderRow.of_whole hm
  refine ⟨hrow, ?_⟩
  have hnone : unblanked last = [] := by
    refine List.filter_eq_nil_iff.mpr fun c hc => ?_
    rw [hlast c hc]
    decide
  rw [hs, unblanked, List.filter_append]
  exact (congrArg (unblanked (m.group 1).toList ++ ·) hnone).trans (List.append_nil _)

end Pattern

namespace DocLine

/-! ### Reading and storing an order -/

/-- An entry that has no order yet stores the one that it is told. -/
theorem update_order (items : List String) {e : Entry} (hnew : e.shared.has "order" = false) :
    ∃ t, (DocLine.order items).update e = ⟨t, [], .ok ()⟩
      ∧ t.shared.get? "order" = some (.texts items) := by
  refine ⟨{ e.marked with shared := e.shared.set "order" (.texts items) }, ?_, ?_⟩
  · show Entry.setShared "order" (.texts items) e = _
    rw [Entry.setShared_apply, hnew, if_neg (by decide)]
  · exact Table.get?_set_self e.shared "order" (.texts items)

/-- If an order is accepted, its items put together are what is written, without the blanks.  All of
them but the last one are identifiers, and the last one is an identifier or a sign.  They are stored
as they are with every entry that has no order yet. -/
theorem order_items_of_accepted {arguments : String} {line : DocLine}
    (haccepted : ofDirective .order arguments = .ok line) :
    ∃ names last, line = .order (names ++ [last])
      ∧ (∀ e : Entry, e.shared.has "order" = false → ∃ t, line.update e = ⟨t, [], .ok ()⟩
        ∧ t.shared.get? "order" = some (.texts (names ++ [last])))
      ∧ String.join (names ++ [last]) = String.ofList (arguments.toList.filter fun c => !isBlank c)
      ∧ (∀ name ∈ names, Pattern.isOrderedName name.toList = true)
      ∧ (Pattern.isOrderedName last.toList = true ∨ last = "+" ∨ last = "-") := by
  obtain ⟨m, hm, rfl⟩ := exists_match_of_ofDirective haccepted
  obtain ⟨⟨first, more, hrow⟩, htext⟩ := Pattern.exists_row_of_match hm
  obtain ⟨names, last, hitems, hnames, hlast⟩ :=
    hrow.shape.resolve_left (List.cons_ne_nil first more)
  rw [hitems] at hrow
  have hfound : Pattern.orderItem.findTexts (m.group 1)
      = names.map String.ofList ++ [String.ofList last] := by
    rw [hrow.findTexts, List.map_append, List.map_singleton]
  have hline : ofMatch .order m = .order (names.map String.ofList ++ [String.ofList last]) :=
    congrArg DocLine.order hfound
  rw [hline]
  refine ⟨names.map String.ofList, String.ofList last, rfl, fun e => update_order _, ?_, ?_, ?_⟩
  · rw [← hfound, hrow.join_findTexts, ← htext]
    rfl
  · refine List.forall_mem_map.mpr fun name hname => ?_
    rw [String.toList_ofList]
    exact hnames name hname
  · rw [String.toList_ofList]
    rcases hlast with hname | rfl | rfl
    · exact Or.inl hname
    · exact Or.inr (Or.inl rfl)
    · exact Or.inr (Or.inr rfl)

/-- A dash that belongs to an identifier, and one that is a sign. -/
theorem order_items_of_accepted_dashes :
    ofDirective .order "intro usage- -" = .ok (.order ["intro", "usage-", "-"])
      ∧ (∃ t, (DocLine.order ["intro", "usage-", "-"]).update {} = ⟨t, [], .ok ()⟩
        ∧ t.shared.get? "order" = some (.texts ["intro", "usage-", "-"]))
      ∧ String.join ["intro", "usage-", "-"]
        = String.ofList ("intro usage- -".toList.filter fun c => !isBlank c)
      ∧ ∀ name ∈ ["intro", "usage-"], Pattern.isOrderedName name.toList = true := by
  have haccepted : ofDirective .order "intro usage- -"
      = .ok (.order ["intro", "usage-", "-"]) := rfl
  obtain ⟨names, last, hline, hstored, hjoin, hnames, -⟩ := order_items_of_accepted haccepted
  have hitems : names ++ [last] = ["intro", "usage-"] ++ ["-"] := (DocLine.order.inj hline).symm
  obtain ⟨rfl, -⟩ := List.append_inj' hitems rfl
  rw [hitems] at hstored hjoin
  exact ⟨haccepted, hstored {} rfl, hjoin, hnames⟩

end DocLine

end PluginHelp
