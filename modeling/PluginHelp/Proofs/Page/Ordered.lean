/-
Nested sections in the order of a page.

An order is meant for the sections at the top.  A nested section in it is a fault, but a page finds it
out only on the way along its order, where it looks up what stands in its table at that moment.  Nested
sections are taken out of the table before, and each comes back with the section at the top that it
lies under.  So after a part of the order the nested sections in the table are those under what was
done, and the fault is found exactly if a nested section comes after the one at the top that it lies
under.  One that comes before it, or that lies below a circle, is passed over.

The order is not only what was given: it is completed by well-known sections, nested or not.
-/
import Mathlib.Data.List.InsertIdx
import PluginHelp.Proofs.Page.Holding

namespace PluginHelp

/-! ### Sections with a title -/

namespace Entry

/-- What is asked of an entry so that its page can be brought into an outline: levels are left to the
page, and a section has an identifier and a title. -/
structure Outlinable (e : Entry) : Prop where
  unlevelled : e.hasOwn "level" = false
  identified : e.isOf .sect = true → e.hasOwn "id" = true
  titled : e.isOf .sect = true → ∃ title, e.own? "name" = some (.text title)

theorem WellFormed.outlinable {e : Entry} (h : e.WellFormed) : e.Outlinable where
  unlevelled := h.unlevelled
  identified := h.identified
  titled hsect := by
    obtain ⟨hhas, htext⟩ := h.titled hsect
    obtain ⟨held, hheld⟩ := Option.isSome_iff_exists.mp hhas
    obtain ⟨title, rfl⟩ := htext held hheld
    exact ⟨title, hheld⟩

end Entry

namespace Page

open Act Entry

theorem outlinable_placeable : Placeable Outlinable where
  placed {e} space he := by
    refine ⟨?_, fun hsect => ?_, fun hsect => ?_⟩
    · rw [hasOwn_placed_of_ne space e (by decide) (by decide)]
      exact he.unlevelled
    · rw [isOf_placed space e (by decide)] at hsect
      rw [hasOwn_placed_of_ne space e (by decide) (by decide)]
      exact he.identified hsect
    · rw [isOf_placed space e (by decide)] at hsect
      rw [own?_placed space e (by decide) (by decide)]
      exact he.titled hsect
  newSection hown := (wellFormed_placeable.newSection hown).outlinable

/-- An entry has an identifier, and a text for a title. -/
structure Titled (e : Entry) : Prop where
  identified : e.hasOwn "id" = true
  titled : ∃ title, e.own? "name" = some (.text title)

/-- Every section of a page has an identifier and a title. -/
def AllTitled (p : Page) : Prop :=
  ∀ row ∈ p.sections, Titled row.2.entry

/-- Where every section has an identifier and a title, nothing goes wrong on the way downwards. -/
theorem followable_of_titled {p : Page} (h : AllTitled p) (allowed : Cause → Prop) :
    Followable p.sections allowed where
  sorted upper _ := by
    refine sortByValue_texts (fun s hs => ?_) allowed
    obtain ⟨row, hrow, rfl⟩ := List.mem_map.mp (mem_childrenOf.mp hs).1
    obtain ⟨title, htitle⟩ := (h row hrow).titled
    exact ⟨title, by rw [titleOf, needOwn, htitle]⟩
  identified s hs := by
    obtain ⟨row, hrow, rfl⟩ := List.mem_map.mp hs
    obtain ⟨id, hid⟩ := Option.isSome_iff_exists.mp (h row hrow).identified
    rw [needOwn, own?, hid]
    exact Covers.ok _

theorem Holds.allTitled {p : Page} (h : Holds Outlinable p) : AllTitled p := by
  intro row hrow
  obtain ⟨hheld, hsect⟩ := h.sections row hrow
  exact ⟨hheld.fits.identified hsect, hheld.fits.titled hsect⟩

/-! ### What the order may not have -/

variable {table : Table Value Section} {start p q : Page} {ids done : List Value} {order : Value}

/-- An order in which a nested section comes after the one at the top that it lies under. -/
def Misplaced (table : Table Value Section) (ids : List Value) : Prop :=
  ∃ earlier later, [earlier, later].Sublist ids
    ∧ ∃ top s, Depth table top 0 ∧ (earlier == idOf top) = true
      ∧ Under table top s ∧ isNested s = true ∧ (later == idOf s) = true

theorem Misplaced.exists_split (h : Misplaced table ids) :
    ∃ front id back, ids = front ++ id :: back ∧ ∃ earlier ∈ front, ∃ top s,
      Depth table top 0 ∧ (earlier == idOf top) = true
        ∧ Under table top s ∧ isNested s = true ∧ (id == idOf s) = true := by
  obtain ⟨earlier, later, hsublist, hmisplaced⟩ := h
  obtain ⟨front, rest, rfl, hearlier, hlater⟩ := List.cons_sublist_iff.mp hsublist
  obtain ⟨middle, back, rfl⟩ := List.append_of_mem (List.singleton_sublist.mp hlater)
  refine ⟨front ++ middle, later, back, by rw [List.append_assoc], earlier, ?_, hmisplaced⟩
  exact List.mem_append_left _ hearlier

/-- A nested section that is there lies under one at the top that is done. -/
theorem AddedAll.nested (hfiled : Filed table) (h : AddedAll table start done p)
    (hstart : start.sections = leftOut table []) {id : Value} (hid : p.sections.has id = true)
    {s : Section} (hs : s ∈ sectionsOf table) (hnested : isNested s = true)
    (hlike : (id == idOf s) = true) :
    ∃ earlier ∈ done, ∃ top, Depth table top 0 ∧ (earlier == idOf top) = true
      ∧ Under table top s := by
  obtain ⟨row, hrow, hkey⟩ := Table.has_iff.mp hid
  have hrowLike : (row.1 == idOf s) = true := BEq.trans hkey hlike
  rcases (h.progress hfiled hstart).rows row hrow with hleft | hbrought
  · obtain ⟨hmem, hnot, -⟩ := mem_leftOut.mp hleft
    obtain rfl : row.2 = s := hfiled.eq_of_alike (List.mem_map_of_mem hmem) hs
      (BEq.trans (BEq.symm (hfiled.own row hmem)) hrowLike)
    rw [hnested] at hnot
    cases hnot
  · obtain ⟨earlier, hearlier, top, t, d, htop, htopLike, hunder, hdepth, hheld, -⟩ := hbrought
    obtain rfl : t = s := hfiled.eq_of_alike hdepth.mem hs (BEq.trans (BEq.symm hheld) hrowLike)
    exact ⟨earlier, hearlier, top, htop, htopLike, hunder⟩

/-- What is added for an identifier is added to what those before it have made of the page. -/
theorem AddedAll.split (h : AddedAll table start ids q) :
    ∀ {front back : List Value} {id : Value}, ids = front ++ id :: back →
      ∃ before after, AddedAll table start front before ∧ Added table id before after := by
  induction h with
  | nil =>
      intro front back id hids
      simp at hids
  | @step done last p q hdone hadded ih =>
      intro front back id hids
      rcases List.eq_nil_or_concat back with rfl | ⟨rest, other, rfl⟩
      · obtain ⟨rfl, hlast⟩ := List.append_inj' hids rfl
        obtain rfl : last = id := by simpa using hlast
        exact ⟨p, q, hdone, hadded⟩
      · rw [List.concat_eq_append, ← List.cons_append, ← List.append_assoc] at hids
        exact ih (List.append_inj' hids rfl).1

/-- An order that a page went along to its end has no nested section where it may not be. -/
theorem AddedAll.not_misplaced (hfiled : Filed table) (h : AddedAll table start ids q)
    (hstart : start.sections = leftOut table []) : ¬Misplaced table ids := by
  intro hmisplaced
  obtain ⟨front, id, back, hids, earlier, hearlier, top, s, htop, htopLike, hunder, hnested, hlike⟩ :=
    hmisplaced.exists_split
  obtain ⟨before, after, hbefore, hadded⟩ := h.split hids
  have hhas := (hbefore.progress hfiled hstart).listed earlier hearlier top htop htopLike s hunder
  cases hadded with
  | absent hnone =>
      rw [Table.has_congr _ hlike, hhas] at hnone
      cases hnone
  | @present t rows ht hid hrows =>
      obtain rfl : t = s := hfiled.eq_of_alike ht.mem (hunder.mem htop.mem)
        (BEq.trans (BEq.symm hid) hlike)
      rw [ht.not_nested] at hnested
      cases hnested

/-- A page goes along its order to the end, or it finds a nested section that comes too late. -/
theorem addOrdered_each_ordered (hfollow : ∀ allowed, Followable table allowed)
    (hfiled : Filed table) (hstart : start.sections = leftOut table [])
    (hattached : Attached table start) (hdepth : ∀ t d, Depth table t d → d < start.arrivals) :
    Ensures (Act.each ids (addOrdered order)) start (fun _ _ => ¬Misplaced table ids)
      (fun cause => Misplaced table ids ∧ ∃ child, cause = .orderedChild child order) := by
  refine (addOrdered_each_ensures (hfollow _) hfiled hstart hattached hdepth order ?_).mono ?_
  · intro done id rest p hids hdone hhas s d hs hlike child
    have hnested : isNested s = true := by
      cases hnot : isNested s with
      | true => rfl
      | false => exact absurd (hs.eq_zero hnot) (Nat.succ_ne_zero d)
    obtain ⟨earlier, hearlier, top, htop, htopLike, hunder⟩ :=
      hdone.nested hfiled hstart hhas hs.mem hnested hlike
    have hsublist : [earlier, id].Sublist ids := by
      rw [hids]
      exact (List.singleton_sublist.mpr hearlier).append
        (List.singleton_sublist.mpr List.mem_cons_self)
    exact ⟨⟨earlier, id, hsublist, top, s, htop, htopLike, hunder, hnested, hlike⟩, child, rfl⟩
  · intro _ q hq
    exact hq.not_misplaced hfiled hstart

/-! ### How the order is completed -/

/-- The well-known sections. -/
def wellKnown : List String :=
  usualOrder ++ [lastSection]

/-- A list with further identifiers in it, each of a well-known section that is there. -/
structure Completes (isSection : Value → Bool) (explicit ids : List Value) : Prop where
  kept : explicit.Sublist ids
  added : ∀ id ∈ ids, id ∈ explicit ∨ (∃ name ∈ wellKnown, id = .text name) ∧ isSection id = true

theorem completes_self (isSection : Value → Bool) (explicit : List Value) :
    Completes isSection explicit explicit :=
  ⟨List.Sublist.refl _, fun _ hid => Or.inl hid⟩

theorem Completes.consider {isSection : Value → Bool} {explicit : List Value} {o : Ordering}
    (h : Completes isSection explicit o.order) {name : String} (hname : name ∈ wellKnown) :
    Completes isSection explicit (o.consider isSection (.text name)).order := by
  unfold Ordering.consider
  split
  · exact h
  · split
    · rename_i hsection
      refine ⟨h.kept.trans (List.sublist_insertIdx _ _ _), fun id hid => ?_⟩
      rcases List.eq_or_mem_of_mem_insertIdx hid with rfl | hid
      · exact Or.inr ⟨⟨name, hname, rfl⟩, hsection⟩
      · exact h.added id hid
    · exact h

theorem Completes.consider_each {isSection : Value → Bool} {explicit : List Value}
    {names : List String} (hnames : ∀ name ∈ names, name ∈ wellKnown) {o : Ordering}
    (h : Completes isSection explicit o.order) :
    Completes isSection explicit
      ((names.map Value.text).foldl (Ordering.consider isSection) o).order := by
  induction names generalizing o with
  | nil => exact h
  | cons name rest ih =>
      obtain ⟨hname, hrest⟩ := List.forall_mem_cons.mp hnames
      exact ih hrest (h.consider hname)

theorem completeList_completes (explicit : List Value) (isSection : Value → Bool) :
    Completes isSection explicit (completeList explicit isSection) := by
  have husual : Completes isSection explicit
      ((usualOrder.map Value.text).foldl (Ordering.consider isSection) ⟨explicit, 0⟩).order :=
    Completes.consider_each (fun _ hname => List.mem_append_left _ hname)
      (completes_self isSection explicit)
  unfold completeList
  dsimp only
  split
  · rename_i hlast
    refine ⟨husual.kept.trans (List.sublist_append_left _ _), fun id hid => ?_⟩
    rcases List.mem_append.mp hid with hid | hid
    · exact husual.added id hid
    · obtain rfl : id = .text lastSection := by simpa using hid
      refine Or.inr ⟨⟨lastSection, List.mem_append_right _ List.mem_cons_self, rfl⟩, ?_⟩
      exact (Bool.and_eq_true_iff.mp hlast).1
  · exact husual

/-- The order of a page is the explicit one, completed by well-known sections that are there. -/
theorem completeOrder_completes {explicit order : Value} {isSection : Value → Bool}
    (h : completeOrder explicit isSection = .ok order) :
    Completes isSection (explicit.items?.getD []) (order.items?.getD []) := by
  unfold completeOrder at h
  split at h
  · split at h
    · obtain rfl := Except.ok.inj h
      exact completeList_completes _ _
    · split at h
      · obtain rfl := Except.ok.inj h
        exact completes_self _ _
      · cases h
    · cases h
  · rename_i hnone
    obtain rfl := Except.ok.inj h
    have hempty : explicit.items?.getD [] = [] := by
      cases explicit <;> simp_all [Value.isGiven, Value.items?]
    rw [hempty]
    exact completeList_completes _ _

/-- A page that is about to go along its order comes to the end of it, or it finds a nested section
that comes too late. -/
theorem outline_ordered (hopen : Open p) (htitled : AllTitled p)
    (horder : (beforeOrder p).result = .ok order) :
    Ensures outline p (fun _ _ => ¬Misplaced p.sections (order.items?.getD []))
      (fun cause => Misplaced p.sections (order.items?.getD [])
        ∧ ∃ child, cause = .orderedChild child order) := by
  have hprepared : Prepared p order (beforeOrder p).state :=
    (beforeOrder_ensures hopen).of_ok (by rw [← horder])
  have hstart : (beforeOrder p).state.sections = leftOut p.sections [] := by
    rw [hprepared.unchanged]
  have harrivals : (beforeOrder p).state.arrivals = p.arrivals := by rw [hprepared.unchanged]
  rw [outline_eq]
  refine Ensures.bind_of_ok horder ?_
  refine addOrdered_each_ordered (followable_of_titled htitled) hopen.filed hstart
    hprepared.attached fun t d ht => ?_
  exact (ht.lt hopen.filed hopen.numbered).trans_eq harrivals.symm

/--
**A nested section in the order is a fault exactly if it comes after the section at the top that it
lies under.**

This is about pages that get as far as to go along their order: all backmatters have their section,
all nested sections lie below one that is there, and no section at the top is missing from the order.
What counts is the order as it is completed.  Every identifier of it was given explicitly or is that
of a well-known section.
-/
theorem close_orderedChild_iff {c : Context} (h : BuiltFrom Outlinable c)
    (hadded : (addKindSections c).result = .ok ())
    (horder : (beforeOrder (beforeOutline c)).result = .ok order) :
    ((∃ fault child, (close c).result = .error fault ∧ fault.cause = .orderedChild child order)
      ↔ Misplaced (beforeOutline c).sections (order.items?.getD []))
    ∧ Completes (beforeOutline c).sections.has ((beforeOutline c).order.items?.getD [])
        (order.items?.getD []) := by
  have hopen : Open (beforeOutline c) :=
    (addKindSections_keeps c (h.built fun _ he => he.unlevelled).isOpen).1
  have hholds : Holds Outlinable (beforeOutline c) :=
    (addKindSections_holds outlinable_placeable c (h.holds outlinable_placeable)).1
  have hordered := ((beforeOrder_ensures hopen).of_ok (by rw [← horder])).ordered
  refine ⟨?_, completeOrder_completes hordered⟩
  have hclose : Ensures close c
      (fun _ _ => ¬Misplaced (beforeOutline c).sections (order.items?.getD []))
      (fun cause => Misplaced (beforeOutline c).sections (order.items?.getD [])
        ∧ ∃ child, cause = .orderedChild child order) := by
    rw [close_eq]
    exact Ensures.bind_of_ok hadded (Ensures.on (outline_ordered hopen hholds.allTitled horder))
  constructor
  · rintro ⟨fault, child, hfault, -⟩
    exact (hclose.of_error hfault).1
  · intro hmisplaced
    cases hresult : (close c).result with
    | ok a => exact absurd hmisplaced (hclose.of_ok (by rw [← hresult]))
    | error fault =>
        obtain ⟨-, child, hcause⟩ := hclose.of_error hresult
        exact ⟨fault, child, rfl, hcause⟩

/-- A nested section that is ordered before the one it lies below is passed over, and after it, it is a
fault. -/
theorem close_orderedChild_iff_two_orders :
    let page (order : String) := ofFileIn (.text "demo#") "demo" ["\"\" @section First\n",
      "\" @order " ++ order ++ "\n", "\n",
      "\"\" @section Second\n", "\" @parentsection first\n", "\n"]
    ((close (page "second first")).result = .ok ()
      ∧ ¬Misplaced (beforeOutline (page "second first")).sections [.text "second", .text "first"])
    ∧ (close (page "first second")).result
        = .error { cause := .orderedChild (.text "second") (.list [.text "first", .text "second"]) }
      ∧ Misplaced (beforeOutline (page "first second")).sections [.text "first", .text "second"] := by
  intro page
  have hbuilt (order : String) : BuiltFrom Outlinable (page order) :=
    (builtFrom_ofFileIn _ _ _).mono fun _ he => he.wellFormed.outlinable
  constructor
  · obtain ⟨hclose, hadded, horder⟩ : (close (page "second first")).result = .ok ()
        ∧ (addKindSections (page "second first")).result = .ok ()
        ∧ (beforeOrder (beforeOutline (page "second first"))).result
          = .ok (.list [.text "second", .text "first"]) := by decide +kernel
    refine ⟨hclose, fun hmisplaced => ?_⟩
    obtain ⟨fault, child, hfault, -⟩ :=
      (close_orderedChild_iff (hbuilt _) hadded horder).1.mpr hmisplaced
    rw [hclose] at hfault
    cases hfault
  · obtain ⟨hclose, hadded, horder⟩ : (close (page "first second")).result
          = .error { cause := .orderedChild (.text "second") (.list [.text "first", .text "second"]) }
        ∧ (addKindSections (page "first second")).result = .ok ()
        ∧ (beforeOrder (beforeOutline (page "first second"))).result
          = .ok (.list [.text "first", .text "second"]) := by decide +kernel
    exact ⟨hclose, (close_orderedChild_iff (hbuilt _) hadded horder).1.mp ⟨_, _, hclose, rfl⟩⟩

end Page

end PluginHelp
