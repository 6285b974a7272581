/-
What decides whether a page can be closed.

A page whose sections have identifiers and titles, and that has got as far as to its order, comes to
the end of it unless the order itself is at fault.  All that matters then is which sections stand at
which places: closing fails exactly if some place of the order has a section at the top and a later
one has a section below it.  The order may name a section as often as it likes, and it may name
sections that do not exist or that lie below a circle.
-/
import PluginHelp.Proofs.Page.Ordered

namespace PluginHelp.Page

open Act Entry

/-! ### Sections that were given a title -/

theorem newSection_titled {e : Entry} {id title : String} (h : e.own = (newSection id title).own) :
    Titled e := by
  refine ⟨?_, title, ?_⟩
  · rw [hasOwn, h]
    rfl
  · rw [own?, h]
    rfl

theorem Titled.placed {e : Entry} (h : Titled e) (space : Value) : Titled (e.placed space) := by
  obtain ⟨hid, title, htitle⟩ := h
  refine ⟨?_, title, ?_⟩
  · rw [hasOwn_placed_of_ne space e (by decide) (by decide)]
    exact hid
  · rw [own?_placed space e (by decide) (by decide)]
    exact htitle

theorem addSection_titled {e : Entry} (h : Titled e) :
    Keeps AllTitled (fun _ => True) (addSection e) := by
  intro p hp
  unfold addSection
  rw [get_bind_apply]
  cases hsettle : settle Section.entry p.sections ⟨p.arrivals, e⟩ .duplicateSection with
  | error cause => exact ⟨hp, fun _ _ => trivial⟩
  | ok sections =>
      refine ⟨?_, fun _ _ => trivial⟩
      show ∀ row ∈ sections, Titled row.2.entry
      rcases settle_eq_ok hsettle with rfl | rfl
      · exact hp
      · exact Table.forall_mem_set (P := fun (_ : Value) (s : Section) => Titled s.entry) hp
          fun _ _ => h

/-- A section with a title is taken in by a page whose sections have titles. -/
theorem takeIn_titled {e : Entry} (hsect : e.isOf .sect = true) (h : Titled e) :
    Keeps (fun c : Context => AllTitled c.page) (fun _ => True) (takeIn e) := by
  have horder : Keeps AllTitled (fun _ => True) (takeOrder e) := by
    intro p hp
    refine ⟨?_, fun _ _ => trivial⟩
    rw [AllTitled, ((takeOrder_confined e).comp Page.sections).view_eq p]
    exact hp
  have hpage {act : Act Page Unit} (hact : Keeps AllTitled (fun _ => True) act) :
      Keeps (fun c : Context => AllTitled c.page) (fun _ => True) (Context.onPage act) :=
    Keeps.on (fun _ hc => hc) (fun _ _ _ hp => hp) hact
  refine takeIn_of_steps (hpage horder) (fun _ hc => ⟨hc, fun _ _ => trivial⟩)
    (fun _ => hpage (addSection_titled h)) (fun hback => ?_) (fun _ _ _ _ => trivial)
    fun _ _ hc _ _ => hc
  rw [isOf_eq_false (isOf_iff.mp hsect) (by decide)] at hback
  cases hback

/-- The sections that a page gets by itself have titles. -/
theorem addKindSections_titled :
    Keeps (fun c : Context => AllTitled c.page) (fun _ => True) addKindSections := by
  refine addKindSections_of_merge (fun _ _ => trivial) (fun _ _ _ _ => trivial) ?_
  intro e id title hown
  have hsect : (e.placed .nothing).isOf .sect = true := by
    rw [isOf_placed _ e (by decide)]
    exact (newSection_isOf id title hown).1
  exact merge_of_takeIn trivial (fun _ => trivial)
    (takeIn_titled hsect ((newSection_titled hown).placed .nothing))

/-! ### Places of an order -/

/-- The section that stands at a place of an order. -/
def sectionAt (table : Table Value Section) (ids : List Value) (i : Nat) : Option Section :=
  ids[i]?.bind table.get?

/-- A section lies below another one, right below it or further down. -/
def Below (table : Table Value Section) (top s : Section) : Prop :=
  ∃ child ∈ childrenOf table top, Under table child s

variable {table : Table Value Section} {ids : List Value} {top s : Section}

theorem Below.under (h : Below table top s) : Under table top s := by
  obtain ⟨child, hchild, hunder⟩ := h
  exact hunder.of_child hchild

/-- What lies below a section is nested. -/
theorem Below.nested (h : Below table top s) : isNested s = true := by
  obtain ⟨child, hchild, hunder⟩ := h
  cases hunder with
  | self => exact (mem_childrenOf.mp hchild).2.1
  | step _ hs => exact (mem_childrenOf.mp hs).2.1

/-- What lies under a section at the top and is nested is another one, and so lies below it. -/
theorem Under.isBelow (h : Under table top s) (htop : isNested top = false)
    (hs : isNested s = true) : Below table top s := by
  rcases h.eq_or_child with rfl | hbelow
  · rw [htop] at hs
    cases hs
  · exact hbelow

theorem sectionAt_of_alike (hfiled : Filed table) {i : Nat} {id : Value} (hid : ids[i]? = some id)
    (hs : s ∈ sectionsOf table) (hlike : (id == idOf s) = true) :
    sectionAt table ids i = some s := by
  rw [sectionAt, hid]
  exact hfiled.get?_of_alike hs (BEq.symm hlike)

/-- The section at a place is one of the table, and the place names it. -/
theorem sectionAt_eq_some (hfiled : Filed table) {i : Nat} (h : sectionAt table ids i = some s) :
    s ∈ sectionsOf table ∧ ∃ id, ids[i]? = some id ∧ (id == idOf s) = true := by
  obtain ⟨id, hid, hget⟩ := Option.bind_eq_some_iff.mp h
  obtain ⟨key, hmem, hlike⟩ := Table.mem_of_get? hget
  exact ⟨List.mem_map.mpr ⟨_, hmem, rfl⟩, id, hid,
    BEq.trans (BEq.symm hlike) (hfiled.own _ hmem)⟩

/-- A section at the top stands in the order, and later one that lies below it. -/
def Crosses (table : Table Value Section) (ids : List Value) : Prop :=
  ∃ i j top s, i < j ∧ sectionAt table ids i = some top ∧ isNested top = false
    ∧ sectionAt table ids j = some s ∧ Below table top s

/-- Two items of a list, one before the other, stand at two places of it, and the other way round. -/
theorem pair_sublist_iff {α : Type} {a b : α} {items : List α} :
    [a, b].Sublist items ↔ ∃ i j : Nat, i < j ∧ items[i]? = some a ∧ items[j]? = some b := by
  constructor
  · intro h
    obtain ⟨front, rest, rfl, ha, hb⟩ := List.cons_sublist_iff.mp h
    obtain ⟨i, hi⟩ := List.mem_iff_getElem?.mp ha
    obtain ⟨j, hj⟩ := List.mem_iff_getElem?.mp (List.singleton_sublist.mp hb)
    have hlt : i < front.length := (List.getElem?_eq_some_iff.mp hi).1
    refine ⟨i, front.length + j, by omega, ?_, ?_⟩
    · rw [List.getElem?_append_left hlt]
      exact hi
    · rw [List.getElem?_append_right (by omega), Nat.add_sub_cancel_left]
      exact hj
  · rintro ⟨i, j, hlt, ha, hb⟩
    have hi : a ∈ items.take j := by
      refine List.mem_iff_getElem?.mpr ⟨i, ?_⟩
      rw [List.getElem?_take_of_lt hlt]
      exact ha
    have hj : b ∈ items.drop j := by
      refine List.mem_iff_getElem?.mpr ⟨0, ?_⟩
      rw [List.getElem?_drop, Nat.add_zero]
      exact hb
    rw [← List.take_append_drop j items]
    exact (List.singleton_sublist.mpr hi).append (List.singleton_sublist.mpr hj)

theorem misplaced_iff_crosses (hfiled : Filed table) :
    Misplaced table ids ↔ Crosses table ids := by
  constructor
  · rintro ⟨earlier, later, hsublist, top, s, htop, htopLike, hunder, hnested, hlike⟩
    obtain ⟨i, j, hlt, hi, hj⟩ := pair_sublist_iff.mp hsublist
    exact ⟨i, j, top, s, hlt, sectionAt_of_alike hfiled hi htop.mem htopLike, htop.not_nested,
      sectionAt_of_alike hfiled hj (hunder.mem htop.mem) hlike,
      hunder.isBelow htop.not_nested hnested⟩
  · rintro ⟨i, j, top, s, hlt, hi, hnot, hj, hbelow⟩
    obtain ⟨htop, earlier, hearlier, htopLike⟩ := sectionAt_eq_some hfiled hi
    obtain ⟨-, later, hlater, hlike⟩ := sectionAt_eq_some hfiled hj
    exact ⟨earlier, later, pair_sublist_iff.mpr ⟨i, j, hlt, hearlier, hlater⟩, top, s,
      .top htop hnot, htopLike, hbelow.under, hbelow.nested, hlike⟩

/-! ### Closing -/

/-- A page that is about to go along its order comes to the end of it, or it finds a section that
stands too late. -/
theorem outline_crosses {p : Page} {order : Value} (hopen : Open p) (htitled : AllTitled p)
    (horder : (beforeOrder p).result = .ok order) :
    Ensures outline p (fun _ _ => ¬Crosses p.sections (order.items?.getD []))
      (fun cause => Crosses p.sections (order.items?.getD [])
        ∧ ∃ child, cause = .orderedChild child order) := by
  rw [← misplaced_iff_crosses hopen.filed]
  exact outline_ordered hopen htitled horder

/--
**Closing a page that gets as far as to its order fails exactly if a section of the order lies below
one at the top that stands before it, and succeeds otherwise.**

The page got as far if its own sections were added and nothing was found wrong before the order: each
backmatter has its section, each nested section has the one that it lies below, and no section at the
top is missing.  The order is the one that was completed from what was given.
-/
theorem close_fails_iff_crosses {c : Context} {order : Value} (h : Built c)
    (htitled : AllTitled c.page) (hadded : (addKindSections c).result = .ok ())
    (horder : (beforeOrder (beforeOutline c)).result = .ok order) :
    completeOrder (beforeOutline c).order (beforeOutline c).sections.has = .ok order
    ∧ ((∃ fault child, (close c).result = .error fault ∧ fault.cause = .orderedChild child order)
      ↔ Crosses (beforeOutline c).sections (order.items?.getD []))
    ∧ ((close c).result = .ok ()
      ↔ ¬Crosses (beforeOutline c).sections (order.items?.getD [])) := by
  have hopen : Open (beforeOutline c) := (addKindSections_keeps c h.isOpen).1
  have hclose : Ensures close c
      (fun _ _ => ¬Crosses (beforeOutline c).sections (order.items?.getD []))
      (fun cause => Crosses (beforeOutline c).sections (order.items?.getD [])
        ∧ ∃ child, cause = .orderedChild child order) := by
    rw [close_eq]
    refine Ensures.bind_of_ok hadded (Ensures.on ?_)
    exact outline_crosses hopen (addKindSections_titled c htitled).1 horder
  refine ⟨((beforeOrder_ensures hopen).of_ok (by rw [← horder])).ordered, ?_⟩
  cases hresult : (close c).result with
  | ok a =>
      have hnone := hclose.of_ok (by rw [← hresult])
      refine ⟨⟨?_, fun hcrosses => absurd hcrosses hnone⟩, fun _ => hnone, fun _ => rfl⟩
      rintro ⟨fault, child, hfault, -⟩
      cases hfault
  | error fault =>
      obtain ⟨hcrosses, child, hcause⟩ := hclose.of_error hresult
      refine ⟨⟨fun _ => hcrosses, fun _ => ⟨fault, child, rfl, hcause⟩⟩, fun hok => ?_, fun hnone => ?_⟩
      · cases hok
      · exact absurd hcrosses hnone

/-- An order may name a section twice.  What matters is that no nested section comes after the one at
the top that it lies below. -/
theorem close_fails_iff_crosses_repeated :
    let page (order : String) := ofFileIn (.text "demo#") "demo" ["\"\" @section First\n",
      "\" @order " ++ order ++ "\n", "\n",
      "\"\" @section Second\n", "\" @parentsection first\n", "\n",
      "\"\" @section Third\n", "\" @parentsection second\n", "\n"]
    ((close (page "third first first")).result = .ok ()
      ∧ ¬Crosses (beforeOutline (page "third first first")).sections
          [.text "third", .text "first", .text "first"])
    ∧ (∃ fault, (close (page "third first third")).result = .error fault
        ∧ fault.cause = .orderedChild (.text "third")
            (.list [.text "third", .text "first", .text "third"]))
      ∧ Crosses (beforeOutline (page "third first third")).sections
          [.text "third", .text "first", .text "third"] := by
  intro page
  have hbuilt (order : String) : BuiltFrom Outlinable (page order) :=
    (builtFrom_ofFileIn _ _ _).mono fun _ he => he.wellFormed.outlinable
  have hopen (order : String) : Built (page order) := (hbuilt order).built fun _ he => he.unlevelled
  have htitled (order : String) : AllTitled (page order).page :=
    ((hbuilt order).holds outlinable_placeable).allTitled
  constructor
  · obtain ⟨hclose, hadded, horder⟩ : (close (page "third first first")).result = .ok ()
        ∧ (addKindSections (page "third first first")).result = .ok ()
        ∧ (beforeOrder (beforeOutline (page "third first first"))).result
          = .ok (.list [.text "third", .text "first", .text "first"]) := by decide +kernel
    exact ⟨hclose, (close_fails_iff_crosses (hopen _) (htitled _) hadded horder).2.2.mp hclose⟩
  · let fault : Fault :=
      { cause := .orderedChild (.text "third") (.list [.text "third", .text "first", .text "third"]) }
    obtain ⟨hclose, hadded, horder⟩ : (close (page "third first third")).result = .error fault
        ∧ (addKindSections (page "third first third")).result = .ok ()
        ∧ (beforeOrder (beforeOutline (page "third first third"))).result
          = .ok (.list [.text "third", .text "first", .text "third"]) := by decide +kernel
    exact ⟨⟨fault, hclose, rfl⟩,
      (close_fails_iff_crosses (hopen _) (htitled _) hadded horder).2.1.mp ⟨_, _, hclose, rfl⟩⟩

end PluginHelp.Page
