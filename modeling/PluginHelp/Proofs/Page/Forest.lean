/-
The sections of a page as a forest.

Every nested section names the one it lies below.  Nothing keeps these links from going in a circle,
so they need not lead up to a section at the top; where they do, they lead up to one only, and the
number of steps is the depth of the section.  A section has one depth at most, and sections of
different depth are different ones, so no depth reaches the number of sections.  Where the links do
not lead up to the top, they lead to a circle, since there are only so many sections.

`Walk` says what it is to list sections with everything below them, each before the sections right
below it.  No section is listed twice, whatever the links are, and every section below a listed one
is listed as well.
-/
import Mathlib.Data.Fintype.Card
import Mathlib.Data.List.Nodup
import Mathlib.Order.Preorder.Finite
import PluginHelp.Page.Outline
import PluginHelp.Proofs.Table
import PluginHelp.Proofs.Value.Order

namespace PluginHelp.Page

open Sorting

/-! ### Sections and what lies below them -/

/-- The identifier of a section. -/
def idOf (s : Section) : Value :=
  s.entry.ownD "id"

/-- The title of a section, which it must have to be sorted by it. -/
def titleOf (s : Section) : Except Cause Value :=
  s.entry.needOwn "name"

/-- The sections of a table in order. -/
def sectionsOf (table : Table Value Section) : List Section :=
  table.map (·.2)

/-- A table in which every section stands under its own identifier, and none has a level yet. -/
structure Filed (table : Table Value Section) : Prop where
  distinct : Distinct table.keys
  own : ∀ row ∈ table, (row.1 == idOf row.2) = true
  numbers : (table.map (·.2.number)).Nodup
  unlevelled : ∀ row ∈ table, row.2.entry.hasOwn "level" = false

/-- The sections right below another one, in the order of the table. -/
def childrenOf (table : Table Value Section) (upper : Section) : List Section :=
  (sectionsOf table).filter fun s => isNested s && parentOf s == idOf upper

variable {table : Table Value Section}

theorem mem_childrenOf {upper s : Section} :
    s ∈ childrenOf table upper ↔
      s ∈ sectionsOf table ∧ isNested s = true ∧ (parentOf s == idOf upper) = true := by
  rw [childrenOf, List.mem_filter, Bool.and_eq_true]

theorem Filed.get?_of_alike (h : Filed table) {s : Section} (hs : s ∈ sectionsOf table)
    {id : Value} (hid : (idOf s == id) = true) : table.get? id = some s := by
  obtain ⟨⟨k, _⟩, hrow, rfl⟩ := List.mem_map.mp hs
  exact Table.get?_of_mem h.distinct hrow (BEq.trans (h.own _ hrow) hid)

/-- There is only one section with an identifier. -/
theorem Filed.eq_of_alike (h : Filed table) {s t : Section} (hs : s ∈ sectionsOf table)
    (ht : t ∈ sectionsOf table) (hlike : (idOf s == idOf t) = true) : s = t := by
  have hfound := (h.get?_of_alike hs hlike).symm.trans (h.get?_of_alike ht BEq.rfl)
  exact Option.some.inj hfound

theorem Filed.eq_of_number (h : Filed table) {s t : Section} (hs : s ∈ sectionsOf table)
    (ht : t ∈ sectionsOf table) (hnumber : s.number = t.number) : s = t := by
  have hnumbers : ((sectionsOf table).map Section.number).Nodup := by
    rw [sectionsOf, List.map_map]
    exact h.numbers
  exact List.inj_on_of_nodup_map hnumbers hs ht hnumber

/-- Looking for an identifier finds a section exactly if it is like the identifier of that section.
-/
theorem Filed.number_beq_iff (h : Filed table) {id : Value} {found s : Section}
    (hfound : table.get? id = some found) (hs : s ∈ sectionsOf table) :
    (found.number == s.number) = (id == idOf s) := by
  obtain ⟨k, hmem, hlike⟩ := Table.mem_of_get? hfound
  rw [Bool.eq_iff_iff]
  constructor
  · intro hnumber
    have hmem' : found ∈ sectionsOf table := List.mem_map.mpr ⟨_, hmem, rfl⟩
    obtain rfl : found = s := h.eq_of_number hmem' hs (by simpa using hnumber)
    exact BEq.trans (BEq.symm hlike) (h.own _ hmem)
  · intro hid
    obtain rfl : found = s :=
      Option.some.inj (hfound.symm.trans (h.get?_of_alike hs (BEq.symm hid)))
    simp

theorem Filed.unlevelled_of_mem (h : Filed table) {s : Section} (hs : s ∈ sectionsOf table) :
    s.entry.hasOwn "level" = false := by
  obtain ⟨row, hrow, rfl⟩ := List.mem_map.mp hs
  exact h.unlevelled row hrow

theorem Filed.nodup (h : Filed table) : (sectionsOf table).Nodup := by
  refine List.Nodup.of_map Section.number ?_
  rw [sectionsOf, List.map_map]
  exact h.numbers

/-- A section lies right below one section at most. -/
theorem Filed.upper_unique (h : Filed table) {upper other s : Section}
    (hupper : upper ∈ sectionsOf table) (hother : other ∈ sectionsOf table)
    (hs : s ∈ childrenOf table upper) (hs' : s ∈ childrenOf table other) : upper = other := by
  refine h.eq_of_alike hupper hother ?_
  exact BEq.trans (BEq.symm (mem_childrenOf.mp hs).2.2) (mem_childrenOf.mp hs').2.2

/-! ### Depth -/

/-- The number of sections that a section lies below, if its links lead up to the top. -/
inductive Depth (table : Table Value Section) : Section → Nat → Prop
  | top {s : Section} : s ∈ sectionsOf table → isNested s = false → Depth table s 0
  | step {upper s : Section} {d : Nat} :
    Depth table upper d → s ∈ childrenOf table upper → Depth table s (d + 1)

/-- The links of a section lead up to one at the top. -/
def Rooted (table : Table Value Section) (s : Section) : Prop :=
  ∃ d, Depth table s d

theorem Depth.mem {s : Section} {d : Nat} (h : Depth table s d) : s ∈ sectionsOf table := by
  cases h with
  | top hs _ => exact hs
  | step _ hs => exact (mem_childrenOf.mp hs).1

theorem Depth.eq_zero {s : Section} {d : Nat} (h : Depth table s d) (hs : isNested s = false) :
    d = 0 := by
  cases h with
  | top _ _ => rfl
  | step _ hbelow => simp [(mem_childrenOf.mp hbelow).2.1] at hs

theorem Depth.not_nested {s : Section} (h : Depth table s 0) : isNested s = false := by
  cases h with
  | top _ hs => exact hs

/-- A section has one depth at most. -/
theorem Depth.unique (hfiled : Filed table) {s : Section} {d : Nat} (h : Depth table s d) :
    ∀ {e : Nat}, Depth table s e → d = e := by
  induction h with
  | top _ hs =>
      intro e he
      exact (he.eq_zero hs).symm
  | @step upper s d hupper hs ih =>
      intro e he
      cases he with
      | top _ hnot => simp [(mem_childrenOf.mp hs).2.1] at hnot
      | @step other _ e hother hs' =>
          obtain rfl := hfiled.upper_unique hupper.mem hother.mem hs hs'
          rw [ih hother]

/-- Above a section there is one at every smaller depth. -/
theorem Depth.exists_of_le {s : Section} {d : Nat} (h : Depth table s d) :
    ∀ i ≤ d, ∃ t, Depth table t i := by
  induction h with
  | @top s hs hnot =>
      intro i hi
      obtain rfl : i = 0 := by omega
      exact ⟨s, .top hs hnot⟩
  | @step upper s d hupper hs ih =>
      intro i hi
      rcases Nat.lt_or_eq_of_le hi with hlt | rfl
      · exact ih i (by omega)
      · exact ⟨s, .step hupper hs⟩

/-- No section is as deep as there are numbers for sections. -/
theorem Depth.lt (hfiled : Filed table) {arrivals : Nat}
    (hnumbers : ∀ row ∈ table, row.2.number < arrivals) {s : Section} {d : Nat}
    (h : Depth table s d) : d < arrivals := by
  choose held hheld using h.exists_of_le
  have hnumber : ∀ i hi, (held i hi).number < arrivals := by
    intro i hi
    obtain ⟨row, hrow, heq⟩ := List.mem_map.mp (hheld i hi).mem
    rw [← heq]
    exact hnumbers row hrow
  -- Sections of different depth have different numbers, so there are enough of them.
  let numberAt (i : Fin (d + 1)) : Fin arrivals :=
    ⟨(held i (by omega)).number, hnumber i (by omega)⟩
  have hinjective : Function.Injective numberAt := by
    intro i j hij
    have hsame := hfiled.eq_of_number (hheld i (by omega)).mem (hheld j (by omega)).mem
      (Fin.mk.inj hij)
    refine Fin.ext ((hheld i (by omega)).unique hfiled ?_)
    rw [hsame]
    exact hheld j (by omega)
  have hcard := Fintype.card_le_of_injective numberAt hinjective
  rw [Fintype.card_fin, Fintype.card_fin] at hcard
  omega

/-! ### Below a section at any depth -/

/-- A section is another one or lies below it, right below or further down. -/
inductive Under (table : Table Value Section) (top : Section) : Section → Prop
  | self : Under table top top
  | step {upper s : Section} :
    Under table top upper → s ∈ childrenOf table upper → Under table top s

theorem Under.mem {top s : Section} (h : Under table top s) (htop : top ∈ sectionsOf table) :
    s ∈ sectionsOf table := by
  cases h with
  | self => exact htop
  | step _ hs => exact (mem_childrenOf.mp hs).1

theorem Under.of_child {top child s : Section} (hchild : child ∈ childrenOf table top)
    (h : Under table child s) : Under table top s := by
  induction h with
  | self => exact .step .self hchild
  | step _ hs ih => exact .step ih hs

/-- What lies under a section is that one, or lies under one right below it. -/
theorem Under.eq_or_child {top s : Section} (h : Under table top s) :
    s = top ∨ ∃ child ∈ childrenOf table top, Under table child s := by
  induction h with
  | self => exact Or.inl rfl
  | @step upper s _ hs ih =>
      rcases ih with rfl | ⟨child, hchild, hunder⟩
      · exact Or.inr ⟨s, hs, .self⟩
      · exact Or.inr ⟨child, hchild, .step hunder hs⟩

/-- What lies under a section is deeper, unless it is that section. -/
theorem Under.depth {top s : Section} {d : Nat} (h : Under table top s) (hd : Depth table top d) :
    s = top ∨ ∃ e, d < e ∧ Depth table s e := by
  induction h with
  | self => exact Or.inl rfl
  | step _ hs ih =>
      rcases ih with rfl | ⟨e, he, hdepth⟩
      · exact Or.inr ⟨d + 1, by omega, .step hd hs⟩
      · exact Or.inr ⟨e + 1, by omega, .step hdepth hs⟩

/-- A section lies under one section of a given depth at most. -/
theorem Under.unique (hfiled : Filed table) {top other s : Section} {d : Nat}
    (htop : Depth table top d) (hother : Depth table other d) (h : Under table top s)
    (h' : Under table other s) : top = other := by
  induction h with
  | self =>
      rcases h'.depth hother with rfl | ⟨e, he, hdepth⟩
      · rfl
      · have := htop.unique hfiled hdepth
        omega
  | @step upper s hupper hs ih =>
      cases h' with
      | self =>
          rcases (Under.step hupper hs).depth htop with rfl | ⟨e, he, hdepth⟩
          · rfl
          · have := hother.unique hfiled hdepth
            omega
      | @step upper' _ hupper' hs' =>
          obtain rfl := hfiled.upper_unique (hupper.mem htop.mem) (hupper'.mem hother.mem) hs hs'
          exact ih hupper'

/-- A section whose links lead up to the top lies under one at the top. -/
theorem Rooted.exists_top {s : Section} (h : Rooted table s) :
    ∃ top, Depth table top 0 ∧ Under table top s := by
  obtain ⟨d, hd⟩ := h
  induction hd with
  | @top s hs hnot => exact ⟨s, .top hs hnot, .self⟩
  | step _ hs ih =>
      obtain ⟨top, htop, hunder⟩ := ih
      exact ⟨top, htop, .step hunder hs⟩

/-! ### Circles -/

/-- Every nested section lies below one that is there. -/
def Linked (table : Table Value Section) : Prop :=
  ∀ s ∈ sectionsOf table, isNested s = true →
    ∃ upper ∈ sectionsOf table, s ∈ childrenOf table upper

/-- The links of a section lead back to it. -/
def Circular (table : Table Value Section) (s : Section) : Prop :=
  s ∈ sectionsOf table ∧ ∃ child ∈ childrenOf table s, Under table child s

/-- If the links of a section lead up to the top, so do those of every section it lies under. -/
theorem Under.rooted (hfiled : Filed table) {top s : Section} (h : Under table top s)
    (htop : top ∈ sectionsOf table) (hs : Rooted table s) : Rooted table top := by
  induction h with
  | self => exact hs
  | @step upper s hupper hbelow ih =>
      obtain ⟨d, hd⟩ := hs
      cases hd with
      | top _ hnot => simp [(mem_childrenOf.mp hbelow).2.1] at hnot
      | @step other _ d hother hbelow' =>
          obtain rfl := hfiled.upper_unique (hupper.mem htop) hother.mem hbelow hbelow'
          exact ih ⟨d, hother⟩

theorem Circular.not_rooted (hfiled : Filed table) {s : Section} (h : Circular table s) :
    ¬Rooted table s := by
  rintro ⟨d, hd⟩
  obtain ⟨-, child, hchild, hunder⟩ := h
  have hdeeper : Depth table child (d + 1) := .step hd hchild
  rcases hunder.depth hdeeper with rfl | ⟨e, he, hdepth⟩
  · have := hd.unique hfiled hdeeper
    omega
  · have := hd.unique hfiled hdepth
    omega

/-- Links that do not lead up to the top lead to a circle. -/
theorem exists_circular (hlinked : Linked table) {s : Section} (hs : s ∈ sectionsOf table)
    (h : ¬Rooted table s) : ∃ circle, Circular table circle ∧ Under table circle s := by
  let Lost := { t : Section // t ∈ sectionsOf table ∧ ¬Rooted table t }
  have hupper : ∀ t : Lost, ∃ upper : Lost, t.1 ∈ childrenOf table upper.1 := by
    rintro ⟨t, ht, hlost⟩
    have hnested : isNested t = true := by
      cases hnested : isNested t with
      | true => rfl
      | false => exact absurd ⟨0, .top ht hnested⟩ hlost
    obtain ⟨upper, hmem, hbelow⟩ := hlinked t ht hnested
    refine ⟨⟨upper, hmem, ?_⟩, hbelow⟩
    rintro ⟨d, hd⟩
    exact hlost ⟨d + 1, .step hd hbelow⟩
  choose up hup using hupper
  -- Going up again and again, one comes to a section twice, since there are only so many.
  let climb (n : Nat) : Lost := up^[n] ⟨s, hs, h⟩
  have hclimb (n : Nat) : (climb n).1 ∈ childrenOf table (climb (n + 1)).1 := by
    show _ ∈ childrenOf table (up^[n + 1] _).1
    rw [Function.iterate_succ_apply']
    exact hup _
  have hunder (n k : Nat) : Under table (climb (n + k)).1 (climb n).1 := by
    induction k with
    | zero => exact .self
    | succ k ih => exact ih.of_child (hclimb (n + k))
  have hmem (n : Nat) : (climb n).1 ∈ { t | t ∈ sectionsOf table } := (climb n).2.1
  obtain ⟨i, j, hlt, hsame⟩ :=
    (List.finite_toSet (sectionsOf table)).exists_lt_map_eq_of_forall_mem hmem
  obtain ⟨k, rfl⟩ : ∃ k, j = i + k + 1 := ⟨j - i - 1, by omega⟩
  refine ⟨(climb i).1, ⟨(climb i).2.1, (climb (i + k)).1, ?_, hunder i k⟩, ?_⟩
  · rw [hsame]
    exact hclimb (i + k)
  · have hstart := hunder 0 i
    rw [Nat.zero_add] at hstart
    exact hstart

/-! ### Walks -/

/-- A section at a level. -/
def atLevel (level : Nat) (s : Section) : Section :=
  { s with entry := s.entry.putOwn "level" (.number level) }

/-- A list of sections with everything below them, as a table shows it: each section stands before
those right below it, which come in the order of their titles and are one level further down. -/
inductive Walk (table : Table Value Section) :
    Nat → List (Value × Section) → Table Value Section → Prop
  | nil (level : Nat) : Walk table level [] []
  | cons {level : Nat} {id : Value} {s : Section} {children : List Section}
      {rest : List (Value × Section)} {branch others : Table Value Section} :
    Sorted (KeyNotAfter titleOf) (childrenOf table s) children →
    Walk table (level + 1) (children.map fun child => (idOf child, child)) branch →
    Walk table level rest others →
    Walk table level ((id, s) :: rest) ((id, atLevel level s) :: branch ++ others)

/-- Sections of a table at a depth, each with an identifier that is like its own. -/
def Tops (table : Table Value Section) (level : Nat) (tops : List (Value × Section)) : Prop :=
  ∀ top ∈ tops, Depth table top.2 level ∧ (top.1 == idOf top.2) = true

theorem Tops.children {level : Nat} {s : Section} (hs : Depth table s level)
    {children : List Section}
    (h : Sorted (KeyNotAfter titleOf) (childrenOf table s) children) :
    Tops table (level + 1) (children.map fun child => (idOf child, child)) := by
  intro top htop
  obtain ⟨child, hchild, rfl⟩ := List.mem_map.mp htop
  exact ⟨.step hs (h.perm.mem_iff.mp hchild), BEq.rfl⟩

theorem Walk.append {level : Nat} {tops more : List (Value × Section)}
    {rows others : Table Value Section} (h : Walk table level tops rows)
    (k : Walk table level more others) : Walk table level (tops ++ more) (rows ++ others) := by
  induction h with
  | nil => exact k
  | cons hsorted hbranch _ _ ih =>
      rw [List.append_assoc]
      exact .cons hsorted hbranch (ih k)

/-- Every row of a walk is a section under one of those it starts from, at the level of its depth.
-/
theorem Walk.row {level : Nat} {tops : List (Value × Section)} {rows : Table Value Section}
    (h : Walk table level tops rows) :
    Tops table level tops → ∀ row ∈ rows, ∃ top ∈ tops, ∃ s d,
      Under table top.2 s ∧ Depth table s d ∧ (row.1 == idOf s) = true ∧ row.2 = atLevel d s := by
  induction h with
  | nil =>
      intro _ row hrow
      simp at hrow
  | @cons level id s children rest branch others hsorted _ _ ihbranch ihrest =>
      intro htops row hrow
      obtain ⟨⟨hs, hid⟩, hrest⟩ := List.forall_mem_cons.mp htops
      rcases List.mem_append.mp hrow with hrow | hrow
      · refine ⟨(id, s), List.mem_cons_self, ?_⟩
        rcases List.mem_cons.mp hrow with rfl | hrow
        · exact ⟨s, level, .self, hs, hid, rfl⟩
        · obtain ⟨_, htop, t, d, hunder, ht⟩ := ihbranch (Tops.children hs hsorted) row hrow
          obtain ⟨child, hchild, rfl⟩ := List.mem_map.mp htop
          exact ⟨t, d, hunder.of_child (hsorted.perm.mem_iff.mp hchild), ht⟩
      · obtain ⟨top, htop, ht⟩ := ihrest hrest row hrow
        exact ⟨top, List.mem_cons_of_mem _ htop, ht⟩

/-- Every section under one that a walk starts from has a row. -/
theorem Walk.has {level : Nat} {tops : List (Value × Section)} {rows : Table Value Section}
    (h : Walk table level tops rows) :
    (∀ top ∈ tops, (top.1 == idOf top.2) = true) →
      ∀ top ∈ tops, ∀ s, Under table top.2 s → rows.has (idOf s) = true := by
  induction h with
  | nil =>
      intro _ top htop
      simp at htop
  | @cons level id s children rest branch others hsorted _ _ ihbranch ihrest =>
      intro htops top htop t ht
      obtain ⟨hid, hrest⟩ := List.forall_mem_cons.mp htops
      rw [Table.has_eq_any, List.any_append, List.any_cons, ← Table.has_eq_any,
        ← Table.has_eq_any]
      rcases List.mem_cons.mp htop with rfl | htop
      · rcases ht.eq_or_child with rfl | ⟨child, hchild, hunder⟩
        · simp [hid]
        · have := ihbranch ?_ (idOf child, child) ?_ t hunder
          · simp [this]
          · intro top htop
            obtain ⟨child, -, rfl⟩ := List.mem_map.mp htop
            exact BEq.rfl
          · exact List.mem_map.mpr ⟨child, hsorted.perm.mem_iff.mpr hchild, rfl⟩
      · simp [ihrest hrest top htop t ht]

/-- Two walks that start from different sections of one depth have no keys in common. -/
theorem Walk.unlike (hfiled : Filed table) {level : Nat} {tops more : List (Value × Section)}
    {rows others : Table Value Section} (h : Walk table level tops rows)
    (k : Walk table level more others) (htops : Tops table level tops)
    (hmore : Tops table level more) (hdiffer : ∀ a ∈ tops, ∀ b ∈ more, a.2 ≠ b.2) :
    ∀ row ∈ rows, ∀ other ∈ others, (row.1 == other.1) = false := by
  intro row hrow other hother
  obtain ⟨a, ha, s, d, hs, hdepth, hid, -⟩ := h.row htops row hrow
  obtain ⟨b, hb, t, e, ht, hdepth', hid', -⟩ := k.row hmore other hother
  cases hlike : row.1 == other.1 with
  | false => rfl
  | true =>
      obtain rfl : s = t := by
        refine hfiled.eq_of_alike hdepth.mem hdepth'.mem ?_
        exact BEq.trans (BEq.symm hid) (BEq.trans hlike hid')
      exact absurd (Under.unique hfiled (htops a ha).1 (hmore b hb).1 hs ht) (hdiffer a ha b hb)

/-- A walk lists no section twice if it does not start from one twice. -/
theorem Walk.distinct (hfiled : Filed table) {level : Nat} {tops : List (Value × Section)}
    {rows : Table Value Section} (h : Walk table level tops rows) :
    Tops table level tops → tops.Pairwise (fun a b => a.2 ≠ b.2) → Distinct rows.keys := by
  induction h with
  | nil =>
      intro _ _
      exact List.Pairwise.nil
  | @cons level id s children rest branch others hsorted hbranch hothers ihbranch ihrest =>
      intro htops hdiffer
      obtain ⟨⟨hs, hid⟩, hrest⟩ := List.forall_mem_cons.mp htops
      obtain ⟨hfirst, hdiffer⟩ := List.pairwise_cons.mp hdiffer
      have hchildren := Tops.children hs hsorted
      have hthis : Walk table level [(id, s)] ((id, atLevel level s) :: branch ++ []) :=
        .cons hsorted hbranch (.nil level)
      rw [List.append_nil] at hthis
      rw [Table.keys, List.map_append]
      refine List.pairwise_append.mpr ⟨?_, ihrest hrest hdiffer, ?_⟩
      · refine List.pairwise_cons.mpr ⟨?_, ihbranch hchildren ?_⟩
        · intro key hkey
          obtain ⟨row, hrow, rfl⟩ := List.mem_map.mp hkey
          obtain ⟨top, htop, t, d, hunder, hd, hkey, -⟩ := hbranch.row hchildren row hrow
          -- What lies below the section is deeper than it, so it is another one.
          have hdeeper : level < d := by
            rcases hunder.depth (hchildren top htop).1 with rfl | ⟨e, he, hdepth⟩
            · have := hd.unique hfiled (hchildren top htop).1
              omega
            · have := hd.unique hfiled hdepth
              omega
          cases hlike : id == row.1 with
          | false => rfl
          | true =>
              obtain rfl : s = t := by
                refine hfiled.eq_of_alike hs.mem hd.mem ?_
                exact BEq.trans (BEq.symm hid) (BEq.trans hlike hkey)
              have := hs.unique hfiled hd
              omega
        · refine List.pairwise_map.mpr ?_
          exact hsorted.perm.nodup_iff.mpr (hfiled.nodup.filter _)
      · intro key hkey key' hkey'
        obtain ⟨row, hrow, rfl⟩ := List.mem_map.mp hkey
        obtain ⟨row', hrow', rfl⟩ := List.mem_map.mp hkey'
        refine hthis.unlike hfiled hothers ?_ hrest ?_ row hrow row' hrow'
        · intro top htop
          obtain rfl : top = (id, s) := by simpa using htop
          exact ⟨hs, hid⟩
        · intro a ha b hb
          obtain rfl : a = (id, s) := by simpa using ha
          exact hfirst b hb

/-! ### The sections at the top -/

/-- The sections at the top that stand in an order, each under the identifier it has there. -/
def roots (table : Table Value Section) (ids : List Value) : List (Value × Section) :=
  ids.filterMap fun id => ((table.get? id).filter (!isNested ·)).map fun s => (id, s)

theorem mem_roots {ids : List Value} {top : Value × Section} :
    top ∈ roots table ids ↔
      top.1 ∈ ids ∧ table.get? top.1 = some top.2 ∧ isNested top.2 = false := by
  obtain ⟨id, s⟩ := top
  simp [roots, List.mem_filterMap, Option.filter_eq_some_iff]

theorem roots_append (ids more : List Value) :
    roots table (ids ++ more) = roots table ids ++ roots table more :=
  List.filterMap_append

theorem roots_tops (hfiled : Filed table) (ids : List Value) :
    Tops table 0 (roots table ids) := by
  intro top htop
  obtain ⟨-, hget, hnot⟩ := mem_roots.mp htop
  obtain ⟨k, hmem, hlike⟩ := Table.mem_of_get? hget
  refine ⟨.top (List.mem_map.mpr ⟨_, hmem, rfl⟩) hnot, ?_⟩
  exact BEq.trans (BEq.symm hlike) (hfiled.own _ hmem)

/-- An order that repeats no identifier has no section at the top twice. -/
theorem roots_differ (hfiled : Filed table) {ids : List Value} (h : Distinct ids) :
    (roots table ids).Pairwise fun a b => a.2 ≠ b.2 := by
  have hkeys : (roots table ids).Pairwise fun a b => (a.1 == b.1) = false := by
    refine List.Pairwise.filterMap _ ?_ h
    intro id other hunlike a ha b hb
    obtain ⟨_, -, rfl⟩ := Option.map_eq_some_iff.mp ha
    obtain ⟨_, -, rfl⟩ := Option.map_eq_some_iff.mp hb
    exact hunlike
  refine hkeys.imp_of_mem ?_
  intro a b ha hb hunlike hsame
  have hlike : (a.1 == b.1) = true := by
    refine BEq.trans (roots_tops hfiled ids a ha).2 ?_
    rw [hsame]
    exact BEq.symm (roots_tops hfiled ids b hb).2
  simp [hlike] at hunlike

theorem roots_singleton (hfiled : Filed table) {id : Value} {s : Section} (hs : Depth table s 0)
    (hid : (id == idOf s) = true) : roots table [id] = [(id, s)] := by
  simp [roots, hfiled.get?_of_alike hs.mem (BEq.symm hid), hs.not_nested]

/-- The sections at the top that an order leaves out, in the order of the table. -/
def leftOut (table : Table Value Section) (ids : List Value) : Table Value Section :=
  table.filter fun row => !isNested row.2 && !ids.contains row.1

theorem mem_leftOut {ids : List Value} {row : Value × Section} :
    row ∈ leftOut table ids ↔
      row ∈ table ∧ isNested row.2 = false ∧ ids.contains row.1 = false := by
  simp [leftOut]

/-- An order without identifiers leaves out every section at the top. -/
theorem has_leftOut_nil (hfiled : Filed table) {id : Value} {s : Section} (hs : Depth table s 0)
    (hid : (id == idOf s) = true) : (leftOut table []).has id = true := by
  obtain ⟨row, hrow, rfl⟩ := List.mem_map.mp hs.mem
  have hlike : (row.1 == id) = true := BEq.trans (hfiled.own row hrow) (BEq.symm hid)
  exact Table.has_iff.mpr ⟨row, mem_leftOut.mpr ⟨hrow, hs.not_nested, rfl⟩, hlike⟩

theorem erase_leftOut (ids : List Value) (id : Value) :
    (leftOut table ids).erase id = leftOut table (ids ++ [id]) := by
  rw [Table.erase, leftOut, leftOut, List.filter_filter]
  refine List.filter_congr fun row _ => ?_
  rw [List.contains_append, List.contains_cons, List.contains_nil, Bool.or_false, Bool.not_or]
  cases row.1 == id <;> simp

/-- The sections that an order leaves out are not listed by a walk along that order. -/
theorem Walk.unlike_leftOut (hfiled : Filed table) {ids : List Value}
    {rows : Table Value Section} (h : Walk table 0 (roots table ids) rows) :
    ∀ row ∈ leftOut table ids, ∀ other ∈ rows, (row.1 == other.1) = false := by
  intro row hrow other hother
  obtain ⟨hrow, hnot, hids⟩ := mem_leftOut.mp hrow
  obtain ⟨top, htop, s, d, hunder, hdepth, hkey, -⟩ := h.row (roots_tops hfiled ids) other hother
  cases hlike : row.1 == other.1 with
  | false => rfl
  | true =>
      -- Then it is the section itself that is listed, and under no other one at the top.
      have hmem : row.2 ∈ sectionsOf table := List.mem_map_of_mem hrow
      obtain rfl : row.2 = s := by
        refine hfiled.eq_of_alike hmem hdepth.mem ?_
        exact BEq.trans (BEq.symm (hfiled.own row hrow)) (BEq.trans hlike hkey)
      have hsame : top.2 = row.2 := Under.unique hfiled (roots_tops hfiled ids top htop).1
        (.top hmem hnot) hunder .self
      have hordered : ids.contains row.1 = true := by
        refine List.contains_iff_exists_mem_beq.mpr ⟨top.1, (mem_roots.mp htop).1, ?_⟩
        refine BEq.trans (hfiled.own row hrow) ?_
        rw [← hsame]
        exact BEq.symm (roots_tops hfiled ids top htop).2
      simp [hordered] at hids

/-- A walk along an order goes on with the next section of the order: that is taken from those left
out, and it is added at the end together with what lies below it. -/
theorem Walk.next (hfiled : Filed table) {done : List Value} {id : Value} {s : Section}
    {rows more : Table Value Section} (hdistinct : Distinct (done ++ [id])) (hs : Depth table s 0)
    (hid : (id == idOf s) = true) (hrows : Walk table 0 (roots table done) rows)
    (hmore : Walk table 0 [(id, s)] more) :
    Walk table 0 (roots table (done ++ [id])) (rows ++ more)
    ∧ (Table.erase (leftOut table done ++ rows) id).setAll more
        = leftOut table (done ++ [id]) ++ (rows ++ more) := by
  have hwalk : Walk table 0 (roots table (done ++ [id])) (rows ++ more) := by
    rw [roots_append, roots_singleton hfiled hs hid]
    exact hrows.append hmore
  have hkeys : Distinct (Table.keys (rows ++ more)) :=
    hwalk.distinct hfiled (roots_tops hfiled _) (roots_differ hfiled hdistinct)
  have hnew : rows.has id = false := by
    rw [Table.has_eq_any, List.any_eq_false]
    intro row hrow hlike
    obtain ⟨other, hother, hkey⟩ := Table.has_iff.mp
      (hmore.has (by simpa using hid) (id, s) (by simp) s .self)
    rw [Table.keys, List.map_append] at hkeys
    have hunlike := (List.pairwise_append.mp hkeys).2.2 row.1 (List.mem_map_of_mem hrow) other.1
      (List.mem_map_of_mem hother)
    simp [BEq.trans hlike (BEq.trans hid (BEq.symm hkey))] at hunlike
  refine ⟨hwalk, ?_⟩
  rw [Table.erase, List.filter_append, ← Table.erase, ← Table.erase, erase_leftOut,
    Table.erase_of_not_has hnew, Table.setAll_eq_append, List.append_assoc]
  rw [List.append_assoc, Table.keys, List.map_append]
  refine List.pairwise_append.mpr ⟨?_, hkeys, ?_⟩
  · exact (hfiled.distinct).sublist (List.filter_sublist.map _)
  · intro key hkey other hother
    obtain ⟨row, hrow, rfl⟩ := List.mem_map.mp hkey
    obtain ⟨row', hrow', rfl⟩ := List.mem_map.mp hother
    exact hwalk.unlike_leftOut hfiled row hrow row' hrow'

end PluginHelp.Page
