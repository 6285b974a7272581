/-
Sections are numbered among those that lie below the same one.

In the outline of a page, what comes after a section and before the next one that lies as high are the
sections under it.  So between two sections below the same one there is none that lies higher, and
between two sections of one level that lie below different ones there is: the later one comes after the
section that it lies below, and the earlier one before that.  What has been seen of the level of a
section are therefore those that lie below the same one as it does, and its rank is its place among
them.
-/
import PluginHelp.Proofs.Help.Numbering
import PluginHelp.Proofs.Page.Holding

namespace PluginHelp.Page

open Entry Help

/-! ### Sections below the same one -/

/-- Whether two sections lie below the same one, or both lie at the top. -/
def siblings (s t : Section) : Bool :=
  isNested s == isNested t && (!isNested s || parentOf s == parentOf t)

variable {table : Table Value Section}

theorem siblings_atLevel (d e : Nat) (s t : Section) :
    siblings (atLevel d s) (atLevel e t) = siblings s t := by
  rw [siblings, isNested_atLevel, isNested_atLevel, parentOf_atLevel, parentOf_atLevel, siblings]

theorem siblings_of_not_nested {s t : Section} (hs : isNested s = false) (ht : isNested t = false) :
    siblings s t = true := by
  simp [siblings, hs, ht]

/-- Sections right below one are siblings. -/
theorem siblings_of_children {upper s t : Section} (hs : s ∈ childrenOf table upper)
    (ht : t ∈ childrenOf table upper) : siblings s t = true := by
  obtain ⟨-, hs, hsupper⟩ := mem_childrenOf.mp hs
  obtain ⟨-, ht, htupper⟩ := mem_childrenOf.mp ht
  simp [siblings, hs, ht, BEq.trans hsupper (BEq.symm htupper)]

/-- Siblings lie at the top, or right below one section. -/
theorem upper_of_siblings (hfiled : Filed table) {s t : Section} {d e : Nat} (hs : Depth table s d)
    (ht : Depth table t e) (h : siblings s t = true) :
    (d = 0 ∧ e = 0) ∨ ∃ upper, ∃ n, d = n + 1 ∧ e = n + 1 ∧ Depth table upper n
      ∧ s ∈ childrenOf table upper ∧ t ∈ childrenOf table upper := by
  obtain ⟨hnested, hparent⟩ := Bool.and_eq_true_iff.mp h
  replace hnested : isNested s = isNested t := by simpa using hnested
  cases hs with
  | top _ hnot => exact Or.inl ⟨rfl, ht.eq_zero (hnested ▸ hnot)⟩
  | @step upper _ d hupper hbelow =>
      have hsnested := (mem_childrenOf.mp hbelow).2.1
      rw [hsnested, Bool.not_true, Bool.false_or] at hparent
      cases ht with
      | top _ hnot => simp [← hnested, hsnested] at hnot
      | @step other _ e hother hbelow' =>
          obtain rfl : upper = other := by
            refine hfiled.eq_of_alike hupper.mem hother.mem ?_
            exact BEq.trans (BEq.symm (mem_childrenOf.mp hbelow).2.2)
              (BEq.trans hparent (mem_childrenOf.mp hbelow').2.2)
          obtain rfl := hupper.unique hfiled hother
          exact Or.inr ⟨upper, d, rfl, rfl, hupper, hbelow, hbelow'⟩

theorem depth_eq_of_siblings (hfiled : Filed table) {s t : Section} {d e : Nat}
    (hs : Depth table s d) (ht : Depth table t e) (h : siblings s t = true) : d = e := by
  rcases upper_of_siblings hfiled hs ht h with ⟨rfl, rfl⟩ | ⟨_, _, rfl, rfl, -⟩
  · rfl
  · rfl

theorem levelOf_atLevel (level : Nat) (s : Section) : levelOf (atLevel level s).entry = level := by
  rw [levelOf, atLevel, own?_putOwn_self]
  rfl

theorem not_siblings_of_ne (hfiled : Filed table) {s t : Section} {d e : Nat} (hs : Depth table s d)
    (ht : Depth table t e) (hne : d ≠ e) : siblings s t = false := by
  rw [← Bool.not_eq_true]
  exact fun hsiblings => hne (depth_eq_of_siblings hfiled hs ht hsiblings)

/-- Sections under different ones of one depth, and deeper than those, do not lie below the same one. -/
theorem not_siblings_of_under (hfiled : Filed table) {top other s t : Section} {level d e : Nat}
    (htop : Depth table top level) (hother : Depth table other level) (hdiffer : top ≠ other)
    (hs : Under table top s) (ht : Under table other t) (hd : Depth table s d)
    (he : Depth table t e) (hlt : level < d) : siblings s t = false := by
  rw [← Bool.not_eq_true]
  intro hsiblings
  obtain rfl := depth_eq_of_siblings hfiled hd he hsiblings
  rcases upper_of_siblings hfiled hd he hsiblings with ⟨rfl, -⟩ | ⟨upper, n, -, -, hupper, hsb, htb⟩
  · omega
  · -- The section that both lie below would lie under both.
    have habove {top s : Section} (htop : Depth table top level) (hs : Under table top s)
        (hd : Depth table s d) (hsb : s ∈ childrenOf table upper) : Under table top upper := by
      cases hs with
      | self =>
          have := htop.unique hfiled hd
          omega
      | @step found _ hfound hbelow =>
          obtain rfl := hfiled.upper_unique (hfound.mem htop.mem) hupper.mem hbelow hsb
          exact hfound
    exact hdiffer
      (Under.unique hfiled htop hother (habove htop hs hd hsb) (habove hother ht he htb))

/-! ### The levels of a walk -/

/-- The levels of the rows of a table, the last one first. -/
def rowLevelsBack (rows : Table Value Section) : List Int :=
  levelsBack (rows.map (·.2.entry))

theorem rowLevelsBack_append (rows more : Table Value Section) :
    rowLevelsBack (rows ++ more) = rowLevelsBack more ++ rowLevelsBack rows := by
  simp [rowLevelsBack, levelsBack]

theorem rowLevelsBack_cons (row : Value × Section) (rows : Table Value Section) :
    rowLevelsBack (row :: rows) = rowLevelsBack rows ++ [levelOf row.2.entry] := by
  simp [rowLevelsBack, levelsBack]

theorem mem_rowLevelsBack {rows : Table Value Section} {level : Int} :
    level ∈ rowLevelsBack rows ↔ ∃ row ∈ rows, levelOf row.2.entry = level := by
  simp [rowLevelsBack, levelsBack]

/-- A row of a walk is one of the sections it starts from, or it lies deeper. -/
theorem Walk.depth_row {level : Nat} {tops : List (Value × Section)} {rows : Table Value Section}
    (h : Walk table level tops rows) (htops : Tops table level tops) (hfiled : Filed table) :
    ∀ row ∈ rows, ∃ top ∈ tops, ∃ s d, Under table top.2 s ∧ Depth table s d
      ∧ row.2 = atLevel d s ∧ (s = top.2 ∧ d = level ∨ level < d) := by
  intro row hrow
  obtain ⟨top, htop, s, d, hunder, hdepth, -, hheld⟩ := h.row htops row hrow
  refine ⟨top, htop, s, d, hunder, hdepth, hheld, ?_⟩
  have htopDepth := (htops top htop).1
  rcases hunder.depth htopDepth with rfl | ⟨e, he, hdeeper⟩
  · exact Or.inl ⟨rfl, hdepth.unique hfiled htopDepth⟩
  · obtain rfl := hdepth.unique hfiled hdeeper
    exact Or.inr he

theorem Walk.levelOf_first {level : Nat} {tops : List (Value × Section)} {row : Value × Section}
    {rows more : Table Value Section} (h : Walk table level tops rows) (hrows : rows = row :: more) :
    levelOf row.2.entry = level := by
  cases h with
  | nil => cases hrows
  | cons _ _ _ =>
      obtain ⟨rfl, -⟩ := List.cons.inj hrows
      exact levelOf_atLevel level _

/-- A branch: sections under one, all deeper than that. -/
def Branch (table : Table Value Section) (level : Nat) (s : Section) (branch : Table Value Section) :
    Prop :=
  ∀ row ∈ branch, ∃ t d, Under table s t ∧ Depth table t d ∧ row.2 = atLevel d t ∧ level < d

theorem branch_of_walk (hfiled : Filed table) {level : Nat} {s : Section} {children : List Section}
    {branch : Table Value Section} (hs : Depth table s level)
    (hsorted : Sorting.Sorted (KeyNotAfter titleOf) (childrenOf table s) children)
    (h : Walk table (level + 1) (children.map fun child => (idOf child, child)) branch) :
    Branch table level s branch := by
  intro row hrow
  obtain ⟨_, htop, t, d, hunder, hdepth, hheld, hd⟩ :=
    h.depth_row (Tops.children hs hsorted) hfiled row hrow
  obtain ⟨child, hchild, rfl⟩ := List.mem_map.mp htop
  exact ⟨t, d, hunder.of_child (hsorted.perm.mem_iff.mp hchild), hdepth, hheld, by omega⟩

/-- A row behind a section and its branch has seen of both only the section, and that only if it lies as
high. -/
theorem Branch.seen_behind (hfiled : Filed table) {level : Nat} {id : Value} {s : Section}
    {branch others more back : Table Value Section} {rest : List (Value × Section)}
    {row : Value × Section} (h : Branch table level s branch) (hs : Depth table s level)
    (hothers : Walk table level rest others) (hrest : Tops table level rest)
    (hdiffer : ∀ b ∈ rest, s ≠ b.2) (hsame : ∀ b ∈ rest, siblings s b.2 = true)
    (hmore : others = more ++ row :: back) :
    seen (levelOf row.2.entry) (rowLevelsBack ((id, atLevel level s) :: branch ++ more))
      = List.countP (fun earlier => siblings earlier.2 row.2) ((id, atLevel level s) :: branch)
        + seen (levelOf row.2.entry) (rowLevelsBack more) := by
  have hdepths := hothers.depth_row hrest hfiled
  obtain ⟨top, htop, t, d, hunder, hd, hheld, hlevel⟩ := hdepths row (by simp [hmore])
  rw [hheld, levelOf_atLevel, List.countP_cons, siblings_atLevel, rowLevelsBack_append,
    rowLevelsBack_cons, levelOf_atLevel]
  rcases hlevel with ⟨rfl, rfl⟩ | hlt
  · have hmoreLevels : ∀ x ∈ rowLevelsBack more, (d : Int) ≤ x := by
      intro x hx
      obtain ⟨other, hother, rfl⟩ := mem_rowLevelsBack.mp hx
      obtain ⟨-, -, u, e, -, -, hsame, ⟨-, rfl⟩ | he⟩ := hdepths other (by simp [hmore, hother])
      · rw [hsame, levelOf_atLevel]
      · rw [hsame, levelOf_atLevel]
        omega
    have hbranchLevels : ∀ x ∈ rowLevelsBack branch, (d : Int) < x := by
      intro x hx
      obtain ⟨other, hother, rfl⟩ := mem_rowLevelsBack.mp hx
      obtain ⟨u, e, -, -, hsame, he⟩ := h other hother
      rw [hsame, levelOf_atLevel]
      omega
    have hbranch : List.countP (fun earlier => siblings earlier.2 (atLevel d top.2)) branch = 0 := by
      refine List.countP_eq_zero.mpr fun other hother => ?_
      obtain ⟨u, e, -, hu, hsame, he⟩ := h other hother
      rw [hsame, siblings_atLevel, not_siblings_of_ne hfiled hu hd (by omega)]
      decide
    have hnone : (rowLevelsBack branch).count (d : Int) = 0 := by
      refine List.count_eq_zero.mpr fun hmem => ?_
      exact absurd (hbranchLevels _ hmem) (Int.lt_irrefl _)
    rw [seen_append_of_le hmoreLevels, seen_append_of_le fun x hx => Int.le_of_lt (hbranchLevels x hx),
      hnone, hbranch, hsame top htop]
    have hmoreSeen := seen_append_of_le hmoreLevels []
    rw [List.append_nil, seen_nil] at hmoreSeen
    rw [hmoreSeen, seen_cons_of_le (Int.le_refl _), seen_nil]
    simp [Nat.add_comm]
  · have hhigher : ∃ x ∈ rowLevelsBack more, x < (d : Int) := by
      cases more with
      | nil =>
          have hfirst := hothers.levelOf_first hmore
          rw [hheld, levelOf_atLevel] at hfirst
          omega
      | cons first more =>
          refine ⟨levelOf first.2.entry, mem_rowLevelsBack.mpr ⟨first, List.mem_cons_self, rfl⟩, ?_⟩
          rw [hothers.levelOf_first hmore]
          omega
    have hbranch : List.countP (fun earlier => siblings earlier.2 (atLevel d t)) branch = 0 := by
      refine List.countP_eq_zero.mpr fun other hother => ?_
      obtain ⟨u, e, hu, hdepth, hsame, he⟩ := h other hother
      rw [hsame, siblings_atLevel, not_siblings_of_under hfiled hs (hrest top htop).1
        (hdiffer top htop) hu hunder hdepth hd he]
      decide
    rw [seen_append_of_lt hhigher, hbranch, not_siblings_of_ne hfiled hs hd (by omega)]
    simp

theorem siblings_children {upper : Section} {children : List Section}
    (h : Sorting.Sorted (KeyNotAfter titleOf) (childrenOf table upper) children) :
    ∀ a ∈ children.map (fun child => (idOf child, child)),
      ∀ b ∈ children.map (fun child => (idOf child, child)), siblings a.2 b.2 = true := by
  intro a ha b hb
  obtain ⟨child, hchild, rfl⟩ := List.mem_map.mp ha
  obtain ⟨other, hother, rfl⟩ := List.mem_map.mp hb
  exact siblings_of_children (h.perm.mem_iff.mp hchild) (h.perm.mem_iff.mp hother)

theorem children_differ (hfiled : Filed table) {upper : Section} {children : List Section}
    (h : Sorting.Sorted (KeyNotAfter titleOf) (childrenOf table upper) children) :
    (children.map fun child => (idOf child, child)).Pairwise fun a b => a.2 ≠ b.2 :=
  List.pairwise_map.mpr (h.perm.nodup_iff.mpr (hfiled.nodup.filter _))

theorem split_of_append {α : Type} {front back left right : List α} {a : α}
    (h : left ++ right = front ++ a :: back) :
    (∃ rest, left = front ++ a :: rest) ∨ ∃ more, front = left ++ more ∧ right = more ++ a :: back := by
  rcases List.append_eq_append_iff.mp h with ⟨more, hfront, hright⟩ | ⟨rest, hleft, hrest⟩
  · exact Or.inr ⟨more, hfront, hright⟩
  · cases rest with
    | nil => exact Or.inr ⟨[], by simpa using hleft.symm, by simpa using hrest.symm⟩
    | cons b rest =>
        obtain ⟨rfl, -⟩ := List.cons.inj hrest
        exact Or.inl ⟨rest, hleft⟩

/-- The rows before a row of a walk that lie below the same section as it does are those that have been
seen of its level. -/
theorem Walk.seen_eq (hfiled : Filed table) {level : Nat} {tops : List (Value × Section)}
    {rows : Table Value Section} (h : Walk table level tops rows) :
    Tops table level tops → tops.Pairwise (fun a b => a.2 ≠ b.2) →
    (∀ a ∈ tops, ∀ b ∈ tops, siblings a.2 b.2 = true) →
    ∀ front row back, rows = front ++ row :: back →
      seen (levelOf row.2.entry) (rowLevelsBack front)
        = front.countP fun earlier => siblings earlier.2 row.2 := by
  induction h with
  | nil =>
      intro _ _ _ front row back hrows
      simp at hrows
  | @cons level id s children rest branch others hsorted hbranch hothers ihbranch ihrest =>
      intro htops hdiffer hsame front row back hrows
      obtain ⟨⟨hs, hid⟩, hrest⟩ := List.forall_mem_cons.mp htops
      obtain ⟨hfirst, hdiffer⟩ := List.pairwise_cons.mp hdiffer
      have hbelow := branch_of_walk hfiled hs hsorted hbranch
      rcases split_of_append hrows with ⟨after, hfront⟩ | ⟨more, rfl, hmore⟩
      · cases front with
        | nil => rfl
        | cons head front =>
            obtain ⟨rfl, hrow⟩ := List.cons.inj hfront
            obtain ⟨t, d, -, hd, hheld, hlt⟩ := hbelow row (by simp [hrow])
            have ih := ihbranch (Tops.children hs hsorted) (children_differ hfiled hsorted)
              (siblings_children hsorted) front row after hrow
            rw [rowLevelsBack_cons, List.countP_cons, ← ih, hheld, siblings_atLevel, levelOf_atLevel,
              levelOf_atLevel, seen_concat_of_lt (by omega),
              not_siblings_of_ne hfiled hs hd (by omega)]
            simp
      · have ih := ihrest hrest hdiffer
          (fun a ha b hb => hsame a (List.mem_cons_of_mem _ ha) b (List.mem_cons_of_mem _ hb))
          more row back hmore
        rw [hbelow.seen_behind hfiled hs hothers hrest hfirst
          (fun b hb => hsame (id, s) List.mem_cons_self b (List.mem_cons_of_mem _ hb)) hmore, ih,
          List.countP_append]

theorem siblings_roots {ids : List Value} :
    ∀ a ∈ roots table ids, ∀ b ∈ roots table ids, siblings a.2 b.2 = true := by
  intro a ha b hb
  exact siblings_of_not_nested (mem_roots.mp ha).2.2 (mem_roots.mp hb).2.2

/-! ### The table of contents of a closed page -/

/-- The place of a row among those that lie below the same section, counted from one. -/
def placeAmongSiblings (rows : Table Value Section) (i : Nat) (row : Value × Section) : Nat :=
  1 + (rows.take i).countP fun earlier => siblings earlier.2 row.2

/-- In an outline, every section can be numbered that has an identifier and a title. -/
theorem Walk.numberable {level : Nat} {tops : List (Value × Section)} {rows : Table Value Section}
    (h : Walk table level tops rows) (htops : Tops table level tops) (hfiled : Filed table)
    (hnamed : ∀ row ∈ rows, row.2.entry.hasOwn "id" = true ∧ row.2.entry.hasOwn "name" = true) :
    ∀ e ∈ rows.map (·.2.entry), Numberable e := by
  intro e he
  obtain ⟨row, hrow, rfl⟩ := List.mem_map.mp he
  obtain ⟨-, -, s, d, -, -, hheld, -⟩ := h.depth_row htops hfiled row hrow
  refine ⟨(hnamed row hrow).1, (hnamed row hrow).2, .number d, ?_, d, rfl⟩
  rw [hheld, atLevel, own?_putOwn_self]

/-- The sections of an outline are numbered by their places among those below the same section. -/
theorem Walk.number_eq (hfiled : Filed table) {level : Nat} {tops : List (Value × Section)}
    {rows : Table Value Section} (h : Walk table level tops rows) (htops : Tops table level tops)
    (hdiffer : tops.Pairwise fun a b => a.2 ≠ b.2)
    (hsame : ∀ a ∈ tops, ∀ b ∈ tops, siblings a.2 b.2 = true)
    (hnamed : ∀ row ∈ rows, row.2.entry.hasOwn "id" = true ∧ row.2.entry.hasOwn "name" = true) :
    number (rows.map (·.2.entry))
      = ⟨rows.mapIdx fun i row => (placeAmongSiblings rows i row, row.2.entry), none⟩ := by
  rw [number_seen (h.numberable htops hfiled hnamed)]
  congr 1
  refine List.ext_getElem? fun i => ?_
  rw [List.getElem?_mapIdx, List.getElem?_mapIdx, List.getElem?_map, Option.map_map]
  refine Option.map_congr fun row hrow => ?_
  obtain ⟨hi, rfl⟩ := List.getElem?_eq_some_iff.mp hrow
  have hsplit : rows = rows.take i ++ rows[i] :: rows.drop (i + 1) := by
    rw [List.getElem_cons_drop, List.take_append_drop]
  have hseen := h.seen_eq hfiled htops hdiffer hsame _ _ _ hsplit
  rw [Function.comp_apply, placeAmongSiblings, ← hseen, rowLevelsBack, List.map_take, Nat.add_comm]

/-- The sections of a page are numbered without a fault, each by its place among those below the same
section. -/
def NumberedByPlace (p : Page) : Prop :=
  number (p.sections.map (·.2.entry))
    = ⟨p.sections.mapIdx fun i row => (placeAmongSiblings p.sections i row, row.2.entry), none⟩

theorem numberedByPlace_of_closed {c : Context} (hbuilt : Built c) (hclose : (close c).result = .ok ())
    (hdistinct : Distinct ((close c).state.page.order.items?.getD []))
    (hnamed : ∀ row ∈ (close c).state.page.sections,
      row.2.entry.hasOwn "id" = true ∧ row.2.entry.hasOwn "name" = true) :
    NumberedByPlace (close c).state.page := by
  have hfiled : Filed (beforeOutline c).sections := (addKindSections_keeps c hbuilt.isOpen).1.filed
  have houtlined : Outlined (beforeOutline c) (close c).state.page :=
    (close_ensures hbuilt).of_ok (by rw [← hclose])
  exact (houtlined.walk hdistinct).number_eq hfiled (roots_tops hfiled _)
    (roots_differ hfiled hdistinct) siblings_roots hnamed

/-- The sections of a page that was built from well-formed entries have an identifier and a title. -/
theorem ClosedFrom.named {p q : Page} (h : ClosedFrom WellFormed p q) :
    ∀ row ∈ q.sections, row.2.entry.hasOwn "id" = true ∧ row.2.entry.hasOwn "name" = true := by
  intro row hrow
  obtain ⟨s, hs, level, -, hheld⟩ := h.row hrow
  obtain ⟨before, hbefore, rfl⟩ := List.mem_map.mp hs
  obtain ⟨hfits, hsect⟩ := h.holds.sections before hbefore
  rw [hheld, hasOwn_eq, hasOwn_eq, own?_atLevel level before.2 (by decide),
    own?_atLevel level before.2 (by decide), ← hasOwn_eq, ← hasOwn_eq]
  exact ⟨hfits.fits.identified hsect, (hfits.fits.titled hsect).1⟩

/--
**A section is numbered by its place among the sections that lie below the same one.**

Any sections that have an identifier, a title and a level are numbered without a fault, one after the
other, each by its rank: one more than the number of earlier sections of its level with none in between
that lies higher.  In the outline of a closed page whose order repeats nothing, these are the earlier
sections that lie below the same one.  If well-formed entries were merged into the page, as all are
that are read from files, its sections have what is needed.
-/
theorem numbered_by_rank (sections : List Entry) (c : Context) :
    ((∀ e ∈ sections, Numberable e) →
      number sections = ⟨sections.mapIdx fun i e => (rank (levelAt sections) i, e), none⟩)
    ∧ (Built c → (close c).result = .ok () →
        Distinct ((close c).state.page.order.items?.getD []) →
        (∀ row ∈ (close c).state.page.sections,
          row.2.entry.hasOwn "id" = true ∧ row.2.entry.hasOwn "name" = true) →
        NumberedByPlace (close c).state.page)
    ∧ (BuiltFrom WellFormed c → (close c).result = .ok () →
        Distinct ((close c).state.page.order.items?.getD []) →
        NumberedByPlace (close c).state.page) := by
  refine ⟨number_ranks, numberedByPlace_of_closed, ?_⟩
  intro hbuilt hclose hdistinct
  have hunlevelled : ∀ e : Entry, e.WellFormed → e.hasOwn "level" = false :=
    fun _ he => he.unlevelled
  have hclosed := hbuilt.closed wellFormed_placeable hunlevelled hclose
  exact numberedByPlace_of_closed (hbuilt.built hunlevelled) hclose hdistinct hclosed.named

/-- Levels may be left out on the way down.  Of two sections below the same one the second gets number
two, also if something lies below the first. -/
theorem numbered_by_rank_nested :
    let leveled (n : Nat) : Entry := (newSection "part" "Part").putOwn "level" (.number n)
    let sections := [leveled 2, leveled 1, leveled 3, leveled 1, leveled 0, leveled 1]
    let c := ofFile "demo" ["\"\" @section Intro\n", "\n",
      "\"\" @section Usage\n", "\" @parentsection intro\n", "\n",
      "\"\" @section About this\n", "\" @parentsection intro\n", "\n",
      "\"\" @section Details\n", "\" @parentsection about-this\n", "\n"]
    ((number sections).items.map (·.1) = [1, 1, 1, 2, 1, 1]
      ∧ number sections = ⟨sections.mapIdx fun i e => (rank (levelAt sections) i, e), none⟩)
    ∧ (close c).result = .ok ()
    ∧ (number ((close c).state.page.sections.map (·.2.entry))).items.map
          (fun numbered => (numbered.1, numbered.2.ownD "name"))
        = [(1, .text "Intro"), (1, .text "About this"), (1, .text "Details"), (2, .text "Usage")]
    ∧ (∀ row ∈ (close c).state.page.sections,
        row.2.entry.hasOwn "id" = true ∧ row.2.entry.hasOwn "name" = true)
    ∧ NumberedByPlace (close c).state.page := by
  intro leveled sections c
  have hnumberable (n : Nat) : Numberable (leveled n) :=
    ⟨rfl, rfl, .number n, own?_putOwn_self _ _ _, n, rfl⟩
  have hbuilt : BuiltFrom WellFormed c :=
    (BuiltFrom.start _ _).merge_each _ (Source.entries_wellFormed none _)
  obtain ⟨hclose, horder, hnamed, hitems⟩ : (close c).result = .ok ()
      ∧ (close c).state.page.order = .list [.text "intro"]
      ∧ (∀ row ∈ (close c).state.page.sections,
          row.2.entry.hasOwn "id" = true ∧ row.2.entry.hasOwn "name" = true)
      ∧ (number ((close c).state.page.sections.map (·.2.entry))).items.map
          (fun numbered => (numbered.1, numbered.2.ownD "name"))
        = [(1, .text "Intro"), (1, .text "About this"), (1, .text "Details"), (2, .text "Usage")] := by
    decide +kernel
  refine ⟨⟨by decide +kernel, (numbered_by_rank sections c).1 ?_⟩, hclose, hitems, hnamed, ?_⟩
  · simp [sections, hnumberable]
  · clear_value c
    have hdistinct : Distinct ((close c).state.page.order.items?.getD []) := by
      rw [horder]
      exact List.pairwise_singleton _ _
    exact (numbered_by_rank sections c).2.2 hbuilt hclose hdistinct

end PluginHelp.Page
