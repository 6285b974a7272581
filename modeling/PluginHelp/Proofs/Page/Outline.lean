/-
What an outline makes of the sections of a page.

A page first notes which sections lie below which and takes the nested ones out of its table.  Then
it goes along its order.  A section of the order is moved to the end of the table, and everything
below it is put after it: what is added is a walk from that section.

`AddedAll` says what going along the order can do, and all else follows from that by induction.  It
keeps `Progress`: each row is still to come or was brought by what is done, everything that lies under
the sections done so far is there, and as long as the order repeats nothing the table consists of the
sections at the top that are still to come and of a walk along what is done.  No branch is as deep
as there are sections, so the depth that is allowed for is never used up.
-/
import PluginHelp.Proofs.Entry.Frame
import PluginHelp.Proofs.Page.Forest

namespace PluginHelp.Page

open Act Entry Sorting

/-! ### Levels -/

section

variable (level : Nat) (s : Section)

theorem own?_atLevel {control : String} (h : "level" ≠ control) :
    (atLevel level s).entry.own? control = s.entry.own? control :=
  own?_putOwn_of_ne _ _ h

theorem idOf_atLevel : idOf (atLevel level s) = idOf s := by
  rw [idOf, ownD, own?_atLevel level s (by decide), idOf, ownD]

theorem needOwn_atLevel : (atLevel level s).entry.needOwn "id" = s.entry.needOwn "id" := by
  rw [needOwn, own?_atLevel level s (by decide), needOwn]

theorem parentOf_atLevel : parentOf (atLevel level s) = parentOf s := by
  rw [parentOf, ownD, own?_atLevel level s (by decide), parentOf, ownD]

theorem isNested_atLevel : isNested (atLevel level s) = isNested s := by
  rw [isNested, parentOf_atLevel, isNested]

theorem withLevel_atLevel : withLevel (atLevel level s) = atLevel level s := by
  have hlevel : (atLevel level s).entry.hasOwn "level" = true :=
    congrArg Option.isSome (own?_putOwn_self s.entry "level" (.number level))
  rw [withLevel, if_pos hlevel]

theorem oneLevelBelow_atLevel (child : Section) :
    oneLevelBelow (atLevel level s) child = .ok (atLevel (level + 1) child) := by
  have hlevel : (atLevel level s).entry.ownD "level" = .number level := by
    rw [ownD, atLevel, own?_putOwn_self]
    rfl
  rw [oneLevelBelow, hlevel]
  rfl

end

theorem withLevel_of_unlevelled {s : Section} (h : s.entry.hasOwn "level" = false) :
    withLevel s = atLevel 0 s := by
  rw [withLevel, h]
  rfl

theorem needOwn_eq_ok {e : Entry} {control : String} {value : Value}
    (h : e.needOwn control = .ok value) : e.ownD control = value := by
  unfold needOwn at h
  split at h
  · rename_i held hheld
    rw [ownD, hheld]
    exact Except.ok.inj h
  · simp at h

/-! ### Causes -/

/-- Any cause but that something lies too deep. -/
abbrev NotTooDeep (cause : Cause) : Prop :=
  cause ≠ .tooDeep

theorem notTooDeep_of_entry {cause : Cause} (h : cause.OfEntry) : NotTooDeep cause := by
  rintro rfl
  exact h

theorem titleOf_covers (s : Section) : Covers NotTooDeep (titleOf s) :=
  (needOwn_covers _ _).mono fun _ => notTooDeep_of_entry

/-! ### Branches -/

/-- What is noted about nested sections is what the table says. -/
def Attached (table : Table Value Section) (p : Page) : Prop :=
  ∀ upper ∈ sectionsOf table,
    (p.attached.filter (·.1 == upper.number)).map (·.2) = childrenOf table upper

variable {table : Table Value Section} {allowed : Cause → Prop}

/-- Following the links of a table downwards fails for allowed causes only. -/
structure Followable (table : Table Value Section) (allowed : Cause → Prop) : Prop where
  sorted : ∀ upper ∈ sectionsOf table,
    Covers allowed (sortByValue titleOf (childrenOf table upper))
  identified : ∀ s ∈ sectionsOf table, Covers allowed (s.entry.needOwn "id")

theorem followable_notTooDeep (table : Table Value Section) : Followable table NotTooDeep where
  sorted _ _ := sortByValue_covers titleOf_covers (by decide) _
  identified _ _ := (needOwn_covers _ _).mono fun _ => notTooDeep_of_entry

/-- Adding a section and what lies below it adds a walk from that section. -/
theorem addBranch_ensures (hfollow : Followable table allowed) (depth : Nat) :
    ∀ {level : Nat} {id : Value} {s held : Section} {p : Page}, Attached table p →
      Depth table s level → withLevel held = atLevel level s →
      (∀ t d, Depth table t d → d < level + depth) →
      Ensures (addBranch depth id held) p
        (fun _ q => ∃ rows, Walk table level [(id, s)] rows
          ∧ q = { p with sections := p.sections.setAll rows }) allowed := by
  induction depth with
  | zero =>
      intro level id s held p _ hs _ hdepth
      have := hdepth s level hs
      omega
  | succ depth ih =>
      intro level id s held p hattached hs hheld hdepth
      rw [addBranch, hheld]
      have hbelow (sections : Table Value Section) :
          below { p with sections } (atLevel level s)
            = sortByValue titleOf (childrenOf table s) := by
        rw [below, ← hattached s hs.mem]
        rfl
      refine Ensures.modify_bind (Ensures.get_bind (Ensures.ofExcept_bind ?_ ?_))
      · rw [hbelow]
        exact hfollow.sorted s hs.mem
      · intro children hchildren
        rw [hbelow] at hchildren
        have hsorted : Sorted (KeyNotAfter titleOf) (childrenOf table s) children :=
          sortByValue_sorted hchildren
        refine (Ensures.each (fun done q => ∃ rows,
          Walk table (level + 1) (done.map fun child => (idOf child, child)) rows
          ∧ q = { p with sections := (p.sections.set id (atLevel level s)).setAll rows })
          ⟨[], .nil _, rfl⟩ ?_).mono ?_
        · rintro done child rest _ hsplit ⟨rows, hrows, rfl⟩
          have hchild : child ∈ childrenOf table s := by
            refine hsorted.perm.mem_iff.mp ?_
            rw [hsplit]
            simp
          rw [oneLevelBelow_atLevel]
          refine Ensures.ofExcept_bind (Covers.ok _) ?_
          rintro _ ⟨⟩
          refine Ensures.ofExcept_bind ?_ ?_
          · rw [needOwn_atLevel]
            exact hfollow.identified child (mem_childrenOf.mp hchild).1
          intro childId hid
          obtain rfl : idOf child = childId := by
            rw [← needOwn_eq_ok hid, ← idOf_atLevel (level + 1) child]
            rfl
          refine (ih ?_ (.step hs hchild) (withLevel_atLevel _ _) ?_).mono ?_
          · exact hattached
          · intro t d ht
            have := hdepth t d ht
            omega
          · rintro _ q ⟨more, hmore, rfl⟩
            refine ⟨rows ++ more, ?_, ?_⟩
            · rw [List.map_append]
              exact hrows.append hmore
            · rw [Table.setAll_append]
        · rintro _ q ⟨rows, hrows, rfl⟩
          refine ⟨(id, atLevel level s) :: rows, ?_, rfl⟩
          have hwalk : Walk table level [(id, s)] ((id, atLevel level s) :: rows ++ []) :=
            .cons hsorted hrows (.nil level)
          rw [List.append_nil] at hwalk
          exact hwalk

/-! ### The order -/

/-- Under an identifier stands a section of the table whose links lead to the top.  If it has a
level, that is its depth. -/
def Stands (table : Table Value Section) (id : Value) (held : Section) : Prop :=
  ∃ s d, Depth table s d ∧ (id == idOf s) = true ∧ (held = s ∨ held = atLevel d s)

/-- Every row of a page holds a section of the table. -/
def Drawn (table rows : Table Value Section) : Prop :=
  ∀ row ∈ rows, Stands table row.1 row.2

/-- What an identifier of the order does to a page: nothing if there is no such section, and else it
moves the section to the end, followed by what lies below it. -/
inductive Added (table : Table Value Section) (id : Value) (p : Page) : Page → Prop
  | absent : p.sections.has id = false → Added table id p p
  | present {s : Section} {rows : Table Value Section} :
    Depth table s 0 → (id == idOf s) = true → Walk table 0 [(id, s)] rows →
    Added table id p { p with sections := (p.sections.erase id).setAll rows }

/-- A section of the order is added, unless it lies below another one and is there already. -/
theorem addOrdered_ensures (hfollow : Followable table allowed) (hfiled : Filed table) {p : Page}
    (hattached : Attached table p) (hdrawn : Drawn table p.sections)
    (hdepth : ∀ t d, Depth table t d → d < p.arrivals) (order id : Value)
    (hnested : p.sections.has id = true → ∀ s d, Depth table s (d + 1) → (id == idOf s) = true →
      ∀ child, allowed (.orderedChild child order)) :
    Ensures (addOrdered order id) p (fun _ q => Added table id p q) allowed := by
  unfold addOrdered
  refine Ensures.get_bind ?_
  cases hget : p.sections.get? id with
  | none =>
      refine Ensures.pure (.absent ?_)
      rw [Table.has, hget]
      rfl
  | some held =>
      obtain ⟨k, hmem, hlike⟩ := Table.mem_of_get? hget
      obtain ⟨s, d, hd, hkey, hheld⟩ := hdrawn _ hmem
      have hid : (id == idOf s) = true := BEq.trans (BEq.symm hlike) hkey
      have hsame : isNested held = isNested s
          ∧ held.entry.needOwn "id" = s.entry.needOwn "id" := by
        rcases hheld with rfl | rfl
        · exact ⟨rfl, rfl⟩
        · exact ⟨isNested_atLevel d s, needOwn_atLevel d s⟩
      refine Ensures.modify_bind ?_
      dsimp only
      rw [hsame.1, hsame.2]
      refine Ensures.ite (fun hnest => ?_) fun hnot => ?_
      · refine Ensures.ofExcept_bind (hfollow.identified s hd.mem) fun child _ => ?_
        cases d with
        | zero =>
            rw [hd.not_nested] at hnest
            cases hnest
        | succ d =>
            refine Ensures.fail_bind (hnested ?_ s d hd hid child)
            rw [Table.has, hget]
            rfl
      · have hnot : isNested s = false := by simpa using hnot
        obtain rfl := hd.eq_zero hnot
        have hlevel : withLevel held = atLevel 0 s := by
          rcases hheld with rfl | rfl
          · exact withLevel_of_unlevelled (hfiled.unlevelled_of_mem hd.mem)
          · exact withLevel_atLevel 0 s
        refine (addBranch_ensures hfollow p.arrivals ?_ hd hlevel ?_).mono ?_
        · exact hattached
        · intro t e ht
          have := hdepth t e ht
          omega
        · rintro _ q ⟨rows, hrows, rfl⟩
          exact .present hd hid hrows

theorem Added.has {id : Value} {p q : Page} (h : Added table id p q) {key : Value}
    (hkey : p.sections.has key = true) : q.sections.has key = true := by
  cases h with
  | absent _ => exact hkey
  | @present s rows hs hid hrows =>
      rw [Table.has_setAll, Table.has_erase, hkey]
      cases hlike : id == key with
      | false => simp
      | true =>
          have hlisted := hrows.has (by simpa using hid) (id, s) (by simp) s .self
          rw [Table.has_congr rows (BEq.trans (BEq.symm hid) hlike)] at hlisted
          simp [hlisted]

/-- What going through some identifiers of the order does to a page. -/
inductive AddedAll (table : Table Value Section) (start : Page) : List Value → Page → Prop
  | nil : AddedAll table start [] start
  | step {done : List Value} {id : Value} {p q : Page} :
    AddedAll table start done p → Added table id p q → AddedAll table start (done ++ [id]) q

/-- A row that the order brought: it holds a section at the level of its depth, and the one at the top
that this section lies under stands in the order. -/
def Brought (table : Table Value Section) (ids : List Value) (key : Value) (held : Section) : Prop :=
  ∃ id ∈ ids, ∃ top s d, Depth table top 0 ∧ (id == idOf top) = true ∧ Under table top s
    ∧ Depth table s d ∧ (key == idOf s) = true ∧ held = atLevel d s

theorem Brought.more {ids : List Value} {key : Value} {held : Section}
    (h : Brought table ids key held) (id : Value) : Brought table (ids ++ [id]) key held := by
  obtain ⟨other, hother, hbrought⟩ := h
  exact ⟨other, List.mem_append_left _ hother, hbrought⟩

/-- How far a page has come when some identifiers of the order are done. -/
structure Progress (table : Table Value Section) (start : Page) (done : List Value) (p : Page) :
    Prop where
  unchanged : p = { start with sections := p.sections }
  distinct : Distinct p.sections.keys
  rows : ∀ row ∈ p.sections, row ∈ leftOut table done ∨ Brought table done row.1 row.2
  kept : ∀ id, (leftOut table []).has id = true → p.sections.has id = true
  listed : ∀ id ∈ done, ∀ top, Depth table top 0 → (id == idOf top) = true →
    ∀ s, Under table top s → p.sections.has (idOf s) = true
  walk : Distinct done → ∃ rows, Walk table 0 (roots table done) rows
    ∧ p.sections = leftOut table done ++ rows

theorem progress_start (hfiled : Filed table) {start : Page}
    (h : start.sections = leftOut table []) : Progress table start [] start where
  unchanged := rfl
  distinct := by
    rw [h]
    exact Table.distinct_filter hfiled.distinct _
  rows row hrow := by
    rw [h] at hrow
    exact Or.inl hrow
  kept id hid := by rw [h, hid]
  listed := by simp
  walk _ := ⟨[], .nil 0, by rw [h, List.append_nil]⟩

theorem Progress.drawn (hfiled : Filed table) {start p : Page} {done : List Value}
    (h : Progress table start done p) : Drawn table p.sections := by
  intro row hrow
  rcases h.rows row hrow with hleft | ⟨-, -, -, s, d, -, -, -, hdepth, hkey, hheld⟩
  · obtain ⟨hmem, hnot, -⟩ := mem_leftOut.mp hleft
    exact ⟨row.2, 0, .top (List.mem_map_of_mem hmem) hnot, hfiled.own row hmem, Or.inl rfl⟩
  · exact ⟨s, d, hdepth, hkey, Or.inr hheld⟩

/-- Of the rows that are there, those that are unlike the next identifier remain as they are. -/
theorem Progress.rows_unlike {start p : Page} {done : List Value}
    (h : Progress table start done p) {id : Value} {row : Value × Section} (hrow : row ∈ p.sections)
    (hunlike : (row.1 == id) = false) :
    row ∈ leftOut table (done ++ [id]) ∨ Brought table (done ++ [id]) row.1 row.2 := by
  rcases h.rows row hrow with hleft | hbrought
  · rw [← erase_leftOut]
    exact Or.inl (List.mem_filter.mpr ⟨hleft, by simp [hunlike]⟩)
  · exact Or.inr (hbrought.more id)

/-- One more identifier of the order is done. -/
theorem Progress.step (hfiled : Filed table) {start p q : Page} {done : List Value} {id : Value}
    (h : Progress table start done p) (hadded : Added table id p q) :
    Progress table start (done ++ [id]) q where
  unchanged := by
    cases hadded with
    | absent _ => exact h.unchanged
    | present _ _ _ => rw [h.unchanged]
  distinct := by
    cases hadded with
    | absent _ => exact h.distinct
    | present _ _ _ => exact Table.distinct_setAll (Table.distinct_filter h.distinct _) _
  rows := by
    cases hadded with
    | absent hnone =>
        intro row hrow
        rw [Table.has_eq_any, List.any_eq_false] at hnone
        exact h.rows_unlike hrow (by simpa using hnone row hrow)
    | @present s rows hs hid hrows =>
        refine Table.forall_mem_setAll
          (P := fun key held => (key, held) ∈ leftOut table (done ++ [id])
            ∨ Brought table (done ++ [id]) key held) ?_ ?_
        · intro row hrow
          obtain ⟨hrow, hunlike⟩ := List.mem_filter.mp hrow
          exact h.rows_unlike hrow (by simpa using hunlike)
        · intro row hrow key hkey
          have htops : Tops table 0 [(id, s)] := by simpa [Tops] using ⟨hs, hid⟩
          obtain ⟨top, htop, t, d, hunder, hdepth, hlike, hheld⟩ := hrows.row htops row hrow
          obtain rfl : top = (id, s) := by simpa using htop
          exact Or.inr ⟨id, by simp, s, t, d, hs, hid, hunder, hdepth, BEq.trans hkey hlike, hheld⟩
  kept other hother := hadded.has (h.kept other hother)
  listed := by
    intro other hother top htop hlike s hs
    rcases List.mem_append.mp hother with hother | hother
    · exact hadded.has (h.listed other hother top htop hlike s hs)
    · obtain rfl : other = id := by simpa using hother
      cases hadded with
      | absent hnone => simp [h.kept other (has_leftOut_nil hfiled htop hlike)] at hnone
      | @present t rows ht hid hrows =>
          obtain rfl : t = top :=
            hfiled.eq_of_alike ht.mem htop.mem (BEq.trans (BEq.symm hid) hlike)
          rw [Table.has_setAll, hrows.has (by simpa using hid) (other, t) (by simp) s hs,
            Bool.or_true]
  walk := by
    intro hdistinct
    obtain ⟨rows, hrows, hsections⟩ := h.walk (List.pairwise_append.mp hdistinct).1
    cases hadded with
    | absent hnone =>
        have hleft : (leftOut table done).has id = false := by
          rw [hsections, Table.has_eq_any, List.any_append, Bool.or_eq_false_iff,
            ← Table.has_eq_any] at hnone
          exact hnone.1
        have hroots : roots table [id] = [] := by
          refine List.eq_nil_iff_forall_not_mem.mpr fun top htop => ?_
          obtain ⟨hdepth, hlike⟩ := roots_tops hfiled [id] top htop
          obtain rfl : top.1 = id := by simpa using (mem_roots.mp htop).1
          simp [h.kept top.1 (has_leftOut_nil hfiled hdepth hlike)] at hnone
        refine ⟨rows, ?_, ?_⟩
        · rw [roots_append, hroots, List.append_nil]
          exact hrows
        · rw [← erase_leftOut, Table.erase_of_not_has hleft, hsections]
    | @present s more hs hid hmore =>
        obtain ⟨hwalk, hnext⟩ := hrows.next hfiled hdistinct hs hid hmore
        exact ⟨rows ++ more, hwalk, by rw [← hnext, ← hsections]⟩

theorem AddedAll.progress (hfiled : Filed table) {start p : Page} {done : List Value}
    (h : AddedAll table start done p) (hstart : start.sections = leftOut table []) :
    Progress table start done p := by
  induction h with
  | nil => exact progress_start hfiled hstart
  | step _ hadded ih => exact ih.step hfiled hadded

/-- Going through the order adds one section after the other, unless one lies below another one and
is there already. -/
theorem addOrdered_each_ensures (hfollow : Followable table allowed) (hfiled : Filed table)
    {start : Page} (hstart : start.sections = leftOut table []) (hattached : Attached table start)
    (hdepth : ∀ t d, Depth table t d → d < start.arrivals) (order : Value) {ids : List Value}
    (hnested : ∀ done id rest p, ids = done ++ id :: rest → AddedAll table start done p →
      p.sections.has id = true → ∀ s d, Depth table s (d + 1) → (id == idOf s) = true →
      ∀ child, allowed (.orderedChild child order)) :
    Ensures (Act.each ids (addOrdered order)) start
      (fun _ p => AddedAll table start ids p) allowed := by
  refine Ensures.each (AddedAll table start) .nil ?_
  intro done id rest p hids hp
  have hprogress := hp.progress hfiled hstart
  refine (addOrdered_ensures hfollow hfiled ?_ (hprogress.drawn hfiled) ?_ order id ?_).mono ?_
  · rw [hprogress.unchanged]
    exact hattached
  · rw [hprogress.unchanged]
    exact hdepth
  · exact hnested done id rest p hids hp
  · intro _ q hq
    exact hp.step hq

/-! ### Before the order -/

theorem upperOf_covers (sections : Table Value Section) (s : Section) :
    Covers NotTooDeep (upperOf sections s) := by
  unfold upperOf
  refine Covers.ite (fun _ => Covers.error (by decide)) fun _ => ?_
  split
  · exact Covers.ok _
  · exact ((needOwn_covers _ _).mono fun _ => notTooDeep_of_entry).bind fun _ _ =>
      Covers.error (by simp)

theorem upperOf_eq_ok {sections : Table Value Section} {s upper : Section}
    (h : upperOf sections s = .ok upper) : sections.get? (parentOf s) = some upper := by
  unfold upperOf at h
  dsimp only at h
  split at h
  · simp [Except.bind_eq_ok_iff] at h
  · split at h
    · rename_i found hfound
      obtain rfl : found = upper := Except.ok.inj h
      exact hfound
    · simp [Except.bind_eq_ok_iff] at h

/-- The sections of some rows are noted, each with the number of the one that it lies below. -/
structure Noted (p : Page) (rows : List (Value × Section)) (q : Page) : Prop where
  unchanged : q = { p with attached := q.attached }
  sections : q.attached.map (·.2) = rows.map (·.2)
  upper : ∀ noted ∈ q.attached, ∃ upper,
    p.sections.get? (parentOf noted.2) = some upper ∧ upper.number = noted.1

theorem Noted.sections_eq {p q : Page} (h : Noted p (p.sections.filter (isNested ·.2)) q) :
    q.attached.map (·.2) = (sectionsOf p.sections).filter isNested := by
  rw [h.sections, sectionsOf, List.filter_map]
  rfl

/-- A nested section can be noted only if it lies below one that is there. -/
theorem Noted.linked {p q : Page} (h : Noted p (p.sections.filter (isNested ·.2)) q)
    (hfiled : Filed p.sections) : Linked p.sections := by
  intro s hs hnested
  have hmem : s ∈ q.attached.map (·.2) := by
    rw [h.sections_eq]
    exact List.mem_filter.mpr ⟨hs, hnested⟩
  obtain ⟨noted, hnoted, rfl⟩ := List.mem_map.mp hmem
  obtain ⟨upper, hupper, -⟩ := h.upper noted hnoted
  obtain ⟨k, hrow, hlike⟩ := Table.mem_of_get? hupper
  refine ⟨upper, List.mem_map.mpr ⟨_, hrow, rfl⟩, mem_childrenOf.mpr ⟨hs, hnested, ?_⟩⟩
  exact BEq.trans (BEq.symm hlike) (hfiled.own _ hrow)

/-- What is noted with the number of a section are those right below it. -/
theorem Noted.attached {p q : Page} (h : Noted p (p.sections.filter (isNested ·.2)) q)
    (hfiled : Filed p.sections) : Attached p.sections q := by
  intro upper hupper
  have hsame : q.attached.filter (·.1 == upper.number)
      = q.attached.filter ((fun s => parentOf s == idOf upper) ∘ Prod.snd) := by
    refine List.filter_congr fun noted hmem => ?_
    obtain ⟨found, hfound, hnumber⟩ := h.upper noted hmem
    rw [← hnumber]
    exact hfiled.number_beq_iff hfound hupper
  rw [hsame, ← List.filter_map, h.sections_eq, List.filter_filter, childrenOf]
  exact List.filter_congr fun s _ => Bool.and_comm _ _

theorem attachNested_ensures {p : Page} (hnone : p.attached = []) :
    Ensures attachNested p (fun _ q => Noted p (p.sections.filter (isNested ·.2)) q)
      NotTooDeep := by
  unfold attachNested
  refine Ensures.get_bind (Ensures.each (Noted p) ?_ ?_)
  · refine ⟨rfl, ?_, ?_⟩
    · simp [hnone]
    · simp [hnone]
  · rintro done ⟨k, s⟩ rest q hsplit ⟨hq, hsections, hnoted⟩
    refine Ensures.ofExcept_bind (upperOf_covers _ s) fun upper hupper => ?_
    refine Ensures.modify ⟨?_, ?_, ?_⟩
    · rw [hq]
    · simp [hsections]
    · intro noted hmem
      rcases List.mem_append.mp hmem with hmem | hmem
      · exact hnoted noted hmem
      · obtain rfl : noted = (upper.number, s) := by simpa using hmem
        exact ⟨upper, upperOf_eq_ok hupper, rfl⟩

/-- Where no section is nested, there is nothing to note. -/
theorem attachNested_of_flat {p : Page} (h : ∀ row ∈ p.sections, isNested row.2 = false) :
    attachNested p = ⟨p, [], .ok ()⟩ := by
  have hnone : p.sections.filter (isNested ·.2) = [] := by
    rw [List.filter_eq_nil_iff]
    intro row hrow
    rw [h row hrow]
    decide
  unfold attachNested
  rw [get_bind_apply, hnone]
  rfl

/-- If no section at the top is missing from the order, each of them stands in it. -/
theorem checkNeglected_eq_ok {sections : Table Value Section} {order : Value} {ids : List Value}
    (h : checkNeglected sections order ids = .ok ()) :
    ∀ row ∈ sections, ids.contains row.1 = true := by
  unfold checkNeglected at h
  dsimp only at h
  split at h
  · simp [Except.bind_eq_ok_iff] at h
  · obtain ⟨neglected, hsort, h⟩ := Except.bind_eq_ok_iff.mp h
    split at h
    · have hnone := List.nil_perm.mp (sortByValue_sorted hsort).perm
      rw [List.filter_eq_nil_iff] at hnone
      intro row hrow
      simpa using hnone row.1 (List.mem_map_of_mem hrow)
    · simp at h

/-- A section that stands in the order is not missing from it. -/
theorem checkNeglected_of_contained {sections : Table Value Section} {ids : List Value}
    (hkeys : ids.all (·.isKey) = true) (hall : ∀ row ∈ sections, ids.contains row.1 = true)
    (order : Value) : checkNeglected sections order ids = .ok () := by
  have hnone : sections.keys.filter (!ids.contains ·) = [] := by
    rw [List.filter_eq_nil_iff]
    intro key hkey
    obtain ⟨row, hrow, rfl⟩ := List.mem_map.mp hkey
    rw [hall row hrow]
    decide
  unfold checkNeglected
  dsimp only
  rw [hkeys, if_neg (by decide), hnone]
  rfl

theorem checkNeglected_covers (sections : Table Value Section) (order : Value) (ids : List Value) :
    Covers NotTooDeep (checkNeglected sections order ids) := by
  unfold checkNeglected
  refine Covers.ite (fun _ => Covers.error (by decide)) fun _ => ?_
  refine (sortByValue_covers (fun _ => Covers.ok _) (by decide) _).bind fun neglected _ => ?_
  split
  · exact Covers.ok _
  · exact Covers.error (by simp)

theorem completeOrder_covers (explicit : Value) (isSection : Value → Bool) :
    Covers NotTooDeep (completeOrder explicit isSection) := by
  unfold completeOrder
  refine Covers.ite (fun _ => ?_) fun _ => Covers.ok _
  split
  · exact Covers.ok _
  · exact Covers.ite (fun _ => Covers.ok _) fun _ => Covers.error (by decide)
  · exact Covers.error (by decide)

/-! ### The outline -/

/-- A page whose sections have not been brought into an outline yet. -/
structure Open (p : Page) : Prop where
  attached : p.attached = []
  filed : Filed p.sections
  numbered : ∀ row ∈ p.sections, row.2.number < p.arrivals

/-- What an outline makes of the sections of a page.  All else stays as it was. -/
structure Outlined (p q : Page) : Prop where
  backed : ∀ row ∈ p.backmatters, p.sections.has row.1 = true
  backmatters : q.backmatters = p.backmatters
  collections : q.collections = p.collections
  linked : Linked p.sections
  ordered : completeOrder p.order p.sections.has = .ok q.order
  distinct : Distinct q.sections.keys
  brought : ∀ row ∈ q.sections, Brought p.sections (q.order.items?.getD []) row.1 row.2
  kept_iff : ∀ row ∈ p.sections, q.sections.has row.1 = true ↔ Rooted p.sections row.2
  walk : Distinct (q.order.items?.getD []) →
    Walk p.sections 0 (roots p.sections (q.order.items?.getD [])) q.sections

/-- An order in which every section at the top stands, once it is done, makes an outline. -/
theorem Progress.outlined {p start q : Page} {ids : List Value} (hfiled : Filed p.sections)
    (h : Progress p.sections start ids q)
    (hids : ∀ row ∈ leftOut p.sections [], ids.contains row.1 = true) :
    (∀ row ∈ q.sections, Brought p.sections ids row.1 row.2)
    ∧ (∀ row ∈ p.sections, q.sections.has row.1 = true ↔ Rooted p.sections row.2)
    ∧ (Distinct ids → Walk p.sections 0 (roots p.sections ids) q.sections) := by
  have hnone : leftOut p.sections ids = [] := by
    refine List.eq_nil_iff_forall_not_mem.mpr fun row hrow => ?_
    obtain ⟨hrow, hnot, hnotOrdered⟩ := mem_leftOut.mp hrow
    rw [hids row (mem_leftOut.mpr ⟨hrow, hnot, rfl⟩)] at hnotOrdered
    simp at hnotOrdered
  refine ⟨?_, ?_, ?_⟩
  · intro row hrow
    refine (h.rows row hrow).resolve_left fun hleft => ?_
    rw [hnone] at hleft
    cases hleft
  · intro row hrow
    have hmem : row.2 ∈ sectionsOf p.sections := List.mem_map_of_mem hrow
    constructor
    · intro hhas
      obtain ⟨held, hheld, hlike⟩ := Table.has_iff.mp hhas
      obtain ⟨s, d, hd, hid, -⟩ := h.drawn hfiled held hheld
      obtain rfl : s = row.2 := by
        refine hfiled.eq_of_alike hd.mem hmem ?_
        exact BEq.trans (BEq.symm hid) (BEq.trans hlike (hfiled.own row hrow))
      exact ⟨d, hd⟩
    · intro hrooted
      obtain ⟨top, htop, hunder⟩ := hrooted.exists_top
      obtain ⟨held, hheld, hlike⟩ := Table.has_iff.mp (has_leftOut_nil hfiled htop BEq.rfl)
      obtain ⟨id, hid, hsame⟩ := List.contains_iff_exists_mem_beq.mp (hids held hheld)
      have hlisted := h.listed id hid top htop (BEq.trans (BEq.symm hsame) hlike) row.2 hunder
      rw [Table.has_congr _ (hfiled.own row hrow)]
      exact hlisted
  · intro hdistinct
    obtain ⟨rows, hrows, hsections⟩ := h.walk hdistinct
    rw [hsections, hnone, List.nil_append]
    exact hrows

/-- What is done before a page goes along its order, which comes out of it. -/
def beforeOrder : Act Page Value := do
  let page ← Act.get
  match page.backmatters.keys.find? fun id => !page.sections.has id with
  | some id => Act.fail (.noSuchSection id)
  | none => pure ()
  let order ← Act.ofExcept (completeOrder page.order page.sections.has)
  Act.modify ({ · with order })
  attachNested
  takeNested
  Act.ofExcept (checkNeglected (← Act.get).sections order (order.items?.getD []))
  return order

theorem outline_eq :
    outline = beforeOrder >>= fun order => Act.each (order.items?.getD []) (addOrdered order) := by
  funext p
  unfold outline beforeOrder
  dsimp only
  rw [bind_assoc, get_bind_apply, get_bind_apply]
  cases p.backmatters.keys.find? fun id => !p.sections.has id with
  | some id => rfl
  | none => simp only [bind_assoc, pure_bind]

/-- A page that is about to go along its order: every backmatter has its section, every nested section
has the one that it lies below, and no section at the top is missing from the order. -/
structure Prepared (p : Page) (order : Value) (q : Page) : Prop where
  backed : ∀ row ∈ p.backmatters, p.sections.has row.1 = true
  linked : Linked p.sections
  ordered : completeOrder p.order p.sections.has = .ok order
  unchanged : q = { p with order, attached := q.attached, sections := leftOut p.sections [] }
  attached : Attached p.sections q
  complete : ∀ row ∈ leftOut p.sections [], (order.items?.getD []).contains row.1 = true

theorem beforeOrder_ensures {p : Page} (h : Open p) :
    Ensures beforeOrder p (Prepared p) NotTooDeep := by
  unfold beforeOrder
  refine Ensures.get_bind ?_
  dsimp only
  split
  · exact Ensures.fail_bind (by simp)
  · rename_i hbacked
    refine Ensures.ofExcept_bind (completeOrder_covers _ _) fun order horder => ?_
    refine Ensures.modify_bind (Ensures.bind (attachNested_ensures h.attached) ?_)
    intro _ q hnoted
    have hq := hnoted.unchanged
    refine Ensures.modify_bind (Ensures.get_bind ?_)
    refine Ensures.ofExcept_bind (checkNeglected_covers _ _ _) fun _ hneglected => ?_
    have hstart : q.sections.filter (fun row => !isNested row.2) = leftOut p.sections [] := by
      rw [hq]
      simp [leftOut]
    rw [hstart] at hneglected ⊢
    refine Ensures.pure ⟨?_, hnoted.linked h.filed, horder, ?_, hnoted.attached h.filed,
      checkNeglected_eq_ok hneglected⟩
    · intro row hrow
      simpa using List.find?_eq_none.mp hbacked row.1 (List.mem_map_of_mem hrow)
    · rw [hq]

/-- A page goes along its order, or it fails for a cause other than that sections lie too deep in each
other. -/
theorem outline_runs {p : Page} (h : Open p) :
    Ensures outline p (fun _ q => ∃ order start, Prepared p order start
      ∧ AddedAll p.sections start (order.items?.getD []) q) NotTooDeep := by
  rw [outline_eq]
  refine Ensures.bind (beforeOrder_ensures h) fun order start hstart => ?_
  have hsections : start.sections = leftOut p.sections [] := by rw [hstart.unchanged]
  refine (addOrdered_each_ensures (followable_notTooDeep _) h.filed hsections hstart.attached ?_
    order ?_).mono ?_
  · intro t d ht
    rw [hstart.unchanged]
    exact ht.lt h.filed h.numbered
  · intro _ _ _ _ _ _ _ _ _ _ _ _
    simp
  · intro _ q hq
    exact ⟨order, start, hstart, hq⟩

/-- Bringing the sections of a page into an outline works as it should, or it fails for a cause
other than that sections lie too deep in each other. -/
theorem outline_ensures {p : Page} (h : Open p) :
    Ensures outline p (fun _ q => Outlined p q) NotTooDeep := by
  refine (outline_runs h).mono ?_
  rintro _ q ⟨order, start, hstart, hq⟩
  have hprogress := hq.progress h.filed (by rw [hstart.unchanged])
  obtain ⟨hbrought, hkept, hwalk⟩ := hprogress.outlined h.filed hstart.complete
  have hq : q = { p with order, attached := start.attached, sections := q.sections } := by
    rw [hprogress.unchanged, hstart.unchanged]
  have horder : q.order = order := by rw [hq]
  rw [← horder] at hbrought hwalk
  refine ⟨hstart.backed, by rw [hq], by rw [hq], hstart.linked, by rw [horder, hstart.ordered],
    hprogress.distinct, hbrought, hkept, hwalk⟩

end PluginHelp.Page
