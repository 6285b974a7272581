/-
The numbers in a table of contents.

Sections are numbered with a stack of counts, one for each level in use.  What a stack stands for is
said without it: `seen` counts the sections of a level that have come since the last one that lies
higher.  A section ends the counts of all deeper levels, and so it does with what has been seen of
them.  `Tracks` says that a stack holds what has been seen, level by level.  Counting a section keeps
it so, and the count of the top level is never dropped, so the stack is never empty.

What has been seen of a level can also be said place by place: the earlier places of that level with
none in between that is of a lower one.  That is the rank by which a section is numbered.
-/
import Mathlib.Data.List.Count
import Mathlib.Data.List.TakeWhile
import PluginHelp.Help.Numbering

namespace PluginHelp.Help

open Entry

/-! ### What has been seen of a level -/

/-- How many sections of a level have come, from the nearest one on, with none higher in between.  The
levels of the sections that have come are given nearest first. -/
def seen (level : Int) (before : List Int) : Nat :=
  (before.takeWhile (level ≤ ·)).count level

section Seen

variable {level other : Int} {before nearer : List Int}

theorem seen_nil (level : Int) : seen level [] = 0 :=
  rfl

/-- A section that lies higher ends what has been seen. -/
theorem seen_cons_of_lt (h : other < level) (before : List Int) : seen level (other :: before) = 0 := by
  rw [seen, List.takeWhile_cons_of_neg (by simpa using h), List.count_nil]

theorem seen_cons_of_le (h : level ≤ other) (before : List Int) :
    seen level (other :: before) = seen level before + if other = level then 1 else 0 := by
  rw [seen, List.takeWhile_cons_of_pos (by simpa using h), List.count_cons, ← seen]
  simp

/-- Before sections none of which lies higher, all is seen that was seen before. -/
theorem seen_append_of_le (h : ∀ x ∈ nearer, level ≤ x) (before : List Int) :
    seen level (nearer ++ before) = nearer.count level + seen level before := by
  rw [seen, List.takeWhile_append_of_pos (by simpa using h), List.count_append, ← seen]

/-- Before a section that lies higher, nothing is seen. -/
theorem seen_append_of_lt (h : ∃ x ∈ nearer, x < level) (before : List Int) :
    seen level (nearer ++ before) = seen level nearer := by
  induction nearer with
  | nil => simp at h
  | cons x nearer ih =>
      rcases Int.lt_or_le x level with hlt | hle
      · rw [List.cons_append, seen_cons_of_lt hlt, seen_cons_of_lt hlt]
      · have hrest : ∃ y ∈ nearer, y < level := by
          obtain ⟨y, hy, hlt⟩ := h
          rcases List.mem_cons.mp hy with rfl | hy
          · omega
          · exact ⟨y, hy, hlt⟩
        rw [List.cons_append, seen_cons_of_le hle, seen_cons_of_le hle, ih hrest]

/-- A section that lies higher and came first makes no difference. -/
theorem seen_concat_of_lt (h : other < level) (before : List Int) :
    seen level (before ++ [other]) = seen level before := by
  induction before with
  | nil => exact seen_cons_of_lt h []
  | cons x before ih =>
      rcases Int.lt_or_le x level with hlt | hle
      · rw [List.cons_append, seen_cons_of_lt hlt, seen_cons_of_lt hlt]
      · rw [List.cons_append, seen_cons_of_le hle, seen_cons_of_le hle, ih]

end Seen

/-! ### Stacks of counts -/

/-- A stack of counts holds what has been seen of every level, the deepest one first. -/
structure Tracks (before : List Int) (counts : Counts) : Prop where
  descending : counts.Pairwise fun upper lower => lower.1 < upper.1
  top : ∃ n, (0, n) ∈ counts
  counted : ∀ row ∈ counts, row.2 = seen row.1 before
  uncounted : ∀ level, 0 ≤ level → (∀ row ∈ counts, row.1 ≠ level) → seen level before = 0

theorem tracks_start : Tracks [] [(0, 0)] where
  descending := List.pairwise_singleton _ _
  top := ⟨0, List.mem_cons_self⟩
  counted := by simp [seen_nil]
  uncounted level _ _ := seen_nil level

section Count

variable {before : List Int} {counts rest : Counts} {level : Int}

/-- The next number of a level goes on top of the counts of all levels that lie higher. -/
theorem Tracks.push (h : Tracks before counts) (hrest : rest.Sublist counts)
    (hlower : ∀ row ∈ rest, row.1 < level) (hall : ∀ row ∈ counts, row.1 < level → row ∈ rest)
    (hlevel : 0 ≤ level) : Tracks (level :: before) ((level, seen level before + 1) :: rest) where
  descending := List.pairwise_cons.mpr ⟨hlower, h.descending.sublist hrest⟩
  top := by
    obtain ⟨n, hn⟩ := h.top
    rcases Int.lt_or_eq_of_le hlevel with hlt | rfl
    · exact ⟨n, List.mem_cons_of_mem _ (hall _ hn hlt)⟩
    · exact ⟨_, List.mem_cons_self⟩
  counted := by
    intro row hrow
    rcases List.mem_cons.mp hrow with rfl | hrow
    · rw [seen_cons_of_le (Int.le_refl _), if_pos rfl]
    · have hlt := hlower row hrow
      rw [seen_cons_of_le (by omega), if_neg (by omega), h.counted row (hrest.mem hrow)]
      rfl
  uncounted := by
    intro other hother hnone
    obtain ⟨hne, hnone⟩ := List.forall_mem_cons.mp hnone
    rcases Int.lt_or_le level other with hlt | hle
    · exact seen_cons_of_lt hlt before
    · rw [seen_cons_of_le hle, if_neg hne, Nat.add_zero]
      refine h.uncounted other hother fun row hrow hsame => ?_
      exact hnone row (hall row hrow (by omega)) hsame

/-- Counting a section never leaves the stack empty, and gives the next number of its level. -/
theorem Tracks.count (h : Tracks before counts) (hlevel : 0 ≤ level) :
    ∃ after, Help.count counts level = .ok (after, seen level before + 1)
      ∧ Tracks (level :: before) after := by
  have hsublist : (counts.dropWhile (level < ·.1)).Sublist counts := List.dropWhile_sublist _
  -- Only counts of deeper levels are dropped.
  have hkept : ∀ row ∈ counts, row.1 ≤ level → row ∈ counts.dropWhile (level < ·.1) := by
    intro row hrow hle
    rw [← List.takeWhile_append_dropWhile (p := fun row : Int × Nat => level < row.1)
      (l := counts)] at hrow
    refine (List.mem_append.mp hrow).resolve_left fun hdropped => ?_
    have : level < row.1 := by simpa using List.mem_takeWhile_imp hdropped
    omega
  have hhead := List.head?_dropWhile_not (fun row : Int × Nat => level < row.1) counts
  obtain ⟨n, hn⟩ := h.top
  unfold Help.count
  split
  · rename_i hempty
    have hmem := hkept _ hn hlevel
    rw [hempty] at hmem
    cases hmem
  · rename_i held n outer hsplit
    rw [hsplit] at hsublist hkept hhead
    replace hhead : held ≤ level := by simpa using hhead
    have hlower := (List.pairwise_cons.mp (h.descending.sublist hsublist)).1
    split
    · rename_i hsame
      obtain rfl : level = held := by simpa using hsame
      have hcounted : n = seen level before := h.counted _ (hsublist.mem List.mem_cons_self)
      rw [hcounted]
      refine ⟨_, rfl, h.push ((List.sublist_cons_self _ _).trans hsublist) hlower ?_ hlevel⟩
      intro row hrow hlt
      refine (List.mem_cons.mp (hkept row hrow (by omega))).resolve_left fun hrow => ?_
      rw [hrow] at hlt
      exact absurd hlt (Int.lt_irrefl _)
    · rename_i hother
      have hlt : held < level := by
        have : level ≠ held := by simpa using hother
        omega
      have hall : ∀ row ∈ (held, n) :: outer, row.1 < level := by
        refine List.forall_mem_cons.mpr ⟨hlt, fun row hrow => ?_⟩
        exact Int.lt_trans (hlower row hrow) hlt
      have hnone : seen level before = 0 := by
        refine h.uncounted level hlevel fun row hrow hsame => ?_
        have := hall row (hkept row hrow (by omega))
        omega
      rw [hnone]
      have hpush := h.push hsublist hall (fun row hrow hlt => hkept row hrow (by omega)) hlevel
      rw [hnone] at hpush
      exact ⟨_, rfl, hpush⟩

end Count

/-! ### Numbering sections -/

/-- What is asked of a section so that it can be numbered: an identifier, a title and a level. -/
structure Numberable (e : Entry) : Prop where
  identified : e.hasOwn "id" = true
  titled : e.hasOwn "name" = true
  levelled : ∃ value, e.own? "level" = some value ∧ ∃ level : Nat, value.number? = some (level : Int)

/-- The level of a section. -/
def levelOf (e : Entry) : Int :=
  ((e.own? "level").bind Value.number?).getD 0

theorem Numberable.numberedLevel {e : Entry} (h : Numberable e) :
    numberedLevel e = .ok (levelOf e) ∧ 0 ≤ levelOf e := by
  obtain ⟨value, hvalue, level, hlevel⟩ := h.levelled
  have hsame : levelOf e = level := by
    rw [levelOf, hvalue, Option.bind_some, hlevel, Option.getD_some]
  refine ⟨?_, by omega⟩
  simp [Help.numberedLevel, h.identified, h.titled, needOwn, hvalue, hlevel, hsame, bind, Except.bind,
    pure, Except.pure]

/-- The levels of some sections, the last one first. -/
def levelsBack (sections : List Entry) : List Int :=
  (sections.map levelOf).reverse

/-- Sections with the numbers that they get after others. -/
def numberedAfter (before : List Entry) : List Entry → List (Nat × Entry)
  | [] => []
  | e :: rest => (seen (levelOf e) (levelsBack before) + 1, e) :: numberedAfter (before ++ [e]) rest

theorem numberFrom_eq {counts : Counts} {before sections : List Entry}
    (htracks : Tracks (levelsBack before) counts) (h : ∀ e ∈ sections, Numberable e) :
    numberFrom counts sections = ⟨numberedAfter before sections, none⟩ := by
  induction sections generalizing counts before with
  | nil => rfl
  | cons e rest ih =>
      obtain ⟨he, hrest⟩ := List.forall_mem_cons.mp h
      obtain ⟨hlevel, hnat⟩ := he.numberedLevel
      obtain ⟨after, hcount, hafter⟩ := htracks.count hnat
      have hstep : Tracks (levelsBack (before ++ [e])) after := by
        rw [levelsBack, List.map_append, List.reverse_append]
        exact hafter
      rw [numberFrom, hlevel, show (Except.ok (levelOf e) >>= Help.count counts) = _ from hcount]
      dsimp only
      rw [ih hstep hrest]
      rfl

theorem numberedAfter_eq (before sections : List Entry) :
    numberedAfter before sections = sections.mapIdx fun i e =>
      (seen (levelOf e) (levelsBack (before ++ sections.take i)) + 1, e) := by
  induction sections generalizing before with
  | nil => rfl
  | cons e rest ih =>
      rw [numberedAfter, ih, List.mapIdx_cons]
      simp

/-- Sections are numbered without a fault, each one higher than what has been seen of its level. -/
theorem number_seen {sections : List Entry} (h : ∀ e ∈ sections, Numberable e) :
    number sections = ⟨sections.mapIdx fun i e =>
      (seen (levelOf e) (levelsBack (sections.take i)) + 1, e), none⟩ := by
  have hstart : Tracks (levelsBack []) [(0, 0)] := tracks_start
  rw [number, numberFrom_eq hstart h, numberedAfter_eq]
  rfl

/-- One more than the number of earlier places of the same level, with no place in between that is of a
lower one. -/
def rank (levelAt : Nat → Int) (i : Nat) : Nat :=
  1 + (List.range i).countP fun j =>
    decide (levelAt j = levelAt i ∧ ∀ k < i, j < k → levelAt i ≤ levelAt k)

/-- What has been seen of a level, place by place. -/
theorem seen_range (level : Int) (levelAt : Nat → Int) (i : Nat) :
    seen level ((List.range i).map levelAt).reverse
      = (List.range i).countP fun j =>
          decide (levelAt j = level ∧ ∀ k < i, j < k → level ≤ levelAt k) := by
  induction i with
  | zero => rfl
  | succ i ih =>
      rw [List.range_succ, List.map_append, List.reverse_append, List.map_singleton,
        List.reverse_singleton, List.singleton_append, List.countP_append, List.countP_singleton]
      rcases Int.lt_or_le (levelAt i) level with hlt | hle
      · have hnone : ∀ j ∈ List.range i, ¬decide (levelAt j = level
            ∧ ∀ k < i + 1, j < k → level ≤ levelAt k) = true := by
          intro j hj hboth
          have := (of_decide_eq_true hboth).2 i (by omega) (List.mem_range.mp hj)
          omega
        rw [seen_cons_of_lt hlt, List.countP_eq_zero.mpr hnone, if_neg (by simp; omega)]
      · have hsame : ∀ j ∈ List.range i, decide (levelAt j = level
            ∧ ∀ k < i + 1, j < k → level ≤ levelAt k) = true
              ↔ decide (levelAt j = level ∧ ∀ k < i, j < k → level ≤ levelAt k) = true := by
          intro j _
          rw [decide_eq_true_iff, decide_eq_true_iff]
          refine and_congr_right fun _ => ⟨fun h k hk => h k (by omega), fun h k hk hjk => ?_⟩
          rcases Nat.lt_succ_iff_lt_or_eq.mp hk with hk | rfl
          · exact h k hk hjk
          · exact hle
        have hlast : ∀ k < i + 1, i < k → level ≤ levelAt k := by
          intro k hk hik
          omega
        rw [seen_cons_of_le hle, ih, List.countP_congr hsame]
        simp only [iff_true_intro hlast, and_true, decide_eq_true_eq]

/-- The level of the section at a place. -/
def levelAt (sections : List Entry) (i : Nat) : Int :=
  (sections[i]?.map levelOf).getD 0

theorem levelsBack_take {sections : List Entry} {i : Nat} (h : i ≤ sections.length) :
    levelsBack (sections.take i) = ((List.range i).map (levelAt sections)).reverse := by
  rw [levelsBack]
  congr 1
  have hlength : ((sections.take i).map levelOf).length
      = ((List.range i).map (levelAt sections)).length := by
    rw [List.length_map, List.length_take, List.length_map, List.length_range]
    omega
  refine List.ext_getElem hlength fun j hj _ => ?_
  have hlt : j < sections.length := by
    rw [List.length_map, List.length_take] at hj
    omega
  simp [levelAt, hlt]

/-- What has been seen of the level of a section is what its rank counts. -/
theorem number_ranks {sections : List Entry} (h : ∀ e ∈ sections, Numberable e) :
    number sections = ⟨sections.mapIdx fun i e => (rank (levelAt sections) i, e), none⟩ := by
  rw [number_seen h]
  congr 1
  refine List.mapIdx_eq_mapIdx_iff.mpr fun i hi => ?_
  have hlevel : levelOf sections[i] = levelAt sections i := by simp [levelAt, hi]
  rw [levelsBack_take (Nat.le_of_lt hi), hlevel, seen_range, rank, Nat.add_comm]

end PluginHelp.Help
