/-
How an explicit order is completed.

The well-known sections are considered one after the other, and the place for the next one is carried
along while identifiers are put in at that place.  `Considered` says what holds when some of them are
done.  The place is always the one right after the nearest well-known section that stands in the order,
where it stands first.  So an identifier that is put in later goes between a section and the one right
after it only if that section is the nearest one.  But after a section has been put in, it is nearer
than the one that it was put after.  That is why every section stays where it was put.

All comparisons are by likeness.  The identifiers of well-known sections are texts, and nothing but the
same text is like a text, but the argument does not need that.
-/
import Mathlib.Data.List.Induction
import PluginHelp.Proofs.Page.Ordered

namespace PluginHelp.Page

/-! ### Places in a list -/

section Places

variable {α : Type}

/-- What stands somewhere in a list comes at the same place after something unlike it is put in, or
one place later. -/
theorem findIdx_insertIdx_of_false {p : α → Bool} {a : α} (h : p a = false) (l : List α) :
    ∀ n ≤ l.length, (l.insertIdx n a).findIdx p
      = if l.findIdx p < n then l.findIdx p else l.findIdx p + 1 := by
  induction l with
  | nil =>
      intro n hn
      obtain rfl : n = 0 := by simpa using hn
      simp [List.findIdx_cons, h]
  | cons b l ih =>
      intro n hn
      cases n with
      | zero => simp [List.findIdx_cons, h]
      | succ n =>
          rw [List.insertIdx_succ_cons, List.findIdx_cons, List.findIdx_cons,
            ih n (by simpa using hn)]
          cases p b with
          | true => simp
          | false =>
              simp only [cond_false]
              split <;> split <;> omega

/-- What is put into a list that has nothing like it stands where it was put. -/
theorem findIdx_insertIdx_of_true {p : α → Bool} {a : α} (h : p a = true) (l : List α) :
    ∀ n ≤ l.length, (∀ b ∈ l, p b = false) → (l.insertIdx n a).findIdx p = n := by
  induction l with
  | nil =>
      intro n hn _
      obtain rfl : n = 0 := by simpa using hn
      simp [List.findIdx_cons, h]
  | cons b l ih =>
      intro n hn hall
      obtain ⟨hb, hall⟩ := List.forall_mem_cons.mp hall
      cases n with
      | zero => simp [List.findIdx_cons, h]
      | succ n =>
          rw [List.insertIdx_succ_cons, List.findIdx_cons, hb, cond_false,
            ih n (by simpa using hn) hall]

theorem filter_insertIdx_of_false {p : α → Bool} {a : α} (h : p a = false) (l : List α) :
    ∀ n, (l.insertIdx n a).filter p = l.filter p := by
  induction l with
  | nil => intro n; cases n <;> simp [h]
  | cons b l ih =>
      intro n
      cases n with
      | zero => simp [h]
      | succ n => rw [List.insertIdx_succ_cons, List.filter_cons, List.filter_cons, ih]

theorem count_insertIdx [BEq α] {l : List α} {n : Nat} (hn : n ≤ l.length) (a b : α) :
    (l.insertIdx n a).count b = l.count b + if a == b then 1 else 0 := by
  rw [List.count, (List.perm_insertIdx a l hn).countP_eq, List.countP_cons, ← List.count]

variable [BEq α] [PartialEquivBEq α] {a b : α}

theorem idxOf_lt_of_contains {l : List α} (h : l.contains a = true) : l.idxOf a < l.length := by
  obtain ⟨b, hb, hlike⟩ := List.contains_iff_exists_mem_beq.mp h
  exact List.findIdx_lt_length.mpr ⟨b, hb, BEq.symm hlike⟩

theorem unlike_of_not_contains {l : List α} (h : l.contains a = false) :
    ∀ b ∈ l, (b == a) = false := by
  rw [List.contains_eq_any_beq, List.any_eq_false] at h
  intro b hb
  rw [BEq.comm]
  simpa using h b hb

/-- What stands first at the same place is alike. -/
theorem alike_of_idxOf_eq {l : List α} (hmem : l.contains a = true)
    (h : l.idxOf a = l.idxOf b) : (a == b) = true := by
  induction l with
  | nil => simp at hmem
  | cons c l ih =>
      rw [List.idxOf_cons, List.idxOf_cons] at h
      cases hca : c == a with
      | true =>
          cases hcb : c == b with
          | true => exact BEq.trans (BEq.symm hca) hcb
          | false => simp [hca, hcb] at h
      | false =>
          have hrest : l.contains a = true := by
            rw [List.contains_cons, BEq.comm, hca, Bool.false_or] at hmem
            exact hmem
          cases hcb : c == b with
          | true => simp [hca, hcb] at h
          | false => exact ih hrest (by simpa [hca, hcb] using h)

end Places

/-! ### Where a section belongs -/

/-- Of some identifiers, those of sections that an order leaves out. -/
def missing (isSection : Value → Bool) (explicit ids : List Value) : List Value :=
  ids.filter fun id => isSection id && !explicit.contains id

/-- The place for a section in an order: right after the nearest of those before it that stands there,
where that stands first, or at the front if none of them does. -/
def placeAfter (order earlier : List Value) : Nat :=
  match (earlier.filter order.contains).getLast? with
  | none => 0
  | some id => order.idxOf id + 1

variable {isSection : Value → Bool} {explicit order earlier done : List Value} {id : Value}

theorem mem_missing {ids : List Value} :
    id ∈ missing isSection explicit ids ↔
      id ∈ ids ∧ isSection id = true ∧ explicit.contains id = false := by
  simp [missing]

theorem missing_append (ids more : List Value) :
    missing isSection explicit (ids ++ more)
      = missing isSection explicit ids ++ missing isSection explicit more :=
  List.filter_append _ _

theorem placeAfter_concat_of_contains (h : order.contains id = true) :
    placeAfter order (earlier ++ [id]) = order.idxOf id + 1 := by
  rw [placeAfter, List.filter_append, List.filter_cons_of_pos h, List.filter_nil,
    List.getLast?_concat]

theorem placeAfter_concat_of_not_contains (h : order.contains id = false) :
    placeAfter order (earlier ++ [id]) = placeAfter order earlier := by
  rw [placeAfter, List.filter_append, List.filter_cons_of_neg (by simp [h]), List.filter_nil,
    List.append_nil, placeAfter]

theorem placeAfter_le (order earlier : List Value) : placeAfter order earlier ≤ order.length := by
  unfold placeAfter
  split
  · exact Nat.zero_le _
  · rename_i id hid
    have hcontains := (List.mem_filter.mp (List.mem_of_getLast? hid)).2
    exact idxOf_lt_of_contains hcontains

/-- Something unlike the sections before a place moves that place only if it is put in before it. -/
theorem placeAfter_insertIdx {n : Nat} (hn : n ≤ order.length)
    (hunlike : ∀ other ∈ earlier, (other == id) = false) :
    placeAfter (order.insertIdx n id) earlier
      = if placeAfter order earlier ≤ n then placeAfter order earlier
        else placeAfter order earlier + 1 := by
  have hfilter : earlier.filter (order.insertIdx n id).contains = earlier.filter order.contains := by
    refine List.filter_congr fun other hother => ?_
    rw [(List.perm_insertIdx id order hn).contains_eq, List.contains_cons, hunlike other hother,
      Bool.false_or]
  unfold placeAfter
  rw [hfilter]
  split
  · simp
  · rename_i other hother
    have hmem := (List.mem_filter.mp (List.mem_of_getLast? hother)).1
    have hmoved := findIdx_insertIdx_of_false (p := (· == other)) (a := id)
      (by rw [BEq.comm, hunlike other hmem]) order n hn
    rw [List.idxOf, hmoved, ← List.idxOf]
    split <;> split <;> omega

/-- After a section that stands in the order comes another place than before it. -/
theorem placeAfter_ne {later : List Value} (hdistinct : Distinct (earlier ++ id :: later))
    (h : order.contains id = true) :
    placeAfter order (earlier ++ id :: later) ≠ placeAfter order earlier := by
  obtain ⟨nearest, hnearest⟩ :
      ∃ nearest, ((id :: later).filter order.contains).getLast? = some nearest := by
    rw [List.filter_cons_of_pos h]
    exact ⟨_, List.getLast?_cons⟩
  obtain ⟨hmem, hcontains⟩ := List.mem_filter.mp (List.mem_of_getLast? hnearest)
  have hplace : placeAfter order (earlier ++ id :: later) = order.idxOf nearest + 1 := by
    rw [placeAfter, List.filter_append, List.getLast?_append, hnearest]
    rfl
  rw [hplace, placeAfter]
  split
  · exact Nat.succ_ne_zero _
  · rename_i other hother
    intro hsame
    have hbefore := (List.mem_filter.mp (List.mem_of_getLast? hother)).1
    have hunlike := (List.pairwise_append.mp hdistinct).2.2 other hbefore nearest hmem
    have hlike := alike_of_idxOf_eq hcontains (Nat.succ.inj hsame)
    rw [BEq.comm, hunlike] at hlike
    cases hlike

/-! ### What is put in -/

/-- An order that consists of an explicit one and of those identifiers that were missing from it, each
of which it has once. -/
structure Filled (isSection : Value → Bool) (explicit done order : List Value) : Prop where
  kept : order.filter (fun id => !(missing isSection explicit done).contains id) = explicit
  once : ∀ id ∈ missing isSection explicit done, order.count id = 1

namespace Filled

/-- What stands in the order was there before, or it was put in. -/
theorem contains_eq (h : Filled isSection explicit done order) (id : Value) :
    order.contains id
      = (explicit.contains id || (missing isSection explicit done).contains id) := by
  rw [Bool.eq_iff_iff, Bool.or_eq_true]
  simp only [List.contains_iff_exists_mem_beq]
  constructor
  · rintro ⟨held, hheld, hlike⟩
    cases hadded : (missing isSection explicit done).contains held with
    | true =>
        obtain ⟨other, hother, hsame⟩ := List.contains_iff_exists_mem_beq.mp hadded
        exact Or.inr ⟨other, hother, BEq.trans hlike hsame⟩
    | false =>
        refine Or.inl ⟨held, ?_, hlike⟩
        rw [← h.kept]
        exact List.mem_filter.mpr ⟨hheld, by simp [hadded]⟩
  · rintro (⟨held, hheld, hlike⟩ | ⟨held, hheld, hlike⟩)
    · rw [← h.kept] at hheld
      exact ⟨held, (List.mem_filter.mp hheld).1, hlike⟩
    · have hcount : 0 < order.countP (· == held) := by
        have hone := h.once held hheld
        rw [List.count] at hone
        omega
      obtain ⟨other, hother, hsame⟩ := List.countP_pos_iff.mp hcount
      exact ⟨other, hother, BEq.trans hlike (BEq.symm hsame)⟩

theorem contains_of_missing (h : Filled isSection explicit done order)
    (hid : id ∈ missing isSection explicit done) : order.contains id = true := by
  rw [h.contains_eq, Bool.or_eq_true]
  exact Or.inr (List.contains_iff_exists_mem_beq.mpr ⟨id, hid, BEq.rfl⟩)

/-- A section that has not been considered stands in the order only if it did so from the first. -/
theorem contains_new (h : Filled isSection explicit done order)
    (hnew : ∀ other ∈ done, (other == id) = false) : order.contains id = explicit.contains id := by
  have hnone : (missing isSection explicit done).contains id = false := by
    rw [List.contains_eq_any_beq, List.any_eq_false]
    intro other hother
    rw [BEq.comm, hnew other (mem_missing.mp hother).1]
    simp
  rw [h.contains_eq, hnone, Bool.or_false]

/-- A section that is not missing is passed over. -/
theorem pass (h : Filled isSection explicit done order)
    (hpass : (isSection id && !explicit.contains id) = false) :
    missing isSection explicit (done ++ [id]) = missing isSection explicit done
    ∧ Filled isSection explicit (done ++ [id]) order := by
  have hnone : missing isSection explicit [id] = [] := List.filter_cons_of_neg (by simp [hpass])
  have hmissing : missing isSection explicit (done ++ [id]) = missing isSection explicit done := by
    rw [missing_append, hnone, List.append_nil]
  refine ⟨hmissing, ?_, ?_⟩
  · rw [hmissing]
    exact h.kept
  · rw [hmissing]
    exact h.once

/-- A section that is missing is put in at any place. -/
theorem put (h : Filled isSection explicit done order)
    (hnew : ∀ other ∈ done, (other == id) = false) (hsection : isSection id = true)
    (hnone : order.contains id = false) {n : Nat} (hn : n ≤ order.length) :
    missing isSection explicit (done ++ [id]) = missing isSection explicit done ++ [id]
    ∧ Filled isSection explicit (done ++ [id]) (order.insertIdx n id) := by
  have hunlike := unlike_of_not_contains hnone
  have hone : missing isSection explicit [id] = [id] := by
    refine List.filter_cons_of_pos ?_
    rw [hsection, ← h.contains_new hnew, hnone]
    rfl
  have hmissing : missing isSection explicit (done ++ [id])
      = missing isSection explicit done ++ [id] := by rw [missing_append, hone]
  refine ⟨hmissing, ?_, ?_⟩
  · rw [hmissing, filter_insertIdx_of_false (by simp)]
    refine (List.filter_congr fun held hheld => ?_).trans h.kept
    simp [List.contains_append, hunlike held hheld]
  · rw [hmissing]
    intro other hother
    rw [count_insertIdx hn]
    rcases List.mem_append.mp hother with hother | hother
    · rw [h.once other hother, BEq.comm, hnew other (mem_missing.mp hother).1]
      rfl
    · obtain rfl : other = id := by simpa using hother
      rw [List.count, List.countP_eq_zero.mpr (by simpa using hunlike)]
      simp

end Filled

/-! ### Considering one section after the other -/

/-- Of some sections, each that was missing stands where it belongs. -/
def Placed (isSection : Value → Bool) (explicit done order : List Value) : Prop :=
  ∀ earlier id later, done = earlier ++ id :: later → id ∈ missing isSection explicit done →
    order.idxOf id = placeAfter order earlier

/-- What holds of an order when some well-known sections have been considered. -/
structure Considered (isSection : Value → Bool) (explicit done : List Value) (o : Ordering) :
    Prop where
  filled : Filled isSection explicit done o.order
  place : o.place = placeAfter o.order done
  placed : Placed isSection explicit done o.order

theorem considered_start (isSection : Value → Bool) (explicit : List Value) :
    Considered isSection explicit [] ⟨explicit, 0⟩ where
  filled := ⟨by simp [missing], by simp [missing]⟩
  place := rfl
  placed := by simp [Placed]

theorem eq_append_cons_of_concat {later : List Value} {last : Value}
    (h : done ++ [last] = earlier ++ id :: later) :
    (earlier = done ∧ id = last) ∨ ∃ rest, done = earlier ++ id :: rest := by
  rcases List.eq_nil_or_concat later with rfl | ⟨rest, other, rfl⟩
  · obtain ⟨rfl, hlast⟩ := List.append_inj' h rfl
    exact Or.inl ⟨rfl, by simpa using hlast.symm⟩
  · rw [List.concat_eq_append, ← List.cons_append, ← List.append_assoc] at h
    exact Or.inr ⟨rest, (List.append_inj' h rfl).1⟩

/-- A section stays where it belongs when another one is put in, unless that is put in at the very place
of the section. -/
theorem idxOf_insertIdx_of_placed {other : Value} {n : Nat} (hn : n ≤ order.length)
    (hplaced : order.idxOf other = placeAfter order earlier) (hlike : (other == id) = false)
    (hearlier : ∀ x ∈ earlier, (x == id) = false) (hbetween : n ≠ placeAfter order earlier) :
    (order.insertIdx n id).idxOf other = placeAfter (order.insertIdx n id) earlier := by
  have hmoved := findIdx_insertIdx_of_false (p := (· == other)) (a := id)
    (by rw [BEq.comm, hlike]) order n hn
  rw [placeAfter_insertIdx hn hearlier, List.idxOf, hmoved, ← List.idxOf, hplaced]
  split <;> split <;> omega

variable {o : Ordering}

/-- A section that is not missing leaves the order as it is. -/
theorem Considered.pass (h : Considered isSection explicit done o)
    (hpass : (isSection id && !explicit.contains id) = false) :
    Considered isSection explicit (done ++ [id]) ⟨o.order, placeAfter o.order (done ++ [id])⟩ := by
  obtain ⟨hmissing, hfilled⟩ := h.filled.pass hpass
  refine ⟨hfilled, rfl, ?_⟩
  intro earlier other later hsplit hother
  rcases eq_append_cons_of_concat hsplit with ⟨-, rfl⟩ | ⟨rest, hrest⟩
  · obtain ⟨-, hsection, hnot⟩ := mem_missing.mp hother
    simp [hsection, hnot] at hpass
  · rw [hmissing] at hother
    exact h.placed earlier other rest hrest hother

/-- A section that is put in goes to its place, and all others stay where they belong. -/
theorem Considered.put (h : Considered isSection explicit done o) (hdone : Distinct done)
    (hnew : ∀ other ∈ done, (other == id) = false) (hsection : isSection id = true)
    (hnone : o.order.contains id = false) :
    Considered isSection explicit (done ++ [id]) ⟨o.order.insertIdx o.place id, o.place + 1⟩ := by
  have hn : o.place ≤ o.order.length := by
    rw [h.place]
    exact placeAfter_le _ _
  obtain ⟨hmissing, hfilled⟩ := h.filled.put hnew hsection hnone hn
  have hplace : (o.order.insertIdx o.place id).idxOf id = o.place :=
    findIdx_insertIdx_of_true (p := (· == id)) BEq.rfl _ _ hn (unlike_of_not_contains hnone)
  refine ⟨hfilled, ?_, ?_⟩
  · rw [placeAfter_concat_of_contains (hfilled.contains_of_missing (by simp [hmissing])), hplace]
  · intro earlier other later hsplit hother
    rcases eq_append_cons_of_concat hsplit with ⟨rfl, rfl⟩ | ⟨rest, rfl⟩
    · rw [hplace, placeAfter_insertIdx hn hnew, if_pos (by rw [h.place]), h.place]
    · have hlike := hnew other (by simp)
      replace hother : other ∈ missing isSection explicit (earlier ++ other :: rest) := by
        rw [hmissing] at hother
        refine (List.mem_append.mp hother).resolve_right fun hlast => ?_
        obtain rfl : other = id := by simpa using hlast
        simp at hlike
      -- The place has moved on since that section was put in.
      have hbetween : o.place ≠ placeAfter o.order earlier := by
        rw [h.place]
        exact placeAfter_ne hdone (h.filled.contains_of_missing hother)
      exact idxOf_insertIdx_of_placed hn (h.placed earlier other rest rfl hother) hlike
        (fun x hx => hnew x (by simp [hx])) hbetween

/-- One more section is considered. -/
theorem Considered.consider (h : Considered isSection explicit done o)
    (hdistinct : Distinct (done ++ [id])) :
    Considered isSection explicit (done ++ [id]) (o.consider isSection id) := by
  obtain ⟨hdone, -, hunlike⟩ := List.pairwise_append.mp hdistinct
  have hnew : ∀ other ∈ done, (other == id) = false :=
    fun other hother => hunlike other hother id List.mem_cons_self
  unfold Ordering.consider
  split
  · rename_i hhas
    have hother : (isSection id && !explicit.contains id) = false := by
      rw [← h.filled.contains_new hnew, hhas]
      simp
    have hpass := h.pass hother
    rw [placeAfter_concat_of_contains hhas] at hpass
    exact hpass
  · rename_i hhas
    replace hhas : o.order.contains id = false := by simpa using hhas
    split
    · rename_i hsection
      exact h.put hdone hnew hsection hhas
    · rename_i hsection
      have hother : (isSection id && !explicit.contains id) = false := by simp [hsection]
      have hpass := h.pass hother
      rw [placeAfter_concat_of_not_contains hhas, ← h.place] at hpass
      exact hpass

/-- Some sections are considered, none of them twice. -/
theorem considered_all (isSection : Value → Bool) (explicit : List Value) {ids : List Value}
    (hdistinct : Distinct ids) :
    Considered isSection explicit ids (ids.foldl (Ordering.consider isSection) ⟨explicit, 0⟩) := by
  induction ids using List.reverseRecOn with
  | nil => exact considered_start isSection explicit
  | append_singleton ids id ih =>
      rw [List.foldl_append]
      exact (ih (List.pairwise_append.mp hdistinct).1).consider hdistinct

/-! ### Completed orders -/

/-- The identifiers of the well-known sections. -/
def wellKnownIds : List Value :=
  wellKnown.map Value.text

/-- An order that is an explicit one with the well-known sections that are there and that it leaves out:
each of them is put in once and where it belongs, and the section about the plugin comes last. -/
structure Completed (isSection : Value → Bool) (explicit order : List Value) : Prop where
  filled : Filled isSection explicit wellKnownIds order
  placed : ∀ earlier id later, usualOrder.map Value.text = earlier ++ id :: later →
    id ∈ missing isSection explicit wellKnownIds → order.idxOf id = placeAfter order earlier
  last : .text lastSection ∈ missing isSection explicit wellKnownIds →
    order.getLast? = some (.text lastSection)

theorem distinct_wellKnownIds : Distinct wellKnownIds := by
  unfold Distinct
  decide

theorem wellKnownIds_eq : wellKnownIds = usualOrder.map Value.text ++ [.text lastSection] :=
  List.map_append

theorem completeList_completed (explicit : List Value) (isSection : Value → Bool) :
    Completed isSection explicit (completeList explicit isSection) := by
  have hdistinct := distinct_wellKnownIds
  rw [wellKnownIds_eq] at hdistinct
  obtain ⟨husual, -, hunlike⟩ := List.pairwise_append.mp hdistinct
  obtain ⟨hfilled, -, hplaced⟩ := considered_all isSection explicit husual
  have hnew : ∀ other ∈ usualOrder.map Value.text, (other == .text lastSection) = false :=
    fun other hother => hunlike other hother _ List.mem_cons_self
  have hmissing : ∀ earlier id later, usualOrder.map Value.text = earlier ++ id :: later →
      id ∈ missing isSection explicit wellKnownIds →
      id ∈ missing isSection explicit (usualOrder.map Value.text) := by
    intro earlier id later hsplit hid
    exact mem_missing.mpr ⟨by simp [hsplit], (mem_missing.mp hid).2⟩
  unfold completeList
  dsimp only
  split
  · rename_i hlast
    obtain ⟨hsection, hnone⟩ := Bool.and_eq_true_iff.mp hlast
    rw [← List.insertIdx_length_self]
    refine ⟨?_, ?_, fun _ => ?_⟩
    · rw [wellKnownIds_eq]
      exact (hfilled.put hnew hsection (by simpa using hnone) (Nat.le_refl _)).2
    · intro earlier id later hsplit hid
      have hid := hmissing earlier id later hsplit hid
      have hold := hplaced earlier id later hsplit hid
      refine idxOf_insertIdx_of_placed (Nat.le_refl _) hold (hnew id (mem_missing.mp hid).1)
        (fun x hx => hnew x (by simp [hsplit, hx])) ?_
      rw [← hold]
      exact Nat.ne_of_gt (idxOf_lt_of_contains (hfilled.contains_of_missing hid))
    · rw [List.insertIdx_length_self, List.getLast?_concat]
  · rename_i hlast
    have hpass : (isSection (.text lastSection) && !explicit.contains (.text lastSection))
        = false := by
      rw [← hfilled.contains_new hnew]
      simpa using hlast
    refine ⟨?_, ?_, fun hid => ?_⟩
    · rw [wellKnownIds_eq]
      exact (hfilled.pass hpass).2
    · intro earlier id later hsplit hid
      exact hplaced earlier id later hsplit (hmissing earlier id later hsplit hid)
    · obtain ⟨-, hsection, hnone⟩ := mem_missing.mp hid
      rw [hsection, hnone] at hpass
      cases hpass

/-- Where no section is missing, considering them changes nothing. -/
theorem foldl_consider_of_contains {ids : List Value} {o : Ordering}
    (h : ∀ id ∈ ids, isSection id = true → o.order.contains id = true) :
    (ids.foldl (Ordering.consider isSection) o).order = o.order := by
  induction ids generalizing o with
  | nil => rfl
  | cons id ids ih =>
      obtain ⟨hid, hids⟩ := List.forall_mem_cons.mp h
      have hsame : (o.consider isSection id).order = o.order := by
        unfold Ordering.consider
        split
        · rfl
        · split
          · rename_i hnone hsection
            exact absurd (hid hsection) hnone
          · rfl
      rw [List.foldl_cons, ih (by rw [hsame]; exact hids), hsame]

/-- A completed order is complete. -/
theorem completeList_of_contains
    (h : ∀ id ∈ wellKnownIds, isSection id = true → order.contains id = true) :
    completeList order isSection = order := by
  rw [wellKnownIds_eq] at h
  have husual : ((usualOrder.map Value.text).foldl (Ordering.consider isSection) ⟨order, 0⟩).order
      = order := foldl_consider_of_contains fun id hid => h id (List.mem_append_left _ hid)
  have hlast := h (.text lastSection) (by simp)
  unfold completeList
  dsimp only
  rw [husual, if_neg]
  simpa using hlast

theorem Completed.contains (h : Completed isSection explicit order) {id : Value}
    (hid : id ∈ wellKnownIds) (hsection : isSection id = true) : order.contains id = true := by
  rw [h.filled.contains_eq, Bool.or_eq_true]
  cases hexplicit : explicit.contains id with
  | true => exact Or.inl rfl
  | false =>
      exact Or.inr (List.contains_iff_exists_mem_beq.mpr
        ⟨id, mem_missing.mpr ⟨hid, hsection, hexplicit⟩, BEq.rfl⟩)

/-- An explicit order as a page has it, or nothing. -/
def givenOrder : Option (List Value) → Value
  | none => .nothing
  | some ids => .list ids

theorem completeOrder_list (explicit : List Value) (isSection : Value → Bool) :
    completeOrder (.list explicit) isSection = .ok (.list (completeList explicit isSection)) := by
  cases explicit <;> rfl

/--
**An explicit order is completed by the well-known sections that it leaves out.**

Without what was put in, it is the explicit order.  What is put in are the well-known sections that are
there and that it leaves out, each once and right after the nearest well-known section before it, and
the section about the plugin at the end.  Completing it once more changes nothing.
-/
theorem completeOrder_completed (explicit : Option (List Value)) (isSection : Value → Bool) :
    ∃ order, completeOrder (givenOrder explicit) isSection = .ok (.list order)
      ∧ Completed isSection (explicit.getD []) order
      ∧ completeOrder (.list order) isSection = .ok (.list order) := by
  refine ⟨completeList (explicit.getD []) isSection, ?_, completeList_completed _ _, ?_⟩
  · cases explicit with
    | none => rfl
    | some ids => exact completeOrder_list ids isSection
  · rw [completeOrder_list, completeList_of_contains]
    intro id hid hsection
    exact (completeList_completed _ _).contains hid hsection

/-- Where the introduction is ordered after another section, what comes after it follows there. -/
example :
    completeOrder (.list [.text "usage", .text "intro", .text "credits"])
        ([.text "about", .text "commands", .text "config"] : List Value).contains
      = .ok (.list [.text "usage", .text "intro", .text "config", .text "commands", .text "credits",
          .text "about"]) := by
  rfl

end PluginHelp.Page
