/-
What sorting gives.

A comparison may fail, and sorting makes only some of the possible comparisons.  If none of those it
makes fails, the result has the same items, none of them stands after one that it is before, and
items of which none is before the other stand as they stood.  Together these leave one possible
result.
-/
import PluginHelp.Proofs.Except
import PluginHelp.Sorting

namespace PluginHelp.Sorting

variable {α ε : Type}

/-- A list brought into order, with the order of the items kept wherever it may be. -/
structure Sorted (notAfter : α → α → Prop) (items sorted : List α) : Prop where
  /-- The items are the same. -/
  perm : sorted.Perm items
  /-- No item stands after one that it has to stand before. -/
  ordered : sorted.Pairwise notAfter
  /-- Two items that may stand as they are do so. -/
  stable : ∀ a b, [a, b].Sublist items → notAfter a b → [a, b].Sublist sorted

/-- A comparison that never says that two items are before each other, and from which one can
conclude that an item is not after another one. -/
structure Consistent (isBefore : α → α → Except ε Bool) : Prop where
  asymm : ∀ {a b}, isBefore a b = .ok true → isBefore b a = .ok false
  trans : ∀ {a b c}, isBefore b a = .ok false → isBefore c b = .ok false →
    isBefore c a = .ok false

/-- Whether the comparison says that the first item may stand before the second one. -/
abbrev NotAfter (isBefore : α → α → Except ε Bool) (a b : α) : Prop :=
  isBefore b a = .ok false

/-- An item goes behind those that it is before, and stops at the first one that it is not. -/
theorem insertBackwards_ok {isBefore : α → α → Except ε Bool} {a : α} {backwards result : List α}
    (h : insertBackwards isBefore a backwards = .ok result) :
    ∃ upper lower, backwards = upper ++ lower ∧ result = upper ++ a :: lower
      ∧ (∀ b ∈ upper, isBefore a b = .ok true)
      ∧ ∀ b, lower.head? = some b → isBefore a b = .ok false := by
  induction backwards generalizing result with
  | nil =>
      obtain rfl : [a] = result := by simpa [insertBackwards] using h
      exact ⟨[], [], rfl, rfl, by simp, by simp⟩
  | cons b rest ih =>
      rw [insertBackwards, Except.bind_eq_ok_iff] at h
      obtain ⟨isSmaller, hbefore, h⟩ := h
      cases isSmaller with
      | false =>
          obtain rfl : a :: b :: rest = result := Except.ok.inj h
          refine ⟨[], b :: rest, rfl, rfl, by simp, ?_⟩
          intro other hother
          obtain rfl : b = other := by simpa using hother
          exact hbefore
      | true =>
          obtain ⟨inserted, hinsert, h⟩ := Except.bind_eq_ok_iff.mp h
          obtain rfl : b :: inserted = result := Except.ok.inj h
          obtain ⟨upper, lower, rfl, rfl, hupper, hlower⟩ := ih hinsert
          refine ⟨b :: upper, lower, rfl, rfl, ?_, hlower⟩
          intro other hother
          rcases List.mem_cons.mp hother with rfl | hrest
          · exact hbefore
          · exact hupper other hrest

/-- An item that is put where it belongs leaves the list in order. -/
theorem Sorted.insert {isBefore : α → α → Except ε Bool} (hc : Consistent isBefore)
    {items lower upper : List α} {a : α}
    (h : Sorted (NotAfter isBefore) items (lower ++ upper))
    (hupper : ∀ b ∈ upper, isBefore a b = .ok true)
    (hlower : ∀ b, lower.getLast? = some b → isBefore a b = .ok false) :
    Sorted (NotAfter isBefore) (items ++ [a]) (lower ++ a :: upper) := by
  obtain ⟨hordLower, hordUpper, hacross⟩ := List.pairwise_append.mp h.ordered
  have hbelow : ∀ b ∈ lower, NotAfter isBefore b a := by
    intro b hb
    obtain ⟨front, last, rfl⟩ : ∃ front last, lower = front ++ [last] := by
      refine ⟨lower.dropLast, lower.getLast (List.ne_nil_of_mem hb), ?_⟩
      exact (List.dropLast_concat_getLast _).symm
    have hlast : isBefore a last = .ok false := hlower last (by simp)
    rcases List.mem_append.mp hb with hfront | hb
    · have := (List.pairwise_append.mp hordLower).2.2 b hfront last (by simp)
      exact hc.trans this hlast
    · obtain rfl : b = last := by simpa using hb
      exact hlast
  refine ⟨?_, ?_, ?_⟩
  · refine List.perm_middle.trans ?_
    exact (h.perm.cons a).trans (List.perm_append_singleton a items).symm
  · refine List.pairwise_append.mpr ⟨hordLower, ?_, ?_⟩
    · exact List.pairwise_cons.mpr ⟨fun b hb => hc.asymm (hupper b hb), hordUpper⟩
    · intro b hb other hother
      rcases List.mem_cons.mp hother with rfl | hother
      · exact hbelow b hb
      · exact hacross b hb other hother
  · intro b other hsub hnot
    obtain ⟨first, second, hsplit, hfirst, hsecond⟩ := List.sublist_append_iff.mp hsub
    match first, hsplit with
    | [], hsplit =>
        have := hsecond.length_le
        rw [← (by simpa using hsplit : [b, other] = second)] at this
        simp at this
    | [x], hsplit =>
        -- The second of the two is the new item, so the first one is not above it.
        obtain ⟨rfl, rfl⟩ : b = x ∧ [other] = second := by simpa using hsplit
        obtain rfl : other = a := by simpa using hsecond.subset (List.mem_singleton.mpr rfl)
        have hmem : b ∈ lower ++ upper := h.perm.mem_iff.mpr (hfirst.subset (by simp))
        rcases List.mem_append.mp hmem with hmem | hmem
        · have hpair : ([b] ++ [other]).Sublist (lower ++ other :: upper) :=
            (List.singleton_sublist.mpr hmem).append (by simp)
          exact hpair
        · rw [NotAfter, hupper b hmem] at hnot
          simp at hnot
    | x :: y :: more, hsplit =>
        obtain ⟨rfl, rfl, rfl, rfl⟩ : b = x ∧ other = y ∧ more = [] ∧ second = [] := by
          simpa using hsplit
        refine (h.stable b other hfirst hnot).trans ?_
        exact (List.Sublist.refl lower).append (List.sublist_cons_self a upper)

/-- Items that can be sorted come out sorted. -/
theorem sort_sorted {isBefore : α → α → Except ε Bool} (hc : Consistent isBefore)
    {items sorted : List α} (h : sort isBefore items = .ok sorted) :
    Sorted (NotAfter isBefore) items sorted := by
  have key : ∀ (rest done backwards result : List α),
      Sorted (NotAfter isBefore) done backwards.reverse →
      rest.foldlM (fun sorted a => insertBackwards isBefore a sorted) backwards = .ok result →
      Sorted (NotAfter isBefore) (done ++ rest) result.reverse := by
    intro rest
    induction rest with
    | nil =>
        intro done backwards result hdone hresult
        obtain rfl : backwards = result := by simpa [pure, Except.pure] using hresult
        rw [List.append_nil]
        exact hdone
    | cons a rest ih =>
        intro done backwards result hdone hresult
        rw [List.foldlM_cons, Except.bind_eq_ok_iff] at hresult
        obtain ⟨inserted, hinsert, hresult⟩ := hresult
        obtain ⟨upper, lower, rfl, rfl, hupper, hlower⟩ := insertBackwards_ok hinsert
        have hnext := ih (done ++ [a]) (upper ++ a :: lower) result ?_ hresult
        · rw [List.append_assoc] at hnext
          exact hnext
        · rw [List.reverse_append] at hdone
          rw [List.reverse_append, List.reverse_cons, List.append_assoc]
          refine hdone.insert hc ?_ ?_
          · intro b hb
            exact hupper b (List.mem_reverse.mp hb)
          · intro b hb
            rw [List.getLast?_reverse] at hb
            exact hlower b hb
  rw [sort, Except.bind_eq_ok_iff] at h
  obtain ⟨backwards, hfold, h⟩ := h
  obtain rfl : backwards.reverse = sorted := Except.ok.inj h
  exact key items [] [] backwards ⟨.refl _, .nil, by simp⟩ hfold

/-! ### Items that stay as they stood -/

theorem insertBackwards_filter {isBefore : α → α → Except ε Bool} {p : α → Bool}
    (hp : ∀ a b, p a = true → p b = true → isBefore a b ≠ .ok true) {a : α}
    {backwards result : List α} (h : insertBackwards isBefore a backwards = .ok result) :
    result.filter p = [a].filter p ++ backwards.filter p := by
  obtain ⟨upper, lower, rfl, rfl, hupper, -⟩ := insertBackwards_ok h
  cases ha : p a with
  | false => simp [ha]
  | true =>
      have hnone : upper.filter p = [] := by
        refine List.filter_eq_nil_iff.mpr fun b hb hpb => ?_
        exact hp a b ha hpb (hupper b hb)
      simp [ha, hnone]

/-- Items of which none is before another one stand in the result as they stood. -/
theorem sort_filter {isBefore : α → α → Except ε Bool} {p : α → Bool}
    (hp : ∀ a b, p a = true → p b = true → isBefore a b ≠ .ok true)
    {items sorted : List α} (h : sort isBefore items = .ok sorted) :
    sorted.filter p = items.filter p := by
  have key : ∀ (rest backwards result : List α),
      rest.foldlM (fun sorted a => insertBackwards isBefore a sorted) backwards = .ok result →
      result.reverse.filter p = backwards.reverse.filter p ++ rest.filter p := by
    intro rest
    induction rest with
    | nil =>
        intro backwards result hresult
        obtain rfl : backwards = result := by simpa [pure, Except.pure] using hresult
        rw [List.filter_nil, List.append_nil]
    | cons a rest ih =>
        intro backwards result hresult
        rw [List.foldlM_cons, Except.bind_eq_ok_iff] at hresult
        obtain ⟨inserted, hinsert, hresult⟩ := hresult
        rw [ih inserted result hresult, List.filter_reverse, insertBackwards_filter hp hinsert,
          List.reverse_append, ← List.filter_reverse, ← List.filter_reverse, List.reverse_singleton,
          List.append_assoc, ← List.filter_append]
        rfl
  rw [sort, Except.bind_eq_ok_iff] at h
  obtain ⟨backwards, hfold, h⟩ := h
  obtain rfl : backwards.reverse = sorted := Except.ok.inj h
  exact key items [] backwards hfold

/-! ### Why sorting may fail -/

theorem insertBackwards_covers {allowed : ε → Prop} {isBefore : α → α → Except ε Bool} {a : α}
    {backwards : List α} (h : ∀ b ∈ backwards, Covers allowed (isBefore a b)) :
    Covers allowed (insertBackwards isBefore a backwards) := by
  induction backwards with
  | nil => exact Covers.ok _
  | cons b rest ih =>
      obtain ⟨hb, hrest⟩ := List.forall_mem_cons.mp h
      refine hb.bind fun isSmaller _ => Covers.ite (fun _ => ?_) fun _ => Covers.ok _
      exact (ih hrest).bind fun _ _ => Covers.ok _

/-- Sorting fails only for causes for which a comparison of two items fails. -/
theorem sort_covers {allowed : ε → Prop} {isBefore : α → α → Except ε Bool} {items : List α}
    (h : ∀ a ∈ items, ∀ b ∈ items, Covers allowed (isBefore a b)) :
    Covers allowed (sort isBefore items) := by
  have key : ∀ rest backwards : List α, (∀ a ∈ rest, a ∈ items) → (∀ a ∈ backwards, a ∈ items) →
      Covers allowed (rest.foldlM (fun sorted a => insertBackwards isBefore a sorted) backwards) := by
    intro rest
    induction rest with
    | nil => exact fun backwards _ _ => Covers.ok backwards
    | cons a rest ih =>
        intro backwards hrest hbackwards
        obtain ⟨ha, hrest⟩ := List.forall_mem_cons.mp hrest
        rw [List.foldlM_cons]
        refine Covers.bind (insertBackwards_covers fun b hb => h a ha b (hbackwards b hb)) ?_
        intro inserted hinsert
        refine ih inserted hrest fun b hb => ?_
        obtain ⟨upper, lower, rfl, rfl, -, -⟩ := insertBackwards_ok hinsert
        rcases List.mem_cons.mp (List.perm_middle.mem_iff.mp hb) with rfl | hb
        · exact ha
        · exact hbackwards b hb
  exact Covers.bind (key items [] (fun _ ha => ha) (by simp)) fun _ _ => Covers.ok _

/-! ### Sorting by keys -/

theorem insertByKey_perm (key : α → String) (a : α) (items : List α) :
    (insertByKey key a items).Perm (a :: items) := by
  induction items with
  | nil => exact List.Perm.refl _
  | cons b rest ih =>
      rw [insertByKey]
      split
      · exact (ih.cons b).trans (List.Perm.swap a b rest)
      · exact List.Perm.refl _

theorem sortByKey_perm (key : α → String) (items : List α) :
    (sortByKey key items).Perm items := by
  induction items with
  | nil => exact List.Perm.refl _
  | cons a rest ih => exact (insertByKey_perm key a _).trans (ih.cons a)

end PluginHelp.Sorting
