/-
Tables whose keys are distinct.

A table that is only ever changed by setting and erasing has no two keys that are alike.  Then each
key stands for one row, and a table is known by its rows.  Setting a key either changes the row of
that key or adds a row at the end; everything else about setting follows from that.
-/
import Mathlib.Data.List.Perm.Subperm
import PluginHelp.Table

namespace PluginHelp

variable {κ ν : Type} [BEq κ]

/-- No two keys of a list are alike. -/
def Distinct (keys : List κ) : Prop :=
  keys.Pairwise fun a b => (a == b) = false

namespace Table

/-! ### Rows -/

theorem mem_of_get? {t : Table κ ν} {key : κ} {value : ν} (h : t.get? key = some value) :
    ∃ k, (k, value) ∈ t ∧ (k == key) = true := by
  induction t with
  | nil => simp [get?] at h
  | cons row rest ih =>
      obtain ⟨k, v⟩ := row
      rw [get?] at h
      split at h
      · obtain rfl : v = value := by simpa using h
        exact ⟨k, List.mem_cons_self, ‹_›⟩
      · obtain ⟨other, hmem, hlike⟩ := ih h
        exact ⟨other, List.mem_cons_of_mem _ hmem, hlike⟩

theorem has_eq_any (t : Table κ ν) (key : κ) : t.has key = t.any fun row => row.1 == key := by
  induction t with
  | nil => rfl
  | cons row rest ih =>
      obtain ⟨k, v⟩ := row
      rw [List.any_cons, ← ih, has, has, get?]
      cases k == key <;> rfl

theorem has_iff {t : Table κ ν} {key : κ} :
    t.has key = true ↔ ∃ row ∈ t, (row.1 == key) = true := by
  rw [has_eq_any, List.any_eq_true]

theorem has_congr [PartialEquivBEq κ] (t : Table κ ν) {key other : κ} (h : (key == other) = true) :
    t.has key = t.has other := by
  simp only [has_eq_any, BEq.congr_right h]

theorem get?_congr [PartialEquivBEq κ] (t : Table κ ν) {key other : κ} (h : (key == other) = true) :
    t.get? key = t.get? other := by
  induction t with
  | nil => rfl
  | cons row rest ih =>
      obtain ⟨k, v⟩ := row
      rw [get?, get?, ih, BEq.congr_right h]

/-- In a table with distinct keys, a row is found by any key that is like its own. -/
theorem get?_of_mem [EquivBEq κ] {t : Table κ ν} (h : Distinct t.keys) {k key : κ} {value : ν}
    (hmem : (k, value) ∈ t) (hlike : (k == key) = true) : t.get? key = some value := by
  induction t with
  | nil => simp at hmem
  | cons row rest ih =>
      obtain ⟨first, v⟩ := row
      obtain ⟨hfirst, hrest⟩ := List.pairwise_cons.mp h
      rcases List.mem_cons.mp hmem with heq | hmem
      · obtain ⟨rfl, rfl⟩ := Prod.mk.inj heq
        rw [get?, if_pos hlike]
      · have hunlike : (first == k) = false := hfirst k (List.mem_map.mpr ⟨_, hmem, rfl⟩)
        rw [get?, ← BEq.congr_right hlike, hunlike]
        exact ih hrest hmem

/-- In a table with distinct keys, rows with keys that are alike are the same row. -/
theorem eq_of_alike [PartialEquivBEq κ] {t : Table κ ν} (h : Distinct t.keys) {row other : κ × ν}
    (hrow : row ∈ t) (hother : other ∈ t) (hlike : (row.1 == other.1) = true) : row = other := by
  induction t with
  | nil => simp at hrow
  | cons first rest ih =>
      obtain ⟨hfirst, hrest⟩ := List.pairwise_cons.mp h
      rcases List.mem_cons.mp hrow with rfl | hmem
      · rcases List.mem_cons.mp hother with rfl | hmem
        · rfl
        · simp [hfirst other.1 (List.mem_map_of_mem hmem)] at hlike
      · rcases List.mem_cons.mp hother with rfl | hmem'
        · rw [BEq.comm, hfirst row.1 (List.mem_map_of_mem hmem)] at hlike
          cases hlike
        · exact ih hrest hmem hmem'

/-! ### Setting -/

/-- Setting a key changes the row of that key, or else adds a row at the end. -/
theorem set_cases (t : Table κ ν) (key : κ) (value : ν) :
    (t.has key = false ∧ t.set key value = t ++ [(key, value)])
    ∨ ∃ front k held back, t = front ++ (k, held) :: back ∧ (k == key) = true
        ∧ t.set key value = front ++ (k, value) :: back := by
  induction t with
  | nil => exact Or.inl ⟨rfl, rfl⟩
  | cons row rest ih =>
      obtain ⟨k, v⟩ := row
      cases hlike : k == key with
      | true => exact Or.inr ⟨[], k, v, rest, rfl, hlike, by simp [set, hlike]⟩
      | false =>
          rcases ih with ⟨hhas, hset⟩ | ⟨front, other, held, back, rfl, hother, hset⟩
          · refine Or.inl ⟨?_, ?_⟩
            · simpa [has, get?, hlike] using hhas
            · simp [set, hlike, hset]
          · refine Or.inr ⟨(k, v) :: front, other, held, back, rfl, hother, ?_⟩
            simp [set, hlike, hset]

theorem set_of_not_has {t : Table κ ν} {key : κ} (h : t.has key = false) (value : ν) :
    t.set key value = t ++ [(key, value)] := by
  rcases set_cases t key value with ⟨-, hset⟩ | ⟨front, k, held, back, rfl, hlike, -⟩
  · exact hset
  · have : (front ++ (k, held) :: back).has key = true := has_iff.mpr ⟨(k, held), by simp, hlike⟩
    simp [this] at h

/-- What holds of the rows of a table still holds when a key is set to a value of which it holds. -/
theorem forall_mem_set [ReflBEq κ] {P : κ → ν → Prop} {t : Table κ ν} {key : κ} {value : ν}
    (h : ∀ row ∈ t, P row.1 row.2) (hnew : ∀ k, (k == key) = true → P k value) :
    ∀ row ∈ t.set key value, P row.1 row.2 := by
  rcases set_cases t key value with ⟨-, hset⟩ | ⟨front, k, held, back, rfl, hlike, hset⟩
  · rw [hset]
    intro row hrow
    rcases List.mem_append.mp hrow with hrow | hrow
    · exact h row hrow
    · obtain rfl : row = (key, value) := by simpa using hrow
      exact hnew key BEq.rfl
  · rw [hset]
    intro row hrow
    rcases List.mem_append.mp hrow with hrow | hrow
    · exact h row (List.mem_append_left _ hrow)
    · rcases List.mem_cons.mp hrow with rfl | hrow
      · exact hnew k hlike
      · exact h row (List.mem_append_right _ (List.mem_cons_of_mem _ hrow))

theorem has_set [EquivBEq κ] (t : Table κ ν) (key other : κ) (value : ν) :
    (t.set key value).has other = (t.has other || key == other) := by
  rcases set_cases t key value with ⟨-, hset⟩ | ⟨front, k, held, back, rfl, hlike, hset⟩
  · rw [hset, has_eq_any, has_eq_any, List.any_append, List.any_cons, List.any_nil, Bool.or_false]
  · rw [hset, has_eq_any, has_eq_any, List.any_append, List.any_append, List.any_cons,
      List.any_cons, BEq.congr_left hlike]
    cases key == other <;> simp

/-- Setting keeps the keys distinct. -/
theorem distinct_set [EquivBEq κ] {t : Table κ ν} (h : Distinct t.keys) (key : κ) (value : ν) :
    Distinct (t.set key value).keys := by
  rcases set_cases t key value with ⟨hnone, hset⟩ | ⟨front, k, held, back, rfl, hlike, hset⟩
  · rw [hset, keys, List.map_append]
    refine List.pairwise_append.mpr ⟨h, List.pairwise_singleton _ _, ?_⟩
    intro a ha b hb
    obtain ⟨row, hrow, rfl⟩ := List.mem_map.mp ha
    obtain rfl : b = key := by simpa using hb
    cases hlike : row.1 == b with
    | false => rfl
    | true => simp [has_iff.mpr ⟨row, hrow, hlike⟩] at hnone
  · have hkeys : keys (front ++ (k, value) :: back) = keys (front ++ (k, held) :: back) := by
      simp [keys]
    rw [hset, hkeys]
    exact h

/-- Sets each of several keys. -/
def setAll (t : Table κ ν) (rows : List (κ × ν)) : Table κ ν :=
  rows.foldl (fun t row => t.set row.1 row.2) t

theorem setAll_append (t : Table κ ν) (rows more : List (κ × ν)) :
    t.setAll (rows ++ more) = (t.setAll rows).setAll more :=
  List.foldl_append

theorem forall_mem_setAll [ReflBEq κ] {P : κ → ν → Prop} {t : Table κ ν} {rows : List (κ × ν)}
    (h : ∀ row ∈ t, P row.1 row.2)
    (hnew : ∀ row ∈ rows, ∀ k, (k == row.1) = true → P k row.2) :
    ∀ row ∈ t.setAll rows, P row.1 row.2 := by
  induction rows generalizing t with
  | nil => exact h
  | cons row rows ih =>
      obtain ⟨hrow, hrows⟩ := List.forall_mem_cons.mp hnew
      exact ih (forall_mem_set h hrow) hrows

theorem distinct_setAll [EquivBEq κ] {t : Table κ ν} (h : Distinct t.keys) (rows : List (κ × ν)) :
    Distinct (t.setAll rows).keys := by
  induction rows generalizing t with
  | nil => exact h
  | cons row rows ih => exact ih (distinct_set h row.1 row.2)

theorem has_setAll [EquivBEq κ] (t : Table κ ν) (rows : List (κ × ν)) (key : κ) :
    (t.setAll rows).has key = (t.has key || Table.has rows key) := by
  induction rows generalizing t with
  | nil => rw [setAll, List.foldl_nil, has_eq_any [], List.any_nil, Bool.or_false]
  | cons row rows ih =>
      rw [setAll, List.foldl_cons]
      rw [← setAll, ih, has_set, has_eq_any (row :: rows), List.any_cons, ← has_eq_any,
        Bool.or_assoc]

/-- Rows whose keys are all new are added at the end. -/
theorem setAll_eq_append [EquivBEq κ] {t : Table κ ν} {rows : List (κ × ν)}
    (h : Distinct (t ++ rows).keys) : t.setAll rows = t ++ rows := by
  induction rows generalizing t with
  | nil => rw [setAll, List.foldl_nil, List.append_nil]
  | cons row rows ih =>
      have hnew : t.has row.1 = false := by
        rw [keys, List.map_append] at h
        rw [has_eq_any, List.any_eq_false]
        intro other hother
        have hunlike := (List.pairwise_append.mp h).2.2 other.1 (List.mem_map_of_mem hother) row.1
          List.mem_cons_self
        simpa using hunlike
      rw [setAll, List.foldl_cons, ← setAll, set_of_not_has hnew, ih, List.append_assoc]
      · rfl
      · rw [List.append_assoc]
        exact h

theorem keys_set (t : Table κ ν) (key : κ) (value : ν) :
    (t.set key value).keys = t.keys ++ if t.has key then [] else [key] := by
  rcases set_cases t key value with ⟨hnone, hset⟩ | ⟨front, k, held, back, rfl, hlike, hset⟩
  · rw [hset, hnone]
    simp [keys]
  · have hhas : has (front ++ (k, held) :: back) key = true :=
      has_iff.mpr ⟨(k, held), by simp, hlike⟩
    rw [hset, hhas]
    simp [keys]

/-- Setting several keys leaves those that are there where they are and adds the others at the end. -/
theorem keys_setAll [EquivBEq κ] (t : Table κ ν) {rows : Table κ ν} (h : Distinct rows.keys) :
    (t.setAll rows).keys = t.keys ++ rows.keys.filter (!t.has ·) := by
  induction rows generalizing t with
  | nil => simp [setAll, keys]
  | cons row rows ih =>
      obtain ⟨hrow, hrows⟩ := List.pairwise_cons.mp h
      have hsame :
          (keys rows).filter (!(t.set row.1 row.2).has ·) = (keys rows).filter (!t.has ·) := by
        refine List.filter_congr fun key hkey => ?_
        rw [has_set, hrow key hkey, Bool.or_false]
      rw [setAll, List.foldl_cons, ← setAll, ih _ hrows, hsame, keys_set, List.append_assoc]
      cases hhas : t.has row.1 <;> simp [keys, hhas]

/-! ### Erasing -/

theorem keys_erase (t : Table κ ν) (key : κ) :
    (t.erase key).keys = t.keys.filter (!· == key) := by
  rw [keys, keys, List.filter_map]
  rfl

theorem distinct_filter {t : Table κ ν} (h : Distinct t.keys) (keep : κ × ν → Bool) :
    Distinct (Table.keys (t.filter keep)) :=
  List.Pairwise.sublist (List.filter_sublist.map _) h

theorem erase_of_not_has {t : Table κ ν} {key : κ} (h : t.has key = false) :
    t.erase key = t := by
  rw [has_eq_any, List.any_eq_false] at h
  refine List.filter_eq_self.mpr ?_
  intro row hrow
  simpa using h row hrow

theorem has_erase [EquivBEq κ] (t : Table κ ν) (key other : κ) :
    (t.erase key).has other = (t.has other && !key == other) := by
  rw [has_eq_any, has_eq_any, erase, List.any_filter]
  cases hlike : key == other with
  | true =>
      have hnone (row : κ × ν) : (!(row.1 == key) && row.1 == other) = false := by
        rw [BEq.congr_right hlike, Bool.not_and_self]
      simp [hnone]
  | false =>
      have hsame (row : κ × ν) : (!(row.1 == key) && row.1 == other) = (row.1 == other) := by
        cases hrow : row.1 == other with
        | false => simp
        | true => simp [BEq.congr_left hrow, BEq.comm (a := other), hlike]
      simp [hsame]

/-! ### Keys that are the same if they are alike -/

section Lawful

variable [LawfulBEq κ]

theorem distinct_iff_nodup {keys : List κ} : Distinct keys ↔ keys.Nodup := by
  simp [Distinct, List.Nodup]

theorem has_iff_mem_keys {t : Table κ ν} {key : κ} : t.has key = true ↔ key ∈ t.keys := by
  rw [has_iff, keys, List.mem_map]
  simp

/-- Setting keys from nothing gives as many rows as keys exactly if no key is set twice. -/
theorem length_setAll_iff (rows : Table κ ν) :
    (setAll [] rows).length = rows.length ↔ rows.keys.Nodup := by
  constructor
  · intro hlength
    have hnone : Distinct (keys ([] : Table κ ν)) := List.Pairwise.nil
    have hdistinct : (setAll [] rows).keys.Nodup :=
      distinct_iff_nodup.mp (distinct_setAll hnone rows)
    have hsubset : (setAll [] rows).keys ⊆ rows.keys := by
      intro key hkey
      rw [← has_iff_mem_keys, has_setAll] at hkey
      exact has_iff_mem_keys.mp (by simpa [has, get?] using hkey)
    have hperm := (List.subperm_of_subset hdistinct hsubset).perm_of_length_le
      (by simp [keys, hlength])
    exact hperm.nodup_iff.mp hdistinct
  · intro hdistinct
    have hnew : Distinct (keys ([] ++ rows)) := distinct_iff_nodup.mpr hdistinct
    rw [setAll_eq_append hnew, List.nil_append]

end Lawful

end Table

end PluginHelp
