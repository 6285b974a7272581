/-
Values that may be missing.

Such a value is made from others step by step, and two questions come up: what must have been there
for the value to be there, and for which causes it may be missing.  Both are answered step by step,
too.
-/
import Mathlib.Data.List.Forall2

namespace PluginHelp

variable {ε α β : Type}

/-- A value made from another one is there exactly if both are. -/
theorem Except.bind_eq_ok_iff {value : Except ε α} {next : α → Except ε β} {b : β} :
    (value >>= next) = .ok b ↔ ∃ a, value = .ok a ∧ next a = .ok b := by
  cases value with
  | ok a => simp [bind, Except.bind]
  | error e => simp [bind, Except.bind]

/-- Values made from the items of a list are there exactly if each of them is. -/
theorem Except.mapM_eq_ok_iff {make : α → Except ε β} {items : List α} {made : List β} :
    items.mapM make = .ok made ↔ List.Forall₂ (fun a b => make a = .ok b) items made := by
  induction items generalizing made with
  | nil => simp [Pure.pure, Except.pure, eq_comm]
  | cons a rest ih =>
      rw [List.mapM_cons, Except.bind_eq_ok_iff, List.forall₂_cons_left_iff]
      constructor
      · rintro ⟨b, hb, hrest⟩
        obtain ⟨bs, hbs, hmade⟩ := Except.bind_eq_ok_iff.mp hrest
        exact ⟨b, bs, hb, ih.mp hbs, (Except.ok.inj hmade).symm⟩
      · rintro ⟨b, bs, hb, hbs, rfl⟩
        exact ⟨b, hb, Except.bind_eq_ok_iff.mpr ⟨bs, ih.mpr hbs, rfl⟩⟩

/-- Each of them is made from one of the items. -/
theorem Except.exists_of_mem_mapM {make : α → Except ε β} {items : List α} {made : List β}
    (h : items.mapM make = .ok made) {b : β} (hb : b ∈ made) : ∃ a ∈ items, make a = .ok b := by
  have hmade := Except.mapM_eq_ok_iff.mp h
  clear h
  induction hmade with
  | nil => cases hb
  | cons hfirst hrest ih =>
      rcases List.mem_cons.mp hb with rfl | hb
      · exact ⟨_, List.mem_cons_self, hfirst⟩
      · obtain ⟨a, ha, hmake⟩ := ih hb
        exact ⟨a, List.mem_cons_of_mem _ ha, hmake⟩

theorem Except.exists_mapM_iff {make : α → Except ε β} {items : List α} :
    (∃ made, items.mapM make = .ok made) ↔ ∀ a ∈ items, ∃ b, make a = .ok b := by
  induction items with
  | nil => simp [Pure.pure, Except.pure]
  | cons a rest ih =>
      rw [List.forall_mem_cons, ← ih]
      constructor
      · rintro ⟨made, hmade⟩
        rw [List.mapM_cons] at hmade
        obtain ⟨b, hb, hrest⟩ := Except.bind_eq_ok_iff.mp hmade
        obtain ⟨bs, hbs, -⟩ := Except.bind_eq_ok_iff.mp hrest
        exact ⟨⟨b, hb⟩, bs, hbs⟩
      · rintro ⟨⟨b, hb⟩, bs, hbs⟩
        refine ⟨b :: bs, ?_⟩
        rw [List.mapM_cons, hb, hbs]
        rfl

/-- They are missing exactly if one of them is and those before it are there. -/
theorem Except.mapM_eq_error_iff {make : α → Except ε β} {items : List α} {e : ε} :
    items.mapM make = .error e ↔
      ∃ front a back made, items = front ++ a :: back ∧ front.mapM make = .ok made
        ∧ make a = .error e := by
  induction items with
  | nil => simp [Pure.pure, Except.pure]
  | cons a rest ih =>
      rw [List.mapM_cons]
      cases ha : make a with
      | error other =>
          constructor
          · intro h
            obtain rfl : other = e := Except.error.inj h
            exact ⟨[], a, rest, [], rfl, rfl, ha⟩
          · rintro ⟨front, b, back, made, hitems, hfront, hb⟩
            cases front with
            | nil =>
                obtain ⟨rfl, -⟩ := List.cons.inj hitems
                obtain rfl : other = e := Except.error.inj (ha.symm.trans hb)
                rfl
            | cons c front =>
                obtain ⟨rfl, -⟩ := List.cons.inj hitems
                rw [List.mapM_cons, ha] at hfront
                cases hfront
      | ok first =>
          constructor
          · intro h
            cases hrest : rest.mapM make with
            | ok made =>
                rw [hrest] at h
                cases h
            | error other =>
                rw [hrest] at h
                obtain rfl : other = e := Except.error.inj h
                obtain ⟨front, b, back, made, rfl, hfront, hb⟩ := ih.mp hrest
                refine ⟨a :: front, b, back, first :: made, rfl, ?_, hb⟩
                rw [List.mapM_cons, ha, hfront]
                rfl
          · rintro ⟨front, b, back, made, hitems, hfront, hb⟩
            cases front with
            | nil =>
                obtain ⟨rfl, -⟩ := List.cons.inj hitems
                rw [ha] at hb
                cases hb
            | cons c front =>
                obtain ⟨rfl, rfl⟩ := List.cons.inj hitems
                rw [List.mapM_cons, ha] at hfront
                obtain ⟨held, -, hheld⟩ := Except.bind_eq_ok_iff.mp hfront
                obtain ⟨others, hothers, -⟩ := Except.bind_eq_ok_iff.mp hheld
                rw [ih.mpr ⟨front, b, back, others, rfl, hothers, hb⟩]
                rfl

/-- A value is missing only for allowed causes. -/
def Covers (allowed : ε → Prop) (value : Except ε α) : Prop :=
  ∀ e, value = .error e → allowed e

namespace Covers

variable {allowed : ε → Prop}

theorem ok (a : α) : Covers allowed (.ok a : Except ε α) :=
  fun _ h => by simp at h

theorem error {e : ε} (h : allowed e) : Covers allowed (.error e : Except ε α) := by
  intro other hother
  obtain rfl : e = other := by simpa using hother
  exact h

theorem mono {wider : ε → Prop} {value : Except ε α} (h : Covers allowed value)
    (k : ∀ e, allowed e → wider e) : Covers wider value :=
  fun e he => k e (h e he)

theorem bind {value : Except ε α} {next : α → Except ε β} (h : Covers allowed value)
    (k : ∀ a, value = .ok a → Covers allowed (next a)) : Covers allowed (value >>= next) := by
  cases value with
  | ok a => exact k a rfl
  | error e => exact error (h e rfl)

theorem ite {c : Prop} [Decidable c] {value other : Except ε α} (h : c → Covers allowed value)
    (k : ¬c → Covers allowed other) : Covers allowed (if c then value else other) := by
  split
  · exact h ‹c›
  · exact k ‹¬c›

theorem map {value : Except ε α} (h : Covers allowed value) (f : α → β) :
    Covers allowed (value.map f) := by
  cases value with
  | ok a => exact ok (f a)
  | error e => exact error (h e rfl)

theorem mapM {make : α → Except ε β} {items : List α} (h : ∀ a ∈ items, Covers allowed (make a)) :
    Covers allowed (items.mapM make) := by
  induction items with
  | nil => exact ok []
  | cons a rest ih =>
      obtain ⟨ha, hrest⟩ := List.forall_mem_cons.mp h
      rw [List.mapM_cons]
      exact bind ha fun b _ => bind (ih hrest) fun bs _ => ok (b :: bs)

end Covers

end PluginHelp
