/-
Tables that remember the order in which their keys came.

Setting a key that is already there changes its value and keeps its place; a new key goes to the end.
Erasing a key and setting it again therefore moves it to the end.  Keys are compared by likeness: a
key that is like one in the table stands for it.
-/
namespace PluginHelp

/-- Keys with their values, in the order in which the keys came. -/
abbrev Table (κ : Type) (ν : Type) := List (κ × ν)

namespace Table

variable {κ ν : Type} [BEq κ]

/-- The value of a key. -/
def get? : Table κ ν → κ → Option ν
  | [], _ => none
  | (k, v) :: rest, key => if k == key then some v else get? rest key

/-- Whether a table has a key. -/
def has (t : Table κ ν) (key : κ) : Bool :=
  (t.get? key).isSome

/-- Gives a key a value. -/
def set : Table κ ν → κ → ν → Table κ ν
  | [], key, value => [(key, value)]
  | (k, v) :: rest, key, value =>
    if k == key then (k, value) :: rest else (k, v) :: set rest key value

/-- Removes a key. -/
def erase (t : Table κ ν) (key : κ) : Table κ ν :=
  t.filter fun entry => !entry.1 == key

/-- The keys in order. -/
def keys (t : Table κ ν) : List κ :=
  t.map (·.1)

@[simp] theorem get?_set_self [ReflBEq κ] (t : Table κ ν) (key : κ) (value : ν) :
    (t.set key value).get? key = some value := by
  induction t with
  | nil => simp [set, get?]
  | cons entry rest ih =>
    obtain ⟨k, v⟩ := entry
    by_cases h : (k == key) = true <;> simp [set, get?, h, ih]

theorem get?_set_of_unlike [PartialEquivBEq κ] (t : Table κ ν) {key other : κ} (value : ν)
    (h : (key == other) = false) : (t.set key value).get? other = t.get? other := by
  induction t with
  | nil => simp [set, get?, h]
  | cons entry rest ih =>
    obtain ⟨k, v⟩ := entry
    by_cases hk : (k == key) = true
    · have : (k == other) = false := by rw [BEq.congr_left hk, h]
      simp [set, get?, hk, this]
    · simp [set, get?, hk, ih]

end Table

end PluginHelp
