/-
The values of controls and of descriptions.

A control of a documented entry, and a field of a plugin's description, may hold any value: a text, a
number, a yes or no, a list, an object, or explicitly nothing.  Messages show a text bare, and quote
it inside a list or an object.
-/
import PluginHelp.Text.Quoted

namespace PluginHelp

/-- A value. -/
inductive Value where
  | nothing
  | flag (yes : Bool)
  | number (n : Int)
  /-- A number that is not a whole one, as it is shown. -/
  | real (shown : String)
  | text (s : String)
  | list (items : List Value)
  | object (fields : List (String × Value))
deriving Repr, Inhabited

namespace Value

/-! ### Equality -/

mutual

/-- Decides whether two values are the same one. -/
def decEq : (a b : Value) → Decidable (a = b)
  | nothing, b =>
    match b with
    | nothing => isTrue rfl
    | flag _ | number _ | real _ | text _ | list _ | object _ => isFalse (by simp)
  | flag a, b =>
    match b with
    | flag b => decidable_of_iff (a = b) (by simp)
    | nothing | number _ | real _ | text _ | list _ | object _ => isFalse (by simp)
  | number a, b =>
    match b with
    | number b => decidable_of_iff (a = b) (by simp)
    | nothing | flag _ | real _ | text _ | list _ | object _ => isFalse (by simp)
  | real a, b =>
    match b with
    | real b => decidable_of_iff (a = b) (by simp)
    | nothing | flag _ | number _ | text _ | list _ | object _ => isFalse (by simp)
  | text a, b =>
    match b with
    | text b => decidable_of_iff (a = b) (by simp)
    | nothing | flag _ | number _ | real _ | list _ | object _ => isFalse (by simp)
  | list a, b =>
    match b with
    | list b =>
      match decEqItems a b with
      | isTrue h => isTrue (by rw [h])
      | isFalse h => isFalse (by simpa using h)
    | nothing | flag _ | number _ | real _ | text _ | object _ => isFalse (by simp)
  | object a, b =>
    match b with
    | object b =>
      match decEqFields a b with
      | isTrue h => isTrue (by rw [h])
      | isFalse h => isFalse (by simpa using h)
    | nothing | flag _ | number _ | real _ | text _ | list _ => isFalse (by simp)

/-- Decides whether two lists of values are the same one. -/
def decEqItems : (a b : List Value) → Decidable (a = b)
  | [], [] => isTrue rfl
  | [], _ :: _ | _ :: _, [] => isFalse (by simp)
  | a :: as, b :: bs =>
    match decEq a b, decEqItems as bs with
    | isTrue h, isTrue k => isTrue (by rw [h, k])
    | isFalse h, _ => isFalse (by simp [h])
    | _, isFalse k => isFalse (by simp [k])

/-- Decides whether two lists of fields are the same one. -/
def decEqFields : (a b : List (String × Value)) → Decidable (a = b)
  | [], [] => isTrue rfl
  | [], _ :: _ | _ :: _, [] => isFalse (by simp)
  | (key, a) :: as, (other, b) :: bs =>
    if e : key = other then
      match decEq a b, decEqFields as bs with
      | isTrue h, isTrue k => isTrue (by rw [e, h, k])
      | isFalse h, _ => isFalse (by simp [h])
      | _, isFalse k => isFalse (by simp [k])
    else
      isFalse (by simp [e])

end

instance : DecidableEq Value := decEq

/-! ### How values are shown -/

mutual

/-- A value inside another one: texts are quoted. -/
def quoted : Value → String
  | nothing => "None"
  | flag true => "True"
  | flag false => "False"
  | number n => toString n
  | real shown => shown
  | text s => Text.quoted s
  | list items => Text.bracketed (quotedItems items)
  | object fields => "\x7b" ++ ", ".intercalate (quotedFields fields) ++ "\x7d"

/-- The items of a list, quoted. -/
def quotedItems : List Value → List String
  | [] => []
  | item :: items => quoted item :: quotedItems items

/-- The fields of an object, quoted. -/
def quotedFields : List (String × Value) → List String
  | [] => []
  | (key, value) :: fields => (Text.quoted key ++ ": " ++ quoted value) :: quotedFields fields

end

/-- A value as messages and help pages show it: a text is bare. -/
def shown : Value → String
  | text s => s
  | value => value.quoted

/-! ### Questions to a value -/

/-- Whether a value counts as given: nothing, no, zero and what is empty do not. -/
def isGiven : Value → Bool
  | nothing => false
  | flag yes => yes
  | number n => n != 0
  | real shown => shown != "0.0" && shown != "-0.0"
  | text s => s != ""
  | list items => !items.isEmpty
  | object fields => !fields.isEmpty

/-- Whether a value is explicitly nothing. -/
def isNothing : Value → Bool
  | nothing => true
  | _ => false

/-- Whether a value is a plain yes. -/
def isYes : Value → Bool
  | flag yes => yes
  | _ => false

/-- Whether a table may have a value as its key: lists and objects have no fixed place in one. -/
def isKey : Value → Bool
  | list _ | object _ => false
  | _ => true

/-- The text of a value, if it is one. -/
def text? : Value → Option String
  | text s => some s
  | _ => none

/-- A text, or nothing where there is none. -/
def ofText? : Option String → Value
  | some s => text s
  | none => nothing

/-- A list of texts. -/
def texts (items : List String) : Value :=
  list (items.map text)

/-- A value as a whole number; yes counts as one and no as zero. -/
def number? : Value → Option Int
  | number n => some n
  | flag yes => some (if yes then 1 else 0)
  | _ => none

/-- The items of a value, one by one: those of a list, the characters of a text or the names of an
object's fields. -/
def items? : Value → Option (List Value)
  | list items => some items
  | text s => some (s.toList.map fun c => text (String.singleton c))
  | object fields => some (fields.map fun field => text field.1)
  | _ => none

end Value

end PluginHelp
