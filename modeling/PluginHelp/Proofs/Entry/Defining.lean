/-
What a line of code tells the entries above it.

A line that defines something gives an entry a kind and some controls, and leaves every other control
as it was.  `CodeLine.kind?` and `CodeLine.controls` list what that is for each line, so that nothing
more has to be known about how the line does it.
-/
import PluginHelp.Proofs.Entry.Undefined

namespace PluginHelp

open Act Entry

namespace CodeLine

/-- The kind of what a line defines. -/
def kind? : CodeLine → Option Kind
  | function .. => some .function
  | command .. => some .command
  | setting _ => some .setting
  | flag .. => some .flag
  | blank | endOfFile | unrecognized _ => none

/-- The controls that a line gives, beside the kind. -/
def controls : CodeLine → List (String × Value)
  | function name (some space) parameters =>
    [("args", .texts parameters), ("local", .flag true), ("namespace", .text space),
      ("name", .text name)]
  | function name none parameters =>
    [("args", .texts parameters), ("local", .flag false), ("name", .text name)]
  | command name flags => [("head", .text flags.head), ("name", .text name)]
  | setting name => [("name", .text name)]
  | flag name _ => [("name", .ofText? name)]
  | blank | endOfFile | unrecognized _ => []

end CodeLine

/-- An entry has become one of a kind and has gained controls; all others are as they were. -/
structure Gains (kind : Kind) (controls : List (String × Value)) (e t : Entry) : Prop where
  kindValue : t.kindValue = kind.toValue
  own : ∀ control, control ≠ "type" → t.own? control = (controls.lookup control).or (e.own? control)

theorem Gains.setOwn {kind : Kind} {controls : List (String × Value)} {e t : Entry}
    (h : Gains kind controls e t) (hlabel : kind.label ≠ "") {control : String} (value : Value)
    (hcontrol : control ≠ "type") :
    Ensures (Entry.setOwn control value) t
      (fun _ u => Gains kind ((control, value) :: controls) e u) (·.isForeseen = true) := by
  refine ((setOwn_ensures control value t).mono ?_).allow ?_
  · rintro _ u rfl
    refine ⟨?_, fun other hother => ?_⟩
    · rw [kindValue_putOwn_of_ne _ value hcontrol, ← isOf_iff, isOf_marked t hlabel, isOf_iff]
      exact h.kindValue
    · by_cases heq : control = other
      · rw [← heq, own?_putOwn_self, List.lookup_cons_self]
        rfl
      · rw [own?_putOwn_of_ne _ value heq, own?_marked t hother, h.own other hother,
          List.lookup_cons, show (other == control) = false by simpa using Ne.symm heq]
  · rintro _ ⟨held, rfl⟩
    rfl

theorem setKind_gains (kind : Kind) (e : Entry) :
    Ensures (setKind kind.toValue) e (fun _ t => Gains kind [] e t) (·.isForeseen = true) := by
  refine ((setKind_ensures kind e).mono ?_).allow ?_
  · rintro _ t ⟨rfl, -⟩
    exact ⟨kindValue_putOwn_type e _, fun control hcontrol => own?_putOwn_of_ne e _ hcontrol.symm⟩
  · rintro _ ⟨held, rfl⟩
    rfl

theorem CodeLine.define_gains {kind : Kind} (hlabel : kind.label ≠ "") (name : Value) (e : Entry) :
    Ensures (CodeLine.define kind name) e (fun _ t => Gains kind [("name", name)] e t)
      (·.isForeseen = true) :=
  Ensures.bind (setKind_gains kind e) fun _ _ ht => ht.setOwn hlabel name (by decide)

/-- A line that defines something gives what is listed for it, or its fault is foreseen. -/
theorem CodeLine.update_gains {line : CodeLine} {kind : Kind} (h : line.kind? = some kind)
    (e : Entry) :
    Ensures line.update e (fun _ t => Gains kind line.controls e t) (·.isForeseen = true) := by
  cases line with
  | function name space parameters =>
      obtain rfl : Kind.function = kind := Option.some.inj h
      refine Ensures.bind (define_gains (by decide) (.text name) e) fun _ t ht => ?_
      cases space with
      | none =>
          refine Ensures.bind (ht.setOwn (by decide) _ (by decide)) fun _ u hu => ?_
          exact hu.setOwn (by decide) _ (by decide)
      | some space =>
          refine Ensures.bind (ht.setOwn (by decide) _ (by decide)) fun _ u hu => ?_
          refine Ensures.bind (hu.setOwn (by decide) _ (by decide)) fun _ v hv => ?_
          exact hv.setOwn (by decide) _ (by decide)
  | command name flags =>
      obtain rfl : Kind.command = kind := Option.some.inj h
      refine Ensures.bind (define_gains (by decide) (.text name) e) fun _ t ht => ?_
      exact ht.setOwn (by decide) _ (by decide)
  | setting name =>
      obtain rfl : Kind.setting = kind := Option.some.inj h
      exact define_gains (by decide) (.text name) e
  | flag name initial =>
      obtain rfl : Kind.flag = kind := Option.some.inj h
      exact define_gains (by decide) (.ofText? name) e
  | blank | endOfFile | unrecognized line => cases h

/-- A line that defines nothing tells nothing. -/
theorem CodeLine.update_of_none {line : CodeLine} (h : line.kind? = none) :
    line.update = pure () := by
  cases line with
  | blank | endOfFile | unrecognized line => rfl
  | function name space parameters | command name flags | setting name | flag name initial => cases h

/-- No line of code gives a usage. -/
theorem CodeLine.update_usage (line : CodeLine) (e : Entry) :
    Ensures line.update e (fun _ t => t.own? "usage" = e.own? "usage") (fun _ => True) := by
  cases hkind : line.kind? with
  | none =>
      rw [update_of_none hkind]
      exact Ensures.pure rfl
  | some kind =>
      refine ((update_gains hkind e).mono fun _ t ht => ?_).allow fun _ _ => trivial
      rw [ht.own "usage" (by decide)]
      cases line with
      | function name space parameters => cases space <;> rfl
      | _ => rfl

end PluginHelp
