/-
What the lines of a doc comment keep.

Documentation gives an entry a kind and some controls.  Most lines do one of a few things: they mark
the entry, they give it one of three kinds, they set one of a few controls, or they tell text.  Only a
section and a setting do several things at once that belong together.  So to see that every line
keeps a property of entries, it is enough to look at these steps.
-/
import PluginHelp.Proofs.Entry.Controls

namespace PluginHelp

open Act

namespace Entry

/-- A step that keeps a property of an entry, or fails for an allowed cause. -/
def Respects (P : Entry → Prop) (allowed : Cause → Prop) (act : Act Entry Unit) : Prop :=
  ∀ e, P e → Ensures act e (fun _ t => P t) allowed

/-- The kinds that a line may give without giving anything that belongs to the kind. -/
def bareKinds : List Kind :=
  [.backmatter, .function, .command]

/-- The controls that documentation gives to entries of any kind, beside the name of a dictionary. -/
def docControls : List String :=
  ["id", "deprecated", "exception", "attribute", "parent_id", "private"]

/-- A property that documentation keeps, from the beginning of an entry on. -/
structure Kept (P : Entry → Prop) (allowed : Cause → Prop) : Prop where
  new : ∀ isSecondary, P { isSecondary }
  own : ∀ {e t : Entry}, P e → t.own = e.own → P t
  marked : Respects P allowed (setKind (.flag true))
  kind : ∀ kind ∈ bareKinds, Respects P allowed (setKind kind.toValue)
  control : ∀ control ∈ docControls, ∀ value, Respects P allowed (setOwn control value)
  dict : ∀ name, Respects P allowed (setOwn "dict" (.text name))
  sect : ∀ title id, Respects P allowed (DocLine.sect title id).update
  setting : ∀ name, Respects P allowed (DocLine.setting name).update
  redundant : ∀ control, allowed (.redundantControl control)
  misplaced : ∀ parent, allowed (.misplacedParent parent)

variable {P Q : Entry → Prop} {allowed also : Cause → Prop} {act next : Act Entry Unit}

theorem respects_pure : Respects P allowed (pure ()) :=
  fun _ he => Ensures.pure he

theorem Respects.bind (h : Respects P allowed act) (k : Respects P allowed next) :
    Respects P allowed (act >>= fun _ => next) :=
  fun e he => Ensures.bind (h e he) fun _ t ht => k t ht

namespace Kept

/-- Text keeps whatever depends on controls only. -/
theorem tells (hP : Kept P allowed) (h : Tells act) : Respects P allowed act := by
  intro e he
  refine ((h e).mono fun _ t ht => hP.own he ?_).allow fun _ hcause => hcause.elim
  have huntold : t.untold.own = e.untold.own := by rw [ht]
  exact huntold

theorem setShared (hP : Kept P allowed) (control : String) (value : Value) :
    Respects P allowed (setShared control value) := by
  intro e he
  unfold Entry.setShared
  refine Ensures.bind (hP.marked e he) fun _ t ht => Ensures.get_bind ?_
  exact Ensures.ite (fun _ => hP.redundant control) fun _ => Ensures.modify (hP.own ht rfl)

theorem setParent (hP : Kept P allowed) (parent : Value) :
    Respects P allowed (setParent parent) := by
  intro e he
  unfold Entry.setParent
  refine Ensures.get_bind (Ensures.ite (fun _ => ?_) fun _ => hP.misplaced parent)
  exact hP.control "parent_id" (by decide) parent e he

/-- Every line of documentation keeps the property. -/
theorem update (hP : Kept P allowed) (line : DocLine) : Respects P allowed line.update := by
  cases line with
  | text line => exact hP.tells (addLine_tells line)
  | all => exact respects_pure
  | author name => exact hP.setShared _ _
  | backmatter id =>
      exact (hP.kind .backmatter (by decide)).bind (hP.control "id" (by decide) _)
  | default argument value => exact hP.tells (addDefault_tells argument value)
  | deprecated reason => exact hP.control "deprecated" (by decide) _
  | exception word => exact hP.control "exception" (by decide) _
  | dict name member =>
      refine hP.marked.bind ((hP.dict name).bind ?_)
      cases member with
      | none => exact respects_pure
      | some member =>
          exact (hP.kind .function (by decide)).bind (hP.control "attribute" (by decide) _)
  | library => exact hP.setShared _ _
  | order ids => exact hP.setShared _ _
  | parentSection id => exact hP.setParent _
  | markPrivate => exact hP.control "private" (by decide) _
  | markPublic => exact hP.control "private" (by decide) _
  | sect title id => exact hP.sect title id
  | setting name => exact hP.setting name
  | standalone => exact hP.setShared _ _
  | stylized name => exact hP.setShared _ _
  | subSection title => exact hP.tells (beginPassage_tells _)
  | tagline line => exact hP.setShared _ _
  | throws error description => exact hP.tells (addError_tells error description)
  | header given =>
      show Respects P allowed (DocLine.headerKind given.kind)
      cases given.kind with
      | command => exact hP.kind .command (by decide)
      | function => exact hP.kind .function (by decide)
      | usage => exact respects_pure

/-- Two properties that are kept are kept together. -/
theorem and (h : Kept P allowed) (k : Kept Q also) :
    Kept (fun e => P e ∧ Q e) (fun cause => allowed cause ∧ also cause) where
  new isSecondary := ⟨h.new isSecondary, k.new isSecondary⟩
  own he hown := ⟨h.own he.1 hown, k.own he.2 hown⟩
  marked e he := (h.marked e he.1).both (k.marked e he.2)
  kind kind hkind e he := (h.kind kind hkind e he.1).both (k.kind kind hkind e he.2)
  control control hcontrol value e he :=
    (h.control control hcontrol value e he.1).both (k.control control hcontrol value e he.2)
  dict name e he := (h.dict name e he.1).both (k.dict name e he.2)
  sect title id e he := (h.sect title id e he.1).both (k.sect title id e he.2)
  setting name e he := (h.setting name e he.1).both (k.setting name e he.2)
  redundant control := ⟨h.redundant control, k.redundant control⟩
  misplaced parent := ⟨h.misplaced parent, k.misplaced parent⟩

end Kept

end Entry

end PluginHelp
