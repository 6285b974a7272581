/-
What the lines of a doc comment leave alone.

A line, be it documentation or code, tells an entry something: its text, a control, its kind.  None
of them touches the header, closes the entry, makes it secondary or gives it a level, and what can
go wrong is always about the entry itself.  Only a header line sets the header, and only closing
closes.
-/
import PluginHelp.Proofs.Entry.Text
import PluginHelp.Source.Code
import PluginHelp.Source.Directive

namespace PluginHelp

/-- What `Entry.layOut` takes for granted about its entry. -/
def Entry.usageAssumption : String :=
  "A usage is of a function or a command."

/-- The causes for which a step on one entry may fail. -/
def Cause.OfEntry : Cause → Prop
  | kindConflict .. | redundantControl _ | inconsistentControl .. | invalidEntry _
  | misplacedParent _ | missing _ | closedPassage | noOpenPassage | wrongValue => True
  | assumption what => what = Entry.usageAssumption
  | _ => False

/-- The causes for which an entry may have no name. -/
def Cause.OfName : Cause → Prop
  | missing what => what = "dict" ∨ what = "Unnamed block."
  | wrongValue => True
  | _ => False

theorem Cause.OfName.ofEntry {cause : Cause} (h : cause.OfName) : cause.OfEntry := by
  cases cause <;> first | exact h.elim | trivial

namespace Entry

/-- What lines leave alone: the header, whether the entry is secondary or closed, and whether it has
a level. -/
def frame (e : Entry) : Option Header × Bool × Bool × Bool :=
  (e.header, e.isSecondary, e.isClosed, e.hasOwn "level")

theorem header_eq_of_frame {e other : Entry} (h : e.frame = other.frame) :
    e.header = other.header :=
  congrArg Prod.fst h

theorem isSecondary_eq_of_frame {e other : Entry} (h : e.frame = other.frame) :
    e.isSecondary = other.isSecondary :=
  congrArg (fun view => view.2.1) h

theorem isClosed_eq_of_frame {e other : Entry} (h : e.frame = other.frame) :
    e.isClosed = other.isClosed :=
  congrArg (fun view => view.2.2.1) h

/-- A step on an entry that leaves its frame alone and fails only for causes of its own. -/
abbrev Framed {α : Type} (act : Act Entry α) : Prop :=
  Act.Confined frame Cause.OfEntry act

open Act

/-! ### Controls -/

theorem own?_putOwn_self (e : Entry) (control : String) (value : Value) :
    (e.putOwn control value).own? control = some value :=
  Table.get?_set_self e.own control value

theorem own?_putOwn_of_ne (e : Entry) {control other : String} (value : Value)
    (h : control ≠ other) : (e.putOwn control value).own? other = e.own? other := by
  have hunlike : (control == other) = false := by simpa using h
  exact Table.get?_set_of_unlike e.own value hunlike

theorem hasOwn_putOwn_of_ne (e : Entry) {control other : String} (value : Value)
    (h : control ≠ other) : (e.putOwn control value).hasOwn other = e.hasOwn other :=
  congrArg Option.isSome (own?_putOwn_of_ne e value h)

theorem frame_putOwn (e : Entry) {control : String} (value : Value) (h : control ≠ "level") :
    (e.putOwn control value).frame = e.frame := by
  unfold frame
  rw [hasOwn_putOwn_of_ne e value h]
  rfl

theorem setKind_framed (wanted : Value) : Framed (setKind wanted) := by
  unfold setKind
  refine Confined.get.bind ?_
  intro e
  refine Confined.ite (fun _ => ?_) (fun _ => Confined.ite (fun _ => ?_) (fun _ => ?_))
  · exact Confined.modify fun s => frame_putOwn s _ (by decide)
  · exact Confined.modify fun s => frame_putOwn s _ (by decide)
  · exact Confined.fail trivial

theorem setOwn_framed {control : String} (value : Value) (h : control ≠ "level") :
    Framed (setOwn control value) := by
  unfold setOwn
  refine (setKind_framed _).bind fun _ => Confined.get.bind fun e => ?_
  refine Confined.ite (fun _ => ?_) (fun _ => ?_)
  · exact Confined.modify fun s => frame_putOwn s _ h
  · exact Confined.fail trivial

theorem setShared_framed (control : String) (value : Value) :
    Framed (setShared control value) := by
  unfold setShared
  refine (setKind_framed _).bind fun _ => Confined.get.bind fun e => ?_
  refine Confined.ite (fun _ => ?_) (fun _ => ?_)
  · exact Confined.fail trivial
  · exact Confined.modify fun _ => rfl

theorem setParent_framed (parent : Value) : Framed (setParent parent) := by
  unfold setParent
  refine Confined.get.bind fun e => Confined.ite (fun _ => ?_) (fun _ => ?_)
  · exact setOwn_framed parent (by decide)
  · exact Confined.fail trivial

/-! ### Text -/

/-- Text shows in no frame. -/
theorem Tells.framed {act : Act Entry Unit} (h : Tells act) : Framed act :=
  h.confined (fun _ => rfl) _

end Entry

/-! ### Whole lines -/

open Act Entry

theorem DocLine.headerKind_framed (kind : HeaderKind) : Framed (DocLine.headerKind kind) := by
  cases kind with
  | command => exact setKind_framed _
  | function => exact setKind_framed _
  | usage => exact Confined.pure ()

/-- No line of documentation touches the frame of an entry. -/
theorem DocLine.update_framed (line : DocLine) : Framed line.update := by
  cases line with
  | text line => exact (addLine_tells line).framed
  | all => exact Confined.pure ()
  | author name => exact setShared_framed _ _
  | backmatter id => exact (setKind_framed _).bind fun _ => setOwn_framed _ (by decide)
  | default argument value => exact (addDefault_tells argument value).framed
  | deprecated reason => exact setOwn_framed _ (by decide)
  | exception word => exact setOwn_framed _ (by decide)
  | dict name member =>
      refine (setKind_framed _).bind fun _ => (setOwn_framed _ (by decide)).bind fun _ => ?_
      cases member with
      | none => exact Confined.pure ()
      | some member => exact (setKind_framed _).bind fun _ => setOwn_framed _ (by decide)
  | library => exact setShared_framed _ _
  | order ids => exact setShared_framed _ _
  | parentSection id => exact setParent_framed _
  | markPrivate => exact setOwn_framed _ (by decide)
  | markPublic => exact setOwn_framed _ (by decide)
  | sect title id =>
      exact (setKind_framed _).bind fun _ => (setOwn_framed _ (by decide)).bind fun _ =>
        setOwn_framed _ (by decide)
  | setting name => exact (setKind_framed _).bind fun _ => setOwn_framed _ (by decide)
  | standalone => exact setShared_framed _ _
  | stylized name => exact setShared_framed _ _
  | subSection title => exact (beginPassage_tells _).framed
  | tagline line => exact setShared_framed _ _
  | throws error description => exact (addError_tells error description).framed
  | header given => exact DocLine.headerKind_framed given.kind

theorem CodeLine.define_framed (kind : Kind) (name : Value) : Framed (CodeLine.define kind name) :=
  (setKind_framed _).bind fun _ => setOwn_framed _ (by decide)

/-- No line of code touches the frame of an entry. -/
theorem CodeLine.update_framed (line : CodeLine) : Framed line.update := by
  cases line with
  | blank => exact Confined.pure ()
  | endOfFile => exact Confined.pure ()
  | unrecognized line => exact Confined.pure ()
  | function name space parameters =>
      refine (CodeLine.define_framed _ _).bind fun _ => ?_
      cases space with
      | none =>
          exact (setOwn_framed _ (by decide)).bind fun _ => setOwn_framed _ (by decide)
      | some space =>
          exact (setOwn_framed _ (by decide)).bind fun _ => (setOwn_framed _ (by decide)).bind
            fun _ => setOwn_framed _ (by decide)
  | command name flags =>
      exact (CodeLine.define_framed _ _).bind fun _ => setOwn_framed _ (by decide)
  | setting name => exact CodeLine.define_framed _ _
  | flag name initial => exact CodeLine.define_framed _ _

/-! ### Headers and closing

A header changes the frame on purpose, and so does closing.  They still give no level, and what goes
wrong when an entry is closed is about the entry itself.
-/

namespace Entry

/-- The first header of an entry is set; nothing else of the frame changes. -/
theorem setHeader_ensures (header : Header) {e : Entry} (h : e.header = none)
    (allowed : Cause → Prop) :
    Ensures (setHeader header) e
      (fun _ t => t.frame = (some header, e.isSecondary, e.isClosed, e.hasOwn "level"))
      allowed := by
  unfold setHeader
  refine Ensures.get_bind ?_
  rw [h]
  exact rfl

theorem needOwn_covers (e : Entry) (control : String) :
    Covers Cause.OfEntry (e.needOwn control) := by
  unfold needOwn
  split
  · exact Covers.ok _
  · exact Covers.error trivial

theorem localName_covers (e : Entry) : Covers Cause.OfName e.localName := by
  unfold localName needOwn
  refine Covers.ite (fun _ => ?_) (fun _ => ?_)
  · split
    · exact Covers.ok _
    · exact Covers.error (Or.inl rfl)
  · split
    · exact Covers.ok _
    · exact Covers.error (Or.inr rfl)

theorem joinValues_covers (a b : Value) : Covers Cause.OfName (joinValues a b) := by
  unfold joinValues
  split
  · exact Covers.ok _
  · exact Covers.error trivial

theorem fullName_covers (e : Entry) : Covers Cause.OfName e.fullName := by
  unfold fullName
  refine Covers.ite (fun _ => ?_) (fun _ => localName_covers e)
  split
  · exact (localName_covers e).bind fun _ _ => Covers.ok _
  · split
    · dsimp only
      refine Covers.ite (fun _ => Covers.ok _) (fun _ => ?_)
      exact (localName_covers e).bind fun _ _ => Covers.ok _
    · exact (localName_covers e).bind fun _ _ => joinValues_covers _ _

theorem tagName_covers (e : Entry) : Covers Cause.OfName e.tagName := by
  unfold tagName
  refine Covers.ite (fun _ => Covers.ok _) fun _ => Covers.ite (fun _ => ?_) fun _ => ?_
  · exact (fullName_covers e).bind fun _ _ => Covers.ok _
  · refine Covers.ite (fun _ => ?_) fun _ => fullName_covers e
    exact (fullName_covers e).bind fun _ _ => Covers.ok _

theorem namedParameters_covers (e : Entry) : Covers Cause.OfEntry e.namedParameters := by
  unfold namedParameters
  split
  · exact Covers.ok _
  · exact Covers.error trivial

theorem takesMore_covers (e : Entry) : Covers Cause.OfEntry e.takesMore := by
  unfold takesMore
  split
  · exact Covers.ok _
  · exact Covers.error trivial

theorem fullName_ofEntry (e : Entry) : Covers Cause.OfEntry e.fullName :=
  (fullName_covers e).mono fun _ => Cause.OfName.ofEntry

/-- A step that only looks at an entry. -/
abbrev Inert {α : Type} (act : Act Entry α) : Prop :=
  Act.Confined id Cause.OfEntry act

theorem requiredArguments_inert : Inert requiredArguments := by
  unfold requiredArguments
  refine Confined.get.bind fun e => ?_
  dsimp only
  refine Confined.ite (fun _ => ?_) (fun _ => Confined.pure _)
  refine Confined.bind (Confined.ofExcept (namedParameters_covers e))
    fun parameters => ?_
  refine Confined.ite (fun _ => Confined.pure _) (fun _ => ?_)
  refine Confined.ite (fun _ => Confined.bind (Confined.fail trivial) fun _ => ?_) (fun _ => ?_)
  all_goals
    refine Confined.ite (fun _ => Confined.pure _) (fun _ => ?_)
    refine Confined.ite (fun _ => ?_) (fun _ => Confined.pure _)
    exact (Confined.warn _).bind fun _ => Confined.pure _

theorem optionalArguments_inert : Inert optionalArguments := by
  unfold optionalArguments
  refine Confined.get.bind fun e => Confined.ite (fun _ => ?_) (fun _ => Confined.pure _)
  refine Confined.bind (Confined.ofExcept (takesMore_covers e)) fun more => ?_
  refine Confined.ite (fun _ => Confined.pure _) (fun _ => ?_)
  refine Confined.bind (Confined.ofExcept (fullName_ofEntry _)) fun name => ?_
  exact (Confined.warn _).bind fun _ => Confined.pure _

/-- The entry without its header. -/
def unheaded (e : Entry) : Entry :=
  { e with header := none }

/-- A step on an entry that touches only its header and fails only for causes of its own. -/
abbrev TouchesHeader {α : Type} (act : Act Entry α) : Prop :=
  Act.Confined unheaded Cause.OfEntry act

theorem layOut_touchesHeader (header : Header) : TouchesHeader (layOut header) := by
  unfold layOut
  refine Confined.get.bind fun e => ?_
  dsimp only
  refine Confined.ite (fun _ => Confined.bind (Confined.pure _) fun _ => ?_) (fun _ => ?_)
  · exact Confined.bind (Confined.modify fun _ => rfl) fun _ => Confined.pure _
  · refine Confined.bind (Confined.assume fun _ => ?_) fun _ => ?_
    · exact (rfl : usageAssumption = usageAssumption)
    · refine Confined.bind (Confined.pure _) fun _ => ?_
      exact Confined.bind (Confined.modify fun _ => rfl) fun _ => Confined.pure _

theorem usageOf_touchesHeader (header : Header) : TouchesHeader (usageOf header) := by
  unfold usageOf
  dsimp only
  refine Confined.ite (fun _ => (layOut_touchesHeader header).bind fun header => ?_)
    (fun _ => Confined.bind (Confined.pure header) fun header => ?_)
  all_goals
    refine Confined.get.bind fun e => ?_
    refine (requiredArguments_inert.comp unheaded).bind fun required => ?_
    refine (optionalArguments_inert.comp unheaded).bind fun optional => ?_
    refine Confined.bind (Confined.ofExcept (fullName_ofEntry _)) fun name => ?_
    split
    · exact Confined.pure _
    · exact Confined.fail trivial

/-- A step on an entry that gives it no level and fails only for causes of its own. -/
abbrev Unlevelled {α : Type} (act : Act Entry α) : Prop :=
  Act.Confined (·.hasOwn "level") Cause.OfEntry act

theorem Framed.unlevelled {α : Type} {act : Act Entry α} (h : Framed act) : Unlevelled act :=
  h.comp fun view => view.2.2.2

theorem settleUsage_unlevelled : Unlevelled settleUsage := by
  unfold settleUsage
  refine Confined.get.bind fun e => Confined.ite (fun _ => ?_) (fun _ => Confined.pure ())
  dsimp only
  refine Confined.ite (fun _ => Confined.bind (Confined.modify fun _ => rfl) fun _ => ?_)
    (fun _ => ?_)
  all_goals
    refine Confined.bind ((usageOf_touchesHeader _).comp (·.hasOwn "level")) fun usage => ?_
    refine Confined.modify fun s => ?_
    exact hasOwn_putOwn_of_ne s _ (by decide)

/-- Closing says whether the entry was open. -/
theorem close_ensures (e : Entry) :
    Ensures close e (fun wasOpen _ => wasOpen = !e.isClosed) Cause.OfEntry := by
  unfold close
  refine Ensures.get_bind ?_
  cases hclosed : e.isClosed with
  | true => exact Ensures.pure rfl
  | false =>
      refine Ensures.modify_bind (Ensures.get_bind ?_)
      dsimp only
      refine Ensures.ite
        (fun _ => Ensures.bind (Ensures.of_confined (setKind_framed _) _) fun _ _ _ => ?_)
        (fun _ => ?_)
      all_goals
        refine Ensures.bind (Ensures.of_confined settleUsage_unlevelled _) fun _ t _ => ?_
        refine Ensures.get_bind (Ensures.ite (fun _ => ?_) (fun _ => ?_))
        · exact Ensures.fail_bind trivial
        · exact Ensures.pure rfl

end Entry

end PluginHelp
