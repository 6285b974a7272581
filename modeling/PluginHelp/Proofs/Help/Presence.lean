/-
What the writer takes for granted.

Each entry that is written must have its kind and its namespace.  A section must have an identifier, a
title and a level, and a function or a command must have its usage.  None of this is checked when a
page is closed.  It follows from where the entries come from: reading gives them their kind and their
usage, merging gives the namespace, and the outline gives the level.

There is one gap.  A command that is marked as an exception gets no usage, but it is written as a
command all the same.
-/
import PluginHelp.Proofs.Help.Tags
import PluginHelp.Proofs.Page.Parts

namespace PluginHelp

/-- The causes which mean that an entry lacks a control that the writer takes for granted. -/
def Cause.isLack : Cause → Bool
  | assumption what =>
    ["Entries have a kind.", "Functions and commands have a usage.",
      "Merged entries have a namespace.", "Sections have an identifier and a title."].contains what
  | missing what => ["id", "name", "level"].contains what
  | _ => false

/-- Any cause but that a control is lacking. -/
abbrev NoLack (cause : Cause) : Prop :=
  cause.isLack = false

theorem noLack_of_name {cause : Cause} (h : cause.OfName) : NoLack cause := by
  cases cause with
  | missing what => rcases h with rfl | rfl <;> decide
  | wrongValue => rfl
  | _ => exact h.elim

theorem Entry.fullName_noLack (e : Entry) : Covers NoLack e.fullName :=
  (fullName_covers e).mono fun _ => noLack_of_name

theorem Entry.tagName_noLack (e : Entry) : Covers NoLack e.tagName :=
  (tagName_covers e).mono fun _ => noLack_of_name

/-! ### Links -/

namespace Plugin

theorem named_noLack (name : Value) (entries : List Entry) :
    Covers NoLack (named name entries) := by
  induction entries with
  | nil => exact Covers.ok _
  | cons e rest ih =>
      exact e.fullName_noLack.bind fun _ _ => ih.bind fun _ _ => Covers.ok _

theorem linkedName_noLack (kind name : Value) : Covers NoLack (linkedName kind name) := by
  unfold linkedName
  refine Covers.ite (fun _ => ?_) fun _ => Covers.ite (fun _ => ?_) fun _ => Covers.ok _
  all_goals
    split
    · exact Covers.ok _
    · exact Covers.error rfl

theorem noLack_of_multiple (names : String) :
    NoLack (.missing ("Found multiple " ++ names)) := by
  -- No control that may be lacking has so long a name.
  have hlong {control : String} (hshort : control.length < 15) :
      ("Found multiple " ++ names == control) = false := by
    rw [beq_eq_false_iff_ne]
    intro heq
    have hlength := congrArg String.length heq
    rw [String.length_append] at hlength
    have hfifteen : "Found multiple ".length = 15 := rfl
    omega
  rw [NoLack, Cause.isLack, List.contains_cons, List.contains_cons, List.contains_cons,
    hlong (by decide), hlong (by decide), hlong (by decide)]
  rfl

theorem lookUpTag_noLack (p : Plugin) (kind name : Value) :
    Covers NoLack (p.lookUpTag kind name) := by
  refine (linkedName_noLack kind name).bind fun full _ => Covers.bind ?_ fun entries _ => ?_
  · unfold Collections.entries
    exact Covers.ite (fun _ => Covers.ok _) fun _ => Covers.error rfl
  refine (named_noLack _ _).bind fun found _ => ?_
  split
  · exact Entry.tagName_noLack _
  · exact Entry.tagName_noLack _
  · refine Covers.error ?_
    rw [String.append_assoc, String.append_assoc]
    exact noLack_of_multiple _

end Plugin

namespace Help

open Act Entry

variable {c : Context} {e : Entry}

theorem linkedFunction_noLack (space element : Value) :
    Covers NoLack (linkedFunction space element) := by
  unfold linkedFunction
  split
  · split
    · exact (joinValues_covers _ _).mono fun _ => noLack_of_name
    · exact Covers.ok _
  · exact Covers.error rfl

theorem pluginDetail_noLack (c : Context) (name : Value) : Covers NoLack (pluginDetail c name) := by
  unfold pluginDetail
  split
  · exact Covers.ok _
  · exact Covers.ok _
  · exact Covers.ok _
  · exact Covers.ok _
  · exact Covers.error rfl

theorem expandInline_noLack (c : Context) (inline : String) (element space : Value) :
    Covers NoLack (expandInline c inline element space) := by
  have hlink (kind name : Value) (make : Value → Value) :
      Covers NoLack (do return make (← c.plugin.lookUpTag kind name)) :=
    (Plugin.lookUpTag_noLack _ kind name).bind fun _ _ => Covers.ok _
  unfold expandInline
  split
  · exact Covers.ok _
  · exact (linkedFunction_noLack space element).bind fun _ _ => hlink _ _ _
  · exact hlink _ _ _
  · exact hlink _ _ _
  · exact hlink _ _ _
  · exact hlink _ _ _
  · exact pluginDetail_noLack c element
  · exact Covers.ok _

theorem expand_noLack (c : Context) (space : Value) (text : String) :
    Covers NoLack (expand c space text) := by
  refine Covers.bind (Covers.mapM fun piece _ => ?_) fun values _ => ?_
  · unfold expandPiece
    split
    · exact Covers.ok _
    · refine (expandInline_noLack _ _ _ _).bind fun value _ => ?_
      split
      · exact Covers.ok _
      · exact Covers.ok _
  · refine Covers.bind (Covers.mapM fun value _ => ?_) fun _ _ => Covers.ok _
    unfold expandedText
    split
    · exact Covers.ok _
    · exact Covers.error rfl

/-! ### Lines -/

/-- A step on the sheet that does not fail because a control is lacking. -/
abbrev Provided (act : Act Sheet Unit) : Prop :=
  Keeps (fun _ => True) NoLack act

theorem print_provided (line ending : String) (wide : Bool) : Provided (print line ending wide) := by
  unfold print
  refine Keeps.bind (Keeps.assume fun _ => by decide) fun _ => Keeps.get.bind fun s => ?_
  exact Keeps.ite (fun _ => Keeps.modify fun _ _ => trivial) fun _ => Keeps.fail rfl

theorem writeText_provided (l : TextLine) : Provided (writeText l) := by
  unfold writeText
  refine Keeps.bind (Keeps.assume fun _ => by decide) fun _ => Keeps.each fun line _ => ?_
  exact print_provided line _ _

theorem writeCode_provided (code : String) (indent : Int) : Provided (writeCode code indent) :=
  Keeps.each fun line _ => print_provided line _ _

/-! ### Passages -/

theorem writePassage_provided (c : Context) (space : Value) (indent : Int) (p : Passage) :
    Provided (writePassage c space indent p) := by
  have hexpand (text : String) (line : String → TextLine) :
      Provided (do writeText (line (← Act.ofExcept (expand c space text)))) :=
    (Keeps.ofExcept (expand_noLack c space text)).bind fun _ => writeText_provided _
  unfold writePassage
  split
  · exact hexpand _ _
  · exact hexpand _ _
  · exact writeText_provided _
  · refine (writeText_provided _).bind fun _ => Keeps.bind (Keeps.each fun line _ => ?_) fun _ => ?_
    · exact (Keeps.ofExcept (expand_noLack c space line)).bind fun _ => writeCode_provided _ _
    · exact writeText_provided _
  · refine Keeps.bind (Keeps.ofExcept ?_) fun _ => writeText_provided _
    exact (expand_noLack c space _).bind fun _ _ => Covers.ok _
  · refine Keeps.bind (Keeps.ofExcept ?_) fun _ => writeText_provided _
    exact (expand_noLack c space _).bind fun _ _ => Covers.ok _
  · exact writeText_provided _
  · exact Keeps.fail rfl

theorem writePassages_provided (c : Context) (indent : Int) (h : e.hasOwn "namespace" = true) :
    Provided (writePassages c indent e) := by
  unfold writePassages
  rw [assume_bind_of_true h]
  refine Keeps.bind (Keeps.each fun p _ => writePassage_provided c _ indent p) fun _ => ?_
  exact writeText_provided _

/-! ### Chunks -/

/-- All that the writer takes for granted about an entry. -/
structure Complete (e : Entry) : Prop where
  kind : e.hasOwn "type" = true
  space : e.hasOwn "namespace" = true
  sect : e.isOf .sect = true → e.hasOwn "id" = true ∧ e.hasOwn "name" = true
  usage : e.isOf .command = true ∨ e.isOf .function = true ∧ e.hasOwn "exception" = false →
    e.hasOwn "usage" = true

theorem needOwn_of_has {control : String} (h : e.hasOwn control = true) :
    e.needOwn control = .ok (e.ownD control) := by
  obtain ⟨value, hvalue⟩ : ∃ value, e.own? control = some value := Option.isSome_iff_exists.mp h
  rw [needOwn, ownD, hvalue]
  rfl

theorem needText_noLack (value : Value) : Covers NoLack (needText value) := by
  unfold needText
  split
  · exact Covers.ok _
  · exact Covers.error rfl

theorem writeSection_provided (c : Context) (hid : e.hasOwn "id" = true)
    (hname : e.hasOwn "name" = true) (hspace : e.hasOwn "namespace" = true) :
    Provided (writeSection c e) := by
  unfold writeSection
  refine Keeps.bind (print_provided _ _ _) fun _ => ?_
  rw [needOwn_of_has hname, needOwn_of_has hid, ofExcept_ok_bind, ofExcept_ok_bind]
  refine Keeps.bind (Keeps.ofExcept (needText_noLack _)) fun title => ?_
  refine Keeps.bind (writeText_provided _) fun _ => ?_
  dsimp only
  refine Keeps.ite (fun _ => Keeps.bind (writeText_provided _) fun _ => ?_) fun _ => ?_
  all_goals
    exact writePassages_provided c 0 hspace

theorem writeLarge_provided (c : Context) (husage : e.hasOwn "usage" = true)
    (hspace : e.hasOwn "namespace" = true) : Provided (writeLarge c e) := by
  unfold writeLarge
  rw [assume_bind_of_true husage]
  refine Keeps.bind (Keeps.ofExcept (tagName_noLack e)) fun tagged => ?_
  refine Keeps.bind (Keeps.ofExcept (needText_noLack _)) fun usage => ?_
  exact (writeText_provided _).bind fun _ => writePassages_provided c 1 hspace

theorem writeSmall_provided (c : Context) (word : Value) (hspace : e.hasOwn "namespace" = true) :
    Provided (writeSmall c word e) :=
  (writeText_provided _).bind fun _ => writePassages_provided c 0 hspace

theorem label_ofLabel (label : String) : (Kind.ofLabel label).label = label := by
  unfold Kind.ofLabel
  split <;> rfl

theorem isOf_of_kind? {kind : Kind} (h : e.kind? = some kind) : e.isOf kind = true := by
  obtain ⟨label, hlabel, rfl⟩ := Option.map_eq_some_iff.mp h
  cases hkind : e.kindValue with
  | text held =>
      rw [hkind] at hlabel
      obtain rfl : held = label := Option.some.inj hlabel
      rw [isOf_iff, hkind, Kind.toValue, label_ofLabel]
  | _ =>
      rw [hkind] at hlabel
      cases hlabel

/-- Writing an entry that has what is taken for granted does not fail for want of it. -/
theorem writeChunk_provided (c : Context) (h : Complete e) : Provided (writeChunk c e) := by
  have hsmall (word : Value → Value) :
      Provided (do writeSmall c (word (← Act.ofExcept e.fullName)) e) :=
    (Keeps.ofExcept (fullName_noLack e)).bind fun _ => writeSmall_provided c _ h.space
  unfold writeChunk
  rw [assume_bind_of_true h.kind]
  split
  · rename_i hkind
    obtain ⟨hid, hname⟩ := h.sect (isOf_of_kind? hkind)
    exact writeSection_provided c hid hname h.space
  · rename_i hkind
    refine Keeps.ite (fun _ => hsmall id) fun hplain => ?_
    have husage := h.usage (Or.inr ⟨isOf_of_kind? hkind, by simpa using hplain⟩)
    exact writeLarge_provided c husage h.space
  · rename_i hkind
    exact writeLarge_provided c (h.usage (Or.inl (isOf_of_kind? hkind))) h.space
  · exact hsmall id
  · exact hsmall _
  · exact hsmall _
  · exact writePassages_provided c 0 h.space
  · exact Keeps.pure ()

/-! ### The table of contents -/

theorem numberedLevel_eq {level : Int} (hid : e.hasOwn "id" = true) (hname : e.hasOwn "name" = true)
    (hlevel : e.own? "level" = some (.number level)) : numberedLevel e = .ok level := by
  rw [numberedLevel, hid, hname, needOwn, hlevel]
  rfl

theorem count_noLack (counts : Counts) (level : Int) : Covers NoLack (count counts level) := by
  unfold count
  split
  · exact Covers.error rfl
  · split
    · exact Covers.ok _
    · exact Covers.ok _

/-- Where every section has its level, numbering fails for no lack. -/
theorem numberFrom_noLack {sections : List Entry} (counts : Counts)
    (h : ∀ e ∈ sections, ∃ level, numberedLevel e = .ok level) {fault : Fault}
    (hfault : (numberFrom counts sections).fault = some fault) : NoLack fault.cause := by
  induction sections generalizing counts with
  | nil => cases hfault
  | cons e rest ih =>
      obtain ⟨⟨level, hlevel⟩, hrest⟩ := List.forall_mem_cons.mp h
      rw [numberFrom, hlevel] at hfault
      cases hcount : count counts level with
      | error cause =>
          rw [show (Except.ok level >>= count counts) = .error cause from hcount] at hfault
          obtain rfl : Fault.mk cause {} = fault := Option.some.inj hfault
          exact count_noLack counts level cause hcount
      | ok counted =>
          rw [show (Except.ok level >>= count counts) = .ok counted from hcount] at hfault
          exact ih counted.1 hrest hfault

theorem eachOf_provided {α : Type} {s : Stream α} {act : α → Act Sheet Unit}
    (hact : ∀ a ∈ s.items, Provided (act a))
    (hfault : ∀ fault, s.fault = some fault → NoLack fault.cause) : Provided (eachOf s act) := by
  unfold eachOf
  refine Keeps.bind (Keeps.each hact) fun _ => ?_
  split
  · rename_i fault hsome
    refine fun _ _ => ⟨trivial, fun other hother => ?_⟩
    obtain rfl : fault = other := Except.error.inj hother
    exact hfault fault hsome
  · exact Keeps.pure ()

theorem writeContents_provided
    (h : ∀ row ∈ c.page.sections, ∃ level, numberedLevel row.2.entry = .ok level) :
    Provided (writeContents c) := by
  unfold writeContents
  refine Keeps.bind (print_provided _ _ _) fun _ => Keeps.bind (writeText_provided _) fun _ => ?_
  refine Keeps.bind (eachOf_provided (fun _ _ => writeText_provided _) ?_)
    fun _ => writeText_provided _
  intro fault hfault
  refine numberFrom_noLack _ (fun e he => ?_) hfault
  obtain ⟨row, hrow, rfl⟩ := List.mem_map.mp he
  exact h row hrow

/-! ### Closed pages -/

open Page

/-- What reading makes sure of. -/
abbrev Sound (e : Entry) : Prop :=
  e.WellFormed ∧ e.Settled

/-- A command that is marked as an exception. -/
abbrev IsUnusable (e : Entry) : Prop :=
  e.isOf .command = true ∧ e.hasOwn "exception" = true

theorem not_isUnusable_of_sect (h : e.isOf .sect = true) : ¬IsUnusable e := by
  rintro ⟨hcommand, -⟩
  rw [isOf_eq_false (isOf_iff.mp h) (by decide)] at hcommand
  cases hcommand

theorem complete_of_held {kind : Kind} (h : Held Sound e) (hkind : e.kindValue = kind.toValue)
    (husable : ¬IsUnusable e) : Complete e where
  kind := hasOwn_type hkind
  space := h.placed
  sect hsect := ⟨h.fits.1.identified hsect, (h.fits.1.titled hsect).1⟩
  usage hlarge := by
    have hneeds : e.needsUsage = true := by
      rcases hlarge with hcommand | ⟨hfunction, hplain⟩
      · have hplain : e.hasOwn "exception" = false := by
          simpa using fun hexception => husable ⟨hcommand, hexception⟩
        rw [needsUsage, hcommand, hplain, Bool.or_true]
        rfl
      · rw [needsUsage, hfunction, hplain]
        rfl
    obtain ⟨usage, husage⟩ := h.fits.2.usage hneeds
    rw [hasOwn_eq, husage]
    rfl

/-- A level adds nothing to what is taken for granted, and takes nothing away. -/
theorem Complete.atLevel {s : Section} (h : Complete s.entry) (level : Nat) :
    Complete (atLevel level s).entry := by
  have hhas {control : String} (hcontrol : "level" ≠ control) :
      (Page.atLevel level s).entry.hasOwn control = s.entry.hasOwn control := by
    rw [hasOwn_eq, own?_atLevel level s hcontrol, hasOwn_eq]
  have hof (kind : Kind) : (Page.atLevel level s).entry.isOf kind = s.entry.isOf kind := by
    rw [isOf, kindValue, ownD, own?_atLevel level s (by decide), isOf, kindValue, ownD]
  constructor
  · rw [hhas (by decide)]
    exact h.kind
  · rw [hhas (by decide)]
    exact h.space
  · rw [hhas (by decide), hhas (by decide), hof]
    exact h.sect
  · rw [hhas (by decide), hhas (by decide), hof, hof]
    exact h.usage

section Closed

variable {p q : Page}

theorem section_complete (h : ClosedFrom Sound p q) {row : Value × Section}
    (hrow : row ∈ q.sections) :
    Complete row.2.entry ∧ ∃ level, numberedLevel row.2.entry = .ok level := by
  obtain ⟨s, hs, level, -, hheld⟩ := h.row hrow
  obtain ⟨before, hbefore, rfl⟩ := List.mem_map.mp hs
  obtain ⟨hfits, hsect⟩ := h.holds.sections before hbefore
  have hcomplete :=
    (complete_of_held hfits (isOf_iff.mp hsect) (not_isUnusable_of_sect hsect)).atLevel level
  rw [hheld]
  refine ⟨hcomplete, level, ?_⟩
  have hof : (Page.atLevel level before.2).entry.isOf .sect = true := by
    rw [← hheld]
    exact h.isOf_sect hrow
  obtain ⟨hid, hname⟩ := hcomplete.sect hof
  exact numberedLevel_eq hid hname (own?_putOwn_self _ _ _)

/-- Every chunk has what is taken for granted, unless it is a command that is marked as an exception;
and such a command was not given a usage. -/
theorem chunk_complete (h : ClosedFrom Sound p q) (he : e ∈ q.chunks.items) :
    (IsUnusable e → e.Settled) ∧ (¬IsUnusable e → Complete e) := by
  rcases (h.mono fun _ he => he.1.arrangeable).mem_chunks he with
    ⟨row, hrow, rfl⟩ | ⟨kind, hkind, he⟩ | ⟨id, hget⟩
  · exact ⟨fun hunusable => absurd hunusable (not_isUnusable_of_sect (h.isOf_sect hrow)),
      fun _ => (section_complete h hrow).1⟩
  · obtain ⟨hheld, library, hshelf⟩ := h.collected (h.collection_eq hkind) e he
    refine ⟨fun _ => hheld.fits.2, fun husable => ?_⟩
    have hdocumented := documentedAs_of_shelf hshelf
    unfold documentedAs at hdocumented
    split at hdocumented
    · rename_i hfunction
      exact complete_of_held hheld (isOf_iff.mp (Bool.and_eq_true_iff.mp hfunction).1) husable
    · exact complete_of_held hheld hdocumented husable
  · obtain ⟨hheld, hback⟩ := h.backmatter hget
    exact ⟨fun _ => hheld.fits.2, fun husable => complete_of_held hheld (isOf_iff.mp hback) husable⟩

end Closed

/--
**The writer lacks nothing but the usage of commands that are marked as exceptions.**

On every closed page into which nothing was merged but what was read from files, the table of contents
and every other chunk have all the controls that are taken for granted.
-/
theorem write_lacks_only_usage {c : Context} (h : BuiltFrom IsRead c)
    (hclose : (close c).result = .ok ()) (plugin : Plugin) :
    let d : Context := ⟨plugin, (close c).state.page⟩
    d.page.chunks.fault = none
    ∧ (∀ s fault, (writeContents d s).result = .error fault → fault.cause.isLack = false)
    ∧ ∀ e ∈ d.page.chunks.items,
        (e.isOf .command = true ∧ e.hasOwn "exception" = true →
          writeChunk d e = Act.fail (.assumption "Functions and commands have a usage."))
        ∧ (¬(e.isOf .command = true ∧ e.hasOwn "exception" = true) →
          ∀ s fault, (writeChunk d e s).result = .error fault → fault.cause.isLack = false) := by
  intro d
  have hclosed : ClosedFrom Sound (beforeOutline c) d.page :=
    (h.mono fun _ he => ⟨he.wellFormed, he.settled⟩).closed
      (wellFormed_placeable.and settled_placeable) (fun _ he => he.1.unlevelled) hclose
  refine ⟨?_, ?_, fun e he => ⟨?_, ?_⟩⟩
  · rw [(hclosed.mono fun _ he => he.1.arrangeable).chunks_eq]
  · intro s
    exact (writeContents_provided (fun row hrow => (section_complete hclosed hrow).2) s trivial).2
  · intro hunusable
    exact writeChunk_exception ((chunk_complete hclosed he).1 hunusable) (isOf_iff.mp hunusable.1)
      hunusable.2
  · intro husable s
    exact (writeChunk_provided d ((chunk_complete hclosed he).2 husable) s trivial).2

/-- A page with a section and a command that is marked as an exception can be closed, and whatever
the plugin is, the command cannot be written. -/
theorem write_lacks_usage_of_command :
    let c := ofFileIn .nothing "demo" ["\"\"\n", "\" @section Introduction, intro\n", "\" Hello.\n",
      "\n", "\"\"\n", "\" @exception\n", "\" Stops everything.\n",
      "command Abort call demo#Abort()\n"]
    (close c).result = .ok ()
    ∧ ∃ e ∈ (close c).state.page.chunks.items, e.isOf .command = true
      ∧ ∀ plugin, writeChunk ⟨plugin, (close c).state.page⟩ e
          = Act.fail (.assumption "Functions and commands have a usage.") := by
  intro c
  have hbuilt : BuiltFrom IsRead c := builtFrom_ofFileIn _ _ _
  obtain ⟨hclose, hfound⟩ : (close c).result = .ok ()
      ∧ (close c).state.page.chunks.items.any (fun e => e.isOf .command && e.hasOwn "exception")
        = true := by decide +kernel
  clear_value c
  obtain ⟨e, he, hunusable⟩ := List.any_eq_true.mp hfound
  rw [Bool.and_eq_true] at hunusable
  refine ⟨hclose, e, he, hunusable.1, fun plugin => ?_⟩
  exact ((write_lacks_only_usage hbuilt hclose plugin).2.2 e he).1 hunusable

end Help

end PluginHelp
