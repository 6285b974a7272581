/-
What an entry hears of a file, and the names that it has from there.

An entry hears lines of documentation and lines of code.  Few of them name anything: a line that
defines a function gives its name and its namespace, and one directive gives a dictionary and a member
of it.  All of these are read as identifiers, so nothing in the full name of a function has a meaning
of its own in a usage.

Sections, commands, settings and flags are given names as well, and some of these may be any text.  But
whatever has become one of them stays one, and so no function has such a name.
-/
import PluginHelp.Proofs.Entry.Controls
import PluginHelp.Proofs.Entry.Mentions
import PluginHelp.Proofs.Source.Directives

namespace PluginHelp

open Act Pattern PluginHelp.Text

/-! ### Names as they are read -/

/-- A character of a full name: one of an identifier, or a sign between two of them. -/
def isFullNameChar (c : Char) : Bool :=
  isArgumentChar c || c == '#'

theorem isFullNameChar_of_isNameRest {c : Char} (h : isNameRest c = true) :
    isFullNameChar c = true := by
  rw [isFullNameChar, isArgumentChar_of_isNameRest h, Bool.true_or]

theorem isFullNameChar_of_isName {text : List Char} (h : isName text = true) :
    ∀ c ∈ text, isFullNameChar c = true :=
  fun c hc => isFullNameChar_of_isNameRest (isNameRest_of_isName h c hc)

/-- The name of a function is read as an identifier. -/
theorem captures_functionName : Captures functionLine 2 (isName · = true) :=
  ((((((spells_isName.captures 2).preceded _).followed rfl).followed rfl).followed rfl).followed rfl)

theorem spells_namespace :
    Spells (oneOrMore (name ++ char '#')) fun text => ∀ c ∈ text, isFullNameChar c = true := by
  have hsegment : Spells (name ++ char '#') fun text => ∀ c ∈ text, isFullNameChar c = true := by
    refine (spells_isName.seq (spells_char '#')).mono ?_
    rintro _ ⟨segment, _, rfl, hsegment, rfl⟩
    exact List.forall_mem_append.mpr
      ⟨isFullNameChar_of_isName hsegment, List.forall_mem_singleton.mpr rfl⟩
  refine (hsegment.seq hsegment.many).mono ?_
  rintro _ ⟨front, _, rfl, hfront, segments, rfl, hsegments⟩
  refine List.forall_mem_append.mpr ⟨hfront, fun c hc => ?_⟩
  obtain ⟨segment, hsegment, hc⟩ := List.mem_flatten.mp hc
  exact hsegments segment hsegment c hc

theorem mayCapture_namespace :
    MayCapture functionLine 1 fun text => ∀ c ∈ text, isFullNameChar c = true :=
  (((((((spells_namespace.captures 1).mayCapture.optional).preceded rfl).followed rfl).followed
    rfl).followed rfl).followed rfl).followed rfl

/-- What a line of code names as a function, and as its namespace. -/
theorem CodeLine.names_of_read {source base : String} {space : Option String}
    {parameters : List String} (h : CodeLine.read source = .function base space parameters) :
    isName base.toList = true
      ∧ ∀ text, space = some text → ∀ c ∈ text.toList, isFullNameChar c = true := by
  unfold CodeLine.read at h
  split at h
  · cases h
  · split at h
    · rename_i m hm
      obtain ⟨rfl, rfl, -⟩ := CodeLine.function.inj h
      exact ⟨captures_functionName.of_match? (by decide) hm,
        fun _ htext => mayCapture_namespace.of_match? (by decide) hm htext⟩
    · split at h
      · cases h
      · split at h
        · cases h
        · split at h <;> cases h

/-- What a directive names as a dictionary, and as a member of it. -/
theorem DocLine.names_of_read {source dictionary : String} {member : Option String}
    (h : DocLine.read source = .ok (.dict dictionary member)) :
    (∀ c ∈ dictionary.toList, isFullNameChar c = true)
      ∧ ∀ text, member = some text → ∀ c ∈ text.toList, isFullNameChar c = true := by
  have hdictionary : Captures dictionaryMember 1 fun text => ∀ c ∈ text, isFullNameChar c = true := by
    have hspells : Spells (one isNameStart ++ many (one fun c => isAsciiLetter c || isAsciiDigit c))
        fun text => ∀ c ∈ text, isFullNameChar c = true := by
      refine ((spells_one _).seq (spells_many_one _)).mono ?_
      rintro _ ⟨_, back, rfl, ⟨c, rfl, hc⟩, hback⟩
      refine List.forall_mem_append.mpr ⟨List.forall_mem_singleton.mpr ?_, fun d hd => ?_⟩
      · exact isFullNameChar_of_isNameRest (isNameRest_of_isNameStart hc)
      · refine isFullNameChar_of_isNameRest ?_
        rw [isNameRest, hback d hd, Bool.true_or]
    exact (((hspells.captures 1).preceded _).followed rfl).followed rfl
  have hmember : MayCapture dictionaryMember 2 (isName · = true) :=
    ((((spells_isName.captures 2).preceded _).mayCapture.optional).preceded rfl).followed rfl
  obtain ⟨told, htold⟩ | ⟨keyword, arguments, m, hm, hline⟩ := exists_match_of_read h
  · cases htold
  · cases keyword with
    | dict =>
        obtain ⟨rfl, rfl⟩ := DocLine.dict.inj hline
        exact ⟨hdictionary.of_match? (by decide) hm,
          fun _ htext => isFullNameChar_of_isName (hmember.of_match? (by decide) hm htext)⟩
    | _ => cases hline

namespace Entry

variable {e t : Entry} {act : Act Entry Unit} {control : String}

/-! ### Entries with plain names -/

/-- The controls, beside the name, that a full name may be made of. -/
def partControls : List String :=
  ["namespace", "dict", "attribute"]

/-- The kinds, beside functions, that lines give names to. -/
def otherKinds : List Kind :=
  [.sect, .command, .setting, .flag]

/-- What a control says, if it says anything, may be part of a full name. -/
def NamePart (value : Option Value) : Prop :=
  ∀ held, value = some held → ∃ text, held = .text text ∧ ∀ c ∈ text.toList, isFullNameChar c = true

/-- An entry whose names may all be parts of a full name, unless it is of a kind that is no function. -/
structure PlainlyNamed (e : Entry) : Prop where
  parts : ∀ control ∈ partControls, NamePart (e.own? control)
  name : NamePart (e.own? "name") ∨ ∃ kind ∈ otherKinds, e.isOf kind = true

/-- An entry that says the same about names, and is still of the kind that it was. -/
structure SameNames (e t : Entry) : Prop where
  own : ∀ control ∈ "name" :: partControls, t.own? control = e.own? control
  kind : ∀ kind ∈ otherKinds, e.isOf kind = true → t.isOf kind = true

theorem label_of_mem_otherKinds {kind : Kind} (h : kind ∈ otherKinds) :
    kind.label ≠ "" ∧ kind.label ≠ Kind.function.label := by
  have hall : ∀ kind ∈ otherKinds, kind.label ≠ "" ∧ kind.label ≠ Kind.function.label := by decide
  exact hall kind h

theorem namePart_text {text : String} (h : ∀ c ∈ text.toList, isFullNameChar c = true) :
    NamePart (some (.text text)) :=
  fun _ hheld => ⟨text, (Option.some.inj hheld).symm, h⟩

/-- What a full name takes where a control says nothing may be part of it as well. -/
theorem NamePart.getD {value : Option Value} (h : NamePart value) {text : String}
    (htext : ∀ c ∈ text.toList, isFullNameChar c = true) :
    ∃ part, value.getD (.text text) = .text part ∧ ∀ c ∈ part.toList, isFullNameChar c = true := by
  cases value with
  | none => exact ⟨text, rfl, htext⟩
  | some held => exact h held rfl

theorem plainlyNamed_new : PlainlyNamed {} := by
  have hnone (control : String) : NamePart (({} : Entry).own? control) := by
    intro held hheld
    cases hheld
  exact ⟨fun control _ => hnone control, Or.inl (hnone "name")⟩

theorem PlainlyNamed.congr (h : e.PlainlyNamed) (hsame : SameNames e t) : t.PlainlyNamed := by
  refine ⟨fun control hcontrol => ?_, ?_⟩
  · rw [hsame.own control (List.mem_cons_of_mem _ hcontrol)]
    exact h.parts control hcontrol
  · rw [hsame.own "name" List.mem_cons_self]
    refine h.name.imp_right ?_
    rintro ⟨kind, hkind, hof⟩
    exact ⟨kind, hkind, hsame.kind kind hkind hof⟩

/-- A step that keeps names plain, also if it fails. -/
abbrev KeepsNames (act : Act Entry Unit) : Prop :=
  Keeps PlainlyNamed (fun _ => True) act

theorem keepsNames_of_same (h : ∀ e, SameNames e (act e).state) : KeepsNames act :=
  fun e he => ⟨he.congr (h e), fun _ _ => trivial⟩

/-! ### Lines that name nothing -/

theorem setKind_same (wanted : Value) (e : Entry) : SameNames e (setKind wanted e).state := by
  have hput (value : Value) : ∀ control ∈ "name" :: partControls,
      (e.putOwn "type" value).own? control = e.own? control := by
    intro control hcontrol
    refine own?_putOwn_of_ne e value ?_
    rintro rfl
    revert hcontrol
    decide
  rw [setKind_apply]
  split_ifs with hsame hgiven hopen
  · refine ⟨hput _, fun kind _ hof => ?_⟩
    rw [isOf, kindValue_putOwn_type]
    exact hof
  · refine ⟨hput _, fun kind hkind hof => absurd ?_ hgiven⟩
    rw [isOf_iff.mp hof]
    simpa [Kind.toValue, Value.isGiven] using (label_of_mem_otherKinds hkind).1
  · refine ⟨hput _, fun kind _ hof => ?_⟩
    rw [isOf_iff.mp hof] at hopen
    cases hopen
  · exact ⟨fun _ _ => rfl, fun _ _ hof => hof⟩

theorem setKind_keepsNames (wanted : Value) : KeepsNames (setKind wanted) :=
  keepsNames_of_same (setKind_same wanted)

theorem setOwn_keepsNames (h : control ∉ "type" :: "name" :: partControls) (value : Value) :
    KeepsNames (setOwn control value) := by
  refine keepsNames_of_same fun e => ⟨fun other hother => ?_, fun kind hkind hof => ?_⟩
  · refine own?_setOwn e value ?_ ?_
    · rintro rfl
      exact h (List.mem_cons_of_mem _ hother)
    · rintro rfl
      revert hother
      decide
  · rw [isOf_setOwn e value _ (label_of_mem_otherKinds hkind).1]
    · exact hof
    · rintro rfl
      exact h List.mem_cons_self

theorem setShared_keepsNames (control : String) (value : Value) :
    KeepsNames (setShared control value) := by
  unfold setShared
  refine (setKind_keepsNames _).bind fun _ => Keeps.get.bind fun e => ?_
  refine Keeps.ite (fun _ => Keeps.fail trivial) fun _ => Keeps.modify fun t ht => ?_
  exact ht.congr ⟨fun _ _ => rfl, fun _ _ hof => hof⟩

theorem setParent_keepsNames (parent : Value) : KeepsNames (setParent parent) := by
  unfold setParent
  refine Keeps.get.bind fun e => Keeps.ite (fun _ => ?_) fun _ => Keeps.fail trivial
  exact setOwn_keepsNames (by decide) parent

theorem Tells.keepsNames (h : Tells act) : KeepsNames act := by
  refine keepsNames_of_same fun e => ?_
  have hconfined : Confined Entry.own (fun _ => True) act := h.confined (fun _ => rfl) _
  have hown := hconfined.view_eq e
  refine ⟨fun control _ => ?_, fun kind _ hof => ?_⟩
  · rw [own?, own?, hown]
  · rw [isOf_of_own hown]
    exact hof

/-! ### Lines that name something -/

theorem namePart_setOwn (hcontrol : control ≠ "type") {text : String}
    (htext : ∀ c ∈ text.toList, isFullNameChar c = true) (h : NamePart (e.own? control)) :
    NamePart ((setOwn control (.text text) e).state.own? control) := by
  rw [setOwn_apply]
  split
  · rw [own?_putOwn_self]
    exact namePart_text htext
  · rw [own?_marked e hcontrol]
    exact h

/-- What is no function does not become one by a control. -/
theorem otherKind_setOwn (hcontrol : control ≠ "type") (value : Value)
    (h : ∃ kind ∈ otherKinds, e.isOf kind = true) :
    ∃ kind ∈ otherKinds, (setOwn control value e).state.isOf kind = true := by
  obtain ⟨kind, hkind, hof⟩ := h
  refine ⟨kind, hkind, ?_⟩
  rw [isOf_setOwn e value hcontrol (label_of_mem_otherKinds hkind).1]
  exact hof

/-- A part of a full name is given as a text that may be one. -/
theorem setPart_keepsNames (hcontrol : control ∈ partControls) {text : String}
    (htext : ∀ c ∈ text.toList, isFullNameChar c = true) :
    KeepsNames (setOwn control (.text text)) := by
  have hother : ∀ control ∈ partControls, control ≠ "type" ∧ control ≠ "name" := by decide
  obtain ⟨htype, hname⟩ := hother control hcontrol
  refine fun e he => ⟨⟨fun other hmem => ?_, ?_⟩, fun _ _ => trivial⟩
  · by_cases heq : control = other
    · rw [← heq]
      exact namePart_setOwn htype htext (he.parts control hcontrol)
    · rw [own?_setOwn e _ heq (hother other hmem).1]
      exact he.parts other hmem
  · rw [own?_setOwn e _ hname (by decide)]
    exact he.name.imp_right (otherKind_setOwn htype _)

theorem parts_setName (he : e.PlainlyNamed) (value : Value) :
    ∀ control ∈ partControls, NamePart ((setOwn "name" value e).state.own? control) := by
  have hother : ∀ control ∈ partControls, "name" ≠ control ∧ control ≠ "type" := by decide
  intro control hcontrol
  rw [own?_setOwn e value (hother control hcontrol).1 (hother control hcontrol).2]
  exact he.parts control hcontrol

/-- The name of a function is an identifier. -/
theorem setName_keepsNames {text : String} (h : isName text.toList = true) :
    KeepsNames (setOwn "name" (.text text)) := by
  refine fun e he => ⟨⟨parts_setName he _, ?_⟩, fun _ _ => trivial⟩
  exact he.name.imp (namePart_setOwn (by decide) (isFullNameChar_of_isName h))
    (otherKind_setOwn (by decide) _)

/-- Anything may be the name of what is no function. -/
theorem define_keepsNames {kind : Kind} (hkind : kind ∈ otherKinds) (value : Value) :
    KeepsNames (CodeLine.define kind value) := by
  intro e he
  refine ⟨?_, fun _ _ => trivial⟩
  have hplain := he.congr (setKind_same kind.toValue e)
  unfold CodeLine.define
  rcases hset : setKind kind.toValue e with ⟨t, warnings, fault | ⟨⟩⟩
  · rw [hset] at hplain
    rw [bind_apply_error _ hset]
    exact hplain
  · rw [hset] at hplain
    obtain ⟨rfl, -⟩ := (setKind_ensures kind e).of_ok hset
    rw [bind_apply_ok _ hset]
    refine ⟨parts_setName hplain value, Or.inr ⟨kind, hkind, ?_⟩⟩
    rw [isOf_setOwn _ _ (by decide) (label_of_mem_otherKinds hkind).1]
    exact isOf_iff.mpr (kindValue_putOwn_type e _)

end Entry

open Entry

/-- A line of documentation that is read keeps names plain. -/
theorem DocLine.update_keepsNames {source : String} {line : DocLine}
    (h : DocLine.read source = .ok line) : KeepsNames line.update := by
  cases line with
  | text line => exact (addLine_tells line).keepsNames
  | all => exact Keeps.pure ()
  | author name => exact setShared_keepsNames _ _
  | backmatter id => exact (setKind_keepsNames _).bind fun _ => setOwn_keepsNames (by decide) _
  | default argument value => exact (addDefault_tells argument value).keepsNames
  | deprecated reason => exact setOwn_keepsNames (by decide) _
  | exception word => exact setOwn_keepsNames (by decide) _
  | dict name member =>
      obtain ⟨hname, hmember⟩ := DocLine.names_of_read h
      refine (setKind_keepsNames _).bind fun _ => ?_
      refine (setPart_keepsNames (by decide) hname).bind fun _ => ?_
      cases member with
      | none => exact Keeps.pure ()
      | some member =>
          exact (setKind_keepsNames _).bind fun _ => setPart_keepsNames (by decide) (hmember _ rfl)
  | library => exact setShared_keepsNames _ _
  | order ids => exact setShared_keepsNames _ _
  | parentSection id => exact setParent_keepsNames _
  | markPrivate => exact setOwn_keepsNames (by decide) _
  | markPublic => exact setOwn_keepsNames (by decide) _
  | sect title id =>
      have hupdate : (DocLine.sect title id).update
          = CodeLine.define .sect (.text title) >>= fun _ => setOwn "id" (.text id) :=
        (bind_assoc _ _ _).symm
      rw [hupdate]
      exact (define_keepsNames (by decide) _).bind fun _ => setOwn_keepsNames (by decide) _
  | setting name => exact define_keepsNames (by decide) (.text name)
  | standalone => exact setShared_keepsNames _ _
  | stylized name => exact setShared_keepsNames _ _
  | subSection title => exact (beginPassage_tells _).keepsNames
  | tagline line => exact setShared_keepsNames _ _
  | throws error description => exact (addError_tells error description).keepsNames
  | header given =>
      show KeepsNames (DocLine.headerKind given.kind)
      cases given.kind with
      | command | function => exact setKind_keepsNames _
      | usage => exact Keeps.pure ()

/-- A line of code that is read keeps names plain. -/
theorem CodeLine.update_keepsNames (source : String) :
    KeepsNames (CodeLine.read source).update := by
  cases hline : CodeLine.read source with
  | blank | endOfFile | unrecognized => exact Keeps.pure ()
  | function base space parameters =>
      obtain ⟨hbase, hspace⟩ := CodeLine.names_of_read hline
      have hdefine : KeepsNames (CodeLine.define .function (.text base)) :=
        (setKind_keepsNames _).bind fun _ => setName_keepsNames hbase
      refine hdefine.bind fun _ => ?_
      cases space with
      | none =>
          exact (setOwn_keepsNames (by decide) _).bind fun _ => setOwn_keepsNames (by decide) _
      | some space =>
          refine (setPart_keepsNames (by decide) (hspace _ rfl)).bind fun _ => ?_
          exact (setOwn_keepsNames (by decide) _).bind fun _ => setOwn_keepsNames (by decide) _
  | command name flags =>
      exact (define_keepsNames (by decide) _).bind fun _ => setOwn_keepsNames (by decide) _
  | setting name => exact define_keepsNames (by decide) _
  | flag name initial => exact define_keepsNames (by decide) _

/-! ### All that is heard -/

namespace Entry

variable {e t : Entry} {lines : List DocLine}

/-- An entry has heard lines of documentation as they are read, lines of code as they are read, and
apart from that only what leaves its text, its names and its kind as they are. -/
inductive Heard : Entry → List DocLine → Entry → Prop
  | done (e : Entry) : Heard e [] e
  | line {e t : Entry} {source : String} {line : DocLine} {lines : List DocLine} :
    DocLine.read source = .ok line → Heard (line.update e).state lines t → Heard e (line :: lines) t
  | code {e t : Entry} {lines : List DocLine} (source : String) :
    Heard ((CodeLine.read source).update e).state lines t → Heard e lines t
  | other {e u t : Entry} {lines : List DocLine} :
    u.said = e.said → SameNames e u → Heard u lines t → Heard e lines t

theorem Heard.told (h : Heard e lines t) : Told e lines t := by
  induction h with
  | done e => exact .done e
  | line _ _ ih => exact .line ih
  | @code e _ _ source _ ih => exact .other ((CodeLine.update_silent _).view_eq e) ih
  | other hsaid _ _ ih => exact .other hsaid ih

theorem Heard.exists_source (h : Heard e lines t) :
    ∀ line ∈ lines, ∃ source, DocLine.read source = .ok line := by
  induction h with
  | done e => exact List.forall_mem_nil _
  | line hread _ ih => exact List.forall_mem_cons.mpr ⟨⟨_, hread⟩, ih⟩
  | code _ _ ih => exact ih
  | other _ _ _ ih => exact ih

/-- The run: whatever an entry hears, its names are plain. -/
theorem Heard.plainlyNamed (h : Heard e lines t) (he : e.PlainlyNamed) : t.PlainlyNamed := by
  induction h with
  | done e => exact he
  | line hread _ ih => exact ih (DocLine.update_keepsNames hread _ he).1
  | code source _ ih => exact ih (CodeLine.update_keepsNames source _ he).1
  | other _ hsame _ ih => exact ih (he.congr hsame)

/-- A function with a plain name has a full name, which is as plain. -/
theorem PlainlyNamed.exists_fullName (h : e.PlainlyNamed) (hfunction : e.isOf .function = true)
    (hexception : e.hasOwn "exception" = false) (hnamed : e.hasOwn "name" = true) :
    ∃ name, e.fullName = .ok (.text name) ∧ ∀ c ∈ name.toList, isFullNameChar c = true := by
  obtain ⟨held, hheld⟩ := Option.isSome_iff_exists.mp hnamed
  obtain ⟨base, rfl, hbase⟩ : ∃ base, held = .text base
      ∧ ∀ c ∈ base.toList, isFullNameChar c = true := by
    rcases h.name with hname | ⟨kind, hkind, hof⟩
    · exact hname held hheld
    · rw [isOf_eq_false (isOf_iff.mp hfunction) (label_of_mem_otherKinds hkind).2.symm] at hof
      cases hof
  have hnone : e.own? "exception" = none := by
    rw [hasOwn_eq] at hexception
    simpa using hexception
  cases hdict : e.own? "dict" with
  | some dictionary =>
      obtain ⟨dictionary, rfl, hdictionary⟩ := h.parts "dict" (by decide) _ hdict
      obtain ⟨member, hmember, hchars⟩ := (h.parts "attribute" (by decide)).getD hbase
      refine ⟨dictionary ++ "." ++ member, ?_, ?_⟩
      · rw [fullName_of_member hfunction hheld hdict, hmember]
        rfl
      · rw [String.toList_append, String.toList_append]
        exact List.forall_mem_append.mpr ⟨List.forall_mem_append.mpr
          ⟨hdictionary, List.forall_mem_singleton.mpr rfl⟩, hchars⟩
  | none =>
      have hempty : ∀ c ∈ "".toList, isFullNameChar c = true := List.forall_mem_nil _
      obtain ⟨space, hspace, hchars⟩ := (h.parts "namespace" (by decide)).getD hempty
      refine ⟨space ++ base, ?_, ?_⟩
      · rw [fullName_of_free hfunction hheld hdict hnone, hspace]
        rfl
      · rw [String.toList_append]
        exact List.forall_mem_append.mpr ⟨hchars, hbase⟩

end Entry

end PluginHelp
