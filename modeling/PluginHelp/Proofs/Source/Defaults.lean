/-
Values by default, with brackets and without.

The argument of a value by default may be written as a name or as a name in brackets.  In running text
brackets only tell that an argument is optional, and the name inside of them is what counts.  Here
they are kept.  So `[file]` and `file` are two arguments, and a list of optional arguments that has
heard of both spellings holds both.

What an entry lists is what it has listed before, what stands in brackets in its texts, and what is
given a value by default.  No other line adds to it.  From this it can be told which entries of the
list have brackets, and that each entry is there once.  Besides, each value by default is told in a
passage of its own, with the argument as it was written: such a passage is complete at once, and no
line leaves one open that a later value would join.
-/
import PluginHelp.Proofs.Entry.Signature
import PluginHelp.Proofs.Source.Directives

namespace PluginHelp

open PluginHelp.Text

/-! ### Reading a value by default -/

namespace Pattern

/-- The argument of a value by default has no blank in it. -/
theorem isBlank_of_mem_defaultName {text : List Char} (h : Entry.IsDefaultName text) :
    ∀ c ∈ text, isBlank c = false := by
  have hsolid {name : List Char} (hname : isName name = true) : ∀ c ∈ name, isBlank c = false :=
    fun c hc => isBlank_of_isArgumentChar ((isArgument_of_isName hname).2 c hc)
  intro c hc
  rcases h with hname | ⟨name, hname, rfl⟩
  · exact hsolid hname c hc
  · simp only [List.mem_cons, List.mem_append, List.not_mem_nil, or_false] at hc
    rcases hc with rfl | hc | rfl
    · rfl
    · exact hsolid hname c hc
    · rfl

/-- The argument of a value by default goes up to the sign behind it. -/
theorem takes_defaultName {text : List Char} (h : Entry.IsDefaultName text)
    (read rest : List Char) :
    Takes (char '[' ++ name ++ char ']' <|> name) ⟨read, text ++ '=' :: rest, []⟩
      ⟨text.reverse ++ read, '=' :: rest, []⟩ := by
  rcases h with hname | ⟨inner, hinner, rfl⟩
  · have hopening : Refuses (char '[') ⟨read, text ++ '=' :: rest, []⟩ := by
      refine refuses_one_of_rest fun c hc => ?_
      cases text with
      | nil => cases hname
      | cons d text =>
          obtain rfl := Option.some.inj hc
          rw [beq_eq_false_iff_ne]
          rintro rfl
          cases (isName_cons.mp hname).1
    refine (takes_name hname ?_ read).altSecond hopening.seq.seq
    rintro c ⟨⟩
    rfl
  · have hinside : Takes name ⟨'[' :: read, inner ++ ']' :: '=' :: rest, []⟩
        ⟨inner.reverse ++ '[' :: read, ']' :: '=' :: rest, []⟩ := by
      refine takes_name hinner ?_ _
      rintro c ⟨⟩
      rfl
    have hall := ((takes_char '[' read _ []).seq hinside).seq (takes_char ']' _ _ _)
    simpa using hall.alt

theorem takes_blanks (read text : List Char) (captured : List (Nat × String)) :
    Takes blanks ⟨read, text, captured⟩
      ⟨(text.takeWhile isBlank).reverse ++ read, text.dropWhile isBlank, captured⟩ := by
  have hgap : ∀ c ∈ text.takeWhile isBlank, isBlank c = true :=
    List.all_eq_true.mp List.all_takeWhile
  have htakes : Takes blanks ⟨read, text.takeWhile isBlank ++ text.dropWhile isBlank, captured⟩ _ :=
    takes_many_one hgap (head?_dropWhile isBlank text) read
  rwa [List.takeWhile_append_dropWhile] at htakes

/-- The value goes from its first character that is no blank to the end of the line. -/
theorem takes_defaultValue {text value : List Char} (h : Entry.IsDefaultName text)
    (hline : '\n' ∉ value) :
    ∃ read, Takes defaultValue (.start (text ++ '=' :: value))
      ⟨read, [], [(2, String.ofList (value.dropWhile isBlank)), (1, String.ofList text)]⟩ := by
  have hvalue : '\n' ∉ value.dropWhile isBlank := fun hmem =>
    hline ((List.dropWhile_sublist _).mem hmem)
  have hname := (takes_defaultName h [] value).capture 1
  have hnone := takes_blanks (text.reverse ++ []) ('=' :: value) [(1, String.ofList text)]
  have hsign := takes_char '=' (text.reverse ++ []) value [(1, String.ofList text)]
  have hgap := takes_blanks ('=' :: (text.reverse ++ [])) value [(1, String.ofList text)]
  have hrest := takes_restOfLine hvalue ((value.takeWhile isBlank).reverse
    ++ '=' :: (text.reverse ++ [])) [(1, String.ofList text)] 2
  have hfront := ((((takes_atStart _).seq hname).seq hnone).seq hsign).seq hgap
  exact ⟨_, (hfront.seq hrest).seq (takes_test rfl)⟩

end Pattern

namespace DocLine

/-- A value by default is read with its argument as it is written. -/
theorem read_default {argument : String} (h : Entry.IsDefaultName argument.toList) {value : String}
    (hline : '\n' ∉ value.toList) :
    DocLine.read ("\" @default " ++ (argument ++ "=" ++ value))
      = .ok (.default argument (trimStart value)) := by
  have htext : (argument ++ "=" ++ value).toList = argument.toList ++ '=' :: value.toList := by
    simp
  have hsolid := Pattern.isBlank_of_mem_defaultName h
  have hread : DocLine.read ("\" @default " ++ (argument ++ "=" ++ value))
      = ofDirective .default (argument ++ "=" ++ value) := by
    have hword : Pattern.isName "default".toList = true := rfl
    refine read_directive rfl hword rfl ?_ ?_
    · rw [htext]
      intro hmem
      rcases List.mem_append.mp hmem with hmem | hmem
      · cases hsolid _ hmem
      · exact hline ((List.mem_cons.mp hmem).resolve_left (by decide))
    · intro c hc
      rw [htext] at hc
      cases hargument : argument.toList with
      | nil =>
          rw [hargument] at h
          rcases h with h | ⟨_, _, h⟩ <;> cases h
      | cons d text =>
          rw [hargument] at hc hsolid
          obtain rfl := Option.some.inj hc
          exact hsolid d List.mem_cons_self
  obtain ⟨read, htakes⟩ := Pattern.takes_defaultValue h hline
  rw [← htext] at htakes
  generalize hend : (⟨read, [], _⟩ : Scan) = t at htakes
  have hfirst (s : Scan) : (Pattern.defaultValue.found s t).group 1 = argument := by
    rw [Pattern.group_found (by decide), ← hend]
    exact String.ofList_toList
  have hsecond (s : Scan) : (Pattern.defaultValue.found s t).group 2 = trimStart value := by
    rw [Pattern.group_found (by decide), ← hend]
    rfl
  refine (hread.trans (ofDirective_of_takes htakes)).trans ?_
  exact congrArg₂ (fun a v => Except.ok (DocLine.default a v)) (hfirst _) (hsecond _)

end DocLine

/-! ### Passages that are complete at once -/

namespace Passages

variable {ps : Passages} {shape : Shape}

/-- What is begun is either open or of a shape that is complete at once, never both. -/
theorem complete_begin (hshape : shape.startsOpen = false) (h : ps.growing shape = false)
    (body : Body) : (ps.begin body).growing shape = false := by
  unfold begin
  split
  · exact h
  · rw [growing_concat, Passage.ofBody, Bool.and_eq_false_iff]
    cases hisA : body.shape.isA shape with
    | false => exact .inr rfl
    | true => exact .inl (Shape.eq_of_isA hshape hisA ▸ hshape)

theorem complete_close (ps : Passages) (shape : Shape) : ps.close.growing shape = false := by
  unfold close
  split
  · rename_i hnone
    rw [growing, hnone]
  · exact growing_concat _ _ _

/-- A line that joins a passage leaves its shape as it is. -/
theorem growing_addLine {qs : Passages} {line : String} (h : ps.addLine line = .ok qs) :
    qs.growing shape = ps.growing shape := by
  obtain ⟨p, hlast, -, rfl⟩ := addLine_eq_ok_iff.mp h
  rw [growing_concat, growing, hlast]
  rcases p with ⟨isOpen, body⟩
  cases body <;> rfl

end Passages

namespace Entry

open Act

/-- A step opens no passage of some shape. -/
abbrev KeepsComplete (shape : Shape) (act : Act Entry Unit) : Prop :=
  Keeps (fun e => e.passages.growing shape = false) (fun _ => True) act

section Complete

variable {shape : Shape} (hshape : shape.startsOpen = false)

theorem noteArguments_complete (text : String) : KeepsComplete shape (noteArguments text) :=
  Keeps.modify fun _ h => h

theorem closePassage_complete : KeepsComplete shape closePassage :=
  Keeps.modify fun _ _ => Passages.complete_close _ _

theorem extendPassage_complete (line : String) : KeepsComplete shape (extendPassage line) := by
  intro e he
  refine ⟨?_, fun _ _ => trivial⟩
  unfold extendPassage
  rw [get_bind_apply]
  cases hadded : e.passages.addLine line with
  | error cause => exact he
  | ok passages =>
      rw [ofExcept_ok_bind]
      exact (Passages.growing_addLine hadded).trans he

include hshape

theorem beginPassage_complete (body : Body) : KeepsComplete shape (beginPassage body) :=
  Keeps.modify fun _ h => Passages.complete_begin hshape h body

theorem addProse_complete (line : String) : KeepsComplete shape (addProse line) := by
  unfold addProse
  refine (beginPassage_complete hshape _).bind fun _ => Keeps.ite (fun _ => ?_) fun _ => ?_
  · exact Keeps.ite (fun _ => (extendPassage_complete _).bind fun _ => beginPassage_complete hshape _)
      fun _ => beginPassage_complete hshape _
  · exact extendPassage_complete line

theorem addUncoded_complete (line : String) : KeepsComplete shape (addUncoded line) := by
  unfold addUncoded
  refine (noteArguments_complete line).bind fun _ => Keeps.ite
    (fun _ => beginPassage_complete hshape _) fun _ => ?_
  split
  · exact closePassage_complete.bind fun _ => (beginPassage_complete hshape _).bind fun _ =>
      extendPassage_complete _
  · refine Keeps.get.bind fun e => Keeps.ite (fun _ => extendPassage_complete _) fun _ => ?_
    exact Keeps.ite (fun _ => closePassage_complete.bind fun _ => addProse_complete hshape line)
      fun _ => addProse_complete hshape line

theorem addLine_complete (line : String) : KeepsComplete shape (addLine line) := by
  unfold addLine
  refine Keeps.get.bind fun e => Keeps.ite (fun _ => ?_) fun _ => addUncoded_complete hshape line
  split
  · exact closePassage_complete.bind fun _ => Keeps.ite (fun _ => addUncoded_complete hshape _)
      fun _ => Keeps.pure ()
  · exact Keeps.ite (fun _ => extendPassage_complete line) fun _ =>
      closePassage_complete.bind fun _ => addUncoded_complete hshape line

/-- The step: no line opens a passage of a shape that is complete at once. -/
theorem update_complete (line : DocLine) : KeepsComplete shape line.update := by
  cases hspeaks : line.speaks with
  | false =>
      intro e he
      have hsaid : (line.update e).state.said = e.said := (DocLine.update_silent hspeaks).view_eq e
      exact ⟨(congrArg (fun said => Passages.growing said.1 shape) hsaid).trans he, fun _ _ => trivial⟩
  | true =>
      cases line with
      | text line => exact addLine_complete hshape line
      | default argument value =>
          exact (noteArguments_complete value).bind fun _ => (Keeps.modify fun _ h => h).bind
            fun _ => beginPassage_complete hshape _
      | throws error description =>
          exact (noteArguments_complete _).bind fun _ => beginPassage_complete hshape _
      | subSection title => exact beginPassage_complete hshape _
      | _ => cases hspeaks

/-- The run: such a passage is open in the end only if it was at first. -/
theorem Told.complete {e t : Entry} {lines : List DocLine} (h : Told e lines t) :
    e.passages.growing shape = false → t.passages.growing shape = false := by
  induction h with
  | done e => exact id
  | line _ ih => exact fun he => ih (update_complete hshape _ _ he).1
  | other hsame _ ih =>
      exact fun he => ih ((congrArg (fun said => Passages.growing said.1 shape) hsame).trans he)

end Complete

end Entry

namespace Entry

open Header Pattern

variable {e t : Entry} {lines : List DocLine} {word : String}

/-! ### What is listed -/

theorem mem_optionalIn {mode : Mode} {line : DocLine} :
    word ∈ mode.optionalIn line
      ↔ (∃ text ∈ mode.spoken line, word ∈ optionalArgument.findTexts text)
        ∨ ∃ value, line = .default word value := by
  have hspoken : word ∈ (mode.spoken line).flatMap optionalArgument.findTexts
      ↔ ∃ text ∈ mode.spoken line, word ∈ optionalArgument.findTexts text :=
    List.mem_flatMap
  cases line with
  | default argument value =>
      show word ∈ _ ++ [argument] ↔ _
      rw [List.mem_append, hspoken, List.mem_singleton]
      refine or_congr_right ⟨?_, ?_⟩
      · rintro rfl
        exact ⟨value, rfl⟩
      · rintro ⟨_, hline⟩
        exact (DocLine.default.inj hline).1.symm
  | _ =>
      show word ∈ _ ++ [] ↔ _
      rw [List.append_nil, hspoken]
      simp

/-- An optional argument is mentioned in a text, or is given a value by default. -/
theorem mem_mentions_optionalIn {mode : Mode} :
    word ∈ mentions Mode.optionalIn mode lines
      ↔ (∃ text ∈ mentions Mode.spoken mode lines, word ∈ optionalArgument.findTexts text)
        ∨ ∃ value, .default word value ∈ lines := by
  induction lines generalizing mode with
  | nil => simp [mentions]
  | cons line lines ih =>
      simp only [mentions, List.mem_append, mem_optionalIn, ih, List.mem_cons]
      constructor
      · rintro ((⟨text, htext, hword⟩ | ⟨value, rfl⟩) | (⟨text, htext, hword⟩ | ⟨value, hvalue⟩))
        · exact .inl ⟨text, .inl htext, hword⟩
        · exact .inr ⟨value, .inl rfl⟩
        · exact .inl ⟨text, .inr htext, hword⟩
        · exact .inr ⟨value, .inr hvalue⟩
      · rintro (⟨text, htext | htext, hword⟩ | ⟨value, hvalue | hvalue⟩)
        · exact .inl (.inl ⟨text, htext, hword⟩)
        · exact .inr (.inl ⟨text, htext, hword⟩)
        · exact .inl (.inr ⟨value, hvalue.symm⟩)
        · exact .inr (.inr ⟨value, hvalue⟩)

/-- What stands in brackets in a text is found there by its name. -/
theorem mem_optionalArgument {text : String} :
    word ∈ optionalArgument.findTexts text
      ↔ isNamedArgument word.toList = true ∧ StandsIn (showOptional word).toList text.toList := by
  rw [toList_showOptional]
  exact mem_findTexts_standing rfl rfl (by decide)

/-- A name in brackets is no name. -/
theorem not_isNamedArgument_showOptional (x : String) :
    ¬isNamedArgument (showOptional x).toList = true := by
  intro hnamed
  rw [toList_showOptional] at hnamed
  cases (isArgument_of_isNamedArgument hnamed).2 '[' List.mem_cons_self

theorem isNamedArgument_of_isName {text : List Char} (h : isName text = true) :
    isNamedArgument text = true :=
  isNamedArgument_iff.mpr ⟨text, [], (List.append_nil _).symm, h, .inl rfl⟩

/-- An entry lists no argument twice, and the optional ones by their names. -/
structure ListsNames (e : Entry) : Prop where
  required : e.required.Nodup
  optional : e.optional.Nodup
  named : ∀ word ∈ e.optional, isNamedArgument word.toList = true

theorem Told.optional_eq (h : Told e lines t) (he : e.ListsNames) :
    t.optional = firstMentions (e.optional ++ mentions Mode.optionalIn e.passages.mode lines) := by
  have hnoted : e.Noted e.passages.mode (firstMentions e.required) (firstMentions e.optional) :=
    ⟨rfl, (firstMentions_of_nodup he.required).symm, (firstMentions_of_nodup he.optional).symm⟩
  exact (h.noted hnoted).optional

/-- Where an optional argument in the list comes from. -/
theorem Told.mem_optional (h : Told e lines t) (he : e.ListsNames) :
    word ∈ t.optional ↔ word ∈ e.optional
      ∨ (∃ text ∈ mentions Mode.spoken e.passages.mode lines, word ∈ optionalArgument.findTexts text)
      ∨ ∃ value, .default word value ∈ lines := by
  rw [h.optional_eq he, mem_firstMentions, List.mem_append, mem_mentions_optionalIn]

/-- What a value by default adds to the list. -/
theorem mem_update_default {argument value : String} :
    word ∈ ((DocLine.default argument value).update t).state.optional
      ↔ word ∈ t.optional ∨ word ∈ optionalArgument.findTexts value ∨ word = argument := by
  have hnoted : word ∈ (t.noting value).optional
      ↔ word ∈ t.optional ∨ word ∈ optionalArgument.findTexts value := by
    rw [noting, mem_firstMentions, List.mem_append]
  show word ∈ (if (t.noting value).optional.contains argument then (t.noting value).optional
    else (t.noting value).optional ++ [argument]) ↔ _
  rw [← or_assoc, ← hnoted]
  split
  · rename_i hknown
    constructor
    · exact Or.inl
    · rintro (hword | rfl)
      · exact hword
      · exact List.contains_iff_mem.mp hknown
  · rw [List.mem_append, List.mem_singleton]

/-! ### Names in brackets -/

/-- A value by default is given to a name, or to a name in brackets. -/
theorem isName_or_showOptional {source value : String}
    (h : DocLine.read source = .ok (.default word value)) :
    isName word.toList = true ∨ ∃ x, isName x.toList = true ∧ word = showOptional x := by
  rcases isDefaultName_of_read h with hname | ⟨name, hname, hword⟩
  · exact .inl hname
  · refine .inr ⟨String.ofList name, by rwa [String.toList_ofList], ?_⟩
    rw [← String.toList_inj, toList_showOptional, hword, String.toList_ofList]

/-- What is listed and is no name was given a value by default. -/
theorem Told.isNamedArgument_or_default (h : Told e lines t) (he : e.ListsNames)
    (hword : word ∈ t.optional) :
    isNamedArgument word.toList = true ∨ ∃ value, .default word value ∈ lines := by
  rcases (h.mem_optional he).mp hword with hknown | ⟨text, -, hfound⟩ | hvalue
  · exact .inl (he.named word hknown)
  · exact .inl (mem_optionalArgument.mp hfound).1
  · exact .inr hvalue

/-- A name in brackets is listed exactly if it is given a value by default in brackets. -/
theorem Told.showOptional_mem (h : Told e lines t) (he : e.ListsNames) (x : String) :
    showOptional x ∈ t.optional ↔ ∃ value, .default (showOptional x) value ∈ lines := by
  constructor
  · intro hlisted
    exact (h.isNamedArgument_or_default he hlisted).resolve_left (not_isNamedArgument_showOptional x)
  · intro hvalue
    exact (h.mem_optional he).mpr (.inr (.inr hvalue))

theorem ne_showOptional {x : String} (hx : isNamedArgument x.toList = true) : x ≠ showOptional x := by
  intro hsame
  have hnot := not_isNamedArgument_showOptional x
  rw [← hsame] at hnot
  exact hnot hx

/-- A name in brackets that is not listed yet is listed by one of the two lines only. -/
theorem update_default_ne_of_new {x : String} (hx : isNamedArgument x.toList = true)
    (hnew : showOptional x ∉ t.optional) (value : String) :
    (DocLine.default x value).update t ≠ (DocLine.default (showOptional x) value).update t := by
  intro hsame
  have hadded : showOptional x ∈ ((DocLine.default x value).update t).state.optional := by
    rw [hsame]
    exact mem_update_default.mpr (.inr (.inr rfl))
  rcases mem_update_default.mp hadded with hknown | hfound | hbare
  · exact hnew hknown
  · exact not_isNamedArgument_showOptional x (mem_optionalArgument.mp hfound).1
  · exact ne_showOptional hx hbare.symm

/-- A value by default is told with its argument, be that listed or not. -/
theorem update_default_ne_of_complete {x : String} (hx : isNamedArgument x.toList = true)
    (hcomplete : t.passages.growing .default = false) (value : String) :
    (DocLine.default x value).update t ≠ (DocLine.default (showOptional x) value).update t := by
  have hadded (argument : String) : ((DocLine.default argument value).update t).state.passages
      = t.passages ++ [.ofBody (.default argument value)] := by
    show t.passages.begin (.default argument value) = _
    exact if_neg (by rw [Body.shape, hcomplete]; decide)
  intro hsame
  have hpassages := congrArg (fun outcome => outcome.state.passages) hsame
  rw [hadded, hadded] at hpassages
  have hlast := List.singleton_inj.mp (List.append_cancel_left hpassages)
  exact ne_showOptional hx (Body.default.inj (congrArg Passage.body hlast)).1

/--
**Brackets around the name of a value by default are part of the name.**

Whatever lines an entry is told, it lists no optional argument twice.  But what it lists may be a name
in brackets, and it is exactly if a value by default is written like that.  Such a name is listed
apart from the name without brackets, which is there if it was, if it stands in brackets in a text or
if it is given a value by default itself.  So the two ways to write a value by default are read as
different lines, and never do the same to an entry that has begun without an open value by default.
To any other one they do not do the same as long as the name in brackets is not listed.
-/
theorem told_defaults (he : e.ListsNames) (htold : Told e lines t)
    (hread : ∀ line ∈ lines, ∃ source, DocLine.read source = .ok line) :
    t.optional.Nodup
    ∧ (∀ word ∈ t.optional, isNamedArgument word.toList = true
        ∨ ∃ x, isName x.toList = true ∧ word = showOptional x)
    ∧ ((∀ word ∈ t.optional, isNamedArgument word.toList = true)
        ↔ ∀ word value, .default word value ∈ lines → isName word.toList = true)
    ∧ ∀ x, isName x.toList = true →
        (x ∈ t.optional ↔ x ∈ e.optional
          ∨ (∃ text ∈ mentions Mode.spoken e.passages.mode lines,
              StandsIn (showOptional x).toList text.toList)
          ∨ ∃ value, .default x value ∈ lines)
        ∧ (showOptional x ∈ t.optional ↔ ∃ value, .default (showOptional x) value ∈ lines)
        ∧ ∀ value, '\n' ∉ value.toList →
          DocLine.read ("\" @default " ++ (x ++ "=" ++ value))
              = .ok (.default x (trimStart value))
          ∧ DocLine.read ("\" @default " ++ (showOptional x ++ "=" ++ value))
              = .ok (.default (showOptional x) (trimStart value))
          ∧ (e.passages.growing .default = false ∨ showOptional x ∉ t.optional →
              (DocLine.default x (trimStart value)).update t
                ≠ (DocLine.default (showOptional x) (trimStart value)).update t) := by
  have hform : ∀ word value, .default word value ∈ lines → isName word.toList = true
      ∨ ∃ x, isName x.toList = true ∧ word = showOptional x := by
    intro word value hline
    obtain ⟨source, hsource⟩ := hread _ hline
    exact isName_or_showOptional hsource
  refine ⟨?_, ?_, ⟨?_, ?_⟩, ?_⟩
  · rw [htold.optional_eq he]
    exact firstMentions_nodup _
  · intro word hword
    rcases htold.isNamedArgument_or_default he hword with hnamed | ⟨value, hvalue⟩
    · exact .inl hnamed
    · exact (hform word value hvalue).imp_left isNamedArgument_of_isName
  · intro hall word value hvalue
    rcases hform word value hvalue with hname | ⟨x, -, rfl⟩
    · exact hname
    · have hlisted := (htold.showOptional_mem he x).mpr ⟨value, hvalue⟩
      exact absurd (hall _ hlisted) (not_isNamedArgument_showOptional x)
  · intro hall word hword
    rcases htold.isNamedArgument_or_default he hword with hnamed | ⟨value, hvalue⟩
    · exact hnamed
    · exact isNamedArgument_of_isName (hall word value hvalue)
  · intro x hx
    have hnamed := isNamedArgument_of_isName hx
    refine ⟨?_, htold.showOptional_mem he x, ?_⟩
    · simp only [htold.mem_optional he, mem_optionalArgument, hnamed, true_and]
    · intro value hline
      have hbracketed : IsDefaultName (showOptional x).toList :=
        .inr ⟨x.toList, hx, toList_showOptional x⟩
      refine ⟨DocLine.read_default (.inl hx) hline, DocLine.read_default hbracketed hline, ?_⟩
      rintro (hcomplete | hnew)
      · exact update_default_ne_of_complete hnamed (htold.complete rfl hcomplete) _
      · exact update_default_ne_of_new hnamed hnew _

/-- A text that mentions an argument, and its value by default with brackets. -/
def bracketedDefault : List DocLine :=
  [.text "Opens [file].", .default "[file]" "none"]

theorem told_defaults_file :
    ∃ t : Entry, Told {} bracketedDefault t ∧ t.optional.Nodup ∧ "file" ∈ t.optional
      ∧ showOptional "file" ∈ t.optional
      ∧ (DocLine.default "file" "all").update t
        ≠ (DocLine.default (showOptional "file") "all").update t := by
  have htold : Told {} bracketedDefault _ := .line (.line (.done _))
  have hname : isName "file".toList = true := rfl
  have hlists : ListsNames {} := ⟨.nil, .nil, List.forall_mem_nil _⟩
  have hread : ∀ line ∈ bracketedDefault, ∃ source, DocLine.read source = .ok line := by
    refine List.forall_mem_cons.mpr ⟨⟨"\" Opens [file].", rfl⟩, List.forall_mem_singleton.mpr ?_⟩
    exact ⟨"\" @default [file]=none", rfl⟩
  obtain ⟨hnodup, -, -, hlisted⟩ := told_defaults hlists htold hread
  obtain ⟨hbare, hbracketed, hlines⟩ := hlisted "file" hname
  have htrim : trimStart "all" = "all" := rfl
  have hdiffer := (hlines "all" (by simp)).2.2 (.inl rfl)
  rw [htrim] at hdiffer
  refine ⟨_, htold, hnodup, hbare.mpr (.inr (.inl ?_)), hbracketed.mpr ⟨"none", ?_⟩, hdiffer⟩
  · refine ⟨"Opens [file].", List.mem_cons_self, "Opens ".toList, ".".toList, ?_, ?_, ?_⟩
    · rfl
    · rfl
    · rfl
  · exact List.mem_cons_of_mem _ List.mem_cons_self

end Entry

end PluginHelp
