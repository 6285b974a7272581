/-
The arguments that documentation mentions.

Arguments are looked for in the lines of text that are no code, in values by default and in what is
said about errors.  Which lines are code shows only as the lines are read: code begins after a `>` at
the end of a line and ends with a line that is not indented, or with a `<`.  A list item matters too,
since a line that goes on with it opens no code.  So the lines are followed with a mode, and each of
them tells what an entry hears and which mode it leaves.  Whatever else happens to the entry in
between, what it has noted in the end is what was heard, each argument once and where it was
mentioned first.
-/
import Mathlib.Data.List.Induction
import PluginHelp.Proofs.Entry.Frame

namespace PluginHelp

open PluginHelp.Text

/-! ### Following the lines -/

/-- How lines of text go on. -/
inductive Mode where
  | plain | item | code
deriving DecidableEq, Repr

namespace Mode

/-- The mode after a line that is no code. -/
def afterUncoded (mode : Mode) (line : String) : Mode :=
  if isBlankText line then plain
  else if (Pattern.listItem.match? line).isSome then item
  else if Entry.isIndented line && mode == item then item
  else if line == ">" || [' ', '>'].isSuffixOf line.toList then code
  else plain

/-- What a line of text says outside of code. -/
def heard (mode : Mode) (line : String) : Option String :=
  if mode == code then
    match line.toList with
    | '<' :: rest =>
      let text := trimStart (String.ofList rest)
      if text != "" then some text else none
    | _ => if line == "" || Entry.isIndented line then none else some line
  else
    some line

/-- The mode after a line of text.  A line of which nothing is heard ends code or is code. -/
def afterText (mode : Mode) (line : String) : Mode :=
  match mode.heard line with
  | some text => (if mode == code then plain else mode).afterUncoded text
  | none => if line.toList.head? == some '<' then plain else code

/-- The mode after a line of documentation. -/
def after (mode : Mode) : DocLine → Mode
  | .text line => mode.afterText line
  | .default .. | .throws .. | .subSection _ => plain
  | _ => mode

/-- Where a line of documentation may mention arguments. -/
def spoken (mode : Mode) : DocLine → List String
  | .text line => (mode.heard line).toList
  | .default _ value => [value]
  | .throws _ description => [description.getD ""]
  | _ => []

/-- The required arguments that a line mentions. -/
def requiredIn (mode : Mode) (line : DocLine) : List String :=
  (mode.spoken line).flatMap Pattern.requiredArgument.findTexts

/-- The optional arguments that a line mentions.  An argument with a value by default is one, and
comes after those that the value mentions. -/
def optionalIn (mode : Mode) (line : DocLine) : List String :=
  (mode.spoken line).flatMap Pattern.optionalArgument.findTexts
    ++ match line with
      | .default argument _ => [argument]
      | _ => []

/-- In code, a line that begins with a `<` is heard without it. -/
theorem heard_code_open {line : String} {rest : List Char} (h : line.toList = '<' :: rest) :
    code.heard line = if trimStart (String.ofList rest) != "" then
      some (trimStart (String.ofList rest)) else none := by
  unfold heard
  rw [if_pos (by rfl), h]
  rfl

/-- In code, any other line is heard if it is neither empty nor indented. -/
theorem heard_code_other {line : String} (h : ∀ rest, line.toList = '<' :: rest → False) :
    code.heard line = if line == "" || Entry.isIndented line then none else some line := by
  unfold heard
  rw [if_pos (by rfl)]
  split
  · rename_i hline
    exact (h _ hline).elim
  · rfl

theorem eq_plain {mode : Mode} (hcode : mode ≠ code) (hitem : mode ≠ item) : mode = plain := by
  cases mode with
  | plain => rfl
  | item => exact absurd rfl hitem
  | code => exact absurd rfl hcode

end Mode

/-- What the lines of documentation mention, in order. -/
def mentions (mentioned : Mode → DocLine → List String) : Mode → List DocLine → List String
  | _, [] => []
  | mode, line :: rest => mentioned mode line ++ mentions mentioned (mode.after line) rest

/-! ### The mode of passages -/

/-- Something of a shape that is complete at once counts as nothing else. -/
theorem Shape.eq_of_isA {shape other : Shape} (hshape : shape.startsOpen = false)
    (h : other.isA shape = true) : other = shape := by
  cases shape <;> cases other <;> simp_all [Shape.isA, Shape.startsOpen]

/-- The mode that a last passage leaves. -/
def Passage.mode (p : Passage) : Mode :=
  if p.isOpen then
    match p.body.shape with
    | .code => .code
    | .item => .item
    | _ => .plain
  else
    .plain

namespace Passages

variable {ps : Passages}

/-- The mode that passages are in. -/
def mode (ps : Passages) : Mode :=
  (ps.getLast?.map Passage.mode).getD .plain

theorem mode_concat (ps : Passages) (p : Passage) : Passages.mode (ps ++ [p]) = p.mode := by
  rw [mode, List.getLast?_concat]
  rfl

theorem growing_code (ps : Passages) : ps.growing .code = (ps.mode == .code) := by
  unfold growing mode
  cases ps.getLast? with
  | none => rfl
  | some p =>
      rcases p with ⟨isOpen, body⟩
      cases isOpen <;> cases body <;> rfl

theorem growing_item (ps : Passages) : ps.growing .item = (ps.mode == .item) := by
  unfold growing mode
  cases ps.getLast? with
  | none => rfl
  | some p =>
      rcases p with ⟨isOpen, body⟩
      cases isOpen <;> cases body <;> rfl

/-- A passage of a shape that is complete at once cannot grow. -/
theorem mode_of_growing {shape : Shape} (hshape : shape.startsOpen = false)
    (h : ps.growing shape = true) : ps.mode = .plain := by
  unfold growing at h
  unfold mode
  cases hlast : ps.getLast? with
  | none => rfl
  | some p =>
      rw [hlast] at h
      obtain ⟨hopen, hisA⟩ := Bool.and_eq_true_iff.mp h
      show p.mode = .plain
      rw [Passage.mode, hopen, Shape.eq_of_isA hshape hisA]
      cases shape <;> simp_all [Shape.startsOpen]

theorem mode_close (ps : Passages) : ps.close.mode = .plain := by
  unfold close
  split
  · rename_i hnone
    rw [List.getLast?_eq_none_iff.mp hnone]
    rfl
  · rw [mode_concat]
    rfl

/-- A line that joins a passage leaves the mode as it is. -/
theorem mode_addLine {qs : Passages} {line : String} (h : ps.addLine line = .ok qs) :
    qs.mode = ps.mode := by
  obtain ⟨p, hlast, -, rfl⟩ := addLine_eq_ok_iff.mp h
  rw [mode_concat, mode, hlast]
  rcases p with ⟨isOpen, body⟩
  cases body <;> rfl

/-- A passage of code begins code. -/
theorem mode_begin_code (ps : Passages) (lines : List String) :
    (ps.begin (.code lines)).mode = .code := by
  unfold begin
  split
  · rename_i hgrowing
    rw [show (Body.code lines).shape = .code from rfl, growing_code] at hgrowing
    exact beq_iff_eq.mp hgrowing
  · exact mode_concat _ _

theorem mode_begin_item (ps : Passages) (leader : String) (level : Int) (text : String) :
    (ps.begin (.item leader level text)).mode = .item := by
  unfold begin
  split
  · rename_i hgrowing
    rw [show (Body.item leader level text).shape = .item from rfl, growing_item] at hgrowing
    exact beq_iff_eq.mp hgrowing
  · exact mode_concat _ _

theorem mode_begin_prose (h : ps.mode = .plain) (text : String) :
    (ps.begin (.prose text)).mode = .plain := by
  unfold begin
  split
  · exact h
  · exact mode_concat _ _

theorem mode_begin_closed (ps : Passages) {body : Body} (h : body.shape.startsOpen = false) :
    (ps.begin body).mode = .plain := by
  unfold begin
  split
  · rename_i hgrowing
    exact mode_of_growing h hgrowing
  · rw [mode_concat, Passage.mode, Passage.ofBody, h]
    rfl

end Passages

namespace Entry

open Act

/-! ### Each argument once -/

theorem firstMentions_concat (items : List String) (item : String) :
    firstMentions (items ++ [item]) = if (firstMentions items).contains item then firstMentions items
      else firstMentions items ++ [item] := by
  rw [firstMentions, List.foldl_append]
  rfl

/-- What was mentioned first is found by leaving out repetitions. -/
theorem firstMentions_eq (items : List String) : firstMentions items = items.eraseDups := by
  induction items using List.reverseRecOn with
  | nil => rfl
  | append_singleton items item ih =>
      rw [firstMentions_concat, ih, List.eraseDups_append]
      by_cases hmem : item ∈ items
      · simp [hmem, List.removeAll]
      · simp [hmem, List.removeAll, List.eraseDups_cons]

theorem mem_firstMentions {name : String} {items : List String} :
    name ∈ firstMentions items ↔ name ∈ items := by
  rw [firstMentions_eq, List.mem_eraseDups]

/-- Names are listed by the place where they occurred first. -/
theorem firstMentions_ordered (items : List String) :
    (firstMentions items).Pairwise fun x y => items.idxOf x < items.idxOf y := by
  induction items using List.reverseRecOn with
  | nil => exact .nil
  | append_singleton items item ih =>
      have hkept : (firstMentions items).Pairwise fun x y =>
          (items ++ [item]).idxOf x < (items ++ [item]).idxOf y := by
        refine ih.imp_of_mem fun hx hy hless => ?_
        rwa [List.idxOf_append_of_mem (mem_firstMentions.mp hx),
          List.idxOf_append_of_mem (mem_firstMentions.mp hy)]
      rw [firstMentions_concat]
      split
      · exact hkept
      · rename_i hnew
        rw [List.contains_iff_mem, mem_firstMentions] at hnew
        refine List.pairwise_append.mpr ⟨hkept, List.pairwise_singleton _ _, ?_⟩
        intro x hx y hy
        obtain rfl := List.mem_singleton.mp hy
        rw [List.idxOf_append_of_mem (mem_firstMentions.mp hx), List.idxOf_append_of_notMem hnew]
        exact Nat.lt_add_right _ (List.idxOf_lt_length_of_mem (mem_firstMentions.mp hx))

theorem firstMentions_nodup (items : List String) : (firstMentions items).Nodup := by
  refine (firstMentions_ordered items).imp ?_
  rintro x _ hless rfl
  exact Nat.lt_irrefl _ hless

theorem firstMentions_of_nodup {items : List String} (h : items.Nodup) :
    firstMentions items = items := by
  induction items using List.reverseRecOn with
  | nil => rfl
  | append_singleton items item ih =>
      obtain ⟨hitems, -, hnew⟩ := List.nodup_append.mp h
      rw [firstMentions_concat, ih hitems, if_neg]
      rw [List.contains_iff_mem]
      intro hmem
      exact hnew item hmem item List.mem_cons_self rfl

/-- Repetitions may be left out on the way. -/
theorem firstMentions_append (items more : List String) :
    firstMentions (firstMentions items ++ more) = firstMentions (items ++ more) := by
  induction more using List.reverseRecOn with
  | nil =>
      rw [List.append_nil, List.append_nil]
      exact firstMentions_of_nodup (firstMentions_nodup items)
  | append_singleton more item ih =>
      rw [← List.append_assoc, ← List.append_assoc, firstMentions_concat, firstMentions_concat, ih]

/-! ### What a line leaves behind -/

/-- The text of an entry is in some mode, and it has noted some arguments. -/
structure Noted (e : Entry) (mode : Mode) (required optional : List String) : Prop where
  mode : e.passages.mode = mode
  required : e.required = required
  optional : e.optional = optional

/-- A step that succeeds leaves such an entry behind. -/
abbrev Notes (e : Entry) (act : Act Entry Unit) (mode : Mode) (required optional : List String) :
    Prop :=
  Ensures act e (fun _ t => t.Noted mode required optional) (fun _ => False)

variable {e : Entry} {mode : Mode} {line : String}

theorem beginPassage_notes {body : Body} (h : (e.passages.begin body).mode = mode) :
    e.Notes (beginPassage body) mode e.required e.optional :=
  Ensures.modify ⟨h, rfl, rfl⟩

theorem closePassage_notes (e : Entry) : e.Notes closePassage .plain e.required e.optional :=
  Ensures.modify ⟨Passages.mode_close _, rfl, rfl⟩

theorem extendPassage_notes (h : e.passages.growing .bare = true) (line : String) :
    e.Notes (extendPassage line) e.passages.mode e.required e.optional := by
  obtain ⟨passages, hpassages⟩ := Passages.addLine_of_growing h line
  unfold extendPassage
  refine Ensures.get_bind (Ensures.ofExcept_bind ?_ fun _ hadded =>
    Ensures.modify ⟨Passages.mode_addLine hadded, rfl, rfl⟩)
  rw [hpassages]
  exact Covers.ok _

/-- A step that notes nothing more. -/
theorem Noted.keeps {act : Act Entry Unit} {before : Mode} {required optional : List String}
    (h : e.Noted before required optional) (k : e.Notes act mode e.required e.optional) :
    e.Notes act mode required optional :=
  k.mono fun _ _ ht => ⟨ht.mode, ht.required.trans h.required, ht.optional.trans h.optional⟩

/-- Something is done after a step that notes nothing more. -/
theorem Noted.bind {act next : Act Entry Unit} {before between : Mode}
    {required optional : List String} (h : e.Noted before required optional)
    (k : e.Notes act between e.required e.optional)
    (l : ∀ t : Entry, t.Noted between required optional → t.Notes next mode required optional) :
    e.Notes (act >>= fun _ => next) mode required optional :=
  Ensures.bind (h.keeps k) fun _ t ht => l t ht

/-- Something is done with a passage that has just been begun. -/
theorem beginPassage_bind_notes {body : Body} {next : Act Entry Unit} {begun : Mode}
    (hopen : body.shape.startsOpen = true) (hmode : (e.passages.begin body).mode = begun)
    (k : ∀ t : Entry, t.passages.growing .bare = true → t.Noted begun e.required e.optional →
      t.Notes next mode e.required e.optional) :
    e.Notes (beginPassage body >>= fun _ => next) mode e.required e.optional :=
  Ensures.modify_bind (k _ (Passages.growing_begin hopen e.passages) ⟨hmode, rfl, rfl⟩)

/-- A line that joins an open passage. -/
theorem Noted.extend {before : Mode} {required optional : List String}
    (h : e.Noted before required optional) (hopen : e.passages.growing .bare = true) (line : String) :
    e.Notes (extendPassage line) before required optional := by
  have hextended := h.keeps (extendPassage_notes hopen line)
  rwa [h.mode] at hextended

theorem beginPassage_code_notes (e : Entry) :
    e.Notes (beginPassage (.code [])) .code e.required e.optional :=
  beginPassage_notes (Passages.mode_begin_code _ _)

/-- A line of running text: only a `>` at its end begins something else. -/
theorem addProse_notes (h : e.passages.mode = .plain) (line : String) :
    e.Notes (addProse line)
      (if line == ">" || [' ', '>'].isSuffixOf line.toList then .code else .plain)
      e.required e.optional := by
  unfold addProse
  refine beginPassage_bind_notes rfl (Passages.mode_begin_prose h "") fun t hopen hnoted => ?_
  refine Ensures.ite (fun hcode => ?_) fun hcode => ?_
  · rw [if_pos hcode]
    dsimp only
    generalize trimEnd (String.ofList line.toList.dropLast) = text
    refine Ensures.ite (fun _ => ?_) fun _ => hnoted.keeps (beginPassage_code_notes t)
    exact hnoted.bind (extendPassage_notes hopen _) fun u hu => hu.keeps (beginPassage_code_notes u)
  · rw [if_neg hcode]
    exact hnoted.extend hopen line

/-- What an entry notes of a text. -/
def noting (e : Entry) (text : String) : Entry :=
  { e with
    required := firstMentions (e.required ++ Pattern.requiredArgument.findTexts text)
    optional := firstMentions (e.optional ++ Pattern.optionalArgument.findTexts text) }

/-- A line outside of code. -/
theorem addUncoded_notes (h : e.passages.mode ≠ .code) (line : String) :
    e.Notes (addUncoded line) (e.passages.mode.afterUncoded line)
      (e.noting line).required (e.noting line).optional := by
  unfold addUncoded Mode.afterUncoded
  refine Ensures.modify_bind ?_
  rw [← noting]
  have hnoted : (e.noting line).Noted e.passages.mode (e.noting line).required
      (e.noting line).optional :=
    ⟨rfl, rfl, rfl⟩
  refine Ensures.ite (fun hblank => ?_) fun hblank => ?_
  · rw [if_pos hblank]
    exact beginPassage_notes (Passages.mode_begin_closed _ rfl)
  · rw [if_neg hblank]
    cases hitem : Pattern.listItem.match? line with
    | some found =>
        refine hnoted.bind (closePassage_notes _) fun t ht => ht.keeps ?_
        exact beginPassage_bind_notes rfl (Passages.mode_begin_item _ _ _ _) fun u hopen hu =>
          hu.extend hopen _
    | none =>
        refine Ensures.get_bind ?_
        simp only [Option.isSome_none, Bool.false_eq_true, if_false]
        rw [Passages.growing_item, show (e.noting line).passages.mode = e.passages.mode from rfl]
        refine Ensures.ite (fun hgoes => ?_) fun hgoes => ?_
        · have hmode := (Bool.and_eq_true_iff.mp hgoes).2
          have hgrowing : (e.noting line).passages.growing .item = true :=
            (Passages.growing_item _).trans hmode
          rw [if_pos hgoes, ← beq_iff_eq.mp hmode]
          exact hnoted.extend (Passages.growing_bare hgrowing) _
        · rw [if_neg hgoes]
          refine Ensures.ite (fun _ => ?_) fun hitem => ?_
          · exact hnoted.bind (closePassage_notes _) fun t ht => ht.keeps (addProse_notes ht.mode line)
          · have hplain := Mode.eq_plain h (by simpa using hitem)
            exact hnoted.keeps (addProse_notes (hnoted.mode.trans hplain) line)

/-- A line that ends code. -/
theorem closePassage_addUncoded_notes (e : Entry) (text : String) :
    e.Notes (closePassage >>= fun _ => addUncoded text) (Mode.plain.afterUncoded text)
      (e.noting text).required (e.noting text).optional := by
  refine Ensures.bind (closePassage_notes e) fun _ t ht => ?_
  have hmode : t.passages.mode ≠ .code := by
    rw [ht.mode]
    exact Mode.noConfusion
  have hadded := addUncoded_notes hmode text
  rw [ht.mode] at hadded
  refine hadded.mono fun _ u hu => ⟨hu.mode, hu.required.trans ?_, hu.optional.trans ?_⟩
  · rw [noting, noting, ht.required]
  · rw [noting, noting, ht.optional]

/-- What is heard of a line of text, if anything. -/
def hearing (e : Entry) (text : Option String) : Entry :=
  (text.map e.noting).getD e

/-- A line of text. -/
theorem addLine_notes (e : Entry) (line : String) :
    e.Notes (addLine line) (e.passages.mode.afterText line)
      (e.hearing (e.passages.mode.heard line)).required
      (e.hearing (e.passages.mode.heard line)).optional := by
  unfold addLine Mode.afterText
  refine Ensures.get_bind ?_
  rw [Passages.growing_code]
  refine Ensures.ite (fun hcode => ?_) fun hcode => ?_
  · have hmode : e.passages.mode = .code := beq_iff_eq.mp hcode
    rw [hmode]
    split
    · rename_i rest hline
      rw [Mode.heard_code_open hline, hline]
      dsimp only
      generalize trimStart (String.ofList rest) = text
      by_cases htext : (text != "") = true
      · rw [if_pos htext, if_pos htext]
        exact closePassage_addUncoded_notes e text
      · rw [if_neg htext, if_neg htext]
        exact Ensures.bind (closePassage_notes e) fun _ t ht => Ensures.pure ht
    · rename_i hline
      rw [Mode.heard_code_other hline]
      by_cases hkept : (line == "" || isIndented line) = true
      · have hhead : (line.toList.head? == some '<') = false := by
          cases hchars : line.toList with
          | nil => rfl
          | cons c rest =>
              rw [← Bool.not_eq_true, beq_iff_eq, List.head?_cons, Option.some.injEq]
              rintro rfl
              exact hline rest hchars
        have hgrowing : e.passages.growing .code = true := (Passages.growing_code _).trans hcode
        have hnoted : e.Noted .code e.required e.optional := ⟨hmode, rfl, rfl⟩
        rw [if_pos hkept, if_pos hkept]
        dsimp only
        rw [hhead]
        exact hnoted.extend (Passages.growing_bare hgrowing) line
      · rw [if_neg hkept, if_neg hkept]
        exact closePassage_addUncoded_notes e line
  · have hmode : e.passages.mode ≠ .code := by simpa using hcode
    have hheard : e.passages.mode.heard line = some line := by
      rw [Mode.heard, if_neg hcode]
    rw [hheard]
    dsimp only
    rw [if_neg hcode]
    exact addUncoded_notes hmode line

/-! ### Lines that are no text -/

/-- What an entry has of its text. -/
def said (e : Entry) : Passages × List String × List String :=
  (e.passages, e.required, e.optional)

/-- A step that says nothing. -/
abbrev Silent (act : Act Entry Unit) : Prop :=
  Confined said (fun _ => True) act

theorem setKind_silent (wanted : Value) : Silent (setKind wanted) := by
  unfold setKind
  refine Confined.get.bind fun e => Confined.ite (fun _ => ?_) fun _ => ?_
  · exact Confined.modify fun _ => rfl
  · exact Confined.ite (fun _ => Confined.modify fun _ => rfl) fun _ => Confined.fail trivial

theorem setOwn_silent (control : String) (value : Value) : Silent (setOwn control value) := by
  unfold setOwn
  refine (setKind_silent _).bind fun _ => Confined.get.bind fun e => ?_
  exact Confined.ite (fun _ => Confined.modify fun _ => rfl) fun _ => Confined.fail trivial

theorem setShared_silent (control : String) (value : Value) : Silent (setShared control value) := by
  unfold setShared
  refine (setKind_silent _).bind fun _ => Confined.get.bind fun e => ?_
  exact Confined.ite (fun _ => Confined.fail trivial) fun _ => Confined.modify fun _ => rfl

theorem setParent_silent (parent : Value) : Silent (setParent parent) := by
  unfold setParent
  refine Confined.get.bind fun e => Confined.ite (fun _ => setOwn_silent _ _) fun _ => ?_
  exact Confined.fail trivial

end Entry

open Act Entry

/-- Whether a line of documentation is text, or makes a passage. -/
def DocLine.speaks : DocLine → Bool
  | text _ | default .. | throws .. | subSection _ => true
  | _ => false

/-- Other lines of documentation say nothing. -/
theorem DocLine.update_silent {line : DocLine} (h : line.speaks = false) : Silent line.update := by
  cases line with
  | text | default | throws | subSection => cases h
  | all => exact Confined.pure ()
  | author => exact setShared_silent _ _
  | backmatter id => exact (setKind_silent _).bind fun _ => setOwn_silent _ _
  | deprecated => exact setOwn_silent _ _
  | exception => exact setOwn_silent _ _
  | dict name member =>
      refine (setKind_silent _).bind fun _ => (setOwn_silent _ _).bind fun _ => ?_
      cases member with
      | none => exact Confined.pure ()
      | some member => exact (setKind_silent _).bind fun _ => setOwn_silent _ _
  | library => exact setShared_silent _ _
  | order => exact setShared_silent _ _
  | parentSection => exact setParent_silent _
  | markPrivate => exact setOwn_silent _ _
  | markPublic => exact setOwn_silent _ _
  | sect title id =>
      exact (setKind_silent _).bind fun _ => (setOwn_silent _ _).bind fun _ => setOwn_silent _ _
  | setting => exact (setKind_silent _).bind fun _ => setOwn_silent _ _
  | standalone => exact setShared_silent _ _
  | stylized => exact setShared_silent _ _
  | tagline => exact setShared_silent _ _
  | header given =>
      show Silent (DocLine.headerKind given.kind)
      cases given.kind with
      | command => exact setKind_silent _
      | function => exact setKind_silent _
      | usage => exact Confined.pure ()

/-- Lines of code say nothing either. -/
theorem CodeLine.update_silent (line : CodeLine) : Silent line.update := by
  have hdefine (kind : Kind) (name : Value) : Silent (CodeLine.define kind name) :=
    (setKind_silent _).bind fun _ => setOwn_silent _ _
  cases line with
  | blank | endOfFile | unrecognized => exact Confined.pure ()
  | function name space parameters =>
      refine (hdefine _ _).bind fun _ => ?_
      cases space with
      | none => exact (setOwn_silent _ _).bind fun _ => setOwn_silent _ _
      | some space =>
          exact (setOwn_silent _ _).bind fun _ => (setOwn_silent _ _).bind fun _ =>
            setOwn_silent _ _
  | command name flags => exact (hdefine _ _).bind fun _ => setOwn_silent _ _
  | setting name => exact hdefine _ _
  | flag name initial => exact hdefine _ _

namespace Entry

variable {e t : Entry} {mode : Mode} {required optional : List String} {lines : List DocLine}

theorem Notes.state {act : Act Entry Unit} (h : e.Notes act mode required optional) :
    (act e).state.Noted mode required optional := by
  obtain ⟨a, ha⟩ := h.exists_ok
  unfold Notes Ensures at h
  rwa [ha] at h

theorem Noted.of_said {u : Entry} (h : e.Noted mode required optional) (hsame : u.said = e.said) :
    u.Noted mode required optional where
  mode := (congrArg (fun said => Passages.mode said.1) hsame).trans h.mode
  required := (congrArg (fun said => said.2.1) hsame).trans h.required
  optional := (congrArg (fun said => said.2.2) hsame).trans h.optional

/-- What an entry notes of a text comes after what it has noted before. -/
theorem Noted.noting (h : e.Noted mode (firstMentions required) (firstMentions optional))
    (text : String) :
    (e.noting text).required
        = firstMentions (required ++ Pattern.requiredArgument.findTexts text)
      ∧ (e.noting text).optional
        = firstMentions (optional ++ Pattern.optionalArgument.findTexts text) := by
  rw [Entry.noting, h.required, h.optional, firstMentions_append, firstMentions_append]
  exact ⟨rfl, rfl⟩

/-- A line of text: what is heard of it is noted. -/
theorem addLine_noted (h : e.Noted mode (firstMentions required) (firstMentions optional))
    (line : String) :
    (addLine line e).state.Noted (mode.after (.text line))
      (firstMentions (required ++ mode.requiredIn (.text line)))
      (firstMentions (optional ++ mode.optionalIn (.text line))) := by
  have hadded := (addLine_notes e line).state
  rw [h.mode] at hadded
  cases hheard : mode.heard line with
  | none =>
      rw [hheard] at hadded
      simpa [Mode.after, Mode.requiredIn, Mode.optionalIn, Mode.spoken, hheard, hearing,
        h.required, h.optional] using hadded
  | some text =>
      obtain ⟨hrequired, hoptional⟩ := h.noting text
      rw [hheard] at hadded
      simpa [Mode.after, Mode.requiredIn, Mode.optionalIn, Mode.spoken, hheard, hearing,
        hrequired, hoptional] using hadded

/-- The step: what a line leaves behind. -/
theorem update_noted (line : DocLine)
    (h : e.Noted mode (firstMentions required) (firstMentions optional)) :
    (line.update e).state.Noted (mode.after line)
      (firstMentions (required ++ mode.requiredIn line))
      (firstMentions (optional ++ mode.optionalIn line)) := by
  cases hspeaks : line.speaks with
  | false =>
      have hquiet : mode.after line = mode ∧ mode.requiredIn line = [] ∧ mode.optionalIn line = [] := by
        cases line with
        | text | default | throws | subSection => cases hspeaks
        | _ => exact ⟨rfl, rfl, rfl⟩
      obtain ⟨hmode, hrequired, hoptional⟩ := hquiet
      rw [hmode, hrequired, hoptional, List.append_nil, List.append_nil]
      exact h.of_said ((DocLine.update_silent hspeaks).view_eq e)
  | true =>
      cases line with
      | text line => exact addLine_noted h line
      | default argument value =>
          obtain ⟨hrequired, hoptional⟩ := h.noting value
          refine ⟨Passages.mode_begin_closed _ rfl, ?_, ?_⟩
          · rw [Mode.requiredIn, Mode.spoken, List.flatMap_singleton]
            exact hrequired
          · rw [Mode.optionalIn, Mode.spoken, List.flatMap_singleton, ← List.append_assoc,
              firstMentions_concat, ← hoptional]
            rfl
      | throws error description =>
          obtain ⟨hrequired, hoptional⟩ := h.noting (description.getD "")
          refine ⟨Passages.mode_begin_closed _ rfl, ?_, ?_⟩
          · rw [Mode.requiredIn, Mode.spoken, List.flatMap_singleton]
            exact hrequired
          · have hmentioned : mode.optionalIn (.throws error description)
                = Pattern.optionalArgument.findTexts (description.getD "") := by
              simp [Mode.optionalIn, Mode.spoken]
            rw [hmentioned]
            exact hoptional
      | subSection title =>
          refine ⟨Passages.mode_begin_closed _ rfl, ?_, ?_⟩
          · exact h.required.trans (congrArg firstMentions (List.append_nil _).symm)
          · exact h.optional.trans (congrArg firstMentions (List.append_nil _).symm)
      | _ => cases hspeaks

/-- An entry has been told lines of documentation, and apart from that only what is no text. -/
inductive Told : Entry → List DocLine → Entry → Prop
  | done (e : Entry) : Told e [] e
  | line {e t : Entry} {line : DocLine} {lines : List DocLine} :
    Told (line.update e).state lines t → Told e (line :: lines) t
  | other {e u t : Entry} {lines : List DocLine} : u.said = e.said → Told u lines t → Told e lines t

/-- The run: what an entry has noted is what the lines mention. -/
theorem Told.noted (h : Told e lines t) :
    ∀ {mode : Mode} {required optional : List String},
      e.Noted mode (firstMentions required) (firstMentions optional) →
      t.Noted (lines.foldl Mode.after mode)
        (firstMentions (required ++ mentions Mode.requiredIn mode lines))
        (firstMentions (optional ++ mentions Mode.optionalIn mode lines)) := by
  induction h with
  | done e =>
      intro mode required optional hnoted
      rw [mentions, mentions, List.append_nil, List.append_nil]
      exact hnoted
  | line _ ih =>
      intro mode required optional hnoted
      rw [mentions, mentions, ← List.append_assoc, ← List.append_assoc]
      exact ih (update_noted _ hnoted)
  | other hsame _ ih => exact fun hnoted => ih (hnoted.of_said hsame)

end Entry

end PluginHelp
