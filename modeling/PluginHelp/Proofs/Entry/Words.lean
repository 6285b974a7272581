/-
No word of the documentation is lost.

The words of a text are what stands between its blanks.  A line adds its words to those of the
passages, at the end and in order, except for the sign that tells what the line is: the leader of a
list item, the `>` that opens code and the `<` that ends it.  `said` reads off a line what is left of
it without that sign.

Adding a line takes a few small steps: a passage is closed, another one is begun, the text goes to
the last one.  None of them touches a passage before the last one, and only the last step adds words.
`Grows` says this of one step, and it can be put together.
-/
import PluginHelp.Proofs.Entry.Mentions
import PluginHelp.Proofs.Pattern.ListItem

namespace PluginHelp

/-! ### The words of a text -/

namespace Text

/-- The words of a text. -/
def words (text : List Char) : List (List Char) :=
  (text.splitOnP isBlank).filter fun word => !word.isEmpty

theorem words_nil : words [] = [] :=
  rfl

/-- A blank belongs to no word and keeps words apart. -/
theorem words_append_blank (front back : List Char) {c : Char} (hc : isBlank c = true) :
    words (front ++ c :: back) = words front ++ words back := by
  rw [words, List.splitOnP_append_cons front back hc, List.filter_append]
  rfl

theorem words_blanks_append {gap : List Char} (h : ∀ c ∈ gap, isBlank c = true)
    (text : List Char) : words (gap ++ text) = words text := by
  induction gap with
  | nil => rfl
  | cons c gap ih =>
      obtain ⟨hc, hgap⟩ := List.forall_mem_cons.mp h
      have hfirst := words_append_blank [] (gap ++ text) hc
      rw [words_nil, List.nil_append, List.nil_append, ih hgap] at hfirst
      exact hfirst

theorem words_of_blanks {gap : List Char} (h : ∀ c ∈ gap, isBlank c = true) : words gap = [] := by
  have := words_blanks_append h []
  rwa [List.append_nil] at this

theorem words_append_blanks {gap : List Char} (h : ∀ c ∈ gap, isBlank c = true)
    (text : List Char) : words (text ++ gap) = words text := by
  cases gap with
  | nil => rw [List.append_nil]
  | cons c gap =>
      obtain ⟨hc, hgap⟩ := List.forall_mem_cons.mp h
      rw [words_append_blank text gap hc, words_of_blanks hgap, List.append_nil]

theorem words_dropWhile (text : List Char) : words (text.dropWhile isBlank) = words text := by
  have hgap : ∀ c ∈ text.takeWhile isBlank, isBlank c = true :=
    List.all_eq_true.mp List.all_takeWhile
  rw [← words_blanks_append hgap, List.takeWhile_append_dropWhile]

theorem words_dropEndWhile (text : List Char) : words (dropEndWhile isBlank text) = words text := by
  have hsplit : text = dropEndWhile isBlank text ++ (text.reverse.takeWhile isBlank).reverse := by
    rw [dropEndWhile, ← List.reverse_append, List.takeWhile_append_dropWhile, List.reverse_reverse]
  have hblank : ∀ c ∈ (text.reverse.takeWhile isBlank).reverse, isBlank c = true := by
    intro c hc
    exact List.all_eq_true.mp List.all_takeWhile c (List.mem_reverse.mp hc)
  conv => rhs; rw [hsplit]
  exact (words_append_blanks hblank _).symm

theorem words_trimStart (text : String) : words (trimStart text).toList = words text.toList := by
  rw [trimStart, String.toList_ofList, words_dropWhile]

theorem words_trimEnd (text : String) : words (trimEnd text).toList = words text.toList := by
  rw [trimEnd, String.toList_ofList, words_dropEndWhile]

end Text

open PluginHelp.Text

/-! ### What a line says -/

/-- Whether a line begins with a space or a tab. -/
def indented (line : List Char) : Bool :=
  line.head? == some ' ' || line.head? == some '\t'

/-- Whether a line ends with a `>` that opens code. -/
def opensCode (line : List Char) : Bool :=
  line == ['>'] || [' ', '>'].isSuffixOf line

/-- A line outside of code, without the sign that tells what it is. -/
def unmarked (inItem : Bool) (line : List Char) : List Char :=
  match Pattern.itemText? line with
  | some text => text
  | none =>
    if inItem && indented line then line
    else if opensCode line then line.dropLast
    else line

/-- What a line says.  Code ends with a `<` or with a line that is not indented. -/
def Mode.said (mode : Mode) (line : List Char) : List Char :=
  if mode == .code then
    if line.head? == some '<' then unmarked false (line.tail.dropWhile isBlank)
    else if line == [] || indented line then line
    else unmarked false line
  else
    unmarked (mode == .item) line

theorem isIndented_eq (line : String) : Entry.isIndented line = indented line.toList := by
  unfold Entry.isIndented indented
  cases line.toList <;> simp

theorem beq_toList (text other : String) : (text == other) = (text.toList == other.toList) := by
  rw [Bool.eq_iff_iff, beq_iff_eq, beq_iff_eq, String.toList_inj]

theorem opensCode_eq (line : String) :
    (line == ">" || [' ', '>'].isSuffixOf line.toList) = opensCode line.toList := by
  rw [beq_toList]
  rfl

/-- A line of blanks says nothing. -/
theorem words_unmarked_of_blanks {inItem : Bool} {line : List Char}
    (h : ∀ c ∈ line, isBlank c = true) : words (unmarked inItem line) = [] := by
  have hnone : Pattern.itemText? line = none := by
    have hdrop : (line ++ []).dropWhile isBlank = [] := Pattern.dropWhile_indent h (by simp)
    rw [List.append_nil] at hdrop
    rw [Pattern.itemText?, hdrop]
    rfl
  rw [unmarked, hnone]
  dsimp only
  split
  · exact words_of_blanks h
  · split
    · exact words_of_blanks fun c hc => h c ((List.dropLast_prefix line).subset hc)
    · exact words_of_blanks h

/-! ### The words of passages -/

/-- The words of running text, of a list item or of code. -/
def Body.words : Body → List (List Char)
  | .prose text | .item _ _ text => Text.words text.toList
  | .code lines => lines.flatMap fun line => Text.words line.toList
  | _ => []

namespace Passages

variable {ps qs rs : Passages} {said more : List (List Char)}

/-- The words of passages, in order. -/
def words (ps : Passages) : List (List Char) :=
  ps.flatMap fun p => p.body.words

/-- Passages that become others, with no change before the last one and with more words at the
end. -/
structure Grows (ps qs : Passages) (said : List (List Char)) : Prop where
  kept : ps.dropLast <+: qs
  longer : ps.length ≤ qs.length
  words : qs.words = ps.words ++ said

theorem Grows.trans (h : Grows ps qs said) (k : Grows qs rs more) : Grows ps rs (said ++ more) where
  kept := by
    have hshort : ps.dropLast.length ≤ qs.dropLast.length := by
      rw [List.length_dropLast, List.length_dropLast]
      exact Nat.sub_le_sub_right h.longer 1
    exact (List.prefix_of_prefix_length_le h.kept (List.dropLast_prefix qs) hshort).trans k.kept
  longer := Nat.le_trans h.longer k.longer
  words := by rw [k.words, h.words, List.append_assoc]

theorem grows_refl (ps : Passages) : Grows ps ps [] :=
  ⟨List.dropLast_prefix ps, Nat.le_refl _, (List.append_nil _).symm⟩

/-- Only the last passage changes. -/
theorem grows_last {p q : Passage} (hlast : ps.getLast? = some p)
    (h : q.body.words = p.body.words ++ said) : Grows ps (ps.dropLast ++ [q]) said := by
  obtain ⟨front, rfl⟩ := List.getLast?_eq_some_iff.mp hlast
  rw [List.dropLast_concat]
  refine ⟨?_, by simp, by simp [words, h]⟩
  rw [List.dropLast_concat]
  exact List.prefix_append _ _

theorem grows_close (ps : Passages) : Grows ps ps.close [] := by
  unfold close
  split
  · exact grows_refl ps
  · rename_i p hlast
    exact grows_last hlast (List.append_nil _).symm

/-- A passage is begun without words. -/
theorem grows_begin (ps : Passages) {body : Body} (h : body.words = []) :
    Grows ps (ps.begin body) [] := by
  unfold begin
  split
  · exact grows_refl ps
  · refine ⟨(List.dropLast_prefix ps).trans (List.prefix_append _ _), by simp, ?_⟩
    simp [words, Passage.ofBody, h]

/-- What is begun is what grows. -/
theorem growing_begin_shape {body : Body} (h : body.shape.startsOpen = true) (ps : Passages) :
    (ps.begin body).growing body.shape = true := by
  unfold begin
  split
  · assumption
  · rw [growing_concat]
    refine Bool.and_eq_true_iff.mpr ⟨h, ?_⟩
    simp [Passage.ofBody, Shape.isA]

/-- A list item is running text too. -/
theorem growing_prose_of_item (h : ps.growing .item = true) : ps.growing .prose = true := by
  unfold growing at h ⊢
  split at h
  · cases h
  · rename_i p _
    obtain ⟨hopen, hisA⟩ := Bool.and_eq_true_iff.mp h
    refine Bool.and_eq_true_iff.mpr ⟨hopen, ?_⟩
    cases hshape : p.body.shape <;> simp_all [Shape.isA]

theorem words_joinLine (text line : String) :
    Text.words (Passage.joinLine text line).toList
      = Text.words text.toList ++ Text.words line.toList := by
  unfold Passage.joinLine
  split
  · rename_i hempty
    rw [beq_iff_eq.mp hempty]
    rfl
  · rw [String.toList_append, String.toList_append, List.append_assoc]
    exact words_append_blank _ _ (by rfl)

/-- Running text and code keep the words of a line. -/
theorem words_extend {body : Body} (h : body.shape.isA .prose = true ∨ body.shape.isA .code = true)
    (line : String) :
    (Passage.extend line body).words = body.words ++ Text.words line.toList := by
  cases body with
  | prose text => exact words_joinLine text line
  | item leader level text => exact words_joinLine text line
  | code lines => simp [Passage.extend, Body.words]
  | _ => simp [Body.shape, Shape.isA] at h

/-- A line that goes to running text or to code adds its words. -/
theorem grows_addLine {shape : Shape} (hshape : shape = .prose ∨ shape = .code)
    (h : ps.growing shape = true) (line : String) :
    ∃ qs, ps.addLine line = .ok qs ∧ Grows ps qs (Text.words line.toList) := by
  unfold growing at h
  split at h
  · cases h
  · rename_i p hlast
    obtain ⟨hopen, hisA⟩ := Bool.and_eq_true_iff.mp h
    have hbody : p.body.shape.isA .prose = true ∨ p.body.shape.isA .code = true := by
      rcases hshape with rfl | rfl
      · exact .inl hisA
      · exact .inr hisA
    exact ⟨_, addLine_eq_ok_iff.mpr ⟨p, hlast, hopen, rfl⟩,
      grows_last hlast (words_extend hbody line)⟩

end Passages

/-! ### Adding a line -/

namespace Entry

open Act

variable {e : Entry} {said : List (List Char)}

/-- A step that succeeds and adds words to the passages. -/
abbrev AddsWords (e : Entry) (act : Act Entry Unit) (said : List (List Char)) : Prop :=
  Ensures act e (fun _ t => e.passages.Grows t.passages said) (fun _ => False)

/-- Something is done when the passages have changed without a new word. -/
theorem addsWords_modify_bind {change : Entry → Entry} {next : Act Entry Unit}
    (h : e.passages.Grows (change e).passages []) (k : (change e).AddsWords next said) :
    e.AddsWords (Act.modify change >>= fun _ => next) said :=
  Ensures.modify_bind (k.mono fun _ _ ht => h.trans ht)

theorem extendPassage_addsWords {shape : Shape} (hshape : shape = .prose ∨ shape = .code)
    (h : e.passages.growing shape = true) (line : String) :
    e.AddsWords (extendPassage line) (words line.toList) := by
  obtain ⟨passages, hpassages, hgrows⟩ := Passages.grows_addLine hshape h line
  unfold extendPassage
  rw [AddsWords]
  refine Ensures.get_bind ?_
  rw [hpassages, ofExcept_ok_bind]
  exact Ensures.modify hgrows

theorem beginPassage_addsWords (e : Entry) {body : Body} (h : body.words = []) :
    e.AddsWords (beginPassage body) [] :=
  Ensures.modify (Passages.grows_begin _ h)

/-- Running text takes the words of a line, less the `>` that opens code. -/
theorem addProse_addsWords (line : String) (e : Entry) :
    e.AddsWords (addProse line)
      (words (if opensCode line.toList then line.toList.dropLast else line.toList)) := by
  unfold addProse
  refine addsWords_modify_bind (Passages.grows_begin _ rfl) ?_
  have hprose : (e.passages.begin (.prose "")).growing .prose = true :=
    Passages.growing_begin_shape rfl e.passages
  generalize hbegun : ({ e with passages := e.passages.begin (.prose "") } : Entry) = begun
  replace hprose : begun.passages.growing .prose = true := by rwa [← hbegun]
  rw [opensCode_eq]
  cases opensCode line.toList with
  | false => exact extendPassage_addsWords (.inl rfl) hprose line
  | true =>
      have hwords := words_trimEnd (String.ofList line.toList.dropLast)
      rw [String.toList_ofList] at hwords
      rw [if_pos rfl, if_pos rfl, ← hwords]
      generalize trimEnd (String.ofList line.toList.dropLast) = text
      dsimp only
      refine Ensures.ite (fun _ => ?_) fun hempty => ?_
      · refine Ensures.bind (extendPassage_addsWords (.inl rfl) hprose text) fun _ t ht => ?_
        refine (beginPassage_addsWords t rfl).mono fun _ u hu => ?_
        simpa using ht.trans hu
      · have hnone : text = "" := by simpa using hempty
        rw [hnone]
        exact beginPassage_addsWords begun rfl

/-- Outside of code, a line adds the words of what is left of it. -/
theorem addUncoded_addsWords (line : String) (e : Entry) :
    e.AddsWords (addUncoded line)
      (words (unmarked (e.passages.mode == .item) line.toList)) := by
  unfold addUncoded
  refine addsWords_modify_bind (Passages.grows_refl _) ?_
  rw [← Passages.growing_item]
  -- The arguments that are noted make no difference to the passages.
  generalize hnoted : ({ e with
    required := firstMentions (e.required ++ Pattern.requiredArgument.findTexts line)
    optional := firstMentions (e.optional ++ Pattern.optionalArgument.findTexts line) } : Entry)
      = noted
  rw [show e.passages = noted.passages by rw [← hnoted]]
  refine Ensures.ite (fun hblank => ?_) fun _ => ?_
  · rw [words_unmarked_of_blanks (List.all_eq_true.mp hblank)]
    exact beginPassage_addsWords noted rfl
  · cases hmatch : Pattern.listItem.match? line with
    | some found =>
        -- The last passage is closed first, so the item is a new one even after another item.
        have hitem : (noted.passages.close.begin (.item (found.group 1) 0 "")).growing .item
            = true := Passages.growing_begin_shape rfl _
        rw [unmarked, Pattern.itemText?_of_match? hmatch]
        dsimp only
        refine addsWords_modify_bind (Passages.grows_close _) ?_
        refine addsWords_modify_bind (Passages.grows_begin _ rfl) ?_
        exact extendPassage_addsWords (.inl rfl) (Passages.growing_prose_of_item hitem) _
    | none =>
        rw [unmarked, Pattern.itemText?_of_match?_none hmatch, ← isIndented_eq]
        refine Ensures.get_bind ?_
        dsimp only
        rw [Bool.and_comm]
        refine Ensures.ite (fun hjoins => ?_) fun hnot => ?_
        · obtain ⟨hitem, -⟩ := Bool.and_eq_true_iff.mp hjoins
          rw [if_pos hjoins, ← words_trimStart]
          exact extendPassage_addsWords (.inl rfl) (Passages.growing_prose_of_item hitem) _
        · rw [if_neg hnot]
          refine Ensures.ite (fun _ => ?_) fun _ => addProse_addsWords line noted
          exact addsWords_modify_bind (Passages.grows_close _) (addProse_addsWords line _)

/-- A line that ends a passage first goes on with nothing. -/
theorem closePassage_addUncoded_addsWords (e : Entry) (line : String) :
    e.AddsWords (closePassage >>= fun _ => addUncoded line)
      (words (unmarked false line.toList)) := by
  have hadds := addUncoded_addsWords line { e with passages := e.passages.close }
  rw [Passages.mode_close] at hadds
  exact addsWords_modify_bind (Passages.grows_close _) hadds

/-- A line adds the words of what it says. -/
theorem addLine_addsWords (line : String) (e : Entry) :
    e.AddsWords (addLine line) (words (e.passages.mode.said line.toList)) := by
  unfold addLine
  refine Ensures.get_bind ?_
  rw [Passages.growing_code, Mode.said]
  cases hcode : e.passages.mode == Mode.code with
  | false => exact addUncoded_addsWords line e
  | true =>
      rw [if_pos rfl, if_pos rfl]
      split
      · rename_i rest hline
        have htext : rest.dropWhile isBlank = (trimStart (String.ofList rest)).toList := by
          rw [trimStart, String.toList_ofList, String.toList_ofList]
        rw [hline, List.head?_cons, if_pos BEq.rfl, List.tail_cons, htext]
        generalize trimStart (String.ofList rest) = text
        dsimp only
        cases hempty : text != "" with
        | true => exact closePassage_addUncoded_addsWords e text
        | false =>
            obtain rfl : text = "" := by simpa using hempty
            exact addsWords_modify_bind (Passages.grows_close _) (Ensures.pure (Passages.grows_refl _))
      · rename_i hother
        have hhead : (line.toList.head? == some '<') = false := by
          rw [beq_eq_false_iff_ne]
          intro hhead
          obtain ⟨rest, hline⟩ := List.head?_eq_some_iff.mp hhead
          exact hother rest hline
        rw [hhead, if_neg Bool.false_ne_true, beq_toList, String.toList_empty, isIndented_eq]
        refine Ensures.ite (fun hkept => ?_) fun hends => ?_
        · rw [if_pos hkept]
          exact extendPassage_addsWords (.inr rfl) (by rw [Passages.growing_code, hcode]) line
        · rw [if_neg hends]
          exact closePassage_addUncoded_addsWords e line

/-- In code, an empty or indented line is kept as it is. -/
theorem addLine_verbatim {front : Passages} {lines : List String} {line : String}
    (hcode : e.passages = front ++ [⟨true, .code lines⟩])
    (hline : line = "" ∨ indented line.toList = true) :
    Ensures (addLine line) e
      (fun _ t => t.passages = front ++ [⟨true, .code (lines ++ [line])⟩]) (fun _ => False) := by
  have hgrowing : e.passages.growing .code = true := by
    rw [hcode, Passages.growing_concat]
    rfl
  have hadded : e.passages.addLine line = .ok (front ++ [⟨true, .code (lines ++ [line])⟩]) := by
    rw [hcode, Passages.addLine, List.getLast?_concat, List.dropLast_concat]
    rfl
  unfold addLine
  refine Ensures.get_bind ?_
  rw [if_pos hgrowing]
  split
  · rename_i rest hsign
    rcases hline with rfl | hline
    · cases hsign
    · rw [hsign] at hline
      cases hline
  · have hkept : (line == "" || isIndented line) = true := by
      rw [isIndented_eq]
      rcases hline with rfl | hline
      · rfl
      · rw [hline, Bool.or_true]
    rw [if_pos hkept]
    unfold extendPassage
    refine Ensures.get_bind ?_
    rw [hadded, ofExcept_ok_bind]
    exact Ensures.modify rfl

/--
**A line of documentation adds its words, less the sign that tells what it is.**

It is always taken.  No passage before the last one changes, and none is lost.  The words of running
text, list items and code are those that were there, followed by those that the line says; a line
that is kept in code is kept as it is.
-/
theorem addLine_conserves (e : Entry) (line : String) :
    (addLine line e).result = .ok ()
    ∧ e.passages.dropLast <+: (addLine line e).state.passages
    ∧ e.passages.length ≤ (addLine line e).state.passages.length
    ∧ (addLine line e).state.passages.words
        = e.passages.words ++ words (e.passages.mode.said line.toList)
    ∧ ∀ front lines, e.passages = front ++ [⟨true, .code lines⟩] →
        line = "" ∨ indented line.toList = true →
        (addLine line e).state.passages = front ++ [⟨true, .code (lines ++ [line])⟩] := by
  have hadds : e.AddsWords (addLine line) (words (e.passages.mode.said line.toList)) :=
    addLine_addsWords line e
  obtain ⟨⟨⟩, hresult⟩ := Ensures.exists_ok hadds
  have hrun : addLine line e = ⟨(addLine line e).state, (addLine line e).warnings, .ok ()⟩ := by
    rw [← hresult]
  have hgrows := Ensures.of_ok hadds hrun
  refine ⟨hresult, hgrows.kept, hgrows.longer, hgrows.words, ?_⟩
  intro front lines hcode hline
  exact (addLine_verbatim hcode hline).of_ok hrun

/-- In code, a `>` at the end of a line is a word like any other. -/
theorem addLine_conserves_code :
    let e := (addLine "1. See: >" {}).state
    let t := (addLine "For example: >" e).state
    t.passages = [⟨false, .item "1." 0 "See: >"⟩, ⟨true, .prose "For example:"⟩]
        ++ [⟨true, .code []⟩]
    ∧ (addLine "\tx >" t).state.passages.words = t.passages.words ++ [['x'], ['>']]
    ∧ (addLine "\tx >" t).state.passages
        = [⟨false, .item "1." 0 "See: >"⟩, ⟨true, .prose "For example:"⟩]
          ++ [⟨true, .code ["\tx >"]⟩] := by
  intro e t
  obtain ⟨hcode, hsaid⟩ : t.passages = [⟨false, .item "1." 0 "See: >"⟩,
      ⟨true, .prose "For example:"⟩] ++ [⟨true, .code []⟩]
      ∧ words (t.passages.mode.said "\tx >".toList) = [['x'], ['>']] := by decide +kernel
  obtain ⟨-, -, -, hwords, hkept⟩ := addLine_conserves t "\tx >"
  rw [hsaid] at hwords
  exact ⟨hcode, hwords, hkept _ _ hcode (.inr (by decide))⟩

/-- The blanks after a `<` are dropped before the rest of the line is looked at.  So a `>` opens code
there after a tab too, where it would be a word in a line of its own. -/
theorem addLine_drops_sign_after_tab :
    let e := (addLine ">" {}).state
    e.passages.mode = .code
    ∧ (addLine "<\t>" e).state.passages.words = e.passages.words
    ∧ words (unmarked false "\t>".toList) = [['>']] := by decide +kernel

end Entry

end PluginHelp
