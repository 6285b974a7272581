/-
How the lines of a file join to logical lines.

A line whose first sign is a backslash goes on with what stands before it, and every other line
starts a logical line.  A logical line has the number of the line that it starts with, and its text
is that line together with what the lines after it add, as far as they go on.

A line cannot go on where nothing stands before it, nor with a comment.  What counts is the text as
it is joined so far: an empty line is no comment, and it is one as soon as a line adds a comment
sign to it.

While the lines are read, one logical line is held back until the next one starts.  `Held` says which
one that is, in terms of the lines that have been read; the rest of the argument is what one more
line does to it.
-/
import PluginHelp.Proofs.Pattern.Anchored
import PluginHelp.Source.Logical

namespace PluginHelp.Source

open PluginHelp.Text

/-! ### The first sign of a line -/

/-- The first character of a text that is not a blank. -/
def firstSign (text : String) : Option Char :=
  (text.toList.dropWhile isBlank).head?

theorem isContinuation_iff (text : String) :
    isContinuation text = true ↔ firstSign text = some '\\' := by
  constructor
  · intro h
    obtain ⟨_, back, hline, gap, rfl, hgap⟩ := (Pattern.spells_sign '\\').of_fits h
    rw [firstSign, hline, List.append_assoc, List.singleton_append,
      Pattern.dropWhile_sign hgap rfl, List.head?_cons]
  · intro h
    obtain ⟨gap, rest, hline, hgap, hc⟩ := Pattern.exists_indent h
    have htakes := Pattern.takes_sign hgap hc rest
    rw [← hline] at htakes
    exact htakes.fits

theorem isComment_iff (text : String) : isComment text = true ↔ firstSign text = some '"' := by
  constructor
  · intro h
    obtain ⟨_, back, hline, _, tail, rfl, ⟨gap, rfl, hgap⟩, -⟩ :=
      ((Pattern.spells_sign '"').seq (Pattern.spells_any _)).of_fits h
    rw [firstSign, hline, List.append_assoc, List.append_assoc, List.singleton_append,
      Pattern.dropWhile_sign hgap rfl, List.head?_cons]
  · intro h
    obtain ⟨gap, rest, hline, hgap, hc⟩ := Pattern.exists_indent h
    have htakes := Pattern.takes_sign hgap hc rest
    rw [← hline] at htakes
    obtain ⟨t, ht⟩ := Pattern.exists_takes_optional_char ' ' ⟨'"' :: gap.reverse, rest, []⟩
    exact (htakes.seq ht).fits

/-- A line that goes on is not a comment itself. -/
theorem not_isComment_of_isContinuation {text : String} (h : isContinuation text = true) :
    isComment text = false := by
  rw [Bool.eq_false_iff, Ne, isComment_iff, (isContinuation_iff text).mp h]
  decide

/-- Without its mark, a continued line is what stands after its first sign. -/
theorem continuedText_eq {text : String} (h : isContinuation text = true) :
    continuedText text = String.ofList (text.toList.dropWhile isBlank).tail := by
  obtain ⟨gap, rest, hline, hgap, hc⟩ := Pattern.exists_indent ((isContinuation_iff text).mp h)
  have htakes := Pattern.takes_sign hgap hc rest
  have hmoves : Pattern.Moves Pattern.continuation :=
    (Pattern.spells_sign '\\').moves (by rintro _ ⟨gap, rfl, -⟩; simp)
  rw [← hline] at htakes
  rw [hline, Pattern.dropWhile_sign hgap hc, List.tail_cons]
  exact (Pattern.anchored_sign '\\').replace_of_takes hmoves htakes

/-! ### Logical lines -/

/-- Whether a line goes on with what stands before it. -/
def goesOn (line : String) : Bool :=
  firstSign (withoutLineEnds line) == some '\\'

/-- What a line that goes on adds: all that stands after its first sign. -/
def addition (line : String) : String :=
  String.ofList ((withoutLineEnds line).toList.dropWhile isBlank).tail

/-- A line with what the lines after it add. -/
def joinedWith (line : String) (more : List String) : String :=
  withoutLineEnds line ++ String.join (more.map addition)

/-- The numbers of the lines that do not go on. -/
def starts (lines : List String) : List Nat :=
  (List.range lines.length).filter fun n => !(lines[n]?.any goesOn)

/-- The text of the logical line that starts with the given line. -/
def textAt (lines : List String) (n : Nat) : String :=
  joinedWith (lines[n]?.getD "") ((lines.drop (n + 1)).takeWhile goesOn)

/-- The numbers of the lines that start a logical line and come before another such line. -/
def followedStarts (lines : List String) : List Nat :=
  (starts lines).filter fun n => (starts lines).any (n < ·)

/-- A line goes on after lines that it cannot go on with. -/
def CannotGoOn (front : List String) (line : String) : Prop :=
  goesOn line = true ∧
    (front = [] ∨ ∃ n, (starts front).getLast? = some n ∧ firstSign (textAt front n) = some '"')

theorem isContinuation_eq (line : String) : isContinuation (withoutLineEnds line) = goesOn line := by
  rw [Bool.eq_iff_iff, isContinuation_iff, goesOn, beq_iff_eq]

theorem continuedText_of_goesOn {line : String} (h : goesOn line = true) :
    continuedText (withoutLineEnds line) = addition line :=
  continuedText_eq ((isContinuation_eq line).trans h)

theorem joinedWith_concat (line : String) (more : List String) (next : String) :
    joinedWith line (more ++ [next]) = joinedWith line more ++ addition next := by
  simp [joinedWith, String.append_assoc]

/-- The lines after some lines do not change which of them start something. -/
theorem filter_starts_append (front back : List String) :
    (List.range front.length).filter (fun n => !((front ++ back)[n]?.any goesOn))
      = starts front := by
  refine List.filter_congr fun n hn => ?_
  rw [List.getElem?_append_left (List.mem_range.mp hn)]

theorem starts_concat (front : List String) (line : String) :
    starts (front ++ [line])
      = if goesOn line then starts front else starts front ++ [front.length] := by
  rw [starts, List.length_append, List.length_singleton, List.range_succ, List.filter_append,
    filter_starts_append]
  cases h : goesOn line <;> simp [h]

/-- Lines that go on start nothing. -/
theorem starts_append {front more : List String} (hmore : ∀ next ∈ more, goesOn next = true) :
    starts (front ++ more) = starts front := by
  induction more generalizing front with
  | nil => rw [List.append_nil]
  | cons line more ih =>
      obtain ⟨hline, hmore⟩ := List.forall_mem_cons.mp hmore
      rw [← List.singleton_append, ← List.append_assoc, ih hmore, starts_concat, if_pos hline]

/-- The last logical line starts with the last line that does not go on. -/
theorem starts_last {before more : List String} {first : String} (hfirst : goesOn first = false)
    (hmore : ∀ next ∈ more, goesOn next = true) :
    starts (before ++ first :: more) = starts before ++ [before.length] := by
  rw [← List.singleton_append, ← List.append_assoc, starts_append hmore, starts_concat, hfirst]
  rfl

theorem lt_of_mem_starts {lines : List String} {n : Nat} (h : n ∈ starts lines) :
    n < lines.length :=
  List.mem_range.mp (List.mem_filter.mp h).1

theorem followedStarts_last {before more : List String} {first : String}
    (hfirst : goesOn first = false) (hmore : ∀ next ∈ more, goesOn next = true) :
    followedStarts (before ++ first :: more) = starts before := by
  rw [followedStarts, starts_last hfirst hmore, List.filter_append]
  have hlast : [before.length].filter (fun n => (starts before ++ [before.length]).any (n < ·))
      = [] := by
    refine List.filter_cons_of_neg ?_
    simp only [List.any_append, List.any_cons, Nat.lt_irrefl, decide_false, List.any_nil,
      Bool.or_false, List.any_eq_true, decide_eq_true_eq, not_exists, not_and, Nat.not_lt]
    exact fun n hn => Nat.le_of_lt (lt_of_mem_starts hn)
  have hearlier : (starts before).filter
      (fun n => (starts before ++ [before.length]).any (n < ·)) = starts before := by
    refine List.filter_eq_self.mpr fun n hn => ?_
    simp [lt_of_mem_starts hn]
  rw [hlast, hearlier, List.append_nil]

/-- A logical line ends where the next one starts. -/
theorem textAt_eq {before more rest : List String} {first : String}
    (hmore : ∀ next ∈ more, goesOn next = true)
    (hrest : ∀ next, rest.head? = some next → goesOn next = false) :
    textAt (before ++ first :: (more ++ rest)) before.length = joinedWith first more := by
  have hstop : rest.takeWhile goesOn = [] := by
    cases rest with
    | nil => rfl
    | cons next rest => exact List.takeWhile_cons_of_neg (by simp [hrest next rfl])
  have hdrop : (before ++ first :: (more ++ rest)).drop (before.length + 1) = more ++ rest := by
    rw [List.drop_append, List.drop_eq_nil_of_le (Nat.le_succ _), Nat.add_sub_cancel_left]
    rfl
  rw [textAt, List.getElem?_append_right (Nat.le_refl _), Nat.sub_self, List.getElem?_cons_zero,
    Option.getD_some, hdrop, List.takeWhile_append_of_pos hmore, hstop, List.append_nil]

/-! ### Reading line by line -/

/-- The logical line that is held back when some lines have been read. -/
def Held (front : List String) : Option (Nat × String) → Prop
  | none => front = []
  | some (n, text) => ∃ before first more, front = before ++ first :: more ∧ before.length = n
      ∧ goesOn first = false ∧ (∀ next ∈ more, goesOn next = true) ∧ joinedWith first more = text

/-- A logical line of a file, with its number. -/
def entryAt (lines : List String) (n : Nat) : Nat × String :=
  (n, textAt lines n)

/-- What is handed on while some lines are read, out of all lines. -/
def handedOn (lines front : List String) : List (Nat × String) :=
  (followedStarts front).map (entryAt lines)

namespace Held

variable {lines front rest : List String} {line text : String} {n : Nat}
  {pending : Option (Nat × String)}

/-- What is held back is the last logical line as joined so far. -/
theorem last (h : Held front (some (n, text))) :
    (starts front).getLast? = some n ∧ textAt front n = text := by
  obtain ⟨before, first, more, rfl, rfl, hfirst, hmore, rfl⟩ := h
  refine ⟨by rw [starts_last hfirst hmore, List.getLast?_concat], ?_⟩
  have htext : textAt (before ++ first :: (more ++ [])) before.length = joinedWith first more :=
    textAt_eq hmore (by simp)
  rwa [List.append_nil] at htext

theorem ne_nil (h : Held front (some (n, text))) : front ≠ [] := by
  obtain ⟨before, first, more, rfl, -⟩ := h
  simp

theorem cannotGoOn_iff (h : Held front (some (n, text))) (hline : goesOn line = true) :
    CannotGoOn front line ↔ firstSign text = some '"' := by
  simp [CannotGoOn, hline, h.ne_nil, h.last]

/-- A line that goes on joins what is held back. -/
theorem goOn (h : Held front (some (n, text))) (hline : goesOn line = true) :
    Held (front ++ [line]) (some (n, text ++ addition line)) := by
  obtain ⟨before, first, more, rfl, hn, hfirst, hmore, rfl⟩ := h
  refine ⟨before, first, more ++ [line], by simp, hn, hfirst, ?_, joinedWith_concat first more line⟩
  intro next hnext
  rcases List.mem_append.mp hnext with hnext | hnext
  · exact hmore next hnext
  · obtain rfl := List.mem_singleton.mp hnext
    exact hline

theorem start (front : List String) (hline : goesOn line = false) :
    Held (front ++ [line]) (some (front.length, withoutLineEnds line)) :=
  ⟨front, line, [], rfl, rfl, hline, by simp, by simp [joinedWith]⟩

/-- What is held back is handed on when the lines end or the next one does not go on. -/
theorem handedOn_append (h : Held front pending) (hlines : lines = front ++ rest)
    (hrest : ∀ next, rest.head? = some next → goesOn next = false) :
    handedOn lines front ++ pending.toList = (starts front).map (entryAt lines) := by
  cases pending with
  | none =>
      obtain rfl : front = [] := h
      rfl
  | some held =>
      obtain ⟨n, text⟩ := held
      obtain ⟨before, first, more, rfl, hn, hfirst, hmore, htext⟩ := h
      have hheld : entryAt lines before.length = (n, text) := by
        rw [entryAt, hlines, List.append_assoc, List.cons_append, textAt_eq hmore hrest, hn, htext]
      rw [handedOn, followedStarts_last hfirst hmore, starts_last hfirst hmore, List.map_append,
        List.map_singleton, hheld]
      rfl

end Held

/-- Up to a line, every line that goes on can do so. -/
def GoesWell (lines : List String) (number : Nat) : Prop :=
  ∀ front line back, lines = front ++ line :: back → front.length < number → ¬CannotGoOn front line

/-- One more line can go on, or does not. -/
theorem GoesWell.step {front rest : List String} {line : String}
    (h : GoesWell (front ++ line :: rest) front.length) (hline : ¬CannotGoOn front line) :
    GoesWell (front ++ line :: rest) (front.length + 1) := by
  intro front' line' back hlines hlt
  rcases Nat.lt_or_eq_of_le (Nat.le_of_lt_succ hlt) with hlt | heq
  · exact h front' line' back hlines hlt
  · obtain ⟨rfl, hrest⟩ := List.append_inj hlines heq.symm
    obtain ⟨rfl, -⟩ := List.cons.inj hrest
    exact hline

/-- Why a line cannot go on with those before it. -/
def obstacle (front : List String) : String :=
  if front.isEmpty then "No preceding line." else "No comment to continue."

/-- What becomes of the lines of a file. -/
inductive JoinedAs (lines : List String) : Stream (Nat × String) → Prop
  | whole (h : GoesWell lines lines.length) :
    JoinedAs lines ⟨(starts lines).map (entryAt lines), none⟩
  | stuck {front line back} (hlines : lines = front ++ line :: back)
    (h : GoesWell lines front.length) (hline : CannotGoOn front line) :
    JoinedAs lines ⟨handedOn lines front, some (cannotContinue (obstacle front) front.length)⟩

theorem joinFrom_start (pending : Option (Nat × String)) (number : Nat) {line : String}
    (rest : List String) (hline : goesOn line = false) :
    joinFrom pending number (line :: rest)
      = (joinFrom (some (number, withoutLineEnds line)) (number + 1) rest).after
          pending.toList := by
  cases pending <;> (rw [joinFrom, isContinuation_eq, hline]; rfl)

theorem joinFrom_first (number : Nat) {line : String} (rest : List String)
    (hline : goesOn line = true) :
    joinFrom none number (line :: rest)
      = .failed (cannotContinue "No preceding line." number) := by
  rw [joinFrom, isContinuation_eq, hline]
  rfl

/-- A line that goes on is no comment, so only what it goes on with matters. -/
theorem joinFrom_goesOn (n : Nat) (text : String) (number : Nat) {line : String}
    (rest : List String) (hline : goesOn line = true) :
    joinFrom (some (n, text)) number (line :: rest)
      = if firstSign text = some '"' then
          .failed (cannotContinue "No comment to continue." number)
        else
          joinFrom (some (n, text ++ addition line)) (number + 1) rest := by
  have hcontinues : isContinuation (withoutLineEnds line) = true :=
    (isContinuation_eq line).trans hline
  rw [joinFrom, if_pos hcontinues, not_isComment_of_isContinuation hcontinues,
    continuedText_of_goesOn hline, Bool.not_false, Bool.and_true]
  simp only [isComment_iff]

theorem after_after (first second : List (Nat × String)) (s : Stream (Nat × String)) :
    (s.after second).after first = s.after (first ++ second) := by
  rw [Stream.after, Stream.after, Stream.after, List.append_assoc]

/-- From any line on, joining ends as it has to. -/
theorem joinFrom_joinedAs (lines : List String) : ∀ (rest front : List String)
    (pending : Option (Nat × String)), lines = front ++ rest → Held front pending →
    GoesWell lines front.length →
    JoinedAs lines ((joinFrom pending front.length rest).after (handedOn lines front)) := by
  intro rest
  -- The induction is on the lines to come; `Held` and `GoesWell` carry what those before have done.
  induction rest with
  | nil =>
      intro front pending hlines hheld hwell
      have hall := hheld.handedOn_append hlines (by simp)
      obtain rfl : lines = front := by rw [hlines, List.append_nil]
      rw [joinFrom, Stream.after, hall]
      exact .whole hwell
  | cons line rest ih =>
      intro front pending hlines hheld hwell
      have hnext : lines = front ++ [line] ++ rest := by rw [hlines, List.append_assoc]; rfl
      have hnumber : (front ++ [line]).length = front.length + 1 := by simp
      have step (hline : ¬CannotGoOn front line) : GoesWell lines (front.length + 1) := by
        subst hlines
        exact hwell.step hline
      rw [← hnumber] at step
      cases hgoes : goesOn line with
      | false =>
          have hstart := ih (front ++ [line]) _ hnext (Held.start front hgoes)
            (step fun h => by simp [h.1] at hgoes)
          have hhanded : handedOn lines (front ++ [line])
              = handedOn lines front ++ pending.toList := by
            rw [hheld.handedOn_append hlines (by simpa using hgoes), handedOn,
              followedStarts_last hgoes (by simp)]
          rw [joinFrom_start _ _ _ hgoes, after_after, ← hhanded, ← hnumber]
          exact hstart
      | true =>
          cases pending with
          | none =>
              have hstuck : CannotGoOn front line := ⟨hgoes, .inl hheld⟩
              obtain rfl : front = [] := hheld
              rw [joinFrom_first _ _ hgoes, Stream.after, Stream.failed, List.append_nil]
              exact .stuck hlines hwell hstuck
          | some held =>
              obtain ⟨n, text⟩ := held
              rw [joinFrom_goesOn _ _ _ _ hgoes]
              split
              · rename_i hcomment
                have hwhy : obstacle front = "No comment to continue." := by
                  simp [obstacle, hheld.ne_nil]
                rw [Stream.after, Stream.failed, List.append_nil, ← hwhy]
                exact .stuck hlines hwell ((hheld.cannotGoOn_iff hgoes).mpr hcomment)
              · rename_i hcomment
                have hsame : handedOn lines (front ++ [line]) = handedOn lines front := by
                  rw [handedOn, handedOn, followedStarts, followedStarts, starts_concat, if_pos hgoes]
                rw [← hsame, ← hnumber]
                exact ih _ _ hnext (hheld.goOn hgoes)
                  (step (mt (hheld.cannotGoOn_iff hgoes).mp hcomment))

theorem logicalLines_joinedAs (lines : List String) : JoinedAs lines (logicalLines lines) :=
  joinFrom_joinedAs lines lines [] none rfl rfl (fun _ _ _ _ h => absurd h (Nat.not_lt_zero _))

/--
**Lines join to logical lines, each from a line that does not go on up to the next such line.**

Joining fails exactly if some line goes on that cannot.  If none does, there is one logical line for
each line that does not go on, in the order of the file.  Otherwise the first line that cannot go on
is where joining ends, and the logical lines before it are those that another one follows.
-/
theorem logicalLines_joined (lines : List String) :
    ((∃ fault, (logicalLines lines).fault = some fault)
      ↔ ∃ front line back, lines = front ++ line :: back ∧ CannotGoOn front line)
    ∧ ((logicalLines lines).fault = none →
        (logicalLines lines).items = (starts lines).map fun n => (n, textAt lines n))
    ∧ ∀ fault, (logicalLines lines).fault = some fault →
        ∃ front line back, lines = front ++ line :: back
          ∧ CannotGoOn front line
          ∧ (∀ front' line' back', lines = front' ++ line' :: back' →
              CannotGoOn front' line' → front.length ≤ front'.length)
          ∧ fault = cannotContinue (obstacle front) front.length
          ∧ (logicalLines lines).items
              = (followedStarts front).map fun n => (n, textAt lines n) := by
  have hjoined := logicalLines_joinedAs lines
  generalize logicalLines lines = joined at hjoined ⊢
  cases hjoined with
  | whole hwell =>
      refine ⟨⟨by simp, ?_⟩, fun _ => rfl, by simp⟩
      rintro ⟨front, line, back, hlines, hstuck⟩
      exact (hwell front line back hlines (by simp [hlines]) hstuck).elim
  | @stuck front line back hlines hwell hstuck =>
      refine ⟨⟨fun _ => ⟨front, line, back, hlines, hstuck⟩, fun _ => ⟨_, rfl⟩⟩, by simp, ?_⟩
      rintro fault ⟨⟩
      refine ⟨front, line, back, hlines, hstuck, ?_, rfl, rfl⟩
      intro front' line' back' hlines' hstuck'
      exact Nat.le_of_not_lt fun hlt => hwell front' line' back' hlines' hlt hstuck'

/-- A blank line that goes on as a comment is one from then on: the next line cannot go on, and of
the two logical lines before it only the first one is handed on. -/
theorem logicalLines_joined_blank :
    let lines := ["let x = [\n", "  \\ 1]\n", "\n", "\\\" note\n"]
    let longer := lines ++ ["  \\ more\n", "call F()\n"]
    (logicalLines lines).fault = none
    ∧ (logicalLines lines).items = (starts lines).map (fun n => (n, textAt lines n))
    ∧ (starts lines).map (fun n => (n, textAt lines n)) = [(0, "let x = [ 1]"), (2, "\" note")]
    ∧ (logicalLines longer).fault = some (cannotContinue "No comment to continue." 4)
    ∧ ∃ front line back, longer = front ++ line :: back ∧ CannotGoOn front line
      ∧ (logicalLines longer).items
          = (followedStarts front).map fun n => (n, textAt longer n) := by
  intro lines longer
  have hwhole : (logicalLines lines).fault = none := by decide +kernel
  have hbroken : (logicalLines longer).fault
      = some (cannotContinue "No comment to continue." 4) := by decide +kernel
  obtain ⟨front, line, back, hlines, hstuck, -, -, hitems⟩ :=
    (logicalLines_joined longer).2.2 _ hbroken
  exact ⟨hwhole, (logicalLines_joined lines).2.1 hwhole, by decide +kernel, hbroken,
    front, line, back, hlines, hstuck, hitems⟩

end PluginHelp.Source
