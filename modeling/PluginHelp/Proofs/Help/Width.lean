/-
What is written fits on the sheet.

Lines are filled up to their width and no further: chunks are taken while they fit, and of a chunk
that is too long for a line only so much is taken as there is room for.  So text whose indentation
leaves room is never refused, and whether a line of text can be written depends on its right part
alone.
-/
import PluginHelp.Help.Sheet
import PluginHelp.Proofs.Act

namespace PluginHelp.Help

open Act

/-! ### Filling -/

theorem takeFitting_width {width : Int} (chunks : List (List Char)) {used : Nat}
    (h : (used : Int) ≤ width) :
    (used + (takeFitting width used chunks).1.flatten.length : Int) ≤ width := by
  induction chunks generalizing used with
  | nil => simpa [takeFitting] using h
  | cons chunk rest ih =>
      unfold takeFitting
      split
      · rename_i hfits
        have hrest := @ih (used + chunk.length) (by omega)
        simp only [List.flatten_cons, List.length_append]
        omega
      · simpa using h

theorem cutPlace_le (atHyphens : Bool) (room : Nat) (chunk : List Char) :
    cutPlace atHyphens room chunk ≤ room := by
  unfold cutPlace
  split
  · dsimp only
    split
    · have hdrop := (List.dropWhile_sublist (l := (chunk.take room).reverse) (· != '-')).length_le
      rw [List.length_reverse, List.length_take] at hdrop
      rw [Text.dropEndWhile, List.length_reverse]
      omega
    · exact Nat.le_refl room
  · exact Nat.le_refl room

theorem fillUp_width (atHyphens : Bool) {width : Int} (hwidth : 1 ≤ width)
    {taken : List (List Char)} (left : List (List Char))
    (h : (taken.flatten.length : Int) ≤ width) :
    ((fillUp atHyphens width taken left).1.flatten.length : Int) ≤ width := by
  unfold fillUp
  split
  · exact h
  · rename_i chunk rest
    split
    · have hcut := cutPlace_le atHyphens (width - (taken.flatten.length : Int)).toNat chunk
      dsimp only
      rw [if_neg (by omega), List.flatten_append, List.flatten_singleton, List.length_append,
        List.length_take]
      omega
    · exact h

theorem dropBlankEnd_length (taken : List (List Char)) :
    (dropBlankEnd taken).flatten.length ≤ taken.flatten.length := by
  unfold dropBlankEnd
  split
  · split
    · rename_i chunk hlast _
      obtain ⟨before, rfl⟩ := List.getLast?_eq_some_iff.mp hlast
      simp
    · exact Nat.le_refl _
  · exact Nat.le_refl _

/-- What a line begins with leaves room for text. -/
structure Filling.LeavesRoom (f : Filling) : Prop where
  first : f.first.length < f.width
  later : f.later.length < f.width

theorem Filling.LeavesRoom.start {f : Filling} (h : f.LeavesRoom) (isFirst : Bool) :
    (if isFirst then f.first else f.later).length < f.width := by
  cases isFirst with
  | true => exact h.first
  | false => exact h.later

theorem fillLine_width {f : Filling} (h : f.LeavesRoom) (isFirst : Bool)
    (chunks : List (List Char)) :
    (if isFirst then f.first else f.later).length + (fillLine f isFirst chunks).1.flatten.length
      ≤ f.width := by
  have hstart := h.start isFirst
  unfold fillLine
  dsimp only
  generalize (if isFirst then f.first else f.later).length = start at hstart ⊢
  generalize (if isFirst then chunks else dropBlankStart chunks) = chunks
  have hroom : 1 ≤ (f.width - (start : Int)) := by omega
  generalize hwidth : (f.width - (start : Int)) = width at hroom ⊢
  have htaken := takeFitting_width chunks (show ((0 : Nat) : Int) ≤ width by omega)
  generalize takeFitting width 0 chunks = fitting at htaken ⊢
  have hfilled := fillUp_width f.atHyphens hroom fitting.2 (by simpa using htaken)
  have hend := dropBlankEnd_length (fillUp f.atHyphens width fitting.1 fitting.2).1
  omega

theorem fillFrom_width {f : Filling} (h : f.LeavesRoom) (bound : Nat) (isFirst : Bool)
    (chunks : List (List Char)) :
    ∀ line ∈ fillFrom f bound isFirst chunks, line.length ≤ f.width := by
  induction bound generalizing isFirst chunks with
  | zero => simp [fillFrom]
  | succ bound ih =>
      cases chunks with
      | nil => simp [fillFrom]
      | cons chunk rest =>
          have hline := fillLine_width h isFirst (chunk :: rest)
          unfold fillFrom
          dsimp only
          split
          · exact ih _ _
          · refine List.forall_mem_cons.mpr ⟨?_, ih _ _⟩
            simpa using hline

/-- No line of a text is wider than it may be. -/
theorem fill_width {f : Filling} (h : f.LeavesRoom) (text : String) :
    ∀ line ∈ fill f text, line.length ≤ f.width :=
  fillFrom_width h _ _ _

/-! ### Lines of text -/

/-- Text that is not indented leaves room, also if its later lines are. -/
theorem TextLine.leavesRoom {l : TextLine} (hindent : l.indent = 0)
    (hleader : l.leader.getD "" = "") : l.filling.LeavesRoom := by
  refine ⟨?_, ?_⟩
  · show (indentation l.indent ++ l.leader.getD "").length < sheetWidth
    rw [hindent, hleader]
    decide
  · show (indentation (if l.leader.isSome then l.indent + 1 else l.indent)).length < sheetWidth
    rw [hindent]
    split <;> decide

/-- Lines that fit are written one below the other. -/
theorem each_printLine {lines : List String} (h : ∀ line ∈ lines, line.length ≤ sheetWidth)
    {s : Sheet} (hthere : s.isThere = true) :
    Act.each lines printLine s
      = ⟨{ s with written := s.written ++ String.join (lines.map (· ++ "\n")) }, [], .ok ()⟩ := by
  induction lines generalizing s with
  | nil => simp [each_nil]
  | cons line rest ih =>
      obtain ⟨hline, hrest⟩ := List.forall_mem_cons.mp h
      have hprint : printLine line s
          = ⟨{ s with written := s.written ++ line ++ "\n" }, [], .ok ()⟩ := by
        unfold printLine print
        rw [assume_bind_of_true (by simpa using hline), get_bind_apply, if_pos hthere]
        rfl
      have hmore := @ih hrest { s with written := s.written ++ line ++ "\n" } hthere
      rw [each_cons, bind_apply_ok _ hprint, hmore]
      simp [String.append_assoc]

theorem length_repeated {filler : String} (h : filler.length = 1) (count : Nat) :
    (repeated filler count).length = count := by
  induction count with
  | zero => rfl
  | succ count ih =>
      unfold repeated at ih ⊢
      rw [List.replicate_succ, String.join_cons, String.length_append, h, ih]
      omega

/-- A right part stands at the end of the last line, which is as wide as the sheet. -/
theorem withRight_eq {l : TextLine} (h : l.right ≠ "") (hfiller : l.filler.length = 1)
    (hright : l.right.length ≤ sheetWidth) {lines : List String}
    (hlines : ∀ line ∈ lines, line.length ≤ sheetWidth) :
    ∃ before last, withRight l lines = before ++ [last ++ l.right]
      ∧ (∀ line ∈ before, line.length ≤ sheetWidth) ∧ (last ++ l.right).length = sheetWidth := by
  unfold withRight
  rw [if_neg (by simpa using h)]
  dsimp only
  split
  · refine ⟨_, _, rfl, hlines, ?_⟩
    rw [String.length_append, String.length_append, length_repeated hfiller]
    simp
    omega
  · rename_i hfits
    refine ⟨_, _, rfl, fun line hline => hlines line (List.dropLast_subset _ hline), ?_⟩
    rw [String.length_append, String.length_append, length_repeated hfiller]
    dsimp only
    omega

theorem atLeastOne_width {lines : List String} (h : ∀ line ∈ lines, line.length ≤ sheetWidth) :
    ∀ line ∈ atLeastOne lines, line.length ≤ sheetWidth := by
  unfold atLeastOne
  split
  · intro line hline
    rw [List.mem_singleton.mp hline]
    exact Nat.zero_le _
  · exact h

/-- Text with a right part that fits is written, and ends with that part. -/
theorem writeText_eq {l : TextLine} (hroom : l.filling.LeavesRoom) (h : l.right ≠ "")
    (hfiller : l.filler.length = 1) (hright : l.right.length ≤ sheetWidth) :
    ∃ text, ∀ s : Sheet, s.isThere = true →
      writeText l s = ⟨{ s with written := s.written ++ text ++ l.right ++ "\n" }, [], .ok ()⟩ := by
  obtain ⟨before, last, hlines, hbefore, hlast⟩ := withRight_eq h hfiller hright
    (atLeastOne_width (fill_width hroom l.text))
  refine ⟨String.join (before.map (· ++ "\n")) ++ last, fun s hthere => ?_⟩
  unfold writeText
  rw [assume_bind_of_true (by simpa using hright), hlines, each_printLine ?_ hthere]
  · simp [String.append_assoc]
  · intro line hline
    rcases List.mem_append.mp hline with hline | hline
    · exact hbefore line hline
    · rw [List.mem_singleton.mp hline]
      exact Nat.le_of_eq hlast

/-- Text with a right part that is wider than the sheet is refused. -/
theorem writeText_of_wide {l : TextLine} (h : sheetWidth < l.right.length) :
    writeText l = Act.fail (.assumption "The right part fits on the sheet.") := by
  unfold writeText
  dsimp only
  rw [assume_bind_of_false (by simpa using h)]

end PluginHelp.Help
