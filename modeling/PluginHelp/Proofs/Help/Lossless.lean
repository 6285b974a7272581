/-
Filling lines loses nothing but blanks.

Spaces are widened, turned into plain ones, and left out at the ends of lines; of everything else each
character is put on exactly one line, in the order of the text.  So it is enough to look at the
characters that are not blanks, the ink of a text: one line takes some of the ink that was left, and
what it does not take is left for the next one.

A line also takes at least one character, since the indentation leaves room for one.  That is why
the number of characters bounds the number of lines, and the bound never cuts a text short.
-/
import PluginHelp.Proofs.Help.Width
import PluginHelp.Proofs.Pattern.Pieces

namespace PluginHelp.Help

open Act PluginHelp.Text

/-! ### Ink -/

/-- The characters of a text that are not blanks. -/
def inked (s : List Char) : List Char :=
  s.filter (!isBlank ·)

@[simp] theorem inked_append (s t : List Char) : inked (s ++ t) = inked s ++ inked t :=
  List.filter_append s t

theorem inked_cons (c : Char) (s : List Char) : inked (c :: s) = inked [c] ++ inked s :=
  inked_append [c] s

theorem inked_of_all_blank {s : List Char} (h : ∀ c ∈ s, isBlank c = true) : inked s = [] := by
  refine List.filter_eq_nil_iff.mpr fun c hc => ?_
  simp [h c hc]

theorem inked_of_isBlankChunk {chunk : List Char} (h : isBlankChunk chunk = true) :
    inked chunk = [] :=
  inked_of_all_blank (List.all_eq_true.mp h)

theorem isBlank_of_isGap {c : Char} (h : isGap c = true) : isBlank c = true := by
  unfold isGap at h
  unfold isBlank
  rcases Bool.or_eq_true_iff.mp h with hspace | hline
  · obtain rfl : c = ' ' := by simpa using hspace
    rfl
  · simp only [Bool.and_eq_true, decide_eq_true_eq] at hline
    simp [hline.1, hline.2]

/-- A tab becomes spaces, and no other character is touched. -/
theorem inked_widenTabs (s : List Char) : ∀ column, inked (widenTabs column s) = inked s := by
  induction s with
  | nil => exact fun _ => rfl
  | cons c rest ih =>
      intro column
      rw [widenTabs]
      split
      · rename_i htab
        obtain rfl : c = '\t' := by simpa using htab
        rw [inked_append, ih, inked_of_all_blank]
        · rfl
        · intro d hd
          rw [List.eq_of_mem_replicate hd]
          rfl
      · split
        · rw [inked_cons, ih, ← inked_cons]
        · rw [inked_cons, ih, ← inked_cons]

/-- Making all spaces plain touches no ink. -/
theorem inked_plainSpaces (s : List Char) : inked (plainSpaces s) = inked s := by
  rw [plainSpaces, ← inked_widenTabs s 0]
  induction widenTabs 0 s with
  | nil => rfl
  | cons c rest ih =>
      rw [List.map_cons, inked_cons, ih, inked_cons c]
      by_cases hgap : isGap c = true
      · rw [if_pos hgap, inked_of_all_blank (s := [c])]
        · rfl
        · simpa using isBlank_of_isGap hgap
      · rw [if_neg hgap]

/-! ### Chunks -/

theorem flatten_runsOf (p : Char → Bool) (s : List Char) : (runsOf p s).flatten = s := by
  induction s with
  | nil => rfl
  | cons c rest ih =>
      rw [runsOf]
      split
      · rename_i d run runs hruns
        rw [hruns] at ih
        split
        · simpa using ih
        · simpa using ih
      · simpa using ih

theorem ne_nil_of_mem_runsOf {p : Char → Bool} {s chunk : List Char}
    (h : chunk ∈ runsOf p s) : chunk ≠ [] := by
  induction s generalizing chunk with
  | nil => cases h
  | cons c rest ih =>
      rw [runsOf] at h
      split at h
      · rename_i d run runs hruns
        rw [hruns] at ih
        split at h
        · rcases List.mem_cons.mp h with rfl | h
          · simp
          · exact ih (List.mem_cons_of_mem _ h)
        · rcases List.mem_cons.mp h with rfl | h
          · simp
          · exact ih h
      · rcases List.mem_cons.mp h with rfl | h
        · simp
        · exact ih h

theorem flatten_filter_nonempty (chunks : List (List Char)) :
    (chunks.filter (!·.isEmpty)).flatten = chunks.flatten := by
  induction chunks with
  | nil => rfl
  | cons chunk rest ih => cases chunk <;> simp [ih]

theorem hyphenChunks_eq (s : String) :
    hyphenChunks s = ((breakable.pieces (String.ofList (plainSpaces s.toList))).map
      (·.covered.toList)).filter (!·.isEmpty) := by
  unfold hyphenChunks
  congr 2
  funext piece
  cases piece <;> rfl

/-- The chunks that a text is cut into. -/
def Filling.chunks (f : Filling) (s : String) : List (List Char) :=
  if f.atHyphens then hyphenChunks s else wordChunks s

/-- The chunks of a text make up the text with plain spaces. -/
theorem Filling.flatten_chunks (f : Filling) (s : String) :
    (f.chunks s).flatten = plainSpaces s.toList := by
  unfold Filling.chunks
  split
  · rw [hyphenChunks_eq, flatten_filter_nonempty, Pattern.covered_pieces, String.toList_ofList]
  · exact flatten_runsOf _ _

/-- No chunk is empty. -/
theorem Filling.chunks_ne_nil (f : Filling) (s : String) : ∀ chunk ∈ f.chunks s, chunk ≠ [] := by
  intro chunk hchunk
  unfold Filling.chunks at hchunk
  split at hchunk
  · rw [hyphenChunks_eq] at hchunk
    simpa using (List.mem_filter.mp hchunk).2
  · exact ne_nil_of_mem_runsOf hchunk

/-! ### One line -/

theorem takeFitting_append (width : Int) (chunks : List (List Char)) (used : Nat) :
    (takeFitting width used chunks).1 ++ (takeFitting width used chunks).2 = chunks := by
  induction chunks generalizing used with
  | nil => rfl
  | cons chunk rest ih =>
      unfold takeFitting
      split
      · simp [ih]
      · rfl

theorem fillUp_append (atHyphens : Bool) (width : Int) (taken left : List (List Char)) :
    (fillUp atHyphens width taken left).1.flatten ++ (fillUp atHyphens width taken left).2.flatten
      = taken.flatten ++ left.flatten := by
  unfold fillUp
  split
  · rfl
  · split
    · rw [List.flatten_append, List.flatten_singleton, List.flatten_cons, List.flatten_cons,
        List.append_assoc, ← List.append_assoc (List.take _ _), List.take_append_drop]
    · rfl

theorem inked_dropBlankEnd (taken : List (List Char)) :
    inked (dropBlankEnd taken).flatten = inked taken.flatten := by
  unfold dropBlankEnd
  split
  · rename_i chunk hlast
    split
    · rename_i hblank
      obtain ⟨before, rfl⟩ := List.getLast?_eq_some_iff.mp hlast
      simp [inked_of_isBlankChunk hblank]
    · rfl
  · rfl

theorem inked_dropBlankStart (chunks : List (List Char)) :
    inked (dropBlankStart chunks).flatten = inked chunks.flatten := by
  unfold dropBlankStart
  split
  · split
    · rename_i hblank
      simp [inked_of_isBlankChunk hblank]
    · rfl
  · rfl

/-- The chunks that one line is filled from. -/
def lineChunks (isFirst : Bool) (chunks : List (List Char)) : List (List Char) :=
  if isFirst then chunks else dropBlankStart chunks

theorem lineChunks_suffix (isFirst : Bool) (chunks : List (List Char)) :
    lineChunks isFirst chunks <:+ chunks := by
  unfold lineChunks dropBlankStart
  split
  · exact List.suffix_rfl
  · split
    · split
      · exact List.suffix_cons _ _
      · exact List.suffix_rfl
    · exact List.suffix_rfl

/-- The room that a line has for chunks. -/
def Filling.room (f : Filling) (isFirst : Bool) : Int :=
  f.width - ((if isFirst then f.first else f.later).length : Int)

/-- What a line takes before a blank at its end is left out, and what it leaves. -/
def fillChunks (f : Filling) (isFirst : Bool) (chunks : List (List Char)) :
    List (List Char) × List (List Char) :=
  fillUp f.atHyphens (f.room isFirst) (takeFitting (f.room isFirst) 0 chunks).1
    (takeFitting (f.room isFirst) 0 chunks).2

theorem fillLine_eq (f : Filling) (isFirst : Bool) (chunks : List (List Char)) :
    fillLine f isFirst chunks
      = (dropBlankEnd (fillChunks f isFirst (lineChunks isFirst chunks)).1,
        (fillChunks f isFirst (lineChunks isFirst chunks)).2) :=
  rfl

theorem fillChunks_append (f : Filling) (isFirst : Bool) (chunks : List (List Char)) :
    (fillChunks f isFirst chunks).1.flatten ++ (fillChunks f isFirst chunks).2.flatten
      = chunks.flatten := by
  unfold fillChunks
  rw [fillUp_append, ← List.flatten_append, takeFitting_append]

/-- A line takes some of the ink and leaves the rest of it. -/
theorem inked_fillLine (f : Filling) (isFirst : Bool) (chunks : List (List Char)) :
    inked (fillLine f isFirst chunks).1.flatten ++ inked (fillLine f isFirst chunks).2.flatten
      = inked chunks.flatten := by
  have hstart : inked (lineChunks isFirst chunks).flatten = inked chunks.flatten := by
    unfold lineChunks
    split
    · rfl
    · exact inked_dropBlankStart chunks
  rw [fillLine_eq]
  dsimp only
  rw [inked_dropBlankEnd, ← inked_append, fillChunks_append, hstart]

/-! ### Every line takes something -/

theorem one_le_cutPlace (atHyphens : Bool) {room : Nat} (h : 1 ≤ room) (chunk : List Char) :
    1 ≤ cutPlace atHyphens room chunk := by
  unfold cutPlace
  split
  · dsimp only
    split
    · rename_i hany
      cases hcut : dropEndWhile (· != '-') (chunk.take room) with
      | nil =>
          rw [hcut] at hany
          cases hany
      | cons c rest => simp
    · exact h
  · exact h

/-- Of some chunks that are not empty, a line takes a character at least. -/
theorem one_le_fillChunks {f : Filling} (h : f.LeavesRoom) (isFirst : Bool) {chunk : List Char}
    (hchunk : chunk ≠ []) (rest : List (List Char)) :
    1 ≤ (fillChunks f isFirst (chunk :: rest)).1.flatten.length := by
  have hroom : 1 ≤ f.room isFirst := by
    have hstart := h.start isFirst
    unfold Filling.room
    omega
  have hlength : 1 ≤ chunk.length := List.length_pos_iff.mpr hchunk
  unfold fillChunks takeFitting
  by_cases hfits : ((0 : Nat) + chunk.length : Int) ≤ f.room isFirst
  · -- The chunk fits, and nothing that is taken is given back.
    rw [if_pos hfits]
    dsimp only
    unfold fillUp
    split
    · simp
      omega
    · split
      · simp
        omega
      · simp
        omega
  · rw [if_neg hfits]
    have hcut := one_le_cutPlace f.atHyphens
      (show 1 ≤ (f.room isFirst - (([] : List (List Char)).flatten.length : Int)).toNat by
        simp; omega) chunk
    unfold fillUp
    dsimp only
    rw [if_pos (by simpa using hfits), if_neg (show ¬ f.room isFirst < 1 by omega)]
    simp only [List.nil_append, List.flatten_singleton, List.length_take]
    omega

theorem fillUp_ne_nil {atHyphens : Bool} {width : Int} (hwidth : 1 ≤ width)
    {taken left : List (List Char)} (h : ∀ chunk ∈ left, chunk ≠ []) :
    ∀ chunk ∈ (fillUp atHyphens width taken left).2, chunk ≠ [] := by
  unfold fillUp
  split
  · exact h
  · rename_i chunk rest
    obtain ⟨hchunk, hrest⟩ := List.forall_mem_cons.mp h
    split
    · rename_i hlong
      refine List.forall_mem_cons.mpr ⟨?_, hrest⟩
      -- The chunk is longer than the line, so something of it is left.
      have hcut := cutPlace_le atHyphens
        (if width < 1 then 1 else (width - (taken.flatten.length : Int)).toNat) chunk
      rw [if_neg (by omega)] at hcut
      intro hnil
      have hlength := congrArg List.length hnil
      rw [if_neg (by omega), List.length_drop, List.length_nil] at hlength
      omega
    · exact h

/-- What a line leaves is shorter, and still has no empty chunk. -/
theorem fillLine_leaves {f : Filling} (h : f.LeavesRoom) (isFirst : Bool)
    {chunks : List (List Char)} (hne : chunks ≠ []) (hchunks : ∀ chunk ∈ chunks, chunk ≠ []) :
    (fillLine f isFirst chunks).2.flatten.length < chunks.flatten.length
      ∧ ∀ chunk ∈ (fillLine f isFirst chunks).2, chunk ≠ [] := by
  have hroom : 1 ≤ f.room isFirst := by
    have hstart := h.start isFirst
    unfold Filling.room
    omega
  have hsub : ∀ chunk ∈ lineChunks isFirst chunks, chunk ≠ [] :=
    fun chunk hchunk => hchunks chunk ((lineChunks_suffix isFirst chunks).mem hchunk)
  have hle : (lineChunks isFirst chunks).flatten.length ≤ chunks.flatten.length := by
    obtain ⟨dropped, hdropped⟩ := lineChunks_suffix isFirst chunks
    have hlength := congrArg (fun chunks => (List.flatten chunks).length) hdropped
    rw [List.flatten_append, List.length_append] at hlength
    omega
  have hleft : (takeFitting (f.room isFirst) 0 (lineChunks isFirst chunks)).2
      ⊆ lineChunks isFirst chunks := by
    intro chunk hchunk
    rw [← takeFitting_append (f.room isFirst) (lineChunks isFirst chunks) 0]
    exact List.mem_append_right _ hchunk
  rw [fillLine_eq]
  refine ⟨?_, fillUp_ne_nil hroom fun chunk hchunk => hsub chunk (hleft hchunk)⟩
  have hsplit := congrArg List.length (fillChunks_append f isFirst (lineChunks isFirst chunks))
  rw [List.length_append] at hsplit
  cases hline : lineChunks isFirst chunks with
  | nil =>
      -- Only a blank chunk was left, and it was left out.
      have hpositive : 1 ≤ chunks.flatten.length := by
        obtain ⟨chunk, rest, rfl⟩ := List.exists_cons_of_ne_nil hne
        have hlength := List.length_pos_iff.mpr (hchunks chunk (by simp))
        simp
        omega
      rw [hline] at hsplit
      simp only [List.flatten_nil, List.length_nil] at hsplit
      dsimp only
      omega
  | cons chunk rest =>
      rw [hline] at hsplit hle hsub
      have htaken := one_le_fillChunks h isFirst (hsub chunk (by simp)) rest
      dsimp only
      omega

/-! ### All lines -/

/-- Bodies of text behind what the lines begin with. -/
def Filling.lines (f : Filling) (isFirst : Bool) : List String → List String
  | [] => []
  | body :: rest =>
    ((if isFirst then f.first else f.later) ++ body) :: rest.map (f.later ++ ·)

theorem Filling.lines_later (f : Filling) (bodies : List String) :
    f.lines false bodies = bodies.map (f.later ++ ·) := by
  cases bodies <;> rfl

theorem fillFrom_inked {f : Filling} (h : f.LeavesRoom) (bound : Nat) :
    ∀ (isFirst : Bool) (chunks : List (List Char)), (∀ chunk ∈ chunks, chunk ≠ []) →
      chunks.flatten.length < bound →
      ∃ bodies, fillFrom f bound isFirst chunks = f.lines isFirst bodies
        ∧ inked (String.join bodies).toList = inked chunks.flatten := by
  induction bound with
  | zero => exact fun _ _ _ hbound => absurd hbound (Nat.not_lt_zero _)
  | succ bound ih =>
      intro isFirst chunks hchunks hbound
      cases chunks with
      | nil => exact ⟨[], rfl, rfl⟩
      | cons chunk rest =>
          obtain ⟨hshorter, hleft⟩ := fillLine_leaves h isFirst (by simp) hchunks
          have hink := inked_fillLine f isFirst (chunk :: rest)
          unfold fillFrom
          dsimp only
          split
          · rename_i htaken
            obtain ⟨bodies, hlines, hbodies⟩ := ih isFirst _ hleft (by omega)
            refine ⟨bodies, hlines, ?_⟩
            rw [List.isEmpty_iff.mp htaken] at hink
            rw [hbodies, ← hink]
            rfl
          · obtain ⟨bodies, hlines, hbodies⟩ := ih false _ hleft (by omega)
            refine ⟨String.ofList (fillLine f isFirst (chunk :: rest)).1.flatten :: bodies, ?_, ?_⟩
            · rw [hlines, f.lines_later]
              rfl
            · rw [String.join_cons, String.toList_append, String.toList_ofList, inked_append, hbodies,
                hink]

/-- The lines of a text are bodies behind the indentation, and these hold its ink in order. -/
theorem fill_inked {f : Filling} (h : f.LeavesRoom) (text : String) :
    ∃ bodies, fill f text = f.lines true bodies
      ∧ inked (String.join bodies).toList = inked text.toList := by
  obtain ⟨bodies, hlines, hbodies⟩ := fillFrom_inked h ((f.chunks text).flatten.length + 1) true
    (f.chunks text) (f.chunks_ne_nil text) (Nat.lt_succ_self _)
  refine ⟨bodies, hlines, ?_⟩
  rw [hbodies, f.flatten_chunks, inked_plainSpaces]

/-! ### Writing -/

/-- How a line of code is filled. -/
def codeFilling (indent : Int) : Filling where
  width := sheetWidth
  first := indentation indent
  later := indentation (indent + 2)
  atHyphens := true

/-- Lines that fit are all that a sheet shows; one that was taken away refuses the first of them. -/
def putDown (lines : List String) (s : Sheet) : Outcome Sheet Unit :=
  if s.isThere then
    ⟨{ s with written := s.written ++ String.join (lines.map (· ++ "\n")) }, [], .ok ()⟩
  else
    ⟨s, [], .error { cause := .noPage }⟩

theorem each_printLine_eq {lines : List String} (hne : lines ≠ [])
    (h : ∀ line ∈ lines, line.length ≤ sheetWidth) (s : Sheet) :
    Act.each lines printLine s = putDown lines s := by
  unfold putDown
  split
  · rename_i hthere
    exact each_printLine h hthere
  · rename_i hgone
    obtain ⟨line, rest, rfl⟩ := List.exists_cons_of_ne_nil hne
    have hline := h line (by simp)
    have hprint : printLine line s = ⟨s, [], .error { cause := .noPage }⟩ := by
      unfold printLine print
      rw [assume_bind_of_true (by simpa using hline), get_bind_apply, if_neg hgone]
      rfl
    rw [each_cons, bind_apply_error _ hprint]

theorem atLeastOne_ne_nil (lines : List String) : atLeastOne lines ≠ [] := by
  unfold atLeastOne
  split
  · simp
  · rename_i hsome
    simpa using hsome

/-- The right part stands at the right margin, below the text or beside its last line; there something
that fills the room keeps them apart. -/
inductive SetRight (l : TextLine) (lines : List String) : List String → Prop
  | none (h : l.right = "") : SetRight l lines lines
  | beside {before last count} (h : l.right ≠ "") (hlines : lines = before ++ [last])
    (hapart : 1 ≤ count) (hwidth : (last ++ repeated l.filler count ++ l.right).length = sheetWidth) :
    SetRight l lines (before ++ [last ++ repeated l.filler count ++ l.right])
  | below {count} (h : l.right ≠ "")
    (hwidth : (repeated l.filler count ++ l.right).length = sheetWidth) :
    SetRight l lines (lines ++ [repeated l.filler count ++ l.right])

theorem withRight_setRight {l : TextLine} (hfiller : l.filler.length = 1)
    (hright : l.right.length ≤ sheetWidth) {lines : List String} (hne : lines ≠ []) :
    SetRight l lines (withRight l lines) := by
  unfold withRight
  by_cases hnone : l.right = ""
  · rw [if_pos (by simpa using hnone)]
    exact .none hnone
  · rw [if_neg (by simpa using hnone)]
    obtain ⟨before, last, rfl⟩ := (List.eq_nil_or_concat lines).resolve_left hne
    simp only [List.concat_eq_append, List.getLast?_concat, Option.getD_some, List.dropLast_concat]
    split
    · have hwidth : (repeated l.filler (sheetWidth - l.right.length) ++ l.right).length
          = sheetWidth := by
        rw [String.length_append, length_repeated hfiller]
        omega
      have hbelow : SetRight l (before ++ [last]) _ := .below hnone hwidth
      simpa using hbelow
    · refine .beside hnone rfl ?_ ?_
      · dsimp only
        omega
      · rw [String.length_append, String.length_append, length_repeated hfiller]
        dsimp only
        omega

theorem SetRight.width {l : TextLine} {lines set : List String} (h : SetRight l lines set)
    (hlines : ∀ line ∈ lines, line.length ≤ sheetWidth) :
    ∀ line ∈ set, line.length ≤ sheetWidth := by
  intro line hline
  cases h with
  | none => exact hlines line hline
  | beside h heq hapart hwidth =>
      rcases List.mem_append.mp hline with hline | hline
      · exact hlines line (by rw [heq]; exact List.mem_append_left _ hline)
      · rw [List.mem_singleton.mp hline]
        exact Nat.le_of_eq hwidth
  | below h hwidth =>
      rcases List.mem_append.mp hline with hline | hline
      · exact hlines line hline
      · rw [List.mem_singleton.mp hline]
        exact Nat.le_of_eq hwidth

theorem SetRight.ne_nil {l : TextLine} {lines set : List String} (h : SetRight l lines set)
    (hne : lines ≠ []) : set ≠ [] := by
  cases h with
  | none => exact hne
  | beside | below => simp

/-- Text and code are written on lines no wider than the sheet, and without their indentation and the
right part these hold the ink of what is written, in order. -/
theorem written_within_width_and_lossless (l : TextLine) (code : String) (indent : Int) (s : Sheet)
    (hroom : l.filling.LeavesRoom) (hright : l.right.length ≤ sheetWidth)
    (hfiller : l.filler.length = 1) (hcode : (codeFilling indent).LeavesRoom) :
    (∃ bodies lines, writeText l s = putDown lines s
      ∧ (∀ line ∈ lines, line.length ≤ sheetWidth)
      ∧ SetRight l (atLeastOne (l.filling.lines true bodies)) lines
      ∧ inked (String.join bodies).toList = inked l.text.toList)
    ∧ ∃ bodies, writeCode code indent s
          = putDown (atLeastOne ((codeFilling indent).lines true bodies)) s
      ∧ (∀ line ∈ atLeastOne ((codeFilling indent).lines true bodies), line.length ≤ sheetWidth)
      ∧ inked (String.join bodies).toList = inked code.toList := by
  constructor
  · obtain ⟨bodies, hfill, hink⟩ := fill_inked hroom l.text
    have hset := withRight_setRight hfiller hright (atLeastOne_ne_nil (fill l.filling l.text))
    have hwidth := hset.width (atLeastOne_width (fill_width hroom l.text))
    refine ⟨bodies, _, ?_, hwidth, hfill ▸ hset, hink⟩
    unfold writeText
    rw [assume_bind_of_true (by simpa using hright)]
    exact each_printLine_eq (hset.ne_nil (atLeastOne_ne_nil _)) hwidth s
  · obtain ⟨bodies, hfill, hink⟩ := fill_inked hcode code
    have hwidth := atLeastOne_width (fill_width hcode code)
    rw [hfill] at hwidth
    refine ⟨bodies, ?_, hwidth, hink⟩
    rw [← each_printLine_eq (atLeastOne_ne_nil _) hwidth s, ← hfill]
    rfl

/-- A list item with a word that is longer than a line and a right part, and a line of code. -/
theorem written_within_width_and_lossless_item :
    let word := String.ofList (List.replicate 100 'x')
    let l : TextLine :=
      { text := "See\t" ++ word, right := "*demo-item*", indent := 1, leader := some "* ",
        filler := "." }
    let code := "call demo#" ++ word ++ "()"
    (l.filling.LeavesRoom ∧ l.right.length ≤ sheetWidth ∧ (codeFilling 1).LeavesRoom)
    ∧ (∃ bodies lines, writeText l {} = putDown lines {}
      ∧ (∀ line ∈ lines, line.length ≤ sheetWidth)
      ∧ SetRight l (atLeastOne (l.filling.lines true bodies)) lines
      ∧ inked (String.join bodies).toList = inked l.text.toList)
    ∧ ∃ bodies, writeCode code 1 {} = putDown (atLeastOne ((codeFilling 1).lines true bodies)) {}
      ∧ (∀ line ∈ atLeastOne ((codeFilling 1).lines true bodies), line.length ≤ sheetWidth)
      ∧ inked (String.join bodies).toList = inked code.toList := by
  intro word l code
  have hroom : l.filling.LeavesRoom := ⟨by decide, by decide⟩
  have hright : l.right.length ≤ sheetWidth := by decide
  have hcode : (codeFilling 1).LeavesRoom := ⟨by decide, by decide⟩
  exact ⟨⟨hroom, hright, hcode⟩,
    written_within_width_and_lossless l code 1 {} hroom hright (by decide) hcode⟩

end PluginHelp.Help
