/-
Patterns that match at the start of a text only.

The sign of a continued line, that of a comment and the leader of a list item all stand after the
blanks that a line begins with.  A pattern that is anchored there matches a line once or not at all,
so to drop its matches from the line is to keep what stands after the one match.
-/
import PluginHelp.Pattern.Comment
import PluginHelp.Proofs.Pattern.Spelling

namespace PluginHelp.Pattern

open PluginHelp.Text

variable {p q : Pattern} {P : List Char → Prop} {s t : Scan} {line : String}

/-! ### Matches at the start -/

theorem Takes.match? (h : Takes p (.start line.toList) t) :
    p.match? line = some (p.found (.start line.toList) t) := by
  unfold Pattern.match?
  rw [show p.endFrom? false (.start line.toList) = some t from h.endFrom?, Option.map_some]

theorem Takes.fits (h : Takes p (.start line.toList) t) : p.fits line = true := by
  rw [Pattern.fits, h.match?, Option.isSome_some]

theorem Refuses.match? (h : Refuses p (.start line.toList)) : p.match? line = none := by
  unfold Pattern.match?
  rw [show p.endFrom? false (.start line.toList) = none from h _, Option.map_none]

/-- A line that a pattern fits begins with a text that the pattern spells. -/
theorem Spells.of_fits (h : Spells p P) (hfits : p.fits line = true) :
    ∃ text back, line.toList = text ++ back ∧ P text := by
  obtain ⟨m, hm⟩ := Option.isSome_iff_exists.mp hfits
  obtain ⟨t, ht, -⟩ := match?_reaches hm
  obtain ⟨text, -, hrest, htext⟩ := h _ _ ht
  exact ⟨text, t.rest, hrest, htext⟩

/-- A character that may be missing. -/
theorem exists_takes_optional_char (c : Char) (s : Scan) :
    ∃ t, Takes (optional (char c)) s t := by
  obtain ⟨read, rest, captured⟩ := s
  by_cases h : rest.head? = some c
  · obtain ⟨rest, rfl⟩ := List.head?_eq_some_iff.mp h
    exact ⟨_, (takes_char c read rest captured).alt⟩
  · refine ⟨_, (refuses_one_of_rest ?_).optional⟩
    rintro d hd
    rw [beq_eq_false_iff_ne]
    rintro rfl
    exact h hd

/-! ### Anchored patterns -/

/-- A pattern that matches at the start of a text only. -/
def Anchored (p : Pattern) : Prop :=
  ∀ s t, Reaches p s t → s.read = []

theorem anchored_atStart : Anchored atStart := by
  intro s t hst
  cases hst with
  | test h => exact List.isEmpty_iff.mp h

theorem Anchored.seq (h : Anchored p) : Anchored (p ++ q) := by
  intro s t hst
  cases hst with
  | seq hp _ => exact h _ _ hp

/-- Past the start of a text, nothing is replaced. -/
theorem Anchored.rewrites (h : Anchored p) (replacement : Match → String) (rest : List Char) :
    ∀ read, read ≠ [] → Rewrites p replacement read rest rest := by
  induction rest with
  | nil => exact fun _ _ => .done
  | cons c rest ih =>
      intro read hread
      refine .skip (silent_of_not_reaches fun t ht => hread (h _ _ ht)) ?_
      exact ih _ (List.cons_ne_nil c read)

/-- To drop the matches of an anchored pattern is to keep what stands after the one match. -/
theorem Anchored.replace_of_takes (h : Anchored p) (hmoves : Moves p)
    (ht : Takes p (.start line.toList) t) : p.replace "" line = String.ofList t.rest := by
  have hend : p.endFrom? false (.start line.toList) = some t := ht.endFrom?
  have hread : t.read ≠ [] := by
    have := hmoves _ _ (endFrom?_reaches hend)
    exact List.ne_nil_of_length_pos (Nat.zero_lt_of_lt this)
  exact replaceWith_of_rewrites hmoves (.hit hend (h.rewrites _ t.rest t.read hread))

/-! ### A sign after blanks -/

theorem takes_atStart (rest : List Char) : Takes atStart (.start rest) (.start rest) :=
  fun _ _ _ hb => hb

/-- The blanks that a line begins with. -/
theorem takes_indent {gap rest : List Char} (hgap : ∀ c ∈ gap, isBlank c = true)
    (hrest : ∀ c, rest.head? = some c → isBlank c = false) :
    Takes (atStart ++ blanks) (.start (gap ++ rest)) ⟨gap.reverse, rest, []⟩ := by
  have hblanks : Takes blanks (.start (gap ++ rest)) ⟨gap.reverse ++ [], rest, []⟩ :=
    takes_many_one hgap hrest []
  rw [List.append_nil] at hblanks
  exact (takes_atStart _).seq hblanks

theorem spells_indent : Spells (atStart ++ blanks) fun text => ∀ c ∈ text, isBlank c = true := by
  refine ((spells_test _).seq (spells_many_one _)).mono ?_
  rintro _ ⟨_, gap, rfl, rfl, hgap⟩
  exact hgap

/-- A line that holds nothing holds only blanks. -/
theorem isBlank_of_blankLine (h : blankLine.fits line = true) :
    ∀ c ∈ line.toList, isBlank c = true := by
  obtain ⟨m, hm⟩ := Option.isSome_iff_exists.mp h
  obtain ⟨u, hu, -⟩ := match?_reaches hm
  obtain ⟨t, ht, hend⟩ := hu.of_seq
  obtain ⟨gap, -, hline, hgap⟩ := spells_indent _ _ ht
  have hrest := hend.of_test.2
  intro c hc
  rw [show line.toList = gap ++ t.rest from hline] at hc
  rcases List.mem_append.mp hc with hc | hc
  · exact hgap c hc
  · cases ht' : t.rest with
    | nil => simp [ht'] at hc
    | cons d rest =>
        -- What is left is a line end that ends the text.
        obtain ⟨rfl, rfl⟩ : d = '\n' ∧ rest = [] := by simpa [ht'] using hrest
        obtain rfl : c = '\n' := by simpa [ht'] using hc
        rfl

/-- Leading blanks end where there is no blank. -/
theorem dropWhile_indent {gap rest : List Char} (hgap : ∀ c ∈ gap, isBlank c = true)
    (hrest : ∀ c, rest.head? = some c → isBlank c = false) :
    (gap ++ rest).dropWhile isBlank = rest :=
  dropWhile_class hgap hrest

/-- A text whose first sign is given, cut at that sign. -/
theorem exists_indent {text : List Char} {c : Char}
    (h : (text.dropWhile isBlank).head? = some c) :
    ∃ gap rest, text = gap ++ c :: rest ∧ (∀ d ∈ gap, isBlank d = true) ∧ isBlank c = false := by
  obtain ⟨rest, hrest⟩ := List.head?_eq_some_iff.mp h
  refine ⟨text.takeWhile isBlank, rest, ?_, List.all_eq_true.mp List.all_takeWhile,
    head?_dropWhile isBlank text c h⟩
  rw [← hrest, List.takeWhile_append_dropWhile]

/-- The first sign stands where the leading blanks end. -/
theorem dropWhile_sign {gap rest : List Char} {c : Char} (hgap : ∀ d ∈ gap, isBlank d = true)
    (hc : isBlank c = false) : (gap ++ c :: rest).dropWhile isBlank = c :: rest := by
  refine dropWhile_indent hgap ?_
  rintro d ⟨⟩
  exact hc

/-- A sign after the blanks that a line begins with. -/
theorem takes_sign {gap : List Char} {c : Char} (hgap : ∀ d ∈ gap, isBlank d = true)
    (hc : isBlank c = false) (rest : List Char) :
    Takes (atStart ++ blanks ++ char c) (.start (gap ++ c :: rest)) ⟨c :: gap.reverse, rest, []⟩ := by
  refine (takes_indent hgap ?_).seq (takes_char c _ _ _)
  rintro d ⟨⟩
  exact hc

theorem spells_sign (c : Char) : Spells (atStart ++ blanks ++ char c)
    fun text => ∃ gap, text = gap ++ [c] ∧ ∀ d ∈ gap, isBlank d = true := by
  refine (spells_indent.seq (spells_char c)).mono ?_
  rintro _ ⟨gap, _, rfl, hgap, rfl⟩
  exact ⟨gap, rfl, hgap⟩

theorem anchored_sign (c : Char) : Anchored (atStart ++ blanks ++ char c) :=
  anchored_atStart.seq.seq

end PluginHelp.Pattern
