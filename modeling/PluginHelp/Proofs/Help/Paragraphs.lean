/-
Running text that is joined from lines.

The lines of a comment are put together with a space between them, and the inline directives are
looked up in what comes of that.  So there would be a difference between a text and its lines if a
directive could begin in one line and end in the next.  It cannot: a name has no blank in it, nor has
an element, and a parenthesis that opens an element follows the name at once.

What makes this a law about `expand` is that texts meet at every blank, in the sense of `Meets`.  From
there it goes to any number of lines by induction.  Empty lines need some care.  A line that joins an
empty text takes its place, so those at the beginning leave no space, while later ones do.
-/
import PluginHelp.Proofs.Help.BareWords

namespace PluginHelp

namespace Pattern

open Text

variable {blank : Char}

/-- No directive reaches over a blank. -/
theorem meets_blank (h : isBlank blank = true) (front back : List Char) :
    Meets front (blank :: back) where
  ends := by
    intro c hc
    obtain rfl : blank = c := by simpa using hc
    refine ⟨isNameRest_of_isBlank h, ?_⟩
    rintro rfl
    cases h
  outside := by
    rintro ⟨before, word, opened, more, tail, -, -, hrest, hsolid⟩
    cases more with
    | nil =>
        obtain ⟨rfl, -⟩ := List.cons.inj hrest
        cases h
    | cons c more =>
        obtain ⟨rfl, -⟩ := List.cons.inj hrest
        have hc := (hsolid blank (by simp)).1
        rw [h] at hc
        cases hc

/-- A blank stands for itself. -/
theorem not_opensDirective_blank (h : isBlank blank = true) (back : List Char) :
    ¬OpensDirective (blank :: back) := by
  rintro ⟨c, rest, htext, -⟩
  obtain ⟨rfl, -⟩ := List.cons.inj htext
  cases h

end Pattern

namespace Help

open Pattern

variable {c : Context} {space : Value}

/-! ### One blank -/

theorem looked_blank {blank : Char} (h : Text.isBlank blank = true) (front back : String) :
    looked c space (front ++ String.singleton blank ++ back)
      = (looked c space front).append
        ((Passes.ofValue (.ok (.text (String.singleton blank)))).append (looked c space back)) := by
  obtain ⟨stretches, hback⟩ := exists_cuts back.toList
  have hblank : Cuts (String.singleton blank ++ back).toList (.sign blank :: stretches) := by
    rw [String.toList_append, String.toList_singleton]
    exact .sign (not_opensDirective_blank h back.toList) hback
  have hmeets : Meets front.toList (String.singleton blank ++ back).toList := by
    rw [String.toList_append, String.toList_singleton]
    exact meets_blank h front.toList back.toList
  rw [String.append_assoc, looked_append hmeets, looked_of_cuts hblank, looked_of_cuts hback]
  rfl

/-- A text comes to something exactly if what stands before a blank and what stands after it do. -/
theorem expand_blank {blank : Char} (h : Text.isBlank blank = true) (front back : String)
    {out : String} :
    expand c space (front ++ String.singleton blank ++ back) = .ok out
      ↔ ∃ s t, expand c space front = .ok s ∧ expand c space back = .ok t
          ∧ out = s ++ String.singleton blank ++ t := by
  have hblank (t : String) : (Passes.ofValue (.ok (.text (String.singleton blank)))).result
      = .ok t ↔ t = String.singleton blank :=
    ⟨fun ht => (Except.ok.inj ht).symm, fun ht => congrArg Except.ok ht.symm⟩
  simp only [expand_eq, looked_blank h, Passes.result_append_eq_ok_iff, hblank]
  constructor
  · rintro ⟨s, _, hs, ⟨_, t, rfl, ht, rfl⟩, rfl⟩
    exact ⟨s, t, hs, ht, String.append_assoc.symm⟩
  · rintro ⟨s, t, hs, ht, rfl⟩
    exact ⟨s, _, hs, ⟨_, t, rfl, ht, rfl⟩, String.append_assoc⟩

/-! ### Any number of lines -/

theorem expand_space (front back : String) {out : String} :
    expand c space (front ++ " " ++ back) = .ok out
      ↔ ∃ s t, expand c space front = .ok s ∧ expand c space back = .ok t ∧ out = s ++ " " ++ t :=
  expand_blank (show Text.isBlank ' ' = true from rfl) front back

/-- Lines with spaces between them come to something exactly if each of them does. -/
theorem expand_intercalate (lines : List String) {out : String} :
    expand c space (" ".intercalate lines) = .ok out
      ↔ ∃ outs, lines.mapM (expand c space) = .ok outs ∧ out = " ".intercalate outs := by
  simp only [Except.mapM_eq_ok_iff]
  induction lines generalizing out with
  | nil =>
      constructor
      · intro hout
        exact ⟨[], .nil, (Except.ok.inj hout).symm⟩
      · rintro ⟨outs, houts, rfl⟩
        cases houts
        rfl
  | cons line lines ih =>
      cases lines with
      | nil =>
          rw [String.intercalate_singleton]
          constructor
          · intro hout
            exact ⟨[out], .cons hout .nil, String.intercalate_singleton.symm⟩
          · rintro ⟨outs, houts, rfl⟩
            rcases houts with _ | ⟨hs, hnone⟩
            cases hnone
            rwa [String.intercalate_singleton]
      | cons next lines =>
          rw [String.intercalate_cons_cons, expand_space]
          constructor
          · rintro ⟨s, t, hs, ht, rfl⟩
            obtain ⟨outs, houts, rfl⟩ := ih.mp ht
            have hsome : outs ≠ [] := by
              rintro rfl
              cases houts
            exact ⟨s :: outs, .cons hs houts, (String.intercalate_cons_of_ne_nil hsome).symm⟩
          · rintro ⟨_, hall, rfl⟩
            obtain ⟨s, outs, hs, houts, rfl⟩ := List.forall₂_cons_left_iff.mp hall
            have hsome : outs ≠ [] := by
              rintro rfl
              cases houts
            exact ⟨s, _, hs, ih.mpr ⟨outs, houts, rfl⟩, String.intercalate_cons_of_ne_nil hsome⟩

end Help

/-! ### Paragraphs -/

/-- The running text of a passage. -/
def Body.running? : Body → Option String
  | .prose text | .item _ _ text => some text
  | _ => none

namespace Passage

theorem running?_extend (line : String) (body : Body) :
    (extend line body).running? = body.running?.map (joinLine · line) := by
  cases body <;> rfl

theorem joinLine_of_ne {text : String} (h : text ≠ "") (line : String) :
    joinLine text line = text ++ " " ++ line := by
  rw [joinLine, if_neg (by simpa using h)]

theorem foldl_joinLine_of_ne {text : String} (h : text ≠ "") (lines : List String) :
    lines.foldl joinLine text = " ".intercalate (text :: lines) := by
  induction lines generalizing text with
  | nil => rw [String.intercalate_singleton]; rfl
  | cons line lines ih =>
      have hmore : text ++ " " ++ line ≠ "" := by
        intro hempty
        simp at hempty
      rw [List.foldl_cons, joinLine_of_ne h, ih hmore, String.intercalate_cons_append,
        String.intercalate_cons_cons]

/-- Lines that join a text, one after the other, stand behind it with spaces between them.  Empty ones
before the first word are left out. -/
theorem foldl_joinLine (text : String) (lines : List String) :
    lines.foldl joinLine text = " ".intercalate ((text :: lines).dropWhile (· == "")) := by
  induction lines generalizing text with
  | nil =>
      by_cases h : text = ""
      · subst h
        rfl
      · rw [List.dropWhile_cons_of_neg (by simpa using h), String.intercalate_singleton]
        rfl
  | cons line lines ih =>
      by_cases h : text = ""
      · subst h
        exact ih line
      · rw [List.dropWhile_cons_of_neg (by simpa using h)]
        exact foldl_joinLine_of_ne h (line :: lines)

/-- A passage of running text takes any number of lines. -/
theorem foldlM_addLine {p : Passage} {text : String} (hopen : p.isOpen = true)
    (htext : p.body.running? = some text) (lines : List String) :
    ∃ grown, lines.foldlM addLine p = .ok grown
      ∧ grown.body.running? = some (lines.foldl joinLine text) := by
  induction lines generalizing p text with
  | nil => exact ⟨p, rfl, htext⟩
  | cons line lines ih =>
      have hline : (extend line p.body).running? = some (joinLine text line) := by
        rw [running?_extend, htext]
        rfl
      obtain ⟨grown, hgrown, hjoined⟩ := ih (p := ⟨true, extend line p.body⟩) rfl hline
      refine ⟨grown, ?_, hjoined⟩
      rw [List.foldlM_cons, addLine, if_pos hopen, hopen]
      exact hgrown

end Passage

namespace Help

open Pattern

variable {c : Context} {space : Value}

/-! ### Texts without directives -/

/-- The words of inline directives that stand for something. -/
def inlineWords : List String :=
  "plugin" :: elementWords

theorem expandInline_of_not_mem {word : String} (h : word ∉ inlineWords) (element : Value) :
    expandInline c word element space = .ok .nothing := by
  simp only [inlineWords, elementWords, List.mem_cons, List.not_mem_nil, or_false, not_or] at h
  unfold expandInline
  split <;> simp_all [pure, Except.pure]

/-- A piece stands for itself unless it is a directive with such a word. -/
theorem expandPiece_of_not_mem {piece : Piece}
    (h : ∀ m, piece.found? = some m → m.group 1 ∉ inlineWords) :
    expandPiece c space piece = .ok (.text piece.covered) := by
  cases piece with
  | plain text => rfl
  | hit found =>
      rw [expandPiece, expandInline_of_not_mem (h found rfl)]
      rfl

theorem passes_of_texts {α : Type} {make : α → Except Cause Value} {view : α → String}
    {items : List α} (h : ∀ item ∈ items, make item = .ok (.text (view item))) :
    passes make items = .ok (.ok (String.ofList ((items.map (view · |>.toList)).flatten))) := by
  induction items with
  | nil => rfl
  | cons item items ih =>
      obtain ⟨hitem, hitems⟩ := List.forall_mem_cons.mp h
      rw [passes, hitem, ih hitems, List.map_cons, List.flatten_cons, String.ofList_append,
        String.ofList_toList]
      rfl

/-- A text stays as it is if no directive in it has such a word. -/
theorem expand_of_not_mem {text : String}
    (h : ∀ m ∈ inlineDirective.findAll text, m.group 1 ∉ inlineWords) :
    expand c space text = .ok text := by
  have hpieces : ∀ piece ∈ inlineDirective.pieces text,
      expandPiece c space piece = .ok (.text piece.covered) := by
    intro piece hpiece
    refine expandPiece_of_not_mem fun m hm => h m ?_
    rw [Pattern.findAll_eq]
    exact List.mem_filterMap.mpr ⟨piece, hpiece, hm⟩
  rw [expand_eq, looked, passes_of_texts hpieces, covered_pieces, String.ofList_toList]
  rfl

/-! ### Line by line -/

/--
**Running text can be expanded line by line.**

Whatever the page and the plugin are, a text with a blank in it comes to something exactly if what
stands before the blank and what stands after it both do, and then it comes to these, with the blank
between them.  So a paragraph comes to what its lines come to, one by one, with spaces between them,
where empty lines at its beginning count for nothing.  And a text in which no directive has a word
that stands for something is left as it is.
-/
theorem expand_line_by_line (c : Context) (space : Value) :
    (∀ (front back : String) (blank : Char), Text.isBlank blank = true → ∀ out,
      (expand c space (front ++ String.singleton blank ++ back) = .ok out
        ↔ ∃ s t, expand c space front = .ok s ∧ expand c space back = .ok t
            ∧ out = s ++ String.singleton blank ++ t))
    ∧ (∀ (p : Passage) (text : String), p.isOpen = true → p.body.running? = some text →
      ∀ lines : List String, ∃ grown joined, lines.foldlM Passage.addLine p = .ok grown
        ∧ grown.body.running? = some joined
        ∧ ∀ out, (expand c space joined = .ok out
            ↔ ∃ outs, ((text :: lines).dropWhile (· == "")).mapM (expand c space) = .ok outs
                ∧ out = " ".intercalate outs))
    ∧ ∀ text : String, (∀ m ∈ inlineDirective.findAll text, m.group 1 ∉ inlineWords) →
        expand c space text = .ok text := by
  refine ⟨?_, ?_, ?_⟩
  · intro front back blank hblank out
    exact expand_blank hblank front back
  · intro p text hopen htext lines
    obtain ⟨grown, hgrown, hjoined⟩ := Passage.foldlM_addLine hopen htext lines
    refine ⟨grown, _, hgrown, hjoined, fun out => ?_⟩
    rw [Passage.foldl_joinLine]
    exact expand_intercalate _
  · intro text htext
    exact expand_of_not_mem htext

theorem expand_line_by_line_demo :
    let c : Context := { plugin := { name := .text "demo" }, page := { name := .text "demo" } }
    expand c .nothing ("@plugin(name)" ++ String.singleton '\t' ++ "(v2)") = .ok "demo\t(v2)"
    ∧ (∃ grown joined, ["", "Ask me@home, or see", "@plugin(name)."].foldlM Passage.addLine
          (.ofBody (.prose "")) = .ok grown
        ∧ grown.body.running? = some joined
        ∧ expand c .nothing joined = .ok "Ask me@home, or see demo.")
    ∧ expand c .nothing "Not @links(@section)" = .ok "Not @links(@section)" := by
  intro c
  obtain ⟨hblank, hlines, hplain⟩ := expand_line_by_line c .nothing
  refine ⟨?_, ?_, ?_⟩
  · exact (hblank _ _ '\t' rfl _).mpr ⟨"demo", "(v2)", rfl, rfl, rfl⟩
  · obtain ⟨grown, joined, hgrown, hjoined, hout⟩ :=
      hlines (.ofBody (.prose "")) "" rfl rfl ["", "Ask me@home, or see", "@plugin(name)."]
    exact ⟨grown, joined, hgrown, hjoined,
      (hout _).mpr ⟨["Ask me@home, or see", "demo."], rfl, rfl⟩⟩
  · exact hplain _ (by decide)

end Help

end PluginHelp
