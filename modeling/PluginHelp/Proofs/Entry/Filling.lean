/-
What is put into the slots of a usage line.

A usage line is a head with a hole for the name, and a row of slots.  It is filled in eight steps, one
after the other.  The first three put the arguments into the row: a slot becomes the words that it
stands for, and a hole that stands for nothing an empty word.  The fourth takes the separators around
empty words away, the fifth puts the name in, and the last three find nothing.
-/
import PluginHelp.Proofs.Entry.Slots

namespace PluginHelp.Header

open PluginHelp.Pattern PluginHelp.Text

/-! ### Words and separators -/

/-- Words with separators between them. -/
theorem intercalate_cons (sep word : List Char) (words : List (List Char)) :
    List.intercalate sep (word :: words) = word ++ row sep words := by
  induction words generalizing word with
  | nil => rw [List.intercalate_singleton, row_nil, List.append_nil]
  | cons next words ih => rw [List.intercalate_cons_cons, ih, row_cons, List.append_assoc]

theorem intercalate_eq (sep : List Char) (words : List (List Char)) :
    List.intercalate sep words = words.headD [] ++ row sep words.tail := by
  cases words with
  | nil => rfl
  | cons word words => exact intercalate_cons sep word words

theorem intercalate_eq_nil {sep : List Char} {words : List (List Char)}
    (hwords : ∀ word ∈ words, IsWord word) : List.intercalate sep words = [] ↔ words = [] := by
  cases words with
  | nil => simp
  | cons word words =>
      rw [intercalate_cons]
      simp [(hwords word (by simp)).nonempty]

/-- Two lists of words with separators between them, and one between the lists if it is needed. -/
theorem intercalate_append {sep : List Char} {front back : List (List Char)}
    (hfront : front ≠ []) (hback : back ≠ []) :
    List.intercalate sep (front ++ back)
      = List.intercalate sep front ++ (sep ++ List.intercalate sep back) := by
  obtain ⟨word, words, rfl⟩ := List.exists_cons_of_ne_nil hfront
  obtain ⟨next, others, rfl⟩ := List.exists_cons_of_ne_nil hback
  rw [List.cons_append, intercalate_cons, intercalate_cons, intercalate_cons, row_append, row_cons,
    List.append_assoc]

/-- The required and the optional arguments as one list. -/
theorem all_eq {sep : List Char} {required optional : List (List Char)}
    (hrequired : ∀ word ∈ required, IsWord word) (hoptional : ∀ word ∈ optional, IsWord word) :
    (if String.ofList (List.intercalate sep required) != ""
        && String.ofList (List.intercalate sep optional) != "" then
      String.ofList (List.intercalate sep required) ++ String.ofList sep
        ++ String.ofList (List.intercalate sep optional)
    else String.ofList (List.intercalate sep required)
      ++ String.ofList (List.intercalate sep optional))
      = String.ofList (List.intercalate sep (required ++ optional)) := by
  have hempty {words : List (List Char)} (h : ∀ word ∈ words, IsWord word) :
      String.ofList (List.intercalate sep words) = "" ↔ words = [] := by
    have hnil : List.intercalate sep words = [] ↔ words = [] := intercalate_eq_nil h
    rw [← hnil, ← String.toList_inj, String.toList_ofList]
    rfl
  by_cases hnone : required = []
  · simp [hnone]
  · by_cases hnil : optional = []
    · simp [hnil]
    · have hboth : (String.ofList (List.intercalate sep required) != ""
          && String.ofList (List.intercalate sep optional) != "") = true := by
        simpa [hempty hrequired, hempty hoptional] using ⟨hnone, hnil⟩
      rw [if_pos hboth, intercalate_append hnone hnil]
      simp [String.ofList_append, String.append_assoc]

/-- The arguments that a slot stands for. -/
def slotWords (required optional : List (List Char)) (slot : List Char) : List (List Char) :=
  if slot = holeForAll then required ++ optional
  else if slot = holeForRequired then required
  else if slot = holeForOptional then optional
  else [slot]

/-- What a slot stands for are arguments that are put into it, or the one that it is. -/
theorem mem_slotWords {required optional : List (List Char)} {slot word : List Char}
    (hslot : IsSlot slot) (h : word ∈ slotWords required optional slot) :
    word ∈ required ∨ word ∈ optional ∨ IsWord word := by
  unfold slotWords at h
  split at h
  · rcases List.mem_append.mp h with h | h
    · exact Or.inl h
    · exact Or.inr (Or.inl h)
  · split at h
    · exact Or.inl h
    · split at h
      · exact Or.inr (Or.inl h)
      · rename_i hall hrequired hoptional
        obtain rfl := List.mem_singleton.mp h
        exact Or.inr (Or.inr
          (((hslot.resolve_left hall).resolve_left hrequired).resolve_left hoptional))

/-- Words, or an empty word where there are none. -/
def orEmpty (words : List (List Char)) : List (List Char) :=
  if words = [] then [[]] else words

theorem orEmpty_ne_nil (words : List (List Char)) : orEmpty words ≠ [] := by
  unfold orEmpty
  split
  · simp
  · assumption

theorem intercalate_orEmpty (sep : List Char) (words : List (List Char)) :
    List.intercalate sep (orEmpty words) = List.intercalate sep words := by
  unfold orEmpty
  split
  · rename_i hnone
    rw [hnone]
    rfl
  · rfl

theorem row_orEmpty (sep : List Char) (words : List (List Char)) :
    row sep (orEmpty words) = sep ++ List.intercalate sep words := by
  rw [← intercalate_orEmpty]
  obtain ⟨word, rest, heq⟩ := List.exists_cons_of_ne_nil (orEmpty_ne_nil words)
  rw [heq, row_cons, intercalate_cons]

theorem row_map_intercalate (sep : List Char) (fill : List Char → List (List Char))
    (words : List (List Char)) :
    row sep (words.map fun word => List.intercalate sep (fill word))
      = row sep (words.flatMap fun word => orEmpty (fill word)) := by
  induction words with
  | nil => rfl
  | cons word words ih =>
      rw [List.map_cons, List.flatMap_cons, row_append, row_orEmpty, row_cons, ih, List.append_assoc]

theorem calm_intercalate {pairs : List (Char × Char)} {sep : List Char} {words : List (List Char)}
    (hsep : Calm pairs sep) (hwords : ∀ word ∈ words, Calm pairs word) :
    Calm pairs (List.intercalate sep words) := by
  cases words with
  | nil => exact fun _ _ => rfl
  | cons word words =>
      rw [intercalate_cons]
      obtain ⟨hword, hmore⟩ := List.forall_mem_cons.mp hwords
      exact hword.append (Calm.row hsep hmore)

/-- The later steps find nothing in a word, though it may be a hole that was not filled. -/
def Settled (word : List Char) : Prop :=
  Calm markPairs word ∧ Unseparated word

theorem IsWord.settled {word : List Char} (h : IsWord word) : Settled word :=
  ⟨h.inert.marks, h.inert.unseparated⟩

theorem settled_nil : Settled [] :=
  ⟨fun _ _ => rfl, by simp [Unseparated]⟩

theorem settled_of_fits {slot : List Char} (h : Fits slot) : Settled slot := by
  have hclosed {slot : List Char} (h : (markPairs.all (fun pair => calm pair.1 pair.2 slot)
      && slot.all fun c => c != ' ' && c != ',') = true) : Settled slot := by
    obtain ⟨hpairs, hchars⟩ := Bool.and_eq_true_iff.mp h
    refine ⟨List.all_eq_true.mp hpairs, fun c hc => ?_⟩
    simpa using List.all_eq_true.mp hchars c hc
  rcases h with rfl | rfl | rfl | rfl | h
  · exact settled_nil
  · exact hclosed rfl
  · exact hclosed rfl
  · exact hclosed rfl
  · exact h.settled

theorem settled_orEmpty {words : List (List Char)} (h : ∀ word ∈ words, Settled word) :
    ∀ word ∈ orEmpty words, Settled word := by
  unfold orEmpty
  split
  · simpa using settled_nil
  · exact h

theorem calm_separator {sep : List Char} (hsep : IsSeparator sep) :
    Calm (argumentPairs ++ markPairs) sep := by
  intro pair hpair
  refine calm_of_not_mem fun hmem => ?_
  have hall : (argumentPairs ++ markPairs).all (fun pair => pair.1 != ' ' && pair.1 != ',') = true :=
    rfl
  have hpair := List.all_eq_true.mp hall pair hpair
  rcases hsep with rfl | rfl <;> simp_all

/-! ### The eight steps -/

/-- What surrounds the slots of a usage line: the text before and after the hole for the name, the
separator of the slots, and the text at the end. -/
structure Surroundings where
  before : List Char
  after : List Char
  sep : List Char
  tail : List Char

namespace Surroundings

/-- No step finds anything in what surrounds the slots but the hole for the name. -/
structure WellFormed (u : Surroundings) : Prop where
  before : Inert u.before
  after : Inert u.after
  tail : Inert u.tail
  sep : IsSeparator u.sep
  ends : u.tail.head?.any isWord = false

/-- The text before the slots. -/
def lead (u : Surroundings) : List Char :=
  u.before ++ ['<', '>'] ++ u.after

/-- The first word fits in.  If it is a slot, it stands right behind the text before it, which does
not end with a blank. -/
structure Admits (u : Surroundings) (first : List Char) : Prop where
  fits : Fits first
  attached : first ≠ [] → ∃ front c, u.after = front ++ [c] ∧ isBlank c = false

/-- Words in a row, in which the separators around empty words have been taken away. -/
def line (u : Surroundings) (words : List (List Char)) : List Char :=
  words.headD [] ++ row u.sep (withoutGaps words.tail)

variable {u : Surroundings} {required optional : List (List Char)} {first : List Char}
  {words : List (List Char)}

theorem WellFormed.lead (h : u.WellFormed) : Calm argumentPairs u.lead := by
  have hname : Calm argumentPairs ['<', '>'] := List.all_eq_true.mp rfl
  exact (h.before.holes.append hname).append h.after.holes

theorem WellFormed.sep_holes (h : u.WellFormed) : Calm argumentPairs u.sep :=
  fun pair hpair => calm_separator h.sep pair (List.mem_append_left _ hpair)

theorem WellFormed.sep_marks (h : u.WellFormed) : Calm markPairs u.sep :=
  fun pair hpair => calm_separator h.sep pair (List.mem_append_right _ hpair)

/-- A word is a hole of a certain kind, or has none of that kind. -/
def HoleOrCalm (pair : Char × Char) (word : List Char) : Prop :=
  word = [pair.1, pair.2] ∨ calm pair.1 pair.2 word = true

theorem holeOrCalm_of_fits {slot : List Char} (h : Fits slot) :
    ∀ pair ∈ argumentPairs, HoleOrCalm pair slot := by
  have hall {slot : List Char} (h : argumentPairs.all (fun pair =>
      slot == [pair.1, pair.2] || calm pair.1 pair.2 slot) = true) :
      ∀ pair ∈ argumentPairs, HoleOrCalm pair slot := by
    intro pair hpair
    simpa [HoleOrCalm] using List.all_eq_true.mp h pair hpair
  rcases h with rfl | rfl | rfl | rfl | h
  · exact hall rfl
  · exact hall rfl
  · exact hall rfl
  · exact hall rfl
  · exact fun pair hpair => Or.inr (h.inert.holes pair hpair)

theorem holeOrCalm_fillWord {pair : Char × Char} {hole filler word : List Char}
    (hword : HoleOrCalm pair word) (hfiller : calm pair.1 pair.2 filler = true) : HoleOrCalm pair (fillWord hole filler word) := by
  unfold fillWord
  split
  · exact Or.inr hfiller
  · exact hword

theorem holeOrCalm_map {pair : Char × Char} {filler : List Char} (hole : List Char)
    (hwords : ∀ word ∈ words, HoleOrCalm pair word) (hfiller : calm pair.1 pair.2 filler = true) :
    ∀ word ∈ words.map (fillWord hole filler), HoleOrCalm pair word :=
  List.forall_mem_map.mpr fun word hword => holeOrCalm_fillWord (hwords word hword) hfiller

/-- One of the first three steps: it replaces the holes of its kind. -/
theorem replace_holes (h : u.WellFormed) {p : Pattern} {pair : Char × Char}
    (hpair : pair ∈ argumentPairs) (hopens : Opens p pair.1 pair.2) (hhits : Hits p pair.1 pair.2)
    {filler : String} {new : List Char} (hfirst : Turns p filler (u.lead.reverse ++ []) first new)
    (hwords : ∀ word ∈ words, HoleOrCalm pair word) :
    p.replace filler (String.ofList (u.lead ++ first ++ row u.sep words ++ u.tail))
      = String.ofList (u.lead ++ new ++ row u.sep
          (words.map (fillWord [pair.1, pair.2] filler.toList)) ++ u.tail) :=
  replace_row hopens hhits h.sep (h.sep_holes pair hpair)
    ((hopens.turns (h.lead pair hpair) filler []).append hfirst) (h.tail.holes pair hpair) h.ends
    hwords

/-- The hole for all arguments is filled everywhere. -/
theorem replace_argumentsHole (h : u.WellFormed) (hfirst : u.Admits first)
    (hwords : ∀ word ∈ words, Fits word) (filler : String) :
    argumentsHole.replace filler (String.ofList (u.lead ++ first ++ row u.sep words ++ u.tail))
      = String.ofList (u.lead ++ fillWord holeForAll filler.toList first
        ++ row u.sep (words.map (fillWord holeForAll filler.toList)) ++ u.tail) := by
  have hpair : ('{', ']') ∈ argumentPairs := by simp [argumentPairs]
  refine replace_holes h hpair argumentsHole_opens argumentsHole_hits ?_
    fun word hword => holeOrCalm_of_fits (hwords word hword) _ hpair
  unfold fillWord
  split
  · rename_i hhole
    rw [hhole]
    exact turns_argumentsHole filler _
  · rename_i hother
    exact argumentsHole_opens.turns
      ((holeOrCalm_of_fits hfirst.fits _ hpair).resolve_left hother) filler _

/-- The other holes are filled behind a blank only, so a first one stays as it is. -/
theorem replace_standing (h : u.WellFormed) {p : Pattern} {pair : Char × Char}
    (hpair : pair ∈ argumentPairs) (hopens : Opens (standing p) pair.1 pair.2)
    (hhits : Hits (standing p) pair.1 pair.2) (hfirst : HoleOrCalm pair first)
    (hattached : first = [pair.1, pair.2] → u.Admits first)
    (hwords : ∀ word ∈ words, HoleOrCalm pair word) (filler : String) :
    (standing p).replace filler (String.ofList (u.lead ++ first ++ row u.sep words ++ u.tail))
      = String.ofList (u.lead ++ first
        ++ row u.sep (words.map (fillWord [pair.1, pair.2] filler.toList)) ++ u.tail) := by
  refine replace_holes h hpair hopens hhits ?_ hwords
  rcases hfirst with rfl | hcalm
  · obtain ⟨front, c, hafter, hc⟩ := (hattached rfl).attached (by simp)
    have hne : pair.1 ≠ pair.2 := by
      have hall : argumentPairs.all (fun pair => pair.1 != pair.2) = true := rfl
      simpa using List.all_eq_true.mp hall pair hpair
    have hread : u.lead.reverse ++ [] = c :: (front.reverse ++ (u.before ++ ['<', '>']).reverse) := by
      simp [Surroundings.lead, hafter]
    rw [hread]
    exact turns_attached hc hne hopens filler _
  · exact hopens.turns hcalm filler _

/-- The words that the first slot stands for in the end. -/
def firstWords (required optional : List (List Char)) (first : List Char) : List (List Char) :=
  if first = holeForAll then orEmpty (required ++ optional) else [first]

/-- All words of a usage line, in which an empty one stands for a hole that nothing is put into. -/
def allWords (required optional : List (List Char)) (first : List Char)
    (words : List (List Char)) : List (List Char) :=
  firstWords required optional first
    ++ words.flatMap fun word => orEmpty (slotWords required optional word)

theorem firstWords_ne_nil (required optional : List (List Char)) (first : List Char) :
    firstWords required optional first ≠ [] := by
  unfold firstWords
  split
  · exact orEmpty_ne_nil _
  · simp

theorem slotWords_nonempty (hrequired : ∀ word ∈ required, IsWord word)
    (hoptional : ∀ word ∈ optional, IsWord word) {slot : List Char} (hslot : IsSlot slot) :
    ∀ word ∈ slotWords required optional slot, word ≠ [] := by
  intro word hword
  rcases mem_slotWords hslot hword with hmem | hmem | hword
  · exact (hrequired word hmem).nonempty
  · exact (hoptional word hmem).nonempty
  · exact hword.nonempty

/-- The words of a list of slots without the empty ones are those that the slots stand for. -/
theorem filter_slotWords (hrequired : ∀ word ∈ required, IsWord word)
    (hoptional : ∀ word ∈ optional, IsWord word) (hwords : ∀ word ∈ words, IsSlot word) :
    (words.flatMap fun word => orEmpty (slotWords required optional word)).filter (!·.isEmpty)
      = words.flatMap (slotWords required optional) := by
  rw [List.filter_flatMap, List.flatMap_def, List.flatMap_def]
  refine congrArg List.flatten (List.map_congr_left fun word hword => ?_)
  have hnonempty := slotWords_nonempty hrequired hoptional (hwords word hword)
  unfold orEmpty
  split
  · rename_i hnone
    rw [hnone]
    rfl
  · exact List.filter_eq_self.mpr fun other hother => by simp [hnonempty other hother]

theorem getLast?_slotWords (hrequired : ∀ word ∈ required, IsWord word)
    (hoptional : ∀ word ∈ optional, IsWord word) (hwords : ∀ word ∈ words, IsSlot word) :
    (words.flatMap fun word => orEmpty (slotWords required optional word)).getLast? = some []
      ↔ words.getLast?.any (fun word => (slotWords required optional word).isEmpty) = true := by
  rcases List.eq_nil_or_concat words with rfl | ⟨init, last, rfl⟩
  · simp
  · rw [List.concat_eq_append] at hwords ⊢
    have hnonempty := slotWords_nonempty hrequired hoptional
      (hwords last (List.mem_append_right _ List.mem_cons_self))
    rw [List.flatMap_append, List.flatMap_singleton, List.getLast?_append, List.getLast?_concat]
    rw [Option.any_some, List.isEmpty_iff]
    by_cases hnone : slotWords required optional last = []
    · simp [orEmpty, hnone]
    · rw [orEmpty, if_neg hnone, List.getLast?_eq_some_getLast hnone, Option.some_or]
      refine iff_of_false (fun hlast => ?_) hnone
      exact hnonempty [] (Option.some.inj hlast ▸ List.getLast_mem hnone) rfl

theorem firstWords_tail (hrequired : ∀ word ∈ required, IsWord word)
    (hoptional : ∀ word ∈ optional, IsWord word) (first : List Char) :
    ∀ word ∈ (firstWords required optional first).tail, word ≠ [] := by
  unfold firstWords orEmpty
  split
  · split
    · simp
    · intro word hword
      rcases List.mem_append.mp (List.mem_of_mem_tail hword) with hword | hword
      · exact (hrequired word hword).nonempty
      · exact (hoptional word hword).nonempty
  · simp

theorem getLast?_append_eq_nil {more rest : List (List Char)} (hmore : ∀ word ∈ more, word ≠ []) :
    (more ++ rest).getLast? = some [] ↔ rest.getLast? = some [] := by
  rw [List.getLast?_append]
  cases hrest : rest.getLast? with
  | some last => rw [Option.some_or]
  | none =>
      rw [Option.none_or]
      refine iff_of_false (fun hlast => ?_) (by simp)
      exact hmore [] (List.mem_of_getLast? hlast) rfl

/-- The line that the slots become: a first slot as it is, unless it is the hole for all arguments;
then the arguments of the others, each after a separator; and a separator for a last slot without
arguments. -/
theorem line_allWords (hrequired : ∀ word ∈ required, IsWord word)
    (hoptional : ∀ word ∈ optional, IsWord word) (hwords : ∀ word ∈ words, IsSlot word) :
    u.line (allWords required optional first words)
      = List.intercalate u.sep (firstWords required optional first)
        ++ row u.sep (words.flatMap (slotWords required optional))
        ++ if words.getLast?.any (fun word => (slotWords required optional word).isEmpty)
          then u.sep else [] := by
  have hmore := firstWords_tail hrequired hoptional first
  obtain ⟨head, more, hsplit⟩ :=
    List.exists_cons_of_ne_nil (firstWords_ne_nil required optional first)
  rw [hsplit, List.tail_cons] at hmore
  have hkept : more.filter (!·.isEmpty) = more :=
    List.filter_eq_self.mpr fun word hword => by simp [hmore word hword]
  rw [line, allWords, hsplit, List.cons_append, List.headD_cons, List.tail_cons, row_withoutGaps,
    List.filter_append, hkept, filter_slotWords hrequired hoptional hwords, row_append,
    intercalate_cons]
  simp only [getLast?_append_eq_nil hmore, getLast?_slotWords hrequired hoptional hwords,
    List.append_assoc]

theorem calm_arguments (h : u.WellFormed) {arguments : List (List Char)}
    (harguments : ∀ word ∈ arguments, IsWord word) :
    Calm argumentPairs (List.intercalate u.sep arguments) :=
  calm_intercalate h.sep_holes fun word hword => (harguments word hword).inert.holes

/-- What is put into a hole is never a hole itself. -/
theorem ne_hole_of_calm {pair : Char × Char} (hpair : pair ∈ argumentPairs) {text : List Char}
    (htext : Calm argumentPairs text) : text ≠ [pair.1, pair.2] := by
  rintro rfl
  have hnot := htext pair hpair
  simp [calm] at hnot

theorem ne_holeForRequired {text : List Char} (htext : Calm argumentPairs text) :
    text ≠ holeForRequired :=
  ne_hole_of_calm brace_mem htext

theorem ne_holeForOptional {text : List Char} (htext : Calm argumentPairs text) :
    text ≠ holeForOptional :=
  ne_hole_of_calm bracket_mem htext

/-- What three steps make of a slot are the arguments that it stands for. -/
theorem fillWord_eq (h : u.WellFormed) (hrequired : ∀ word ∈ required, IsWord word)
    (hoptional : ∀ word ∈ optional, IsWord word) (slot : List Char) :
    fillWord holeForOptional (List.intercalate u.sep optional)
      (fillWord holeForRequired (List.intercalate u.sep required)
        (fillWord holeForAll (List.intercalate u.sep (required ++ optional)) slot))
      = List.intercalate u.sep (slotWords required optional slot) := by
  have hall := calm_arguments h (List.forall_mem_append.mpr ⟨hrequired, hoptional⟩)
  unfold slotWords
  split
  · rename_i heq
    rw [heq, fillWord_self, fillWord_of_ne (ne_holeForRequired hall),
      fillWord_of_ne (ne_holeForOptional hall)]
  · rename_i hne
    rw [fillWord_of_ne hne]
    split
    · rename_i heq
      rw [heq, fillWord_self, fillWord_of_ne (ne_holeForOptional (calm_arguments h hrequired))]
    · rename_i hne
      rw [fillWord_of_ne hne]
      split
      · rename_i heq
        rw [heq, fillWord_self]
      · rename_i hne
        rw [fillWord_of_ne hne, List.intercalate_singleton]

theorem fillWord_first_eq (sep : List Char) (required optional : List (List Char))
    (first : List Char) :
    fillWord holeForAll (List.intercalate sep (required ++ optional)) first
      = List.intercalate sep (firstWords required optional first) := by
  unfold firstWords
  split
  · rename_i heq
    rw [heq, fillWord_self, intercalate_orEmpty]
  · rename_i hne
    rw [fillWord_of_ne hne, List.intercalate_singleton]

theorem filled_eq (h : u.WellFormed) (hrequired : ∀ word ∈ required, IsWord word)
    (hoptional : ∀ word ∈ optional, IsWord word) (first : List Char) (words : List (List Char)) :
    fillWord holeForAll (List.intercalate u.sep (required ++ optional)) first
      ++ row u.sep (words.map
        (fillWord holeForOptional (List.intercalate u.sep optional)
          ∘ fillWord holeForRequired (List.intercalate u.sep required)
          ∘ fillWord holeForAll (List.intercalate u.sep (required ++ optional))))
      = (allWords required optional first words).headD []
        ++ row u.sep (allWords required optional first words).tail := by
  have hmap := List.map_congr_left (l := words) fun word _ =>
    fillWord_eq h hrequired hoptional word
  obtain ⟨head, more, hsplit⟩ :=
    List.exists_cons_of_ne_nil (firstWords_ne_nil required optional first)
  calc _ = List.intercalate u.sep (firstWords required optional first)
        ++ row u.sep (words.map fun word =>
          List.intercalate u.sep (slotWords required optional word)) := by
          rw [fillWord_first_eq, ← hmap]
          rfl
    _ = head ++ row u.sep (more
        ++ words.flatMap fun word => orEmpty (slotWords required optional word)) := by
          rw [row_map_intercalate, hsplit, intercalate_cons, row_append, List.append_assoc]
    _ = _ := by rw [allWords, hsplit, List.cons_append, List.headD_cons, List.tail_cons]

/-- The first three steps put the arguments into the row of words. -/
theorem replace_threeHoles (h : u.WellFormed) (hrequired : ∀ word ∈ required, IsWord word)
    (hoptional : ∀ word ∈ optional, IsWord word) (hfirst : u.Admits first)
    (hwords : ∀ word ∈ words, Fits word) :
    optionalHole.replace (String.ofList (List.intercalate u.sep optional))
      (requiredHole.replace (String.ofList (List.intercalate u.sep required))
        (argumentsHole.replace (String.ofList (List.intercalate u.sep (required ++ optional)))
          (String.ofList (u.lead ++ first ++ row u.sep words ++ u.tail))))
      = String.ofList (u.lead ++ (allWords required optional first words).headD []
        ++ row u.sep (allWords required optional first words).tail ++ u.tail) := by
  have hall := calm_arguments h (List.forall_mem_append.mpr ⟨hrequired, hoptional⟩)
  have hrequiredCalm := calm_arguments h hrequired
  rw [replace_argumentsHole h hfirst hwords, String.toList_ofList]
  have hslots {pair : Char × Char} (hpair : pair ∈ argumentPairs) :=
    holeOrCalm_map holeForAll
      (fun word hword => holeOrCalm_of_fits (hwords word hword) pair hpair) (hall pair hpair)
  -- The first word is no hole of another kind unless it was one before.
  have hkept {pair : Char × Char} (hpair : pair ∈ argumentPairs) :
      HoleOrCalm pair (fillWord holeForAll (List.intercalate u.sep (required ++ optional)) first)
      ∧ (fillWord holeForAll (List.intercalate u.sep (required ++ optional)) first
          = [pair.1, pair.2] →
        u.Admits (fillWord holeForAll (List.intercalate u.sep (required ++ optional)) first)) := by
    refine ⟨holeOrCalm_fillWord (holeOrCalm_of_fits hfirst.fits pair hpair) (hall pair hpair), ?_⟩
    unfold fillWord
    split
    · exact fun heq => absurd heq (ne_hole_of_calm hpair hall)
    · exact fun _ => hfirst
  have htwo := replace_standing h brace_mem requiredHole_opens requiredHole_hits
    (hkept brace_mem).1 (hkept brace_mem).2 (hslots brace_mem)
    (String.ofList (List.intercalate u.sep required))
  have hthree := replace_standing h bracket_mem optionalHole_opens optionalHole_hits
    (hkept bracket_mem).1 (hkept bracket_mem).2
    (holeOrCalm_map holeForRequired (hslots bracket_mem) (hrequiredCalm _ bracket_mem))
    (String.ofList (List.intercalate u.sep optional))
  refine (congrArg _ htwo).trans ?_
  rw [String.toList_ofList]
  refine hthree.trans ?_
  rw [String.toList_ofList, List.map_map, List.map_map, List.append_assoc u.lead,
    List.append_assoc u.lead (List.headD _ _)]
  exact congrArg (fun text => String.ofList (u.lead ++ text ++ u.tail))
    (filled_eq h hrequired hoptional first words)

theorem settled_allWords (hrequired : ∀ word ∈ required, IsWord word)
    (hoptional : ∀ word ∈ optional, IsWord word) (hfirst : u.Admits first)
    (hwords : ∀ word ∈ words, Fits word) :
    ∀ word ∈ allWords required optional first words, Settled word := by
  have hboth := List.forall_mem_append.mpr ⟨hrequired, hoptional⟩
  refine List.forall_mem_append.mpr ⟨?_, ?_⟩
  · unfold firstWords
    split
    · exact settled_orEmpty fun word hword => (hboth word hword).settled
    · simpa using settled_of_fits hfirst.fits
  · intro word hword
    obtain ⟨slot, hslot, hword⟩ := List.mem_flatMap.mp hword
    refine settled_orEmpty ?_ word hword
    unfold slotWords
    split
    · exact fun word hword => (hboth word hword).settled
    · split
      · exact fun word hword => (hrequired word hword).settled
      · split
        · exact fun word hword => (hoptional word hword).settled
        · simpa using settled_of_fits (hwords slot hslot)

theorem calm_line (h : u.WellFormed) (hwords : ∀ word ∈ words, Settled word) :
    Calm markPairs (u.line words) := by
  have hcalm : ∀ word ∈ words, Calm markPairs word := fun word hword => (hwords word hword).1
  refine Calm.append ?_ (Calm.row h.sep_marks fun word hword =>
    hcalm word (List.mem_of_mem_tail (mem_of_mem_withoutGaps hword)))
  cases words with
  | nil => exact settled_nil.1
  | cons word words => exact hcalm word List.mem_cons_self

/-- The fourth step takes superfluous separators away. -/
theorem replace_separators (h : u.WellFormed) (hwords : ∀ word ∈ words, Settled word) :
    emptySeparator.replace ""
      (String.ofList (u.lead ++ words.headD [] ++ row u.sep words.tail ++ u.tail))
      = String.ofList (u.lead ++ u.line words ++ u.tail) := by
  have hhead : Unseparated (words.headD []) := by
    cases words with
    | nil => exact settled_nil.2
    | cons word words => exact (hwords word List.mem_cons_self).2
  have hlead : Unseparated (u.lead ++ words.headD []) := by
    have hname : Unseparated ['<', '>'] := by simp [Unseparated]
    exact List.forall_mem_append.mpr ⟨List.forall_mem_append.mpr
      ⟨List.forall_mem_append.mpr ⟨h.before.unseparated, hname⟩, h.after.unseparated⟩, hhead⟩
  rw [replace_gaps h.sep hlead h.tail.unseparated
    fun word hword => (hwords word (List.mem_of_mem_tail hword)).2, line, List.append_assoc u.lead]

/-- The fifth step puts the name in. -/
theorem replace_nameHole (h : u.WellFormed) {text : List Char} (htext : Calm markPairs text)
    (name : String) :
    nameHole.replace name (String.ofList (u.lead ++ text))
      = String.ofList (u.before ++ name.toList ++ u.after ++ text) := by
  have hname : ('<', '>') ∈ markPairs := by simp [markPairs]
  refine replaceWith_of_rewrites nameHole_opens.moves ?_
  rw [String.toList_ofList, Surroundings.lead]
  simp only [List.append_assoc, List.cons_append, List.nil_append]
  refine nameHole_opens.skip (h.before.marks _ hname)
    (Rewrites.hit (takes_pair _ _ _ _ []).endFrom? ?_)
  exact nameHole_opens.skip_to_end ((h.after.marks.append htext) _ hname)

/-- The last three steps find nothing. -/
theorem replace_escaped {s : String} (h : Calm markPairs s.toList) {opening : Char}
    (hopening : (opening, '|') ∈ markPairs) (closing : Char) :
    unescapeHoles opening closing s = s :=
  (escapedHole_opens opening closing).replaceWith_of_calm (h _ hopening)

end Surroundings

open Surroundings in
/-- A usage line with its holes filled: the name stands in its hole, and the slots have become the
arguments that they stand for. -/
theorem fillHoles_eq {u : Surroundings} {required optional : List (List Char)} {first : List Char}
    {words : List (List Char)} {name : String} (h : u.WellFormed)
    (hrequired : ∀ word ∈ required, IsWord word) (hoptional : ∀ word ∈ optional, IsWord word)
    (hfirst : u.Admits first) (hwords : ∀ word ∈ words, Fits word)
    (hname : Calm markPairs name.toList) :
    fillHoles (String.ofList (u.lead ++ first ++ row u.sep words ++ u.tail)) name
        (String.ofList u.sep) (String.ofList (List.intercalate u.sep required))
        (String.ofList (List.intercalate u.sep optional))
      = String.ofList (u.before ++ name.toList ++ u.after
        ++ u.line (allWords required optional first words) ++ u.tail) := by
  have hsettled := settled_allWords hrequired hoptional hfirst hwords
  have hline := calm_line h hsettled
  have hmarks : Calm markPairs (u.before ++ name.toList ++ u.after
      ++ (u.line (allWords required optional first words) ++ u.tail)) :=
    ((h.before.marks.append hname).append h.after.marks).append (hline.append h.tail.marks)
  rw [← String.toList_ofList (l := _ ++ _)] at hmarks
  unfold fillHoles
  rw [all_eq hrequired hoptional]
  simp only [replace_threeHoles h hrequired hoptional hfirst hwords, replace_separators h hsettled]
  rw [List.append_assoc u.lead, replace_nameHole h (hline.append h.tail.marks),
    replace_escaped hmarks (by simp [markPairs]), replace_escaped hmarks (by simp [markPairs]),
    replace_escaped hmarks (by simp [markPairs]), ← List.append_assoc]

end PluginHelp.Header
