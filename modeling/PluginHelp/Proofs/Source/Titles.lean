/-
Titles of sections.

In the title of a section commas and backslashes are written with a backslash before them, as a
comma ends the title.  Taking the backslashes out again gives the title back, though this is done in
two passes: the pass for the commas never takes the second half of a backslash for the first half of
an escaped comma, since a comma is never written alone.

The pattern reads a title as characters, escaped or not, and one more that is no blank.  All the
characters of the title are tried first.  Then there is nothing left for the one more, or a comma is
and the identifier cannot be read.  So the last character has to be the one more.  This fails if it
is the only one, or if it is written with a backslash: such titles are not accepted.
-/
import PluginHelp.Proofs.Source.Directives

namespace PluginHelp

open PluginHelp.Text

/-! ### Escaping -/

namespace DocLine

variable {c : Char} {title rest : List Char}

/-- Whether a character of a title is written with a backslash before it. -/
def isEscaped (c : Char) : Bool :=
  c == ',' || c == '\\'

/-- A character of a title as it is written. -/
def escapeChar (c : Char) : List Char :=
  if isEscaped c then ['\\', c] else [c]

/-- The characters of a title as they are written. -/
def escape (title : List Char) : List Char :=
  title.flatMap escapeChar

/-- A title as it is written. -/
def escapeTitle (title : String) : String :=
  String.ofList (escape title.toList)

theorem escape_cons (c : Char) (title : List Char) :
    escape (c :: title) = escapeChar c ++ escape title :=
  List.flatMap_cons

theorem escape_concat (title : List Char) (c : Char) :
    escape (title ++ [c]) = escape title ++ escapeChar c := by
  simp [escape]

theorem exists_escapeChar (c : Char) :
    isEscaped c = true ∧ escapeChar c = ['\\', c]
      ∨ isEscaped c = false ∧ c ≠ ',' ∧ c ≠ '\\' ∧ escapeChar c = [c] := by
  cases h : isEscaped c with
  | true => exact Or.inl ⟨rfl, by rw [escapeChar, h, if_pos rfl]⟩
  | false =>
      have hne := h
      simp only [isEscaped, Bool.or_eq_false_iff, beq_eq_false_iff_ne] at hne
      exact Or.inr ⟨rfl, hne.1, hne.2, by rw [escapeChar, h]; rfl⟩

theorem getLast?_escape (title : List Char) : (escape title).getLast? = title.getLast? := by
  rcases List.eq_nil_or_concat title with rfl | ⟨front, c, rfl⟩
  · rfl
  · rw [List.concat_eq_append, escape_concat, List.getLast?_concat]
    rcases exists_escapeChar c with ⟨-, hc⟩ | ⟨-, -, -, hc⟩
    · rw [hc]
      simp
    · rw [hc]
      simp

theorem escape_ne_nil (c : Char) (title : List Char) : escape (c :: title) ≠ [] := by
  rw [escape_cons]
  rcases exists_escapeChar c with ⟨-, hc⟩ | ⟨-, -, -, hc⟩
  · simp [hc]
  · simp [hc]

/-- What is written of a title does not begin with a comma. -/
theorem head?_escape_ne (title : List Char) : (escape title).head? ≠ some ',' := by
  cases title with
  | nil => simp [escape]
  | cons c title =>
      rw [escape_cons]
      rcases exists_escapeChar c with ⟨-, hc⟩ | ⟨-, hcomma, -, hc⟩
      · simp [hc]
      · simpa [hc] using hcomma

theorem unescapeCommas_cons (h : c = '\\' → rest.head? ≠ some ',') :
    unescapeCommas (c :: rest) = c :: unescapeCommas rest := by
  rw [unescapeCommas.eq_def]
  split
  · rename_i heq
    obtain ⟨rfl, rfl⟩ := List.cons.inj heq
    exact absurd rfl (h rfl)
  · rename_i heq
    obtain ⟨rfl, rfl⟩ := List.cons.inj heq
    rfl
  · rename_i heq
    cases heq

theorem unescapeBackslashes_cons (h : c ≠ '\\') :
    unescapeBackslashes (c :: rest) = c :: unescapeBackslashes rest := by
  rw [unescapeBackslashes.eq_def]
  split
  · rename_i heq
    exact absurd (List.cons.inj heq).1 h
  · rename_i heq
    obtain ⟨rfl, rfl⟩ := List.cons.inj heq
    rfl
  · rename_i heq
    cases heq

/-- Both passes together give a title back. -/
theorem unescape_escape (title : List Char) :
    unescapeBackslashes (unescapeCommas (escape title)) = title := by
  induction title with
  | nil => rfl
  | cons c title ih =>
      rw [escape_cons]
      rcases exists_escapeChar c with ⟨hescaped, hc⟩ | ⟨-, hcomma, hbackslash, hc⟩
      · rw [hc]
        rcases Bool.or_eq_true_iff.mp hescaped with hcomma | hbackslash
        · rw [beq_iff_eq.mp hcomma]
          show unescapeBackslashes (',' :: unescapeCommas (escape title)) = _
          rw [unescapeBackslashes_cons (by decide), ih]
        · rw [beq_iff_eq.mp hbackslash]
          show unescapeBackslashes (unescapeCommas ('\\' :: '\\' :: escape title)) = _
          rw [unescapeCommas_cons (by simp), unescapeCommas_cons fun _ => head?_escape_ne title]
          show '\\' :: unescapeBackslashes (unescapeCommas (escape title)) = _
          rw [ih]
      · rw [hc, List.singleton_append, unescapeCommas_cons fun h => absurd h hbackslash,
          unescapeBackslashes_cons hbackslash, ih]

theorem plainTitle_escapeTitle (title : String) : plainTitle (escapeTitle title) = title := by
  rw [plainTitle, escapeTitle, String.toList_ofList, unescape_escape, String.ofList_toList]

/-- A title that can be read: there is a character before its last one, which is not escaped. -/
def isReadable (title : List Char) : Bool :=
  decide (2 ≤ title.length) && title.getLast?.any (!isEscaped ·)

theorem isReadable_append {front more : List Char} (hfront : front ≠ [])
    (hlast : more.getLast? = some c) (hc : isEscaped c = false) :
    isReadable (front ++ more) = true := by
  have hmore : more ≠ [] := by
    rintro rfl
    cases hlast
  have hlength := List.length_pos_iff.mpr hfront
  have hlength' := List.length_pos_iff.mpr hmore
  rw [isReadable, Bool.and_eq_true, decide_eq_true_eq, List.length_append, List.getLast?_append,
    hlast]
  refine ⟨by omega, ?_⟩
  simp [hc]

theorem exists_concat_of_isReadable (h : isReadable title = true) :
    ∃ front c, title = front ++ [c] ∧ front ≠ [] ∧ isEscaped c = false := by
  obtain ⟨hlength, hlast⟩ := Bool.and_eq_true_iff.mp h
  rcases List.eq_nil_or_concat title with rfl | ⟨front, c, rfl⟩
  · cases hlast
  · rw [List.concat_eq_append] at hlength hlast ⊢
    refine ⟨front, c, rfl, ?_, by simpa using hlast⟩
    rintro rfl
    simp at hlength

end DocLine

/-! ### Characters of a title -/

namespace Pattern

open DocLine

variable {read rest : List Char} {captured : List (Nat × String)} {c : Char}

/-- A character of a title, escaped or not. -/
def titleUnit : Pattern :=
  one (fun c => c != '\\' && c != ',') <|> char '\\' ++ one (· != '\n')

/-- What may follow a title. -/
def titleTail : Pattern :=
  optional (char ',' ++ blanks ++ capture 2 dashedName) ++ atEnd

/-- What the pattern takes for a character of a title. -/
def IsTitleUnit (text : List Char) : Prop :=
  (∃ c, text = [c] ∧ c ≠ ',' ∧ c ≠ '\\') ∨ ∃ c, text = ['\\', c]

theorem spells_titleUnit : Spells titleUnit IsTitleUnit := by
  refine ((spells_one _).alt ((spells_char _).seq (spells_one _))).mono ?_
  rintro _ (⟨c, rfl, hc⟩ | ⟨_, _, rfl, rfl, c, rfl, -⟩)
  · have hplain : c ≠ '\\' ∧ c ≠ ',' := by simpa using hc
    exact Or.inl ⟨c, rfl, hplain.2, hplain.1⟩
  · exact Or.inr ⟨c, rfl⟩

theorem refuses_titleUnit (h : ∀ c, rest.head? = some c → c = ',') :
    Refuses titleUnit ⟨read, rest, captured⟩ := by
  refine spells_titleUnit.refuses ?_
  rintro _ back (⟨c, rfl, hcomma, -⟩ | ⟨c, rfl⟩) hrest
  · exact hcomma (h c (congrArg List.head? hrest))
  · cases h '\\' (congrArg List.head? hrest)

/-- A character of a title is read in one way. -/
theorem steps_titleUnit (h : c ≠ '\n') : Steps titleUnit (escapeChar c) := by
  rcases exists_escapeChar c with ⟨-, hc⟩ | ⟨-, hcomma, hbackslash, hc⟩
  · rw [hc]
    refine Steps.altSecond ((steps_one BEq.rfl).seq (steps_one (bne_iff_ne.mpr h))) ?_
    intro read rest captured
    refine refuses_one_of_rest ?_
    rintro d ⟨⟩
    rfl
  · rw [hc]
    refine Steps.altFirst (steps_one (by simp [hcomma, hbackslash])) ?_
    intro read rest captured
    refine Refuses.seq (refuses_one_of_rest ?_)
    rintro d ⟨⟩
    simpa using hbackslash

/-- The first character of what is written is read as it is written. -/
theorem unit_eq {unit back : List Char} (hunit : IsTitleUnit unit)
    (h : unit ++ back = escapeChar c ++ rest) : back = rest := by
  rcases hunit with ⟨d, rfl, -, hbackslash⟩ | ⟨d, rfl⟩
  · rcases exists_escapeChar c with ⟨-, hc⟩ | ⟨-, -, -, hc⟩
    · rw [hc] at h
      exact absurd (List.cons.inj h).1 hbackslash
    · rw [hc] at h
      exact (List.cons.inj h).2
  · rcases exists_escapeChar c with ⟨-, hc⟩ | ⟨-, -, hbackslash, hc⟩
    · rw [hc] at h
      exact (List.cons.inj (List.cons.inj h).2).2
    · rw [hc] at h
      exact absurd (List.cons.inj h).1.symm hbackslash

/-- Characters that are read of a title are the first ones of it. -/
theorem exists_split {units : List (List Char)} {back : List Char}
    (hunits : ∀ unit ∈ units, IsTitleUnit unit) (hrest : ∀ c, rest.head? = some c → c = ',') :
    ∀ {title : List Char}, units.flatten ++ back = escape title ++ rest →
      ∃ front more, title = front ++ more ∧ front.length = units.length
        ∧ back = escape more ++ rest := by
  induction units with
  | nil => exact fun h => ⟨[], _, rfl, rfl, h⟩
  | cons unit units ih =>
      intro title h
      obtain ⟨hunit, hmore⟩ := List.forall_mem_cons.mp hunits
      rw [List.flatten_cons, List.append_assoc] at h
      cases title with
      | nil =>
          rcases hunit with ⟨c, rfl, hcomma, -⟩ | ⟨c, rfl⟩
          · exact absurd (hrest c (congrArg List.head? h.symm)) hcomma
          · cases hrest '\\' (congrArg List.head? h.symm)
      | cons c title =>
          rw [escape_cons, List.append_assoc] at h
          obtain ⟨front, more, rfl, hlength, hback⟩ := ih hmore (unit_eq hunit h)
          exact ⟨c :: front, more, rfl, congrArg (· + 1) hlength, hback⟩

/-! ### Accepted titles -/

theorem length_le_escape (title : List Char) : title.length ≤ (escape title).length := by
  induction title with
  | nil => exact Nat.le_refl _
  | cons c title ih =>
      rw [escape_cons, List.length_append, List.length_cons]
      rcases exists_escapeChar c with ⟨-, hc⟩ | ⟨-, -, -, hc⟩
      · rw [hc, List.length_cons, List.length_singleton]
        omega
      · rw [hc, List.length_singleton]
        omega

/-- The characters of a title are read up to its last one, unless nothing is to be left for that. -/
theorem run_title {β : Type} {next : Scan → Option β} {b : β} {front : List Char}
    (hfront : front ≠ []) (hline : '\n' ∉ front ++ [c]) (hplain : isEscaped c = false)
    (hsolid : isBlank c = false) (hrest : ∀ d, rest.head? = some d → d = ',')
    (hall : solid.run next ⟨(escape (front ++ [c])).reverse ++ read, rest, captured⟩ = none)
    (hb : next ⟨(escape (front ++ [c])).reverse ++ read, rest, captured⟩ = some b) :
    (oneOrMore titleUnit ++ solid).run next ⟨read, escape (front ++ [c]) ++ rest, captured⟩
      = some b := by
  obtain ⟨first, front, rfl⟩ := List.exists_cons_of_ne_nil hfront
  have hlast : escapeChar c = [c] := by
    rw [escapeChar, hplain]
    rfl
  have hunit {d : Char} (hd : d ∈ first :: front ++ [c]) : Steps titleUnit (escapeChar d) := by
    refine steps_titleUnit ?_
    rintro rfl
    exact hline hd
  have htext : escape (first :: front ++ [c])
      = escapeChar first ++ ((front.map escapeChar).flatten ++ escapeChar c) := by
    rw [escape_concat, escape_cons, escape, List.flatMap_def, List.append_assoc]
  have hreverse (read : List Char) : (escape (first :: front ++ [c])).reverse ++ read
      = (escapeChar c).reverse
        ++ ((front.map escapeChar).flatten.reverse ++ ((escapeChar first).reverse ++ read)) := by
    rw [htext]
    simp
  rw [hreverse] at hall hb
  show titleUnit.run ((many titleUnit).run (solid.run next)) _ = some b
  rw [htext, List.append_assoc, List.append_assoc, hunit (by simp)]
  refine greedily_back (front.map escapeChar) (escapeChar c) ?_ (hunit (by simp))
    (fun read => refuses_titleUnit hrest) _ _ ?_ hall ?_
  · refine List.forall_mem_map.mpr fun d hd => hunit ?_
    simp [hd]
  · have hlength := length_le_escape front
    rw [escape, List.flatMap_def] at hlength
    rw [List.length_map, List.length_append, hlast, List.length_append, List.length_singleton]
    omega
  · rw [hlast] at hb ⊢
    exact takes_one (by rw [hsolid]; rfl) next b hb

/-- A title with what follows it, if that can be read only right behind the title. -/
theorem takes_sectionTitle {front : List Char} {t : Scan} (hfront : front ≠ [])
    (hline : '\n' ∉ front ++ [c]) (hplain : isEscaped c = false) (hsolid : isBlank c = false)
    (hrest : ∀ d, rest.head? = some d → d = ',')
    (hskip : ∀ d more, rest = d :: more →
      ∀ read captured, Refuses titleTail ⟨read, more, captured⟩)
    (htail : Takes titleTail ⟨(escape (front ++ [c])).reverse, rest,
      [(1, String.ofList (escape (front ++ [c])))]⟩ t) :
    Takes sectionTitle (.start (escape (front ++ [c]) ++ rest)) t := by
  intro β next b hb
  show (oneOrMore titleUnit ++ solid).run (fun u => titleTail.run next
    (u.capture 1 (.start (escape (front ++ [c]) ++ rest)))) (.start _) = some b
  refine run_title hfront hline hplain hsolid hrest ?_ ?_
  · -- The one more would come from behind the title.
    cases rest with
    | nil => rfl
    | cons d more =>
        show (if _ then titleTail.run next _ else none) = none
        split
        · exact hskip d more rfl _ _ next
        · rfl
  · rw [Scan.capture, Scan.since_eq rfl, List.append_nil]
    exact htail next b hb

theorem takes_titleTail_end (read : List Char) (captured : List (Nat × String)) :
    Takes titleTail ⟨read, [], captured⟩ ⟨read, [], captured⟩ := by
  have hcomma : Refuses (char ',') ⟨read, [], captured⟩ := fun _ _ => rfl
  exact hcomma.seq.seq.optional.seq (takes_test rfl)

theorem takes_titleTail_id {id : List Char} (hid : isDashedName id = true) (read : List Char)
    (captured : List (Nat × String)) :
    Takes titleTail ⟨read, ',' :: ' ' :: id, captured⟩
      ⟨id.reverse ++ ' ' :: ',' :: read, [], (2, String.ofList id) :: captured⟩ := by
  have hblank : Takes blanks ⟨',' :: read, [' '] ++ id, captured⟩
      ⟨' ' :: ',' :: read, id, captured⟩ := by
    refine takes_many_one (by simp; rfl) (fun c hc => ?_) _
    exact isBlank_of_isDashedRest (isDashedRest_of_isDashedName hid c (List.mem_of_head? hc))
  have hname : Takes dashedName ⟨' ' :: ',' :: read, id ++ [], captured⟩
      ⟨id.reverse ++ ' ' :: ',' :: read, [], captured⟩ :=
    takes_dashedName hid (by simp) _
  have hcaptured := hname.capture 2
  rw [List.append_nil] at hcaptured
  exact (((takes_char ',' _ _ _).seq hblank).seq hcaptured).alt.seq (takes_test rfl)

/-- An identifier is not read without the comma before it. -/
theorem refuses_titleTail {id : List Char} (read : List Char) (captured : List (Nat × String)) :
    Refuses titleTail ⟨read, ' ' :: id, captured⟩ := by
  refine refuses_of_not_reaches fun t ht => ?_
  obtain ⟨u, hoptional, hend⟩ := ht.of_seq
  obtain ⟨rfl, hend⟩ := hend.of_test
  cases hoptional with
  | altFirst hgiven =>
      obtain ⟨_, -, hrest, _, _, rfl, ⟨_, _, rfl, rfl, -⟩, -⟩ :=
        (((spells_char ',').seq (spells_any _)).seq (spells_any _)) _ _ hgiven
      cases hrest
  | altSecond hmissing =>
      cases hmissing
      cases hend

/-! ### Titles that are not accepted -/

theorem spells_title :
    Spells (capture 1 (oneOrMore titleUnit ++ solid)) fun text => ∃ units c,
      text = units.flatten ++ [c] ∧ units ≠ [] ∧ ∀ unit ∈ units, IsTitleUnit unit := by
  refine (((spells_titleUnit.seq spells_titleUnit.many).seq (spells_one _)).capture 1).mono ?_
  rintro _ ⟨_, _, rfl, ⟨unit, _, rfl, hunit, units, rfl, hunits⟩, c, rfl, -⟩
  exact ⟨unit :: units, c, rfl, List.cons_ne_nil _ _, List.forall_mem_cons.mpr ⟨hunit, hunits⟩⟩

theorem spells_titleId :
    Spells (optional (char ',' ++ blanks ++ capture 2 dashedName)) fun text => text = []
      ∨ ∃ gap id, text = ',' :: (gap ++ id) ∧ (∀ c ∈ gap, isBlank c = true)
        ∧ isDashedName id = true := by
  refine (((spells_char ',').seq (spells_many_one _)).seq
    (spells_dashedName.capture 2)).optional.mono ?_
  rintro _ (⟨_, id, rfl, ⟨_, gap, rfl, rfl, hgap⟩, hid⟩ | rfl)
  · exact Or.inr ⟨gap, id, rfl, hgap, hid⟩
  · exact Or.inl rfl

/-- What the pattern reads: characters, one more, and perhaps an identifier. -/
theorem exists_parts_of_sectionTitle {text : List Char} {t : Scan} (hline : '\n' ∉ text)
    (h : Reaches sectionTitle (.start text) t) :
    ∃ units c tail, text = units.flatten ++ c :: tail ∧ units ≠ []
      ∧ (∀ unit ∈ units, IsTitleUnit unit)
      ∧ (tail = [] ∨ ∃ gap id, tail = ',' :: (gap ++ id) ∧ (∀ d ∈ gap, isBlank d = true)
        ∧ isDashedName id = true) := by
  obtain ⟨u, hfront, hend⟩ := h.of_seq
  obtain ⟨v, hstart, htail⟩ := hfront.of_seq
  obtain ⟨w, hbegin, htitle⟩ := hstart.of_seq
  obtain ⟨rfl, -⟩ := hbegin.of_test
  obtain ⟨rfl, hend⟩ := hend.of_test
  obtain ⟨_, -, htext, units, c, rfl, hne, hunits⟩ := spells_title _ _ htitle
  obtain ⟨tail, -, hrest, hid⟩ := spells_titleId _ _ htail
  have hread : text = units.flatten ++ [c] ++ v.rest := htext
  have hall : text = units.flatten ++ c :: tail ++ t.rest := by
    rw [hread, hrest]
    simp
  have hnone : t.rest = [] := by
    rcases Bool.or_eq_true_iff.mp hend with hempty | hnewline
    · exact List.isEmpty_iff.mp hempty
    · rw [hall, beq_iff_eq.mp hnewline] at hline
      simp at hline
  rw [hnone, List.append_nil] at hall
  exact ⟨units, c, tail, hall, hne, hunits, hid⟩

theorem isEscaped_of_isDashedRest (h : isDashedRest c = true) : isEscaped c = false := by
  rw [Bool.eq_false_iff]
  intro hescaped
  rcases Bool.or_eq_true_iff.mp hescaped with hcomma | hbackslash
  · rw [beq_iff_eq.mp hcomma] at h
    cases h
  · rw [beq_iff_eq.mp hbackslash] at h
    cases h

/-- A title that ends with an escaped comma and what could be an identifier can be read whole. -/
theorem isReadable_of_given {front more rest gap id : List Char} (hfront : front ≠ [])
    (hrest : rest = [] ∨ ∃ id, rest = ',' :: ' ' :: id) (h : escape more ++ rest = gap ++ id)
    (hgap : ∀ c ∈ gap, isBlank c = true) (hid : isDashedName id = true) :
    isReadable (front ++ ',' :: more) = true := by
  have hchars := isDashedRest_of_isDashedName hid
  rcases hrest with rfl | ⟨other, rfl⟩
  · obtain ⟨c, hlast⟩ : ∃ c, id.getLast? = some c := by
      refine Option.ne_none_iff_exists'.mp fun hnone => ?_
      rw [List.getLast?_eq_none_iff.mp hnone] at hid
      cases hid
    have hmore : more.getLast? = some c := by
      rw [← getLast?_escape, ← List.append_nil (escape more), h, List.getLast?_append, hlast]
      rfl
    have hescaped := isEscaped_of_isDashedRest (hchars c (List.mem_of_getLast? hlast))
    refine isReadable_append hfront ?_ hescaped
    rw [List.getLast?_cons, hmore]
    rfl
  · have hmem : ',' ∈ gap ++ id := by
      rw [← h]
      simp
    rcases List.mem_append.mp hmem with hmem | hmem
    · cases hgap _ hmem
    · cases hchars _ hmem

/-- Only titles that can be read are accepted, with an identifier or without one. -/
theorem isReadable_of_reaches {title rest : List Char} {t : Scan}
    (hrest : rest = [] ∨ ∃ id, rest = ',' :: ' ' :: id) (hline : '\n' ∉ escape title ++ rest)
    (h : Reaches sectionTitle (.start (escape title ++ rest)) t) : isReadable title = true := by
  have hcomma : ∀ c, rest.head? = some c → c = ',' := by
    rcases hrest with rfl | ⟨id, rfl⟩
    · simp
    · rintro c ⟨⟩
      rfl
  obtain ⟨units, x, tail, htext, hne, hunits, htail⟩ := exists_parts_of_sectionTitle hline h
  obtain ⟨front, more, rfl, hlength, hback⟩ := exists_split hunits hcomma htext.symm
  have hfront : front ≠ [] := by
    rintro rfl
    exact hne (List.length_eq_zero_iff.mp hlength.symm)
  cases more with
  | nil =>
      -- The one more would be the comma before the identifier.
      rcases hrest with rfl | ⟨id, rfl⟩
      · cases hback
      · obtain ⟨-, rfl⟩ := List.cons.inj hback
        rcases htail with hnil | ⟨gap, _, hgiven, -⟩
        · cases hnil
        · cases hgiven
  | cons c more =>
      rw [escape_cons, List.append_assoc] at hback
      rcases exists_escapeChar c with ⟨-, hc⟩ | ⟨hplain, -, -, hc⟩
      · -- The one more would be a backslash, and the comma behind it would end the title.
        rw [hc] at hback
        obtain ⟨-, rfl⟩ := List.cons.inj hback
        rcases htail with hnil | ⟨gap, id, hgiven, hgap, hid⟩
        · cases hnil
        · obtain ⟨rfl, hmore⟩ := List.cons.inj hgiven
          exact isReadable_of_given hfront hrest hmore hgap hid
      · rw [hc] at hback
        obtain ⟨rfl, rfl⟩ := List.cons.inj hback
        cases more with
        | nil => exact isReadable_append hfront rfl hplain
        | cons d more =>
            obtain ⟨e, back, hback⟩ := List.exists_cons_of_ne_nil (escape_ne_nil d more)
            have hne := head?_escape_ne (d :: more)
            rw [hback] at htail hne
            rcases htail with hnil | ⟨gap, id, hgiven, -⟩
            · cases hnil
            · rw [(List.cons.inj hgiven).1] at hne
              exact absurd rfl hne

end Pattern

/-! ### Reading titles -/

namespace DocLine

variable {title : String}

theorem not_mem_escape {d : Char} {title : List Char} (hd : d ≠ '\\') (h : d ∉ title) :
    d ∉ escape title := by
  intro hmem
  obtain ⟨c, hc, hdc⟩ := List.mem_flatMap.mp hmem
  rcases exists_escapeChar c with ⟨-, hchar⟩ | ⟨-, -, -, hchar⟩
  · rw [hchar] at hdc
    rcases List.mem_cons.mp hdc with rfl | hdc
    · exact hd rfl
    · exact h (List.mem_singleton.mp hdc ▸ hc)
  · rw [hchar] at hdc
    exact h (List.mem_singleton.mp hdc ▸ hc)

/-- What is written of a title begins with no blank if the title does not. -/
theorem isBlank_head?_escape {title rest : List Char}
    (htitle : ∀ c, title.head? = some c → isBlank c = false)
    (hrest : ∀ c, rest.head? = some c → isBlank c = false) :
    ∀ c, (escape title ++ rest).head? = some c → isBlank c = false := by
  intro c hc
  cases title with
  | nil => exact hrest c hc
  | cons d title =>
      rw [escape_cons, List.append_assoc] at hc
      rcases exists_escapeChar d with ⟨-, hd⟩ | ⟨-, -, -, hd⟩
      · rw [hd] at hc
        obtain rfl := Option.some.inj hc
        rfl
      · rw [hd] at hc
        exact htitle c hc

/-- The title of a section with what follows it: nothing, or an identifier after a comma. -/
theorem ofDirective_title {tail : String} {given : Option String} {t : Scan}
    (hline : '\n' ∉ title.toList) (hlast : ∀ c, title.toList.getLast? = some c → isBlank c = false)
    (htail : tail.toList = [] ∨ ∃ id, tail.toList = ',' :: ' ' :: id)
    (hnewline : '\n' ∉ tail.toList)
    (htakes : Pattern.Takes Pattern.titleTail
      ⟨(escape title.toList).reverse, tail.toList, [(1, escapeTitle title)]⟩ t)
    (hfirst : t.captured.lookup 1 = some (escapeTitle title))
    (hsecond : t.captured.lookup 2 = given) :
    ofDirective .sect (escapeTitle title ++ tail) = if isReadable title.toList then
        .ok (.sect title (given.getD (idOfTitle title)))
      else .error (.badArguments "Section" (escapeTitle title ++ tail)) := by
  have htext : (escapeTitle title ++ tail).toList = escape title.toList ++ tail.toList := by
    simp [escapeTitle]
  split
  · rename_i hreadable
    obtain ⟨front, c, htitle, hfront, hplain⟩ := exists_concat_of_isReadable hreadable
    have hfound : Pattern.Takes Keyword.sect.arguments
        (.start (escapeTitle title ++ tail).toList) t := by
      rw [escapeTitle, htitle] at htakes
      rw [htext, htitle]
      refine Pattern.takes_sectionTitle hfront (htitle ▸ hline) hplain
        (hlast c (by rw [htitle]; simp)) ?_ ?_ htakes
      · rcases htail with htail | ⟨id, htail⟩
        · simp [htail]
        · rw [htail]
          rintro d ⟨⟩
          rfl
      · rintro d more hmore
        rcases htail with htail | ⟨id, htail⟩
        · rw [htail] at hmore
          cases hmore
        · obtain ⟨-, rfl⟩ := List.cons.inj (htail.symm.trans hmore)
          exact Pattern.refuses_titleTail
    have hmatched (s : Scan) : ofMatch .sect (Pattern.sectionTitle.found s t)
        = .sect title (given.getD (idOfTitle title)) := by
      show DocLine.sect (plainTitle _) (Option.getD _ (idOfTitle (plainTitle _))) = _
      rw [Pattern.group_found (by decide), Pattern.group?_found (by decide), hfirst, hsecond,
        Option.getD_some, plainTitle_escapeTitle]
    exact (ofDirective_of_takes hfound).trans (congrArg Except.ok (hmatched _))
  · rename_i hreadable
    refine ofDirective_of_refuses (Pattern.refuses_of_not_reaches fun u hu => hreadable ?_)
    rw [htext] at hu
    refine Pattern.isReadable_of_reaches htail (fun hmem => ?_) hu
    rcases List.mem_append.mp hmem with hmem | hmem
    · exact not_mem_escape (by decide) hline hmem
    · exact hnewline hmem

/-- A title that neither begins nor ends with a blank comes back from what is written of it, with
the identifier that is given or with its own, exactly if it has two characters or more and the last
one is neither a comma nor a backslash.  Otherwise it is not accepted. -/
theorem read_escaped_title {id : String} (hline : '\n' ∉ title.toList)
    (hfirst : ∀ c, title.toList.head? = some c → isBlank c = false)
    (hlast : ∀ c, title.toList.getLast? = some c → isBlank c = false)
    (hid : Pattern.isDashedName id.toList = true) :
    (DocLine.read ("\" @section " ++ escapeTitle title)
        = if isReadable title.toList then .ok (.sect title (idOfTitle title))
          else .error (.badArguments "Section" (escapeTitle title)))
      ∧ DocLine.read ("\" @section " ++ (escapeTitle title ++ (", " ++ id)))
        = if isReadable title.toList then .ok (.sect title id)
          else .error (.badArguments "Section" (escapeTitle title ++ (", " ++ id))) := by
  have hread (tail : String) (hnewline : '\n' ∉ tail.toList)
      (hhead : ∀ c, tail.toList.head? = some c → isBlank c = false) :
      DocLine.read ("\" @section " ++ (escapeTitle title ++ tail))
        = ofDirective .sect (escapeTitle title ++ tail) := by
    have htext : (escapeTitle title ++ tail).toList = escape title.toList ++ tail.toList := by
      simp [escapeTitle]
    refine read_directive (show Keyword.ofName? "section" = some .sect from rfl) rfl rfl ?_ ?_
    · rw [htext, List.mem_append]
      exact fun hmem => hmem.elim (not_mem_escape (by decide) hline) hnewline
    · rw [htext]
      exact isBlank_head?_escape hfirst hhead
  have hnewline : '\n' ∉ (", " ++ id).toList := by
    intro hmem
    have hmem : '\n' ∈ id.toList := by simpa using hmem
    cases Pattern.isDashedRest_of_isDashedName hid _ hmem
  constructor
  · have htitle := (hread "" (by simp) (by simp)).trans (ofDirective_title hline hlast
      (Or.inl rfl) (by simp) (Pattern.takes_titleTail_end _ _) rfl rfl)
    rwa [String.append_empty] at htitle
  · have hchars : (", " ++ id).toList = ',' :: ' ' :: id.toList := by simp
    have htail := Pattern.takes_titleTail_id hid (escape title.toList).reverse
      [(1, escapeTitle title)]
    rw [← hchars, String.ofList_toList] at htail
    refine (hread (", " ++ id) hnewline ?_).trans ?_
    · rw [hchars]
      rintro c ⟨⟩
      rfl
    · exact ofDirective_title hline hlast (Or.inr ⟨_, hchars⟩) hnewline htail rfl rfl

/-- A title of one character is not accepted, and a longer one with a comma and a backslash is. -/
theorem read_escaped_title_single :
    DocLine.read ("\" @section " ++ escapeTitle "C") = .error (.badArguments "Section" "C")
      ∧ DocLine.read ("\" @section " ++ (escapeTitle "C" ++ (", " ++ "c")))
        = .error (.badArguments "Section" "C, c")
      ∧ escapeTitle "Keys, \\ and marks" = "Keys\\, \\\\ and marks"
      ∧ DocLine.read ("\" @section " ++ escapeTitle "Keys, \\ and marks")
        = .ok (.sect "Keys, \\ and marks" (idOfTitle "Keys, \\ and marks"))
      ∧ DocLine.read ("\" @section " ++ (escapeTitle "Keys, \\ and marks" ++ (", " ++ "c")))
        = .ok (.sect "Keys, \\ and marks" "c") := by
  have hid : Pattern.isDashedName "c".toList = true := rfl
  have hsingle : '\n' ∉ "C".toList := by simp
  have hlonger : '\n' ∉ "Keys, \\ and marks".toList := by simp
  have hsolid {first c : Char} (hfirst : isBlank first = false) (hc : some first = some c) :
      isBlank c = false := by
    obtain rfl := Option.some.inj hc
    exact hfirst
  obtain ⟨hrefused, hrefusedId⟩ :=
    read_escaped_title hsingle (fun _ => hsolid rfl) (fun _ => hsolid rfl) hid
  obtain ⟨haccepted, hacceptedId⟩ :=
    read_escaped_title hlonger (fun _ => hsolid rfl) (fun _ => hsolid rfl) hid
  exact ⟨hrefused, hrefusedId, rfl, haccepted, hacceptedId⟩

end DocLine

end PluginHelp
