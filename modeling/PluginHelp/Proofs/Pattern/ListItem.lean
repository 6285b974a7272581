/-
The leaders of list items.

A line begins a list item with a bullet, or with a number and a dot, and a blank after that.
`itemText?` reads off what the item says.  It agrees with the pattern for list items: the leader
begins where the blanks end, since neither a bullet nor a digit is a blank, and the pattern finds it
there without looking for another place.
-/
import PluginHelp.Pattern.Markup
import PluginHelp.Proofs.Pattern.Anchored

namespace PluginHelp

namespace Text

/-- The code points of the blanks beyond ASCII. -/
def foreignBlanks : List Nat :=
  [0x85, 0xA0, 0x1680, 0x2000, 0x2001, 0x2002, 0x2003, 0x2004, 0x2005, 0x2006, 0x2007, 0x2008,
    0x2009, 0x200A, 0x2028, 0x2029, 0x202F, 0x205F, 0x3000]

/-- A digit is not a blank. -/
theorem isBlank_of_isDigit {c : Char} (h : isDigit c = true) : isBlank c = false := by
  rw [Bool.eq_false_iff]
  intro hblank
  simp only [isBlank, Bool.or_eq_true, Bool.and_eq_true, decide_eq_true_eq, beq_iff_eq] at hblank
  unfold isDigit at h
  split at h
  · rename_i hascii
    have hrange : 48 ≤ c.toNat ∧ c.toNat ≤ 57 := by
      obtain ⟨hlow, hhigh⟩ := Bool.and_eq_true_iff.mp h
      exact ⟨of_decide_eq_true hlow, of_decide_eq_true hhigh⟩
    omega
  · rename_i hforeign
    have hmem : c.toNat ∈ foreignBlanks := by
      simp only [foreignBlanks, List.mem_cons, List.not_mem_nil, or_false]
      omega
    have hout : ∀ n ∈ foreignBlanks,
        ((foreignDigits.changes.takeWhile (· ≤ n)).length % 2 == 1) = false := by decide +kernel
    rw [CharSet.mem, hout _ hmem] at h
    cases h

end Text

namespace Pattern

open PluginHelp.Text

variable {c : Char}

/-! ### Leaders -/

/-- A bullet of a list item. -/
def isBullet (c : Char) : Bool :=
  c == '*' || c == '+' || c == '-'

/-- A leader of a list item: a bullet, or a number and a dot. -/
inductive Leads : List Char → Prop
  | bullet {c : Char} (h : isBullet c = true) : Leads [c]
  | number {digits : List Char} (hne : digits ≠ []) (h : ∀ c ∈ digits, isDigit c = true) :
    Leads (digits ++ ['.'])

/-- What stands after the leader that a text begins with. -/
def afterLeader? : List Char → Option (List Char)
  | [] => none
  | c :: rest =>
    if isBullet c then
      some rest
    else if isDigit c && (rest.dropWhile isDigit).head? == some '.' then
      some (rest.dropWhile isDigit).tail
    else
      none

/-- What a line that begins a list item says after its leader. -/
def itemText? (line : List Char) : Option (List Char) :=
  (afterLeader? (line.dropWhile isBlank)).bind fun tail =>
    if tail.head?.any isBlank then some (tail.dropWhile isBlank) else none

theorem isBullet_cases (h : isBullet c = true) : c = '*' ∨ c = '+' ∨ c = '-' := by
  simpa [isBullet, or_assoc] using h

theorem isBlank_of_isBullet (h : isBullet c = true) : isBlank c = false := by
  rcases isBullet_cases h with rfl | rfl | rfl <;> rfl

theorem isBullet_of_isDigit (h : isDigit c = true) : isBullet c = false := by
  rw [Bool.eq_false_iff]
  intro hbullet
  rcases isBullet_cases hbullet with rfl | rfl | rfl <;> cases h

variable {line text rest tail : List Char}

/-- A leader begins with a bullet or a digit. -/
theorem Leads.head (h : Leads text) :
    ∃ c rest, text = c :: rest ∧ (isBullet c = true ∨ isDigit c = true) := by
  cases h with
  | bullet hc => exact ⟨_, [], rfl, .inl hc⟩
  | number hne hdigits =>
      obtain ⟨c, digits, rfl⟩ := List.exists_cons_of_ne_nil hne
      exact ⟨c, digits ++ ['.'], rfl, .inr (hdigits c List.mem_cons_self)⟩

/-- A leader does not begin with a blank. -/
theorem Leads.not_blank (h : Leads text) (hc : (text ++ tail).head? = some c) :
    isBlank c = false := by
  obtain ⟨d, rest, rfl, hd⟩ := h.head
  obtain rfl : d = c := Option.some.inj hc
  rcases hd with hd | hd
  · exact isBlank_of_isBullet hd
  · exact isBlank_of_isDigit hd

/-- Digits in a row end where there is no digit. -/
theorem dropWhile_digits {digits : List Char} (h : ∀ c ∈ digits, isDigit c = true) :
    (digits ++ '.' :: tail).dropWhile isDigit = '.' :: tail := by
  rw [List.dropWhile_append_of_pos h]
  rfl

theorem afterLeader?_eq_some_iff :
    afterLeader? text = some tail ↔ ∃ leader, Leads leader ∧ text = leader ++ tail := by
  constructor
  · intro h
    cases text with
    | nil => cases h
    | cons c rest =>
        rw [afterLeader?] at h
        split at h
        · rename_i hbullet
          exact ⟨[c], .bullet hbullet, by rw [Option.some.inj h]; rfl⟩
        · split at h
          · rename_i hnumber
            obtain ⟨hdigit, hdot⟩ := Bool.and_eq_true_iff.mp hnumber
            obtain ⟨after, hafter⟩ := List.head?_eq_some_iff.mp (beq_iff_eq.mp hdot)
            rw [hafter, List.tail_cons, Option.some.injEq] at h
            refine ⟨c :: rest.takeWhile isDigit ++ ['.'], .number (List.cons_ne_nil _ _) ?_, ?_⟩
            · exact List.forall_mem_cons.mpr ⟨hdigit, List.all_eq_true.mp List.all_takeWhile⟩
            · rw [List.append_assoc, List.singleton_append, ← h, ← hafter, List.cons_append,
                List.takeWhile_append_dropWhile]
          · cases h
  · rintro ⟨leader, hleads, rfl⟩
    cases hleads with
    | bullet hc => exact if_pos hc
    | @number digits hne hdigits =>
        obtain ⟨c, digits, rfl⟩ := List.exists_cons_of_ne_nil hne
        obtain ⟨hc, hdigits⟩ := List.forall_mem_cons.mp hdigits
        rw [List.append_assoc, List.singleton_append, List.cons_append, afterLeader?,
          dropWhile_digits hdigits, isBullet_of_isDigit hc, hc]
        rfl

/-! ### Lines that begin a list item -/

/-- A line is cut into blanks, a leader, blanks again and what the item says. -/
structure Itemizes (line gap leader sep rest : List Char) : Prop where
  line_eq : line = gap ++ (leader ++ (sep ++ rest))
  gap_blank : ∀ c ∈ gap, isBlank c = true
  leads : Leads leader
  sep_ne : sep ≠ []
  sep_blank : ∀ c ∈ sep, isBlank c = true
  rest_not_blank : ∀ c, rest.head? = some c → isBlank c = false

theorem itemText?_eq_some_iff :
    itemText? line = some rest ↔ ∃ gap leader sep, Itemizes line gap leader sep rest := by
  constructor
  · intro h
    obtain ⟨tail, htail, hrest⟩ := Option.bind_eq_some_iff.mp h
    obtain ⟨leader, hleads, hline⟩ := afterLeader?_eq_some_iff.mp htail
    split at hrest
    · rename_i hblank
      obtain rfl := Option.some.inj hrest
      refine ⟨line.takeWhile isBlank, leader, tail.takeWhile isBlank, ?_,
        List.all_eq_true.mp List.all_takeWhile, hleads, ?_,
        List.all_eq_true.mp List.all_takeWhile, head?_dropWhile isBlank tail⟩
      · rw [List.takeWhile_append_dropWhile, ← hline, List.takeWhile_append_dropWhile]
      · cases tail with
        | nil => cases hblank
        | cons c tail =>
            have hc : isBlank c = true := hblank
            rw [List.takeWhile_cons_of_pos hc]
            exact List.cons_ne_nil _ _
    · cases hrest
  · rintro ⟨gap, leader, sep, h⟩
    have hdrop : line.dropWhile isBlank = leader ++ (sep ++ rest) := by
      rw [h.line_eq]
      exact dropWhile_indent h.gap_blank fun c hc => h.leads.not_blank hc
    have hafter := afterLeader?_eq_some_iff.mpr ⟨leader, h.leads, hdrop⟩
    obtain ⟨c, sep, rfl⟩ := List.exists_cons_of_ne_nil h.sep_ne
    rw [itemText?, hafter, Option.bind_some, if_pos, dropWhile_indent h.sep_blank h.rest_not_blank]
    exact h.sep_blank c List.mem_cons_self

/-! ### The pattern -/

theorem spells_leader :
    Spells (one (fun c => c == '*' || c == '+' || c == '-') <|> oneOrMore (one isDigit) ++ char '.')
      Leads := by
  refine ((spells_one _).alt
    (((spells_one _).seq (spells_many_one _)).seq (spells_char '.'))).mono ?_
  rintro _ (⟨c, rfl, hc⟩ | ⟨_, _, rfl, ⟨_, digits, rfl, ⟨c, rfl, hc⟩, hdigits⟩, rfl⟩)
  · exact .bullet hc
  · exact .number (by simp) (List.forall_mem_cons.mpr ⟨hc, hdigits⟩)

theorem takes_leader {leader : List Char} (h : Leads leader) (read : List Char) :
    Takes (one (fun c => c == '*' || c == '+' || c == '-') <|> oneOrMore (one isDigit) ++ char '.')
      ⟨read, leader ++ tail, []⟩ ⟨leader.reverse ++ read, tail, []⟩ := by
  cases h with
  | bullet hc => exact (takes_one hc).alt
  | @number digits hne hdigits =>
      have hdigit : Takes (oneOrMore (one isDigit)) ⟨read, digits ++ '.' :: tail, []⟩
          ⟨digits.reverse ++ read, '.' :: tail, []⟩ := by
        refine takes_oneOrMore hne hdigits ?_ read
        rintro c ⟨⟩
        rfl
      rw [List.append_assoc, List.reverse_append]
      refine (hdigit.seq (takes_char '.' _ _ _)).altSecond (refuses_one_of_rest ?_)
      obtain ⟨c, digits, rfl⟩ := List.exists_cons_of_ne_nil hne
      rintro d ⟨⟩
      exact isBullet_of_isDigit (hdigits _ List.mem_cons_self)

theorem spells_listItem : Spells listItem fun text => ∃ gap leader sep,
    text = gap ++ (leader ++ sep) ∧ (∀ c ∈ gap, isBlank c = true) ∧ Leads leader ∧ sep ≠ []
      ∧ ∀ c ∈ sep, isBlank c = true := by
  refine ((spells_indent.seq (spells_leader.capture 1)).seq
    ((spells_one _).seq (spells_many_one _))).mono ?_
  rintro _ ⟨_, _, rfl, ⟨gap, leader, rfl, hgap, hleader⟩, _, sep, rfl, ⟨c, rfl, hc⟩, hsep⟩
  exact ⟨gap, leader, c :: sep, by simp, hgap, hleader, List.cons_ne_nil _ _,
    List.forall_mem_cons.mpr ⟨hc, hsep⟩⟩

theorem Itemizes.takes {gap leader sep : List Char} (h : Itemizes line gap leader sep rest) :
    ∃ t, Takes listItem (.start line) t ∧ t.rest = rest
      ∧ t.captured = [(1, String.ofList leader)] := by
  have hindent : Takes (atStart ++ blanks) (.start line)
      ⟨gap.reverse, leader ++ (sep ++ rest), []⟩ := by
    rw [h.line_eq]
    exact takes_indent h.gap_blank fun c hc => h.leads.not_blank hc
  exact ⟨_, (hindent.seq ((takes_leader h.leads gap.reverse).capture 1)).seq
    (takes_oneOrMore h.sep_ne h.sep_blank h.rest_not_blank _), rfl, rfl⟩

/-- Without its match, a line that begins a list item is what the item says. -/
theorem Itemizes.replace {line : String} {gap leader sep : List Char}
    (h : Itemizes line.toList gap leader sep rest) :
    listItem.replace "" line = String.ofList rest := by
  have hmoves : Moves listItem := by
    refine spells_listItem.moves ?_
    rintro _ ⟨gap, leader, sep, rfl, -, -, hne, -⟩
    simp [hne]
  have hanchored : Anchored listItem := anchored_atStart.seq.seq.seq
  obtain ⟨t, ht, hrest, -⟩ := h.takes
  rw [hanchored.replace_of_takes hmoves ht, hrest]

/-- Where the pattern does not match, there is no list item. -/
theorem itemText?_of_match?_none {line : String} (h : listItem.match? line = none) :
    itemText? line.toList = none := by
  cases htext : itemText? line.toList with
  | none => rfl
  | some rest =>
      obtain ⟨gap, leader, sep, hitem⟩ := itemText?_eq_some_iff.mp htext
      obtain ⟨t, ht, -⟩ := hitem.takes
      rw [ht.match?] at h
      cases h

/-- Where the pattern matches, the list item says what is left without the match. -/
theorem itemText?_of_match? {line : String} {found : Match} (h : listItem.match? line = some found) :
    itemText? line.toList = some (listItem.replace "" line).toList := by
  obtain ⟨_, back, hline, gap, leader, sep, rfl, hgap, hleads, hne, hsep⟩ :=
    spells_listItem.of_fits (by rw [fits, h, Option.isSome_some])
  -- The pattern takes all blanks after the leader, whatever way through it was found.
  have hitem : Itemizes line.toList gap leader (sep ++ back.takeWhile isBlank)
      (back.dropWhile isBlank) := by
    refine ⟨?_, hgap, hleads, by simp [hne], ?_, head?_dropWhile isBlank back⟩
    · rw [hline, List.append_assoc, List.append_assoc, List.append_assoc,
        List.takeWhile_append_dropWhile]
    · intro c hc
      rcases List.mem_append.mp hc with hc | hc
      · exact hsep c hc
      · exact List.all_eq_true.mp List.all_takeWhile c hc
  rw [hitem.replace, String.toList_ofList]
  exact itemText?_eq_some_iff.mpr ⟨_, _, _, hitem⟩

end Pattern

end PluginHelp
