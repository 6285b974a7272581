/-
Which entries a line of documentation is meant for.

A doc comment may have several headers, and so several entries.  The rule is about the lines alone: a
header begins an entry, or is given to the one that the lines before it have begun; text after a
header is meant for the entry of that header, and text after `@all` for every entry that there is.
`DocComment.heard` picks out the lines that an entry hears by this rule, and `DocComment.entry` makes
the entry of nothing but those lines, in the order in which they stand, and of the line of code.

That reading a file gives these entries needs an invariant: after every line the draft has the
entries that the rule says are begun, what is selected is what the rule says the next text is meant
for, and each entry has been told the lines that it hears.
-/
import Mathlib.Data.List.Induction
import PluginHelp.Proofs.Source.Usages

namespace PluginHelp

open Act

/-! ### The rule -/

namespace DocLine

/-- Whether a line says which entries the text after it is meant for. -/
def redirects : DocLine → Bool
  | .header _ | .all => true
  | _ => false

/-- What a line does to an entry that it is meant for. -/
def tell : DocLine → Act Entry Unit
  | .header given => Draft.takeHeader given
  | .all => Entry.setKind (.flag true)
  | line => line.update

theorem all_or_header_or_plain (line : DocLine) :
    line = .all ∨ (∃ given, line = .header given) ∨ line.redirects = false := by
  cases line with
  | all => exact Or.inl rfl
  | header given => exact Or.inr (Or.inl ⟨given, rfl⟩)
  | _ => exact Or.inr (Or.inr rfl)

end DocLine

/-- What a line of code adds to the documentation above it: the initial value of a flag. -/
def CodeLine.remark : CodeLine → List DocLine
  | .flag _ (some initial) => [.text (Draft.initialLine initial)]
  | _ => []

/-- The lines of a doc comment and the line of code below them. -/
structure DocComment where
  docs : List DocLine
  code : CodeLine
deriving DecidableEq, Repr

namespace DocComment

/-- The number of entries that lines of documentation begin: one for each header, and one if there is
no header but anything other than `@all`. -/
def begun (docs : List DocLine) : Nat :=
  max (docs.countP DocLine.isHeader) (if docs.all (· == .all) then 0 else 1)

/-- The places of the entries that text is meant for, after some lines. -/
def addressed (before : List DocLine) : List Nat :=
  match before.reverse.find? DocLine.redirects with
  | none => [0]
  | some .all => List.range (max 1 (begun before))
  | some _ => [before.countP DocLine.isHeader - 1]

/-- The places of the entries that a line is meant for, after some lines. -/
def listeners (before : List DocLine) : DocLine → List Nat
  | .header _ => [before.countP DocLine.isHeader]
  | .all => List.range (begun before)
  | _ => addressed before

/-- Of the lines that follow some others, those that the entry at a place hears. -/
def heardAfter (i : Nat) (before : List DocLine) : List DocLine → List DocLine
  | [] => []
  | line :: lines =>
    (if i ∈ listeners before line then [line] else []) ++ heardAfter i (before ++ [line]) lines

/-- The lines that the entry at a place hears. -/
def heard (i : Nat) (docs : List DocLine) : List DocLine :=
  heardAfter i [] docs

/-- The number of entries of a comment.  Above a line that defines nothing known there are none, and
a flag with an initial value has at least one. -/
def count (c : DocComment) : Nat :=
  match c.code with
  | .unrecognized _ => 0
  | .flag _ (some _) => max 1 (begun c.docs)
  | _ => begun c.docs

/-- All that the entry at a place is told.  What the line of code adds is meant for the last one. -/
def linesFor (c : DocComment) (i : Nat) : List DocLine :=
  heard i c.docs ++ if i + 1 = max 1 (begun c.docs) then c.code.remark else []

/-- The entry at a place, before anything is said about it. -/
def fresh (i : Nat) : Entry :=
  { isSecondary := decide (0 < i) }

/-- The entry at a place: it is told its lines, and then completed by the line of code. -/
def entry (c : DocComment) (i : Nat) : Except Fault Entry := do
  let told := Act.each (c.linesFor i) DocLine.tell (fresh i)
  told.result
  c.code.completed told.state

/-- The entries of a comment. -/
def entries (c : DocComment) : Except Fault (List Entry) :=
  (List.range c.count).mapM c.entry

/-- The doc comments among lines, the first of which goes on with what is pending.  The last one is
that before the end of the file. -/
def among (pending : List DocLine) : List SourceLine → List DocComment
  | [] => [⟨pending, .endOfFile⟩]
  | .doc line :: lines => among (pending ++ [line]) lines
  | .code code :: lines => ⟨pending, code⟩ :: among [] lines

/-- The doc comments of a file. -/
def ofFile (lines : List String) : List DocComment :=
  among [] ((SourceLine.ofFile lines).items.map (·.2))

/-! ### One more line -/

variable {docs : List DocLine} {line : DocLine} {i : Nat}

theorem heardAfter_concat (before docs : List DocLine) (line : DocLine) :
    heardAfter i before (docs ++ [line])
      = heardAfter i before docs ++ if i ∈ listeners (before ++ docs) line then [line] else [] := by
  induction docs generalizing before with
  | nil => simp [heardAfter]
  | cons first docs ih => simp [heardAfter, ih]

theorem heard_concat (docs : List DocLine) (line : DocLine) :
    heard i (docs ++ [line]) = heard i docs ++ if i ∈ listeners docs line then [line] else [] :=
  heardAfter_concat [] docs line

theorem heard_concat_of_mem (h : i ∈ listeners docs line) :
    heard i (docs ++ [line]) = heard i docs ++ [line] := by
  rw [heard_concat, if_pos h]

theorem heard_concat_of_notMem (h : i ∉ listeners docs line) :
    heard i (docs ++ [line]) = heard i docs := by
  rw [heard_concat, if_neg h, List.append_nil]

/-- A line that does not redirect is no header. -/
theorem isHeader_of_redirects (h : line.redirects = false) : line.isHeader = false := by
  cases line with
  | header | all => cases h
  | _ => rfl

theorem countP_le_begun (docs : List DocLine) : docs.countP DocLine.isHeader ≤ begun docs :=
  Nat.le_max_left _ _

theorem begun_le_countP (docs : List DocLine) :
    begun docs ≤ max 1 (docs.countP DocLine.isHeader) := by
  unfold begun
  split <;> omega

theorem begun_all (docs : List DocLine) : begun (docs ++ [.all]) = begun docs := by
  simp [begun, DocLine.isHeader]

theorem begun_header (docs : List DocLine) (header : Header) :
    begun (docs ++ [.header header]) = docs.countP DocLine.isHeader + 1 := by
  simp [begun, DocLine.isHeader]

theorem begun_plain (docs : List DocLine) (h : line.redirects = false) :
    begun (docs ++ [line]) = max 1 (begun docs) := by
  have hall : (line == .all) = false := by
    cases line with
    | header | all => cases h
    | _ => rfl
  have hone : begun (docs ++ [line]) = max (docs.countP DocLine.isHeader) 1 := by
    simp [begun, isHeader_of_redirects h, hall]
  have := countP_le_begun docs
  have := begun_le_countP docs
  omega

theorem listeners_plain (docs : List DocLine) (h : line.redirects = false) :
    listeners docs line = addressed docs := by
  cases line with
  | header | all => cases h
  | _ => rfl

theorem addressed_all (docs : List DocLine) :
    addressed (docs ++ [.all]) = List.range (max 1 (begun docs)) := by
  unfold addressed
  rw [List.reverse_append, List.reverse_singleton, List.singleton_append,
    List.find?_cons_of_pos rfl, begun_all]

theorem addressed_header (docs : List DocLine) (header : Header) :
    addressed (docs ++ [.header header]) = [docs.countP DocLine.isHeader] := by
  unfold addressed
  rw [List.reverse_append, List.reverse_singleton, List.singleton_append,
    List.find?_cons_of_pos rfl, List.countP_append]
  rfl

theorem addressed_plain (docs : List DocLine) (h : line.redirects = false) :
    addressed (docs ++ [line]) = addressed docs := by
  unfold addressed
  rw [begun_plain docs h, List.reverse_append, List.reverse_singleton, List.singleton_append,
    List.find?_cons_of_neg (by simp [h]), List.countP_append, List.countP_singleton,
    isHeader_of_redirects h, ← Nat.max_assoc, Nat.max_self]
  rfl

/-- As long as no entry is begun, text is meant for the first one. -/
theorem addressed_of_begun_eq_zero (h : begun docs = 0) : addressed docs = [0] := by
  have hheaders : docs.countP DocLine.isHeader = 0 := by
    have := countP_le_begun docs
    omega
  unfold addressed
  rw [h, hheaders]
  split <;> rfl

/-- A line is meant for entries that there are once it is read. -/
theorem lt_begun_of_mem_listeners (h : i ∈ listeners docs line) : i < begun (docs ++ [line]) := by
  obtain rfl | ⟨header, rfl⟩ | hline := line.all_or_header_or_plain
  · rw [begun_all]
    exact List.mem_range.mp h
  · rw [begun_header, List.mem_singleton.mp h]
    exact Nat.lt_succ_self _
  · have := countP_le_begun docs
    rw [listeners_plain docs hline, addressed] at h
    rw [begun_plain docs hline]
    split at h
    · have := List.mem_singleton.mp h
      omega
    · exact List.mem_range.mp h
    · have := List.mem_singleton.mp h
      omega

theorem begun_le_concat (docs : List DocLine) (line : DocLine) :
    begun docs ≤ begun (docs ++ [line]) := by
  obtain rfl | ⟨header, rfl⟩ | hline := line.all_or_header_or_plain
  · exact Nat.le_of_eq (begun_all docs).symm
  · have := begun_le_countP docs
    rw [begun_header]
    omega
  · rw [begun_plain docs hline]
    exact Nat.le_max_right _ _

/-- An entry that is not begun has heard nothing. -/
theorem heard_eq_nil (h : begun docs ≤ i) : heard i docs = [] := by
  induction docs using List.reverseRecOn with
  | nil => rfl
  | append_singleton docs line ih =>
      have hmem : i ∉ listeners docs line := fun hmem =>
        absurd (lt_begun_of_mem_listeners hmem) (Nat.not_lt.mpr h)
      rw [heard_concat_of_notMem hmem]
      exact ih (Nat.le_trans (begun_le_concat docs line) h)

end DocComment

/-! ### The draft after some lines -/

namespace Draft

open DocComment

variable {d : Draft} {docs : List DocLine} {line : DocLine} {act : Act Entry Unit}

/-- One draft comes from another by a step on the entries at some places. -/
structure Told (act : Act Entry Unit) (places : List Nat) (d t : Draft) : Prop where
  selection : t.selection = d.selection
  length : t.entries.length = d.entries.length
  step : ∀ i ∈ places, ∀ e, d.entries[i]? = some e →
    ∃ e' warnings, t.entries[i]? = some e' ∧ act e = ⟨e', warnings, .ok ()⟩
  rest : ∀ i, i ∉ places → t.entries[i]? = d.entries[i]?

theorem told_nil (act : Act Entry Unit) (d : Draft) : Told act [] d d :=
  ⟨rfl, rfl, fun _ hi => absurd hi List.not_mem_nil, fun _ _ => rfl⟩

/-- The step is taken at one more place. -/
theorem onEntry_told {places : List Nat} {t : Draft} {i : Nat} (h : Told act places d t)
    (hnew : i ∉ places) (hi : i < d.entries.length) :
    Ensures (onEntry i act) t (fun _ u => Told act (places ++ [i]) d u) (fun _ => True) := by
  have hentry : t.entries[i]? = some d.entries[i] :=
    (h.rest i hnew).trans (List.getElem?_eq_getElem hi)
  have hlength : i < t.entries.length := by
    rw [h.length]
    exact hi
  refine (onEntry_ensures hentry (Ensures.self act _)).mono ?_
  rintro _ _ ⟨e', ⟨warnings, hact⟩, rfl⟩
  refine ⟨h.selection, ?_, fun j hj e he => ?_, fun j hj => ?_⟩
  · rw [List.length_set]
    exact h.length
  · by_cases hij : i = j
    · subst hij
      rw [List.getElem?_eq_getElem hi] at he
      obtain rfl := Option.some.inj he
      exact ⟨e', warnings, List.getElem?_set_self hlength, hact⟩
    · have hold : j ∈ places := by
        rcases List.mem_append.mp hj with hold | hlast
        · exact hold
        · exact absurd (List.mem_singleton.mp hlast).symm hij
      rw [List.getElem?_set_ne hij]
      exact h.step j hold e he
  · have hij : i ≠ j := fun heq => hj (by simp [heq])
    rw [List.getElem?_set_ne hij]
    exact h.rest j fun hold => hj (List.mem_append_left _ hold)

theorem onSelected_told {places : List Nat} (hselection : d.selection = places.map Int.ofNat)
    (hdistinct : places.Nodup) (hrange : ∀ i ∈ places, i < d.entries.length) :
    Ensures (onSelected act) d (fun _ t => Told act places d t) (fun _ => True) := by
  unfold onSelected
  refine Ensures.get_bind ?_
  dsimp only
  rw [hselection, each_map]
  refine Ensures.each (fun done t => Told act done d t) (told_nil act d) ?_
  intro done i rest t hplaces ht
  have hi : i < d.entries.length := hrange i (by rw [hplaces]; simp)
  have hcount : i < t.entries.length := by
    rw [ht.length]
    exact hi
  have hnew : i ∉ done := by
    rw [hplaces] at hdistinct
    exact fun hmem => (List.nodup_append.mp hdistinct).2.2 i hmem i List.mem_cons_self rfl
  refine Ensures.get_bind (Ensures.ite (fun hge => ?_) (fun _ => ?_))
  · have : (t.entries.length : Int) ≤ (i : Int) := hge
    omega
  · rw [show place? t.entries.length (Int.ofNat i) = some i from place?_natCast hcount]
    exact onEntry_told ht hnew hi

/-- What an entry at a place has become that was told some lines. -/
def Becomes (lines : List DocLine) (i : Nat) (e : Entry) : Prop :=
  ∃ warnings, Act.each lines DocLine.tell (fresh i) = ⟨e, warnings, .ok ()⟩

theorem becomes_nil (i : Nat) : Becomes [] i (fresh i) :=
  ⟨[], rfl⟩

theorem Becomes.concat {lines : List DocLine} {i : Nat} {e e' : Entry} {warnings : List Warning}
    (h : Becomes lines i e) (htell : line.tell e = ⟨e', warnings, .ok ()⟩) :
    Becomes (lines ++ [line]) i e' := by
  obtain ⟨before, hlines⟩ := h
  refine ⟨before ++ warnings, ?_⟩
  rw [each_append, bind_apply_ok _ hlines, each_singleton, htell]

/-- The entries of a draft are those that some lines begin, the next text would be told to those that
it is meant for, and each one has been told what it hears. -/
structure Follows (docs : List DocLine) (d : Draft) : Prop where
  length : d.entries.length = begun docs
  selection : d.entries ≠ [] → d.selection = (addressed docs).map Int.ofNat
  heard : ∀ i e, d.entries[i]? = some e → Becomes (heard i docs) i e

/-- The draft of a comment after some of its lines. -/
structure Routed (docs : List DocLine) (d : Draft) : Prop extends Follows docs d where
  sound : d.Sound
  headed : d.headed = docs.countP DocLine.isHeader

theorem routed_of_empty (h : d.entries = []) (k : d.selection = []) : Routed [] d where
  length := by simp [h, begun]
  selection := fun hne => absurd h hne
  heard := by simp [h]
  sound := sound_of_empty h k
  headed := by simp [Draft.headed, h]

/-- Telling a line to the entries that it is meant for is what they hear next. -/
theorem Told.heard {t : Draft} {places : List Nat} (h : Told line.tell places d t)
    (hplaces : ∀ i, i ∈ places ↔ i ∈ listeners docs line)
    (hd : ∀ i e, d.entries[i]? = some e → Becomes (DocComment.heard i docs) i e) (i : Nat)
    (e : Entry) (he : t.entries[i]? = some e) :
    Becomes (DocComment.heard i (docs ++ [line])) i e := by
  by_cases hi : i ∈ places
  · have hlength : i < d.entries.length := by
      rw [← h.length]
      exact (List.getElem?_eq_some_iff.mp he).1
    have hbefore := List.getElem?_eq_getElem hlength
    obtain ⟨e', warnings, he', htell⟩ := h.step i hi _ hbefore
    obtain rfl : e' = e := Option.some.inj (he'.symm.trans he)
    rw [heard_concat_of_mem ((hplaces i).mp hi)]
    exact (hd i _ hbefore).concat htell
  · rw [h.rest i hi] at he
    rw [heard_concat_of_notMem fun hmem => hi ((hplaces i).mpr hmem)]
    exact hd i e he

/-- Once the first entry is begun, there are the entries that the lines begin, and at least one. -/
theorem Follows.begun (h : Follows docs d) {started : Draft}
    (hstarted : started.entries = if d.entries.isEmpty then [{}] else d.entries) :
    started.entries.length = max 1 (begun docs)
      ∧ ∀ i e, started.entries[i]? = some e → Becomes (DocComment.heard i docs) i e := by
  rw [hstarted]
  by_cases hempty : d.entries.isEmpty = true
  · have hbegun : DocComment.begun docs = 0 := by
      rw [← h.length, List.isEmpty_iff.mp hempty, List.length_nil]
    rw [if_pos hempty, hbegun]
    refine ⟨rfl, fun i e he => ?_⟩
    obtain ⟨rfl, rfl⟩ : i = 0 ∧ fresh 0 = e := by
      rcases i with _ | i
      · exact ⟨rfl, Option.some.inj he⟩
      · cases he
    rw [heard_eq_nil (Nat.le_of_eq hbegun)]
    exact becomes_nil 0
  · have hpos : 0 < d.entries.length :=
      List.length_pos_iff.mpr fun hnil => hempty (List.isEmpty_iff.mpr hnil)
    rw [if_neg hempty]
    refine ⟨?_, h.heard⟩
    rw [← h.length]
    omega

/-- Text begins the first entry, unless there is one, and all that it is meant for is selected. -/
theorem begin_selects (h : Follows docs d) (hsound : d.Sound) :
    Ensures begin d (fun _ t => t.entries = (if d.entries.isEmpty then [{}] else d.entries)
      ∧ t.selection = (addressed docs).map Int.ofNat) (fun _ => True) := by
  refine Ensures.modify ?_
  by_cases hempty : d.entries.isEmpty = true
  · have hentries : d.entries = [] := List.isEmpty_iff.mp hempty
    have hbegun : DocComment.begun docs = 0 := by rw [← h.length, hentries, List.length_nil]
    rw [if_pos hempty, if_pos hempty]
    refine ⟨rfl, ?_⟩
    rw [hsound.empty_iff.mp hentries, addressed_of_begun_eq_zero hbegun]
    rfl
  · rw [if_neg hempty, if_neg hempty]
    exact ⟨rfl, h.selection fun hnil => hempty (List.isEmpty_iff.mpr hnil)⟩

theorem addDoc_plain (h : line.redirects = false) :
    addDoc line = begin >>= fun _ => onSelected line.tell := by
  cases line with
  | header | all => cases h
  | _ => rfl

theorem addPlain_routed (h : Routed docs d) (hline : line.redirects = false) :
    Ensures (addDoc line) d (fun _ t => Follows (docs ++ [line]) t) (fun _ => True) := by
  rw [addDoc_plain hline]
  have hsound : Ensures begin d (fun _ t => t.Sound) (fun _ => True) := begin_sound h.sound
  have hbegin := ((begin_selects h.toFollows h.sound).both hsound).allow fun _ _ => trivial
  refine Ensures.bind hbegin ?_
  rintro _ t ⟨⟨hstarted, hselection⟩, ht⟩
  obtain ⟨hlength, hheard⟩ := h.begun hstarted
  have hdistinct : (addressed docs).Nodup := by
    have := ht.distinct
    rw [hselection] at this
    exact List.Pairwise.of_map Int.ofNat (fun i j hne heq => hne (congrArg Int.ofNat heq)) this
  have hrange : ∀ i ∈ addressed docs, i < t.entries.length := by
    intro i hi
    have := ht.inRange (Int.ofNat i) (by rw [hselection]; exact List.mem_map_of_mem hi)
    exact Int.ofNat_lt.mp this.2
  refine (onSelected_told hselection hdistinct hrange).mono fun _ u hu => ⟨?_, fun _ => ?_, ?_⟩
  · rw [hu.length, hlength, begun_plain docs hline]
  · rw [hu.selection, hselection, addressed_plain docs hline]
  · refine hu.heard (fun i => ?_) hheard
    rw [listeners_plain docs hline]

theorem addAll_routed (h : Routed docs d) :
    Ensures (addDoc .all) d (fun _ t => Follows (docs ++ [.all]) t) (fun _ => True) := by
  have htold : Ensures (addDoc .all) d
      (fun _ t => Told (DocLine.tell .all) (List.range d.entries.length) d.allSelected t)
      (fun _ => True) := by
    refine Ensures.modify_bind (Ensures.get_bind ?_)
    refine Ensures.each (fun done t => Told (DocLine.tell .all) done d.allSelected t)
      (told_nil _ _) ?_
    intro done i rest t hplaces ht
    have hi : i ∈ List.range d.entries.length := by
      rw [show List.range d.entries.length = done ++ i :: rest from hplaces]
      simp
    have hdistinct : (done ++ i :: rest).Nodup := by
      rw [← show List.range d.entries.length = done ++ i :: rest from hplaces]
      exact List.nodup_range
    refine onEntry_told ht (fun hmem => ?_) (List.mem_range.mp hi)
    exact (List.nodup_append.mp hdistinct).2.2 i hmem i List.mem_cons_self rfl
  refine htold.mono fun _ t ht => ⟨?_, fun hne => ?_, ?_⟩
  · rw [ht.length, begun_all]
    exact h.length
  · have hpos : 1 ≤ d.entries.length := by
      rw [← show t.entries.length = d.entries.length from ht.length]
      exact List.length_pos_iff.mpr hne
    rw [ht.selection, addressed_all, ← h.length, Nat.max_eq_right hpos]
    rfl
  · have hplaces (i : Nat) :
        i ∈ List.range d.entries.length ↔ i ∈ listeners docs .all := by
      rw [h.length]
      exact Iff.rfl
    exact ht.heard hplaces h.heard

theorem addHeader_routed (header : Header) (h : Routed docs d) :
    Ensures (addDoc (.header header)) d (fun _ t => Follows (docs ++ [.header header]) t)
      (fun _ => True) := by
  obtain ⟨before, first, hfirst, hcases, htakes⟩ := h.sound.addHeader_takes header
  have htake : Ensures (takeHeader header) first
      (fun _ t => ∃ warnings, takeHeader header first = ⟨t, warnings, .ok ()⟩) (fun _ => True) :=
    Ensures.self _ _
  refine (htakes htake).mono ?_
  rintro _ _ ⟨e', ⟨warnings, htaken⟩, rfl⟩
  -- The header is given to the entry whose place is the number of headers before it.
  have hplace : before.length = docs.countP DocLine.isHeader := by
    rcases hcases with ⟨rfl, -, hheaded⟩ | ⟨hd, rfl⟩
    · rw [← h.headed]
      exact (List.countP_eq_length.mpr hheaded).symm
    · rw [← h.headed, Draft.headed, hd]
      simp [hfirst]
  have hlast : Becomes (heard before.length docs) before.length first := by
    rcases hcases with ⟨hd, rfl, -⟩ | ⟨hd, rfl⟩
    · have hbegun : begun docs = before.length := by rw [← h.length, hd]
      rw [heard_eq_nil (Nat.le_of_eq hbegun)]
      refine ⟨[], ?_⟩
      cases before <;> rfl
    · exact h.heard 0 first (by rw [hd]; rfl)
  refine ⟨?_, fun _ => ?_, fun i e he => ?_⟩
  · rw [begun_header, ← hplace]
    exact List.length_append
  · rw [addressed_header, ← hplace]
    rfl
  · rcases Nat.lt_trichotomy i before.length with hlt | rfl | hgt
    · have hother : i ∉ listeners docs (.header header) := by
        intro hmem
        have := List.mem_singleton.mp hmem
        omega
      have hbefore : d.entries = before := by
        rcases hcases with ⟨hd, -⟩ | ⟨-, rfl⟩
        · exact hd
        · cases hlt
      rw [heard_concat_of_notMem hother]
      rw [withLast, List.getElem?_append_left hlt, ← hbefore] at he
      exact h.heard i e he
    · rw [withLast, List.getElem?_append_right (Nat.le_refl _), Nat.sub_self] at he
      obtain rfl : e' = e := Option.some.inj he
      rw [heard_concat_of_mem (List.mem_singleton.mpr hplace)]
      exact hlast.concat htaken
    · rw [withLast, List.getElem?_eq_none (by simp; omega)] at he
      cases he

/-- A line of documentation is told to the entries that it is meant for, and to no others. -/
theorem addDoc_routed (line : DocLine) (h : Routed docs d) :
    Ensures (addDoc line) d (fun _ t => Routed (docs ++ [line]) t) (fun _ => True) := by
  have hfollows : Ensures (addDoc line) d (fun _ t => Follows (docs ++ [line]) t)
      (fun _ => True) := by
    obtain rfl | ⟨header, rfl⟩ | hline := line.all_or_header_or_plain
    · exact addAll_routed h
    · exact addHeader_routed header h
    · exact addPlain_routed h hline
  have hframe := (addDoc_sound line h.sound).both (addDoc_headed line h.sound)
  refine ((hfollows.both hframe).mono ?_).allow fun _ _ => trivial
  rintro _ t ⟨ht, hsound, hheaded⟩
  refine ⟨ht, hsound, ?_⟩
  rw [hheaded, h.headed, List.countP_append, List.countP_singleton]

/-! ### The line of code -/

/-- The entries of a draft are those of a comment, which were told all that they are to be told. -/
structure Complete (c : DocComment) (d : Draft) : Prop where
  length : d.entries.length = c.count
  told : ∀ i e, d.entries[i]? = some e → Becomes (c.linesFor i) i e

/-- The initial value of a flag is told to the last entry, which is begun if there is none. -/
theorem addInitial_complete (name : Option String) (initial : String) (h : Follows docs d) :
    Ensures (addInitial initial) d (fun _ t => Complete ⟨docs, .flag name (some initial)⟩ t)
      (fun _ => True) := by
  unfold addInitial
  refine Ensures.modify_bind (Ensures.get_bind ?_)
  generalize hstarted : (if d.entries.isEmpty then { d with entries := [{}] } else d) = started
  have hentries : started.entries = if d.entries.isEmpty then [{}] else d.entries := by
    rw [← hstarted, apply_ite Draft.entries]
  obtain ⟨hlength, hheard⟩ := h.begun hentries
  have hlast : started.entries.length - 1 < started.entries.length := by omega
  refine (onEntry_told (told_nil _ started) List.not_mem_nil hlast).mono fun _ t ht => ?_
  refine ⟨ht.length.trans hlength, fun i e he => ?_⟩
  rw [linesFor, ← hlength]
  by_cases hi : i + 1 = started.entries.length
  · have hplace : i ∈ [] ++ [started.entries.length - 1] := by simp; omega
    obtain ⟨e', warnings, he', htell⟩ :=
      ht.step i hplace _ (List.getElem?_eq_getElem (by omega))
    obtain rfl : e' = e := Option.some.inj (he'.symm.trans he)
    rw [if_pos hi]
    exact (hheard i _ (List.getElem?_eq_getElem _)).concat htell
  · have hplace : i ∉ [] ++ [started.entries.length - 1] := by simp; omega
    rw [ht.rest i hplace] at he
    rw [if_neg hi, List.append_nil]
    exact hheard i e he

theorem prepare_complete {code : CodeLine} (hcode : ∀ text, code ≠ .unrecognized text)
    (h : Follows docs d) :
    Ensures (prepare code) d (fun _ t => Complete ⟨docs, code⟩ t) (fun _ => True) := by
  have hsilent (hprepare : prepare code = pure ()) (hremark : code.remark = [])
      (hcount : DocComment.count ⟨docs, code⟩ = begun docs) :
      Ensures (prepare code) d (fun _ t => Complete ⟨docs, code⟩ t) (fun _ => True) := by
    rw [hprepare]
    refine Ensures.pure ⟨h.length.trans hcount.symm, fun i e he => ?_⟩
    rw [linesFor, hremark, ite_self, List.append_nil]
    exact h.heard i e he
  cases code with
  | unrecognized text => exact absurd rfl (hcode text)
  | flag name initial =>
      cases initial with
      | none => exact hsilent rfl rfl rfl
      | some initial => exact addInitial_complete name initial h
  | blank | endOfFile | function | command | setting => exact hsilent rfl rfl rfl

/-- The entries of a comment are what the line of code makes of those of a complete draft. -/
theorem Complete.entries_eq {c : DocComment} (h : Complete c d) :
    c.entries = d.entries.mapM c.code.completed := by
  have hentry : (List.range c.count).map c.entry = d.entries.map c.code.completed := by
    refine List.ext_getElem (by simp [h.length]) fun i _ hi => ?_
    have hlength : i < d.entries.length := by simpa using hi
    obtain ⟨warnings, htold⟩ := h.told i _ (List.getElem?_eq_getElem hlength)
    rw [List.getElem_map, List.getElem_map, List.getElem_range, entry, htold]
    rfl
  calc c.entries
      = ((List.range c.count).map c.entry).mapM id := by
        rw [List.mapM_map]
        rfl
    _ = (d.entries.map c.code.completed).mapM id := by rw [hentry]
    _ = d.entries.mapM c.code.completed := by
        rw [List.mapM_map]
        rfl

/-- A line of code finishes the entries of the comment above it. -/
theorem addCode_routed (code : CodeLine) (h : Follows docs d) :
    Ensures (addCode code) d (fun _ t => t.entries = [] ∧ t.selection = []
      ∧ ∃ group, DocComment.entries ⟨docs, code⟩ = .ok group
        ∧ t.finished = d.finished ++ group) (fun _ => True) := by
  by_cases hcode : ∃ text, code = .unrecognized text
  · obtain ⟨text, rfl⟩ := hcode
    exact Ensures.modify ⟨rfl, rfl, [], rfl, (List.append_nil _).symm⟩
  · have hknown : ∀ text, code ≠ .unrecognized text := fun text htext => hcode ⟨text, htext⟩
    rw [addCode_eq code hknown]
    have hprepare := (prepare_complete hknown h).both
      (Ensures.of_confined (prepare_finishesNone code) d)
    refine Ensures.bind (hprepare.allow fun _ _ => trivial) ?_
    rintro _ t ⟨ht, hfinished⟩
    rw [ht.entries_eq]
    unfold Ensures
    cases hdone : t.entries.mapM code.completed with
    | error fault =>
        rw [finishAll_error hdone]
        trivial
    | ok group =>
        obtain ⟨warnings, hrun⟩ := finishAll_ok hdone
        rw [hrun, hfinished]
        exact ⟨rfl, rfl, group, rfl, rfl⟩

/-- The lines that are left in a file finish the entries of the comments among them. -/
theorem addLines_routed (lines : List (Nat × SourceLine)) (h : Routed docs d) :
    Ensures (Reading.addLines none lines) d
      (fun _ t => ∃ groups, (among docs (lines.map (·.2))).mapM DocComment.entries = .ok groups
        ∧ t.finished = d.finished ++ groups.flatten) (fun _ => True) := by
  induction lines generalizing docs d with
  | nil =>
      rw [Reading.addLines, each_nil, pure_bind]
      refine (addCode_routed .endOfFile h.toFollows).mono ?_
      rintro _ t ⟨-, -, group, hgroup, hfinished⟩
      refine ⟨[group], Except.mapM_eq_ok_iff.mpr (.cons hgroup .nil), ?_⟩
      rw [hfinished, List.flatten_singleton]
  | cons line lines ih =>
      obtain ⟨number, line⟩ := line
      rw [Reading.addLines_cons]
      cases line with
      | doc line =>
          have hline := ((addDoc_routed line h).both
            (Ensures.of_confined (addDoc_finishesNone line) d)).allow fun _ _ => trivial
          refine Ensures.bind hline ?_
          rintro _ t ⟨ht, hfinished⟩
          rw [← hfinished]
          exact ih ht
      | code code =>
          refine Ensures.bind (addCode_routed code h.toFollows) ?_
          rintro _ t ⟨hentries, hselection, group, hgroup, hfinished⟩
          refine (ih (routed_of_empty hentries hselection)).mono ?_
          rintro _ u ⟨groups, hgroups, hmore⟩
          refine ⟨group :: groups, ?_, ?_⟩
          · exact Except.mapM_eq_ok_iff.mpr (.cons hgroup (Except.mapM_eq_ok_iff.mp hgroups))
          · rw [hmore, hfinished, List.append_assoc, List.flatten_cons]

end Draft

/-! ### The entries of a file -/

namespace DocComment

end DocComment

/-- Each entry of a file belongs to one of its doc comments. -/
theorem Source.entries_grouped {file : Option String} {lines : List String}
    (h : (Source.entries file lines).result = .ok ()) :
    ∃ groups, (DocComment.ofFile lines).mapM DocComment.entries = .ok groups
      ∧ (Source.entries file lines).state = groups.flatten := by
  obtain ⟨d, warnings, hlines, hstate⟩ := entries_ok h
  have hfault : (SourceLine.ofFile lines).fault = none := by
    cases hfault : (SourceLine.ofFile lines).fault with
    | none => rfl
    | some fault =>
        rw [hfault] at hlines
        obtain ⟨t, _, _, _, -, hfinish, -⟩ := bind_eq_ok_iff.mp hlines
        cases hfinish
  rw [hfault] at hlines
  obtain ⟨groups, hgroups, hfinished⟩ :=
    (Draft.addLines_routed _ (Draft.routed_of_empty rfl rfl)).of_ok hlines
  exact ⟨groups, hgroups, hstate.trans hfinished⟩

end PluginHelp
