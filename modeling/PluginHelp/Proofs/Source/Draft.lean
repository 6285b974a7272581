/-
The draft of a doc comment makes sense at every line.

`Draft.Sound` says what the entries and the selection have to do with each other.  A line of
documentation keeps it: most lines leave the frames of the entries alone, and the two that do not,
`@all` and a header, put the selection right themselves.  A line of code leaves no entry, and so
keeps it as well.

From a sound draft nothing can go wrong with the selection, no entry is given a second header, and
the entry that a further header begins takes over nothing.  All that can go wrong is about an entry
itself, which is what `Cause.OfEntry` says.
-/
import PluginHelp.Proofs.Entry.Frame
import PluginHelp.Source.Draft

namespace PluginHelp.Draft

open Act Entry

/-- How the entries of a draft and its selection belong together. -/
structure Sound (d : Draft) : Prop where
  /-- Something is selected as soon as there is an entry, and not before. -/
  empty_iff : d.entries = [] ↔ d.selection = []
  /-- No entry is selected twice. -/
  distinct : d.selection.Nodup
  /-- What is selected is there. -/
  inRange : ∀ n ∈ d.selection, 0 ≤ n ∧ n < d.entries.length
  /-- A single entry is the one that is selected. -/
  single : d.entries.length = 1 → d.selection = [0]
  /-- Of several entries each one has a header. -/
  headed : 2 ≤ d.entries.length → ∀ e ∈ d.entries, e.header.isSome
  /-- The first entry is not secondary, and all later ones are. -/
  secondary : ∀ i e, d.entries[i]? = some e → e.isSecondary = decide (0 < i)
  /-- No entry is closed yet. -/
  stillOpen : ∀ e ∈ d.entries, e.isClosed = false

/-- A draft without entries is sound. -/
theorem sound_of_empty {d : Draft} (h : d.entries = []) (k : d.selection = []) : d.Sound where
  empty_iff := by simp [h, k]
  distinct := by simp [k]
  inRange := by simp [k]
  single := by simp [h]
  headed := by simp [h]
  secondary := by simp [h]
  stillOpen := by simp [h]

/-! ### Steps on single entries -/

/-- Two drafts differ in what lines tell their entries, and in nothing else. -/
structure SameFrames (d t : Draft) : Prop where
  selection : t.selection = d.selection
  finished : t.finished = d.finished
  frames : t.entries.map frame = d.entries.map frame

namespace SameFrames

variable {d t u : Draft}

theorem refl (d : Draft) : SameFrames d d :=
  ⟨rfl, rfl, rfl⟩

theorem trans (h : SameFrames d t) (k : SameFrames t u) : SameFrames d u :=
  ⟨k.selection.trans h.selection, k.finished.trans h.finished, k.frames.trans h.frames⟩

theorem length_eq (h : SameFrames d t) : t.entries.length = d.entries.length := by
  have := congrArg List.length h.frames
  simpa using this

/-- Each entry has a counterpart with the same frame at the same place. -/
theorem getElem? (h : SameFrames d t) {i : Nat} {e : Entry} (he : t.entries[i]? = some e) :
    ∃ e', d.entries[i]? = some e' ∧ e'.frame = e.frame := by
  have hi : (d.entries.map frame)[i]? = some e.frame := by
    rw [← h.frames, List.getElem?_map, he]
    rfl
  rw [List.getElem?_map, Option.map_eq_some_iff] at hi
  exact hi

theorem mem (h : SameFrames d t) {e : Entry} (he : e ∈ t.entries) :
    ∃ e' ∈ d.entries, e'.frame = e.frame := by
  obtain ⟨i, hi⟩ := List.mem_iff_getElem?.mp he
  obtain ⟨e', hi', hframe⟩ := h.getElem? hi
  exact ⟨e', List.mem_of_getElem? hi', hframe⟩

/-- What is sound stays so as long as the frames are left alone. -/
theorem sound (h : SameFrames d t) (hd : d.Sound) : t.Sound where
  empty_iff := by
    rw [h.selection, ← hd.empty_iff, ← List.length_eq_zero_iff, ← List.length_eq_zero_iff,
      h.length_eq]
  distinct := by
    rw [h.selection]
    exact hd.distinct
  inRange := by
    rw [h.selection, h.length_eq]
    exact hd.inRange
  single := by
    rw [h.selection, h.length_eq]
    exact hd.single
  headed := by
    intro hlen e he
    rw [h.length_eq] at hlen
    obtain ⟨e', he', hframe⟩ := h.mem he
    rw [← header_eq_of_frame hframe]
    exact hd.headed hlen e' he'
  secondary := by
    intro i e he
    obtain ⟨e', he', hframe⟩ := h.getElem? he
    rw [← isSecondary_eq_of_frame hframe]
    exact hd.secondary i e' he'
  stillOpen := by
    intro e he
    obtain ⟨e', he', hframe⟩ := h.mem he
    rw [← isClosed_eq_of_frame hframe]
    exact hd.stillOpen e' he'

end SameFrames

variable {α : Type} {d : Draft} {i : Nat} {e : Entry} {allowed : Cause → Prop}

/-- A step on the entry at a place changes that entry as it would change it alone. -/
theorem onEntry_ensures {act : Act Entry α} {post : α → Entry → Prop}
    (he : d.entries[i]? = some e) (h : Ensures act e post allowed) :
    Ensures (onEntry i act) d
      (fun a t => ∃ e', post a e' ∧ t = { d with entries := d.entries.set i e' }) allowed := by
  unfold Ensures onEntry at *
  rw [he]
  dsimp only
  match k : (act e).result with
  | .ok a =>
    rw [k] at h
    exact ⟨(act e).state, h, rfl⟩
  | .error fault =>
    rw [k] at h
    exact h

theorem onEntry_framed {act : Act Entry α} (h : Framed act) (he : d.entries[i]? = some e) :
    Ensures (onEntry i act) d (fun _ t => SameFrames d t) Cause.OfEntry := by
  refine (onEntry_ensures he (Ensures.of_confined h e)).mono ?_
  rintro a t ⟨e', hframe, rfl⟩
  obtain ⟨hi, rfl⟩ := List.getElem?_eq_some_iff.mp he
  refine ⟨rfl, rfl, ?_⟩
  show (d.entries.set i e').map frame = d.entries.map frame
  have hi' : i < (d.entries.map frame).length := by simpa using hi
  rw [List.map_set, hframe, ← List.getElem_map frame (h := hi'), List.set_getElem_self]

/-! ### Steps on the selected entries -/

theorem place?_natCast {count i : Nat} (h : i < count) : place? count (i : Int) = some i := by
  simp [place?, h]

/-- A step on every selected entry leaves the frames alone if it does so with each of them. -/
theorem onSelected_framed {act : Act Entry Unit} (h : Framed act)
    (hd : ∀ n ∈ d.selection, 0 ≤ n ∧ n < d.entries.length) :
    Ensures (onSelected act) d (fun _ t => SameFrames d t) Cause.OfEntry := by
  unfold onSelected
  refine Ensures.get_bind ?_
  refine Ensures.each (fun _ t => SameFrames d t) (SameFrames.refl d) ?_
  intro done n rest t hselection ht
  have hn := hd n (by rw [hselection]; simp)
  obtain ⟨i, rfl⟩ := Int.eq_ofNat_of_zero_le hn.1
  have hi : i < t.entries.length := by
    rw [ht.length_eq]
    omega
  refine Ensures.get_bind (Ensures.ite (fun hge => ?_) (fun _ => ?_))
  · omega
  · rw [place?_natCast hi]
    refine (onEntry_framed h (List.getElem?_eq_getElem hi)).mono ?_
    intro _ u hu
    exact ht.trans hu

/-- Where one entry is selected, a step on the selected ones is a step on that one. -/
theorem onSelected_apply (act : Act Entry Unit) (hd : d.selection = [(i : Int)])
    (hi : i < d.entries.length) : onSelected act d = onEntry i act d := by
  unfold onSelected
  rw [get_bind_apply]
  dsimp only
  rw [hd, each_singleton, get_bind_apply, if_neg (by omega), place?_natCast hi]

/-! ### Lines of documentation -/

theorem begin_sound (h : d.Sound) : Ensures begin d (fun _ t => t.Sound) allowed := by
  refine Ensures.modify ?_
  split
  · rename_i hempty
    have hentries : d.entries = [] := by simpa using hempty
    have hselection := h.empty_iff.mp hentries
    exact {
      empty_iff := by simp
      distinct := by simp [hselection]
      inRange := by simp [hselection]
      single := by simp [hselection]
      headed := by simp
      secondary := by
        intro i e he
        obtain ⟨rfl, rfl⟩ : i = 0 ∧ {} = e := by
          rcases i with _ | i
          · simpa using he
          · simp at he
        rfl
      stillOpen := by simp }
  · exact h

/-- The draft with all entries selected. -/
def allSelected (d : Draft) : Draft :=
  { d with selection := (List.range d.entries.length).map Int.ofNat }

theorem selectAll_framed (d : Draft) :
    Ensures selectAll d (fun _ t => SameFrames d.allSelected t) Cause.OfEntry := by
  unfold selectAll
  refine Ensures.modify_bind (Ensures.get_bind ?_)
  refine Ensures.each (fun _ t => SameFrames d.allSelected t) (SameFrames.refl _) ?_
  intro done i rest t hitems ht
  have hi : i < t.entries.length := by
    rw [ht.length_eq, ← List.mem_range]
    exact hitems ▸ List.mem_append_right done List.mem_cons_self
  refine (onEntry_framed (setKind_framed _) (List.getElem?_eq_getElem hi)).mono ?_
  intro _ u hu
  exact ht.trans hu

theorem selectAll_sound (h : d.Sound) :
    Ensures selectAll d (fun _ t => t.Sound) Cause.OfEntry := by
  have hsound : d.allSelected.Sound := {
    h with
    empty_iff := by simp [allSelected]
    distinct := List.pairwise_map.mpr
      (List.nodup_range.imp fun hne heq => hne (Int.ofNat.inj heq))
    inRange := by
      intro n hn
      obtain ⟨i, hi, rfl⟩ := List.mem_map.mp hn
      exact ⟨Int.natCast_nonneg i, Int.ofNat_lt.mpr (List.mem_range.mp hi)⟩
    single := by
      intro hlen
      show (List.range d.entries.length).map Int.ofNat = [0]
      rw [show d.entries.length = 1 from hlen]
      rfl }
  exact (selectAll_framed d).mono fun _ t ht => ht.sound hsound

/-- Where a header begins a new entry, the entries before it have headers. -/
theorem Sound.headed_of_beginsEntry (h : d.Sound) (hnew : d.beginsEntry = true) :
    ∀ e ∈ d.entries, e.header.isSome := by
  intro e he
  by_cases hlen : 2 ≤ d.entries.length
  · exact h.headed hlen e he
  · obtain ⟨first, hd⟩ : ∃ first, d.entries = [first] := by
      match hd : d.entries with
      | [] => simp [hd] at he
      | [first] => exact ⟨first, rfl⟩
      | _ :: _ :: _ => simp [hd] at hlen
    rw [hd, List.mem_singleton] at he
    unfold beginsEntry at hnew
    rw [hd] at hnew
    rw [he]
    simpa using hnew

/-- The entry that a header begins takes over no controls. -/
theorem Sound.nextEntry_eq (h : d.Sound) (hnew : d.beginsEntry = true) :
    d.nextEntry = { isSecondary := !d.entries.isEmpty } := by
  unfold nextEntry
  match hd : d.entries with
  | [] => rfl
  | first :: rest =>
    have hfirst := h.headed_of_beginsEntry hnew first (by rw [hd]; exact List.mem_cons_self)
    have hnone : first.header.isNone = false := by
      cases hheader : first.header with
      | none => simp [hheader] at hfirst
      | some header => rfl
    simp [hnone]

/-- A further entry with a header, selected alone, keeps a draft sound whose entries have headers.
-/
theorem Sound.append (h : d.Sound) (hheaded : ∀ e ∈ d.entries, e.header.isSome)
    (hheader : e.header.isSome) (hsecondary : e.isSecondary = !d.entries.isEmpty)
    (hopen : e.isClosed = false) :
    Sound { d with entries := d.entries ++ [e], selection := [(d.entries.length : Int)] } where
  empty_iff := by simp
  distinct := by simp
  inRange := by
    intro n hn
    rw [List.mem_singleton.mp hn, List.length_append, List.length_singleton]
    omega
  single := by
    intro hlen
    simpa using hlen
  headed := by
    intro _ other hother
    rcases List.mem_append.mp hother with hold | hnew
    · exact hheaded other hold
    · rw [List.mem_singleton.mp hnew]
      exact hheader
  secondary := by
    intro i other hother
    rcases Nat.lt_trichotomy i d.entries.length with hlt | rfl | hgt
    · rw [List.getElem?_append_left hlt] at hother
      exact h.secondary i other hother
    · obtain rfl : e = other := by simpa using hother
      rw [hsecondary]
      cases d.entries <;> simp
    · rw [List.getElem?_eq_none (by simp; omega)] at hother
      simp at hother
  stillOpen := by
    intro other hother
    rcases List.mem_append.mp hother with hold | hnew
    · exact h.stillOpen other hold
    · rw [List.mem_singleton.mp hnew]
      exact hopen

/-- A single entry that is not secondary and not closed, and that is selected. -/
theorem sound_of_single (hd : d.entries = [e]) (hselection : d.selection = [0])
    (hsecondary : e.isSecondary = false) (hopen : e.isClosed = false) : d.Sound where
  empty_iff := by simp [hd, hselection]
  distinct := by simp [hselection]
  inRange := by simp [hd, hselection]
  single := fun _ => hselection
  headed := by simp [hd]
  secondary := by
    intro i other hother
    rcases i with _ | i
    · obtain rfl : e = other := by simpa [hd] using hother
      rw [hsecondary]
      rfl
    · simp [hd] at hother
  stillOpen := by simp [hd, hopen]

/-- What a header does to the entry that is given it. -/
def takeHeader (header : Header) : Act Entry Unit := do
  Entry.setHeader header
  DocLine.update (.header header)

/-- An entry without a header takes one, and the rest of its frame is left alone. -/
theorem takeHeader_ensures (header : Header) (h : e.header = none) :
    Ensures (takeHeader header) e
      (fun _ t => t.frame = (some header, e.isSecondary, e.isClosed, e.hasOwn "level"))
      Cause.OfEntry := by
  refine Ensures.bind (setHeader_ensures header h _) ?_
  intro _ t ht
  refine (Ensures.of_confined (DocLine.update_framed (.header header)) t).mono ?_
  intro _ u hu
  rw [hu, ht]

/-- The draft with these entries, of which the last one is selected. -/
def withLast (d : Draft) (before : List Entry) (last : Entry) : Draft :=
  { d with entries := before ++ [last], selection := [(before.length : Int)] }

theorem onEntry_withLast_ensures {act : Act Entry α} {post : α → Entry → Prop}
    (before : List Entry) (h : Ensures act e post allowed) :
    Ensures (onEntry before.length act) (d.withLast before e)
      (fun a t => ∃ e', post a e' ∧ t = d.withLast before e') allowed := by
  refine (onEntry_ensures (by simp [withLast]) h).mono ?_
  rintro a _ ⟨e', he', rfl⟩
  exact ⟨e', he', by simp [withLast]⟩

/-- A header is given to a new entry, if all others have headers, or to the only one that has none.
-/
theorem Sound.addHeader_takes (h : d.Sound) (header : Header) :
    ∃ before e, e.header = none
      ∧ (d.entries = before ∧ e = { isSecondary := !before.isEmpty }
          ∧ (∀ other ∈ before, other.header.isSome)
        ∨ d.entries = [e] ∧ before = [])
      ∧ ∀ ⦃post : Entry → Prop⦄ ⦃allowed : Cause → Prop⦄,
        Ensures (takeHeader header) e (fun _ t => post t) allowed →
        Ensures (addHeader header) d (fun _ t => ∃ e', post e' ∧ t = d.withLast before e')
          allowed := by
  have hensures {before : List Entry} {e : Entry}
      (heq : addHeader header d = onEntry before.length (takeHeader header) (d.withLast before e))
      ⦃post : Entry → Prop⦄ ⦃allowed : Cause → Prop⦄
      (htake : Ensures (takeHeader header) e (fun _ t => post t) allowed) :
      Ensures (addHeader header) d (fun _ t => ∃ e', post e' ∧ t = d.withLast before e')
        allowed := by
    have hentry := onEntry_withLast_ensures (d := d) before htake
    unfold Ensures at hentry ⊢
    rw [heq]
    exact hentry
  cases hnew : d.beginsEntry with
  | true =>
      have hnext := h.nextEntry_eq hnew
      refine ⟨d.entries, d.nextEntry, by rw [hnext],
        Or.inl ⟨rfl, hnext, h.headed_of_beginsEntry hnew⟩, hensures ?_⟩
      unfold addHeader
      rw [get_bind_apply, if_pos hnew, modify_bind_apply]
      exact onSelected_apply _ rfl (by simp)
  | false =>
      obtain ⟨first, hd, hheader⟩ : ∃ first, d.entries = [first] ∧ first.header = none := by
        unfold beginsEntry at hnew
        match hd : d.entries with
        | [] => simp [hd] at hnew
        | [first] => exact ⟨first, rfl, by simpa [hd] using hnew⟩
        | _ :: _ :: _ => simp [hd] at hnew
      have hselection := h.single (by rw [hd]; rfl)
      have hsame : d.withLast [] first = d := by
        unfold withLast
        rw [List.nil_append, ← hd]
        exact congrArg (fun selection => { d with selection }) hselection.symm
      refine ⟨[], first, hheader, Or.inr ⟨hd, rfl⟩, hensures ?_⟩
      rw [hsame]
      unfold addHeader
      rw [get_bind_apply, hnew, hselection]
      exact onSelected_apply _ hselection (by rw [hd]; exact Nat.zero_lt_one)

theorem addHeader_sound (header : Header) (h : d.Sound) :
    Ensures (addHeader header) d (fun _ t => t.Sound) Cause.OfEntry := by
  obtain ⟨before, e, hheader, hcases, htakes⟩ := h.addHeader_takes header
  refine (htakes (takeHeader_ensures header hheader)).mono ?_
  rintro _ _ ⟨e', hframe, rfl⟩
  have hsecondary : e'.isSecondary = e.isSecondary := congrArg (fun view => view.2.1) hframe
  have hopen : e'.isClosed = e.isClosed := congrArg (fun view => view.2.2.1) hframe
  rcases hcases with ⟨rfl, rfl, hheaded⟩ | ⟨hd, rfl⟩
  · refine h.append hheaded ?_ hsecondary hopen
    rw [show e'.header = some header from congrArg Prod.fst hframe]
    rfl
  · have hfirst : d.entries[0]? = some e := by rw [hd]; rfl
    refine sound_of_single (e := e') rfl rfl ?_ ?_
    · exact hsecondary.trans (h.secondary 0 e hfirst)
    · exact hopen.trans (h.stillOpen e (List.mem_of_getElem? hfirst))

theorem addDoc_sound (line : DocLine) (h : d.Sound) :
    Ensures (addDoc line) d (fun _ t => t.Sound) Cause.OfEntry := by
  -- Lines other than the two special ones begin an entry if needed and speak to the selected ones.
  have hplain (line : DocLine) : Ensures (do
      begin
      onSelected line.update) d (fun _ t => t.Sound) Cause.OfEntry := by
    refine Ensures.bind (begin_sound h) ?_
    intro _ t ht
    refine (onSelected_framed (DocLine.update_framed line) ht.inRange).mono ?_
    intro _ u hu
    exact hu.sound ht
  cases line with
  | all => exact selectAll_sound h
  | header header => exact addHeader_sound header h
  | _ => exact hplain _

/-! ### Lines of code

The entries are closed one after the other, so while that goes on the invariant cannot hold.  What
is left of it is that the entries whose turn has not come are still open.
-/

/-- There are so many entries, and those from some place on are open. -/
def OpenFrom (count first : Nat) (d : Draft) : Prop :=
  d.entries.length = count ∧ ∀ i e, first ≤ i → d.entries[i]? = some e → e.isClosed = false

theorem Sound.openFrom (h : d.Sound) : OpenFrom d.entries.length 0 d :=
  ⟨rfl, fun _ e _ he => h.stillOpen e (List.mem_of_getElem? he)⟩

theorem SameFrames.openFrom {t : Draft} {count first : Nat} (h : SameFrames d t)
    (hd : OpenFrom count first d) : OpenFrom count first t := by
  refine ⟨h.length_eq.trans hd.1, ?_⟩
  intro i e hi he
  obtain ⟨e', he', hframe⟩ := h.getElem? he
  rw [← isClosed_eq_of_frame hframe]
  exact hd.2 i e' hi he'

/-- The entry whose turn has come learns what the line says and is still open. -/
theorem onEntry_update_openFrom (line : CodeLine) {count : Nat} (hi : i < count)
    (h : OpenFrom count i d) :
    Ensures (onEntry i line.update) d (fun _ t => OpenFrom count i t) Cause.OfEntry := by
  have hlt : i < d.entries.length := by
    rw [h.1]
    exact hi
  refine (onEntry_framed (CodeLine.update_framed line) (List.getElem?_eq_getElem hlt)).mono ?_
  intro _ t ht
  exact ht.openFrom h

/-- The entry whose turn has come is found open when it is closed. -/
theorem onEntry_close_openFrom {count : Nat} (hi : i < count) (h : OpenFrom count i d) :
    Ensures (onEntry i Entry.close) d
      (fun wasOpen t => wasOpen = true ∧ OpenFrom count (i + 1) t) Cause.OfEntry := by
  have hlt : i < d.entries.length := by
    rw [h.1]
    exact hi
  have he := List.getElem?_eq_getElem hlt
  refine (onEntry_ensures he (close_ensures _)).mono ?_
  rintro wasOpen _ ⟨e', hwasOpen, rfl⟩
  refine ⟨?_, ?_, ?_⟩
  · rw [hwasOpen, h.2 i _ (Nat.le_refl i) he]
    rfl
  · rw [List.length_set]
    exact h.1
  · intro j e hj hother
    rw [List.getElem?_set_ne (by omega)] at hother
    exact h.2 j e (by omega) hother

theorem finish_openFrom (line : CodeLine) {count : Nat} (hi : i < count)
    (h : OpenFrom count i d) :
    Ensures (finish line i) d (fun _ t => OpenFrom count (i + 1) t) Cause.OfEntry := by
  unfold finish
  refine Ensures.bind (onEntry_update_openFrom line hi h) fun _ t ht => ?_
  refine Ensures.bind (onEntry_close_openFrom hi ht) fun _ u hu => ?_
  exact Ensures.modify hu.2

/-- The entries before some place are finished one after the other. -/
theorem finishes_openFrom (line : CodeLine) {count n : Nat} (hn : n ≤ count)
    (h : OpenFrom count 0 d) :
    Ensures (Act.each (List.range n) (finish line)) d (fun _ t => OpenFrom count n t)
      Cause.OfEntry := by
  induction n with
  | zero => exact Ensures.pure h
  | succ n ih =>
      rw [List.range_succ, each_append]
      refine Ensures.bind (ih (by omega)) ?_
      intro _ t ht
      rw [each_singleton]
      exact finish_openFrom line (by omega) ht

theorem finishAll_sound (line : CodeLine) (h : OpenFrom d.entries.length 0 d) :
    Ensures (finishAll line) d (fun _ t => t.entries = [] ∧ t.selection = []) Cause.OfEntry := by
  unfold finishAll
  refine Ensures.get_bind (Ensures.bind (finishes_openFrom line (Nat.le_refl _) h) ?_)
  intro _ t _
  exact Ensures.modify ⟨rfl, rfl⟩

theorem addInitial_openFrom (initial : String) (h : OpenFrom d.entries.length 0 d) :
    Ensures (addInitial initial) d (fun _ t => OpenFrom t.entries.length 0 t) Cause.OfEntry := by
  unfold addInitial
  refine Ensures.modify_bind (Ensures.get_bind ?_)
  generalize hbegun : (if d.entries.isEmpty then { d with entries := [{}] } else d) = begun
  have hopen : OpenFrom begun.entries.length 0 begun := by
    rw [← hbegun]
    split
    · refine ⟨rfl, ?_⟩
      intro i e _ he
      have hmem : e ∈ [({} : Entry)] := List.mem_of_getElem? he
      rw [List.mem_singleton.mp hmem]
    · exact h
  have hlt : begun.entries.length - 1 < begun.entries.length := by
    have : begun.entries ≠ [] := by
      rw [← hbegun]
      split <;> simp_all
    have := List.length_pos_iff.mpr this
    omega
  refine (onEntry_framed (addLine_tells _).framed (List.getElem?_eq_getElem hlt)).mono ?_
  intro _ t ht
  have := ht.openFrom hopen
  rw [← ht.length_eq] at this
  exact this

/-- What a line of code does before any entry is finished: a flag tells its initial value. -/
def prepare : CodeLine → Act Draft Unit
  | .flag _ (some initial) => addInitial initial
  | _ => pure ()

/-- A line of code that defines something known prepares the entries and finishes them all. -/
theorem addCode_eq (line : CodeLine) (h : ∀ text, line ≠ .unrecognized text) :
    addCode line = prepare line >>= fun _ => finishAll line := by
  match line with
  | .unrecognized text => exact absurd rfl (h text)
  | .flag name (some initial) => rfl
  | .flag name none | .blank | .endOfFile | .function .. | .command .. | .setting _ =>
    rw [prepare, pure_bind]
    · rfl
    · simp

theorem prepare_openFrom (line : CodeLine) (h : d.Sound) :
    Ensures (prepare line) d (fun _ t => OpenFrom t.entries.length 0 t) Cause.OfEntry := by
  unfold prepare
  split
  · exact addInitial_openFrom _ h.openFrom
  · exact Ensures.pure h.openFrom

/-- After a line of code no entry is left. -/
theorem addCode_empties (line : CodeLine) (h : d.Sound) :
    Ensures (addCode line) d (fun _ t => t.entries = [] ∧ t.selection = []) Cause.OfEntry := by
  by_cases hline : ∃ text, line = .unrecognized text
  · obtain ⟨text, rfl⟩ := hline
    exact Ensures.modify ⟨rfl, rfl⟩
  · rw [addCode_eq line fun text htext => hline ⟨text, htext⟩]
    exact Ensures.bind (prepare_openFrom line h) fun _ t ht => finishAll_sound line ht

/-- Every line keeps a draft sound, and fails only for a cause that is about one entry. -/
theorem add_sound (line : SourceLine) (h : d.Sound) :
    Ensures (add line) d (fun _ t => t.Sound) Cause.OfEntry := by
  cases line with
  | doc line => exact addDoc_sound line h
  | code line =>
      refine (addCode_empties line h).mono ?_
      rintro _ t ⟨hentries, hselection⟩
      exact sound_of_empty hentries hselection

/-- What finishing the entries does before it closes the one at a place. -/
def beforeClosing (line : CodeLine) (i : Nat) : Act Draft Unit := do
  Act.each (List.range i) (finish line)
  onEntry i line.update

/-- An entry is never found closed when its turn to be closed comes. -/
theorem Sound.close_ne_false (h : d.Sound) {line : CodeLine} {prepared t : Draft}
    {warnings more : List Warning} (hprepared : prepare line d = ⟨prepared, warnings, .ok ()⟩)
    (hi : i < prepared.entries.length) (ht : beforeClosing line i prepared = ⟨t, more, .ok ()⟩) :
    (onEntry i Entry.close t).result ≠ .ok false := by
  have hopen := (prepare_openFrom line h).of_ok hprepared
  have hturn : Ensures (beforeClosing line i) prepared
      (fun _ t => OpenFrom prepared.entries.length i t) Cause.OfEntry := by
    refine Ensures.bind (finishes_openFrom line (Nat.le_of_lt hi) hopen) ?_
    intro _ u hu
    exact onEntry_update_openFrom line hi hu
  have hclose := onEntry_close_openFrom hi (hturn.of_ok ht)
  intro hfalse
  unfold Ensures at hclose
  rw [hfalse] at hclose
  exact absurd hclose.1 (by decide)

end PluginHelp.Draft
