/-
A line of code finishes the entries above it, each one by itself.

The entries stay in the draft while they are finished one after the other, by their places.  That
this comes to the same thing as completing a list of entries item by item is what `finishAll_ok` and
`finishAll_error` say; so what is known of one entry carries over to all of them.  If something goes
wrong, the entries that were finished before it are completed ones all the same.
-/
import PluginHelp.Proofs.Entry.Closing
import PluginHelp.Proofs.Source.Reading
import PluginHelp.Proofs.Source.Undefined

namespace PluginHelp

open Act

namespace CodeLine

/-- What a line of code does to one entry: it learns what it is about, and is closed. -/
def complete (line : CodeLine) : Act Entry Unit := do
  line.update
  let _ ← Entry.close

/-- The entry that a line of code makes of one above it. -/
def completed (line : CodeLine) (e : Entry) : Except Fault Entry :=
  (line.complete e).result.map fun _ => (line.complete e).state

/-- What is completed is a learnt entry that was closed. -/
theorem completed_eq_ok {line : CodeLine} {e t : Entry} (h : line.completed e = .ok t) :
    ∃ u before wasOpen after, line.update e = ⟨u, before, .ok ()⟩
      ∧ Entry.close u = ⟨t, after, .ok wasOpen⟩ := by
  unfold completed at h
  rcases hcomplete : line.complete e with ⟨v, warnings, fault | a⟩
  · rw [hcomplete] at h
    cases h
  · rw [hcomplete] at h
    obtain rfl : v = t := Except.ok.inj h
    obtain ⟨u, before, _, after, hupdate, hrest, -⟩ := bind_eq_ok_iff.mp hcomplete
    obtain ⟨w, first, wasOpen, last, hclose, hpure, -⟩ := bind_eq_ok_iff.mp hrest
    obtain ⟨rfl, -, -⟩ := Outcome.mk.inj hpure
    exact ⟨u, before, wasOpen, first, hupdate, hclose⟩

theorem complete_of_completed_error {line : CodeLine} {e : Entry} {fault : Fault}
    (h : line.completed e = .error fault) : (line.complete e).result = .error fault := by
  unfold completed at h
  cases hresult : (line.complete e).result with
  | ok a =>
      rw [hresult] at h
      cases h
  | error other =>
      rw [hresult] at h
      exact congrArg Except.error (Except.error.inj h)

/-- Closing a learnt entry settles its usage, and leaves the rest as it was. -/
theorem completed_same {line : CodeLine} {e u t : Entry} {before after : List Warning}
    {wasOpen : Bool} (hopen : e.isClosed = false) (hundefined : e.Undefined)
    (hupdate : line.update e = ⟨u, before, .ok ()⟩)
    (hclose : Entry.close u = ⟨t, after, .ok wasOpen⟩) :
    Entry.SameButUsage u.shut.inferred t ∧ t.Settled := by
  have hframe : u.frame = e.frame := by
    have hview := (update_framed line).view_eq e
    rw [hupdate] at hview
    exact hview
  have husage : u.own? "usage" = none :=
    ((update_usage line e).of_ok hupdate).trans (hundefined.absent "usage" (by decide))
  exact (Entry.close_settles ((Entry.isClosed_eq_of_frame hframe).trans hopen) husage).of_ok hclose

/-- A completed entry has its usage. -/
theorem completed_settled {line : CodeLine} {e t : Entry} (hopen : e.isClosed = false)
    (hundefined : e.Undefined) (h : line.completed e = .ok t) : t.Settled := by
  obtain ⟨u, before, wasOpen, after, hupdate, hclose⟩ := completed_eq_ok h
  exact (completed_same hopen hundefined hupdate hclose).2

end CodeLine

namespace Draft

variable {α : Type} {d : Draft} {line : CodeLine} {front rest : List Entry} {e t : Entry}

/-- A step on the entry at a place is a step on that entry. -/
theorem onEntry_apply (hd : d.entries = front ++ e :: rest) {act : Act Entry α}
    {warnings : List Warning} {result : Except Fault α} (h : act e = ⟨t, warnings, result⟩) :
    onEntry front.length act d
      = ⟨{ d with entries := front ++ t :: rest }, warnings, result⟩ := by
  unfold onEntry
  rw [hd, List.getElem?_append_right (Nat.le_refl _), Nat.sub_self]
  simp [h]

/-- An entry that can be completed is finished by that. -/
theorem finish_ok (hd : d.entries = front ++ e :: rest) (h : line.completed e = .ok t) :
    ∃ warnings, finish line front.length d
      = ⟨{ d with entries := front ++ t :: rest, finished := d.finished ++ [t] }, warnings,
        .ok ()⟩ := by
  obtain ⟨u, before, wasOpen, after, hupdate, hclose⟩ := CodeLine.completed_eq_ok h
  unfold finish
  rw [bind_apply_ok _ (onEntry_apply hd hupdate), bind_apply_ok _ (onEntry_apply rfl hclose)]
  simp only [Act.modify]
  rw [List.getElem?_append_right (Nat.le_refl _), Nat.sub_self]
  exact ⟨_, rfl⟩

/-- An entry that cannot be completed cannot be finished. -/
theorem finish_error (hd : d.entries = front ++ e :: rest) {fault : Fault}
    (h : line.completed e = .error fault) :
    (finish line front.length d).result = .error fault := by
  have hcomplete := CodeLine.complete_of_completed_error h
  unfold CodeLine.complete at hcomplete
  unfold finish
  rcases hupdate : line.update e with ⟨u, before, other | a⟩
  · rw [bind_apply_error _ hupdate] at hcomplete
    rw [bind_apply_error _ (onEntry_apply hd hupdate)]
    exact hcomplete
  · rw [bind_apply_ok _ hupdate] at hcomplete
    rw [bind_apply_ok _ (onEntry_apply hd hupdate)]
    rcases hclose : Entry.close u with ⟨v, after, other | wasOpen⟩
    · rw [bind_apply_error _ hclose] at hcomplete
      rw [bind_apply_error _ (onEntry_apply rfl hclose)]
      exact hcomplete
    · rw [bind_apply_ok _ hclose] at hcomplete
      cases hcomplete

/-- Finishing the entries from some place on. -/
theorem finishes_ok {done : List Entry} (hd : d.entries = front ++ rest)
    (h : rest.mapM line.completed = .ok done) :
    ∃ warnings, Act.each (List.range' front.length rest.length) (finish line) d
      = ⟨{ d with entries := front ++ done, finished := d.finished ++ done }, warnings,
        .ok ()⟩ := by
  induction rest generalizing d front done with
  | nil =>
      obtain rfl : [] = done := Except.ok.inj h
      refine ⟨[], ?_⟩
      rw [List.length_nil, List.range'_zero, each_nil, List.append_nil, List.append_nil]
      rw [List.append_nil] at hd
      rw [← hd]
      rfl
  | cons e rest ih =>
      rw [List.mapM_cons] at h
      obtain ⟨t, ht, hmore⟩ := Except.bind_eq_ok_iff.mp h
      obtain ⟨others, hothers, hdone⟩ := Except.bind_eq_ok_iff.mp hmore
      obtain rfl : t :: others = done := Except.ok.inj hdone
      obtain ⟨before, hfirst⟩ := finish_ok hd ht
      have hnext : ({ d with entries := front ++ t :: rest, finished := d.finished ++ [t] } :
          Draft).entries = (front ++ [t]) ++ rest := by simp
      obtain ⟨after, hrest⟩ := ih hnext hothers
      rw [List.length_append, List.length_singleton] at hrest
      refine ⟨before ++ after, ?_⟩
      rw [List.length_cons, List.range'_succ, each_cons, bind_apply_ok _ hfirst, hrest]
      simp

theorem finishes_error {fault : Fault} (hd : d.entries = front ++ rest)
    (h : rest.mapM line.completed = .error fault) :
    (Act.each (List.range' front.length rest.length) (finish line) d).result = .error fault := by
  induction rest generalizing d front with
  | nil => cases h
  | cons e rest ih =>
      rw [List.length_cons, List.range'_succ, each_cons]
      cases hfirst : line.completed e with
      | error other =>
          have hfault := finish_error hd hfirst
          rw [List.mapM_cons, hfirst] at h
          obtain rfl : other = fault := Except.error.inj h
          rcases hrun : finish line front.length d with ⟨t, warnings, other | a⟩
          · rw [hrun] at hfault
            rw [bind_apply_error _ hrun]
            exact congrArg Except.error (Except.error.inj hfault)
          · rw [hrun] at hfault
            cases hfault
      | ok t =>
          obtain ⟨before, hrun⟩ := finish_ok hd hfirst
          rw [bind_apply_ok _ hrun]
          have hnext : ({ d with entries := front ++ t :: rest, finished := d.finished ++ [t] } :
              Draft).entries = (front ++ [t]) ++ rest := by simp
          have hrest : rest.mapM line.completed = .error fault := by
            rw [List.mapM_cons, hfirst] at h
            cases hmore : rest.mapM line.completed with
            | ok others =>
                rw [hmore] at h
                cases h
            | error other =>
                rw [hmore] at h
                exact congrArg Except.error (Except.error.inj h)
          have hlater := ih hnext hrest
          rw [List.length_append, List.length_singleton] at hlater
          exact hlater

/-- A line of code finishes all entries if each of them can be completed. -/
theorem finishAll_ok {done : List Entry} (h : d.entries.mapM line.completed = .ok done) :
    ∃ warnings, finishAll line d = ⟨{ finished := d.finished ++ done }, warnings, .ok ()⟩ := by
  obtain ⟨warnings, hrun⟩ := finishes_ok (show d.entries = [] ++ d.entries from rfl) h
  refine ⟨warnings, ?_⟩
  unfold finishAll
  rw [get_bind_apply, List.range_eq_range']
  rw [List.length_nil] at hrun
  rw [bind_apply_ok _ hrun, clear]
  simp [Act.modify]

/-- If one of them cannot be completed, the first such one is what goes wrong. -/
theorem finishAll_error {fault : Fault} (h : d.entries.mapM line.completed = .error fault) :
    (finishAll line d).result = .error fault := by
  have hrun := finishes_error (show d.entries = [] ++ d.entries from rfl) h
  unfold finishAll
  rw [get_bind_apply, List.range_eq_range']
  rw [List.length_nil] at hrun
  rcases heach : Act.each (List.range' 0 d.entries.length) (finish line) d with
    ⟨t, warnings, other | a⟩
  · rw [heach] at hrun
    rw [bind_apply_error _ heach]
    exact hrun
  · rw [heach] at hrun
    cases hrun

/-! ### What is finished -/

/-- A step that finishes no entry. -/
abbrev FinishesNone (act : Act Draft α) : Prop :=
  Confined Draft.finished (fun _ => True) act

theorem onEntry_finishesNone (i : Nat) (act : Act Entry α) : FinishesNone (onEntry i act) := by
  rintro _ d rfl
  refine ⟨?_, fun _ _ => trivial⟩
  unfold onEntry
  split <;> rfl

theorem each_finishesNone {items : List α} {act : α → Act Draft Unit}
    (h : ∀ a, FinishesNone (act a)) : FinishesNone (Act.each items act) :=
  fun shown => Keeps.each fun a _ => h a shown

theorem onSelected_finishesNone (act : Act Entry Unit) : FinishesNone (onSelected act) := by
  unfold onSelected
  refine Confined.get.bind fun d => each_finishesNone fun n => Confined.get.bind fun t => ?_
  refine Confined.ite (fun _ => Confined.fail trivial) fun _ => ?_
  split
  · exact onEntry_finishesNone _ act
  · exact Confined.fail trivial

theorem addDoc_finishesNone (line : DocLine) : FinishesNone (addDoc line) := by
  have hplain (line : DocLine) : FinishesNone (do
      begin
      onSelected line.update) := by
    refine Confined.bind (Confined.modify fun d => ?_) fun _ => onSelected_finishesNone _
    split <;> rfl
  cases line with
  | all =>
      refine Confined.bind (Confined.modify fun _ => rfl) fun _ => Confined.get.bind fun d => ?_
      exact each_finishesNone fun i => onEntry_finishesNone i _
  | header header =>
      refine Confined.get.bind fun d => ?_
      refine Confined.ite (fun _ => Confined.bind (Confined.modify fun _ => rfl) fun _ => ?_)
        fun _ => Confined.bind (Confined.assume fun _ => trivial) fun _ => ?_
      all_goals exact onSelected_finishesNone _
  | _ => exact hplain _

theorem prepare_finishesNone (line : CodeLine) : FinishesNone (prepare line) := by
  unfold prepare
  split
  · refine Confined.bind (Confined.modify fun d => ?_) fun _ => Confined.get.bind fun d => ?_
    · split <;> rfl
    · exact onEntry_finishesNone _ _
  · exact Confined.pure ()

/-- An entry that came about when a line of code completed an open one with a property. -/
def IsCompleted (P : Entry → Prop) (e : Entry) : Prop :=
  ∃ (line : CodeLine) (begun : Entry),
    begun.isClosed = false ∧ P begun ∧ line.completed begun = .ok e

variable {P : Entry → Prop} {allowed : Cause → Prop}

/-- Whatever comes of a step, all that it finishes are completed entries. -/
def Finishes (P : Entry → Prop) (act : Act Draft α) (d : Draft) : Prop :=
  ∀ e ∈ (act d).state.finished, e ∈ d.finished ∨ IsCompleted P e

theorem FinishesNone.finishes {act : Act Draft α} (h : FinishesNone act) (d : Draft) :
    Finishes P act d := by
  intro e he
  rw [h.view_eq d] at he
  exact Or.inl he

/-- The next step is taken only if the first one succeeds. -/
theorem Finishes.bind {β : Type} {act : Act Draft α} {next : α → Act Draft β}
    {post : α → Draft → Prop} (h : Finishes P act d) (hpost : Ensures act d post allowed)
    (k : ∀ a t, post a t → Finishes P (next a) t) : Finishes P (act >>= next) d := by
  unfold Finishes at h ⊢
  rcases hact : act d with ⟨t, warnings, fault | a⟩
  · rw [hact] at h
    rw [bind_apply_error next hact]
    exact h
  · rw [hact] at h
    rw [bind_apply_ok next hact]
    intro e he
    rcases k a t (hpost.of_ok hact) e he with he | he
    · exact h e he
    · exact Or.inr he

/-- An entry that cannot be completed is not finished. -/
theorem finished_of_error {i : Nat} {fault : Fault} (h : (finish line i d).result = .error fault) :
    (finish line i d).state.finished = d.finished := by
  have hupdated := (onEntry_finishesNone i line.update).view_eq d
  unfold finish at h ⊢
  rcases hupdate : onEntry i line.update d with ⟨t, before, other | a⟩
  · rw [hupdate] at hupdated
    rw [bind_apply_error _ hupdate]
    exact hupdated
  · rw [hupdate] at hupdated
    rw [bind_apply_ok _ hupdate] at h ⊢
    have hclosed := (onEntry_finishesNone i Entry.close).view_eq t
    rcases hclose : onEntry i Entry.close t with ⟨u, after, other | wasOpen⟩
    · rw [hclose] at hclosed
      rw [bind_apply_error _ hclose]
      exact hclosed.trans hupdated
    · rw [bind_apply_ok _ hclose] at h
      cases h

/-- Of the entries from some place on, those that are finished were completed. -/
theorem completed_of_finished (hd : d.entries = front ++ rest) :
    ∀ e ∈ (Act.each (List.range' front.length rest.length) (finish line) d).state.finished,
      e ∈ d.finished ∨ ∃ begun ∈ rest, line.completed begun = .ok e := by
  induction rest generalizing d front with
  | nil =>
      intro e he
      exact Or.inl he
  | cons begun rest ih =>
      intro e he
      rw [List.length_cons, List.range'_succ, each_cons] at he
      cases hfirst : line.completed begun with
      | error fault =>
          have hfault := finish_error hd hfirst
          have hsame := finished_of_error hfault
          rcases hrun : finish line front.length d with ⟨t, warnings, other | a⟩
          · rw [hrun] at hsame
            rw [bind_apply_error _ hrun, show t.finished = d.finished from hsame] at he
            exact Or.inl he
          · rw [hrun] at hfault
            cases hfault
      | ok t =>
          obtain ⟨warnings, hrun⟩ := finish_ok hd hfirst
          have hnext : ({ d with entries := front ++ t :: rest, finished := d.finished ++ [t] } :
              Draft).entries = (front ++ [t]) ++ rest := by simp
          have hlater := ih hnext e
          rw [List.length_append, List.length_singleton] at hlater
          rw [bind_apply_ok _ hrun] at he
          rcases hlater he with he | ⟨other, hother, hcompleted⟩
          · rcases List.mem_append.mp he with he | he
            · exact Or.inl he
            · rw [List.mem_singleton.mp he]
              exact Or.inr ⟨begun, List.mem_cons_self, hfirst⟩
          · exact Or.inr ⟨other, List.mem_cons_of_mem _ hother, hcompleted⟩

theorem finishAll_finishes (h : OpenFrom d.entries.length 0 d) (hevery : d.Every P) :
    Finishes P (finishAll line) d := by
  have hclear : (finishAll line d).state.finished
      = (Act.each (List.range d.entries.length) (finish line) d).state.finished := by
    unfold finishAll
    rw [get_bind_apply]
    rcases heach : Act.each (List.range d.entries.length) (finish line) d with
      ⟨t, warnings, fault | a⟩
    · rw [bind_apply_error _ heach]
    · rw [bind_apply_ok _ heach]
      rfl
  intro e he
  rw [hclear, List.range_eq_range'] at he
  rcases completed_of_finished (show d.entries = [] ++ d.entries from rfl) e he with
    he | ⟨begun, hbegun, hcompleted⟩
  · exact Or.inl he
  · obtain ⟨i, hi⟩ := List.mem_iff_getElem?.mp hbegun
    exact Or.inr ⟨line, begun, h.2 i begun (Nat.zero_le i) hi, hevery begun hbegun, hcompleted⟩

/-- All that a line finishes are completed entries. -/
theorem add_finishes (hP : Entry.Kept P allowed) (line : SourceLine) (h : d.Sound)
    (hevery : d.Every P) : Finishes P (add line) d := by
  cases line with
  | doc line => exact FinishesNone.finishes (addDoc_finishesNone line) d
  | code line =>
      show Finishes P (addCode line) d
      by_cases hline : ∃ text, line = .unrecognized text
      · obtain ⟨text, rfl⟩ := hline
        intro e he
        exact Or.inl he
      · rw [addCode_eq line fun text htext => hline ⟨text, htext⟩]
        have hprepare := (prepare_openFrom line h).both (prepare_every hP line hevery)
        refine Finishes.bind ((prepare_finishesNone line).finishes d) hprepare fun _ t ht => ?_
        exact finishAll_finishes ht.1 ht.2

theorem finish_finishes (hP : Entry.Kept P allowed) (fault : Option Fault) (h : d.Sound)
    (hevery : d.Every P) : Finishes P (Reading.finish fault) d := by
  cases fault with
  | some fault =>
      intro e he
      exact Or.inl he
  | none => exact add_finishes hP (.code .endOfFile) h hevery

/-- All that a file finishes are completed entries. -/
theorem addLines_finishes (hP : Entry.Kept P allowed) (fault : Option Fault)
    (lines : List (Nat × SourceLine)) (h : d.Sound) (hevery : d.Every P) :
    Finishes P (Reading.addLines fault lines) d := by
  induction lines generalizing d with
  | nil =>
      rw [Reading.addLines, each_nil, pure_bind]
      exact finish_finishes hP fault h hevery
  | cons line lines ih =>
      rw [Reading.addLines_cons]
      have hline := (add_sound line.2 h).both (add_every hP line.2 h hevery)
      exact (add_finishes hP line.2 h hevery).bind hline fun _ t ht => ih ht.1 ht.2

end Draft

/-- A file that can be read is one whose lines can be brought into a draft, and its entries are the
finished ones of that. -/
theorem Source.entries_ok {file : Option String} {lines : List String}
    (h : (Source.entries file lines).result = .ok ()) :
    ∃ d warnings,
      Reading.addLines (SourceLine.ofFile lines).fault (SourceLine.ofFile lines).items {}
        = ⟨d, warnings, .ok ()⟩
      ∧ (Source.entries file lines).state = d.finished := by
  have halike := Reading.addAll_alike file (SourceLine.ofFile lines).fault
    (SourceLine.ofFile lines).items 0 {}
  have hresult := halike.result
  rw [show (Draft.addAll file (SourceLine.ofFile lines).fault 0 (SourceLine.ofFile lines).items
    {}).result = .ok () from h] at hresult
  rcases hrun : Reading.addLines (SourceLine.ofFile lines).fault (SourceLine.ofFile lines).items {}
    with ⟨d, warnings, fault | a⟩
  · rw [hrun] at hresult
    cases hresult
  · rw [hrun] at halike
    exact ⟨d, warnings, rfl, congrArg Draft.finished halike.state⟩

/-- The entries of a file were completed by a line of code each, whatever is found wrong later. -/
theorem Source.entries_completed {P : Entry → Prop} {allowed : Cause → Prop}
    (hP : Entry.Kept P allowed) (file : Option String) (lines : List String) :
    ∀ e ∈ (Source.entries file lines).state, Draft.IsCompleted P e := by
  intro e he
  have halike := Reading.addAll_alike file (SourceLine.ofFile lines).fault
    (SourceLine.ofFile lines).items 0 {}
  rw [show (Source.entries file lines).state = _ from congrArg Draft.finished halike.state] at he
  have hsound : Draft.Sound {} := Draft.sound_of_empty rfl rfl
  rcases Draft.addLines_finishes hP _ _ hsound (Draft.every_of_empty rfl) e he with hnone | hdone
  · cases hnone
  · exact hdone

/-- The entries of a file have their usages. -/
theorem Source.entries_settled (file : Option String) (lines : List String) :
    ∀ e ∈ (Source.entries file lines).state, e.Settled := by
  intro e he
  obtain ⟨line, begun, hopen, hundefined, hcompleted⟩ :=
    Source.entries_completed Entry.undefined_kept file lines e he
  exact CodeLine.completed_settled hopen hundefined hcompleted

end PluginHelp
