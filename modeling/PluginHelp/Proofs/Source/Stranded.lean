/-
When reading a file breaks.

Nearly everything that can be wrong with a file is foreseen, and reported as a fault of its
documentation.  What is not foreseen comes up in one way only.  An entry about a function or a command
needs a usage, and that needs what the line of code below the comment tells.  Where a blank line or
the end of the file stands below it instead, the entry is stranded: it is closed, and there is nothing
to make the usage of.

So a draft breaks at a line exactly if the line tells nothing and an entry is stranded there, and a
file breaks exactly if its draft does at one of its lines.
-/
import PluginHelp.Proofs.Entry.Usage
import PluginHelp.Proofs.Source.Finishing

namespace PluginHelp

open Act Entry

/-! ### Breaking -/

/-- Something went wrong that was not foreseen. -/
def Outcome.Breaks {σ α : Type} (o : Outcome σ α) (cause : Cause) : Prop :=
  cause.isForeseen = false ∧ o.result.mapError (·.cause) = .error cause

section Breaking

variable {σ α β : Type} {s t : σ} {cause : Cause}

theorem breaks_of_error {o : Outcome σ α} {fault : Fault} (h : o.result = .error fault) :
    o.Breaks cause ↔ cause.isForeseen = false ∧ fault.cause = cause := by
  unfold Outcome.Breaks
  rw [h]
  exact and_congr_right fun _ => ⟨fun heq => Except.error.inj heq, fun heq => congrArg _ heq⟩

theorem not_breaks_of_ok {o : Outcome σ α} {a : α} (h : o.result = .ok a) : ¬o.Breaks cause := by
  rintro ⟨-, hresult⟩
  rw [h] at hresult
  cases hresult

/-- A step whose faults are foreseen does not break. -/
theorem Act.Ensures.not_breaks {act : Act σ α} {post : α → σ → Prop}
    (h : Ensures act s post (·.isForeseen = true)) : ¬(act s).Breaks cause := by
  intro hbreaks
  cases hresult : (act s).result with
  | ok a => exact not_breaks_of_ok hresult hbreaks
  | error fault =>
      obtain ⟨hforeseen, rfl⟩ := (breaks_of_error hresult).mp hbreaks
      rw [h.of_error hresult] at hforeseen
      cases hforeseen

theorem Outcome.Breaks.bind {act : Act σ α} (h : (act s).Breaks cause) (next : α → Act σ β) :
    ((act >>= next) s).Breaks cause := by
  rcases hact : act s with ⟨t, warnings, fault | a⟩
  · rw [hact] at h
    rw [bind_apply_error next hact]
    exact (breaks_of_error rfl).mpr ((breaks_of_error rfl).mp h)
  · rw [hact] at h
    exact absurd h (not_breaks_of_ok rfl)

/-- After a step that succeeds it is the next one that breaks. -/
theorem bind_breaks_of_ok {act : Act σ α} (next : α → Act σ β) {warnings : List Warning} {a : α}
    (h : act s = ⟨t, warnings, .ok a⟩) :
    ((act >>= next) s).Breaks cause ↔ (next a t).Breaks cause := by
  rw [bind_apply_ok next h]
  rfl

/-- After a step that does not break it is the next one that does. -/
theorem bind_breaks_iff {act : Act σ α} (next : α → Act σ β) (h : ¬(act s).Breaks cause) :
    ((act >>= next) s).Breaks cause ↔
      ∃ t warnings a, act s = ⟨t, warnings, .ok a⟩ ∧ (next a t).Breaks cause := by
  rcases hact : act s with ⟨t, warnings, fault | a⟩
  · rw [hact] at h
    rw [bind_apply_error next hact]
    constructor
    · intro hbreaks
      exact absurd ((breaks_of_error rfl).mpr ((breaks_of_error rfl).mp hbreaks)) h
    · rintro ⟨_, _, a, heq, -⟩
      cases heq
  · rw [bind_breaks_of_ok next hact]
    constructor
    · exact fun hbreaks => ⟨t, warnings, a, rfl, hbreaks⟩
    · rintro ⟨_, _, _, heq, hbreaks⟩
      obtain ⟨rfl, -, heq⟩ := Outcome.mk.inj heq
      obtain rfl := Except.ok.inj heq
      exact hbreaks

end Breaking

/-! ### One entry -/

/-- What an entry has to be like to be closed where no line of code tells about it. -/
def Entry.ClosesAlone (e : Entry) : Prop :=
  e.needsUsage = false ∧ e.misplacesPrivate = false

instance (e : Entry) : Decidable e.ClosesAlone :=
  inferInstanceAs (Decidable (_ ∧ _))

theorem Entry.strandedCause_unforeseen (e : Entry) : e.strandedCause.isForeseen = false := by
  unfold strandedCause
  split <;> rfl

namespace CodeLine

variable {line : CodeLine} {e : Entry}

/-- A line that tells nothing only closes an entry. -/
theorem completed_of_none (hkind : line.kind? = none) :
    line.completed e = (close e).result.map fun _ => (close e).state := by
  unfold completed complete
  rw [update_of_none hkind, pure_bind]
  rcases hclose : close e with ⟨t, warnings, fault | a⟩
  · rw [bind_apply_error _ hclose]
    rfl
  · rw [bind_apply_ok _ hclose]
    rfl

theorem completed_stranded (hkind : line.kind? = none) (hopen : e.isClosed = false)
    (hundefined : e.Undefined) (hneeds : e.needsUsage = true) :
    line.completed e = .error { cause := e.strandedCause } := by
  rw [completed_of_none hkind, close_stranded hopen hundefined hneeds]
  rfl

theorem completed_alone_iff (hkind : line.kind? = none) (hopen : e.isClosed = false)
    (hundefined : e.Undefined) : (∃ t, line.completed e = .ok t) ↔ e.ClosesAlone := by
  cases hneeds : e.needsUsage with
  | true =>
      rw [completed_stranded hkind hopen hundefined hneeds, ClosesAlone, hneeds]
      simp
  | false =>
      rw [completed_of_none hkind, close_of_no_usage hopen hneeds, ClosesAlone, hneeds]
      cases e.misplacesPrivate with
      | true => simp [Except.map]
      | false => simp [Except.map]

/-- A line that tells what an entry is about, or that need not, has only foreseen faults. -/
theorem completed_foreseen (hopen : e.isClosed = false) (hundefined : e.Undefined)
    (hneeds : line.kind? = none → e.needsUsage = false) {fault : Fault}
    (h : line.completed e = .error fault) : fault.cause.isForeseen = true := by
  have hupdate : Ensures line.update e
      (fun _ t => t.isClosed = false ∧ (t.needsUsage = true → t.Described))
      (·.isForeseen = true) := by
    cases hkind : line.kind? with
    | none =>
        rw [update_of_none hkind]
        refine Ensures.pure ⟨hopen, fun hyes => ?_⟩
        rw [hneeds hkind] at hyes
        cases hyes
    | some kind =>
        have hframe := (Ensures.of_confined (update_framed line) e).allow
          (fun _ _ => trivial : ∀ cause, _ → True)
        refine ((update_gains hkind e).both hframe).mono (fun _ t ht => ⟨?_, fun hyes => ?_⟩)
          |>.allow fun _ hcause => hcause.1
        · exact (isClosed_eq_of_frame ht.2).trans hopen
        · exact described_of_gains hkind hundefined ht.1 hyes
  have hcomplete : Ensures line.complete e (fun _ _ => True) (·.isForeseen = true) := by
    refine Ensures.bind hupdate fun _ t ht => ?_
    exact Ensures.bind (close_foreseen ht.1 ht.2) fun _ _ _ => Ensures.pure trivial
  exact hcomplete.of_error (complete_of_completed_error h)

end CodeLine

/-! ### A draft -/

namespace Draft

variable {d : Draft} {line : CodeLine} {e : Entry} {cause : Cause}

/-- An entry needs a usage, and is the first one that cannot be closed alone. -/
def Stranded (d : Draft) (e : Entry) : Prop :=
  ∃ done later, d.entries = done ++ e :: later ∧ (∀ other ∈ done, other.ClosesAlone)
    ∧ e.needsUsage = true

/-- Open entries, which documentation alone has made. -/
def AreBegun (entries : List Entry) : Prop :=
  ∀ e ∈ entries, e.isClosed = false ∧ e.Undefined

theorem areBegun_of_openFrom (h : OpenFrom d.entries.length 0 d) (hundefined : d.Undefined) :
    AreBegun d.entries := by
  intro e he
  obtain ⟨i, hi⟩ := List.mem_iff_getElem?.mp he
  exact ⟨h.2 i e (Nat.zero_le i) hi, hundefined e he⟩

/-- A line that tells nothing completes entries exactly if each can be closed alone. -/
theorem completed_all_iff (hkind : line.kind? = none) {entries : List Entry}
    (h : AreBegun entries) :
    (∃ done, entries.mapM line.completed = .ok done) ↔ ∀ e ∈ entries, e.ClosesAlone := by
  rw [Except.exists_mapM_iff]
  exact forall₂_congr fun e he => CodeLine.completed_alone_iff hkind (h e he).1 (h e he).2

/-- Finishing the entries breaks exactly if the line tells nothing and an entry is stranded. -/
theorem finishAll_breaks_iff (h : AreBegun d.entries) :
    (finishAll line d).Breaks cause ↔
      line.kind? = none ∧ ∃ e, d.Stranded e ∧ cause = e.strandedCause := by
  constructor
  · intro hbreaks
    cases hdone : d.entries.mapM line.completed with
    | ok done =>
        obtain ⟨warnings, hrun⟩ := finishAll_ok hdone
        rw [hrun] at hbreaks
        exact absurd hbreaks (not_breaks_of_ok rfl)
    | error fault =>
        obtain ⟨hunforeseen, rfl⟩ := (breaks_of_error (finishAll_error hdone)).mp hbreaks
        obtain ⟨done, e, later, made, hentries, hmade, he⟩ := Except.mapM_eq_error_iff.mp hdone
        rw [hentries] at h
        obtain ⟨hopen, hundefined⟩ := h e (by simp)
        -- The first entry that cannot be completed is the one to look at: every other fault
        -- is foreseen.
        have hstuck : line.kind? = none ∧ e.needsUsage = true := by
          by_contra hno
          have hforeseen := CodeLine.completed_foreseen hopen hundefined
            (fun hkind => by simpa [hkind] using hno) he
          rw [hforeseen] at hunforeseen
          cases hunforeseen
        have hbegun : AreBegun done := fun other hother => h other (List.mem_append_left _ hother)
        refine ⟨hstuck.1, e, ⟨done, later, hentries, ?_, hstuck.2⟩, ?_⟩
        · exact (completed_all_iff hstuck.1 hbegun).mp ⟨made, hmade⟩
        · rw [CodeLine.completed_stranded hstuck.1 hopen hundefined hstuck.2] at he
          rw [← Except.error.inj he]
  · rintro ⟨hkind, e, ⟨done, later, hentries, halone, hneeds⟩, rfl⟩
    rw [hentries] at h
    obtain ⟨hopen, hundefined⟩ := h e (by simp)
    have hbegun : AreBegun done := fun other hother => h other (List.mem_append_left _ hother)
    obtain ⟨made, hmade⟩ := (completed_all_iff hkind hbegun).mpr halone
    have hstranded := CodeLine.completed_stranded hkind hopen hundefined hneeds
    have hdone := Except.mapM_eq_error_iff.mpr ⟨done, e, later, made, hentries, hmade, hstranded⟩
    exact (breaks_of_error (finishAll_error hdone)).mpr ⟨e.strandedCause_unforeseen, rfl⟩

/-- Whether a line ends the entries above it without a word about them. -/
def endsSilently : SourceLine → Bool
  | .code .blank | .code .endOfFile => true
  | _ => false

/-- A line that defines something does not break a draft. -/
theorem addCode_not_breaks {kind : Kind} (hkind : line.kind? = some kind) (hd : d.Sound)
    (hundefined : d.Undefined) : ¬(addCode line d).Breaks cause := by
  have hknown (text : String) : line ≠ .unrecognized text := by
    rintro rfl
    cases hkind
  have hprepare := prepare_undefined line hundefined
  rw [addCode_eq line hknown, bind_breaks_iff _ hprepare.not_breaks]
  rintro ⟨t, warnings, a, ht, hbreaks⟩
  have hbegun := areBegun_of_openFrom ((prepare_openFrom line hd).of_ok ht) (hprepare.of_ok ht)
  rw [finishAll_breaks_iff hbegun, hkind] at hbreaks
  cases hbreaks.1

/-- A draft breaks exactly at the end of entries one of which is stranded. -/
theorem add_breaks_iff (line : SourceLine) (hd : d.Sound) (hundefined : d.Undefined) :
    (add line d).Breaks cause ↔
      endsSilently line = true ∧ ∃ e, d.Stranded e ∧ cause = e.strandedCause := by
  have hsilent {line : CodeLine} (hadd : add (.code line) = finishAll line)
      (hkind : line.kind? = none) (hline : endsSilently (.code line) = true) :
      (add (.code line) d).Breaks cause ↔
        endsSilently (.code line) = true ∧ ∃ e, d.Stranded e ∧ cause = e.strandedCause := by
    rw [hadd, finishAll_breaks_iff (areBegun_of_openFrom hd.openFrom hundefined)]
    exact and_congr_left' (iff_of_true hkind hline)
  have hnever {line : SourceLine} (hno : ¬(add line d).Breaks cause)
      (hline : endsSilently line = false) :
      (add line d).Breaks cause ↔
        endsSilently line = true ∧ ∃ e, d.Stranded e ∧ cause = e.strandedCause := by
    rw [hline]
    exact ⟨fun hbreaks => absurd hbreaks hno, fun h => absurd h.1 (by decide)⟩
  cases line with
  | doc line => exact hnever (addDoc_undefined line hd hundefined).not_breaks rfl
  | code line =>
      cases line with
      | blank | endOfFile => exact hsilent rfl rfl rfl
      | unrecognized text => exact hnever (not_breaks_of_ok rfl) rfl
      | function | command | setting | flag =>
          exact hnever (addCode_not_breaks rfl hd hundefined) rfl

end Draft

/-! ### A file -/

namespace Reading

variable {d : Draft} {cause : Cause}

/-- Whether the entries that are open before some lines end without a word about them, at a line or
at the end of the file. -/
def endsSilently (fault : Option Fault) : List (Nat × SourceLine) → Bool
  | [] => fault.isNone
  | line :: _ => Draft.endsSilently line.2

theorem finish_breaks_iff {fault : Option Fault}
    (hfault : ∀ other, fault = some other → other.cause.isForeseen = true) (hd : d.Sound)
    (hundefined : d.Undefined) :
    (finish fault d).Breaks cause ↔
      endsSilently fault [] = true ∧ ∃ e, d.Stranded e ∧ cause = e.strandedCause := by
  cases fault with
  | none => exact Draft.add_breaks_iff (.code .endOfFile) hd hundefined
  | some other =>
      constructor
      · intro hbreaks
        obtain ⟨hunforeseen, rfl⟩ := (breaks_of_error rfl).mp hbreaks
        rw [hfault other rfl] at hunforeseen
        cases hunforeseen
      · rintro ⟨hnone, -⟩
        cases hnone

/-- Bringing lines into a draft breaks exactly if an entry is stranded at one of them. -/
theorem addLines_breaks_iff {fault : Option Fault}
    (hfault : ∀ other, fault = some other → other.cause.isForeseen = true)
    (lines : List (Nat × SourceLine)) (hd : d.Sound) (hundefined : d.Undefined) :
    (addLines fault lines d).Breaks cause ↔
      ∃ before after t warnings e, lines = before ++ after
        ∧ Act.each before (fun line => Draft.add line.2) d = ⟨t, warnings, .ok ()⟩
        ∧ endsSilently fault after = true ∧ t.Stranded e ∧ cause = e.strandedCause := by
  -- Reading on from `d`: it breaks at the first line, or the rest breaks from what that line leaves.
  induction lines generalizing d with
  | nil =>
      rw [addLines, each_nil, pure_bind, finish_breaks_iff hfault hd hundefined]
      constructor
      · rintro ⟨hends, e, he, hcause⟩
        exact ⟨[], [], d, [], e, rfl, rfl, hends, he, hcause⟩
      · rintro ⟨front, back, u, warnings, e, hlines, hu, hends, he, hcause⟩
        obtain ⟨rfl, rfl⟩ := List.append_eq_nil_iff.mp hlines.symm
        obtain ⟨rfl, -, -⟩ := Outcome.mk.inj hu
        exact ⟨hends, e, he, hcause⟩
  | cons line lines ih =>
      have hrest {t : Draft} {warnings : List Warning}
          (ht : Draft.add line.2 d = ⟨t, warnings, .ok ()⟩) :=
        ih ((Draft.add_sound line.2 hd).of_ok ht)
          ((Draft.add_undefined line.2 hd hundefined).of_ok ht)
      rw [addLines_cons]
      constructor
      · intro hbreaks
        by_cases hline : (Draft.add line.2 d).Breaks cause
        · obtain ⟨hends, e, he, hcause⟩ := (Draft.add_breaks_iff line.2 hd hundefined).mp hline
          exact ⟨[], line :: lines, d, [], e, rfl, rfl, hends, he, hcause⟩
        · obtain ⟨t, before, _, ht, hbreaks⟩ := (bind_breaks_iff _ hline).mp hbreaks
          obtain ⟨front, back, u, after, e, rfl, hu, hends, he, hcause⟩ := (hrest ht).mp hbreaks
          refine ⟨line :: front, back, u, before ++ after, e, rfl, ?_, hends, he, hcause⟩
          rw [each_cons, bind_apply_ok _ ht, hu]
      · rintro ⟨front, back, u, warnings, e, hlines, hu, hends, he, hcause⟩
        cases front with
        | nil =>
            obtain rfl : line :: lines = back := hlines
            obtain ⟨rfl, -, -⟩ := Outcome.mk.inj hu
            have hline := (Draft.add_breaks_iff line.2 hd hundefined).mpr ⟨hends, e, he, hcause⟩
            exact hline.bind _
        | cons first front =>
            obtain ⟨rfl, rfl⟩ := List.cons.inj hlines
            rw [each_cons] at hu
            obtain ⟨t, before, _, after, ht, hu, -⟩ := bind_eq_ok_iff.mp hu
            rw [bind_breaks_of_ok _ ht]
            exact (hrest ht).mpr ⟨front, back, u, after, e, rfl, hu, hends, he, hcause⟩

theorem isForeseen_of_line (h : OfLine cause) : cause.isForeseen = true := by
  unfold OfLine at h
  split at h
  · rfl
  · rfl
  · rfl
  · exact h.elim

end Reading

/--
**A file breaks exactly if an entry in it is stranded.**

The lines before some place of the file can be read, and there a blank line or the end of the file
ends the entries that are open.  One of these is about a function or a command and no exception, and
those before it can be closed.  Then its usage cannot be made: the parameters of the function are
missing, or the name of the command is.

In all other cases the entries of the file are read to the end, or what is wrong is reported as a
fault of its documentation.
-/
theorem Source.breaks_iff_stranded (file : Option String) (lines : List String) (cause : Cause) :
    (Source.entries file lines).Breaks cause ↔
      ∃ before after d warnings e, (SourceLine.ofFile lines).items = before ++ after
        ∧ Act.each before (fun line => Draft.add line.2) {} = ⟨d, warnings, .ok ()⟩
        ∧ Reading.endsSilently (SourceLine.ofFile lines).fault after = true
        ∧ Draft.Stranded d e ∧ cause = e.strandedCause := by
  have halike := Reading.addAll_alike file (SourceLine.ofFile lines).fault
    (SourceLine.ofFile lines).items 0 {}
  have hsame : (Source.entries file lines).Breaks cause ↔ (Reading.addLines
      (SourceLine.ofFile lines).fault (SourceLine.ofFile lines).items {}).Breaks cause := by
    unfold Outcome.Breaks
    rw [← halike.result]
    rfl
  rw [hsame]
  exact Reading.addLines_breaks_iff
    (fun _ hfault => Reading.isForeseen_of_line (Reading.ofFile_cause hfault))
    _ (Draft.sound_of_empty rfl rfl) (Draft.undefined_of_empty rfl)

/-- A command that is documented above a blank line, since it is defined by other means, is stranded
there. -/
theorem Source.breaks_at_blank_line :
    let lines := ["\"\" @command Shout {text}\n", "\" Says {text} aloud.\n", "\n",
      "execute 'command' s:name\n"]
    let o := Act.each ((SourceLine.ofFile lines).items.take 2) (fun line => Draft.add line.2) {}
    o.result = .ok ()
    ∧ o.state.entries.length = 1
    ∧ (Source.entries none lines).Breaks (.missing "Unnamed block.") := by
  intro lines o
  obtain ⟨hresult, hends, hentries⟩ : o.result = .ok ()
      ∧ Reading.endsSilently (SourceLine.ofFile lines).fault
        ((SourceLine.ofFile lines).items.drop 2) = true
      ∧ o.state.entries.map (fun e => (e.needsUsage, e.strandedCause))
        = [(true, .missing "Unnamed block.")] := by decide +kernel
  obtain ⟨e, he, hstranded⟩ := List.map_eq_singleton_iff.mp hentries
  obtain ⟨hneeds, hcause⟩ := Prod.mk.inj hstranded
  have hread : Act.each ((SourceLine.ofFile lines).items.take 2) (fun line => Draft.add line.2) {}
      = ⟨o.state, o.warnings, .ok ()⟩ := by
    rw [← hresult]
  have hlines := (List.take_append_drop 2 (SourceLine.ofFile lines).items).symm
  refine ⟨hresult, by rw [he]; rfl, ?_⟩
  exact (Source.breaks_iff_stranded none lines _).mpr ⟨_, _, o.state, o.warnings, e, hlines, hread,
    hends, ⟨[], [], he, by simp, hneeds⟩, hcause.symm⟩

end PluginHelp
