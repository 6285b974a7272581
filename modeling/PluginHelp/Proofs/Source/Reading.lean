/-
Reading a file one logical line at a time.

`Source.entries` first picks out the lines that matter and then brings them into a draft.  Whether a
doc comment is open is known only while the lines are picked out, and the entries only while they
are brought in, so nothing can be said about both.  A `Reading` holds both, and `Reading.takeFile`
reads a file through it; that this comes to the same thing is `entries_eq_takeFile`.  The two may
differ in the place that a fault is given, which is no matter here.

With that the invariant of drafts holds of every file after every logical line, and the entries of a
doc comment are gone as soon as it is over.
-/
import Mathlib.Data.List.Basic
import PluginHelp.Proofs.Source.Draft

namespace PluginHelp

/-- A file that is being read: whether a doc comment is open, and the draft of its entries. -/
structure Reading where
  inDoc : Bool := false
  draft : Draft := {}

namespace Reading

open Act

/-- A step on the draft. -/
def onDraft {α : Type} (act : Act Draft α) : Act Reading α :=
  Act.on (·.draft) (fun draft r => { r with draft }) act

/-- Whether a doc comment is open after a logical line. -/
def staysInDoc (inDoc : Bool) (text : String) : Bool :=
  if inDoc then Source.isComment text else Pattern.docLeader.fits text

/-- What there is to read in a logical line: documentation, code, or nothing that matters. -/
def lineOf (inDoc : Bool) (text : String) : Except Cause (Option SourceLine) :=
  if inDoc then
    if Source.isComment text then
      (DocLine.read text).map fun line => some (.doc line)
    else
      .ok (some (.code (.read text)))
  else if Pattern.docLeader.fits text && !Pattern.bareDocLeader.fits text then
    (DocLine.read (Pattern.commentLeader.replace "" text)).map fun line => some (.doc line)
  else
    .ok none

/-- Reads a logical line. -/
def take (text : String) : Act Reading Unit := do
  let r ← Act.get
  Act.modify ({ · with inDoc := staysInDoc r.inDoc text })
  match ← Act.ofExcept (lineOf r.inDoc text) with
  | none => pure ()
  | some line => onDraft (Draft.add line)

/-- Comes to the end of a file, or to the fault that stands in its place. -/
def finish (fault : Option Fault) : Act Draft Unit :=
  match fault with
  | some fault => Act.stop fault
  | none => Draft.addCode .endOfFile

/-- Reads a file. -/
def takeFile (lines : List String) : Act Reading Unit := do
  Act.each (Source.logicalLines lines).items fun line => take line.2
  onDraft (finish (Source.logicalLines lines).fault)

/-! ### One line -/

theorem take_none {inDoc : Bool} {text : String} (h : lineOf inDoc text = .ok none) (d : Draft) :
    take text ⟨inDoc, d⟩ = ⟨⟨staysInDoc inDoc text, d⟩, [], .ok ()⟩ := by
  unfold take
  rw [get_bind_apply]
  dsimp only
  rw [h]
  rfl

theorem take_some {inDoc : Bool} {text : String} {line : SourceLine}
    (h : lineOf inDoc text = .ok (some line)) (d : Draft) :
    take text ⟨inDoc, d⟩ = ⟨⟨staysInDoc inDoc text, (Draft.add line d).state⟩,
      (Draft.add line d).warnings, (Draft.add line d).result⟩ := by
  unfold take
  rw [get_bind_apply]
  dsimp only
  rw [h]
  rfl

theorem take_error {inDoc : Bool} {text : String} {cause : Cause}
    (h : lineOf inDoc text = .error cause) (d : Draft) :
    take text ⟨inDoc, d⟩ = ⟨⟨staysInDoc inDoc text, d⟩, [], .error { cause }⟩ := by
  unfold take
  rw [get_bind_apply]
  dsimp only
  rw [h]
  rfl

/-- A line of code is one in a doc comment that is no comment. -/
theorem lineOf_code {inDoc : Bool} {text : String} {code : CodeLine}
    (h : lineOf inDoc text = .ok (some (.code code))) : code = .read text := by
  have hdoc {read : Except Cause DocLine}
      (hread : (read.map fun line => some (SourceLine.doc line)) = .ok (some (.code code))) :
      code = .read text := by
    cases read <;> cases hread
  unfold lineOf at h
  split at h
  · split at h
    · exact hdoc h
    · exact (SourceLine.code.inj (Option.some.inj (Except.ok.inj h))).symm
  · split at h
    · exact hdoc h
    · cases h

/-- The lines that matter are found one after the other. -/
theorem among_cons (inDoc : Bool) (number : Nat) (text : String) (lines : List (Nat × String)) :
    SourceLine.among inDoc ((number, text) :: lines) =
      match lineOf inDoc text with
      | .error cause => .failed { cause }
      | .ok none => SourceLine.among (staysInDoc inDoc text) lines
      | .ok (some line) =>
        (SourceLine.among (staysInDoc inDoc text) lines).after [(number, line)] := by
  rw [SourceLine.among]
  unfold SourceLine.readDoc lineOf staysInDoc
  cases inDoc with
  | true =>
      by_cases hcomment : Source.isComment text = true
      · simp only [hcomment, if_true]
        cases DocLine.read text with
        | ok line => rfl
        | error cause => rfl
      · simp only [hcomment, if_true]
        rfl
  | false =>
      by_cases hleader : Pattern.docLeader.fits text = true
      · by_cases hbare : Pattern.bareDocLeader.fits text = true
        · simp [hleader, hbare]
        · simp only [hleader, hbare, if_true]
          cases DocLine.read (Pattern.commentLeader.replace "" text) with
          | ok line => rfl
          | error cause => rfl
      · simp [hleader]

/-! ### The whole file -/

/-- Brings lines that matter into a draft and comes to the end of the file. -/
def addLines (fault : Option Fault) (lines : List (Nat × SourceLine)) : Act Draft Unit := do
  Act.each lines fun line => Draft.add line.2
  finish fault

theorem addLines_cons (fault : Option Fault) (line : Nat × SourceLine)
    (lines : List (Nat × SourceLine)) :
    addLines fault (line :: lines) = Draft.add line.2 >>= fun _ => addLines fault lines := by
  unfold addLines
  rw [each_cons, bind_assoc]

/-- Picking lines out while they are brought into the draft comes to the same thing as doing one
after the other. -/
theorem take_lines (fault : Option Fault) (logical : List (Nat × String)) :
    ∀ (inDoc : Bool) (d : Draft),
      let picked := SourceLine.among inDoc logical
      let both := (do
        Act.each logical fun line => take line.2
        onDraft (finish fault) : Act Reading Unit) ⟨inDoc, d⟩
      addLines (picked.fault <|> fault) picked.items d
        = ⟨both.state.draft, both.warnings, both.result⟩ := by
  induction logical with
  | nil =>
      intro inDoc d
      simp only [SourceLine.among, addLines, each_nil, pure_bind]
      rfl
  | cons line logical ih =>
      obtain ⟨number, text⟩ := line
      intro inDoc d
      dsimp only
      rw [among_cons, each_cons, bind_assoc]
      match h : lineOf inDoc text with
      | .error cause =>
          rw [bind_apply_error _ (take_error h d)]
          rfl
      | .ok none =>
          rw [bind_apply_ok _ (take_none h d), List.nil_append]
          exact ih _ d
      | .ok (some line) =>
          have htake := take_some h d
          dsimp only [Stream.after, List.singleton_append]
          rw [addLines_cons]
          match hadd : Draft.add line d with
          | ⟨t, warnings, .error fault⟩ =>
              rw [hadd] at htake
              rw [bind_apply_error _ htake, bind_apply_error _ hadd]
          | ⟨t, warnings, .ok ()⟩ =>
              rw [hadd] at htake
              rw [bind_apply_ok _ htake, bind_apply_ok _ hadd, ih]

/-! ### Places of faults -/

/-- Two outcomes that differ at most in the place that a fault is given. -/
structure Alike {σ α : Type} (o p : Outcome σ α) : Prop where
  state : o.state = p.state
  warnings : o.warnings = p.warnings
  result : o.result.mapError (·.cause) = p.result.mapError (·.cause)

theorem locatedAt_cause (fault : Fault) (file : Option String) (line : Int) :
    (fault.locatedAt file line).cause = fault.cause := by
  unfold Fault.locatedAt
  split <;> rfl

theorem located_alike {σ α : Type} (file : Option String) (line : Int) (act : Act σ α) (s : σ) :
    Alike (Act.located file line act s) (act s) := by
  refine ⟨rfl, rfl, ?_⟩
  show ((act s).result.mapError (·.locatedAt file line)).mapError (·.cause) = _
  cases (act s).result with
  | ok a => rfl
  | error fault => exact congrArg Except.error (locatedAt_cause fault file line)

/-- A fault is given a place, and that is all that a place has to do with. -/
theorem addAll_alike (file : Option String) (fault : Option Fault)
    (lines : List (Nat × SourceLine)) :
    ∀ (last : Nat) (d : Draft),
      Alike (Draft.addAll file fault last lines d) (addLines fault lines d) := by
  induction lines with
  | nil =>
      intro last d
      rw [addLines, each_nil, pure_bind]
      exact located_alike file (last + 1) (finish fault) d
  | cons line lines ih =>
      obtain ⟨number, line⟩ := line
      intro last d
      rw [Draft.addAll, addLines_cons]
      match hadd : Draft.add line d with
      | ⟨t, warnings, .error fault⟩ =>
          have hlocated : Act.located file (number + 1) (Draft.add line) d
              = ⟨t, warnings, .error (fault.locatedAt file (number + 1))⟩ := by
            unfold Act.located
            rw [hadd]
            rfl
          rw [bind_apply_error _ hlocated, bind_apply_error _ hadd]
          exact ⟨rfl, rfl, congrArg Except.error (locatedAt_cause fault file _)⟩
      | ⟨t, warnings, .ok ()⟩ =>
          have hlocated : Act.located file (number + 1) (Draft.add line) d
              = ⟨t, warnings, .ok ()⟩ := by
            unfold Act.located
            rw [hadd]
            rfl
          rw [bind_apply_ok _ hlocated, bind_apply_ok _ hadd]
          have hrest := ih number t
          exact ⟨hrest.state, congrArg (warnings ++ ·) hrest.warnings, hrest.result⟩

/-- Reading a file through `takeFile` gives its entries: the finished ones, the warnings and the
cause of a fault are the same. -/
theorem entries_eq_takeFile (file : Option String) (lines : List String) :
    Alike (Source.entries file lines)
      ⟨(takeFile lines {}).state.draft.finished, (takeFile lines {}).warnings,
        (takeFile lines {}).result⟩ := by
  have hplace := addAll_alike file (SourceLine.ofFile lines).fault (SourceLine.ofFile lines).items
    0 {}
  have hboth : addLines (SourceLine.ofFile lines).fault (SourceLine.ofFile lines).items {}
      = ⟨(takeFile lines {}).state.draft, (takeFile lines {}).warnings,
        (takeFile lines {}).result⟩ :=
    take_lines (Source.logicalLines lines).fault (Source.logicalLines lines).items false {}
  rw [hboth] at hplace
  exact ⟨congrArg Draft.finished hplace.state, hplace.warnings, hplace.result⟩

/-! ### The invariant -/

/-- The draft makes sense, and outside a doc comment there is no entry in it. -/
structure Sound (r : Reading) : Prop where
  draft : r.draft.Sound
  outside : r.inDoc = false → r.draft.entries = []

/-- The causes for which reading a file may fail: something is wrong with a line, or with an entry.
-/
def Allowed (cause : Cause) : Prop :=
  match cause with
  | .badArguments .. | .unknownDirective _ | .cannotContinue _ => True
  | cause => cause.OfEntry

theorem allowed_of_entry {cause : Cause} (h : cause.OfEntry) : Allowed cause := by
  unfold Allowed
  split
  · trivial
  · trivial
  · trivial
  · exact h

/-- The causes that are about a line before it is brought in. -/
def OfLine (cause : Cause) : Prop :=
  match cause with
  | .badArguments .. | .unknownDirective _ | .cannotContinue _ => True
  | _ => False

theorem allowed_of_line {cause : Cause} (h : OfLine cause) : Allowed cause := by
  unfold OfLine at h
  split at h
  · trivial
  · trivial
  · trivial
  · exact h.elim

theorem read_covers (text : String) : Covers OfLine (DocLine.read text) := by
  unfold DocLine.read
  split
  · split
    · unfold DocLine.ofDirective
      split
      · exact Covers.ok _
      · exact Covers.error trivial
    · exact Covers.error trivial
  · exact Covers.ok _

theorem lineOf_covers (inDoc : Bool) (text : String) : Covers OfLine (lineOf inDoc text) := by
  unfold lineOf
  refine Covers.ite (fun _ => Covers.ite (fun _ => ?_) fun _ => Covers.ok _)
    fun _ => Covers.ite (fun _ => ?_) fun _ => Covers.ok _
  · exact (read_covers _).map _
  · exact (read_covers _).map _

/-- Only outside a doc comment can a line be without meaning. -/
theorem inDoc_of_lineOf_none {inDoc : Bool} {text : String} (h : lineOf inDoc text = .ok none) :
    inDoc = false := by
  cases inDoc with
  | false => rfl
  | true =>
      unfold lineOf at h
      rw [if_pos rfl] at h
      split at h
      · cases hdoc : DocLine.read text <;> simp [hdoc, Except.map] at h
      · simp at h

/-- After a line of documentation the doc comment is still open. -/
theorem staysInDoc_of_lineOf_doc {inDoc : Bool} {text : String} {line : DocLine}
    (h : lineOf inDoc text = .ok (some (.doc line))) : staysInDoc inDoc text = true := by
  unfold lineOf at h
  unfold staysInDoc
  split at h
  · rename_i hinDoc
    split at h
    · rename_i hcomment
      rw [if_pos hinDoc]
      exact hcomment
    · simp at h
  · rename_i hinDoc
    split at h
    · rename_i hleader
      rw [if_neg hinDoc]
      exact (Bool.and_eq_true_iff.mp hleader).1
    · simp at h

/-- A line that matters does to the draft what it does to a draft alone. -/
theorem take_ensures {inDoc : Bool} {text : String} {line : SourceLine} {d : Draft}
    {post : Unit → Draft → Prop} (h : lineOf inDoc text = .ok (some line))
    (hadd : Ensures (Draft.add line) d post Cause.OfEntry) :
    Ensures (take text) ⟨inDoc, d⟩
      (fun a t => t.inDoc = staysInDoc inDoc text ∧ post a t.draft) Allowed := by
  refine Ensures.allow ?_ fun _ hcause => allowed_of_entry hcause
  unfold Ensures at hadd ⊢
  rw [take_some h d]
  match hresult : (Draft.add line d).result with
  | .ok a =>
      rw [hresult] at hadd
      exact ⟨rfl, hadd⟩
  | .error fault =>
      rw [hresult] at hadd
      exact hadd

/-- Reading a logical line keeps the invariant. -/
theorem take_sound (text : String) {r : Reading} (h : r.Sound) :
    Ensures (take text) r (fun _ t => t.Sound) Allowed := by
  obtain ⟨inDoc, d⟩ := r
  match hline : lineOf inDoc text with
  | .error cause =>
      unfold Ensures
      rw [take_error hline d]
      exact allowed_of_line (lineOf_covers inDoc text cause hline)
  | .ok none =>
      unfold Ensures
      rw [take_none hline d]
      exact ⟨h.draft, fun _ => h.outside (inDoc_of_lineOf_none hline)⟩
  | .ok (some (.doc line)) =>
      refine (take_ensures hline (Draft.add_sound (.doc line) h.draft)).mono ?_
      rintro _ t ⟨hinDoc, ht⟩
      refine ⟨ht, ?_⟩
      intro hout
      rw [hinDoc, staysInDoc_of_lineOf_doc hline] at hout
      exact absurd hout (by decide)
  | .ok (some (.code line)) =>
      refine (take_ensures hline (Draft.addCode_empties line h.draft)).mono ?_
      rintro _ t ⟨-, hentries, hselection⟩
      exact ⟨Draft.sound_of_empty hentries hselection, fun _ => hentries⟩

theorem sound_start : Sound {} :=
  ⟨Draft.sound_of_empty rfl rfl, fun _ => rfl⟩

/-- Reading any logical lines keeps the invariant. -/
theorem take_each_sound (lines : List (Nat × String)) {r : Reading} (h : r.Sound) :
    Ensures (Act.each lines fun line => take line.2) r (fun _ t => t.Sound) Allowed := by
  refine Ensures.each (fun _ (t : Reading) => t.Sound) h ?_
  intro _ line _ t _ ht
  exact take_sound line.2 ht

theorem joinFrom_cause (lines : List String) :
    ∀ (pending : Option (Nat × String)) (number : Nat) (fault : Fault),
      (Source.joinFrom pending number lines).fault = some fault → OfLine fault.cause := by
  induction lines with
  | nil =>
      intro pending number fault h
      simp [Source.joinFrom] at h
  | cons line lines ih =>
      intro pending number fault h
      unfold Source.joinFrom at h
      dsimp only at h
      split at h
      · split at h
        · obtain rfl : Source.cannotContinue _ _ = fault := by simpa [Stream.failed] using h
          trivial
        · split at h
          · obtain rfl : Source.cannotContinue _ _ = fault := by simpa [Stream.failed] using h
            trivial
          · exact ih _ _ fault h
      · exact ih _ _ fault h

theorem among_cause (logical : List (Nat × String)) :
    ∀ (inDoc : Bool) (fault : Fault),
      (SourceLine.among inDoc logical).fault = some fault → OfLine fault.cause := by
  induction logical with
  | nil =>
      intro inDoc fault h
      cases h
  | cons line logical ih =>
      obtain ⟨number, text⟩ := line
      intro inDoc fault h
      rw [among_cons] at h
      rcases hline : lineOf inDoc text with cause | _ | line
      · rw [hline] at h
        obtain rfl : { cause } = fault := Option.some.inj h
        exact lineOf_covers inDoc text cause hline
      · rw [hline] at h
        exact ih _ fault h
      · rw [hline] at h
        exact ih _ fault h

/-- What is wrong with the lines of a file is wrong with one of them. -/
theorem ofFile_cause {lines : List String} {fault : Fault}
    (h : (SourceLine.ofFile lines).fault = some fault) : OfLine fault.cause := by
  rw [SourceLine.ofFile] at h
  dsimp only at h
  cases hread : (SourceLine.among false (Source.logicalLines lines).items).fault with
  | some other =>
      rw [hread] at h
      obtain rfl : other = fault := Option.some.inj h
      exact among_cause _ _ other hread
  | none =>
      rw [hread] at h
      exact joinFrom_cause lines none 0 fault h

/-- Reading a file fails only because of a line or of an entry. -/
theorem takeFile_ensures (lines : List String) :
    Ensures (takeFile lines) {} (fun _ _ => True) Allowed := by
  unfold takeFile
  refine Ensures.bind (take_each_sound _ sound_start) ?_
  intro _ r hr
  unfold finish
  split
  · rename_i fault hfault
    exact allowed_of_line (joinFrom_cause lines none 0 fault hfault)
  · have hend := (Draft.addCode_empties .endOfFile hr.draft).allow fun _ h => allowed_of_entry h
    unfold Ensures at hend ⊢
    unfold onDraft Act.on
    dsimp only
    match hresult : (Draft.addCode .endOfFile r.draft).result with
    | .ok _ => trivial
    | .error fault =>
        rw [hresult] at hend
        exact hend

theorem entries_cause {file : Option String} {lines : List String} {fault : Fault}
    (h : (Source.entries file lines).result = .error fault) : Allowed fault.cause := by
  have halike := (entries_eq_takeFile file lines).result
  rw [h] at halike
  match hresult : (takeFile lines {}).result with
  | .ok _ =>
      rw [hresult] at halike
      simp [Except.mapError] at halike
  | .error other =>
      rw [hresult] at halike
      have hcause : fault.cause = other.cause := by simpa [Except.mapError] using halike
      rw [hcause]
      exact (takeFile_ensures lines).of_error hresult

/--
**The entries and the selection belong together after every logical line of every file.**

The lines read so far are `front`, and what they leave is sound in the sense of `Sound`.  So a
header that begins a new entry never meets a first entry without one, from which it would take over
the controls, and an entry whose turn to be closed comes has not been closed before.  Reading a file
to its end this way is what gives its entries.  So for the file as a whole, no fault is about the
selection, about the only entry not being selected, or about a second header.
-/
theorem sound_after_every_line (file : Option String) (lines : List String) :
    (∀ front rest, (Source.logicalLines lines).items = front ++ rest →
      ∀ r warnings, Act.each front (fun line => take line.2) {} = ⟨r, warnings, .ok ()⟩ →
        r.Sound
        ∧ (r.draft.beginsEntry = true →
            ∀ first, r.draft.entries.head? = some first → first.header.isSome)
        ∧ ∀ line prepared more, Draft.prepare line r.draft = ⟨prepared, more, .ok ()⟩ →
            ∀ i < prepared.entries.length, ∀ t further,
              Draft.beforeClosing line i prepared = ⟨t, further, .ok ()⟩ →
                (Draft.onEntry i Entry.close t).result ≠ .ok false)
    ∧ Alike (Source.entries file lines)
        ⟨(takeFile lines {}).state.draft.finished, (takeFile lines {}).warnings,
          (takeFile lines {}).result⟩
    ∧ ∀ fault, (Source.entries file lines).result = .error fault →
        (∀ number count selection, fault.cause ≠ .noSuchEntry number count selection)
        ∧ fault.cause ≠ .assumption "The only entry is selected."
        ∧ fault.cause ≠ .secondHeader := by
  refine ⟨?_, entries_eq_takeFile file lines, ?_⟩
  · intro front rest _ r warnings hread
    have hr : r.Sound := (take_each_sound front sound_start).of_ok hread
    refine ⟨hr, ?_, ?_⟩
    · intro hnew first hfirst
      exact hr.draft.headed_of_beginsEntry hnew first (List.mem_of_head? hfirst)
    · intro line prepared more hprepared i hi t further ht
      exact hr.draft.close_ne_false hprepared hi ht
  · intro fault hfault
    have hcause := entries_cause hfault
    refine ⟨?_, ?_, ?_⟩
    · intro number count selection heq
      rw [heq] at hcause
      exact hcause
    · intro heq
      rw [heq] at hcause
      have hsame : "The only entry is selected." = Entry.usageAssumption := hcause
      exact absurd hsame (by decide)
    · intro heq
      rw [heq] at hcause
      exact hcause

/-- Right before the line of code, two usages have made two entries, and both of them are selected.
-/
theorem sound_after_two_usages :
    let lines := ["\"\" @usage item list\n", "\" Inserts {item}.\n", "\" @usage value key\n",
      "\" @all\n", "function my#Insert(...)\n"]
    let o := Act.each ((Source.logicalLines lines).items.take 4) (fun line => take line.2) {}
    o.result = .ok ()
    ∧ o.state.inDoc = true
    ∧ o.state.draft.entries.length = 2
    ∧ o.state.draft.selection = [0, 1]
    ∧ o.state.Sound := by
  intro lines o
  obtain ⟨hresult, hinDoc, hlength, hselection⟩ : o.result = .ok ()
      ∧ o.state.inDoc = true
      ∧ o.state.draft.entries.length = 2
      ∧ o.state.draft.selection = [0, 1] := by decide +kernel
  have hread : Act.each ((Source.logicalLines lines).items.take 4) (fun line => take line.2) {}
      = ⟨o.state, o.warnings, .ok ()⟩ := by
    rw [← hresult]
  have hfront : (Source.logicalLines lines).items
      = (Source.logicalLines lines).items.take 4 ++ (Source.logicalLines lines).items.drop 4 :=
    (List.take_append_drop 4 _).symm
  obtain ⟨hsound, -, -⟩ := (sound_after_every_line none lines).1 _ _ hfront _ _ hread
  exact ⟨hresult, hinDoc, hlength, hselection, hsound⟩

end Reading

end PluginHelp
