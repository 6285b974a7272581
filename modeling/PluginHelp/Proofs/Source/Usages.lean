/-
The usages that a doc comment describes.

Each header of a comment begins an entry of its own, the first one apart if an entry without a header
is there already.  So above a definition there are as many entries as there are headers, and once the
definition is read all of them are about the same thing.  Only the first of them is not secondary.
-/
import PluginHelp.Proofs.Pattern.Matching
import PluginHelp.Proofs.Source.Finishing

namespace PluginHelp

open Act

/-- Whether a line of documentation is the header of a usage. -/
def DocLine.isHeader : DocLine → Bool
  | .header _ => true
  | _ => false

namespace Draft

/-- The number of open entries that have a header. -/
def headed (d : Draft) : Nat :=
  d.entries.countP (·.header.isSome)

variable {d : Draft}

theorem SameFrames.headed {t : Draft} (h : SameFrames d t) : t.headed = d.headed := by
  have hframes (entries : List Entry) :
      entries.countP (·.header.isSome) = (entries.map Entry.frame).countP (·.1.isSome) := by
    rw [List.countP_map]
    rfl
  unfold Draft.headed
  rw [hframes, hframes, h.frames]

theorem begin_headed : Ensures begin d (fun _ t => t.headed = d.headed) (fun _ => False) := by
  refine Ensures.modify ?_
  split
  · rename_i hempty
    rw [headed, headed, List.isEmpty_iff.mp hempty]
    rfl
  · rfl

/-- A header line gives a header to one more entry. -/
theorem addHeader_headed (header : Header) (h : d.Sound) :
    Ensures (addHeader header) d (fun _ t => t.headed = d.headed + 1) Cause.OfEntry := by
  obtain ⟨before, e, hheader, hcases, htakes⟩ := h.addHeader_takes header
  refine (htakes (takeHeader_ensures header hheader)).mono ?_
  rintro _ _ ⟨e', hframe, rfl⟩
  have hsome : e'.header = some header := congrArg Prod.fst hframe
  have hlast : (d.withLast before e').headed = before.countP (·.header.isSome) + 1 := by
    simp [headed, withLast, hsome]
  rw [hlast]
  rcases hcases with ⟨rfl, -⟩ | ⟨hd, rfl⟩
  · rfl
  · rw [headed, hd]
    simp [hheader]

/-- A line of documentation changes the number of headers only if it is one. -/
theorem addDoc_headed (line : DocLine) (h : d.Sound) :
    Ensures (addDoc line) d (fun _ t => t.headed = d.headed + if line.isHeader then 1 else 0)
      Cause.OfEntry := by
  have hplain (line : DocLine) : Ensures (do
      begin
      onSelected line.update) d (fun _ t => t.headed = d.headed) Cause.OfEntry := by
    have hsound : Ensures begin d (fun _ t => t.Sound) (fun _ => False) := begin_sound h
    have hbegin := begin_headed.both hsound
    refine Ensures.bind (hbegin.allow fun _ hcause => hcause.1.elim) fun _ t ht => ?_
    refine (onSelected_framed (DocLine.update_framed line) ht.2.inRange).mono fun _ u hu => ?_
    exact hu.headed.trans ht.1
  cases line with
  | all => exact (selectAll_framed d).mono fun _ t ht => ht.headed
  | header header => exact addHeader_headed header h
  | _ => exact hplain _

/-- As soon as there is a header, every entry has one. -/
theorem Sound.length_eq_headed (h : d.Sound) (hpos : 0 < d.headed) :
    d.entries.length = d.headed := by
  have hle : d.headed ≤ d.entries.length := List.countP_le_length
  by_cases hlen : 2 ≤ d.entries.length
  · exact (List.countP_eq_length.mpr fun e he => h.headed hlen e he).symm
  · omega

/-- What is known of a draft after lines of documentation, in which there are so many headers. -/
structure Documented (count : Nat) (d : Draft) : Prop where
  sound : d.Sound
  undefined : d.Undefined
  headed : d.headed = count
  finished : d.finished = []

theorem documented_empty : Documented 0 {} :=
  ⟨sound_of_empty rfl rfl, undefined_of_empty rfl, rfl, rfl⟩

theorem addDoc_documented {count : Nat} (line : DocLine) (h : Documented count d) :
    Ensures (addDoc line) d (fun _ t => Documented (count + if line.isHeader then 1 else 0) t)
      (fun _ => True) := by
  have hall := ((addDoc_sound line h.sound).both (addDoc_undefined line h.sound h.undefined)).both
    ((addDoc_headed line h.sound).both (Ensures.of_confined (addDoc_finishesNone line) d))
  refine (hall.mono ?_).allow fun _ _ => trivial
  rintro _ t ⟨⟨hsound, hundefined⟩, hheaded, hfinished⟩
  exact ⟨hsound, hundefined, by rw [hheaded, h.headed], hfinished.trans h.finished⟩

/-- The entries of a comment: as many as it has headers, if it has any. -/
theorem addDocs_documented (docs : List DocLine) :
    Ensures (Act.each docs addDoc) {} (fun _ t => Documented (docs.countP DocLine.isHeader) t)
      (fun _ => True) := by
  refine Ensures.each (fun done t => Documented (done.countP DocLine.isHeader) t)
    documented_empty ?_
  intro done line rest t _ ht
  refine (addDoc_documented line ht).mono fun _ u hu => ?_
  rw [List.countP_append, List.countP_singleton]
  exact hu

end Draft

/-! ### What the definition makes of them -/

namespace CodeLine

/-- What an entry has become that a definition completed. -/
structure Defines (line : CodeLine) (kind : Kind) (e t : Entry) : Prop where
  kindValue : t.kindValue = kind.toValue
  own : ∀ control, control ≠ "type" → control ≠ "usage" →
    t.own? control = (line.controls.lookup control).or (e.own? control)
  isSecondary : t.isSecondary = e.isSecondary

theorem completed_defines {line : CodeLine} {kind : Kind} (hkind : line.kind? = some kind)
    {e t : Entry} (hopen : e.isClosed = false) (hundefined : e.Undefined)
    (h : line.completed e = .ok t) : Defines line kind e t := by
  obtain ⟨u, before, wasOpen, after, hupdate, hclose⟩ := completed_eq_ok h
  have hframe : u.frame = e.frame := by
    have hview := (update_framed line).view_eq e
    rw [hupdate] at hview
    exact hview
  have husage : u.own? "usage" = none :=
    ((update_usage line e).of_ok hupdate).trans (hundefined.absent "usage" (by decide))
  have hgains := (update_gains hkind e).of_ok hupdate
  have hsame := ((Entry.close_settles ((Entry.isClosed_eq_of_frame hframe).trans hopen) husage).of_ok
    hclose).1
  have hinferred : u.shut.inferred = u.shut := by
    have hyes : u.shut.kindValue.isYes = false := by
      rw [show u.shut.kindValue = kind.toValue from hgains.kindValue]
      rfl
    rw [Entry.inferred, hyes]
    rfl
  rw [hinferred] at hsame
  refine ⟨hsame.kindValue.trans hgains.kindValue, fun control htype hother => ?_, ?_⟩
  · exact (hsame.own control hother).trans (hgains.own control htype)
  · exact hsame.isSecondary.trans (Entry.isSecondary_eq_of_frame (e := u) hframe)

end CodeLine

namespace Source

/-- The lines of a file that matter are those of a doc comment and the line of code below it. -/
def IsDocComment (lines : List String) (docs : List DocLine) (code : CodeLine) : Prop :=
  (SourceLine.ofFile lines).items.map (·.2) = docs.map SourceLine.doc ++ [SourceLine.code code]

instance (lines : List String) (docs : List DocLine) (code : CodeLine) :
    Decidable (IsDocComment lines docs code) :=
  inferInstanceAs (Decidable (_ = _))

variable {file : Option String} {lines : List String} {docs : List DocLine} {code : CodeLine}

theorem IsDocComment.each_add (h : IsDocComment lines docs code) :
    (Act.each (SourceLine.ofFile lines).items fun line => Draft.add line.2)
      = Act.each docs Draft.addDoc >>= fun _ => Draft.addCode code := by
  rw [← each_map Prod.snd (SourceLine.ofFile lines).items Draft.add, h, each_append, each_map,
    each_singleton]
  rfl

/-- Where no entry is open, the end of a file finishes nothing. -/
theorem finish_of_empty {fault : Option Fault} {d t : Draft} {warnings : List Warning}
    (h : d.entries = []) (hfinish : Reading.finish fault d = ⟨t, warnings, .ok ()⟩) :
    t.finished = d.finished := by
  cases fault with
  | some fault => cases hfinish
  | none =>
      have hnone : d.entries.mapM CodeLine.endOfFile.completed = .ok [] := by
        rw [h]
        rfl
      obtain ⟨more, hrun⟩ := Draft.finishAll_ok hnone
      rw [show Reading.finish none d = Draft.finishAll .endOfFile d from rfl, hrun] at hfinish
      obtain ⟨rfl, -, -⟩ := Outcome.mk.inj hfinish
      exact List.append_nil _

/-- The entries of a comment are those that its lines make, each one completed by the code. -/
theorem entries_of_comment (h : IsDocComment lines docs code)
    (hcode : Draft.addCode code = Draft.finishAll code)
    (hread : (Source.entries file lines).result = .ok ()) :
    ∃ d : Draft, d.Documented (docs.countP DocLine.isHeader)
      ∧ d.entries.mapM code.completed = .ok (Source.entries file lines).state := by
  obtain ⟨last, warnings, hlines, hstate⟩ := entries_ok hread
  rw [Reading.addLines, h.each_add, hcode, bind_assoc] at hlines
  obtain ⟨d, _, _, _, hdocs, hrest, -⟩ := bind_eq_ok_iff.mp hlines
  obtain ⟨closed, _, _, _, hcoded, hfinish, -⟩ := bind_eq_ok_iff.mp hrest
  have hdocumented := (Draft.addDocs_documented docs).of_ok hdocs
  refine ⟨d, hdocumented, ?_⟩
  cases hdone : d.entries.mapM code.completed with
  | error fault =>
      have herror := Draft.finishAll_error hdone
      rw [hcoded] at herror
      cases herror
  | ok done =>
      obtain ⟨_, hfinished⟩ := Draft.finishAll_ok hdone
      rw [hcoded, hdocumented.finished, List.nil_append] at hfinished
      obtain ⟨rfl, -, -⟩ := Outcome.mk.inj hfinished
      rw [hstate, finish_of_empty rfl hfinish]

/-- The entries that a doc comment with headers gives for the definition below it. -/
structure Usages (count : Nat) (code : CodeLine) (kind : Kind) (first : Entry) (rest : List Entry) :
    Prop where
  length : rest.length + 1 = count
  primary : first.isSecondary = false
  secondary : ∀ e ∈ rest, e.isSecondary = true
  defined : ∀ e ∈ first :: rest, ∃ begun, CodeLine.Defines code kind begun e

/-- Above the definition of a function or a command there is one entry for each header. -/
theorem entries_usages (h : IsDocComment lines docs code) {kind : Kind}
    (hcode : code.kind? = some kind) (hkind : kind = .function ∨ kind = .command)
    (hheaders : 0 < docs.countP DocLine.isHeader)
    (hread : (Source.entries file lines).result = .ok ()) :
    ∃ first rest, (Source.entries file lines).state = first :: rest
      ∧ Usages (docs.countP DocLine.isHeader) code kind first rest := by
  have hfinishAll : Draft.addCode code = Draft.finishAll code := by
    cases code with
    | function name space parameters => rfl
    | command name flags => rfl
    | setting name | flag name initial =>
        obtain rfl := Option.some.inj hcode
        rcases hkind with hkind | hkind <;> cases hkind
    | blank | endOfFile | unrecognized line => cases hcode
  obtain ⟨d, hd, hcompleted⟩ := entries_of_comment h hfinishAll hread
  have hlength := hd.sound.length_eq_headed (by rw [hd.headed]; exact hheaders)
  rw [hd.headed] at hlength
  generalize (Source.entries file lines).state = state at hcompleted ⊢
  obtain ⟨hsame, hcompletes⟩ := List.forall₂_iff_get.mp (Except.mapM_eq_ok_iff.mp hcompleted)
  -- Each entry is defined at its place, which says whether it is secondary.
  have hplace (i : Nat) (e : Entry) (he : state[i]? = some e) :
      e.isSecondary = decide (0 < i) ∧ ∃ begun, CodeLine.Defines code kind begun e := by
    obtain ⟨hi, rfl⟩ := List.getElem?_eq_some_iff.mp he
    have hbegun := List.getElem?_eq_getElem (hsame ▸ hi : i < d.entries.length)
    have hmem := List.mem_of_getElem? hbegun
    have hdefines := CodeLine.completed_defines hcode (hd.sound.stillOpen _ hmem)
      (hd.undefined _ hmem) (hcompletes i _ hi)
    exact ⟨hdefines.isSecondary.trans (hd.sound.secondary i _ hbegun), _, hdefines⟩
  obtain ⟨first, rest, rfl⟩ : ∃ first rest, state = first :: rest := by
    refine List.exists_cons_of_length_pos ?_
    rw [← hsame, hlength]
    exact hheaders
  refine ⟨first, rest, rfl, ?_, (hplace 0 first rfl).1, fun e he => ?_, fun e he => ?_⟩
  · rw [← List.length_cons, ← hsame, hlength]
  · obtain ⟨i, hi⟩ := List.mem_iff_getElem?.mp he
    exact (hplace (i + 1) e hi).1
  · obtain ⟨i, hi⟩ := List.mem_iff_getElem?.mp he
    exact (hplace i e hi).2

end Source

/-! ### Names of commands -/

/-- Every line of code was read from a text. -/
theorem SourceLine.among_code {inDoc : Bool} {logical : List (Nat × String)} {number : Nat}
    {code : CodeLine} (h : (number, .code code) ∈ (SourceLine.among inDoc logical).items) :
    ∃ text, code = .read text := by
  induction logical generalizing inDoc with
  | nil => cases h
  | cons line lines ih =>
      obtain ⟨place, text⟩ := line
      rw [Reading.among_cons] at h
      cases hline : Reading.lineOf inDoc text with
      | error cause =>
          rw [hline] at h
          cases h
      | ok line? =>
          rw [hline] at h
          cases line? with
          | none => exact ih h
          | some line =>
              rcases List.mem_cons.mp h with heq | hmore
              · obtain ⟨-, rfl⟩ := Prod.mk.inj heq
                exact ⟨text, Reading.lineOf_code hline⟩
              · exact ih hmore

namespace Pattern

/-- An identifier begins with a letter or an underscore. -/
theorem Reaches.head_name {s t : Scan} (h : Reaches name s t) :
    ∃ c rest, t.since s = String.ofList (c :: rest) ∧ isNameStart c = true := by
  cases h with
  | seq hfirst hmany =>
      cases hfirst with
      | @one _ read c rest captured hc =>
          obtain ⟨more, hread, -⟩ := hmany.text
          refine ⟨c, more, Scan.since_eq ?_, hc⟩
          rw [hread, List.reverse_cons, List.append_assoc]
          rfl

end Pattern

/-- The name of a command that is defined does not begin with a colon. -/
theorem CodeLine.head_command {line name : String} {flags : CommandFlags}
    (h : CodeLine.read line = .command name flags) : name.toList.head? ≠ some ':' := by
  unfold CodeLine.read at h
  split at h
  · cases h
  · split at h
    · cases h
    · split at h
      · rename_i m hm
        obtain ⟨rfl, -⟩ := CodeLine.command.inj h
        obtain ⟨s, t, hname, hgroup⟩ := Pattern.group_of_last hm
        obtain ⟨c, rest, hsince, hc⟩ := hname.head_name
        rw [hgroup, hsince, String.toList_ofList]
        rintro hcolon
        obtain rfl : c = ':' := by simpa using hcolon
        revert hc
        decide
      · split at h
        · cases h
        · split at h <;> cases h

/-- Nor does that of a command below a doc comment. -/
theorem Source.IsDocComment.head_command {lines : List String} {docs : List DocLine} {name : String}
    {flags : CommandFlags} (h : IsDocComment lines docs (.command name flags)) :
    name.toList.head? ≠ some ':' := by
  have hmem : SourceLine.code (.command name flags) ∈ (SourceLine.ofFile lines).items.map (·.2) := by
    rw [h]
    simp
  obtain ⟨⟨number, line⟩, hline, rfl⟩ := List.mem_map.mp hmem
  obtain ⟨text, htext⟩ := SourceLine.among_code hline
  exact CodeLine.head_command htext.symm

end PluginHelp
