/-
Text never goes wrong, and it touches nothing but text.

A line of text is added to a passage that was begun right before, or that is known to be open, so
there is always a passage for it.  What it changes are the passages of the entry and the arguments
that they mention; everything else about the entry is left as it was.
-/
import PluginHelp.Entry.Lines
import PluginHelp.Proofs.Act

namespace PluginHelp

/-! ### Passages -/

namespace Passages

variable {ps : Passages}

theorem growing_concat (ps : Passages) (p : Passage) (shape : Shape) :
    Passages.growing (ps ++ [p]) shape = (p.isOpen && p.body.shape.isA shape) := by
  rw [growing, List.getLast?_concat]

/-- A passage that grows as one of some shape is open. -/
theorem growing_bare {shape : Shape} (h : ps.growing shape = true) : ps.growing .bare = true := by
  unfold growing at h ⊢
  split at h
  · cases h
  · rw [Bool.and_eq_true] at h ⊢
    exact ⟨h.1, rfl⟩

/-- A passage that may grow at first is open when it has been begun. -/
theorem growing_begin {body : Body} (h : body.shape.startsOpen = true) (ps : Passages) :
    (ps.begin body).growing .bare = true := by
  unfold begin
  split
  · rename_i hgrowing
    exact growing_bare hgrowing
  · rw [growing_concat]
    exact Bool.and_eq_true_iff.mpr ⟨h, rfl⟩

/-- A line joins the last passage, if that is open. -/
theorem addLine_eq_ok_iff {qs : Passages} {line : String} :
    ps.addLine line = .ok qs ↔ ∃ p, ps.getLast? = some p ∧ p.isOpen = true
      ∧ qs = ps.dropLast ++ [{ p with body := Passage.extend line p.body }] := by
  unfold addLine
  cases ps.getLast? with
  | none => simp
  | some p =>
      dsimp only
      constructor
      · intro h
        split at h
        · rename_i hopen
          rw [Passage.addLine, if_pos hopen] at h
          exact ⟨p, rfl, hopen, (Except.ok.inj h).symm⟩
        · cases h
      · rintro ⟨q, hlast, hopen, rfl⟩
        obtain rfl := Option.some.inj hlast
        rw [if_pos hopen, Passage.addLine, if_pos hopen]
        rfl

/-- An open passage takes a line. -/
theorem addLine_of_growing (h : ps.growing .bare = true) (line : String) :
    ∃ qs, ps.addLine line = .ok qs := by
  unfold growing at h
  split at h
  · cases h
  · rename_i p hlast
    exact ⟨_, addLine_eq_ok_iff.mpr ⟨p, hlast, (Bool.and_eq_true_iff.mp h).1, rfl⟩⟩

end Passages

/-! ### Lines -/

namespace Entry

open Act PluginHelp.Text

/-- The entry without its text. -/
def untold (e : Entry) : Entry :=
  { e with passages := [], required := [], optional := [] }

/-- From this entry, a step succeeds and touches nothing but text. -/
abbrev TellsFrom (e : Entry) (act : Act Entry Unit) : Prop :=
  Ensures act e (fun _ t => t.untold = e.untold) (fun _ => False)

/-- A step that succeeds on every entry and touches nothing but text. -/
def Tells (act : Act Entry Unit) : Prop :=
  ∀ e, TellsFrom e act

variable {e : Entry} {act other : Act Entry Unit}

theorem tells_pure : Tells (pure ()) :=
  fun _ => Ensures.pure rfl

theorem tells_modify {change : Entry → Entry} (h : ∀ e, (change e).untold = e.untold) :
    Tells (Act.modify change) :=
  fun e => Ensures.modify (h e)

theorem Tells.bind (h : Tells act) (k : Tells other) : Tells (act >>= fun _ => other) :=
  fun e => Ensures.bind (h e) fun _ t ht => (k t).mono fun _ _ hu => hu.trans ht

theorem Tells.ite {c : Prop} [Decidable c] (h : Tells act) (k : Tells other) :
    Tells (if c then act else other) :=
  fun e => Ensures.ite (fun _ => h e) fun _ => k e

/-- Whatever shows nothing of the text is left as it was. -/
theorem Tells.confined {γ : Type} {view : Entry → γ} (h : Tells act)
    (hview : ∀ e, view e.untold = view e) (allowed : Cause → Prop) :
    Confined view allowed act := by
  rintro _ e rfl
  have he := h e
  unfold TellsFrom Ensures at he
  rcases hact : act e with ⟨t, warnings, fault | a⟩
  · rw [hact] at he
    exact he.elim
  · rw [hact] at he
    refine ⟨?_, fun _ hfault => by cases hfault⟩
    show view t = view e
    rw [← hview t, ← hview e]
    exact congrArg view he

theorem noteArguments_tells (text : String) : Tells (noteArguments text) :=
  tells_modify fun _ => rfl

theorem beginPassage_tells (body : Body) : Tells (beginPassage body) :=
  tells_modify fun _ => rfl

theorem closePassage_tells : Tells closePassage :=
  tells_modify fun _ => rfl

/-- An open passage takes a line. -/
theorem extendPassage_tells (h : e.passages.growing .bare = true) (line : String) :
    TellsFrom e (extendPassage line) := by
  obtain ⟨passages, hpassages⟩ := Passages.addLine_of_growing h line
  unfold extendPassage
  refine Ensures.get_bind (Ensures.ofExcept_bind ?_ fun _ _ => Ensures.modify rfl)
  rw [hpassages]
  exact Covers.ok _

/-- What is done with a passage that has just been begun. -/
theorem beginPassage_bind {body : Body} (h : body.shape.startsOpen = true)
    (hact : ∀ e : Entry, e.passages.growing .bare = true → TellsFrom e act) :
    Tells (beginPassage body >>= fun _ => act) :=
  fun e => Ensures.modify_bind
    ((hact _ (Passages.growing_begin h e.passages)).mono fun _ _ ht => ht)

theorem addProse_tells (line : String) : Tells (addProse line) := by
  unfold addProse
  refine beginPassage_bind (by decide) fun e he => ?_
  refine Ensures.ite (fun _ => ?_) fun _ => extendPassage_tells he line
  dsimp only
  generalize trimEnd (String.ofList line.toList.dropLast) = text
  refine Ensures.ite (fun _ => ?_) fun _ => beginPassage_tells _ e
  refine Ensures.bind (extendPassage_tells he _) fun _ t ht => ?_
  exact (beginPassage_tells _ t).mono fun _ _ hu => hu.trans ht

theorem addUncoded_tells (line : String) : Tells (addUncoded line) := by
  unfold addUncoded
  refine (noteArguments_tells line).bind (Tells.ite (beginPassage_tells _) ?_)
  split
  · exact closePassage_tells.bind (beginPassage_bind (by rfl) fun e he => extendPassage_tells he _)
  · refine fun e => Ensures.get_bind ?_
    dsimp only
    refine Ensures.ite (fun hitem => ?_) fun _ => ?_
    · exact extendPassage_tells (Passages.growing_bare (Bool.and_eq_true_iff.mp hitem).2) _
    · refine Ensures.ite (fun _ => ?_) fun _ => addProse_tells line e
      exact closePassage_tells.bind (addProse_tells line) e

/-- A line of text is always taken. -/
theorem addLine_tells (line : String) : Tells (addLine line) := by
  intro e
  unfold addLine
  refine Ensures.get_bind (Ensures.ite (fun hcode => ?_) fun _ => addUncoded_tells line e)
  split
  · dsimp only
    exact closePassage_tells.bind (Tells.ite (addUncoded_tells _) tells_pure) e
  · refine Ensures.ite (fun _ => ?_) fun _ => ?_
    · exact extendPassage_tells (Passages.growing_bare hcode) line
    · exact closePassage_tells.bind (addUncoded_tells line) e

theorem addDefault_tells (argument value : String) : Tells (addDefault argument value) :=
  (noteArguments_tells value).bind
    ((tells_modify fun _ => rfl).bind (beginPassage_tells (.default argument value)))

theorem addError_tells (error : String) (description : Option String) :
    Tells (addError error description) :=
  (noteArguments_tells _).bind (beginPassage_tells _)

end Entry

end PluginHelp
