/-
What a link finds.

A link goes by the full name: of what is collected under the kind, all that has the name is found.
Every collected entry must have a full name for that, and only if exactly one has the name that is
asked for is its tag what the link leads to.
-/
import PluginHelp.Proofs.Page.Merging

namespace PluginHelp.Plugin

variable {name full : Value} {kind : Kind} {entries found : List Entry} {e : Entry} {p : Plugin}

/-- An entry with a full name that is not the given one. -/
def Unlike (name : Value) (e : Entry) : Prop :=
  ∃ held, e.fullName = .ok held ∧ (held == name) = false

theorem unlike_text_iff {text : String} :
    Unlike (.text text) e ↔ ∃ held, e.fullName = .ok held ∧ held ≠ .text text := by
  simp only [Unlike, ← Bool.not_eq_true, Value.beq_text_iff, ne_eq]

theorem named_cons_of_unlike (h : Unlike name e) (rest : List Entry) :
    named name (e :: rest) = named name rest := by
  obtain ⟨held, hheld, hunlike⟩ := h
  rw [named, hheld]
  show (named name rest >>= fun others => pure (if held == name then e :: others else others)) = _
  rw [hunlike]
  exact bind_pure _

theorem named_cons_of_like {held : Value} (hheld : e.fullName = .ok held)
    (hlike : (held == name) = true) (rest : List Entry) :
    named name (e :: rest) = (named name rest).map (e :: ·) := by
  rw [named, hheld]
  show (named name rest >>= fun others => pure (if held == name then e :: others else others)) = _
  rw [hlike]
  cases named name rest <;> rfl

/-- Entries of other names are passed over. -/
theorem named_append_of_unlike (h : ∀ x ∈ entries, Unlike name x) (rest : List Entry) :
    named name (entries ++ rest) = named name rest := by
  induction entries with
  | nil => rfl
  | cons x entries ih =>
      obtain ⟨hx, hentries⟩ := List.forall_mem_cons.mp h
      rw [List.cons_append, named_cons_of_unlike hx, ih hentries]

theorem named_of_unlike (h : ∀ x ∈ entries, Unlike name x) : named name entries = .ok [] := by
  have hnone := named_append_of_unlike h []
  rw [List.append_nil] at hnone
  exact hnone

/-- Nothing is found exactly if all entries have other names. -/
theorem named_eq_nil_iff : named name entries = .ok [] ↔ ∀ x ∈ entries, Unlike name x := by
  refine ⟨fun h => ?_, named_of_unlike⟩
  induction entries with
  | nil => simp
  | cons x entries ih =>
      cases hname : x.fullName with
      | error cause =>
          rw [named, hname] at h
          cases h
      | ok held =>
          cases hlike : held == name with
          | true =>
              rw [named_cons_of_like hname hlike] at h
              cases hrest : named name entries with
              | error cause =>
                  rw [hrest] at h
                  cases h
              | ok found =>
                  rw [hrest] at h
                  cases h
          | false =>
              have hunlike : Unlike name x := ⟨held, hname, hlike⟩
              rw [named_cons_of_unlike hunlike] at h
              exact List.forall_mem_cons.mpr ⟨hunlike, ih h⟩

/-- Where every entry has a full name, something is found, if only nothing. -/
theorem named_of_named (h : ∀ x ∈ entries, ∃ held, x.fullName = .ok held) :
    ∃ found, named name entries = .ok found := by
  induction entries with
  | nil => exact ⟨[], rfl⟩
  | cons x entries ih =>
      obtain ⟨⟨held, hheld⟩, hentries⟩ := List.forall_mem_cons.mp h
      obtain ⟨found, hfound⟩ := ih hentries
      rw [named, hheld, hfound]
      exact ⟨_, rfl⟩

/-- Nothing can be found among entries one of which has no full name. -/
theorem named_of_unnamed {cause : Cause} (he : e ∈ entries) (h : e.fullName = .error cause) :
    ∃ other, named name entries = .error other := by
  induction entries with
  | nil => cases he
  | cons x entries ih =>
      rw [named]
      cases hname : x.fullName with
      | error other => exact ⟨other, rfl⟩
      | ok held =>
          rcases List.mem_cons.mp he with rfl | he
          · rw [h] at hname
            cases hname
          · obtain ⟨other, hother⟩ := ih he
            rw [hother]
            exact ⟨other, rfl⟩

/-- The first entry of a name is found first, and whatever of that name comes later after it. -/
theorem named_of_first {front back : List Entry} (hname : e.fullName = .ok full)
    (hlike : (full == full) = true) (hfront : ∀ x ∈ front, Unlike full x) :
    named full (front ++ e :: back) = (named full back).map (e :: ·) := by
  rw [named_append_of_unlike hfront, named_cons_of_like hname hlike]

/-- One entry that is found lends its tag to the link. -/
theorem lookUpTag_of_one (hlinked : linkedName kind.toValue name = .ok full)
    (hfound : named full (p.collections.under kind) = .ok [e]) :
    p.lookUpTag kind.toValue name = e.tagName := by
  rw [lookUpTag, hlinked]
  show (named full (p.collections.under kind) >>= _) = _
  rw [hfound]
  rfl

/-- Where nothing is found, the link leads to where an entry that has nothing but its name would be. -/
theorem lookUpTag_of_none (hlinked : linkedName kind.toValue name = .ok full)
    (hnone : ∀ x ∈ p.collections.under kind, Unlike full x) :
    p.lookUpTag kind.toValue name
      = Entry.tagName { own := [("type", kind.toValue), ("name", full)] } := by
  rw [lookUpTag, hlinked]
  show (named full (p.collections.under kind) >>= _) = _
  rw [named_of_unlike hnone]
  rfl

/-- What is found is found among entries that all have a full name. -/
theorem fullName_of_lookUpTag {tag : Value} (hlinked : linkedName kind.toValue name = .ok full)
    (h : p.lookUpTag kind.toValue name = .ok tag) :
    ∀ x ∈ p.collections.under kind, ∃ held, x.fullName = .ok held := by
  intro x hx
  cases hname : x.fullName with
  | ok held => exact ⟨held, rfl⟩
  | error cause =>
      obtain ⟨other, hother⟩ := named_of_unnamed hx hname
      rw [lookUpTag, hlinked] at h
      change (named full (p.collections.under kind) >>= _) = _ at h
      rw [hother] at h
      cases h

/-- Several entries that are found are too many. -/
theorem lookUpTag_of_many {other : Entry} (hlinked : linkedName kind.toValue name = .ok full)
    (hfound : named full (p.collections.under kind) = .ok (e :: other :: found)) :
    p.lookUpTag kind.toValue name
      = .error (.missing ("Found multiple " ++ kind.label ++ "s named " ++ name.shown)) := by
  rw [lookUpTag, hlinked]
  show (named full (p.collections.under kind) >>= _) = _
  rw [hfound]
  rfl

/-- A link is broken if something that is collected has no full name. -/
theorem lookUpTag_of_error {cause : Cause} (hlinked : linkedName kind.toValue name = .ok full)
    (hfound : named full (p.collections.under kind) = .error cause) :
    p.lookUpTag kind.toValue name = .error cause := by
  rw [lookUpTag, hlinked]
  show (named full (p.collections.under kind) >>= _) = _
  rw [hfound]
  rfl

section First

variable {front back : List Entry} (hlinked : linkedName kind.toValue name = .ok full)
  (hcollected : p.collections.under kind = front ++ e :: back)
  (hfront : ∀ x ∈ front, Unlike full x) (hname : e.fullName = .ok full)
  (hlike : (full == full) = true)
include hlinked hcollected hfront hname hlike

/-- A link to the first entry of a name leads to its tag if no later one has the name. -/
theorem lookUpTag_of_first (hback : ∀ x ∈ back, Unlike full x) :
    p.lookUpTag kind.toValue name = e.tagName := by
  refine lookUpTag_of_one hlinked ?_
  rw [hcollected, named_of_first hname hlike hfront, named_of_unlike hback]
  rfl

/-- Otherwise it is broken, and if only because too many entries are found. -/
theorem lookUpTag_of_later (hback : ¬∀ x ∈ back, Unlike full x) :
    ∃ cause, p.lookUpTag kind.toValue name = .error cause
      ∧ ((∀ x ∈ back, ∃ held, x.fullName = .ok held) →
        cause = .missing ("Found multiple " ++ kind.label ++ "s named " ++ name.shown)) := by
  cases hlater : named full back with
  | error cause =>
      refine ⟨cause, lookUpTag_of_error hlinked ?_, fun hnamed => ?_⟩
      · rw [hcollected, named_of_first hname hlike hfront, hlater]
        rfl
      · obtain ⟨found, hfound⟩ := named_of_named hnamed
        rw [hfound] at hlater
        cases hlater
  | ok found =>
      cases found with
      | nil => exact absurd (named_eq_nil_iff.mp hlater) hback
      | cons other found =>
          have hfound : named full (p.collections.under kind) = .ok (e :: other :: found) := by
            rw [hcollected, named_of_first hname hlike hfront, hlater]
            rfl
          exact ⟨_, lookUpTag_of_many hlinked hfound, fun _ => rfl⟩

end First

end PluginHelp.Plugin
