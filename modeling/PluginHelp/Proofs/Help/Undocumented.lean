/-
Links to what nobody documents.

A link by a name that no entry has leads to where an entry of that name would be, for its tag is asked
of an entry made up for the purpose.  That entry has a kind and a name and nothing else.  A function, a
command, a setting and a flag need no more, and so the link does not change when the element is
documented later.  But a dictionary is named by another control, which the entry does not have, and so
a link to a dictionary is broken until it is documented.

What is collected matters too, though not by its names: if one of the entries has no full name,
nothing of its kind can be looked up.
-/
import PluginHelp.Proofs.Help.Usages

namespace PluginHelp

open Act Entry

variable {kind : Kind} {word name full : String} {p q : Plugin} {e : Entry}

/-- The full name that is meant where an element of a kind is called by a name: a command has no
colon, and a setting has its scope. -/
def Kind.meant (kind : Kind) (name : String) : String :=
  match kind with
  | .command => String.ofList (name.toList.dropWhile (· == ':'))
  | .setting => if Pattern.settingScope.fits name then name else "g:" ++ name
  | _ => name

theorem Plugin.linkedName_meant (hword : kind.inlineWord? = some word) (name : String) :
    linkedName kind.toValue (.text name) = .ok (.text (kind.meant name)) := by
  cases kind with
  | function | command | setting | flag | dictionary => rfl
  | sect | backmatter | exception | custom label => cases hword

/-! ### The tag of an entry that is made up -/

namespace Entry

/-- An entry that has nothing but its kind and its name. -/
def bare (kind : Kind) (full : String) : Entry :=
  { own := [("type", kind.toValue), ("name", .text full)] }

theorem bare_kindValue (kind : Kind) (full : String) : (bare kind full).kindValue = kind.toValue :=
  rfl

theorem bare_fullName (hword : kind.inlineWord? = some word) (hkind : kind ≠ .dictionary)
    (full : String) : (bare kind full).fullName = .ok (.text full) := by
  cases kind with
  | dictionary => exact absurd rfl hkind
  | function =>
      show joinValues (.text "") (.text full) = _
      simp [joinValues, Value.plus?]
  | command | setting | flag => rfl
  | sect | backmatter | exception | custom label => cases hword

/-- It has the tag of any entry of its name, unless it is a dictionary. -/
theorem bare_tagName (hword : kind.inlineWord? = some word) (hkind : kind ≠ .dictionary)
    (full : String) : (bare kind full).tagName = .ok (.text (Help.tagWord kind full)) :=
  Help.tagName_eq hword (bare_kindValue kind full) (fun _ => rfl) rfl
    (bare_fullName hword hkind full)

theorem bare_tagName_dictionary (full : String) :
    (bare .dictionary full).tagName = .error (.missing "dict") :=
  rfl

end Entry

namespace Help

/-! ### Before and after -/

theorem Named.unlike {entries : List Entry} (h : Named entries)
    (hnone : ∀ x ∈ entries, x.fullName ≠ .ok (.text full)) :
    ∀ x ∈ entries, Plugin.Unlike (.text full) x := by
  intro x hx
  obtain ⟨held, hheld⟩ := h x hx
  refine Plugin.unlike_text_iff.mpr ⟨held, hheld, ?_⟩
  rintro rfl
  exact hnone x hx hheld

/-- An entry that is added is the last one of its kind. -/
theorem under_of_add {warnings : List Warning} (hword : kind.inlineWord? = some word)
    (hadd : Plugin.add e p = ⟨q, warnings, .ok ()⟩) (hkind : p.collectionKind e = kind.toValue) :
    q.collections.under kind = p.collections.under kind ++ [e] := by
  have hcollected : kind.IsCollected := by
    cases kind with
    | function | command | setting | flag | dictionary => decide
    | sect | backmatter | exception | custom label => cases hword
  have hadds := ((Plugin.add_ensures e p).of_ok hadd).1 kind hcollected
  have hlike : (kind.toValue == kind.toValue) = true := Value.beq_text_iff.mpr rfl
  rw [← Plugin.collectionKind_eq_shelf, hkind, if_pos hlike] at hadds
  exact hadds

/-- A link to what is documented last is found if everything has a full name. -/
theorem lookUpTag_of_added (hword : kind.inlineWord? = some word)
    (hunder : q.collections.under kind = p.collections.under kind ++ [e])
    (hkind : p.collectionKind e = kind.toValue) (hfirst : e.isSecondary = false)
    (hname : e.fullName = .ok (.text (kind.meant name))) (hnamed : Named (p.collections.under kind))
    (hnone : ∀ x ∈ p.collections.under kind, x.fullName ≠ .ok (.text (kind.meant name))) :
    q.lookUpTag kind.toValue (.text name) = .ok (.text (tagWord kind (kind.meant name))) := by
  have hlabel : kind.label ≠ Kind.exception.label := by
    cases kind with
    | function | command | setting | flag | dictionary => decide
    | sect | backmatter | exception | custom label => cases hword
  obtain ⟨hvalue, hplain⟩ := Plugin.kindValue_of_shelf hkind hlabel
  rw [Plugin.lookUpTag_of_first (Plugin.linkedName_meant hword name) hunder (hnamed.unlike hnone)
    hname (Value.beq_text_iff.mpr rfl) (List.forall_mem_nil _)]
  exact tagName_eq hword hvalue hplain hfirst hname

/--
**A link to an element that nobody documents leads where it will lead once the element is documented,
unless it is a dictionary.**

Such a link is found exactly if the kind is not that of dictionaries and all that is collected has a
full name.  Once an entry about the element is added, the first one of its name, the link is found
exactly if all that was collected before has a full name, and the tag is the same.  A link to a
dictionary is missing its name until then.
-/
theorem lookUpTag_undocumented (hword : kind.inlineWord? = some word)
    (hnone : ∀ x ∈ p.collections.under kind, x.fullName ≠ .ok (.text (kind.meant name))) :
    let tag := tagWord kind (kind.meant name)
    (∀ found, p.lookUpTag kind.toValue (.text name) = .ok found
      ↔ kind ≠ .dictionary ∧ Named (p.collections.under kind) ∧ found = .text tag)
    ∧ (kind = .dictionary → Named (p.collections.under kind) →
      p.lookUpTag kind.toValue (.text name) = .error (.missing "dict"))
    ∧ ∀ e q warnings, Plugin.add e p = ⟨q, warnings, .ok ()⟩ →
      p.collectionKind e = kind.toValue → e.isSecondary = false →
      e.fullName = .ok (.text (kind.meant name)) →
      ∀ found, q.lookUpTag kind.toValue (.text name) = .ok found
        ↔ Named (p.collections.under kind) ∧ found = .text tag := by
  intro tag
  have hlinked := Plugin.linkedName_meant hword name
  have hbare (hnamed : Named (p.collections.under kind)) :
      p.lookUpTag kind.toValue (.text name) = (bare kind (kind.meant name)).tagName :=
    Plugin.lookUpTag_of_none hlinked (hnamed.unlike hnone)
  refine ⟨fun found => ⟨fun hfound => ?_, ?_⟩, ?_, ?_⟩
  · have hnamed : Named (p.collections.under kind) := Plugin.fullName_of_lookUpTag hlinked hfound
    rw [hbare hnamed] at hfound
    by_cases hkind : kind = .dictionary
    · subst hkind
      rw [bare_tagName_dictionary] at hfound
      cases hfound
    · rw [bare_tagName hword hkind] at hfound
      exact ⟨hkind, hnamed, (Except.ok.inj hfound).symm⟩
  · rintro ⟨hkind, hnamed, rfl⟩
    rw [hbare hnamed, bare_tagName hword hkind]
  · rintro rfl hnamed
    rw [hbare hnamed, bare_tagName_dictionary]
  · intro e q warnings hadd hkind hfirst hname found
    have hunder := under_of_add hword hadd hkind
    have hfound (hnamed : Named (p.collections.under kind)) :=
      lookUpTag_of_added hword hunder hkind hfirst hname hnamed hnone
    refine ⟨fun h => ?_, ?_⟩
    · have hnamed : Named (p.collections.under kind) := by
        intro x hx
        have hmem : x ∈ q.collections.under kind := by
          rw [hunder]
          exact List.mem_append_left [e] hx
        exact Plugin.fullName_of_lookUpTag hlinked h x hmem
      rw [hfound hnamed] at h
      exact ⟨hnamed, (Except.ok.inj h).symm⟩
    · rintro ⟨hnamed, rfl⟩
      exact hfound hnamed

/-- The clock is documented, and the timer is not. -/
theorem lookUpTag_undocumented_timer :
    let clock : Entry := { own := [("type", .text "DICTIONARY"), ("dict", .text "Clock")] }
    let timer : Entry := { own := [("type", .text "DICTIONARY"), ("dict", .text "Timer")] }
    let p : Plugin := (Plugin.add clock { name := .text "demo" }).state
    p.collections.under .dictionary = [clock]
    ∧ p.lookUpTag (.text "DICTIONARY") (.text "Timer") = .error (.missing "dict")
    ∧ (Plugin.add timer p).state.lookUpTag (.text "DICTIONARY") (.text "Timer")
      = .ok (.text "Timer") := by
  intro clock timer p
  have hword : Kind.dictionary.inlineWord? = some "dict" := rfl
  have hclock : clock.fullName = .ok (.text "Clock") := rfl
  have hnone : ∀ x ∈ p.collections.under .dictionary,
      x.fullName ≠ .ok (.text (Kind.dictionary.meant "Timer")) := by
    refine List.forall_mem_singleton.mpr ?_
    rw [hclock, show Kind.dictionary.meant "Timer" = "Timer" from rfl]
    simp
  have hnamed : Named (p.collections.under .dictionary) :=
    List.forall_mem_singleton.mpr ⟨_, hclock⟩
  obtain ⟨-, hbefore, hafter⟩ := lookUpTag_undocumented hword hnone
  exact ⟨rfl, hbefore rfl hnamed, (hafter timer _ [] rfl rfl rfl rfl _).mpr ⟨hnamed, rfl⟩⟩

end Help

end PluginHelp
