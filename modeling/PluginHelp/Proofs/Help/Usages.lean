/-
Links to elements that have several usages.

All usages of an element are collected under its kind, and as a rule all of them have its full name,
the secondary ones as well.  A link looks for the name among everything that is collected.  So it
leads to the tag of the first usage exactly if no later one was collected under the same name, and is
broken otherwise.  Every usage of a command is collected under its name, so there can be no link to a
command that has more than one.
-/
import PluginHelp.Proofs.Help.Tags
import PluginHelp.Proofs.Source.Usages

namespace PluginHelp

open Act

namespace Page

/-- Entries that say nothing about the plugin are collected one by one. -/
theorem shelved_append {ours : List Arrival} (h : ∀ a ∈ ours, a.1.makesLibrary = false)
    (library : Bool) (kind : Kind) (after : List Arrival) :
    shelved library kind (ours ++ after)
      = (ours.map Arrival.placed).filter (Plugin.shelf library · == kind.toValue)
        ++ shelved library kind after := by
  induction ours with
  | nil => rfl
  | cons a rest ih =>
      obtain ⟨ha, hrest⟩ := List.forall_mem_cons.mp h
      rw [List.cons_append, shelved, ha, Bool.or_false, ih hrest, List.map_cons, List.filter_cons,
        ← List.append_assoc]
      split <;> rfl

end Page

namespace Source.Usages

variable {count : Nat} {code : CodeLine} {kind : Kind} {first : Entry} {rest : List Entry}

theorem kindValue (h : Usages count code kind first rest) {e : Entry} (he : e ∈ first :: rest) :
    e.kindValue = kind.toValue := by
  obtain ⟨begun, hbegun⟩ := h.defined e he
  exact hbegun.kindValue

/-- Every usage of a command has its name. -/
theorem fullName_command {name : String} {flags : CommandFlags}
    (h : Usages count (.command name flags) .command first rest) (space : Value) {e : Entry}
    (he : e ∈ first :: rest) : (e.placed space).fullName = .ok (.text name) := by
  obtain ⟨begun, hbegun⟩ := h.defined e he
  have hname : (e.placed space).own? "name" = some (.text name) := by
    rw [Entry.own?_placed space e (by decide) (by decide), hbegun.own "name" (by decide) (by decide)]
    rfl
  have hno {other : Kind} (hlabel : other.label ≠ "") (hne : Kind.command.label ≠ other.label) :
      (e.placed space).isOf other = false := by
    rw [Entry.isOf_placed space e hlabel]
    exact Entry.isOf_eq_false hbegun.kindValue hne
  unfold Entry.fullName Entry.localName
  rw [hno (by decide) (by decide), hno (by decide) (by decide), hname]
  rfl

end Source.Usages

namespace Help

section Usages

variable {count : Nat} {docs : List DocLine} {lines : List String} {code : CodeLine} {kind : Kind}
  {first : Entry} {rest others : List Entry} {space : Value} {full : String} {c d : Context}

/-- The usages of an element were merged, and nothing else that was there before or came after them
has their name.  The first usage is documented, and `full` is its name. -/
structure Merged (kind : Kind) (first : Entry) (rest others : List Entry) (space : Value)
    (full : String) (c d : Context) : Prop where
  merged : ∃ after warnings,
    Page.mergeAll ((first :: rest).map (·, space) ++ after) c = ⟨d, warnings, .ok ()⟩
    ∧ others = c.plugin.collections.under kind ++ Page.shelved c.plugin.library.isGiven kind after
  other : ∀ x ∈ others, x.fullName ≠ .ok (.text full)
  documented : Plugin.shelf c.plugin.library.isGiven (first.placed space) = kind.toValue
  named : (first.placed space).fullName = .ok (.text full)

/-- Every one of these entries has a full name. -/
def Named (entries : List Entry) : Prop :=
  ∀ x ∈ entries, ∃ held, x.fullName = .ok held

theorem exists_unnamed {entries : List Entry} (h : ¬Named entries) :
    ∃ x ∈ entries, ∃ cause, x.fullName = .error cause := by
  unfold Named at h
  push Not at h
  obtain ⟨x, hx, hnone⟩ := h
  cases hname : x.fullName with
  | error cause => exact ⟨x, hx, cause, hname⟩
  | ok held => exact absurd hname (hnone held)

/-- A later usage is not collected together with the first one, or under another name. -/
def Apart (library : Bool) (kind : Kind) (space : Value) (full : String) (e : Entry) : Prop :=
  Plugin.shelf library (e.placed space) = kind.toValue →
    ∃ held, (e.placed space).fullName = .ok held ∧ held ≠ .text full

/-- The later usages that were collected under the kind of the first one. -/
def collectedLater (library : Bool) (kind : Kind) (space : Value) (rest : List Entry) : List Entry :=
  (rest.map (·.placed space)).filter (Plugin.shelf library · == kind.toValue)

theorem unlike_collectedLater {library : Bool} :
    (∀ x ∈ collectedLater library kind space rest, Plugin.Unlike (.text full) x)
      ↔ ∀ e ∈ rest, Apart library kind space full e := by
  unfold collectedLater Apart
  rw [List.forall_mem_filter, List.forall_mem_map]
  refine forall₂_congr fun e _ => ?_
  rw [Plugin.unlike_text_iff, Kind.toValue, Value.beq_text_iff]

/-- What is collected under the kind in the end: the first usage, later ones, and other things. -/
theorem Merged.collected (h : Merged kind first rest others space full c d)
    (hkinds : ∀ e ∈ first :: rest, e.kindValue = kind.toValue)
    (hkind : kind = .function ∨ kind = .command) :
    ∃ before after, others = before ++ after
      ∧ d.plugin.collections.under kind
        = before ++ first.placed space
          :: (collectedLater c.plugin.library.isGiven kind space rest ++ after) := by
  obtain ⟨after, warnings, hmerge, rfl⟩ := h.merged
  have hsilent : ∀ a ∈ (first :: rest).map (·, space), a.1.makesLibrary = false := by
    rw [List.forall_mem_map]
    intro e he
    have hspeaks : e.speaks = false := by
      rcases hkind with rfl | rfl
      all_goals
        rw [Entry.speaks, Entry.isOf_eq_false (hkinds e he) (by decide),
          Entry.isOf_eq_false (hkinds e he) (by decide)]
        rfl
    rw [Entry.makesLibrary, hspeaks]
    rfl
  have hcollected : kind.IsCollected := by
    rcases hkind with rfl | rfl <;> decide
  have hplaced : ((first :: rest).map (·, space)).map Page.Arrival.placed
      = first.placed space :: rest.map (·.placed space) := by
    rw [List.map_map]
    rfl
  have hfirst : (Plugin.shelf c.plugin.library.isGiven (first.placed space) == kind.toValue)
      = true := Value.beq_text_iff.mpr h.documented
  refine ⟨_, _, rfl, ?_⟩
  rw [((Page.mergeAll_ensures _ c).of_ok hmerge).plugin kind hcollected,
    Page.shelved_append hsilent, hplaced, List.filter_cons, hfirst]
  rfl

/-- A link by the full name looks for that name. -/
theorem linkedName_full (hcomment : Source.IsDocComment lines docs code)
    (hcode : code.kind? = some kind) (hkind : kind = .function ∨ kind = .command)
    (husages : Source.Usages count code kind first rest)
    (h : Merged kind first rest others space full c d) :
    Plugin.linkedName kind.toValue (.text full) = .ok (.text full) := by
  rcases hkind with rfl | rfl
  · rfl
  · cases code with
    | command name flags =>
        have hname := husages.fullName_command space List.mem_cons_self
        rw [h.named] at hname
        obtain rfl : full = name := Value.text.inj (Except.ok.inj hname)
        exact linkedName_command hcomment.head_command [] (by simp)
    | _ => cases hcode

theorem named_collectedLater {name : String} {flags : CommandFlags}
    (husages : Source.Usages count (.command name flags) .command first rest) (library : Bool)
    (space : Value) : Named (collectedLater library .command space rest) := by
  intro x hx
  obtain ⟨e, he, rfl⟩ := List.mem_map.mp (List.mem_of_mem_filter hx)
  exact ⟨_, husages.fullName_command space (List.mem_cons_of_mem _ he)⟩

/-- No later usage of a command is apart from the first one. -/
theorem not_apart_command {name : String} {flags : CommandFlags}
    (husages : Source.Usages count (.command name flags) .command first rest)
    (h : Merged .command first rest others space full c d) {e : Entry} (he : e ∈ rest)
    (library : Bool) :
    ¬Apart library .command space full e := by
  have hmem := List.mem_cons_of_mem first he
  have hfirst := husages.fullName_command space List.mem_cons_self
  rw [h.named] at hfirst
  have hshelf : Plugin.shelf library (e.placed space) = Kind.command.toValue := by
    have hplaced : (e.placed space).isOf .command = true := by
      rw [Entry.isOf_placed space e (by decide), Entry.isOf_iff]
      exact husages.kindValue hmem
    rw [Entry.isOf_iff] at hplaced
    rw [Plugin.shelf_of_not_function (Entry.isOf_eq_false hplaced (by decide)), hplaced]
  intro hapart
  obtain ⟨held, hheld, hne⟩ := hapart hshelf
  rw [husages.fullName_command space hmem, ← hfirst] at hheld
  exact hne (Except.ok.inj hheld).symm

/-- The first usage has the tag of its kind. -/
theorem Merged.tagName (h : Merged kind first rest others space full c d)
    (hkind : kind = .function ∨ kind = .command) (hprimary : first.isSecondary = false) :
    (first.placed space).tagName = .ok (.text (tagWord kind full)) := by
  obtain ⟨word, hword⟩ : ∃ word, kind.inlineWord? = some word := by
    rcases hkind with rfl | rfl <;> exact ⟨_, rfl⟩
  have hlabel : kind.label ≠ Kind.exception.label := by
    rcases hkind with rfl | rfl <;> decide
  obtain ⟨hkindValue, hplain⟩ := Plugin.kindValue_of_shelf h.documented hlabel
  have hplaced : (first.placed space).isSecondary = false :=
    (Entry.isSecondary_eq_of_frame (Entry.frame_placed space first)).trans hprimary
  exact tagName_eq hword hkindValue hplain hplaced h.named

theorem Merged.unlike (h : Merged kind first rest others space full c d) (hnamed : Named others) :
    ∀ x ∈ others, Plugin.Unlike (.text full) x := by
  intro x hx
  obtain ⟨held, hheld⟩ := hnamed x hx
  refine Plugin.unlike_text_iff.mpr ⟨held, hheld, ?_⟩
  rintro rfl
  exact h.other x hx hheld

end Usages

/--
**A link to an element with several usages leads to the first one only if no other is documented.**

Above the definition of a function or a command a doc comment gives one entry for each header, of
which the first is not secondary.  After they were merged, a link by the full name leads to the tag of
the first one if no later one is collected under the same name and everything that is collected has a
name, and is broken otherwise.  For a command that means that there can be a link to it only if it has
one usage.
-/
theorem link_to_usages {file : Option String} {lines : List String} {docs : List DocLine}
    {code : CodeLine} {kind : Kind} (hcomment : Source.IsDocComment lines docs code)
    (hcode : code.kind? = some kind) (hkind : kind = .function ∨ kind = .command)
    (hheaders : 0 < docs.countP DocLine.isHeader)
    (hread : (Source.entries file lines).result = .ok ()) :
    ∃ first rest, (Source.entries file lines).state = first :: rest
      ∧ rest.length + 1 = docs.countP DocLine.isHeader
      ∧ first.isSecondary = false
      ∧ (∀ e ∈ rest, e.isSecondary = true)
      ∧ ∀ others space full c d, Merged kind first rest others space full c d →
        let lookUp := d.plugin.lookUpTag kind.toValue (.text full)
        let alone := Named others ∧ ∀ e ∈ rest, Apart c.plugin.library.isGiven kind space full e
        (first.placed space).tagName = .ok (.text (tagWord kind full))
        ∧ (alone → lookUp = .ok (.text (tagWord kind full)))
        ∧ (¬alone → ∃ cause, lookUp = .error cause)
        ∧ (kind = .command → Named others → 1 < docs.countP DocLine.isHeader →
          lookUp = .error (.missing ("Found multiple COMMANDs named " ++ full))) := by
  obtain ⟨first, rest, hstate, husages⟩ := Source.entries_usages hcomment hcode hkind hheaders hread
  refine ⟨first, rest, hstate, husages.length, husages.primary, husages.secondary, ?_⟩
  intro others space full c d hmerged lookUp alone
  have htag := hmerged.tagName hkind husages.primary
  have hlinked := linkedName_full hcomment hcode hkind husages hmerged
  have hlike : (Value.text full == Value.text full) = true := Value.beq_text_iff.mpr rfl
  obtain ⟨before, after, rfl, hcollected⟩ := hmerged.collected (fun _ => husages.kindValue) hkind
  refine ⟨htag, ?_⟩
  by_cases hnamed : Named (before ++ after)
  · have hunlike := hmerged.unlike hnamed
    have hbefore : ∀ x ∈ before, Plugin.Unlike (.text full) x :=
      fun x hx => hunlike x (List.mem_append_left _ hx)
    -- What follows the first usage has other names exactly if the later usages are apart.
    have hapart : (∀ x ∈ collectedLater c.plugin.library.isGiven kind space rest ++ after,
        Plugin.Unlike (.text full) x)
        ↔ ∀ e ∈ rest, Apart c.plugin.library.isGiven kind space full e := by
      rw [List.forall_mem_append, unlike_collectedLater]
      exact and_iff_left fun x hx => hunlike x (List.mem_append_right _ hx)
    have hlater (h : ¬∀ e ∈ rest, Apart c.plugin.library.isGiven kind space full e) :=
      Plugin.lookUpTag_of_later hlinked hcollected hbefore hmerged.named hlike (mt hapart.mp h)
    refine ⟨fun h => ?_, fun h => ?_, ?_⟩
    · exact (Plugin.lookUpTag_of_first hlinked hcollected hbefore hmerged.named hlike
        (hapart.mpr h.2)).trans htag
    · obtain ⟨cause, hcause, -⟩ := hlater fun hall => h ⟨hnamed, hall⟩
      exact ⟨cause, hcause⟩
    · rintro rfl - hseveral
      cases code with
      | command name flags =>
          have hlength := husages.length
          obtain ⟨e, he⟩ := List.exists_mem_of_length_pos (show 0 < rest.length by omega)
          obtain ⟨cause, hcause, hmany⟩ := hlater fun hall =>
            not_apart_command husages hmerged he _ (hall e he)
          have hbehind := List.forall_mem_append.mpr
            ⟨named_collectedLater husages c.plugin.library.isGiven space,
              fun x hx => hnamed x (List.mem_append_right before hx)⟩
          exact hcause.trans (congrArg Except.error (hmany hbehind))
      | _ => cases hcode
  · refine ⟨fun h => absurd h.1 hnamed, fun _ => ?_, fun _ h => absurd h hnamed⟩
    obtain ⟨x, hx, cause, hcause⟩ := exists_unnamed hnamed
    have hmem : x ∈ d.plugin.collections.under kind := by
      rw [hcollected]
      rcases List.mem_append.mp hx with hx | hx
      · exact List.mem_append_left _ hx
      · exact List.mem_append_right _ (List.mem_cons_of_mem _ (List.mem_append_right _ hx))
    obtain ⟨other, hother⟩ := Plugin.named_of_unnamed hmem hcause
    exact ⟨other, Plugin.lookUpTag_of_error hlinked hother⟩

/-- A command with two usages: a link by its name finds both of them. -/
theorem link_to_two_usages :
    let lines := ["\"\" @usage {list} {item}\n", "\" Adds {item} to {list}.\n",
      "\" @usage {dict} {key} {value}\n", "command -nargs=+ Insert call demo#Insert(<f-args>)\n"]
    let entries := (Source.entries none lines).state
    let fresh : Context := ⟨{ name := .text "demo" }, { name := .text "demo" }⟩
    let merged := Page.mergeAll (entries.map (·, .nothing)) fresh
    entries.map (·.isSecondary) = [false, true]
    ∧ merged.result = .ok ()
    ∧ merged.state.plugin.lookUpTag Kind.command.toValue (.text "Insert")
      = .error (.missing "Found multiple COMMANDs named Insert") := by
  intro lines entries fresh merged
  have hcomment : Source.IsDocComment lines
      [.header ⟨.usage, "{list} {item}", ["list", "item"], []⟩, .text "Adds {item} to {list}.",
        .header ⟨.usage, "{dict} {key} {value}", ["dict", "key", "value"], []⟩]
      (.command "Insert" ⟨false, false, false, false, false, false⟩) := by
    decide +kernel
  obtain ⟨hread, hsecondary, hresult, hshelves, hnames⟩ :
      (Source.entries none lines).result = .ok ()
      ∧ entries.map (·.isSecondary) = [false, true]
      ∧ merged.result = .ok ()
      ∧ entries.map (fun e => Plugin.shelf false (e.placed .nothing))
        = [Kind.command.toValue, Kind.command.toValue]
      ∧ entries.map (fun e => (e.placed .nothing).fullName)
        = [.ok (.text "Insert"), .ok (.text "Insert")] := by
    decide +kernel
  refine ⟨hsecondary, hresult, ?_⟩
  obtain ⟨first, rest, hstate, hlength, -, -, hlinks⟩ :=
    link_to_usages hcomment rfl (Or.inr rfl) (by decide) hread
  have hentries : entries = first :: rest := hstate
  have hmerged : Merged .command first rest [] .nothing "Insert" fresh merged.state := by
    rw [hentries] at hshelves hnames
    refine ⟨⟨[], merged.warnings, ?_, rfl⟩, by simp, (List.cons.inj hshelves).1,
      (List.cons.inj hnames).1⟩
    rw [← hentries, List.append_nil, ← hresult]
  exact (hlinks [] .nothing "Insert" fresh merged.state hmerged).2.2.2 rfl
    (fun x hx => by cases hx) (by decide)

end Help

end PluginHelp
