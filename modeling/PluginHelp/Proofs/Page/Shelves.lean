/-
What a plugin has collected under a kind belongs there.

Collections change only when an entry is merged, and then the entry goes to the end of the one that
its kind and its controls ask for.  So whatever pages are added, whatever is merged into them and
whichever of them are closed, and even if some of that fails, every collected entry is where it would
be put again.  The entries that files give also have their usages, and merging takes nothing away.
-/
import PluginHelp.Proofs.Page.Building
import PluginHelp.Proofs.Page.Merging
import PluginHelp.Proofs.Source.Finishing

namespace PluginHelp

open Act

theorem Entry.placed_settled {e : Entry} (h : e.Settled) (space : Value) :
    (e.placed space).Settled := by
  have hneeds : (e.placed space).needsUsage = e.needsUsage := by
    rw [needsUsage, needsUsage, isOf_placed space e (by decide), isOf_placed space e (by decide),
      hasOwn_eq, hasOwn_eq, own?_placed space e (by decide) (by decide)]
  have husage : (e.placed space).own? "usage" = e.own? "usage" :=
    own?_placed space e (by decide) (by decide)
  refine ⟨?_, ?_⟩
  · rw [hneeds, husage]
    exact h.usage
  · rw [hneeds, husage]
    exact h.none

namespace Plugin

/-- An entry that stands where it is to stand, with its usage. -/
def Belongs (kind : Kind) (e : Entry) : Prop :=
  (∃ library, shelf library e = kind.toValue) ∧ e.Settled

/-- Everything that was collected stands where it belongs. -/
def Orderly (p : Plugin) : Prop :=
  ∀ kind, ∀ e ∈ p.collections.under kind, Belongs kind e

/-- What is collected under a kind is of that kind, and a function is no exception. -/
theorem kindValue_of_shelf {library : Bool} {kind : Kind} {e : Entry}
    (hshelf : shelf library e = kind.toValue) (hkind : kind.label ≠ Kind.exception.label) :
    e.kindValue = kind.toValue ∧ (e.isOf .function = true → e.hasOwn "exception" = false) := by
  cases hfunction : e.isOf .function with
  | false =>
      rw [shelf_of_not_function hfunction] at hshelf
      exact ⟨hshelf, fun hyes => by cases hyes⟩
  | true =>
      rw [shelf, collectionKind, hfunction, if_pos rfl] at hshelf
      split at hshelf
      · cases hshelf
      · split at hshelf
        · cases hshelf
        · split at hshelf
          · cases hshelf
          · split at hshelf
            · exact absurd (Value.text.inj hshelf).symm hkind
            · rename_i hplain
              exact ⟨hshelf, fun _ => by simpa using hplain⟩

theorem consume_orderly (e : Entry) : Keeps Orderly (fun _ => True) (consume e) :=
  consume_of_puts (fun _ _ => trivial) (fun _ => trivial) (fun _ => trivial) (fun _ _ hp => hp)
    fun _ _ hp => hp

/-- An entry with its usage is put where it belongs. -/
theorem add_orderly {e : Entry} (h : e.Settled) : Keeps Orderly (fun _ => True) (Plugin.add e) := by
  unfold Plugin.add
  refine Keeps.ite (fun _ => consume_orderly e) fun _ p hp => ?_
  rw [get_bind_apply]
  cases hadd : p.collections.add (p.collectionKind e) e with
  | error cause => exact ⟨hp, fun _ _ => trivial⟩
  | ok collections =>
      refine ⟨?_, fun _ _ => trivial⟩
      show Orderly { p with collections }
      intro kind other hother
      rw [Collections.under_add hadd kind, List.mem_append] at hother
      rcases hother with hother | hother
      · exact hp kind other hother
      · split at hother
        · rename_i hlike
          rw [List.mem_singleton.mp hother]
          exact ⟨⟨p.library.isGiven, Value.beq_text_iff.mp hlike⟩, h⟩
        · cases hother

end Plugin

/-! ### Pages -/

namespace Page

/-- A step that leaves the plugin orderly whether it succeeds or not. -/
abbrev LeavesOrderly {α : Type} (act : Act Context α) : Prop :=
  Keeps (fun c : Context => c.plugin.Orderly) (fun _ => True) act

theorem onPage_orderly {α : Type} (act : Act Page α) : LeavesOrderly (Context.onPage act) :=
  fun _ hc => ⟨hc, fun _ _ => trivial⟩

theorem takeIn_orderly {e : Entry} (h : e.Settled) : LeavesOrderly (takeIn e) := by
  have hadd : LeavesOrderly (Context.onPlugin (Plugin.add e)) :=
    fun c hc => ⟨(Plugin.add_orderly h c.plugin hc).1, fun _ _ => trivial⟩
  exact takeIn_of_steps (onPage_orderly _) hadd (fun _ => onPage_orderly _)
    (fun _ => onPage_orderly _) (fun _ _ _ _ => trivial) fun _ _ hc _ _ => hc

theorem merge_orderly {e : Entry} (h : e.Settled) (space : Value) :
    LeavesOrderly (merge e space) :=
  merge_of_takeIn trivial (fun _ => trivial) (takeIn_orderly (Entry.placed_settled h space))

/-- A section needs no usage and is given none. -/
theorem newSection_settled {e : Entry} (id title : String)
    (h : e.own = (newSection id title).own) : e.Settled := by
  have hown (control : String) : e.own? control = (newSection id title).own? control := by
    rw [Entry.own?, Entry.own?, h]
  have hkind : e.kindValue = Kind.sect.toValue := by
    rw [Entry.kindValue, Entry.ownD, hown]
    rfl
  refine ⟨fun hneeds => ?_, fun _ => ?_⟩
  · rw [Entry.needsUsage, Entry.isOf_eq_false hkind (by decide),
      Entry.isOf_eq_false hkind (by decide)] at hneeds
    cases hneeds
  · rw [hown]
    rfl

theorem close_orderly : LeavesOrderly close := by
  rw [close_eq]
  refine Keeps.bind ?_ fun _ => onPage_orderly _
  exact addKindSections_of_merge (fun _ _ => trivial) (fun _ _ _ _ => trivial)
    fun _ id title hown => merge_orderly (newSection_settled id title hown) _

end Page

/-! ### Books -/

namespace Book

/-- A book that can come about: it starts without pages, pages are added, entries with their usages
are merged into them, and pages are closed, each of which may fail. -/
inductive Reachable : Book → Prop
  | start (plugin : Plugin) : plugin.collections = [] → Reachable { plugin }
  | addPage {b : Book} (name : Value) : Reachable b → Reachable (Book.addPage name b).state
  | merge {b : Book} (i : Nat) {e : Entry} (space : Value) :
    Reachable b → e.Settled → Reachable (onPage i (Page.merge e space) b).state
  | close {b : Book} (i : Nat) : Reachable b → Reachable (onPage i Page.close b).state

theorem onPage_orderly {act : Act Context Unit} (h : Page.LeavesOrderly act) (i : Nat) {b : Book}
    (hb : b.plugin.Orderly) : (onPage i act b).state.plugin.Orderly := by
  unfold onPage
  split
  · exact hb
  · rename_i page _
    exact (h ⟨b.plugin, page⟩ hb).1

/-- Whatever happened to a book, its plugin is orderly. -/
theorem Reachable.orderly {b : Book} (h : Reachable b) : b.plugin.Orderly := by
  induction h with
  | start plugin hnone =>
      intro kind e he
      rw [Collections.under, show ({ plugin } : Book).plugin.collections = [] from hnone] at he
      cases he
  | addPage name _ ih => exact ih
  | merge i space _ he ih => exact onPage_orderly (Page.merge_orderly he space) i ih
  | close i _ ih => exact onPage_orderly Page.close_orderly i ih

/-- Two steps on a page are a step on it. -/
theorem onPage_bind {α β : Type} (i : Nat) (act : Act Context α) (next : α → Act Context β) :
    onPage i (act >>= next) = onPage i act >>= fun a => onPage i (next a) := by
  funext b
  cases hpage : b.pages[i]? with
  | none =>
      have hfail {γ : Type} (act : Act Context γ) :
          onPage i act b = ⟨b, [], .error { cause := .noSuchPlace }⟩ := by
        unfold onPage
        rw [hpage]
        rfl
      rw [hfail, bind_apply_error _ (hfail act)]
  | some page =>
      have hi : i < b.pages.length := (List.getElem?_eq_some_iff.mp hpage).1
      have hrun {γ : Type} (act : Act Context γ) {c : Context} {warnings : List Warning}
          {result : Except Fault γ} (h : act ⟨b.plugin, page⟩ = ⟨c, warnings, result⟩) :
          onPage i act b = ⟨⟨c.plugin, b.pages.set i c.page⟩, warnings, result⟩ := by
        unfold onPage
        rw [hpage]
        dsimp only
        rw [h]
      rcases hact : act ⟨b.plugin, page⟩ with ⟨c, warnings, fault | a⟩
      · rw [hrun _ (bind_apply_error next hact), bind_apply_error _ (hrun act hact)]
      · rw [hrun _ (bind_apply_ok next hact), bind_apply_ok _ (hrun act hact)]
        unfold onPage
        simp [hi]

/-- Merging the entries of a file leads to a book that can come about. -/
theorem Reachable.mergeFile {b : Book} (h : Reachable b) (i : Nat) (space : Value)
    (file : Option String) (lines : List String) :
    Reachable (mergeAll i space (Source.entries file lines).state b).state := by
  have hsettled := Source.entries_settled file lines
  generalize (Source.entries file lines).state = entries at hsettled ⊢
  unfold mergeAll
  induction entries generalizing b with
  | nil =>
      rw [each_nil]
      unfold onPage
      split
      · exact h
      · rename_i page hpage
        have hsame : b.pages.set i page = b.pages := by
          obtain ⟨hi, rfl⟩ := List.getElem?_eq_some_iff.mp hpage
          exact List.set_getElem_self hi
        dsimp only [pure_apply]
        rw [hsame]
        exact h
  | cons e rest ih =>
      obtain ⟨he, hrest⟩ := List.forall_mem_cons.mp hsettled
      have hfirst := h.merge i space he
      rw [each_cons, onPage_bind]
      rcases hmerge : onPage i (Page.merge e space) b with ⟨t, warnings, fault | a⟩
      · rw [bind_apply_error _ hmerge]
        rw [hmerge] at hfirst
        exact hfirst
      · rw [bind_apply_ok _ hmerge]
        rw [hmerge] at hfirst
        exact ih hfirst hrest

end Book

end PluginHelp
