/-
Pages: the entries that go into one help file.

A page holds its sections in order, the backmatter of sections, and its documented entries by kind.
A fallback section or backmatter gives way to any other one with the same identifier.
-/
import PluginHelp.Plugin
import PluginHelp.Sorting

namespace PluginHelp

/-- A section of a page.  Its number tells it apart from other sections that had its identifier. -/
structure Section where
  number : Nat
  entry : Entry

/-- The entries that go into one help file. -/
structure Page where
  name : Value
  /-- The sections by identifier. -/
  sections : Table Value Section := []
  /-- How many sections have come so far. -/
  arrivals : Nat := 0
  /-- The sections that were found below other ones, each after the number of the upper one. -/
  attached : List (Nat × Section) := []
  /-- The backmatter of sections, by the identifier of the section. -/
  backmatters : Table Value Entry := []
  collections : Collections := []
  /-- The order of the sections, if one was given. -/
  order : Value := .nothing

/-- A page together with the plugin it belongs to. -/
structure Context where
  plugin : Plugin
  page : Page

namespace Context

/-- A step on the plugin. -/
def onPlugin {α : Type} (act : Act Plugin α) : Act Context α :=
  Act.on (·.plugin) (fun plugin c => { c with plugin }) act

/-- A step on the page. -/
def onPage {α : Type} (act : Act Page α) : Act Context α :=
  Act.on (·.page) (fun page c => { c with page }) act

end Context

namespace Page

/-- Puts an entry under its identifier, where a fallback gives way.  Of two that are none, the
second one fails for the given cause. -/
def settle {α : Type} (entry : α → Entry) (table : Table Value α) (a : α)
    (duplicate : Value → Cause) : Except Cause (Table Value α) :=
  let id := (entry a).ownD "id"
  if id.isKey then
    match table.get? id with
    | none => .ok (table.set id a)
    | some held =>
      if (entry held).isFallback then .ok (table.set id a)
      else if (entry a).isFallback then .ok table
      else .error (duplicate id)
  else
    .error .wrongValue

/-- Takes over the order of the sections; it may be given only once. -/
def takeOrder (e : Entry) : Act Page Unit := do
  match e.shared.get? "order" with
  | none => pure ()
  | some order =>
    if (← Act.get).order.isNothing then
      Act.modify ({ · with order })
    else
      Act.fail (.redundantControl "order")

/-- Adds a section. -/
def addSection (e : Entry) : Act Page Unit := do
  let page ← Act.get
  let sections ← Act.ofExcept
    (settle Section.entry page.sections ⟨page.arrivals, e⟩ .duplicateSection)
  Act.modify ({ · with sections, arrivals := page.arrivals + 1 })

/-- Adds the backmatter of a section. -/
def addBackmatter (e : Entry) : Act Page Unit := do
  let backmatters ← Act.ofExcept (settle id (← Act.get).backmatters e .duplicateBackmatter)
  Act.modify ({ · with backmatters })

/-- Merges an entry of a file with a namespace into a page.  What is no documentation is passed
over, and documentation must have a kind by now. -/
def merge (e : Entry) (space : Value) : Act Context Unit := do
  if !e.kindValue.isGiven then
    return
  if e.kindValue.isYes then
    Act.fail .ambiguousEntry
  let e ← Act.within (Entry.setOwn "namespace" space) e
  Context.onPage (takeOrder e)
  Context.onPlugin (Plugin.add e)
  if e.isOf .sect then
    Context.onPage (addSection e)
  else if e.isOf .backmatter then
    Context.onPage (addBackmatter e)
  else
    let c ← Act.get
    let collections ← Act.ofExcept (c.page.collections.add (c.plugin.collectionKind e) e)
    Context.onPage (Act.modify ({ · with collections }))

/-! ### Collections -/

/-- The items in the order of their keys.  All keys are taken before any two are compared. -/
def sortByValue {α : Type} (key : α → Except Cause Value) (items : List α) :
    Except Cause (List α) := do
  let keyed ← items.mapM fun a => do return (← key a, a)
  return (← Sorting.sort (fun a b => Entry.valueBefore a.1 b.1) keyed).map (·.2)

/-- Functions come by namespace and dictionaries by name; all else stays in order. -/
def arrange (kind : Value) (entries : List Entry) : Except Cause (List Entry) :=
  if kind == Kind.function.toValue then
    sortByValue (fun e => .ok ((e.own? "namespace").getD (.text ""))) entries
  else if kind == Kind.dictionary.toValue then
    Sorting.sort Entry.isBefore entries
  else
    .ok entries

/-- The tag of an entry, which must be a possible key to be looked for. -/
def keyTag (e : Entry) : Except Cause Value := do
  let tag ← e.tagName
  if tag.isKey then return tag else .error .wrongValue

/-- The tags of the entries that are no fallbacks. -/
def firmTags (entries : List Entry) : Except Cause (List Value) :=
  (entries.filter (!·.isFallback)).mapM keyTag

/-- The entries without the fallbacks whose tag is among the given ones. -/
def withoutFallbacks (tags : List Value) : List Entry → Except Cause (List Entry)
  | [] => .ok []
  | e :: rest => do
    let keep ← if e.isFallback then pure (!tags.contains (← keyTag e)) else pure true
    let others ← withoutFallbacks tags rest
    return if keep then e :: others else others

/-- The collected entries of a kind, arranged, without the fallbacks that are overridden. -/
def collection (p : Page) (kind : Value) : Except Cause (List Entry) := do
  let entries ← arrange kind (← p.collections.entries kind)
  withoutFallbacks (← firmTags entries) entries

end Page

end PluginHelp
