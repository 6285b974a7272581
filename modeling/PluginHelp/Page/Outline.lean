/-
Closing a page: the sections it needs, and their outline.

A page gets a section for every kind of entry it documents.  Sections may be nested: the outline puts
the sections at the top in the order of the page, each followed by the sections below it, sorted by
title.  A section's level is its depth.
-/
import PluginHelp.Entry.Lines
import PluginHelp.Page.Basic
import PluginHelp.Page.Order

namespace PluginHelp.Page

/-! ### Sections that a page needs -/

/-- The kinds that have a section of their own, with its identifier and its title. -/
def kindSections : List (Kind × String × String) :=
  [(.function, "functions", "Functions"), (.exception, "exceptions", "Exceptions"),
    (.command, "commands", "Commands"), (.dictionary, "dicts", "Dictionaries"),
    (.flag, "config", "Configuration"), (.setting, "config", "Configuration")]

/-- A section with an identifier and a title. -/
def newSection (id title : String) : Entry :=
  ((Entry.ofKind .sect).putOwn "id" (.text id)).putOwn "name" (.text title)

/-- What the section on flags says, unless the plugin says it itself. -/
def flagHelp : String :=
  "This plugin uses maktaba flags for configuration. Install Glaive"
    ++ " (https://github.com/google/glaive) and use the @command(Glaive)"
    ++ " command to configure them."

/-- Adds the section on flags to a page that documents some. -/
def addFlagHelp : Act Context Unit := do
  let flags ← Act.ofExcept ((← Act.get).page.collection Kind.flag.toValue)
  if !flags.isEmpty then
    let e ← Act.within (Entry.addLine flagHelp)
      { newSection "config" "Configuration" with isFallback := true }
    merge e .nothing

/-- Adds the section of a kind to a page that documents something of that kind. -/
def addKindSection (kind : Kind) (id title : String) : Act Context Unit := do
  if kind == .flag then
    addFlagHelp
  let page := (← Act.get).page
  let entries ← Act.ofExcept (page.collection kind.toValue)
  if !entries.isEmpty && !page.sections.has (.text id) then
    merge (newSection id title) .nothing

/-! ### Nesting -/

/-- The identifier of the section that a section lies below, or nothing. -/
def parentOf (s : Section) : Value :=
  s.entry.ownD "parent_id"

/-- Whether a section lies below another one. -/
def isNested (s : Section) : Bool :=
  (parentOf s).isGiven

/-- The section that a nested section lies below.  There must be one. -/
def upperOf (sections : Table Value Section) (s : Section) : Except Cause Section := do
  if !(parentOf s).isKey then
    .error .wrongValue
  match sections.get? (parentOf s) with
  | some upper => return upper
  | none => .error (.noSuchParent (← s.entry.needOwn "name") (parentOf s))

/-- Notes which sections lie below which.  What was noted when the page was closed before is kept. -/
def attachNested : Act Page Unit := do
  let sections := (← Act.get).sections
  Act.each (sections.filter (isNested ·.2)) fun (_, s) => do
    let upper ← Act.ofExcept (upperOf sections s)
    Act.modify fun p => { p with attached := p.attached ++ [(upper.number, s)] }

/-- Takes the nested sections out of the table. -/
def takeNested : Act Page Unit :=
  Act.modify fun p => { p with sections := p.sections.filter (!isNested ·.2) }

/-- The sections right below another one, sorted by title. -/
def below (p : Page) (upper : Section) : Except Cause (List Section) :=
  sortByValue (·.entry.needOwn "name") ((p.attached.filter (·.1 == upper.number)).map (·.2))

/-- A section with a level; one that has a level keeps it. -/
def withLevel (s : Section) : Section :=
  if s.entry.hasOwn "level" then s else { s with entry := s.entry.putOwn "level" (.number 0) }

/-- A section one level below another one. -/
def oneLevelBelow (upper s : Section) : Except Cause Section := do
  let level ← Entry.joinValues (upper.entry.ownD "level") (.number 1)
  return { s with entry := s.entry.putOwn "level" level }

/-- Puts a section into the outline and then the sections that lie below it.  A chain of sections
that is longer than the given depth is not followed to its end. -/
def addBranch : (depth : Nat) → (id : Value) → Section → Act Page Unit
  | 0, _, _ => Act.fail .tooDeep
  | depth + 1, id, s => do
    let s := withLevel s
    Act.modify fun p => { p with sections := p.sections.set id s }
    Act.each (← Act.ofExcept ((← Act.get).below s)) fun child => do
      let child ← Act.ofExcept (oneLevelBelow s child)
      let childId ← Act.ofExcept (child.entry.needOwn "id")
      addBranch depth childId child

/-- Puts a section of the order at the end of the outline, with everything below it.  No chain of
different sections is longer than the number of sections that have come. -/
def addOrdered (order id : Value) : Act Page Unit := do
  let page ← Act.get
  match page.sections.get? id with
  | none => pure ()
  | some s =>
    Act.modify fun p => { p with sections := p.sections.erase id }
    if isNested s then
      Act.fail (.orderedChild (← Act.ofExcept (s.entry.needOwn "id")) order)
    addBranch page.arrivals id s

/-- Fails if a section at the top is missing from the order. -/
def checkNeglected (sections : Table Value Section) (order : Value) (ids : List Value) :
    Except Cause Unit := do
  if !ids.all (·.isKey) then
    .error .wrongValue
  match ← sortByValue .ok (sections.keys.filter (!ids.contains ·)) with
  | [] => return
  | neglected => .error (.neglectedSections (.list neglected) order)

/-! ### Closing -/

/-- Brings the sections of a page into their outline. -/
def outline : Act Page Unit := do
  let page ← Act.get
  match page.backmatters.keys.find? fun id => !page.sections.has id with
  | some id => Act.fail (.noSuchSection id)
  | none => pure ()
  let order ← Act.ofExcept (completeOrder page.order page.sections.has)
  Act.modify ({ · with order })
  attachNested
  takeNested
  let ids := order.items?.getD []
  Act.ofExcept (checkNeglected (← Act.get).sections order ids)
  Act.each ids (addOrdered order)

/-- Closes a page. -/
def close : Act Context Unit := do
  Act.each kindSections fun (kind, id, title) => addKindSection kind id title
  Context.onPage outline

end PluginHelp.Page
