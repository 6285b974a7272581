/-
All pages of a plugin.
-/
import PluginHelp.Page.Outline

namespace PluginHelp

/-- A plugin and its pages. -/
structure Book where
  plugin : Plugin
  pages : List Page := []

namespace Book

/-- A step on a page and on the plugin. -/
def onPage {α : Type} (i : Nat) (act : Act Context α) : Act Book α :=
  fun b =>
    match b.pages[i]? with
    | none => Act.fail .noSuchPlace b
    | some page =>
      let after := act ⟨b.plugin, page⟩
      ⟨⟨after.state.plugin, b.pages.set i after.state.page⟩, after.warnings, after.result⟩

/-- Adds a page. -/
def addPage (name : Value) : Act Book Unit :=
  Act.modify fun b => { b with pages := b.pages ++ [{ name }] }

/-- Merges the entries of a file with a namespace into a page. -/
def mergeAll (i : Nat) (space : Value) (entries : List Entry) : Act Book Unit :=
  onPage i (Act.each entries fun e => Page.merge e space)

end Book

end PluginHelp
