/-
While a doc comment is read, its entries stay undefined.

Nothing but documentation speaks about an entry until the line of code after the comment is reached.
So whatever the comment says, every entry is one that documentation alone has made, and the faults of
the comment are foreseen.
-/
import PluginHelp.Proofs.Entry.Defining
import PluginHelp.Proofs.Source.Every

namespace PluginHelp.Draft

open Act Entry

/-- Nothing but documentation has spoken about the open entries. -/
def Undefined (d : Draft) : Prop :=
  ∀ e ∈ d.entries, e.Undefined

variable {d : Draft}

theorem undefined_of_empty (h : d.entries = []) : d.Undefined :=
  every_of_empty h

/-- A line of documentation leaves all entries undefined, or its fault is foreseen. -/
theorem addDoc_undefined (line : DocLine) (hd : d.Sound) (h : d.Undefined) :
    Ensures (addDoc line) d (fun _ t => t.Undefined) (·.isForeseen = true) :=
  addDoc_every undefined_kept line hd h

/-- The initial value of a flag is told, which defines nothing. -/
theorem prepare_undefined (line : CodeLine) (h : d.Undefined) :
    Ensures (prepare line) d (fun _ t => t.Undefined) (·.isForeseen = true) :=
  prepare_every undefined_kept line h

/-- Reading on, no entry is ever defined. -/
theorem add_undefined (line : SourceLine) (hd : d.Sound) (h : d.Undefined) :
    Ensures (add line) d (fun _ t => t.Undefined) (fun _ => True) :=
  add_every undefined_kept line hd h

end PluginHelp.Draft
