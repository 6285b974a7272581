import PluginHelp.Main
import PluginHelp.Proofs.Page.Close
import PluginHelp.Proofs.Source.DocComments
import PluginHelp.Proofs.Entry.Controls
import PluginHelp.Proofs.Page.Merging
import PluginHelp.Proofs.Page.Library
import PluginHelp.Proofs.Pattern.Matching
import PluginHelp.Proofs.Entry.Closing
import PluginHelp.Proofs.Source.Finishing
import PluginHelp.Proofs.Page.Shelves
import PluginHelp.Proofs.Help.Tags
import PluginHelp.Proofs.Entry.Undefined
import PluginHelp.Proofs.Entry.Defining
import PluginHelp.Proofs.Source.Undefined
import PluginHelp.Proofs.Help.Width
import PluginHelp.Proofs.Source.Usages
import PluginHelp.Proofs.Help.Usages
import PluginHelp.Proofs.Entry.Usage
import PluginHelp.Proofs.Source.Stranded
import PluginHelp.Proofs.Page.Holding
import PluginHelp.Proofs.Page.Parts
import PluginHelp.Proofs.Page.Ordered
import PluginHelp.Proofs.Help.Presence
import PluginHelp.Proofs.Page.Closable
import PluginHelp.Proofs.Source.Routing
import PluginHelp.Proofs.Build.Crawling
import PluginHelp.Proofs.Build.Standalone
import PluginHelp.Proofs.Build.Written
import PluginHelp.Proofs.Build.Strays
import PluginHelp.Proofs.Help.Crossing
import PluginHelp.Proofs.Page.Spaceless
import PluginHelp.Proofs.Entry.Signature
import PluginHelp.Proofs.Help.Lossless
import PluginHelp.Proofs.Page.Completion
import PluginHelp.Proofs.Help.Siblings
import PluginHelp.Proofs.Source.Joining
import PluginHelp.Proofs.Entry.Words
import PluginHelp.Proofs.Page.Overriding
import PluginHelp.Proofs.Page.FunctionOrder
import PluginHelp.Proofs.Page.Precedence
import PluginHelp.Proofs.Source.Misread
import PluginHelp.Proofs.Pattern.UsageSlots
import PluginHelp.Proofs.Entry.Repeats
import PluginHelp.Proofs.Source.Titles
import PluginHelp.Proofs.Source.FunctionLine
import PluginHelp.Proofs.Help.Undocumented
import PluginHelp.Proofs.Source.Initial
import PluginHelp.Proofs.Help.BareWords
import PluginHelp.Proofs.Entry.Demands
import PluginHelp.Proofs.Entry.LineBreaks
import PluginHelp.Proofs.Help.Paragraphs
import PluginHelp.Proofs.Source.Defaults
import PluginHelp.Proofs.Source.SectionOrder
