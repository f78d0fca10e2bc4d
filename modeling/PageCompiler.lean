import PageCompiler.Behavior
import PageCompiler.Binary64
import PageCompiler.Blueprint
import PageCompiler.Blueprint.Build
import PageCompiler.Blueprint.Json
import PageCompiler.Bootstrap
import PageCompiler.ClientData
import PageCompiler.CommandLine
import PageCompiler.CommandLine.Run
import PageCompiler.Config
import PageCompiler.Engine
import PageCompiler.Engine.Element
import PageCompiler.Engine.Render
import PageCompiler.Entries
import PageCompiler.Error
import PageCompiler.FileTree
import PageCompiler.Identifier
import PageCompiler.Journal
import PageCompiler.Json.Number
import PageCompiler.Json.Printer
import PageCompiler.Json.Record
import PageCompiler.Json.Tree
import PageCompiler.Json.Value
import PageCompiler.Main
import PageCompiler.Markup.Document
import PageCompiler.Markup.Element
import PageCompiler.Markup.Escape
import PageCompiler.Markup.Names
import PageCompiler.Markup.Tree
import PageCompiler.PageFile
import PageCompiler.Path
import PageCompiler.Preview
import PageCompiler.Preview.Site
import PageCompiler.Preview.Target
import PageCompiler.Proofs.Markup.Forest
import PageCompiler.Proofs.Markup.Edits
import PageCompiler.Proofs.Markup.Links
import PageCompiler.Proofs.Markup.Nodes
import PageCompiler.Proofs.Markup.Data
import PageCompiler.Proofs.Markup.Reachable
import PageCompiler.Proofs.Markup.Trees
import PageCompiler.Proofs.Markup.RawText
import PageCompiler.Proofs.Markup.Escapes
import PageCompiler.Proofs.Markup.Reading
import PageCompiler.Proofs.Markup.StartTags
import PageCompiler.Proofs.Markup.Spellings
import PageCompiler.Proofs.Markup.Grafts
import PageCompiler.Proofs.Stylesheet
import PageCompiler.Proofs.Engine.Shell
import PageCompiler.Proofs.Engine.UserEdits
import PageCompiler.Proofs.Engine.Alike
import PageCompiler.Proofs.Engine.Mirrors
import PageCompiler.Proofs.Engine.Actions
import PageCompiler.Proofs.Engine.Attaching
import PageCompiler.Proofs.Engine.Stage
import PageCompiler.Proofs.Engine.Reset
import PageCompiler.Proofs.Engine.Building
import PageCompiler.Proofs.Engine.Mounting
import PageCompiler.Proofs.Engine.PageText
import PageCompiler.Proofs.Engine.Compile
import PageCompiler.Proofs.Engine.Rendering
import PageCompiler.Proofs.Engine.Session
import PageCompiler.Proofs.Engine.Commands
import PageCompiler.Proofs.Engine.Reached
import PageCompiler.Proofs.Engine.Renders
import PageCompiler.Proofs.Engine.InlineStyles
import PageCompiler.Proofs.Steps
import PageCompiler.Random
import PageCompiler.Script.Comments
import PageCompiler.Script.Scan
import PageCompiler.Script.Whitespace
import PageCompiler.Studio
import PageCompiler.Style
import PageCompiler.Text
import PageCompiler.Text.Blank
import PageCompiler.Text.Invisible
import PageCompiler.Text.Quoted
import PageCompiler.Proofs.Markup.Walks
import PageCompiler.Proofs.Engine.Hooks
import PageCompiler.Proofs.Stylesheet.Contained
import PageCompiler.Proofs.Stylesheet.ReadBack
import PageCompiler.Proofs.Engine.Collecting
import PageCompiler.Proofs.Engine.Emissions
import PageCompiler.Proofs.Behavior
import PageCompiler.Proofs.Script.Literals
import PageCompiler.Proofs.Invariants
import PageCompiler.Proofs.Engine.Frames
import PageCompiler.Proofs.Engine.Guarding
import PageCompiler.Proofs.Engine.RenderFrames
import PageCompiler.Proofs.Engine.Wiring
import PageCompiler.Proofs.Engine.BlueprintRuns
import PageCompiler.Proofs.Json.Numbers
import PageCompiler.Proofs.Json.ReadBack
import PageCompiler.Proofs.Script.ClientData
import PageCompiler.Proofs.Engine.DataPages
import PageCompiler.Proofs.Markup.Failures
import PageCompiler.Proofs.Script.Settled
import PageCompiler.Proofs.Engine.Enclosing
import PageCompiler.Proofs.Engine.EnclosedSteps
import PageCompiler.Proofs.Engine.WholePages
import PageCompiler.Proofs.Markup.Tables
import PageCompiler.Proofs.Markup.Growth
import PageCompiler.Proofs.Blueprint.Drafts
import PageCompiler.Proofs.Blueprint.Elements
import PageCompiler.Proofs.Blueprint.Mirrors
import PageCompiler.Proofs.Blueprint.Pages
import PageCompiler.Proofs.Identifier
import PageCompiler.Proofs.Lockstep
import PageCompiler.Proofs.Engine.SideBySide
import PageCompiler.Proofs.Engine.Lockstep
import PageCompiler.Proofs.Engine.LockstepRenders
import PageCompiler.Proofs.Engine.Identifiers
import PageCompiler.Proofs.Markup.Subtrees
import PageCompiler.Proofs.Markup.Moves
import PageCompiler.Proofs.Markup.Removals
import PageCompiler.Proofs.Markup.Contents
import PageCompiler.Proofs.Markup.Gathering
import PageCompiler.Proofs.Engine.Appending
import PageCompiler.Proofs.Engine.UserElements
import PageCompiler.Proofs.Engine.ScriptTexts
import PageCompiler.Proofs.Engine.Shrinking
import PageCompiler.Proofs.Engine.TakenTexts
import PageCompiler.ClientStore
import PageCompiler.Proofs.Stylesheet.Values
import PageCompiler.Proofs.Script.LineEnds
import PageCompiler.Proofs.Script.Lexemes
import PageCompiler.Proofs.Binary64
import PageCompiler.Proofs.Json.Agreement
import PageCompiler.Proofs.Json.Literals
import PageCompiler.Proofs.ClientStore.Numbers
import PageCompiler.Proofs.ClientStore.Order
import PageCompiler.Proofs.ClientStore.Texts
import PageCompiler.Proofs.ClientStore.Writes
import PageCompiler.Proofs.Entries
import PageCompiler.Proofs.Text
import PageCompiler.Proofs.Preview.AssetPaths
import PageCompiler.Proofs.Preview.Reloading
import PageCompiler.Proofs.Json.Records
import PageCompiler.Proofs.Blueprint.ListFields
import PageCompiler.Proofs.Engine.Viewports
import PageCompiler.Proofs.CommandLine
import PageCompiler.Proofs.Markup.Shielding
import PageCompiler.Proofs.Preview.Fingerprints
