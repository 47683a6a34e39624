import LiveTemplate.Command.Arguments
import LiveTemplate.Command.Assignment
import LiveTemplate.Command.Basic
import LiveTemplate.Command.Failure
import LiveTemplate.Command.Files
import LiveTemplate.Command.Run
import LiveTemplate.Digest.Blake3
import LiveTemplate.Document.Basic
import LiveTemplate.Document.Classes
import LiveTemplate.Document.Copy
import LiveTemplate.Document.Links
import LiveTemplate.Document.Printer
import LiveTemplate.Markup.Element
import LiveTemplate.Markup.Escape
import LiveTemplate.Markup.Fragment
import LiveTemplate.Markup.Lexer
import LiveTemplate.Markup.Nesting
import LiveTemplate.Markup.Node
import LiveTemplate.Markup.Reference
import LiveTemplate.Markup.Token
import LiveTemplate.Markup.Written
import LiveTemplate.Style.Block
import LiveTemplate.Style.ClassNames
import LiveTemplate.Style.Lexer
import LiveTemplate.Style.Name
import LiveTemplate.Style.Number
import LiveTemplate.Style.Renaming
import LiveTemplate.Style.ScopedName
import LiveTemplate.Style.Token
import LiveTemplate.Style.Url
import LiveTemplate.Table
import LiveTemplate.Template.Component
import LiveTemplate.Template.Error
import LiveTemplate.Template.NameCase
import LiveTemplate.Template.Placeholder
import LiveTemplate.Template.Shadow
import LiveTemplate.Template.Tracker
import LiveTemplate.Text.Basic
import LiveTemplate.Text.Blank
import LiveTemplate.Text.Casing
import LiveTemplate.Text.CodeRanges
import LiveTemplate.Text.Letter
import LiveTemplate.Text.LowerCase
import LiveTemplate.Text.Number
import LiveTemplate.Main
import LiveTemplate.Proofs.Document.Ancestors
import LiveTemplate.Proofs.Document.DescendingWalks
import LiveTemplate.Proofs.Document.Edits
import LiveTemplate.Proofs.Document.Families
import LiveTemplate.Proofs.Document.Planted
import LiveTemplate.Proofs.Document.PlantedWalks
import LiveTemplate.Proofs.Document.Sound
import LiveTemplate.Proofs.Document.Views
import LiveTemplate.Proofs.Markup.AttributeHistory
import LiveTemplate.Proofs.Markup.Escaping
import LiveTemplate.Proofs.Markup.Merging
import LiveTemplate.Proofs.Markup.NameStack
import LiveTemplate.Proofs.Markup.Printer
import LiveTemplate.Proofs.Markup.ReadTokens
import LiveTemplate.Proofs.Markup.Rebuilding
import LiveTemplate.Proofs.Markup.RoundTrip
import LiveTemplate.Proofs.Markup.Scanning
import LiveTemplate.Proofs.Markup.Shielding
import LiveTemplate.Proofs.Markup.Tokens
import LiveTemplate.Proofs.Markup.WellFormed
import LiveTemplate.Proofs.Template.Injection
import LiveTemplate.Proofs.Template.Rendering
import LiveTemplate.Proofs.Template.Runs
import LiveTemplate.Proofs.Template.Skeleton
import LiveTemplate.Proofs.Template.Synchronized
import LiveTemplate.Proofs.Template.Tracking
import LiveTemplate.Proofs.Markup.Rereading
import LiveTemplate.Proofs.Template.Handles
import LiveTemplate.Proofs.Template.Independence
import LiveTemplate.Proofs.Command.Rendering
import LiveTemplate.Proofs.Text.Replacing
import LiveTemplate.Proofs.Style.ClassNames
import LiveTemplate.Proofs.Style.Renaming
import LiveTemplate.Proofs.Template.Mounting
import LiveTemplate.Proofs.Template.Indexing
import LiveTemplate.Proofs.Template.Placeholders
import LiveTemplate.Proofs.Template.Writes
import LiveTemplate.Proofs.Template.Batches
import LiveTemplate.Proofs.Document.Moves
import LiveTemplate.Proofs.Document.Untouched
import LiveTemplate.Proofs.Document.Copies
import LiveTemplate.Proofs.Template.StackWalk
import LiveTemplate.Proofs.Template.Mirroring
import LiveTemplate.Proofs.Markup.Decoding
import LiveTemplate.Proofs.Markup.Spelling
import LiveTemplate.Proofs.Markup.Tidiness
import LiveTemplate.Proofs.Markup.Continuing
import LiveTemplate.Proofs.Markup.Refusals
import LiveTemplate.Proofs.Markup.SelfClosing
import LiveTemplate.Proofs.Markup.LongerSources
import LiveTemplate.Proofs.Markup.TrailingTags
import LiveTemplate.Proofs.Text.Cutting
import LiveTemplate.Proofs.Text.Words
import LiveTemplate.Proofs.Document.Classes
import LiveTemplate.Proofs.Template.RefusedMounts
import LiveTemplate.Proofs.Style.Collecting
import LiveTemplate.Proofs.Style.Collisions
import LiveTemplate.Proofs.Template.Counting
import LiveTemplate.Proofs.Template.Naming
import LiveTemplate.Proofs.Template.Declarations
import LiveTemplate.Proofs.Text.ByteOrder
import LiveTemplate.Proofs.Command.Inspecting
import LiveTemplate.Proofs.Template.Segments
