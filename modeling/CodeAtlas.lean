import CodeAtlas.Main
import CodeAtlas.Proofs.Markup.Entities
import CodeAtlas.Proofs.Markup.Marks
import CodeAtlas.Proofs.Markup.Links
import CodeAtlas.Proofs.Markup.Lines
import CodeAtlas.Proofs.Page.Rows
import CodeAtlas.Proofs.Source.Outline
import CodeAtlas.Proofs.Page.Anchors
import CodeAtlas.Proofs.Page.Addresses
import CodeAtlas.Proofs.Page.Ids
import CodeAtlas.Proofs.Source.Machine
import CodeAtlas.Proofs.Source.Nesting
import CodeAtlas.Proofs.Source.Modes
import CodeAtlas.Proofs.Markup.Zones
import CodeAtlas.Proofs.Source.TextBlocks
import CodeAtlas.Proofs.Source.Comments
import CodeAtlas.Proofs.Source.OnePass
import CodeAtlas.Proofs.Order
import CodeAtlas.Proofs.Pairs
import CodeAtlas.Proofs.Symbols.Lookup
import CodeAtlas.Proofs.Symbols.Agreement
import CodeAtlas.Proofs.Page.FileOrder
import CodeAtlas.Proofs.Run.Steps
import CodeAtlas.Proofs.Run.Blank
import CodeAtlas.Proofs.Run.Reading
import CodeAtlas.Proofs.Run.OneFile
import CodeAtlas.Proofs.Run.Table
import CodeAtlas.Proofs.Markup.Elements
import CodeAtlas.Proofs.Markup.Inside
import CodeAtlas.Proofs.Markup.Shielded
import CodeAtlas.Proofs.Markup.WellFormed
import CodeAtlas.Proofs.Run.Snapshot
import CodeAtlas.Proofs.Run.Failing
import CodeAtlas.Proofs.Tree.Changes
import CodeAtlas.Proofs.Symbols.Folders
import CodeAtlas.Proofs.Symbols.Index
import CodeAtlas.Proofs.Run.Outputs
import CodeAtlas.Proofs.Tree.Beside
import CodeAtlas.Proofs.Template.Found
import CodeAtlas.Proofs.Template.Filling
import CodeAtlas.Proofs.Template.BuiltIn
import CodeAtlas.Proofs.Page.Navigation
import CodeAtlas.Proofs.Page.CrossLinks
import CodeAtlas.Proofs.Run.Echo
import CodeAtlas.Proofs.Run.Again
import CodeAtlas.Proofs.Run.Idempotent
import CodeAtlas.Proofs.Run.Scanning
import CodeAtlas.Proofs.Run.Session
import CodeAtlas.Proofs.Source.LineBreaks
import CodeAtlas.Proofs.Tree.Scan
import CodeAtlas.Proofs.Tree.Fit
import CodeAtlas.Proofs.Tree.Shown
import CodeAtlas.Proofs.Page.StartPage
import CodeAtlas.Proofs.Run.Ends
import CodeAtlas.Proofs.Run.Passing
import CodeAtlas.Proofs.Run.Endings
import CodeAtlas.Markup.Resolver
import CodeAtlas.Proofs.Markup.Resolution
import CodeAtlas.Proofs.Markup.Markers
import CodeAtlas.Proofs.Markup.WholeEntities
import CodeAtlas.Proofs.Markup.WholeLines
import CodeAtlas.Proofs.Markup.PlainCode
import CodeAtlas.Proofs.Markup.Rewriting
import CodeAtlas.Proofs.Source.Invariant
import CodeAtlas.Proofs.Source.Layout
