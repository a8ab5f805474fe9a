import AreaAtlas.Command.View
import AreaAtlas.Main
import AreaAtlas.Proofs.Areas.Layout
import AreaAtlas.Proofs.Text.Numeral
import AreaAtlas.Proofs.Areas.Form
import AreaAtlas.Proofs.Areas.Grammar
import AreaAtlas.Proofs.NodeTable.Linking
import AreaAtlas.Proofs.NodeTable.Exactness
import AreaAtlas.Proofs.Location
import AreaAtlas.Proofs.Graph.Edges
import AreaAtlas.Proofs.Graph.Pairing
import AreaAtlas.Proofs.NodeTable.Acceptance
import AreaAtlas.Proofs.Graph.Lookup
import AreaAtlas.Proofs.Areas.Writing
import AreaAtlas.Proofs.Areas.Draft
import AreaAtlas.Proofs.Areas.Rendering
import AreaAtlas.Proofs.NodeTable.Difficulty
import AreaAtlas.Proofs.Figure.Drawing
import AreaAtlas.Proofs.Graph.WellFormed
import AreaAtlas.Proofs.Areas.Relabeling
import AreaAtlas.Proofs.Areas.Sections
import AreaAtlas.Proofs.NodeTable.Order
import AreaAtlas.Proofs.Areas.Inert
import AreaAtlas.Proofs.NodeTable.Editing
import AreaAtlas.Proofs.Graph.Course
import AreaAtlas.Proofs.Graph.Order
import AreaAtlas.Proofs.Place.Lines
import AreaAtlas.Proofs.Place.Matching
import AreaAtlas.Proofs.Place.Search
import AreaAtlas.Proofs.Place.Passage
import AreaAtlas.Proofs.Place.Anchor
import AreaAtlas.Proofs.Place.Shadowing
import AreaAtlas.Proofs.Graph.Multiplicity
import AreaAtlas.Proofs.Files.Store
import AreaAtlas.Proofs.Table.Refusal
import AreaAtlas.Proofs.Table.Pieces
import AreaAtlas.Proofs.Table.Writing
import AreaAtlas.Proofs.Table.Draft
import AreaAtlas.Proofs.Table.Idle
import AreaAtlas.Proofs.Log.Tree
import AreaAtlas.Proofs.Log.Delivery
import AreaAtlas.Proofs.Command.Logging
import AreaAtlas.Proofs.Command.Delivery
import AreaAtlas.Proofs.Command.Reporting
import AreaAtlas.Proofs.Command.Locating
import AreaAtlas.Proofs.Graph.Conservation
import AreaAtlas.Proofs.Place.Scan
import AreaAtlas.Proofs.Areas.Reindenting
import AreaAtlas.Proofs.Areas.Alternatives
import AreaAtlas.Proofs.Graph.Hiding
import AreaAtlas.Proofs.Graph.Orientation
import AreaAtlas.Proofs.NodeTable.Validation
import AreaAtlas.Proofs.Table.Acceptance
import AreaAtlas.Proofs.Table.Front
import AreaAtlas.Proofs.Figure.Contents
import AreaAtlas.Proofs.Figure.Ends
import AreaAtlas.Proofs.Figure.Menu
import AreaAtlas.Proofs.Number.Rounding
import AreaAtlas.Proofs.Number.Narrowing
import AreaAtlas.Proofs.Number.Range
import AreaAtlas.Proofs.Number.Notation
import AreaAtlas.Proofs.Graph.Coordinates
import AreaAtlas.Proofs.Text.Utf8.Spelling
import AreaAtlas.Proofs.Text.Utf8.Decoding
import AreaAtlas.Proofs.Sources
