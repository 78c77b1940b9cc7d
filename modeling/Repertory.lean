import Repertory.Action
import Repertory.Catalog.Basic
import Repertory.Catalog.Collection
import Repertory.Catalog.Episode
import Repertory.Catalog.LibraryItem
import Repertory.Catalog.Rules
import Repertory.Catalog.Season
import Repertory.Catalog.Show
import Repertory.Catalog.State
import Repertory.Catalog.Studio
import Repertory.Cli.Arguments
import Repertory.Cli.Command
import Repertory.Cli.Directory
import Repertory.Cli.Run
import Repertory.Config.Basic
import Repertory.Config.Environment
import Repertory.Config.Load
import Repertory.Date
import Repertory.Engine
import Repertory.Filter.Basic
import Repertory.Filter.Literal
import Repertory.Filter.Parser
import Repertory.Filter.Printer
import Repertory.Filter.Token
import Repertory.Hash.Blake3
import Repertory.Identifier
import Repertory.Json.Basic
import Repertory.Json.Codec
import Repertory.Json.Decode
import Repertory.Json.Number
import Repertory.Json.OfValue
import Repertory.Json.Parser
import Repertory.Json.Printer
import Repertory.ListParams
import Repertory.Main
import Repertory.Number.Binary64
import Repertory.Number.FloatText
import Repertory.Number.Integer
import Repertory.Order.Basic
import Repertory.Order.Keyset
import Repertory.Order.Sorting
import Repertory.Page
import Repertory.QueryError
import Repertory.Relation
import Repertory.Repository.Basic
import Repertory.Repository.Error
import Repertory.Repository.Slug
import Repertory.Repository.Union
import Repertory.Resource
import Repertory.Schema
import Repertory.Sql.Condition
import Repertory.Sql.Statement
import Repertory.Store.Basic
import Repertory.Store.Scripted
import Repertory.Store.Table
import Repertory.Text.Blank
import Repertory.Text.Case
import Repertory.Text.CaseTables
import Repertory.Text.Split
import Repertory.Toml.Document
import Repertory.Toml.Scalar
import Repertory.Toml.Text
import Repertory.Truth
import Repertory.Uuid
import Repertory.Value
import Repertory.Proofs.Action
import Repertory.Proofs.Order.Value
import Repertory.Proofs.Order.Rows
import Repertory.Proofs.Order.Keyset
import Repertory.Proofs.Filter.Match
import Repertory.Proofs.Filter.Typed
import Repertory.Proofs.Filter.Scan
import Repertory.Proofs.Filter.Spelling
import Repertory.Proofs.Filter.Grammar
import Repertory.Proofs.Filter.Reading
import Repertory.Proofs.Filter.Derived
import Repertory.Proofs.Text.Case
import Repertory.Proofs.Filter.Search
import Repertory.Proofs.Sql.Like
import Repertory.Proofs.Sql.Truth
import Repertory.Proofs.Store.Table
import Repertory.Proofs.Store.Ids
import Repertory.Proofs.Repository.Requests
import Repertory.Proofs.Repository.Slug
import Repertory.Proofs.Repository.CreateIfNotExists
import Repertory.Proofs.Page.Walk
import Repertory.Proofs.Page.Live
import Repertory.Proofs.Catalog.Conforms
import Repertory.Proofs.Catalog.Rules
import Repertory.Proofs.Catalog.Rename
import Repertory.Proofs.Catalog.History
import Repertory.Proofs.Catalog.FailedWrites
import Repertory.Proofs.Catalog.Parents
import Repertory.Proofs.Catalog.FilterText
import Repertory.Proofs.Catalog.Checks
import Repertory.Proofs.Catalog.Slugs
import Repertory.Proofs.Catalog.CreateIfNotExists
import Repertory.Proofs.Catalog.Library
import Repertory.Proofs.Store.Calls
import Repertory.Proofs.Page.Beside
import Repertory.Proofs.Store.Allocation
import Repertory.Proofs.Catalog.Keys
import Repertory.Proofs.Catalog.ShowSlugs
import Repertory.Proofs.Number.Integer
import Repertory.Proofs.Repository.Lookup
import Repertory.Proofs.Catalog.Seasons
import Repertory.Proofs.Sql.Shape
import Repertory.Proofs.Sql.Reader
import Repertory.Proofs.Sql.Phrases
import Repertory.Proofs.Sql.ReadBack
import Repertory.Proofs.Order.Compiled
import Repertory.Proofs.Filter.Decided
import Repertory.Proofs.Catalog.LibraryPages
import Repertory.Proofs.Catalog.Memberships
import Repertory.Proofs.Number.Rounding
import Repertory.Proofs.Order.Clash
import Repertory.Proofs.Order.Total
import Repertory.Proofs.Repository.Deletion
import Repertory.Proofs.Catalog.Deletion
import Repertory.Proofs.Repository.DeleteAll
import Repertory.Proofs.Catalog.DeleteAll
import Repertory.Proofs.Catalog.EditedRows
import Repertory.Proofs.Catalog.DerivedSlugs
import Repertory.Proofs.Repository.Duplicate
import Repertory.Proofs.Catalog.Duplicates
import Repertory.Proofs.Catalog.Includes
import Repertory.Proofs.Sql.Order
import Repertory.Proofs.Repository.Batch
import Repertory.Proofs.Catalog.Batches
import Repertory.Proofs.Catalog.EpisodesOf
import Repertory.Proofs.Catalog.TextLiterals
import Repertory.Proofs.Filter.Display
import Repertory.Proofs.Text.Trim
import Repertory.Proofs.Text.Split
import Repertory.Proofs.Filter.Tokenwise
import Repertory.Proofs.Filter.Position
import Repertory.Proofs.Filter.Trimmed
import Repertory.Proofs.Order.Written
import Repertory.Proofs.Uuid
import Repertory.Proofs.Json.ReadBack
import Repertory.Proofs.Identifier
import Repertory.Proofs.Catalog.Numbering
