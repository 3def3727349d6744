import NoteIndex.Collection.Table
import NoteIndex.Collection.SortedMap
import NoteIndex.Text.Blank
import NoteIndex.Text.Split
import NoteIndex.Text.Lowercase
import NoteIndex.Text.Utf8
import NoteIndex.Number.Reading
import NoteIndex.Number.Written
import NoteIndex.Json.Reader
import NoteIndex.Json.Writer
import NoteIndex.Value.Compare
import NoteIndex.Time.Reading
import NoteIndex.Tag
import NoteIndex.Link
import NoteIndex.Frontmatter
import NoteIndex.Note.Markdown
import NoteIndex.Note.Encoded
import NoteIndex.Tag.Encoded
import NoteIndex.Fingerprint
import NoteIndex.Record
import NoteIndex.Index.Reading
import NoteIndex.Index.Validation
import NoteIndex.Catalog
import NoteIndex.Query.Run
import NoteIndex.Disk.Change
import NoteIndex.Disk.Markdown
import NoteIndex.Vault
import NoteIndex.Toml.Reader
import NoteIndex.Config
import NoteIndex.Index.StoreFile
import NoteIndex.CommandLine.Arguments
import NoteIndex.CommandLine.Report
import NoteIndex.CommandLine.Run
import NoteIndex.Main
import NoteIndex.Proofs.Json.Compact
import NoteIndex.Proofs.Index.Maps
import NoteIndex.Proofs.Index.Exact
import NoteIndex.Proofs.Index.Check
import NoteIndex.Proofs.Index.InStep
import NoteIndex.Proofs.Index.Store
import NoteIndex.Proofs.Catalog
import NoteIndex.Proofs.Session.Basic
import NoteIndex.Proofs.Session.Upkeep
import NoteIndex.Proofs.Session.Cache
import NoteIndex.Proofs.Session.Storage
import NoteIndex.Proofs.Tag
import NoteIndex.Proofs.Session.Reuse
import NoteIndex.Proofs.Link
import NoteIndex.Proofs.Session.Backlinks
import NoteIndex.Proofs.Index.Reading
import NoteIndex.Proofs.Query.Candidates
import NoteIndex.Proofs.Session.Lookups
import NoteIndex.Proofs.Contents
import NoteIndex.Proofs.Session.Frame
import NoteIndex.Proofs.Query.Tokens
import NoteIndex.Proofs.Query.Cursor
import NoteIndex.Proofs.Query.Grammar
import NoteIndex.Proofs.Query.Where
import NoteIndex.Proofs.Query.Sources
import NoteIndex.Proofs.Query.Outcome
import NoteIndex.Proofs.Session.Selection
import NoteIndex.Proofs.Index.Writes
import NoteIndex.Proofs.Query.Shapes
import NoteIndex.Proofs.Time.Calendar
import NoteIndex.Proofs.Note.Encoded
import NoteIndex.Proofs.Text.Lines
import NoteIndex.Proofs.Frontmatter
import NoteIndex.Proofs.Note.Tags
import NoteIndex.Proofs.Note.Markdown
import NoteIndex.Proofs.Value.Order
import NoteIndex.Proofs.Collection.StableSort
import NoteIndex.Proofs.Collection.Table
import NoteIndex.Proofs.Record.Values
import NoteIndex.Proofs.Query.Sorting
import NoteIndex.Proofs.Text.Split
import NoteIndex.Proofs.Frontmatter.Delimiters
import NoteIndex.Proofs.Frontmatter.Entries
import NoteIndex.Proofs.Note.LineEnds
import NoteIndex.Proofs.Link.Written
import NoteIndex.Proofs.Query.Literal
import NoteIndex.Proofs.Frontmatter.Literals
import NoteIndex.Proofs.Note.Parts
import NoteIndex.Proofs.Fingerprint
import NoteIndex.Proofs.Query.Rows
import NoteIndex.Proofs.Time.Order
import NoteIndex.Proofs.Query.InTime
import NoteIndex.Proofs.Index.Resolution
import NoteIndex.Proofs.Text.Excerpt
import NoteIndex.Proofs.Index.Search
import NoteIndex.Proofs.Value.Text
import NoteIndex.Proofs.Value.Equality
import NoteIndex.Proofs.Query.Equality
import NoteIndex.Proofs.Tag.NormalForm
import NoteIndex.Proofs.Collection.Keys
import NoteIndex.Proofs.Index.Unresolved
import NoteIndex.Proofs.Disk.Names
import NoteIndex.Proofs.Disk.Markdown
import NoteIndex.Proofs.Vault
import NoteIndex.Proofs.CommandLine.Check
