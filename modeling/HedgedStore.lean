import HedgedStore.Backend.Basic
import HedgedStore.Backend.Calls
import HedgedStore.Backend.Failure
import HedgedStore.Backend.Session
import HedgedStore.Backend.Upload
import HedgedStore.Bytes
import HedgedStore.Clock
import HedgedStore.Command.Grammar
import HedgedStore.Command.Invocation
import HedgedStore.Command.Program
import HedgedStore.Command.Report
import HedgedStore.Command.World
import HedgedStore.Config.Basic
import HedgedStore.Config.Credentials
import HedgedStore.Config.Fields
import HedgedStore.Config.Load
import HedgedStore.Config.Placeholder
import HedgedStore.Config.Validity
import HedgedStore.Duration
import HedgedStore.FileFault
import HedgedStore.Gzip.Alphabet
import HedgedStore.Gzip.Balance
import HedgedStore.Gzip.Bits
import HedgedStore.Gzip.Checksum
import HedgedStore.Gzip.Deflate
import HedgedStore.Gzip.Huffman
import HedgedStore.Gzip.Inflate
import HedgedStore.Gzip.Member
import HedgedStore.Gzip.Phrase
import HedgedStore.Hedge.Race
import HedgedStore.Hedge.Timeline
import HedgedStore.Log
import HedgedStore.LogFilter
import HedgedStore.LogLine
import HedgedStore.Main
import HedgedStore.Metrics.Counter
import HedgedStore.Metrics.Description
import HedgedStore.Metrics.Exposition
import HedgedStore.Metrics.Family
import HedgedStore.Metrics.Labelled
import HedgedStore.Metrics.Measurement
import HedgedStore.Metrics.Registry
import HedgedStore.Metrics.StoreMetrics
import HedgedStore.Number.Binary64
import HedgedStore.Number.Decimal
import HedgedStore.Proofs.Backend.Accounting
import HedgedStore.Proofs.Backend.Accounts
import HedgedStore.Proofs.Backend.Confined
import HedgedStore.Proofs.Backend.Errand
import HedgedStore.Proofs.Backend.Keys
import HedgedStore.Proofs.Backend.Neighbours
import HedgedStore.Proofs.Backend.PlainMap
import HedgedStore.Proofs.Backend.Session
import HedgedStore.Proofs.Backend.Telling
import HedgedStore.Proofs.Backend.Traffic
import HedgedStore.Proofs.Backend.Truncation
import HedgedStore.Proofs.Backend.Turns
import HedgedStore.Proofs.Backend.Wire
import HedgedStore.Proofs.Gzip.RoundTrip
import HedgedStore.Proofs.Gzip.Stored
import HedgedStore.Proofs.Gzip.Truncation
import HedgedStore.Proofs.Hedge.Accounting
import HedgedStore.Proofs.Hedge.History
import HedgedStore.Proofs.Hedge.Outcome
import HedgedStore.Proofs.Metrics.Description
import HedgedStore.Proofs.Metrics.Labelled
import HedgedStore.Proofs.Metrics.Requests
import HedgedStore.Proofs.Metrics.Timely
import HedgedStore.Proofs.Number.Order
import HedgedStore.Proofs.Steps
import HedgedStore.Proofs.Store.Contract
import HedgedStore.Proofs.Store.Markup
import HedgedStore.Proofs.Store.Record
import HedgedStore.Proofs.Store.Shelf
import HedgedStore.Proofs.Summary.Journal
import HedgedStore.Proofs.Summary.Recall
import HedgedStore.Proofs.Summary.Retention
import HedgedStore.Proofs.Summary.Rotation
import HedgedStore.Proofs.Summary.Series
import HedgedStore.Proofs.Upload.CreateOnly
import HedgedStore.Proofs.Upload.Flight
import HedgedStore.Proofs.Upload.Itinerary
import HedgedStore.Proofs.Upload.Requests
import HedgedStore.Store.Answer
import HedgedStore.Store.Link
import HedgedStore.Store.Markup
import HedgedStore.Store.Request
import HedgedStore.Store.Stopwatch
import HedgedStore.Summary.Basic
import HedgedStore.Summary.Options
import HedgedStore.Summary.Reservoir
import HedgedStore.Summary.Shared
import HedgedStore.Summary.Window
import HedgedStore.Text.Alphanumeric
import HedgedStore.Text.Blank
import HedgedStore.Text.Hexadecimal
import HedgedStore.Text.Pattern
import HedgedStore.Text.Quoted
import HedgedStore.Text.Shown
import HedgedStore.Text.Unprintable
import HedgedStore.Upload.Options
import HedgedStore.Yaml.Cursor
import HedgedStore.Yaml.Document
import HedgedStore.Yaml.Lexer
import HedgedStore.Yaml.Malformation
import HedgedStore.Yaml.Node
import HedgedStore.Yaml.Property
import HedgedStore.Yaml.Reading
import HedgedStore.Yaml.Scalar
import HedgedStore.Yaml.Token
import HedgedStore.Proofs.Config.Shape
import HedgedStore.Proofs.Backend.Listing
import HedgedStore.Proofs.Gzip.Format
import HedgedStore.Proofs.Gzip.Reading
import HedgedStore.Proofs.Gzip.Words
import HedgedStore.Proofs.Gzip.Phrases
import HedgedStore.Proofs.Gzip.Codes
import HedgedStore.Proofs.Gzip.Blocks
import HedgedStore.Proofs.Gzip.Acceptance
import HedgedStore.Proofs.Gzip.Encoding
import HedgedStore.Proofs.Config.Expansion
import HedgedStore.Proofs.Hedge.Lifetime
import HedgedStore.Proofs.Config.Order
import HedgedStore.Proofs.Backend.Objects
import HedgedStore.Proofs.Summary.Turning
import HedgedStore.Proofs.Summary.Presence
import HedgedStore.Proofs.Summary.Horizon
import HedgedStore.Proofs.Summary.Reading
import HedgedStore.Proofs.Number.Units
import HedgedStore.Proofs.Number.Rounding
import HedgedStore.Proofs.Number.Shares
import HedgedStore.Proofs.Summary.Ranking
import HedgedStore.Proofs.Metrics.Exposition
import HedgedStore.Proofs.Number.Decimals
import HedgedStore.Proofs.Summary.Identity
import HedgedStore.Proofs.Text.Quoted
import HedgedStore.Proofs.Backend.Subjects
import HedgedStore.Proofs.Backend.Secrecy
import HedgedStore.Proofs.Yaml.Aliases
import HedgedStore.Proofs.Config.Texts
import HedgedStore.Proofs.Summary.Sharing
import HedgedStore.Proofs.Summary.Clients
import HedgedStore.Proofs.Metrics.Registration
