import SheetRecords.Cell.Address
import SheetRecords.Cell.Column
import SheetRecords.Cell.Error
import SheetRecords.Cell.Range
import SheetRecords.Cell.Reference
import SheetRecords.Cell.SheetName
import SheetRecords.Cell.Store
import SheetRecords.Cell.Value
import SheetRecords.Cell.Walk
import SheetRecords.CommandLine.Arguments
import SheetRecords.CommandLine.Run
import SheetRecords.Decimal.Binary
import SheetRecords.Decimal.Layout
import SheetRecords.Decimal.Numeral
import SheetRecords.Decimal.Shortest
import SheetRecords.Delimited.Basic
import SheetRecords.Delimited.Import
import SheetRecords.Delimited.Reader
import SheetRecords.Delimited.Writer
import SheetRecords.Extraction
import SheetRecords.Files.Basic
import SheetRecords.Files.Device
import SheetRecords.Files.Tree
import SheetRecords.Json.Decoder
import SheetRecords.Json.Number
import SheetRecords.Json.Printer
import SheetRecords.Json.Token
import SheetRecords.Json.Tree
import SheetRecords.Main
import SheetRecords.Proofs.Cell.Address
import SheetRecords.Proofs.Cell.Column
import SheetRecords.Proofs.Cell.Grammar
import SheetRecords.Proofs.Cell.Range
import SheetRecords.Proofs.Cell.Reference
import SheetRecords.Proofs.Cell.Store
import SheetRecords.Proofs.Cell.Walk
import SheetRecords.Proofs.Decimal.Finite
import SheetRecords.Proofs.Decimal.Numeral
import SheetRecords.Proofs.Delimited.Import
import SheetRecords.Proofs.Delimited.Loading
import SheetRecords.Proofs.Delimited.RoundTrip
import SheetRecords.Proofs.Except
import SheetRecords.Proofs.Json.Decoder
import SheetRecords.Proofs.Json.Number
import SheetRecords.Proofs.Json.Token
import SheetRecords.Proofs.Json.Tree
import SheetRecords.Proofs.Record.Act
import SheetRecords.Proofs.Record.Agree
import SheetRecords.Proofs.Record.Boundaries
import SheetRecords.Proofs.Record.Carried
import SheetRecords.Proofs.Record.Constants
import SheetRecords.Proofs.Record.Expected
import SheetRecords.Proofs.Record.FirstSource
import SheetRecords.Proofs.Record.Held
import SheetRecords.Proofs.Record.Independence
import SheetRecords.Proofs.Record.Isolation
import SheetRecords.Proofs.Record.Ledger
import SheetRecords.Proofs.Record.Limit
import SheetRecords.Proofs.Record.Locate
import SheetRecords.Proofs.Record.Metrics
import SheetRecords.Proofs.Record.Nearby
import SheetRecords.Proofs.Record.Nested
import SheetRecords.Proofs.Record.Prepared
import SheetRecords.Proofs.Record.Refusal
import SheetRecords.Proofs.Record.Relisting
import SheetRecords.Proofs.Record.Run
import SheetRecords.Proofs.Record.Scanned
import SheetRecords.Proofs.Record.Schedule
import SheetRecords.Proofs.Record.Select
import SheetRecords.Proofs.Record.Slots
import SheetRecords.Proofs.Record.Stream
import SheetRecords.Proofs.Record.Unscanned
import SheetRecords.Proofs.Scan.Calls
import SheetRecords.Proofs.Scan.Canonical
import SheetRecords.Proofs.Scan.Listing
import SheetRecords.Proofs.Scan.Lookup
import SheetRecords.Proofs.Scan.Order
import SheetRecords.Proofs.Scan.Plan
import SheetRecords.Proofs.Scan.Ranking
import SheetRecords.Proofs.Scan.Source
import SheetRecords.Proofs.Scan.Stream
import SheetRecords.Proofs.Schema.Addressing
import SheetRecords.Proofs.Schema.Classification
import SheetRecords.Proofs.Schema.Document
import SheetRecords.Proofs.Schema.Words
import SheetRecords.Proofs.Text.Utf8
import SheetRecords.Proofs.Workbook
import SheetRecords.Record.Assembly
import SheetRecords.Record.Basic
import SheetRecords.Record.Grouping
import SheetRecords.Record.Output
import SheetRecords.Scan.Cursor
import SheetRecords.Scan.Grid
import SheetRecords.Scan.Order
import SheetRecords.Scan.Plan
import SheetRecords.Scan.Stream
import SheetRecords.Schema.Addressing
import SheetRecords.Schema.Basic
import SheetRecords.Schema.Document
import SheetRecords.Sheet
import SheetRecords.Text.Blank
import SheetRecords.Text.CaseTables
import SheetRecords.Text.GraphicTables
import SheetRecords.Text.Lowercase
import SheetRecords.Text.Pool
import SheetRecords.Text.Quoted
import SheetRecords.Text.Utf8
import SheetRecords.Workbook
