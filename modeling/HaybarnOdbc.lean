import HaybarnOdbc.Lib.DoWhile
import HaybarnOdbc.Types
import HaybarnOdbc.Handle
import HaybarnOdbc.Cursor
import HaybarnOdbc.GetData
import HaybarnOdbc.Deliver
import HaybarnOdbc.Frame
import HaybarnOdbc.Params
import HaybarnOdbc.Api
import HaybarnOdbc.Lib.Run
import HaybarnOdbc.Connection
import HaybarnOdbc.Commit
import HaybarnOdbc.Lib.Pieces
import HaybarnOdbc.LongData
import HaybarnOdbc.Lib.Outcome
import HaybarnOdbc.Batch
import HaybarnOdbc.NullSafety
import HaybarnOdbc.Lib.Segments
import HaybarnOdbc.StringOutput
import HaybarnOdbc.DescribeCol
import HaybarnOdbc.InitError
import HaybarnOdbc.InitMarker
import HaybarnOdbc.CupolaAttach
import HaybarnOdbc.Scan
import HaybarnOdbc.Binding
import HaybarnOdbc.Stored
import HaybarnOdbc.Scroll
import HaybarnOdbc.Resume
import HaybarnOdbc.Lib.Unicode
import HaybarnOdbc.Utf8Cpp
import HaybarnOdbc.Widechar
import HaybarnOdbc.Diagnostics
import HaybarnOdbc.DiagReads
import HaybarnOdbc.DiagFields
import HaybarnOdbc.DiagPieces
import HaybarnOdbc.OdbcUtils
import HaybarnOdbc.Connect
import HaybarnOdbc.ConnectionString
import HaybarnOdbc.SessionInit
import HaybarnOdbc.Cupola
import HaybarnOdbc.Options
import HaybarnOdbc.Grammar
import HaybarnOdbc.Instance
import HaybarnOdbc.Lib.Buffer
import HaybarnOdbc.DataAtExec
import HaybarnOdbc.Dialogue
import HaybarnOdbc.Requests
import HaybarnOdbc.Deferred
import HaybarnOdbc.Supplied
import HaybarnOdbc.FirstRead
import HaybarnOdbc.Descriptors
import HaybarnOdbc.Registry
import HaybarnOdbc.Statements
import HaybarnOdbc.Counts
import HaybarnOdbc.KeptBindings
import HaybarnOdbc.CellAccess
import HaybarnOdbc.CellThrows
import HaybarnOdbc.RowOutcomes
import HaybarnOdbc.Current
import HaybarnOdbc.IntervalValue
import HaybarnOdbc.Intervals
import HaybarnOdbc.Dates
import HaybarnOdbc.Temporal
import HaybarnOdbc.ParamValues
import HaybarnOdbc.Numerics
import HaybarnOdbc.BindOffset
import HaybarnOdbc.ParamBuffers
import HaybarnOdbc.KeptIndicators
import HaybarnOdbc.Lib.Binary
import HaybarnOdbc.ParamTypes
import HaybarnOdbc.BatchValues
import HaybarnOdbc.ParamArrays
import HaybarnOdbc.EngineError
import HaybarnOdbc.Lib.Board
import HaybarnOdbc.EntryPoints
import HaybarnOdbc.Absolute
import HaybarnOdbc.CatalogQueries
import HaybarnOdbc.Lib.Replace
import HaybarnOdbc.TableTypes
import HaybarnOdbc.CopyDesc
import HaybarnOdbc.DescTypes
import HaybarnOdbc.DescValues
import HaybarnOdbc.DescErrors
import HaybarnOdbc.Lib.LastSet
import HaybarnOdbc.StmtAttrs
import HaybarnOdbc.Lib.HexEscape
import HaybarnOdbc.BlobText
import HaybarnOdbc.ExecDirect
import HaybarnOdbc.Lib.Ledger
import HaybarnOdbc.Transactions
import HaybarnOdbc.ManualCommit
import HaybarnOdbc.ConnectAttrs
import HaybarnOdbc.Lib.Wildcard
import HaybarnOdbc.Like
import HaybarnOdbc.NameSearch
import HaybarnOdbc.Interleave
import HaybarnOdbc.TypeInfo
import HaybarnOdbc.Integers
import HaybarnOdbc.RoundTrip
import HaybarnOdbc.TemporalText
import HaybarnOdbc.TextReads
import HaybarnOdbc.ColumnMeta
import HaybarnOdbc.DisplaySize
