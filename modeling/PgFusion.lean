import PgFusion.Aggregates.Average
import PgFusion.Aggregates.Exact
import PgFusion.Aggregates.Range
import PgFusion.Aggregates.ScalarSubquery
import PgFusion.Aggregates.Variance
import PgFusion.ArrowLayout.Accept
import PgFusion.ArrowLayout.Block
import PgFusion.ArrowLayout.Content
import PgFusion.ArrowLayout.Layout
import PgFusion.ArrowLayout.Plan
import PgFusion.BackendService.PageSource
import PgFusion.CustomScan.Result
import PgFusion.CustomScan.Scan
import PgFusion.Data.Bisect
import PgFusion.Data.Bits
import PgFusion.Data.Bytes
import PgFusion.Data.Circular
import PgFusion.Data.Cuts
import PgFusion.Data.Fallible
import PgFusion.Data.Keyed
import PgFusion.Data.Kleene
import PgFusion.Data.Linked
import PgFusion.Data.Masks
import PgFusion.Data.Positional
import PgFusion.Data.Rounding
import PgFusion.Data.Scaled
import PgFusion.Data.Shares
import PgFusion.Data.Stateful
import PgFusion.Filter.Bloom
import PgFusion.Filter.Outline
import PgFusion.Filter.Pool
import PgFusion.Filter.References
import PgFusion.Filter.Safety
import PgFusion.Filter.Slot
import PgFusion.Frontend.Comparison
import PgFusion.Frontend.Number
import PgFusion.Frontend.NumericText
import PgFusion.Frontend.Query
import PgFusion.Frontend.RowCompare
import PgFusion.Frontend.Scalar
import PgFusion.Interleave.Calls
import PgFusion.Interleave.Outline
import PgFusion.Issuance.Endpoint
import PgFusion.Issuance.Frame
import PgFusion.Issuance.Pairing
import PgFusion.Issuance.Pool
import PgFusion.JoinOrder.Count
import PgFusion.JoinOrder.Edges
import PgFusion.JoinOrder.Graph
import PgFusion.JoinOrder.Optimizer
import PgFusion.JoinOrder.Search
import PgFusion.JoinOrder.Trees
import PgFusion.Lockfree.Conservation
import PgFusion.Lockfree.Ledger
import PgFusion.Lockfree.Solo
import PgFusion.Lockfree.Stack
import PgFusion.Numeric.Decimal
import PgFusion.Numeric.FilterKey
import PgFusion.Numeric.RoundTrunc
import PgFusion.Page.Holders
import PgFusion.Page.Pool
import PgFusion.Page.Sequential
import PgFusion.PgFormat.Format
import PgFusion.PgFormat.Interval
import PgFusion.PgFormat.Quote
import PgFusion.PgType.Types
import PgFusion.PlanCodec.Encode
import PgFusion.PlanCodec.Plan
import PgFusion.PlanCodec.Sink
import PgFusion.PlanCodec.Spec
import PgFusion.Protocol.Codec
import PgFusion.Protocol.Descriptor
import PgFusion.Protocol.Validation
import PgFusion.Ring.Fifo
import PgFusion.Ring.Index
import PgFusion.Ring.Model
import PgFusion.Ring.Ready
import PgFusion.RowEncoder.Cells
import PgFusion.RowEncoder.Encoder
import PgFusion.RowEncoder.Page
import PgFusion.RowEncoder.Rows
import PgFusion.RowEstimator.Estimate
import PgFusion.ScanFlow.FanIn
import PgFusion.ScanFlow.Reject
import PgFusion.ScanFlow.Roles
import PgFusion.ScanJobs.Descriptor
import PgFusion.ScanNode.MaterializedCte
import PgFusion.ScanSql.Compile
import PgFusion.ScanSql.Literal
import PgFusion.ScanSql.Render
import PgFusion.ScanSql.Typmod
import PgFusion.ScanWorkers.Budget
import PgFusion.ScanWorkers.Ranges
import PgFusion.SlotImport.Decimal
import PgFusion.Sql.Lexer
import PgFusion.Sql.Parser
import PgFusion.Sql.Rules
import PgFusion.Sql.Texts
import PgFusion.Sql.Values
import PgFusion.Transfer.Endpoint
import PgFusion.Transfer.Frame
import PgFusion.Transfer.Header
import PgFusion.Transfer.Stream
import PgFusion.Wire.Canonical
import PgFusion.Wire.Framing
import PgFusion.Wire.Msgpack
import PgFusion.Wire.Values
