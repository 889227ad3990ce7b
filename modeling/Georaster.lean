import Georaster.Binary.Format
import Georaster.Binary.Arith
import Georaster.Decimal.Shortest
import Georaster.Decimal.Layout
import Georaster.Decimal.Read
import Georaster.Pixel.Type
import Georaster.Pixel.Value
import Georaster.Error
import Georaster.Nodata
import Georaster.Grid.Size
import Georaster.Grid.Cell
import Georaster.Grid.Area
import Georaster.Grid.Walk
import Georaster.Raster.Metadata
import Georaster.Raster.Buffer
import Georaster.Raster.CellEdit
import Georaster.Raster.Dense
import Georaster.Raster.Masked
import Georaster.Raster.Sparse
import Georaster.Raster.Basic
import Georaster.Raster.Selection
import Georaster.Raster.Buffered
import Georaster.Algebra
import Georaster.Analysis.Statistics
import Georaster.Analysis.Extremes
import Georaster.Analysis.Difference
import Georaster.Analysis.Transform
import Georaster.Proofs.Outcome
import Georaster.Proofs.Sparse.Layout
import Georaster.Proofs.Sparse.Search
import Georaster.Proofs.Sparse.Build
import Georaster.Proofs.Sparse.Edit
import Georaster.Proofs.Sparse.Map
import Georaster.Proofs.Sparse.Reachable
import Georaster.Proofs.Sparse.Cells
import Georaster.Proofs.Raster.Storage
import Georaster.Proofs.Grid.Walker
import Georaster.Proofs.Algebra.Cellwise
import Georaster.Proofs.Algebra.Failure
import Georaster.Proofs.Raster.Reachable
import Georaster.Proofs.Raster.Traversal
import Georaster.Proofs.Raster.CellWrite
import Georaster.Proofs.Raster.Fill
import Georaster.Proofs.Raster.Construction
import Georaster.Proofs.Raster.Invariant
import Georaster.Proofs.Raster.Selection
import Georaster.Proofs.Raster.Walk
import Georaster.Proofs.Raster.Transform
import Georaster.Proofs.Raster.ValueToNodata
import Georaster.Proofs.Binary.Exact
import Georaster.Proofs.Analysis.Difference
import Georaster.Proofs.Raster.SkippedWrites
import Georaster.Proofs.Pixel.Widest
import Georaster.Proofs.Sparse.Triplets
import Georaster.Proofs.Analysis.CellwiseSelect
import Georaster.Proofs.Raster.Collapse
import Georaster.Proofs.Pixel.Order
import Georaster.Proofs.Analysis.Scan
import Georaster.Proofs.Analysis.Extremes
import Georaster.Proofs.Grid.RowMajor
import Georaster.Proofs.Analysis.Zonal
import Georaster.Proofs.Raster.CellAccess
