import BuildingModel.Linked.Query
import BuildingModel.View.Viewer
import BuildingModel.Proofs.Exchange.Boundary
import BuildingModel.Proofs.Exchange.RoundTrip
import BuildingModel.Proofs.Linked.Cycles
import BuildingModel.Proofs.Linked.StatusCauses
import BuildingModel.Proofs.View.Accounting
import BuildingModel.Proofs.View.Session
import BuildingModel.Proofs.ProblemLog
import BuildingModel.Proofs.Exchange.BrokenLine
import BuildingModel.Proofs.Exchange.Outcome
import BuildingModel.Proofs.Extract.Runs
import BuildingModel.Proofs.Extract.Completeness
import BuildingModel.Proofs.Extract.Locality
import BuildingModel.Proofs.Linked.Extension
import BuildingModel.Proofs.Extract.Extension
import BuildingModel.Proofs.Space.Ordered
import BuildingModel.Proofs.Space.Rational
import BuildingModel.Proofs.View.InView
import BuildingModel.Proofs.View.Picking
import BuildingModel.Proofs.View.Report
import BuildingModel.Proofs.View.Lifecycle
import BuildingModel.Proofs.Number.Comparison
import BuildingModel.Proofs.View.Distance
import BuildingModel.Proofs.Shape.Triangulation
import BuildingModel.Proofs.Shape.WellFormed
import BuildingModel.Proofs.Shape.Extrusion
import BuildingModel.Proofs.Extract.SafeShapes
import BuildingModel.Proofs.Number.SignedZero
import BuildingModel.Proofs.Space.Position
import BuildingModel.Proofs.Shape.Edges
import BuildingModel.Proofs.Shape.Closed
import BuildingModel.Proofs.Exchange.Layout
import BuildingModel.Proofs.Exchange.LayoutLoss
import BuildingModel.Proofs.Linked.Problems
import BuildingModel.Proofs.Linked.Lossless
import BuildingModel.Proofs.Linked.CycleReports
import BuildingModel.Proofs.Linked.Containment
import BuildingModel.Proofs.View.Nearest
import BuildingModel.Proofs.Shape.PlacementChain
import BuildingModel.Proofs.View.Clustering
import BuildingModel.Proofs.Exchange.Partition
import BuildingModel.Proofs.Number.Difference
import BuildingModel.Proofs.View.SectionBox
import BuildingModel.Proofs.Shape.Checked
import BuildingModel.Proofs.Extract.Representations
import BuildingModel.Proofs.Shape.OneSided
import BuildingModel.Proofs.Shape.Fan
import BuildingModel.Proofs.View.Recording
import BuildingModel.Proofs.Linked.UnitChain
import BuildingModel.Proofs.Exchange.DataSection
import BuildingModel.Proofs.Exchange.Nesting
import BuildingModel.Proofs.Exchange.ErrorPlace
import BuildingModel.Proofs.Shape.IndexedCurve
import BuildingModel.Proofs.Shape.Orientation
