import StructuralTypes.Acyclicity
import StructuralTypes.Algebra
import StructuralTypes.Canonical
import StructuralTypes.CommandLine.Arguments
import StructuralTypes.CommandLine.Catalog
import StructuralTypes.CommandLine.Inspect
import StructuralTypes.Components
import StructuralTypes.Container
import StructuralTypes.Equality
import StructuralTypes.Fault
import StructuralTypes.Fn
import StructuralTypes.Functions
import StructuralTypes.Interpretation
import StructuralTypes.Json.Reader
import StructuralTypes.Lattice
import StructuralTypes.Main
import StructuralTypes.Membership
import StructuralTypes.Number.Decimal
import StructuralTypes.Number.Double
import StructuralTypes.Number.Scientific
import StructuralTypes.Number.Shortest
import StructuralTypes.Number.Spelling
import StructuralTypes.Outline
import StructuralTypes.Prelude
import StructuralTypes.Proofs.Additions
import StructuralTypes.Proofs.CanonicalForm
import StructuralTypes.Proofs.CanonicalNodes
import StructuralTypes.Proofs.CanonicalSessions
import StructuralTypes.Proofs.CappedReports
import StructuralTypes.Proofs.Computation
import StructuralTypes.Proofs.Construction
import StructuralTypes.Proofs.Constructors
import StructuralTypes.Proofs.Containment
import StructuralTypes.Proofs.CycleAgreement
import StructuralTypes.Proofs.CycleReports
import StructuralTypes.Proofs.CyclesOnDemand
import StructuralTypes.Proofs.DeclaredEdges
import StructuralTypes.Proofs.EdgeTruth
import StructuralTypes.Proofs.EdgesOnDemand
import StructuralTypes.Proofs.EqualityLaws
import StructuralTypes.Proofs.Exploration
import StructuralTypes.Proofs.FailedConstructions
import StructuralTypes.Proofs.FaithfulOutlines
import StructuralTypes.Proofs.FlatDifferences
import StructuralTypes.Proofs.Interchange
import StructuralTypes.Proofs.LastingAnswers
import StructuralTypes.Proofs.LastingEdges
import StructuralTypes.Proofs.LatticeEmbedding
import StructuralTypes.Proofs.MembershipLaws
import StructuralTypes.Proofs.MetadataCopies
import StructuralTypes.Proofs.MutualContainment
import StructuralTypes.Proofs.OfferedEdges
import StructuralTypes.Proofs.OperandOrder
import StructuralTypes.Proofs.OperatorMeaning
import StructuralTypes.Proofs.OrderedTests
import StructuralTypes.Proofs.Pipelines
import StructuralTypes.Proofs.PredictedEdges
import StructuralTypes.Proofs.RefusedInspections
import StructuralTypes.Proofs.Renumbering
import StructuralTypes.Proofs.ReportHistories
import StructuralTypes.Proofs.Search
import StructuralTypes.Proofs.SearchExactness
import StructuralTypes.Proofs.SearchSoundness
import StructuralTypes.Proofs.SearchesOnDemand
import StructuralTypes.Proofs.SimulatedConstructors
import StructuralTypes.Proofs.SimulatedInspections
import StructuralTypes.Proofs.SimulatedQuestions
import StructuralTypes.Proofs.SimulatedRuns
import StructuralTypes.Proofs.SimulatedSessions
import StructuralTypes.Proofs.Simulation
import StructuralTypes.Proofs.StronglyConnected
import StructuralTypes.Proofs.StructuralEquality
import StructuralTypes.Proofs.SubsumptionLaws
import StructuralTypes.Proofs.Transitivity
import StructuralTypes.Proofs.TransparentEdges
import StructuralTypes.Proofs.TreeEdges
import StructuralTypes.Proofs.TruthfulInspection
import StructuralTypes.Proofs.Unfolding
import StructuralTypes.Proofs.Verdicts
import StructuralTypes.Proofs.Walks
import StructuralTypes.Proofs.WellFormedLattices
import StructuralTypes.Proofs.WellFounded
import StructuralTypes.Proofs.WholeNumbers
import StructuralTypes.Referent
import StructuralTypes.Refinement
import StructuralTypes.Report
import StructuralTypes.Session
import StructuralTypes.Session.Step
import StructuralTypes.Subsumption
import StructuralTypes.Text.Blank
import StructuralTypes.Text.DecimalDigit
import StructuralTypes.Text.Printable
import StructuralTypes.Text.Quoted
import StructuralTypes.Ty
import StructuralTypes.Value
import StructuralTypes.Value.Printer
import StructuralTypes.Value.Written
import StructuralTypes.Workbench
