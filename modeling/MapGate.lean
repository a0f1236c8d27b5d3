import MapGate.Main
import MapGate.Proofs.Gate.Requirement
import MapGate.Proofs.Text.Pieces
import MapGate.Proofs.Gate.Selection
import MapGate.Proofs.Gate.FeatureDocument
import MapGate.Proofs.Gate.FeatureParams
import MapGate.Proofs.Gate.Mediation
import MapGate.Proofs.Gate.Reinspection
import MapGate.Proofs.Policy.LayerIndex
import MapGate.Proofs.Policy.Validation
import MapGate.Proofs.Gate.TransactionDocument
import MapGate.Proofs.Gate.LayerReferences
import MapGate.Proofs.Gate.PublishedLayers
import MapGate.Proofs.Gate.PropertyGrammar
import MapGate.Proofs.Gate.QueryForms
import MapGate.Proofs.Gate.TransactionOperations
import MapGate.Proofs.Gate.RenderedLayers
import MapGate.Proofs.Gate.ReportedOperation
import MapGate.Proofs.Gate.Transparency
import MapGate.Proofs.Gateway.Forwarding
import MapGate.Proofs.Gate.RearrangedParameters
import MapGate.Proofs.Gate.NamespacePrefixes
import MapGate.Proofs.Gate.WiderGrants
import MapGate.Proofs.Gateway.AuditTrail
import MapGate.Proofs.Policy.Lookups
import MapGate.Proofs.Policy.Access
import MapGate.Proofs.Xml.WrittenTrees
import MapGate.Proofs.Capabilities.MapParameter
import MapGate.Proofs.Xml.TreeBuilding
import MapGate.Proofs.Gate.DirectedRequests
import MapGate.Proofs.Capabilities.Substitution
import MapGate.Proofs.Http.HopByHop
import MapGate.Proofs.Policy.FlagSets
import MapGate.Proofs.Gateway.Confinement
