import SuiteScript.Main
import SuiteScript.PlanFile.Stream
import SuiteScript.Proofs.Nesting
import SuiteScript.Proofs.Database
import SuiteScript.Proofs.SavepointSafety
import SuiteScript.Proofs.Isolation
import SuiteScript.Proofs.Delimiters
import SuiteScript.Proofs.Lexer
import SuiteScript.Proofs.LineBreaks
import SuiteScript.Proofs.PhysicalLines
import SuiteScript.Proofs.StatementForms
import SuiteScript.Proofs.CodeBlocks
import SuiteScript.Proofs.Acceptance
import SuiteScript.Proofs.LineResolution
import SuiteScript.Proofs.Merging
import SuiteScript.Proofs.Concatenation
import SuiteScript.Proofs.Tokens
import SuiteScript.Proofs.Skeletons
import SuiteScript.Proofs.TwoRuns
import SuiteScript.Proofs.PlanPrefixes
import SuiteScript.Proofs.MapOrder
import SuiteScript.Proofs.MergeLaws
import SuiteScript.Proofs.ObserverIndependence
import SuiteScript.Proofs.EventRows
import SuiteScript.Proofs.ObserverProtocol
import SuiteScript.Proofs.Tallies
import SuiteScript.Proofs.ScopeCalls
import SuiteScript.Proofs.JsonTokens
import SuiteScript.Proofs.JsonReadings
import SuiteScript.Proofs.StepDecoding
import SuiteScript.Proofs.PlanDecoders
import SuiteScript.Proofs.StepRoundTrip
import SuiteScript.Proofs.Quoting
import SuiteScript.Proofs.Deliveries
import SuiteScript.Proofs.CallbackNames
import SuiteScript.Proofs.DirectCalls
import SuiteScript.Proofs.TeardownPaths
import SuiteScript.Proofs.Indentation
import SuiteScript.Proofs.JsonGrammar
import SuiteScript.Proofs.MapRendering
import SuiteScript.Proofs.StepForms
import SuiteScript.Proofs.NameResolution
import SuiteScript.Proofs.SavepointShapes
import SuiteScript.Proofs.LineLimit
