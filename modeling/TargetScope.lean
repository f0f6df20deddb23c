import TargetScope.Position
import TargetScope.Text.Blank
import TargetScope.Text.Line
import TargetScope.Text.Identifier
import TargetScope.Text.BracketedCode
import TargetScope.ScopeTree
import TargetScope.Event.Stream
import TargetScope.TreeBuilder
import TargetScope.InternalError
import TargetScope.OuterDeclaration
import TargetScope.Resolution
import TargetScope.Mode
import TargetScope.Log
import TargetScope.Path
import TargetScope.Report
import TargetScope.Analysis
import TargetScope.Outline
import TargetScope.Command.Run
import TargetScope.Main
import TargetScope.Proofs.Arena
import TargetScope.Proofs.Preorder
import TargetScope.Proofs.Classification
import TargetScope.Proofs.Batches
import TargetScope.Proofs.Extension
import TargetScope.Proofs.Law
import TargetScope.Proofs.Totality
import TargetScope.Proofs.Operations
import TargetScope.Proofs.Texts
import TargetScope.Proofs.Lifecycle
import TargetScope.Proofs.Balance
import TargetScope.Proofs.Outcomes
import TargetScope.Proofs.Renumbering
import TargetScope.Proofs.Mirror
import TargetScope.Proofs.Restriction
import TargetScope.Proofs.Excision
import TargetScope.Proofs.Violation
import TargetScope.Proofs.Grammar
import TargetScope.Proofs.Transcript
import TargetScope.Proofs.Writing
import TargetScope.Proofs.Listing
import TargetScope.Proofs.ClosedForm
import TargetScope.Proofs.Creation
import TargetScope.Proofs.Storage
import TargetScope.Proofs.Accounting
import TargetScope.Proofs.Resumption
import TargetScope.Proofs.Excerpts
import TargetScope.Proofs.Outlines
import TargetScope.Proofs.Findings
