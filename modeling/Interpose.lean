import Interpose.Main
import Interpose.Session.Run
import Interpose.Proofs.Native
import Interpose.Proofs.Events
import Interpose.Proofs.Moves
import Interpose.Proofs.SlotProtocol
import Interpose.Proofs.Leftovers
import Interpose.Proofs.OpenScopes
import Interpose.Proofs.Restoration
import Interpose.Proofs.Snapshot
import Interpose.Proofs.Requesters
import Interpose.Proofs.DeepTree
import Interpose.Proofs.History
import Interpose.Proofs.Twins
import Interpose.Proofs.Rewritten
import Interpose.Proofs.Cycles
import Interpose.Proofs.Nesting
import Interpose.Proofs.Failures
import Interpose.Proofs.Replacement
import Interpose.Proofs.RepeatedEdits
import Interpose.Proofs.Sight
import Interpose.Proofs.Lexemes
import Interpose.Proofs.Grammar
import Interpose.Proofs.SyntaxTree
import Interpose.Proofs.TreeRewriting
import Interpose.Proofs.TokenTexts
import Interpose.Proofs.LiteralEdit
import Interpose.Proofs.SideBySide
import Interpose.Proofs.Exchange
import Interpose.Proofs.Substitution
import Interpose.Proofs.Language
import Interpose.Proofs.Writing
import Interpose.Proofs.Joins
import Interpose.Proofs.Dependencies
import Interpose.Proofs.ScopeLoads
import Interpose.Proofs.Transformations
import Interpose.Proofs.Neighbours
import Interpose.Proofs.OneEntry
import Interpose.Proofs.Lossless
import Interpose.Proofs.NodeSpans
import Interpose.Proofs.Refusals
import Interpose.Proofs.Relocation
import Interpose.Proofs.JoinedLines
import Interpose.Proofs.Quoting
import Interpose.Proofs.RelativePaths
import Interpose.Proofs.StageNumbers
import Interpose.Proofs.SameFile
import Interpose.Proofs.ListedFiles
import Interpose.Proofs.Fingerprints
import Interpose.Proofs.ByteChanges
import Interpose.Proofs.NodeUpdates
import Interpose.Proofs.Extensions
import Interpose.Proofs.RespacedLoads
import Interpose.Proofs.Rebasing
import Interpose.Proofs.RepeatedCalls
