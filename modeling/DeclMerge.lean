import DeclMerge.Command.Directory
import DeclMerge.Command.LogStyle
import DeclMerge.Declaration.Text
import DeclMerge.Main
import DeclMerge.Proofs.Hierarchy.Coverage
import DeclMerge.Proofs.Member.Chains
import DeclMerge.Proofs.Merge.Correspondence
import DeclMerge.Proofs.Merge.Pairing
import DeclMerge.Proofs.Divergence.Agreement
import DeclMerge.Proofs.Hierarchy.Moves
import DeclMerge.Proofs.Hierarchy.Trails
import DeclMerge.Proofs.Hierarchy.Depth
import DeclMerge.Proofs.Container.Aborts
import DeclMerge.Proofs.Container.Verdicts
import DeclMerge.Proofs.Merge.Aborts
import DeclMerge.Proofs.Container.Reordering
import DeclMerge.Proofs.Merge.Reordering
import DeclMerge.Proofs.Member.Genuine
import DeclMerge.Proofs.Hierarchy.Queries
import DeclMerge.Proofs.Hierarchy.Reordering
import DeclMerge.Proofs.Hierarchy.Cycles
import DeclMerge.Proofs.Member.Flat
import DeclMerge.Proofs.Merge.Identity
import DeclMerge.Proofs.Library.RoundTrip
import DeclMerge.Proofs.Container.Refusals
import DeclMerge.Proofs.Merge.Presence
import DeclMerge.Proofs.Merge.Isolation
import DeclMerge.Proofs.Merge.Representatives
import DeclMerge.Proofs.Merge.Completeness
import DeclMerge.Proofs.Command.ExitCode
import DeclMerge.Proofs.Divergence.Differences
import DeclMerge.Proofs.Member.Placement
import DeclMerge.Proofs.Member.Clashes
import DeclMerge.Proofs.Member.Modalities
import DeclMerge.Proofs.Member.Ambiguity
import DeclMerge.Proofs.Merge.Sides
import DeclMerge.Proofs.Hierarchy.Reasons
import DeclMerge.Proofs.Hierarchy.CycleErrors
import DeclMerge.Proofs.Hierarchy.ActiveKeys
import DeclMerge.Proofs.Hierarchy.Log
import DeclMerge.Proofs.Merge.Nesting
import DeclMerge.Proofs.Divergence.Occurrences
import DeclMerge.Proofs.Merge.Comparisons
import DeclMerge.Proofs.Hierarchy.Balance
import DeclMerge.Proofs.Memo.FirstWins
import DeclMerge.Proofs.Divergence.Words
import DeclMerge.Proofs.Divergence.Leaves
import DeclMerge.Proofs.Name
