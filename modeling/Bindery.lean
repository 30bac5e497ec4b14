import Bindery.Main
import Bindery.Tree.Build
import Bindery.Proofs.Binding.Draft
import Bindery.Proofs.Binding.Synthesis
import Bindery.Proofs.Binding.Members
import Bindery.Proofs.Binding.Traversal
import Bindery.Proofs.Binding.Ledger
import Bindery.Proofs.Binding.Position
import Bindery.Proofs.Binding.ScopeOrder
import Bindery.Proofs.Binding.BaseOrder
import Bindery.Proofs.Spelling.TemplateBase
import Bindery.Proofs.Binding.BaseChain
import Bindery.Proofs.Spelling.TypedefPreservation
import Bindery.Proofs.Spelling.Qualification
import Bindery.Proofs.Spelling.LeftNames
import Bindery.Proofs.Binding.Termination
import Bindery.Proofs.Binding.Distinct
import Bindery.Proofs.Binding.Borrowing
import Bindery.Proofs.Binding.Rebinding
import Bindery.Proofs.Binding.Skipping
import Bindery.Proofs.Binding.BuilderCalls
import Bindery.Proofs.Binding.MemberList
import Bindery.Proofs.Binding.Propagation
import Bindery.Proofs.Binding.BuilderArity
import Bindery.Proofs.Run.Failures
import Bindery.Proofs.Run.Paths
import Bindery.Proofs.Run.OutputFiles
import Bindery.Proofs.Tree.Rank
import Bindery.Proofs.Tree.Agreement
import Bindery.Proofs.Tree.Enclosure
import Bindery.Proofs.Spelling.Agreement
import Bindery.Proofs.Spelling.Enclosure
import Bindery.Proofs.Binding.Idle
import Bindery.Proofs.Binding.Agreement
import Bindery.Proofs.Binding.VisitsUpon
import Bindery.Proofs.Binding.Enclosure
import Bindery.Proofs.Binding.Transparency
import Bindery.Proofs.Binding.Demand
import Bindery.Proofs.Binding.Stops
import Bindery.Proofs.Binding.Walks
import Bindery.Proofs.Binding.Overloads
import Bindery.Proofs.Tree.Extension
import Bindery.Proofs.Binding.Isolation
import Bindery.Proofs.Binding.Addresses
import Bindery.Proofs.Binding.Coverage
import Bindery.Proofs.Binding.OperatorQueue
import Bindery.Proofs.Binding.VisitOrder
import Bindery.Proofs.Binding.OperatorGroups
import Bindery.Proofs.Binding.Methods
import Bindery.Proofs.Rules.Renames
import Bindery.Proofs.Binding.Renames
import Bindery.Proofs.Binding.Exports
import Bindery.Proofs.Text.ScopeInsertion
import Bindery.Proofs.Spelling.DefaultNames
import Bindery.Proofs.Spelling.Values
import Bindery.Proofs.Text.DefaultValue
import Bindery.Proofs.Spelling.BaseOfBase
import Bindery.Proofs.Binding.OwnArguments
import Bindery.Proofs.Spelling.Preference
import Bindery.Proofs.Spelling.Dimensions
import Bindery.Proofs.Spelling.TypedefArguments
import Bindery.Proofs.Rules.Order
import Bindery.Proofs.Rules.Mentions
import Bindery.Proofs.Rules.ScopeText
import Bindery.Proofs.Name.Constant
import Bindery.Proofs.Binding.IteratorTraits
import Bindery.Proofs.Binding.Iterators
import Bindery.Proofs.Binding.Rejection
import Bindery.Proofs.Binding.BindingMaps
import Bindery.Proofs.Binding.OpenScopes
import Bindery.Proofs.Render.IncludePath
import Bindery.Proofs.Run.Selection
import Bindery.Proofs.Rules.Validation
import Bindery.Proofs.Tree.CanonicalShape
import Bindery.Proofs.Tree.WellFounded
import Bindery.Proofs.Text.Segments
import Bindery.Proofs.Text.Insertions
import Bindery.Proofs.Text.Search
