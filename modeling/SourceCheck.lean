import SourceCheck.Main
import SourceCheck.Proofs.Analysis.Arguments
import SourceCheck.Proofs.Analysis.ConstantTime
import SourceCheck.Proofs.Analysis.Gates
import SourceCheck.Proofs.Analysis.Numerals
import SourceCheck.Proofs.Analysis.Redundant
import SourceCheck.Proofs.Analysis.Scoping
import SourceCheck.Proofs.Analysis.Unordered
import SourceCheck.Proofs.Coverage.Depth
import SourceCheck.Proofs.Graph.Components
import SourceCheck.Proofs.Module.Recursive
import SourceCheck.Proofs.Module.Relative
import SourceCheck.Proofs.Module.Separate
import SourceCheck.Proofs.Module.Unannotated
import SourceCheck.Proofs.Parse.Heights
import SourceCheck.Proofs.Parse.Indexes
import SourceCheck.Proofs.Parse.Recovered
import SourceCheck.Proofs.Symbol.Stack
import SourceCheck.Proofs.Token.Positions
