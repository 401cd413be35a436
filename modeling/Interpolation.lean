import Interpolation.CommandLine.Run
import Interpolation.Main
import Interpolation.Proofs.Balance
import Interpolation.Proofs.Slice
import Interpolation.Proofs.ClosingToken
import Interpolation.Proofs.Division
import Interpolation.Proofs.MachineWord
import Interpolation.Proofs.TemplateParser
import Interpolation.Proofs.Grammar.Completeness
import Interpolation.Proofs.Embedding
import Interpolation.Proofs.ErrorPosition
import Interpolation.Proofs.Rendering
import Interpolation.Proofs.Assignment
import Interpolation.Proofs.Layout
import Interpolation.Proofs.CanonicalText
import Interpolation.Proofs.Concatenation
import Interpolation.Proofs.Labels
import Interpolation.Proofs.Independence
import Interpolation.Proofs.PathLaws
import Interpolation.Proofs.Grammar.Explanation
import Interpolation.Proofs.Table
import Interpolation.Proofs.Walk
import Interpolation.Proofs.ByteScan
import Interpolation.Proofs.ByteDivision
import Interpolation.Proofs.TemplateOutcome
import Interpolation.Proofs.Snippet
import Interpolation.Proofs.Grammar.Pairs
import Interpolation.Proofs.Grammar.TokenPattern
import Interpolation.Proofs.Grammar.TreeBuilder
import Interpolation.Proofs.Grammar.LockStep
import Interpolation.Proofs.Grammar.BuilderRefinement
import Interpolation.Proofs.Locality
import Interpolation.Proofs.Coordinates
import Interpolation.Proofs.Json.Spelling
import Interpolation.Proofs.Json.Document
import Interpolation.Proofs.Json.Compact
import Interpolation.Proofs.Configuration
