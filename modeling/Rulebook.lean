import Rulebook.Extraction.Instance
import Rulebook.Proofs.Arithmetic.NumberSet
import Rulebook.Proofs.Arithmetic.Places
import Rulebook.Proofs.Arithmetic.Power
import Rulebook.Proofs.Arithmetic.Symmetry
import Rulebook.Proofs.Assignment.Change
import Rulebook.Proofs.Assignment.Independent
import Rulebook.Proofs.Assignment.ReadBack
import Rulebook.Proofs.Calendar.ReadBack
import Rulebook.Proofs.Context.Closure
import Rulebook.Proofs.Dependency.Least
import Rulebook.Proofs.Dependency.Query
import Rulebook.Proofs.Evaluation.BoundNames
import Rulebook.Proofs.Evaluation.Comparison
import Rulebook.Proofs.Evaluation.Comprehension
import Rulebook.Proofs.Evaluation.Content
import Rulebook.Proofs.Evaluation.Duality
import Rulebook.Proofs.Evaluation.Equality
import Rulebook.Proofs.Evaluation.NamedVariables
import Rulebook.Proofs.Evaluation.Projection
import Rulebook.Proofs.Evaluation.Registry
import Rulebook.Proofs.Evaluation.Unresolved
import Rulebook.Proofs.Extraction.Identity
import Rulebook.Proofs.Extraction.Selection
import Rulebook.Proofs.Function.DayShift
import Rulebook.Proofs.Function.Extreme
import Rulebook.Proofs.Function.Flat
import Rulebook.Proofs.Order.Cache
import Rulebook.Proofs.Order.EntryPoint
import Rulebook.Proofs.Pass.Run
import Rulebook.Proofs.Path.Grammar
import Rulebook.Proofs.Path.Rendering
import Rulebook.Proofs.Rule.Building
import Rulebook.Proofs.Template.Lossless
import Rulebook.Proofs.Value.Place
