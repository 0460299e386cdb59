import Conformance.Access
import Conformance.Creation
import Conformance.Constraint
import Conformance.Class.Definition
import Conformance.Declaration
import Conformance.Object
import Conformance.Proofs.Evaluation.Agreement
import Conformance.Proofs.Effect
import Conformance.Proofs.Entries
import Conformance.Proofs.Name
import Conformance.Proofs.Creation.Selection
import Conformance.Proofs.Creation.Assignment
import Conformance.Proofs.Registry
import Conformance.Proofs.Creation.Declared
import Conformance.Proofs.Creation.Ending
import Conformance.Proofs.Registration.Hierarchy
import Conformance.Proofs.Registration.Collection
import Conformance.Proofs.Registration.Frame
import Conformance.Proofs.Registration.Refresh
import Conformance.Proofs.Registration.Declaration
import Conformance.Proofs.Registration.Definition
import Conformance.Proofs.Registration.Coherence
import Conformance.Proofs.Evaluation.Parallel
import Conformance.Proofs.Creation.Environment
import Conformance.Proofs.Creation.Arrangement
import Conformance.Proofs.Access.Reading
import Conformance.Proofs.Registration.Naming
import Conformance.Proofs.Access.WriteOnce
import Conformance.Proofs.Question
import Conformance.Proofs.Evaluation.Script
import Conformance.Proofs.Evaluation.Steadiness
import Conformance.Proofs.Evaluation.Enclosing
import Conformance.Proofs.Evaluation.Alternatives
import Conformance.Proofs.Evaluation.Lockstep
import Conformance.Proofs.Evaluation.Concordance
import Conformance.Proofs.Evaluation.Contrast
import Conformance.Proofs.Evaluation.Consultation
import Conformance.Proofs.Evaluation.Course
import Conformance.Proofs.Evaluation.Traversal
import Conformance.Proofs.Outcome
import Conformance.Proofs.Registration.Extension
import Conformance.Proofs.Registration.Registered
import Conformance.Proofs.Equality.Reflexive
import Conformance.Proofs.Creation.Reconstruction
import Conformance.Proofs.Creation.Readiness
import Conformance.Proofs.Equality.Decision
import Conformance.Proofs.Equality.Exactness
import Conformance.Proofs.Equality.Sameness
import Conformance.Proofs.Equality.Comparison
import Conformance.Proofs.Evaluation.Tree
import Conformance.Proofs.Evaluation.Interchange
import Conformance.Proofs.Mutation.Fixed
import Conformance.Proofs.Mutation.Compared
import Conformance.Proofs.Mutation.Text
import Conformance.Proofs.Mutation.Judgement
import Conformance.Proofs.Mutation.Builder
import Conformance.Proofs.Creation.Accounting
import Conformance.Proofs.Settings.History
import Conformance.Proofs.Settings.Snapshot
import Conformance.Proofs.Outcome.Bookkeeping
import Conformance.Proofs.Evaluation.DisplayName
import Conformance.Proofs.Shorthand.Coercion
import Conformance.Proofs.Shorthand.Union
import Conformance.Proofs.Evaluation.Ancestor
import Conformance.Proofs.Evaluation.Label
