import Monkey.Main
import Monkey.Prompt.Suggestions
import Monkey.Proofs.Reading.Depth
import Monkey.Proofs.Grammar.Derivation
import Monkey.Proofs.Grammar.Layers
import Monkey.Proofs.Reading.Acceptance
import Monkey.Proofs.Grammar.Completeness
import Monkey.Proofs.Grammar.Soundness
import Monkey.Proofs.Grammar.Parsing
import Monkey.Proofs.Evaluation.Running
import Monkey.Proofs.Evaluation.Steps
import Monkey.Proofs.Evaluation.Isolation
import Monkey.Proofs.Evaluation.Errors
import Monkey.Proofs.Evaluation.Exits
import Monkey.Proofs.Evaluation.Returns
import Monkey.Proofs.Printing.Plain
import Monkey.Proofs.Scanning.Cursor
import Monkey.Proofs.Scanning.Adjacency
import Monkey.Proofs.Printing.Inversion
import Monkey.Proofs.Evaluation.Boundaries
import Monkey.Proofs.Grammar.Completion
import Monkey.Proofs.Reading.Foresight
import Monkey.Proofs.Grammar.Diagnosis
import Monkey.Proofs.Grammar.Earliest
import Monkey.Proofs.Grammar.Joining
import Monkey.Proofs.Sessions.Groups
import Monkey.Proofs.Mirroring.Coupling
import Monkey.Proofs.Evaluation.Interruption
import Monkey.Proofs.Renaming.Literals
import Monkey.Proofs.Renaming.Parameters
import Monkey.Proofs.Mirroring.Relocation
import Monkey.Proofs.Sessions.Forgetting
import Monkey.Proofs.Evaluation.Discipline
import Monkey.Proofs.Evaluation.ErrorFree
import Monkey.Proofs.Evaluation.Links
import Monkey.Proofs.Stores.Listing
import Monkey.Proofs.Stores.Histories
import Monkey.Proofs.Evaluation.Reachable
import Monkey.Proofs.Grammar.Unclosed
import Monkey.Proofs.Mirroring.Repetition
import Monkey.Proofs.Prompting.Continuation
import Monkey.Proofs.Prompting.Grouping
import Monkey.Proofs.Sessions.Loading
import Monkey.Proofs.Reading.SourceOrder
import Monkey.Proofs.Sessions.Names
import Monkey.Proofs.Prompting.Suggesting
import Monkey.Proofs.Scanning.Seams
import Monkey.Proofs.Mirroring.Inlining
import Monkey.Proofs.Evaluation.Making
import Monkey.Proofs.Evaluation.Equality
import Monkey.Proofs.Evaluation.Arithmetic
import Monkey.Proofs.Prompting.Words
import Monkey.Proofs.Sessions.Integers
import Monkey.Proofs.Prompting.Commands
