import DecisionFlow.Main
import DecisionFlow.Session
import DecisionFlow.Proofs.Grammar
import DecisionFlow.Proofs.Reach
import DecisionFlow.Proofs.ExactOrder
import DecisionFlow.Proofs.Meaning
import DecisionFlow.Proofs.Compilation
import DecisionFlow.Proofs.Interpreter
import DecisionFlow.Proofs.Decompilation
import DecisionFlow.Proofs.Decoding
import DecisionFlow.Proofs.Faults
import DecisionFlow.Proofs.Numbers
import DecisionFlow.Proofs.Phases
import DecisionFlow.Proofs.Acceptance
import DecisionFlow.Proofs.Spacing
import DecisionFlow.Proofs.Printing
import DecisionFlow.Proofs.Resumption
import DecisionFlow.Proofs.Recording
import DecisionFlow.Proofs.Completion
import DecisionFlow.Proofs.Nesting
import DecisionFlow.Proofs.Isolation
import DecisionFlow.Proofs.Sharing
import DecisionFlow.Proofs.Prefixes
import DecisionFlow.Proofs.Blocking
import DecisionFlow.Proofs.Kinds
import DecisionFlow.Proofs.Relevance
import DecisionFlow.Proofs.Sequencing
import DecisionFlow.Proofs.Interruption
import DecisionFlow.Proofs.Unrolling
import DecisionFlow.Proofs.Covering
import DecisionFlow.Proofs.Cutting
import DecisionFlow.Proofs.Respacing
import DecisionFlow.Proofs.Escaping
import DecisionFlow.Proofs.Language
import DecisionFlow.Proofs.Rejection
import DecisionFlow.Proofs.Evaluation
import DecisionFlow.Proofs.Composition
import DecisionFlow.Proofs.FirstDefect
import DecisionFlow.Proofs.Dependence
import DecisionFlow.Proofs.Connectives
import DecisionFlow.Proofs.Mirroring
import DecisionFlow.Proofs.Ordering
import DecisionFlow.Proofs.Rendering
import DecisionFlow.Proofs.Reporting
import DecisionFlow.Proofs.Trail
import DecisionFlow.Proofs.Configuration
import DecisionFlow.Proofs.Blankness
import DecisionFlow.Proofs.Assignments
import DecisionFlow.Proofs.Histories
import DecisionFlow.Proofs.Memory
import DecisionFlow.Proofs.Snapshots
