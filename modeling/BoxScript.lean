import BoxScript.Heap.Graph
import BoxScript.Machine.Trace
import BoxScript.Main
import BoxScript.Proofs.Machine.Recursive
import BoxScript.Proofs.Machine.Simulation
import BoxScript.Proofs.Machine.Agreement
import BoxScript.Proofs.Machine.Balance
import BoxScript.Proofs.Machine.Effects
import BoxScript.Proofs.Heap.Inclusion
import BoxScript.Proofs.Heap.Permanence
import BoxScript.Proofs.Heap.Nulls
import BoxScript.Proofs.Safety.Failures
import BoxScript.Proofs.Safety.Session
import BoxScript.Proofs.Safety.Absence
import BoxScript.Proofs.Safety.Classification
import BoxScript.Proofs.Locality.Machine
import BoxScript.Proofs.Locality.Evaluation
import BoxScript.Proofs.Locality.Confinement
import BoxScript.Proofs.Source.Faults
import BoxScript.Proofs.Source.Continuation
import BoxScript.Proofs.Source.Completion
import BoxScript.Proofs.Machine.Succession
import BoxScript.Proofs.Source.Joining
import BoxScript.Proofs.Text.Encoding
import BoxScript.Proofs.Source.Numerals
import BoxScript.Proofs.Source.Rendering
import BoxScript.Proofs.Machine.Retained
import BoxScript.Proofs.Calls.Entering
import BoxScript.Proofs.Calls.Binding
import BoxScript.Proofs.Calls.Lists
import BoxScript.Proofs.Calls.Variadic
import BoxScript.Proofs.Data.Display
import BoxScript.Proofs.Heap.Delegation
import BoxScript.Proofs.Data.Dictionaries
import BoxScript.Proofs.Machine.Turns
import BoxScript.Proofs.Machine.Allowance
import BoxScript.Proofs.Machine.Cost
import BoxScript.Proofs.Machine.Cancellation
import BoxScript.Proofs.Heap.Enumeration
import BoxScript.Proofs.Text.WellFormed
import BoxScript.Proofs.Safety.Spelling
import BoxScript.Proofs.Data.Integers
import BoxScript.Proofs.Number.Rounding
import BoxScript.Proofs.Console.Recall
import BoxScript.Proofs.Source.Malformed
import BoxScript.Proofs.Safety.Promises
import BoxScript.Proofs.Safety.Endurance
import BoxScript.Proofs.Safety.Trees
import BoxScript.Proofs.Source.Progress
import BoxScript.Proofs.Source.Literals
