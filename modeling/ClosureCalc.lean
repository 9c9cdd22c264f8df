import ClosureCalc.Editor.Highlight
import ClosureCalc.Main
import ClosureCalc.Store.Summary
import ClosureCalc.Proofs.Bindings
import ClosureCalc.Proofs.FirstFault
import ClosureCalc.Proofs.Leaves
import ClosureCalc.Proofs.Lexical
import ClosureCalc.Proofs.Live
import ClosureCalc.Proofs.Locality
import ClosureCalc.Proofs.Printing
import ClosureCalc.Proofs.Whereabouts
import ClosureCalc.Proofs.InStep
import ClosureCalc.Proofs.Layout
import ClosureCalc.Proofs.LineEndings
import ClosureCalc.Proofs.Joining
import ClosureCalc.Proofs.Tokenizing
import ClosureCalc.Proofs.Balanced
import ClosureCalc.Proofs.Errors
import ClosureCalc.Proofs.Environments
import ClosureCalc.Proofs.Lookahead
import ClosureCalc.Proofs.Spans
import ClosureCalc.Proofs.Numerals
import ClosureCalc.Proofs.Commands
import ClosureCalc.Proofs.Highlighting
import ClosureCalc.Proofs.Lookups
import ClosureCalc.Proofs.Units
import ClosureCalc.Proofs.Pruning
import ClosureCalc.Proofs.Repeating
import ClosureCalc.Proofs.Parameters
import ClosureCalc.Proofs.Arguments
import ClosureCalc.Proofs.Excerpts
import ClosureCalc.Proofs.Progress
