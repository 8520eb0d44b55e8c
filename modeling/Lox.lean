import Lox.Main
import Lox.CommandLine.Report
import Lox.Proofs.Calls.Raised
import Lox.Proofs.Commands.Debugging
import Lox.Proofs.Folding.Programs
import Lox.Proofs.Grammar.Exact
import Lox.Proofs.Grammar.Lone
import Lox.Proofs.Heaps.Laws
import Lox.Proofs.Heaps.Touched
import Lox.Proofs.Joining.Sessions
import Lox.Proofs.Jumps.Same
import Lox.Proofs.Matching.Counting
import Lox.Proofs.Matching.Orders
import Lox.Proofs.Nearest.Runs
import Lox.Proofs.Numbering.Processes
import Lox.Proofs.Numbers.ReadBack
import Lox.Proofs.Output.Limits
import Lox.Proofs.Places.Ends
import Lox.Proofs.Printing.Read
import Lox.Proofs.Prompts.Turns
import Lox.Proofs.Refused.Sessions
import Lox.Proofs.Renaming.Runs
import Lox.Proofs.Safety.Outcomes
import Lox.Proofs.Scopes.Exact
import Lox.Proofs.Scopes.Restored
import Lox.Proofs.Tokens.Joined
import Lox.Proofs.Traces.Levels
import Lox.Proofs.Watch.Sessions
