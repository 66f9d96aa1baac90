import Repartee.Main
import Repartee.Proofs.Alignment
import Repartee.Proofs.BestMatch
import Repartee.Proofs.Handover
import Repartee.Proofs.Runs
import Repartee.Proofs.Calls
import Repartee.Proofs.Calls.Measure
import Repartee.Proofs.Ending
import Repartee.Proofs.RedirectDepth
import Repartee.Proofs.Arena
import Repartee.Proofs.Irrelevance
import Repartee.Proofs.Joined
import Repartee.Proofs.Rendering
import Repartee.Proofs.LastMatch
import Repartee.Proofs.Histories
import Repartee.Proofs.Isolation
import Repartee.Proofs.Redirects
import Repartee.Proofs.Searches
import Repartee.Proofs.Invariants
import Repartee.Proofs.Journal
import Repartee.Proofs.LastReply
import Repartee.Proofs.Captures
import Repartee.Proofs.Printing
import Repartee.Proofs.Pools
import Repartee.Proofs.WriteFree
import Repartee.Proofs.Leftovers
import Repartee.Proofs.Standings
import Repartee.Proofs.Grammar
import Repartee.Proofs.Nesting
import Repartee.Proofs.Alternatives
import Repartee.Proofs.Conditions
import Repartee.Proofs.Literals
import Repartee.Proofs.Substitutions
import Repartee.Proofs.Rereading
import Repartee.Proofs.Wordless
import Repartee.Proofs.Substitutions.Keys
import Repartee.Proofs.Substitutions.Definitions
import Repartee.Proofs.Statements
import Repartee.Proofs.Placement
import Repartee.Proofs.Placement.Topics
import Repartee.Proofs.Placement.Triggers
import Repartee.Proofs.Unloaded
import Repartee.Proofs.Statements.Lines
import Repartee.Proofs.Strictness
import Repartee.Proofs.Placement.Numbers
import Repartee.Proofs.Framing
import Repartee.Proofs.Renumbering
import Repartee.Proofs.Padding
import Repartee.Proofs.Callables
import Repartee.Proofs.Edits
import Repartee.Proofs.Grouping
import Repartee.Proofs.Lookups
import Repartee.Proofs.Continuations
import Repartee.Proofs.Faults
import Repartee.Proofs.Shares
import Repartee.Proofs.Sessions
import Repartee.Proofs.Recollections
import Repartee.Proofs.Reserves
