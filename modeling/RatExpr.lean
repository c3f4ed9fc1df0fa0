import RatExpr.Main
import RatExpr.Proofs.Command.Lines
import RatExpr.Proofs.Command.Run
import RatExpr.Proofs.Expression.Chain
import RatExpr.Proofs.Expression.Legality
import RatExpr.Proofs.Expression.Location
import RatExpr.Proofs.Expression.Substitution
import RatExpr.Proofs.Grammar.Calls
import RatExpr.Proofs.Grammar.Halting
import RatExpr.Proofs.Grammar.Lookahead
import RatExpr.Proofs.Grammar.Streaming
import RatExpr.Proofs.Grammar.Verdict
import RatExpr.Proofs.Limits.Guard
import RatExpr.Proofs.Number.Power
import RatExpr.Proofs.Token.Tiling
import RatExpr.Proofs.Command.Blank
import RatExpr.Proofs.Number.Positional
import RatExpr.Checked
import RatExpr.Proofs.Expression.Numeral
import RatExpr.Proofs.Grammar.Stack
import RatExpr.Proofs.Pair.Checked
import RatExpr.Proofs.Text.Unquoted
import RatExpr.Proofs.Pair.Display
import RatExpr.Proofs.Grammar.Transport
import RatExpr.Proofs.Token.Joining
