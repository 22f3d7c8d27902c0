import LineMatch.Grammar.Load
import LineMatch.Grammar.Written
import LineMatch.Line.Written
import LineMatch.Main
import LineMatch.Session.AnswerTable
import LineMatch.Proofs.Matching.Accounting
import LineMatch.Proofs.Matching.Boundary
import LineMatch.Proofs.Line.Name
import LineMatch.Proofs.Matching.Collecting
import LineMatch.Proofs.Matching.Inserts
import LineMatch.Proofs.Matching.Appending
import LineMatch.Proofs.Matching.Typing
import LineMatch.Proofs.Matching.Legal
import LineMatch.Proofs.Script.Alone
import LineMatch.Proofs.Grammar.Reload
import LineMatch.Proofs.Grammar.Checked
import LineMatch.Proofs.Matching.Calls
import LineMatch.Proofs.Matching.Refusals
import LineMatch.Proofs.Matching.Entering
import LineMatch.Proofs.Matching.Filled
import LineMatch.Proofs.Matching.Turns
import LineMatch.Proofs.Matching.Bounds
import LineMatch.Proofs.Matching.Commuting
import LineMatch.Proofs.Matching.Failing
import LineMatch.Proofs.Token.Folding
import LineMatch.Proofs.Line.Keystroke
import LineMatch.Proofs.Grammar.Rules
import LineMatch.Proofs.Comments.Clean
import LineMatch.Proofs.Grammar.Commented
import LineMatch.Proofs.Grammar.Accepted
import LineMatch.Proofs.Grammar.Kept
import LineMatch.Proofs.Pattern.Anchored
import LineMatch.Proofs.Session.Condition
import LineMatch.Proofs.Session.Expanding
import LineMatch.Proofs.Session.Operand
import LineMatch.Proofs.Keyword
