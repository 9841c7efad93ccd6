import PathExpr.Text
import PathExpr.Text.Blank
import PathExpr.Text.Digits
import PathExpr.Text.Printable
import PathExpr.Text.Literal
import PathExpr.Failure
import PathExpr.Reading
import PathExpr.Cursor
import PathExpr.Fragment
import PathExpr.Sugar
import PathExpr.Scan
import PathExpr.Cursor.Session
import PathExpr.Admission
import PathExpr.Token
import PathExpr.TokenizedPath
import PathExpr.TokenTable
import PathExpr.TokenizedPath.Session
import PathExpr.Json
import PathExpr.Json.Lexeme
import PathExpr.Json.Reader
import PathExpr.Json.Writer
import PathExpr.Number.Rounding
import PathExpr.Number.Binary64
import PathExpr.Duration
import PathExpr.Token.Wire
import PathExpr.Token.Issue
import PathExpr.Token.Validation
import PathExpr.Samples
import PathExpr.Tour
import PathExpr.Main
import PathExpr.Proofs.Mode
import PathExpr.Proofs.Cursor
import PathExpr.Proofs.Mode.Fold
import PathExpr.Proofs.TokenizedPath
import PathExpr.Proofs.Rooting
import PathExpr.Proofs.Text
import PathExpr.Proofs.Sugar
import PathExpr.Proofs.Writing
import PathExpr.Proofs.Mode.Piece
import PathExpr.Proofs.Mode.Reads
import PathExpr.Proofs.Substance
import PathExpr.Proofs.Refusal
import PathExpr.Proofs.Joining
import PathExpr.Proofs.Calls
import PathExpr.Proofs.Rounds
import PathExpr.Proofs.Cursor.Extraction
import PathExpr.Proofs.Cursor.Round
import PathExpr.Proofs.Ending
import PathExpr.Proofs.Excerpts
import PathExpr.Proofs.Roots
import PathExpr.Proofs.Reading
import PathExpr.Proofs.Sighting
import PathExpr.Proofs.Slices
import PathExpr.Proofs.Tracing
import PathExpr.Proofs.Groups
import PathExpr.Proofs.TokenizedPath.Session
import PathExpr.Proofs.Normal
import PathExpr.Proofs.Repeating
import PathExpr.Proofs.Text.Digits
import PathExpr.Proofs.Json.Lexeme
import PathExpr.Proofs.Json.Reader
import PathExpr.Proofs.Token.Wire
import PathExpr.Proofs.Sugar.Spacing
import PathExpr.Proofs.Sugar.Filters
import PathExpr.Proofs.Sugar.QuotedKey
import PathExpr.Proofs.Sugar.Padding
import PathExpr.Proofs.Cursor.Extent
import PathExpr.Proofs.Descents
import PathExpr.Proofs.TokenTable
import PathExpr.Proofs.Sugar.Collapse
import PathExpr.Proofs.Cursor.Session
import PathExpr.Proofs.Cursor.Scanner
import PathExpr.Proofs.Cursor.Buffered
import PathExpr.Proofs.Cursor.Unread
