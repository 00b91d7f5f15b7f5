import ByteLexer.Command.Arguments
import ByteLexer.Command.Emission
import ByteLexer.Command.Options
import ByteLexer.Command.Outcome
import ByteLexer.Diagnostic.Basic
import ByteLexer.Diagnostic.Message
import ByteLexer.Diagnostic.Rendering
import ByteLexer.Diagnostic.Template
import ByteLexer.Main
import ByteLexer.Scan.Cause
import ByteLexer.Scan.CharClass
import ByteLexer.Scan.Cursor
import ByteLexer.Scan.Inspection
import ByteLexer.Scan.Recognition
import ByteLexer.Scan.Scanner
import ByteLexer.Text.Hidden
import ByteLexer.Text.Json
import ByteLexer.Text.LineMap
import ByteLexer.Text.Shown
import ByteLexer.Text.Span
import ByteLexer.Token.Basic
import ByteLexer.Token.Kind
import ByteLexer.Utf8.Character
import ByteLexer.Utf8.Validation
import ByteLexer.Word
import ByteLexer.Proofs.Utf8.Encoding
import ByteLexer.Proofs.Utf8.Front
import ByteLexer.Proofs.Utf8.Defect
import ByteLexer.Proofs.Utf8.Decoding
import ByteLexer.Proofs.Utf8.Offsets
import ByteLexer.Proofs.Scan.ReadAhead
import ByteLexer.Proofs.Scan.Lexeme
import ByteLexer.Proofs.Scan.Recognition
import ByteLexer.Proofs.Scan.Run
import ByteLexer.Proofs.Scan.Lexing
import ByteLexer.Proofs.Scan.Tiling
import ByteLexer.Proofs.Scan.Blame
import ByteLexer.Proofs.Scan.Calls
import ByteLexer.Proofs.Scan.Requests
import ByteLexer.Proofs.Scan.Primed
import ByteLexer.Proofs.Scan.Checked
import ByteLexer.Proofs.Scan.Spelling
import ByteLexer.Proofs.Scan.Grammar
import ByteLexer.Proofs.Scan.Layout
import ByteLexer.Proofs.Scan.Recovery
import ByteLexer.Proofs.Scan.Causes
import ByteLexer.Proofs.Scan.Joining
import ByteLexer.Proofs.Text.LineMap
import ByteLexer.Proofs.Text.Decimal
import ByteLexer.Proofs.Text.Controls
import ByteLexer.Proofs.Command.Emission
import ByteLexer.Proofs.Command.Reports
import ByteLexer.Proofs.Command.Policies
import ByteLexer.Proofs.Command.Resumption
import ByteLexer.Proofs.Command.Accounting
import ByteLexer.Proofs.Text.Positions
import ByteLexer.Proofs.Command.Locations
import ByteLexer.Proofs.Scan.Validity
import ByteLexer.Proofs.Scan.Walk
import ByteLexer.Proofs.Text.Json
import ByteLexer.Proofs.Command.Lines
import ByteLexer.Proofs.Diagnostic.Filling
import ByteLexer.Proofs.Diagnostic.OneLine
import ByteLexer.Proofs.Command.Framing
