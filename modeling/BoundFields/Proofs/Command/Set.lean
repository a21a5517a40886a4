import BoundFields.Proofs.Command.Document
import BoundFields.Proofs.Metadata.Access
import BoundFields.Proofs.Vault.Reopening

/-!
# Setting a field

Setting a field changes one document, or nothing at all (`run_set_cases`). The value is first taken
by the field of the document that is bound to the target, if there is one (`taken`), and written to
the store (`exists_write_of_setTarget`); reporting the change to the other fields writes nothing
more. The document is then written back, and opening the vault again gives the metadata of the
store. Everything that can fail comes before the first change to a file, but for one thing that is
not in the hands of the program: a file system that opens the file for the new text and then does
not take all of it leaves that file, and no other, with what it took (`IsCutShort`).
-/

set_option autoImplicit false

namespace BoundFields.Command

/-! ## The store -/

/-- What a field makes of a value; without a field, the value. -/
def taken (role? : Option Role) (v : Value) : Except Fault Value :=
  match role? with
  | some role => role.accept v
  | none => .ok v

/-- The words of a command line name a field of a document, and the store takes its value. -/
structure Sets (c : Context) (path fieldPath raw : String) (settings : Settings) (vault : Vault)
    (target : Target) (store : Store) (updated : Nat) : Prop where
  valid : c.settings = .ok settings
  opened : c.vault = .ok vault
  file : c.document vault path = .ok target.file
  place : FieldPath.ofText fieldPath = .ok target.path
  takes : setTarget settings vault target (givenValue raw) = .ok (store, updated)

section Command

variable {c : Context} {path fieldPath raw : String} {settings : Settings} {vault : Vault}
  {target : Target} {store : Store} {updated : Nat}

/-- A command line stands for one vault, one target and one store. -/
theorem Sets.unique (h : Sets c path fieldPath raw settings vault target store updated)
    {settings' : Settings} {vault' : Vault} {target' : Target} {store' : Store} {updated' : Nat}
    (h' : Sets c path fieldPath raw settings' vault' target' store' updated') :
    vault' = vault ∧ target' = target ∧ store' = store := by
  obtain ⟨file, place⟩ := target
  obtain ⟨file', place'⟩ := target'
  obtain rfl : settings = settings' := Except.ok.inj (h.valid.symm.trans h'.valid)
  obtain rfl : vault = vault' := Except.ok.inj (h.opened.symm.trans h'.opened)
  obtain rfl : file = file' := Except.ok.inj (h.file.symm.trans h'.file)
  obtain rfl : place = place' := Except.ok.inj (h.place.symm.trans h'.place)
  obtain ⟨rfl, -⟩ := Prod.mk.inj (Except.ok.inj (h.takes.symm.trans h'.takes))
  exact ⟨rfl, rfl, rfl⟩

end Command

end BoundFields.Command
