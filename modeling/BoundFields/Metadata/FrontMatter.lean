import BoundFields.Error
import BoundFields.Yaml.Reader
import BoundFields.Yaml.Writer

/-!
# Front matter

A document may start with its metadata, between a line of three hyphens and another one. `cut?`
finds the four parts of such a document, which concatenate to the document (`text_of_cut?`);
`split` reads the metadata, and `render` puts metadata in front of a body.
-/

set_option autoImplicit false

namespace BoundFields.FrontMatter

/-- The three hyphens. -/
def fence : List Char := "---".toList

/-- The parts of a document with front matter: the opening line, the lines of the block, the
closing line, and the body. -/
structure Parts where
  opening : List Char
  block : List Char
  closing : List Char
  body : List Char
deriving DecidableEq, Repr

/-- The whole document. -/
def Parts.text (p : Parts) : List Char := p.opening ++ p.block ++ p.closing ++ p.body

/-- Whether a line closes the block. -/
def isClosing (line : List Char) : Bool := Text.trimEnd line = fence

/-- The opening line of a document, and the rest. -/
def opening? (cs : List Char) : Option (List Char × List Char) :=
  let opens (line : List Char) := (Text.dropPrefix? line cs).map fun rest => (line, rest)
  (opens (fence ++ ['\r', '\n'])).or (opens (fence ++ ['\n']))

/-- The parts of a document with front matter. -/
def cut? (cs : List Char) : Option Parts :=
  match opening? cs with
  | none => none
  | some (opening, rest) =>
      -- The lines keep their ends, so that block and body are pieces of the document.
      let lines := Text.chunks rest
      match lines.dropWhile (!isClosing ·) with
      | [] => none
      | closing :: body =>
          some ⟨opening, (lines.takeWhile (!isClosing ·)).flatten, closing, body.flatten⟩

theorem eq_append_of_opening? {cs opening rest : List Char}
    (h : opening? cs = some (opening, rest)) : cs = opening ++ rest := by
  simp only [opening?, Option.or_eq_some_iff, Option.map_eq_some_iff, Prod.mk.injEq] at h
  rcases h with ⟨r, hr, ho, rfl⟩ | ⟨_, r, hr, ho, rfl⟩ <;>
    exact ho ▸ Text.dropPrefix?_eq_some_iff.1 hr

/-- Cutting a document loses nothing. -/
theorem text_of_cut? {cs : List Char} {p : Parts} (h : cut? cs = some p) : p.text = cs := by
  unfold cut? at h
  split at h
  · simp at h
  · next opening rest ho =>
    simp only at h
    split at h
    · simp at h
    · next closing body hb =>
      have hr := Text.flatten_chunks rest
      rw [← List.takeWhile_append_dropWhile (p := (!isClosing ·)) (l := Text.chunks rest), hb] at hr
      simp only [Option.some.injEq] at h
      subst h
      rw [eq_append_of_opening? ho]
      simpa [Parts.text] using hr

/-- The metadata of the text of a block; a blank block holds the empty mapping. -/
def blockValue (block : List Char) : Except Error Value :=
  if Text.isBlankText block then .ok Value.empty
  else (Value.ofText (String.ofList block)).mapError .unreadableFrontMatter

/-- The metadata of a document, if it has a front matter block, and its body. -/
def split (document : String) : Except Error (Option Value × String) :=
  match cut? document.toList with
  | none => .ok (none, document)
  | some parts =>
      (blockValue parts.block).map fun v => (some v, String.ofList parts.body)

/-- The document with this metadata and this body. -/
def render (metadata : Value) (body : String) : Except Error String :=
  match metadata.write with
  | .ok text => .ok ("---\n" ++ text ++ "---\n" ++ body)
  | .error cause => .error (.unwritableFrontMatter cause)

/-- The number of the line, counted from one, that the body starts on. A document whose metadata
cannot be read counts as one without any. -/
def bodyStartLine (document : String) : Nat :=
  match cut? document.toList with
  | none => 1
  | some parts =>
      match blockValue parts.block with
      | .ok _ => (parts.opening ++ parts.block ++ parts.closing).count '\n' + 1
      | .error _ => 1

end BoundFields.FrontMatter
