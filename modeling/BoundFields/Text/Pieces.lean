import BoundFields.Text.Blank

/-!
# Cutting texts apart and joining them

Lines, fields between separators, and prefixes. `chunks` keeps every character: the chunks of a
text concatenate to the text (`flatten_chunks`).
-/

set_option autoImplicit false

namespace BoundFields.Text

/-- The text cut behind every line feed; only the last chunk may lack one, and none is empty. -/
def chunks : List Char → List (List Char)
  | [] => []
  | c :: cs =>
      if c = '\n' then [c] :: chunks cs
      else match chunks cs with
        | [] => [[c]]
        | chunk :: more => (c :: chunk) :: more

theorem flatten_chunks (cs : List Char) : (chunks cs).flatten = cs := by
  induction cs with
  | nil => rfl
  | cons c cs ih =>
    unfold chunks
    split
    · simp [ih]
    · cases h : chunks cs with
      | nil => simp_all
      | cons chunk more => simp_all

/-- A chunk without the line feed, or the carriage return and line feed, that ends it. -/
def lineOfChunk (chunk : List Char) : List Char :=
  match chunk.reverse with
  | '\n' :: '\r' :: rest => rest.reverse
  | '\n' :: rest => rest.reverse
  | _ => chunk

/-- The lines of a text, without their ends. A line feed at the very end opens no further line. -/
def lines (cs : List Char) : List (List Char) := (chunks cs).map lineOfChunk

/-- The text before the first `sep` and the text behind it, if there is one. -/
def cutAt (sep : Char) : List Char → Option (List Char × List Char)
  | [] => none
  | c :: cs =>
      if c = sep then some ([], cs)
      else (cutAt sep cs).map fun (before, behind) => (c :: before, behind)

theorem eq_append_of_cutAt {sep : Char} {cs before behind : List Char}
    (h : cutAt sep cs = some (before, behind)) : cs = before ++ sep :: behind := by
  induction cs generalizing before with
  | nil => simp [cutAt] at h
  | cons c cs ih =>
    unfold cutAt at h
    split at h
    · simp_all
    · simp only [Option.map_eq_some_iff, Prod.exists, Prod.mk.injEq] at h
      obtain ⟨b, r, hb, rfl, rfl⟩ := h
      simp [ih hb]

/-- What follows `start` in a text that starts with it. -/
def dropPrefix? : List Char → List Char → Option (List Char)
  | [], cs => some cs
  | _ :: _, [] => none
  | p :: ps, c :: cs => if p = c then dropPrefix? ps cs else none

theorem dropPrefix?_eq_some_iff {start cs rest : List Char} :
    dropPrefix? start cs = some rest ↔ cs = start ++ rest := by
  induction start generalizing cs with
  | nil => simp [dropPrefix?, eq_comm]
  | cons p ps ih =>
    cases cs with
    | nil => simp [dropPrefix?]
    | cons c cs =>
      by_cases h : p = c
      · simp [dropPrefix?, h, ih]
      · simp [dropPrefix?, h, Ne.symm h]

/-- What precedes `tail` in a text that ends with it. -/
def dropSuffix? (tail cs : List Char) : Option (List Char) :=
  (dropPrefix? tail.reverse cs.reverse).map List.reverse

/-- The trimmed pieces between commas that are not empty. -/
def commaItems (s : String) : List String :=
  ((s.toList.splitOn ',').map trim).filterMap fun piece =>
    if piece.isEmpty then none else some (String.ofList piece)

/-- The strings one after the other, with a comma and a space in between. -/
def commaJoined (items : List String) : String := String.intercalate ", " items

end BoundFields.Text
