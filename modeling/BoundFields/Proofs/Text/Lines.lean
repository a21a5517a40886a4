import BoundFields.Proofs.Text.Pieces

/-!
# Lines

There is one way to cut a text behind its line feeds (`chunks_eq_iff`), and so one list of lines.
A text that ends where a line does can be followed by any other one: the lines of the second stand
behind its own (`lines_append`), which are as many as it has line feeds (`length_lines`).
-/

set_option autoImplicit false

namespace BoundFields.Text

/-- A line, with the line feed that ends it. -/
def IsLine (chunk : List Char) : Prop := ∃ inside, '\n' ∉ inside ∧ chunk = inside ++ ['\n']

/-- Pieces of a text that was cut behind its line feeds. Only the last piece may lack one. -/
inductive AreChunks : List (List Char) → Prop where
  | empty : AreChunks []
  | unended {chunk : List Char} (filled : chunk ≠ []) (feedless : '\n' ∉ chunk) : AreChunks [chunk]
  | line {chunk : List Char} {more : List (List Char)} (isLine : IsLine chunk)
      (others : AreChunks more) : AreChunks (chunk :: more)

/-- The text is empty, or its last line has an end. -/
def EndsAtLine (cs : List Char) : Prop := cs = [] ∨ cs.getLast? = some '\n'

/-! ## Pieces with their line feeds -/

theorem areChunks_chunks (cs : List Char) : AreChunks (chunks cs) := by
  induction cs with
  | nil => exact .empty
  | cons c more ih =>
    unfold chunks
    split
    · next hc => exact .line ⟨[], List.not_mem_nil, by rw [hc, List.nil_append]⟩ ih
    · next hc =>
      cases hmore : chunks more with
      | nil => exact .unended (List.cons_ne_nil c []) (by simpa using Ne.symm hc)
      | cons chunk others =>
        rw [hmore] at ih
        cases ih with
        | unended filled feedless =>
          exact .unended (List.cons_ne_nil c chunk) (by simp [Ne.symm hc, feedless])
        | line isLine others =>
          obtain ⟨inside, hinside, rfl⟩ := isLine
          exact .line ⟨c :: inside, by simp [Ne.symm hc, hinside], rfl⟩ others

/-- A text without a line feed is one piece. -/
theorem chunks_of_feedless {cs : List Char} (hfilled : cs ≠ []) (h : '\n' ∉ cs) :
    chunks cs = [cs] := by
  induction cs with
  | nil => exact absurd rfl hfilled
  | cons c more ih =>
    rw [List.mem_cons, not_or] at h
    rw [chunks, if_neg (Ne.symm h.1)]
    cases more with
    | nil => rfl
    | cons d rest => rw [ih (List.cons_ne_nil d rest) h.2]

/-- So is a line. -/
theorem chunks_of_isLine {line : List Char} (h : IsLine line) : chunks line = [line] := by
  obtain ⟨inside, hinside, rfl⟩ := h
  induction inside with
  | nil => rfl
  | cons c more ih =>
    rw [List.mem_cons, not_or] at hinside
    rw [List.cons_append, chunks, if_neg (Ne.symm hinside.1), ih hinside.2]

theorem chunks_line_append {line : List Char} (h : IsLine line) (rest : List Char) :
    chunks (line ++ rest) = line :: chunks rest := by
  have hline := chunks_of_isLine h
  obtain ⟨inside, -, rfl⟩ := h
  rw [List.append_assoc, List.singleton_append, chunks_append_feed, hline]
  rfl

/-- The pieces of a text are the only ones that it can be put together from. -/
theorem chunks_eq_iff {cs : List Char} {pieces : List (List Char)} :
    chunks cs = pieces ↔ cs = pieces.flatten ∧ AreChunks pieces := by
  constructor
  · rintro rfl
    exact ⟨(flatten_chunks cs).symm, areChunks_chunks cs⟩
  · rintro ⟨rfl, hpieces⟩
    induction hpieces with
    | empty => rfl
    | unended filled feedless =>
      rw [List.flatten_singleton, chunks_of_feedless filled feedless]
    | line isLine others ih => rw [List.flatten_cons, chunks_line_append isLine, ih]

theorem areChunks_cons_iff {chunk : List Char} {more : List (List Char)} :
    AreChunks (chunk :: more) ↔
      IsLine chunk ∧ AreChunks more ∨ chunk ≠ [] ∧ '\n' ∉ chunk ∧ more = [] := by
  constructor
  · intro h
    cases h with
    | unended filled feedless => exact .inr ⟨filled, feedless, rfl⟩
    | line isLine others => exact .inl ⟨isLine, others⟩
  · rintro (⟨isLine, others⟩ | ⟨filled, feedless, rfl⟩)
    · exact .line isLine others
    · exact .unended filled feedless

/-- All pieces in front of another one are lines. -/
theorem areChunks_append_cons_iff {front back : List (List Char)} {chunk : List Char} :
    AreChunks (front ++ chunk :: back) ↔
      (∀ line ∈ front, IsLine line) ∧ AreChunks (chunk :: back) := by
  induction front with
  | nil => simp
  | cons line more ih =>
    rw [List.cons_append, areChunks_cons_iff, ih, List.forall_mem_cons]
    constructor
    · rintro (⟨hline, hmore, hback⟩ | ⟨-, -, hnil⟩)
      · exact ⟨⟨hline, hmore⟩, hback⟩
      · exact absurd hnil (List.append_ne_nil_of_right_ne_nil _ (List.cons_ne_nil _ _))
    · rintro ⟨⟨hline, hmore⟩, hback⟩
      exact .inl ⟨hline, hmore, hback⟩

/-! ## Lines without their ends -/

/-- A piece is its line and the end of that. -/
theorem exists_eq_lineOfChunk (chunk : List Char) :
    ∃ ending ∈ [[], ['\n'], ['\r', '\n']], chunk = lineOfChunk chunk ++ ending := by
  unfold lineOfChunk
  split
  · next rest hrest =>
    refine ⟨['\r', '\n'], by simp, ?_⟩
    rw [← List.reverse_reverse chunk, hrest]
    simp
  · next rest _ hrest =>
    refine ⟨['\n'], by simp, ?_⟩
    rw [← List.reverse_reverse chunk, hrest]
    simp
  · exact ⟨[], by simp, (List.append_nil chunk).symm⟩

theorem lineOfChunk_isPrefix (chunk : List Char) : lineOfChunk chunk <+: chunk := by
  obtain ⟨ending, -, hchunk⟩ := exists_eq_lineOfChunk chunk
  exact ⟨ending, hchunk.symm⟩

/-- The line feed at the end is always cut off. -/
theorem lineOfChunk_concat_isPrefix (inside : List Char) :
    lineOfChunk (inside ++ ['\n']) <+: inside := by
  have hreverse : (inside ++ ['\n']).reverse = '\n' :: inside.reverse := List.reverse_concat
  rw [← List.reverse_suffix]
  unfold lineOfChunk
  split
  · next rest hrest =>
    rw [(List.cons.inj (hreverse.symm.trans hrest)).2, List.reverse_reverse]
    exact ⟨['\r'], rfl⟩
  · next rest _ hrest =>
    obtain rfl := (List.cons.inj (hreverse.symm.trans hrest)).2
    simp
  · next hother => exact absurd hreverse (hother inside.reverse)

theorem not_mem_of_mem_lines {cs line : List Char} (h : line ∈ lines cs) : '\n' ∉ line := by
  obtain ⟨chunk, hchunk, rfl⟩ := List.mem_map.1 h
  obtain ⟨front, back, hcs⟩ := List.append_of_mem hchunk
  have hchunks := areChunks_chunks cs
  rw [hcs, areChunks_append_cons_iff, areChunks_cons_iff] at hchunks
  rcases hchunks.2 with ⟨⟨inside, hinside, rfl⟩, -⟩ | ⟨-, hfeedless, -⟩
  · exact fun hmem => hinside ((lineOfChunk_concat_isPrefix inside).subset hmem)
  · exact fun hmem => hfeedless ((lineOfChunk_isPrefix chunk).subset hmem)

theorem chunks_append {front : List Char} (h : EndsAtLine front) (rest : List Char) :
    chunks (front ++ rest) = chunks front ++ chunks rest := by
  rcases h with rfl | h
  · rfl
  · obtain ⟨inside, rfl⟩ := List.getLast?_eq_some_iff.1 h
    rw [List.append_assoc, List.singleton_append, chunks_append_feed]

theorem lines_append {front : List Char} (h : EndsAtLine front) (rest : List Char) :
    lines (front ++ rest) = lines front ++ lines rest := by
  rw [lines, chunks_append h, List.map_append]
  rfl

theorem EndsAtLine.of_append {front rest : List Char} (h : EndsAtLine (front ++ rest)) :
    EndsAtLine rest := by
  cases hrest : rest.getLast? with
  | none => exact .inl (List.getLast?_eq_none_iff.1 hrest)
  | some c =>
    rcases h with hempty | hlast
    · exact .inl (List.append_eq_nil_iff.1 hempty).2
    · rw [List.getLast?_append, hrest, Option.some_or] at hlast
      exact .inr (hrest.trans hlast)

theorem IsLine.count_eq {line : List Char} (h : IsLine line) : line.count '\n' = 1 := by
  obtain ⟨inside, hinside, rfl⟩ := h
  rw [List.count_append, List.count_eq_zero.2 hinside, List.count_singleton_self]

/-- Every line feed ends a piece. -/
theorem AreChunks.count_flatten_le {pieces : List (List Char)} (h : AreChunks pieces) :
    pieces.flatten.count '\n' ≤ pieces.length := by
  induction h with
  | empty => exact Nat.le_refl 0
  | unended filled feedless =>
    rw [List.flatten_singleton, List.count_eq_zero.2 feedless]
    exact Nat.zero_le _
  | line isLine others ih =>
    rw [List.flatten_cons, List.count_append, isLine.count_eq, List.length_cons]
    omega

theorem count_flatten_of_isLine {pieces : List (List Char)} (h : ∀ line ∈ pieces, IsLine line) :
    pieces.flatten.count '\n' = pieces.length := by
  induction pieces with
  | nil => rfl
  | cons line more ih =>
    obtain ⟨hline, hmore⟩ := List.forall_mem_cons.1 h
    rw [List.flatten_cons, List.count_append, hline.count_eq, ih hmore, List.length_cons,
      Nat.add_comm]

/-- Where the last piece has its line feed, every piece does. -/
theorem AreChunks.isLine {pieces : List (List Char)} (h : AreChunks pieces)
    (hends : EndsAtLine pieces.flatten) : ∀ line ∈ pieces, IsLine line := by
  induction h with
  | empty => exact fun _ hline => absurd hline List.not_mem_nil
  | unended filled feedless =>
    rw [List.flatten_singleton] at hends
    rcases hends with hempty | hlast
    · exact absurd hempty filled
    · exact absurd (List.mem_of_getLast? hlast) feedless
  | line isLine others ih =>
    rw [List.flatten_cons] at hends
    exact List.forall_mem_cons.2 ⟨isLine, ih hends.of_append⟩

theorem isLine_of_mem_chunks {cs : List Char} (h : EndsAtLine cs) :
    ∀ line ∈ chunks cs, IsLine line :=
  (areChunks_chunks cs).isLine (by rwa [flatten_chunks])

/-- A text whose last line has an end has a line for every line feed. -/
theorem length_lines {cs : List Char} (h : EndsAtLine cs) :
    (lines cs).length = cs.count '\n' := by
  have hcount := count_flatten_of_isLine (isLine_of_mem_chunks h)
  rw [flatten_chunks] at hcount
  rw [lines, List.length_map, hcount]

theorem count_le_length_lines (cs : List Char) : cs.count '\n' ≤ (lines cs).length := by
  have hcount := (areChunks_chunks cs).count_flatten_le
  rw [flatten_chunks] at hcount
  rwa [lines, List.length_map]

theorem exists_head?_lines {cs : List Char} (h : cs ≠ []) :
    ∃ line, (lines cs).head? = some line := by
  cases hchunks : chunks cs with
  | nil => exact absurd (chunks_eq_iff.1 hchunks).1 h
  | cons chunk more => exact ⟨lineOfChunk chunk, by rw [lines, hchunks]; rfl⟩

/-- The first line of a text is its front part. -/
theorem prefix_of_head?_lines {cs line : List Char} (h : (lines cs).head? = some line) :
    line <+: cs := by
  rw [lines, List.head?_map, Option.map_eq_some_iff] at h
  obtain ⟨chunk, hchunk, rfl⟩ := h
  obtain ⟨more, hmore⟩ := List.head?_eq_some_iff.1 hchunk
  refine (lineOfChunk_isPrefix chunk).trans ⟨more.flatten, ?_⟩
  rw [← List.flatten_cons, ← hmore, flatten_chunks]

/-- A character at the start of a text that is no part of an end starts the first line. -/
theorem head?_of_head?_lines {c : Char} {more line : List Char}
    (h : (lines (c :: more)).head? = some line) (hfeed : c ≠ '\n') (hreturn : c ≠ '\r') :
    line.head? = some c := by
  obtain ⟨tail, others, hchunks⟩ :
      ∃ tail others, chunks (c :: more) = (c :: tail) :: others := by
    rw [chunks, if_neg hfeed]
    cases chunks more with
    | nil => exact ⟨[], [], rfl⟩
    | cons chunk others => exact ⟨chunk, others, rfl⟩
  rw [lines, hchunks, List.map_cons, List.head?_cons, Option.some.injEq] at h
  obtain ⟨ending, hending, heq⟩ := exists_eq_lineOfChunk (c :: tail)
  rw [h] at heq
  cases line with
  | cons d rest => rw [(List.cons.inj heq).1]; rfl
  | nil =>
    simp only [List.mem_cons, List.not_mem_nil, or_false] at hending
    rcases hending with rfl | rfl | rfl
    · cases heq
    · exact absurd (List.cons.inj heq).1 hfeed
    · exact absurd (List.cons.inj heq).1 hreturn

/-! ## Lines written out -/

/-- The text that has these lines, each with a line feed behind it. -/
def unlines (lines : List (List Char)) : List Char := lines.flatMap (· ++ ['\n'])

theorem unlines_concat (front : List (List Char)) (line : List Char) :
    unlines (front ++ [line]) = unlines front ++ line ++ ['\n'] := by
  rw [unlines, List.flatMap_append, List.flatMap_singleton, ← List.append_assoc]
  rfl

/-- Any lines are the lines of a text, with those of another text behind them. -/
theorem exists_lines_append {front : List (List Char)} (h : ∀ line ∈ front, '\n' ∉ line)
    (rest : List Char) : ∃ cs, lines cs = front ++ lines rest := by
  induction front with
  | nil => exact ⟨rest, rfl⟩
  | cons line more ih =>
    rw [List.forall_mem_cons] at h
    obtain ⟨cs, hcs⟩ := ih h.2
    -- The carriage return keeps one at the end of the line itself from being cut off.
    have hline : IsLine (line ++ ['\r', '\n']) := ⟨line ++ ['\r'], by simp [h.1], by simp⟩
    refine ⟨line ++ ['\r', '\n'] ++ cs, ?_⟩
    rw [lines, chunks_line_append hline, List.map_cons, ← lines, hcs, List.cons_append]
    simp [lineOfChunk]

end BoundFields.Text
