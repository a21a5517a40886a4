import BoundFields.Metadata.FrontMatter
import BoundFields.Proofs.Outcome
import BoundFields.Proofs.Text.Lines

/-!
# Splitting documents

`Parts.IsOf` says what the parts of a document with front matter look like, and a document has at
most one set of such parts: those that `cut?` finds (`cut?_eq_some_iff`). So splitting is exact for
every document, whether it has a block or not and whether the block can be read or not, and what
stands behind a closing line that has an end cannot change what is in front of it
(`splitsExactly`).
-/

set_option autoImplicit false

namespace BoundFields.FrontMatter

/-! ## The opening line -/

/-- The text starts with a line of three hyphens that has an end. -/
def HasOpening (cs : List Char) : Prop :=
  ∃ rest, cs = fence ++ ['\n'] ++ rest ∨ cs = fence ++ ['\r', '\n'] ++ rest

theorem opening?_eq_some_iff {cs opening rest : List Char} :
    opening? cs = some (opening, rest) ↔
      cs = opening ++ rest ∧ (opening = fence ++ ['\n'] ∨ opening = fence ++ ['\r', '\n']) := by
  constructor
  · intro h
    refine ⟨eq_append_of_opening? h, ?_⟩
    simp only [opening?, Option.or_eq_some_iff, Option.map_eq_some_iff, Prod.mk.injEq] at h
    rcases h with ⟨_, -, rfl, -⟩ | ⟨-, _, -, rfl, -⟩
    · exact .inr rfl
    · exact .inl rfl
  · rintro ⟨rfl, rfl | rfl⟩ <;> rfl

theorem opening?_eq_none_iff {cs : List Char} : opening? cs = none ↔ ¬ HasOpening cs := by
  constructor
  · rintro h ⟨rest, hcs⟩
    rcases hcs with rfl | rfl
    · cases h.symm.trans (opening?_eq_some_iff.2 ⟨rfl, .inl rfl⟩)
    · cases h.symm.trans (opening?_eq_some_iff.2 ⟨rfl, .inr rfl⟩)
  · intro h
    cases hcs : opening? cs with
    | none => rfl
    | some found =>
      obtain ⟨rfl, hopening⟩ := opening?_eq_some_iff.1 hcs
      refine absurd ⟨found.2, ?_⟩ h
      rcases hopening with hopening | hopening
      · exact .inl (by rw [hopening])
      · exact .inr (by rw [hopening])

/-- The line of three hyphens is the first line of the text. -/
theorem head?_lines_of_hasOpening {cs : List Char} (h : HasOpening cs) :
    (Text.lines cs).head? = some fence := by
  obtain ⟨rest, rfl | rfl⟩ := h <;> rfl

theorem hasOpening_iff {cs : List Char} :
    HasOpening cs ↔ (Text.chunks cs).head? = some (fence ++ ['\n']) ∨
      (Text.chunks cs).head? = some (fence ++ ['\r', '\n']) := by
  constructor
  · rintro ⟨rest, rfl | rfl⟩
    · exact .inl rfl
    · exact .inr rfl
  · rw [List.head?_eq_some_iff, List.head?_eq_some_iff]
    rintro (⟨more, hmore⟩ | ⟨more, hmore⟩)
    · exact ⟨more.flatten, .inl (Text.chunks_eq_iff.1 hmore).1⟩
    · exact ⟨more.flatten, .inr (Text.chunks_eq_iff.1 hmore).1⟩

/-- Of two texts one behind the other, the first one decides, unless it is empty. -/
theorem not_hasOpening_append {front rest : List Char} (hends : Text.EndsAtLine front)
    (hfront : ¬ HasOpening front) (hrest : ¬ HasOpening rest) : ¬ HasOpening (front ++ rest) := by
  -- Whether there is an opening line shows in the first piece, which is that of the first text.
  cases hchunks : Text.chunks front with
  | nil =>
    rw [(Text.chunks_eq_iff.1 hchunks).1]
    exact hrest
  | cons line more =>
    rw [hasOpening_iff, Text.chunks_append hends]
    rw [hasOpening_iff] at hfront
    rw [hchunks] at hfront ⊢
    exact hfront

theorem bodyStartLine_of_not_hasOpening {document : String}
    (h : ¬ HasOpening document.toList) : bodyStartLine document = 1 := by
  simp only [bodyStartLine, cut?, opening?_eq_none_iff.2 h]

/-! ## The parts of a document -/

/-- What the parts of a document with front matter look like. -/
structure Parts.IsOf (parts : Parts) (document : List Char) : Prop where
  text : parts.text = document
  opening : parts.opening = fence ++ ['\n'] ∨ parts.opening = fence ++ ['\r', '\n']
  block : ∃ lines : List (List Char), parts.block = lines.flatten ∧
    ∀ line ∈ lines, Text.IsLine line ∧ isClosing line = false
  closes : isClosing parts.closing = true
  /-- The closing line has its line feed, or nothing stands behind it. -/
  whole : Text.IsLine parts.closing ∨ '\n' ∉ parts.closing ∧ parts.body = []

theorem Parts.IsOf.ne_nil {parts : Parts} {document : List Char} (h : parts.IsOf document) :
    parts.closing ≠ [] := by
  intro hnil
  have hcloses := h.closes
  rw [hnil] at hcloses
  exact absurd hcloses (by decide)

/-- The lines of the block, the closing line and the lines of the body are what the text behind the
opening line is cut into. -/
theorem Parts.IsOf.exists_chunks {parts : Parts} {document : List Char} (h : parts.IsOf document) :
    ∃ lines : List (List Char), parts.block = lines.flatten ∧
      (∀ line ∈ lines, (!isClosing line) = true) ∧
      Text.chunks (parts.block ++ parts.closing ++ parts.body) =
        lines ++ parts.closing :: Text.chunks parts.body := by
  obtain ⟨lines, hblock, hlines⟩ := h.block
  refine ⟨lines, hblock, ?_, ?_⟩
  · intro line hline
    rw [(hlines line hline).2, Bool.not_false]
  · rw [Text.chunks_eq_iff, Text.areChunks_append_cons_iff, Text.areChunks_cons_iff]
    refine ⟨?_, fun line hline => (hlines line hline).1, ?_⟩
    · rw [hblock, List.flatten_append, List.flatten_cons, Text.flatten_chunks, List.append_assoc]
    · rcases h.whole with hline | ⟨hfeedless, hbody⟩
      · exact .inl ⟨hline, Text.areChunks_chunks parts.body⟩
      · exact .inr ⟨h.ne_nil, hfeedless, by rw [hbody]; rfl⟩

theorem isOf_of_cut? {document : List Char} {parts : Parts} (h : cut? document = some parts) :
    parts.IsOf document := by
  have htext := text_of_cut? h
  unfold cut? at h
  split at h
  · cases h
  · next opening rest hopening =>
    simp only at h
    split at h
    · cases h
    · next closing others hothers =>
      cases h
      have hrest := List.takeWhile_append_dropWhile (p := (!isClosing ·)) (l := Text.chunks rest)
      rw [hothers] at hrest
      have hchunks := Text.areChunks_chunks rest
      rw [← hrest, Text.areChunks_append_cons_iff, Text.areChunks_cons_iff] at hchunks
      have hcloses := List.head?_dropWhile_not (!isClosing ·) (Text.chunks rest)
      rw [hothers] at hcloses
      refine ⟨htext, (opening?_eq_some_iff.1 hopening).2, ⟨_, rfl, fun line hline => ?_⟩,
        by simpa using hcloses, ?_⟩
      · have hopen := List.all_eq_true.1 List.all_takeWhile line hline
        exact ⟨hchunks.1 line hline, by simpa using hopen⟩
      · -- A closing line without its line feed is the last piece of the text.
        rcases hchunks.2 with ⟨hline, -⟩ | ⟨-, hfeedless, hnil⟩
        · exact .inl hline
        · exact .inr ⟨hfeedless, by rw [hnil]; rfl⟩

theorem cut?_of_isOf {document : List Char} {parts : Parts} (h : parts.IsOf document) :
    cut? document = some parts := by
  obtain ⟨lines, hblock, hopen, hchunks⟩ := h.exists_chunks
  have hopening : opening? document =
      some (parts.opening, parts.block ++ parts.closing ++ parts.body) := by
    refine opening?_eq_some_iff.2 ⟨?_, h.opening⟩
    rw [← h.text, Parts.text, List.append_assoc, List.append_assoc, List.append_assoc]
  have hclose : (!isClosing parts.closing) = false := by rw [h.closes, Bool.not_true]
  have htake : (lines ++ parts.closing :: Text.chunks parts.body).takeWhile (!isClosing ·) =
      lines := by
    rw [List.takeWhile_append_of_pos hopen, List.takeWhile_cons, hclose,
      if_neg Bool.false_ne_true, List.append_nil]
  have hdrop : (lines ++ parts.closing :: Text.chunks parts.body).dropWhile (!isClosing ·) =
      parts.closing :: Text.chunks parts.body := by
    rw [List.dropWhile_append_of_pos hopen, List.dropWhile_cons, hclose,
      if_neg Bool.false_ne_true]
  simp only [cut?, hopening, hchunks, htake, hdrop, Text.flatten_chunks]
  rw [← hblock]

/-- A document is cut into its parts, and if it has none it is not cut. -/
theorem cut?_eq_some_iff {document : List Char} {parts : Parts} :
    cut? document = some parts ↔ parts.IsOf document :=
  ⟨isOf_of_cut?, cut?_of_isOf⟩

/-- There is at most one way to cut a document. -/
theorem Parts.IsOf.unique {parts others : Parts} {document : List Char}
    (h : parts.IsOf document) (hothers : others.IsOf document) : others = parts :=
  Option.some.inj ((cut?_of_isOf hothers).symm.trans (cut?_of_isOf h))

theorem cut?_eq_none_iff {document : List Char} :
    cut? document = none ↔ ∀ parts : Parts, ¬ parts.IsOf document := by
  rw [Option.eq_none_iff_forall_ne_some]
  exact forall_congr' fun parts => not_congr cut?_eq_some_iff

/-- Text behind a closing line that has an end belongs to the body. -/
theorem Parts.IsOf.append {parts : Parts} {document : List Char} (h : parts.IsOf document)
    (hends : parts.closing.getLast? = some '\n') (behind : List Char) :
    Parts.IsOf { parts with body := parts.body ++ behind } (document ++ behind) := by
  refine ⟨?_, h.opening, h.block, h.closes, ?_⟩
  · rw [← h.text]
    exact (List.append_assoc _ _ _).symm
  · rcases h.whole with hline | ⟨hfeedless, -⟩
    · exact .inl hline
    · exact absurd (List.mem_of_getLast? hends) hfeedless

/-! ## The metadata and the body -/

/-- What the text of a block says. A blank one says that there is nothing. -/
def IsMeaning (block : List Char) (metadata : Value) : Prop :=
  if Text.isBlankText block = true then metadata = .mapping []
  else Value.ofText (String.ofList block) = .ok metadata

/-- The text of a block says nothing, not even that there is nothing. -/
def IsMeaningless (block : List Char) : Prop :=
  Text.isBlankText block = false ∧ ∀ v, Value.ofText (String.ofList block) ≠ .ok v

theorem blockValue_eq_ok_iff {block : List Char} {metadata : Value} :
    blockValue block = .ok metadata ↔ IsMeaning block metadata := by
  unfold blockValue IsMeaning
  split
  · rw [Except.ok.injEq, eq_comm]
    rfl
  · exact Outcome.mapError_eq_ok_iff

theorem exists_blockValue_eq_error_iff {block : List Char} :
    (∃ e, blockValue block = .error e) ↔ IsMeaningless block := by
  have herror : (∃ e, blockValue block = .error e) ↔ ∀ v, blockValue block ≠ .ok v := by
    cases blockValue block with
    | error e => simp
    | ok v => simp
  simp only [herror, ne_eq, blockValue_eq_ok_iff, IsMeaning, IsMeaningless]
  cases Text.isBlankText block with
  | true => simp
  | false => simp

theorem split_of_cut?_eq_none {document : String} (h : cut? document.toList = none) :
    split document = .ok (none, document) := by
  simp only [split, h]

/-- What splitting and counting find in a document with front matter. -/
theorem split_of_isOf {document : String} {parts : Parts} (h : parts.IsOf document.toList) :
    split document =
      (blockValue parts.block).map fun v => (some v, String.ofList parts.body) := by
  simp only [split, cut?_eq_some_iff.2 h]

theorem bodyStartLine_of_isOf {document : String} {parts : Parts} {metadata : Value}
    (h : parts.IsOf document.toList) (hmetadata : IsMeaning parts.block metadata) :
    bodyStartLine document = (parts.opening ++ parts.block ++ parts.closing).count '\n' + 1 := by
  simp only [bodyStartLine, cut?_eq_some_iff.2 h, blockValue_eq_ok_iff.2 hmetadata]

theorem split_eq_none_iff {document body : String} :
    split document = .ok (none, body) ↔
      body = document ∧ ∀ parts : Parts, ¬ parts.IsOf document.toList := by
  rw [← cut?_eq_none_iff]
  cases hcut : cut? document.toList with
  | none => simp [split_of_cut?_eq_none hcut, eq_comm]
  | some parts =>
    rw [split_of_isOf (cut?_eq_some_iff.1 hcut), Outcome.map_eq_ok_iff]
    constructor
    · rintro ⟨v, -, hv⟩
      cases hv
    · rintro ⟨-, hnone⟩
      cases hnone

theorem split_eq_some_iff {document body : String} {metadata : Value} :
    split document = .ok (some metadata, body) ↔
      ∃ parts : Parts, parts.IsOf document.toList ∧ IsMeaning parts.block metadata ∧
        parts.body = body.toList := by
  constructor
  · intro h
    cases hcut : cut? document.toList with
    | none =>
      rw [split_of_cut?_eq_none hcut] at h
      cases h
    | some parts =>
      have hparts := cut?_eq_some_iff.1 hcut
      rw [split_of_isOf hparts, Outcome.map_eq_ok_iff] at h
      obtain ⟨v, hv, hpair⟩ := h
      cases hpair
      exact ⟨parts, hparts, blockValue_eq_ok_iff.1 hv, String.toList_ofList.symm⟩
  · rintro ⟨parts, hparts, hmetadata, hbody⟩
    rw [split_of_isOf hparts, blockValue_eq_ok_iff.2 hmetadata, hbody, String.ofList_toList]
    rfl

theorem exists_split_eq_error_iff {document : String} :
    (∃ e, split document = .error e) ↔
      ∃ parts : Parts, parts.IsOf document.toList ∧ IsMeaningless parts.block := by
  constructor
  · rintro ⟨e, h⟩
    cases hcut : cut? document.toList with
    | none =>
      rw [split_of_cut?_eq_none hcut] at h
      cases h
    | some parts =>
      have hparts := cut?_eq_some_iff.1 hcut
      refine ⟨parts, hparts, exists_blockValue_eq_error_iff.1 ?_⟩
      rw [split_of_isOf hparts] at h
      cases hvalue : blockValue parts.block with
      | error cause => exact ⟨cause, rfl⟩
      | ok v =>
        rw [hvalue] at h
        cases h
  · rintro ⟨parts, hparts, hmeaningless⟩
    obtain ⟨e, he⟩ := exists_blockValue_eq_error_iff.2 hmeaningless
    exact ⟨e, by rw [split_of_isOf hparts, he]; rfl⟩

/-- Splitting a document loses nothing of it and reads no more of it than it has to. -/
structure SplitsExactly (document : String) : Prop where
  /-- A document without front matter is its own body. -/
  plain : ∀ body, split document = .ok (none, body) ↔
    body = document ∧ ∀ parts : Parts, ¬ parts.IsOf document.toList
  /-- A document with front matter is split where the closing line ends. -/
  fenced : ∀ metadata body, split document = .ok (some metadata, body) ↔
    ∃ parts : Parts, parts.IsOf document.toList ∧ IsMeaning parts.block metadata ∧
      parts.body = body.toList
  /-- A document is refused for a block that cannot be read, and for nothing else. -/
  refused : (∃ e, split document = .error e) ↔
    ∃ parts : Parts, parts.IsOf document.toList ∧ IsMeaningless parts.block
  /-- The body starts behind the lines of the other parts. -/
  counted : ∀ metadata body, split document = .ok (some metadata, body) →
    ∀ parts : Parts, parts.IsOf document.toList →
      bodyStartLine document = (parts.opening ++ parts.block ++ parts.closing).count '\n' + 1
  /-- Text behind the closing line makes the body longer, and changes nothing else. -/
  lengthened : ∀ metadata body, split document = .ok (some metadata, body) →
    ∀ parts : Parts, parts.IsOf document.toList → parts.closing.getLast? = some '\n' →
      ∀ behind, split (document ++ behind) = .ok (some metadata, body ++ behind) ∧
        bodyStartLine (document ++ behind) = bodyStartLine document

/-- Every document is split exactly. -/
theorem splitsExactly (document : String) : SplitsExactly document where
  plain _ := split_eq_none_iff
  fenced _ _ := split_eq_some_iff
  refused := exists_split_eq_error_iff
  counted metadata body h parts hparts := by
    obtain ⟨others, hothers, hmetadata, -⟩ := split_eq_some_iff.1 h
    obtain rfl := hparts.unique hothers
    exact bodyStartLine_of_isOf hothers hmetadata
  lengthened metadata body h parts hparts hends behind := by
    obtain ⟨others, hothers, hmetadata, hbody⟩ := split_eq_some_iff.1 h
    obtain rfl := hparts.unique hothers
    have hlonger := hothers.append hends behind.toList
    rw [← String.toList_append] at hlonger
    constructor
    · exact split_eq_some_iff.2 ⟨_, hlonger, hmetadata, by rw [hbody, String.toList_append]⟩
    · rw [bodyStartLine_of_isOf hlonger hmetadata, bodyStartLine_of_isOf hothers hmetadata]

end BoundFields.FrontMatter
