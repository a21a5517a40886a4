import BoundFields.Proofs.Scan.Run
import BoundFields.Proofs.Text.Trim

/-!
# Fenced blocks

A block that is opened by three marks is passed over as a whole: it has at most the one declaration
that it is, and the text behind it is scanned as if it stood alone (`Block.isPassedOver_of_three`).
Marks beyond the third count as the info string of the opening line, while the closing line may have
three only. So a block of more marks is not closed by its own closing line, and hides what stands
behind it (`Block.Precedes.scan_of_more`, `Block.isPassedOver_iff`).
-/

set_option autoImplicit false

namespace BoundFields.Scan

open FrontMatter

/-- A fenced block: some marks and an info string, lines that do not start with the mark, and as
many marks again. -/
structure Block where
  count : Nat
  mark : Char
  info : List Char
  content : List (List Char)
  enough : 3 ≤ count
  isMark : mark = spanMark ∨ mark = '~'
  unmarkedInfo : mark ∉ info
  unmarkedContent : ∀ line ∈ content, (Text.trimStart line).head? ≠ some mark
  /-- The info string belongs to one line, and so does each line of the content. -/
  feedless : ∀ line ∈ info :: content, '\n' ∉ line

namespace Block

/-- The lines of the block. -/
def lines (b : Block) : List (List Char) :=
  (List.replicate b.count b.mark ++ b.info) :: (b.content ++ [List.replicate b.count b.mark])

/-- The declaration that a block is at the start of a document. -/
def site? (b : Block) : Option Site :=
  let content := Text.trim (Text.unlines b.content)
  if Text.trim b.info = blockLanguage ∧ isCandidate content = true then
    some ⟨String.ofList content, .codeBlock, 2⟩
  else none

/-- The document is made of the lines of the block and those of the rest. -/
def Precedes (b : Block) (rest document : String) : Prop :=
  Text.lines document.toList = b.lines ++ Text.lines rest.toList

/-- A document that starts with the block has the declaration that the block is, and those of the
rest. -/
def IsPassedOver (b : Block) : Prop :=
  ∀ rest document : String, b.Precedes rest document → ¬ HasOpening rest.toList →
    scan document = b.site?.toList ++ (scan rest).map (Site.down b.lines.length)

/-! ## The lines of a block -/

theorem isBlank_mark (b : Block) : Text.isBlank b.mark = false := by
  rcases b.isMark with h | h <;> rw [h] <;> decide

theorem mark_ne (b : Block) {c : Char} (hspan : spanMark ≠ c) (htilde : '~' ≠ c) : b.mark ≠ c := by
  rcases b.isMark with h | h
  · rwa [h]
  · rwa [h]

theorem exists_count (b : Block) : ∃ more, b.count = more + 3 :=
  ⟨b.count - 3, (Nat.sub_add_cancel b.enough).symm⟩

/-- What the opening line opens. The marks beyond the third belong to the info string. -/
theorem open?_opening (b : Block) {more : Nat} (hcount : b.count = more + 3) (number : Nat) :
    Fence.open? number (Text.trimStart (List.replicate b.count b.mark ++ b.info)) =
      some ⟨List.replicate 3 b.mark,
        Text.trim (List.replicate more b.mark ++ b.info) = blockLanguage, number + 1, []⟩ := by
  have hline : List.replicate b.count b.mark ++ b.info =
      List.replicate 3 b.mark ++ (List.replicate more b.mark ++ b.info) := by
    rw [hcount, Nat.add_comm, List.replicate_add, List.append_assoc]
  have htrim : Text.trimStart (List.replicate b.count b.mark ++ b.info) =
      List.replicate 3 b.mark ++ (List.replicate more b.mark ++ b.info) := by
    rw [hline]
    exact Text.trimStart_cons_of_not_blank b.isBlank_mark
  rw [htrim]
  rcases b.isMark with h | h <;> rw [h] <;> rfl

/-- Marks in the info string make a block that is no declaration. -/
theorem trim_marks_ne (b : Block) {more : Nat} (hmore : more ≠ 0) :
    Text.trim (List.replicate more b.mark ++ b.info) ≠ blockLanguage := by
  obtain ⟨fewer, rfl⟩ := Nat.exists_eq_succ_of_ne_zero hmore
  rw [List.replicate_succ, List.cons_append, Text.trim,
    Text.trimStart_cons_of_not_blank b.isBlank_mark]
  intro h
  rw [← List.nil_append (b.mark :: _), Text.trimEnd_append_cons b.isBlank_mark] at h
  have hmark : b.mark = 'm' := Option.some.inj (congrArg List.head? h)
  exact b.mark_ne (by decide) (by decide) hmark

theorem isClosedBy_eq_false_of_head? {f : Fence} {mark : Char} {trimmed : List Char}
    (hmarker : f.marker.head? = some mark) (h : trimmed.head? ≠ some mark) :
    f.isClosedBy trimmed = false := by
  cases hdrop : Text.dropPrefix? f.marker trimmed with
  | none => rw [Fence.isClosedBy, hdrop, Option.isSome_none, Bool.false_and]
  | some rest =>
    rw [Text.dropPrefix?_eq_some_iff.1 hdrop, List.head?_append, hmarker] at h
    exact absurd rfl h

/-- The closing line closes a block of three marks only. -/
theorem isClosedBy_closing (b : Block) {f : Fence} (hmarker : f.marker = List.replicate 3 b.mark) :
    f.isClosedBy (Text.trimStart (List.replicate b.count b.mark)) = true ↔ b.count = 3 := by
  obtain ⟨more, hcount⟩ := b.exists_count
  have hfirst : List.replicate b.count b.mark = b.mark :: List.replicate (more + 2) b.mark := by
    rw [hcount]
    rfl
  have hlast : List.replicate b.count b.mark = List.replicate (more + 2) b.mark ++ [b.mark] := by
    rw [hcount]
    exact List.replicate_succ'
  have hstart : Text.trimStart (List.replicate b.count b.mark) = List.replicate b.count b.mark := by
    rw [hfirst]
    exact Text.trimStart_cons_of_not_blank b.isBlank_mark
  have hend : Text.trimEnd (List.replicate b.count b.mark) = List.replicate b.count b.mark := by
    rw [hlast]
    exact Text.trimEnd_concat_of_not_blank b.isBlank_mark _
  rw [hstart, Fence.isClosedBy, hend, hmarker, Bool.and_eq_true, decide_eq_true_eq]
  -- The line starts with the marker in any case, and equals it if it is no longer.
  constructor
  · rintro ⟨-, h⟩
    have hlength := congrArg List.length h
    rwa [List.length_replicate, List.length_replicate] at hlength
  · intro h
    rw [h]
    exact ⟨by rw [Text.dropPrefix?_eq_some_iff.2 (List.append_nil _).symm]; rfl, rfl⟩

/-! ## Within a block -/

theorem foldl_extend (f : Fence) (inside : List (List Char)) :
    inside.foldl Fence.extend f =
      if f.isDeclaration then { f with content := f.content ++ Text.unlines inside } else f := by
  induction inside generalizing f with
  | nil => simp [Text.unlines]
  | cons line more ih =>
    rw [List.foldl_cons, ih]
    cases hf : f.isDeclaration with
    | true => simp [Fence.extend, hf, Text.unlines]
    | false => simp [Fence.extend, hf]

theorem isClosedBy_extend (f : Fence) (line trimmed : List Char) :
    (f.extend line).isClosedBy trimmed = f.isClosedBy trimmed := by
  rw [extend_eq]
  rfl

/-- Lines that do not close a block belong to it, and nothing is found on them. -/
theorem scanLines_of_not_closed {f : Fence} {inside : List (List Char)}
    (h : ∀ line ∈ inside, f.isClosedBy (Text.trimStart line) = false) (number : Nat)
    (behind : List (List Char)) :
    scanLines (some f) number (inside ++ behind) =
      scanLines (some (inside.foldl Fence.extend f)) (number + inside.length) behind := by
  induction inside generalizing f number with
  | nil => rfl
  | cons line more ih =>
    rw [List.forall_mem_cons] at h
    have hmore : ∀ other ∈ more, (f.extend line).isClosedBy (Text.trimStart other) = false := by
      intro other hother
      rw [isClosedBy_extend, h.2 other hother]
    rw [List.cons_append, scanLines, h.1, if_neg Bool.false_ne_true, ih hmore, List.foldl_cons,
      List.length_cons, Nat.add_assoc, Nat.add_comm 1]

/-! ## Documents that start with a block -/

/-- The block as it stands open behind its content. -/
def fence (b : Block) (isDeclaration : Bool) : Fence :=
  ⟨List.replicate 3 b.mark, isDeclaration, 2, if isDeclaration then Text.unlines b.content else []⟩

theorem Precedes.not_hasOpening {b : Block} {rest document : String}
    (h : b.Precedes rest document) : ¬ HasOpening document.toList := by
  obtain ⟨more, hcount⟩ := b.exists_count
  intro hopening
  have hfirst := head?_lines_of_hasOpening hopening
  rw [h, lines, hcount] at hfirst
  have hmark : b.mark = '-' := (List.cons.inj (Option.some.inj hfirst)).1
  exact b.mark_ne (by decide) (by decide) hmark

/-- The scan up to the closing line. -/
theorem Precedes.scan_eq {b : Block} {rest document : String} (h : b.Precedes rest document)
    {more : Nat} (hcount : b.count = more + 3) :
    scan document =
      scanLines
        (some (b.fence (Text.trim (List.replicate more b.mark ++ b.info) = blockLanguage)))
        (2 + b.content.length)
        (List.replicate b.count b.mark :: Text.lines rest.toList) := by
  have hopened (inside : List (List Char)) :
      scanLines none 1 ((List.replicate b.count b.mark ++ b.info) :: inside) =
        scanLines (some ⟨List.replicate 3 b.mark,
          Text.trim (List.replicate more b.mark ++ b.info) = blockLanguage, 2, []⟩) 2 inside := by
    rw [scanLines, b.open?_opening hcount]
  -- No line of the content closes the block, whatever the block has taken in before it.
  have hcontent : ∀ line ∈ b.content, ∀ f : Fence, f.marker = List.replicate 3 b.mark →
      f.isClosedBy (Text.trimStart line) = false := by
    intro line hline f hmarker
    have hmark : f.marker.head? = some b.mark := by
      rw [hmarker]
      rfl
    exact isClosedBy_eq_false_of_head? hmark (b.unmarkedContent line hline)
  rw [scan_of_not_hasOpening h.not_hasOpening, h, lines, List.cons_append, hopened,
    List.append_assoc, List.singleton_append,
    scanLines_of_not_closed fun line hline => hcontent line hline _ rfl, foldl_extend]
  simp only [fence, List.nil_append]
  split
  · rfl
  · rfl

theorem site?_fence (b : Block) :
    (b.fence (Text.trim b.info = blockLanguage)).site? = b.site? := by
  unfold site? Fence.site? fence
  by_cases h : Text.trim b.info = blockLanguage
  · simp [h]
  · simp [h]

theorem length_lines (b : Block) : b.lines.length = b.content.length + 2 := by
  rw [lines, List.length_cons, List.length_append, List.length_singleton]

/-- A block of three marks is passed over. -/
theorem isPassedOver_of_three {b : Block} (hthree : b.count = 3) : b.IsPassedOver := by
  intro rest document h hrest
  have hcount : b.count = 0 + 3 := hthree
  have hclosed := (b.isClosedBy_closing (f := b.fence (Text.trim b.info = blockLanguage)) rfl).2
    hthree
  rw [h.scan_eq hcount, List.replicate_zero, List.nil_append, scanLines, if_pos hclosed,
    b.site?_fence, scan_of_not_hasOpening hrest, ← scanLines_down, Option.map_none, b.length_lines]
  congr 2
  omega

/-- A block of more marks stays open behind its closing line, and is no declaration. -/
theorem Precedes.scan_of_more {b : Block} {rest document : String} (h : b.Precedes rest document)
    (hmore : b.count ≠ 3) :
    scan document =
      scanLines (some (b.fence false)) (1 + b.lines.length) (Text.lines rest.toList) := by
  obtain ⟨more, hcount⟩ := b.exists_count
  have hinfo : Text.trim (List.replicate more b.mark ++ b.info) ≠ blockLanguage :=
    b.trim_marks_ne (by omega)
  have hopen : (b.fence false).isClosedBy
      (Text.trimStart (List.replicate b.count b.mark)) = false := by
    rw [← Bool.not_eq_true, b.isClosedBy_closing rfl]
    exact hmore
  rw [h.scan_eq hcount, decide_eq_false hinfo, scanLines, hopen, if_neg Bool.false_ne_true,
    b.length_lines]
  congr 1
  omega

theorem exists_precedes (b : Block) (rest : String) : ∃ document, b.Precedes rest document := by
  have hmarks : '\n' ∉ List.replicate b.count b.mark := by
    intro h
    exact b.mark_ne (by decide) (by decide) (List.eq_of_mem_replicate h).symm
  obtain ⟨hinfo, hcontent⟩ := List.forall_mem_cons.1 b.feedless
  have hlines : ∀ line ∈ b.lines, '\n' ∉ line := by
    intro line hline
    rw [lines, List.mem_cons, List.mem_append, List.mem_singleton] at hline
    rcases hline with rfl | hline | rfl
    · exact fun h => (List.mem_append.1 h).elim hmarks hinfo
    · exact hcontent line hline
    · exact hmarks
  obtain ⟨cs, hcs⟩ := Text.exists_lines_append hlines rest.toList
  exact ⟨String.ofList cs, by rw [Precedes, String.toList_ofList, hcs]⟩

/-- A text with a declaration, which closes no block. -/
def mention : String := "See `INPUT[toggle]`"

theorem scan_mention : scan mention = [⟨"INPUT[toggle]", .inline, 1⟩] := by decide +kernel

/-- Exactly the blocks of three marks are passed over. -/
theorem isPassedOver_iff (b : Block) : b.IsPassedOver ↔ b.count = 3 := by
  constructor
  · intro h
    by_contra hmore
    obtain ⟨document, hdocument⟩ := b.exists_precedes mention
    have hfound := h mention document hdocument (by
      rw [← opening?_eq_none_iff]
      decide +kernel)
    have hopen : (b.fence false).isClosedBy (Text.trimStart mention.toList) = false := by
      have hmark : (b.fence false).marker.head? = some b.mark := rfl
      refine isClosedBy_eq_false_of_head? hmark ?_
      rcases b.isMark with hcase | hcase <;> rw [hcase] <;> decide +kernel
    have hlines : Text.lines mention.toList = [mention.toList] := by decide +kernel
    -- What the text mentions is lost in the block, which is still open.
    rw [hdocument.scan_of_more hmore, hlines, scanLines, hopen, if_neg Bool.false_ne_true,
      scanLines, scan_mention] at hfound
    exact List.append_ne_nil_of_right_ne_nil _ (List.cons_ne_nil _ _) hfound.symm
  · exact isPassedOver_of_three

/-- A block that shows how a field is written. -/
def shownBlock : Block where
  count := 3
  mark := '~'
  info := "text".toList
  content := ["INPUT[toggle]".toList, "  ```".toList]
  enough := Nat.le_refl 3
  isMark := .inr rfl
  unmarkedInfo := by decide
  unmarkedContent := by decide
  feedless := by decide

/-- The lines of a block may end in any way, and its content may look like another block. -/
theorem isPassedOver_shownBlock :
    shownBlock.count = 3 ∧
      shownBlock.Precedes mention "~~~text\r\nINPUT[toggle]\n  ```\n~~~\r\nSee `INPUT[toggle]`" ∧
      scan "~~~text\r\nINPUT[toggle]\n  ```\n~~~\r\nSee `INPUT[toggle]`" =
        [⟨"INPUT[toggle]", .inline, 5⟩] := by
  have hprecedes : shownBlock.Precedes mention
      "~~~text\r\nINPUT[toggle]\n  ```\n~~~\r\nSee `INPUT[toggle]`" := by
    unfold Precedes
    decide +kernel
  have hmention : ¬ HasOpening mention.toList := by
    rw [← opening?_eq_none_iff]
    decide +kernel
  have hscan := (isPassedOver_iff shownBlock).2 rfl mention _ hprecedes hmention
  rw [scan_mention] at hscan
  exact ⟨rfl, hprecedes, hscan⟩

/-- A block of four marks with nothing in it. -/
def emptyBlock : Block where
  count := 4
  mark := spanMark
  info := []
  content := []
  enough := by decide
  isMark := .inl rfl
  unmarkedInfo := List.not_mem_nil
  unmarkedContent := fun _ h => absurd h List.not_mem_nil
  feedless := by decide

/-- What stands behind an empty block can be hidden by it. -/
theorem exists_not_isPassedOver :
    ¬ ∀ (b : Block) (rest document : String), b.Precedes rest document →
      ¬ HasOpening rest.toList →
      scan document = b.site?.toList ++ (scan rest).map (Site.down b.lines.length) := by
  intro hall
  have hfound := hall emptyBlock "`INPUT[toggle]`\n" "````\n````\n`INPUT[toggle]`\n"
    (by unfold Precedes; decide +kernel) (by rw [← opening?_eq_none_iff]; decide +kernel)
  exact absurd hfound (by decide +kernel)

end Block

end BoundFields.Scan
