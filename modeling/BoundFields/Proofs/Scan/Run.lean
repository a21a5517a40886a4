import BoundFields.Proofs.Metadata.Splitting
import BoundFields.Scan

/-!
# The scan line by line

A line ends some declarations (`sitesOn`) and leaves a block open behind it or none (`openBehind`),
and that is all that the scan of the lines behind it depends on (`scanLines_cons`). So a scan can be
cut anywhere (`scanLines_append`). Where in the document the lines stand changes nothing but the
numbers of the declarations (`scanLines_down`), which are found in the order of their numbers
(`ordered_scanLines`).
-/

set_option autoImplicit false

namespace BoundFields

/-- The same declaration some lines further down. -/
def Site.down (count : Nat) (site : Site) : Site := { site with line := site.line + count }

namespace Scan

/-- The same block some lines further down. -/
def Fence.down (count : Nat) (f : Fence) : Fence := { f with startLine := f.startLine + count }

/-- The declarations that a line ends, with the block that is open before it. -/
def sitesOn : Option Fence → Nat → List Char → List Site
  | some f, _, line => if f.isClosedBy (Text.trimStart line) then f.site?.toList else []
  | none, number, line =>
      if (Fence.open? number (Text.trimStart line)).isSome then [] else inlineSites number line

/-- The block that is open behind a line, with the block that is open before it. -/
def openBehind : Option Fence → Nat → List Char → Option Fence
  | some f, _, line => if f.isClosedBy (Text.trimStart line) then none else some (f.extend line)
  | none, number, line => Fence.open? number (Text.trimStart line)

/-- The block that is open behind a run of lines. -/
def openAfter : Option Fence → Nat → List (List Char) → Option Fence
  | before, _, [] => before
  | before, number, line :: more => openAfter (openBehind before number line) (number + 1) more

/-- The block that is open at the end of a document. -/
def openAtEnd (document : String) : Option Fence :=
  let start := FrontMatter.bodyStartLine document
  openAfter none start ((Text.lines document.toList).drop (start - 1))

/-! ## One line -/

theorem scanLines_cons (before : Option Fence) (number : Nat) (line : List Char)
    (more : List (List Char)) :
    scanLines before number (line :: more) =
      sitesOn before number line ++
        scanLines (openBehind before number line) (number + 1) more := by
  cases before with
  | some f =>
    rw [scanLines, sitesOn, openBehind]
    split
    · rfl
    · rfl
  | none =>
    rw [scanLines, sitesOn, openBehind]
    cases Fence.open? number (Text.trimStart line) with
    | some f => rfl
    | none => rfl

theorem site?_eq_some_iff {f : Fence} {site : Site} :
    f.site? = some site ↔ f.isDeclaration = true ∧ isCandidate (Text.trim f.content) = true ∧
      site = ⟨String.ofList (Text.trim f.content), .codeBlock, f.startLine⟩ := by
  simp only [Fence.site?, Bool.and_eq_true]
  split
  · next h => simp [h, eq_comm]
  · next h => simpa using fun hdeclaration hcandidate => absurd ⟨hdeclaration, hcandidate⟩ h

theorem mem_inlineSites_iff {number : Nat} {line : List Char} {site : Site} :
    site ∈ inlineSites number line ↔ ∃ span ∈ codeSpans line,
      isCandidate (Text.trim span) = true ∧
        site = ⟨String.ofList (Text.trim span), .inline, number⟩ := by
  unfold inlineSites
  rw [List.mem_filterMap]
  refine exists_congr fun span => and_congr_right fun _ => ?_
  rw [Option.ite_none_right_eq_some, Option.some.injEq, @eq_comm _ site]

/-- A declaration is a block that is closed or a code span. -/
theorem mem_sitesOn {before : Option Fence} {number : Nat} {line : List Char} {site : Site}
    (h : site ∈ sitesOn before number line) :
    (∃ f, before = some f ∧ f.isClosedBy (Text.trimStart line) = true ∧ f.site? = some site) ∨
      before = none ∧ site ∈ inlineSites number line := by
  cases before with
  | some f =>
    rw [sitesOn] at h
    split at h
    · next hclosed => exact .inl ⟨f, rfl, hclosed, Option.mem_toList.1 h⟩
    · cases h
  | none =>
    rw [sitesOn] at h
    split at h
    · cases h
    · exact .inr ⟨rfl, h⟩

theorem exists_of_open? {number : Nat} {trimmed : List Char} {f : Fence}
    (h : Fence.open? number trimmed = some f) :
    ∃ marker ∈ fenceMarks, ∃ info, trimmed = marker ++ info ∧
      f = ⟨marker, Text.trim info = blockLanguage, number + 1, []⟩ := by
  obtain ⟨marker, hmarker, hf⟩ := List.exists_of_findSome?_eq_some h
  obtain ⟨info, hinfo, rfl⟩ := Option.map_eq_some_iff.1 hf
  exact ⟨marker, hmarker, info, Text.dropPrefix?_eq_some_iff.1 hinfo, rfl⟩

/-- A block that is open behind a line was open before it or is opened by it. -/
theorem openBehind_cases {before : Option Fence} {number : Nat} {line : List Char} {f : Fence}
    (h : openBehind before number line = some f) :
    (∃ g, before = some g ∧ f = g.extend line) ∨
      before = none ∧ f.startLine = number + 1 ∧ f.content = [] := by
  cases before with
  | some g =>
    rw [openBehind] at h
    split at h
    · cases h
    · exact .inl ⟨g, rfl, (Option.some.inj h).symm⟩
  | none =>
    obtain ⟨marker, -, info, -, rfl⟩ := exists_of_open? h
    exact .inr ⟨rfl, rfl, rfl⟩

/-- A line that a block takes in changes nothing of it but its content. -/
theorem extend_eq (f : Fence) (line : List Char) :
    f.extend line =
      { f with content := if f.isDeclaration then f.content ++ line ++ ['\n'] else f.content } := by
  obtain ⟨marker, isDeclaration, startLine, content⟩ := f
  cases isDeclaration with
  | true => rfl
  | false => rfl

theorem startLine_extend (f : Fence) (line : List Char) :
    (f.extend line).startLine = f.startLine := by
  rw [extend_eq]

/-! ## Runs of lines -/

theorem scanLines_append (before : Option Fence) (number : Nat) (front back : List (List Char)) :
    scanLines before number (front ++ back) = scanLines before number front ++
      scanLines (openAfter before number front) (number + front.length) back := by
  -- The block that is open changes with every line, and so does the number.
  induction front generalizing before number with
  | nil => rfl
  | cons line more ih =>
    rw [List.cons_append, scanLines_cons, scanLines_cons, ih, openAfter, List.length_cons,
      List.append_assoc, Nat.add_assoc, Nat.add_comm 1]

/-! ## Lines further down -/

theorem open?_down (count number : Nat) (trimmed : List Char) :
    Fence.open? (number + count) trimmed = (Fence.open? number trimmed).map (Fence.down count) := by
  unfold Fence.open?
  rw [List.map_findSome?]
  congr 1
  funext marker
  rw [Function.comp_apply, Option.map_map]
  congr 1
  funext info
  simp only [Function.comp_apply, Fence.down, Nat.add_right_comm]

theorem inlineSites_down (count number : Nat) (line : List Char) :
    inlineSites (number + count) line = (inlineSites number line).map (Site.down count) := by
  simp only [inlineSites, List.map_filterMap]
  congr 1
  funext span
  cases isCandidate (Text.trim span) with
  | true => rfl
  | false => rfl

theorem isClosedBy_down (count : Nat) (f : Fence) (trimmed : List Char) :
    (f.down count).isClosedBy trimmed = f.isClosedBy trimmed := rfl

theorem site?_down (count : Nat) (f : Fence) :
    (f.down count).site? = f.site?.map (Site.down count) := by
  simp only [Fence.site?, apply_ite (Option.map (Site.down count))]
  rfl

theorem extend_down (count : Nat) (f : Fence) (line : List Char) :
    (f.down count).extend line = (f.extend line).down count := by
  rw [extend_eq, extend_eq]
  rfl

theorem sitesOn_down (count : Nat) (before : Option Fence) (number : Nat) (line : List Char) :
    sitesOn (before.map (Fence.down count)) (number + count) line =
      (sitesOn before number line).map (Site.down count) := by
  cases before with
  | some f =>
    simp only [Option.map_some, sitesOn, site?_down, Option.toList_map]
    rw [isClosedBy_down]
    cases f.isClosedBy (Text.trimStart line) with
    | true => rfl
    | false => rfl
  | none =>
    simp only [Option.map_none, sitesOn, open?_down, Option.isSome_map, inlineSites_down]
    cases (Fence.open? number (Text.trimStart line)).isSome with
    | true => rfl
    | false => rfl

theorem openBehind_down (count : Nat) (before : Option Fence) (number : Nat) (line : List Char) :
    openBehind (before.map (Fence.down count)) (number + count) line =
      (openBehind before number line).map (Fence.down count) := by
  cases before with
  | some f =>
    simp only [Option.map_some, openBehind, extend_down]
    rw [isClosedBy_down]
    cases f.isClosedBy (Text.trimStart line) with
    | true => rfl
    | false => rfl
  | none => exact open?_down count number (Text.trimStart line)

/-- Lines that stand further down have their declarations further down. -/
theorem scanLines_down (count : Nat) (before : Option Fence) (number : Nat)
    (lines : List (List Char)) :
    scanLines (before.map (Fence.down count)) (number + count) lines =
      (scanLines before number lines).map (Site.down count) := by
  induction lines generalizing before number with
  | nil => rw [scanLines, scanLines, List.map_nil]
  | cons line more ih =>
    rw [scanLines_cons, scanLines_cons, List.map_append, sitesOn_down, openBehind_down,
      Nat.add_right_comm, ih]

/-! ## The order of the declarations -/

/-- The first line that a declaration can still be found on. -/
def earliest : Option Fence → Nat → Nat
  | some f, _ => f.startLine
  | none, number => number

theorem line_of_mem_sitesOn {before : Option Fence} {number : Nat} {line : List Char} {site : Site}
    (h : site ∈ sitesOn before number line) : site.line = earliest before number := by
  rcases mem_sitesOn h with ⟨f, rfl, -, hsite⟩ | ⟨rfl, hsite⟩
  · obtain ⟨-, -, rfl⟩ := site?_eq_some_iff.1 hsite
    rfl
  · obtain ⟨span, -, -, rfl⟩ := mem_inlineSites_iff.1 hsite
    rfl

/-- A line moves the first line that a declaration can still be found on down, and not beyond the
next line. -/
theorem earliest_openBehind {before : Option Fence} {number : Nat}
    (h : earliest before number ≤ number) (line : List Char) :
    earliest before number ≤ earliest (openBehind before number line) (number + 1) ∧
      earliest (openBehind before number line) (number + 1) ≤ number + 1 := by
  cases hbehind : openBehind before number line with
  | none => exact ⟨Nat.le_succ_of_le h, Nat.le_refl _⟩
  | some f =>
    rcases openBehind_cases hbehind with ⟨g, rfl, rfl⟩ | ⟨rfl, hstart, -⟩
    · rw [earliest, earliest, startLine_extend]
      exact ⟨Nat.le_refl _, Nat.le_succ_of_le h⟩
    · rw [earliest, earliest, hstart]
      exact ⟨Nat.le_succ number, Nat.le_refl _⟩

/-- Declarations are found in the order of their lines. -/
theorem ordered_scanLines {before : Option Fence} {number : Nat}
    (h : earliest before number ≤ number) (lines : List (List Char)) :
    (∀ site ∈ scanLines before number lines, earliest before number ≤ site.line) ∧
      (scanLines before number lines).Pairwise (·.line ≤ ·.line) := by
  induction lines generalizing before number with
  | nil => exact ⟨fun _ hsite => absurd hsite (by simp [scanLines]), by simp [scanLines]⟩
  | cons line more ih =>
    obtain ⟨hbefore, hnumber⟩ := earliest_openBehind h line
    obtain ⟨hmore, hordered⟩ := ih hnumber
    rw [scanLines_cons, List.forall_mem_append, List.pairwise_append]
    -- The bound holds of this line and of the others, and so does the order; what is left is that
    -- the declarations of this line do not stand behind those of the others.
    refine ⟨⟨fun site hsite => ?_, fun site hsite => ?_⟩, ?_, hordered, ?_⟩
    · exact Nat.le_of_eq (line_of_mem_sitesOn hsite).symm
    · exact Nat.le_trans hbefore (hmore site hsite)
    · refine List.pairwise_of_forall_mem_list fun first hfirst second hsecond => ?_
      exact Nat.le_of_eq ((line_of_mem_sitesOn hfirst).trans (line_of_mem_sitesOn hsecond).symm)
    · intro first hfirst second hsecond
      rw [line_of_mem_sitesOn hfirst]
      exact Nat.le_trans hbefore (hmore second hsecond)

/-! ## Documents -/

theorem scan_of_not_hasOpening {document : String}
    (h : ¬ FrontMatter.HasOpening document.toList) :
    scan document = scanLines none 1 (Text.lines document.toList) := by
  simp only [scan, FrontMatter.bodyStartLine_of_not_hasOpening h, Nat.sub_self, List.drop_zero]

theorem openAtEnd_of_not_hasOpening {document : String}
    (h : ¬ FrontMatter.HasOpening document.toList) :
    openAtEnd document = openAfter none 1 (Text.lines document.toList) := by
  simp only [openAtEnd, FrontMatter.bodyStartLine_of_not_hasOpening h, Nat.sub_self, List.drop_zero]

end Scan

end BoundFields
