import BoundFields.Proofs.Scan.Run
import BoundFields.Proofs.Text.Trim

/-!
# Where declarations stand

A block that is open holds the lines behind its opening one, and knows the number of the first of
them (`Fence.HoldsFrom`). So a declaration that is a block stands on the first of its lines that is
not blank, while a declaration in a code span stands on the line that it was found on
(`Site.StandsIn`). The number of a declaration is right exactly if the line with that number is not
blank (`isNumbered_iff`).
-/

set_option autoImplicit false

namespace BoundFields

/-- The text starts and ends like a declaration, and has no blanks at either end. -/
structure Site.HasForm (site : Site) : Prop where
  starts : "INPUT[".toList <+: site.text.toList
  ends : site.text.toList.getLast? = some ']'
  trimmed : Text.trim site.text.toList = site.text.toList

/-- The first line of the declaration's text is a part of this line. -/
def Site.BeginsOn (site : Site) (line : List Char) : Prop :=
  ∃ first, (Text.lines site.text.toList).head? = some first ∧ first <:+: line

/-- The declaration stands in the lines of a document where its number says, or, if it is a block,
behind the blank lines that start there. -/
def Site.StandsIn (site : Site) (lines : List (List Char)) : Prop :=
  ∃ (before blanks : List (List Char)) (line : List Char) (behind : List (List Char)),
    lines = before ++ (blanks ++ line :: behind) ∧ site.line = before.length + 1 ∧
      (∀ blank ∈ blanks, Text.isBlankText blank = true) ∧ (site.kind = .inline → blanks = []) ∧
      site.BeginsOn line

theorem Site.StandsIn.append {site : Site} {lines : List (List Char)} (h : site.StandsIn lines)
    (more : List (List Char)) : site.StandsIn (lines ++ more) := by
  obtain ⟨before, blanks, line, behind, rfl, hrest⟩ := h
  exact ⟨before, blanks, line, behind ++ more, by simp, hrest⟩

/-- A line with the start of a declaration is not blank. -/
theorem Site.BeginsOn.not_blank {site : Site} (hform : site.HasForm) {line : List Char}
    (h : site.BeginsOn line) : Text.isBlankText line = false := by
  obtain ⟨first, hfirst, hline⟩ := h
  obtain ⟨more, hmore⟩ := hform.starts
  have hhead : first.head? = some 'I' := by
    rw [← hmore] at hfirst
    exact Text.head?_of_head?_lines hfirst (by decide) (by decide)
  rw [← Bool.not_eq_true]
  intro hblank
  have hmem := hline.subset (List.mem_of_mem_head? (Option.mem_def.2 hhead))
  exact absurd (List.all_eq_true.1 hblank _ hmem) (by decide)

namespace Scan

/-! ## Code spans -/

theorem mem_of_mem_spans {pieces : List (List Char)} {span : List Char}
    (h : span ∈ spans pieces) : span ∈ pieces := by
  fun_induction spans pieces with
  | case1 inside outside more hempty ih => exact List.mem_cons_of_mem _ (ih h)
  | case2 inside outside more hfilled ih =>
    rcases List.mem_cons.1 h with rfl | hmore
    · exact List.mem_cons_self
    · exact List.mem_cons_of_mem _ (List.mem_cons_of_mem _ (ih hmore))
  | case3 => cases h

/-- A code span is a part of its line. -/
theorem isInfix_of_mem_codeSpans {line span : List Char} (h : span ∈ codeSpans line) :
    span <:+: line := by
  have hmem := mem_of_mem_spans h
  cases hpieces : line.splitOn spanMark with
  | nil =>
    rw [hpieces] at hmem
    cases hmem
  | cons first others =>
    rw [hpieces] at hmem
    exact (Text.splitOn_isInfix hpieces).2 span hmem

/-! ## Candidates -/

theorem trim_isPrefix (cs : List Char) : Text.trim cs <+: Text.trimStart cs := by
  obtain ⟨blanks, -, hcs⟩ := Text.exists_eq_trimEnd (Text.trimStart cs)
  exact ⟨blanks, hcs.symm⟩

theorem trimStart_isSuffix (cs : List Char) : Text.trimStart cs <:+ cs := by
  obtain ⟨blanks, -, hcs⟩ := Text.exists_eq_trimStart cs
  exact ⟨blanks, hcs.symm⟩

theorem hasForm_of_isCandidate {cs : List Char} (h : isCandidate (Text.trim cs) = true)
    (kind : SiteKind) (line : Nat) :
    Site.HasForm ⟨String.ofList (Text.trim cs), kind, line⟩ := by
  simp only [isCandidate, Bool.and_eq_true, Option.isSome_iff_exists, decide_eq_true_eq] at h
  obtain ⟨⟨rest, hrest⟩, hlast⟩ := h
  refine ⟨?_, ?_, ?_⟩
  · exact ⟨rest, (Text.dropPrefix?_eq_some_iff.1 hrest).symm.trans String.toList_ofList.symm⟩
  · rw [String.toList_ofList, hlast]
  · rw [String.toList_ofList, Text.trim_trim]

theorem ne_nil_of_isCandidate {cs : List Char} (h : isCandidate cs = true) : cs ≠ [] := by
  rintro rfl
  exact absurd h (by decide)

/-! ## The content of blocks -/

/-- The leading blanks of some lines are the blank ones in front, and those of the first line that
is not blank. -/
theorem exists_trimStart_unlines {inside : List (List Char)}
    (h : Text.isBlankText (Text.unlines inside) = false) :
    ∃ blanks line behind, inside = blanks ++ line :: behind ∧
      (∀ blank ∈ blanks, Text.isBlankText blank = true) ∧
      Text.trimStart (Text.unlines inside) =
        Text.trimStart line ++ '\n' :: Text.unlines behind := by
  induction inside with
  | nil => cases h
  | cons line more ih =>
    have hcons : Text.unlines (line :: more) = line ++ ['\n'] ++ Text.unlines more := rfl
    cases hline : Text.isBlankText line with
    | false =>
      refine ⟨[], line, more, rfl, fun _ hmem => absurd hmem List.not_mem_nil, ?_⟩
      rw [hcons, List.append_assoc, Text.trimStart_append_of_not_blank hline]
      rfl
    | true =>
      have hfeed : Text.isBlankText (line ++ ['\n']) = true := by
        rw [Text.isBlankText_append, hline]
        rfl
      rw [hcons, Text.isBlankText_append, hfeed, Bool.true_and] at h
      obtain ⟨blanks, first, behind, rfl, hblanks, htrim⟩ := ih h
      refine ⟨line :: blanks, first, behind, rfl, List.forall_mem_cons.2 ⟨hline, hblanks⟩, ?_⟩
      rw [hcons, Text.trimStart_blanks_append hfeed, htrim]

/-- A block that is a declaration stands on the first of its lines that is not blank. -/
theorem exists_beginsOn_of_block {inside : List (List Char)}
    (h : isCandidate (Text.trim (Text.unlines inside)) = true) (startLine : Nat) :
    ∃ blanks line behind, inside = blanks ++ line :: behind ∧
      (∀ blank ∈ blanks, Text.isBlankText blank = true) ∧
      Site.BeginsOn ⟨String.ofList (Text.trim (Text.unlines inside)), .codeBlock, startLine⟩
        line := by
  have hfilled := ne_nil_of_isCandidate h
  have hblank : Text.isBlankText (Text.unlines inside) = false := by
    rw [← Bool.not_eq_true, ← Text.trim_eq_nil_iff]
    exact hfilled
  obtain ⟨blanks, line, behind, hinside, hblanks, htrim⟩ := exists_trimStart_unlines hblank
  obtain ⟨first, hfirst⟩ := Text.exists_head?_lines hfilled
  refine ⟨blanks, line, behind, hinside, hblanks, first, by rw [String.toList_ofList, hfirst], ?_⟩
  -- The first line of the text has no line feed, and so ends where the line of the block does.
  have hprefix : first <+: Text.trimStart line ++ '\n' :: Text.unlines behind := by
    rw [← htrim]
    exact (Text.prefix_of_head?_lines hfirst).trans (trim_isPrefix _)
  have hfeedless := Text.not_mem_of_mem_lines (List.mem_of_mem_head? (Option.mem_def.2 hfirst))
  exact (Text.isPrefix_of_isPrefix_append hprefix hfeedless).isInfix.trans
    (trimStart_isSuffix line).isInfix

/-! ## One line -/

/-- The block was opened by the line before some of these lines, and those are its content. -/
def Fence.HoldsFrom (f : Fence) (seen : List (List Char)) : Prop :=
  ∃ before inside, seen = before ++ inside ∧ f.startLine = before.length + 1 ∧
    (f.isDeclaration = true → f.content = Text.unlines inside)

theorem Fence.HoldsFrom.extend {f : Fence} {seen : List (List Char)} (h : f.HoldsFrom seen)
    (line : List Char) : (f.extend line).HoldsFrom (seen ++ [line]) := by
  obtain ⟨before, inside, rfl, hstart, hcontent⟩ := h
  rw [extend_eq]
  refine ⟨before, inside ++ [line], List.append_assoc _ _ _, hstart, fun hdeclaration => ?_⟩
  simp only at hdeclaration ⊢
  rw [if_pos hdeclaration, hcontent hdeclaration, Text.unlines_concat]

theorem holdsFrom_openBehind {before : Option Fence} {seen : List (List Char)}
    (h : ∀ f, before = some f → f.HoldsFrom seen) (line : List Char) :
    ∀ f, openBehind before (seen.length + 1) line = some f → f.HoldsFrom (seen ++ [line]) := by
  intro f hf
  rcases openBehind_cases hf with ⟨g, hg, rfl⟩ | ⟨-, hstart, hcontent⟩
  · exact (h g hg).extend line
  · refine ⟨seen ++ [line], [], (List.append_nil _).symm, ?_, fun _ => hcontent⟩
    rw [hstart, List.length_append, List.length_singleton]

/-- A declaration stands in the lines that were seen when it was found. -/
theorem standsIn_of_mem_sitesOn {before : Option Fence} {seen : List (List Char)}
    (h : ∀ f, before = some f → f.HoldsFrom seen) {line : List Char} {site : Site}
    (hsite : site ∈ sitesOn before (seen.length + 1) line) :
    site.HasForm ∧ site.StandsIn (seen ++ [line]) := by
  rcases mem_sitesOn hsite with ⟨f, hf, -, hblock⟩ | ⟨-, hinline⟩
  · -- A block was opened further up, and its content is all that was seen since.
    obtain ⟨hdeclaration, hcandidate, rfl⟩ := site?_eq_some_iff.1 hblock
    obtain ⟨front, inside, rfl, hstart, hcontent⟩ := h f hf
    rw [hcontent hdeclaration] at hcandidate ⊢
    obtain ⟨blanks, first, behind, rfl, hblanks, hbegins⟩ :=
      exists_beginsOn_of_block hcandidate f.startLine
    have hkind : SiteKind.codeBlock ≠ .inline := by decide
    refine ⟨hasForm_of_isCandidate hcandidate _ _, Site.StandsIn.append ?_ [line]⟩
    exact ⟨front, blanks, first, behind, rfl, hstart, hblanks, fun h => absurd h hkind, hbegins⟩
  · -- A code span is on this line, with no blank lines in front of it.
    obtain ⟨span, hspan, hcandidate, rfl⟩ := mem_inlineSites_iff.1 hinline
    obtain ⟨first, hfirst⟩ := Text.exists_head?_lines (ne_nil_of_isCandidate hcandidate)
    refine ⟨hasForm_of_isCandidate hcandidate _ _, seen, [], line, [], rfl, rfl,
      fun _ hmem => absurd hmem List.not_mem_nil, fun _ => rfl, first, ?_, ?_⟩
    · rw [String.toList_ofList, hfirst]
    · exact ((Text.prefix_of_head?_lines hfirst).trans (trim_isPrefix span)).isInfix.trans
        ((trimStart_isSuffix span).isInfix.trans (isInfix_of_mem_codeSpans hspan))

/-! ## Documents -/

theorem standsIn_of_mem_scanLines {before : Option Fence} {seen : List (List Char)}
    (h : ∀ f, before = some f → f.HoldsFrom seen) {lines : List (List Char)} {site : Site}
    (hsite : site ∈ scanLines before (seen.length + 1) lines) :
    site.HasForm ∧ site.StandsIn (seen ++ lines) := by
  induction lines generalizing before seen with
  | nil => cases hsite
  | cons line more ih =>
    have hsplit : seen ++ line :: more = seen ++ [line] ++ more := by simp
    rw [scanLines_cons, List.mem_append] at hsite
    rw [hsplit]
    rcases hsite with hhere | hmore
    · obtain ⟨hform, hstands⟩ := standsIn_of_mem_sitesOn h hhere
      exact ⟨hform, hstands.append more⟩
    · refine ih (holdsFrom_openBehind h line) ?_
      rw [List.length_append, List.length_singleton]
      exact hmore

/-- The scan starts behind some of the lines of the document. -/
theorem exists_bodyStartLine_eq (document : String) :
    ∃ count, FrontMatter.bodyStartLine document = count + 1 ∧
      count ≤ (Text.lines document.toList).length := by
  unfold FrontMatter.bodyStartLine
  split
  · exact ⟨0, rfl, Nat.zero_le _⟩
  · next parts hcut =>
    split
    · refine ⟨_, rfl, Nat.le_trans ?_ (Text.count_le_length_lines document.toList)⟩
      rw [← FrontMatter.text_of_cut? hcut]
      exact (List.prefix_append _ parts.body).sublist.count_le '\n'
    · exact ⟨0, rfl, Nat.zero_le _⟩

/-- Every declaration of a document has the form of one, and stands where its number says or behind
the blank lines there. -/
theorem standsIn_of_mem_scan {document : String} {site : Site} (h : site ∈ scan document) :
    site.HasForm ∧ site.StandsIn (Text.lines document.toList) := by
  obtain ⟨count, hstart, hcount⟩ := exists_bodyStartLine_eq document
  have hseen : ((Text.lines document.toList).take count).length = count :=
    List.length_take_of_le hcount
  have hclosed : ∀ f, (none : Option Fence) = some f →
      f.HoldsFrom ((Text.lines document.toList).take count) := by
    rintro f ⟨⟩
  simp only [scan, hstart, Nat.add_sub_cancel] at h
  -- The lines of the front matter count as seen, with no block open behind them.
  rw [← List.take_append_drop count (Text.lines document.toList)]
  refine standsIn_of_mem_scanLines hclosed ?_
  rw [hseen]
  exact h

theorem ordered_scan (document : String) :
    (scan document).Pairwise (·.line ≤ ·.line) :=
  (ordered_scanLines (Nat.le_refl _) _).2

/-- Every declaration has the form of one and a line of the document with its number, on which it
begins exactly if that line is not blank. Declarations come in the order of their numbers. -/
theorem isNumbered_iff (document : String) :
    (∀ site ∈ scan document, site.HasForm ∧ site.StandsIn (Text.lines document.toList) ∧
      ∃ number line, site.line = number + 1 ∧
        (Text.lines document.toList)[number]? = some line ∧
        (site.BeginsOn line ↔ Text.isBlankText line = false)) ∧
      (scan document).Pairwise (·.line ≤ ·.line) := by
  refine ⟨fun site hsite => ?_, ordered_scan document⟩
  obtain ⟨hform, hstands⟩ := standsIn_of_mem_scan hsite
  refine ⟨hform, hstands, ?_⟩
  obtain ⟨before, blanks, line, behind, hlines, hnumber, hblanks, -, hbegins⟩ := hstands
  rw [hlines]
  -- The number is that of the first blank line, or of the declaration if there is none.
  cases blanks with
  | nil =>
    refine ⟨before.length, line, hnumber, by simp, ?_⟩
    exact iff_of_true hbegins (hbegins.not_blank hform)
  | cons blank others =>
    have hblank := hblanks blank List.mem_cons_self
    refine ⟨before.length, blank, hnumber, by simp, ?_⟩
    refine iff_of_false (fun h => ?_) (by simp [hblank])
    rw [h.not_blank hform] at hblank
    cases hblank

/-- The block of a declaration may start with a blank line, which gets the number. -/
theorem exists_not_beginsOn :
    ¬ ∀ (document : String) (site : Site), site ∈ scan document →
      ∃ number line, site.line = number + 1 ∧
        (Text.lines document.toList)[number]? = some line ∧ site.BeginsOn line := by
  intro hall
  have hscan : scan "```meta-bind\n\nINPUT[toggle]\n```\n" =
      [⟨"INPUT[toggle]", .codeBlock, 2⟩] := by
    decide +kernel
  have hsecond : (Text.lines "```meta-bind\n\nINPUT[toggle]\n```\n".toList)[1]? = some [] := by
    decide +kernel
  have hsite := List.mem_singleton_self (⟨"INPUT[toggle]", .codeBlock, 2⟩ : Site)
  rw [← hscan] at hsite
  obtain ⟨hform, -⟩ := standsIn_of_mem_scan hsite
  obtain ⟨number, line, hnumber, hline, hbegins⟩ := hall _ _ hsite
  obtain rfl : 1 = number := Nat.succ.inj hnumber
  obtain rfl : [] = line := Option.some.inj (hsecond.symm.trans hline)
  cases hbegins.not_blank hform

end Scan

end BoundFields
