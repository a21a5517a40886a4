import BoundFields.Proofs.Metadata.FrontMatter
import BoundFields.Proofs.Scan.Run

/-!
# Documents put together

A text whose last line has an end, and which leaves no block open, can be written in front of
another one: its declarations come first, and those of the other one are found as before, only as
many lines further down as there are lines in front of them (`scan_append`). Front matter is such a
text without any declarations (`scan_of_split`).
-/

set_option autoImplicit false

namespace BoundFields.Scan

open FrontMatter

theorem scan_append {front back : String} (hends : Text.EndsAtLine front.toList)
    (hfront : ¬ HasOpening front.toList) (hback : ¬ HasOpening back.toList)
    (hclosed : openAtEnd front = none) :
    scan (front ++ back) =
      scan front ++ (scan back).map (Site.down (Text.lines front.toList).length) := by
  have hboth : ¬ HasOpening (front ++ back).toList := by
    rw [String.toList_append]
    exact not_hasOpening_append hends hfront hback
  rw [openAtEnd_of_not_hasOpening hfront] at hclosed
  calc scan (front ++ back)
      = scanLines none 1 (Text.lines front.toList ++ Text.lines back.toList) := by
        rw [scan_of_not_hasOpening hboth, String.toList_append, Text.lines_append hends]
    _ = scanLines none 1 (Text.lines front.toList) ++
          scanLines none (1 + (Text.lines front.toList).length) (Text.lines back.toList) := by
        rw [scanLines_append, hclosed]
    _ = scan front ++ (scan back).map (Site.down (Text.lines front.toList).length) := by
        rw [scan_of_not_hasOpening hfront, scan_of_not_hasOpening hback, ← scanLines_down,
          Option.map_none]

/-- The declarations of a document with front matter are those of its body. -/
theorem scan_of_split {front body : String} {metadata : Value}
    (hsplit : split (front ++ body) = .ok (some metadata, body))
    (hends : Text.EndsAtLine front.toList) (hbody : ¬ HasOpening body.toList) :
    scan (front ++ body) = (scan body).map (Site.down (Text.lines front.toList).length) := by
  obtain ⟨before, hbefore, hstart⟩ := exists_eq_append_of_split hsplit
  have hfront : front.toList = before.toList := by
    have hlists := congrArg String.toList hbefore
    rw [String.toList_append, String.toList_append] at hlists
    exact List.append_cancel_right hlists
  have hlength : bodyStartLine (front ++ body) = 1 + (Text.lines front.toList).length := by
    rw [hstart, ← hfront, Text.length_lines hends, Nat.add_comm]
  -- The lines that the scan leaves out are those of the front.
  have hlines : (Text.lines (front ++ body).toList).drop (bodyStartLine (front ++ body) - 1) =
      Text.lines body.toList := by
    rw [String.toList_append, Text.lines_append hends, hlength, Nat.add_sub_cancel_left,
      List.drop_left]
  calc scan (front ++ body)
      = scanLines none (1 + (Text.lines front.toList).length) (Text.lines body.toList) := by
        rw [scan, hlines, hlength]
    _ = (scan body).map (Site.down (Text.lines front.toList).length) := by
        rw [scan_of_not_hasOpening hbody, ← scanLines_down, Option.map_none]

theorem one_le_line_of_mem_scan {document : String} (h : ¬ HasOpening document.toList)
    {site : Site} (hsite : site ∈ scan document) : 1 ≤ site.line := by
  rw [scan_of_not_hasOpening h] at hsite
  exact (ordered_scanLines (Nat.le_refl 1) _).1 site hsite

/-- Documents are scanned part by part: a text that leaves no block open and other text behind it,
or front matter and the body behind it, in which case nothing is found in the front matter. -/
theorem scan_concatenates :
    (∀ front back : String, ¬ HasOpening front.toList → ¬ HasOpening back.toList →
      Text.EndsAtLine front.toList → openAtEnd front = none →
      scan (front ++ back) =
        scan front ++ (scan back).map (Site.down (Text.lines front.toList).length)) ∧
    ∀ (front body : String) (metadata : Value),
      split (front ++ body) = .ok (some metadata, body) → ¬ HasOpening body.toList →
      Text.EndsAtLine front.toList →
      scan (front ++ body) = (scan body).map (Site.down (Text.lines front.toList).length) ∧
        ∀ site ∈ scan (front ++ body), (Text.lines front.toList).length < site.line := by
  constructor
  · intro front back hfront hback hends hclosed
    exact scan_append hends hfront hback hclosed
  · intro front body metadata hsplit hbody hends
    have hscan := scan_of_split hsplit hends hbody
    refine ⟨hscan, fun site hsite => ?_⟩
    rw [hscan] at hsite
    obtain ⟨inner, hinner, rfl⟩ := List.mem_map.1 hsite
    have hline := one_le_line_of_mem_scan hbody hinner
    simp only [Site.down]
    omega

/-- A text with a block that is closed, and metadata with the text of a declaration in it. -/
theorem scan_concatenates_plan :
    openAtEnd "Done `INPUT[toggle]`\n~~~\n`x`\n~~~\r\n" = none ∧
      scan ("Done `INPUT[toggle]`\n~~~\n`x`\n~~~\r\n" ++ "By `INPUT[date]`") =
        [⟨"INPUT[toggle]", .inline, 1⟩, ⟨"INPUT[date]", .inline, 5⟩] ∧
      split ("---\nuse: an `INPUT[text]`\n---\n" ++ "By `INPUT[date]`") =
        .ok (some (.mapping [(.string "use", .string "an `INPUT[text]`")]), "By `INPUT[date]`") ∧
      scan ("---\nuse: an `INPUT[text]`\n---\n" ++ "By `INPUT[date]`") =
        [⟨"INPUT[date]", .inline, 4⟩] := by
  have hfront : ¬ HasOpening "Done `INPUT[toggle]`\n~~~\n`x`\n~~~\r\n".toList := by
    rw [← opening?_eq_none_iff]
    decide +kernel
  have hback : ¬ HasOpening "By `INPUT[date]`".toList := by
    rw [← opening?_eq_none_iff]
    decide +kernel
  have hclosed : openAtEnd "Done `INPUT[toggle]`\n~~~\n`x`\n~~~\r\n" = none := by decide +kernel
  have hsplit : split ("---\nuse: an `INPUT[text]`\n---\n" ++ "By `INPUT[date]`") =
      .ok (some (.mapping [(.string "use", .string "an `INPUT[text]`")]), "By `INPUT[date]`") := by
    decide +kernel
  obtain ⟨hboth, hbody⟩ := scan_concatenates
  refine ⟨hclosed, ?_, hsplit, ?_⟩
  · rw [hboth _ _ hfront hback (.inr (by decide +kernel)) hclosed]
    decide +kernel
  · rw [(hbody _ _ _ hsplit hback (.inr (by decide +kernel))).1]
    decide +kernel

end BoundFields.Scan
