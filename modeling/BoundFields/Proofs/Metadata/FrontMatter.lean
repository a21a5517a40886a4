import BoundFields.Proofs.Metadata.Splitting

/-!
# Front matter that is written and read back

A document that was put together from metadata and a body is cut at the same places again, as long
as the text of the metadata ends in a line feed and has no line in it that closes the block
(`cut?_render`). The body comes back as it was, and the metadata as its text is read
(`split_render`), whatever the body looks like and whichever document it was taken from
(`render_splits`).
-/

set_option autoImplicit false

namespace BoundFields

namespace FrontMatter

/-- What is needed of the text of metadata for it to come back out of a document. -/
structure IsReread (metadata : Value) (text : String) : Prop where
  nonblank : Text.isBlankText text.toList = false
  ends : text.toList.getLast? = some '\n'
  reads : Value.ofText text = .ok metadata
  closesNothing : ∀ line ∈ Text.chunks text.toList, isClosing line = false

theorem IsReread.blockValue_eq {metadata : Value} {text : String} (h : IsReread metadata text) :
    blockValue text.toList = .ok metadata := by
  rw [blockValue, h.nonblank, if_neg Bool.false_ne_true, String.ofList_toList, h.reads]
  rfl

/-- A document is cut where it was put together. -/
theorem cut?_render {text : String} (hends : text.toList.getLast? = some '\n')
    (hcloses : ∀ line ∈ Text.chunks text.toList, isClosing line = false) (body : String) :
    cut? ("---\n" ++ text ++ "---\n" ++ body).toList =
      some ⟨"---\n".toList, text.toList, "---\n".toList, body.toList⟩ := by
  have hclosing : isClosing "---\n".toList = true := by decide
  refine cut?_of_isOf ⟨?_, .inl rfl, ⟨Text.chunks text.toList, ?_, fun line hline => ?_⟩,
    hclosing, .inl ⟨fence, by decide, rfl⟩⟩
  · simp only [Parts.text, String.toList_append]
  · exact (Text.flatten_chunks text.toList).symm
  · exact ⟨Text.isLine_of_mem_chunks (.inr hends) line hline, hcloses line hline⟩

/-- The metadata and the body come back out of the document that was made from them. -/
theorem split_render {metadata : Value} {body content : String}
    (hreread : ∀ text, metadata.write = .ok text → IsReread metadata text)
    (h : render metadata body = .ok content) : split content = .ok (some metadata, body) := by
  simp only [render] at h
  split at h
  · next text htext =>
    cases h
    have hread := hreread text htext
    simp only [split, cut?_render hread.ends hread.closesNothing, hread.blockValue_eq,
      String.ofList_toList]
    rfl
  · cases h

/-- What stands in front of the body of a document with this text of its metadata. -/
def front (text : String) : String := "---\n" ++ text ++ "---\n"

theorem render_of_write {metadata : Value} {text : String} (h : metadata.write = .ok text)
    (body : String) : render metadata body = .ok (front text ++ body) := by
  rw [render, h]
  rfl

/-- The body is the end of the document, and starts behind the lines of the block. -/
theorem exists_eq_append_of_split {document body : String} {metadata : Value}
    (h : split document = .ok (some metadata, body)) :
    ∃ before, document = before ++ body ∧
      bodyStartLine document = before.toList.count '\n' + 1 := by
  obtain ⟨parts, hparts, hmetadata, hbody⟩ := split_eq_some_iff.1 h
  refine ⟨String.ofList (parts.opening ++ parts.block ++ parts.closing), ?_, ?_⟩
  · rw [← String.ofList_toList (s := body), ← hbody, ← String.ofList_append,
      ← String.ofList_toList (s := document), ← hparts.text]
    rfl
  · rw [String.toList_ofList, bodyStartLine_of_isOf hparts hmetadata]

/-- Metadata put in front of a body can be told apart from it again, and the line that the body
starts on is found. So the body of any document stays the same when other metadata is put in front
of it. -/
theorem render_splits {metadata : Value} {text : String} (hwrite : metadata.write = .ok text)
    (hreread : IsReread metadata text) (body : String) :
    render metadata body = .ok (front text ++ body) ∧
      split (front text ++ body) = .ok (some metadata, body) ∧
      bodyStartLine (front text ++ body) = (front text).toList.count '\n' + 1 ∧
      ∀ document old, split document = .ok (some old, body) →
        ∃ before, document = before ++ body ∧
          bodyStartLine document = before.toList.count '\n' + 1 := by
  have hrender := render_of_write hwrite body
  have hsplit : split (front text ++ body) = .ok (some metadata, body) := by
    apply split_render ?_ hrender
    intro other hother
    obtain rfl : text = other := Except.ok.inj (hwrite.symm.trans hother)
    exact hreread
  refine ⟨hrender, hsplit, ?_, fun document old h => exists_eq_append_of_split h⟩
  obtain ⟨before, heq, hline⟩ := exists_eq_append_of_split hsplit
  have hfront := congrArg String.toList heq
  rw [String.toList_append, String.toList_append, List.append_cancel_right_eq] at hfront
  rw [hline, hfront]

/-- The body may look like front matter itself, with any ends of lines. -/
theorem render_splits_fenced :
    (Value.mapping [(.string "title", .string "Plan")]).write = .ok "title: Plan\n" ∧
      IsReread (.mapping [(.string "title", .string "Plan")]) "title: Plan\n" ∧
      split (front "title: Plan\n" ++ "---\r\nx: 1\n---\n") =
        .ok (some (.mapping [(.string "title", .string "Plan")]), "---\r\nx: 1\n---\n") ∧
      bodyStartLine (front "title: Plan\n" ++ "---\r\nx: 1\n---\n") = 4 := by
  have hwrite :
      (Value.mapping [(.string "title", .string "Plan")]).write = .ok "title: Plan\n" := by
    decide +kernel
  have hreread : IsReread (.mapping [(.string "title", .string "Plan")]) "title: Plan\n" :=
    ⟨by decide +kernel, by decide +kernel, by decide +kernel, by decide +kernel⟩
  obtain ⟨-, hsplit, hline, -⟩ := render_splits hwrite hreread "---\r\nx: 1\n---\n"
  exact ⟨hwrite, hreread, hsplit, hline⟩

end FrontMatter

end BoundFields
