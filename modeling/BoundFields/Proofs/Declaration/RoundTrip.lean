import BoundFields.Proofs.Declaration.Loading

/-!
# Printing and reading declarations

A declaration that a parser made is printed with its values quoted where that is needed, but with
its template name and its bind target as they are. It is read back from its text exactly if these
two have no blanks at their ends and leave no bracket and no quote open, and if it does not lack a
target that its template has (`Parser.read_text_iff`). For declarations that come from a text only
one of these conditions is left: the target has to be closed.
-/

set_option autoImplicit false

namespace BoundFields

open Text

/-! ## The groups of a printed declaration -/

/-- A text of one group behind which nothing stands has this group only. -/
theorem eq_of_isGroups_singleton {body inner : List Char}
    (h : IsGroups ('[' :: (body ++ [']'])) [inner]) : inner = body ∧ IsClosed body := by
  cases h with
  | @cons _ _ rest _ start closed more =>
    cases more with
    | nil blank =>
      have hopen : trimStart ('[' :: (body ++ [']'])) = '[' :: (body ++ [']']) :=
        trimStart_cons_of_not_blank (by decide)
      obtain ⟨-, heq⟩ := List.cons.inj (hopen.symm.trans start)
      rcases List.eq_nil_or_concat rest with rfl | ⟨front, c, rfl⟩
      · obtain ⟨rfl, -⟩ := List.append_inj' heq rfl
        exact ⟨rfl, closed⟩
      · -- The last character is the closing bracket, and it would have to be a blank.
        rw [List.concat_eq_append, ← List.cons_append, ← List.append_assoc] at heq
        obtain ⟨-, hlast⟩ := List.append_inj' heq rfl
        obtain ⟨rfl, -⟩ := List.cons.inj hlast
        rw [List.concat_eq_append, isBlankText_append] at blank
        exact absurd (Bool.and_eq_true_iff.1 blank).2 (by decide)

/-- A group that reads as `name` when it is trimmed, in a text that starts with `name` and a closing
bracket, is `name` itself. -/
theorem eq_of_trim_eq {name first rest rest' : List Char}
    (h : name ++ ']' :: rest = first ++ ']' :: rest') (htrim : trim first = name)
    (hname : name ≠ []) : first = name := by
  obtain ⟨front, back, hfront, hback, hsplit⟩ := exists_eq_trim first
  rw [htrim] at hsplit
  rcases List.append_eq_append_iff.1 h with ⟨more, hfirst, hmore⟩ | ⟨more, hlonger, -⟩
  · cases more with
    | nil => rw [hfirst, List.append_nil]
    | cons c more =>
      obtain ⟨rfl, -⟩ := List.cons.inj hmore
      cases front with
      | nil =>
        -- What follows the name within the group would be blank, but starts with a bracket.
        rw [List.nil_append, hfirst] at hsplit
        have hback' := List.append_cancel_left hsplit
        rw [← hback'] at hback
        exact absurd (List.all_eq_true.1 hback ']' List.mem_cons_self) (by decide)
      | cons d front =>
        cases name with
        | nil => exact absurd rfl hname
        | cons n name =>
          rw [hfirst, List.cons_append, List.cons_append, List.cons_append] at hsplit
          obtain ⟨rfl, -⟩ := List.cons.inj hsplit
          have hblank := List.all_eq_true.1 hfront n List.mem_cons_self
          rw [isBlank_head_trim htrim] at hblank
          exact absurd hblank (by decide)
  · -- The group is part of the name, and as long as the name.
    have hlength := congrArg List.length hlonger
    have hlength' := congrArg List.length hsplit
    simp only [List.length_append] at hlength hlength'
    have hmore : more = [] := List.eq_nil_of_length_eq_zero (by omega)
    rw [hlonger, hmore, List.append_nil]

theorem eq_of_isGroups_pair {name body first second : List Char}
    (h : IsGroups ('[' :: (name ++ ']' :: '[' :: (body ++ [']']))) [first, second])
    (htrim : trim first = name) (hname : name ≠ []) :
    (first = name ∧ IsClosed name) ∧ second = body ∧ IsClosed body := by
  cases h with
  | @cons _ _ rest _ start closed more =>
    have hopen (cs : List Char) : trimStart ('[' :: cs) = '[' :: cs :=
      trimStart_cons_of_not_blank (by decide)
    rw [hopen] at start
    obtain ⟨-, heq⟩ := List.cons.inj start
    obtain rfl := eq_of_trim_eq heq htrim hname
    have hrest := List.append_cancel_left heq
    obtain ⟨-, rfl⟩ := List.cons.inj hrest
    exact ⟨⟨rfl, closed⟩, eq_of_isGroups_singleton more⟩

theorem isGroups_singleton {body : List Char} (h : IsClosed body) :
    IsGroups ('[' :: (body ++ [']'])) [body] :=
  .cons (trimStart_cons_of_not_blank (by decide)) h (.nil rfl)

theorem isGroups_pair {name body : List Char} (hname : IsClosed name) (hbody : IsClosed body) :
    IsGroups ('[' :: (name ++ ']' :: '[' :: (body ++ [']']))) [name, body] :=
  .cons (trimStart_cons_of_not_blank (by decide)) hname (isGroups_singleton hbody)

/-! ## Building a declaration again -/

/-- Merging a second time adds nothing: every kind of the template is there already. -/
theorem Template.merge_merge (t : Template) (literal : List Argument) :
    t.merge (t.merge literal) = t.merge literal := by
  have hdrop : t.arguments.filter
      (fun a => !((t.merge literal).map (·.kind)).contains a.kind) = [] := by
    rw [List.filter_eq_nil_iff]
    intro a ha
    have hin : a.kind ∈ (t.merge literal).map (·.kind) := by
      unfold merge
      rw [List.map_append, List.mem_append]
      by_cases hgiven : a.kind ∈ literal.map (·.kind)
      · exact .inr hgiven
      · refine .inl (List.mem_map.2 ⟨a, List.mem_filter.2 ⟨ha, ?_⟩, rfl⟩)
        simpa using hgiven
    simpa using hin
  rw [merge, hdrop, List.nil_append]

namespace Parser

/-- Every template of the parser was read in its date format. -/
def TemplatesAreRead (p : Parser) : Prop :=
  ∀ t ∈ p.templates.templates, t.IsReadIn p.dateFormat

theorem templatesAreRead_loadTemplates (p : Parser) (sources : List TemplateSource) :
    (p.loadTemplates sources).1.TemplatesAreRead :=
  p.isReadIn_of_mem_loaded sources

theorem isReadIn_of_template? {p : Parser} (hp : p.TemplatesAreRead) {name : Option String}
    {t : Template} (ht : p.template? name = some t) : t.IsReadIn p.dateFormat := by
  obtain ⟨n, -, hget⟩ := Option.bind_eq_some_iff.1 ht
  exact hp t (List.mem_of_find?_eq_some hget)

theorem mergedArguments_mergedArguments (p : Parser) {literal again : Literal}
    {name : Option String} (h : again.arguments = p.mergedArguments literal name) :
    p.mergedArguments again name = p.mergedArguments literal name := by
  unfold mergedArguments at h ⊢
  cases ht : p.template? name with
  | none =>
    rw [ht] at h
    exact h
  | some t =>
    rw [ht] at h
    simp only at h ⊢
    rw [h, Template.merge_merge]

section Made

variable {p : Parser} {literal : Literal} {name : Option String} {d : Declaration}

theorem isReadIn_of_builds (hp : p.TemplatesAreRead)
    (harguments : ∀ a ∈ literal.arguments, a.IsReadIn p.dateFormat)
    (hd : p.Builds literal name d) : ∀ a ∈ d.arguments, a.IsReadIn p.dateFormat := by
  intro a ha
  rcases mem_arguments_of_builds hd ha with ha | ⟨t, ht, ha⟩
  · exact harguments a ha
  · exact (hp t ht).arguments a ha

theorem fieldType_ne_invalid_of_builds
    (hp : ∀ t ∈ p.templates.templates, ∃ format, t.IsReadIn format)
    (htype : literal.fieldType ≠ some .invalid) (hd : p.Builds literal name d) :
    d.fieldType ≠ .invalid := by
  intro hinvalid
  have hor := hd.fieldType
  rw [hinvalid] at hor
  rcases Option.or_eq_some_iff.1 hor with hliteral | ⟨-, htemplate⟩
  · exact htype hliteral
  · obtain ⟨t, ht, heq⟩ := Option.bind_eq_some_iff.1 htemplate
    obtain ⟨n, -, hget⟩ := Option.bind_eq_some_iff.1 ht
    obtain ⟨format, hread⟩ := hp t (List.mem_of_find?_eq_some hget)
    exact hread.fieldType heq

/-- A target is never blank. -/
theorem isBlankString_target_of_builds (hd : p.Builds literal name d) {t : String}
    (ht : d.target = some t) : isBlankString t = false := by
  rw [hd.target] at ht
  have hfilter := (Option.filter_eq_some_iff.1 ht).2
  simpa using hfilter

/-- A declaration that has no target, although none was given to keep its template's away, has a
template without a target. -/
theorem target_eq_none_of_builds (hp : p.TemplatesAreRead) (hd : p.Builds literal name d)
    (hliteral : literal.target = none) (hnone : d.target = none) {t : Template}
    (ht : p.template? name = some t) : t.target = none := by
  have htarget := hd.target
  unfold effectiveTarget at htarget
  cases hinherited : t.target with
  | none => rfl
  | some target =>
    -- The template's target is not blank, so that the declaration would have it.
    have hblank := ((isReadIn_of_template? hp ht).target target hinherited).2
    rw [hnone, hliteral, ht, Option.none_or, Option.bind_some, hinherited,
      Option.filter_some_pos (by rw [hblank]; rfl)] at htarget
    exact absurd htarget (by simp)

/-- A target that was given is the target of the declaration. -/
theorem target_eq_of_builds (hd : p.Builds literal name d) {t : String}
    (hliteral : literal.target = some t) (ht : isBlankString t = false) : d.target = some t := by
  rw [hd.target]
  unfold effectiveTarget
  rw [hliteral, Option.some_or, Option.filter_some_pos (by rw [ht]; rfl)]

/-- What a declaration says itself, with nothing left to its template. -/
def literalOf (d : Declaration) : Literal := ⟨some d.fieldType, d.arguments, none, d.target⟩

/-- A declaration is built again from what it says itself, unless it lacks a target that its
template has. -/
theorem builds_literalOf (hd : p.Builds literal name d)
    (hlacks : d.target = none → ∀ t, p.template? name = some t → t.target = none) :
    p.Builds (literalOf d) name d := by
  refine ⟨rfl, ?_, ?_, hd.isBound, hd.templateName, fun h => absurd h (by simp [literalOf]),
    hd.checked⟩
  · rw [mergedArguments_mergedArguments p hd.arguments]
    exact hd.arguments
  · unfold effectiveTarget
    cases hcase : d.target with
    | some target =>
      have hblank := isBlankString_target_of_builds hd hcase
      rw [literalOf, hcase, Option.some_or, Option.filter_some_pos (by rw [hblank]; rfl)]
    | none =>
      have hinherited : (p.template? name).bind (·.target) = none := by
        cases ht : p.template? name with
        | none => rfl
        | some t => exact hlacks hcase t ht
      rw [literalOf, hcase, hinherited]
      rfl

end Made

end Parser

/-! ## The exact condition -/

theorem FieldType.ofText_name {type : FieldType} (h : type ≠ .invalid) :
    FieldType.ofText type.name = .ok type := by
  cases type with
  | invalid => exact absurd rfl h
  | _ => decide

/-- What it takes to read a declaration back from its text. -/
structure Declaration.IsRereadBy (p : Parser) (d : Declaration) : Prop where
  templateName : ∀ n, d.templateName = some n → n ≠ "" ∧ trimmed n = n ∧ IsClosed n.toList
  target : ∀ t, d.target = some t → trimmed t = t ∧ IsClosed t.toList
  lacksNone : d.target = none → ∀ n template, d.templateName = some n →
    p.templates.get? n = some template → template.target = none

namespace Parser

section Made

variable {p : Parser} {literal : Literal} {name : Option String} {d : Declaration}

/-- A declaration as written that says the same as a declaration is read to it. -/
theorem read_of_written {text : String} {raw : RawDeclaration}
    (hraw : RawDeclaration.ofChars text.toList = .ok raw) (htype : d.fieldType ≠ .invalid)
    (harguments : ∀ a ∈ d.arguments, a.IsReadIn p.dateFormat)
    (hwritten : raw.body.type.map (·.1) = some d.fieldType.name ∧
      raw.body.arguments.map RawArgument.written = d.arguments.map Argument.written ∧
      raw.body.target = d.target)
    (hbuilds : p.Builds (literalOf d) raw.template d) : p.read text = .ok d := by
  obtain ⟨hwrittenType, hwrittenArguments, hwrittenTarget⟩ := hwritten
  obtain ⟨⟨typeName, position⟩, hsome, hname⟩ := Option.map_eq_some_iff.1 hwrittenType
  refine read_iff.2 ⟨raw, some d.fieldType, d.arguments, Outcome.mapError_eq_ok_iff.2 hraw, ?_,
    ?_, ?_⟩
  · unfold RawDeclaration.fieldType
    rw [hsome]
    simp only at hname ⊢
    rw [hname, FieldType.ofText_name htype]
    rfl
  · have hnamed : raw.namedArguments = d.arguments.map Argument.written := hwrittenArguments
    rw [hnamed]
    exact readNamedArguments_written _ harguments
  · rw [hwrittenTarget]
    exact hbuilds

theorem read_text_of_isRereadBy (hp : p.TemplatesAreRead)
    (harguments : ∀ a ∈ literal.arguments, a.IsReadIn p.dateFormat)
    (htype : literal.fieldType ≠ some .invalid) (hd : p.Builds literal name d)
    (h : d.IsRereadBy p) : p.read d.text = .ok d := by
  have hclosed : IsClosed d.printedBody :=
    d.isClosed_printedBody_iff.2 fun t ht => (h.target t ht).2
  have hsame : d.target.map trimmed = d.target := by
    cases ht : d.target with
    | none => rfl
    | some t => rw [Option.map_some, (h.target t ht).1]
  have hbody (stop : Nat) :=
    d.readBody_printed stop fun t ht => isBlankString_target_of_builds hd ht
  rw [hsame] at hbody
  have hargs := isReadIn_of_builds hp harguments hd
  have hvalid := fieldType_ne_invalid_of_builds (fun t ht => ⟨_, hp t ht⟩) htype hd
  have hname := hd.templateName
  have hagain : p.Builds (literalOf d) name d := by
    refine builds_literalOf hd fun hnone t ht => ?_
    obtain ⟨n, hn, hget⟩ := Option.bind_eq_some_iff.1 ht
    exact h.lacksNone hnone n t (hname.trans hn) hget
  have htext := d.toList_text
  unfold Declaration.printedTemplate at htext
  cases hcase : d.templateName with
  | none =>
    rw [hcase, List.nil_append] at htext
    obtain ⟨raw, hraw, htemplate, hwritten⟩ :=
      ofChars_of_isGroups_body (isGroups_singleton hclosed) hbody
    rw [← htext] at hraw
    refine read_of_written hraw hvalid hargs hwritten ?_
    rw [htemplate, ← hcase, hname]
    exact hagain
  | some n =>
    obtain ⟨hne, htrim, hclosedName⟩ := h.templateName n hcase
    have hblank : isBlankText n.toList = false := by
      rw [← Bool.not_eq_true, ← trim_eq_nil_iff, trimmed_eq_iff.1 htrim]
      exact fun hnil => hne (String.toList_eq_nil_iff.1 hnil)
    simp only [hcase, List.cons_append, List.append_assoc, List.nil_append] at htext
    obtain ⟨raw, hraw, htemplate, hwritten⟩ :=
      ofChars_of_isGroups_templateAndBody (isGroups_pair hclosedName hclosed) hblank hbody
    rw [← htext] at hraw
    refine read_of_written hraw hvalid hargs hwritten ?_
    have hsameName : String.ofList (trim n.toList) = n := htrim
    rw [htemplate, hsameName, ← hcase, hname]
    exact hagain

/-- The groups of a printed text that is a declaration with the same template are what was printed
in them. -/
theorem closed_of_isReadFrom {raw : RawDeclaration} {inners : List (List Char)}
    (hname : d.templateName = raw.template)
    (hgroups : IsGroups (d.printedTemplate ++ '[' :: (d.printedBody ++ [']'])) inners)
    (hread : IsReadFrom raw inners) :
    (∀ n, d.templateName = some n → n ≠ "" ∧ trimmed n = n ∧ IsClosed n.toList) ∧
      IsClosed d.printedBody ∧ ∃ stop, readBody stop d.printedBody = .ok raw.body := by
  unfold Declaration.printedTemplate at hgroups
  cases hread with
  | body template read =>
    have hnone : d.templateName = none := hname.trans template
    rw [hnone, List.nil_append] at hgroups
    obtain ⟨rfl, hclosed⟩ := eq_of_isGroups_singleton hgroups
    refine ⟨?_, hclosed, _, read⟩
    intro n hn
    rw [hnone] at hn
    cases hn
  | @templateAndBody first second _ named template read =>
    have hsome : d.templateName = some (String.ofList (trim first)) := hname.trans template
    simp only [hsome, String.toList_ofList, List.cons_append, List.append_assoc,
      List.nil_append] at hgroups
    have hne : trim first ≠ [] := by
      intro hnil
      rw [trim_eq_nil_iff.1 hnil] at named
      cases named
    -- The name was trimmed when it was read, and the text is printed with the trimmed name.
    obtain ⟨⟨-, hclosedName⟩, rfl, hclosed⟩ := eq_of_isGroups_pair hgroups rfl hne
    refine ⟨?_, hclosed, _, read⟩
    intro n hn
    obtain rfl := Option.some.inj (hsome.symm.trans hn)
    refine ⟨?_, trimmed_eq_iff.2 ?_, ?_⟩
    · intro hempty
      have hlist := congrArg String.toList hempty
      rw [String.toList_ofList] at hlist
      exact hne hlist
    · rw [String.toList_ofList, trim_trim]
    · rw [String.toList_ofList]
      exact hclosedName

/-- A declaration is read back only if the groups of its text are what was printed in them. -/
theorem isRereadBy_of_read_text (hp : p.TemplatesAreRead) (hd : p.Builds literal name d)
    (h : p.read d.text = .ok d) : d.IsRereadBy p := by
  obtain ⟨raw, fieldType, arguments, hraw, -, -, hagain⟩ := read_iff.1 h
  obtain ⟨rest, inners, hstart, hgroups, hread⟩ :=
    exists_groups_of_ofChars (Outcome.mapError_eq_ok_iff.1 hraw)
  have hrest : rest = d.printedTemplate ++ '[' :: (d.printedBody ++ [']']) := by
    have hinput (cs : List Char) : trimStart ("INPUT".toList ++ cs) = "INPUT".toList ++ cs :=
      trimStart_cons_of_not_blank (by decide)
    rw [d.toList_text, hinput] at hstart
    exact (List.append_cancel_left hstart).symm
  rw [hrest] at hgroups
  obtain ⟨hnames, hclosed, stop, hbody⟩ :=
    closed_of_isReadFrom hagain.templateName hgroups hread
  have htarget : raw.body.target = d.target.map trimmed := by
    obtain ⟨b, hb, -, -, htarget⟩ :=
      d.readBody_printed stop fun t ht => isBlankString_target_of_builds hd ht
    rw [hbody] at hb
    obtain rfl := Except.ok.inj hb
    exact htarget
  refine ⟨hnames, ?_, ?_⟩
  · intro t ht
    refine ⟨?_, d.isClosed_printedBody_iff.1 hclosed t ht⟩
    have hblank := isBlankString_target_of_builds hd ht
    rw [ht, Option.map_some] at htarget
    rw [← isBlankString_trimmed] at hblank
    exact Option.some.inj ((target_eq_of_builds hagain htarget hblank).symm.trans ht)
  · intro hnone n template hn hget
    rw [hnone, Option.map_none] at htarget
    have htemplate : p.template? raw.template = some template := by
      unfold template?
      rw [← hagain.templateName, hn, Option.bind_some, hget]
    exact target_eq_none_of_builds hp hagain htarget hnone htemplate

/-- A declaration that a parser made is read back from its text exactly if its template name and its
target are trimmed and closed and it does not lack the target of its template. -/
theorem read_text_iff (hp : p.TemplatesAreRead)
    (harguments : ∀ a ∈ literal.arguments, a.IsReadIn p.dateFormat)
    (htype : literal.fieldType ≠ some .invalid) (hd : p.Builds literal name d) :
    p.read d.text = .ok d ↔ d.IsRereadBy p :=
  ⟨isRereadBy_of_read_text hp hd, read_text_of_isRereadBy hp harguments htype hd⟩

end Made

/-! ## Drafts -/

theorem read_text_ofDraft_iff (p : Parser) (sources : List TemplateSource) (draft : Draft)
    (override : Option (List (String × Option String))) (templateName : Option String)
    {outcome : ParseOutcome}
    (h : (p.loadTemplates sources).1.ofDraft draft override templateName = .ok outcome) :
    (p.loadTemplates sources).1.read outcome.declaration.text = .ok outcome.declaration ↔
      outcome.declaration.IsRereadBy (p.loadTemplates sources).1 := by
  obtain ⟨arguments, harguments, hbuild⟩ := Outcome.bind_eq_ok_iff.1 h
  have htype : draft.fieldType.filter (· ≠ .invalid) ≠ some .invalid := by
    intro hinvalid
    have hne := (Option.filter_eq_some_iff.1 hinvalid).2
    exact absurd hne (by decide)
  exact read_text_iff (p.templatesAreRead_loadTemplates sources)
    (isReadIn_of_readNamedArguments harguments) htype (build_eq_ok_iff.1 hbuild).1

/-- A draft of a field that is bound to `done`. -/
theorem read_text_ofDraft_toggle :
    ((Parser.loadTemplates {} []).1.ofDraft { fieldType := some .toggle, target := some "done" }
        none none = .ok ⟨⟨.toggle, [], true, some "done", none⟩, []⟩) ∧
      (Parser.loadTemplates {} []).1.read
        (Declaration.text ⟨.toggle, [], true, some "done", none⟩) =
          .ok ⟨.toggle, [], true, some "done", none⟩ := by
  have hdraft : (Parser.loadTemplates {} []).1.ofDraft
      { fieldType := some .toggle, target := some "done" } none none =
        .ok ⟨⟨.toggle, [], true, some "done", none⟩, []⟩ := by decide +kernel
  refine ⟨hdraft, (read_text_ofDraft_iff {} [] _ none none hdraft).2 ⟨?_, ?_, ?_⟩⟩
  · intro n hn
    exact absurd hn (by simp)
  · intro t ht
    obtain rfl := Option.some.inj ht
    exact ⟨by decide, by decide⟩
  · intro hnone
    exact absurd hnone (by simp)

/-! ## Texts -/

/-- A template name that was read is trimmed, closed and not empty. -/
theorem templateName_of_ofChars {text : List Char} {raw : RawDeclaration} {n : String}
    (h : RawDeclaration.ofChars text = .ok raw) (hn : raw.template = some n) :
    n ≠ "" ∧ trimmed n = n ∧ IsClosed n.toList := by
  obtain ⟨rest, inners, -, hgroups, hread⟩ := exists_groups_of_ofChars h
  cases hread with
  | body template _ => exact absurd (template.symm.trans hn) (by simp)
  | @templateAndBody first _ _ named template _ =>
    obtain rfl := Option.some.inj (template.symm.trans hn)
    refine ⟨?_, ?_, ?_⟩
    · intro hempty
      have hlist := congrArg String.toList hempty
      rw [String.toList_ofList] at hlist
      rw [trim_eq_nil_iff.1 hlist] at named
      exact absurd named (by decide)
    · rw [trimmed_eq_iff, String.toList_ofList, trim_trim]
    · rw [String.toList_ofList]
      cases hgroups with
      | cons _ closed _ => exact isClosed_trim_iff.2 closed

/-- The target of a declaration that was read is trimmed, whether it was written or comes from the
template. -/
theorem trimmed_target_of_builds {p : Parser} (hp : p.TemplatesAreRead) {text : String}
    {raw : RawDeclaration} {literal : Literal} {name : Option String} {d : Declaration}
    (hraw : RawDeclaration.read text = .ok raw) (hliteral : literal.target = raw.body.target)
    (hd : p.Builds literal name d) {t : String} (ht : d.target = some t) : trimmed t = t := by
  have htarget := hd.target
  unfold effectiveTarget at htarget
  rw [ht] at htarget
  rw [trimmed_eq_iff]
  rcases Option.or_eq_some_iff.1 (Option.filter_eq_some_iff.1 htarget.symm).1 with
    hwritten | ⟨-, hinherited⟩
  · exact (RawDeclaration.trim_target hraw (hliteral.symm.trans hwritten)).1
  · obtain ⟨template, htemplate, htarget⟩ := Option.bind_eq_some_iff.1 hinherited
    exact ((isReadIn_of_template? hp htemplate).target t htarget).1

/-- A declaration that was read from a text is read back from its own text exactly if its target
leaves no bracket and no quote open and closes none of them too often. -/
theorem read_text_read_iff (p : Parser) (sources : List TemplateSource) (text : String)
    {d : Declaration} (h : (p.loadTemplates sources).1.read text = .ok d) :
    (p.loadTemplates sources).1.read d.text = .ok d ↔
      ∀ t, d.target = some t → IsClosed t.toList := by
  have hp := p.templatesAreRead_loadTemplates sources
  obtain ⟨raw, fieldType, arguments, hraw, htype, harguments, hbuilds⟩ := read_iff.1 h
  have hiff := read_text_iff hp (isReadIn_of_readNamedArguments harguments)
    (RawDeclaration.fieldType_ne_invalid htype) hbuilds
  constructor
  · intro hagain t ht
    exact ((hiff.1 hagain).target t ht).2
  · intro hclosed
    refine hiff.2 ⟨?_, ?_, ?_⟩
    · intro n hn
      exact templateName_of_ofChars (Outcome.mapError_eq_ok_iff.1 hraw)
        (hbuilds.templateName.symm.trans hn)
    · intro t ht
      exact ⟨trimmed_target_of_builds hp hraw rfl hbuilds ht, hclosed t ht⟩
    · intro hnone n template hn hget
      have htemplate : (p.loadTemplates sources).1.template? raw.template = some template := by
        unfold template?
        rw [← hbuilds.templateName, hn, Option.bind_some, hget]
      have hunwritten : raw.body.target = none := by
        cases hcase : raw.body.target with
        | none => rfl
        | some t =>
          have hblank := (RawDeclaration.trim_target hraw hcase).2
          exact absurd (hnone.symm.trans (target_eq_of_builds hbuilds hcase hblank)) (by simp)
      exact target_eq_none_of_builds hp hbuilds hunwritten hnone htemplate

theorem read_text_read_toggle :
    (Parser.loadTemplates {} []).1.read "INPUT[toggle : done ]" =
        .ok ⟨.toggle, [], true, some "done", none⟩ ∧
      (Parser.loadTemplates {} []).1.read
        (Declaration.text ⟨.toggle, [], true, some "done", none⟩) =
          .ok ⟨.toggle, [], true, some "done", none⟩ := by
  have hread : (Parser.loadTemplates {} []).1.read "INPUT[toggle : done ]" =
      .ok ⟨.toggle, [], true, some "done", none⟩ := by decide +kernel
  refine ⟨hread, (read_text_read_iff {} [] _ hread).2 ?_⟩
  intro t ht
  obtain rfl := Option.some.inj ht
  decide

/-- A bracket that an argument leaves open lets the target hold one that closes it; but the argument
is printed between quotes, where its bracket no longer counts. -/
theorem exists_read_text_ne :
    ¬ ∀ (p : Parser) (sources : List TemplateSource) (text : String) (d : Declaration),
      (p.loadTemplates sources).1.read text = .ok d →
        (p.loadTemplates sources).1.read d.text = .ok d := by
  intro hall
  have hread : (Parser.loadTemplates {} []).1.read "INPUT[text(title(a[b)):x]y]" =
      .ok ⟨.text, [⟨.title, .text "a[b", some "a[b"⟩], true, some "x]y", none⟩ := by
    decide +kernel
  obtain ⟨_, _, _, -, -, -, hbuilds⟩ := read_iff.1 hread
  have hagain := isRereadBy_of_read_text (templatesAreRead_loadTemplates {} []) hbuilds
    (hall {} [] _ _ hread)
  exact absurd (hagain.target "x]y" rfl).2 (by decide)

end Parser

end BoundFields
