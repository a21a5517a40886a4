import BoundFields.Proofs.Declaration.Validity

/-!
# Templates written out

A draft that uses a template stands for the same declaration as the draft with the template's parts
written into it (`Draft.inlining`), but for the name of the template; and where one of the two is
refused, so is the other, with the same error. The errors can differ in one respect only: what an
unknown argument was given to is called by the template's name as long as no type is given. A
declaration has the arguments of a kind from the draft, if it gives any, or else from the template
(`Declaration.Combines`).
-/

set_option autoImplicit false

namespace BoundFields

open Text

/-! ## Drafts with a template written into them -/

/-- The type that a draft gives. -/
def Draft.type? (draft : Draft) : Option FieldType := draft.fieldType.filter (· ≠ .invalid)

/-- The kinds of the arguments that a draft gives. -/
def Draft.kinds (draft : Draft) : List ArgumentKind :=
  draft.arguments.filterMap fun (name, _) => ArgumentKind.ofName? name

/-- The draft with everything that it takes from a template written into it. -/
def Draft.inlining (draft : Draft) (t : Template) : Draft where
  fieldType := draft.type?.or t.fieldType
  arguments := (t.arguments.filter fun a => !draft.kinds.contains a.kind).map Argument.written ++
    draft.arguments
  isBound := draft.isBound
  target := draft.target.or t.target

/-- What is given literally, with everything that is taken from a template. -/
def Literal.inlining (literal : Literal) (t : Template) : Literal where
  fieldType := literal.fieldType.or t.fieldType
  arguments := t.merge literal.arguments
  isBound := literal.isBound
  target := literal.target.or t.target

/-- The declaration with the name of a template. -/
def Declaration.naming (d : Declaration) (templateName : Option String) : Declaration :=
  { d with templateName }

/-- The outcome with the name of a template. -/
def ParseOutcome.naming (outcome : ParseOutcome) (templateName : Option String) : ParseOutcome :=
  { outcome with declaration := outcome.declaration.naming templateName }

/-- The errors are the same, but for what they say that an unknown argument was given to. -/
inductive Error.IsSameButOwner : Error → Error → Prop where
  | same (error : Error) : IsSameButOwner error error
  | unknownArgument (name owner owner' : String) :
      IsSameButOwner (.unknownArgument name owner) (.unknownArgument name owner')

/-- The arguments of a declaration are, of every kind, those in `own` if there are any, and else
those of the template; the first of them is in effect, or else the default of the type. -/
structure Declaration.Combines (d : Declaration) (own : List Argument) (t : Template) : Prop where
  argumentsOf : ∀ kind, d.argumentsOf kind =
    if ∃ a ∈ own, a.kind = kind then own.filter (·.kind = kind)
    else t.arguments.filter (·.kind = kind)
  effective : ∀ kind, d.effective? kind =
    ((d.argumentsOf kind).head?.map (·.value)).or (d.fieldType.defaultArgument? kind)

/-! ## Arguments -/

theorem readNamedArguments_cons (dateFormat owner name : String) (raw : Option String)
    (more : List (String × Option String)) :
    readNamedArguments dateFormat owner ((name, raw) :: more) =
      (readNamedArgument dateFormat owner name raw).bind fun a =>
        (readNamedArguments dateFormat owner more).map (a :: ·) := by
  unfold readNamedArguments
  rw [List.mapM_cons]
  rfl

/-- Arguments that were read before are read again in front of others. -/
theorem readNamedArguments_written_append {dateFormat : String} (owner : String)
    {arguments : List Argument} (h : ∀ a ∈ arguments, a.IsReadIn dateFormat)
    (pairs : List (String × Option String)) :
    readNamedArguments dateFormat owner (arguments.map Argument.written ++ pairs) =
      (readNamedArguments dateFormat owner pairs).map (arguments ++ ·) := by
  induction arguments with
  | nil =>
    rw [List.map_nil, List.nil_append]
    cases readNamedArguments dateFormat owner pairs with
    | error e => rfl
    | ok own => rfl
  | cons a more ih =>
    have hfirst : readNamedArgument dateFormat owner a.kind.name a.raw = .ok a :=
      readNamedArgument_iff.2 ⟨ArgumentKind.ofName?_name a.kind, rfl, h a List.mem_cons_self⟩
    rw [List.map_cons, List.cons_append, Argument.written, readNamedArguments_cons, hfirst,
      ih fun b hb => h b (List.mem_cons_of_mem a hb)]
    cases readNamedArguments dateFormat owner pairs with
    | error e => rfl
    | ok own => rfl

/-- What an unknown argument is said to be given to matters to its error only. -/
theorem readNamedArgument_owner (dateFormat owner owner' name : String) (raw : Option String) :
    (∃ a, readNamedArgument dateFormat owner name raw = .ok a ∧
      readNamedArgument dateFormat owner' name raw = .ok a) ∨
    ∃ e e', readNamedArgument dateFormat owner name raw = .error e ∧
      readNamedArgument dateFormat owner' name raw = .error e' ∧ e.IsSameButOwner e' := by
  unfold readNamedArgument
  cases ArgumentKind.ofName? name with
  | none => exact .inr ⟨_, _, rfl, rfl, .unknownArgument name owner owner'⟩
  | some kind =>
    simp only
    cases Argument.ofText kind raw dateFormat with
    | ok a => exact .inl ⟨a, rfl, rfl⟩
    | error e => exact .inr ⟨e, e, rfl, rfl, .same e⟩

theorem readNamedArguments_owner (dateFormat owner owner' : String)
    (pairs : List (String × Option String)) :
    (∃ own, readNamedArguments dateFormat owner pairs = .ok own ∧
      readNamedArguments dateFormat owner' pairs = .ok own) ∨
    ∃ e e', readNamedArguments dateFormat owner pairs = .error e ∧
      readNamedArguments dateFormat owner' pairs = .error e' ∧ e.IsSameButOwner e' := by
  induction pairs with
  | nil => exact .inl ⟨[], rfl, rfl⟩
  | cons pair more ih =>
    obtain ⟨name, raw⟩ := pair
    rw [readNamedArguments_cons, readNamedArguments_cons]
    rcases readNamedArgument_owner dateFormat owner owner' name raw with
      ⟨a, h, h'⟩ | ⟨e, e', h, h', hsame⟩
    · rw [h, h']
      rcases ih with ⟨own, hown, hown'⟩ | ⟨e, e', hown, hown', hsame⟩
      · rw [hown, hown']
        exact .inl ⟨a :: own, rfl, rfl⟩
      · rw [hown, hown']
        exact .inr ⟨e, e', rfl, rfl, hsame⟩
    · rw [h, h']
      exact .inr ⟨e, e', rfl, rfl, hsame⟩

/-- The kinds of a draft are those of the arguments that it is read to. -/
theorem kinds_of_readNamedArguments {dateFormat owner : String} {draft : Draft}
    {own : List Argument} (h : readNamedArguments dateFormat owner draft.arguments = .ok own) :
    draft.kinds = own.map (·.kind) := by
  unfold Draft.kinds
  rw [← Parser.written_of_readNamedArguments h, List.filterMap_map, ← List.filterMap_eq_map]
  apply List.filterMap_congr
  intro a _
  exact ArgumentKind.ofName?_name a.kind

/-- The arguments of a kind are the template's only if there are no others. -/
theorem Template.filter_merge (t : Template) (own : List Argument) (kind : ArgumentKind) :
    (t.merge own).filter (·.kind = kind) =
      if ∃ a ∈ own, a.kind = kind then own.filter (·.kind = kind)
      else t.arguments.filter (·.kind = kind) := by
  have hgiven : (own.map (·.kind)).contains kind = true ↔ ∃ a ∈ own, a.kind = kind := by
    rw [List.contains_iff_mem, List.mem_map]
  unfold Template.merge
  rw [List.filter_append, List.filter_filter]
  split
  · next hown =>
    -- What is left of the template has other kinds.
    have hnone : t.arguments.filter (fun a => decide (a.kind = kind) &&
        !(own.map (·.kind)).contains a.kind) = [] := by
      rw [List.filter_eq_nil_iff]
      intro a _ hboth
      obtain ⟨hkind, hnot⟩ := Bool.and_eq_true_iff.1 hboth
      rw [of_decide_eq_true hkind, hgiven.2 hown] at hnot
      cases hnot
    rw [hnone, List.nil_append]
  · next hown =>
    have hnone : own.filter (·.kind = kind) = [] := by
      rw [List.filter_eq_nil_iff]
      intro a ha hkind
      exact hown ⟨a, ha, of_decide_eq_true hkind⟩
    rw [hnone, List.append_nil]
    apply List.filter_congr
    intro a _
    by_cases hkind : a.kind = kind
    · rw [hkind]
      have hnot := mt hgiven.1 hown
      simp only [hnot, Bool.not_false, Bool.and_true]
    · simp only [hkind, decide_false, Bool.false_and]

theorem Declaration.combines_of_arguments {d : Declaration} {t : Template} {own : List Argument}
    (h : d.arguments = t.merge own) : d.Combines own t := by
  refine ⟨?_, ?_⟩
  · intro kind
    unfold Declaration.argumentsOf
    rw [h]
    exact t.filter_merge own kind
  · intro kind
    unfold Declaration.effective? Declaration.argument? Declaration.argumentsOf
    rw [List.head?_filter]

/-! ## Building -/

namespace Declaration

variable (d : Declaration) (templateName : Option String)

theorem defaultProblem?_naming (dateFormat raw : String) :
    (d.naming templateName).defaultProblem? dateFormat raw = d.defaultProblem? dateFormat raw := by
  have hnumber : (d.naming templateName).number? = d.number? := rfl
  have hoptions : (d.naming templateName).options = d.options := rfl
  have htype : (d.naming templateName).fieldType = d.fieldType := rfl
  unfold defaultProblem?
  rw [hnumber, hoptions, htype]

/-- No check looks at the name of the template. -/
theorem check_naming (dateFormat : String) :
    (d.naming templateName).check dateFormat = d.check dateFormat := by
  have htext : (d.naming templateName).givenText? = d.givenText? := rfl
  have hdefault : (d.naming templateName).checkDefault dateFormat = d.checkDefault dateFormat := by
    unfold checkDefault
    rw [htext, funext (defaultProblem?_naming d templateName dateFormat)]
  have hranges : (d.naming templateName).checkRanges = d.checkRanges := rfl
  unfold check
  rw [hdefault, hranges]
  rfl

end Declaration

namespace Parser

/-- A declaration with a template is built like the one that has the template written into it. -/
theorem build_inlining {p : Parser} {name : String} {t : Template}
    (ht : p.templates.get? name = some t) (literal : Literal) :
    p.build literal (some name) =
      (p.build (literal.inlining t) none).map (·.naming (some name)) := by
  unfold build Literal.inlining
  simp only [Option.bind_some, Option.bind_none, ht, Option.or_none]
  cases literal.fieldType.or t.fieldType with
  | none => rfl
  | some type =>
    generalize (literal.target.or t.target).filter (!isBlankString ·) = target
    simp only
    split
    · rfl
    · have hcheck := Declaration.check_naming ⟨type, t.merge literal.arguments,
        target.isSome || literal.isBound.getD false, target, none⟩ (some name) p.dateFormat
      unfold Declaration.naming at hcheck
      simp only [bind, Except.bind, hcheck]
      cases Declaration.check ⟨type, t.merge literal.arguments,
        target.isSome || literal.isBound.getD false, target, none⟩ p.dateFormat with
      | error e => rfl
      | ok _ => rfl

theorem ofDraft_eq (p : Parser) (draft : Draft) (templateName : Option String) :
    p.ofDraft draft none templateName =
      (readNamedArguments p.dateFormat (ownerLabel draft.type? templateName)
          draft.arguments).bind fun own =>
        p.build ⟨draft.type?, own, draft.isBound, draft.target⟩ templateName := rfl

/-- A template never has the type that stands for the lack of one. -/
theorem type?_inlining {dateFormat : String} {t : Template} (ht : t.IsReadIn dateFormat)
    (draft : Draft) : (draft.inlining t).type? = draft.type?.or t.fieldType := by
  unfold Draft.inlining
  rw [Draft.type?]
  cases hgiven : draft.type? with
  | some type =>
    rw [Option.some_or]
    exact Option.filter_some_pos (Option.filter_eq_some_iff.1 hgiven).2
  | none =>
    rw [Option.none_or]
    cases htype : t.fieldType with
    | none => rfl
    | some type =>
      apply Option.filter_some_pos
      rw [decide_eq_true_eq]
      rintro rfl
      exact ht.fieldType htype

/-- The arguments of a draft with a template written into it are read to those of the template and
of the draft, if the latter can be read. -/
theorem readNamedArguments_inlining {dateFormat : String} {t : Template}
    (ht : t.IsReadIn dateFormat) (owner : String) (draft : Draft) :
    readNamedArguments dateFormat owner (draft.inlining t).arguments =
      (readNamedArguments dateFormat owner draft.arguments).map t.merge := by
  have hread : ∀ a ∈ t.arguments.filter fun a => !draft.kinds.contains a.kind,
      a.IsReadIn dateFormat := by
    intro a ha
    exact ht.arguments a (List.mem_filter.1 ha).1
  unfold Draft.inlining
  rw [readNamedArguments_written_append owner hread]
  cases hown : readNamedArguments dateFormat owner draft.arguments with
  | error e => rfl
  | ok own =>
    rw [kinds_of_readNamedArguments hown]
    rfl

/-- A declaration with a template is the one with the template written into it, and each of the two
is refused where the other one is. -/
theorem ofDraft_inlining (p : Parser) (sources : List TemplateSource) (draft : Draft)
    {t : Template} (ht : t ∈ (p.loadTemplates sources).1.templates.templates) :
    (∃ own d, readNamedArguments p.dateFormat (ownerLabel draft.type? (some t.name))
          draft.arguments = .ok own ∧
      (p.loadTemplates sources).1.ofDraft draft none (some t.name) = .ok ⟨d, []⟩ ∧
      (p.loadTemplates sources).1.ofDraft (draft.inlining t) none none =
        .ok ⟨{ d with templateName := none }, []⟩ ∧
      d.templateName = some t.name ∧ d.Combines own t) ∨
    ∃ e e', (p.loadTemplates sources).1.ofDraft draft none (some t.name) = .error e ∧
      (p.loadTemplates sources).1.ofDraft (draft.inlining t) none none = .error e' ∧
      e.IsSameButOwner e' := by
  have hread := p.isReadIn_of_mem_loaded sources t ht
  have hget : (p.loadTemplates sources).1.templates.get? t.name = some t :=
    TemplateTable.get?_of_mem_ofList ht
  have hdateFormat : (p.loadTemplates sources).1.dateFormat = p.dateFormat := rfl
  rw [ofDraft_eq, ofDraft_eq, hdateFormat, type?_inlining hread, readNamedArguments_inlining hread]
  rcases readNamedArguments_owner p.dateFormat (ownerLabel draft.type? (some t.name))
    (ownerLabel (draft.type?.or t.fieldType) none) draft.arguments with
    ⟨own, hown, hown'⟩ | ⟨e, e', he, he', hsame⟩
  · rw [hown, hown']
    have hbuild := build_inlining hget ⟨draft.type?, own, draft.isBound, draft.target⟩
    cases hinlined : (p.loadTemplates sources).1.build
      (Literal.inlining ⟨draft.type?, own, draft.isBound, draft.target⟩ t) none with
    | error e =>
      rw [hinlined] at hbuild
      exact .inr ⟨e, e, hbuild, hinlined, .same e⟩
    | ok outcome =>
      rw [hinlined] at hbuild
      obtain ⟨hbuilds, hwarnings⟩ := build_eq_ok_iff.1 hinlined
      have harguments : outcome.declaration.arguments = t.merge own := by
        rw [hbuilds.arguments, mergedArguments_none]
        rfl
      refine .inl ⟨own, (outcome.naming (some t.name)).declaration, rfl, ?_, ?_, rfl,
        Declaration.combines_of_arguments harguments⟩
      · have hnone : outcome.warnings = [] := hwarnings
        rw [← hnone]
        exact hbuild
      · have hname := hbuilds.templateName
        have hnone : outcome.warnings = [] := hwarnings
        obtain ⟨⟨type, arguments, isBound, target, name⟩, warnings⟩ := outcome
        simp only at hname hnone
        rw [hname, hnone] at hinlined
        exact hinlined
  · rw [he, he']
    exact .inr ⟨e, e', rfl, rfl, hsame⟩

/-- A template for names. -/
def personSource : TemplateSource :=
  ⟨"person", "INPUT[text(title(Name), placeholder(Jane)):name]"⟩

/-- The template that its source defines. -/
def person : Template :=
  { name := "person", fieldType := some .text
    arguments := [⟨.title, .text "Name", some "Name"⟩, ⟨.placeholder, .text "Jane", some "Jane"⟩]
    target := some "name", source := personSource.declaration }

/-- A text field with another title than the template's, and everything else from there. -/
theorem ofDraft_inlining_person :
    person ∈ (loadTemplates {} [personSource]).1.templates.templates ∧
    ∃ own d, readNamedArguments defaultDateFormat "template person" [("title", some "Nickname")] =
        .ok own ∧
      (loadTemplates {} [personSource]).1.ofDraft { arguments := [("title", some "Nickname")] } none
        (some "person") = .ok ⟨d, []⟩ ∧
      (loadTemplates {} [personSource]).1.ofDraft
        { fieldType := some .text
          arguments := [("placeholder", some "Jane"), ("title", some "Nickname")]
          target := some "name" } none none = .ok ⟨{ d with templateName := none }, []⟩ ∧
      d.templateName = some "person" ∧ d.Combines own person := by
  have ht : person ∈ (loadTemplates {} [personSource]).1.templates.templates := by decide +kernel
  refine ⟨ht, ?_⟩
  rcases ofDraft_inlining {} [personSource] { arguments := [("title", some "Nickname")] } ht with
    h | ⟨e, -, hrefused, -, -⟩
  · exact h
  · have hread : (loadTemplates {} [personSource]).1.ofDraft
        { arguments := [("title", some "Nickname")] } none (some person.name) =
          .ok ⟨⟨.text, [⟨.placeholder, .text "Jane", some "Jane"⟩,
            ⟨.title, .text "Nickname", some "Nickname"⟩],
              true, some "name", some "person"⟩, []⟩ := by
      decide +kernel
    rw [hread] at hrefused
    cases hrefused

end Parser

end BoundFields
