import BoundFields.Declaration.Parser
import BoundFields.Proofs.Declaration.Groups

/-!
# What the parser builds

`Parser.Builds` tells what a declaration is made of: what it gives itself, what its template gives,
and the checks that it passed. The parser builds nothing else (`build_eq_ok_iff`). The
arguments of a template are what their own texts are read to (`Template.isReadIn_of_ofText`), and so
are those of a declaration, which are its own or its template's (`mem_arguments_of_builds`).
-/

set_option autoImplicit false

namespace BoundFields

open Text

/-! ## Arguments -/

/-- The argument is what its text is read to in a date format. -/
def Argument.IsReadIn (dateFormat : String) (a : Argument) : Prop :=
  Argument.ofText a.kind a.raw dateFormat = .ok a

theorem eq_of_ofText {kind : ArgumentKind} {raw : Option String} {dateFormat : String}
    {a : Argument} (h : Argument.ofText kind raw dateFormat = .ok a) :
    a.kind = kind ∧ a.raw = raw := by
  unfold Argument.ofText at h
  split at h
  · cases h
    exact ⟨rfl, rfl⟩
  · cases h

theorem readNamedArgument_iff {dateFormat owner name : String} {raw : Option String}
    {a : Argument} :
    readNamedArgument dateFormat owner name raw = .ok a ↔
      ArgumentKind.ofName? name = some a.kind ∧ a.raw = raw ∧ a.IsReadIn dateFormat := by
  unfold readNamedArgument Argument.IsReadIn
  cases ArgumentKind.ofName? name with
  | none => simp
  | some kind =>
    constructor
    · intro h
      obtain ⟨hkind, hraw⟩ := eq_of_ofText h
      exact ⟨by rw [hkind], hraw, by rw [hkind, hraw]; exact h⟩
    · rintro ⟨hkind, hraw, h⟩
      obtain rfl := Option.some.inj hkind
      rw [← hraw]
      exact h

theorem isReadIn_of_readNamedArguments {dateFormat owner : String}
    {pairs : List (String × Option String)} {arguments : List Argument}
    (h : readNamedArguments dateFormat owner pairs = .ok arguments) :
    ∀ a ∈ arguments, a.IsReadIn dateFormat := by
  unfold readNamedArguments at h
  have hall := Outcome.mapM_eq_ok_iff.1 h
  clear h
  induction hall with
  | nil => exact fun a ha => absurd ha (by simp)
  | cons hhead _ ih =>
    intro a ha
    rcases List.mem_cons.1 ha with rfl | ha
    · exact (readNamedArgument_iff.1 hhead).2.2
    · exact ih a ha

/-- Arguments that were read are read again from their names and texts. -/
theorem readNamedArguments_written {dateFormat : String} (owner : String)
    {arguments : List Argument} (h : ∀ a ∈ arguments, a.IsReadIn dateFormat) :
    readNamedArguments dateFormat owner (arguments.map Argument.written) = .ok arguments := by
  unfold readNamedArguments
  refine Outcome.mapM_eq_ok_iff.2 (List.forall₂_map_left_iff.2 (List.forall₂_same.2 fun a ha => ?_))
  exact readNamedArgument_iff.2 ⟨ArgumentKind.ofName?_name a.kind, rfl, h a ha⟩

/-! ## Templates -/

/-- What holds of a template that was read in a date format. -/
structure Template.IsReadIn (dateFormat : String) (t : Template) : Prop where
  arguments : ∀ a ∈ t.arguments, a.IsReadIn dateFormat
  fieldType : t.fieldType ≠ some .invalid
  target : ∀ s, t.target = some s → trim s.toList = s.toList ∧ isBlankString s = false

theorem FieldType.ne_invalid_of_ofText {name : String} {type : FieldType}
    (h : FieldType.ofText name = .ok type) : type ≠ .invalid := by
  unfold FieldType.ofText at h
  split at h
  · next found hfound =>
    cases h
    unfold FieldType.ofText? at hfound
    exact FieldType.mem_all_iff.1 (List.mem_of_find?_eq_some hfound)
  · cases h

theorem RawDeclaration.fieldType_ne_invalid {raw : RawDeclaration} {type : Option FieldType}
    (h : raw.fieldType = .ok type) : type ≠ some .invalid := by
  unfold RawDeclaration.fieldType at h
  split at h
  · obtain ⟨found, hfound, rfl⟩ := Outcome.map_eq_ok_iff.1 h
    intro heq
    exact FieldType.ne_invalid_of_ofText hfound (Option.some.inj heq)
  · cases h
    simp

/-- The target of a declaration as written is trimmed and not blank. -/
theorem RawDeclaration.trim_target {text : String} {raw : RawDeclaration} {t : String}
    (h : RawDeclaration.read text = .ok raw) (ht : raw.body.target = some t) :
    trim t.toList = t.toList ∧ isBlankString t = false := by
  obtain ⟨rest, inners, -, -, hread⟩ :=
    exists_groups_of_ofChars (Outcome.mapError_eq_ok_iff.1 h)
  cases hread with
  | body _ read => exact trim_of_readBody read ht
  | templateAndBody _ _ read => exact trim_of_readBody read ht

/-- What a template is read to is put together from the parts of its text. -/
theorem Template.exists_of_ofText {dateFormat name text : String} {t : Template}
    (h : Template.ofText dateFormat name text = .ok t) :
    ∃ raw type arguments, RawDeclaration.read text = .ok raw ∧ raw.fieldType = .ok type ∧
      readNamedArguments dateFormat (ownerLabel type none) raw.namedArguments = .ok arguments ∧
      t = ⟨name, type, arguments, raw.body.target, text⟩ := by
  unfold Template.ofText at h
  obtain ⟨raw, hraw, h⟩ := Outcome.bind_eq_ok_iff.1 h
  dsimp only at h
  split at h
  · cases h
  · obtain ⟨type, htype, h⟩ := Outcome.bind_eq_ok_iff.1 h
    obtain ⟨arguments, harguments, h⟩ := Outcome.bind_eq_ok_iff.1 h
    refine ⟨raw, type, arguments, hraw, htype, harguments, ?_⟩
    split at h
    · obtain ⟨_, -, hpure⟩ := Outcome.bind_eq_ok_iff.1 h
      cases hpure
      rfl
    · cases h
      rfl

theorem Template.isReadIn_of_ofText {dateFormat name text : String} {t : Template}
    (h : Template.ofText dateFormat name text = .ok t) : t.IsReadIn dateFormat := by
  obtain ⟨raw, type, arguments, hraw, htype, harguments, rfl⟩ := Template.exists_of_ofText h
  exact ⟨isReadIn_of_readNamedArguments harguments, RawDeclaration.fieldType_ne_invalid htype,
    fun s hs => RawDeclaration.trim_target hraw hs⟩

theorem Template.name_of_ofText {dateFormat name text : String} {t : Template}
    (h : Template.ofText dateFormat name text = .ok t) : t.name = name := by
  obtain ⟨_, _, _, -, -, -, rfl⟩ := Template.exists_of_ofText h
  rfl

namespace Parser

/-! ## Declarations -/

/-- The template that a name stands for. -/
def template? (p : Parser) (name : Option String) : Option Template := name.bind p.templates.get?

/-- The arguments of the template that count, and those that are given literally. -/
def mergedArguments (p : Parser) (literal : Literal) (name : Option String) : List Argument :=
  match p.template? name with
  | some template => template.merge literal.arguments
  | none => literal.arguments

/-- The target that is given literally or else by the template; a blank one is none. -/
def effectiveTarget (p : Parser) (literal : Literal) (name : Option String) : Option String :=
  (literal.target.or ((p.template? name).bind (·.target))).filter (!isBlankString ·)

/-- A template that is not in the table is passed over with a warning. -/
def warnings (p : Parser) (name : Option String) : List Error :=
  match name, p.template? name with
  | some name, none => [.unknownTemplate name]
  | _, _ => []

/-- The declaration is the one that the literal parts and the template make. -/
structure Builds (p : Parser) (literal : Literal) (name : Option String) (d : Declaration) :
    Prop where
  fieldType : literal.fieldType.or ((p.template? name).bind (·.fieldType)) = some d.fieldType
  arguments : d.arguments = p.mergedArguments literal name
  target : d.target = p.effectiveTarget literal name
  isBound : d.isBound = d.target.isSome
  templateName : d.templateName = name
  isMet : literal.isBound = some true → d.target.isSome = true
  checked : d.check p.dateFormat = .ok ()

/-- The arguments of a declaration are its own, or they are from a template of the parser. -/
theorem mem_arguments_of_builds {p : Parser} {literal : Literal} {name : Option String}
    {d : Declaration} (hd : p.Builds literal name d) {a : Argument} (ha : a ∈ d.arguments) :
    a ∈ literal.arguments ∨ ∃ t ∈ p.templates.templates, a ∈ t.arguments := by
  rw [hd.arguments] at ha
  unfold mergedArguments at ha
  cases ht : p.template? name with
  | none =>
    rw [ht] at ha
    exact .inl ha
  | some t =>
    rw [ht] at ha
    rcases List.mem_append.1 ha with ha | ha
    · obtain ⟨n, -, hget⟩ := Option.bind_eq_some_iff.1 ht
      exact .inr ⟨t, List.mem_of_find?_eq_some hget, (List.mem_filter.1 ha).1⟩
    · exact .inl ha

/-- A declaration is bound exactly if it has a target. -/
theorem not_missing_iff {target : Option String} {bound : Option Bool} :
    (¬ ((target.isSome || bound.getD false) && target.isNone) = true) ↔
      (target.isSome || bound.getD false) = target.isSome ∧
        (bound = some true → target.isSome = true) := by
  cases target with
  | some t => simp
  | none =>
    cases bound with
    | none => simp
    | some b => cases b <;> simp

/-- The parser builds the declaration that the literal parts and the template make, and no
other. -/
theorem build_eq_ok_iff {p : Parser} {literal : Literal} {name : Option String}
    {outcome : ParseOutcome} :
    p.build literal name = .ok outcome ↔
      p.Builds literal name outcome.declaration ∧ outcome.warnings = p.warnings name := by
  constructor
  · intro h
    unfold build at h
    dsimp only at h
    split at h
    · next type htype =>
      obtain ⟨_, hok, h⟩ := Outcome.bind_eq_ok_iff.1 h
      cases hok
      split at h
      · cases h
      · next hbound =>
        obtain ⟨_, hcheck, hpure⟩ := Outcome.bind_eq_ok_iff.1 h
        cases hpure
        obtain ⟨hsome, hmet⟩ := not_missing_iff.1 hbound
        exact ⟨⟨htype, rfl, rfl, hsome, rfl, hmet, hcheck⟩, rfl⟩
    · cases h
  · obtain ⟨d, warnings⟩ := outcome
    rintro ⟨h, rfl⟩
    have hsome : (d.target.isSome || literal.isBound.getD false) = d.target.isSome := by
      cases hbound : literal.isBound with
      | none => exact Bool.or_false _
      | some b =>
        cases b with
        | false => exact Bool.or_false _
        | true => rw [h.isMet hbound, Bool.true_or]
    have hd : (⟨d.fieldType, p.mergedArguments literal name,
        d.target.isSome || literal.isBound.getD false, d.target, name⟩ : Declaration) = d := by
      rw [hsome, ← h.isBound, ← h.arguments, ← h.templateName]
    -- With a target the declaration is bound, and without one nobody asked for that.
    have hfree := not_missing_iff.2 ⟨hsome, h.isMet⟩
    have hcheck := h.checked
    rw [← hd, h.target] at hcheck
    rw [h.target] at hfree
    have hbuilt : p.build literal name = .ok ⟨⟨d.fieldType, p.mergedArguments literal name,
        (p.effectiveTarget literal name).isSome || literal.isBound.getD false,
        p.effectiveTarget literal name, name⟩, p.warnings name⟩ := by
      unfold build
      dsimp only
      split
      · next type htype =>
        obtain rfl : type = d.fieldType := Option.some.inj (htype.symm.trans h.fieldType)
        refine Outcome.bind_eq_ok_iff.2 ⟨_, rfl, ?_⟩
        refine (if_neg hfree).trans ?_
        exact Outcome.bind_eq_ok_iff.2 ⟨(), hcheck, rfl⟩
      · next hnone => exact absurd (hnone.symm.trans h.fieldType) (by simp)
    rw [hbuilt, ← h.target, hd]

/-- What a text is read to: the parser builds it from what the text gives. -/
theorem read_iff {p : Parser} {text : String} {d : Declaration} :
    p.read text = .ok d ↔ ∃ raw fieldType arguments,
      RawDeclaration.read text = .ok raw ∧ raw.fieldType = .ok fieldType ∧
      readNamedArguments p.dateFormat (ownerLabel fieldType raw.template) raw.namedArguments =
        .ok arguments ∧
      p.Builds ⟨fieldType, arguments, none, raw.body.target⟩ raw.template d := by
  unfold read readOutcome
  rw [Outcome.map_eq_ok_iff]
  constructor
  · rintro ⟨outcome, h, rfl⟩
    obtain ⟨raw, hraw, h⟩ := Outcome.bind_eq_ok_iff.1 h
    obtain ⟨fieldType, htype, h⟩ := Outcome.bind_eq_ok_iff.1 h
    obtain ⟨arguments, harguments, h⟩ := Outcome.bind_eq_ok_iff.1 h
    exact ⟨raw, fieldType, arguments, hraw, htype, harguments, (build_eq_ok_iff.1 h).1⟩
  · rintro ⟨raw, fieldType, arguments, hraw, htype, harguments, hbuild⟩
    have h : p.build _ raw.template = .ok ⟨d, p.warnings raw.template⟩ :=
      build_eq_ok_iff.2 ⟨hbuild, rfl⟩
    exact ⟨_, Outcome.bind_eq_ok_iff.2 ⟨raw, hraw, Outcome.bind_eq_ok_iff.2
      ⟨fieldType, htype, Outcome.bind_eq_ok_iff.2 ⟨arguments, harguments, h⟩⟩⟩, rfl⟩

end Parser

end BoundFields
