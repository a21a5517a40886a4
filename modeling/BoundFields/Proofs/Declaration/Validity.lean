import BoundFields.Proofs.Declaration.RoundTrip

/-!
# Valid declarations

`Declaration.IsValid` is what holds of every declaration that a parser makes, from a text or from a
draft and whatever the template adds. In turn a draft without a template is refused only if its
type is missing, an argument cannot be read, it is said to be bound and has no target, or what it is
made into is not valid (`Draft.IsFlawed`). `Parser.isValid_and_refused_iff` says both.
-/

set_option autoImplicit false

namespace BoundFields

open Text

/-! ## The condition -/

namespace Declaration

/-- A field with this declaration can hold the value that a text stands for. -/
def CanHold (d : Declaration) (dateFormat raw : String) : Prop :=
  match d.fieldType with
  | .toggle => raw = "true" ∨ raw = "false"
  | .slider => ∃ min max n, d.number? .minValue = some min ∧ d.number? .maxValue = some max ∧
      Double.read? (trim raw.toList) = some n ∧ min.le n = true ∧ n.le max = true
  | .select => d.options = [] ∨ raw ∈ d.options
  | .multiSelect => d.options = [] ∨ ∀ item ∈ commaItems raw, item ∈ d.options
  | .date | .datePicker => ∃ date, Date.read? dateFormat (trim raw.toList) = some date
  | .time => ∃ time, TimeOfDay.read? (trim raw.toList) = some time
  | .text | .textArea | .invalid => True

/-- The numbers and the dates that bound the values are in order. -/
structure IsInOrder (d : Declaration) : Prop where
  numbers : ∀ min max, d.number? .minValue = some min → d.number? .maxValue = some max →
    max.lt min = false
  dates : ∀ min max, d.givenDate? .minDate = some min → d.givenDate? .maxDate = some max →
    min.le max = true

/-- Everything that a declaration must satisfy where dates have the given format. -/
structure IsValid (d : Declaration) (dateFormat : String) : Prop where
  hasType : d.fieldType ≠ .invalid
  isBound_iff : d.isBound = true ↔ ∃ t, d.target = some t
  target : ∀ t, d.target = some t → isBlankString t = false
  allowed : ∀ a ∈ d.arguments, d.fieldType.allows a.kind = true
  once : ∀ kind, kind.isRepeatable = false → (d.argumentsOf kind).length ≤ 1
  arguments : ∀ a ∈ d.arguments, a.IsReadIn dateFormat
  inOrder : d.IsInOrder
  default : ∀ raw, d.givenText? .defaultValue = some raw → d.CanHold dateFormat raw

end Declaration

/-! ## The checks -/

theorem checkAllowed_eq_ok_iff {type : FieldType} {arguments : List Argument} :
    checkAllowed type arguments = .ok () ↔ ∀ a ∈ arguments, type.allows a.kind = true := by
  unfold checkAllowed
  cases hfound : arguments.find? (!type.allows ·.kind) with
  | none =>
    refine ⟨fun _ a ha => ?_, fun _ => rfl⟩
    simpa using List.find?_eq_none.1 hfound a ha
  | some a =>
    have hbad : type.allows a.kind = false := by simpa using List.find?_some hfound
    refine ⟨fun h => absurd h (by simp), fun h => ?_⟩
    rw [h a (List.mem_of_find?_eq_some hfound)] at hbad
    cases hbad

/-- The kinds seen before count as one occurrence each. -/
theorem checkRepeats_eq_ok_iff {seen : List ArgumentKind} {arguments : List Argument} :
    checkRepeats seen arguments = .ok () ↔ ∀ kind, kind.isRepeatable = false →
      (arguments.filter (·.kind = kind)).length + (if kind ∈ seen then 1 else 0) ≤ 1 := by
  induction arguments generalizing seen with
  | nil =>
    refine ⟨fun _ kind _ => ?_, fun _ => rfl⟩
    rw [List.filter_nil, List.length_nil]
    split <;> omega
  | cons first more ih =>
    have hlength (kind : ArgumentKind) : ((first :: more).filter (·.kind = kind)).length =
        (more.filter (·.kind = kind)).length + (if first.kind = kind then 1 else 0) := by
      rw [List.filter_cons]
      by_cases h : first.kind = kind <;> simp [h]
    unfold checkRepeats
    by_cases hrepeat : (!first.kind.isRepeatable && seen.contains first.kind) = true
    · rw [if_pos hrepeat]
      simp only [Bool.and_eq_true, Bool.not_eq_true', List.contains_iff_mem] at hrepeat
      obtain ⟨honce, hseen⟩ := hrepeat
      refine ⟨fun h => absurd h (by simp), fun h => ?_⟩
      -- The first argument is the second one of its kind.
      have htwo := h first.kind honce
      rw [hlength, if_pos rfl, if_pos hseen] at htwo
      omega
    · rw [if_neg hrepeat, ih]
      have hsame (kind : ArgumentKind) (honce : kind.isRepeatable = false) :
          (more.filter (·.kind = kind)).length + (if kind ∈ first.kind :: seen then 1 else 0) =
            ((first :: more).filter (·.kind = kind)).length +
              (if kind ∈ seen then 1 else 0) := by
        rw [hlength]
        by_cases hkind : first.kind = kind
        · have hnew : kind ∉ seen := by
            intro hseen
            apply hrepeat
            simp [hkind, honce, hseen]
          rw [if_pos (by rw [hkind]; exact List.mem_cons_self), if_pos hkind, if_neg hnew]
        · have hmem : kind ∈ first.kind :: seen ↔ kind ∈ seen := by
            simp [Ne.symm hkind]
          rw [if_neg hkind, Nat.add_zero]
          simp only [hmem]
      refine forall₂_congr fun kind honce => ?_
      rw [hsame kind honce]

namespace Declaration

variable {d : Declaration} {dateFormat : String}

theorem checkRanges_eq_ok_iff : d.checkRanges = .ok () ↔ d.IsInOrder := by
  unfold checkRanges
  simp only
  refine Outcome.bind_eq_ok_iff.trans ⟨?_, ?_⟩
  · rintro ⟨⟨⟩, hnumbers, hdates⟩
    refine ⟨fun min max hmin hmax => ?_, fun min max hmin hmax => ?_⟩
    · rw [hmin, hmax] at hnumbers
      simpa using hnumbers
    · rw [hmin, hmax] at hdates
      simpa using hdates
  · rintro ⟨hnumbers, hdates⟩
    refine ⟨(), ?_, ?_⟩
    · split
      · next min max hmin hmax => rw [hnumbers min max hmin hmax, if_neg Bool.false_ne_true]
      · rfl
    · split
      · next min max hmin hmax => rw [hdates min max hmin hmax, if_pos rfl]
      · rfl

/-- A number argument that was read, or is given by the type, is a finite number. -/
theorem exists_number? {kind : ArgumentKind}
    (hread : ∀ a ∈ d.arguments, ∃ format, a.IsReadIn format) (hshape : kind.shape = .number)
    (hdefault : ∃ n, d.fieldType.defaultArgument? kind = some (.number n) ∧ n.isFinite = true) :
    ∃ n, d.number? kind = some n ∧ n.isFinite = true := by
  unfold number? effective?
  cases ha : d.argument? kind with
  | none =>
    obtain ⟨n, hn, hfinite⟩ := hdefault
    exact ⟨n, by rw [Option.map_none, Option.none_or, hn]; rfl, hfinite⟩
  | some a =>
    -- The form of an argument is told by its kind, whatever the date format was when it was read.
    have hkind : a.kind = kind := by simpa using List.find?_some ha
    obtain ⟨format, ha'⟩ := hread a (List.mem_of_find?_eq_some ha)
    have hnumber : ∃ n, a.value = .number n ∧ n.isFinite = true := by
      unfold Argument.IsReadIn Argument.ofText at ha'
      rw [hkind, hshape] at ha'
      cases hraw : a.raw with
      | none =>
        rw [hraw] at ha'
        exact absurd ha' (by simp [ValueShape.read?])
      | some raw =>
        rw [hraw] at ha'
        simp only [ValueShape.read?] at ha'
        cases hn : Double.readFinite? (trim raw.toList) with
        | none =>
          rw [hn] at ha'
          exact absurd ha' (by simp)
        | some n =>
          rw [hn, Option.map_some] at ha'
          exact ⟨n, (congrArg Argument.value (Except.ok.inj ha')).symm,
            (Option.filter_eq_some_iff.1 hn).2⟩
    obtain ⟨n, hn, hfinite⟩ := hnumber
    exact ⟨n, by rw [Option.map_some, Option.some_or, hn]; rfl, hfinite⟩

/-- A slider has both of its bounds, and they are finite. -/
theorem exists_bounds (hread : ∀ a ∈ d.arguments, ∃ format, a.IsReadIn format)
    (htype : d.fieldType = .slider) :
    ∃ min max, d.number? .minValue = some min ∧ d.number? .maxValue = some max ∧
      min.isFinite = true ∧ max.isFinite = true := by
  have hmin₀ : d.fieldType.defaultArgument? .minValue = some (.number Double.zero) := by
    rw [htype]
    rfl
  have hmax₀ : d.fieldType.defaultArgument? .maxValue = some (.number (Double.ofInt 100)) := by
    rw [htype]
    rfl
  obtain ⟨min, hmin, hminFinite⟩ := exists_number? hread rfl ⟨_, hmin₀, rfl⟩
  obtain ⟨max, hmax, hmaxFinite⟩ := exists_number? hread rfl ⟨_, hmax₀, by decide +kernel⟩
  exact ⟨min, max, hmin, hmax, hminFinite, hmaxFinite⟩

/-- The default value is checked against what the field can hold. -/
theorem defaultProblem?_eq_none_iff (hread : ∀ a ∈ d.arguments, ∃ format, a.IsReadIn format)
    {raw : String} : d.defaultProblem? dateFormat raw = none ↔ d.CanHold dateFormat raw := by
  unfold defaultProblem? CanHold
  cases htype : d.fieldType with
  | toggle => simp [or_iff_not_imp_left]
  | slider =>
    obtain ⟨min, max, hmin, hmax, -, -⟩ := exists_bounds hread htype
    simp only [hmin, hmax, Option.getD_some, Option.some.injEq]
    cases Double.read? (trim raw.toList) with
    | none => simp
    | some n => simp
  | select => simp [or_iff_not_imp_left]
  | multiSelect => simp [or_iff_not_imp_left]
  | date | datePicker | time => simp [Option.isSome_iff_exists]
  | text | textArea | invalid => simp

theorem checkDefault_eq_ok_iff (hread : ∀ a ∈ d.arguments, ∃ format, a.IsReadIn format) :
    d.checkDefault dateFormat = .ok () ↔
      ∀ raw, d.givenText? .defaultValue = some raw → d.CanHold dateFormat raw := by
  have hnone : d.checkDefault dateFormat = .ok () ↔
      (d.givenText? .defaultValue).bind (d.defaultProblem? dateFormat) = none := by
    unfold checkDefault
    split
    · next hsome => simp [hsome]
    · next hnone => simp [hnone]
  rw [hnone, Option.bind_eq_none_iff]
  exact forall₂_congr fun raw _ => defaultProblem?_eq_none_iff hread

/-- The checks in a row are passed by the declarations that satisfy what each of them is about. -/
theorem check_eq_ok_iff : d.check dateFormat = .ok () ↔
    checkAllowed d.fieldType d.arguments = .ok () ∧ checkRepeats [] d.arguments = .ok () ∧
      d.checkRanges = .ok () ∧ d.checkDefault dateFormat = .ok () := by
  unfold check
  constructor
  · intro h
    obtain ⟨⟨⟩, hallowed, h⟩ := Outcome.bind_eq_ok_iff.1 h
    obtain ⟨⟨⟩, hrepeats, h⟩ := Outcome.bind_eq_ok_iff.1 h
    obtain ⟨⟨⟩, hranges, hdefault⟩ := Outcome.bind_eq_ok_iff.1 h
    exact ⟨hallowed, hrepeats, hranges, hdefault⟩
  · rintro ⟨hallowed, hrepeats, hranges, hdefault⟩
    rw [hallowed]
    refine Outcome.bind_eq_ok_iff.2 ⟨(), rfl, ?_⟩
    rw [hrepeats]
    refine Outcome.bind_eq_ok_iff.2 ⟨(), rfl, ?_⟩
    rw [hranges]
    exact Outcome.bind_eq_ok_iff.2 ⟨(), rfl, hdefault⟩

theorem isInOrder_of_check (h : d.check dateFormat = .ok ()) : d.IsInOrder :=
  checkRanges_eq_ok_iff.1 (check_eq_ok_iff.1 h).2.2.1

/-- For a declaration whose parts were read, the checks tell whether it is valid. -/
theorem isValid_iff_check (htype : d.fieldType ≠ .invalid)
    (hbound : d.isBound = d.target.isSome)
    (htarget : ∀ t, d.target = some t → isBlankString t = false)
    (hread : ∀ a ∈ d.arguments, a.IsReadIn dateFormat) :
    d.IsValid dateFormat ↔ d.check dateFormat = .ok () := by
  rw [check_eq_ok_iff, checkAllowed_eq_ok_iff, checkRepeats_eq_ok_iff, checkRanges_eq_ok_iff,
    checkDefault_eq_ok_iff fun a ha => ⟨_, hread a ha⟩]
  simp only [List.not_mem_nil, if_false, Nat.add_zero]
  constructor
  · intro h
    exact ⟨h.allowed, h.once, h.inOrder, h.default⟩
  · rintro ⟨hallowed, honce, hinOrder, hdefault⟩
    exact ⟨htype, by rw [hbound, Option.isSome_iff_exists], htarget, hallowed, honce, hread,
      hinOrder, hdefault⟩

/-- What a draft without a template is made into, if its type and its arguments can be read. -/
structure IsDrafted (d : Declaration) (dateFormat : String) (draft : Draft)
    (pairs : List (String × Option String)) : Prop where
  fieldType : draft.fieldType = some d.fieldType
  written : d.arguments.map Argument.written = pairs
  arguments : ∀ a ∈ d.arguments, a.IsReadIn dateFormat
  target : d.target = draft.target.filter (!isBlankString ·)
  isBound : d.isBound = d.target.isSome
  templateName : d.templateName = none

/-- A draft is made into one declaration only. -/
theorem IsDrafted.unique {d' : Declaration} {draft : Draft} {pairs : List (String × Option String)}
    (h : d.IsDrafted dateFormat draft pairs) (h' : d'.IsDrafted dateFormat draft pairs) :
    d = d' := by
  have htype := Option.some.inj (h.fieldType.symm.trans h'.fieldType)
  have hread := readNamedArguments_written "" h.arguments
  have hread' := readNamedArguments_written "" h'.arguments
  rw [h.written] at hread
  rw [h'.written, hread] at hread'
  have htarget := h.target.trans h'.target.symm
  have hbound : d.isBound = d'.isBound := by rw [h.isBound, h'.isBound, htarget]
  have hname := h.templateName.trans h'.templateName.symm
  cases d
  cases d'
  exact (Declaration.mk.injEq ..).mpr ⟨htype, Except.ok.inj hread', hbound, htarget, hname⟩

end Declaration

/-- Something is wrong with a draft that has no template. -/
inductive Draft.IsFlawed (draft : Draft) (dateFormat : String)
    (pairs : List (String × Option String)) : Prop where
  | noType (h : draft.fieldType = none ∨ draft.fieldType = some .invalid)
  /-- The name of an argument or the text of its value is bad. -/
  | badArgument (name : String) (raw : Option String) (mem : (name, raw) ∈ pairs)
      (bad : ∀ kind, ArgumentKind.ofName? name = some kind →
        kind.shape.read? dateFormat raw = none)
  | noTarget (bound : draft.isBound = some true)
      (blank : ∀ t, draft.target = some t → isBlankString t = true)
  /-- What the draft is made into is not valid. -/
  | notValid (d : Declaration) (drafted : d.IsDrafted dateFormat draft pairs)
      (h : ¬ d.IsValid dateFormat)

/-! ## What parsers make -/

/-- A draft of no valid type is one that gives no type. -/
theorem Draft.fieldType_ne_invalid (draft : Draft) :
    draft.fieldType.filter (· ≠ .invalid) ≠ some .invalid := by
  intro hinvalid
  exact absurd (Option.filter_eq_some_iff.1 hinvalid).2 (by decide)

namespace Parser

section Made

variable {p : Parser} {literal : Literal} {name : Option String} {d : Declaration}

theorem isValid_of_builds (hp : p.TemplatesAreRead)
    (harguments : ∀ a ∈ literal.arguments, a.IsReadIn p.dateFormat)
    (htype : literal.fieldType ≠ some .invalid) (hd : p.Builds literal name d) :
    d.IsValid p.dateFormat :=
  (Declaration.isValid_iff_check
    (fieldType_ne_invalid_of_builds (fun t ht => ⟨_, hp t ht⟩) htype hd) hd.isBound
    (fun _ ht => isBlankString_target_of_builds hd ht) (isReadIn_of_builds hp harguments hd)).2
    hd.checked

theorem isValid_of_read (hp : p.TemplatesAreRead) {text : String} (h : p.read text = .ok d) :
    d.IsValid p.dateFormat := by
  obtain ⟨raw, fieldType, arguments, -, htype, harguments, hbuilds⟩ := read_iff.1 h
  exact isValid_of_builds hp (isReadIn_of_readNamedArguments harguments)
    (RawDeclaration.fieldType_ne_invalid htype) hbuilds

theorem isValid_of_ofDraft (hp : p.TemplatesAreRead) {draft : Draft}
    {override : Option (List (String × Option String))} {outcome : ParseOutcome}
    (h : p.ofDraft draft override name = .ok outcome) :
    outcome.declaration.IsValid p.dateFormat := by
  obtain ⟨arguments, harguments, hbuild⟩ := Outcome.bind_eq_ok_iff.1 h
  exact isValid_of_builds hp (isReadIn_of_readNamedArguments harguments)
    draft.fieldType_ne_invalid (build_eq_ok_iff.1 hbuild).1

end Made

/-! ## Drafts without a template -/

@[simp] theorem template?_none (p : Parser) : p.template? none = none := rfl

@[simp] theorem mergedArguments_none (p : Parser) (literal : Literal) :
    p.mergedArguments literal none = literal.arguments := rfl

@[simp] theorem effectiveTarget_none (p : Parser) (literal : Literal) :
    p.effectiveTarget literal none = literal.target.filter (!isBlankString ·) := by
  rw [effectiveTarget, template?_none, Option.bind_none, Option.or_none]

section Drafts

variable {p : Parser} {draft : Draft} {override : Option (List (String × Option String))}

theorem ArgumentKind.name_of_ofName? {name : String} {kind : ArgumentKind}
    (h : ArgumentKind.ofName? name = some kind) : kind.name = name := by
  simpa using List.find?_some h

theorem written_of_readNamedArguments {dateFormat owner : String}
    {pairs : List (String × Option String)} {arguments : List Argument}
    (h : readNamedArguments dateFormat owner pairs = .ok arguments) :
    arguments.map Argument.written = pairs := by
  unfold readNamedArguments at h
  have hpairs : List.Forall₂ (fun pair a => pair = Argument.written a) pairs arguments := by
    refine List.Forall₂.imp (fun pair a ha => ?_) (Outcome.mapM_eq_ok_iff.1 h)
    obtain ⟨hname, hraw, -⟩ := readNamedArgument_iff.1 ha
    rw [Argument.written, ArgumentKind.name_of_ofName? hname, hraw]
  rw [← List.forall₂_map_right_iff, List.forall₂_eq_eq_eq] at hpairs
  exact hpairs.symm

/-- A draft is accepted if it can be read, has the target that it says it has, and stands for a
valid declaration. -/
theorem ofDraft_eq_ok_iff {outcome : ParseOutcome} :
    p.ofDraft draft override none = .ok outcome ↔
      outcome.declaration.IsDrafted p.dateFormat draft (override.getD draft.arguments) ∧
      (draft.isBound = some true → outcome.declaration.target.isSome = true) ∧
      outcome.declaration.IsValid p.dateFormat ∧ outcome.warnings = [] := by
  constructor
  · intro h
    obtain ⟨arguments, harguments, hbuild⟩ := Outcome.bind_eq_ok_iff.1 h
    obtain ⟨hd, hwarnings⟩ := build_eq_ok_iff.1 hbuild
    have htype := hd.fieldType
    have hown := hd.arguments
    have htarget := hd.target
    rw [template?_none, Option.bind_none, Option.or_none, Option.filter_eq_some_iff] at htype
    rw [mergedArguments_none] at hown
    rw [effectiveTarget_none] at htarget
    simp only at hown
    rw [← hown] at harguments
    have hread := isReadIn_of_readNamedArguments harguments
    refine ⟨⟨htype.1, written_of_readNamedArguments harguments, hread, htarget, hd.isBound,
      hd.templateName⟩, hd.isMet, ?_, hwarnings⟩
    refine (Declaration.isValid_iff_check (by simpa using htype.2) hd.isBound ?_ hread).2 hd.checked
    intro t ht
    exact isBlankString_target_of_builds hd ht
  · rintro ⟨hd, hmet, hvalid, hwarnings⟩
    have harguments := readNamedArguments_written
      (ownerLabel (draft.fieldType.filter (· ≠ .invalid)) none) hd.arguments
    rw [hd.written] at harguments
    have hcheck := (Declaration.isValid_iff_check hvalid.hasType hd.isBound hvalid.target
      hvalid.arguments).1 hvalid
    refine Outcome.bind_eq_ok_iff.2 ⟨_, harguments, build_eq_ok_iff.2 ⟨⟨?_, ?_, ?_, hd.isBound,
      hd.templateName, hmet, hcheck⟩, hwarnings⟩⟩
    · rw [template?_none, Option.bind_none, Option.or_none, hd.fieldType,
        Option.filter_some_pos (by simpa using hvalid.hasType)]
    · rw [mergedArguments_none]
    · rw [effectiveTarget_none, hd.target]

/-- Pairs that can each be read are read together. -/
theorem exists_arguments {dateFormat : String} {pairs : List (String × Option String)}
    (h : ∀ pair ∈ pairs, ∃ kind value, ArgumentKind.ofName? pair.1 = some kind ∧
      kind.shape.read? dateFormat pair.2 = some value) :
    ∃ arguments : List Argument, arguments.map Argument.written = pairs ∧
      ∀ a ∈ arguments, a.IsReadIn dateFormat := by
  induction pairs with
  | nil => exact ⟨[], rfl, fun a ha => absurd ha (by simp)⟩
  | cons pair more ih =>
    obtain ⟨kind, value, hname, hvalue⟩ := h pair List.mem_cons_self
    obtain ⟨arguments, hwritten, hread⟩ :=
      ih fun pair hpair => h pair (List.mem_cons_of_mem _ hpair)
    refine ⟨⟨kind, value, pair.2⟩ :: arguments, ?_, fun a ha => ?_⟩
    · rw [List.map_cons, hwritten, Argument.written, ArgumentKind.name_of_ofName? hname]
    · rcases List.mem_cons.1 ha with rfl | ha
      · unfold Argument.IsReadIn Argument.ofText
        simp only [hvalue]
      · exact hread a ha

theorem isFlawed_of_ofDraft {e : Error} (h : p.ofDraft draft override none = .error e) :
    draft.IsFlawed p.dateFormat (override.getD draft.arguments) := by
  by_contra hflawed
  have hpairs : ∀ pair ∈ override.getD draft.arguments, ∃ kind value,
      ArgumentKind.ofName? pair.1 = some kind ∧
        kind.shape.read? p.dateFormat pair.2 = some value := by
    rintro ⟨name, raw⟩ hmem
    by_contra hbad
    refine hflawed (.badArgument name raw hmem fun kind hkind => ?_)
    rw [Option.eq_none_iff_forall_ne_some]
    intro value hvalue
    exact hbad ⟨kind, value, hkind, hvalue⟩
  obtain ⟨arguments, hwritten, hread⟩ := exists_arguments hpairs
  cases htype : draft.fieldType with
  | none => exact hflawed (.noType (.inl htype))
  | some type =>
    have hdrafted : Declaration.IsDrafted ⟨type, arguments,
        (draft.target.filter (!isBlankString ·)).isSome,
        draft.target.filter (!isBlankString ·), none⟩ p.dateFormat draft
          (override.getD draft.arguments) := ⟨htype, hwritten, hread, rfl, rfl, rfl⟩
    by_cases hvalid : Declaration.IsValid ⟨type, arguments,
        (draft.target.filter (!isBlankString ·)).isSome,
        draft.target.filter (!isBlankString ·), none⟩ p.dateFormat
    · -- Only the target can still be missing, since the draft would be accepted otherwise.
      have hmissing : ¬ (draft.isBound = some true →
          (draft.target.filter (!isBlankString ·)).isSome = true) := by
        intro hmet
        have hok : p.ofDraft draft override none = .ok ⟨_, []⟩ :=
          ofDraft_eq_ok_iff.2 ⟨hdrafted, hmet, hvalid, rfl⟩
        rw [hok] at h
        cases h
      obtain ⟨hbound, hnone⟩ := Classical.not_imp.1 hmissing
      refine hflawed (.noTarget hbound fun t ht => ?_)
      rw [ht] at hnone
      by_contra hblank
      exact hnone (by rw [Option.filter_some_pos (by simpa using hblank)]; rfl)
    · exact hflawed (.notValid _ hdrafted hvalid)

theorem not_isFlawed_of_ofDraft {outcome : ParseOutcome}
    (h : p.ofDraft draft override none = .ok outcome) :
    ¬ draft.IsFlawed p.dateFormat (override.getD draft.arguments) := by
  obtain ⟨hdrafted, hmet, hvalid, -⟩ := ofDraft_eq_ok_iff.1 h
  intro hflawed
  cases hflawed with
  | noType hnone =>
    rw [hdrafted.fieldType] at hnone
    rcases hnone with hnone | hinvalid
    · cases hnone
    · exact hvalid.hasType (Option.some.inj hinvalid)
  | badArgument name raw hmem hbad =>
    rw [← hdrafted.written] at hmem
    obtain ⟨a, ha, hwritten⟩ := List.mem_map.1 hmem
    obtain ⟨rfl, rfl⟩ := Prod.mk.inj hwritten
    have hread := hdrafted.arguments a ha
    unfold Argument.IsReadIn Argument.ofText at hread
    rw [hbad a.kind (ArgumentKind.ofName?_name a.kind)] at hread
    cases hread
  | noTarget hbound hblank =>
    obtain ⟨t, ht⟩ := Option.isSome_iff_exists.1 (hmet hbound)
    have hgiven := hdrafted.target
    rw [ht] at hgiven
    obtain ⟨hsome, hnot⟩ := Option.filter_eq_some_iff.1 hgiven.symm
    rw [hblank t hsome] at hnot
    cases hnot
  | notValid d hdrafted' hnot =>
    rw [Declaration.IsDrafted.unique hdrafted' hdrafted] at hnot
    exact hnot hvalid

/-- The declarations of a parser are valid, and a draft without a template is refused only if there
is something wrong with it. -/
theorem isValid_and_refused_iff (p : Parser) (sources : List TemplateSource) :
    (∀ text d, (p.loadTemplates sources).1.read text = .ok d → d.IsValid p.dateFormat) ∧
    (∀ draft override templateName outcome,
      (p.loadTemplates sources).1.ofDraft draft override templateName = .ok outcome →
        outcome.declaration.IsValid p.dateFormat) ∧
    ∀ (draft : Draft) (override : Option (List (String × Option String))),
      (∃ e, (p.loadTemplates sources).1.ofDraft draft override none = .error e) ↔
        draft.IsFlawed p.dateFormat (override.getD draft.arguments) := by
  have hp := p.templatesAreRead_loadTemplates sources
  refine ⟨fun _ _ h => ?_, fun _ _ _ _ h => ?_, fun draft override => ⟨?_, ?_⟩⟩
  · exact isValid_of_read (p := (p.loadTemplates sources).1) hp h
  · exact isValid_of_ofDraft (p := (p.loadTemplates sources).1) hp h
  · rintro ⟨e, h⟩
    exact isFlawed_of_ofDraft h
  · intro hflawed
    cases h : (p.loadTemplates sources).1.ofDraft draft override none with
    | error e => exact ⟨e, rfl⟩
    | ok outcome => exact absurd hflawed (not_isFlawed_of_ofDraft h)

/-- A choice with a default that is on offer, a draft with a target, and one that lacks the target
it is said to have. -/
theorem isValid_and_refused_iff_select :
    (Parser.loadTemplates {} []).1.read "INPUT[select(option(a), option(b), defaultValue(b)):x]" =
        .ok ⟨.select, [⟨.option, .text "a", some "a"⟩, ⟨.option, .text "b", some "b"⟩,
          ⟨.defaultValue, .text "b", some "b"⟩], true, some "x", none⟩ ∧
      Declaration.IsValid ⟨.select, [⟨.option, .text "a", some "a"⟩,
        ⟨.option, .text "b", some "b"⟩, ⟨.defaultValue, .text "b", some "b"⟩], true, some "x",
          none⟩ defaultDateFormat ∧
      Declaration.IsValid ⟨.toggle, [], true, some "done", none⟩ defaultDateFormat ∧
      ∃ e, (Parser.loadTemplates {} []).1.ofDraft
        { fieldType := some .toggle, isBound := some true } none none = .error e := by
  have hread : (Parser.loadTemplates {} []).1.read
      "INPUT[select(option(a), option(b), defaultValue(b)):x]" =
        .ok ⟨.select, [⟨.option, .text "a", some "a"⟩, ⟨.option, .text "b", some "b"⟩,
          ⟨.defaultValue, .text "b", some "b"⟩], true, some "x", none⟩ := by
    decide +kernel
  have hdraft : (Parser.loadTemplates {} []).1.ofDraft
      { fieldType := some .toggle, target := some "done" } none none =
        .ok ⟨⟨.toggle, [], true, some "done", none⟩, []⟩ := by
    decide +kernel
  obtain ⟨hvalid, hdrafts, hrefused⟩ := isValid_and_refused_iff {} []
  refine ⟨hread, hvalid _ _ hread, hdrafts _ _ _ _ hdraft, (hrefused _ none).2 ?_⟩
  exact .noTarget rfl fun t ht => by cases ht

end Drafts

end Parser

end BoundFields
