import BoundFields.Proofs.Number.Whole
import BoundFields.Proofs.Declaration.Validity

/-!
# Accepted declarations

A declaration is accepted if some parser makes it, from a text or from a draft. Its arguments were
read, those of a template perhaps in another date format, and it has passed the checks of its
parser. This is all that the controls rely on.
-/

set_option autoImplicit false

namespace BoundFields

/-- The parser makes the declaration from a text, or from a draft. -/
def Parser.Accepts (p : Parser) (d : Declaration) : Prop :=
  (∃ text, p.read text = .ok d) ∨ ∃ draft override name outcome,
    p.ofDraft draft override name = .ok outcome ∧ outcome.declaration = d

/-- The parser builds what it accepts from a type and arguments that it has read itself. -/
theorem Parser.exists_builds_of_accepts {p : Parser} {d : Declaration} (h : p.Accepts d) :
    ∃ literal name, p.Builds literal name d ∧ literal.fieldType ≠ some .invalid ∧
      ∀ a ∈ literal.arguments, a.IsReadIn p.dateFormat := by
  rcases h with ⟨text, hread⟩ | ⟨draft, override, name, outcome, hmade, rfl⟩
  · obtain ⟨raw, fieldType, arguments, -, htype, harguments, hbuilds⟩ := read_iff.1 hread
    exact ⟨_, _, hbuilds, RawDeclaration.fieldType_ne_invalid htype,
      isReadIn_of_readNamedArguments harguments⟩
  · obtain ⟨arguments, harguments, hbuild⟩ := Outcome.bind_eq_ok_iff.1 hmade
    exact ⟨_, _, (build_eq_ok_iff.1 hbuild).1, draft.fieldType_ne_invalid,
      isReadIn_of_readNamedArguments harguments⟩

/-- What a parser accepts has passed the checks in the date format of the parser. -/
theorem Parser.check_of_accepts {p : Parser} {d : Declaration} (h : p.Accepts d) :
    d.check p.dateFormat = .ok () := by
  obtain ⟨literal, name, hbuilds, -, -⟩ := Parser.exists_builds_of_accepts h
  exact hbuilds.checked

namespace Declaration

/-- The declaration is one that a parser made, whose templates were loaded. -/
def IsAccepted (d : Declaration) : Prop := ∃ p : Parser, p.IsLoaded ∧ p.Accepts d

variable {d : Declaration}

theorem IsAccepted.exists_isReadIn (h : d.IsAccepted) :
    ∀ a ∈ d.arguments, ∃ format, a.IsReadIn format := by
  obtain ⟨p, hp, haccepts⟩ := h
  obtain ⟨literal, name, hbuilds, -, harguments⟩ := Parser.exists_builds_of_accepts haccepts
  intro a ha
  rcases Parser.mem_arguments_of_builds hbuilds ha with ha | ⟨t, ht, ha⟩
  · exact ⟨p.dateFormat, harguments a ha⟩
  · obtain ⟨format, hformat⟩ := hp.exists_isReadIn t ht
    exact ⟨format, hformat.arguments a ha⟩

theorem IsAccepted.fieldType_ne_invalid (h : d.IsAccepted) : d.fieldType ≠ .invalid := by
  obtain ⟨p, hp, haccepts⟩ := h
  obtain ⟨literal, name, hbuilds, htype, -⟩ := Parser.exists_builds_of_accepts haccepts
  exact Parser.fieldType_ne_invalid_of_builds hp.exists_isReadIn htype hbuilds

theorem IsAccepted.isInOrder (h : d.IsAccepted) : d.IsInOrder := by
  obtain ⟨p, -, haccepts⟩ := h
  exact isInOrder_of_check (Parser.check_of_accepts haccepts)

end Declaration

/-- A default value that a parser accepts is one that the field can hold, by the date format of the
parser. -/
theorem Parser.canHold_of_accepts {p : Parser} (hp : p.IsLoaded) {d : Declaration}
    (h : p.Accepts d) {raw : String} (hraw : d.givenText? .defaultValue = some raw) :
    d.CanHold p.dateFormat raw := by
  have hread := Declaration.IsAccepted.exists_isReadIn ⟨p, hp, h⟩
  have hdefault := (Declaration.check_eq_ok_iff.1 (Parser.check_of_accepts h)).2.2.2
  exact (Declaration.checkDefault_eq_ok_iff hread).1 hdefault raw hraw

/-! ## The range of a slider -/

namespace Declaration

variable {d : Declaration} {min max : Double}

/-- The declaration asks for a number in this range, which has finite ends and is not empty. -/
structure HasRange (d : Declaration) (min max : Double) : Prop where
  minValue : d.number? .minValue = some min
  maxValue : d.number? .maxValue = some max
  isFinite : min.isFinite = true ∧ max.isFinite = true
  isInOrder : min.le max = true

theorem exists_hasRange (hread : ∀ a ∈ d.arguments, ∃ format, a.IsReadIn format)
    (hinOrder : d.IsInOrder) (htype : d.fieldType = .slider) : ∃ min max, d.HasRange min max := by
  obtain ⟨min, max, hmin, hmax, hminFinite, hmaxFinite⟩ := exists_bounds hread htype
  exact ⟨min, max, hmin, hmax, ⟨hminFinite, hmaxFinite⟩,
    Double.le_of_not_lt (Double.isNaN_of_isFinite hminFinite)
      (Double.isNaN_of_isFinite hmaxFinite) (hinOrder.numbers min max hmin hmax)⟩

/-- The default number of a slider was found in its range. -/
theorem IsAccepted.between_default (h : d.IsAccepted) (htype : d.fieldType = .slider)
    (hrange : d.HasRange min max) {raw : String} (hraw : d.givenText? .defaultValue = some raw) :
    ∃ n, Double.read? (Text.trim raw.toList) = some n ∧ min.le n = true ∧ n.le max = true := by
  obtain ⟨p, hp, haccepts⟩ := h
  have hholds := Parser.canHold_of_accepts hp haccepts hraw
  unfold CanHold at hholds
  rw [htype] at hholds
  obtain ⟨low, high, n, hlow, hhigh, hn, hbetween⟩ := hholds
  obtain rfl := Option.some.inj (hlow.symm.trans hrange.minValue)
  obtain rfl := Option.some.inj (hhigh.symm.trans hrange.maxValue)
  exact ⟨n, hn, hbetween⟩

end Declaration

end BoundFields
