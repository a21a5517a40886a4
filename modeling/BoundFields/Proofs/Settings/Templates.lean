import BoundFields.Settings.Validation
import BoundFields.Sync.Renderer
import BoundFields.Proofs.Declaration.Loading

/-!
# The templates of the settings

Settings are checked before their templates are read, and the names of the templates are looked at
both times, by the check with all the names before and by the parser with those of the templates
that it could read. Where the check finds nothing wrong with the names, all that the parser reports
are texts that cannot be read. Of the settings that were in use before nothing is left
(`Settings.keepsFirst_loadTemplates`).
-/

set_option autoImplicit false

namespace BoundFields

open Text

namespace Settings

/-- The check on names finds nothing if every source has a name of its own. -/
theorem nameProblems_eq_nil_iff {taken : List String} {sources : List TemplateSource} :
    nameProblems taken sources = [] ↔
      (∀ source ∈ sources, trimmed source.name ≠ "" ∧ trimmed source.name ∉ taken) ∧
        (sources.map (trimmed ·.name)).Nodup := by
  induction sources generalizing taken with
  | nil => simp [nameProblems]
  | cons source more ih =>
    unfold nameProblems
    dsimp only
    rw [List.forall_mem_cons, List.map_cons, List.nodup_cons]
    split
    · next hempty =>
      refine iff_of_false (List.cons_ne_nil _ _) ?_
      rintro ⟨⟨⟨hnamed, -⟩, -⟩, -⟩
      exact hnamed (by simpa using hempty)
    · next hnamed =>
      split
      · next htaken =>
        refine iff_of_false (List.cons_ne_nil _ _) ?_
        rintro ⟨⟨⟨-, hfree⟩, -⟩, -⟩
        exact hfree (by simpa using htaken)
      · next hfree =>
        -- The name is taken for the sources that follow, so that none of them has it.
        have hnamed' : trimmed source.name ≠ "" := by simpa using hnamed
        have hfree' : trimmed source.name ∉ taken := by simpa using hfree
        rw [ih]
        simp only [List.mem_cons, not_or, List.mem_map, not_exists, not_and]
        grind

/-- No problem of the settings is one with the name of a template. -/
def NamesItsTemplates (s : Settings) : Prop :=
  ∀ problem ∈ s.problems,
    problem.rule ≠ "empty-template-name" ∧ problem.rule ≠ "duplicate-template"

theorem rule_of_mem_nameProblems {taken : List String} {sources : List TemplateSource}
    {problem : SettingsProblem} (h : problem ∈ nameProblems taken sources) :
    problem.rule = "empty-template-name" ∨ problem.rule = "duplicate-template" := by
  induction sources generalizing taken with
  | nil => cases h
  | cons source more ih =>
    unfold nameProblems at h
    dsimp only at h
    split at h
    · rcases List.mem_cons.1 h with rfl | h
      · exact .inl rfl
      · exact ih h
    · split at h
      · rcases List.mem_cons.1 h with rfl | h
        · exact .inr rfl
        · exact ih h
      · exact ih h

theorem NamesItsTemplates.nameProblems_eq_nil {s : Settings} (h : s.NamesItsTemplates) :
    nameProblems [] s.templates = [] := by
  rw [List.eq_nil_iff_forall_not_mem]
  intro problem hmem
  -- What the check says of names breaks one of the two rules, and neither is broken.
  obtain ⟨hempty, hrepeated⟩ := h problem (List.mem_append_right _ hmem)
  rcases rule_of_mem_nameProblems hmem with hrule | hrule
  · exact hempty hrule
  · exact hrepeated hrule

/-- Where the check finds nothing wrong with the names, the parser can only fail to read a text. -/
theorem NamesItsTemplates.isUnreadable {s : Settings} (h : s.NamesItsTemplates) (p : Parser) :
    ∀ e ∈ (p.loadTemplates s.templates).2,
      ∃ source ∈ s.templates, source.IsUnreadable p.dateFormat e := by
  obtain ⟨hnames, hdistinct⟩ := nameProblems_eq_nil_iff.1 h.nameProblems_eq_nil
  exact (p.readsTemplates_loadTemplates s.templates).isUnreadable
    (fun source hsource => (hnames source hsource).1) hdistinct

/-- A renderer that takes over settings has the parser that they ask for, whatever it had. -/
theorem reconfigure_eq (s : Settings) (r : Renderer) :
    r.reconfigure s = (s.parser.2, { r with parser := s.parser.1 }) := by
  have hsame : ({ r.parser with dateFormat := s.dateFormat } : Parser).loadTemplates s.templates =
      s.parser := Parser.loadTemplates_congr rfl s.templates
  unfold Renderer.reconfigure
  rw [hsame]

/-- A parser keeps the first template that is defined for each name and nothing of what it had, and
so a renderer that takes over settings has the parser that they ask for. The errors it reports for
settings whose names passed the check are about texts that cannot be read. -/
theorem keepsFirst_loadTemplates (p : Parser) (sources : List TemplateSource) (r : Renderer)
    (s : Settings) :
    p.KeepsFirst sources ∧ r.reconfigure s = (s.parser.2, { r with parser := s.parser.1 }) ∧
      (s.NamesItsTemplates → ∀ e ∈ (p.loadTemplates s.templates).2,
        ∃ source ∈ s.templates, source.IsUnreadable p.dateFormat e) :=
  ⟨p.keepsFirst sources, s.reconfigure_eq r, fun h => h.isUnreadable p⟩

/-- Settings with one template, and one more that is broken off. -/
def someBroken : Settings :=
  { templates := [⟨"note", "INPUT[text]"⟩, ⟨" mark ", "INPUT[toggle"⟩] }

/-- Their names are in order, and what is reported is that the second one cannot be read. -/
theorem keepsFirst_loadTemplates_someBroken :
    someBroken.NamesItsTemplates ∧
      ∃ e, (({} : Parser).loadTemplates someBroken.templates).2 = [e] ∧
        ∃ source ∈ someBroken.templates, source.IsUnreadable defaultDateFormat e := by
  have hnames : someBroken.NamesItsTemplates := by
    unfold NamesItsTemplates
    decide +kernel
  obtain ⟨e, he⟩ : ∃ e, (({} : Parser).loadTemplates someBroken.templates).2 = [e] := by
    rw [← List.length_eq_one_iff]
    decide +kernel
  obtain ⟨-, -, herrors⟩ :=
    keepsFirst_loadTemplates {} someBroken.templates {} someBroken
  exact ⟨hnames, e, he, herrors hnames e (by rw [he]; exact List.mem_singleton_self e)⟩

end Settings

end BoundFields
