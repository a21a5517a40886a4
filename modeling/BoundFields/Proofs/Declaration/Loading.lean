import Mathlib.Data.List.Nodup
import BoundFields.Proofs.Declaration.Build

/-!
# Loading templates

The sources of the templates are read one after the other, and each of them either defines a
template or is refused with an error (`ReadsTemplates`). A source is refused for its name only if it
has none or if a source before it defines a template of that name, so that each name stands for the
template of the first source that defines one (`ReadsTemplates.find?_eq`), and the names of the
templates are distinct. The table that is made of them leaves none of them out.
-/

set_option autoImplicit false

namespace BoundFields

open Text

/-! ## One source -/

/-- The source has the name of the template, and its text reads as the template. -/
structure TemplateSource.Defines (dateFormat : String) (source : TemplateSource) (t : Template) :
    Prop where
  name : trimmed source.name = t.name
  named : t.name ≠ ""
  read : Template.ofText dateFormat t.name source.declaration = .ok t

/-- The error says that the text of the source does not read as a template, and why. -/
def TemplateSource.IsUnreadable (dateFormat : String) (source : TemplateSource) (e : Error) :
    Prop :=
  ∃ cause, Template.ofText dateFormat (trimmed source.name) source.declaration = .error cause ∧
    e = .badTemplate (trimmed source.name) cause

/-- The source is passed over with an error while some names are taken. -/
inductive TemplateSource.IsRefused (dateFormat : String) (taken : List String)
    (source : TemplateSource) : Error → Prop
  | unnamed (name : trimmed source.name = "") :
      IsRefused dateFormat taken source (.unnamedTemplate source.name)
  | repeated (name : trimmed source.name ∈ taken) :
      IsRefused dateFormat taken source (.repeatedTemplate (trimmed source.name))
  | unreadable {e : Error} (isUnreadable : source.IsUnreadable dateFormat e) :
      IsRefused dateFormat taken source e

/-- A source defines a template of a name that is not taken, or it is refused. -/
theorem TemplateSource.ofSource_cases (dateFormat : String) (taken : List String)
    (source : TemplateSource) :
    (∃ t, Template.ofSource dateFormat taken source = .ok t ∧ source.Defines dateFormat t ∧
      t.name ∉ taken) ∨
    ∃ e, Template.ofSource dateFormat taken source = .error e ∧
      source.IsRefused dateFormat taken e := by
  unfold Template.ofSource
  dsimp only
  split
  · next hempty => exact .inr ⟨_, rfl, .unnamed (by simpa using hempty)⟩
  · next hnamed =>
    split
    · next htaken => exact .inr ⟨_, rfl, .repeated (by simpa using htaken)⟩
    · next hfree =>
      cases hread : Template.ofText dateFormat (trimmed source.name) source.declaration with
      | error cause => exact .inr ⟨_, rfl, .unreadable ⟨cause, hread, rfl⟩⟩
      | ok t =>
        have hname := Template.name_of_ofText hread
        rw [← hname] at hnamed hfree hread
        exact .inl ⟨t, rfl, ⟨hname.symm, by simpa using hnamed, hread⟩, by simpa using hfree⟩

/-- The template that a source defines under a name. -/
def TemplateSource.defined? (dateFormat name : String) (source : TemplateSource) :
    Option Template :=
  if name ≠ "" ∧ trimmed source.name = name then
    (Template.ofText dateFormat name source.declaration).toOption
  else none

theorem TemplateSource.defined?_eq_some_iff {dateFormat name : String} {source : TemplateSource}
    {t : Template} :
    source.defined? dateFormat name = some t ↔ source.Defines dateFormat t ∧ t.name = name := by
  unfold defined?
  rw [Option.ite_none_right_eq_some, Outcome.toOption_eq_some_iff]
  constructor
  · rintro ⟨⟨hnamed, hname⟩, hread⟩
    obtain rfl := Template.name_of_ofText hread
    exact ⟨⟨hname, hnamed, hread⟩, rfl⟩
  · rintro ⟨hdefines, rfl⟩
    exact ⟨⟨hdefines.named, hdefines.name⟩, hdefines.read⟩

/-- What a source defines it defines under one name. -/
theorem TemplateSource.Defines.find?_eq {dateFormat : String} {source : TemplateSource}
    {t : Template} (h : source.Defines dateFormat t) (name : String) :
    [t].find? (·.name = name) = source.defined? dateFormat name := by
  by_cases hname : t.name = name
  · rw [TemplateSource.defined?_eq_some_iff.2 ⟨h, hname⟩]
    simp [hname]
  · have hnone : source.defined? dateFormat name = none := by
      rw [Option.eq_none_iff_forall_ne_some]
      intro other hother
      obtain ⟨hdefines, rfl⟩ := TemplateSource.defined?_eq_some_iff.1 hother
      exact hname (h.name.symm.trans hdefines.name)
    rw [hnone]
    simp [hname]

/-- A source is refused where it defines no template, or one of a name that is taken. -/
theorem TemplateSource.IsRefused.mem_taken {dateFormat : String} {taken : List String}
    {source : TemplateSource} {e : Error} (h : source.IsRefused dateFormat taken e) {t : Template}
    (hdefines : source.Defines dateFormat t) : t.name ∈ taken := by
  cases h with
  | unnamed name => exact absurd (hdefines.name.symm.trans name) hdefines.named
  | repeated name => rwa [hdefines.name] at name
  | unreadable isUnreadable =>
    obtain ⟨cause, hread, -⟩ := isUnreadable
    rw [hdefines.name, hdefines.read] at hread
    cases hread

/-! ## All sources -/

/-- A name that occurs among some templates stands for one of them. -/
theorem exists_find?_of_mem_names {templates : List Template} {name : String}
    (h : name ∈ templates.map (·.name)) :
    ∃ t, templates.find? (·.name = name) = some t ∧ t.name = name := by
  obtain ⟨old, hold, rfl⟩ := List.mem_map.1 h
  have hsome : (templates.find? (·.name = old.name)).isSome := by
    rw [List.find?_isSome]
    exact ⟨old, hold, decide_eq_true rfl⟩
  obtain ⟨t, ht⟩ := Option.isSome_iff_exists.1 hsome
  have hname := List.find?_some ht
  exact ⟨t, ht, of_decide_eq_true hname⟩

/-- The sources are read one after the other, behind the templates that were read before. -/
inductive ReadsTemplates (dateFormat : String) :
    List Template → List TemplateSource → List Template → List Error → Prop
  | nil (done : List Template) : ReadsTemplates dateFormat done [] done []
  | defined {done templates : List Template} {source : TemplateSource}
      {more : List TemplateSource} {errors : List Error} {t : Template}
      (defines : source.Defines dateFormat t) (free : t.name ∉ done.map (·.name))
      (rest : ReadsTemplates dateFormat (done ++ [t]) more templates errors) :
      ReadsTemplates dateFormat done (source :: more) templates errors
  | refused {done templates : List Template} {source : TemplateSource}
      {more : List TemplateSource} {errors : List Error} {e : Error}
      (isRefused : source.IsRefused dateFormat (done.map (·.name)) e)
      (rest : ReadsTemplates dateFormat done more templates errors) :
      ReadsTemplates dateFormat done (source :: more) templates (e :: errors)

theorem readsTemplates_readTemplates (dateFormat : String) (done : List Template)
    (sources : List TemplateSource) :
    ReadsTemplates dateFormat done sources (readTemplates dateFormat done sources).1
      (readTemplates dateFormat done sources).2 := by
  induction sources generalizing done with
  | nil => exact .nil done
  | cons source more ih =>
    rw [readTemplates]
    rcases source.ofSource_cases dateFormat (done.map (·.name)) with
      ⟨t, hsource, hdefines, hfree⟩ | ⟨e, hsource, hrefused⟩
    · rw [hsource]
      exact .defined hdefines hfree (ih (done ++ [t]))
    · rw [hsource]
      exact .refused hrefused (ih done)

namespace ReadsTemplates

variable {dateFormat : String} {done templates : List Template} {sources : List TemplateSource}
  {errors : List Error}

theorem isReadIn (h : ReadsTemplates dateFormat done sources templates errors)
    (hdone : ∀ t ∈ done, t.IsReadIn dateFormat) : ∀ t ∈ templates, t.IsReadIn dateFormat := by
  induction h with
  | nil => exact hdone
  | defined defines _ _ ih =>
    refine ih fun t ht => ?_
    rcases List.mem_append.1 ht with ht | ht
    · exact hdone t ht
    · obtain rfl := List.mem_singleton.1 ht
      exact Template.isReadIn_of_ofText defines.read
  | refused _ _ ih => exact ih hdone

/-- A name stands for the template of the first source that defines one, unless it was taken. -/
theorem find?_eq (h : ReadsTemplates dateFormat done sources templates errors) (name : String) :
    templates.find? (·.name = name) =
      (done.find? (·.name = name)).or (sources.findSome? (·.defined? dateFormat name)) := by
  induction h with
  | nil => rw [List.findSome?_nil, Option.or_none]
  | @defined done templates source more errors t defines free rest ih =>
    rw [ih, List.find?_append, defines.find?_eq, Option.or_assoc, List.findSome?_cons]
    cases source.defined? dateFormat name <;> rfl
  | @refused done templates source more errors e isRefused rest ih =>
    rw [ih, List.findSome?_cons]
    cases hdefined : source.defined? dateFormat name with
    | none => rfl
    | some t =>
      -- A template of this name has been read before, so that no source counts any more.
      obtain ⟨hdefines, rfl⟩ := TemplateSource.defined?_eq_some_iff.1 hdefined
      obtain ⟨found, hfound, -⟩ := exists_find?_of_mem_names (isRefused.mem_taken hdefines)
      rw [hfound, Option.some_or, Option.some_or]

/-- Every source is installed or reported. -/
theorem length_add_length (h : ReadsTemplates dateFormat done sources templates errors) :
    errors.length + templates.length = done.length + sources.length := by
  induction h with
  | nil => simp
  | defined _ _ _ ih =>
    rw [ih, List.length_append, List.length_singleton, List.length_cons]
    omega
  | refused _ _ ih =>
    rw [List.length_cons, List.length_cons]
    omega

theorem nodup (h : ReadsTemplates dateFormat done sources templates errors)
    (hdone : (done.map (·.name)).Nodup) : (templates.map (·.name)).Nodup := by
  induction h with
  | nil => exact hdone
  | defined _ free _ ih =>
    apply ih
    rw [List.map_append, List.map_singleton]
    exact List.nodup_append.2 ⟨hdone, List.nodup_singleton _, by simpa using free⟩
  | refused _ _ ih => exact ih hdone

/-- Where the sources have names of their own, they can only be refused for what their texts are. -/
theorem isUnreadable (h : ReadsTemplates dateFormat done sources templates errors)
    (hnamed : ∀ source ∈ sources, trimmed source.name ≠ "")
    (hdistinct : (done.map (·.name) ++ sources.map (trimmed ·.name)).Nodup) :
    ∀ e ∈ errors, ∃ source ∈ sources, source.IsUnreadable dateFormat e := by
  induction h with
  | nil => exact nofun
  | @defined done templates source more errors t defines free rest ih =>
    -- The template that was read takes the place of its source, under the same name.
    have hmore : ((done ++ [t]).map (·.name) ++ more.map (trimmed ·.name)).Nodup := by
      rw [List.map_append, List.map_singleton, List.append_assoc, ← defines.name]
      exact hdistinct
    intro e he
    obtain ⟨other, hother, hbad⟩ :=
      ih (fun s hs => hnamed s (List.mem_cons_of_mem source hs)) hmore e he
    exact ⟨other, List.mem_cons_of_mem source hother, hbad⟩
  | @refused done templates source more errors first isRefused rest ih =>
    rw [List.map_cons] at hdistinct
    intro e he
    rcases List.mem_cons.1 he with rfl | he
    · cases isRefused with
      | unnamed name => exact absurd name (hnamed source List.mem_cons_self)
      | repeated name =>
        -- The name would be among those before and be that of this source too.
        exact absurd rfl ((List.nodup_append.1 hdistinct).2.2 _ name _ List.mem_cons_self)
      | unreadable isUnreadable => exact ⟨source, List.mem_cons_self, isUnreadable⟩
    · have hmore : (done.map (·.name) ++ more.map (trimmed ·.name)).Nodup :=
        hdistinct.sublist (List.Sublist.append_left (List.sublist_cons_self _ _) _)
      obtain ⟨other, hother, hbad⟩ :=
        ih (fun s hs => hnamed s (List.mem_cons_of_mem source hs)) hmore e he
      exact ⟨other, List.mem_cons_of_mem source hother, hbad⟩

end ReadsTemplates

/-! ## Tables -/

theorem TemplateTable.nodup_insertNew {table : TemplateTable}
    (h : (table.templates.map (·.name)).Nodup) (t : Template) :
    ((table.insertNew t).templates.map (·.name)).Nodup := by
  unfold TemplateTable.insertNew
  split
  · exact h
  · next hnew =>
    rw [List.map_append, List.nodup_append]
    refine ⟨h, List.nodup_singleton t.name, ?_⟩
    intro name hname name' hname'
    obtain rfl := List.mem_singleton.1 hname'
    rintro rfl
    obtain ⟨old, hold, -⟩ := exists_find?_of_mem_names hname
    apply hnew
    unfold TemplateTable.get?
    rw [hold]
    rfl

theorem TemplateTable.nodup_foldl_insertNew {table : TemplateTable}
    (h : (table.templates.map (·.name)).Nodup) (more : List Template) :
    ((more.foldl insertNew table).templates.map (·.name)).Nodup := by
  induction more generalizing table with
  | nil => exact h
  | cons first more ih => exact ih (nodup_insertNew h first)

/-- A table takes in all templates whose names are not in it yet. -/
theorem TemplateTable.templates_foldl_insertNew {table : TemplateTable} {more : List Template}
    (h : ((table.templates ++ more).map (·.name)).Nodup) :
    (more.foldl insertNew table).templates = table.templates ++ more := by
  induction more generalizing table with
  | nil => exact (List.append_nil _).symm
  | cons t more ih =>
    have hnew : table.get? t.name = none := by
      unfold get?
      rw [List.find?_eq_none]
      rw [List.map_append] at h
      intro old hold hname
      exact (List.nodup_append.1 h).2.2 _ (List.mem_map_of_mem hold) _ List.mem_cons_self
        (of_decide_eq_true hname)
    have hinsert : table.insertNew t = ⟨table.templates ++ [t]⟩ := by
      unfold insertNew
      rw [hnew]
      rfl
    have hassoc : table.templates ++ [t] ++ more = table.templates ++ t :: more := by
      rw [List.append_assoc, List.singleton_append]
    rw [List.foldl_cons, hinsert, ih (by rw [hassoc]; exact h), hassoc]

/-- Templates of distinct names are all kept. -/
theorem TemplateTable.templates_ofList {templates : List Template}
    (h : (templates.map (·.name)).Nodup) : (TemplateTable.ofList templates).templates = templates :=
  @TemplateTable.templates_foldl_insertNew {} templates h

/-- A name that occurs in a table stands for one template. -/
theorem TemplateTable.get?_of_mem_ofList {templates : List Template} {t : Template}
    (h : t ∈ (TemplateTable.ofList templates).templates) :
    (TemplateTable.ofList templates).get? t.name = some t := by
  have hnodup := @TemplateTable.nodup_foldl_insertNew {} List.nodup_nil templates
  unfold TemplateTable.get?
  obtain ⟨other, hother, hname⟩ := exists_find?_of_mem_names (List.mem_map_of_mem h)
  rw [hother, List.inj_on_of_nodup_map hnodup (List.mem_of_find?_eq_some hother) h hname]

/-! ## Parsers -/

namespace Parser

/-- The table of a parser has the templates that were read, and no others. -/
theorem readsTemplates_loadTemplates (p : Parser) (sources : List TemplateSource) :
    ReadsTemplates p.dateFormat [] sources (p.loadTemplates sources).1.templates.templates
      (p.loadTemplates sources).2 := by
  have hreads := readsTemplates_readTemplates p.dateFormat [] sources
  have htable := TemplateTable.templates_ofList (hreads.nodup List.nodup_nil)
  unfold loadTemplates
  dsimp only
  rw [htable]
  exact hreads

/-- Every template of a table that was loaded was read in the date format of its parser. -/
theorem isReadIn_of_mem_loaded (p : Parser) (sources : List TemplateSource) :
    ∀ t ∈ (p.loadTemplates sources).1.templates.templates, t.IsReadIn p.dateFormat :=
  (p.readsTemplates_loadTemplates sources).isReadIn nofun

/-- The templates were loaded, in this date format or in another one. -/
def IsLoaded (p : Parser) : Prop :=
  ∃ (loader : Parser) (sources : List TemplateSource),
    p.templates = (loader.loadTemplates sources).1.templates

theorem IsLoaded.exists_isReadIn {p : Parser} (hp : p.IsLoaded) :
    ∀ t ∈ p.templates.templates, ∃ format, t.IsReadIn format := by
  obtain ⟨loader, sources, heq⟩ := hp
  intro t ht
  rw [heq] at ht
  exact ⟨loader.dateFormat, isReadIn_of_mem_loaded loader sources t ht⟩

/-- What becomes of the sources of templates: the table has the first template that is defined for
each name, once, and nothing of what the parser had before. -/
structure KeepsFirst (p : Parser) (sources : List TemplateSource) : Prop where
  get? : ∀ name, (p.loadTemplates sources).1.templates.get? name =
    sources.findSome? (·.defined? p.dateFormat name)
  distinct : ((p.loadTemplates sources).1.templates.templates.map (·.name)).Nodup
  /-- Every source is installed or reported. -/
  count : (p.loadTemplates sources).2.length + (p.loadTemplates sources).1.templates.size =
    sources.length
  forgets : ∀ q : Parser, q.dateFormat = p.dateFormat →
    q.loadTemplates sources = p.loadTemplates sources

theorem loadTemplates_congr {p q : Parser} (h : q.dateFormat = p.dateFormat)
    (sources : List TemplateSource) : q.loadTemplates sources = p.loadTemplates sources := by
  obtain ⟨format, table⟩ := p
  obtain ⟨_, other⟩ := q
  obtain rfl : _ = format := h
  rfl

theorem keepsFirst (p : Parser) (sources : List TemplateSource) : p.KeepsFirst sources := by
  have hreads := p.readsTemplates_loadTemplates sources
  constructor
  · intro name
    exact hreads.find?_eq name
  · exact hreads.nodup List.nodup_nil
  · exact hreads.length_add_length.trans (Nat.zero_add _)
  · intro q hformat
    exact loadTemplates_congr hformat sources

end Parser

end BoundFields
