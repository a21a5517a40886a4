import BoundFields.Proofs.Sync.Lifetime

/-!
# Who hears of a change

A change of a document concerns the entries that are bound in it, once those that could not be bound
were tried again. Of these it passes over the ones that take it for an echo of their own and the
ones that know the value already; all others get the value (`Entry.notice_cases`). So a change
names exactly the fields that got a new value, and touches no other part of any entry but the writes
that are awaited (`Synchronizer.hasReported_onChange`).
-/

set_option autoImplicit false

namespace BoundFields

/-! ## One entry -/

theorem echoRest?_eq_none_iff {rule : EqualityRule} {v : Value} {writes : List Value} :
    echoRest? rule v writes = none ↔ ∀ w ∈ writes, rule.eq w v = false := by
  induction writes with
  | nil => exact iff_of_true rfl (List.forall_mem_nil _)
  | cons written more ih =>
    unfold echoRest?
    rw [List.forall_mem_cons]
    cases heq : rule.eq written v with
    | true => simp
    | false => simpa using ih

namespace Entry

/-- The value that a change reports for an entry is neither one that it wrote and still awaits nor
the one that it knows. -/
structure IsNews (e : Entry) (v : Value) : Prop where
  noEcho : ∀ w ∈ e.unechoed, e.rule.eq w v = false
  unknown : e.rule.eq e.lastKnown v = false

theorem echoes_or_knows {e : Entry} {v : Value} (h : ¬ e.IsNews v) :
    (∃ w ∈ e.unechoed, e.rule.eq w v = true) ∨ e.rule.eq e.lastKnown v = true := by
  by_contra hnone
  rw [not_or, not_exists] at hnone
  refine h ⟨?_, Bool.eq_false_iff.2 hnone.2⟩
  intro w hw
  exact Bool.eq_false_iff.2 fun heq => hnone.1 w ⟨hw, heq⟩

/-- An entry gets the value that is news to it, and awaits nothing then. Otherwise it is as it was,
but for writes that are no longer awaited. -/
theorem receive_cases_of_isNews (e : Entry) (v : Value) :
    e.IsNews v ∧ e.receive v =
        (true, { e with unechoed := [], lastKnown := v, mailbox := ⟨some v⟩ }) ∨
      ¬ e.IsNews v ∧ ∃ rest, rest <:+ e.unechoed ∧
        e.receive v = (false, { e with unechoed := rest }) := by
  unfold receive
  cases hecho : echoRest? e.rule v e.unechoed with
  | some rest =>
    obtain ⟨front, w, hsplit, heq⟩ := exists_of_echoRest? hecho
    refine .inr ⟨?_, rest, ?_, rfl⟩
    · intro hnews
      have hw := hnews.noEcho w (by simp [hsplit])
      rw [heq] at hw
      cases hw
    · exact ⟨front ++ [w], by rw [hsplit, List.append_assoc, List.singleton_append]⟩
  | none =>
    have hnone := echoRest?_eq_none_iff.1 hecho
    cases hknown : e.rule.eq e.lastKnown v with
    | true =>
      refine .inr ⟨?_, [], List.nil_suffix, by simp [hknown]⟩
      intro hnews
      rw [hnews.unknown] at hknown
      cases hknown
    | false => exact .inl ⟨⟨hnone, hknown⟩, by simp [hknown, Mailbox.post]⟩

/-- A change concerns an entry that is bound in the document, to `t`. -/
def IsBoundIn (e : Entry) (file : FileRef) (t : Target) : Prop :=
  e.binding = .resolved t ∧ t.file = file

/-- An entry gets the value of a change that is news to it. Otherwise it is as it was, but for
writes that are no longer awaited, and these only if the change concerns it. -/
theorem notice_cases (e : Entry) (change : Change) :
    (∃ t, e.IsBoundIn change.file t ∧ e.IsNews (change.valueOr t e.default) ∧
        e.notice change = (true, { e with
          unechoed := []
          lastKnown := change.valueOr t e.default
          mailbox := ⟨some (change.valueOr t e.default)⟩ })) ∨
      (∀ t, e.IsBoundIn change.file t → ¬ e.IsNews (change.valueOr t e.default)) ∧
        ∃ rest, rest <:+ e.unechoed ∧
          ((∀ t, ¬ e.IsBoundIn change.file t) → rest = e.unechoed) ∧
            e.notice change = (false, { e with unechoed := rest }) := by
  by_cases hbound : ∃ t, e.IsBoundIn change.file t
  · obtain ⟨t, hin⟩ := hbound
    rw [notice_of_file_eq hin.1 hin.2.symm]
    rcases e.receive_cases_of_isNews (change.valueOr t e.default) with
      ⟨hnews, hreceive⟩ | ⟨hold, rest, hrest, hreceive⟩
    · exact .inl ⟨t, hin, hnews, hreceive⟩
    · refine .inr ⟨?_, rest, hrest, fun hnone => absurd hin (hnone t), hreceive⟩
      intro t' hin'
      obtain rfl : t' = t := Binding.resolved.inj (hin'.1.symm.trans hin.1)
      exact hold
  · have hnone : ∀ t, ¬ e.IsBoundIn change.file t := not_exists.1 hbound
    refine .inr ⟨fun t hin => absurd hin (hnone t), e.unechoed, List.suffix_rfl, fun _ => rfl, ?_⟩
    apply notice_of_forall_ne
    intro t ht hfile
    exact hnone t ⟨ht, hfile.symm⟩

end Entry

/-! ## All entries -/

namespace Synchronizer

variable {s : Synchronizer}

/-- The fields that a change names are in the order of their numbers. -/
theorem onChange_sublist (s : Synchronizer) (change : Change) :
    (s.onChange change).1.Sublist s.registry.uids := by
  have hafter : (noticed (s.index.insert change.file) s.policy change
      s.registry.entries.entries).map (·.1) = s.registry.uids := by
    unfold noticed
    rw [List.map_map]
    rfl
  rw [← hafter]
  exact List.filter_sublist.map _

/-- What a change makes of an entry: it was named and has the value, or it was passed over. -/
theorem exists_noticed (hunique : s.registry.entries.IsUnique) {uid : Nat} {e : Entry}
    (he : s.registry.get? uid = some e) (change : Change) :
    ∃ binding,
      (∃ t, binding = .resolved t ∧ t.file = change.file ∧
          e.IsNews (change.valueOr t e.default) ∧ uid ∈ (s.onChange change).1 ∧
          (s.onChange change).2.registry.get? uid = some { e with
            binding
            unechoed := []
            lastKnown := change.valueOr t e.default
            mailbox := ⟨some (change.valueOr t e.default)⟩ }) ∨
        (∀ t, binding = .resolved t → t.file = change.file →
            ¬ e.IsNews (change.valueOr t e.default)) ∧
          uid ∉ (s.onChange change).1 ∧
          ∃ rest, rest <:+ e.unechoed ∧
            ((∀ t, binding = .resolved t → t.file ≠ change.file) → rest = e.unechoed) ∧
              (s.onChange change).2.registry.get? uid =
                some { e with binding, unechoed := rest } := by
  obtain ⟨binding, hretry⟩ := e.exists_retry_eq (s.index.insert change.file) s.policy
  have hafter := s.get?_onChange change uid
  rw [he, Option.map_some, hretry] at hafter
  have hnamed : uid ∈ (s.onChange change).1 ↔
      (({ e with binding } : Entry).notice change).1 = true := by
    rw [mem_onChange_iff hunique]
    constructor
    · rintro ⟨e', he', hnews⟩
      obtain rfl := Option.some.inj (he.symm.trans he')
      exact hretry ▸ hnews
    · intro hnews
      exact ⟨e, he, hretry.symm ▸ hnews⟩
  refine ⟨binding, ?_⟩
  -- The retry has left alone all that decides whether the value is news.
  rcases ({ e with binding } : Entry).notice_cases change with
    ⟨t, hin, hnews, hnotice⟩ | ⟨hold, rest, hrest, hsame, hnotice⟩
  · rw [hnotice] at hafter hnamed
    exact .inl ⟨t, hin.1, hin.2, ⟨hnews.noEcho, hnews.unknown⟩, hnamed.2 rfl, hafter⟩
  · rw [hnotice] at hafter hnamed
    refine .inr ⟨?_, fun hmem => absurd (hnamed.1 hmem) Bool.false_ne_true, rest, hrest, ?_, hafter⟩
    · intro t ht hfile hnews
      exact hold t ⟨ht, hfile⟩ ⟨hnews.noEcho, hnews.unknown⟩
    · intro hnone
      exact hsame fun t hin => hnone t hin.1 hin.2

/-- A synchronizer after a change, and the fields that the change names. -/
structure HasReported (s s' : Synchronizer) (change : Change) (named : List Nat) : Prop where
  ascending : named.Pairwise (· < ·)
  /-- A field that is named is bound in the document and has got its value there, which it did not
  know. -/
  reached : ∀ uid ∈ named, ∃ e e' t, s.registry.get? uid = some e ∧
    s'.registry.get? uid = some e' ∧ e'.binding = .resolved t ∧ t.file = change.file ∧
      e'.mailbox.slot = some ((change.snapshot.read? t.path).getD e.default) ∧
        e'.lastKnown = (change.snapshot.read? t.path).getD e.default ∧
          e.rule.eq e.lastKnown ((change.snapshot.read? t.path).getD e.default) = false
  /-- All others got nothing, since the change does not concern them or is not news to them. -/
  passedOver : ∀ uid e, s.registry.get? uid = some e → uid ∉ named →
    ∃ e', s'.registry.get? uid = some e' ∧ e'.mailbox = e.mailbox ∧ e'.lastKnown = e.lastKnown ∧
      ∀ t, e'.binding = .resolved t → t.file = change.file →
        (∃ w ∈ e.unechoed,
            e.rule.eq w ((change.snapshot.read? t.path).getD e.default) = true) ∨
          e.rule.eq e.lastKnown ((change.snapshot.read? t.path).getD e.default) = true
  /-- The numbers are the same, and so is every field, but that one that could not be bound may be
  bound by now. -/
  fields : s.KeepsFields s'
  /-- It is bound as a new field would be. -/
  retried : ∀ uid e e' cause, s.registry.get? uid = some e → e.binding = .unresolved cause →
    s'.registry.get? uid = some e' →
      e'.binding = Binding.ofDeclaration e.declaration e.context s'.index s'.policy
  /-- The oldest of the awaited writes may be dropped where a field is bound in the document. -/
  awaited : ∀ uid e e', s.registry.get? uid = some e → s'.registry.get? uid = some e' →
    e'.unechoed <:+ e.unechoed ∧
      ((∀ t, e'.binding = .resolved t → t.file ≠ change.file) → e'.unechoed = e.unechoed)
  index : ∀ file, file ∈ s'.index.files ↔ file = change.file ∨ file ∈ s.index.files
  policy : s'.policy = s.policy

/-- A change reaches exactly the fields that it concerns and is news to. -/
theorem hasReported_onChange (hs : s.registry.uids.Pairwise (· < ·)) (change : Change) :
    s.HasReported (s.onChange change).2 change (s.onChange change).1 := by
  have hunique : s.registry.entries.IsUnique := hs.imp Nat.ne_of_lt
  refine ⟨hs.sublist (s.onChange_sublist change), ?_, ?_, s.keepsFields_onChange change, ?_, ?_,
    fun file => FileIndex.mem_insert, rfl⟩
  · intro uid hmem
    obtain ⟨e, he⟩ := Registry.mem_uids_iff.1 ((s.onChange_sublist change).subset hmem)
    obtain ⟨binding, ⟨t, ht, hfile, hnews, -, hafter⟩ | ⟨-, hunnamed, -⟩⟩ :=
      exists_noticed hunique he change
    · exact ⟨e, _, t, he, hafter, ht, hfile, rfl, rfl, hnews.unknown⟩
    · exact absurd hmem hunnamed
  · intro uid e he hunnamed
    obtain ⟨binding, ⟨t, -, -, -, hmem, -⟩ | ⟨hold, -, rest, -, -, hafter⟩⟩ :=
      exists_noticed hunique he change
    · exact absurd hmem hunnamed
    · exact ⟨_, hafter, rfl, rfl, fun t ht hfile => Entry.echoes_or_knows (hold t ht hfile)⟩
  · intro uid e e' cause he hcause he'
    rw [get?_onChange, he, Option.map_some] at he'
    obtain rfl := Option.some.inj he'
    exact Entry.binding_noticed hcause _ _ change
  · intro uid e e' he he'
    obtain ⟨binding, ⟨t, ht, hfile, -, -, hafter⟩ | ⟨-, -, rest, hrest, hsame, hafter⟩⟩ :=
      exists_noticed hunique he change
    · obtain rfl := Option.some.inj (hafter.symm.trans he')
      exact ⟨List.nil_suffix, fun hnone => absurd hfile (hnone t ht)⟩
    · obtain rfl := Option.some.inj (hafter.symm.trans he')
      exact ⟨hrest, hsame⟩

/-- A text field that shows what `target` names. -/
def attachText (target : String) : Call :=
  .attach ⟨.text, [], true, some target, none⟩ ⟨"a.md"⟩
    { type := .text, title := none, classes := [], alignRight := false, role := .text none "",
      isMounted := true, current := .string "" } {}

/-- Three fields, the first of which is gone. The last one waits for a document. -/
def waitingFields : Synchronizer :=
  ({ index := ({} : FileIndex).insert ⟨"a.md"⟩ } : Synchronizer).run
    [attachText "status", attachText "status", attachText "later#title", .detach 1]

/-- The change of the document that the last field waits for reaches that field. -/
theorem hasReported_onChange_waiting :
    waitingFields.registry.uids.Pairwise (· < ·) ∧
      waitingFields.HasReported
        (waitingFields.onChange ⟨⟨"later.md"⟩, .mapping [(.string "title", .string "Hi")]⟩).2
        ⟨⟨"later.md"⟩, .mapping [(.string "title", .string "Hi")]⟩ [3] := by
  have hascending : waitingFields.registry.uids.Pairwise (· < ·) := by decide +kernel
  have hnamed : (waitingFields.onChange
      ⟨⟨"later.md"⟩, .mapping [(.string "title", .string "Hi")]⟩).1 = [3] := by
    decide +kernel
  have hreported := hasReported_onChange hascending
    ⟨⟨"later.md"⟩, .mapping [(.string "title", .string "Hi")]⟩
  rw [hnamed] at hreported
  exact ⟨hascending, hreported⟩

end Synchronizer

end BoundFields
