import BoundFields.Proofs.Declaration.Form

/-!
# No text has two forms

The parts of a form end where a character follows that they cannot go on with (`EndsBefore`), or,
for values, bodies and template names, where a bracket follows that they leave open. So a text that
starts with two forms of one kind, each up to where such forms end, starts with one form
(`append_inj`), and a whole text has one form at most (`Form.Declaration.chars_injective`).
-/

set_option autoImplicit false

namespace BoundFields

open Text

namespace Form

/-! ## Where the parts of a form end -/

/-- The text does not go on with a character of a kind. -/
def EndsBefore (p : Char → Bool) (rest : List Char) : Prop := ∀ c ∈ rest.head?, p c = false

theorem endsBefore_nil (p : Char → Bool) : EndsBefore p [] := by
  intro c hc
  cases hc

theorem endsBefore_cons {p : Char → Bool} {c : Char} (h : p c = false) (cs : List Char) :
    EndsBefore p (c :: cs) := by
  intro d hd
  obtain rfl := Option.some.inj hd
  exact h

/-- What stands behind an argument. -/
theorem endsBefore_separator {p : Char → Bool} (hcomma : p ',' = false) (hclose : p ')' = false)
    {c : Char} (hc : c = ',' ∨ c = ')') (cs : List Char) : EndsBefore p (c :: cs) := by
  rcases hc with rfl | rfl
  · exact endsBefore_cons hcomma cs
  · exact endsBefore_cons hclose cs

theorem endsBefore_append {p : Char → Bool} {xs ys : List Char} (hxs : EndsBefore p xs)
    (hys : EndsBefore p ys) : EndsBefore p (xs ++ ys) := by
  cases xs with
  | nil => exact hys
  | cons c xs => exact hxs

theorem endsBefore_of_append {p : Char → Bool} {xs ys : List Char} (h : EndsBefore p (xs ++ ys)) :
    EndsBefore p xs := by
  cases xs with
  | nil => exact endsBefore_nil p
  | cons c xs => exact h

theorem endsBefore_trimStart (cs : List Char) : EndsBefore isBlank (trimStart cs) := by
  intro c hc
  cases hstart : trimStart cs with
  | nil =>
    rw [hstart] at hc
    cases hc
  | cons d more =>
    rw [hstart] at hc
    obtain rfl := Option.some.inj hc
    exact isBlank_head_trimStart hstart

/-- A run of characters of one kind ends where one of another kind follows. -/
theorem append_inj_of_run {p : Char → Bool} {xs ys rest rest' : List Char}
    (hxs : ∀ c ∈ xs, p c = true) (hys : ∀ c ∈ ys, p c = true) (hrest : EndsBefore p rest)
    (hrest' : EndsBefore p rest') (h : xs ++ rest = ys ++ rest') : xs = ys ∧ rest = rest' := by
  induction xs generalizing ys with
  | nil =>
    cases ys with
    | nil => exact ⟨rfl, h⟩
    | cons d ys =>
      have hd := hrest d (by rw [← List.nil_append rest, h]; rfl)
      rw [hys d List.mem_cons_self] at hd
      cases hd
  | cons c xs ih =>
    cases ys with
    | nil =>
      have hc := hrest' c (by rw [← List.nil_append rest', ← h]; rfl)
      rw [hxs c List.mem_cons_self] at hc
      cases hc
    | cons d ys =>
      obtain ⟨rfl, hmore⟩ := List.cons.inj h
      obtain ⟨rfl, hsame⟩ := ih (fun d hd => hxs d (List.mem_cons_of_mem c hd))
        (fun d hd => hys d (List.mem_cons_of_mem c hd)) hmore
      exact ⟨rfl, hsame⟩

theorem exists_blanks (cs : List Char) : ∃ b : Blanks, cs = b.chars ++ trimStart cs := by
  obtain ⟨blanks, hblank, hcs⟩ := exists_eq_trimStart cs
  exact ⟨⟨blanks, hblank⟩, hcs⟩

theorem Blanks.append_inj {b b' : Blanks} {rest rest' : List Char} (hrest : EndsBefore isBlank rest)
    (hrest' : EndsBefore isBlank rest') (h : b.chars ++ rest = b'.chars ++ rest') :
    b = b' ∧ rest = rest' := by
  obtain ⟨hsame, hmore⟩ := append_inj_of_run (List.all_eq_true.1 b.blank)
    (List.all_eq_true.1 b'.blank) hrest hrest' h
  exact ⟨Blanks.ext hsame, hmore⟩

theorem isBlank_of_isIdentChar {c : Char} (h : isIdentChar c = true) : isBlank c = false := by
  unfold isIdentChar Char.isAlphanum Char.isAlpha Char.isUpper Char.isLower Char.isDigit at h
  simp only [Bool.or_eq_true, Bool.and_eq_true, decide_eq_true_eq, ge_iff_le,
    UInt32.le_iff_toNat_le] at h
  have hvisible : c = '_' ∨ 48 ≤ c.toNat ∧ c.toNat ≤ 122 := by
    rcases h with ((⟨hlow, hhigh⟩ | ⟨hlow, hhigh⟩) | ⟨hlow, hhigh⟩) | rfl
    · exact .inr ⟨Nat.le_trans (by decide) hlow, Nat.le_trans hhigh (by decide)⟩
    · exact .inr ⟨Nat.le_trans (by decide) hlow, Nat.le_trans hhigh (by decide)⟩
    · exact .inr ⟨Nat.le_trans (by decide) hlow, Nat.le_trans hhigh (by decide)⟩
    · exact .inl rfl
  rcases hvisible with rfl | ⟨hlow, hhigh⟩
  · decide
  · exact isBlank_of_visible (by omega) (by omega)

theorem Blanks.endsBefore_isIdentChar (b : Blanks) : EndsBefore isIdentChar b.chars := by
  intro c hc
  have hblank := List.all_eq_true.1 b.blank c (List.mem_of_mem_head? hc)
  cases hident : isIdentChar c with
  | false => rfl
  | true =>
    rw [isBlank_of_isIdentChar hident] at hblank
    cases hblank

theorem Name.endsBefore_isBlank (n : Name) (rest : List Char) :
    EndsBefore isBlank (n.chars ++ rest) :=
  endsBefore_cons (isBlank_of_isIdentChar (isIdentChar_of_isIdentStart n.isStart)) _

theorem Name.append_inj {n n' : Name} {rest rest' : List Char}
    (hrest : EndsBefore isIdentChar rest) (hrest' : EndsBefore isIdentChar rest')
    (h : n.chars ++ rest = n'.chars ++ rest') : n = n' ∧ rest = rest' := by
  obtain ⟨hfirst, hmore⟩ := List.cons.inj h
  obtain ⟨hsame, hrest⟩ := append_inj_of_run n.isMore n'.isMore hrest hrest' hmore
  exact ⟨Name.ext hfirst hsame, hrest⟩

/-! ## A text has one form -/

theorem pieces_append_inj {pieces pieces' : List Piece} {rest rest' : List Char}
    (h : pieces.flatMap Piece.chars ++ '"' :: rest = pieces'.flatMap Piece.chars ++ '"' :: rest') :
    pieces = pieces' ∧ rest = rest' := by
  -- The first character tells the kinds of pieces apart: a backslash, or no backslash and no quote.
  induction pieces generalizing pieces' with
  | nil =>
    cases pieces' with
    | nil => exact ⟨rfl, (List.cons.inj h).2⟩
    | cons piece _ =>
      cases piece with
      | plain c isPlain => exact absurd (List.cons.inj h).1.symm isPlain.1
      | escaped c => exact absurd (List.cons.inj h).1 (by decide)
  | cons piece pieces ih =>
    cases pieces' with
    | nil =>
      cases piece with
      | plain c isPlain => exact absurd (List.cons.inj h).1 isPlain.1
      | escaped c => exact absurd (List.cons.inj h).1 (by decide)
    | cons piece' pieces' =>
      rw [List.flatMap_cons, List.flatMap_cons, List.append_assoc, List.append_assoc] at h
      cases piece with
      | plain c isPlain =>
        cases piece' with
        | plain d isPlain' =>
          obtain ⟨rfl, hmore⟩ := List.cons.inj h
          obtain ⟨rfl, hrest⟩ := ih hmore
          exact ⟨rfl, hrest⟩
        | escaped d => exact absurd (List.cons.inj h).1 isPlain.2
      | escaped c =>
        cases piece' with
        | plain d isPlain' => exact absurd (List.cons.inj h).1.symm isPlain'.2
        | escaped d =>
          obtain ⟨-, hbehind⟩ := List.cons.inj h
          obtain ⟨rfl, hmore⟩ := List.cons.inj hbehind
          obtain ⟨rfl, hrest⟩ := ih hmore
          exact ⟨rfl, hrest⟩

/-- No bare value starts with a quote. -/
theorem quoted_ne_bare {before : Blanks} {cs rest rest' : List Char}
    (hcs : (trimStart cs).head? ≠ some '"') :
    before.chars ++ '"' :: rest ≠ cs ++ ')' :: rest' := by
  intro h
  obtain ⟨blanks, hblanks⟩ := exists_blanks cs
  rw [hblanks, List.append_assoc] at h
  have hbehind : EndsBefore isBlank (trimStart cs ++ ')' :: rest') :=
    endsBefore_append (endsBefore_trimStart cs) (endsBefore_cons (by decide) _)
  obtain ⟨-, hquote⟩ := Blanks.append_inj (endsBefore_cons (by decide) _) hbehind h
  cases hstart : trimStart cs with
  | nil =>
    rw [hstart] at hquote
    exact absurd (List.cons.inj hquote).1 (by decide)
  | cons c more =>
    rw [hstart] at hquote hcs
    exact hcs (congrArg some (List.cons.inj hquote).1.symm)

theorem Value.append_inj {v v' : Value} {rest rest' : List Char}
    (h : v.chars ++ ')' :: rest = v'.chars ++ ')' :: rest') : v = v' ∧ rest = rest' := by
  have hquote (cs : List Char) : EndsBefore isBlank ('"' :: cs) := endsBefore_cons (by decide) cs
  have hclose (cs : List Char) : EndsBefore isBlank (')' :: cs) := endsBefore_cons (by decide) cs
  cases v with
  | quoted before pieces after =>
    cases v' with
    | quoted before' pieces' after' =>
      simp only [chars, List.append_assoc, List.cons_append] at h
      obtain ⟨rfl, hinner⟩ := Blanks.append_inj (hquote _) (hquote _) h
      obtain ⟨rfl, hafter⟩ := pieces_append_inj (List.cons.inj hinner).2
      obtain ⟨rfl, hrest⟩ := Blanks.append_inj (hclose _) (hclose _) hafter
      exact ⟨rfl, (List.cons.inj hrest).2⟩
    | bare cs' _ unquoted' =>
      simp only [chars, List.append_assoc, List.cons_append] at h
      exact absurd h (quoted_ne_bare unquoted')
  | bare cs balanced unquoted =>
    cases v' with
    | quoted before' pieces' after' =>
      simp only [chars, List.append_assoc, List.cons_append] at h
      exact absurd h.symm (quoted_ne_bare unquoted)
    | bare cs' balanced' _ =>
      obtain ⟨hsame, hrest⟩ := IsBalanced.append_inj balanced balanced' h
      have hsame : cs = cs' := hsame
      subst hsame
      exact ⟨rfl, hrest⟩

section Group

variable {α : Type} {opening closing : Char} {inner : α → List Char}

theorem endsBefore_group {p : Char → Bool} (hopening : p opening = false) (g : Option (α × Blanks))
    {rest : List Char} (hrest : EndsBefore p rest) :
    EndsBefore p (group opening closing inner g ++ rest) := by
  cases g with
  | none => exact hrest
  | some g => exact endsBefore_cons hopening _

/-- A group is there if its first character is, and ends with the blanks behind it. -/
theorem group_append_inj
    (hinner : ∀ x x' rest rest', inner x ++ closing :: rest = inner x' ++ closing :: rest' →
      x = x' ∧ rest = rest')
    {g g' : Option (α × Blanks)} {rest rest' : List Char} (hrest : EndsBefore isBlank rest)
    (hrest' : EndsBefore isBlank rest') (hmissing : rest.head? ≠ some opening)
    (hmissing' : rest'.head? ≠ some opening)
    (h : group opening closing inner g ++ rest = group opening closing inner g' ++ rest') :
    g = g' ∧ rest = rest' := by
  cases g with
  | none =>
    cases g' with
    | none => exact ⟨rfl, h⟩
    | some g' => exact absurd (congrArg List.head? h) hmissing
  | some g =>
    cases g' with
    | none => exact absurd (congrArg List.head? h).symm hmissing'
    | some g' =>
      simp only [group, List.cons_append, List.append_assoc] at h
      obtain ⟨hsame, hafter⟩ := hinner _ _ _ _ (List.cons.inj h).2
      obtain ⟨hblanks, hbehind⟩ := Blanks.append_inj hrest hrest' hafter
      exact ⟨congrArg some (Prod.ext hsame hblanks), hbehind⟩

end Group

theorem Argument.chars_append (a : Argument) (rest : List Char) :
    a.chars ++ rest =
      a.before.chars ++
        (a.name.chars ++ (a.after.chars ++ (group '(' ')' Value.chars a.value ++ rest))) := by
  simp only [chars, List.append_assoc]

theorem endsBefore_behindName {c : Char} (hc : c = ',' ∨ c = ')') (after : Blanks)
    (v : Option (Value × Blanks)) (cs : List Char) :
    EndsBefore isIdentChar (after.chars ++ (group '(' ')' Value.chars v ++ c :: cs)) :=
  endsBefore_append after.endsBefore_isIdentChar
    (endsBefore_group (by decide) v (endsBefore_separator (by decide) (by decide) hc cs))

theorem Argument.append_inj {a a' : Argument} {c c' : Char} {rest rest' : List Char}
    (hc : c = ',' ∨ c = ')') (hc' : c' = ',' ∨ c' = ')')
    (h : a.chars ++ c :: rest = a'.chars ++ c' :: rest') : a = a' ∧ c :: rest = c' :: rest' := by
  have hblank {d : Char} (hd : d = ',' ∨ d = ')') (cs : List Char) :
      EndsBefore isBlank (d :: cs) := endsBefore_separator (by decide) (by decide) hd cs
  have hmissing {d : Char} (hd : d = ',' ∨ d = ')') (cs : List Char) :
      (d :: cs).head? ≠ some '(' := by
    rcases hd with rfl | rfl <;> simp
  obtain ⟨before, name, after, value⟩ := a
  obtain ⟨before', name', after', value'⟩ := a'
  rw [chars_append, chars_append] at h
  obtain ⟨rfl, hname⟩ :=
    Blanks.append_inj (name.endsBefore_isBlank _) (name'.endsBefore_isBlank _) h
  obtain ⟨rfl, hafter⟩ :=
    Name.append_inj (endsBefore_behindName hc _ _ _) (endsBefore_behindName hc' _ _ _) hname
  obtain ⟨rfl, hvalue⟩ := Blanks.append_inj (endsBefore_group (by decide) _ (hblank hc _))
    (endsBefore_group (by decide) _ (hblank hc' _)) hafter
  obtain ⟨rfl, hrest⟩ := group_append_inj (fun _ _ _ _ => Value.append_inj) (hblank hc _)
    (hblank hc' _) (hmissing hc _) (hmissing hc' _) hvalue
  exact ⟨rfl, hrest⟩

theorem joined_append_inj {a a' : Argument} {more more' : List Argument} {rest rest' : List Char}
    (h : joined a more ++ ')' :: rest = joined a' more' ++ ')' :: rest') :
    a = a' ∧ more = more' ∧ rest = rest' := by
  -- Behind each argument a comma or a parenthesis tells whether another one follows.
  induction more generalizing a a' more' with
  | nil =>
    cases more' with
    | nil =>
      obtain ⟨rfl, hrest⟩ := Argument.append_inj (.inr rfl) (.inr rfl) h
      exact ⟨rfl, rfl, (List.cons.inj hrest).2⟩
    | cons b' more' =>
      rw [joined, joined, List.append_assoc] at h
      obtain ⟨-, h⟩ := Argument.append_inj (.inr rfl) (.inl rfl) h
      exact absurd (List.cons.inj h).1 (by decide)
  | cons b more ih =>
    rw [joined, List.append_assoc] at h
    cases more' with
    | nil =>
      rw [joined] at h
      obtain ⟨-, h⟩ := Argument.append_inj (.inl rfl) (.inr rfl) h
      exact absurd (List.cons.inj h).1 (by decide)
    | cons b' more' =>
      rw [joined, List.append_assoc] at h
      obtain ⟨rfl, hmore⟩ := Argument.append_inj (.inl rfl) (.inl rfl) h
      obtain ⟨rfl, rfl, hrest⟩ := ih (List.cons.inj hmore).2
      exact ⟨rfl, rfl, hrest⟩

/-- Arguments start with the name of the first one. -/
theorem exists_joined_eq (a : Argument) (more : List Argument) :
    ∃ rest, joined a more = a.before.chars ++ (a.name.chars ++ rest) := by
  cases more with
  | nil => exact ⟨_, rfl⟩
  | cons b more =>
    refine ⟨a.after.chars ++ (group '(' ')' Value.chars a.value ++ ',' :: joined b more), ?_⟩
    simp only [joined, Argument.chars, List.append_assoc]

/-- No argument starts with a parenthesis. -/
theorem blanks_ne_joined (b : Blanks) (a : Argument) (more : List Argument)
    (rest rest' : List Char) : b.chars ++ ')' :: rest ≠ joined a more ++ ')' :: rest' := by
  intro h
  obtain ⟨cs, hjoined⟩ := exists_joined_eq a more
  rw [hjoined, List.append_assoc, List.append_assoc] at h
  obtain ⟨-, h⟩ := Blanks.append_inj (endsBefore_cons (by decide) _)
    (a.name.endsBefore_isBlank _) h
  have hstart := a.name.isStart
  rw [← (List.cons.inj h).1] at hstart
  exact absurd hstart (by decide)

theorem Arguments.append_inj {as as' : Arguments} {rest rest' : List Char}
    (h : as.chars ++ ')' :: rest = as'.chars ++ ')' :: rest') : as = as' ∧ rest = rest' := by
  cases as with
  | empty b =>
    cases as' with
    | empty b' =>
      obtain ⟨rfl, hrest⟩ := Blanks.append_inj (endsBefore_cons (by decide) _)
        (endsBefore_cons (by decide) _) h
      exact ⟨rfl, (List.cons.inj hrest).2⟩
    | list a' more' => exact absurd h (blanks_ne_joined b a' more' rest rest')
  | list a more =>
    cases as' with
    | empty b' => exact absurd h.symm (blanks_ne_joined b' a more rest' rest)
    | list a' more' =>
      obtain ⟨rfl, rfl, hrest⟩ := joined_append_inj h
      exact ⟨rfl, hrest⟩

theorem endsBefore_targetChars {p : Char → Bool} (hcolon : p ':' = false) (t : Option Filled) :
    EndsBefore p (targetChars t) := by
  cases t with
  | none => exact endsBefore_nil p
  | some t => exact endsBefore_cons hcolon _

theorem head?_targetChars (t : Option Filled) : (targetChars t).head? ≠ some '(' := by
  cases t with
  | none => simp [targetChars]
  | some t => simp [targetChars]

theorem targetChars_injective : Function.Injective targetChars := by
  intro t t' h
  cases t with
  | none =>
    cases t' with
    | none => rfl
    | some t' => cases h
  | some t =>
    cases t' with
    | none => cases h
    | some t' => exact congrArg some (Filled.ext (List.cons.inj h).2)

theorem endsBefore_behindType {p : Char → Bool} (hopen : p '(' = false) (hcolon : p ':' = false)
    (as : Option (Arguments × Blanks)) (t : Option Filled) :
    EndsBefore p (group '(' ')' Arguments.chars as ++ targetChars t) :=
  endsBefore_group hopen as (endsBefore_targetChars hcolon t)

theorem typeChars_append_inj {type type' : Option (Name × Blanks)} {rest rest' : List Char}
    (hblank : EndsBefore isBlank rest) (hident : EndsBefore isIdentChar rest)
    (hblank' : EndsBefore isBlank rest') (hident' : EndsBefore isIdentChar rest')
    (h : typeChars type ++ rest = typeChars type' ++ rest') : type = type' ∧ rest = rest' := by
  -- What follows a body without a type does not start like a name.
  have hnone (name : Name) (cs cs' : List Char) (hcs : EndsBefore isIdentChar cs) :
      cs ≠ name.chars ++ cs' := by
    rintro rfl
    have hfirst := hcs name.first rfl
    rw [isIdentChar_of_isIdentStart name.isStart] at hfirst
    cases hfirst
  cases type with
  | none =>
    cases type' with
    | none => exact ⟨rfl, h⟩
    | some type' =>
      rw [typeChars, typeChars, List.append_assoc] at h
      exact absurd h (hnone _ _ _ hident)
  | some type =>
    obtain ⟨name, after⟩ := type
    rw [typeChars, List.append_assoc] at h
    cases type' with
    | none => exact absurd h.symm (hnone _ _ _ hident')
    | some type' =>
      obtain ⟨name', after'⟩ := type'
      rw [typeChars, List.append_assoc] at h
      obtain ⟨rfl, hafter⟩ :=
        Name.append_inj (endsBefore_append after.endsBefore_isIdentChar hident)
          (endsBefore_append after'.endsBefore_isIdentChar hident') h
      obtain ⟨rfl, hrest⟩ := Blanks.append_inj hblank hblank' hafter
      exact ⟨rfl, hrest⟩

theorem endsBefore_typeChars (type : Option (Name × Blanks)) {rest : List Char}
    (hrest : EndsBefore isBlank rest) : EndsBefore isBlank (typeChars type ++ rest) := by
  cases type with
  | none => exact hrest
  | some type =>
    obtain ⟨name, after⟩ := type
    rw [typeChars, List.append_assoc]
    exact name.endsBefore_isBlank _

theorem Body.chars_injective : Function.Injective Body.chars := by
  intro b b' h
  obtain ⟨before, type, arguments, target⟩ := b
  obtain ⟨before', type', arguments', target'⟩ := b'
  have hblank (as : Option (Arguments × Blanks)) (t : Option Filled) :=
    endsBefore_behindType (p := isBlank) (by decide) (by decide) as t
  have hident (as : Option (Arguments × Blanks)) (t : Option Filled) :=
    endsBefore_behindType (p := isIdentChar) (by decide) (by decide) as t
  obtain ⟨rfl, htype⟩ := Blanks.append_inj (endsBefore_typeChars type (hblank _ _))
    (endsBefore_typeChars type' (hblank _ _)) h
  obtain ⟨rfl, hgroup⟩ :=
    typeChars_append_inj (hblank _ _) (hident _ _) (hblank _ _) (hident _ _) htype
  obtain ⟨rfl, htarget⟩ := group_append_inj (fun _ _ _ _ => Arguments.append_inj)
    (endsBefore_targetChars (by decide) _) (endsBefore_targetChars (by decide) _)
    (head?_targetChars _) (head?_targetChars _) hgroup
  obtain rfl := targetChars_injective htarget
  rfl

theorem Template.append_inj {t t' : Template} {rest rest' : List Char}
    (h : t.chars ++ ']' :: rest = t'.chars ++ ']' :: rest') : t = t' ∧ rest = rest' := by
  obtain ⟨hsame, hrest⟩ := IsClosed.append_inj t.closed t'.closed h
  exact ⟨Template.ext (Filled.ext hsame), hrest⟩

/-- The last group of a text is the body, so that no template can be taken for it. -/
theorem body_ne_template {b : Body} {t : Template} {after after' : Blanks} {rest : List Char}
    (hclosed : IsClosed b.chars) :
    b.chars ++ ']' :: after.chars ≠ t.chars ++ ']' :: (after'.chars ++ '[' :: rest) := by
  intro h
  obtain ⟨-, hafter⟩ := IsClosed.append_inj hclosed t.closed h
  have hblank := List.all_eq_true.1 after.blank '[' (by rw [hafter]; simp)
  exact absurd hblank (by decide)

/-- A text has one form at most. -/
theorem Declaration.chars_injective : Function.Injective Declaration.chars := by
  intro d d' h
  obtain ⟨before, behindInput, template, body, after, closed, filled⟩ := d
  obtain ⟨before', behindInput', template', body', after', closed', filled'⟩ := d'
  simp only [chars, head, List.append_assoc] at h
  have hinput (cs : List Char) : EndsBefore isBlank ("INPUT".toList ++ cs) :=
    endsBefore_cons (by decide) _
  obtain ⟨rfl, hbehind⟩ := Blanks.append_inj (hinput _) (hinput _) h
  have hgroup (t : Option (Template × Blanks)) (cs : List Char) :
      EndsBefore isBlank (group '[' ']' Template.chars t ++ '[' :: cs) :=
    endsBefore_group (by decide) t (endsBefore_cons (by decide) cs)
  obtain ⟨rfl, hgroups⟩ :=
    Blanks.append_inj (hgroup _ _) (hgroup _ _) (List.append_cancel_left hbehind)
  -- A group that another one follows is a template, and the last one is the body.
  have hbody : template = template' ∧
      body.chars ++ ']' :: after.chars = body'.chars ++ ']' :: after'.chars := by
    cases template with
    | none =>
      cases template' with
      | none => exact ⟨rfl, (List.cons.inj hgroups).2⟩
      | some t' =>
        simp only [group, List.nil_append, List.cons_append, List.append_assoc] at hgroups
        exact absurd (List.cons.inj hgroups).2 (body_ne_template closed)
    | some t =>
      simp only [group, List.cons_append, List.append_assoc] at hgroups
      cases template' with
      | none => exact absurd (List.cons.inj hgroups).2.symm (body_ne_template closed')
      | some t' =>
        simp only [List.cons_append, List.append_assoc] at hgroups
        obtain ⟨hname, hblanks⟩ := Template.append_inj (List.cons.inj hgroups).2
        obtain ⟨hsame, hbody⟩ := Blanks.append_inj (endsBefore_cons (by decide) _)
          (endsBefore_cons (by decide) _) hblanks
        exact ⟨congrArg some (Prod.ext hname hsame), (List.cons.inj hbody).2⟩
  obtain ⟨rfl, hlast⟩ := hbody
  obtain ⟨hsame, hafter⟩ := IsClosed.append_inj closed closed' hlast
  obtain rfl := Body.chars_injective hsame
  obtain rfl := Blanks.ext hafter
  rfl

end Form

end BoundFields
