import BoundFields.Text.Blank

/-!
# Trimming

Trimming splits a text into blanks, the trimmed text and blanks again (`exists_eq_trim`), and it
does nothing exactly to the texts with no blank at either end (`trim_eq_self_iff`).
-/

set_option autoImplicit false

namespace BoundFields.Text

/-- The visible ASCII characters are no blanks. -/
theorem isBlank_of_visible {c : Char} (hlow : 33 ≤ c.toNat) (hhigh : c.toNat ≤ 126) :
    isBlank c = false := by
  simp only [isBlank, Bool.or_eq_false_iff, Bool.and_eq_false_iff, decide_eq_false_iff_not,
    beq_eq_false_iff_ne]
  omega

theorem isBlankText_append (xs ys : List Char) :
    isBlankText (xs ++ ys) = (isBlankText xs && isBlankText ys) :=
  List.all_append

theorem isBlankText_reverse (cs : List Char) : isBlankText cs.reverse = isBlankText cs :=
  List.all_reverse

/-! ## Leading blanks -/

theorem exists_eq_trimStart (cs : List Char) :
    ∃ blanks, isBlankText blanks = true ∧ cs = blanks ++ trimStart cs := by
  refine ⟨cs.takeWhile isBlank, ?_, List.takeWhile_append_dropWhile.symm⟩
  exact List.all_takeWhile

theorem length_trimStart_le (cs : List Char) : (trimStart cs).length ≤ cs.length := by
  obtain ⟨blanks, -, hcs⟩ := exists_eq_trimStart cs
  have hlength := congrArg List.length hcs
  rw [List.length_append] at hlength
  omega

theorem trimStart_blanks_append {blanks : List Char} (h : isBlankText blanks = true)
    (cs : List Char) : trimStart (blanks ++ cs) = trimStart cs :=
  List.dropWhile_append_of_pos fun c hc => List.all_eq_true.1 h c hc

/-- Leading blanks end in front of a character that is none. -/
theorem trimStart_append_cons {c : Char} (hc : isBlank c = false) (xs ys : List Char) :
    trimStart (xs ++ c :: ys) = trimStart xs ++ c :: ys := by
  unfold trimStart
  rw [List.dropWhile_append]
  cases hxs : xs.dropWhile isBlank with
  | nil => exact trimStart_cons_of_not_blank hc
  | cons d more => rfl

theorem trimStart_eq_nil_iff {cs : List Char} : trimStart cs = [] ↔ isBlankText cs = true := by
  constructor
  · intro h
    obtain ⟨blanks, hblank, hcs⟩ := exists_eq_trimStart cs
    rw [hcs, h, List.append_nil, hblank]
  · intro h
    have hnil := trimStart_blanks_append h []
    rw [List.append_nil] at hnil
    exact hnil

/-- Leading blanks end within a text that is not all blanks. -/
theorem trimStart_append_of_not_blank {front : List Char} (h : isBlankText front = false)
    (rest : List Char) : trimStart (front ++ rest) = trimStart front ++ rest := by
  cases hfront : trimStart front with
  | nil =>
    rw [trimStart_eq_nil_iff.1 hfront] at h
    cases h
  | cons c more =>
    unfold trimStart at hfront ⊢
    rw [List.dropWhile_append, hfront]
    rfl

/-- No blank is left in front. -/
theorem isBlank_head_trimStart {cs rest : List Char} {c : Char} (h : trimStart cs = c :: rest) :
    isBlank c = false := by
  induction cs with
  | nil => exact absurd h (by simp [trimStart])
  | cons d more ih =>
    unfold trimStart at h ih
    rw [List.dropWhile_cons] at h
    cases hd : isBlank d with
    | true =>
      rw [hd, if_pos rfl] at h
      exact ih h
    | false =>
      rw [hd, if_neg (by decide)] at h
      obtain ⟨rfl, -⟩ := List.cons.inj h
      exact hd

/-! ## Trailing blanks -/

theorem trimEnd_eq_reverse (cs : List Char) : trimEnd cs = (trimStart cs.reverse).reverse := rfl

theorem exists_eq_trimEnd (cs : List Char) :
    ∃ blanks, isBlankText blanks = true ∧ cs = trimEnd cs ++ blanks := by
  obtain ⟨blanks, hblank, heq⟩ := exists_eq_trimStart cs.reverse
  refine ⟨blanks.reverse, by rw [isBlankText_reverse, hblank], ?_⟩
  rw [trimEnd_eq_reverse, ← List.reverse_append, ← heq, List.reverse_reverse]

theorem trimEnd_append_blanks {blanks : List Char} (h : isBlankText blanks = true)
    (cs : List Char) : trimEnd (cs ++ blanks) = trimEnd cs := by
  rw [trimEnd_eq_reverse, List.reverse_append,
    trimStart_blanks_append ((isBlankText_reverse blanks).trans h), ← trimEnd_eq_reverse]

/-- Trailing blanks begin behind a character that is none. -/
theorem trimEnd_append_cons {c : Char} (hc : isBlank c = false) (xs ys : List Char) :
    trimEnd (xs ++ c :: ys) = xs ++ c :: trimEnd ys := by
  have hreverse : (xs ++ c :: ys).reverse = ys.reverse ++ c :: xs.reverse := by simp
  rw [trimEnd_eq_reverse, hreverse, trimStart_append_cons hc, trimEnd_eq_reverse]
  simp

theorem trimEnd_concat_of_not_blank {c : Char} (h : isBlank c = false) (cs : List Char) :
    trimEnd (cs ++ [c]) = cs ++ [c] := by
  rw [trimEnd_eq_reverse, List.reverse_append, List.reverse_singleton, List.singleton_append,
    trimStart_cons_of_not_blank h, List.reverse_cons, List.reverse_reverse]

/-- No blank is left at the end. -/
theorem isBlank_last_trimEnd {cs front : List Char} {c : Char} (h : trimEnd cs = front ++ [c]) :
    isBlank c = false := by
  rw [trimEnd_eq_reverse] at h
  have hrev := congrArg List.reverse h
  rw [List.reverse_reverse, List.reverse_append] at hrev
  exact isBlank_head_trimStart hrev

/-! ## Both ends -/

/-- A text is blanks, the trimmed text and blanks. -/
theorem exists_eq_trim (cs : List Char) :
    ∃ front back, isBlankText front = true ∧ isBlankText back = true ∧
      cs = front ++ trim cs ++ back := by
  obtain ⟨front, hfront, hcs⟩ := exists_eq_trimStart cs
  obtain ⟨back, hback, hmid⟩ := exists_eq_trimEnd (trimStart cs)
  refine ⟨front, back, hfront, hback, ?_⟩
  unfold trim
  rw [List.append_assoc, ← hmid, ← hcs]

theorem trim_eq_nil_iff {cs : List Char} : trim cs = [] ↔ isBlankText cs = true := by
  constructor
  · intro h
    obtain ⟨front, back, hfront, hback, hcs⟩ := exists_eq_trim cs
    rw [hcs, h, List.append_nil, isBlankText_append, hfront, hback, Bool.and_self]
  · intro h
    unfold trim
    rw [trimStart_eq_nil_iff.2 h]
    rfl

theorem isEmpty_trim (cs : List Char) : (trim cs).isEmpty = isBlankText cs := by
  rw [Bool.eq_iff_iff, List.isEmpty_iff, trim_eq_nil_iff]

theorem isBlank_head_trim {cs rest : List Char} {c : Char} (h : trim cs = c :: rest) :
    isBlank c = false := by
  obtain ⟨blanks, -, heq⟩ := exists_eq_trimEnd (trimStart cs)
  have hstart : trimStart cs = c :: (rest ++ blanks) := by
    rw [heq, ← List.cons_append, ← h]
    rfl
  exact isBlank_head_trimStart hstart

theorem isBlank_last_trim {cs front : List Char} {c : Char} (h : trim cs = front ++ [c]) :
    isBlank c = false :=
  isBlank_last_trimEnd h

/-- Trimming does nothing to a text with no blank at either end. -/
theorem trim_eq_self {cs : List Char} (hhead : ∀ c rest, cs = c :: rest → isBlank c = false)
    (hlast : ∀ front c, cs = front ++ [c] → isBlank c = false) : trim cs = cs := by
  have hstart : trimStart cs = cs := by
    cases cs with
    | nil => rfl
    | cons c rest => exact trimStart_cons_of_not_blank (hhead c rest rfl)
  unfold trim
  rw [hstart]
  rcases List.eq_nil_or_concat cs with hnil | ⟨front, c, hcs⟩
  · rw [hnil]
    rfl
  · rw [List.concat_eq_append] at hcs
    rw [hcs]
    exact trimEnd_concat_of_not_blank (hlast front c hcs) front

theorem trim_eq_self_iff {cs : List Char} :
    trim cs = cs ↔ (∀ c rest, cs = c :: rest → isBlank c = false) ∧
      ∀ front c, cs = front ++ [c] → isBlank c = false := by
  constructor
  · intro h
    exact ⟨fun c rest hcs => isBlank_head_trim (h.trans hcs),
      fun front c hcs => isBlank_last_trim (h.trans hcs)⟩
  · rintro ⟨hhead, hlast⟩
    exact trim_eq_self hhead hlast

theorem trim_trim (cs : List Char) : trim (trim cs) = trim cs :=
  trim_eq_self (fun _ _ h => isBlank_head_trim h) (fun _ _ h => isBlank_last_trim h)

/-- Blanks behind a text do not count. -/
theorem trim_append_blanks {blanks : List Char} (h : isBlankText blanks = true) (cs : List Char) :
    trim (cs ++ blanks) = trim cs := by
  obtain ⟨front, hfront, hcs⟩ := exists_eq_trimStart cs
  have hstart : trimStart (cs ++ blanks) = trimStart (trimStart cs ++ blanks) := by
    rw [← trimStart_blanks_append hfront (trimStart cs ++ blanks), ← List.append_assoc, ← hcs]
  unfold trim
  rw [hstart]
  cases hc : trimStart cs with
  | nil => rw [List.nil_append, trimStart_eq_nil_iff.2 h]
  | cons c rest =>
    rw [List.cons_append, trimStart_cons_of_not_blank (isBlank_head_trimStart hc),
      ← List.cons_append, trimEnd_append_blanks h]

theorem isBlankText_trim (cs : List Char) : isBlankText (trim cs) = isBlankText cs := by
  rw [Bool.eq_iff_iff, ← trim_eq_nil_iff, ← trim_eq_nil_iff, trim_trim]

/-! ## Strings -/

theorem trimmed_eq_iff {s : String} : trimmed s = s ↔ trim s.toList = s.toList := by
  unfold trimmed
  constructor
  · intro h
    have hlist := congrArg String.toList h
    rw [String.toList_ofList] at hlist
    exact hlist
  · intro h
    rw [h, String.ofList_toList]

theorem isBlankString_trimmed (s : String) : isBlankString (trimmed s) = isBlankString s := by
  unfold isBlankString trimmed
  rw [String.toList_ofList, isBlankText_trim]

end BoundFields.Text
