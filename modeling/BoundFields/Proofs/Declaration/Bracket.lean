import BoundFields.Declaration.Bracket
import BoundFields.Declaration.Quoted
import BoundFields.Proofs.Text.Trim

/-!
# Closed texts

A bracket group is cut off behind the first closed text that a closing bracket follows
(`splitGroup_eq_some_iff`). Closed texts are closed under concatenation, blanks at their ends do not
count, and a value is closed as it is printed, whatever its text is (`isClosed_quoteChars`).

Parentheses are counted without regard to quotes: a bare value is the first balanced text that a
closing parenthesis follows (`bareText?_eq_some_iff`).
-/

set_option autoImplicit false

namespace BoundFields

open Text

namespace BracketState

/-! ## Groups -/

theorem next_eq_none_iff {s : BracketState} {c : Char} :
    s.next c = none ↔ s = .plain 0 ∧ c = ']' := by
  constructor
  · intro h
    unfold next at h
    split at h
    case h_3 => exact ⟨rfl, rfl⟩
    all_goals exact absurd h (by simp)
  · rintro ⟨rfl, rfl⟩
    rfl

/-- Only a closing bracket ends a group, and only behind a text that leaves nothing open. -/
theorem splitGroup_eq_some_iff {s : BracketState} {cs inner rest : List Char} :
    s.splitGroup cs = some (inner, rest) ↔
      cs = inner ++ ']' :: rest ∧ s.scan inner = some (.plain 0) := by
  induction cs generalizing s inner with
  | nil => simp [splitGroup]
  | cons c cs ih =>
    unfold splitGroup
    cases hnext : s.next c with
    | none =>
      obtain ⟨rfl, rfl⟩ := next_eq_none_iff.1 hnext
      constructor
      · intro h
        obtain ⟨rfl, rfl⟩ := Prod.mk.inj (Option.some.inj h)
        exact ⟨rfl, rfl⟩
      · rintro ⟨hcs, hscan⟩
        cases inner with
        | nil =>
          obtain ⟨-, rfl⟩ := List.cons.inj hcs
          rfl
        | cons d inner =>
          -- The group would have ended before its first character.
          obtain ⟨rfl, -⟩ := List.cons.inj hcs
          exact absurd hscan (by simp [scan, next])
    | some s' =>
      simp only [Option.map_eq_some_iff, Prod.exists, Prod.mk.injEq]
      constructor
      · rintro ⟨inner', rest', hsplit, rfl, rfl⟩
        obtain ⟨rfl, hscan⟩ := ih.1 hsplit
        refine ⟨rfl, ?_⟩
        rw [scan, hnext, Option.bind_some, hscan]
      · rintro ⟨hcs, hscan⟩
        cases inner with
        | nil =>
          obtain ⟨rfl, -⟩ := List.cons.inj hcs
          obtain rfl := Option.some.inj hscan
          exact absurd hnext (by simp [next])
        | cons d inner =>
          obtain ⟨rfl, hcs'⟩ := List.cons.inj hcs
          rw [scan, hnext, Option.bind_some] at hscan
          exact ⟨inner, rest, ih.2 ⟨hcs', hscan⟩, rfl, rfl⟩

theorem splitGroup_cons {s t : BracketState} {c : Char} (h : s.next c = some t) (cs : List Char) :
    s.splitGroup (c :: cs) = (t.splitGroup cs).map fun (inner, rest) => (c :: inner, rest) := by
  rw [splitGroup, h]

/-- A text within a group is a part of what is read from the group. -/
theorem splitGroup_append {s t : BracketState} {xs : List Char} (h : s.scan xs = some t)
    (ys : List Char) :
    s.splitGroup (xs ++ ys) =
      (t.splitGroup ys).map fun (inner, rest) => (xs ++ inner, rest) := by
  induction xs generalizing s with
  | nil =>
    obtain rfl : s = t := Option.some.inj h
    simp
  | cons c xs ih =>
    obtain ⟨s', hnext, hscan⟩ := Option.bind_eq_some_iff.1 h
    rw [List.cons_append, splitGroup_cons hnext, ih hscan, Option.map_map]
    rfl

/-! ## Texts that change no state -/

/-- A character that is no bracket and no quote leaves a scan outside quotes where it is. -/
theorem next_plain {c : Char} (depth : Nat) (hquote : c ≠ '"') (hopen : c ≠ '[')
    (hclose : c ≠ ']') : (plain depth).next c = some (.plain depth) := by
  unfold next
  split <;> simp_all

/-- Between quotes only a backslash and a quote change where a scan is. -/
theorem next_quoted {c : Char} (depth : Nat) (hbackslash : c ≠ '\\') (hquote : c ≠ '"') :
    (quoted depth).next c = some (.quoted depth) := by
  unfold next
  split <;> simp_all

theorem scan_plain {cs : List Char} (depth : Nat) (h : ∀ c ∈ cs, c ≠ '"' ∧ c ≠ '[' ∧ c ≠ ']') :
    (plain depth).scan cs = some (.plain depth) := by
  induction cs with
  | nil => rfl
  | cons c cs ih =>
    obtain ⟨hquote, hopen, hclose⟩ := h c List.mem_cons_self
    rw [scan, next_plain depth hquote hopen hclose, Option.bind_some]
    exact ih fun d hd => h d (List.mem_cons_of_mem c hd)

theorem ne_of_isBlank {c : Char} (h : isBlank c = true) : c ≠ '"' ∧ c ≠ '[' ∧ c ≠ ']' := by
  refine ⟨?_, ?_, ?_⟩
  all_goals
    rintro rfl
    exact absurd h (by decide)

/-- Blanks close nothing and open nothing. -/
theorem scan_blanks {blanks : List Char} (h : isBlankText blanks = true) (depth : Nat) :
    (plain depth).scan blanks = some (.plain depth) :=
  scan_plain depth fun c hc => ne_of_isBlank (List.all_eq_true.1 h c hc)

theorem scan_quoted_blanks {blanks : List Char} (h : isBlankText blanks = true) (depth : Nat) :
    (quoted depth).scan blanks = some (.quoted depth) := by
  induction blanks with
  | nil => rfl
  | cons c cs ih =>
    have hc := List.all_eq_true.1 h c List.mem_cons_self
    have hne : c ≠ '\\' := by
      rintro rfl
      exact absurd hc (by decide)
    rw [scan, next_quoted depth hne (ne_of_isBlank hc).1, Option.bind_some]
    exact ih (List.all_eq_true.2 fun d hd => List.all_eq_true.1 h d (List.mem_cons_of_mem c hd))

/-- A scan that ends outside all brackets and quotes was there before the blanks at the end. -/
theorem eq_plain_of_scan_blanks {s : BracketState} {blanks : List Char}
    (h : isBlankText blanks = true) (hscan : s.scan blanks = some (.plain 0)) : s = .plain 0 := by
  cases s with
  | plain depth =>
    rw [scan_blanks h] at hscan
    exact Option.some.inj hscan
  | quoted depth =>
    rw [scan_quoted_blanks h] at hscan
    exact absurd hscan (by simp)
  | escaped depth =>
    cases blanks with
    | nil => exact absurd hscan (by simp [scan])
    | cons c cs =>
      have hcs : isBlankText cs = true :=
        List.all_eq_true.2 fun d hd => List.all_eq_true.1 h d (List.mem_cons_of_mem c hd)
      rw [scan, next, Option.bind_some, scan_quoted_blanks hcs] at hscan
      exact absurd hscan (by simp)

/-! ## Values between quotes -/

theorem scan_escapeQuoted (depth : Nat) (raw : List Char) :
    (quoted depth).scan (escapeQuoted raw) = some (.quoted depth) := by
  induction raw with
  | nil => rfl
  | cons c cs ih =>
    unfold escapeQuoted
    split
    · next hc => simpa [scan, next] using ih
    · next hc =>
      simp only [Bool.or_eq_true, decide_eq_true_eq, not_or] at hc
      rw [scan, next_quoted depth hc.2 hc.1, Option.bind_some, ih]

theorem scan_quoteChars (depth : Nat) (raw : List Char) :
    (plain depth).scan (quoteChars raw) = some (.plain depth) := by
  unfold quoteChars
  split
  · simp only [scan, next, Option.bind_some, scan_append, scan_escapeQuoted]
  · next hbare =>
    simp only [needsQuotes, Bool.or_eq_true, not_or, Bool.not_eq_true, List.any_eq_false] at hbare
    refine scan_plain depth fun c hc => ?_
    have hdelimiter := hbare.2 c hc
    refine ⟨?_, ?_, ?_⟩
    all_goals
      rintro rfl
      exact absurd hdelimiter (by decide)

end BracketState

/-! ## Closed texts -/

theorem isClosed_nil : IsClosed [] := rfl

/-- Behind a closed text the scan starts again. -/
theorem isClosed_append_iff {xs : List Char} (h : IsClosed xs) (ys : List Char) :
    IsClosed (xs ++ ys) ↔ IsClosed ys := by
  unfold IsClosed at h ⊢
  rw [BracketState.scan_append, h, Option.bind_some]

/-- A closed text ends at the first bracket that closes more than was opened. -/
theorem IsClosed.append_inj {xs ys rest rest' : List Char} (hxs : IsClosed xs)
    (hys : IsClosed ys) (h : xs ++ ']' :: rest = ys ++ ']' :: rest') : xs = ys ∧ rest = rest' := by
  have hsplit : (BracketState.plain 0).splitGroup (xs ++ ']' :: rest) = some (xs, rest) :=
    BracketState.splitGroup_eq_some_iff.2 ⟨rfl, hxs⟩
  have hsplit' : (BracketState.plain 0).splitGroup (xs ++ ']' :: rest) = some (ys, rest') :=
    BracketState.splitGroup_eq_some_iff.2 ⟨h, hys⟩
  obtain ⟨rfl, rfl⟩ := Prod.mk.inj (Option.some.inj (hsplit.symm.trans hsplit'))
  exact ⟨rfl, rfl⟩

/-- A value is closed as it is printed. -/
theorem isClosed_quoteChars (raw : List Char) : IsClosed (quoteChars raw) :=
  BracketState.scan_quoteChars 0 raw

/-- Blanks at the ends of a text do not matter for whether it is closed. -/
theorem isClosed_trim_iff {cs : List Char} : IsClosed (trim cs) ↔ IsClosed cs := by
  obtain ⟨front, back, hfront, hback, hcs⟩ := exists_eq_trim cs
  have hskip : IsClosed cs ↔ IsClosed (trim cs ++ back) := by
    have hdrop := isClosed_append_iff (BracketState.scan_blanks hfront 0) (trim cs ++ back)
    rw [← List.append_assoc, ← hcs] at hdrop
    exact hdrop
  rw [hskip]
  unfold IsClosed
  rw [BracketState.scan_append]
  constructor
  · intro h
    rw [h, Option.bind_some, BracketState.scan_blanks hback]
  · intro h
    obtain ⟨s, hs, hscan⟩ := Option.bind_eq_some_iff.1 h
    rw [hs, BracketState.eq_plain_of_scan_blanks hback hscan]

/-! ## Balanced texts -/

/-- The parentheses that are open behind one more character, unless it closes one too many. -/
def nextDepth : Nat → Char → Option Nat
  | depth, '(' => some (depth + 1)
  | 0, ')' => none
  | depth + 1, ')' => some depth
  | depth, _ => some depth

/-- A text in which every parenthesis is closed, and none is closed too often. -/
def IsBalanced (cs : List Char) : Prop := cs.foldlM nextDepth 0 = some 0

instance (cs : List Char) : Decidable (IsBalanced cs) := inferInstanceAs (Decidable (_ = _))

theorem nextDepth_eq_none_iff {depth : Nat} {c : Char} :
    nextDepth depth c = none ↔ depth = 0 ∧ c = ')' := by
  constructor
  · intro h
    unfold nextDepth at h
    split at h
    case h_2 => exact ⟨rfl, rfl⟩
    all_goals cases h
  · rintro ⟨rfl, rfl⟩
    rfl

/-- A character that is no parenthesis opens and closes nothing. -/
theorem nextDepth_plain {c : Char} (hopen : c ≠ '(') (hclose : c ≠ ')') (depth : Nat) :
    nextDepth depth c = some depth := by
  unfold nextDepth
  split <;> simp_all

/-- In front of a balanced text, what has no parentheses does not count. -/
theorem isBalanced_append_iff {xs : List Char} (h : ∀ c ∈ xs, c ≠ '(' ∧ c ≠ ')') (ys : List Char) :
    IsBalanced (xs ++ ys) ↔ IsBalanced ys := by
  unfold IsBalanced
  induction xs with
  | nil => rfl
  | cons c xs ih =>
    obtain ⟨hopen, hclose⟩ := h c List.mem_cons_self
    rw [List.cons_append, List.foldlM_cons, nextDepth_plain hopen hclose]
    exact ih fun d hd => h d (List.mem_cons_of_mem c hd)

theorem bareText?_cons (depth : Nat) (c : Char) (cs : List Char) :
    bareText? depth (c :: cs) =
      match nextDepth depth c with
      | none => some ([], c :: cs)
      | some depth => (bareText? depth cs).map fun (text, rest) => (c :: text, rest) := by
  by_cases hopen : c = '('
  · subst hopen
    cases depth <;> rfl
  · by_cases hclose : c = ')'
    · subst hclose
      cases depth <;> rfl
    · rw [nextDepth_plain hopen hclose]
      cases depth <;> simp [bareText?, hclose]

/-- A bare text goes up to the first parenthesis that closes more than was opened. -/
theorem bareText?_eq_some_iff {depth : Nat} {cs text rest : List Char} :
    bareText? depth cs = some (text, rest) ↔
      cs = text ++ rest ∧ text.foldlM nextDepth depth = some 0 ∧ rest.head? = some ')' := by
  induction cs generalizing depth text with
  | nil =>
    constructor
    · intro h
      cases depth <;> cases h
    · rintro ⟨hcs, -, hhead⟩
      obtain ⟨-, rfl⟩ := List.append_eq_nil_iff.1 hcs.symm
      cases hhead
  | cons c cs ih =>
    rw [bareText?_cons]
    cases hnext : nextDepth depth c with
    | none =>
      obtain ⟨rfl, rfl⟩ := nextDepth_eq_none_iff.1 hnext
      constructor
      · intro h
        obtain ⟨rfl, rfl⟩ := Prod.mk.inj (Option.some.inj h)
        exact ⟨rfl, rfl, rfl⟩
      · rintro ⟨hcs, hscan, -⟩
        cases text with
        | nil =>
          obtain rfl : rest = ')' :: cs := hcs.symm
          rfl
        | cons d text =>
          -- The text would have ended before its first character.
          obtain ⟨rfl, -⟩ := List.cons.inj hcs
          rw [List.foldlM_cons, hnext] at hscan
          cases hscan
    | some depth' =>
      simp only [Option.map_eq_some_iff, Prod.exists, Prod.mk.injEq]
      constructor
      · rintro ⟨text', rest', hread, rfl, rfl⟩
        obtain ⟨rfl, hscan, hhead⟩ := ih.1 hread
        refine ⟨rfl, ?_, hhead⟩
        rw [List.foldlM_cons, hnext]
        exact hscan
      · rintro ⟨hcs, hscan, hhead⟩
        cases text with
        | nil =>
          obtain rfl : rest = c :: cs := hcs.symm
          obtain rfl := Option.some.inj hhead
          obtain rfl : depth = 0 := Option.some.inj hscan
          cases hnext
        | cons d text =>
          obtain ⟨rfl, hcs'⟩ := List.cons.inj hcs
          rw [List.foldlM_cons, hnext] at hscan
          exact ⟨text, rest, ih.2 ⟨hcs', hscan, hhead⟩, rfl, rfl⟩

/-- A balanced text ends at the first parenthesis that closes more than was opened. -/
theorem IsBalanced.append_inj {xs ys rest rest' : List Char} (hxs : IsBalanced xs)
    (hys : IsBalanced ys) (h : xs ++ ')' :: rest = ys ++ ')' :: rest') :
    xs = ys ∧ rest = rest' := by
  have hread : bareText? 0 (xs ++ ')' :: rest) = some (xs, ')' :: rest) :=
    bareText?_eq_some_iff.2 ⟨rfl, hxs, rfl⟩
  have hread' : bareText? 0 (ys ++ ')' :: rest') = some (ys, ')' :: rest') :=
    bareText?_eq_some_iff.2 ⟨rfl, hys, rfl⟩
  rw [h, hread'] at hread
  obtain ⟨rfl, hrest⟩ := Prod.mk.inj (Option.some.inj hread)
  exact ⟨rfl, (List.cons.inj hrest).2.symm⟩

end BoundFields
