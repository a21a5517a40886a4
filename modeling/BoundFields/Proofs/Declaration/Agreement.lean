import BoundFields.Proofs.Declaration.Walk
import BoundFields.Proofs.Declaration.Bracket
import BoundFields.Proofs.Outcome

/-!
# Two ways of reading that agree

A text is read by index (`BoundFields.Walk`) or by what is left of it, and the two agree where they
end with results that belong together or with the same error (`Agree`). An error that is noticed
where the text is read on from some index points into the text: its position is that index, and the
text it quotes stands there (`SyntaxError.PointsInto`). All errors but three are of this kind, so
agreement carries the fact along (`Agree.refuse`) and no reader has to be gone through twice.

What lies between two indices is a prefix of what is left at the first of them (`Between`). This is
what the loops over single characters preserve, and why none of the pieces that are cut out of the
text is out of bounds (`Between.slice_eq`). The loops are names, texts between quotes, bare texts
and bracket groups; a value is one of the middle two (`agree_value`).
-/

set_option autoImplicit false

namespace BoundFields

open Text

/-! ## What stands in a text -/

/-- The position of what is left at a position is that position. -/
theorem length_sub_length_drop {text : List Char} {position : Nat} (h : position ≤ text.length) :
    text.length - (text.drop position).length = position := by
  rw [List.length_drop, Nat.sub_sub_self h]

/-- From a position on, a text goes on with `part`. -/
def StandsAt (text : List Char) (position : Nat) (part : List Char) : Prop :=
  position ≤ text.length ∧ part <+: text.drop position

namespace StandsAt

variable {text part : List Char} {position : Nat}

theorem of_drop_eq {behind : List Char} (hle : position ≤ text.length)
    (h : text.drop position = part ++ behind) : StandsAt text position part :=
  ⟨hle, behind, h.symm⟩

/-- What stands in the front of a text stands in the text. -/
theorem of_take {stop : Nat} (h : StandsAt (text.take stop) position part) :
    StandsAt text position part := by
  obtain ⟨hle, hprefix⟩ := h
  rw [List.length_take] at hle
  refine ⟨by omega, hprefix.trans ?_⟩
  rw [List.drop_take]
  exact List.take_prefix _ _

end StandsAt

/-- The position of an error is one of the text or its end, and the text quoted stands there. -/
structure SyntaxError.PointsInto (error : SyntaxError) (text : List Char) : Prop where
  /-- Too many groups are noticed nowhere in particular, everything else somewhere. -/
  placed : error.position = none → error.problem = .tooManyGroups
  position_le : ∀ position, error.position = some position → position ≤ text.length
  snippet : ∀ snippet, error.snippet = some snippet →
    snippet ≠ "" ∧ snippet.length ≤ 12 ∧
      ∃ position, error.position = some position ∧ StandsAt text position snippet.toList

namespace SyntaxError

variable {text : List Char} {position : Nat}

/-- An error where `text` is read on from a position. -/
theorem pointsInto_at (problem : SyntaxProblem) (hle : position ≤ text.length) :
    (SyntaxError.at text.length problem (text.drop position)).PointsInto text := by
  have hposition := length_sub_length_drop hle
  refine ⟨nofun, ?_, ?_⟩
  · intro p hp
    obtain rfl : text.length - (text.drop position).length = p := Option.some.inj hp
    exact Nat.sub_le _ _
  · intro snippet hsnippet
    simp only [SyntaxError.at] at hsnippet
    split at hsnippet
    · cases hsnippet
    · next hne =>
      obtain rfl := Option.some.inj hsnippet
      refine ⟨?_, ?_, position, congrArg some hposition, hle, ?_⟩
      · simpa [snippetLength] using hne
      · simp only [snippetLength, String.length_ofList]
        exact List.length_take_le 12 _
      · rw [String.toList_ofList]
        exact List.take_prefix _ _

/-- An error without a snippet only has a position. -/
theorem pointsInto_of_no_snippet (problem : SyntaxProblem) (hle : position ≤ text.length) :
    PointsInto ⟨problem, some position, none⟩ text := by
  refine ⟨nofun, ?_, ?_⟩
  · rintro p ⟨⟩
    exact hle
  · rintro snippet ⟨⟩

/-- An error that says nothing about where it is points nowhere else. -/
theorem pointsInto_of_no_position : PointsInto ⟨.tooManyGroups, none, none⟩ text :=
  ⟨fun _ => rfl, nofun, nofun⟩

/-- What points into the front of a text points into the text. -/
theorem PointsInto.of_take {error : SyntaxError} {stop : Nat}
    (h : error.PointsInto (text.take stop)) : error.PointsInto text := by
  refine ⟨h.placed, ?_, ?_⟩
  · intro p hp
    have hle := h.position_le p hp
    rw [List.length_take] at hle
    omega
  · intro snippet hsnippet
    obtain ⟨hne, hlength, p, hp, hstands⟩ := h.snippet snippet hsnippet
    exact ⟨hne, hlength, p, hp, hstands.of_take⟩

end SyntaxError

namespace Walk

variable {chars : List Char}

/-! ## Looking at one character -/

theorem drop_of_getElem? {pos : Nat} {c : Char} (h : chars[pos]? = some c) :
    chars.drop pos = c :: chars.drop (pos + 1) := by
  obtain ⟨hlt, rfl⟩ := List.getElem?_eq_some_iff.1 h
  exact List.drop_eq_getElem_cons hlt

theorem drop_of_getElem?_none {pos : Nat} (h : chars[pos]? = none) : chars.drop pos = [] :=
  List.drop_eq_nil_of_le (List.getElem?_eq_none_iff.1 h)

theorem getElem?_of_drop {pos : Nat} {c : Char} {cs : List Char}
    (h : chars.drop pos = c :: cs) : chars[pos]? = some c ∧ chars.drop (pos + 1) = cs := by
  have hhead : chars[pos]? = some c := by
    rw [← List.head?_drop, h, List.head?_cons]
  exact ⟨hhead, (List.cons.inj ((drop_of_getElem? hhead).symm.trans h)).2⟩

/-! ## Pieces -/

/-- The characters between two indices are `part`. -/
structure Between (chars : List Char) (start stop : Nat) (part : List Char) : Prop where
  start_le : start ≤ stop
  stop_le : stop ≤ chars.length
  drop_start : chars.drop start = part ++ chars.drop stop

namespace Between

variable {start stop : Nat} {part : List Char}

theorem nil {pos : Nat} (h : pos ≤ chars.length) : Between chars pos pos [] :=
  ⟨Nat.le_refl pos, h, rfl⟩

theorem cons {c : Char} (hc : chars[start]? = some c) (h : Between chars (start + 1) stop part) :
    Between chars start stop (c :: part) :=
  ⟨Nat.le_of_succ_le h.start_le, h.stop_le, by
    rw [drop_of_getElem? hc, h.drop_start, List.cons_append]⟩

theorem length_eq (h : Between chars start stop part) : start + part.length = stop := by
  have hlength := congrArg List.length h.drop_start
  have hstart := h.start_le
  have hstop := h.stop_le
  rw [List.length_append, List.length_drop, List.length_drop] at hlength
  omega

theorem standsAt (h : Between chars start stop part) : StandsAt chars start part :=
  .of_drop_eq (Nat.le_trans h.start_le h.stop_le) h.drop_start

theorem take_drop (h : Between chars start stop part) : (chars.take stop).drop start = part := by
  have hlength := h.length_eq
  have hpart : stop - start = part.length := by omega
  rw [List.drop_take, h.drop_start, hpart, List.take_left]

/-- The check of a piece between two indices does not fail. -/
theorem slice_eq (h : Between chars start stop part) : slice chars start stop = .ok part := by
  rw [slice, if_pos ⟨h.start_le, h.stop_le⟩, h.take_drop]

end Between

theorem more_of_lt {count : Nat} (h : count < chars.length) : more chars count = .ok (count + 1) :=
  if_pos h

/-- An error by index is the error that is noticed where the text is read on from the index. -/
theorem refuse_eq {α : Type} (problem : SyntaxProblem) {pos : Nat} (h : pos ≤ chars.length) :
    (refuse chars problem pos : Except Halt α) =
      .error (.refused (.at chars.length problem (chars.drop pos))) := by
  have hmin : min pos (min (pos + snippetLength) chars.length) = pos := by omega
  have hsnippet : Between chars pos (min (pos + snippetLength) chars.length)
      ((chars.drop pos).take snippetLength) := by
    refine ⟨by omega, by omega, ?_⟩
    rcases Nat.le_total (pos + snippetLength) chars.length with hle | hle
    · rw [Nat.min_eq_left hle, ← List.drop_drop, List.take_append_drop]
    · rw [Nat.min_eq_right hle, List.drop_length, List.append_nil, List.take_of_length_le]
      rw [List.length_drop]
      omega
  have hempty : ((chars.drop pos).take snippetLength).isEmpty = (chars.drop pos).isEmpty := by
    cases chars.drop pos <;> rfl
  simp only [refuse, hmin, hsnippet.slice_eq, Outcome.ok_bind, SyntaxError.at,
    length_sub_length_drop h, hempty]

/-- Nothing is read behind an error. -/
theorem refuse_bind {α β : Type} (problem : SyntaxProblem) {pos : Nat} (h : pos ≤ chars.length)
    (f : α → Except Halt β) : (refuse chars problem pos >>= f) = refuse chars problem pos := by
  rw [refuse_eq problem h, refuse_eq problem h]
  rfl

/-! ## Two ways of reading -/

/-- Two readings of a text that end alike: with results that belong together, or with the same
error, which points into the text. -/
inductive Agree (chars : List Char) {α β : Type} (R : α → β → Prop) :
    Except Halt α → Except SyntaxError β → Prop where
  | read {a : α} {b : β} (h : R a b) : Agree chars R (.ok a) (.ok b)
  | refused {e : SyntaxError} (h : e.PointsInto chars) :
      Agree chars R (.error (.refused e)) (.error e)

namespace Agree

variable {α β γ δ : Type} {R : α → β → Prop} {S : γ → δ → Prop}
  {walk : Except Halt α} {reading : Except SyntaxError β}

theorem bind {f : α → Except Halt γ} {g : β → Except SyntaxError δ}
    (h : Agree chars R walk reading) (hmore : ∀ a b, R a b → Agree chars S (f a) (g b)) :
    Agree chars S (walk >>= f) (reading >>= g) := by
  cases h with
  | read hab => exact hmore _ _ hab
  | refused he => exact .refused he

theorem eq_ok {b : β} (h : Agree chars R walk (.ok b)) : ∃ a, walk = .ok a ∧ R a b := by
  cases h with
  | read hab => exact ⟨_, rfl, hab⟩

theorem eq_error {e : SyntaxError} (h : Agree chars R walk (.error e)) :
    walk = .error (.refused e) ∧ e.PointsInto chars := by
  cases h with
  | refused he => exact ⟨rfl, he⟩

theorem mono {R' : α → β → Prop} (h : Agree chars R walk reading)
    (himp : ∀ a b, R a b → R' a b) : Agree chars R' walk reading := by
  cases h with
  | read hab => exact .read (himp _ _ hab)
  | refused he => exact .refused he

/-- An error in the front of a text points into the text. -/
theorem of_take {stop : Nat} (h : Agree (chars.take stop) R walk reading) :
    Agree chars R walk reading := by
  cases h with
  | read hab => exact .read hab
  | refused he => exact .refused he.of_take

/-- An error at an index is an error where the text is read on from there. -/
theorem refuse (problem : SyntaxProblem) {pos : Nat} (h : pos ≤ chars.length) :
    Agree chars R (refuse chars problem pos)
      (.error (.at chars.length problem (chars.drop pos))) := by
  rw [refuse_eq problem h]
  exact .refused (SyntaxError.pointsInto_at problem h)

end Agree

/-- A value with the index behind it, and the same value with what is left there. -/
inductive Reached (chars : List Char) {α : Type} (P : α → Nat → Prop) :
    α × Nat → α × List Char → Prop where
  | intro {a : α} {pos : Nat} (hle : pos ≤ chars.length) (h : P a pos) :
      Reached chars P (a, pos) (a, chars.drop pos)

/-! ## Tokens -/

theorem between_skipWhile (p : Char → Bool) {pos : Nat} (h : pos ≤ chars.length) :
    Between chars pos (skipWhile chars p pos) ((chars.drop pos).takeWhile p) ∧
      chars.drop (skipWhile chars p pos) = (chars.drop pos).dropWhile p := by
  fun_induction skipWhile chars p pos with
  | case1 pos c hc hp ih =>
    obtain ⟨hbetween, hdrop⟩ := ih (lt_length_of_getElem? chars hc)
    rw [drop_of_getElem? hc, List.takeWhile_cons_of_pos hp, List.dropWhile_cons_of_pos hp]
    exact ⟨hbetween.cons hc, hdrop⟩
  | case2 pos c hc hp =>
    rw [drop_of_getElem? hc, List.takeWhile_cons_of_neg hp, List.dropWhile_cons_of_neg hp]
    exact ⟨.nil h, rfl⟩
  | case3 pos hnone =>
    rw [drop_of_getElem?_none hnone, List.takeWhile_nil, List.dropWhile_nil]
    exact ⟨.nil h, rfl⟩

/-- Passing over blanks is the same in both ways of reading. -/
theorem exists_skipBlanks {pos : Nat} (h : pos ≤ chars.length) :
    ∃ start, skipWhile chars isBlank pos = start ∧ trimStart (chars.drop pos) = chars.drop start ∧
      pos ≤ start ∧ start ≤ chars.length := by
  obtain ⟨hbetween, hdrop⟩ := between_skipWhile isBlank h
  exact ⟨_, rfl, hdrop.symm, hbetween.start_le, hbetween.stop_le⟩

/-- The name at an index, in both ways of reading. -/
theorem name_spec {pos : Nat} (h : pos ≤ chars.length) :
    (identifier? (chars.drop pos) = none ∧ name chars pos = .ok (none, pos)) ∨
      ∃ found stop, identifier? (chars.drop pos) = some (found, chars.drop stop) ∧
        name chars pos = .ok (some found, stop) ∧ pos < stop ∧ Between chars pos stop found := by
  cases hc : chars[pos]? with
  | none =>
    left
    rw [drop_of_getElem?_none hc, name, hc]
    exact ⟨rfl, rfl⟩
  | some c =>
    rw [name, hc]
    by_cases hstart : isIdentStart c = true
    · right
      obtain ⟨hbetween, hdrop⟩ := between_skipWhile isIdentChar h
      have hpart := isIdentChar_of_isIdentStart hstart
      rw [drop_of_getElem? hc, List.takeWhile_cons_of_pos hpart] at hbetween
      rw [drop_of_getElem? hc, List.dropWhile_cons_of_pos hpart] at hdrop
      have hlength := hbetween.length_eq
      rw [List.length_cons] at hlength
      refine ⟨_, _, ?_, ?_, ?_, hbetween⟩
      · rw [drop_of_getElem? hc, identifier?, if_pos hstart, hdrop]
      · simp only [if_pos hstart, hbetween.slice_eq]
        rfl
      · omega
    · left
      rw [drop_of_getElem? hc, identifier?, if_neg hstart]
      exact ⟨rfl, if_neg hstart⟩

/-! ## Values -/

/-- A search by index that ends in an error at `start` where the other one finds nothing, and
otherwise ends with a result that belongs to what the other one finds. -/
inductive Finds (chars : List Char) (problem : SyntaxProblem) (start : Nat) {α β : Type}
    (R : α → β → Prop) : Except Halt α → Option β → Prop where
  | nothing : Finds chars problem start R (refuse chars problem start) none
  | found {a : α} {b : β} (h : R a b) : Finds chars problem start R (.ok a) (some b)

namespace Finds

variable {problem : SyntaxProblem} {start : Nat} {α β : Type} {R : α → β → Prop}
  {walk : Except Halt α}

theorem eq_refuse (h : Finds chars problem start R walk none) :
    walk = refuse chars problem start := by
  cases h
  rfl

theorem eq_ok {b : β} (h : Finds chars problem start R walk (some b)) :
    ∃ a, walk = .ok a ∧ R a b := by
  cases h with
  | found hab => exact ⟨_, rfl, hab⟩

theorem map {S : α → β → Prop} {reading : Option β} {f : β → β}
    (h : Finds chars problem start R walk reading) (himp : ∀ a b, R a b → S a (f b)) :
    Finds chars problem start S walk (reading.map f) := by
  cases h with
  | nothing => exact .nothing
  | found hab => exact .found (himp _ _ hab)

end Finds

theorem quotedText?_escaped (c : Char) (cs : List Char) :
    quotedText? ('\\' :: c :: cs) =
      (quotedText? cs).map fun (text, rest) => (unescaped c ++ text, rest) := by
  rw [quotedText?, unescaped]
  split <;> rfl

/-- The text up to the closing quote. -/
theorem finds_quotedFrom (start : Nat) (text : List Char) (pos : Nat) :
    Finds chars .unterminatedString start
      (fun (read, stop) (more, rest) =>
        read = text ++ more ∧ rest = chars.drop stop ∧ pos < stop ∧ stop ≤ chars.length)
      (quotedFrom chars start text pos) (quotedText? (chars.drop pos)) := by
  fun_induction quotedFrom chars start text pos with
  | case1 text pos hnone =>
    rw [drop_of_getElem?_none hnone]
    exact .nothing
  | case2 text pos hc =>
    rw [drop_of_getElem? hc, quotedText?]
    exact .found ⟨(List.append_nil text).symm, rfl, Nat.lt_succ_self pos,
      lt_length_of_getElem? chars hc⟩
  | case3 text pos hnone hc =>
    rw [drop_of_getElem? hc, drop_of_getElem?_none hnone]
    exact .nothing
  | case4 text pos c hnext hc _ ih =>
    rw [drop_of_getElem? hc, drop_of_getElem? hnext, quotedText?_escaped]
    apply ih.map
    rintro ⟨read, stop⟩ ⟨more, rest⟩ ⟨hread, hrest, hlt, hle⟩
    exact ⟨by rw [hread, List.append_assoc], hrest, by omega, hle⟩
  | case5 text pos c hc hquote hbackslash ih =>
    rw [drop_of_getElem? hc, quotedText?_cons hquote hbackslash]
    apply ih.map
    rintro ⟨read, stop⟩ ⟨more, rest⟩ ⟨hread, hrest, hlt, hle⟩
    exact ⟨by rw [hread, List.append_assoc, List.singleton_append], hrest, by omega, hle⟩

/-- The text from `pos` up to the index where a search ends, and how what follows begins there. -/
def UpTo (chars : List Char) (pos : Nat) (ends : Nat → List Char → Prop) (stop : Nat)
    (read : List Char × List Char) : Prop :=
  Between chars pos stop read.1 ∧ ends stop read.2

theorem Finds.cons {problem : SyntaxProblem} {start pos : Nat} {c : Char}
    {ends : Nat → List Char → Prop} {walk : Except Halt Nat}
    {reading : Option (List Char × List Char)} (hc : chars[pos]? = some c)
    (h : Finds chars problem start (UpTo chars (pos + 1) ends) walk reading) :
    Finds chars problem start (UpTo chars pos ends) walk
      (reading.map fun (text, rest) => (c :: text, rest)) := by
  apply h.map
  rintro stop ⟨text, rest⟩ ⟨hbetween, hends⟩
  exact ⟨hbetween.cons hc, hends⟩

/-- The text up to the parenthesis that closes one more than was opened. There are never more of
them open than characters read, so the count stays in its range. -/
theorem finds_bareEnd (start : Nat) {depth pos : Nat} (hdepth : depth ≤ pos) :
    Finds chars .unterminatedValue start (UpTo chars pos fun stop rest => chars.drop stop = rest)
      (bareEnd chars start depth pos) (bareText? depth (chars.drop pos)) := by
  fun_induction bareEnd chars start depth pos with
  | case1 depth pos hnone =>
    rw [drop_of_getElem?_none hnone]
    cases depth <;> exact .nothing
  | case2 pos hc =>
    rw [drop_of_getElem? hc]
    exact .found ⟨.nil (Nat.le_of_lt (lt_length_of_getElem? chars hc)), drop_of_getElem? hc⟩
  | case3 depth pos hopen hc ih =>
    obtain ⟨depth, rfl⟩ := Nat.exists_eq_succ_of_ne_zero hopen
    rw [drop_of_getElem? hc]
    exact (ih depth (by omega)).cons hc
  | case4 depth pos hc _ ih =>
    have hmore := more_of_lt (Nat.lt_of_le_of_lt hdepth (lt_length_of_getElem? chars hc))
    rw [drop_of_getElem? hc, bareText?_cons, hmore]
    exact (ih (depth + 1) (by omega)).cons hc
  | case5 depth pos c hc hclose hopen ih =>
    rw [drop_of_getElem? hc, bareText?_cons, nextDepth_plain hopen hclose]
    exact (ih (by omega)).cons hc

/-- Where the scan for the end of a group stands. -/
def bracketState (inString : Bool) (depth : Nat) : BracketState :=
  if inString then .quoted depth else .plain depth

/-- The text up to the bracket that closes one more than was opened. A backslash takes the character
behind it along, which the scan does in two steps. -/
theorem finds_groupEnd (start : Nat) {depth pos : Nat} (inString : Bool) (hdepth : depth ≤ pos) :
    Finds chars .unclosedGroup start
      (UpTo chars pos fun stop rest => chars.drop stop = ']' :: rest)
      (groupEnd chars start depth inString pos)
      ((bracketState inString depth).splitGroup (chars.drop pos)) := by
  fun_induction groupEnd chars start depth inString pos with
  | case1 depth inString pos hnone =>
    rw [drop_of_getElem?_none hnone]
    exact .nothing
  | case2 depth pos c hnext hc ih =>
    rw [drop_of_getElem? hc, drop_of_getElem? hnext]
    exact ((ih (by omega)).cons hnext).cons hc
  | case3 depth pos hnext hc ih =>
    -- A backslash at the very end has nothing to take along.
    have ih := ih (by omega)
    rw [drop_of_getElem?_none hnext] at ih
    rw [drop_of_getElem? hc, drop_of_getElem?_none hnext]
    exact ih.cons hc
  | case4 depth pos hc _ ih =>
    rw [drop_of_getElem? hc]
    exact (ih (by omega)).cons hc
  | case5 depth pos c hc hbackslash hquote ih =>
    rw [drop_of_getElem? hc]
    refine (BracketState.splitGroup_cons ?_ _).symm ▸ (ih (by omega)).cons hc
    exact BracketState.next_quoted depth hbackslash hquote
  | case6 depth inString pos hplain hc ih =>
    obtain rfl := eq_false_of_ne_true hplain
    rw [drop_of_getElem? hc]
    exact (ih (by omega)).cons hc
  | case7 depth inString pos hplain hc _ ih =>
    obtain rfl := eq_false_of_ne_true hplain
    have hmore := more_of_lt (Nat.lt_of_le_of_lt hdepth (lt_length_of_getElem? chars hc))
    rw [drop_of_getElem? hc, hmore]
    exact (ih (depth + 1) (by omega)).cons hc
  | case8 inString pos hplain hc =>
    obtain rfl := eq_false_of_ne_true hplain
    rw [drop_of_getElem? hc]
    exact .found ⟨.nil (Nat.le_of_lt (lt_length_of_getElem? chars hc)), drop_of_getElem? hc⟩
  | case9 depth inString pos hplain hopen hc _ _ ih =>
    obtain rfl := eq_false_of_ne_true hplain
    obtain ⟨depth, rfl⟩ := Nat.exists_eq_succ_of_ne_zero hopen
    rw [drop_of_getElem? hc]
    exact (ih depth (by omega)).cons hc
  | case10 depth inString pos c hc hplain hquote hopen hclose ih =>
    obtain rfl := eq_false_of_ne_true hplain
    rw [drop_of_getElem? hc]
    refine (BracketState.splitGroup_cons ?_ _).symm ▸ (ih (by omega)).cons hc
    exact BracketState.next_plain depth hquote hopen hclose

/-- A value is read alike, and behind where it starts. -/
theorem agree_value {pos : Nat} (h : pos ≤ chars.length) :
    Agree chars (Reached chars fun _ stop => pos ≤ stop) (value chars pos)
      (readValue chars.length (chars.drop pos)) := by
  obtain ⟨start, hskip, htrim, hle, hlength⟩ := exists_skipBlanks h
  rw [value, readValue, hskip, htrim]
  by_cases hc : chars[start]? = some '"'
  · have hfinds := @finds_quotedFrom chars start [] (start + 1)
    simp only [if_pos hc, less, drop_of_getElem? hc, Outcome.ok_bind]
    split
    · next text rest hread =>
      rw [hread] at hfinds
      obtain ⟨⟨text', stop⟩, hwalk, rfl, rfl, hlt, hstop⟩ := hfinds.eq_ok
      rw [hwalk]
      exact .read (.intro hstop (by omega))
    · next hread =>
      -- The error is at the opening quote, one in front of where the search starts.
      rw [hread] at hfinds
      rw [hfinds.eq_refuse, refuse_bind _ hlength, ← drop_of_getElem? hc]
      exact .refuse _ hlength
  · have hfinds := @finds_bareEnd chars start 0 start (Nat.zero_le start)
    simp only [if_neg hc]
    split
    · next inner hinner => exact absurd (getElem?_of_drop hinner).1 hc
    · split
      · next text rest hread =>
        rw [hread] at hfinds
        obtain ⟨stop, hwalk, hbetween, rfl⟩ := hfinds.eq_ok
        have hslice : slice chars start stop = .ok text := hbetween.slice_eq
        rw [hwalk, Outcome.ok_bind, hslice]
        exact .read (.intro hbetween.stop_le (Nat.le_trans hle hbetween.start_le))
      · next hread =>
        rw [hread] at hfinds
        rw [hfinds.eq_refuse, refuse_bind _ hlength]
        exact .refuse _ hlength

end Walk

end BoundFields
