import BoundFields.Number.Rounding

/-!
# Comparing and clamping, and whole numbers as doubles

Doubles that are numbers are in order (`le_self`, `le_trans`, `le_total`). Clamping moves them
between the ends of a range (`between_clamp`), and what is there already is not moved
(`clamp_of_between`, `clamp_clamp`). A double without a fraction part compares like the double
nearest to its integer value and has the same integer value (`toInt?_ofInt`, `le_ofInt`), so that a
number may be kept as an integer and clamped again later (`toInt?_clamp_ofInt`).
-/

set_option autoImplicit false

namespace BoundFields.Double

/-! ## Comparing -/

theorem le_self {x : Double} (h : x.isNaN = false) : x.le x = true := by
  cases x with
  | nan => cases h
  | infinite negative => cases negative <;> rfl
  | finite s m e => simp [le]

theorem le_trans {x y z : Double} (hxy : x.le y = true) (hyz : y.le z = true) : x.le z = true := by
  cases y with
  | nan => cases x <;> simp [le] at hxy
  | infinite s =>
    -- Nothing but itself is below the one infinity or above the other.
    cases s with
    | true =>
      cases x with
      | infinite r => cases r <;> simp_all [le]
      | nan | finite => simp [le] at hxy
    | false =>
      cases z with
      | infinite r =>
        cases r with
        | true => simp [le] at hyz
        | false => cases x <;> simp_all [le]
      | nan | finite => simp [le] at hyz
  | finite s m e =>
    cases x with
    | nan => simp [le] at hxy
    | infinite r =>
      cases r with
      | true => cases z <;> simp_all [le]
      | false => simp [le] at hxy
    | finite r k d =>
      cases z with
      | nan => simp [le] at hyz
      | infinite q => cases q <;> simp_all [le]
      | finite q l g =>
        simp only [le, decide_eq_true_eq] at hxy hyz ⊢
        omega

theorem same_trans {x y z : Double} (hxy : x.same y = true) (hyz : y.same z = true) :
    x.same z = true := by
  obtain ⟨hxy, hyx⟩ := Bool.and_eq_true_iff.1 hxy
  obtain ⟨hyz, hzy⟩ := Bool.and_eq_true_iff.1 hyz
  exact Bool.and_eq_true_iff.2 ⟨le_trans hxy hyz, le_trans hzy hyx⟩

theorem same_comm (x y : Double) : x.same y = y.same x := by
  unfold same
  exact Bool.and_comm _ _

/-- Numbers that are the same are below the same numbers, and above the same. -/
theorem le_of_same {x y : Double} (h : x.same y = true) (z : Double) :
    x.le z = y.le z ∧ z.le x = z.le y := by
  obtain ⟨hxy, hyx⟩ := Bool.and_eq_true_iff.1 h
  exact ⟨Bool.eq_iff_iff.2 ⟨le_trans hyx, le_trans hxy⟩,
    Bool.eq_iff_iff.2 ⟨fun hz => le_trans hz hxy, fun hz => le_trans hz hyx⟩⟩

theorem lt_of_same {x y : Double} (h : x.same y = true) (z : Double) :
    x.lt z = y.lt z ∧ z.lt x = z.lt y := by
  obtain ⟨hleft, hright⟩ := le_of_same h z
  unfold lt
  rw [hleft, hright]
  exact ⟨rfl, rfl⟩

theorem same_self {x : Double} (h : x.isNaN = false) : x.same x = true := by
  unfold same
  rw [le_self h, Bool.and_self]

theorem isNaN_of_le {x y : Double} (h : x.le y = true) : x.isNaN = false ∧ y.isNaN = false := by
  cases x <;> cases y <;> first | exact ⟨rfl, rfl⟩ | simp [le] at h

theorem isNaN_of_isFinite {x : Double} (h : x.isFinite = true) : x.isNaN = false := by
  cases x with
  | nan => cases h
  | infinite | finite => rfl

theorem le_total {x y : Double} (hx : x.isNaN = false) (hy : y.isNaN = false) :
    x.le y = true ∨ y.le x = true := by
  cases x with
  | nan => cases hx
  | infinite s =>
    cases y with
    | nan => cases hy
    | infinite t => cases s <;> cases t <;> simp [le]
    | finite => cases s <;> simp [le]
  | finite s m e =>
    cases y with
    | nan => cases hy
    | infinite t => cases t <;> simp [le]
    | finite t n f =>
      simp only [le, decide_eq_true_eq]
      exact Int.le_total _ _

theorem le_of_not_lt {x y : Double} (hx : x.isNaN = false) (hy : y.isNaN = false)
    (h : y.lt x = false) : x.le y = true := by
  rcases le_total hx hy with hle | hge
  · exact hle
  · simpa [lt, hge] using h

theorem isFinite_of_between {low x high : Double} (hlow : low.isFinite = true)
    (hhigh : high.isFinite = true) (hle : low.le x = true) (hge : x.le high = true) :
    x.isFinite = true := by
  cases x with
  | finite => rfl
  | nan => cases (isNaN_of_le hle).2
  | infinite negative =>
    cases negative with
    | true =>
      cases low with
      | finite => cases hle
      | infinite | nan => cases hlow
    | false =>
      cases high with
      | finite => cases hge
      | infinite | nan => cases hhigh

/-! ## Clamping -/

theorem lt_self (x : Double) : x.lt x = false := by
  unfold lt
  cases x.le x <;> rfl

/-- Clamping twice into one range is clamping once, whether or not the range is empty. -/
theorem clamp_clamp (x low high : Double) :
    (x.clamp low high).clamp low high = x.clamp low high := by
  unfold clamp
  cases hx : x.lt low with
  | true =>
    cases hr : high.lt low with
    | true => simp [hr]
    | false => simp [hr, lt_self]
  | false =>
    cases hh : high.lt x with
    | true => cases hl : high.lt low <;> simp [hh, hl, lt_self]
    | false => simp [hx, hh]

/-- A number in the range is not moved. -/
theorem clamp_of_between {x low high : Double} (hlow : low.le x = true) (hhigh : x.le high = true) :
    x.clamp low high = x := by
  unfold clamp
  simp [lt, hlow, hhigh]

/-- A number is moved between the ends of a range that is not empty. -/
theorem between_clamp {x low high : Double} (hx : x.isNaN = false) (hrange : low.le high = true) :
    low.le (x.clamp low high) = true ∧ (x.clamp low high).le high = true := by
  obtain ⟨hlow, hhigh⟩ := isNaN_of_le hrange
  unfold clamp
  dsimp only
  split
  · have hends : high.lt low = false := by simp [lt, hrange]
    rw [if_neg (by simp [hends])]
    exact ⟨le_self hlow, hrange⟩
  · next hl =>
    split
    · exact ⟨hrange, le_self hhigh⟩
    · next hh => exact ⟨le_of_not_lt hlow hx (by simpa using hl),
        le_of_not_lt hx hhigh (by simpa using hh)⟩

/-- What is no number is not moved. -/
theorem clamp_nan (low high : Double) : clamp .nan low high = .nan := by
  cases low <;> cases high <;> rfl

/-- Numbers that are the same are moved into a range to numbers that are. -/
theorem clamp_of_same {x y : Double} (h : x.same y = true) (low high : Double) :
    (x.clamp low high).same (y.clamp low high) = true := by
  -- Where a number is moved to an end, the end has been compared with it and so is a number.
  have hend {a b : Double} (hlt : a.lt b = true) : a.isNaN = false ∧ b.isNaN = false :=
    isNaN_of_le (Bool.and_eq_true_iff.1 hlt).1
  have hlow := (lt_of_same h low).1
  have hhigh := (lt_of_same h high).2
  unfold clamp
  dsimp only
  rw [hlow]
  cases hl : y.lt low with
  | true =>
    simp only [if_true]
    cases hh : high.lt low with
    | true => exact same_self (hend hh).1
    | false => exact same_self (hend hl).2
  | false =>
    simp only [Bool.false_eq_true, if_false, hhigh]
    cases hh : high.lt y with
    | true => exact same_self (hend hh).1
    | false => exact h

/-! ## Whole numbers -/

/-- The bits of a product of a significand and a power of two. -/
theorem excess_of_canonical {m e : Nat} (h : Canonical m e) : excess (m * twoTo e) 1 = e := by
  have hdiv : m * twoTo e / 1 = m * twoTo e := Nat.div_one _
  unfold excess
  rw [hdiv]
  by_cases he : e = 0
  · -- The significand may be short then, but it is not too long.
    subst he
    have hlt : ¬ precision < bitLength (m * twoTo 0) := by
      intro hbits
      have hle := twoTo_le_of_lt_bitLength hbits
      have hm := h.significand_lt
      have hone : m * twoTo 0 = m := Nat.mul_one m
      omega
    omega
  · -- The first bit of the significand is set, so that the length of the product is known.
    have hlow : precision - 1 + e < bitLength (m * twoTo e) := by
      have hpow : twoTo (precision - 1 + e) ≤ m * twoTo e := by
        have hadd : twoTo (precision - 1 + e) = twoTo (precision - 1) * twoTo e :=
          Nat.pow_add 2 _ _
        rw [hadd]
        exact Nat.mul_le_mul_right _ (h.full he)
      have hbits := lt_twoTo_bitLength (m * twoTo e)
      exact (Nat.pow_lt_pow_iff_right (by decide)).1 (Nat.lt_of_le_of_lt hpow hbits)
    have hhigh : ¬ precision + e < bitLength (m * twoTo e) := by
      intro hbits
      have hle := twoTo_le_of_lt_bitLength hbits
      have hadd : twoTo (precision + e) = twoTo precision * twoTo e := Nat.pow_add 2 _ _
      have hm : m * twoTo e < twoTo precision * twoTo e :=
        Nat.mul_lt_mul_of_pos_right h.significand_lt (twoTo_pos e)
      omega
    unfold precision at hlow hhigh ⊢
    omega

theorem roundHalfEven_mul (m : Nat) {d : Nat} (hd : 0 < d) : roundHalfEven (m * d) d = m := by
  unfold roundHalfEven
  simp [Nat.mul_div_cancel m hd, hd]

/-- A number that a double can hold is rounded to that double. -/
theorem ofRatio_of_canonical {m e num : Nat} (negative : Bool) (h : Canonical m e)
    (hnum : num * twoTo scale = m * twoTo e) : ofRatio negative num 1 = .finite negative m e h := by
  have hexcess := excess_of_canonical h
  have hround : roundedSignificand (m * twoTo e) 1 = m := by
    unfold roundedSignificand
    rw [hexcess, Nat.one_mul, roundHalfEven_mul m (twoTo_pos e)]
  have hne : roundedSignificand (m * twoTo e) 1 ≠ twoTo precision := by
    rw [hround]
    exact Nat.ne_of_lt h.significand_lt
  unfold ofRatio
  simp only [hnum]
  rw [dif_neg hne, dif_pos (by rw [hexcess]; exact h.exponent_le)]
  congr

/-- The significand and the exponent of a whole number, and its sign unless it is zero. -/
theorem units_of_toInt? {s : Bool} {m e : Nat} {h : Canonical m e} {n : Int}
    (hn : (finite s m e h).toInt? = some n) : units s m e = n * twoTo scale := by
  simp only [toInt?] at hn
  split at hn
  · next hmod =>
    obtain rfl := Option.some.inj hn
    exact (Int.ediv_mul_cancel (Int.dvd_of_emod_eq_zero hmod)).symm
  · exact absurd hn (by simp)

theorem ofInt_of_toInt? {s : Bool} {m e : Nat} {h : Canonical m e} {n : Int}
    (hn : (finite s m e h).toInt? = some n) :
    ofInt n = .finite (n < 0) m e h ∧ units (n < 0) m e = units s m e := by
  have hu := units_of_toInt? hn
  have habs : n.natAbs * twoTo scale = m * twoTo e := by
    have hnat : (units s m e).natAbs = m * twoTo e := by
      unfold units
      split
      · rw [Int.natAbs_neg, Int.natAbs_natCast]
      · rw [Int.natAbs_natCast]
    rw [← hnat, hu, Int.natAbs_mul, Int.natAbs_natCast]
  refine ⟨ofRatio_of_canonical (decide (n < 0)) h habs, ?_⟩
  rw [hu]
  unfold units
  rw [← habs]
  by_cases hneg : n < 0
  · have hn : -(n.natAbs : Int) = n := by omega
    simp only [hneg, decide_true, if_true]
    rw [Int.natCast_mul, ← Int.neg_mul, hn]
  · have hn : (n.natAbs : Int) = n := by omega
    simp only [hneg, decide_false, if_false, Bool.false_eq_true]
    rw [Int.natCast_mul, hn]

/-- The double nearest to the integer value of a whole number has that value again. -/
theorem toInt?_ofInt {x : Double} {n : Int} (h : x.toInt? = some n) :
    (ofInt n).toInt? = some n := by
  cases x with
  | nan => simp [toInt?] at h
  | infinite s => simp [toInt?] at h
  | finite s m e hc =>
    obtain ⟨hofInt, hunits⟩ := ofInt_of_toInt? h
    rw [hofInt]
    simp only [toInt?, hunits] at h ⊢
    exact h

/-- A whole number and the double nearest to its integer value are below the same numbers, and
above the same. -/
theorem le_ofInt {x : Double} {n : Int} (h : x.toInt? = some n) (y : Double) :
    (ofInt n).le y = x.le y ∧ y.le (ofInt n) = y.le x := by
  cases x with
  | nan => simp [toInt?] at h
  | infinite s => simp [toInt?] at h
  | finite s m e hc =>
    -- The two differ in the sign at most, and only if both are zero.
    obtain ⟨hofInt, hunits⟩ := ofInt_of_toInt? h
    rw [hofInt]
    cases y with
    | nan => exact ⟨rfl, rfl⟩
    | infinite t => cases t <;> exact ⟨rfl, rfl⟩
    | finite t k f hd => simp only [le, hunits, and_self]

theorem same_ofInt {x : Double} {n : Int} (h : x.toInt? = some n) :
    (ofInt n).same x = true := by
  have hle : x.le x = true := by
    cases x with
    | nan | infinite => cases h
    | finite => exact le_self rfl
  obtain ⟨hleft, hright⟩ := le_ofInt h x
  unfold same
  rw [hleft, hright, hle, Bool.and_self]

/-- A whole number and the double nearest to its integer value are less than the same numbers, and
greater than the same. -/
theorem lt_ofInt {x : Double} {n : Int} (h : x.toInt? = some n) (y : Double) :
    (ofInt n).lt y = x.lt y ∧ y.lt (ofInt n) = y.lt x := by
  obtain ⟨hleft, hright⟩ := le_ofInt h y
  unfold lt
  rw [hleft, hright]
  exact ⟨rfl, rfl⟩

/-- A whole number within a range keeps its integer value when that is clamped into the range. -/
theorem toInt?_clamp_ofInt {x low high : Double} {n : Int} (h : x.toInt? = some n)
    (hx : x.clamp low high = x) : ((ofInt n).clamp low high).toInt? = some n := by
  have hlow := (lt_ofInt h low).1
  have hhigh := (lt_ofInt h high).2
  unfold clamp at hx ⊢
  rw [hlow]
  cases hl : x.lt low with
  | true =>
    -- Both are raised to the lower end, so that one result is the other.
    simp only [hl, if_true] at hx ⊢
    rw [hx, h]
  | false =>
    simp only [hl, Bool.false_eq_true, if_false] at hx ⊢
    rw [hhigh]
    split
    · next hh =>
      rw [if_pos hh] at hx
      rw [hx, h]
    · exact toInt?_ofInt h

end BoundFields.Double
