import Mathlib.Tactic
import StructuralTypes.Prelude
import StructuralTypes.Proofs.OperatorMeaning

/-!
# Whole numbers of every class

Numbers come as whole, binary, rational and decimal ones, and `Integer` has those that denote a whole number. To see
whether a ratio or a decimal is finite it is rounded to a binary number first, and there it can overflow: no answer
comes from a ratio that does, and a decimal that does counts as infinite.
-/

namespace StructuralTypes

namespace Scientific

/-- The rational that a numeral denotes. -/
def value (s : Scientific) : ℚ := (if s.negative then -1 else 1) * (s.coefficient * 10 ^ s.exponent)

variable {s : Scientific}

lemma abs_value (s : Scientific) : |s.value| = s.coefficient * 10 ^ s.exponent := by
  have hmagnitude : (0 : ℚ) ≤ s.coefficient * 10 ^ s.exponent := by positivity
  rw [value, abs_mul, abs_of_nonneg hmagnitude]
  split <;> simp

lemma lt_pow_digitCount (n : Nat) : n < 10 ^ digitCount n :=
  (Nat.length_toDigits_le_iff (by decide) Nat.length_toDigits_pos).mp le_rfl

lemma pow_digitCount_le {n : Nat} (hn : n ≠ 0) : 10 ^ (digitCount n - 1) ≤ n := by
  by_cases hcount : digitCount n - 1 = 0
  · rw [hcount, pow_zero]
    omega
  · by_contra hlt
    have hle : digitCount n ≤ digitCount n - 1 :=
      (Nat.length_toDigits_le_iff (by decide) (Nat.pos_of_ne_zero hcount)).mpr (by omega)
    omega

/-- The leading digit of a numeral bounds it from both sides. -/
lemma abs_value_lt (s : Scientific) : |s.value| < 10 ^ Double.leadingPlace s := by
  rw [abs_value, Double.leadingPlace, zpow_add₀ (by norm_num), zpow_natCast]
  gcongr
  exact_mod_cast lt_pow_digitCount s.coefficient

lemma le_abs_value (h : s.coefficient ≠ 0) : (10 : ℚ) ^ (Double.leadingPlace s - 1) ≤ |s.value| := by
  have hcount : 0 < digitCount s.coefficient := Nat.length_toDigits_pos
  have hplace : Double.leadingPlace s - 1 = ((digitCount s.coefficient - 1 : Nat) : Int) + s.exponent := by
    rw [Double.leadingPlace]
    omega
  rw [abs_value, hplace, zpow_add₀ (by norm_num), zpow_natCast]
  gcongr
  exact_mod_cast pow_digitCount_le h

end Scientific

namespace Double

lemma pow10_eq (k : Int) : pow10 k = (10 : ℚ) ^ k := by
  unfold pow10
  split
  · rename_i hk
    obtain ⟨n, rfl⟩ := Int.eq_ofNat_of_zero_le hk
    simp
  · rename_i hk
    obtain ⟨n, hn⟩ := Int.eq_ofNat_of_zero_le (by omega : 0 ≤ -k)
    obtain rfl : k = -(n : Int) := by omega
    simp

lemma overflows_iff (q : ℚ) : overflows q = true ↔ overflowThreshold ≤ |q| := by
  rw [overflows, decide_eq_true_eq, le_abs, le_neg]

/-- The threshold has 309 digits. -/
lemma overflowThreshold_bounds : (10 : ℚ) ^ 308 ≤ overflowThreshold ∧ overflowThreshold ≤ 10 ^ 309 := by
  unfold overflowThreshold
  constructor
  · exact_mod_cast (by decide +kernel : 10 ^ 308 ≤ Nat.pow 2 1024 - Nat.pow 2 970)
  · exact_mod_cast (by decide +kernel : Nat.pow 2 1024 - Nat.pow 2 970 ≤ 10 ^ 309)

/-- Looking at the number of digits first does not change which numerals overflow. -/
lemma overflowsNumeral_iff (s : Scientific) : overflowsNumeral s = true ↔ overflowThreshold ≤ |s.value| := by
  obtain ⟨hlow, hhigh⟩ := overflowThreshold_bounds
  unfold overflowsNumeral
  split
  · rename_i hsmall
    refine iff_of_false Bool.false_ne_true (not_le.mpr (lt_of_lt_of_le ?_ hlow))
    rcases hsmall with hzero | hplace
    · rw [Scientific.abs_value, hzero, Nat.cast_zero, zero_mul]
      positivity
    · calc |s.value| < 10 ^ leadingPlace s := s.abs_value_lt
        _ ≤ 10 ^ (308 : Int) := zpow_le_zpow_right₀ (by norm_num) (by omega)
        _ = 10 ^ 308 := zpow_ofNat 10 308
  · rename_i hlarge
    obtain ⟨hcoefficient, hplace⟩ := not_or.mp hlarge
    split
    · refine iff_of_true rfl ?_
      calc overflowThreshold ≤ 10 ^ 309 := hhigh
        _ = 10 ^ (309 : Int) := (zpow_ofNat 10 309).symm
        _ ≤ 10 ^ (leadingPlace s - 1) := zpow_le_zpow_right₀ (by norm_num) (by omega)
        _ ≤ |s.value| := Scientific.le_abs_value hcoefficient
    · rw [overflows_iff, pow10_eq, Scientific.abs_value, abs_of_nonneg (by positivity)]

end Double

lemma den_eq_one_iff (q : ℚ) : q.den = 1 ↔ ∃ n : ℤ, q = n :=
  ⟨fun h => ⟨q.num, (Rat.coe_int_num_of_den_eq_one h).symm⟩, fun ⟨n, hn⟩ => by rw [hn, Rat.den_intCast]⟩

lemma exists_intCast_abs_iff (q : ℚ) : (∃ n : ℤ, |q| = n) ↔ ∃ n : ℤ, q = n := by
  constructor
  · rintro ⟨n, hn⟩
    rcases abs_choice q with hq | hq
    · exact ⟨n, hq.symm.trans hn⟩
    · exact ⟨-n, by rw [Int.cast_neg, ← hn, hq, neg_neg]⟩
  · rintro ⟨n, rfl⟩
    exact ⟨|n|, Int.cast_abs.symm⟩

/-- Looking at the number of digits first does not change which numerals are whole. -/
lemma Decimal.isWholeNumeral_iff (s : Scientific) : isWholeNumeral s = true ↔ ∃ n : ℤ, s.value = n := by
  rw [← exists_intCast_abs_iff]
  unfold isWholeNumeral
  split
  · rename_i hwhole
    refine iff_of_true rfl ?_
    rw [Scientific.abs_value]
    rcases hwhole with hzero | hexponent
    · exact ⟨0, by rw [hzero, Nat.cast_zero, zero_mul, Int.cast_zero]⟩
    · obtain ⟨k, hk⟩ := Int.eq_ofNat_of_zero_le hexponent
      exact ⟨s.coefficient * 10 ^ k, by rw [hk]; push_cast; rw [zpow_natCast]⟩
  · rename_i hfraction
    obtain ⟨hcoefficient, hexponent⟩ := not_or.mp hfraction
    split
    · -- The number is between zero and one.
      rename_i hplace
      refine iff_of_false Bool.false_ne_true ?_
      rintro ⟨n, hn⟩
      have hpositive : (0 : ℚ) < n := by
        rw [← hn]
        exact lt_of_lt_of_le (by positivity) (Scientific.le_abs_value hcoefficient)
      have hbelow : (n : ℚ) < 1 := by
        rw [← hn]
        exact lt_of_lt_of_le s.abs_value_lt (zpow_le_one_of_nonpos₀ (by norm_num) hplace)
      have : 0 < n := by exact_mod_cast hpositive
      have : n < 1 := by exact_mod_cast hbelow
      omega
    · obtain ⟨k, hk⟩ := Int.eq_ofNat_of_zero_le (by omega : 0 ≤ -s.exponent)
      have hvalue : |s.value| = s.coefficient / 10 ^ k := by
        rw [Scientific.abs_value, show s.exponent = -(k : Int) by omega, zpow_neg, zpow_natCast, div_eq_mul_inv]
      have hpower : ((10 : ℚ) ^ k) ≠ 0 := by positivity
      rw [hvalue, hk, Int.toNat_natCast, decide_eq_true_eq]
      constructor
      · intro hmod
        obtain ⟨n, hn⟩ := Nat.dvd_of_mod_eq_zero hmod
        refine ⟨n, ?_⟩
        rw [hn]
        push_cast
        rw [Nat.pow_eq, Nat.cast_pow, Nat.cast_ofNat, mul_div_cancel_left₀ _ hpower]
      · rintro ⟨n, hn⟩
        have hproduct : (s.coefficient : ℤ) = n * 10 ^ k := by
          rw [div_eq_iff hpower] at hn
          exact_mod_cast hn
        exact Nat.mod_eq_zero_of_dvd (by exact_mod_cast Dvd.intro_left n hproduct.symm)

namespace Value

/-- Whether a value is of one of the real classes, and not a signaling not-a-number. -/
def isReal : Value → Bool
  | .integer _ | .double _ | .ratio _ => true
  | .decimal (.nan true ..) => false
  | .decimal _ => true
  | _ => false

/-- The rational that a value denotes, if it is a finite real number. -/
def number? : Value → Option ℚ
  | .integer n => some n
  | .double x => x.toRat?
  | .ratio q => some q
  | .decimal (.finite s) => some s.value
  | _ => none

/-- The value denotes a whole number. -/
def IsWhole (v : Value) : Prop := ∃ n : ℤ, v.number? = some (n : ℚ)

/-- Whether a value is rounded to a binary number to see whether it is finite. -/
def isRounded : Value → Bool
  | .ratio _ | .decimal _ => true
  | _ => false

/-- The value is rounded, past the largest finite number. -/
def Overflows (v : Value) : Prop := v.isRounded = true ∧ ∃ q, v.number? = some q ∧ Double.overflowThreshold ≤ |q|

variable {v : Value}

lemma isNumber_of_isReal (hv : v.isReal = true) : v.isNumber = true := by
  cases v with
  | integer | double | ratio | decimal => rfl
  | _ => cases hv

lemma isWhole_of_number? {q : ℚ} (h : v.number? = some q) : v.IsWhole ↔ ∃ n : ℤ, q = n := by
  simp only [IsWhole, h, Option.some.injEq]

/-- The test for whole numbers, one class after the other. -/
lemma isIntegral_spec (hv : v.isReal = true) (h : ¬v.Overflows) :
    ∃ b, v.isIntegral = .ok b ∧ (b = true ↔ v.IsWhole) := by
  cases v with
  | integer n => exact ⟨true, rfl, iff_of_true rfl ⟨n, rfl⟩⟩
  | double x =>
    refine ⟨x.isWhole, rfl, ?_⟩
    cases x with
    | nan | infinite => exact iff_of_false Bool.false_ne_true fun ⟨n, hn⟩ => by cases hn
    | negativeZero => exact iff_of_true rfl ⟨0, rfl⟩
    | finite q => rw [isWhole_of_number? rfl, ← den_eq_one_iff, Double.isWhole, decide_eq_true_eq]
  | ratio q =>
    have hsmall : ¬Double.overflows q = true := fun hlarge => h ⟨rfl, q, rfl, (Double.overflows_iff q).mp hlarge⟩
    refine ⟨q.den = 1, by rw [isIntegral, if_neg hsmall], ?_⟩
    rw [isWhole_of_number? rfl, ← den_eq_one_iff, decide_eq_true_eq]
  | decimal x =>
    cases x with
    | nan signaling negative payload =>
      cases signaling with
      | true => cases hv
      | false => exact ⟨false, rfl, iff_of_false Bool.false_ne_true fun ⟨n, hn⟩ => by cases hn⟩
    | infinite => exact ⟨false, rfl, iff_of_false Bool.false_ne_true fun ⟨n, hn⟩ => by cases hn⟩
    | finite s =>
      have hsmall : Double.overflowsNumeral s = false := by
        by_contra hlarge
        exact h ⟨rfl, s.value, rfl, (Double.overflowsNumeral_iff s).mp (by simpa using hlarge)⟩
      refine ⟨Decimal.isWholeNumeral s, by rw [isIntegral, hsmall]; rfl, ?_⟩
      rw [isWhole_of_number? rfl, Decimal.isWholeNumeral_iff]
  | _ => cases hv

/-- A ratio that overflows has no answer. -/
lemma isIntegral_of_ratio {q : ℚ} (h : (ratio q).Overflows) : (ratio q).isIntegral = .error .ratioTooLarge := by
  obtain ⟨-, q', hq', hlarge⟩ := h
  obtain rfl := Option.some.inj hq'
  rw [isIntegral, if_pos ((Double.overflows_iff q).mpr hlarge)]

/-- A decimal that overflows counts as infinite. -/
lemma isIntegral_of_decimal {x : Decimal} (h : (decimal x).Overflows) : (decimal x).isIntegral = .ok false := by
  obtain ⟨-, q, hq, hlarge⟩ := h
  cases x with
  | nan | infinite => cases hq
  | finite s =>
    obtain rfl := Option.some.inj hq
    rw [isIntegral, (Double.overflowsNumeral_iff s).mpr hlarge]
    rfl

end Value

/-- About a number, `Integer` answers what the test for whole numbers answers. -/
lemma Prelude.integer_has (I : Interpretation) {v : Value} (hv : v.isNumber = true) :
    (Prelude.initial.1.integer.has I.withPrelude v).result = v.isIntegral.map .boolean := by
  have hshape : ∃ a b c, Prelude.initial.1.integer =
      .compound a .intersection [.predicate b .isNumber, .predicate c .isIntegral] := ⟨_, _, _, rfl⟩
  obtain ⟨a, b, c, hshape⟩ := hshape
  have hnumber : I.withPrelude.test .isNumber v = .ok (.boolean true) := by rw [← hv]; rfl
  have hintegral : I.withPrelude.test .isIntegral v = v.isIntegral.map .boolean := rfl
  simp only [hshape, Ty.has, Ty.allHave, hnumber, hintegral]
  cases v.isIntegral with
  | error fault => rfl
  | ok whole => cases whole <;> rfl

/-- `Integer` tells whole numbers of every class from others, and answers alike about values that denote the same
number, unless they overflow: about a ratio that does it does not answer, and it rejects a decimal that does. -/
theorem Prelude.integer_decides (I : Interpretation) {v : Value} (hv : v.isReal = true) :
    let t := Prelude.initial.1.integer
    (¬v.Overflows → t.Decides I.withPrelude v v.IsWhole) ∧
      (∀ q, v = .ratio q → v.Overflows → (t.has I.withPrelude v).result = .error .ratioTooLarge) ∧
      (∀ x, v = .decimal x → v.Overflows → t.Rejects I.withPrelude v) ∧
      ∀ w : Value, w.isReal = true → w.number? = v.number? → ¬v.Overflows → ¬w.Overflows →
        (t.has I.withPrelude w).result = (t.has I.withPrelude v).result := by
  intro t
  refine ⟨fun h => ?_, ?_, ?_, fun w hw hsame h h' => ?_⟩
  · obtain ⟨b, hb, hwhole⟩ := Value.isIntegral_spec hv h
    refine ⟨.boolean b, ?_, hwhole⟩
    rw [Prelude.integer_has I (Value.isNumber_of_isReal hv), hb]
    rfl
  · rintro q rfl h
    rw [Prelude.integer_has I rfl, Value.isIntegral_of_ratio h]
    rfl
  · rintro x rfl h
    refine ⟨.boolean false, ?_, rfl⟩
    rw [Prelude.integer_has I rfl, Value.isIntegral_of_decimal h]
    rfl
  · obtain ⟨b, hb, hwhole⟩ := Value.isIntegral_spec hv h
    obtain ⟨b', hb', hwhole'⟩ := Value.isIntegral_spec hw h'
    have hagree : b' = b := by
      rw [Bool.eq_iff_iff, hwhole, hwhole', Value.IsWhole, Value.IsWhole, hsame]
    rw [Prelude.integer_has I (Value.isNumber_of_isReal hv), Prelude.integer_has I (Value.isNumber_of_isReal hw), hb,
      hb', hagree]

/-- A whole decimal close to the threshold, and the same number as a ratio. -/
theorem Prelude.integer_decides_large :
    let t := Prelude.initial.1.integer
    let I := constantInterpretation true
    let v : Value := .decimal (.finite ⟨false, 1, 308⟩)
    let w : Value := .ratio (10 ^ 308)
    v.isReal = true ∧ w.isReal = true ∧ w.number? = v.number? ∧ ¬v.Overflows ∧ ¬w.Overflows ∧
      t.Decides I.withPrelude v v.IsWhole ∧ (t.has I.withPrelude w).result = (t.has I.withPrelude v).result := by
  intro t I v w
  have hsame : w.number? = v.number? := by
    simp [v, w, Value.number?, Scientific.value, zpow_ofNat]
  have hsmall : ¬v.Overflows := by
    rintro ⟨-, q, hq, hlarge⟩
    obtain rfl := Option.some.inj hq
    exact absurd ((Double.overflowsNumeral_iff _).mpr hlarge) (by decide +kernel)
  have hsmall' : ¬w.Overflows := by
    rintro ⟨-, q, hq, hlarge⟩
    exact hsmall ⟨rfl, q, hsame.symm.trans hq, hlarge⟩
  obtain ⟨hdecides, -, -, hequal⟩ := Prelude.integer_decides I (v := v) rfl
  exact ⟨rfl, rfl, hsame, hsmall, hsmall', hdecides hsmall, hequal w rfl hsame hsmall hsmall'⟩

/-- The same whole number in three classes, and three answers: yes, none, and no. -/
theorem Prelude.integer_misses_large_wholes :
    let t := Prelude.initial.1.integer
    let I := constantInterpretation true
    let n : Value := .integer (10 ^ 400)
    let q : Value := .ratio (10 ^ 400)
    let x : Value := .decimal (.finite ⟨false, 1, 400⟩)
    n.IsWhole ∧ q.number? = n.number? ∧ x.number? = n.number? ∧ t.Accepts I.withPrelude n ∧
      (t.has I.withPrelude q).result = .error .ratioTooLarge ∧ t.Rejects I.withPrelude x := by
  intro t I n q x
  have hq : q.number? = n.number? := congrArg some (by rw [Int.cast_pow, Int.cast_ofNat])
  have hx : x.number? = n.number? := congrArg some (by
    rw [Scientific.value, if_neg Bool.false_ne_true, Nat.cast_one, one_mul, one_mul, zpow_ofNat, Int.cast_pow,
      Int.cast_ofNat])
  have hlarge : Double.overflowThreshold ≤ |((10 ^ 400 : ℤ) : ℚ)| := by
    calc Double.overflowThreshold ≤ 10 ^ 309 := Double.overflowThreshold_bounds.2
      _ ≤ 10 ^ 400 := pow_le_pow_right₀ (by norm_num) (by norm_num)
      _ = |((10 ^ 400 : ℤ) : ℚ)| := by rw [Int.cast_pow, Int.cast_ofNat, abs_of_nonneg (by positivity)]
  refine ⟨⟨10 ^ 400, rfl⟩, hq, hx, ⟨.boolean true, Prelude.integer_has I rfl, rfl⟩, ?_, .boolean false, ?_, rfl⟩
  · rw [Prelude.integer_has I rfl, Value.isIntegral_of_ratio ⟨rfl, _, hq, hlarge⟩]
    rfl
  · rw [Prelude.integer_has I rfl, Value.isIntegral_of_decimal ⟨rfl, _, hx, hlarge⟩]
    rfl

end StructuralTypes
