import RowPipeline.Json.Parser
import RowPipeline.Json.Printer
import RowPipeline.Proofs.ShortestDecimal

/-!
Numbers as text and back. Every text of a number is a literal: digits, perhaps a point with digits
after it, perhaps an exponent. A literal is read in whole, and the number that it stands for decides
what it is read as; so every integer and every finite double is read from its own text.
-/

namespace RowPipeline

namespace Json

/-! ### Digits -/

theorem digitsValue_eq (digits : List Char) : digitsValue digits = Nat.ofDigitChars 10 digits 0 := by
  rw [Nat.ofDigitChars_eq_foldl]
  exact congrArg (fun step => digits.foldl step 0) (funext₂ fun value digit => by rw [Nat.mul_comm])

theorem digitsValue_append (left right : List Char) :
    digitsValue (left ++ right) = digitsValue left * 10 ^ right.length + digitsValue right := by
  rw [digitsValue_eq, digitsValue_eq, digitsValue_eq, Nat.ofDigitChars_append,
    Nat.ofDigitChars_eq_ofDigitChars_zero, Nat.mul_comm]

private theorem digitsValue_zeros (count : Nat) : digitsValue (NumberFormat.zeros count) = 0 := by
  rw [digitsValue_eq, NumberFormat.zeros, Nat.ofDigitChars_replicate_zero, Nat.mul_zero]

theorem digitsValue_toDigits (number : Nat) : digitsValue (Nat.toDigits 10 number) = number := by
  rw [digitsValue_eq, Nat.ofDigitChars_ten_toDigits]

/-- Characters that are all decimal digits, and at least one. -/
structure IsDigits (digits : List Char) : Prop where
  ne_nil : digits ≠ []
  all : ∀ digit ∈ digits, digit.isDigit = true

theorem isDigits_toDigits (number : Nat) : IsDigits (Nat.toDigits 10 number) :=
  ⟨Nat.toDigits_ne_nil, fun _ => Nat.isDigit_of_mem_toDigits (by decide) (by decide)⟩

theorem IsDigits.append {left right : List Char} (first : IsDigits left)
    (second : ∀ digit ∈ right, digit.isDigit = true) : IsDigits (left ++ right) :=
  ⟨List.append_ne_nil_of_left_ne_nil first.ne_nil _, fun digit member =>
    (List.mem_append.mp member).elim (first.all digit) (second digit)⟩

/-- What follows a number does not go on with it. -/
def EndsNumber (rest : List Char) : Prop :=
  ∀ next ∈ rest.head?, next.isDigit = false ∧ next ≠ '.' ∧ next ≠ 'e' ∧ next ≠ 'E'

theorem digitRun_append {digits rest : List Char} (all : ∀ digit ∈ digits, digit.isDigit = true)
    (ends : ∀ next ∈ rest.head?, next.isDigit = false) :
    digitRun (digits ++ rest) = (digits, rest) := by
  have stop : rest.takeWhile (·.isDigit) = [] ∧ rest.dropWhile (·.isDigit) = rest := by
    cases rest with
    | nil => exact ⟨rfl, rfl⟩
    | cons next rest => simp [ends next rfl]
  rw [digitRun, List.takeWhile_append_of_pos all, List.dropWhile_append_of_pos all, stop.1, stop.2,
    List.append_nil]

/-- The digits before the point have no leading zero. -/
structure IsWhole (digits : List Char) : Prop extends IsDigits digits where
  leading : digits.head? = some '0' → digits = ['0']

private theorem wholePart_append {digits rest : List Char} (whole : IsWhole digits)
    (ends : ∀ next ∈ rest.head?, next.isDigit = false) :
    wholePart (digits ++ rest) = some (digits, rest) := by
  by_cases zero : digits.head? = some '0'
  · rw [whole.leading zero]
    rfl
  · have run := digitRun_append whole.all ends
    unfold wholePart
    split
    next follows input =>
      obtain ⟨first, others, rfl⟩ := List.exists_cons_of_ne_nil whole.ne_nil
      exact absurd (congrArg some (List.cons.inj input).1) zero
    next => simp [run, whole.ne_nil]

/-! ### Literals -/

/-- The point and the digits after it. -/
def fractionText : Option (List Char) → List Char
  | some decimals => '.' :: decimals
  | none => []

/-- The exponent, which always has a sign. -/
def exponentText : Option Int → List Char
  | some exponent => 'e' :: (if exponent < 0 then '-' else '+') :: Nat.toDigits 10 exponent.natAbs
  | none => []

private theorem fractionPart_append {fraction : Option (List Char)} {rest : List Char}
    (digits : ∀ decimals ∈ fraction, IsDigits decimals)
    (ends : ∀ next ∈ rest.head?, next.isDigit = false ∧ next ≠ '.') :
    fractionPart (fractionText fraction ++ rest) = some (fraction, rest) := by
  cases fraction with
  | none =>
    cases rest with
    | nil => rfl
    | cons next rest =>
      unfold fractionPart
      split
      next input => exact absurd (List.cons.inj input).1 (ends next rfl).2
      next => rfl
  | some decimals =>
    have run := digitRun_append (digits decimals rfl).all fun next start => (ends next start).1
    simp [fractionText, fractionPart, run, (digits decimals rfl).ne_nil]

private theorem signedExponent_append (exponent : Int) {rest : List Char}
    (ends : ∀ next ∈ rest.head?, next.isDigit = false) :
    signedExponent ((if exponent < 0 then '-' else '+') :: Nat.toDigits 10 exponent.natAbs ++ rest) =
      some (exponent, rest) := by
  have run := digitRun_append (isDigits_toDigits exponent.natAbs).all ends
  have ne_nil := (isDigits_toDigits exponent.natAbs).ne_nil
  split
  next negative =>
    simp only [List.cons_append, signedExponent, run, List.isEmpty_iff, ne_nil, if_false,
      digitsValue_toDigits]
    congr
    omega
  next positive =>
    simp only [List.cons_append, signedExponent, run, List.isEmpty_iff, ne_nil, if_false,
      digitsValue_toDigits]
    congr
    omega

private theorem exponentPart_append {exponent : Option Int} {rest : List Char} (ends : EndsNumber rest) :
    exponentPart (exponentText exponent ++ rest) = some (exponent, rest) := by
  cases exponent with
  | none =>
    cases rest with
    | nil => rfl
    | cons next rest =>
      obtain ⟨_, _, small, large⟩ := ends next rfl
      unfold exponentPart
      split
      next input => exact absurd (List.cons.inj input).1 small
      next input => exact absurd (List.cons.inj input).1 large
      next => rfl
  | some exponent =>
    have read := signedExponent_append exponent fun next start => (ends next start).1
    rw [exponentText, List.cons_append, exponentPart, read]
    rfl

/-- A number without its sign, in the parts that it is written in. -/
structure Literal where
  whole : List Char
  fraction : Option (List Char)
  exponent : Option Int
  isWhole : IsWhole whole
  isDigits : ∀ decimals ∈ fraction, IsDigits decimals

namespace Literal

def text (literal : Literal) : List Char :=
  literal.whole ++ fractionText literal.fraction ++ exponentText literal.exponent

/-- The number that a literal stands for. -/
def toRat (literal : Literal) : ℚ :=
  digitsValue (literal.whole ++ literal.fraction.getD []) *
    10 ^ (literal.exponent.getD 0 - ((literal.fraction.getD []).length : Int))

private theorem literalParts_text (literal : Literal) {rest : List Char} (ends : EndsNumber rest) :
    literalParts (literal.text ++ rest) =
      some ((literal.whole, literal.fraction, literal.exponent), rest) := by
  have exponent : ∀ next ∈ (exponentText literal.exponent ++ rest).head?,
      next.isDigit = false ∧ next ≠ '.' := by
    cases literal.exponent with
    | none => exact fun next start => ⟨(ends next start).1, (ends next start).2.1⟩
    | some exponent =>
      rintro next ⟨⟩
      decide
  have fraction : ∀ next ∈ (fractionText literal.fraction ++
      (exponentText literal.exponent ++ rest)).head?, next.isDigit = false := by
    cases literal.fraction with
    | none => exact fun next start => (exponent next start).1
    | some decimals =>
      rintro next ⟨⟩
      decide
  simp only [literalParts, text, List.append_assoc, wholePart_append literal.isWhole fraction,
    fractionPart_append literal.isDigits exponent, exponentPart_append ends, Option.bind_eq_bind,
    Option.bind_some]

private theorem readUnsigned_text (negative : Bool) (literal : Literal) {rest : List Char}
    (ends : EndsNumber rest) :
    readUnsigned negative (literal.text ++ rest) =
      (numberOf? negative literal.whole literal.fraction literal.exponent).map (·, rest) := by
  rw [readUnsigned, literalParts_text literal ends, Option.bind_eq_bind, Option.bind_some,
    Option.map_eq_bind]
  rfl

/-- A literal that shows that it is no integer is the double around it. -/
theorem numberOf?_double {literal : Literal} {number : Double} (finite : number.isFinite = true)
    (nonzero : 0 < number.significand)
    (shown : literal.fraction.isNone = false ∨ literal.exponent.isNone = false)
    (holds : (Decimal.Interval.ofDouble number).Holds literal.toRat) :
    numberOf? number.isNegative literal.whole literal.fraction literal.exponent =
      some (.double number) := by
  have inexact : (literal.fraction.isNone && literal.exponent.isNone) = false := by
    rcases shown with shown | shown <;> simp [shown]
  rw [numberOf?]
  dsimp only
  rw [inexact, Bool.false_and, Bool.false_and, if_neg Bool.false_ne_true,
    Decimal.ofDecimal?_eq finite nonzero holds]
  rfl

end Literal

/-! ### Integers -/

private theorem head?_toDigits {number : Nat} (positive : 0 < number) :
    (Nat.toDigits 10 number).head? ≠ some '0' := by
  induction number using Nat.strongRecOn with
  | ind number ih =>
    rcases Nat.lt_or_ge number 10 with single | several
    · rw [Nat.toDigits_of_lt_base single, List.head?_cons, ne_eq, Option.some.injEq,
        Nat.digitChar_eq_zero]
      exact positive.ne'
    · rw [Nat.toDigits_of_base_le (by decide) several,
        List.head?_append_of_ne_nil _ Nat.toDigits_ne_nil]
      exact ih (number / 10) (by omega) (by omega)

theorem isWhole_toDigits (number : Nat) : IsWhole (Nat.toDigits 10 number) := by
  refine ⟨isDigits_toDigits number, fun zero => ?_⟩
  rcases Nat.eq_zero_or_pos number with rfl | positive
  · rfl
  · exact absurd zero (head?_toDigits positive)

def Literal.ofNat (number : Nat) : Literal :=
  ⟨Nat.toDigits 10 number, none, none, isWhole_toDigits number, nofun⟩

private theorem readUnsigned_toDigits {negative : Bool} {number : Nat} {rest : List Char}
    (ends : EndsNumber rest)
    (fits : fitsInteger (if negative then -(number : Int) else number) = true)
    (signed : negative = true → number ≠ 0) :
    readUnsigned negative (Nat.toDigits 10 number ++ rest) =
      some (.integer (if negative then -(number : Int) else number), rest) := by
  have text : (Literal.ofNat number).text = Nat.toDigits 10 number := by
    simp [Literal.text, Literal.ofNat, fractionText, exponentText]
  have kept : (negative && number == 0) = false := by
    cases negative with
    | false => rfl
    | true => simpa using signed
  rw [← text, Literal.readUnsigned_text negative _ ends]
  simp [Literal.ofNat, numberOf?, digitsValue_toDigits, fits, kept]

private theorem IsDigits.readNumber_append {digits : List Char} (isDigits : IsDigits digits)
    (rest : List Char) : readNumber (digits ++ rest) = readUnsigned false (digits ++ rest) := by
  obtain ⟨first, others, rfl⟩ := List.exists_cons_of_ne_nil isDigits.ne_nil
  have digit := isDigits.all first (.head _)
  unfold readNumber
  split
  next input same =>
    cases (List.cons.inj same).1
    cases digit
  next => rfl

theorem readNumber_integerText {value : Int} {rest : List Char} (ends : EndsNumber rest)
    (fits : fitsInteger value = true) :
    readNumber (integerText value ++ rest) = some (.integer value, rest) := by
  unfold integerText
  split
  next negative =>
    have signed : -(value.natAbs : Int) = value := by omega
    rw [List.cons_append, readNumber, readUnsigned_toDigits ends (by rwa [if_pos rfl, signed])
      fun _ => by omega, if_pos rfl, signed]
  next =>
    have unsigned : (value.natAbs : Int) = value := by omega
    rw [(isDigits_toDigits _).readNumber_append,
      readUnsigned_toDigits ends (by rwa [if_neg Bool.false_ne_true, unsigned])
        fun signed => absurd signed Bool.false_ne_true,
      if_neg Bool.false_ne_true, unsigned]

/-! ### Doubles -/

/-- The digits of a positive number. -/
structure IsNumeral (digits : List Char) : Prop extends IsDigits digits where
  leading : digits.head? ≠ some '0'

private theorem isNumeral_toDigits {number : Nat} (positive : 0 < number) :
    IsNumeral (Nat.toDigits 10 number) :=
  ⟨isDigits_toDigits number, head?_toDigits positive⟩

namespace IsNumeral

variable {digits : List Char}

theorem isWhole (numeral : IsNumeral digits) : IsWhole digits :=
  ⟨numeral.toIsDigits, fun zero => absurd zero numeral.leading⟩

theorem take (numeral : IsNumeral digits) {count : Nat} (positive : 0 < count) :
    IsNumeral (digits.take count) := by
  have head : (digits.take count).head? = digits.head? := by
    rw [List.head?_take, if_neg positive.ne']
  refine ⟨⟨fun empty => ?_, fun digit member => numeral.all digit (List.mem_of_mem_take member)⟩, ?_⟩
  · rw [empty, List.head?_nil] at head
    exact numeral.ne_nil (List.head?_eq_none_iff.mp head.symm)
  · rw [head]
    exact numeral.leading

theorem append (numeral : IsNumeral digits) {more : List Char}
    (all : ∀ digit ∈ more, digit.isDigit = true) : IsNumeral (digits ++ more) :=
  ⟨numeral.toIsDigits.append all, by
    rw [List.head?_append_of_ne_nil _ numeral.ne_nil]
    exact numeral.leading⟩

end IsNumeral

theorem zeros_isDigit (count : Nat) : ∀ digit ∈ NumberFormat.zeros count, digit.isDigit = true := by
  intro digit member
  rw [List.eq_of_mem_replicate member]
  decide

private theorem length_zeros (count : Nat) : (NumberFormat.zeros count).length = count :=
  List.length_replicate

namespace Literal

variable {digits : List Char}

/-- Digits behind the point, after some zeros. -/
def belowOne (numeral : IsNumeral digits) (count : Nat) : Literal where
  whole := ['0']
  fraction := some (NumberFormat.zeros count ++ digits)
  exponent := none
  isWhole := isWhole_toDigits 0
  isDigits := by
    rintro decimals ⟨⟩
    exact ⟨List.append_ne_nil_of_right_ne_nil _ numeral.ne_nil, fun digit member =>
      (List.mem_append.mp member).elim (zeros_isDigit count digit) (numeral.all digit)⟩

private theorem belowOne_toRat (numeral : IsNumeral digits) (count : Nat) :
    (belowOne numeral count).toRat = digitsValue digits * 10 ^ (-(count : Int) - digits.length) := by
  have zero : digitsValue ['0'] = 0 := rfl
  rw [toRat, belowOne, Option.getD_some, digitsValue_append, digitsValue_append, zero,
    digitsValue_zeros, Nat.zero_mul, Nat.zero_mul, Nat.zero_add, Nat.zero_add, List.length_append,
    length_zeros, Option.getD_none]
  congr 2
  omega

/-- Digits with the point among them. -/
def divided (numeral : IsNumeral digits) {point : Nat} (positive : 0 < point)
    (inside : point < digits.length) : Literal where
  whole := digits.take point
  fraction := some (digits.drop point)
  exponent := none
  isWhole := (numeral.take positive).isWhole
  isDigits := by
    rintro decimals ⟨⟩
    exact ⟨fun empty => absurd (List.drop_eq_nil_iff.mp empty) (Nat.not_le_of_lt inside),
      fun digit member => numeral.all digit (List.mem_of_mem_drop member)⟩

private theorem divided_toRat (numeral : IsNumeral digits) {point : Nat} (positive : 0 < point)
    (inside : point < digits.length) : (divided numeral positive inside).toRat =
      digitsValue digits * 10 ^ ((point : Int) - digits.length) := by
  rw [toRat, divided, Option.getD_some, List.take_append_drop, List.length_drop, Option.getD_none]
  congr 2
  omega

/-- Digits before the point, with zeros after them and a zero behind the point. -/
def integral (numeral : IsNumeral digits) (count : Nat) : Literal where
  whole := digits ++ NumberFormat.zeros count
  fraction := some ['0']
  exponent := none
  isWhole := (numeral.append (zeros_isDigit count)).isWhole
  isDigits := by
    rintro decimals ⟨⟩
    exact isDigits_toDigits 0

private theorem integral_toRat (numeral : IsNumeral digits) (count : Nat) :
    (integral numeral count).toRat = digitsValue digits * 10 ^ (count : Int) := by
  have zero : digitsValue ['0'] = 0 := rfl
  have tenth : (10 : ℚ) ^ (0 - (1 : Int)) = 10⁻¹ := by rw [zero_sub, zpow_neg_one]
  rw [toRat, integral, Option.getD_some, digitsValue_append, digitsValue_append, zero,
    digitsValue_zeros, length_zeros, Option.getD_none, List.length_singleton, Nat.cast_one, tenth,
    pow_one, Nat.add_zero, Nat.add_zero, Nat.cast_mul, Nat.cast_ofNat,
    mul_inv_cancel_right₀ (by norm_num), Nat.cast_mul, Nat.cast_pow, zpow_natCast, Nat.cast_ofNat]

/-- One digit before the point and an exponent. -/
def scaled (numeral : IsNumeral digits) (exponent : Int) : Literal where
  whole := digits.take 1
  fraction := if digits.length ≤ 1 then none else some (digits.drop 1)
  exponent := some exponent
  isWhole := (numeral.take one_pos).isWhole
  isDigits := by
    intro decimals member
    split at member
    · cases member
    next several =>
      cases member
      exact ⟨fun empty => absurd (List.drop_eq_nil_iff.mp empty) several,
        fun digit member => numeral.all digit (List.mem_of_mem_drop member)⟩

theorem scaled_toRat (numeral : IsNumeral digits) (exponent : Int) : (scaled numeral exponent).toRat =
    digitsValue digits * 10 ^ (exponent + 1 - digits.length) := by
  rw [toRat, scaled, Option.getD_some]
  dsimp only
  split
  next short =>
    have single : digits.length = 1 :=
      Nat.le_antisymm short (List.length_pos_of_ne_nil numeral.ne_nil)
    rw [Option.getD_none, List.append_nil, List.take_of_length_le short, List.length_nil, single]
    congr 2
    omega
  next several =>
    rw [Option.getD_some, List.take_append_drop, List.length_drop]
    congr 2
    omega

private theorem scaled_text (numeral : IsNumeral digits) (exponent : Int) :
    (scaled numeral exponent).text = NumberFormat.scientificText digits exponent := by
  match digits, numeral with
  | [], numeral => exact absurd rfl numeral.ne_nil
  | [_], _ => rfl
  | first :: second :: rest, _ =>
    simp [scaled, text, fractionText, exponentText, NumberFormat.scientificText]

/-- Digits with a point among them, before them or after them are a literal. -/
theorem exists_positional (numeral : IsNumeral digits) (point : Int) :
    ∃ literal : Literal, literal.text = NumberFormat.data.positionalText digits point ∧
      literal.fraction.isNone = false ∧
      literal.toRat = digitsValue digits * 10 ^ (point - digits.length) := by
  unfold NumberFormat.positionalText
  split
  next small =>
    refine ⟨belowOne numeral (-point).toNat, ?_, rfl, ?_⟩
    · simp [belowOne, text, fractionText, exponentText]
    · rw [belowOne_toRat]
      congr 2
      omega
  split
  next large inside =>
    refine ⟨divided numeral (by omega : 0 < point.toNat) (by omega), ?_, rfl, ?_⟩
    · simp [divided, text, fractionText, exponentText]
    · rw [divided_toRat]
      congr 2
      omega
  next large outside =>
    refine ⟨integral numeral (point - digits.length).toNat, ?_, rfl, ?_⟩
    · simp [integral, text, fractionText, exponentText, NumberFormat.data]
    · rw [integral_toRat]
      congr 2
      omega

/-- The digits of a double are written as a literal of the same number. -/
theorem exists_magnitude {number : Double} (nonzero : number.isZero = false)
    (positive : 0 < (Decimal.shortest NumberFormat.data.tie number).digits) :
    ∃ literal : Literal, literal.text = NumberFormat.data.magnitudeText number ∧
      (literal.fraction.isNone = false ∨ literal.exponent.isNone = false) ∧
      literal.toRat = (Decimal.shortest NumberFormat.data.tie number).toRat := by
  have numeral := isNumeral_toDigits positive
  unfold NumberFormat.magnitudeText
  rw [nonzero, if_neg Bool.false_ne_true, Decimal.toRat]
  generalize Decimal.shortest NumberFormat.data.tie number = decimal at *
  have value := digitsValue_toDigits decimal.digits
  dsimp only [NumberFormat.data]
  split
  next =>
    obtain ⟨literal, text, shown, same⟩ :=
      exists_positional numeral (decimal.exponent + (Nat.toDigits 10 decimal.digits).length)
    exact ⟨literal, text, .inl shown, by rw [same, value, add_sub_cancel_right]⟩
  next =>
    refine ⟨scaled numeral (decimal.exponent + (Nat.toDigits 10 decimal.digits).length - 1),
      scaled_text numeral _, .inr rfl, ?_⟩
    rw [scaled_toRat, value, sub_add_cancel, add_sub_cancel_right]

/-- The text of both zeros but for the sign. -/
def zero : Literal where
  whole := ['0']
  fraction := some ['0']
  exponent := none
  isWhole := isWhole_toDigits 0
  isDigits := by
    rintro decimals ⟨⟩
    exact isDigits_toDigits 0

private theorem readNumber_text (negative : Bool) (literal : Literal) (rest : List Char) :
    readNumber ((if negative then '-' :: literal.text else literal.text) ++ rest) =
      readUnsigned negative (literal.text ++ rest) := by
  cases negative with
  | true => rfl
  | false =>
    rw [if_neg Bool.false_ne_true, text, List.append_assoc, List.append_assoc]
    exact literal.isWhole.readNumber_append _

end Literal

/-- A finite double is read from its own text, with its sign. -/
theorem readNumber_finiteText {number : Double} {rest : List Char} (finite : number.isFinite = true)
    (ends : EndsNumber rest) :
    readNumber (NumberFormat.data.finiteText number ++ rest) = some (.double number, rest) := by
  obtain ⟨literal, text, read⟩ : ∃ literal : Literal,
      literal.text = NumberFormat.data.magnitudeText number ∧
      numberOf? number.isNegative literal.whole literal.fraction literal.exponent =
        some (.double number) := by
    cases zero : number.isZero with
    | true =>
      refine ⟨.zero, by rw [NumberFormat.magnitudeText, zero, if_pos rfl]; rfl, ?_⟩
      have read (negative : Bool) : numberOf? negative Literal.zero.whole Literal.zero.fraction
          Literal.zero.exponent = some (.double (Double.zero negative)) := rfl
      rw [read, ← Double.eq_zero_of_isZero zero]
    | false =>
      have positive : 0 < number.significand := by
        rw [Double.isZero_eq number finite, beq_eq_false_iff_ne] at zero
        omega
      have holds := Decimal.holds_shortest NumberFormat.data.tie positive
      obtain ⟨literal, text, shown, same⟩ :=
        Literal.exists_magnitude zero (Decimal.digits_pos_of_holds positive holds)
      exact ⟨literal, text, Literal.numberOf?_double finite positive shown (same ▸ holds)⟩
  rw [NumberFormat.finiteText, ← text, Literal.readNumber_text,
    Literal.readUnsigned_text _ _ ends, read]
  rfl

end Json

end RowPipeline
