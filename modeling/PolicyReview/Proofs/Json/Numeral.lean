import PolicyReview.Proofs.Decimal.Shortest
import Mathlib.Data.List.Induction
import Mathlib.Tactic.IntervalCases

/-!
# Numerals read back

A numeral in front of a text that cannot continue it is read part by part: the whole digits, the
fraction behind a point and the exponent behind its letter.
-/

namespace PolicyReview
namespace Json

/-- The text does not begin with a digit. -/
def NoDigit (rest : List Char) : Prop :=
  ∀ c, rest.head? = some c → c.isDigit = false

/-- The text does not begin with a character that a numeral can go on with. -/
def EndsNumeral (rest : List Char) : Prop :=
  ∀ c, rest.head? = some c → c.isDigit = false ∧ c ≠ '.' ∧ c ≠ 'e' ∧ c ≠ 'E'

/-- A run of digits that is not empty. -/
structure DigitRun (run : List Char) : Prop where
  isDigit : ∀ c ∈ run, c.isDigit = true
  nonempty : run ≠ []

theorem EndsNumeral.noDigit {rest : List Char} (ends : EndsNumeral rest) : NoDigit rest :=
  fun c head => (ends c head).1

theorem noDigit_cons {c : Char} (notDigit : c.isDigit = false) (rest : List Char) :
    NoDigit (c :: rest) := by
  intro d head
  cases head
  exact notDigit

theorem endsNumeral_nil : EndsNumeral [] := by
  intro c head
  cases head

namespace Numeral

theorem spanDigits_append {run rest : List Char} (isDigit : ∀ c ∈ run, c.isDigit = true)
    (ends : NoDigit rest) : spanDigits (run ++ rest) = (run, rest) := by
  rw [spanDigits, List.span_eq_takeWhile_dropWhile, List.takeWhile_append_of_pos isDigit,
    List.dropWhile_append_of_pos isDigit]
  cases rest with
  | nil => simp
  | cons c rest =>
    have notDigit : c.isDigit = false := ends c rfl
    simp [notDigit]

theorem digits_append {run rest : List Char} (digitRun : DigitRun run) (ends : NoDigit rest) :
    digits (run ++ rest) = .ok (run, rest) := by
  rw [digits, spanDigits_append digitRun.isDigit ends]
  cases run with
  | nil => exact absurd rfl digitRun.nonempty
  | cons c run => rfl

/-- Digits that are read are the first run of digits of the text. -/
theorem digitRun_of_digits {text run rest : List Char} (read : digits text = .ok (run, rest)) :
    DigitRun run ∧ text = run ++ rest := by
  have parts := List.takeWhile_append_dropWhile (p := Char.isDigit) (l := text)
  unfold digits at read
  rw [spanDigits, List.span_eq_takeWhile_dropWhile] at read
  split at read
  · cases read
  · cases read
  · rename_i nonempty
    obtain ⟨rfl, rfl⟩ := Prod.mk.inj (Except.ok.inj read)
    exact ⟨⟨fun c c_mem => List.mem_takeWhile_imp c_mem,
      fun empty => nonempty _ (Prod.ext empty rfl)⟩, parts.symm⟩

/-- Whole digits are a run of digits in which a zero stands alone. -/
theorem digitRun_of_wholeDigits {text run rest : List Char}
    (read : wholeDigits text = .ok (run, rest)) :
    DigitRun run ∧ (run.head? = some '0' → run = ['0']) ∧ text = run ++ rest := by
  unfold wholeDigits at read
  split at read
  · cases read
  · rename_i alone
    obtain ⟨digitRun, text_eq⟩ := digitRun_of_digits read
    refine ⟨digitRun, fun zero => ?_, text_eq⟩
    obtain ⟨more, rfl⟩ := List.head?_eq_some_iff.mp zero
    cases more with
    | nil => rfl
    | cons second more => exact absurd read (alone second more rest)

theorem wholeDigits_append {run rest : List Char} (digitRun : DigitRun run)
    (alone : run.head? = some '0' → run = ['0']) (ends : NoDigit rest) :
    wholeDigits (run ++ rest) = .ok (run, rest) := by
  rw [wholeDigits, digits_append digitRun ends]
  split
  · rename_i same
    cases same
    cases alone rfl
  · rfl

theorem fractionPart_point {run rest : List Char} (digitRun : DigitRun run)
    (ends : NoDigit rest) : fractionPart ('.' :: (run ++ rest)) = .ok (some run, rest) := by
  rw [fractionPart, digits_append digitRun ends]
  rfl

theorem fractionPart_none {rest : List Char} (noPoint : rest.head? ≠ some '.') :
    fractionPart rest = .ok (none, rest) := by
  unfold fractionPart
  split
  · exact absurd rfl noPoint
  · rfl

theorem exponentPart_none {rest : List Char} (ends : EndsNumeral rest) :
    exponentPart rest = .ok (none, rest) := by
  cases rest with
  | nil => rfl
  | cons c rest =>
    obtain ⟨_, _, not_lower, not_upper⟩ := ends c rfl
    simp [exponentPart, not_lower, not_upper]

/-- An exponent that is written with its sign is read. -/
theorem exponentPart_sign {run rest : List Char} (negative : Bool) (digitRun : DigitRun run)
    (ends : NoDigit rest) :
    exponentPart ('e' :: (if negative then '-' else '+') :: (run ++ rest)) =
      .ok (some (negative, run), rest) := by
  cases negative <;>
    simp [exponentPart, exponentDigits, digits_append digitRun ends, bind, Except.bind]

/-- A numeral without sign is read from its parts. -/
theorem readUnsigned_eq {negative : Bool} {text rest₁ rest₂ rest : List Char} {whole : List Char}
    {fraction : Option (List Char)} {exponent : Option (Bool × List Char)}
    (whole_read : wholeDigits text = .ok (whole, rest₁))
    (fraction_read : fractionPart rest₁ = .ok (fraction, rest₂))
    (exponent_read : exponentPart rest₂ = .ok (exponent, rest)) :
    readUnsigned negative text = .ok (⟨negative, whole, fraction, exponent⟩, rest) := by
  simp [readUnsigned, whole_read, fraction_read, exponent_read, bind, Except.bind]

/-- A numeral without sign begins with a digit. -/
theorem exists_digit_of_readUnsigned {negative : Bool} {text : List Char}
    {result : Numeral × List Char} (numeral_read : readUnsigned negative text = .ok result) :
    ∃ c rest, text = c :: rest ∧ c.isDigit = true := by
  cases text with
  | nil => cases numeral_read
  | cons c rest =>
    refine ⟨c, rest, rfl, ?_⟩
    by_contra notDigit
    have not_read : wholeDigits (c :: rest) = .error .invalidNumber := by
      simp [wholeDigits, digits, spanDigits, List.span_eq_takeWhile_dropWhile, notDigit]
    simp [readUnsigned, not_read, bind, Except.bind] at numeral_read

theorem head?_ne_sign_of_readUnsigned {negative : Bool} {text : List Char}
    {result : Numeral × List Char} (numeral_read : readUnsigned negative text = .ok result) :
    text.head? ≠ some '-' := by
  obtain ⟨c, rest, rfl, digit⟩ := exists_digit_of_readUnsigned numeral_read
  intro sign
  cases sign
  exact absurd digit (by decide)

/-- A numeral begins with its sign or a digit. -/
theorem begins_of_read {text : List Char} {result : Numeral × List Char}
    (numeral_read : read text = .ok result) :
    ∃ c rest, text = c :: rest ∧ (c = '-' ∨ c.isDigit = true) := by
  unfold read at numeral_read
  split at numeral_read
  · exact ⟨'-', _, rfl, .inl rfl⟩
  · obtain ⟨c, rest, text_eq, digit⟩ := exists_digit_of_readUnsigned numeral_read
    exact ⟨c, rest, text_eq, .inr digit⟩

/-- A sign in front of a numeral is read first. -/
theorem read_sign {text : List Char} (negative : Bool) (noSign : text.head? ≠ some '-') :
    read (if negative then '-' :: text else text) = readUnsigned negative text := by
  cases negative with
  | true => rfl
  | false =>
    unfold read
    split
    · rename_i same
      rw [if_neg (by decide)] at same
      rw [same] at noSign
      exact absurd rfl noSign
    · rfl

/-- Whole digits without anything behind them are an integer. -/
theorem readUnsigned_integer {negative : Bool} {run rest : List Char} (digitRun : DigitRun run)
    (alone : run.head? = some '0' → run = ['0']) (ends : EndsNumeral rest) :
    readUnsigned negative (run ++ rest) = .ok (⟨negative, run, none, none⟩, rest) := by
  apply readUnsigned_eq (wholeDigits_append digitRun alone ends.noDigit)
  · exact fractionPart_none fun point => (ends _ point).2.1 rfl
  · exact exponentPart_none ends

end Numeral

theorem digitRun_zero : DigitRun ['0'] :=
  ⟨List.forall_mem_singleton.mpr rfl, List.cons_ne_nil _ _⟩

theorem digitRun_toDigits (n : Nat) : DigitRun (Nat.toDigits 10 n) where
  isDigit _ c_mem := Nat.isDigit_of_mem_toDigits (by norm_num) (by norm_num) c_mem
  nonempty := Nat.toDigits_ne_nil

theorem head?_toDigits_ne_zero {n : Nat} (positive : 0 < n) :
    (Nat.toDigits 10 n).head? ≠ some '0' := by
  induction n using Nat.strong_induction_on with
  | _ n ih =>
    by_cases small : n < 10
    · rw [Nat.toDigits_of_lt_base small]
      interval_cases n <;> decide
    · rw [Nat.toDigits_of_base_le (by norm_num) (by omega), List.head?_append]
      have fewer := ih (n / 10) (by omega) (by omega)
      cases first : (Nat.toDigits 10 (n / 10)).head? with
      | none => exact absurd (List.head?_eq_none_iff.mp first) Nat.toDigits_ne_nil
      | some c =>
        rw [first] at fewer
        exact fewer

theorem toDigits_zero_alone (n : Nat) (zero : (Nat.toDigits 10 n).head? = some '0') :
    Nat.toDigits 10 n = ['0'] := by
  by_cases positive : 0 < n
  · exact absurd zero (head?_toDigits_ne_zero positive)
  · obtain rfl : n = 0 := by omega
    rfl

theorem digitChar_of_isDigit {c : Char} (digit : c.isDigit = true) :
    Nat.digitChar (c.toNat - '0'.toNat) = c := by
  have bounds := Char.isDigit_iff_toNat.mp digit
  rw [← Char.toNat_inj, Nat.toNat_digitChar_of_lt_ten (digit_lt_ten digit)]
  simp at bounds ⊢
  omega

/-- The digits of the number that a run without leading zeros spells are the run. -/
theorem DigitRun.toDigits_ofDigitChars {run : List Char} (digitRun : DigitRun run)
    (alone : run.head? = some '0' → run = ['0']) :
    Nat.toDigits 10 (Nat.ofDigitChars 10 run 0) = run := by
  obtain ⟨isDigit, nonempty⟩ := digitRun
  induction run using List.reverseRecOn with
  | nil => exact absurd rfl nonempty
  | append_singleton front last ih =>
    have last_digit := isDigit last (List.mem_append_right _ (List.mem_singleton_self last))
    have last_lt := digit_lt_ten last_digit
    have last_eq : Nat.toDigits 10 (last.toNat - '0'.toNat) = [last] := by
      rw [Nat.toDigits_of_lt_base last_lt, digitChar_of_isDigit last_digit]
    rw [Nat.ofDigitChars_append, Nat.ofDigitChars_cons, Nat.ofDigitChars_nil]
    by_cases empty : front = []
    · subst empty
      simpa using last_eq
    · have front_digits : ∀ c ∈ front, c.isDigit = true := fun c c_mem =>
        isDigit c (List.mem_append_left _ c_mem)
      have head_ne : front.head? ≠ some '0' := fun zero => by
        have length_eq := congrArg List.length
          (alone (by rw [List.head?_append_of_ne_nil _ empty, zero]))
        simp [empty] at length_eq
      have front_pos : 0 < Nat.ofDigitChars 10 front 0 :=
        Nat.lt_of_lt_of_le (by positivity) (pow_le_ofDigitChars front_digits head_ne empty)
      have front_eq := ih (fun zero => absurd zero head_ne) front_digits empty
      rw [← Nat.toDigits_append_toDigits (by norm_num) front_pos last_lt, front_eq, last_eq]

end Json
end PolicyReview
