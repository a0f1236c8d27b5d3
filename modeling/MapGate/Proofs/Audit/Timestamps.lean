import MapGate.Audit.Timestamp
import MapGate.Proofs.Text.Digits
import MapGate.Proofs.Text.Trimming

/-!
# Timestamps read back

A moment is read back from its text (`ofText?_render`). Each number in it is written with
enough zeros for its place and read with as many digits (`readNumber?_padded`), a year
outside of four digits goes up to the hyphen behind it (`readYear?_renderYear`), and the part
of a second is counted up to nanoseconds (`readFraction?_renderFraction`).
-/

namespace MapGate.Timestamp

variable {width n : Nat} {rest : List Char}

/-! ## Numbers -/

theorem isDigit_padded (width n : Nat) : ∀ c ∈ padded width n, c.isDigit = true := by
  rw [padded, List.forall_mem_append]
  refine ⟨fun c hc => ?_, Text.isDigit_toDigits n⟩
  rw [List.eq_of_mem_replicate hc]
  decide

theorem padded_ne_nil (width n : Nat) : padded width n ≠ [] := by
  rw [padded]
  exact List.append_ne_nil_of_right_ne_nil _ Nat.toDigits_ne_nil

theorem length_padded (pos : 0 < width) (small : n < Nat.pow 10 width) :
    (padded width n).length = width := by
  have := (Nat.length_toDigits_le_iff (by decide : 1 < 10) pos).2 small
  rw [padded, List.length_append, List.length_replicate]
  omega

theorem ofDigitChars_padded (width n : Nat) : Nat.ofDigitChars 10 (padded width n) 0 = n := by
  rw [padded, Nat.ofDigitChars_append, Nat.ofDigitChars_replicate_zero, Nat.mul_zero,
    Nat.ofDigitChars_ten_toDigits]

theorem number?_padded (width n : Nat) : Text.number? 10 (padded width n) = some n := by
  rw [Text.number?_digits (isDigit_padded width n) (padded_ne_nil width n), ofDigitChars_padded]

theorem isBlank_of_isDigit {c : Char} (h : c.isDigit = true) : Text.isBlank c = false := by
  obtain ⟨low, high⟩ := Char.isDigit_iff_toNat.1 h
  have : '0'.toNat = 0x30 := rfl
  have : '9'.toNat = 0x39 := rfl
  refine Bool.eq_false_iff.2 fun blank => ?_
  simp only [Text.isBlank, Bool.or_eq_true, Bool.and_eq_true, decide_eq_true_eq, beq_iff_eq] at blank
  omega

theorem exists_padded (width n : Nat) : ∃ c l, padded width n = c :: l ∧ c.isDigit = true := by
  cases e : padded width n with
  | nil => exact absurd e (padded_ne_nil width n)
  | cons c l => exact ⟨c, l, rfl, isDigit_padded width n c (e ▸ List.mem_cons_self)⟩

/-- No blanks stand in front of a number. -/
theorem trimLeftChars_padded (width n : Nat) (rest : List Char) :
    Text.trimLeftChars (padded width n ++ rest) = padded width n ++ rest := by
  obtain ⟨c, l, written, digit⟩ := exists_padded width n
  refine Text.trimLeftChars_eq_self fun d hd => ?_
  rw [written] at hd
  cases hd
  exact isBlank_of_isDigit digit

/-- A number is read back where it has as many digits as are read. -/
theorem readNumber?_padded (pos : 0 < width) (small : n < Nat.pow 10 width) (rest : List Char) :
    readNumber? width (padded width n ++ rest) = some (n, rest) := by
  have length := length_padded pos small
  have digits : ((padded width n ++ rest).take width).takeWhile Char.isDigit = padded width n := by
    rw [List.take_left' length, List.takeWhile_eq_self_iff.2 (isDigit_padded width n)]
  rw [readNumber?, trimLeftChars_padded, digits, number?_padded, List.drop_left]
  rfl

theorem readPart?_padded {separator : Char} (visible : Text.isBlank separator = false)
    (small : n < 100) (rest : List Char) :
    readPart? separator (separator :: (padded 2 n ++ rest)) = some (n, rest) := by
  have trimmed : Text.trimLeftChars (separator :: (padded 2 n ++ rest)) =
      separator :: (padded 2 n ++ rest) :=
    Text.trimLeftChars_eq_self fun c hc => by cases hc; exact visible
  rw [readPart?, trimmed]
  dsimp only
  rw [if_pos rfl, readNumber?_padded (by decide) small]

/-! ## Years -/

/-- After a sign any number of digits is read. -/
theorem readSigned?_padded (width n : Nat) (stop : Text.NoDigitAhead rest) :
    readSigned? (padded width n ++ rest) = some (n, rest) := by
  obtain ⟨c, l, written, digit⟩ := exists_padded width n
  have first : (padded width n ++ rest).head?.any Char.isDigit = true := by
    rw [written]
    exact digit
  rw [readSigned?, if_pos first, readNumber?, trimLeftChars_padded, List.take_length,
    Text.takeWhile_digits (isDigit_padded width n) stop, number?_padded, List.drop_left]
  rfl

/-- A year of four digits has no sign in front. -/
theorem readYear?_padded (small : n < 10000) (rest : List Char) :
    readYear? (padded 4 n ++ rest) = some ((n : Int), rest) := by
  obtain ⟨c, l, written, digit⟩ := exists_padded 4 n
  have unsigned : ∀ sign l', sign.isDigit = false → padded 4 n ++ rest ≠ sign :: l' := by
    rintro sign l' sign_digit e
    rw [written, List.cons_append] at e
    obtain ⟨rfl, -⟩ := List.cons.inj e
    exact absurd (digit.symm.trans sign_digit) (by decide)
  rw [readYear?, trimLeftChars_padded]
  split
  · rename_i e
    exact absurd e (unsigned _ _ (by decide))
  · rename_i e
    exact absurd e (unsigned _ _ (by decide))
  · rw [readNumber?_padded (by decide) small]
    rfl

theorem readYear?_renderYear (year : Int) (stop : Text.NoDigitAhead rest) :
    readYear? (renderYear year ++ rest) = some (year, rest) := by
  rw [renderYear]
  by_cases short : 0 ≤ year ∧ year ≤ 9999
  · obtain ⟨low, high⟩ := short
    rw [if_pos (by simp [low, high]), readYear?_padded (by omega), Int.toNat_of_nonneg low]
  · rw [if_neg (by simpa using short)]
    by_cases negative : year < 0
    · rw [if_pos negative, List.cons_append]
      show (readSigned? (padded 4 year.natAbs ++ rest)).map _ = _
      rw [readSigned?_padded 4 _ stop]
      exact congrArg (fun n => some (n, rest)) (by omega : -(year.natAbs : Int) = year)
    · rw [if_neg negative, List.cons_append]
      show (readSigned? (padded 4 year.natAbs ++ rest)).map _ = _
      rw [readSigned?_padded 4 _ stop]
      exact congrArg (fun n => some (n, rest)) (by omega : (year.natAbs : Int) = year)

/-! ## Parts of a second -/

/-- The digits of a part of a second are read up to the zone. -/
theorem readFraction?_padded (pos : 0 < width) (few : width ≤ 9) (small : n < Nat.pow 10 width) :
    readFraction? ('.' :: padded width n ++ ['Z']) = some (n * Nat.pow 10 (9 - width), ['Z']) := by
  have stop : Text.NoDigitAhead ['Z'] := Text.noDigitAhead_cons (by decide)
  have length := length_padded pos small
  rw [List.cons_append, readFraction?, Text.takeWhile_digits (isDigit_padded width n) stop,
    Text.dropWhile_digits (isDigit_padded width n) stop, List.take_of_length_le (by omega),
    number?_padded, length]
  rfl

theorem readFraction?_renderFraction {nanosecond : Nat} (small : nanosecond < 1000000000) :
    readFraction? (renderFraction nanosecond ++ ['Z']) = some (nanosecond, ['Z']) := by
  rw [renderFraction]
  split
  · rename_i zero
    rw [zero]
    rfl
  split
  · have few : nanosecond / 1000000 < 1000 := by omega
    rw [readFraction?_padded (by decide) (by decide) few]
    exact congrArg (fun n => some (n, ['Z'])) (by omega : nanosecond / 1000000 * 1000000 = _)
  split
  · have few : nanosecond / 1000 < 1000000 := by omega
    rw [readFraction?_padded (by decide) (by decide) few]
    exact congrArg (fun n => some (n, ['Z'])) (by omega : nanosecond / 1000 * 1000 = _)
  · rw [readFraction?_padded (by decide) (by decide) small]
    exact congrArg (fun n => some (n, ['Z'])) (Nat.mul_one nanosecond)

/-! ## Moments -/

theorem ofParts?_date (date : Date) : Date.ofParts? date.year date.month date.day = some date :=
  dif_pos date.isDate

/-- Months and days have two digits. -/
theorem date_lt (date : Date) : date.month < 100 ∧ date.day < 100 := by
  have h := date.isDate
  simp only [isDate, Bool.and_eq_true, decide_eq_true_eq] at h
  have : daysInMonth date.year date.month ≤ 31 := by
    rw [daysInMonth]
    repeat' split
    all_goals decide
  exact ⟨by omega, by omega⟩

/-- In universal time a moment is at the time of day that its parts say. -/
theorem ofLocal?_zero (t : Timestamp) :
    ofLocal? t.date t.hour t.minute t.second t.nanosecond 0 = some t := by
  obtain ⟨date, ⟨hour, h⟩, ⟨minute, m⟩, ⟨second, s⟩, ⟨nanosecond, n⟩⟩ := t
  have inDay : (((hour * 60 + minute : Nat) - 0 : Int) % 1440).toNat = hour * 60 + minute := by omega
  have hours : (hour * 60 + minute) / 60 = hour := by omega
  have minutes : (hour * 60 + minute) % 60 = minute := by omega
  unfold ofLocal?
  dsimp only
  rw [if_neg (by simp; omega), if_neg (by omega), if_neg (by omega)]
  simp only [inDay, hours, minutes, Option.bind_eq_bind, Option.bind_some]
  rw [dif_pos ⟨h, s, n⟩]

/-- A moment is read back from its text. -/
theorem ofText?_render (t : Timestamp) : ofText? t.render = some t := by
  obtain ⟨month, day⟩ := date_lt t.date
  have written : t.render.toList = renderYear t.date.year ++ ('-' :: (padded 2 t.date.month ++
      ('-' :: (padded 2 t.date.day ++ ('T' :: (padded 2 t.hour ++ (':' :: (padded 2 t.minute ++
      (':' :: (padded 2 t.second ++ (renderFraction t.nanosecond ++ ['Z']))))))))))) := by
    rw [render, String.toList_ofList]
    simp only [List.append_assoc, List.cons_append]
  have hyphen : Text.isBlank '-' = false := by decide
  have colon : Text.isBlank ':' = false := by decide
  have zone : readOffset? (Text.trimLeftChars ['Z']) = some (0, []) := by decide
  rw [ofText?, written, readYear?_renderYear _ (Text.noDigitAhead_cons (by decide))]
  simp only [Option.bind_eq_bind, Option.bind_some, readPart?_padded hyphen month,
    readPart?_padded hyphen day, ofParts?_date, List.head?_cons, List.drop_one, List.tail_cons]
  rw [if_neg (by decide)]
  simp only [readNumber?_padded (by decide : 0 < 2) (by omega : (t.hour : Nat) < 100),
    Option.bind_some, readPart?_padded colon (by omega : (t.minute : Nat) < 100),
    readPart?_padded colon (by omega : (t.second : Nat) < 100),
    readFraction?_renderFraction t.nanosecond.isLt, zone]
  exact ofLocal?_zero t

end MapGate.Timestamp
