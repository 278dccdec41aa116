import MusicImport.Journal.Timestamp

/-! A point in time is read back from its text. -/
namespace MusicImport.Timestamp

theorem isBlank_of_isDigit {c : Char} (h : c.isDigit) : Text.isBlank c = false := by
  have hdigits : ∀ n, n < 58 → 48 ≤ n → Text.blankRanges.contains n = false := by decide
  have hc : 48 ≤ c.toNat ∧ c.toNat ≤ 57 := by simpa [Char.isDigit, UInt32.le_iff_toNat_le] using h
  exact hdigits c.toNat (by omega) hc.1

/-- The text does not go on with a digit. -/
def EndsDigits (cs : List Char) : Prop := ∀ c rest, cs = c :: rest → c.isDigit = false

theorem endsDigits_cons {c : Char} {cs : List Char} (h : c.isDigit = false) :
    EndsDigits (c :: cs) := by
  intro d rest hd
  cases hd
  exact h

theorem padded_eq (width n : Nat) :
    padded width n =
      List.replicate (width - (Nat.toDigits 10 n).length) '0' ++ Nat.toDigits 10 n := by
  simp [padded]

theorem isDigit_of_mem_padded {width n : Nat} {c : Char} (h : c ∈ padded width n) : c.isDigit := by
  rw [padded_eq, List.mem_append, List.mem_replicate] at h
  obtain ⟨-, rfl⟩ | h := h
  · decide
  · exact Nat.isDigit_of_mem_toDigits (by decide) (by decide) h

theorem padded_ne_nil (width n : Nat) : padded width n ≠ [] := by
  rw [padded_eq]
  simp

theorem length_padded {width n : Nat} (hwidth : 0 < width) (h : n < Nat.pow 10 width) :
    (padded width n).length = width := by
  have hlength := (Nat.length_toDigits_le_iff (b := 10) (by decide) hwidth).mpr h
  rw [padded_eq, List.length_append, List.length_replicate]
  omega

/-- Digits and zeros before them stand for the number. -/
theorem digits?_padded (width n : Nat) : Text.digits? (padded width n) = some n := by
  have hall : (padded width n).all Char.isDigit := by
    simpa using fun c hc => isDigit_of_mem_padded hc
  have hvalue : Nat.ofDigitChars 10 (padded width n) 0 = n := by
    rw [padded_eq, Nat.ofDigitChars_append, Nat.ofDigitChars_replicate_zero, Nat.mul_zero,
      Nat.ofDigitChars_ten_toDigits]
  rw [Nat.ofDigitChars_eq_foldl] at hvalue
  have hne : (padded width n).isEmpty = false := by simpa using padded_ne_nil width n
  simp only [Text.digits?, hne, hall, Bool.not_true, Bool.or_self, Bool.false_eq_true, if_false, hvalue]

theorem takeWhile_digits {ds rest : List Char} {max : Nat} (hds : ∀ c ∈ ds, c.isDigit)
    (hmax : ds.length ≤ max) (hrest : EndsDigits rest) :
    ((ds ++ rest).take max).takeWhile Char.isDigit = ds := by
  rw [List.take_append, List.take_of_length_le hmax, List.takeWhile_append_of_pos hds]
  have hstop : (rest.take (max - ds.length)).takeWhile Char.isDigit = [] := by
    cases rest with
    | nil => simp
    | cons c rest =>
      cases max - ds.length with
      | zero => simp
      | succ k => simp [hrest c rest rfl]
  rw [hstop, List.append_nil]

theorem digitsUpTo?_padded {max width n : Nat} {rest : List Char}
    (hmax : (padded width n).length ≤ max) (hrest : EndsDigits rest) :
    digitsUpTo? max (padded width n ++ rest) = some (n, rest) := by
  have hdigits := takeWhile_digits (fun c hc => isDigit_of_mem_padded hc) hmax hrest
  simp [digitsUpTo?, hdigits, digits?_padded]

theorem skipBlanks_cons {c : Char} (h : Text.isBlank c = false) (cs : List Char) :
    skipBlanks (c :: cs) = c :: cs := by simp [skipBlanks, h]

/-- A number has no blanks before it. -/
theorem skipBlanks_padded (width n : Nat) (rest : List Char) :
    skipBlanks (padded width n ++ rest) = padded width n ++ rest := by
  cases hcs : padded width n with
  | nil => exact absurd hcs (padded_ne_nil width n)
  | cons c cs =>
    have hc : c.isDigit := isDigit_of_mem_padded (by rw [hcs]; exact .head _)
    rw [List.cons_append, skipBlanks_cons (isBlank_of_isDigit hc)]

theorem field?_padded {n : Nat} (h : n < 100) {rest : List Char} (hrest : EndsDigits rest) :
    field? 2 (padded 2 n ++ rest) = some (n, rest) := by
  unfold field?
  rw [skipBlanks_padded]
  exact digitsUpTo?_padded (Nat.le_of_eq (length_padded (by decide) h)) hrest

theorem mark?_cons {c : Char} (h : Text.isBlank c = false) (rest : List Char) :
    mark? c (c :: rest) = some rest := by simp [mark?, skipBlanks_cons h]

/-- A year of four digits stands without a sign. -/
theorem year?_padded {n : Nat} (h : n < 10000) {rest : List Char} (hrest : EndsDigits rest) :
    year? (padded 4 n ++ rest) = some ((n : Int), rest) := by
  have hlength : (padded 4 n).length = 4 := length_padded (by decide) h
  have hdigits := digitsUpTo?_padded (Nat.le_of_eq hlength) hrest
  cases hcs : padded 4 n with
  | nil => exact absurd hcs (padded_ne_nil _ _)
  | cons c cs =>
    have hc : c.isDigit := isDigit_of_mem_padded (by rw [hcs]; exact .head _)
    have hminus : c ≠ '-' := by
      rintro rfl
      exact absurd hc (by decide)
    have hplus : c ≠ '+' := by
      rintro rfl
      exact absurd hc (by decide)
    rw [hcs] at hdigits
    unfold year?
    rw [List.cons_append, skipBlanks_cons (isBlank_of_isDigit hc)]
    split
    · simp_all
    · simp_all
    · simp_all

theorem year?_yearChars (year : Int) {rest : List Char} (hrest : EndsDigits rest) :
    year? (yearChars year ++ rest) = some (year, rest) := by
  unfold yearChars
  split
  next hyear =>
    simp only [Bool.and_eq_true, decide_eq_true_eq] at hyear
    have hvalue : (year.toNat : Int) = year := by omega
    rw [year?_padded (by omega) hrest, hvalue]
  next hyear =>
    have hall : ∀ n : Nat, digitsUpTo? (padded 4 n ++ rest).length (padded 4 n ++ rest) =
        some (n, rest) := by
      intro n
      exact digitsUpTo?_padded (by simp) hrest
    split
    next hneg =>
      have hvalue : -(year.natAbs : Int) = year := by omega
      have hminus : Text.isBlank '-' = false := by decide
      simp only [year?, List.cons_append, skipBlanks_cons hminus, hall, Option.map_some, hvalue]
    next hneg =>
      have hvalue : (year.natAbs : Int) = year := by
        simp only [Bool.and_eq_true, decide_eq_true_eq] at hyear
        omega
      have hplus : Text.isBlank '+' = false := by decide
      simp only [year?, List.cons_append, skipBlanks_cons hplus, hall, Option.map_some, hvalue]

/-- Three, six or nine digits behind the point stand for so many nanoseconds. -/
theorem fraction?_padded {width n : Nat} {rest : List Char} (hwidth : 0 < width) (hmax : width ≤ 9)
    (h : n < Nat.pow 10 width) (hrest : EndsDigits rest) :
    fraction? ('.' :: (padded width n ++ rest)) = some (n * Nat.pow 10 (9 - width), rest) := by
  have hlength := length_padded hwidth h
  have hstop : rest.dropWhile Char.isDigit = rest := by
    cases rest with
    | nil => rfl
    | cons c rest => simp [hrest c rest rfl]
  simp only [fraction?]
  rw [digitsUpTo?_padded (by omega) hrest]
  simp [hlength, hstop]

theorem fraction?_fractionChars {nano : Nat} (h : nano < 1000000000) (rest : List Char) :
    fraction? (fractionChars nano ++ 'Z' :: rest) = some (nano, 'Z' :: rest) := by
  have hrest : EndsDigits ('Z' :: rest) := endsDigits_cons (by decide)
  unfold fractionChars
  split
  next hzero => simp [fraction?, hzero]
  · split
    next hmilli =>
      have hdigits : nano / 1000000 < Nat.pow 10 3 := by
        show _ < 1000
        omega
      rw [List.cons_append, fraction?_padded (by decide) (by decide) hdigits hrest]
      have : nano / 1000000 * Nat.pow 10 (9 - 3) = nano := by
        show nano / 1000000 * 1000000 = nano
        omega
      rw [this]
    · split
      next hmicro =>
        have hdigits : nano / 1000 < Nat.pow 10 6 := by
          show _ < 1000000
          omega
        rw [List.cons_append, fraction?_padded (by decide) (by decide) hdigits hrest]
        have : nano / 1000 * Nat.pow 10 (9 - 6) = nano := by
          show nano / 1000 * 1000 = nano
          omega
        rw [this]
      next =>
        have hdigits : nano < Nat.pow 10 9 := h
        rw [List.cons_append, fraction?_padded (by decide) (by decide) hdigits hrest]
        have : nano * Nat.pow 10 (9 - 9) = nano := Nat.mul_one nano
        rw [this]

theorem dateEnd?_letter (rest : List Char) : dateEnd? ('T' :: rest) = some rest := by
  simp [dateEnd?]

theorem offset?_utc : offset? ['Z'] = some (0, []) := by decide

theorem minusMinutes_zero {t : Timestamp} (hhour : t.hour < 24) (hminute : t.minute < 60) :
    t.minusMinutes 0 = t := by
  have hlow : ¬ ((t.hour : Int) * 60 + t.minute - 0 < 0) := by omega
  have hhigh : ¬ (1440 ≤ (t.hour : Int) * 60 + t.minute - 0) := by omega
  have hof : (((t.hour : Int) * 60 + t.minute - 0) % 1440).toNat = t.hour * 60 + t.minute := by omega
  have hdiv : (t.hour * 60 + t.minute) / 60 = t.hour := by omega
  have hmod : (t.hour * 60 + t.minute) % 60 = t.minute := by omega
  simp only [minusMinutes, if_neg hlow, if_neg hhigh, hof, hdiv, hmod]

theorem bind_of_some {α β : Type} {x : Option α} {a : α} (h : x = some a) (f : α → Option β) :
    (x >>= f) = f a := by
  rw [h]
  rfl

/-- A point in time of the calendar is read back from its text. -/
theorem ofText?_text {t : Timestamp} (h : t.isValid) : ofText? t.text = some t := by
  have hvalid := h
  simp only [isValid, Bool.and_eq_true, decide_eq_true_eq] at h
  obtain ⟨⟨⟨⟨⟨⟨⟨⟨⟨-, -⟩, -⟩, hmonth⟩, -⟩, hday⟩, hhour⟩, hminute⟩, hsecond⟩, hnano⟩ := h
  have hdays : daysInMonth t.year t.month ≤ 31 := by
    unfold daysInMonth
    split
    · split <;> omega
    · split <;> omega
  have hdash : Text.isBlank '-' = false := by decide
  have hcolon : Text.isBlank ':' = false := by decide
  have hdash' : ∀ cs, EndsDigits ('-' :: cs) := fun cs => endsDigits_cons (by decide)
  have hcolon' : ∀ cs, EndsDigits (':' :: cs) := fun cs => endsDigits_cons (by decide)
  have hT : ∀ cs, EndsDigits ('T' :: cs) := fun cs => endsDigits_cons (by decide)
  have hfraction : EndsDigits (fractionChars t.nano ++ ['Z']) := by
    unfold fractionChars
    split
    · exact endsDigits_cons (by decide)
    · split
      · exact endsDigits_cons (by decide)
      · split <;> exact endsDigits_cons (by decide)
  have hchars : t.toChars = yearChars t.year ++ '-' :: (padded 2 t.month ++ '-' :: (padded 2 t.day ++
      'T' :: (padded 2 t.hour ++ ':' :: (padded 2 t.minute ++ ':' :: (padded 2 t.second ++
        (fractionChars t.nano ++ ['Z'])))))) := by
    simp only [toChars, List.append_assoc, List.cons_append]
  unfold ofText? text
  rw [String.toList_ofList, ofChars?, hchars]
  refine (bind_of_some (year?_yearChars _ (hdash' _)) _).trans ?_
  refine (bind_of_some (mark?_cons hdash _) _).trans ?_
  refine (bind_of_some (field?_padded (by omega) (hdash' _)) _).trans ?_
  refine (bind_of_some (mark?_cons hdash _) _).trans ?_
  refine (bind_of_some (field?_padded (by omega) (hT _)) _).trans ?_
  refine (bind_of_some (dateEnd?_letter _) _).trans ?_
  refine (bind_of_some (field?_padded (by omega) (hcolon' _)) _).trans ?_
  refine (bind_of_some (mark?_cons hcolon _) _).trans ?_
  refine (bind_of_some (field?_padded (by omega) (hcolon' _)) _).trans ?_
  refine (bind_of_some (mark?_cons hcolon _) _).trans ?_
  refine (bind_of_some (field?_padded (by omega) hfraction) _).trans ?_
  refine (bind_of_some (fraction?_fractionChars hnano _) _).trans ?_
  refine (bind_of_some offset?_utc _).trans ?_
  simp [hvalid, skipBlanks, minusMinutes_zero hhour hminute]

end MusicImport.Timestamp
