import EraOne.Scan

set_option autoImplicit false

/- The times of events (`ical.go`): the layout `20060102T150405Z` of Go's time package. -/
namespace EraOne.Ical

/-- A time in UTC by its parts. -/
structure UtcTime where
  year : Nat := 1
  month : Nat := 1
  day : Nat := 1
  hour : Nat := 0
  minute : Nat := 0
  second : Nat := 0
  nanosecond : Nat := 0
  deriving DecidableEq

/-- `time.Time{}`. -/
def zeroTime : UtcTime := {}

def digitValue (c : Char) : Nat := c.toNat - '0'.toNat

/-- `getnum`: one or two digits, two if `fixed`. -/
def getnum (s : Str) (fixed : Bool) : Option (Nat × Str) :=
  match s with
  | [] => none
  | c :: rest =>
      if ¬ c.isDigit then none
      else
        match rest with
        | d :: behind =>
            if d.isDigit then some (10 * digitValue c + digitValue d, behind)
            else if fixed then none
            else some (digitValue c, rest)
        | [] => if fixed then none else some (digitValue c, [])

/-- A fraction behind the seconds, that the layout does not ask for. -/
def fraction (s : Str) : Nat × Str :=
  match s with
  | point :: d :: rest =>
      if (point = '.' ∨ point = ',') ∧ d.isDigit then
        let digits := ((d :: rest).takeWhile Char.isDigit).take 9
        (Nat.ofDigitChars 10 digits 0 * 10 ^ (9 - digits.length),
          (d :: rest).dropWhile Char.isDigit)
      else (0, s)
  | _ => (0, s)

def daysIn (month year : Nat) : Nat :=
  if month = 2 then (if year % 4 = 0 ∧ (year % 100 ≠ 0 ∨ year % 400 = 0) then 29 else 28)
  else if month = 4 ∨ month = 6 ∨ month = 9 ∨ month = 11 then 30
  else 31

/-- `time.Parse("20060102T150405Z", s)`. -/
def parseTime (s : Str) : Option UtcTime :=
  if s.length < 4 ∨ ¬ (s.take 4).all Char.isDigit then none
  else
    (getnum (s.drop 4) true).bind fun month =>
    if month.1 < 1 ∨ 12 < month.1 then none
    else
      (getnum month.2 true).bind fun day =>
      (Scan.strip ['T'] day.2).bind fun clock =>
      (getnum clock false).bind fun hour =>
      (getnum hour.2 true).bind fun minute =>
      (getnum minute.2 true).bind fun second =>
      let year := Nat.ofDigitChars 10 (s.take 4) 0
      if 24 ≤ hour.1 ∨ 60 ≤ minute.1 ∨ 60 ≤ second.1 then none
      else if (fraction second.2).2 ≠ ['Z'] then none
      else if day.1 < 1 ∨ daysIn month.1 year < day.1 then none
      else
        some {
          year, month := month.1, day := day.1, hour := hour.1, minute := minute.1, second :=
            second.1
          nanosecond := (fraction second.2).1 }

/-- A number with at least `width` digits. -/
def padded (width n : Nat) : Str :=
  List.replicate (width - (Nat.toDigits 10 n).length) '0' ++ Nat.toDigits 10 n

/-- `Format("20060102T150405Z")`. -/
def UtcTime.format (t : UtcTime) : Str :=
  padded 4 t.year ++ padded 2 t.month ++ padded 2 t.day ++ 'T' :: padded 2 t.hour ++ padded 2
    t.minute ++
    padded 2 t.second ++ ['Z']

/-! ### Reading what was written -/

/-- The parts of a time that was read. -/
structure UtcTime.Valid (t : UtcTime) : Prop where
  year : t.year < 10000
  month : 1 ≤ t.month ∧ t.month ≤ 12
  day : 1 ≤ t.day ∧ t.day ≤ daysIn t.month t.year
  hour : t.hour < 24
  minute : t.minute < 60
  second : t.second < 60

theorem daysIn_le (month year : Nat) : daysIn month year ≤ 31 := by
  unfold daysIn
  split
  · split
    · omega
    · omega
  · split
    · omega
    · omega

theorem ofDigitChars_lt (s : Str) (digits : s.all Char.isDigit = true) :
    Nat.ofDigitChars 10 s 0 < 10 ^ s.length := by
  induction s using List.reverseRecOn with
  | nil => decide
  | append_singleton s c ih =>
      rw [List.all_append, Bool.and_eq_true] at digits
      have front := ih digits.1
      have last : c.isDigit = true := by simpa using digits.2
      have value : c.toNat - '0'.toNat < 10 := by
        simp only [Char.isDigit, ge_iff_le, Bool.and_eq_true, decide_eq_true_eq,
          UInt32.le_iff_toNat_le] at last
        have upper : c.toNat ≤ 57 := last.2
        have zero : '0'.toNat = 48 := rfl
        omega
      rw [Nat.ofDigitChars_append, Nat.ofDigitChars_cons, Nat.ofDigitChars_nil, List.length_append,
        List.length_singleton, Nat.pow_succ]
      omega

theorem valid_parseTime (s : Str) (t : UtcTime) (parsed : parseTime s = some t) : t.Valid := by
  unfold parseTime at parsed
  obtain ⟨four, parsed⟩ := Option.ite_none_left_eq_some.mp parsed
  obtain ⟨month, _, parsed⟩ := Option.bind_eq_some_iff.mp parsed
  obtain ⟨months, parsed⟩ := Option.ite_none_left_eq_some.mp parsed
  obtain ⟨day, _, parsed⟩ := Option.bind_eq_some_iff.mp parsed
  obtain ⟨clock, _, parsed⟩ := Option.bind_eq_some_iff.mp parsed
  obtain ⟨hour, _, parsed⟩ := Option.bind_eq_some_iff.mp parsed
  obtain ⟨minute, _, parsed⟩ := Option.bind_eq_some_iff.mp parsed
  obtain ⟨second, _, parsed⟩ := Option.bind_eq_some_iff.mp parsed
  obtain ⟨clocks, parsed⟩ := Option.ite_none_left_eq_some.mp parsed
  obtain ⟨_, parsed⟩ := Option.ite_none_left_eq_some.mp parsed
  obtain ⟨days, parsed⟩ := Option.ite_none_left_eq_some.mp parsed
  rw [not_or, Nat.not_lt, Decidable.not_not] at four
  have year := ofDigitChars_lt (s.take 4) four.2
  rw [List.length_take, Nat.min_eq_left four.1] at year
  cases parsed
  rw [not_or, Nat.not_lt, Nat.not_lt] at months days
  rw [not_or, not_or, Nat.not_le, Nat.not_le, Nat.not_le] at clocks
  exact ⟨year, months, days, clocks.1, clocks.2.1, clocks.2.2⟩

theorem all_isDigit_padded (width n : Nat) : (padded width n).all Char.isDigit = true := by
  rw [padded, List.all_append, Bool.and_eq_true, List.all_eq_true, List.all_eq_true]
  constructor
  · intro c member
    rw [List.eq_of_mem_replicate member]
    rfl
  · intro c member
    exact Nat.isDigit_of_mem_toDigits (by decide) (by decide) member

theorem ofDigitChars_padded (width n : Nat) : Nat.ofDigitChars 10 (padded width n) 0 = n := by
  rw [padded, Nat.ofDigitChars_append, Nat.ofDigitChars_replicate_zero, Nat.mul_zero,
    Nat.ofDigitChars_ten_toDigits]

theorem length_padded (width n : Nat) (positive : 0 < width) (fits : n < 10 ^ width) :
    (padded width n).length = width := by
  have short : (Nat.toDigits 10 n).length ≤ width :=
    (Nat.length_toDigits_le_iff (by decide) positive).mpr fits
  rw [padded, List.length_append, List.length_replicate]
  omega

theorem getnum_padded (n : Nat) (fixed : Bool) (rest : Str) (fits : n < 100) :
    getnum (padded 2 n ++ rest) fixed = some (n, rest) := by
  have size := length_padded 2 n (by decide) fits
  have digits := all_isDigit_padded 2 n
  have value := ofDigitChars_padded 2 n
  match shape : padded 2 n, size with
  | [c, d], _ =>
      rw [shape] at digits value
      simp only [List.all_cons, List.all_nil, Bool.and_true, Bool.and_eq_true] at digits
      simp only [Nat.ofDigitChars_cons, Nat.ofDigitChars_nil, Nat.mul_zero, Nat.zero_add] at value
      simp only [List.cons_append, List.nil_append, getnum, digits.1, digits.2, not_true_eq_false,
        if_false, if_true, digitValue, value]

/-- A time with whole seconds is read from its text. -/
theorem parseTime_format (t : UtcTime) (valid : t.Valid) :
    parseTime t.format = some { t with nanosecond := 0 } := by
  have year := length_padded 4 t.year (by decide) valid.year
  have days := daysIn_le t.month t.year
  have text :
      t.format = padded 4 t.year ++
        (padded 2 t.month ++ (padded 2 t.day ++ ('T' :: (padded 2 t.hour ++
      (padded 2 t.minute ++ (padded 2 t.second ++ ['Z'])))))) := by
    simp [UtcTime.format]
  have front : t.format.take 4 = padded 4 t.year := by
    rw [text]
    exact List.take_left' year
  have back := (congrArg (List.drop 4) text).trans (List.drop_left' year)
  have long : ¬ (t.format.length < 4 ∨ ¬ (t.format.take 4).all Char.isDigit = true) := by
    rw [front, not_or, Decidable.not_not]
    refine ⟨?_, all_isDigit_padded 4 t.year⟩
    rw [text, List.length_append]
    omega
  unfold parseTime
  rw [if_neg long, back, getnum_padded _ _ _ (by have := valid.month; omega), Option.bind_some]
  dsimp only
  rw [if_neg (by have := valid.month; omega), getnum_padded _ _ _ (by have := valid.day; omega),
    Option.bind_some]
  have letter (rest : Str) : Scan.strip ['T'] ('T' :: rest) = some rest := rfl
  rw [letter, Option.bind_some, getnum_padded _ _ _ (by have := valid.hour; omega),
    Option.bind_some, getnum_padded _ _ _ (by have := valid.minute; omega), Option.bind_some,
    getnum_padded _ _ _ (by have := valid.second; omega),
    Option.bind_some]
  dsimp only
  have whole : fraction ['Z'] = (0, ['Z']) := rfl
  rw [front, ofDigitChars_padded, whole,
    if_neg (by have := valid.hour; have := valid.minute; have := valid.second; omega),
    if_neg (by decide), if_neg (by have := valid.day; omega)]

end EraOne.Ical
