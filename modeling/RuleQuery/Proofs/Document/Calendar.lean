/-
# Dates and timestamps are read back

A date is read back as it is. A timestamp is written to the second, so what is read back is the
timestamp of that second; a leap second is written as second 60 and read as one. The texts consist
of fields of digits with a single character between them, so everything rests on one fact: a run of
digits is read as its value when no digit follows it.
-/

import RuleQuery.Calendar.Reader

namespace RuleQuery.Calendar

open RuleQuery.Number RuleQuery.Text

/-- A text that does not start with a digit. -/
def NoDigit (cs : List Char) : Prop := ∀ c, cs.head? = some c → c.isDigit = false

theorem NoDigit.nil : NoDigit [] := by
  intro c head
  cases head

theorem NoDigit.cons {c : Char} (h : c.isDigit = false) (cs : List Char) : NoDigit (c :: cs) := by
  intro d head
  cases head
  exact h

theorem isBlank_of_isDigit {c : Char} (h : c.isDigit = true) : isBlank c = false := by
  have range : 48 ≤ c.toNat ∧ c.toNat ≤ 57 := by
    simpa [Char.isDigit, UInt32.le_iff_toNat_le] using h
  simp only [isBlank]
  grind

theorem daysIn_le (year : Int) (month : Nat) : daysIn year month ≤ 31 := by
  unfold daysIn
  grind

/-! ## Fields of digits -/

theorem isDigit_of_mem_padded (width n : Nat) : ∀ c ∈ padded width n, c.isDigit = true := by
  intro c mem
  rcases List.mem_append.mp mem with zero | digit
  · rw [List.eq_of_mem_replicate zero]
    rfl
  · exact isDigit_of_mem_digits digit

/-- Zeros in front do not change the value. -/
theorem value_padded (width n : Nat) : value (padded width n) = n := by
  unfold value padded digits
  rw [Nat.ofDigitChars_append, Nat.ofDigitChars_replicate_zero, Nat.mul_zero]
  exact Nat.ofDigitChars_ten_toDigits

theorem length_padded_of_lt {width n : Nat} (positive : 0 < width) (h : n < tenTo width) :
    (padded width n).length = width := by
  have fits : (digits n).length ≤ width := (Nat.length_toDigits_le_iff (by decide) positive).mpr h
  rw [padded, List.length_append, List.length_replicate]
  omega

theorem length_padded_pos (width n : Nat) : 0 < (padded width n).length := by
  have positive : 0 < (digits n).length := Nat.length_toDigits_pos
  rw [padded, List.length_append]
  omega

/-- The first digit of a field. -/
theorem padded_eq_cons (width n : Nat) :
    ∃ d ds, padded width n = d :: ds ∧ d.isDigit = true := by
  obtain ⟨d, ds, chars⟩ := List.exists_cons_of_length_pos (length_padded_pos width n)
  exact ⟨d, ds, chars, isDigit_of_mem_padded width n d (by simp [chars])⟩

/-- There are no blanks before a field. -/
theorem dropBlanks_padded (width n : Nat) (rest : List Char) :
    dropBlanks (padded width n ++ rest) = padded width n ++ rest := by
  obtain ⟨d, ds, chars, digit⟩ := padded_eq_cons width n
  rw [chars, List.cons_append, dropBlanks, List.dropWhile_cons_of_neg]
  simp [isBlank_of_isDigit digit]

namespace Scan

/-- A run of digits is read as its value when no digit follows. -/
theorem number_append {ds rest : List Char} {least most : Nat}
    (digits : ∀ c ∈ ds, c.isDigit = true) (enough : least ≤ ds.length) (few : ds.length ≤ most)
    (stop : NoDigit rest) : number least most (ds ++ rest) = some (value ds, rest) := by
  have nothing : (rest.take (most - ds.length)).takeWhile Char.isDigit = [] := by
    cases rest with
    | nil => simp
    | cons c cs =>
        have notDigit := stop c rfl
        cases most - ds.length with
        | zero => rfl
        | succ k => simp [notDigit]
  have run : ((ds ++ rest).take most).takeWhile Char.isDigit = ds := by
    rw [List.take_append, List.take_of_length_le few, List.takeWhile_append_of_pos digits, nothing,
      List.append_nil]
  unfold number
  simp only [run]
  rw [if_neg (by omega), List.drop_left]

theorem number_padded {width n : Nat} {least most : Nat} {rest : List Char}
    (enough : least ≤ (padded width n).length) (few : (padded width n).length ≤ most)
    (stop : NoDigit rest) : number least most (padded width n ++ rest) = some (n, rest) := by
  rw [number_append (isDigit_of_mem_padded width n) enough few stop, value_padded]

/-- A field of two digits. -/
theorem field_padded {n : Nat} (h : n < 100) {rest : List Char} (stop : NoDigit rest) :
    field (padded 2 n ++ rest) = some (n, rest) := by
  have length : (padded 2 n).length = 2 := length_padded_of_lt (by decide) h
  rw [field, dropBlanks_padded]
  exact number_padded (by omega) (by omega) stop

/-- A year with a sign may have any number of digits. -/
theorem number_signed (n : Nat) {rest : List Char} (stop : NoDigit rest) :
    number 1 (padded 4 n ++ rest).length (padded 4 n ++ rest) = some (n, rest) := by
  have positive := length_padded_pos 4 n
  exact number_padded positive (by simp) stop

theorem year_signed {sign : Char} (h : sign = '-' ∨ sign = '+') (cs : List Char) :
    year (sign :: cs) = (number 1 cs.length cs).map fun r =>
      (if sign = '-' then -(r.1 : Int) else (r.1 : Int), r.2) := by
  rcases h with rfl | rfl <;> rfl

theorem year_unsigned {c : Char} (h : c.isDigit = true) (cs : List Char) :
    year (c :: cs) = (number 1 4 (c :: cs)).map fun r => ((r.1 : Int), r.2) := by
  have shown : dropBlanks (c :: cs) = c :: cs := by
    rw [dropBlanks, List.dropWhile_cons_of_neg (by simp [isBlank_of_isDigit h])]
  unfold year
  rw [shown]
  split
  next split =>
    rw [(List.cons.inj split).1] at h
    cases h
  next split =>
    rw [(List.cons.inj split).1] at h
    cases h
  · rfl

/-- A year is read back, with its sign if it has one. -/
theorem year_yearText (y : Int) {rest : List Char} (stop : NoDigit rest) :
    year (Date.yearText y ++ rest) = some (y, rest) := by
  unfold Date.yearText
  split
  next plain =>
    simp only [Bool.and_eq_true, decide_eq_true_eq] at plain
    have small : y.toNat < 10000 := by omega
    have length : (padded 4 y.toNat).length = 4 := length_padded_of_lt (by decide) small
    have read : number 1 4 (padded 4 y.toNat ++ rest) = some (y.toNat, rest) :=
      number_padded (by omega) (by omega) stop
    obtain ⟨d, ds, chars, digit⟩ := padded_eq_cons 4 y.toNat
    rw [chars, List.cons_append] at read ⊢
    rw [year_unsigned digit, read, Option.map_some, Int.toNat_of_nonneg plain.1]
  next signed =>
    have sign : (if y < 0 then '-' else '+') = '-' ∨ (if y < 0 then '-' else '+') = '+' := by
      split
      · exact .inl rfl
      · exact .inr rfl
    rw [List.cons_append, year_signed sign, number_signed y.natAbs stop, Option.map_some]
    congr 2
    by_cases negative : y < 0
    · rw [if_pos (by rw [if_pos negative])]
      omega
    · rw [if_neg (by rw [if_neg negative]; decide)]
      omega

/-- A date is read back, whatever follows it. -/
theorem date_text (d : Date) {rest : List Char} (stop : NoDigit rest) :
    date false (d.text ++ rest) = some (d, rest) := by
  obtain ⟨_, ⟨_, lastMonth⟩, _, lastDay⟩ := d.isDay
  have hyphen (cs : List Char) : NoDigit ('-' :: cs) := .cons rfl cs
  have days := daysIn_le d.year d.month
  have fields : d.text ++ rest = Date.yearText d.year ++
      '-' :: (padded 2 d.month ++ '-' :: (padded 2 d.day ++ rest)) := by
    simp [Date.text]
  rw [fields]
  unfold date
  simp only [year_yearText d.year (hyphen _), character, id, Bool.false_eq_true, if_false, if_true,
    field_padded (show d.month < 100 by omega) (hyphen _),
    field_padded (show d.day < 100 by omega) stop, Date.ofFields?_fields, Option.bind_eq_bind,
    Option.bind_some, Option.pure_def]

end Scan

/-- A date is read back. -/
theorem readDate?_text (d : Date) : readDate? (String.ofList d.text) = some d := by
  have read := Scan.date_text d .nil
  rw [List.append_nil] at read
  rw [readDate?, String.toList_ofList, read]
  rfl

/-! ## Timestamps -/

namespace Timestamp

theorem writtenSecond_le (t : Timestamp) : t.writtenSecond ≤ 60 := by
  obtain ⟨_, _, second, nanos⟩ := t.isTime
  unfold writtenSecond
  omega

/-- What a timestamp is read back as: the timestamp of the second that is written. -/
def restored (t : Timestamp) : Timestamp :=
  if leap : t.writtenSecond = 60 then
    ⟨t.date, t.hour, t.minute, 59, 1000000000, t.isTime.1, t.isTime.2.1, by decide, by decide⟩
  else
    ⟨t.date, t.hour, t.minute, t.writtenSecond, 0, t.isTime.1, t.isTime.2.1,
      Nat.lt_of_le_of_ne t.writtenSecond_le leap, by decide⟩

theorem ofWritten?_restored (t : Timestamp) :
    ofWritten? t.date t.hour t.minute t.writtenSecond 0 = some t.restored := by
  unfold ofWritten? restored
  by_cases leap : t.writtenSecond = 60
  · rw [if_pos leap, dif_pos leap]
    exact dif_pos _
  · rw [if_neg leap, dif_neg leap]
    exact dif_pos _

/-- Reading back keeps everything that is written. -/
theorem restored_fields (t : Timestamp) :
    t.restored.date = t.date ∧ t.restored.hour = t.hour ∧ t.restored.minute = t.minute ∧
      t.restored.writtenSecond = t.writtenSecond := by
  unfold restored
  by_cases leap : t.writtenSecond = 60
  · rw [dif_pos leap, leap]
    exact ⟨rfl, rfl, rfl, by simp [writtenSecond]⟩
  · rw [dif_neg leap]
    exact ⟨rfl, rfl, rfl, by simp [writtenSecond]⟩

/-- The text of a timestamp is that of its second. -/
theorem text_restored (separator : Char) (t : Timestamp) :
    t.restored.text separator = t.text separator := by
  obtain ⟨date, hour, minute, second⟩ := t.restored_fields
  unfold text clockText
  rw [date, hour, minute, second]

/-- A timestamp without a part of a second; a leap second counts as a second. -/
def IsWhole (t : Timestamp) : Prop :=
  t.nanos = 0 ∨ (t.second = 59 ∧ t.nanos = 1000000000)

theorem restored_of_isWhole {t : Timestamp} (whole : t.IsWhole) : t.restored = t := by
  obtain ⟨date, hour, minute, second, nanos, isTime⟩ := t
  rcases whole with rfl | ⟨rfl, rfl⟩
  · have written :
        (⟨date, hour, minute, second, 0, isTime⟩ : Timestamp).writtenSecond = second := by
      simp [writtenSecond]
    have notLeap : second ≠ 60 := Nat.ne_of_lt isTime.2.2.1
    unfold restored
    simp [written, notLeap]
  · exact dif_pos (by simp [writtenSecond])

end Timestamp

namespace Scan

/-- The time of day is read back to the second. -/
theorem time_clockText (t : Timestamp) :
    time false t.date t.clockText = some (t.restored, []) := by
  obtain ⟨hour, minute, _, _⟩ := t.isTime
  have second := t.writtenSecond_le
  have colon (cs : List Char) : NoDigit (':' :: cs) := .cons rfl cs
  have fields : t.clockText = padded 2 t.hour ++
      ':' :: (padded 2 t.minute ++ ':' :: (padded 2 t.writtenSecond ++ [])) := by
    simp [Timestamp.clockText]
  rw [fields]
  unfold time
  simp only [character, id, Bool.false_eq_true, if_false, if_true,
    field_padded (show t.hour < 100 by omega) (colon _),
    field_padded (show t.minute < 100 by omega) (colon _),
    field_padded (show t.writtenSecond < 100 by omega) .nil, fraction,
    Timestamp.ofWritten?_restored, Option.bind_eq_bind, Option.bind_some, Option.pure_def]

/-- A field with exactly its number of digits. -/
theorem number_exact {width n : Nat} (positive : 0 < width) (h : n < tenTo width)
    {rest : List Char} (stop : NoDigit rest) :
    number width width (padded width n ++ rest) = some (n, rest) := by
  have length := length_padded_of_lt positive h
  exact number_padded (Nat.le_of_eq length.symm) (Nat.le_of_eq length) stop

/-- A reader goes on after a field with exactly its number of digits. -/
theorem number_bind {β : Type} {width n : Nat} (positive : 0 < width) (h : n < tenTo width)
    {rest : List Char} (stop : NoDigit rest) (next : Nat × List Char → Option β) :
    (number width width (padded width n ++ rest) >>= next) = next (n, rest) := by
  rw [number_exact positive h stop]
  rfl

/-- A reader goes on after the character that it asks for. -/
theorem character_bind {β : Type} (c : Char) (cs : List Char)
    (next : Unit × List Char → Option β) :
    (character c (c :: cs) >>= next) = next ((), cs) := by
  rw [character, if_pos rfl]
  rfl

/-- The strict reader takes the whole of a timestamp whose year has no sign. -/
theorem strict_text_unsigned (t : Timestamp) {separator : Char}
    (known : separator = 'T' ∨ separator = ' ')
    (unsigned : 0 ≤ t.date.year ∧ t.date.year ≤ 9999) :
    strict (t.text separator) = some (t.restored, []) := by
  obtain ⟨_, ⟨_, lastMonth⟩, _, lastDay⟩ := t.date.isDay
  obtain ⟨hour, minute, _, _⟩ := t.isTime
  have days := daysIn_le t.date.year t.date.month
  have second := t.writtenSecond_le
  have fields : t.text separator = padded 4 t.date.year.toNat ++
      '-' :: (padded 2 t.date.month ++ '-' :: (padded 2 t.date.day ++
        separator :: (padded 2 t.hour ++ ':' :: (padded 2 t.minute ++
          ':' :: (padded 2 t.writtenSecond ++ []))))) := by
    simp [Timestamp.text, Timestamp.clockText, Date.text, Date.yearText, unsigned]
  have hyphen (cs : List Char) : NoDigit ('-' :: cs) := .cons rfl cs
  have colon (cs : List Char) : NoDigit (':' :: cs) := .cons rfl cs
  have letter (cs : List Char) : NoDigit (separator :: cs) := by
    rcases known with rfl | rfl <;> exact .cons rfl cs
  have date : Date.ofFields? (t.date.year.toNat : Int) t.date.month t.date.day =
      some t.date := by
    rw [Int.toNat_of_nonneg unsigned.1, Date.ofFields?_fields]
  have two : 0 < 2 := by decide
  have four : 0 < 4 := by decide
  rw [fields]
  refine (number_bind four (show t.date.year.toNat < 10000 by omega) (hyphen _) _).trans ?_
  refine (character_bind '-' _ _).trans ?_
  refine (number_bind two (show t.date.month < 100 by omega) (hyphen _) _).trans ?_
  refine (character_bind '-' _ _).trans ?_
  refine (number_bind two (show t.date.day < 100 by omega) (letter _) _).trans ?_
  dsimp only
  rw [if_pos (by rcases known with rfl | rfl <;> decide), Option.bind_eq_bind, Option.bind_some]
  refine (number_bind two (show t.hour < 100 by omega) (colon _) _).trans ?_
  refine (character_bind ':' _ _).trans ?_
  refine (number_bind two (show t.minute < 100 by omega) (colon _) _).trans ?_
  refine (character_bind ':' _ _).trans ?_
  refine (number_bind two (show t.writtenSecond < 100 by omega) .nil _).trans ?_
  change (Date.ofFields? t.date.year.toNat t.date.month t.date.day >>= fun date =>
    Timestamp.ofWritten? date t.hour t.minute t.writtenSecond 0 >>= fun stamp =>
      some (stamp, ([] : List Char))) = _
  rw [date, Option.bind_eq_bind, Option.bind_some, Timestamp.ofWritten?_restored]
  rfl

/-- It refuses the sign of any other year. -/
theorem strict_text_signed (t : Timestamp) (separator : Char)
    (signed : ¬ (0 ≤ t.date.year ∧ t.date.year ≤ 9999)) : strict (t.text separator) = none := by
  have noDigit : (if t.date.year < 0 then '-' else '+').isDigit = false := by
    split <;> rfl
  have year : Date.yearText t.date.year =
      (if t.date.year < 0 then '-' else '+') :: padded 4 t.date.year.natAbs := by
    rw [Date.yearText, if_neg (by simpa using signed)]
  have refused {sign : Char} (noDigit : sign.isDigit = false) (cs : List Char) :
      number 4 4 (sign :: cs) = none := by
    rw [number, List.take_succ_cons, List.takeWhile_cons_of_neg (by simp [noDigit])]
    rfl
  rw [Timestamp.text, Date.text, year]
  simp only [List.cons_append, strict, refused noDigit]
  rfl

end Scan

/-- There is no offset after a timestamp. -/
theorem readZoned?_text (t : Timestamp) {separator : Char}
    (known : separator = 'T' ∨ separator = ' ') : readZoned? (t.text separator) = none := by
  unfold readZoned?
  by_cases unsigned : 0 ≤ t.date.year ∧ t.date.year ≤ 9999
  · rw [Scan.strict_text_unsigned t known unsigned]
    rfl
  · rw [Scan.strict_text_signed t separator unsigned]
    rfl

/-- A timestamp is read back to the second. -/
theorem readTimestamp?_text (t : Timestamp) :
    readTimestamp? (String.ofList (t.text 'T')) = some t.restored := by
  have date : Scan.date false (t.text 'T') = some (t.date, 'T' :: t.clockText) :=
    Scan.date_text t.date (.cons rfl t.clockText)
  unfold readTimestamp?
  rw [String.toList_ofList]
  simp only [readZoned?_text t (.inl rfl), readLocal?, date, Scan.character, Scan.time_clockText,
    Option.bind_eq_bind, Option.bind_some, if_true, Option.map_some, whole]
  rfl

/-- So is one with a blank between date and time. -/
theorem readTimestamp?_text_blank (t : Timestamp) :
    readTimestamp? (String.ofList (t.text ' ')) = some t.restored := by
  have date : Scan.date false (t.text ' ') = some (t.date, ' ' :: t.clockText) :=
    Scan.date_text t.date (.cons rfl t.clockText)
  have noLetter : Scan.character 'T' (' ' :: t.clockText) = none := rfl
  have clock : dropBlanks (' ' :: t.clockText) = t.clockText := by
    have first : dropBlanks (' ' :: t.clockText) = dropBlanks t.clockText := rfl
    rw [first, Timestamp.clockText, List.append_assoc]
    exact dropBlanks_padded 2 t.hour _
  unfold readTimestamp?
  rw [String.toList_ofList]
  simp only [readZoned?_text t (.inr rfl), readLocal?, date, noLetter, clock, Scan.time_clockText,
    Option.bind_eq_bind, Option.bind_some, Option.map_none, Option.bind_none, whole]
  rfl

end RuleQuery.Calendar
