import ClusterFirewall.Proofs.Time.Calendar
import Mathlib.Data.List.TakeWhile

/-!
# Points in time that are read back

Every number in the text of a point in time has a fixed number of digits, or ends before a character
that is none. So each part is read back where it stands, and with the calendar the whole point in
time is. Main statement: `Instant.parse?_text`.
-/

namespace ClusterFirewall.Instant

/-- The calendar has the instant: its year is one that dates may have, and its nanoseconds are those
of a second, or those of a leap second at the end of a minute. -/
structure InCalendar (t : Instant) : Prop where
  year : Date.yearInRange (Date.ofDays (t.seconds / 86400)).year
  nanos : t.nanos < nanosPerSecond ∨ (t.seconds % 60 = 59 ∧ t.nanos < 2 * nanosPerSecond)

/-! ## Numbers with zeros in front -/

section padded

variable (width n : Nat)

theorem isDigit_of_mem_padded : ∀ c ∈ (padded width n).toList, c.isDigit := by
  intro c hc
  rw [padded, String.toList_ofList, List.mem_append] at hc
  rcases hc with hzero | hdigit
  · rw [List.eq_of_mem_replicate hzero]
    decide
  · exact Nat.isDigit_of_mem_toDigits (by decide) (by decide) hdigit

theorem padded_ne_nil : (padded width n).toList ≠ [] := by
  simp [padded, Nat.toDigits_ne_nil]

theorem ofDigitChars_padded : Nat.ofDigitChars 10 (padded width n).toList 0 = n := by
  rw [padded, String.toList_ofList, Nat.ofDigitChars_append, Nat.ofDigitChars_replicate_zero,
    Nat.mul_zero, Nat.ofDigitChars_ten_toDigits]

variable {width n}

theorem length_padded (hwidth : 0 < width) (h : n < 10 ^ width) :
    (padded width n).toList.length = width := by
  have hlength := (Nat.length_toDigits_le_iff (by decide) hwidth).2 h
  rw [padded, String.toList_ofList, List.length_append, List.length_replicate]
  omega

end padded

/-- Digits end where a character follows that is none. -/
theorem takeWhile_isDigit_append {ds : List Char} (hds : ∀ d ∈ ds, d.isDigit) {c : Char}
    (hc : c.isDigit = false) (rest : List Char) :
    (ds ++ c :: rest).takeWhile Char.isDigit = ds := by
  rw [List.takeWhile_append_of_pos hds, List.takeWhile_cons, hc]
  simp

theorem trimStart_cons {c : Char} (h : Text.isBlank c = false) (rest : List Char) :
    Text.trimStart (c :: rest) = c :: rest := by
  simp [Text.trimStart, h]

/-- Digits are no blanks. -/
theorem trimStart_append {ds : List Char} (hds : ∀ d ∈ ds, d.isDigit) (hne : ds ≠ [])
    (rest : List Char) : Text.trimStart (ds ++ rest) = ds ++ rest := by
  obtain ⟨d, ds, rfl⟩ := List.exists_cons_of_ne_nil hne
  apply trimStart_cons
  obtain ⟨hlow, hhigh⟩ := Char.isDigit_iff_toNat.1 (hds d (List.mem_cons_self ..))
  have hzero : '0'.toNat = 48 := rfl
  have hnine : '9'.toNat = 57 := rfl
  simp [Text.isBlank]
  omega

theorem readNumber_padded {width n : Nat} (hwidth : 0 < width) (h : n < 10 ^ width)
    (rest : List Char) : readNumber width ((padded width n).toList ++ rest) = some (n, rest) := by
  have hdigits := isDigit_of_mem_padded width n
  have hne := padded_ne_nil width n
  have hvalue := ofDigitChars_padded width n
  have hlength := length_padded hwidth h
  rw [readNumber, trimStart_append hdigits hne]
  generalize (padded width n).toList = ds at hdigits hne hvalue hlength
  have htake : ((ds ++ rest).take width).takeWhile Char.isDigit = ds := by
    rw [List.take_left' hlength, List.takeWhile_eq_self_iff.2 hdigits]
  simp only [htake, List.isEmpty_iff, hne, if_false, hvalue, List.drop_left]

/-! ## The parts of a point in time -/

theorem readMark_cons {mark : Char} (h : Text.isBlank mark = false) (rest : List Char) :
    readMark mark (mark :: rest) = some rest := by
  simp [readMark, trimStart_cons h]

/-- A year ends before the mark that follows it. -/
theorem readYear_yearText (year : Int) (rest : List Char) :
    readYear ((yearText year).toList ++ '-' :: rest) = some (year, '-' :: rest) := by
  have hdigits := isDigit_of_mem_padded 4 year.natAbs
  have hne := padded_ne_nil 4 year.natAbs
  have hvalue := ofDigitChars_padded 4 year.natAbs
  have htake := takeWhile_isDigit_append hdigits (c := '-') (by decide) rest
  unfold yearText
  split
  · rename_i hyear
    have habs : year.toNat = year.natAbs := by omega
    have hread := readNumber_padded (by decide) (show year.natAbs < 10 ^ 4 by omega) ('-' :: rest)
    have htrim := trimStart_append hdigits hne ('-' :: rest)
    rw [habs]
    -- The first of the digits is no sign.
    obtain ⟨d, ds, hd⟩ := List.exists_cons_of_ne_nil hne
    rw [hd] at hread htrim hdigits ⊢
    have hfirst := hdigits d (List.mem_cons_self ..)
    rw [readYear, htrim]
    split
    · rename_i heq
      rw [(List.cons.inj heq).1] at hfirst
      exact absurd hfirst (by decide)
    · rename_i heq
      rw [(List.cons.inj heq).1] at hfirst
      exact absurd hfirst (by decide)
    · rw [hread, Option.map_some, Int.natAbs_of_nonneg hyear.1]
  · rw [String.toList_append]
    generalize (padded 4 year.natAbs).toList = ds at hdigits hne hvalue htake
    split
    · show readYear ('-' :: (ds ++ '-' :: rest)) = _
      have hyear : -(year.natAbs : Int) = year := by omega
      rw [readYear, trimStart_cons (by decide)]
      simp only [htake, List.isEmpty_iff, hne, if_false, hvalue, hyear, List.drop_left]
    · show readYear ('+' :: (ds ++ '-' :: rest)) = _
      have hyear : (year.natAbs : Int) = year := by omega
      rw [readYear, trimStart_cons (by decide)]
      simp only [htake, List.isEmpty_iff, hne, if_false, hvalue, hyear, List.drop_left]

/-- Fewer digits than nine are those of a multiple of a power of ten. -/
theorem readNanos_nanosText {n : Nat} (h : n < nanosPerSecond) (rest : List Char) :
    readNanos ((nanosText n).toList ++ 'Z' :: rest) = some (n, 'Z' :: rest) := by
  have hpoint : ∀ {width m : Nat}, 0 < width → width ≤ 9 → m < 10 ^ width →
      readNanos (("." ++ padded width m).toList ++ 'Z' :: rest) =
        some (m * 10 ^ (9 - width), 'Z' :: rest) := by
    intro width m hwidth hnine hm
    have htake := takeWhile_isDigit_append (isDigit_of_mem_padded width m) (c := 'Z') (by decide)
      rest
    have hne := padded_ne_nil width m
    have hvalue := ofDigitChars_padded width m
    have hlength := length_padded hwidth hm
    rw [String.toList_append]
    generalize (padded width m).toList = ds at htake hne hvalue hlength
    have hkept : ds.take 9 = ds := List.take_of_length_le (by omega)
    show readNanos ('.' :: (ds ++ 'Z' :: rest)) = _
    simp only [readNanos, htake, List.isEmpty_iff, hne, if_false, hkept, hvalue, hlength,
      List.drop_left' hlength, Nat.pow_eq]
  unfold nanosPerSecond at h
  unfold nanosText
  split_ifs with hzero hmillis hmicros
  · rw [hzero]
    rfl
  · rw [hpoint (by decide) (by decide) (by omega)]
    congr 2
    omega
  · rw [hpoint (by decide) (by decide) (by omega)]
    congr 2
    omega
  · rw [hpoint (by decide) (by decide) (by omega)]
    congr 2
    omega

/-! ## The whole point in time -/

/-- The numbers of a date have two digits. -/
theorem lt_of_isValid {d : Date} (h : d.isValid) : d.month < 10 ^ 2 ∧ d.day < 10 ^ 2 := by
  have hdays : ∀ month, Date.daysOf d.year month ≤ 31 := by
    intro month
    unfold Date.daysOf
    split
    · split <;> decide
    all_goals decide
  simp only [Date.isValid, Bool.and_eq_true, decide_eq_true_eq] at h
  have hday := hdays d.month
  omega

theorem bind_step {α β : Type} {x : Option α} {a : α} {f : α → Option β} {b : Option β}
    (hx : x = some a) (hf : f a = b) : (x >>= f) = b := by
  rw [hx]
  exact hf

/-- The parts of a text are read one after the other, each up to the mark that follows it. -/
theorem ofChars?_fields {date : Date} {hour minute second nanos : Nat} (hdate : date.isValid)
    (hhour : hour < 24) (hminute : minute < 60) (hsecond : second ≤ 60)
    (hnanos : nanos < nanosPerSecond) :
    ofChars? (yearText date.year ++ "-" ++ padded 2 date.month ++ "-" ++ padded 2 date.day ++ "T" ++
      padded 2 hour ++ ":" ++ padded 2 minute ++ ":" ++ padded 2 second ++ nanosText nanos ++
        "Z").toList =
      let secondOfDay : Nat := hour * 3600 + minute * 60 + if second == 60 then 59 else second
      let seconds := date.toDays * 86400 + secondOfDay
      if Date.yearInRange (Date.ofDays (seconds / 86400)).year then
        some ⟨seconds, if second == 60 then nanos + nanosPerSecond else nanos⟩
      else none := by
  obtain ⟨hmonth, hday⟩ := lt_of_isValid hdate
  have hzone : readZone (Text.trimStart ['Z']) = some (0, []) := by decide
  have hmark : Text.isBlank '-' = false ∧ Text.isBlank ':' = false := by decide
  have hread : ∀ n, n < 10 ^ 2 → ∀ rest, readNumber 2 ((padded 2 n).toList ++ rest) =
      some (n, rest) := fun _ hn rest => readNumber_padded (by decide) hn rest
  simp only [String.toList_append, List.append_assoc]
  simp only [show "-".toList = ['-'] from rfl, show ":".toList = [':'] from rfl,
    show "T".toList = ['T'] from rfl, show "Z".toList = ['Z'] from rfl, List.singleton_append]
  unfold ofChars?
  refine bind_step (readYear_yearText _ _) ?_
  refine bind_step (readMark_cons hmark.1 _) ?_
  refine bind_step (hread _ hmonth _) ?_
  refine bind_step (readMark_cons hmark.1 _) ?_
  refine bind_step (hread _ hday _) ?_
  refine bind_step rfl ?_
  refine bind_step (hread _ (by omega) _) ?_
  refine bind_step (readMark_cons hmark.2 _) ?_
  refine bind_step (hread _ (by omega) _) ?_
  refine bind_step (readMark_cons hmark.2 _) ?_
  refine bind_step (hread _ (by omega) _) ?_
  refine bind_step (readNanos_nanosText hnanos _) ?_
  refine bind_step hzone ?_
  have htime : (decide (hour < 24) && decide (minute < 60) && decide (second ≤ 60) &&
      decide ((0 : Int).natAbs < 86400)) = true := by
    simp [hhour, hminute, hsecond]
  dsimp only
  rw [htime, hdate, if_neg (by decide), Int.sub_zero]

/-- A leap second is written as the second after that in which it is counted, which is the last one
of a minute, and is taken back from there. -/
theorem leap_back {second nanos : Nat} (hsecond : second < 60)
    (h : nanos < nanosPerSecond ∨ (second = 59 ∧ nanos < 2 * nanosPerSecond)) :
    let written := second + if nanosPerSecond ≤ nanos then 1 else 0
    let below := if nanosPerSecond ≤ nanos then nanos - nanosPerSecond else nanos
    written ≤ 60 ∧ below < nanosPerSecond ∧ (if written == 60 then 59 else written) = second ∧
      (if written == 60 then below + nanosPerSecond else below) = nanos := by
  by_cases hleap : nanosPerSecond ≤ nanos
  · obtain ⟨rfl, hnanos⟩ := h.resolve_left (Nat.not_lt.2 hleap)
    simp only [if_pos hleap]
    refine ⟨by decide, by omega, rfl, ?_⟩
    exact Nat.sub_add_cancel hleap
  · have hne : (second == 60) = false := beq_false_of_ne (by omega)
    simp only [if_neg hleap, Nat.add_zero, hne]
    exact ⟨by omega, Nat.not_le.1 hleap, rfl, rfl⟩

/-- A point in time of the calendar is read back from its text. -/
theorem parse?_text {t : Instant} (h : t.InCalendar) : parse? t.text = some t := by
  obtain ⟨hyear, hnanos⟩ := h
  have hdate := Date.isValid_ofDays hyear
  have htoDays := Date.toDays_ofDays (t.seconds / 86400)
  generalize hsecondOfDay : (t.seconds % 86400).toNat = secondOfDay
  have hhour : secondOfDay / 3600 < 24 := by omega
  have hminute : secondOfDay / 60 % 60 < 60 := by omega
  have hlast : t.nanos < nanosPerSecond ∨
      (secondOfDay % 60 = 59 ∧ t.nanos < 2 * nanosPerSecond) := by
    omega
  obtain ⟨hsecond, hbelow, hback, hback'⟩ := leap_back (Nat.mod_lt _ (by decide)) hlast
  have hseconds : t.seconds / 86400 * 86400 +
      ((secondOfDay / 3600 * 3600 + secondOfDay / 60 % 60 * 60 + secondOfDay % 60 : Nat) : Int) =
        t.seconds := by
    omega
  rw [parse?, text, hsecondOfDay, ofChars?_fields hdate hhour hminute hsecond hbelow]
  dsimp only
  rw [hback, hback', htoDays, hseconds, if_pos hyear]

end ClusterFirewall.Instant
