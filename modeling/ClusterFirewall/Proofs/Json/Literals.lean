import ClusterFirewall.Json.Reader
import ClusterFirewall.Json.Writer

/-!
# Numbers and strings that are read back

The reader passes over blanks, a number ends where no digit, point or exponent follows, and a string
ends at its quote; so numbers and strings are read back from what is written for them, whatever
follows. Main statements: `readNumeral_chars` and `exists_stringChars`.
-/

namespace ClusterFirewall.Json

/-! ## Blanks and digits -/

theorem skipSpace_append {blanks : List Char} (h : ∀ c ∈ blanks, isSpace c) (cs : List Char) :
    skipSpace (blanks ++ cs) = skipSpace cs :=
  List.dropWhile_append_of_pos h

theorem skipSpace_cons {c : Char} (h : isSpace c = false) (cs : List Char) :
    skipSpace (c :: cs) = c :: cs := by
  rw [skipSpace, List.dropWhile_cons, if_neg (by simp [h])]

/-- A text that does not go on with a digit. -/
def NoDigit (cs : List Char) : Prop := ∀ c ∈ cs.head?, c.isDigit = false

theorem readDigits_append {ds rest : List Char} (hds : ∀ d ∈ ds, d.isDigit) (hrest : NoDigit rest) :
    readDigits (ds ++ rest) = (ds, rest) := by
  have hstop : rest.takeWhile Char.isDigit = [] ∧ rest.dropWhile Char.isDigit = rest := by
    cases rest with
    | nil => exact ⟨rfl, rfl⟩
    | cons c cs => simp [hrest c rfl]
  rw [readDigits, List.takeWhile_append_of_pos hds, List.dropWhile_append_of_pos hds, hstop.1,
    hstop.2, List.append_nil]

theorem isDigit_toDigits (n : Nat) : ∀ d ∈ Nat.toDigits 10 n, d.isDigit :=
  fun _ hd => Nat.isDigit_of_mem_toDigits (by decide) (by decide) hd

/-- The digits of a number start with zero only if the number is zero. -/
theorem length_toDigits_of_zero {n : Nat} (h : (Nat.toDigits 10 n).head? = some '0') :
    (Nat.toDigits 10 n).length = 1 := by
  induction n using Nat.strongRecOn with
  | ind n ih =>
    rw [Nat.toDigits_eq_if (by decide)] at h ⊢
    split at h
    · rename_i hlt
      rw [if_pos hlt]
      rfl
    · rename_i hge
      exfalso
      obtain ⟨d, ds, hd⟩ := List.exists_cons_of_ne_nil (Nat.toDigits_ne_nil (n := n / 10) (b := 10))
      rw [hd] at h
      obtain rfl : d = '0' := Option.some.inj h
      have hone := ih (n / 10) (by omega) (by rw [hd]; rfl)
      -- The one digit zero comes from a number below ten.
      rw [hd, List.length_cons, Nat.add_eq_right, List.length_eq_zero_iff] at hone
      subst hone
      have hvalue := Nat.ofDigitChars_ten_toDigits (n := n / 10)
      rw [hd] at hvalue
      have hzero : n / 10 = 0 := by rw [← hvalue]; decide
      omega

/-! ## Numbers -/

/-- A text before which a number ends. -/
def EndsNumber (cs : List Char) : Prop :=
  ∀ c ∈ cs.head?, c.isDigit = false ∧ c ≠ '.' ∧ c ≠ 'e' ∧ c ≠ 'E'

theorem EndsNumber.noDigit {cs : List Char} (h : EndsNumber cs) : NoDigit cs :=
  fun c hc => (h c hc).1

theorem endsNumber_cons {c : Char} (h : c.isDigit = false ∧ c ≠ '.' ∧ c ≠ 'e' ∧ c ≠ 'E')
    (cs : List Char) : EndsNumber (c :: cs) := by
  rintro d hd
  obtain rfl := Option.some.inj hd
  exact h

theorem endsNumber_nil : EndsNumber [] := by
  intro c hc
  cases hc

theorem readExponent_exponentChars (e : Option Int) {rest : List Char} (hrest : EndsNumber rest) :
    readExponent (exponentChars e ++ rest) = some (e, rest) := by
  have hpower : ∀ n, readPower (Nat.toDigits 10 n ++ rest) = some (n, rest) := by
    intro n
    rw [readPower, readDigits_append (isDigit_toDigits n) hrest.noDigit]
    simp [Nat.toDigits_ne_nil, Nat.ofDigitChars_ten_toDigits]
  match e with
  | none =>
    cases rest with
    | nil => rfl
    | cons c cs =>
      obtain ⟨-, -, he, hE⟩ := hrest c rfl
      simp [exponentChars, readExponent, he, hE]
  | some (.ofNat n) => simp [exponentChars, readExponent, hpower]
  | some (.negSucc n) =>
    simp only [exponentChars, List.cons_append, readExponent, true_or, if_true, hpower,
      Option.map_some]
    rfl

theorem digitValue_digitChar (d : Fin 10) : digitValue (Nat.digitChar d.val) = d := by
  revert d
  decide

theorem isDigit_digitChar (d : Fin 10) : (Nat.digitChar d.val).isDigit := by
  revert d
  decide

/-- What follows the digits of a number before the point is no digit. -/
theorem noDigit_exponentChars (e : Option Int) {rest : List Char} (hrest : EndsNumber rest) :
    NoDigit (exponentChars e ++ rest) := by
  match e with
  | none => exact hrest.noDigit
  | some (.ofNat n) =>
    rintro c hc
    obtain rfl := Option.some.inj hc
    decide
  | some (.negSucc n) =>
    rintro c hc
    obtain rfl := Option.some.inj hc
    decide

theorem readFraction_fractionChars (ds : List (Fin 10)) (e : Option Int) {rest : List Char}
    (hrest : EndsNumber rest) :
    readFraction (fractionChars ds ++ (exponentChars e ++ rest)) =
      some (ds, exponentChars e ++ rest) := by
  cases ds with
  | nil =>
    -- Neither an exponent nor what follows the number starts with a point.
    have hpoint : ∀ cs, exponentChars e ++ rest ≠ '.' :: cs := by
      intro cs hcs
      match e with
      | none =>
        have hhead : '.' ∈ rest.head? := by
          simp only [exponentChars, List.nil_append] at hcs
          rw [hcs]
          rfl
        exact (hrest '.' hhead).2.1 rfl
      | some (.ofNat n) => cases hcs
      | some (.negSucc n) => cases hcs
    simp only [fractionChars, List.nil_append]
    unfold readFraction
    split
    · rename_i cs hcs
      exact absurd hcs (hpoint cs)
    · rfl
  | cons d ds =>
    have hdigits : ∀ c ∈ (d :: ds).map fun d => Nat.digitChar d.val, c.isDigit := by
      intro c hc
      obtain ⟨d', -, rfl⟩ := List.mem_map.1 hc
      exact isDigit_digitChar d'
    rw [fractionChars, List.cons_append, readFraction,
      readDigits_append hdigits (noDigit_exponentChars e hrest)]
    simp [Function.comp_def, digitValue_digitChar]

theorem noDigit_fractionChars (ds : List (Fin 10)) (e : Option Int) {rest : List Char}
    (hrest : EndsNumber rest) : NoDigit (fractionChars ds ++ (exponentChars e ++ rest)) := by
  cases ds with
  | nil => exact noDigit_exponentChars e hrest
  | cons d ds =>
    rintro c hc
    obtain rfl := Option.some.inj hc
    decide

theorem readUnsigned_chars (n : Numeral) {rest : List Char} (hrest : EndsNumber rest) :
    readUnsigned n.negative (Nat.toDigits 10 n.whole ++
      (fractionChars n.fraction ++ (exponentChars n.exponent ++ rest))) = some (n, rest) := by
  have hdigits : ((Nat.toDigits 10 n.whole).isEmpty ||
      ((Nat.toDigits 10 n.whole).head? == some '0' &&
        (Nat.toDigits 10 n.whole).length != 1)) = false := by
    rw [Bool.or_eq_false_iff, Bool.and_eq_false_iff]
    refine ⟨by simp [Nat.toDigits_ne_nil], ?_⟩
    by_cases hzero : (Nat.toDigits 10 n.whole).head? = some '0'
    · exact .inr (by simp [length_toDigits_of_zero hzero])
    · exact .inl (by simpa using hzero)
  -- The digits are read as far as they go, then the fraction and the exponent.
  rw [readUnsigned, readDigits_append (isDigit_toDigits _) (noDigit_fractionChars _ _ hrest)]
  simp [hdigits, readFraction_fractionChars _ _ hrest, readExponent_exponentChars _ hrest,
    Nat.ofDigitChars_ten_toDigits]

/-- A number is read back where it ends. -/
theorem readNumeral_chars (n : Numeral) {rest : List Char} (hrest : EndsNumber rest) :
    readNumeral (n.chars ++ rest) = some (n, rest) := by
  have hread := readUnsigned_chars n hrest
  unfold Numeral.chars
  cases hneg : n.negative with
  | true =>
    rw [hneg] at hread
    simpa [readNumeral] using hread
  | false =>
    rw [hneg] at hread
    -- Without a sign of its own the number starts with a digit, which is no sign.
    have hminus : ∀ cs, Nat.toDigits 10 n.whole ++
        (fractionChars n.fraction ++ (exponentChars n.exponent ++ rest)) ≠ '-' :: cs := by
      intro cs hcs
      cases hd : Nat.toDigits 10 n.whole with
      | nil => exact Nat.toDigits_ne_nil hd
      | cons d ds =>
        rw [hd] at hcs
        obtain rfl := (List.cons.inj hcs).1
        exact absurd (isDigit_toDigits n.whole '-' (by simp [hd])) (by decide)
    simp only [Bool.false_eq_true, if_false, List.nil_append, List.append_assoc]
    unfold readNumeral
    split
    · rename_i cs hcs
      exact absurd hcs (hminus cs)
    · exact hread

/-! ## Strings -/

theorem hexValue?_hexChar {n : Nat} (h : n < 16) : hexValue? (hexChar n) = some n := by
  have hall : ∀ m : Fin 16, hexValue? (hexChar m.val) = some m.val := by decide
  exact hall ⟨n, h⟩

/-- A character below the blank is read back from its number. -/
theorem hexValue4?_of_lt {n : Nat} (h : n < 0x20) :
    hexValue4? '0' '0' (hexChar (n / 16)) (hexChar (n % 16)) = some n := by
  have hzero : hexValue? '0' = some 0 := by decide
  simp only [hexValue4?, hzero, hexValue?_hexChar (show n / 16 < 16 by omega),
    hexValue?_hexChar (show n % 16 < 16 by omega), Option.bind_eq_bind, Option.bind_some, pure,
    Option.some.injEq]
  omega

/-- A text reads as one piece that stands for a character. -/
def ReadsAs (c : Char) (cs : List Char) : Prop :=
  ∃ piece : StringPiece,
    (∀ rest, readPieces (cs ++ rest) = (readPieces rest).map fun r => (piece :: r.1, r.2)) ∧
      ∀ pieces, joinPieces (piece :: pieces) = (joinPieces pieces).map (c :: ·)

theorem readsAs_letter {c letter : Char} (h : unescape? letter = some c) (hu : letter ≠ 'u') :
    ReadsAs c ['\\', letter] := by
  refine ⟨.char c, ?_, fun _ => rfl⟩
  intro rest
  simp [readPieces, h, hu]

theorem readsAs_number {c : Char} (h : c.toNat < 0x20) :
    ReadsAs c ['\\', 'u', '0', '0', hexChar (c.toNat / 16), hexChar (c.toNat % 16)] := by
  refine ⟨.unit c.toNat, ?_, ?_⟩
  · intro rest
    simp [readPieces, hexValue4?_of_lt h]
  · -- A number below that of the blank is no half of a character.
    intro pieces
    have hhigh : isHighHalf c.toNat = false := by
      simp [isHighHalf]
      omega
    have hlow : isLowHalf c.toNat = false := by
      simp [isLowHalf]
      omega
    rw [joinPieces.eq_def]
    simp [hhigh, hlow, Char.ofNat_toNat]

theorem readPieces_cons {c : Char} (hquote : c ≠ '"') (hslash : c ≠ '\\') (h : ¬ c.toNat < 0x20)
    (rest : List Char) :
    readPieces (c :: rest) = (readPieces rest).map fun r => (.char c :: r.1, r.2) := by
  rw [readPieces.eq_def]
  split
  case h_1 heq => cases heq
  case h_2 heq => exact absurd (List.cons.inj heq).1 hquote
  case h_3 heq => exact absurd (List.cons.inj heq).1 hslash
  case h_4 heq => exact absurd (List.cons.inj heq).1 hslash
  case h_5 heq =>
    obtain ⟨rfl, rfl⟩ := List.cons.inj heq
    rw [if_neg h]

theorem readsAs_self {c : Char} (hquote : c ≠ '"') (hslash : c ≠ '\\') (h : ¬ c.toNat < 0x20) :
    ReadsAs c [c] :=
  ⟨.char c, readPieces_cons hquote hslash h, fun _ => rfl⟩

/-- What a character is written as stands for the character. -/
theorem readsAs_escape (c : Char) : ReadsAs c (escape c) := by
  unfold escape
  -- Seven characters have a letter of their own.
  iterate 7
    split
    · subst_vars
      exact readsAs_letter rfl (by decide)
  split
  · rename_i hlow
    exact readsAs_number hlow
  · exact readsAs_self ‹_› ‹_› ‹_›

/-- The characters of a string are read back up to the closing quote. -/
theorem readText_flatMap_escape (cs rest : List Char) :
    readText (cs.flatMap escape ++ '"' :: rest) = some (some (String.ofList cs), rest) := by
  have hpieces : ∃ pieces, readPieces (cs.flatMap escape ++ '"' :: rest) = some (pieces, rest) ∧
      joinPieces pieces = some cs := by
    induction cs with
    | nil => exact ⟨[], rfl, rfl⟩
    | cons c cs ih =>
      obtain ⟨pieces, hread, hjoin⟩ := ih
      obtain ⟨piece, hc, hcjoin⟩ := readsAs_escape c
      refine ⟨piece :: pieces, ?_, ?_⟩
      · rw [List.flatMap_cons, List.append_assoc, hc, hread]
        rfl
      · rw [hcjoin, hjoin]
        rfl
  obtain ⟨pieces, hread, hjoin⟩ := hpieces
  rw [readText, hread, Option.map_some, hjoin]
  rfl

/-- A string starts with a quote, and what follows is read back. -/
theorem exists_stringChars (s : Option String) :
    ∃ body, stringChars s = '"' :: body ∧ ∀ rest, readText (body ++ rest) = some (s, rest) := by
  cases s with
  | none => exact ⟨_, rfl, fun rest => rfl⟩
  | some s =>
    refine ⟨s.toList.flatMap escape ++ ['"'], rfl, ?_⟩
    intro rest
    rw [List.append_assoc, List.singleton_append, readText_flatMap_escape, String.ofList_toList]

/-! ## What a document starts with -/

theorem endsNumber_of_isSpace {c : Char} (h : isSpace c) (cs : List Char) :
    EndsNumber (c :: cs) := by
  apply endsNumber_cons
  simp only [isSpace, Bool.or_eq_true, beq_iff_eq] at h
  rcases h with ((rfl | rfl) | rfl) | rfl <;> decide

/-- A number ends before blanks and before what a number ends before. -/
theorem endsNumber_append {blanks cs : List Char} (hblank : ∀ c ∈ blanks, isSpace c)
    (hcs : EndsNumber cs) : EndsNumber (blanks ++ cs) := by
  cases blanks with
  | nil => exact hcs
  | cons c rest => exact endsNumber_of_isSpace (hblank c List.mem_cons_self) (rest ++ cs)

theorem readValue_append {blanks : List Char} (hblank : ∀ c ∈ blanks, isSpace c) (n : Nat)
    (cs : List Char) : readValue n (blanks ++ cs) = readValue n cs := by
  cases n with
  | zero => rfl
  | succ n => rw [readValue, readValue, skipSpace_append hblank]

/-- A character that a number may start with. -/
def StartsNumber (c : Char) : Prop := c = '-' ∨ c.isDigit

theorem StartsNumber.ne {c d : Char} (hc : StartsNumber c) (hminus : d ≠ '-')
    (hdigit : d.isDigit = false) : c ≠ d := by
  rintro rfl
  rcases hc with hc | hc
  · exact hminus hc
  · rw [hdigit] at hc
    cases hc

theorem StartsNumber.isSpace {c : Char} (hc : StartsNumber c) : isSpace c = false := by
  have hspace : c ≠ ' ' := hc.ne (by decide) (by decide)
  have hfeed : c ≠ '\n' := hc.ne (by decide) (by decide)
  have htab : c ≠ '\t' := hc.ne (by decide) (by decide)
  have hreturn : c ≠ '\r' := hc.ne (by decide) (by decide)
  simp [Json.isSpace, hspace, hfeed, htab, hreturn]

/-- No other document starts like a number. -/
theorem readValue_of_startsNumber {c : Char} (hc : StartsNumber c) (steps : Nat) (cs : List Char) :
    readValue (steps + 1) (c :: cs) = (readNumeral (c :: cs)).map fun r => (.number r.1, r.2) := by
  rw [readValue, skipSpace_cons hc.isSpace]
  split
  case h_7 => rfl
  all_goals
    rename_i heq
    exact absurd (List.cons.inj heq).1 (hc.ne (by decide) (by decide))

end ClusterFirewall.Json
