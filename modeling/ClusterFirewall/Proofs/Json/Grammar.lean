import ClusterFirewall.Proofs.Json.Literals

/-!
# The texts of a document

The grammar of JSON as a relation between documents and texts: which texts **write** a document.
Blanks may stand before and after every item, name, value and document, and a number or a string is
written by any text that reads as it. The reader accepts exactly the texts that write a document,
and gives that document: `parseChars_eq_some_iff`.
-/

namespace ClusterFirewall.Json

/-! ## The grammar -/

/-- Nothing but blanks. -/
def Blank (cs : List Char) : Prop := ∀ c ∈ cs, isSpace c

theorem blank_nil : Blank [] := List.forall_mem_nil _

/-- What a text may write: a document, the items of a list, or the members of an object. -/
inductive Phrase where
  /-- A document. -/
  | value (j : Json)
  /-- The items of a list that has some. -/
  | items (js : List Json)
  /-- The members of an object that has some. -/
  | members (ms : List (Option String × Json))

/-- A text writes a document, without blanks around it, or items or members, with any blanks between
the marks. -/
inductive Writes : Phrase → List Char → Prop where
  | null : Writes (.value .null) ['n', 'u', 'l', 'l']
  | yes : Writes (.value (.bool true)) ['t', 'r', 'u', 'e']
  | no : Writes (.value (.bool false)) ['f', 'a', 'l', 's', 'e']
  | number {n : Numeral} {cs : List Char} (h : readNumeral cs = some (n, [])) :
    Writes (.value (.number n)) cs
  | string {s : Option String} {cs : List Char} (h : readText cs = some (s, [])) :
    Writes (.value (.string s)) ('"' :: cs)
  | noItems {b : List Char} (hb : Blank b) : Writes (.value (.array [])) ('[' :: (b ++ [']']))
  | array {js : List Json} {cs : List Char} (h : Writes (.items js) cs) :
    Writes (.value (.array js)) ('[' :: (cs ++ [']']))
  | noMembers {b : List Char} (hb : Blank b) : Writes (.value (.object [])) ('{' :: (b ++ ['}']))
  | object {ms : List (Option String × Json)} {cs : List Char} (h : Writes (.members ms) cs) :
    Writes (.value (.object ms)) ('{' :: (cs ++ ['}']))
  | item {j : Json} {b cs b' : List Char} (hb : Blank b) (h : Writes (.value j) cs)
      (hb' : Blank b') : Writes (.items [j]) (b ++ (cs ++ b'))
  | items {j : Json} {js : List Json} {b cs b' ds : List Char} (hb : Blank b)
      (h : Writes (.value j) cs) (hb' : Blank b') (hmore : Writes (.items js) ds) :
    Writes (.items (j :: js)) (b ++ (cs ++ (b' ++ ',' :: ds)))
  | member {k : Option String} {j : Json} {b ks b₁ b₂ cs b' : List Char} (hb : Blank b)
      (hk : readText ks = some (k, [])) (hb₁ : Blank b₁) (hb₂ : Blank b₂)
      (h : Writes (.value j) cs) (hb' : Blank b') :
    Writes (.members [(k, j)]) (b ++ '"' :: (ks ++ (b₁ ++ ':' :: (b₂ ++ (cs ++ b')))))
  | members {k : Option String} {j : Json} {ms : List (Option String × Json)}
      {b ks b₁ b₂ cs b' ds : List Char} (hb : Blank b) (hk : readText ks = some (k, []))
      (hb₁ : Blank b₁) (hb₂ : Blank b₂) (h : Writes (.value j) cs) (hb' : Blank b')
      (hmore : Writes (.members ms) ds) :
    Writes (.members ((k, j) :: ms))
      (b ++ '"' :: (ks ++ (b₁ ++ ':' :: (b₂ ++ (cs ++ (b' ++ ',' :: ds))))))

/-- A text writes a document with any blanks around it. -/
def IsTextOf (j : Json) (text : List Char) : Prop :=
  ∃ b cs b', text = b ++ (cs ++ b') ∧ Blank b ∧ Writes (.value j) cs ∧ Blank b'

/-! ## Numbers end where they end -/

/-- A reader takes a text off the front, and takes it off in front of every other text before which
it stops, too. -/
def Cuts {α : Type} (f : List Char → Option (α × List Char)) (Stop : List Char → Prop) : Prop :=
  ∀ cs a rest, f cs = some (a, rest) →
    ∃ ds, cs = ds ++ rest ∧ ∀ rest', Stop rest' → f (ds ++ rest') = some (a, rest')

/-- The first character of two texts is that of the first one, unless this is empty. -/
theorem forall_head?_append {P : Char → Prop} {ds rest : List Char} (hds : ∀ c ∈ ds.head?, P c)
    (hrest : ∀ c ∈ rest.head?, P c) : ∀ c ∈ (ds ++ rest).head?, P c := by
  cases ds with
  | nil => exact hrest
  | cons d ds => exact hds

theorem exists_readDigits (cs : List Char) :
    ∃ ds rest, readDigits cs = (ds, rest) ∧ cs = ds ++ rest ∧ ∀ d ∈ ds, d.isDigit :=
  ⟨_, _, rfl, List.takeWhile_append_dropWhile.symm,
    fun _ hd => List.all_eq_true.1 List.all_takeWhile _ hd⟩

theorem cuts_readPower : Cuts readPower NoDigit := by
  intro cs a rest h
  obtain ⟨ds, rest₁, hread, rfl, hds⟩ := exists_readDigits cs
  unfold readPower at h
  rw [hread] at h
  dsimp only at h
  split at h
  · cases h
  · rename_i hne
    cases h
    refine ⟨ds, rfl, fun rest' hstop => ?_⟩
    rw [readPower, readDigits_append hds hstop]
    exact if_neg hne

theorem isDigit_of_readPower {cs rest : List Char} {n : Nat} (h : readPower cs = some (n, rest)) :
    ∃ d ds, cs = d :: ds ∧ d.isDigit := by
  cases cs with
  | nil => cases h
  | cons d ds =>
    refine ⟨d, ds, rfl, ?_⟩
    cases hd : d.isDigit with
    | true => rfl
    | false => simp [readPower, readDigits, hd] at h

/-- An exponent starts with a letter, if there is one. -/
theorem cuts_readExponent {cs rest : List Char} {e : Option Int}
    (h : readExponent cs = some (e, rest)) :
    ∃ ds, cs = ds ++ rest ∧ (∀ c ∈ ds.head?, c = 'e' ∨ c = 'E') ∧
      ∀ rest', EndsNumber rest' → readExponent (ds ++ rest') = some (e, rest') := by
  cases cs with
  | nil =>
    cases h
    exact ⟨[], rfl, by simp, fun rest' hstop => readExponent_exponentChars none hstop⟩
  | cons c cs =>
    by_cases hc : c = 'e' ∨ c = 'E'
    · simp only [readExponent, hc, if_true] at h
      have hhead : ∀ ds, ∀ d ∈ (c :: ds).head?, d = 'e' ∨ d = 'E' := by
        intro ds
        simpa using hc
      -- After the letter comes a sign or the first digit.
      split at h <;> obtain ⟨p, hp, hpair⟩ := Option.map_eq_some_iff.1 h <;> cases hpair
      · obtain ⟨ds, rfl, hds⟩ := cuts_readPower _ _ _ hp
        refine ⟨c :: '-' :: ds, rfl, hhead _, fun rest' hstop => ?_⟩
        simp [readExponent, hc, hds rest' hstop.noDigit]
      · obtain ⟨ds, rfl, hds⟩ := cuts_readPower _ _ _ hp
        refine ⟨c :: '+' :: ds, rfl, hhead _, fun rest' hstop => ?_⟩
        simp [readExponent, hc, hds rest' hstop.noDigit]
      · obtain ⟨ds, rfl, hds⟩ := cuts_readPower _ _ _ hp
        refine ⟨c :: ds, rfl, hhead _, fun rest' hstop => ?_⟩
        have hread := hds rest' hstop.noDigit
        obtain ⟨d, more, hd, hdigit⟩ := isDigit_of_readPower hread
        have hminus : d ≠ '-' := by
          rintro rfl
          exact absurd hdigit (by decide)
        have hplus : d ≠ '+' := by
          rintro rfl
          exact absurd hdigit (by decide)
        rw [hd] at hread
        simp [readExponent, hc, hd, hminus, hplus, hread]
    · simp only [readExponent, hc, if_false, Option.some.injEq, Prod.mk.injEq] at h
      obtain ⟨rfl, rfl⟩ := h
      exact ⟨[], rfl, by simp, fun rest' hstop => readExponent_exponentChars none hstop⟩

/-- What goes on with no digit and no point. -/
def NoFraction (cs : List Char) : Prop := ∀ c ∈ cs.head?, c.isDigit = false ∧ c ≠ '.'

theorem readFraction_of_noFraction {cs : List Char} (h : NoFraction cs) :
    readFraction cs = some ([], cs) := by
  unfold readFraction
  split
  · exact absurd rfl (h _ rfl).2
  · rfl

/-- A fraction starts with a point, if there is one. -/
theorem cuts_readFraction {cs rest : List Char} {f : List (Fin 10)}
    (h : readFraction cs = some (f, rest)) :
    ∃ ds, cs = ds ++ rest ∧ (∀ c ∈ ds.head?, c = '.') ∧
      ∀ rest', NoFraction rest' → readFraction (ds ++ rest') = some (f, rest') := by
  by_cases hpoint : ∃ more, cs = '.' :: more
  · obtain ⟨more, rfl⟩ := hpoint
    obtain ⟨ds, rest₁, hread, rfl, hds⟩ := exists_readDigits more
    simp only [readFraction, hread] at h
    split at h
    · cases h
    · rename_i hne
      cases h
      refine ⟨'.' :: ds, rfl, by simp, fun rest' hstop => ?_⟩
      have hdigits := readDigits_append hds fun c hc => (hstop c hc).1
      simp only [List.cons_append, readFraction, hdigits, if_neg hne]
  · have hnone : readFraction cs = some ([], cs) := by
      unfold readFraction
      split
      · exact absurd ⟨_, rfl⟩ hpoint
      · rfl
    rw [hnone] at h
    cases h
    exact ⟨[], rfl, by simp, fun rest' hstop => readFraction_of_noFraction hstop⟩

theorem cuts_readUnsigned (negative : Bool) : Cuts (readUnsigned negative) EndsNumber := by
  intro cs n rest h
  obtain ⟨ds, more, hread, rfl, hds⟩ := exists_readDigits cs
  unfold readUnsigned at h
  rw [hread] at h
  dsimp only at h
  split at h
  · cases h
  · rename_i hne
    obtain ⟨⟨f, more₁⟩, hfraction, h⟩ := Option.bind_eq_some_iff.1 h
    obtain ⟨⟨e, more₂⟩, hexponent, h⟩ := Option.bind_eq_some_iff.1 h
    cases h
    obtain ⟨fs, rfl, hpoint, hfs⟩ := cuts_readFraction hfraction
    obtain ⟨es, rfl, hletter, hes⟩ := cuts_readExponent hexponent
    refine ⟨ds ++ (fs ++ es), by simp, fun rest' hstop => ?_⟩
    -- A point, a letter and what ends a number are no digits, and the last two are no points.
    have hexponent' : NoFraction (es ++ rest') := by
      refine forall_head?_append (fun c hc => ?_) fun c hc => ⟨(hstop c hc).1, (hstop c hc).2.1⟩
      rcases hletter c hc with rfl | rfl <;> decide
    have hfraction' : NoDigit (fs ++ (es ++ rest')) := by
      refine forall_head?_append (fun c hc => ?_) fun c hc => (hexponent' c hc).1
      rw [hpoint c hc]
      decide
    rw [List.append_assoc, List.append_assoc, readUnsigned, readDigits_append hds hfraction']
    dsimp only
    rw [if_neg hne, hfs _ hexponent', Option.bind_eq_bind, Option.bind_some, hes _ hstop]
    rfl

theorem isDigit_of_readUnsigned {negative : Bool} {cs rest : List Char} {n : Numeral}
    (h : readUnsigned negative cs = some (n, rest)) : ∃ d ds, cs = d :: ds ∧ d.isDigit := by
  cases cs with
  | nil => cases h
  | cons d ds =>
    refine ⟨d, ds, rfl, ?_⟩
    cases hd : d.isDigit with
    | true => rfl
    | false => simp [readUnsigned, readDigits, hd] at h

theorem cuts_readNumeral : Cuts readNumeral EndsNumber := by
  intro cs n rest h
  unfold readNumeral at h
  split at h
  · obtain ⟨ds, rfl, hds⟩ := cuts_readUnsigned _ _ _ _ h
    exact ⟨'-' :: ds, rfl, fun rest' hstop => hds rest' hstop⟩
  · obtain ⟨ds, rfl, hds⟩ := cuts_readUnsigned _ _ _ _ h
    refine ⟨ds, rfl, fun rest' hstop => ?_⟩
    have hread := hds rest' hstop
    obtain ⟨d, more, hd, hdigit⟩ := isDigit_of_readUnsigned hread
    rw [hd] at hread ⊢
    unfold readNumeral
    split
    · rename_i heq
      rw [(List.cons.inj heq).1] at hdigit
      exact absurd hdigit (by decide)
    · exact hread

/-- A number starts with a sign or a digit. -/
theorem startsNumber_of_readNumeral {cs rest : List Char} {n : Numeral}
    (h : readNumeral cs = some (n, rest)) : ∃ c more, cs = c :: more ∧ StartsNumber c := by
  unfold readNumeral at h
  split at h
  · exact ⟨'-', _, rfl, .inl rfl⟩
  · obtain ⟨d, ds, rfl, hd⟩ := isDigit_of_readUnsigned h
    exact ⟨d, ds, rfl, .inr hd⟩

/-! ## Strings end at their quote -/

/-- A front that reads as one piece is cut off with what is cut off behind it. -/
theorem exists_cut_of_piece (front : List Char) {more rest : List Char} {piece : StringPiece}
    {pieces : List StringPiece}
    (hfront : ∀ rest', readPieces (front ++ rest') =
      (readPieces rest').map fun r => (piece :: r.1, r.2))
    (hmore : ∀ pieces, readPieces more = some (pieces, rest) →
      ∃ ds, more = ds ++ rest ∧ ∀ rest', readPieces (ds ++ rest') = some (pieces, rest'))
    (h : ((readPieces more).map fun r => (piece :: r.1, r.2)) = some (pieces, rest)) :
    ∃ ds, front ++ more = ds ++ rest ∧
      ∀ rest', readPieces (ds ++ rest') = some (pieces, rest') := by
  obtain ⟨r, hr, hpair⟩ := Option.map_eq_some_iff.1 h
  cases hpair
  obtain ⟨ds, rfl, hds⟩ := hmore _ hr
  refine ⟨front ++ ds, by simp, fun rest' => ?_⟩
  rw [List.append_assoc, hfront, hds]
  rfl

theorem cuts_readPieces {cs rest : List Char} {pieces : List StringPiece}
    (h : readPieces cs = some (pieces, rest)) :
    ∃ ds, cs = ds ++ rest ∧ ∀ rest', readPieces (ds ++ rest') = some (pieces, rest') := by
  fun_induction readPieces cs generalizing pieces with
  | case1 | case3 | case5 | case7 => cases h
  | case2 =>
    cases h
    exact ⟨['"'], rfl, fun rest' => rfl⟩
  | case4 a b c d more n hn ih =>
    refine exists_cut_of_piece ['\\', 'u', a, b, c, d] (fun rest' => ?_)
      (fun _ => ih) h
    simp [readPieces, hn]
  | case6 c more hc c' hletter ih =>
    refine exists_cut_of_piece ['\\', c] (fun rest' => ?_) (fun _ => ih) h
    have hu : c ≠ 'u' := by
      rintro rfl
      cases hletter
    simp [readPieces, hletter, hu]
  | case8 c more hquote hunit hletter hlow ih =>
    by_cases hslash : c = '\\'
    · -- A backslash at the end is followed by no quote.
      cases more with
      | nil => cases h
      | cons d more => exact (hletter d more hslash rfl).elim
    · exact exists_cut_of_piece [c] (readPieces_cons hquote hslash hlow) (fun _ => ih) h

/-- A string ends at its quote, whatever follows. -/
theorem cuts_readText {cs rest : List Char} {s : Option String}
    (h : readText cs = some (s, rest)) :
    ∃ ds, cs = ds ++ rest ∧ ∀ rest', readText (ds ++ rest') = some (s, rest') := by
  obtain ⟨r, hr, hpair⟩ := Option.map_eq_some_iff.1 h
  cases hpair
  obtain ⟨ds, rfl, hds⟩ := cuts_readPieces hr
  refine ⟨ds, rfl, fun rest' => ?_⟩
  rw [readText, hds]
  rfl

/-! ## What writes a document is read as it -/

/-- A text that writes a number or a string reads as it in front of other texts, too. -/
theorem readNumeral_append {cs rest : List Char} {n : Numeral}
    (h : readNumeral cs = some (n, [])) (hrest : EndsNumber rest) :
    readNumeral (cs ++ rest) = some (n, rest) := by
  obtain ⟨ds, rfl, hds⟩ := cuts_readNumeral _ _ _ h
  rw [List.append_nil]
  exact hds rest hrest

theorem readText_append {cs : List Char} {s : Option String} (h : readText cs = some (s, []))
    (rest : List Char) : readText (cs ++ rest) = some (s, rest) := by
  obtain ⟨ds, rfl, hds⟩ := cuts_readText h
  rw [List.append_nil]
  exact hds rest

/-- The first character of a phrase behind its blanks: a document closes nothing, and members start
with the quote of a name. -/
theorem Writes.skipSpace_append {x : Phrase} {cs : List Char} (h : Writes x cs)
    (rest : List Char) : ∃ c more, skipSpace (cs ++ rest) = c :: more ∧
      match x with
      | .value _ => cs ++ rest = c :: more ∧ isSpace c = false ∧ c ≠ ']' ∧ c ≠ '}'
      | .items _ => c ≠ ']'
      | .members _ => c = '"' := by
  have hmark : ∀ {c : Char} {more : List Char}, isSpace c = false ∧ c ≠ ']' ∧ c ≠ '}' →
      ∃ c' more', skipSpace (c :: more) = c' :: more' ∧ c :: more = c' :: more' ∧
        isSpace c' = false ∧ c' ≠ ']' ∧ c' ≠ '}' :=
    fun hc => ⟨_, _, skipSpace_cons hc.1 _, rfl, hc⟩
  induction h generalizing rest with
  | null | yes | no | string | noItems | array | noMembers | object => exact hmark (by decide)
  | number h =>
    obtain ⟨c, more, rfl, hc⟩ := startsNumber_of_readNumeral h
    exact hmark ⟨hc.isSpace, hc.ne (by decide) (by decide), hc.ne (by decide) (by decide)⟩
  | item hb h hb' ih =>
    obtain ⟨c, more, hskip, -, -, hc, -⟩ := ih (_ ++ rest)
    refine ⟨c, more, ?_, hc⟩
    rw [List.append_assoc, List.append_assoc, Json.skipSpace_append hb, hskip]
  | items hb h hb' hmore ih =>
    obtain ⟨c, more, hskip, -, -, hc, -⟩ := ih _
    refine ⟨c, more, ?_, hc⟩
    rw [List.append_assoc, List.append_assoc, Json.skipSpace_append hb, hskip]
  | member hb | members hb =>
    rw [List.append_assoc, Json.skipSpace_append hb]
    exact ⟨'"', _, skipSpace_cons (by decide) _, rfl⟩

/-- What is read where a phrase stands in front of a text that it ends before. -/
def Phrase.ReadAt (n : Nat) (cs rest : List Char) : Phrase → Prop
  | .value j => cs.length < n → EndsNumber rest → readValue n (cs ++ rest) = some (j, rest)
  | .items js => cs.length + 1 < n → readItems n (cs ++ ']' :: rest) = some (js, rest)
  | .members ms => cs.length + 1 < n → readMembers n (cs ++ '}' :: rest) = some (ms, rest)

/-- A phrase is read with more steps than its text has characters. -/
theorem Writes.readAt {x : Phrase} {cs : List Char} (h : Writes x cs) :
    ∀ n rest, x.ReadAt (n + 1) cs rest := by
  induction h with
  | null | yes | no =>
    intro n rest _ _
    simp (disch := decide) [readValue, skipSpace_cons, dropWord?]
  | number h =>
    intro n rest _ hrest
    have hread := readNumeral_append h hrest
    obtain ⟨c, more, rfl, hc⟩ := startsNumber_of_readNumeral h
    rw [List.cons_append] at hread ⊢
    rw [readValue_of_startsNumber hc, hread, Option.map_some]
  | string h =>
    intro n rest _ _
    simp (disch := decide) [readValue, skipSpace_cons, readText_append h]
  | noItems hb | noMembers hb =>
    intro n rest _ _
    simp (disch := decide) [readValue, skipSpace_cons, Json.skipSpace_append hb]
  | @array js cs h ih =>
    intro n rest hn _
    simp only [List.length_cons, List.length_append, List.length_nil] at hn
    obtain ⟨n, rfl⟩ : ∃ m, n = m + 1 := ⟨n - 1, by omega⟩
    obtain ⟨c, more, hskip, hc⟩ := h.skipSpace_append (']' :: rest)
    have hitems : readItems (n + 1) (cs ++ ']' :: rest) = some (js, rest) := ih n rest (by omega)
    rw [List.cons_append, List.append_assoc, List.singleton_append, readValue,
      skipSpace_cons (by decide)]
    simp [hskip, hc, hitems]
  | @object ms cs h ih =>
    intro n rest hn _
    simp only [List.length_cons, List.length_append, List.length_nil] at hn
    obtain ⟨n, rfl⟩ : ∃ m, n = m + 1 := ⟨n - 1, by omega⟩
    obtain ⟨c, more, hskip, rfl⟩ := h.skipSpace_append ('}' :: rest)
    have hmembers : readMembers (n + 1) (cs ++ '}' :: rest) = some (ms, rest) :=
      ih n rest (by omega)
    rw [List.cons_append, List.append_assoc, List.singleton_append, readValue,
      skipSpace_cons (by decide)]
    simp [hskip, hmembers]
  | @item j b cs b' hb h hb' ih =>
    intro n rest hn
    simp only [List.length_append] at hn
    obtain ⟨n, rfl⟩ : ∃ m, n = m + 1 := ⟨n - 1, by omega⟩
    have hread : readValue (n + 1) (cs ++ (b' ++ ']' :: rest)) = some (j, b' ++ ']' :: rest) :=
      ih n _ (by omega) (endsNumber_append hb' (endsNumber_cons (by decide) rest))
    rw [List.append_assoc, List.append_assoc, readItems, readValue_append hb, hread]
    simp (disch := decide) [Json.skipSpace_append hb', skipSpace_cons]
  | @items j js b cs b' ds hb h hb' hmore ih ihmore =>
    intro n rest hn
    simp only [List.length_append, List.length_cons] at hn
    obtain ⟨n, rfl⟩ : ∃ m, n = m + 1 := ⟨n - 1, by omega⟩
    have hread := ih n (b' ++ ',' :: (ds ++ ']' :: rest)) (by omega)
      (endsNumber_append hb' (endsNumber_cons (by decide) _))
    have hitems : readItems (n + 1) (ds ++ ']' :: rest) = some (js, rest) :=
      ihmore n rest (by omega)
    simp only [List.append_assoc, List.cons_append]
    rw [readItems, readValue_append hb, hread]
    simp (disch := decide) [Json.skipSpace_append hb', skipSpace_cons, hitems]
  | @member k j b ks b₁ b₂ cs b' hb hk hb₁ hb₂ h hb' ih =>
    intro n rest hn
    simp only [List.length_append, List.length_cons] at hn
    obtain ⟨n, rfl⟩ : ∃ m, n = m + 1 := ⟨n - 1, by omega⟩
    have hread := ih n (b' ++ '}' :: rest) (by omega)
      (endsNumber_append hb' (endsNumber_cons (by decide) rest))
    simp only [List.append_assoc, List.cons_append]
    rw [readMembers, Json.skipSpace_append hb, skipSpace_cons (by decide)]
    simp (disch := decide) [readText_append hk, Json.skipSpace_append hb₁, skipSpace_cons,
      readValue_append hb₂, hread, Json.skipSpace_append hb']
  | @members k j ms b ks b₁ b₂ cs b' ds hb hk hb₁ hb₂ h hb' hmore ih ihmore =>
    intro n rest hn
    simp only [List.length_append, List.length_cons] at hn
    obtain ⟨n, rfl⟩ : ∃ m, n = m + 1 := ⟨n - 1, by omega⟩
    have hread := ih n (b' ++ ',' :: (ds ++ '}' :: rest)) (by omega)
      (endsNumber_append hb' (endsNumber_cons (by decide) _))
    have hmembers : readMembers (n + 1) (ds ++ '}' :: rest) = some (ms, rest) :=
      ihmore n rest (by omega)
    simp only [List.append_assoc, List.cons_append]
    rw [readMembers, Json.skipSpace_append hb, skipSpace_cons (by decide)]
    simp (disch := decide) [readText_append hk, Json.skipSpace_append hb₁, skipSpace_cons,
      readValue_append hb₂, hread, Json.skipSpace_append hb', hmembers]

/-! ## What is read was written -/

theorem exists_skipSpace (cs : List Char) : ∃ b, Blank b ∧ cs = b ++ skipSpace cs :=
  ⟨cs.takeWhile isSpace, fun _ hc => List.all_eq_true.1 List.all_takeWhile _ hc,
    List.takeWhile_append_dropWhile.symm⟩

/-- A document that is read where a word stands is written as the word. -/
theorem of_map_dropWord? {word cs rest : List Char} {j j' : Json}
    (h : ((dropWord? word cs).map fun r => (j, r)) = some (j', rest)) :
    j = j' ∧ cs = word ++ rest := by
  obtain ⟨rest', hword, hpair⟩ := Option.map_eq_some_iff.1 h
  cases hpair
  refine ⟨rfl, ?_⟩
  unfold dropWord? at hword
  split at hword
  · rename_i hfront
    obtain ⟨more, rfl⟩ := List.isPrefixOf_iff_prefix.1 hfront
    rw [List.drop_left] at hword
    rw [Option.some.inj hword]
  · cases hword

/-- A document that is read with some steps is written at the front of the text, behind blanks. -/
def ValueWritten (n : Nat) : Prop := ∀ cs j rest, readValue n cs = some (j, rest) →
  ∃ b ds, cs = b ++ (ds ++ rest) ∧ Blank b ∧ Writes (.value j) ds

/-- Items that are read with some steps are written in front of a closing bracket. -/
def ItemsWritten (n : Nat) : Prop := ∀ cs js rest, readItems n cs = some (js, rest) →
  ∃ ds, cs = ds ++ ']' :: rest ∧ Writes (.items js) ds

/-- Members that are read with some steps are written in front of a closing brace. -/
def MembersWritten (n : Nat) : Prop := ∀ cs ms rest, readMembers n cs = some (ms, rest) →
  ∃ ds, cs = ds ++ '}' :: rest ∧ Writes (.members ms) ds

theorem valueWritten_succ {n : Nat} (hitems : ItemsWritten n) (hmembers : MembersWritten n) :
    ValueWritten (n + 1) := by
  intro cs j rest h
  obtain ⟨b, hb, hcs⟩ := exists_skipSpace cs
  suffices hfront : ∃ ds, skipSpace cs = ds ++ rest ∧ Writes (.value j) ds by
    obtain ⟨ds, hds, hj⟩ := hfront
    exact ⟨b, ds, by rw [← hds]; exact hcs, hb, hj⟩
  rw [readValue] at h
  split at h
  · rename_i more heq
    rw [heq]
    obtain ⟨b', hb', hmore⟩ := exists_skipSpace more
    split at h
    · rename_i heq'
      cases h
      exact ⟨_, by rw [hmore, heq']; simp, .noMembers hb'⟩
    · obtain ⟨⟨ms, rest'⟩, hread, hpair⟩ := Option.map_eq_some_iff.1 h
      cases hpair
      obtain ⟨ds, rfl, hms⟩ := hmembers _ _ _ hread
      exact ⟨_, by simp, .object hms⟩
  · rename_i more heq
    rw [heq]
    obtain ⟨b', hb', hmore⟩ := exists_skipSpace more
    split at h
    · rename_i heq'
      cases h
      exact ⟨_, by rw [hmore, heq']; simp, .noItems hb'⟩
    · obtain ⟨⟨js, rest'⟩, hread, hpair⟩ := Option.map_eq_some_iff.1 h
      cases hpair
      obtain ⟨ds, rfl, hjs⟩ := hitems _ _ _ hread
      exact ⟨_, by simp, .array hjs⟩
  · rename_i heq
    rw [heq]
    obtain ⟨⟨s, rest'⟩, hread, hpair⟩ := Option.map_eq_some_iff.1 h
    cases hpair
    obtain ⟨ds, rfl, hds⟩ := cuts_readText hread
    exact ⟨_, rfl, .string (by simpa using hds [])⟩
  · rename_i heq
    obtain ⟨rfl, rfl⟩ := of_map_dropWord? h
    exact ⟨_, heq, .null⟩
  · rename_i heq
    obtain ⟨rfl, rfl⟩ := of_map_dropWord? h
    exact ⟨_, heq, .yes⟩
  · rename_i heq
    obtain ⟨rfl, rfl⟩ := of_map_dropWord? h
    exact ⟨_, heq, .no⟩
  · obtain ⟨⟨m, rest'⟩, hread, hpair⟩ := Option.map_eq_some_iff.1 h
    cases hpair
    obtain ⟨ds, hds, hall⟩ := cuts_readNumeral _ _ _ hread
    exact ⟨ds, hds, .number (by simpa using hall [] endsNumber_nil)⟩

theorem itemsWritten_succ {n : Nat} (hvalue : ValueWritten n) (hitems : ItemsWritten n) :
    ItemsWritten (n + 1) := by
  intro cs js rest h
  rw [readItems] at h
  obtain ⟨⟨j, more⟩, hread, hmark⟩ := Option.bind_eq_some_iff.1 h
  obtain ⟨b, ds, rfl, hb, hj⟩ := hvalue _ _ _ hread
  obtain ⟨b', hb', hmore⟩ := exists_skipSpace more
  dsimp only at hmark
  split at hmark
  · rename_i heq
    obtain ⟨⟨js', rest'⟩, hread', hpair⟩ := Option.bind_eq_some_iff.1 hmark
    cases hpair
    obtain ⟨es, rfl, hjs⟩ := hitems _ _ _ hread'
    exact ⟨_, by rw [hmore, heq]; simp, .items hb hj hb' hjs⟩
  · rename_i heq
    cases hmark
    exact ⟨_, by rw [hmore, heq]; simp, .item hb hj hb'⟩
  · cases hmark

theorem membersWritten_succ {n : Nat} (hvalue : ValueWritten n) (hmembers : MembersWritten n) :
    MembersWritten (n + 1) := by
  intro cs ms rest h
  obtain ⟨b, hb, hcs⟩ := exists_skipSpace cs
  rw [readMembers] at h
  split at h
  · rename_i more heq
    rw [heq] at hcs
    obtain ⟨⟨k, more₁⟩, hk, hcolon⟩ := Option.bind_eq_some_iff.1 h
    obtain ⟨ks, rfl, hks⟩ := cuts_readText hk
    have hname : readText ks = some (k, []) := by simpa using hks []
    obtain ⟨b₁, hb₁, hmore₁⟩ := exists_skipSpace more₁
    dsimp only at hcolon
    split at hcolon
    · rename_i more₂ heq₁
      rw [heq₁] at hmore₁
      obtain ⟨⟨j, more₃⟩, hread, hmark⟩ := Option.bind_eq_some_iff.1 hcolon
      obtain ⟨b₂, ds, rfl, hb₂, hj⟩ := hvalue _ _ _ hread
      obtain ⟨b', hb', hmore₃⟩ := exists_skipSpace more₃
      dsimp only at hmark
      split at hmark
      · rename_i heq₃
        obtain ⟨⟨ms', rest'⟩, hread', hpair⟩ := Option.bind_eq_some_iff.1 hmark
        cases hpair
        obtain ⟨es, rfl, hms⟩ := hmembers _ _ _ hread'
        refine ⟨_, ?_, .members hb hname hb₁ hb₂ hj hb' hms⟩
        rw [hcs, hmore₁, hmore₃, heq₃]
        simp
      · rename_i heq₃
        cases hmark
        refine ⟨_, ?_, .member hb hname hb₁ hb₂ hj hb'⟩
        rw [hcs, hmore₁, hmore₃, heq₃]
        simp
      · cases hmark
    · cases hcolon
  · cases h

/-- What is read with any number of steps was written. -/
theorem written (n : Nat) : ValueWritten n ∧ ItemsWritten n ∧ MembersWritten n := by
  induction n with
  | zero => exact ⟨nofun, nofun, nofun⟩
  | succ n ih =>
    obtain ⟨hvalue, hitems, hmembers⟩ := ih
    exact ⟨valueWritten_succ hitems hmembers, itemsWritten_succ hvalue hitems,
      membersWritten_succ hvalue hmembers⟩

/-- The reader accepts the texts that write a document, and no others. -/
theorem parseChars_eq_some_iff {cs : List Char} {j : Json} :
    parseChars cs = some j ↔ IsTextOf j cs := by
  constructor
  · intro h
    obtain ⟨⟨j', rest⟩, hread, hend⟩ := Option.bind_eq_some_iff.1 h
    obtain ⟨b, ds, rfl, hb, hj⟩ := (written _).1 _ _ _ hread
    dsimp only at hend
    split at hend
    · rename_i hempty
      cases hend
      obtain ⟨b', hb', hrest⟩ := exists_skipSpace rest
      rw [List.isEmpty_iff.1 hempty, List.append_nil] at hrest
      exact ⟨b, ds, rest, rfl, hb, hj, hrest ▸ hb'⟩
    · cases hend
  · rintro ⟨b, ds, b', rfl, hb, hj, hb'⟩
    have hends : EndsNumber b' := by
      simpa using endsNumber_append hb' endsNumber_nil
    have hread : readValue ((b ++ (ds ++ b')).length + 1) (ds ++ b') = some (j, b') :=
      hj.readAt _ b' (by simp only [List.length_append]; omega) hends
    have hskip : skipSpace b' = [] := by
      rw [← List.append_nil b', Json.skipSpace_append hb']
      rfl
    rw [parseChars, readValue_append hb, hread]
    simp [hskip]

end ClusterFirewall.Json
