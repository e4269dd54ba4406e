import ClusterFirewall.Json.Stored
import ClusterFirewall.Proofs.Json.Literals
import ClusterFirewall.Proofs.SortedMap

/-!
# Documents on one line

The compact text of a document has no control characters, whatever strings the document holds, and
so it stands on one line. Main statements: `compactChars_printable` and, on what a stored document
stays the same as, `stored?_record`.
-/

namespace ClusterFirewall.Json

/-! ## Characters of compact texts -/

/-- The character is no control character below the blank. -/
def Printable (c : Char) : Prop := 0x20 ≤ c.toNat

instance : DecidablePred Printable := fun c => inferInstanceAs (Decidable (0x20 ≤ c.toNat))

/-- The characters of a word, checked one after the other. -/
theorem printable_of_all {cs : List Char} (h : cs.all fun c => decide (Printable c)) :
    ∀ c ∈ cs, Printable c := by
  simpa using h

theorem printable_of_isDigit {c : Char} (h : c.isDigit) : Printable c := by
  have hzero : '0'.toNat = 48 := rfl
  have hdigit := Char.isDigit_iff_toNat.1 h
  unfold Printable
  omega

theorem printable_toDigits (n : Nat) : ∀ c ∈ Nat.toDigits 10 n, Printable c :=
  fun c hc => printable_of_isDigit (isDigit_toDigits n c hc)

theorem printable_fractionChars (ds : List (Fin 10)) : ∀ c ∈ fractionChars ds, Printable c := by
  cases ds with
  | nil => nofun
  | cons d ds =>
    rw [fractionChars, List.forall_mem_cons, List.forall_mem_map]
    exact ⟨by decide, fun d' _ => printable_of_isDigit (isDigit_digitChar d')⟩

theorem printable_exponentChars (e : Option Int) : ∀ c ∈ exponentChars e, Printable c := by
  match e with
  | none => nofun
  | some (.ofNat n) =>
    simp only [exponentChars, List.forall_mem_cons]
    exact ⟨by decide, by decide, printable_toDigits n⟩
  | some (.negSucc n) =>
    simp only [exponentChars, List.forall_mem_cons]
    exact ⟨by decide, by decide, printable_toDigits (n + 1)⟩

theorem printable_numeralChars (n : Numeral) : ∀ c ∈ n.chars, Printable c := by
  have hsign : ∀ c ∈ if n.negative then ['-'] else [], Printable c := by
    split <;> exact printable_of_all rfl
  simp only [Numeral.chars, List.forall_mem_append]
  exact ⟨⟨⟨hsign, printable_toDigits _⟩, printable_fractionChars _⟩, printable_exponentChars _⟩

/-- A control character has an escape of its own. -/
theorem printable_escape (c : Char) : ∀ d ∈ escape c, Printable d := by
  have hhex : ∀ n : Fin 32,
      Printable (hexChar (n.val / 16)) ∧ Printable (hexChar (n.val % 16)) := by
    decide
  unfold escape
  split_ifs with _ _ _ _ _ _ _ hcontrol
  iterate 7 exact printable_of_all rfl
  · simp only [List.forall_mem_cons]
    obtain ⟨hfirst, hsecond⟩ := hhex ⟨c.toNat, hcontrol⟩
    exact ⟨by decide, by decide, by decide, by decide, hfirst, hsecond, nofun⟩
  · exact List.forall_mem_singleton.2 (Nat.le_of_not_lt hcontrol)

theorem printable_stringChars (s : Option String) : ∀ c ∈ stringChars s, Printable c := by
  cases s with
  | none => exact printable_of_all rfl
  | some s =>
    simp only [stringChars, List.forall_mem_append, List.forall_mem_cons, List.forall_mem_flatMap]
    exact ⟨⟨by decide, fun c _ => printable_escape c⟩, by decide, nofun⟩

mutual

/-- The compact text of a document has no control characters. -/
theorem compactChars_printable : ∀ j : Json, ∀ c ∈ compactChars j, Printable c
  | .null => printable_of_all rfl
  | .bool true => printable_of_all rfl
  | .bool false => printable_of_all rfl
  | .number n => printable_numeralChars n
  | .string s => printable_stringChars s
  | .array items => by
    simp only [compactChars, List.forall_mem_append, List.forall_mem_cons]
    exact ⟨⟨by decide, compactItems_printable items⟩, by decide, nofun⟩
  | .object members => by
    simp only [compactChars, List.forall_mem_append, List.forall_mem_cons]
    exact ⟨⟨by decide, compactMembers_printable members⟩, by decide, nofun⟩

theorem compactItems_printable : ∀ items : List Json, ∀ c ∈ compactItems items, Printable c
  | [] => nofun
  | [j] => compactChars_printable j
  | j :: j' :: rest => by
    simp only [compactItems, List.forall_mem_append, List.forall_mem_cons]
    exact ⟨compactChars_printable j, by decide, compactItems_printable (j' :: rest)⟩

theorem compactMembers_printable :
    ∀ members : List (Option String × Json), ∀ c ∈ compactMembers members, Printable c
  | [] => nofun
  | [(k, j)] => by
    simp only [compactMembers, List.forall_mem_append, List.forall_mem_cons]
    exact ⟨printable_stringChars k, by decide, compactChars_printable j⟩
  | (k, j) :: m :: rest => by
    simp only [compactMembers, List.forall_mem_append, List.forall_mem_cons]
    exact ⟨⟨printable_stringChars k, by decide, compactChars_printable j⟩, by decide,
      compactMembers_printable (m :: rest)⟩

end

/-! ## Documents that are stored as they are -/

theorem stored?_nat {n : Nat} (h : n < UInt64.size) (limit : Nat) :
    (nat n).stored? limit = some (nat n) := by
  simp [nat, stored?, Numeral.stored?, h]

theorem stored?_str (s : String) (limit : Nat) : (str s).stored? limit = some (str s) := by
  simp [str, stored?]

/-- A record of stored values stays as it is if its members are in the order of their names. -/
theorem stored?_record {limit : Nat} {members : List (String × Json)}
    (hsorted : (members.map (·.1)).Pairwise fun a b => compare a b = .lt)
    (hvalues : ∀ m ∈ members, m.2.stored? limit = some m.2) :
    (record members).stored? (limit + 1) = some (record members) := by
  have hmembers : storedMembers? limit (members.map fun m => (some m.1, m.2)) = some members := by
    clear hsorted
    induction members with
    | nil => rfl
    | cons m members ih =>
      obtain ⟨hm, hrest⟩ := List.forall_mem_cons.1 hvalues
      simp [storedMembers?, hm, ih hrest]
  have hentries : (SortedMap.ofList members).entries = members :=
    congrArg SortedMap.entries (SortedMap.ofList_entries ⟨members, List.pairwise_map.1 hsorted⟩)
  rw [record, stored?, hmembers, Option.map_some, hentries]

end ClusterFirewall.Json
