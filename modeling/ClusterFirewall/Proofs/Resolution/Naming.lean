import ClusterFirewall.Proofs.Digest.Hex
import ClusterFirewall.Proofs.Policy.Acceptance
import ClusterFirewall.Resolution.Cache

/-!
# The names of generated sets

The set of an unknown selector is named by the first bytes of a digest. What is digested is the name
and the pattern of the selector with a bar between them. Nothing keeps a bar out of a name or a
pattern, so the bar in the middle can be taken for another one. Of two selectors that validation
accepts, this happens only to a name that starts with a bar and the pattern in which the same bar
stands at the end.

- **Joining**: `SelectorKey.digestInput_eq_iff`, for all keys.
- **Accepted selectors**: `Selector.freshSetName_eq_iff` and the pair
  `Selector.freshSetName_eq_of_bars`.
-/

namespace ClusterFirewall

/-! ## Joining -/

theorem append_cons_eq_append_cons_iff {α : Type} {as bs as' bs' : List α} {sep : α} :
    as ++ sep :: bs = as' ++ sep :: bs' ↔
      (as = as' ∧ bs = bs') ∨
        (∃ middle, as' = as ++ sep :: middle ∧ bs = middle ++ sep :: bs') ∨
        ∃ middle, as = as' ++ sep :: middle ∧ bs' = middle ++ sep :: bs := by
  constructor
  · intro h
    -- One of the starts is longer; what it has more is empty or starts with the separator.
    rcases List.append_eq_append_iff.1 h with ⟨middle, has, hbs⟩ | ⟨middle, has, hbs⟩
    all_goals
      cases middle with
      | nil => simp_all
      | cons c middle => simp_all
  · rintro (⟨rfl, rfl⟩ | ⟨middle, rfl, rfl⟩ | ⟨middle, rfl, rfl⟩) <;> simp

namespace SelectorKey

variable {k k' : SelectorKey}

/-- The bar after the name of the first key is a bar in the name of the second one, so that the end
of this name is the start of the first key's pattern. -/
def Shifts (k k' : SelectorKey) : Prop :=
  ∃ middle, k'.matchName = k.matchName ++ "|" ++ middle ∧
    k.matchPattern = middle ++ "|" ++ k'.matchPattern

/-- The text whose bytes are digested. -/
def joined (k : SelectorKey) : String := k.matchName ++ "|" ++ k.matchPattern

theorem digestInput_eq_joined (k : SelectorKey) : k.digestInput = k.joined.toUTF8.toList := by
  simp [digestInput, joined, Sha256.toList_bytes, String.toUTF8]

theorem toList_joined (k : SelectorKey) :
    k.joined.toList = k.matchName.toList ++ '|' :: k.matchPattern.toList := by
  simp [joined]

theorem shifts_iff : k.Shifts k' ↔
    ∃ middle, k'.matchName.toList = k.matchName.toList ++ '|' :: middle ∧
      k.matchPattern.toList = middle ++ '|' :: k'.matchPattern.toList := by
  simp only [Shifts, ← String.toList_inj]
  constructor
  · rintro ⟨middle, hname, hpattern⟩
    exact ⟨middle.toList, by simpa using hname, by simpa using hpattern⟩
  · rintro ⟨middle, hname, hpattern⟩
    exact ⟨String.ofList middle, by simpa using hname, by simpa using hpattern⟩

theorem eq_iff_toList : k = k' ↔ k.matchName.toList = k'.matchName.toList ∧
    k.matchPattern.toList = k'.matchPattern.toList := by
  rw [String.toList_inj, String.toList_inj]
  cases k
  cases k'
  simp

theorem joined_eq_iff : k.joined = k'.joined ↔ k = k' ∨ k.Shifts k' ∨ k'.Shifts k := by
  rw [← String.toList_inj, toList_joined, toList_joined, append_cons_eq_append_cons_iff,
    eq_iff_toList, shifts_iff, shifts_iff]

/-- The bytes that two keys give are the same exactly if the keys differ at most in which bar is
taken for the one in the middle. -/
theorem digestInput_eq_iff :
    k.digestInput = k'.digestInput ↔ k = k' ∨ k.Shifts k' ∨ k'.Shifts k := by
  rw [← joined_eq_iff, digestInput_eq_joined, digestInput_eq_joined]
  exact ⟨Sha256.toUTF8_toList_inj, congrArg fun text : String => text.toUTF8.toList⟩

theorem freshSetName_eq_iff_take : k.freshSetName = k'.freshSetName ↔
    (Sha256.digest k.digestInput).take 6 = (Sha256.digest k'.digestInput).take 6 := by
  constructor
  · intro h
    -- Both names start in the same way, and the digits after that say which bytes they stand for.
    have hchars := congrArg String.toList h
    simp only [freshSetName, String.toList_append, String.toList_ofList,
      List.append_cancel_left_eq] at hchars
    exact Sha256.hexChars_inj hchars
  · intro h
    simp only [freshSetName, h]

/-- The first key is of a name that starts with a bar, and the second one is of the pattern in which
this bar stands at the end. -/
def Twins (k k' : SelectorKey) : Prop :=
  ∃ middle, k = ⟨"|" ++ middle, ""⟩ ∧ k' = ⟨"", middle ++ "|"⟩

theorem Twins.head? (h : k.Twins k') : k.matchName.toList.head? = some '|' := by
  obtain ⟨middle, rfl, -⟩ := h
  simp

end SelectorKey

/-! ## Accepted selectors -/

/-- Different messages whose digests start with the same bytes. -/
def Sha256.ShortCollision (count : Nat) (message message' : List UInt8) : Prop :=
  message ≠ message' ∧ (digest message).take count = (digest message').take count

namespace Selector

variable {s s' : Selector}

/-- A bar can only be shifted between an empty name and an empty pattern. -/
theorem shifts_iff_twins (h : s.IsSingle) (h' : s'.IsSingle) :
    s.key.Shifts s'.key ↔ s'.key.Twins s.key := by
  constructor
  · rintro ⟨middle, hname, hpattern⟩
    -- The pattern and the name that hold the bar are not empty, so that their other halves are.
    have hs : s.matchPattern ≠ "" := by
      intro hempty
      have hchars := congrArg String.toList (hempty.symm.trans hpattern)
      simp at hchars
    have hs' : s'.matchName ≠ "" := by
      intro hempty
      have hchars := congrArg String.toList (hempty.symm.trans hname)
      simp at hchars
    have hnoname : s.matchName = "" := (h.resolve_left fun hn => hs hn.2).1
    have hnopattern : s'.matchPattern = "" := (h'.resolve_right fun hp => hs' hp.1).2
    refine ⟨middle, ?_, ?_⟩
    · simpa [key, hnopattern, hnoname] using hname
    · simpa [key, hnopattern, hnoname] using hpattern
  · rintro ⟨middle, hkey', hkey⟩
    rw [hkey', hkey]
    exact ⟨middle, by simp, by simp⟩

/-- Two selectors that validation accepts give the same bytes exactly if they are a name that starts
with a bar and the pattern with the bar at its end. The names of their sets are the same if that is
so, and else only if the shortened digest has a collision at these bytes. -/
theorem freshSetName_eq_iff {field field' : String} (h : s.violations field = [])
    (h' : s'.violations field' = []) (hne : s.key ≠ s'.key) :
    (s.key.digestInput = s'.key.digestInput ↔ s.key.Twins s'.key ∨ s'.key.Twins s.key) ∧
      (s.key.freshSetName = s'.key.freshSetName ↔
        (s.key.Twins s'.key ∨ s'.key.Twins s.key) ∨
          Sha256.ShortCollision 6 s.key.digestInput s'.key.digestInput) := by
  have hs := violations_eq_nil_iff.1 h
  have hs' := violations_eq_nil_iff.1 h'
  have hinput : s.key.digestInput = s'.key.digestInput ↔
      s.key.Twins s'.key ∨ s'.key.Twins s.key := by
    rw [SelectorKey.digestInput_eq_iff, or_iff_right hne, shifts_iff_twins hs hs',
      shifts_iff_twins hs' hs, or_comm]
  refine ⟨hinput, ?_⟩
  rw [← hinput, SelectorKey.freshSetName_eq_iff_take]
  constructor
  · intro hdigest
    by_cases hsame : s.key.digestInput = s'.key.digestInput
    · exact .inl hsame
    · exact .inr ⟨hsame, hdigest⟩
  · rintro (hsame | ⟨-, hdigest⟩)
    · rw [hsame]
    · exact hdigest

/-- A name and the pattern of the names below it. -/
theorem digestInput_ne_of_subdomains :
    let s := ofName "example.com"
    let s' := ofPattern "*.example.com"
    (s.violations "" = [] ∧ s'.violations "" = [] ∧ s.key ≠ s'.key) ∧
      s.key.digestInput ≠ s'.key.digestInput := by
  intro s s'
  have hvalid : s.violations "" = [] ∧ s'.violations "" = [] ∧ s.key ≠ s'.key := by decide
  obtain ⟨h, h', hne⟩ := hvalid
  refine ⟨⟨h, h', hne⟩, ?_⟩
  rw [Ne, (freshSetName_eq_iff h h' hne).1]
  -- Neither name starts with a bar; the second one is empty.
  rintro (htwins | htwins)
  · exact absurd htwins.head? (by decide)
  · exact absurd htwins.head? (by decide)

/-- A name that starts with a bar and a pattern that ends with one are both accepted. They are
registered under the same name, so that they have a single set between them. -/
theorem freshSetName_eq_of_bars :
    let s := ofName "|example.com"
    let s' := ofPattern "example.com|"
    let c := (ResolutionCache.empty.answer s true).2
    (s.violations "" = [] ∧ s'.violations "" = [] ∧ s.key ≠ s'.key) ∧
      s.key.digestInput = s'.key.digestInput ∧ s.key.freshSetName = s'.key.freshSetName ∧
      (c.answer s' true).1 = [s.key.freshSetName] ∧
      (c.answer s' true).2.declared = [.empty s.key.freshSetName] := by
  intro s s' c
  have hshifts : s'.key.Shifts s.key := ⟨"example.com", by decide, by decide⟩
  have hinput : s.key.digestInput = s'.key.digestInput :=
    SelectorKey.digestInput_eq_iff.2 (.inr (.inr hshifts))
  have hname : s.key.freshSetName = s'.key.freshSetName := by
    rw [SelectorKey.freshSetName_eq_iff_take, hinput]
  exact ⟨by decide, hinput, hname, by decide +kernel, by decide +kernel⟩

end Selector

end ClusterFirewall
