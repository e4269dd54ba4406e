import ClusterFirewall.Text.Split
import ClusterFirewall.Text.Utf8

/-!
# Pieces of texts that were put together

What is joined with a mark or with blanks is cut into the same pieces again, as long as the pieces
themselves do not hold what they are cut at. Main statements: `splitAtEach_append_cons`,
`splitOnce_append` and, for words, `words_intercalate`.
-/

namespace ClusterFirewall.Text

/-! ## Cutting at every mark -/

theorem splitAtEach_append_cons {cut : Char → Bool} {mark : Char} (hmark : cut mark)
    (before after : List Char) : splitAtEach cut (before ++ mark :: after) =
      splitAtEach cut before ++ splitAtEach cut after := by
  induction before with
  | nil => simp [splitAtEach, hmark]
  | cons c before ih =>
    rw [List.cons_append, splitAtEach, splitAtEach, ih]
    by_cases hc : cut c
    · simp [hc]
    · obtain ⟨piece, pieces, hpieces⟩ := List.exists_cons_of_ne_nil (splitAtEach_ne_nil cut before)
      simp [hc, hpieces]

theorem splitAtEach_of_forall {cut : Char → Bool} {cs : List Char} (h : ∀ c ∈ cs, cut c = false) :
    splitAtEach cut cs = [cs] := by
  induction cs with
  | nil => rfl
  | cons c cs ih =>
    obtain ⟨hc, hcs⟩ := List.forall_mem_cons.1 h
    simp [splitAtEach, hc, ih hcs]

theorem cut_eq_false_of_not_mem {mark : Char} {cs : List Char} (h : mark ∉ cs) :
    ∀ c ∈ cs, (c == mark) = false := by
  intro c hc
  rw [beq_eq_false_iff_ne]
  rintro rfl
  exact h hc

theorem splitAtEach_of_not_mem {mark : Char} {cs : List Char} (h : mark ∉ cs) :
    splitAtEach (· == mark) cs = [cs] :=
  splitAtEach_of_forall (cut_eq_false_of_not_mem h)

/-- A character that is not cut at is in one of the pieces. -/
theorem exists_mem_splitAtEach (cut : Char → Bool) {cs : List Char} {c : Char} (hc : c ∈ cs)
    (hcut : cut c = false) : ∃ piece ∈ splitAtEach cut cs, c ∈ piece := by
  have hkept : c ∈ (splitAtEach cut cs).flatten := by
    rw [flatten_splitAtEach]
    exact List.mem_filter.2 ⟨hc, by simp [hcut]⟩
  exact List.mem_flatten.1 hkept

/-! ## Cutting at the first mark -/

theorem splitOnce_append {mark : Char} {before : List Char} (h : mark ∉ before)
    (after : List Char) : splitOnce mark (before ++ mark :: after) = some (before, after) := by
  induction before with
  | nil => simp [splitOnce]
  | cons c before ih =>
    obtain ⟨hc, hbefore⟩ : mark ≠ c ∧ mark ∉ before := by simpa using h
    rw [List.cons_append, splitOnce, if_neg (Ne.symm hc), ih hbefore]
    rfl

theorem of_splitOnce {mark : Char} {cs before after : List Char}
    (h : splitOnce mark cs = some (before, after)) :
    cs = before ++ mark :: after ∧ mark ∉ before := by
  induction cs generalizing before with
  | nil => cases h
  | cons c cs ih =>
    unfold splitOnce at h
    split at h
    · rename_i hc
      obtain ⟨rfl, rfl⟩ := Prod.mk.inj (Option.some.inj h)
      simp [hc]
    · rename_i hc
      obtain ⟨⟨before', after'⟩, hrest, hcut⟩ := Option.map_eq_some_iff.1 h
      obtain ⟨rfl, rfl⟩ := Prod.mk.inj hcut
      obtain ⟨rfl, hbefore⟩ := ih hrest
      exact ⟨rfl, by simp [Ne.symm hc, hbefore]⟩

/-! ## Characters of texts that were joined -/

theorem forall_mem_append {P : Char → Prop} {s t : String} (hs : ∀ c ∈ s.toList, P c)
    (ht : ∀ c ∈ t.toList, P c) : ∀ c ∈ (s ++ t).toList, P c := by
  rw [String.toList_append]
  exact List.forall_mem_append.2 ⟨hs, ht⟩

theorem forall_mem_intercalate {P : Char → Prop} {mark : String} (hmark : ∀ c ∈ mark.toList, P c)
    {texts : List String} (htexts : ∀ t ∈ texts, ∀ c ∈ t.toList, P c) :
    ∀ c ∈ (mark.intercalate texts).toList, P c := by
  induction texts with
  | nil => simp
  | cons t rest ih =>
    obtain ⟨ht, hrest⟩ := List.forall_mem_cons.1 htexts
    cases rest with
    | nil => simpa using ht
    | cons u rest =>
      rw [String.intercalate_cons_cons]
      exact forall_mem_append (forall_mem_append ht hmark) (ih hrest)

/-! ## Words -/

/-- No character of a text is a blank. -/
def HasNoBlank (s : String) : Prop := ∀ c ∈ s.toList, isBlank c = false

instance (s : String) : Decidable (HasNoBlank s) :=
  decidable_of_iff (s.toList.all fun c => !isBlank c) (by simp [HasNoBlank])

/-- A text without blanks that is not empty. -/
structure IsWord (s : String) : Prop where
  ne_empty : s ≠ ""
  no_blank : HasNoBlank s

theorem IsWord.append {s t : String} (hs : IsWord s) (ht : IsWord t) : IsWord (s ++ t) where
  ne_empty := by simp [hs.ne_empty]
  no_blank := forall_mem_append hs.no_blank ht.no_blank

theorem IsWord.words {s : String} (h : IsWord s) : words s = [s] := by
  rw [Text.words, split, splitAtEach_of_forall h.no_blank]
  simp [h.ne_empty]

theorem words_append_blank (s t : String) : words (s ++ " " ++ t) = words s ++ words t := by
  have hsplit : splitAtEach isBlank (s ++ " " ++ t).toList =
      splitAtEach isBlank s.toList ++ splitAtEach isBlank t.toList := by
    rw [String.toList_append, String.toList_append, List.append_assoc]
    exact splitAtEach_append_cons (by decide) s.toList t.toList
  rw [words, words, words, split, split, split, hsplit, List.map_append, List.filter_append]

/-- The words of texts with blanks between them. -/
theorem words_intercalate (texts : List String) :
    words (" ".intercalate texts) = texts.flatMap words := by
  induction texts with
  | nil => rfl
  | cons t rest ih =>
    cases rest with
    | nil => simp
    | cons u rest =>
      rw [String.intercalate_cons_cons, words_append_blank, ih]
      rfl

/-! ## Bytes -/

/-- Bytes are the text that they are written as, and no other bytes are. -/
theorem decode?_eq_some_iff {bytes : ByteArray} {s : String} :
    decode? bytes = some s ↔ bytes = s.toUTF8 := by
  unfold decode? String.fromUTF8?
  constructor
  · intro h
    split at h
    · rw [← Option.some.inj h]
      rfl
    · cases h
  · rintro rfl
    exact dif_pos s.isValidUTF8

end ClusterFirewall.Text
