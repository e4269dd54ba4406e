import ClusterFirewall.Proofs.Json.Alike
import ClusterFirewall.Proofs.Json.Grammar
import ClusterFirewall.Proofs.SortedMap
import ClusterFirewall.Snapshot

/-!
# What snapshot files tolerate

The shape of a snapshot file and of the policies in it: which documents have fields by name, which
are lists and which are read as they stand.
-/

namespace ClusterFirewall

open JsonForm (Shaped)

section Texts

variable {α : Type} [JsonForm α]

/-- A text has the value of the document that it writes. -/
theorem Json.read?_eq_some_iff {text : String} {a : α} :
    read? α text = some a ↔ ∃ j, IsTextOf j text.toList ∧ JsonForm.ofJson? j = some a := by
  simp only [← parseChars_eq_some_iff]
  exact Option.bind_eq_some_iff

/-- Texts of documents that are alike have the same value, or none. -/
theorem Json.read?_eq_of_alike [Shaped α] {text text' : String} {j j' : Json}
    (h : IsTextOf j text.toList) (h' : IsTextOf j' text'.toList) (halike : Alike (shape α) j j') :
    read? α text = read? α text' := by
  have hparse : parse text = some j := parseChars_eq_some_iff.2 h
  have hparse' : parse text' = some j' := parseChars_eq_some_iff.2 h'
  rw [read?, read?, hparse, hparse']
  exact JsonForm.ofJson?_eq_of_alike halike

end Texts

/-! ## Policies -/

instance : Shaped Protocol := ⟨.value, nofun⟩

instance : Shaped PolicyPort where
  shape := .record [("protocol", shape (Option Protocol)), ("port", shape UInt16),
    ("endPort", shape (Option UInt16))]
  ofJson?_change h := by
    refine h.bind_fields?_eq fun r r' hr => ?_
    rw [hr.orElse_eq (α := Option Protocol) rfl, hr.required_eq (α := UInt16) rfl,
      hr.orElse_eq (α := Option UInt16) rfl]

instance : Shaped IpBlock where
  shape := .record [("cidr", shape String), ("except", shape (List String))]
  ofJson?_change h := by
    refine h.bind_fields?_eq fun r r' hr => ?_
    rw [hr.required_eq (α := String) rfl, hr.orElse_eq (α := List String) rfl]

instance : Shaped SetRef where
  shape := .record [("setName", shape String)]
  ofJson?_change h := by
    refine h.bind_fields?_eq fun r r' hr => ?_
    rw [hr.required_eq (α := String) rfl]

instance : Shaped Selector where
  shape := .record [("matchName", shape String), ("matchPattern", shape String),
    ("sets", shape (List SetRef))]
  ofJson?_change h := by
    refine h.bind_fields?_eq fun r r' hr => ?_
    rw [hr.orElse_eq (α := List SetRef) rfl, hr.orElse_eq (α := String) rfl,
      hr.orElse_eq (α := String) rfl]

instance : Shaped IngressRule where
  shape := .record [("from", shape (List IpBlock)), ("ports", shape (List PolicyPort))]
  ofJson?_change h := by
    refine h.bind_fields?_eq fun r r' hr => ?_
    rw [hr.orElse_eq (α := List IpBlock) rfl, hr.orElse_eq (α := List PolicyPort) rfl]

instance : Shaped EgressRule where
  shape := .record [("to", shape (List IpBlock)), ("toFQDNs", shape (List Selector)),
    ("ports", shape (List PolicyPort))]
  ofJson?_change h := by
    refine h.bind_fields?_eq fun r r' hr => ?_
    rw [hr.orElse_eq (α := List IpBlock) rfl, hr.orElse_eq (α := List Selector) rfl,
      hr.orElse_eq (α := List PolicyPort) rfl]

instance : Shaped PolicySpec where
  shape := .record [("ingress", shape (List IngressRule)), ("egress", shape (List EgressRule))]
  ofJson?_change h := by
    refine h.bind_fields?_eq fun r r' hr => ?_
    rw [hr.orElse_eq (α := List IngressRule) rfl, hr.orElse_eq (α := List EgressRule) rfl]

/-! ## Entries -/

/-- A named entry that a document writes. -/
def namedSpec? (m : Option String × Json) : Option (String × PolicySpec) :=
  m.1.bind fun name => (JsonForm.ofJson? m.2).map fun spec => (name, spec)

theorem name_of_namedSpec? {m : Option String × Json} {e : String × PolicySpec}
    (h : namedSpec? m = some e) : m.1 = some e.1 := by
  obtain ⟨name, hname, hspec⟩ := Option.bind_eq_some_iff.1 h
  obtain ⟨spec, -, rfl⟩ := Option.map_eq_some_iff.1 hspec
  exact hname

theorem specsOfJson?_object (members : List (Option String × Json)) :
    specsOfJson? (.object members) = (members.mapM namedSpec?).map SortedMap.ofList := by
  have hentries : ((namedMembers? members).bind fun ms =>
      ms.mapM fun m => (JsonForm.ofJson? m.2).map fun spec : PolicySpec => (m.1, spec)) =
        members.mapM namedSpec? := by
    induction members with
    | nil => rfl
    | cons m members ih =>
      obtain ⟨_ | name, j⟩ := m
      · rfl
      · rw [namedMembers?_cons, List.mapM_cons, ← ih]
        cases namedMembers? members with
        | none => cases namedSpec? (some name, j) <;> rfl
        | some ms => simp [namedSpec?]
  rw [← hentries, Option.map_bind]
  simp only [specsOfJson?, Function.comp_def, Option.map_eq_bind]
  rfl

instance : Shaped (SortedMap String PolicySpec) where
  shape := .entries (shape PolicySpec)
  ofJson?_change h := by
    show specsOfJson? _ = specsOfJson? _
    cases h with
    | @entry _ before after k j j' h =>
      have hentry : namedSpec? (k, j) = namedSpec? (k, j') := by
        simp only [namedSpec?, Shaped.ofJson?_change h]
      simp only [specsOfJson?_object, List.mapM_append, List.mapM_cons, hentry]
    | @swap _ before after m m' h =>
      simp only [specsOfJson?_object, List.mapM_append, List.mapM_cons]
      -- An entry that is none is none on either side; two entries have different names.
      cases he : namedSpec? m with
      | none => cases namedSpec? m' <;> rfl
      | some e =>
        cases he' : namedSpec? m' with
        | none => rfl
        | some e' =>
          have hne : e.1 ≠ e'.1 := by
            intro heq
            rw [name_of_namedSpec? he, name_of_namedSpec? he', heq] at h
            exact h rfl
          cases before.mapM namedSpec? with
          | none => rfl
          | some entries =>
            cases after.mapM namedSpec? with
            | none => rfl
            | some entries' => exact congrArg some (SortedMap.ofList_swap hne)

instance : Shaped SnapshotFile where
  shape := .record [("version", shape UInt32), ("checksum", shape String),
    ("specs", shape (SortedMap String PolicySpec))]
  ofJson?_change h := by
    refine h.bind_fields?_eq fun r r' hr => ?_
    rw [hr.required_eq (α := UInt32) rfl, hr.required_eq (α := String) rfl,
      hr.required_eq (α := SortedMap String PolicySpec) rfl]

end ClusterFirewall
