import ClusterFirewall.Json.Form
import ClusterFirewall.Proofs.Json.RoundTrip
import Mathlib.Data.List.Nodup

/-!
# Typed values that are read back

A JSON form is lawful if every value is read back from its document. Records are lawful field by
field: each field is either written, and then its value is read back, or it is left out, and then
its value is the one that is taken for a field left out. Main statements: `Json.read?_compact` and
`Json.read?_wide`, a value of a lawful form is read back from its text.
-/

namespace ClusterFirewall

/-- Every value is read back from its document, which is never `null`. -/
class JsonForm.Lawful (α : Type) [JsonForm α] : Prop where
  ofJson?_toJson : ∀ a : α, JsonForm.ofJson? (toJson a) = some a
  toJson_ne_null : ∀ a : α, toJson a ≠ .null

export JsonForm.Lawful (ofJson?_toJson toJson_ne_null)

attribute [simp] JsonForm.Lawful.ofJson?_toJson

section Texts

variable {α : Type} [JsonForm α] [JsonForm.Lawful α]

theorem Json.read?_compact (a : α) : Json.read? α (toJson a).compact = some a := by
  rw [Json.read?, Json.parse_compact, Option.bind_some, ofJson?_toJson]

theorem Json.read?_wide (a : α) : Json.read? α (toJson a).wide = some a := by
  rw [Json.read?, Json.parse_wide, Option.bind_some, ofJson?_toJson]

end Texts

/-! ## Basic values -/

theorem Json.natBelow?_nat {bound n : Nat} (h : n < bound) :
    (Json.nat n).natBelow? bound = some n := by
  simp [Json.natBelow?, Json.nat?, Json.nat, h]

instance : JsonForm.Lawful String where
  ofJson?_toJson _ := rfl
  toJson_ne_null _ := nofun

instance : JsonForm.Lawful Bool where
  ofJson?_toJson _ := rfl
  toJson_ne_null _ := nofun

instance : JsonForm.Lawful UInt16 where
  ofJson?_toJson n := by
    simp only [toJson, JsonForm.ofJson?, Json.natBelow?_nat n.toNat_lt, Option.map_some,
      UInt16.ofNat_toNat]
  toJson_ne_null _ := nofun

instance : JsonForm.Lawful UInt32 where
  ofJson?_toJson n := by
    simp only [toJson, JsonForm.ofJson?, Json.natBelow?_nat n.toNat_lt, Option.map_some,
      UInt32.ofNat_toNat]
  toJson_ne_null _ := nofun

instance : JsonForm.Lawful UInt64 where
  ofJson?_toJson n := by
    simp only [toJson, JsonForm.ofJson?, Json.natBelow?_nat n.toNat_lt, Option.map_some,
      UInt64.ofNat_toNat]
  toJson_ne_null _ := nofun

section Lists

variable {α : Type} [JsonForm α] [JsonForm.Lawful α]

instance : JsonForm.Lawful (List α) where
  ofJson?_toJson xs := by
    show (xs.map toJson).mapM JsonForm.ofJson? = some xs
    induction xs with
    | nil => rfl
    | cons x xs ih => simp [ih]
  toJson_ne_null _ := nofun

theorem ofJson?_toJson_option (a? : Option α) : JsonForm.ofJson? (toJson a?) = some a? := by
  cases a? with
  | none => rfl
  | some a =>
    have hnull : toJson a ≠ .null := toJson_ne_null a
    have hread : JsonForm.ofJson? (toJson a) = some a := ofJson?_toJson a
    -- What is not `null` is read by the form of the value.
    show JsonForm.ofJson? (toJson a) = some (some a)
    generalize toJson a = j at hnull hread
    cases j with
    | null => exact absurd rfl hnull
    | _ => exact congrArg (Option.map some) hread

end Lists

/-! ## Records -/

theorem allDistinct_iff_nodup {names : List String} : allDistinct names ↔ names.Nodup := by
  induction names with
  | nil => simp [allDistinct]
  | cons name names ih => simp [allDistinct, ih]

theorem namedMembers?_record (members : List (String × Json)) :
    namedMembers? (members.map fun m => (some m.1, m.2)) = some members := by
  induction members with
  | nil => rfl
  | cons m members ih =>
    unfold namedMembers? at ih ⊢
    simp [ih]

/-- A record with some of its fields, in order, gives these fields by their names. -/
theorem Json.exists_fields {names : List String} {members : List (String × Json)}
    (hnames : names.Nodup) (h : (members.map (·.1)).Sublist names) :
    ∃ r : Fields, (Json.record members).fields? names = some r ∧
      ∀ name, r.given.lookup name = members.lookup name := by
  -- None of the members is unknown, and none occurs twice.
  have hknown : members.filter (fun m => names.contains m.1) = members := by
    rw [List.filter_eq_self]
    intro m hm
    exact List.contains_iff_mem.2 (h.subset (List.mem_map_of_mem hm))
  refine ⟨⟨members, false⟩, ?_, fun _ => rfl⟩
  simp only [Json.record, Json.fields?, namedMembers?_record, Option.bind_eq_bind,
    Option.bind_some, hknown, allDistinct_iff_nodup.2 (h.nodup hnames), if_true]

theorem lookup_singleton (name name' : String) (j : Json) :
    [(name, j)].lookup name' = if name' = name then some j else none := by
  by_cases h : name' = name
  · simp [h]
  · simp [List.lookup_cons, beq_false_of_ne h, h]

section Members

variable {α : Type} [JsonForm α]

theorem sublist_memberIf (written : Bool) (name : String) (a : α) :
    ((memberIf written name a).map (·.1)).Sublist [name] := by
  cases written <;> simp [memberIf]

theorem sublist_memberOf (name : String) (a? : Option α) :
    ((memberOf name a?).map (·.1)).Sublist [name] := by
  cases a? <;> simp [memberOf]

theorem lookup_memberIf (written : Bool) (name name' : String) (a : α) :
    (memberIf written name a).lookup name' =
      if name' = name ∧ written then some (toJson a) else none := by
  cases written <;> simp [memberIf, lookup_singleton]

theorem lookup_memberOf (name name' : String) (a? : Option α) :
    (memberOf name a?).lookup name' = if name' = name then a?.map toJson else none := by
  cases a? <;> simp [memberOf, lookup_singleton]

end Members

namespace Fields

variable {α : Type} [JsonForm α] [JsonForm.Lawful α] {r : Fields} {name : String}

theorem required_of_lookup {a : α} (h : r.given.lookup name = some (toJson a)) :
    r.required name = some a := by
  rw [required, h, Option.bind_some, ofJson?_toJson]

/-- A field that is written unless it has its default value is read back. -/
theorem orElse_of_lookup (written : Bool) {a default : α}
    (h : r.given.lookup name = if written then some (toJson a) else none)
    (hdefault : written = false → default = a) : r.orElse name default = some a := by
  cases written with
  | true =>
    rw [if_pos rfl] at h
    simp only [orElse, h, ofJson?_toJson]
  | false =>
    rw [if_neg (by decide)] at h
    simp only [orElse, h, hdefault rfl]

theorem orElse_nil_of_lookup {xs : List α}
    (h : r.given.lookup name = if !xs.isEmpty then some (toJson xs) else none) :
    r.orElse name [] = some xs := by
  refine orElse_of_lookup _ h ?_
  intro hempty
  cases xs with
  | nil => rfl
  | cons x xs => cases hempty

theorem orElse_emptyText_of_lookup {s : String}
    (h : r.given.lookup name = if !s.isEmpty then some (toJson s) else none) :
    r.orElse name "" = some s := by
  refine orElse_of_lookup _ h ?_
  intro hempty
  have hs : s = "" := by simpa using hempty
  exact hs.symm

/-- A field that is always written is read back, whatever its default value is. -/
theorem orElse_of_lookup_some {a : α} (default : α) (h : r.given.lookup name = some (toJson a)) :
    r.orElse name default = some a :=
  orElse_of_lookup true h nofun

/-- A field that is written if it has a value is read back. -/
theorem orElse_none_of_lookup {a? : Option α} (h : r.given.lookup name = a?.map toJson) :
    r.orElse name none = some a? := by
  cases a? with
  | none => simp only [orElse, h, Option.map_none]
  | some a =>
    simp only [orElse, h, Option.map_some]
    exact ofJson?_toJson_option (some a)

end Fields

end ClusterFirewall
