import ClusterFirewall.Json.Form
import ClusterFirewall.Proofs.Json.Lawful
import Mathlib.Data.Option.Basic
import Mathlib.Logic.Relation

/-!
# Documents that are read alike

What a reader may not notice depends on where it looks: the order of a record's members and the
members that the record does not know, but not the order of a list. A `Shape` says where a document
is read as which; a `Change` is one change of a document that a reader of the shape may not notice,
at the top or in a part.

Main statement: `JsonForm.ofJson?_eq_of_alike`, documents that changes and their undoing lead from
one to the other have the same value, for every type whose reader respects one change.
-/

namespace ClusterFirewall

/-- How a document is read. -/
inductive Shape where
  /-- As a value that is read as it stands. -/
  | value
  /-- As a list. -/
  | list (item : Shape)
  /-- As entries by their names, of which equal ones replace each other. -/
  | entries (entry : Shape)
  /-- As a record with fields in this order. -/
  | record (fields : List (String × Shape))

namespace Json

/-- One change of a document that makes no difference to a reader of the shape. -/
inductive Change : Shape → Json → Json → Prop
  /-- A change of a list's item. -/
  | item {s : Shape} {before after : List Json} {j j' : Json} (h : Change s j j') :
      Change (.list s) (.array (before ++ j :: after)) (.array (before ++ j' :: after))
  /-- A change of a named entry. -/
  | entry {s : Shape} {before after : List (Option String × Json)} {k : Option String}
      {j j' : Json} (h : Change s j j') :
      Change (.entries s) (.object (before ++ (k, j) :: after))
        (.object (before ++ (k, j') :: after))
  /-- Two entries of different names change places. -/
  | swap {s : Shape} {before after : List (Option String × Json)} {m m' : Option String × Json}
      (h : m.1 ≠ m'.1) :
      Change (.entries s) (.object (before ++ m :: m' :: after))
        (.object (before ++ m' :: m :: after))
  /-- A change of a record's field that is given by its name. The order of the members being free,
  the field may stand at the front. -/
  | field {fields : List (String × Shape)} {s : Shape} {members : List (Option String × Json)}
      {name : String} {j j' : Json} (hname : fields.lookup name = some s) (h : Change s j j') :
      Change (.record fields) (.object ((some name, j) :: members))
        (.object ((some name, j') :: members))
  /-- A change of a record's field that is given by its place. -/
  | place {fields : List (String × Shape)} {s : Shape} {before after : List Json} {name : String}
      {j j' : Json} (hname : fields[before.length]? = some (name, s)) (h : Change s j j') :
      Change (.record fields) (.array (before ++ j :: after)) (.array (before ++ j' :: after))
  /-- Another order of a record's members. -/
  | order {fields : List (String × Shape)} {members members' : List (Option String × Json)}
      (h : members.Perm members') : Change (.record fields) (.object members) (.object members')
  /-- A member that the record does not know. -/
  | unknown {fields : List (String × Shape)} {members : List (Option String × Json)}
      {name : String} {j : Json} (hname : fields.lookup name = none) :
      Change (.record fields) (.object members) (.object ((some name, j) :: members))

/-- Documents that changes and their undoing lead from one to the other. -/
def Alike (s : Shape) : Json → Json → Prop := Relation.EqvGen (Change s)

end Json

/-- A type whose reader takes no notice of the changes of a shape. -/
class JsonForm.Shaped (α : Type) [JsonForm α] where
  /-- How its documents are read. -/
  shape : Shape
  ofJson?_change {j j' : Json} : Json.Change shape j j' →
    (JsonForm.ofJson? j : Option α) = JsonForm.ofJson? j'

export JsonForm.Shaped (shape)

theorem JsonForm.ofJson?_eq_of_alike {α : Type} [JsonForm α] [JsonForm.Shaped α] {j j' : Json}
    (h : Json.Alike (shape α) j j') : (JsonForm.ofJson? j : Option α) = JsonForm.ofJson? j' := by
  induction h with
  | rel _ _ h => exact Shaped.ofJson?_change h
  | refl => rfl
  | symm _ _ _ ih => exact ih.symm
  | trans _ _ _ _ _ ih ih' => exact ih.trans ih'

/-! ## Records -/

theorem namedMembers?_cons (name : String) (j : Json) (members : List (Option String × Json)) :
    namedMembers? ((some name, j) :: members) = (namedMembers? members).map ((name, j) :: ·) := by
  simp [namedMembers?, List.mapM_cons, Option.map_eq_bind]

theorem namedMembers?_eq_some_iff {members : List (Option String × Json)}
    {ms : List (String × Json)} :
    namedMembers? members = some ms ↔ members = ms.map fun m => (some m.1, m.2) := by
  constructor
  · intro h
    induction members generalizing ms with
    | nil =>
      cases h
      rfl
    | cons m members ih =>
      obtain ⟨_ | name, j⟩ := m
      · cases h
      · rw [namedMembers?_cons] at h
        obtain ⟨ms, hms, rfl⟩ := Option.map_eq_some_iff.1 h
        rw [List.map_cons, ← ih hms]
  · rintro rfl
    exact namedMembers?_record ms

/-- Members in another order have the same names and values. -/
theorem exists_perm_of_namedMembers? {members members' : List (Option String × Json)}
    {ms : List (String × Json)} (h : members.Perm members')
    (hms : namedMembers? members = some ms) :
    ∃ ms', namedMembers? members' = some ms' ∧ ms.Perm ms' := by
  obtain rfl := namedMembers?_eq_some_iff.1 hms
  -- A permutation keeps the names, so that they can be taken off the other list as well.
  let unname : Option String × Json → String × Json := fun m => (m.1.getD "", m.2)
  have hunname : (ms.map fun m => (some m.1, m.2)).map unname = ms := by
    rw [List.map_map]
    exact List.map_id ms
  have hnamed : ∀ m ∈ members', (some (unname m).1, (unname m).2) = m := by
    intro m hm
    obtain ⟨m, -, rfl⟩ := List.mem_map.1 (h.mem_iff.2 hm)
    rfl
  refine ⟨members'.map unname, namedMembers?_eq_some_iff.2 ?_, hunname ▸ h.map unname⟩
  rw [List.map_map]
  exact ((List.map_congr_left hnamed).trans (List.map_id members')).symm

theorem lookup_eq_some_iff_mem {ms : List (String × Json)} (hms : (ms.map (·.1)).Nodup)
    {name : String} {j : Json} : ms.lookup name = some j ↔ (name, j) ∈ ms := by
  rw [List.lookup_eq_some_iff]
  constructor
  · rintro ⟨before, after, rfl, -⟩
    simp
  · intro hmem
    obtain ⟨before, after, rfl⟩ := List.append_of_mem hmem
    refine ⟨before, after, rfl, fun m hm => ?_⟩
    rw [List.map_append, List.nodup_append] at hms
    have hne : m.1 ≠ name := hms.2.2 m.1 (List.mem_map_of_mem hm) name (by simp)
    simpa using hne.symm

/-- The look-up in a list of distinct names does not depend on its order. -/
theorem lookup_eq_of_perm {ms ms' : List (String × Json)} (h : ms.Perm ms')
    (hms : (ms.map (·.1)).Nodup) (name : String) : ms.lookup name = ms'.lookup name := by
  apply Option.ext
  intro j
  rw [lookup_eq_some_iff_mem hms, lookup_eq_some_iff_mem ((h.map _).nodup_iff.1 hms), h.mem_iff]

/-- The members of the given names. -/
def knownMembers (names : List String) (ms : List (String × Json)) : List (String × Json) :=
  ms.filter fun m => names.contains m.1

theorem Json.fields?_object (names : List String) (members : List (Option String × Json)) :
    (Json.object members).fields? names = (namedMembers? members).bind fun ms =>
      if ((knownMembers names ms).map (·.1)).Nodup then some ⟨knownMembers names ms, false⟩
      else none := by
  simp only [← allDistinct_iff_nodup]
  rfl

/-- Records in which each field has the same document or a changed one. -/
def Fields.Changed (fields : List (String × Shape)) (r r' : Fields) : Prop :=
  ∀ name s, fields.lookup name = some s →
    Option.Rel (Relation.ReflGen (Json.Change s)) (r.given.lookup name) (r'.given.lookup name)

section Records

variable {fields : List (String × Shape)}

theorem rel_change_self (s : Shape) (j? : Option Json) :
    Option.Rel (Relation.ReflGen (Json.Change s)) j? j? := by
  cases j? with
  | none => exact .none
  | some j => exact .some .refl

theorem rel_fields?_order {members members' : List (Option String × Json)} (names : List String)
    (h : members.Perm members') :
    Option.Rel (Fields.Changed fields) ((Json.object members).fields? names)
      ((Json.object members').fields? names) := by
  rw [Json.fields?_object, Json.fields?_object]
  cases hms : namedMembers? members with
  | none =>
    cases hms' : namedMembers? members' with
    | none => exact .none
    | some ms' =>
      -- A name without a value is in both lists or in none.
      obtain ⟨ms, hnamed, -⟩ := exists_perm_of_namedMembers? h.symm hms'
      rw [hms] at hnamed
      cases hnamed
  | some ms =>
    obtain ⟨ms', hms', hperm⟩ := exists_perm_of_namedMembers? h hms
    have hknown : (knownMembers names ms).Perm (knownMembers names ms') := hperm.filter _
    have hdistinct_iff := (hknown.map (·.1)).nodup_iff
    rw [hms', Option.bind_some, Option.bind_some]
    -- Only where no known name occurs twice is the look-up that of a set of members.
    by_cases hdistinct : ((knownMembers names ms).map (·.1)).Nodup
    · rw [if_pos hdistinct, if_pos (hdistinct_iff.1 hdistinct)]
      refine .some fun name s _ => ?_
      rw [lookup_eq_of_perm hknown hdistinct name]
      exact rel_change_self _ _
    · rw [if_neg hdistinct, if_neg (mt hdistinct_iff.2 hdistinct)]
      exact .none

theorem knownMembers_cons_of_lookup {name : String} {s : Shape} (h : fields.lookup name = some s)
    (j : Json) (ms : List (String × Json)) :
    knownMembers (fields.map (·.1)) ((name, j) :: ms) =
      (name, j) :: knownMembers (fields.map (·.1)) ms := by
  obtain ⟨before, after, rfl, -⟩ := List.lookup_eq_some_iff.1 h
  exact List.filter_cons_of_pos (by simp)

theorem knownMembers_cons_of_unknown {name : String} (h : fields.lookup name = none)
    (j : Json) (ms : List (String × Json)) :
    knownMembers (fields.map (·.1)) ((name, j) :: ms) = knownMembers (fields.map (·.1)) ms := by
  refine List.filter_cons_of_neg ?_
  rw [List.lookup_eq_none_iff] at h
  simpa using fun s hmem => by simpa using h _ hmem

/-- One field of a record changes where both records begin with it, under its own name. -/
theorem rel_lookup_cons {name : String} {s : Shape} {j j' : Json} {ms ms' : List (String × Json)}
    (hname : fields.lookup name = some s) (h : Json.Change s j j') {name' : String} {s' : Shape}
    (hname' : fields.lookup name' = some s')
    (hrest : name' ≠ name →
      Option.Rel (Relation.ReflGen (Json.Change s')) (ms.lookup name') (ms'.lookup name')) :
    Option.Rel (Relation.ReflGen (Json.Change s')) (((name, j) :: ms).lookup name')
      (((name, j') :: ms').lookup name') := by
  by_cases heq : name' = name
  · subst heq
    obtain rfl := Option.some.inj (hname.symm.trans hname')
    rw [List.lookup_cons_self, List.lookup_cons_self]
    exact .some (.single h)
  · simp only [List.lookup_cons, beq_false_of_ne heq]
    exact hrest heq

theorem rel_fields?_field {members : List (Option String × Json)} {name : String} {s : Shape}
    {j j' : Json} (hname : fields.lookup name = some s) (h : Json.Change s j j') :
    Option.Rel (Fields.Changed fields)
      ((Json.object ((some name, j) :: members)).fields? (fields.map (·.1)))
      ((Json.object ((some name, j') :: members)).fields? (fields.map (·.1))) := by
  rw [Json.fields?_object, Json.fields?_object, namedMembers?_cons, namedMembers?_cons]
  cases namedMembers? members with
  | none => exact .none
  | some ms =>
    simp only [Option.map_some, Option.bind_some, knownMembers_cons_of_lookup hname, List.map_cons]
    split
    · exact .some fun name' s' hname' => rel_lookup_cons hname h hname' fun _ => rel_change_self _ _
    · exact .none

theorem rel_fields?_unknown {members : List (Option String × Json)} {name : String} (j : Json)
    (hname : fields.lookup name = none) :
    Option.Rel (Fields.Changed fields) ((Json.object members).fields? (fields.map (·.1)))
      ((Json.object ((some name, j) :: members)).fields? (fields.map (·.1))) := by
  rw [Json.fields?_object, Json.fields?_object, namedMembers?_cons]
  cases namedMembers? members with
  | none => exact .none
  | some ms =>
    simp only [Option.map_some, Option.bind_some, knownMembers_cons_of_unknown hname]
    split
    · exact .some fun _ _ _ => rel_change_self _ _
    · exact .none

theorem rel_lookup_zip {before after : List Json} {name : String} {s : Shape} {j j' : Json}
    (hname : fields[before.length]? = some (name, s)) (h : Json.Change s j j') {name' : String}
    {s' : Shape} (hname' : fields.lookup name' = some s') :
    Option.Rel (Relation.ReflGen (Json.Change s'))
      (((fields.map (·.1)).zip (before ++ j :: after)).lookup name')
      (((fields.map (·.1)).zip (before ++ j' :: after)).lookup name') := by
  -- The fields and the items before the changed one are taken off together.
  induction before generalizing fields with
  | nil =>
    cases fields with
    | nil => cases hname
    | cons f fields =>
      obtain rfl := Option.some.inj hname
      exact rel_lookup_cons List.lookup_cons_self h hname' fun _ => rel_change_self _ _
  | cons b before ih =>
    cases fields with
    | nil => cases hname
    | cons f fields =>
      obtain ⟨fname, fs⟩ := f
      by_cases heq : name' = fname
      · subst heq
        simp only [List.cons_append, List.map_cons, List.zip_cons_cons, List.lookup_cons_self]
        exact rel_change_self _ _
      · simp only [List.lookup_cons, beq_false_of_ne heq] at hname'
        simp only [List.cons_append, List.map_cons, List.zip_cons_cons, List.lookup_cons,
          beq_false_of_ne heq]
        exact ih (by simpa using hname) hname'

/-- A change of a record gives a record with the same or changed fields, or no record from none. -/
theorem Json.Change.rel_fields? {j j' : Json} (h : Change (.record fields) j j') :
    Option.Rel (Fields.Changed fields) (j.fields? (fields.map (·.1)))
      (j'.fields? (fields.map (·.1))) := by
  cases h with
  | field hname h => exact rel_fields?_field hname h
  | @place _ _ before after _ j j' hname h =>
    have hlength : (before ++ j :: after).length = (before ++ j' :: after).length := by simp
    simp only [fields?, hlength]
    split
    · exact .some fun name' s' hname' => rel_lookup_zip hname h hname'
    · exact .none
  | order h => exact rel_fields?_order _ h
  | unknown hname => exact rel_fields?_unknown _ hname

theorem bind_eq_of_rel {α β γ : Type} {R : α → β → Prop} {a? : Option α} {b? : Option β}
    (h : Option.Rel R a? b?) {f : α → Option γ} {g : β → Option γ}
    (hfg : ∀ a b, R a b → f a = g b) : a?.bind f = b?.bind g := by
  cases h with
  | some h => exact hfg _ _ h
  | none => rfl

/-- What is read from the fields of a record stays the same if it is read alike from all records
with the same or changed fields. -/
theorem Json.Change.bind_fields?_eq {α : Type} {j j' : Json} {read : Fields → Option α}
    (h : Change (.record fields) j j')
    (hread : ∀ r r' : Fields, r.Changed fields r' → read r = read r') :
    (j.fields? (fields.map (·.1))).bind read = (j'.fields? (fields.map (·.1))).bind read :=
  bind_eq_of_rel h.rel_fields? hread

namespace Fields.Changed

variable {α : Type} [JsonForm α] [JsonForm.Shaped α] {r r' : Fields} {name : String}

theorem ofJson?_eq {j j' : Json} (h : Relation.ReflGen (Json.Change (shape α)) j j') :
    (JsonForm.ofJson? j : Option α) = JsonForm.ofJson? j' := by
  cases h with
  | refl => rfl
  | single h => exact JsonForm.Shaped.ofJson?_change h

theorem required_eq (h : r.Changed fields r') (hname : fields.lookup name = some (shape α)) :
    (r.required name : Option α) = r'.required name :=
  bind_eq_of_rel (h name _ hname) fun _ _ => ofJson?_eq

theorem orElse_eq (h : r.Changed fields r') (hname : fields.lookup name = some (shape α))
    (default : α) : r.orElse name default = r'.orElse name default := by
  have hrel := h name _ hname
  unfold orElse
  generalize r.given.lookup name = j?, r'.given.lookup name = j'? at hrel
  cases hrel with
  | some h => exact ofJson?_eq h
  | none => rfl

end Fields.Changed

end Records

/-! ## Values and lists -/

instance : JsonForm.Shaped String := ⟨.value, nofun⟩

instance : JsonForm.Shaped UInt16 := ⟨.value, nofun⟩

instance : JsonForm.Shaped UInt32 := ⟨.value, nofun⟩

section Lists

variable {α : Type} [JsonForm α] [JsonForm.Shaped α]

instance : JsonForm.Shaped (List α) where
  shape := .list (shape α)
  ofJson?_change h := by
    cases h with
    | @item _ before after j j' h =>
      have hitem : (JsonForm.ofJson? j : Option α) = JsonForm.ofJson? j' :=
        JsonForm.Shaped.ofJson?_change h
      show (before ++ j :: after).mapM JsonForm.ofJson? =
        (before ++ j' :: after).mapM JsonForm.ofJson?
      simp only [List.mapM_append, List.mapM_cons, hitem]

/-- No change makes `null` of a document or a document of `null`. -/
instance : JsonForm.Shaped (Option α) where
  shape := shape α
  ofJson?_change h := by
    have hvalue := congrArg (Option.map some) (JsonForm.Shaped.ofJson?_change h)
    generalize shape α = s at h
    cases h <;> exact hvalue

end Lists

end ClusterFirewall
