import ClusterFirewall.Policy.Form
import ClusterFirewall.Proofs.Json.Lawful

/-!
# Policies are read back

What a policy's form leaves out is what is taken for a field left out: no blocks, no sets, an empty
name, no protocol. So every policy is read back from its document, the invalid ones too.
-/

namespace ClusterFirewall

open Fields

instance : JsonForm.Lawful Protocol where
  ofJson?_toJson p := by cases p <;> rfl
  toJson_ne_null _ := nofun

instance : JsonForm.Lawful PolicyPort where
  ofJson?_toJson p := by
    obtain ⟨r, hfields, hlookup⟩ : ∃ r,
        (toJson p).fields? ["protocol", "port", "endPort"] = some r ∧
        ∀ name, r.given.lookup name = _ :=
      Json.exists_fields (by decide) <| by
        simp only [List.map_append]
        exact ((sublist_memberOf _ _).append (.refl _)).append (sublist_memberOf _ _)
    simp only [List.lookup_append, lookup_memberOf, lookup_singleton] at hlookup
    have hprotocol : r.orElse "protocol" none = some p.protocol :=
      orElse_none_of_lookup (by simp [hlookup])
    have hport : r.required "port" = some p.port := required_of_lookup (by simp [hlookup])
    have hend : r.orElse "endPort" none = some p.endPort :=
      orElse_none_of_lookup (by simp [hlookup])
    simp [JsonForm.ofJson?, hfields, hprotocol, hport, hend]
  toJson_ne_null _ := nofun

instance : JsonForm.Lawful IpBlock where
  ofJson?_toJson b := by
    obtain ⟨r, hfields, hlookup⟩ : ∃ r, (toJson b).fields? ["cidr", "except"] = some r ∧
        ∀ name, r.given.lookup name = _ :=
      Json.exists_fields (by decide) <| by
        simp only [List.map_append]
        exact (List.Sublist.refl _).append (sublist_memberIf _ _ _)
    simp only [List.lookup_append, lookup_memberIf, lookup_singleton] at hlookup
    have hcidr : r.required "cidr" = some b.cidr := required_of_lookup (by simp [hlookup])
    have hexcept : r.orElse "except" [] = some b.except :=
      orElse_nil_of_lookup (by simp [hlookup])
    simp [JsonForm.ofJson?, hfields, hcidr, hexcept]
  toJson_ne_null _ := nofun

instance : JsonForm.Lawful SetRef where
  ofJson?_toJson s := by
    obtain ⟨r, hfields, hlookup⟩ : ∃ r, (toJson s).fields? ["setName"] = some r ∧
        ∀ name, r.given.lookup name = _ :=
      Json.exists_fields (by decide) (.refl _)
    have hname : r.required "setName" = some s.name := required_of_lookup (by simp [hlookup])
    simp [JsonForm.ofJson?, hfields, hname]
  toJson_ne_null _ := nofun

instance : JsonForm.Lawful Selector where
  ofJson?_toJson s := by
    obtain ⟨r, hfields, hlookup⟩ : ∃ r,
        (toJson s).fields? ["matchName", "matchPattern", "sets"] = some r ∧
          ∀ name, r.given.lookup name = _ :=
      Json.exists_fields (by decide) <| by
        simp only [List.map_append]
        exact ((sublist_memberIf _ _ _).append (sublist_memberIf _ _ _)).append
          (sublist_memberIf _ _ _)
    simp only [List.lookup_append, lookup_memberIf] at hlookup
    have hname : r.orElse "matchName" "" = some s.matchName :=
      orElse_emptyText_of_lookup (by simp [hlookup])
    have hpattern : r.orElse "matchPattern" "" = some s.matchPattern :=
      orElse_emptyText_of_lookup (by simp [hlookup])
    have hsets : r.orElse "sets" [] = some (s.sets.map SetRef.mk) :=
      orElse_nil_of_lookup (by simp [hlookup])
    simp [JsonForm.ofJson?, hfields, hname, hpattern, hsets, Function.comp_def]
  toJson_ne_null _ := nofun

instance : JsonForm.Lawful SelectorKey where
  ofJson?_toJson k := by
    obtain ⟨r, hfields, hlookup⟩ : ∃ r,
        (toJson k).fields? ["matchName", "matchPattern"] = some r ∧
          ∀ name, r.given.lookup name = _ :=
      Json.exists_fields (by decide) (.refl _)
    have hname : r.orElse "matchName" "" = some k.matchName :=
      orElse_of_lookup_some _ (by simp [hlookup])
    have hpattern : r.orElse "matchPattern" "" = some k.matchPattern :=
      orElse_of_lookup_some _ (by simp [hlookup, List.lookup_cons])
    simp [JsonForm.ofJson?, hfields, hname, hpattern]
  toJson_ne_null _ := nofun

instance : JsonForm.Lawful IngressRule where
  ofJson?_toJson e := by
    obtain ⟨r, hfields, hlookup⟩ : ∃ r, (toJson e).fields? ["from", "ports"] = some r ∧
        ∀ name, r.given.lookup name = _ :=
      Json.exists_fields (by decide) (.refl _)
    have hsources : r.orElse "from" [] = some e.sources :=
      orElse_of_lookup_some _ (by simp [hlookup])
    have hports : r.orElse "ports" [] = some e.ports :=
      orElse_of_lookup_some _ (by simp [hlookup, List.lookup_cons])
    simp [JsonForm.ofJson?, hfields, hsources, hports]
  toJson_ne_null _ := nofun

instance : JsonForm.Lawful EgressRule where
  ofJson?_toJson e := by
    obtain ⟨r, hfields, hlookup⟩ : ∃ r, (toJson e).fields? ["to", "toFQDNs", "ports"] = some r ∧
        ∀ name, r.given.lookup name = _ :=
      Json.exists_fields (by decide) <| by
        simp only [List.map_append]
        exact ((sublist_memberIf _ _ _).append (sublist_memberIf _ _ _)).append (.refl _)
    simp only [List.lookup_append, lookup_memberIf, lookup_singleton] at hlookup
    have hdestinations : r.orElse "to" [] = some e.destinations :=
      orElse_nil_of_lookup (by simp [hlookup])
    have hselectors : r.orElse "toFQDNs" [] = some e.selectors :=
      orElse_nil_of_lookup (by simp [hlookup])
    have hports : r.orElse "ports" [] = some e.ports := orElse_of_lookup_some _ (by simp [hlookup])
    simp [JsonForm.ofJson?, hfields, hdestinations, hselectors, hports]
  toJson_ne_null _ := nofun

instance : JsonForm.Lawful PolicySpec where
  ofJson?_toJson s := by
    obtain ⟨r, hfields, hlookup⟩ : ∃ r, (toJson s).fields? ["ingress", "egress"] = some r ∧
        ∀ name, r.given.lookup name = _ :=
      Json.exists_fields (by decide) (.refl _)
    have hingress : r.orElse "ingress" [] = some s.ingress :=
      orElse_of_lookup_some _ (by simp [hlookup])
    have hegress : r.orElse "egress" [] = some s.egress :=
      orElse_of_lookup_some _ (by simp [hlookup, List.lookup_cons])
    simp [JsonForm.ofJson?, hfields, hingress, hegress]
  toJson_ne_null _ := nofun

instance : JsonForm.Lawful Policy where
  ofJson?_toJson p := by
    obtain ⟨r, hfields, hlookup⟩ : ∃ r,
        (toJson p).fields? ["namespace", "name", "spec"] = some r ∧
          ∀ name, r.given.lookup name = _ :=
      Json.exists_fields (by decide) (.refl _)
    have hspace : r.orElse "namespace" Policy.home = some p.space :=
      orElse_of_lookup_some _ (by simp [hlookup])
    have hname : r.required "name" = some p.name :=
      required_of_lookup (by simp [hlookup, List.lookup_cons])
    have hspec : r.orElse "spec" default = some p.spec :=
      orElse_of_lookup_some _ (by simp [hlookup, List.lookup_cons])
    simp [JsonForm.ofJson?, hfields, hspace, hname, hspec]
  toJson_ne_null _ := nofun

end ClusterFirewall
