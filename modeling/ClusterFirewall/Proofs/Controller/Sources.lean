import ClusterFirewall.Controller.Sources
import ClusterFirewall.Proofs.Policy.Form

/-!
# What the controller reads is what was written

Services, networks and the firewall are written with all their fields but the protocol of a port,
which is left out if it is not named. A network without a routing table is written with `null`, and
`null` is read as no routing table. So the state of a cluster is read back from its document, with
whatever texts and numbers it holds.

An entry of the cache holds the members of its selector beside its sets. The members that are not
the sets are kept as stored documents until the selector is read from them; those of an entry that
was written are two strings, and strings are stored as they are. So every entry is read back.
-/

namespace ClusterFirewall

open Fields

/-! ## Services -/

theorem ServiceType.ofText?_text (t : ServiceType) : ofText? t.text = some t := by
  cases t <;> rfl

instance : JsonForm.Lawful ServiceType where
  ofJson?_toJson t := t.ofText?_text
  toJson_ne_null _ := nofun

instance : JsonForm.Lawful ServicePort where
  ofJson?_toJson p := by
    obtain ⟨r, hfields, hlookup⟩ : ∃ r, (toJson p).fields? ["protocol", "port"] = some r ∧
        ∀ name, r.given.lookup name = _ :=
      Json.exists_fields (by decide) <| by
        simp only [List.map_append]
        exact (sublist_memberOf _ _).append (.refl _)
    simp only [List.lookup_append, lookup_memberOf, lookup_singleton] at hlookup
    have hprotocol : r.orElse "protocol" none = some p.protocol :=
      orElse_none_of_lookup (by simp [hlookup])
    have hport : r.required "port" = some p.port := required_of_lookup (by simp [hlookup])
    simp [JsonForm.ofJson?, hfields, hprotocol, hport]
  toJson_ne_null _ := nofun

instance : JsonForm.Lawful Service where
  ofJson?_toJson s := by
    obtain ⟨r, hfields, hlookup⟩ : ∃ r,
        (toJson s).fields?
            ["namespace", "name", "type", "ingressIps", "loadBalancerSourceRanges", "ports"] =
          some r ∧ ∀ name, r.given.lookup name = _ :=
      Json.exists_fields (by decide) (.refl _)
    have hspace : r.required "namespace" = some s.space := required_of_lookup (by simp [hlookup])
    have hname : r.required "name" = some s.name :=
      required_of_lookup (by simp [hlookup, List.lookup_cons])
    have htype : r.orElse "type" .clusterIP = some s.type :=
      orElse_of_lookup_some _ (by simp [hlookup, List.lookup_cons])
    have hips : r.orElse "ingressIps" [] = some s.ingressIps :=
      orElse_of_lookup_some _ (by simp [hlookup, List.lookup_cons])
    have hranges : r.orElse "loadBalancerSourceRanges" [] = some s.sourceRanges :=
      orElse_of_lookup_some _ (by simp [hlookup, List.lookup_cons])
    have hports : r.orElse "ports" [] = some s.ports :=
      orElse_of_lookup_some _ (by simp [hlookup, List.lookup_cons])
    simp [JsonForm.ofJson?, hfields, hspace, hname, htype, hips, hranges, hports]
  toJson_ne_null _ := nofun

/-! ## The firewall -/

theorem NetworkType.ofText?_text (t : NetworkType) : ofText? t.text = some t := by
  cases t <;> rfl

instance : JsonForm.Lawful NetworkType where
  ofJson?_toJson t := t.ofText?_text
  toJson_ne_null _ := nofun

instance : JsonForm.Lawful FirewallNetwork where
  ofJson?_toJson n := by
    obtain ⟨r, hfields, hlookup⟩ : ∃ r,
        (toJson n).fields? ["networkId", "networkType", "vrf", "prefixes"] = some r ∧
          ∀ name, r.given.lookup name = _ :=
      Json.exists_fields (by decide) (.refl _)
    have hid : r.required "networkId" = some n.networkId :=
      required_of_lookup (by simp [hlookup])
    have htype : r.required "networkType" = some n.type :=
      required_of_lookup (by simp [hlookup, List.lookup_cons])
    -- The routing table is always written, as `null` if there is none.
    have hvrf : r.orElse "vrf" none = some n.vrf := by
      have hgiven : r.given.lookup "vrf" = some (toJson n.vrf) := by
        simp [hlookup, List.lookup_cons]
      simp only [orElse, hgiven, ofJson?_toJson_option]
    have hprefixes : r.orElse "prefixes" [] = some n.prefixes :=
      orElse_of_lookup_some _ (by simp [hlookup, List.lookup_cons])
    simp [JsonForm.ofJson?, hfields, hid, htype, hvrf, hprefixes]
  toJson_ne_null _ := nofun

instance : JsonForm.Lawful RateLimit where
  ofJson?_toJson l := by
    obtain ⟨r, hfields, hlookup⟩ : ∃ r, (toJson l).fields? ["networkId", "rate"] = some r ∧
        ∀ name, r.given.lookup name = _ :=
      Json.exists_fields (by decide) (.refl _)
    have hid : r.required "networkId" = some l.networkId :=
      required_of_lookup (by simp [hlookup])
    have hrate : r.required "rate" = some l.rate :=
      required_of_lookup (by simp [hlookup, List.lookup_cons])
    simp [JsonForm.ofJson?, hfields, hid, hrate]
  toJson_ne_null _ := nofun

instance : JsonForm.Lawful EgressSnat where
  ofJson?_toJson s := by
    obtain ⟨r, hfields, hlookup⟩ : ∃ r, (toJson s).fields? ["networkId", "ips"] = some r ∧
        ∀ name, r.given.lookup name = _ :=
      Json.exists_fields (by decide) (.refl _)
    have hid : r.required "networkId" = some s.networkId :=
      required_of_lookup (by simp [hlookup])
    have hips : r.required "ips" = some s.ips :=
      required_of_lookup (by simp [hlookup, List.lookup_cons])
    simp [JsonForm.ofJson?, hfields, hid, hips]
  toJson_ne_null _ := nofun

instance : JsonForm.Lawful FirewallSpec where
  ofJson?_toJson f := by
    obtain ⟨r, hfields, hlookup⟩ : ∃ r,
        (toJson f).fields? ["internalPrefixes", "networks", "rateLimits", "egressSnat"] = some r ∧
          ∀ name, r.given.lookup name = _ :=
      Json.exists_fields (by decide) (.refl _)
    have hprefixes : r.orElse "internalPrefixes" [] = some f.internalPrefixes :=
      orElse_of_lookup_some _ (by simp [hlookup])
    have hnetworks : r.orElse "networks" [] = some f.networks :=
      orElse_of_lookup_some _ (by simp [hlookup, List.lookup_cons])
    have hlimits : r.orElse "rateLimits" [] = some f.rateLimits :=
      orElse_of_lookup_some _ (by simp [hlookup, List.lookup_cons])
    have hsnat : r.orElse "egressSnat" [] = some f.egressSnat :=
      orElse_of_lookup_some _ (by simp [hlookup, List.lookup_cons])
    simp [JsonForm.ofJson?, hfields, hprefixes, hnetworks, hlimits, hsnat]
  toJson_ne_null _ := nofun

/-! ## The cluster -/

instance : JsonForm.Lawful ClusterState where
  ofJson?_toJson s := by
    obtain ⟨r, hfields, hlookup⟩ : ∃ r,
        (toJson s).fields? ["policies", "services", "firewall"] = some r ∧
          ∀ name, r.given.lookup name = _ :=
      Json.exists_fields (by decide) (.refl _)
    have hpolicies : r.orElse "policies" [] = some s.policies :=
      orElse_of_lookup_some _ (by simp [hlookup])
    have hservices : r.orElse "services" [] = some s.services :=
      orElse_of_lookup_some _ (by simp [hlookup, List.lookup_cons])
    have hfirewall : r.orElse "firewall" default = some s.firewall :=
      orElse_of_lookup_some _ (by simp [hlookup, List.lookup_cons])
    simp [JsonForm.ofJson?, hfields, hpolicies, hservices, hfirewall]
  toJson_ne_null _ := nofun

/-! ## Resolutions -/

instance : JsonForm.Lawful SetFamily where
  ofJson?_toJson f := by cases f <;> rfl
  toJson_ne_null _ := nofun

instance : JsonForm.Lawful IpSet where
  ofJson?_toJson s := by
    obtain ⟨r, hfields, hlookup⟩ : ∃ r,
        (toJson s).fields? ["name", "family", "members"] = some r ∧
          ∀ name, r.given.lookup name = _ :=
      Json.exists_fields (by decide) (.refl _)
    have hname : r.required "name" = some s.name := required_of_lookup (by simp [hlookup])
    have hfamily : r.orElse "family" .ipv4 = some s.family :=
      orElse_of_lookup_some _ (by simp [hlookup, List.lookup_cons])
    have hmembers : r.orElse "members" [] = some s.members :=
      orElse_of_lookup_some _ (by simp [hlookup, List.lookup_cons])
    simp [JsonForm.ofJson?, hfields, hname, hfamily, hmembers]
  toJson_ne_null _ := nofun

namespace CacheEntry

/-- The members of an entry that belong to its selector. -/
def selectorMembers (e : CacheEntry) : List (String × Json) :=
  [("matchName", toJson e.key.matchName), ("matchPattern", toJson e.key.matchPattern)]

theorem storedMembers?_selectorMembers (e : CacheEntry) (limit : Nat) :
    Json.storedMembers? limit (e.selectorMembers.map fun m => (some m.1, m.2)) =
      some e.selectorMembers := rfl

theorem ofJson?_selectorMembers (e : CacheEntry) :
    JsonForm.ofJson? (.record e.selectorMembers) = some e.key :=
  ofJson?_toJson e.key

/-- An entry is cut into its sets and the members of its selector. -/
theorem partition_members (e : CacheEntry) :
    (e.selectorMembers ++ [("sets", toJson e.sets)]).partition (fun m => m.1 == "sets") =
      ([("sets", toJson e.sets)], e.selectorMembers) := by
  simp [selectorMembers, List.partition_eq_filter_filter]

end CacheEntry

instance : JsonForm.Lawful CacheEntry where
  ofJson?_toJson e := by
    have hsets : (Fields.mk [("sets", toJson e.sets)] false).orElse "sets" [] = some e.sets :=
      orElse_of_lookup_some _ (lookup_singleton "sets" "sets" _)
    show CacheEntry.ofJsonWithin? Json.nestingLimit
      (.record (e.selectorMembers ++ [("sets", toJson e.sets)])) = some e
    simp only [CacheEntry.ofJsonWithin?, Json.record, namedMembers?_record, Option.bind_eq_bind,
      Option.bind_some, e.partition_members]
    have hkey := e.ofJson?_selectorMembers
    simp only [Json.record] at hkey
    simp [allDistinct, e.storedMembers?_selectorMembers, hkey, hsets]
  toJson_ne_null _ := nofun

end ClusterFirewall
