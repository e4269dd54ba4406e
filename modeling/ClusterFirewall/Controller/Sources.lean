import ClusterFirewall.Cluster
import ClusterFirewall.Disk.Files
import ClusterFirewall.Error
import ClusterFirewall.Json.Form
import ClusterFirewall.Json.Stored
import ClusterFirewall.Policy.Form
import ClusterFirewall.Resolution.Cache

/-!
# What the controller reads

The state of the cluster and the resolutions of DNS names are given as JSON files, which are read
anew each time that they are needed.

Of the state of a cluster only the protocol of a service port is left out when it is not given; a
network without a routing table is written with `null`. An entry of the cache is one object with the
selector's members and the sets. It is read from an object only, and its unknown members are held to
the rules of stored documents.
-/

namespace ClusterFirewall

/-! ## The state of a cluster -/

instance : JsonForm ServiceType where
  toJson t := .str t.text
  ofJson? j := j.word?.bind ServiceType.ofText?

instance : JsonForm ServicePort where
  toJson p := .record (memberOf "protocol" p.protocol ++ [("port", toJson p.port)])
  ofJson? j := do
    let r ← j.fields? ["protocol", "port"]
    pure ⟨← r.orElse "protocol" none, ← r.required "port"⟩

instance : JsonForm Service where
  toJson s := .record
    [("namespace", toJson s.space), ("name", toJson s.name), ("type", toJson s.type),
      ("ingressIps", toJson s.ingressIps), ("loadBalancerSourceRanges", toJson s.sourceRanges),
      ("ports", toJson s.ports)]
  ofJson? j := do
    let r ← j.fields?
      ["namespace", "name", "type", "ingressIps", "loadBalancerSourceRanges", "ports"]
    pure
      { space := ← r.required "namespace"
        name := ← r.required "name"
        type := ← r.orElse "type" .clusterIP
        ingressIps := ← r.orElse "ingressIps" []
        sourceRanges := ← r.orElse "loadBalancerSourceRanges" []
        ports := ← r.orElse "ports" [] }

instance : JsonForm NetworkType where
  toJson t := .str t.text
  ofJson? j := j.word?.bind NetworkType.ofText?

instance : JsonForm FirewallNetwork where
  toJson n := .record
    [("networkId", toJson n.networkId), ("networkType", toJson n.type), ("vrf", toJson n.vrf),
      ("prefixes", toJson n.prefixes)]
  ofJson? j := do
    let r ← j.fields? ["networkId", "networkType", "vrf", "prefixes"]
    pure
      { networkId := ← r.required "networkId"
        type := ← r.required "networkType"
        vrf := ← r.orElse "vrf" none
        prefixes := ← r.orElse "prefixes" [] }

instance : JsonForm RateLimit where
  toJson l := .record [("networkId", toJson l.networkId), ("rate", toJson l.rate)]
  ofJson? j := do
    let r ← j.fields? ["networkId", "rate"]
    pure ⟨← r.required "networkId", ← r.required "rate"⟩

instance : JsonForm EgressSnat where
  toJson s := .record [("networkId", toJson s.networkId), ("ips", toJson s.ips)]
  ofJson? j := do
    let r ← j.fields? ["networkId", "ips"]
    pure ⟨← r.required "networkId", ← r.required "ips"⟩

instance : JsonForm FirewallSpec where
  toJson f := .record
    [("internalPrefixes", toJson f.internalPrefixes), ("networks", toJson f.networks),
      ("rateLimits", toJson f.rateLimits), ("egressSnat", toJson f.egressSnat)]
  ofJson? j := do
    let r ← j.fields? ["internalPrefixes", "networks", "rateLimits", "egressSnat"]
    pure
      { internalPrefixes := ← r.orElse "internalPrefixes" []
        networks := ← r.orElse "networks" []
        rateLimits := ← r.orElse "rateLimits" []
        egressSnat := ← r.orElse "egressSnat" [] }

instance : JsonForm ClusterState where
  toJson s := .record
    [("policies", toJson s.policies), ("services", toJson s.services),
      ("firewall", toJson s.firewall)]
  ofJson? j := do
    let r ← j.fields? ["policies", "services", "firewall"]
    pure
      { policies := ← r.orElse "policies" []
        services := ← r.orElse "services" []
        firewall := ← r.orElse "firewall" default }

/-! ## Resolutions -/

instance : JsonForm SetFamily where
  toJson f := .str (match f with | .ipv4 => "ipv4" | .ipv6 => "ipv6")
  ofJson? j :=
    match j.word? with
    | some "ipv4" => some .ipv4
    | some "ipv6" => some .ipv6
    | _ => none

instance : JsonForm IpSet where
  toJson s := .record
    [("name", toJson s.name), ("family", toJson s.family), ("members", toJson s.members)]
  ofJson? j := do
    let r ← j.fields? ["name", "family", "members"]
    pure
      { name := ← r.required "name"
        family := ← r.orElse "family" .ipv4
        members := ← r.orElse "members" [] }

namespace CacheEntry

/-- The entry that a document writes at a place where documents may nest as deep as the limit
says. -/
def ofJsonWithin? (limit : Nat) : Json → Option CacheEntry
  | .object members => do
    let members ← namedMembers? members
    let (sets, others) := members.partition fun m => m.1 == "sets"
    if !allDistinct (sets.map (·.1)) then none
    -- All other members are kept until the selector is read, and so must have stored forms.
    let _ ← Json.storedMembers? (limit - 1) (others.map fun m => (some m.1, m.2))
    let key : SelectorKey ← JsonForm.ofJson? (.record others)
    pure ⟨key, ← (Fields.mk sets false).orElse "sets" []⟩
  | _ => none

/-- The entries of a list, which is one level of nesting. -/
def listOfJson? : Json → Option (List CacheEntry)
  | .array items => items.mapM (ofJsonWithin? (Json.nestingLimit - 1))
  | _ => none

end CacheEntry

instance : JsonForm CacheEntry where
  toJson e := .record
    [("matchName", toJson e.key.matchName), ("matchPattern", toJson e.key.matchPattern),
      ("sets", toJson e.sets)]
  ofJson? := CacheEntry.ofJsonWithin? Json.nestingLimit

/-! ## Files -/

/-- The value that a file holds, by a reader of documents. -/
def loadJson {α : Type} (ofJson? : Json → Option α) (d : Disk) (path : String) : Except Error α :=
  match d.readText path with
  | .error fault => .error (.io fault)
  | .ok text =>
    match (Json.parse text).bind ofJson? with
    | some a => .ok a
    | none => .error .json

/-- Reads the state of the cluster. -/
def ClusterState.load (d : Disk) (path : String) : Except Error ClusterState :=
  loadJson JsonForm.ofJson? d path

/-- Reads the entries of the cache. -/
def CacheEntry.loadList (d : Disk) (path : String) : Except Error (List CacheEntry) :=
  loadJson CacheEntry.listOfJson? d path

/-- Reads the cache; without a file it knows nothing. -/
def ResolutionCache.load (d : Disk) : Option String → Except Error ResolutionCache
  | none => .ok empty
  | some path => (CacheEntry.loadList d path).map ofEntries

end ClusterFirewall
