import ClusterFirewall.Json.Form
import ClusterFirewall.Policy.Basic

/-!
# The JSON form of policies

Empty lists of blocks cut out, of egress peers and of sets are not written, nor are empty names and
patterns of selectors and ports' protocols and ends that are not given. All else is.
-/

namespace ClusterFirewall

/-- The word of a protocol in a policy. -/
def Protocol.word : Protocol → String
  | .tcp => "TCP"
  | .udp => "UDP"
  | .sctp => "SCTP"

instance : JsonForm Protocol where
  toJson p := .str p.word
  ofJson? j :=
    match j.word? with
    | some "TCP" => some .tcp
    | some "UDP" => some .udp
    | some "SCTP" => some .sctp
    | _ => none

instance : JsonForm PolicyPort where
  toJson p := .record
    (memberOf "protocol" p.protocol ++ [("port", toJson p.port)] ++ memberOf "endPort" p.endPort)
  ofJson? j := do
    let r ← j.fields? ["protocol", "port", "endPort"]
    pure ⟨← r.orElse "protocol" none, ← r.required "port", ← r.orElse "endPort" none⟩

instance : JsonForm IpBlock where
  toJson b := .record ([("cidr", toJson b.cidr)] ++ memberIf (!b.except.isEmpty) "except" b.except)
  ofJson? j := do
    let r ← j.fields? ["cidr", "except"]
    pure ⟨← r.required "cidr", ← r.orElse "except" []⟩

/-- The name of a set, as a record of its own in the JSON form. -/
structure SetRef where
  /-- The name. -/
  name : String
  deriving DecidableEq, Repr

instance : JsonForm SetRef where
  toJson s := .record [("setName", toJson s.name)]
  ofJson? j := do
    let r ← j.fields? ["setName"]
    pure ⟨← r.required "setName"⟩

instance : JsonForm SelectorKey where
  toJson k := .record [("matchName", toJson k.matchName), ("matchPattern", toJson k.matchPattern)]
  ofJson? j := do
    let r ← j.fields? ["matchName", "matchPattern"]
    pure ⟨← r.orElse "matchName" "", ← r.orElse "matchPattern" ""⟩

instance : JsonForm Selector where
  toJson s := .record
    (memberIf (!s.matchName.isEmpty) "matchName" s.matchName ++
      memberIf (!s.matchPattern.isEmpty) "matchPattern" s.matchPattern ++
      memberIf (!s.sets.isEmpty) "sets" (s.sets.map SetRef.mk))
  ofJson? j := do
    let r ← j.fields? ["matchName", "matchPattern", "sets"]
    let sets : List SetRef ← r.orElse "sets" []
    pure ⟨← r.orElse "matchName" "", ← r.orElse "matchPattern" "", sets.map (·.name)⟩

instance : JsonForm IngressRule where
  toJson e := .record [("from", toJson e.sources), ("ports", toJson e.ports)]
  ofJson? j := do
    let r ← j.fields? ["from", "ports"]
    pure ⟨← r.orElse "from" [], ← r.orElse "ports" []⟩

instance : JsonForm EgressRule where
  toJson e := .record
    (memberIf (!e.destinations.isEmpty) "to" e.destinations ++
      memberIf (!e.selectors.isEmpty) "toFQDNs" e.selectors ++ [("ports", toJson e.ports)])
  ofJson? j := do
    let r ← j.fields? ["to", "toFQDNs", "ports"]
    pure ⟨← r.orElse "to" [], ← r.orElse "toFQDNs" [], ← r.orElse "ports" []⟩

instance : JsonForm PolicySpec where
  toJson s := .record [("ingress", toJson s.ingress), ("egress", toJson s.egress)]
  ofJson? j := do
    let r ← j.fields? ["ingress", "egress"]
    pure ⟨← r.orElse "ingress" [], ← r.orElse "egress" []⟩

instance : JsonForm Policy where
  toJson p := .record
    [("namespace", toJson p.space), ("name", toJson p.name), ("spec", toJson p.spec)]
  ofJson? j := do
    let r ← j.fields? ["namespace", "name", "spec"]
    pure ⟨← r.orElse "namespace" Policy.home, ← r.required "name", ← r.orElse "spec" default⟩

end ClusterFirewall
