import ClusterFirewall.Controller.Settings
import ClusterFirewall.Proofs.Controller.Sources

/-!
# Canonical texts

Many texts write the same value: members in another order, unknown members, fields left out or
given by their places, other blanks and escapes. Writing the value that was read chooses one of
them, in either layout. A way of writing **keeps** a type if every value is read back from what is
written; then what was written once stays as it is, however often it is read and written.

Main statements: `kept_of_lawful`, a lawful form is kept by both layouts, and
`values_read_back_and_texts_settle`, so are the policies, the services, the firewall, the cluster,
the sets, the entries of the cache and the settings.
-/

namespace ClusterFirewall

namespace Json

/-- The text that the value of a text is written as. -/
def rewritten? (write : Json → String) (α : Type) [JsonForm α] (text : String) : Option String :=
  (read? α text).map fun v => write (toJson v)

/-- A way of writing keeps the values of a type, and the texts that it wrote. -/
structure KeptBy (write : Json → String) (α : Type) [JsonForm α] : Prop where
  read_back : ∀ v : α, read? α (write (toJson v)) = some v
  settles : ∀ text text', rewritten? write α text = some text' →
    read? α text' = read? α text ∧ rewritten? write α text' = some text'

/-- Both layouts keep a type. -/
structure Kept (α : Type) [JsonForm α] : Prop where
  compact : KeptBy compact α
  wide : KeptBy wide α

section Lawful

variable {write : Json → String} {α : Type} [JsonForm α]

/-- If what is written is read back, then writing again what was written changes nothing. -/
theorem keptBy_of_read_back (h : ∀ v : α, read? α (write (toJson v)) = some v) :
    KeptBy write α where
  read_back := h
  settles := by
    intro text text' htext
    obtain ⟨v, hv, rfl⟩ := Option.map_eq_some_iff.1 htext
    refine ⟨(h v).trans hv.symm, ?_⟩
    rw [rewritten?, h v, Option.map_some]

theorem kept_of_lawful [JsonForm.Lawful α] : Kept α where
  compact := keptBy_of_read_back read?_compact
  wide := keptBy_of_read_back read?_wide

end Lawful

end Json

open Fields

instance : JsonForm.Lawful Settings where
  ofJson?_toJson s := by
    obtain ⟨r, hfields, hlookup⟩ : ∃ r,
        (toJson s).fields? ["reconcile_interval_secs", "apply_timeout_secs", "ruleset_path",
          "nft_command", "dry_run", "state_dir"] = some r ∧ ∀ name, r.given.lookup name = _ :=
      Json.exists_fields (by decide) <| by
        simp only [List.map_append]
        exact (List.Sublist.refl _).append (sublist_memberOf _ _)
    simp only [List.lookup_append, lookup_memberOf] at hlookup
    have hinterval : r.orElse "reconcile_interval_secs" Settings.standard.reconcileIntervalSecs =
        some s.reconcileIntervalSecs :=
      orElse_of_lookup_some _ (by simp [hlookup])
    have htimeout : r.orElse "apply_timeout_secs" Settings.standard.applyTimeoutSecs =
        some s.applyTimeoutSecs :=
      orElse_of_lookup_some _ (by simp [hlookup, List.lookup_cons])
    have hpath : r.orElse "ruleset_path" Settings.standard.rulesetPath = some s.rulesetPath :=
      orElse_of_lookup_some _ (by simp [hlookup, List.lookup_cons])
    have hcommand : r.orElse "nft_command" Settings.standard.nftCommand = some s.nftCommand :=
      orElse_of_lookup_some _ (by simp [hlookup, List.lookup_cons])
    have hdry : r.orElse "dry_run" Settings.standard.dryRun = some s.dryRun :=
      orElse_of_lookup_some _ (by simp [hlookup, List.lookup_cons])
    have hfolder : r.orElse "state_dir" none = some s.stateDir :=
      orElse_none_of_lookup (by simp [hlookup, List.lookup_cons])
    simp [JsonForm.ofJson?, hfields, hinterval, htimeout, hpath, hcommand, hdry, hfolder]
  toJson_ne_null _ := nofun

/-- Whatever texts and numbers it holds, a value is read back from either layout; and writing the
value of any text gives a text that has the same value and is written as itself. -/
theorem values_read_back_and_texts_settle :
    Json.Kept PolicySpec ∧ Json.Kept Policy ∧ Json.Kept Service ∧ Json.Kept FirewallSpec ∧
      Json.Kept ClusterState ∧ Json.Kept IpSet ∧ Json.Kept CacheEntry ∧ Json.Kept Settings :=
  ⟨Json.kept_of_lawful, Json.kept_of_lawful, Json.kept_of_lawful, Json.kept_of_lawful,
    Json.kept_of_lawful, Json.kept_of_lawful, Json.kept_of_lawful, Json.kept_of_lawful⟩

/-- Fields in another order, an unknown one and one that is left out are all written the same way
in the end. -/
example : Json.rewritten? Json.compact PolicyPort
    " \x7b\"port\" : 22, \"note\" : [null, 1.5e3], \"protocol\" : \"\\u0054CP\"\x7d" =
      some "\x7b\"protocol\":\"TCP\",\"port\":22\x7d" := by
  decide +kernel

end ClusterFirewall
