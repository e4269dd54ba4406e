import ClusterFirewall.Controller.Audit
import ClusterFirewall.Proofs.Disk.Contents
import ClusterFirewall.Proofs.Json.Lawful
import ClusterFirewall.Proofs.Json.OneLine
import ClusterFirewall.Proofs.Text.Rows
import ClusterFirewall.Proofs.Time.Instant

/-!
# Adding to the audit log

An event is written as one line, whatever texts it holds, and this line is read back as the event.
So an event that was added to a log of whole lines is the newest one from then on, and what was read
before follows it, whatever lines the log had. After any number of events, as many events read from
the log are these, the newest first.

Main statement: `readRecent_append`.
-/

namespace ClusterFirewall

theorem Instant.ofJson?_toJson {t : Instant} (h : t.InCalendar) :
    JsonForm.ofJson? (toJson t) = some t := by
  simp only [toJson, JsonForm.ofJson?, Json.str, Option.bind_some, Instant.parse?_text h]

namespace AuditEvent

/-- The events that are made of texts and counts at some time. -/
inductive MadeAt (now : Instant) : AuditEvent → Prop where
  | apply (reason : String) (rules : UInt64) (checksum : String) (error : Option String) :
    MadeAt now (.apply now reason rules.toNat checksum error)
  | unchanged (checksum : String) : MadeAt now (.unchanged now checksum)
  | rejected (policy : String) : MadeAt now (.rejected now policy)
  | persist (count : UInt64) (error : Option String) :
    MadeAt now (.persist now count.toNat error)

/-- An event that is made at a time of the calendar. -/
def Made (e : AuditEvent) : Prop := ∃ now : Instant, now.InCalendar ∧ MadeAt now e

/-! ## Events that are read back -/

/-- The time of an event is one of the calendar, and its details stay as they are when they are
stored. -/
structure Storable (e : AuditEvent) : Prop where
  timestamp : e.timestamp.InCalendar
  details : e.details.stored? (Json.nestingLimit - 1) = some e.details

/-- The names in the details of an event are in order, and its counts fit 64 bits. -/
theorem Made.storable {e : AuditEvent} (h : e.Made) : e.Storable := by
  obtain ⟨now, hnow, hmade⟩ := h
  cases hmade with
  | apply reason rules checksum error =>
    refine ⟨hnow, Json.stored?_record ?_ ?_⟩
    · show ["checksum", "reason", "rule_count"].Pairwise _
      decide
    · simp [Json.stored?_str, Json.stored?_nat rules.toNat_lt]
  | unchanged checksum => exact ⟨hnow, Json.stored?_record (by simp) (by simp [Json.stored?_str])⟩
  | rejected policy => exact ⟨hnow, Json.stored?_record (by simp) (by simp [Json.stored?_str])⟩
  | persist count error =>
    exact ⟨hnow, Json.stored?_record (by simp) (by simp [Json.stored?_nat count.toNat_lt])⟩

theorem ofJson?_toJson_type (t : AuditEventType) : JsonForm.ofJson? (toJson t) = some t := by
  cases t <;> rfl

/-- An event is read back from its document. -/
theorem Storable.ofJson?_toJson {e : AuditEvent} (h : e.Storable) :
    JsonForm.ofJson? (toJson e) = some e := by
  obtain ⟨r, hfields, hlookup⟩ : ∃ r, (toJson e).fields?
      ["timestamp", "event_type", "success", "details", "error"] = some r ∧
        ∀ name, r.given.lookup name = _ :=
    Json.exists_fields (by decide) (List.Sublist.refl _)
  have htime : r.given.lookup "timestamp" = some (toJson e.timestamp) := by
    simp [hlookup]
  have htimestamp : r.required "timestamp" = some e.timestamp := by
    rw [Fields.required, htime, Option.bind_some, Instant.ofJson?_toJson h.timestamp]
  have hword : r.given.lookup "event_type" = some (toJson e.type) := by
    simp [hlookup, List.lookup_cons]
  have htype : r.required "event_type" = some e.type := by
    rw [Fields.required, hword, Option.bind_some, ofJson?_toJson_type]
  have hsuccess : r.required "success" = some e.success :=
    Fields.required_of_lookup (by simp [hlookup, List.lookup_cons])
  have hdetails : r.given.lookup "details" = some e.details := by
    simp [hlookup, List.lookup_cons]
  have herror : r.given.lookup "error" = some (toJson e.error) := by
    simp [hlookup, List.lookup_cons]
  have herror' : r.orElse "error" none = some e.error := by
    simp only [Fields.orElse, herror]
    exact ofJson?_toJson_option e.error
  simp [JsonForm.ofJson?, hfields, htimestamp, htype, hsuccess, hdetails, herror, herror',
    h.details]

/-- An event is read back from its line. -/
theorem Storable.read?_line {e : AuditEvent} (h : e.Storable) :
    Json.read? AuditEvent e.line = some e := by
  rw [line, Json.read?, Json.parse_compact, Option.bind_some, h.ofJson?_toJson]

/-- No control character is in a line. -/
theorem not_mem_line (e : AuditEvent) {c : Char} (hc : ¬ Json.Printable c) :
    c ∉ e.line.toList := by
  intro hmem
  rw [line, Json.compact, String.toList_ofList] at hmem
  exact hc (Json.compactChars_printable _ c hmem)

end AuditEvent

namespace AuditLog

/-! ## Lines that are added -/

/-- The text of a log with these events. -/
def textOf (events : List AuditEvent) : String :=
  String.join (events.map fun e => e.line ++ "\n")

variable {text : String} {e : AuditEvent} {es : List AuditEvent}

/-- A line of an event is one line more. -/
theorem lines_append_event (htext : Text.IsWhole text) (e : AuditEvent) :
    Text.lines (text ++ e.line ++ "\n") = Text.lines text ++ [e.line] :=
  Text.lines_append_line htext (e.not_mem_line (by decide)) (e.not_mem_line (by decide))

/-- The event whose line was added last is the newest one. -/
theorem recentEvents_append_event (htext : Text.IsWhole text) (he : e.Storable) (k : Nat) :
    recentEvents (text ++ e.line ++ "\n") (k + 1) = e :: recentEvents text k := by
  rw [recentEvents, lines_append_event htext, List.reverse_concat, List.take_succ_cons,
    List.filterMap_cons_some he.read?_line, recentEvents]

theorem textOf_cons (e : AuditEvent) (es : List AuditEvent) :
    textOf (e :: es) = e.line ++ "\n" ++ textOf es := by
  apply String.toList_inj.1
  simp [textOf]

/-- Events whose lines were added one after the other are the newest ones, in reverse order. -/
theorem recentEvents_append_textOf (htext : Text.IsWhole text) (hes : ∀ e ∈ es, e.Storable)
    (k : Nat) : recentEvents (text ++ textOf es) (k + es.length) =
      es.reverse ++ recentEvents text k := by
  induction es generalizing text k with
  | nil => simp [textOf]
  | cons e es ih =>
    obtain ⟨he, hrest⟩ := List.forall_mem_cons.1 hes
    have hwhole : Text.IsWhole (text ++ e.line ++ "\n") := .inr ⟨text ++ e.line, rfl⟩
    calc recentEvents (text ++ textOf (e :: es)) (k + (e :: es).length)
      _ = recentEvents (text ++ e.line ++ "\n" ++ textOf es) (k + 1 + es.length) := by
        rw [textOf_cons, List.length_cons, Nat.add_right_comm, Nat.add_assoc]
        simp only [String.append_assoc]
      _ = es.reverse ++ recentEvents (text ++ e.line ++ "\n") (k + 1) := ih hwhole hrest (k + 1)
      _ = (e :: es).reverse ++ recentEvents text k := by
        rw [recentEvents_append_event htext he, List.reverse_cons, List.append_assoc]
        rfl

/-! ## Logs on a disk -/

/-- Adds events to a log, one after the other. -/
def appendAll (d : Disk) (path : String) (es : List AuditEvent) : Except Fault Disk :=
  es.foldlM (fun d e => append d path e) d

/-- A log has a text, none if it is missing, and can be added to. -/
structure Holds (d : Disk) (path text : String) : Prop where
  appendable : d.Appendable path
  bytes : (d.bytes? path).getD .empty = text.toUTF8

section Holds

variable {d : Disk} {path : String}

theorem readRecent_eq (h : d.bytes? path = some text.toUTF8) (k : Nat) :
    readRecent d path k = .ok (recentEvents text k) := by
  rw [readRecent, Disk.readText_eq_ok_iff.2 h]
  rfl

/-- An event can be added to a log, which then has one line more. -/
theorem Holds.exists_append (h : Holds d path text) (e : AuditEvent) :
    ∃ d', append d path e = .ok d' ∧ Holds d' path (text ++ e.line ++ "\n") ∧
      d'.bytes? path = some (text ++ e.line ++ "\n").toUTF8 := by
  obtain ⟨d', happend, hmore⟩ := h.appendable.exists_append (e.line ++ "\n").toUTF8
  have hbytes : d'.bytes? path = some (text ++ e.line ++ "\n").toUTF8 := by
    rw [Disk.bytes?_change_self happend, h.bytes, String.append_assoc]
    exact congrArg some (String.toByteArray_append ..).symm
  exact ⟨d', happend, ⟨hmore, by rw [hbytes]; rfl⟩, hbytes⟩

/-- Events can be added to a log one after the other; the first one makes it if it is missing. -/
theorem Holds.exists_appendAll (h : Holds d path text) (es : List AuditEvent)
    (hthere : es ≠ [] ∨ (d.bytes? path).isSome) :
    ∃ d', appendAll d path es = .ok d' ∧ d'.bytes? path = some (text ++ textOf es).toUTF8 := by
  induction es generalizing d text with
  | nil =>
    obtain ⟨bytes, hbytes⟩ := Option.isSome_iff_exists.1 (hthere.resolve_left (· rfl))
    have htext := h.bytes
    rw [hbytes, Option.getD_some] at htext
    exact ⟨d, rfl, by simp [textOf, hbytes, htext]⟩
  | cons e es ih =>
    obtain ⟨d₁, happend, hholds, hbytes⟩ := h.exists_append e
    obtain ⟨d', hall, htext⟩ := ih hholds (.inr (by rw [hbytes]; rfl))
    refine ⟨d', bind_eq_ok_iff.2 ⟨d₁, happend, hall⟩, ?_⟩
    rw [htext, textOf_cons]
    simp only [String.append_assoc]

end Holds

/-- An event that is added to a log of whole lines makes it one line longer. Reading one event more
than before gives this event and then what was read before. On a log that is empty or missing, as
many events as were added are read back, the newest first, just as they were. -/
theorem readRecent_append (path : String) :
    (∀ (d : Disk) (text : String) (e : AuditEvent), d.bytes? path = some text.toUTF8 →
      d.Appendable path → Text.IsWhole text → e.Made →
        ∃ d', append d path e = .ok d' ∧ record (some path) e d = d' ∧
          d'.bytes? path = some (text ++ e.line ++ "\n").toUTF8 ∧
          Text.lines (text ++ e.line ++ "\n") = Text.lines text ++ [e.line] ∧
          ∀ k, ∃ before, readRecent d path k = .ok before ∧
            readRecent d' path (k + 1) = .ok (e :: before)) ∧
    ∀ (d : Disk) (es : List AuditEvent), (d.bytes? path).getD .empty = .empty →
      (es ≠ [] ∨ (d.bytes? path).isSome) → d.Appendable path → (∀ e ∈ es, e.Made) →
        ∃ d', appendAll d path es = .ok d' ∧ readRecent d' path es.length = .ok es.reverse := by
  constructor
  · intro d text e htext happendable hwhole hmade
    have hholds : Holds d path text := ⟨happendable, by rw [htext]; rfl⟩
    obtain ⟨d', happend, -, hbytes⟩ := hholds.exists_append e
    refine ⟨d', happend, by rw [record, happend], hbytes, lines_append_event hwhole e, fun k => ?_⟩
    refine ⟨recentEvents text k, readRecent_eq htext k, ?_⟩
    rw [readRecent_eq hbytes, recentEvents_append_event hwhole hmade.storable]
  · intro d es hempty hthere happendable hmade
    have hholds : Holds d path "" := ⟨happendable, hempty⟩
    obtain ⟨d', hall, hbytes⟩ := hholds.exists_appendAll es hthere
    refine ⟨d', hall, ?_⟩
    have hrecent := recentEvents_append_textOf (.inl rfl) (fun e he => (hmade e he).storable) 0
    rw [Nat.zero_add] at hrecent
    rw [readRecent_eq hbytes, hrecent]
    exact congrArg Except.ok (List.append_nil _)

/-- An event with line breaks, quotes and control characters in its texts. -/
def odd : AuditEvent := .apply .epoch "a\nb" 3 "\"\\\x01é" (some "c\x7b\r")

theorem made_odd : odd.Made :=
  ⟨.epoch, ⟨by decide, by decide⟩, .apply "a\nb" 3 "\"\\\x01é" (some "c\x7b\r")⟩

/-- The event follows a line that is none, and is read twice from a log that was missing. -/
theorem readRecent_append_odd :
    let d : Disk := ⟨[(["audit.log"], .file "none\r\n".toUTF8 0o644)], []⟩
    (∃ d', append d "audit.log" odd = .ok d' ∧ readRecent d' "audit.log" 2 = .ok [odd]) ∧
      ∃ d', appendAll ⟨[], []⟩ "audit.log" [odd, odd] = .ok d' ∧
        readRecent d' "audit.log" 2 = .ok [odd, odd] := by
  intro d
  obtain ⟨hstep, hrun⟩ := readRecent_append "audit.log"
  have htext : d.bytes? "audit.log" = some "none\r\n".toUTF8 := Disk.bytes?_of_find rfl
  obtain ⟨d', happend, -, -, -, hread⟩ :=
    hstep d "none\r\n" odd htext (by decide +kernel) (.inr ⟨"none\r", rfl⟩) made_odd
  obtain ⟨before, hbefore, hafter⟩ := hread 1
  have hnone : recentEvents "none\r\n" 1 = [] := List.length_eq_zero_iff.1 (by decide +kernel)
  rw [readRecent_eq htext, hnone] at hbefore
  obtain rfl := Except.ok.inj hbefore
  refine ⟨⟨d', happend, hafter⟩, ?_⟩
  exact hrun ⟨[], []⟩ [odd, odd] rfl (.inl (List.cons_ne_nil _ _)) (by decide +kernel)
    (by simp [made_odd])

end AuditLog

end ClusterFirewall
