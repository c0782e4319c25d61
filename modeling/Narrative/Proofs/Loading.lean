import Mathlib.Data.List.Basic
import Narrative.HostConfig

set_option autoImplicit false

/-!
# A host and its engine read the same settings

A configuration file is read in two ways: for an engine alone, and for a host with its engine. They
agree (`loaders_agree`): a host accepts exactly the texts that its engine accepts and whose `host`
section, if there is one, is well formed, and where that is so it has no objection of its own. The
sections that the text names come out the same either way, the others are those of the profile, and
under the profile of a release there is no difference at all.

The reason is that the defaults agree, which are given once for a whole section and once for each of
its settings: a section that a document lacks and one that says nothing are read alike
(`Toml.Gives.eq_of_omits`), and the preset of a release names nothing. So what a host checks at the end
was checked before (`HostConfig.validate_override`), and nothing of it is seen in what the host comes to
(`HostConfig.ofToml_eq`).

The two ways need not see the same document. The host finds its own section in a table in which dates
stand where tables spelled them, and a text may have no such table. That it has one is the assumption
under which the engine's verdict and the host's section decide.
-/

namespace Narrative

/-! ## Fields that may be left out -/

namespace FieldReader

variable {V α β : Type} {fields left : Fields V}

/-- A record that is read leaves some of its fields over. -/
theorem eq_some_of_readFrom {body : FieldReader V α} {surplus : Bool} {a : α}
    (h : body.readFrom surplus fields = some a) : ∃ left, body fields = some (a, left) := by
  unfold readFrom at h
  split at h
  · next left heq =>
      split at h
      · exact ⟨_, Option.some.inj h ▸ heq⟩
      · cases h
  · next heq => exact ⟨_, Option.some.inj h ▸ heq⟩
  · cases h

/-- What two readers find one after the other. -/
theorem exists_of_bind {first : FieldReader V α} {rest : α → FieldReader V β} {b : β}
    (h : (first >>= rest) fields = some (b, left)) :
    ∃ a between, first fields = some (a, between) ∧ rest a between = some (b, left) := by
  obtain ⟨⟨a, between⟩, hfirst, hrest⟩ := Option.bind_eq_some_iff.1 h
  exact ⟨a, between, hfirst, hrest⟩

/-- A field of a record by name is what stands under its name, or the default. -/
theorem field_named {name : String} {default a : α} {read : V → Option α}
    {members : List (String × V)}
    (h : field name default read (.named members) = some (a, left)) :
    left = .named members ∧
      ((members.find? (·.1 == name)).map (·.2)).elim (a = default) (read · = some a) := by
  obtain ⟨found, between, hslot, hread⟩ := exists_of_bind h
  have hnamed : (fun m : String × V => [name].contains m.1) = (·.1 == name) := by
    funext m
    rw [Bool.eq_iff_iff]
    simp
  rw [slot, hnamed] at hslot
  rw [← List.head?_filter]
  split at hslot
  · next hmissing =>
      cases hslot
      cases hread
      rw [hmissing]
      exact ⟨rfl, rfl⟩
  · next hgiven =>
      cases hslot
      obtain ⟨a', hvalue, hpair⟩ := Option.bind_eq_some_iff.1 hread
      cases hpair
      rw [hgiven]
      exact ⟨rfl, hvalue⟩
  · cases hslot

end FieldReader

/-! ## Documents -/

namespace Toml

/-- What a document has under a key is read as a value; if it has nothing there, the value is the
default. -/
def Gives {α : Type} (document : Toml) (key : String) (read : Toml → Option α) (default a : α) : Prop :=
  (document.entry? key).elim (a = default) (read · = some a)

/-- A document lacks a section, or leaves it empty. -/
def Omits (document : Toml) (key : String) : Prop :=
  document.entry? key = none ∨ ∃ origin, document.entry? key = some (.table origin [])

/-- No profile is named: there is no `host` section, or a table without one. -/
def NamesNoProfile (document : Toml) : Prop :=
  document.entry? "host" = none ∨
    ∃ origin entries, document.entry? "host" = some (.table origin entries) ∧
      Toml.entry? "profile" (.table origin entries) = none

/-- The `host` section of a document, if it has one, is well formed. -/
def HostFits (document : Toml) : Prop :=
  ∀ v, document.entry? "host" = some v → ∃ host, HostSection.read .hostToml v = some host

/-- A document that is read from a text is a table. -/
theorem exists_of_parse? {text : String} {document : Toml} (h : parse? text = some document) :
    ∃ entries, document = .table .header entries := by
  obtain ⟨statements, -, hdocument⟩ := Option.bind_eq_some_iff.1 h
  obtain ⟨entries, -, rfl⟩ := Option.map_eq_some_iff.1 hdocument
  exact ⟨entries, rfl⟩

/-- A section that is left out means the same as one that is empty, if that is what its reader makes
of the latter. -/
theorem Gives.eq_of_omits {α : Type} {document : Toml} {key : String} {read : Toml → Option α}
    {default a : α} (h : document.Gives key read default a) (homits : document.Omits key)
    (hempty : ∀ origin, read (.table origin []) = some default) : a = default := by
  unfold Gives at h
  rcases homits with hmissing | ⟨origin, hgiven⟩
  · rwa [hmissing] at h
  · rw [hgiven] at h
    exact Option.some.inj (h.symm.trans (hempty origin))

/-- Whether a document names a section or not, what it gives is the section or the default. -/
theorem Gives.eq_ite {α : Type} {document : Toml} {key : String} {read : Toml → Option α}
    {default a : α} (h : document.Gives key read default a) :
    (if (document.entry? key).isSome then a else default) = a := by
  unfold Gives at h
  cases hentry : document.entry? key with
  | none =>
      rw [hentry] at h
      exact h.symm
  | some v => rfl

theorem isSome_entry?_table (origin : TableOrigin) (entries : Entries) (key : String) :
    (Toml.entry? key (.table origin entries)).isSome = (entries.map Prod.fst).contains key := by
  rw [Toml.entry?, Option.isSome_map, Bool.eq_iff_iff, List.find?_isSome]
  simp

/-- To put dates in their place leaves the keys of a table as they are. -/
theorem keys_datedEntries? {entries dated : Entries} (h : datedEntries? entries = some dated) :
    dated.map Prod.fst = entries.map Prod.fst := by
  induction entries generalizing dated with
  | nil =>
      cases h
      rfl
  | cons e rest ih =>
      obtain ⟨v, -, h⟩ := Option.bind_eq_some_iff.1 h
      obtain ⟨later, hlater, h⟩ := Option.bind_eq_some_iff.1 h
      cases h
      rw [List.map_cons, List.map_cons, ih hlater]

/-- The same sections are named whether or not dates are put in their place. -/
theorem isSome_entry?_withDates? {document dated : Toml} (h : document.withDates? = some dated)
    (key : String) : (dated.entry? key).isSome = (document.entry? key).isSome := by
  cases document with
  | table origin entries =>
      obtain ⟨datedEntries, hentries, rfl⟩ := Option.map_eq_some_iff.1 h
      rw [isSome_entry?_table, isSome_entry?_table, keys_datedEntries? hentries]
  | _ =>
      cases h
      rfl

end Toml

/-! ## What an engine reads -/

namespace EngineConfig

variable {document : Toml} {config : EngineConfig}

/-- What is read from a document keeps to its sections. -/
theorem gives_of_read {origin : TableOrigin} {entries : Toml.Entries}
    (h : read .engineToml (.table origin entries) = some config) :
    (Toml.table origin entries).Gives "general" (GeneralConfig.read .engineToml) {}
        config.general ∧
      (Toml.table origin entries).Gives "dispatch" (DispatchConfig.read .engineToml) {}
        config.dispatch ∧
      (Toml.table origin entries).Gives "diagnostics" (DiagnosticsConfig.read .engineToml) {}
        config.diagnostics := by
  obtain ⟨_, hbody⟩ := FieldReader.eq_some_of_readFrom h
  obtain ⟨general, _, hfield, hbody⟩ := FieldReader.exists_of_bind hbody
  obtain ⟨rfl, hgeneral⟩ := FieldReader.field_named hfield
  obtain ⟨dispatch, _, hfield, hbody⟩ := FieldReader.exists_of_bind hbody
  obtain ⟨rfl, hdispatch⟩ := FieldReader.field_named hfield
  obtain ⟨diagnostics, _, hfield, hbody⟩ := FieldReader.exists_of_bind hbody
  obtain ⟨rfl, hdiagnostics⟩ := FieldReader.field_named hfield
  cases hbody
  exact ⟨hgeneral, hdispatch, hdiagnostics⟩

theorem validate_ok_iff : config.validate = .ok () ↔ 1 ≤ config.dispatch.maxDepth := by
  unfold validate
  split
  · next hzero => simp [hzero]
  · next hdepth =>
      have hone : 1 ≤ config.dispatch.maxDepth := by grind
      simp [hone]

/-- An engine is configured by what is read from its document, and never so that it would refuse all
dispatches. -/
theorem read_of_ofDocument (h : ofDocument document = .ok config) :
    read .engineToml document = some config ∧ 1 ≤ config.dispatch.maxDepth := by
  unfold ofDocument at h
  cases hread : read .engineToml document with
  | none =>
      rw [hread] at h
      cases h
  | some c =>
      rw [hread] at h
      change (c.validate >>= fun _ => pure c) = _ at h
      cases hvalid : c.validate with
      | error =>
          rw [hvalid] at h
          cases h
      | ok =>
          rw [hvalid] at h
          cases h
          exact ⟨rfl, validate_ok_iff.1 hvalid⟩

/-- What an engine is configured with keeps to the sections of its document. -/
theorem gives_of_ofDocument {origin : TableOrigin} {entries : Toml.Entries}
    (hdocument : document = .table origin entries) (h : ofDocument document = .ok config) :
    document.Gives "general" (GeneralConfig.read .engineToml) {} config.general ∧
      document.Gives "dispatch" (DispatchConfig.read .engineToml) {} config.dispatch ∧
      document.Gives "diagnostics" (DiagnosticsConfig.read .engineToml) {} config.diagnostics := by
  subst hdocument
  exact gives_of_read (read_of_ofDocument h).1

theorem ofToml_of_parse? {text : String} (h : Toml.parse? text = some document) :
    ofToml text = ofDocument document := by
  rw [ofToml, h]
  rfl

theorem exists_parse?_of_ofToml {text : String} (h : ofToml text = .ok config) :
    ∃ document, Toml.parse? text = some document := by
  rw [ofToml] at h
  cases hparse : Toml.parse? text with
  | none =>
      rw [hparse] at h
      cases h
  | some document => exact ⟨document, rfl⟩

end EngineConfig

/-! ## What a host reads -/

namespace HostConfig

variable {text : String} {document table : Toml} {host : HostSection} {authored : EngineConfig}

/-- The table in which a host finds its own section. -/
def table? (text : String) : Option Toml := (Toml.parse? text).bind Toml.withDates?

/-- What a host comes to: the preset of its profile, with the sections that the document names. -/
def merge (host : HostSection) (document : Toml) (authored : EngineConfig) : HostConfig where
  profile := host.profile
  engine := override (ofProfile host.profile).engine document authored
  autoCompleteScenes :=
    host.autoCompleteScenes.getD (ofProfile host.profile).autoCompleteScenes

theorem sectionOf_ok_iff : sectionOf table = .ok host ↔
    table.Gives "host" (HostSection.read .hostToml) {} host := by
  unfold sectionOf Toml.Gives
  cases table.entry? "host" with
  | none => simp [eq_comm]
  | some v =>
      show LoadError.orConfigText (HostSection.read .hostToml v) = _ ↔
        HostSection.read .hostToml v = some host
      cases HostSection.read .hostToml v <;> simp [LoadError.orConfigText]

/-- A section that fits is read, and so is one that is not there. -/
theorem exists_sectionOf_iff : (∃ host, sectionOf table = .ok host) ↔ table.HostFits := by
  simp only [sectionOf_ok_iff, Toml.Gives, Toml.HostFits]
  cases table.entry? "host" <;> simp

theorem sectionOf_error {err : LoadError} (h : sectionOf table = .error err) : err = .configText := by
  unfold sectionOf at h
  split at h
  · unfold LoadError.orConfigText at h
    split at h
    · cases h
    · exact (Except.error.inj h).symm
  · cases h

/-- **What a host checks at the end was checked before.** A section of dispatches that the document
names is one that its engine has accepted, and every preset allows dispatches. -/
theorem validate_override (h : EngineConfig.ofDocument document = .ok authored)
    (profile : ContentProfile) :
    (override (ofProfile profile).engine document authored).validate = .ok () := by
  have hdispatch : (override (ofProfile profile).engine document authored).dispatch =
      if (document.entry? "dispatch").isSome then authored.dispatch
      else (ofProfile profile).engine.dispatch := rfl
  rw [EngineConfig.validate_ok_iff, hdispatch]
  split
  · exact (EngineConfig.read_of_ofDocument h).2
  · cases profile <;> decide

/-- What a host makes of a text in which it finds its own section: the last check is left out. -/
theorem ofToml_eq (hparse : Toml.parse? text = some document)
    (hdates : document.withDates? = some table) (hsection : sectionOf table = .ok host) :
    ofToml text = (EngineConfig.ofToml text).map (merge host document) := by
  rw [EngineConfig.ofToml_of_parse? hparse, ofToml, hparse]
  simp only [LoadError.orConfigText, hdates, hsection, bind, Except.bind]
  cases hauthored : EngineConfig.ofDocument document with
  | error => rfl
  | ok authored =>
      have hprofile : (ofProfile host.profile).profile = host.profile := by
        cases host.profile <;> rfl
      simp [validate_override hauthored, Except.map, merge, hprofile, pure, Except.pure]

/-- A host whose own section fits is configured if its engine is, and refuses the text for the same
reason otherwise. -/
theorem ofToml_of_fits (h : ∃ table, table? text = some table ∧ table.HostFits) :
    ∃ document table host, Toml.parse? text = some document ∧ document.withDates? = some table ∧
      sectionOf table = .ok host ∧
      ofToml text = (EngineConfig.ofToml text).map (merge host document) := by
  obtain ⟨table, htable, hfits⟩ := h
  obtain ⟨document, hparse, hdates⟩ := Option.bind_eq_some_iff.1 htable
  obtain ⟨host, hsection⟩ := exists_sectionOf_iff.2 hfits
  exact ⟨document, table, host, hparse, hdates, hsection, ofToml_eq hparse hdates hsection⟩

/-- A host whose own section does not fit refuses the text. -/
theorem ofToml_of_not_fits (h : ¬∃ table, table? text = some table ∧ table.HostFits) :
    ofToml text = .error .configText := by
  rw [ofToml]
  cases hparse : Toml.parse? text with
  | none => rfl
  | some document =>
      cases hdates : document.withDates? with
      | none => simp [LoadError.orConfigText, hdates, bind, Except.bind]
      | some table =>
          have htable : table? text = some table := by rw [table?, hparse, Option.bind_some, hdates]
          cases hsection : sectionOf table with
          | ok host => exact absurd ⟨table, htable, exists_sectionOf_iff.1 ⟨host, hsection⟩⟩ h
          | error err =>
              obtain rfl := sectionOf_error hsection
              simp [LoadError.orConfigText, hdates, hsection, bind, Except.bind]

/-- The settings of a release are those that its engine would have alone. -/
theorem override_release {origin : TableOrigin} {entries : Toml.Entries}
    (hdocument : document = .table origin entries)
    (h : EngineConfig.ofDocument document = .ok authored) :
    override (ofProfile .release).engine document authored = authored := by
  obtain ⟨hgeneral, hdispatch, hdiagnostics⟩ := EngineConfig.gives_of_ofDocument hdocument h
  rw [override]
  simp only [ofProfile, hgeneral.eq_ite, hdispatch.eq_ite, hdiagnostics.eq_ite]

/-- Who names no profile has that of a release. -/
theorem profile_of_namesNoProfile (h : sectionOf table = .ok host) (hnone : table.NamesNoProfile) :
    host.profile = .release := by
  have hgives := sectionOf_ok_iff.1 h
  unfold Toml.Gives at hgives
  rcases hnone with hmissing | ⟨origin, entries, hgiven, hunnamed⟩
  · rw [hmissing] at hgives
    exact congrArg HostSection.profile hgives
  · rw [hgiven] at hgives
    obtain ⟨_, hbody⟩ := FieldReader.eq_some_of_readFrom hgives
    obtain ⟨profile, _, hfield, hbody⟩ := FieldReader.exists_of_bind hbody
    obtain ⟨rfl, hprofile⟩ := FieldReader.field_named hfield
    obtain ⟨auto, _, -, hbody⟩ := FieldReader.exists_of_bind hbody
    cases hbody
    change (Toml.entry? "profile" (.table origin entries)).elim _ _ at hprofile
    rw [hunnamed] at hprofile
    exact hprofile

/-- A host that is configured has read a document, its own section and the settings of its engine. -/
theorem exists_of_ofToml_ok {config : HostConfig} (h : ofToml text = .ok config) :
    ∃ document table host authored, Toml.parse? text = some document ∧
      document.withDates? = some table ∧ sectionOf table = .ok host ∧
      EngineConfig.ofToml text = .ok authored ∧ config = merge host document authored := by
  by_cases hfits : ∃ table, table? text = some table ∧ table.HostFits
  · obtain ⟨document, table, host, hparse, hdates, hsection, heq⟩ := ofToml_of_fits hfits
    rw [heq] at h
    cases hauthored : EngineConfig.ofToml text with
    | error err =>
        rw [hauthored] at h
        cases h
    | ok authored =>
        rw [hauthored] at h
        exact ⟨document, table, host, authored, hparse, hdates, hsection, rfl,
          (Except.ok.inj h).symm⟩
  · rw [ofToml_of_not_fits hfits] at h
    cases h

/-- A host is configured if its engine is and its own section fits. -/
theorem exists_ofToml_iff : (∃ c, ofToml text = .ok c) ↔
    (∃ e, EngineConfig.ofToml text = .ok e) ∧
      ∃ table, table? text = some table ∧ table.HostFits := by
  constructor
  · rintro ⟨c, hc⟩
    obtain ⟨document, table, host, e, hparse, hdates, hsection, he, -⟩ := exists_of_ofToml_ok hc
    have htable : table? text = some table := Option.bind_eq_some_iff.2 ⟨document, hparse, hdates⟩
    exact ⟨⟨e, he⟩, table, htable, exists_sectionOf_iff.1 ⟨host, hsection⟩⟩
  · rintro ⟨⟨e, he⟩, hfits⟩
    obtain ⟨document, table, host, -, -, -, heq⟩ := ofToml_of_fits hfits
    rw [heq, he]
    exact ⟨_, rfl⟩

end HostConfig

/-- **A host and its engine read the same settings.** A host is configured by exactly the texts that
configure its engine and in which its own section, if there is one, is well formed, provided that it
has a table to find it in whenever the text is a document. Other texts it refuses for the reason that
its engine has, or because its section is no configuration.

A host that is configured has the profile of its section. The sections that the text names are those of
the engine alone, the others those of the profile; some dispatch is allowed, and no text is refused on
that account that the engine has accepted. Under the profile of a release, which is also the one of a
text that names none, all settings are those of the engine alone. A section that is absent or empty has
the defaults. -/
theorem loaders_agree (text : String) :
    let fits := ∃ table, HostConfig.table? text = some table ∧ table.HostFits
    ((∃ c, HostConfig.ofToml text = .ok c) ↔ (∃ e, EngineConfig.ofToml text = .ok e) ∧ fits) ∧
    ((∀ document, Toml.parse? text = some document → ∃ table, document.withDates? = some table) →
      ((∃ c, HostConfig.ofToml text = .ok c) ↔ (∃ e, EngineConfig.ofToml text = .ok e) ∧
        ∀ table, HostConfig.table? text = some table → table.HostFits)) ∧
    (¬fits → HostConfig.ofToml text = .error .configText) ∧
    (fits → ∀ err, EngineConfig.ofToml text = .error err → HostConfig.ofToml text = .error err) ∧
    (∀ c, HostConfig.ofToml text = .ok c → ∃ table host e,
      HostConfig.table? text = some table ∧ HostConfig.sectionOf table = .ok host ∧
      EngineConfig.ofToml text = .ok e ∧ c.profile = host.profile ∧
      c.engine.general = (if (table.entry? "general").isSome then e.general
        else (HostConfig.ofProfile c.profile).engine.general) ∧
      c.engine.dispatch = (if (table.entry? "dispatch").isSome then e.dispatch
        else (HostConfig.ofProfile c.profile).engine.dispatch) ∧
      c.engine.diagnostics = (if (table.entry? "diagnostics").isSome then e.diagnostics
        else (HostConfig.ofProfile c.profile).engine.diagnostics) ∧
      1 ≤ c.engine.dispatch.maxDepth ∧
      (c.profile = .release ∨ table.NamesNoProfile → c.profile = .release ∧ c.engine = e) ∧
      (table.Omits "host" → host = {})) ∧
    ∀ document e, Toml.parse? text = some document → EngineConfig.ofToml text = .ok e →
      (∀ profile, (HostConfig.override (HostConfig.ofProfile profile).engine document e).validate =
        .ok ()) ∧
      (document.Omits "general" → e.general = {}) ∧ (document.Omits "dispatch" → e.dispatch = {}) ∧
      (document.Omits "diagnostics" → e.diagnostics = {}) := by
  intro fits
  refine ⟨HostConfig.exists_ofToml_iff, fun hsees => ?_, HostConfig.ofToml_of_not_fits,
    fun hfits err herr => ?_, fun c hc => ?_, fun document e hparse he => ?_⟩
  · refine HostConfig.exists_ofToml_iff.trans (and_congr_right fun ⟨e, he⟩ => ?_)
    obtain ⟨document, hparse⟩ := EngineConfig.exists_parse?_of_ofToml he
    obtain ⟨table, hdates⟩ := hsees document hparse
    have htable : HostConfig.table? text = some table :=
      Option.bind_eq_some_iff.2 ⟨document, hparse, hdates⟩
    simp [htable]
  · obtain ⟨document, table, host, -, -, -, heq⟩ := HostConfig.ofToml_of_fits hfits
    rw [heq, herr]
    rfl
  · obtain ⟨document, table, host, e, hparse, hdates, hsection, he, rfl⟩ :=
      HostConfig.exists_of_ofToml_ok hc
    have htable : HostConfig.table? text = some table :=
      Option.bind_eq_some_iff.2 ⟨document, hparse, hdates⟩
    have hdocument : EngineConfig.ofDocument document = .ok e :=
      (EngineConfig.ofToml_of_parse? hparse).symm.trans he
    have hnamed := Toml.isSome_entry?_withDates? hdates
    obtain ⟨entries, htree⟩ := Toml.exists_of_parse? hparse
    refine ⟨table, host, e, htable, hsection, he, rfl, ?_, ?_, ?_, ?_, fun hrelease => ?_,
      fun homits => ?_⟩
    · rw [hnamed]
      rfl
    · rw [hnamed]
      rfl
    · rw [hnamed]
      rfl
    · exact EngineConfig.validate_ok_iff.1 (HostConfig.validate_override hdocument host.profile)
    · have hprofile : host.profile = .release :=
        hrelease.elim id (HostConfig.profile_of_namesNoProfile hsection)
      refine ⟨hprofile, ?_⟩
      rw [HostConfig.merge, hprofile]
      exact HostConfig.override_release htree hdocument
    · exact (HostConfig.sectionOf_ok_iff.1 hsection).eq_of_omits homits fun _ => rfl
  · have hdocument : EngineConfig.ofDocument document = .ok e :=
      (EngineConfig.ofToml_of_parse? hparse).symm.trans he
    obtain ⟨entries, htree⟩ := Toml.exists_of_parse? hparse
    obtain ⟨hgeneral, hdispatch, hdiagnostics⟩ :=
      EngineConfig.gives_of_ofDocument htree hdocument
    exact ⟨HostConfig.validate_override hdocument,
      fun homits => hgeneral.eq_of_omits homits fun _ => rfl,
      fun homits => hdispatch.eq_of_omits homits fun _ => rfl,
      fun homits => hdiagnostics.eq_of_omits homits fun _ => rfl⟩

/-- A file for writers with a section of dispatches: the section is the one that the engine has alone,
with the defaults where the preset of the profile is strict. The diagnostics are those of the preset. -/
theorem dispatch_section_replaces_preset :
    let text := "[host]\nprofile = \"authoring\"\n[dispatch]\nmax_depth = 3\n"
    let preset := HostConfig.ofProfile .authoring
    ∃ e, EngineConfig.ofToml text = .ok e ∧ e.dispatch = { maxDepth := 3 } ∧
      HostConfig.ofToml text = .ok
        { preset with engine := { preset.engine with dispatch := e.dispatch } } ∧
      e.diagnostics ≠ preset.engine.diagnostics := by
  intro text preset
  have hconfig : HostConfig.ofToml text = .ok
      { preset with engine := { preset.engine with dispatch := { maxDepth := 3 } } } := by
    decide +kernel
  have hnamed : ((HostConfig.table? text).bind (Toml.entry? "dispatch")).isSome = true := by
    decide +kernel
  have hunnamed : (Toml.parse? text).bind (Toml.entry? "diagnostics") = none := by
    decide +kernel
  obtain ⟨-, -, -, -, hloaded, hdefaults⟩ := loaders_agree text
  obtain ⟨table, host, e, htable, -, he, -, -, hdispatch, -⟩ := hloaded _ hconfig
  rw [htable, Option.bind_some] at hnamed
  rw [if_pos hnamed] at hdispatch
  obtain ⟨document, hparse⟩ := EngineConfig.exists_parse?_of_ofToml he
  rw [hparse, Option.bind_some] at hunnamed
  obtain ⟨-, -, -, hdiagnostics⟩ := hdefaults document e hparse he
  refine ⟨e, he, hdispatch.symm, hdispatch ▸ hconfig, ?_⟩
  rw [hdiagnostics (.inl hunnamed)]
  decide

/-- A table with the mark of a date and no date: nothing is the matter with the engine's section, but a
host finds no table at all. -/
example :
    let text := "[general]\n\"$__toml_private_datetime\" = 1\n"
    EngineConfig.ofToml text = .ok {} ∧ HostConfig.table? text = none ∧
      HostConfig.ofToml text = .error .configText := by
  decide +kernel

end Narrative
