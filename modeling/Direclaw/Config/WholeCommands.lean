import Direclaw.Config.Commands
import Direclaw.Config.SettingsChecks
import Direclaw.Config.SetupInvariants

/-!
# Whole commands

When a configuration command leaves the daemon startable, or fails and leaves every file as
it was.
-/

namespace Direclaw.Config

open Direclaw.Lib Direclaw.Orchestration

/-! ## Where an orchestrator is kept -/

theorem not_absolute_of_identifier {kind id : String} (h : validateIdentifierValue kind id = .ok ()) :
    isAbsolutePath id = false := by
  unfold validateIdentifierValue at h
  split at h
  · cases h
  · split at h
    · next hall =>
        unfold isAbsolutePath
        cases hid : id.toList with
        | nil => rfl
        | cons c rest =>
          rw [hid, List.all_cons, Bool.and_eq_true] at hall
          have hne : c ≠ '/' := by
            rintro rfl
            exact absurd hall.1 (by decide)
          simpa using hne
    · cases h

theorem isAbsolutePath_append {base : String} (child : String) (h : isAbsolutePath base = true) :
    isAbsolutePath (base ++ child) = true := by
  unfold isAbsolutePath at h ⊢
  cases hbase : base.toList with
  | nil => simp [hbase] at h
  | cons c rest =>
    rw [String.toList_append, hbase]
    rwa [hbase] at h

theorem isAbsolutePath_joinPath {base child : String} (hbase : isAbsolutePath base = true)
    (hchild : isAbsolutePath child = false) : isAbsolutePath (joinPath base child) = true := by
  unfold joinPath
  rw [hchild, if_neg Bool.false_ne_true]
  split
  · next hempty =>
      unfold isAbsolutePath at hbase
      rw [List.isEmpty_iff.mp hempty] at hbase
      cases hbase
  · split
    · exact isAbsolutePath_append child hbase
    · exact isAbsolutePath_append child (isAbsolutePath_append "/" hbase)

section Loaded

variable {P : Type} {sys : ConfigSystem P} {settings : GlobalSettings}
  {files : P → Except String OrchestratorConfig} {id : String} {config : OrchestratorConfig}

theorem Command.loadOrchestratorConfig_ok_iff : loadOrchestratorConfig sys settings id files = .ok config ↔
    ∃ workspace, settings.routing.resolvePrivateWorkspace id = .ok workspace ∧
      files (sys.place workspace) = .ok config ∧ config.validate settings.routing id = .ok () := by
  unfold loadOrchestratorConfig
  constructor
  · intro h
    split at h
    · cases h
    · obtain ⟨workspace, hworkspace, h⟩ := bind_eq_ok h
      obtain ⟨held, hheld, h⟩ := bind_eq_ok h
      obtain ⟨_, hvalid, h⟩ := bind_eq_ok h
      cases h
      exact ⟨workspace, mapError_eq_ok hworkspace, hheld, mapError_eq_ok hvalid⟩
  · rintro ⟨workspace, hworkspace, hheld, hvalid⟩
    obtain ⟨-, entry, hentry, -⟩ := resolvePrivateWorkspace_ok_iff.mp hworkspace
    have hknown : (settings.orchestrators.lookup id).isSome := by
      rw [← routing_known, hentry]
      rfl
    rw [if_neg (by simpa using hknown), hworkspace]
    show (files (sys.place workspace) >>= _) = _
    rw [hheld]
    show ((config.validate settings.routing id).mapError ConfigError.display >>= _) = _
    rw [hvalid]
    rfl

end Loaded

/-- The settings say where the orchestrator is, in the same way. -/
structure SamePlace (settings settings' : GlobalSettings) (id : String) : Prop where
  workspacesPath : settings'.workspacesPath = settings.workspacesPath
  workspace : (settings'.orchestrators.lookup id).map (·.privateWorkspace) =
    (settings.orchestrators.lookup id).map (·.privateWorkspace)

theorem SamePlace.known {settings settings' : GlobalSettings} {id : String}
    (h : SamePlace settings settings' id) :
    (settings'.orchestrators.lookup id).isSome = (settings.orchestrators.lookup id).isSome := by
  have hmap := congrArg Option.isSome h.workspace
  rwa [Option.isSome_map, Option.isSome_map] at hmap

theorem SamePlace.resolve {settings settings' : GlobalSettings} {id workspace : String}
    (h : SamePlace settings settings' id)
    (hres : settings.routing.resolvePrivateWorkspace id = .ok workspace) :
    settings'.routing.resolvePrivateWorkspace id = .ok workspace := by
  obtain ⟨hid, entry, hentry, hworkspace, habs⟩ := resolvePrivateWorkspace_ok_iff.mp hres
  rw [routing_lookup] at hentry
  obtain ⟨held, hheld, rfl⟩ := Option.map_eq_some_iff.mp hentry
  obtain ⟨held', hheld', hprivate⟩ := Option.map_eq_some_iff.mp
    (h.workspace.trans (congrArg (Option.map (·.privateWorkspace)) hheld))
  have hsame : held'.privateWorkspace = held.privateWorkspace := hprivate
  refine resolvePrivateWorkspace_ok_iff.mpr ⟨hid, held'.toSettingsOrchestrator, ?_, ?_, habs⟩
  · rw [routing_lookup, hheld']
    rfl
  · unfold workspaceFor at hworkspace ⊢
    rw [show settings'.routing.workspacesPath = settings.routing.workspacesPath from h.workspacesPath]
    rw [← hworkspace, hsame]

/-! ## What a configuration is checked against -/

theorem validate_id {config : OrchestratorConfig} {settings : Settings} {id : String}
    (h : config.validate settings id = .ok ()) : config.id = id := by
  unfold OrchestratorConfig.validate at h
  obtain ⟨_, _, h⟩ := bind_eq_ok h
  obtain ⟨_, hid, _⟩ := bind_eq_ok h
  unfold ensureConfig at hid
  split at hid
  · next heq => exact eq_of_beq heq
  · cases hid

theorem validate_known {config : OrchestratorConfig} {settings settings' : Settings} {id : String}
    (h : (settings'.orchestrators.lookup id).isSome)
    (hvalid : config.validate settings id = .ok ()) : config.validate settings' id = .ok () := by
  obtain ⟨entry', hentry'⟩ := Option.isSome_iff_exists.mp h
  unfold OrchestratorConfig.validate at hvalid ⊢
  rw [hentry']
  cases hentry : settings.orchestrators.lookup id with
  | none =>
    rw [hentry] at hvalid
    obtain ⟨_, _, hvalid⟩ := bind_eq_ok hvalid
    obtain ⟨_, _, hvalid⟩ := bind_eq_ok hvalid
    obtain ⟨_, _, hvalid⟩ := bind_eq_ok hvalid
    obtain ⟨_, _, hvalid⟩ := bind_eq_ok hvalid
    obtain ⟨_, _, hvalid⟩ := bind_eq_ok hvalid
    cases hvalid
  | some entry =>
    rw [hentry] at hvalid
    exact hvalid

theorem defaultOrchestratorConfig_valid {settings : Settings} {id : String}
    (hid : validateIdentifierValue "orchestrator id" id = .ok ())
    (h : (settings.orchestrators.lookup id).isSome) :
    (Command.defaultOrchestratorConfig id).validate settings id = .ok () := by
  obtain ⟨entry, hentry⟩ := Option.isSome_iff_exists.mp h
  have hsetup := validateSetupInvariants_ok_iff.mpr (initialConfig_setup id "sonnet" .anthropic .minimal)
  unfold OrchestratorConfig.validate Command.defaultOrchestratorConfig
  rw [hsetup, hentry, parseId, hid]
  simp only [seq_ok_iff]
  refine ⟨rfl, ?_, rfl, rfl, rfl, ?_, ?_⟩
  · exact if_pos (beq_self_eq_true id)
  · show validateAgents (templateAgents .anthropic "sonnet" .minimal) = .ok ()
    decide
  · show validateWorkflowTexts (templateWorkflows .minimal) = .ok ()
    decide

namespace Command

variable {P : Type} {sys : ConfigSystem P}

theorem defaultOrchestratorConfig_prompts (id : String) :
    checkPrompts (defaultOrchestratorConfig id) = .ok () := by
  show checkPrompts (defaultOrchestratorConfig "main") = .ok ()
  decide

/-! ## Startable stores -/

/-- `load_settings` and `validate_all_orchestrators`, which a start of the daemon makes. -/
structure Accepts (sys : ConfigSystem P) (s : ConfigStore P) : Prop where
  settings : checkedSettings sys s.settings = .ok ()
  orchestrators : validateAllOrchestrators sys s.settings s.files = .ok ()

/-- The configuration of an orchestrator is found and valid. -/
def Loads (sys : ConfigSystem P) (settings : GlobalSettings)
    (files : P → Except String OrchestratorConfig) (id : String) : Prop :=
  ∃ config, loadOrchestratorConfig sys settings id files = .ok config

section Loading

variable {settings settings' : GlobalSettings} {files : P → Except String OrchestratorConfig}
  {id workspace : String} {config : OrchestratorConfig}

theorem validateAllOrchestrators_ok_iff : validateAllOrchestrators sys settings files = .ok () ↔
    ∀ id, (settings.orchestrators.lookup id).isSome → Loads sys settings files id := by
  have hids : ∀ ids : List String, validateOrchestrators sys settings files ids = .ok () ↔
      ∀ id ∈ ids, Loads sys settings files id := by
    intro ids
    induction ids with
    | nil => simp [validateOrchestrators]
    | cons id ids ih =>
      rw [List.forall_mem_cons, ← ih, validateOrchestrators]
      constructor
      · intro h
        obtain ⟨config, hconfig, h⟩ := bind_eq_ok h
        exact ⟨⟨config, hconfig⟩, h⟩
      · rintro ⟨⟨config, hconfig⟩, h⟩
        rw [hconfig]
        exact h
  rw [validateAllOrchestrators, hids]
  refine forall_congr' fun id => ?_
  rw [List.mem_map, Option.isSome_iff_ne_none, ne_eq, List.lookup_eq_none_iff]
  simp

/-- No other orchestrator is kept where the workspace is. -/
def FreeFor (sys : ConfigSystem P) (settings : GlobalSettings) (id workspace : String) : Prop :=
  ∀ other held, other ≠ id → settings.routing.resolvePrivateWorkspace other = .ok held →
    sys.place held ≠ sys.place workspace

/-- An orchestrator that is kept where it was loads as long as its file was not touched. -/
theorem Loads.samePlace {files' : P → Except String OrchestratorConfig} (h : Loads sys settings files id)
    (hsame : SamePlace settings settings' id)
    (hfiles : ∀ held, settings.routing.resolvePrivateWorkspace id = .ok held →
      files' (sys.place held) = files (sys.place held)) : Loads sys settings' files' id := by
  obtain ⟨held, hload⟩ := h
  obtain ⟨workspace, hworkspace, hheld, hvalid⟩ := loadOrchestratorConfig_ok_iff.mp hload
  have hknown : (settings'.routing.orchestrators.lookup id).isSome := by
    obtain ⟨-, entry, hentry, -⟩ := resolvePrivateWorkspace_ok_iff.mp (hsame.resolve hworkspace)
    rw [hentry]
    rfl
  refine ⟨held, loadOrchestratorConfig_ok_iff.mpr
    ⟨workspace, hsame.resolve hworkspace, ?_, validate_known hknown hvalid⟩⟩
  rw [hfiles workspace hworkspace, hheld]

/-- What is left of a store after the configuration of an orchestrator was written. -/
theorem loads_written_iff [DecidableEq P]
    (h : ∀ other, (settings.orchestrators.lookup other).isSome → Loads sys settings files other)
    (hsame : ∀ other, other ≠ id → SamePlace settings settings' other)
    (hworkspace : settings'.routing.resolvePrivateWorkspace id = .ok workspace)
    (hvalid : config.validate settings'.routing id = .ok ()) :
    (∀ other, (settings'.orchestrators.lookup other).isSome →
      Loads sys settings' (Function.update files (sys.place workspace) (.ok config)) other) ↔
      FreeFor sys settings id workspace := by
  constructor
  · intro hall other held hne hheld heq
    have hheld' := (hsame other hne).resolve hheld
    obtain ⟨-, entry, hentry, -⟩ := resolvePrivateWorkspace_ok_iff.mp hheld'
    have hknown : (settings'.orchestrators.lookup other).isSome := by
      rw [← routing_known, hentry]
      rfl
    obtain ⟨found, hfound⟩ := hall other hknown
    obtain ⟨workspace', hworkspace', hfile, hfound⟩ := loadOrchestratorConfig_ok_iff.mp hfound
    rw [hheld'] at hworkspace'
    cases hworkspace'
    rw [heq, Function.update_self] at hfile
    cases hfile
    exact hne ((validate_id hfound).symm.trans (validate_id hvalid))
  · intro hfree other hknown
    by_cases hother : other = id
    · subst hother
      refine ⟨config, loadOrchestratorConfig_ok_iff.mpr ⟨workspace, hworkspace, ?_, hvalid⟩⟩
      exact Function.update_self ..
    · rw [(hsame other hother).known] at hknown
      exact (h other hknown).samePlace (hsame other hother) fun held hheld =>
        Function.update_of_ne (hfree other held hother hheld) ..

end Loading

/-! ## The parts of a command -/

section Parts

variable {α : Type} {I : ConfigStore P → Prop} {s s₀ : ConfigStore P}

theorem settles_check {β : Type} {x : Except ConfigError β} {f : β → CommandM P α} :
    Settles I s (check x >>= f) s ↔ ∀ b, x = .ok b → Settles I s (f b) s := by
  unfold check
  rw [settles_before]
  exact forall_congr' fun b => imp_congr_left mapError_ok_iff

variable {f : Unit → CommandM P α}

theorem settles_require {holds : Bool} {otherwise : String} :
    Settles I s (require holds otherwise >>= f) s ↔ (holds = true → Settles I s (f ()) s) := by
  unfold require
  rw [settles_before]
  cases holds with
  | true => exact ⟨fun h _ => h () rfl, fun h _ _ => h rfl⟩
  | false =>
    refine iff_of_true ?_ ?_
    · nofun
    · nofun

theorem settles_loadSettings {f : GlobalSettings → CommandM P α}
    (h : checkedSettings sys s.settings = .ok ()) :
    Settles I s (loadSettings sys >>= f) s ↔ Settles I s (f s.settings) s := by
  unfold loadSettings
  rw [bind_assoc, settles_get, bind_assoc, settles_check]
  exact ⟨fun hall => hall () h, fun hrest _ _ => hrest⟩

theorem settles_loadOrchestratorOrErr {settings : GlobalSettings} {id : String}
    {f : OrchestratorConfig → CommandM P α} :
    Settles I s (loadOrchestratorOrErr sys settings id >>= f) s ↔
      ∀ config, loadOrchestratorConfig sys settings id s.files = .ok config →
        Settles I s (f config) s := by
  unfold loadOrchestratorOrErr
  rw [bind_assoc, settles_get, settles_before]

theorem settles_entryOf {settings : GlobalSettings} {id : String}
    {f : GlobalOrchestrator → CommandM P α} :
    Settles I s (entryOf settings id >>= f) s ↔
      ∀ entry, settings.orchestrators.lookup id = some entry → Settles I s (f entry) s := by
  unfold entryOf
  rw [settles_before]
  cases settings.orchestrators.lookup id with
  | none =>
    refine iff_of_true ?_ ?_
    · nofun
    · nofun
  | some entry =>
    constructor
    · rintro h _ ⟨⟩
      exact h entry rfl
    · rintro h _ ⟨⟩
      exact h entry rfl

/-- Settings that are not accepted are not written. -/
theorem settles_refused {settings : GlobalSettings} {f : Unit → CommandM P α}
    (h : checkedSettings sys settings ≠ .ok ()) : Settles I s (saveSettings sys settings >>= f) s := by
  unfold saveSettings
  rw [bind_assoc, settles_check]
  exact fun u hok => absurd hok h

/-- Settings that are accepted are written before the mounts are set. -/
theorem settles_saveSettings {settings : GlobalSettings} (h : checkedSettings sys settings = .ok ())
    :
    Settles I s (saveSettings sys settings >>= f) s ↔
      (sys.settingsMounts settings = .ok () → Settles I s (f ()) { s with settings }) ∧
        (sys.settingsMounts settings ≠ .ok () → { s with settings } = s) := by
  unfold saveSettings
  rw [bind_assoc, settles_check]
  constructor
  · intro hall
    have hrest := hall () h
    rw [bind_assoc, settles_modify, settles_mapError] at hrest
    exact hrest
  · intro hrest _ _
    rw [bind_assoc, settles_modify, settles_mapError]
    exact hrest

variable [DecidableEq P]

def written (sys : ConfigSystem P) (s : ConfigStore P) (workspace : String)
    (config : OrchestratorConfig) : ConfigStore P :=
  { s with files := Function.update s.files (sys.place workspace) (.ok config) }

theorem settles_saveOrchestratorConfig {settings : GlobalSettings} {id workspace : String}
    {config : OrchestratorConfig} (hvalid : config.validate settings.routing id = .ok ())
    (hworkspace : settings.routing.resolvePrivateWorkspace id = .ok workspace)
    {f : String → String} :
    Settles I s₀ (saveOrchestratorConfig sys settings id config >>= fun path => pure (f path)) s ↔
      (checkPrompts config ≠ .ok () → s = s₀) ∧
        (checkPrompts config = .ok () →
          (sys.orchestratorMounts settings id = .ok () → I (written sys s workspace config)) ∧
            (sys.orchestratorMounts settings id ≠ .ok () → written sys s workspace config = s₀)) := by
  unfold saveOrchestratorConfig check
  rw [bind_assoc, settles_of_ok (mapError_ok_iff.mpr hvalid), bind_assoc,
    settles_of_ok (mapError_ok_iff.mpr hworkspace), bind_assoc, settles_mapError, bind_assoc,
    settles_modify, bind_assoc, settles_mapError]
  exact and_comm

end Parts

/-! ## Changed settings -/

/-- No channel profile leads to the orchestrator. -/
def Unreferenced (settings : GlobalSettings) (id : String) : Prop :=
  ∀ profile ∈ settings.channelProfiles, profile.2.orchestratorId ≠ id

def added (settings : GlobalSettings) (id : String) : GlobalSettings :=
  { settings with orchestrators := OrderedMap.insert id {} settings.orchestrators }

def removed (settings : GlobalSettings) (id : String) : GlobalSettings :=
  { settings with orchestrators := OrderedMap.remove id settings.orchestrators }

section Changed

variable {settings : GlobalSettings} {id : String} {entry entry' : GlobalOrchestrator}

theorem checked_added_iff (h : checkedSettings sys settings = .ok ()) :
    checkedSettings sys (added settings id) = .ok () ↔
      validateIdentifierValue "orchestrator id" id = .ok () := by
  obtain ⟨-, hentries, hprofiles⟩ := GlobalSettings.validate_parts h
  refine (GlobalSettings.validate_ok_iff h _).trans ?_
  constructor
  · rintro ⟨hall, -⟩
    have hadded := OrderedMap.lookup_insert_self id ({} : GlobalOrchestrator) settings.orchestrators
    exact (hall (id, {}) (OrderedMap.mem_of_lookup hadded)).1
  · intro hid
    refine ⟨fun held hheld => ?_, fun profile hprofile => ⟨(hprofiles profile hprofile).1, ?_⟩⟩
    · rcases OrderedMap.mem_insert hheld with rfl | hheld
      · exact ⟨hid, by nofun⟩
      · exact hentries held hheld
    · by_cases heq : profile.2.orchestratorId = id
      · rw [heq, OrderedMap.lookup_insert_self]
        rfl
      · rw [OrderedMap.lookup_insert_of_ne heq]
        exact (hprofiles profile hprofile).2

theorem checked_removed_iff (h : checkedSettings sys settings = .ok ()) :
    checkedSettings sys (removed settings id) = .ok () ↔ Unreferenced settings id := by
  obtain ⟨-, hentries, hprofiles⟩ := GlobalSettings.validate_parts h
  refine (GlobalSettings.validate_ok_iff h _).trans ?_
  constructor
  · rintro ⟨-, hall⟩ profile hprofile rfl
    have hknown := (hall profile hprofile).2
    rw [OrderedMap.lookup_remove_self] at hknown
    cases hknown
  · intro hfree
    refine ⟨fun held hheld => hentries held (List.mem_of_mem_filter hheld), ?_⟩
    intro profile hprofile
    refine ⟨(hprofiles profile hprofile).1, ?_⟩
    rw [OrderedMap.lookup_remove_of_ne (hfree profile hprofile)]
    exact (hprofiles profile hprofile).2

theorem checked_withOrchestrator (h : checkedSettings sys settings = .ok ())
    (hentry : settings.orchestrators.lookup id = some entry)
    (hgrants : ∀ grant ∈ entry'.sharedAccess, grant ∈ settings.sharedWorkspaces.map (·.1)) :
    checkedSettings sys (settings.withOrchestrator id entry') = .ok () := by
  obtain ⟨-, hentries, hprofiles⟩ := GlobalSettings.validate_parts h
  refine (GlobalSettings.validate_ok_iff h _).mpr ⟨fun held hheld => ?_, fun profile hprofile => ?_⟩
  · rcases OrderedMap.mem_set hheld with rfl | hheld
    · exact ⟨(hentries (id, entry) (OrderedMap.mem_of_lookup hentry)).1, hgrants⟩
    · exact hentries held hheld
  · refine ⟨(hprofiles profile hprofile).1, ?_⟩
    by_cases heq : profile.2.orchestratorId = id
    · rw [heq, OrderedMap.lookup_set_self hentry]
      rfl
    · rw [OrderedMap.lookup_set_of_ne heq]
      exact (hprofiles profile hprofile).2

theorem entry_grants (h : checkedSettings sys settings = .ok ())
    (hentry : settings.orchestrators.lookup id = some entry) :
    ∀ grant ∈ entry.sharedAccess, grant ∈ settings.sharedWorkspaces.map (·.1) :=
  ((GlobalSettings.validate_parts h).2.1 (id, entry) (OrderedMap.mem_of_lookup hentry)).2

theorem samePlace_added {other : String} (h : other ≠ id) :
    SamePlace settings (added settings id) other where
  workspacesPath := rfl
  workspace := congrArg (Option.map (·.privateWorkspace))
    (OrderedMap.lookup_insert_of_ne h ({} : GlobalOrchestrator) settings.orchestrators)

theorem samePlace_withOrchestrator {other : String} (h : other ≠ id) :
    SamePlace settings (settings.withOrchestrator id entry') other where
  workspacesPath := rfl
  workspace := congrArg (Option.map (·.privateWorkspace))
    (OrderedMap.lookup_set_of_ne h entry' settings.orchestrators)

theorem resolve_added (h : checkedSettings sys settings = .ok ())
    (hid : validateIdentifierValue "orchestrator id" id = .ok ()) :
    (added settings id).routing.resolvePrivateWorkspace id =
      .ok (joinPath settings.workspacesPath id) := by
  refine resolvePrivateWorkspace_ok_iff.mpr ⟨hid, {}, ?_, rfl, ?_⟩
  · rw [routing_lookup]
    exact congrArg _ (OrderedMap.lookup_insert_self id {} settings.orchestrators)
  · exact isAbsolutePath_joinPath (GlobalSettings.validate_parts h).1 (not_absolute_of_identifier hid)

theorem resolve_moved {path : String} (hid : validateIdentifierValue "orchestrator id" id = .ok ())
    (hentry : settings.orchestrators.lookup id = some entry) (hpath : isAbsolutePath path = true) :
    (settings.withOrchestrator id
      { entry with privateWorkspace := some path }).routing.resolvePrivateWorkspace id = .ok path := by
  refine resolvePrivateWorkspace_ok_iff.mpr ⟨hid, { privateWorkspace := some path }, ?_, rfl, hpath⟩
  rw [routing_lookup]
  exact congrArg _ (OrderedMap.lookup_set_self hentry)

end Changed

/-! ## Each change -/

section Changes

variable {s : ConfigStore P} {settings' : GlobalSettings} {id : String}

theorem settles_share_iff (h : Accepts sys s) {entry entry' : GlobalOrchestrator}
    (hentry : s.settings.orchestrators.lookup id = some entry)
    (hprivate : entry'.privateWorkspace = entry.privateWorkspace)
    (hgrants : ∀ grant ∈ entry'.sharedAccess, grant ∈ s.settings.sharedWorkspaces.map (·.1))
    {report : String} :
    Settles (Accepts sys) s
        (saveSettings sys (s.settings.withOrchestrator id entry') >>= fun _ => pure report) s ↔
      (s.settings.withOrchestrator id entry' ≠ s.settings →
        sys.settingsMounts (s.settings.withOrchestrator id entry') = .ok ()) := by
  have hchecked := checked_withOrchestrator h.settings hentry hgrants
  have hsame : ∀ other, SamePlace s.settings (s.settings.withOrchestrator id entry') other := by
    intro other
    by_cases hother : other = id
    · subst hother
      refine ⟨rfl, ?_⟩
      unfold GlobalSettings.withOrchestrator
      rw [OrderedMap.lookup_set_self hentry, hentry]
      exact congrArg some hprivate
    · exact samePlace_withOrchestrator hother
  have haccepts : Accepts sys { s with settings := s.settings.withOrchestrator id entry' } := by
    refine ⟨hchecked, validateAllOrchestrators_ok_iff.mpr fun other hknown => ?_⟩
    have hload := validateAllOrchestrators_ok_iff.mp h.orchestrators other
      ((hsame other).known ▸ hknown)
    exact hload.samePlace (hsame other) fun _ _ => rfl
  rw [settles_saveSettings hchecked]
  constructor
  · rintro ⟨-, hunset⟩ hne
    exact not_not.mp fun hnot => hne (congrArg ConfigStore.settings (hunset hnot))
  · intro hmounts
    refine ⟨fun _ => haccepts, fun hnot => ?_⟩
    have heq : s.settings.withOrchestrator id entry' = s.settings :=
      not_not.mp fun hne => hnot (hmounts hne)
    rw [heq]

/-- What a changed grant needs to be saved as a whole. -/
def ShareKeeps (sys : ConfigSystem P) (settings : GlobalSettings) (id : String)
    (change : GlobalOrchestrator → GlobalOrchestrator) : Prop :=
  ∀ entry, settings.orchestrators.lookup id = some entry →
    settings.withOrchestrator id (change entry) ≠ settings →
      sys.settingsMounts (settings.withOrchestrator id (change entry)) = .ok ()

theorem settles_orchestratorGrantSharedAccess (h : Accepts sys s) {key : String} :
    Settles (Accepts sys) s (orchestratorGrantSharedAccess sys id key) s ↔
      ((s.settings.sharedWorkspaces.lookup key).isSome →
        ShareKeeps sys s.settings id (grant · key)) := by
  unfold orchestratorGrantSharedAccess ShareKeeps
  rw [settles_loadSettings h.settings, settles_require]
  refine forall_congr' fun hkey => ?_
  rw [settles_entryOf]
  refine forall_congr' fun entry => forall_congr' fun hentry => ?_
  have hheld := entry_grants h.settings hentry
  refine settles_share_iff h hentry ?_ fun other hother => ?_
  · unfold grant
    split
    · rfl
    · rfl
  · unfold grant at hother
    split at hother
    · exact hheld other hother
    · rcases List.mem_append.mp hother with hother | hother
      · exact hheld other hother
      · rw [List.mem_singleton.mp hother]
        obtain ⟨shared, hshared⟩ := Option.isSome_iff_exists.mp hkey
        exact List.mem_map_of_mem (OrderedMap.mem_of_lookup hshared)

theorem settles_orchestratorRevokeSharedAccess (h : Accepts sys s) {key : String} :
    Settles (Accepts sys) s (orchestratorRevokeSharedAccess sys id key) s ↔
      ShareKeeps sys s.settings id (revoke · key) := by
  unfold orchestratorRevokeSharedAccess ShareKeeps
  rw [settles_loadSettings h.settings, settles_entryOf]
  refine forall_congr' fun entry => forall_congr' fun hentry => ?_
  have hheld := entry_grants h.settings hentry
  refine settles_share_iff h hentry ?_ fun other hother => hheld other (List.mem_of_mem_filter hother)
  rfl

variable [DecidableEq P]

/-- In a startable store no two orchestrators are kept at one place. -/
theorem Accepts.freeFor (h : Accepts sys s) {workspace : String}
    (hworkspace : s.settings.routing.resolvePrivateWorkspace id = .ok workspace)
    {config : OrchestratorConfig} (hfile : s.files (sys.place workspace) = .ok config)
    (hvalid : config.validate s.settings.routing id = .ok ()) :
    FreeFor sys s.settings id workspace := by
  refine (loads_written_iff (validateAllOrchestrators_ok_iff.mp h.orchestrators)
    (fun _ _ => ⟨rfl, rfl⟩) hworkspace hvalid).mp ?_
  rw [← hfile, Function.update_eq_self]
  exact validateAllOrchestrators_ok_iff.mp h.orchestrators

theorem accepts_written_iff (h : Accepts sys s) {workspace : String} {config : OrchestratorConfig}
    (hchecked : checkedSettings sys settings' = .ok ())
    (hsame : ∀ other, other ≠ id → SamePlace s.settings settings' other)
    (hworkspace : settings'.routing.resolvePrivateWorkspace id = .ok workspace)
    (hvalid : config.validate settings'.routing id = .ok ()) :
    Accepts sys (written sys { s with settings := settings' } workspace config) ↔
      FreeFor sys s.settings id workspace := by
  rw [← loads_written_iff (validateAllOrchestrators_ok_iff.mp h.orchestrators) hsame hworkspace hvalid,
    ← validateAllOrchestrators_ok_iff]
  exact ⟨fun haccepts => haccepts.orchestrators, fun hall => ⟨hchecked, hall⟩⟩

theorem settles_change_iff (h : Accepts sys s) {workspace : String} {config : OrchestratorConfig}
    (hne : settings' ≠ s.settings) (hchecked : checkedSettings sys settings' = .ok ())
    (hsame : ∀ other, other ≠ id → SamePlace s.settings settings' other)
    (hworkspace : settings'.routing.resolvePrivateWorkspace id = .ok workspace)
    (hvalid : config.validate settings'.routing id = .ok ()) {body : CommandM P String}
    (hbody : ∃ report : String → String, body =
      saveOrchestratorConfig sys settings' id config >>= fun path => pure (report path)) :
    Settles (Accepts sys) s (saveSettings sys settings' >>= fun _ => body) s ↔
      sys.settingsMounts settings' = .ok () ∧ checkPrompts config = .ok () ∧
        sys.orchestratorMounts settings' id = .ok () ∧ FreeFor sys s.settings id workspace := by
  obtain ⟨report, rfl⟩ := hbody
  have hstore : ∀ files, (⟨settings', files⟩ : ConfigStore P) ≠ s := by
    rintro files rfl
    exact hne rfl
  rw [settles_saveSettings hchecked, settles_saveOrchestratorConfig hvalid hworkspace,
    accepts_written_iff h hchecked hsame hworkspace hvalid]
  constructor
  · rintro ⟨hsaved, hunset⟩
    have hmounts : sys.settingsMounts settings' = .ok () :=
      not_not.mp fun hnot => hstore _ (hunset hnot)
    obtain ⟨hrefused, hwritten⟩ := hsaved hmounts
    have hprompts : checkPrompts config = .ok () :=
      not_not.mp fun hnot => hstore _ (hrefused hnot)
    obtain ⟨hfree, hfailed⟩ := hwritten hprompts
    have hset : sys.orchestratorMounts settings' id = .ok () :=
      not_not.mp fun hnot => hstore _ (hfailed hnot)
    exact ⟨hmounts, hprompts, hset, hfree hset⟩
  · rintro ⟨hmounts, hprompts, hset, hfree⟩
    refine ⟨fun _ => ⟨fun hnot => absurd hprompts hnot, fun _ => ⟨fun _ => hfree, ?_⟩⟩, ?_⟩
    · exact fun hnot => absurd hset hnot
    · exact fun hnot => absurd hmounts hnot

/-- What a new orchestrator needs to be added as a whole. -/
def AddKeeps (sys : ConfigSystem P) (settings : GlobalSettings) (id : String) : Prop :=
  settings.orchestrators.lookup id = none →
    validateIdentifierValue "orchestrator id" id = .ok () →
      sys.settingsMounts (added settings id) = .ok () ∧
        sys.orchestratorMounts (added settings id) id = .ok () ∧
          FreeFor sys settings id (joinPath settings.workspacesPath id)

theorem settles_orchestratorAdd (h : Accepts sys s) :
    Settles (Accepts sys) s (orchestratorAdd sys id) s ↔ AddKeeps sys s.settings id := by
  unfold orchestratorAdd AddKeeps
  rw [settles_loadSettings h.settings, settles_require, Option.isNone_iff_eq_none]
  refine forall_congr' fun hnew => ?_
  have hchecked : checkedSettings sys (added s.settings id) = .ok () ↔ _ :=
    checked_added_iff h.settings
  unfold added at hchecked
  by_cases hid : validateIdentifierValue "orchestrator id" id = .ok ()
  · have hworkspace := resolve_added h.settings hid
    have hknown : ((added s.settings id).routing.orchestrators.lookup id).isSome := by
      rw [routing_known, added, OrderedMap.lookup_insert_self]
      rfl
    have hne : added s.settings id ≠ s.settings := by
      intro heq
      rw [← heq, added, OrderedMap.lookup_insert_self] at hnew
      cases hnew
    refine (settles_change_iff h hne (hchecked.mpr hid) (fun other hother => samePlace_added hother)
      hworkspace (defaultOrchestratorConfig_valid hid hknown) ?_).trans ?_
    · unfold added at hworkspace
      rw [hworkspace]
      exact ⟨_, rfl⟩
    · exact ⟨fun hall _ => ⟨hall.1, hall.2.2⟩, fun hall =>
        ⟨(hall hid).1, defaultOrchestratorConfig_prompts id, (hall hid).2⟩⟩
  · exact iff_of_true (settles_refused fun hok => hid (hchecked.mp hok)) fun hok => absurd hok hid

theorem settles_orchestratorRemove (h : Accepts sys s) :
    Settles (Accepts sys) s (orchestratorRemove sys id) s ↔
      ((s.settings.orchestrators.lookup id).isSome → ¬ Unreferenced s.settings id) := by
  unfold orchestratorRemove
  rw [settles_loadSettings h.settings, settles_require]
  refine forall_congr' fun hknown => ?_
  have hchecked : checkedSettings sys (removed s.settings id) = .ok () ↔ _ :=
    checked_removed_iff h.settings
  by_cases hfree : Unreferenced s.settings id
  · have hne : removed s.settings id ≠ s.settings := by
      intro heq
      rw [← heq, removed, OrderedMap.lookup_remove_self] at hknown
      cases hknown
    have hmissing : ∀ workspace,
        (removed s.settings id).routing.resolvePrivateWorkspace id ≠ .ok workspace := by
      intro workspace hworkspace
      obtain ⟨-, entry, hentry, -⟩ := resolvePrivateWorkspace_ok_iff.mp hworkspace
      rw [routing_lookup, removed, OrderedMap.lookup_remove_self] at hentry
      cases hentry
    refine iff_of_false ?_ (not_not_intro hfree)
    intro hsettles
    obtain ⟨hsaved, hunset⟩ := (settles_saveSettings (hchecked.mpr hfree)).mp hsettles
    by_cases hmounts : sys.settingsMounts (removed s.settings id) = .ok ()
    · cases hworkspace : (removed s.settings id).routing.resolvePrivateWorkspace id with
      | ok workspace => exact hmissing workspace hworkspace
      | error err =>
        have hbody := hsaved hmounts
        unfold removeOrchestratorConfig at hbody
        unfold removed at hworkspace
        rw [hworkspace, bind_assoc] at hbody
        exact hne (congrArg ConfigStore.settings ((settles_of_error rfl).mp hbody))
    · exact hne (congrArg ConfigStore.settings (hunset hmounts))
  · exact iff_of_true (settles_refused fun hok => hfree (hchecked.mp hok)) hfree

def moved (settings : GlobalSettings) (id path : String) (entry : GlobalOrchestrator) :
    GlobalSettings :=
  settings.withOrchestrator id { entry with privateWorkspace := some path }

/-- What an orchestrator needs to be moved as a whole. -/
def MoveKeeps (sys : ConfigSystem P) (s : ConfigStore P) (id path : String) : Prop :=
  ∀ config, loadOrchestratorConfig sys s.settings id s.files = .ok config →
    isAbsolutePath path = true →
      ∀ entry, s.settings.orchestrators.lookup id = some entry →
        moved s.settings id path entry ≠ s.settings →
          sys.settingsMounts (moved s.settings id path entry) = .ok () ∧
            checkPrompts config = .ok () ∧
              sys.orchestratorMounts (moved s.settings id path entry) id = .ok () ∧
                FreeFor sys s.settings id path

theorem written_same {workspace : String} {config : OrchestratorConfig} :
    written sys s workspace config = s ↔ s.files (sys.place workspace) = .ok config := by
  constructor
  · intro h
    rw [← h]
    exact Function.update_self ..
  · intro h
    unfold written
    rw [← h, Function.update_eq_self]

theorem settles_orchestratorSetPrivateWorkspace (h : Accepts sys s) {path : String} :
    Settles (Accepts sys) s (orchestratorSetPrivateWorkspace sys id path) s ↔
      MoveKeeps sys s id path := by
  unfold orchestratorSetPrivateWorkspace MoveKeeps
  rw [settles_loadSettings h.settings, settles_loadOrchestratorOrErr]
  refine forall_congr' fun config => forall_congr' fun hload => ?_
  rw [settles_require]
  refine forall_congr' fun hpath => ?_
  rw [settles_entryOf]
  refine forall_congr' fun entry => forall_congr' fun hentry => ?_
  obtain ⟨held, hheld, hfile, hvalid⟩ := loadOrchestratorConfig_ok_iff.mp hload
  have hgrants := entry_grants h.settings hentry
  have hchecked : checkedSettings sys (moved s.settings id path entry) = .ok () :=
    checked_withOrchestrator h.settings hentry hgrants
  have hid := (resolvePrivateWorkspace_ok_iff.mp hheld).1
  have hworkspace : (moved s.settings id path entry).routing.resolvePrivateWorkspace id = .ok path :=
    resolve_moved hid hentry hpath
  by_cases hne : moved s.settings id path entry = s.settings
  · -- what is written is there already
    rw [hne] at hworkspace
    rw [hheld] at hworkspace
    cases hworkspace
    refine iff_of_true ?_ fun hchanged => absurd hne hchanged
    unfold moved at hne
    rw [hne]
    refine (settles_saveSettings h.settings).mpr ⟨fun _ => ?_, fun _ => rfl⟩
    refine (settles_saveOrchestratorConfig hvalid hheld).mpr ⟨fun _ => rfl, fun _ => ?_⟩
    rw [written_same.mpr hfile]
    exact ⟨fun _ => h, fun _ => rfl⟩
  · have hknown : ((moved s.settings id path entry).routing.orchestrators.lookup id).isSome := by
      obtain ⟨-, _, hlookup, -⟩ := resolvePrivateWorkspace_ok_iff.mp hworkspace
      rw [hlookup]
      rfl
    rw [forall_prop_of_true hne]
    exact settles_change_iff h hne hchecked (fun other hother => samePlace_withOrchestrator hother)
      hworkspace (validate_known hknown hvalid) ⟨_, rfl⟩

/-- What an edit of a configuration needs to be saved as a whole. -/
def EditKeeps (sys : ConfigSystem P) (s : ConfigStore P) (id : String)
    (edit : OrchestratorConfig → Except String OrchestratorConfig) : Prop :=
  ∀ config config', loadOrchestratorConfig sys s.settings id s.files = .ok config →
    edit config = .ok config' → config'.validate s.settings.routing id = .ok () →
      checkPrompts config' = .ok () → config' ≠ config →
        sys.orchestratorMounts s.settings id = .ok ()

theorem settles_editOrchestratorConfig (h : Accepts sys s)
    {edit : OrchestratorConfig → Except String OrchestratorConfig} {report : String} :
    Settles (Accepts sys) s (editOrchestratorConfig sys id edit report) s ↔
      EditKeeps sys s id edit := by
  unfold editOrchestratorConfig EditKeeps
  rw [settles_loadSettings h.settings, settles_loadOrchestratorOrErr]
  refine forall_congr' fun config => ?_
  rw [forall_comm]
  refine forall_congr' fun hload => ?_
  rw [settles_before]
  refine forall_congr' fun config' => forall_congr' fun hedit => ?_
  obtain ⟨workspace, hworkspace, hfile, hvalid⟩ := loadOrchestratorConfig_ok_iff.mp hload
  by_cases hvalid' : config'.validate s.settings.routing id = .ok ()
  · rw [forall_prop_of_true hvalid']
    have hwritten : Accepts sys (written sys s workspace config') :=
      (accepts_written_iff h h.settings (fun _ _ => ⟨rfl, rfl⟩) hworkspace hvalid').mpr
        (h.freeFor hworkspace hfile hvalid)
    have hsame : written sys s workspace config' = s ↔ config' = config := by
      rw [written_same, hfile]
      exact ⟨fun heq => (Except.ok.inj heq).symm, fun heq => heq ▸ rfl⟩
    refine (settles_saveOrchestratorConfig hvalid' hworkspace).trans ?_
    rw [hsame]
    constructor
    · rintro ⟨-, hsaved⟩ hprompts hne
      exact not_not.mp fun hnot => hne ((hsaved hprompts).2 hnot)
    · intro hmounts
      refine ⟨fun _ => rfl, fun hprompts => ⟨fun _ => hwritten, fun hnot => ?_⟩⟩
      exact not_not.mp fun hne => hnot (hmounts hprompts hne)
  · refine iff_of_true ?_ fun hok => absurd hok hvalid'
    unfold saveOrchestratorConfig
    rw [bind_assoc, settles_check]
    exact fun _ hok => absurd hok hvalid'

theorem settles_orchestratorSetSelectionMaxRetries (h : Accepts sys s) {count : String} :
    Settles (Accepts sys) s (orchestratorSetSelectionMaxRetries sys id count) s ↔
      ∀ retries, parseCount count = .ok retries → EditKeeps sys s id (withRetries retries) := by
  unfold orchestratorSetSelectionMaxRetries
  rw [settles_loadSettings h.settings, settles_before]
  exact forall_congr' fun retries => forall_congr' fun _ => settles_editOrchestratorConfig h

end Changes

/-! ## Commands that only read -/

section Reads

theorem reads_loadSettings : Preserves Eq (loadSettings sys) := by
  refine Preserves.bind (fun _ => rfl) ?_
  exact fun _ => (preserves_ofResult _).bind fun _ => preserves_pure _

theorem reads_loadOrchestratorOrErr (settings : GlobalSettings) (id : String) :
    Preserves Eq (loadOrchestratorOrErr sys settings id) :=
  Preserves.bind (fun _ => rfl) fun _ => preserves_ofResult _

theorem reads_orchestratorList : Preserves Eq (orchestratorList sys) :=
  reads_loadSettings.bind fun _ => preserves_pure _

theorem reads_orchestratorShow (id : String) : Preserves Eq (orchestratorShow sys id) := by
  refine reads_loadSettings.bind fun settings => ?_
  refine (preserves_ofResult _).bind fun entry => ?_
  exact (preserves_ofResult _).bind fun workspace => preserves_pure _

theorem reads_agentList (id : String) : Preserves Eq (agentList sys id) := by
  refine reads_loadSettings.bind fun settings => ?_
  exact (reads_loadOrchestratorOrErr settings id).bind fun config => preserves_pure _

theorem reads_agentShow (id agentId : String) : Preserves Eq (agentShow sys id agentId) := by
  refine reads_loadSettings.bind fun settings => ?_
  refine (reads_loadOrchestratorOrErr settings id).bind fun config => ?_
  exact (preserves_ofResult _).bind fun agent => preserves_pure _

theorem reads_usage (text : String) : Preserves Eq (usage text : CommandM P String) :=
  preserves_ofResult _

end Reads

/-! ## Whole commands -/

variable [DecidableEq P]

/-- A command fails with every file as it was, or ends with a store that is accepted. -/
structure AllOrNothing (sys : ConfigSystem P) (command : ConfigCommand) (s : ConfigStore P) :
    Prop where
  error : ∀ err t, runCommand sys command s = .error err t → t = s
  ok : ∀ report t, runCommand sys command s = .ok report t → Accepts sys t
  remove : ∀ id, command = .orchestrator ["remove", id] →
    (s.settings.orchestrators.lookup id).isSome → Unreferenced s.settings id →
      Succeeds (runCommand sys command) s

theorem AllOrNothing.settles {command : ConfigCommand} {s : ConfigStore P}
    (h : AllOrNothing sys command s) : Settles (Accepts sys) s (runCommand sys command) s :=
  settles_iff.mpr ⟨h.error, h.ok⟩

/-- What a command line asks to change. -/
inductive Change : Type where
  | add (id : String)
  | remove (id : String)
  | setPrivateWorkspace (id path : String)
  | grantSharedAccess (id key : String)
  | revokeSharedAccess (id key : String)
  | setSelectionMaxRetries (id count : String)
  | edit (id : String) (edit : OrchestratorConfig → Except String OrchestratorConfig)
      (report : String)

def change? : ConfigCommand → Option Change
  | .orchestrator ["add", id] => some (.add id)
  | .orchestrator ["remove", id] => some (.remove id)
  | .orchestrator ["set-private-workspace", id, path] => some (.setPrivateWorkspace id path)
  | .orchestrator ["grant-shared-access", id, key] => some (.grantSharedAccess id key)
  | .orchestrator ["revoke-shared-access", id, key] => some (.revokeSharedAccess id key)
  | .orchestrator ["set-selector-agent", id, agentId] =>
    some (.edit id (withSelector agentId)
      s!"selector updated\nid={id}\nselector_agent={agentId}")
  | .orchestrator ["set-default-workflow", id, workflowId] =>
    some (.edit id (withDefaultWorkflow workflowId)
      s!"default workflow updated\nid={id}\ndefault_workflow={workflowId}")
  | .orchestrator ["set-selection-max-retries", id, count] =>
    some (.setSelectionMaxRetries id count)
  | .orchestratorAgent ["add", id, agentId] =>
    some (.edit id (withNewAgent agentId) s!"agent added\norchestrator={id}\nagent={agentId}")
  | .orchestratorAgent ["remove", id, agentId] =>
    some (.edit id (withoutAgent agentId) s!"agent removed\norchestrator={id}\nagent={agentId}")
  | .orchestratorAgent ["reset", id, agentId] =>
    some (.edit id (withResetAgent agentId) s!"agent reset\norchestrator={id}\nagent={agentId}")
  | _ => none

def Change.run (sys : ConfigSystem P) : Change → CommandM P String
  | .add id => orchestratorAdd sys id
  | .remove id => orchestratorRemove sys id
  | .setPrivateWorkspace id path => orchestratorSetPrivateWorkspace sys id path
  | .grantSharedAccess id key => orchestratorGrantSharedAccess sys id key
  | .revokeSharedAccess id key => orchestratorRevokeSharedAccess sys id key
  | .setSelectionMaxRetries id count => orchestratorSetSelectionMaxRetries sys id count
  | .edit id change report => editOrchestratorConfig sys id change report

theorem runCommand_of_change {command : ConfigCommand} {change : Change}
    (h : change? command = some change) : runCommand sys command = change.run sys := by
  unfold change? at h
  split at h
  all_goals
    cases h
  all_goals
    rfl

theorem changes_or_reads (command : ConfigCommand) :
    (∃ change, change? command = some change) ∨ Preserves Eq (runCommand sys command) := by
  cases command with
  | orchestrator args =>
    show (∃ _, _) ∨ Preserves Eq (cmdOrchestrator sys args)
    unfold cmdOrchestrator
    split
    all_goals
      first
      | exact .inl ⟨_, rfl⟩
      | exact .inr (reads_usage _)
      | exact .inr (preserves_ofResult _)
      | exact .inr reads_orchestratorList
      | exact .inr (reads_orchestratorShow _)
  | orchestratorAgent args =>
    show (∃ _, _) ∨ Preserves Eq (cmdOrchestratorAgent sys args)
    unfold cmdOrchestratorAgent
    split
    all_goals
      first
      | exact .inl ⟨_, rfl⟩
      | exact .inr (reads_usage _)
      | exact .inr (preserves_ofResult _)
      | exact .inr (reads_agentList _)
      | exact .inr (reads_agentShow _ _)

theorem reads_of_unchanged (h : change? command = none) :
    Preserves Eq (runCommand sys command) := by
  refine (changes_or_reads command).resolve_left ?_
  rintro ⟨change, hchange⟩
  rw [h] at hchange
  cases hchange

/-- What a change needs to be made as a whole. -/
def Change.Keeps (sys : ConfigSystem P) (s : ConfigStore P) : Change → Prop
  | .add id => AddKeeps sys s.settings id
  | .remove id => (s.settings.orchestrators.lookup id).isSome → ¬ Unreferenced s.settings id
  | .setPrivateWorkspace id path => MoveKeeps sys s id path
  | .grantSharedAccess id key =>
    (s.settings.sharedWorkspaces.lookup key).isSome →
      ShareKeeps sys s.settings id (grant · key)
  | .revokeSharedAccess id key => ShareKeeps sys s.settings id (revoke · key)
  | .setSelectionMaxRetries id count =>
    ∀ retries, parseCount count = .ok retries → EditKeeps sys s id (withRetries retries)
  | .edit id change _ => EditKeeps sys s id change

theorem Change.settles_run_iff {s : ConfigStore P} (h : Accepts sys s) (change : Change) :
    Settles (Accepts sys) s (change.run sys) s ↔ change.Keeps sys s := by
  cases change with
  | add id => exact settles_orchestratorAdd h
  | remove id => exact settles_orchestratorRemove h
  | setPrivateWorkspace id path => exact settles_orchestratorSetPrivateWorkspace h
  | grantSharedAccess id key => exact settles_orchestratorGrantSharedAccess h
  | revokeSharedAccess id key => exact settles_orchestratorRevokeSharedAccess h
  | setSelectionMaxRetries id count => exact settles_orchestratorSetSelectionMaxRetries h
  | edit id change report => exact settles_editOrchestratorConfig h

/-- A command keeps the store whole exactly if what it asks to change can be made as a
whole; no orchestrator is removed so. -/
theorem all_or_nothing_iff {s : ConfigStore P} (h : Accepts sys s) (command : ConfigCommand) :
    AllOrNothing sys command s ↔ ∀ change, change? command = some change → change.Keeps sys s := by
  cases hchange : change? command with
  | none =>
    refine iff_of_true ?_ nofun
    have hreads : Preserves Eq (runCommand sys command) := reads_of_unchanged hchange
    have hsettles := settles_iff.mp (settles_of_leaves (hreads s).symm h)
    refine ⟨hsettles.1, hsettles.2, ?_⟩
    rintro id rfl
    cases hchange
  | some change =>
    have hsettles := change.settles_run_iff h
    rw [← runCommand_of_change hchange] at hsettles
    constructor
    · rintro hwhole _ ⟨⟩
      exact hsettles.mp hwhole.settles
    · intro hkeeps
      have hchangeKeeps := hkeeps change rfl
      obtain ⟨herror, hok⟩ := settles_iff.mp (hsettles.mpr hchangeKeeps)
      refine ⟨herror, hok, ?_⟩
      rintro id rfl hknown hfree
      cases hchange
      exact absurd hfree (hchangeKeeps hknown)

/-- The orchestrator is taken out of the settings, and then its workspace is not known. -/
theorem remove_not_whole {s : ConfigStore P} {id : String} (h : Accepts sys s)
    (hknown : (s.settings.orchestrators.lookup id).isSome) (hfree : Unreferenced s.settings id) :
    ¬ AllOrNothing sys (.orchestrator ["remove", id]) s :=
  fun hwhole => (settles_orchestratorRemove h).mp hwhole.settles hknown hfree

/-! ## An orchestrator that is removed -/

def mainSystem : ConfigSystem String where
  place := id
  settingsMounts := fun _ => .ok ()
  orchestratorMounts := fun _ _ => .ok ()
  fs := .bare

/-- Two orchestrators; a channel profile leads to the first. -/
def mainStore : ConfigStore String where
  settings :=
    { workspacesPath := "/ws", orchestrators := [("main", {}), ("side", {})],
      channelProfiles := [("slack_main", { channel := .slack, orchestratorId := "main" })] }
  files := fun place =>
    if place = "/ws/main" then .ok (defaultOrchestratorConfig "main")
    else if place = "/ws/side" then .ok (defaultOrchestratorConfig "side")
    else .error "no such file"

theorem mainStore_accepts : Accepts mainSystem mainStore where
  settings := by decide +kernel
  orchestrators := by decide

theorem all_or_nothing_retries :
    AllOrNothing mainSystem (.orchestrator ["set-selection-max-retries", "main", "3"]) mainStore := by
  refine (all_or_nothing_iff mainStore_accepts _).mpr ?_
  rintro _ ⟨⟩
  exact fun _ _ _ _ _ _ _ _ _ => rfl

theorem removed_orchestrator_fails :
    Accepts mainSystem mainStore ∧
      ¬ AllOrNothing mainSystem (.orchestrator ["remove", "side"]) mainStore := by
  refine ⟨mainStore_accepts, remove_not_whole mainStore_accepts ?_ ?_⟩
  · decide
  · show ∀ profile ∈ mainStore.settings.channelProfiles, profile.2.orchestratorId ≠ "side"
    decide

end Command

end Direclaw.Config
