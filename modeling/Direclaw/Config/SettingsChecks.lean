import Mathlib.Tactic.NormNum
import Direclaw.Config.GlobalSettings
import Direclaw.Lib.Fallible

/-!
# What the checks of the settings ask

`Settings::validate` section by section: what is asked of an orchestrator's entry and of a
channel profile, and what is asked of the sections that name no orchestrator.
-/

namespace Direclaw.Config

open Direclaw.Lib Direclaw.Orchestration

theorem ensureSettings_ok_iff {holds : Bool} {reason : String} :
    ensureSettings holds reason = .ok () ↔ holds = true := by
  unfold ensureSettings
  cases holds with
  | true => exact iff_of_true rfl rfl
  | false =>
    refine iff_of_false ?_ Bool.false_ne_true
    nofun

theorem mapError_ok_iff {ε ε' α : Type} {f : ε → ε'} {x : Except ε α} {a : α} :
    x.mapError f = .ok a ↔ x = .ok a := by
  refine ⟨mapError_eq_ok, ?_⟩
  rintro rfl
  rfl

namespace GlobalSettings

theorem validateGrants_ok_iff {sharedKeys : List String} {orchestratorId : String}
    (grants : List String) :
    validateGrants sharedKeys orchestratorId grants = .ok () ↔
      ∀ grant ∈ grants, grant ∈ sharedKeys := by
  induction grants with
  | nil => simp [validateGrants]
  | cons grant grants ih =>
    rw [validateGrants, seq_ok_iff, ensureSettings_ok_iff, ih, List.forall_mem_cons,
      decide_eq_true_iff]

def EntryValid (sharedKeys : List String) (entry : String × GlobalOrchestrator) : Prop :=
  validateIdentifierValue "orchestrator id" entry.1 = .ok () ∧
    ∀ grant ∈ entry.2.sharedAccess, grant ∈ sharedKeys

theorem validateOrchestrators_ok_iff {sharedKeys : List String}
    (entries : List (String × GlobalOrchestrator)) :
    validateOrchestrators sharedKeys entries = .ok () ↔
      ∀ entry ∈ entries, EntryValid sharedKeys entry := by
  induction entries with
  | nil => simp [validateOrchestrators]
  | cons entry entries ih =>
    rw [validateOrchestrators, seq_ok_iff, seq_ok_iff, mapError_ok_iff, validateGrants_ok_iff, ih,
      List.forall_mem_cons, EntryValid, and_assoc]

def ProfileValid (orchestrators : List (String × GlobalOrchestrator))
    (profile : String × ChannelProfile) : Prop :=
  notBlank profile.1 = true ∧ (orchestrators.lookup profile.2.orchestratorId).isSome

variable {settings : GlobalSettings} {options : ValidationOptions} {fs : FileSystem}

theorem validateProfiles_ok_iff (profiles : List (String × ChannelProfile)) :
    validateProfiles settings profiles = .ok () ↔
      ∀ profile ∈ profiles, ProfileValid settings.orchestrators profile := by
  induction profiles with
  | nil => simp [validateProfiles]
  | cons profile profiles ih =>
    rw [validateProfiles, seq_ok_iff, seq_ok_iff, ensureSettings_ok_iff, ensureSettings_ok_iff, ih,
      List.forall_mem_cons, ProfileValid, and_assoc]

/-- What is asked of the sections that name no orchestrator. -/
structure SectionsValid (options : ValidationOptions) (fs : FileSystem) (settings : GlobalSettings) :
    Prop where
  shared : validateSharedWorkspaces options fs settings.sharedWorkspaces = .ok ()
  slack : ∀ slack, settings.channels.lookup "slack" = some slack → validateSlack slack = .ok ()
  authSync : settings.authSync.enabled = true →
    settings.authSync.sources ≠ [] ∧ validateSources settings.authSync.sources = .ok ()
  memory : settings.memory.validate = .ok ()
  localLlm : settings.localLlm.validate = .ok ()

theorem default_localLlm_valid : ({} : LocalLlmConfig).validate = .ok () := by
  simp only [LocalLlmConfig.validate, seq_ok_iff, ensureSettings_ok_iff]
  refine ⟨by decide, by decide, rfl, rfl, rfl, rfl, ?_, ?_, ?_, ?_⟩
  · rw [Bool.and_eq_true, bne_iff_ne]
    refine ⟨by norm_num [FloatValue.inUnit], fun h => ?_⟩
    injection h with h
    norm_num at h
  · norm_num [FloatValue.isNegative]
  · norm_num [FloatValue.inUnit]
  · norm_num [FloatValue.inUnit]

/-- The defaults of the sections pass their own checks. -/
theorem sectionsValid_default (options : ValidationOptions) (fs : FileSystem)
    (workspacesPath : String) : SectionsValid options fs { workspacesPath } :=
  ⟨rfl, nofun, nofun, rfl, default_localLlm_valid⟩

theorem validate_eq_ok_iff :
    settings.validate options fs = .ok () ↔
      isAbsolutePath settings.workspacesPath = true ∧
        (∀ entry ∈ settings.orchestrators,
          EntryValid (settings.sharedWorkspaces.map (·.1)) entry) ∧
        (∀ profile ∈ settings.channelProfiles, ProfileValid settings.orchestrators profile) ∧
        SectionsValid options fs settings := by
  unfold validate
  rw [seq_ok_iff, seq_ok_iff, seq_ok_iff, seq_ok_iff, ensureSettings_ok_iff,
    validateOrchestrators_ok_iff, validateProfiles_ok_iff]
  have hauth : ∀ rest : Except ConfigError Unit,
      ((if settings.authSync.enabled = true then do
          ensureSettings (!settings.authSync.sources.isEmpty)
            "`auth_sync.sources` must be non-empty when `auth_sync.enabled=true`"
          validateSources settings.authSync.sources
          rest
        else rest) = .ok ()) ↔
        (settings.authSync.enabled = true →
          settings.authSync.sources ≠ [] ∧ validateSources settings.authSync.sources = .ok ()) ∧
        rest = .ok () := by
    intro rest
    split
    · next henabled =>
        rw [seq_ok_iff, seq_ok_iff, ensureSettings_ok_iff]
        simp [henabled, and_assoc]
    · next hoff => simp [hoff]
  cases hslack : settings.channels.lookup "slack" with
  | none =>
    simp only
    rw [seq_ok_iff, hauth, seq_ok_iff]
    constructor
    · rintro ⟨hpath, hshared, hentries, hprofiles, -, hsources, hmemory, hllm⟩
      refine ⟨hpath, hentries, hprofiles, hshared, fun slack h => ?_, hsources, hmemory, hllm⟩
      rw [hslack] at h
      cases h
    · rintro ⟨hpath, hentries, hprofiles, h⟩
      exact ⟨hpath, h.shared, hentries, hprofiles, rfl, h.authSync, h.memory, h.localLlm⟩
  | some slack =>
    simp only
    rw [seq_ok_iff, hauth, seq_ok_iff]
    constructor
    · rintro ⟨hpath, hshared, hentries, hprofiles, hvalid, hsources, hmemory, hllm⟩
      refine ⟨hpath, hentries, hprofiles, hshared, fun other h => ?_, hsources, hmemory, hllm⟩
      rw [hslack] at h
      cases h
      exact hvalid
    · rintro ⟨hpath, hentries, hprofiles, h⟩
      exact ⟨hpath, h.shared, hentries, hprofiles, h.slack slack hslack, h.authSync, h.memory,
        h.localLlm⟩

/-- With other orchestrators only what looks at them is asked again. -/
theorem validate_ok_iff (h : settings.validate options fs = .ok ())
    (orchestrators : List (String × GlobalOrchestrator)) :
    ({ settings with orchestrators } : GlobalSettings).validate options fs = .ok () ↔
      (∀ entry ∈ orchestrators, EntryValid (settings.sharedWorkspaces.map (·.1)) entry) ∧
        ∀ profile ∈ settings.channelProfiles, ProfileValid orchestrators profile := by
  obtain ⟨hpath, -, -, hsections⟩ := validate_eq_ok_iff.mp h
  rw [validate_eq_ok_iff]
  exact ⟨fun h => ⟨h.2.1, h.2.2.1⟩, fun h => ⟨hpath, h.1, h.2, hsections.shared, hsections.slack,
    hsections.authSync, hsections.memory, hsections.localLlm⟩⟩

theorem validate_parts {settings : GlobalSettings} {options : ValidationOptions} {fs : FileSystem}
    (h : settings.validate options fs = .ok ()) : isAbsolutePath settings.workspacesPath = true ∧
      (∀ entry ∈ settings.orchestrators, EntryValid (settings.sharedWorkspaces.map (·.1)) entry) ∧
        ∀ profile ∈ settings.channelProfiles, ProfileValid settings.orchestrators profile := by
  obtain ⟨hpath, hentries, hprofiles, -⟩ := validate_eq_ok_iff.mp h
  exact ⟨hpath, hentries, hprofiles⟩

end GlobalSettings

/-! ## What routing reads -/

theorem routing_lookup (settings : GlobalSettings) (id : String) :
    settings.routing.orchestrators.lookup id =
      (settings.orchestrators.lookup id).map (·.toSettingsOrchestrator) := by
  unfold GlobalSettings.routing
  induction settings.orchestrators with
  | nil => rfl
  | cons entry rest ih =>
    rw [List.map_cons, List.lookup_cons, List.lookup_cons]
    cases id == entry.1 with
    | true => rfl
    | false => exact ih

theorem routing_known {settings : GlobalSettings} {id : String} :
    (settings.routing.orchestrators.lookup id).isSome = (settings.orchestrators.lookup id).isSome := by
  rw [routing_lookup, Option.isSome_map]

end Direclaw.Config
