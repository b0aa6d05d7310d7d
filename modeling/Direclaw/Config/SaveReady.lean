import Direclaw.Config.AcceptedEdits

/-!
# Drafts that can be saved

`normalize_for_save` completes a draft and then checks the settings and every
configuration. Here is what it asks of the draft as it comes in.
-/

namespace Direclaw.Config

open Direclaw.Lib Direclaw.Orchestration

namespace SetupDraft

variable {draft draft' : SetupDraft}

/-- The primary orchestrator that is saved: an empty registry is given `main`. -/
def primary (draft : SetupDraft) : String :=
  if draft.orchestrators.isEmpty then "main" else draft.orchestratorId

/-- The primary orchestrator is saved with an initial configuration. -/
def NeedsInitial (draft : SetupDraft) : Prop :=
  draft.orchestrators = [] ∨ draft.orchestratorConfigs.lookup draft.orchestratorId = none

/-- The orchestrator is in the settings that are saved. -/
def HasEntry (draft : SetupDraft) (orchestratorId : String) : Prop :=
  orchestratorId = draft.primary ∨ (draft.orchestrators.lookup orchestratorId).isSome = true

def savedProfiles (existing : Option GlobalSettings) (primary : String) :
    List (String × ChannelProfile) :=
  let held := (existing.map (·.channelProfiles)).getD []
  let profiles := if held.isEmpty then [("local-default", localProfile primary)] else held
  if profiles.any fun profile => profile.2.orchestratorId == primary then profiles
  else OrderedMap.insert (primary ++ "-local") (localProfile primary) profiles

/-- Every channel profile names the primary orchestrator or one of the registry. -/
def ProfilesFit (existing : Option GlobalSettings) (primary : String)
    (orchestrators : List (String × GlobalOrchestrator)) : Prop :=
  ∀ profile ∈ savedProfiles existing primary, notBlank profile.1 = true ∧
    (profile.2.orchestratorId = primary ∨
      (orchestrators.lookup profile.2.orchestratorId).isSome = true)

def sharedKeys (existing : Option GlobalSettings) : List String :=
  ((existing.map (·.sharedWorkspaces)).getD []).map (·.1)

/-- What saving asks of a draft. -/
structure SaveReady (fs : FileSystem) (existing : Option GlobalSettings) (draft : SetupDraft) :
    Prop where
  path : isAbsolutePath draft.workspacesPath = true
  sections : ∀ settings ∈ existing, GlobalSettings.SectionsValid ⟨false⟩ fs settings
  entries : ∀ entry ∈ draft.orchestrators, GlobalSettings.EntryValid (sharedKeys existing) entry
  primary : IsIdentifier draft.primary
  profiles : ProfilesFit existing draft.primary draft.orchestrators
  initial : draft.NeedsInitial →
    (∃ provider, parseProvider draft.provider = .ok provider) ∧ notBlank draft.model = true
  configs : ∀ orchestratorId, draft.HasEntry orchestratorId →
    (draft.NeedsInitial → orchestratorId ≠ draft.primary) →
    ∃ config, draft.orchestratorConfigs.lookup orchestratorId = some config ∧
      ConfigValid orchestratorId config
  registered : ∀ orchestratorId,
    (draft.orchestratorConfigs.lookup orchestratorId).isSome = true → draft.HasEntry orchestratorId

/-! ## The completed draft -/

/-- What the first two steps of saving make of a draft. -/
structure Completed (draft draft' : SetupDraft) : Prop where
  path : draft'.workspacesPath = draft.workspacesPath
  primary : draft'.orchestratorId = draft.primary
  entries : ∀ entry, entry ∈ draft'.orchestrators ↔ entry ∈ draft.orchestrators ∨
    entry = (draft.primary, {}) ∧ draft.orchestrators.lookup draft.primary = none
  lookup : ∀ orchestratorId, (draft'.orchestrators.lookup orchestratorId).isSome = true ↔
    draft.HasEntry orchestratorId
  configs : ∀ orchestratorId, (draft.NeedsInitial → orchestratorId ≠ draft.primary) →
    draft'.orchestratorConfigs.lookup orchestratorId =
      draft.orchestratorConfigs.lookup orchestratorId
  initial : draft.NeedsInitial → ∃ provider, parseProvider draft.provider = .ok provider ∧
    draft'.orchestratorConfigs.lookup draft.primary =
      some (initialConfig draft.primary provider draft.model draft.workflowTemplate)

theorem primary_of_ne_nil (h : draft.orchestrators ≠ []) : draft.primary = draft.orchestratorId := by
  rw [primary, List.isEmpty_eq_false_iff.mpr h, if_neg Bool.false_ne_true]

theorem primary_of_nil (h : draft.orchestrators = []) : draft.primary = "main" := by
  rw [primary, h]
  rfl

theorem ensurePrimaryOrchestrator_eq_ok
    (h : ensurePrimaryOrchestrator draft = .ok () draft') :
    draft'.workspacesPath = draft.workspacesPath ∧ draft'.orchestratorId = draft.orchestratorId ∧
      draft'.orchestrators =
        (if (draft.orchestrators.lookup draft.orchestratorId).isSome then draft.orchestrators
        else OrderedMap.insert draft.orchestratorId {} draft.orchestrators) ∧
      ((draft.orchestratorConfigs.lookup draft.orchestratorId ≠ none ∧
          draft'.orchestratorConfigs = draft.orchestratorConfigs) ∨
        (draft.orchestratorConfigs.lookup draft.orchestratorId = none ∧
          ∃ provider, parseProvider draft.provider = .ok provider ∧
            draft'.orchestratorConfigs = OrderedMap.insert draft.orchestratorId
              (initialConfig draft.orchestratorId provider draft.model draft.workflowTemplate)
              draft.orchestratorConfigs)) := by
  have hok := updateWith_eq_ok.mp h
  cases hlookup : draft.orchestratorConfigs.lookup draft.orchestratorId with
  | some config =>
    simp only [hlookup] at hok
    cases hok
    exact ⟨rfl, rfl, rfl, .inl ⟨nofun, rfl⟩⟩
  | none =>
    simp only [hlookup] at hok
    obtain ⟨config, hconfig, hok⟩ := bind_eq_ok hok
    obtain ⟨provider, hprovider, rfl⟩ := initialOrchestratorConfig_eq_ok.mp hconfig
    cases hok
    exact ⟨rfl, rfl, rfl, .inr ⟨rfl, provider, hprovider, rfl⟩⟩

theorem ensureMinimumOrchestrator_eq_ok
    (h : ensureMinimumOrchestrator draft = .ok () draft') :
    (draft.orchestrators ≠ [] ∧ draft' = draft) ∨
      (draft.orchestrators = [] ∧ ∃ provider, parseProvider draft.provider = .ok provider ∧
        draft' = { draft with
          orchestrators := [("main", {})]
          orchestratorConfigs := OrderedMap.insert "main"
            (initialConfig "main" provider draft.model draft.workflowTemplate)
            draft.orchestratorConfigs
          orchestratorId := "main" }) := by
  have hok := updateWith_eq_ok.mp h
  split at hok
  · next hempty =>
      have hnil := List.isEmpty_iff.mp hempty
      obtain ⟨config, hconfig, hok⟩ := bind_eq_ok hok
      obtain ⟨provider, hprovider, rfl⟩ := initialOrchestratorConfig_eq_ok.mp hconfig
      cases hok
      refine .inr ⟨hnil, provider, hprovider, ?_⟩
      rw [hnil]
      rfl
  · next hsome =>
      cases hok
      exact .inl ⟨fun hnil => hsome (List.isEmpty_iff.mpr hnil), rfl⟩

variable {existing : Option GlobalSettings} {fs : FileSystem} {α : Type}

/-- An entry of its own is put beside the others. -/
theorem mem_insert_fresh {key : String} {value : α} {entries : List (String × α)}
    (h : entries.lookup key = none) (entry : String × α) :
    entry ∈ OrderedMap.insert key value entries ↔ entry ∈ entries ∨ entry = (key, value) := by
  constructor
  · exact fun hentry => (OrderedMap.mem_insert hentry).symm
  · rintro (hentry | rfl)
    · refine OrderedMap.mem_insert_of_ne hentry fun hkey => ?_
      have hne := List.lookup_eq_none_iff.mp h entry hentry
      simp [hkey] at hne
    · exact OrderedMap.mem_insert_self key value entries

theorem completed_of_ok {held : SetupDraft} (hminimum : ensureMinimumOrchestrator draft = .ok () held)
    (hprimary : ensurePrimaryOrchestrator held = .ok () draft') : Completed draft draft' := by
  obtain ⟨hpath, hid, hentries, hconfigs⟩ := ensurePrimaryOrchestrator_eq_ok hprimary
  rcases ensureMinimumOrchestrator_eq_ok hminimum with
    ⟨hne, rfl⟩ | ⟨hnil, provider, hprovider, rfl⟩
  · have hp := primary_of_ne_nil hne
    refine ⟨hpath, hid.trans hp.symm, ?_, ?_, ?_, ?_⟩
    · intro entry
      rw [hentries, hp]
      split
      · next hsome =>
          refine ⟨.inl, fun h => h.resolve_right ?_⟩
          rintro ⟨-, hnone⟩
          rw [hnone] at hsome
          cases hsome
      · next hnone =>
          have hnone := Option.not_isSome_iff_eq_none.mp hnone
          rw [mem_insert_fresh hnone]
          exact or_congr_right ⟨fun h => ⟨h, hnone⟩, fun h => h.1⟩
    · intro id
      rw [HasEntry, hentries, hp]
      split
      · next hsome =>
          refine ⟨.inr, fun h => h.elim ?_ fun h => h⟩
          rintro rfl
          exact hsome
      · by_cases heq : id = held.orchestratorId
        · rw [heq, OrderedMap.lookup_insert_self]
          exact iff_of_true rfl (.inl rfl)
        · rw [OrderedMap.lookup_insert_of_ne heq, or_iff_right heq]
    · intro id hid'
      rcases hconfigs with ⟨-, hsame⟩ | ⟨hnone, _, -, hinsert⟩
      · rw [hsame]
      · rw [hinsert, OrderedMap.lookup_insert_of_ne (hp ▸ hid' (.inr hnone))]
    · rintro (hnil | hnone)
      · exact absurd hnil hne
      · rcases hconfigs with ⟨hsome, -⟩ | ⟨-, provider, hprovider, hinsert⟩
        · exact absurd hnone hsome
        · exact ⟨provider, hprovider, by rw [hinsert, hp, OrderedMap.lookup_insert_self]⟩
  · have hp := primary_of_nil hnil
    have hsome : (OrderedMap.insert "main"
        (initialConfig "main" provider draft.model draft.workflowTemplate)
        draft.orchestratorConfigs).lookup "main" ≠ none := by
      rw [OrderedMap.lookup_insert_self]
      nofun
    obtain ⟨-, hsame⟩ := hconfigs.resolve_right fun h => hsome h.1
    have hentries : draft'.orchestrators = [("main", {})] := hentries
    refine ⟨hpath, hid.trans hp.symm, ?_, ?_, ?_, ?_⟩
    · intro entry
      rw [hentries, hnil, hp, List.mem_singleton]
      exact ⟨fun h => .inr ⟨h, rfl⟩, fun h => (h.resolve_left List.not_mem_nil).1⟩
    · intro id
      rw [HasEntry, hentries, hnil, hp]
      by_cases heq : id = "main"
      · rw [heq]
        exact iff_of_true rfl (.inl rfl)
      · simp [heq]
    · intro id hid'
      rw [hsame, OrderedMap.lookup_insert_of_ne (hp ▸ hid' (.inl hnil))]
    · intro _
      exact ⟨provider, hprovider, by rw [hsame, hp, OrderedMap.lookup_insert_self]⟩

theorem exists_ensurePrimaryOrchestrator
    (h : draft.orchestratorConfigs.lookup draft.orchestratorId = none →
      ∃ provider, parseProvider draft.provider = .ok provider) :
    ∃ completed, ensurePrimaryOrchestrator draft = .ok () completed := by
  simp only [ensurePrimaryOrchestrator, updateWith_eq_ok]
  cases hlookup : draft.orchestratorConfigs.lookup draft.orchestratorId with
  | some config => exact ⟨_, rfl⟩
  | none =>
    obtain ⟨provider, hprovider⟩ := h hlookup
    simp only [initialOrchestratorConfig_eq_ok.mpr ⟨provider, hprovider, rfl⟩]
    exact ⟨_, rfl⟩

theorem exists_completed
    (h : draft.NeedsInitial → ∃ provider, parseProvider draft.provider = .ok provider) :
    ∃ held completed, ensureMinimumOrchestrator draft = .ok () held ∧
      ensurePrimaryOrchestrator held = .ok () completed := by
  by_cases hnil : draft.orchestrators = []
  · obtain ⟨provider, hprovider⟩ := h (.inl hnil)
    obtain ⟨held, hminimum, hlookup⟩ : ∃ held, ensureMinimumOrchestrator draft = .ok () held ∧
        held.orchestratorConfigs.lookup held.orchestratorId ≠ none := by
      simp only [ensureMinimumOrchestrator, updateWith_eq_ok, hnil, List.isEmpty_nil,
        insertOrchestrator, initialOrchestratorConfig_eq_ok.mpr ⟨provider, hprovider, rfl⟩]
      refine ⟨_, rfl, ?_⟩
      rw [OrderedMap.lookup_insert_self]
      nofun
    obtain ⟨completed, hprimary⟩ := exists_ensurePrimaryOrchestrator fun h => absurd h hlookup
    exact ⟨held, completed, hminimum, hprimary⟩
  · have hminimum : ensureMinimumOrchestrator draft = .ok () draft := by
      rw [ensureMinimumOrchestrator, updateWith_eq_ok, List.isEmpty_eq_false_iff.mpr hnil]
      rfl
    obtain ⟨completed, hprimary⟩ := exists_ensurePrimaryOrchestrator fun hnone => h (.inr hnone)
    exact ⟨draft, completed, hminimum, hprimary⟩

/-! ## What is checked -/

theorem validateBootstrapConfigs_ok_iff {settings : GlobalSettings} (ids : List String) :
    validateBootstrapConfigs settings draft ids = .ok () ↔
      ∀ id ∈ ids, IsIdentifier id ∧ ∃ config, draft.orchestratorConfigs.lookup id = some config ∧
        config.validate settings.routing id = .ok () := by
  induction ids with
  | nil => simp [validateBootstrapConfigs]
  | cons id ids ih =>
    have hid : ((validateIdentifier "orchestrator id" id).mapError NormalizeError.draft = .ok ()) ↔
        IsIdentifier id :=
      mapError_ok_iff.trans (mapError_ok_iff.trans validateIdentifierValue_eq_ok_iff)
    rw [validateBootstrapConfigs, seq_ok_iff, hid, List.forall_mem_cons, and_assoc]
    refine and_congr_right fun _ => ?_
    cases draft.orchestratorConfigs.lookup id with
    | none => exact iff_of_false nofun fun ⟨⟨_, h, _⟩, _⟩ => by cases h
    | some config =>
      simp only
      rw [seq_ok_iff, mapError_ok_iff, ih]
      simp

theorem isSome_lookup_of_mem {entries : List (String × α)} {entry : String × α}
    (h : entry ∈ entries) : (entries.lookup entry.1).isSome = true := by
  cases hlookup : entries.lookup entry.1 with
  | some _ => rfl
  | none =>
    have hne := List.lookup_eq_none_iff.mp hlookup entry h
    simp at hne

theorem forall_lookup_iff {entries : List (String × α)} {P : String → Prop} :
    (∀ entry ∈ entries, P entry.1) ↔ ∀ key, (entries.lookup key).isSome = true → P key := by
  constructor
  · intro h key hkey
    obtain ⟨value, hvalue⟩ := Option.isSome_iff_exists.mp hkey
    exact h (key, value) (OrderedMap.mem_of_lookup hvalue)
  · exact fun h entry hentry => h entry.1 (isSome_lookup_of_mem hentry)

theorem validateSetupBootstrap_ok_iff {settings : GlobalSettings}
    (horchestrators : settings.orchestrators = draft.orchestrators) :
    validateSetupBootstrap settings draft = .ok () ↔
      (draft.orchestrators.lookup draft.orchestratorId).isSome = true ∧
        (∀ id, (draft.orchestrators.lookup id).isSome = true → IsIdentifier id ∧ ∃ config,
          draft.orchestratorConfigs.lookup id = some config ∧ ConfigValid id config) ∧
        ∀ id, (draft.orchestratorConfigs.lookup id).isSome = true →
          (draft.orchestrators.lookup id).isSome = true := by
  unfold validateSetupBootstrap
  by_cases hprimary : (draft.orchestrators.lookup draft.orchestratorId).isSome = true
  · have hne : draft.orchestrators.isEmpty = false := by
      refine List.isEmpty_eq_false_iff.mpr fun hnil => ?_
      rw [hnil] at hprimary
      cases hprimary
    have hnone : (draft.orchestrators.lookup draft.orchestratorId).isNone = false := by
      rw [← Option.not_isSome, hprimary]
      rfl
    rw [if_neg (ne_true_of_eq_false hne), if_neg (ne_true_of_eq_false hnone), seq_ok_iff,
      validateBootstrapConfigs_ok_iff, horchestrators, and_iff_right hprimary]
    refine and_congr ?_ ?_
    · rw [List.forall_mem_map]
      rw [← @forall_lookup_iff _ draft.orchestrators fun id => IsIdentifier id ∧ ∃ config,
          draft.orchestratorConfigs.lookup id = some config ∧ ConfigValid id config]
      refine forall₂_congr fun entry hentry => and_congr_right fun hid => ?_
      refine exists_congr fun config => and_congr_right fun _ => validate_eq_ok_iff hid ?_
      rw [routing_known, horchestrators]
      exact isSome_lookup_of_mem hentry
    · rw [← @forall_lookup_iff _ draft.orchestratorConfigs fun id =>
        (draft.orchestrators.lookup id).isSome = true]
      cases hfind : draft.orchestratorConfigs.find? fun entry =>
          (draft.orchestrators.lookup entry.1).isNone with
      | none =>
        refine iff_of_true rfl fun entry hentry => ?_
        by_contra hno
        exact List.find?_eq_none.mp hfind entry hentry
          (Option.isNone_iff_eq_none.mpr (Option.not_isSome_iff_eq_none.mp hno))
      | some entry =>
        refine iff_of_false nofun fun h => ?_
        have hsome := h entry (List.mem_of_find?_eq_some hfind)
        have hmissing := List.find?_some hfind
        rw [Option.isNone_iff_eq_none] at hmissing
        rw [hmissing] at hsome
        cases hsome
  · refine iff_of_false ?_ fun h => hprimary h.1
    split
    · nofun
    · rw [Option.not_isSome_iff_eq_none.mp hprimary]
      nofun

theorem normalizeForSave_checks :
    Succeeds (normalizeForSave fs existing) draft ↔ ∃ held completed,
      ensureMinimumOrchestrator draft = .ok () held ∧
      ensurePrimaryOrchestrator held = .ok () completed ∧
      (draftSettings completed existing).validate ⟨false⟩ fs = .ok () ∧
      validateSetupBootstrap (draftSettings completed existing) completed = .ok () := by
  unfold normalizeForSave
  rw [succeeds_bind]
  constructor
  · rintro ⟨_, held, hminimum, h⟩
    obtain ⟨_, completed, hprimary, h⟩ := succeeds_bind.mp h
    obtain ⟨_, _, hget, h⟩ := succeeds_bind.mp h
    cases hget
    obtain ⟨_, _, hsettings, h⟩ := succeeds_bind.mp h
    obtain ⟨_, _, hbootstrap, -⟩ := succeeds_bind.mp h
    exact ⟨held, completed, adaptError_eq_ok.mp hminimum, adaptError_eq_ok.mp hprimary,
      mapError_eq_ok (ofResult_eq_ok.mp hsettings).1, (ofResult_eq_ok.mp hbootstrap).1⟩
  · rintro ⟨held, completed, hminimum, hprimary, hsettings, hbootstrap⟩
    refine ⟨_, held, adaptError_eq_ok.mpr hminimum, ?_⟩
    refine succeeds_bind.mpr ⟨_, completed, adaptError_eq_ok.mpr hprimary, ?_⟩
    refine succeeds_bind.mpr ⟨completed, completed, rfl, ?_⟩
    refine succeeds_bind.mpr ⟨(), completed, ofResult_eq_ok.mpr ⟨?_, rfl⟩, ?_⟩
    · rw [hsettings]
      rfl
    · exact succeeds_bind.mpr ⟨(), completed, ofResult_eq_ok.mpr ⟨hbootstrap, rfl⟩,
        succeeds_pure⟩

theorem draftSettings_sections :
    GlobalSettings.SectionsValid ⟨false⟩ fs (draftSettings draft existing) ↔
      ∀ settings ∈ existing, GlobalSettings.SectionsValid ⟨false⟩ fs settings := by
  cases existing with
  | none =>
    have h := GlobalSettings.sectionsValid_default ⟨false⟩ fs draft.workspacesPath
    refine iff_of_true ?_ fun _ hnone => by cases hnone
    exact ⟨h.shared, h.slack, h.authSync, h.memory, h.localLlm⟩
  | some settings =>
    refine ⟨fun h other hother => ?_, fun h => ?_⟩
    · obtain rfl := Option.some.inj hother
      exact ⟨h.shared, h.slack, h.authSync, h.memory, h.localLlm⟩
    · have h := h settings rfl
      exact ⟨h.shared, h.slack, h.authSync, h.memory, h.localLlm⟩

theorem draftSettings_sharedKeys :
    (draftSettings draft existing).sharedWorkspaces.map (·.1) = sharedKeys existing := by
  cases existing <;> rfl

theorem draftSettings_profiles :
    (draftSettings draft existing).channelProfiles =
      savedProfiles existing draft.orchestratorId := by
  cases existing <;> rfl

/-- What `normalize_for_save` accepts. -/
theorem succeeds_normalizeForSave :
    Succeeds (normalizeForSave fs existing) draft ↔ SaveReady fs existing draft := by
  rw [normalizeForSave_checks]
  constructor
  · rintro ⟨held, completed, hminimum, hprimary, hsettings, hbootstrap⟩
    have hc := completed_of_ok hminimum hprimary
    obtain ⟨hpath, hentries, hprofiles, hsections⟩ := GlobalSettings.validate_eq_ok_iff.mp hsettings
    obtain ⟨-, hconfigs, hregistered⟩ := (validateSetupBootstrap_ok_iff rfl).mp hbootstrap
    rw [draftSettings_profiles, hc.primary] at hprofiles
    rw [draftSettings_sharedKeys] at hentries
    obtain ⟨hid, config, hconfig, hvalid⟩ :=
      hconfigs draft.primary ((hc.lookup _).mpr (.inl rfl))
    refine ⟨hc.path ▸ hpath, draftSettings_sections.mp hsections,
      fun entry hentry => hentries entry ((hc.entries entry).mpr (.inl hentry)), hid, ?_, ?_, ?_, ?_⟩
    · intro profile hprofile
      obtain ⟨hblank, hknown⟩ := hprofiles profile hprofile
      exact ⟨hblank, (hc.lookup _).mp hknown⟩
    · intro hneeds
      obtain ⟨provider, hprovider, hinitial⟩ := hc.initial hneeds
      rw [hinitial] at hconfig
      cases hconfig
      exact ⟨⟨provider, hprovider⟩, (initialConfig_texts _ _ _ _).mp hvalid.texts⟩
    · intro id hentry hnot
      obtain ⟨-, config, hconfig, hvalid⟩ := hconfigs id ((hc.lookup id).mpr hentry)
      exact ⟨config, hc.configs id hnot ▸ hconfig, hvalid⟩
    · intro id hid
      by_cases hnot : draft.NeedsInitial → id ≠ draft.primary
      · rw [← hc.configs id hnot] at hid
        exact (hc.lookup id).mp (hregistered id hid)
      · push Not at hnot
        exact .inl hnot.2
  · intro h
    obtain ⟨held, completed, hminimum, hprimary⟩ := exists_completed fun hn => (h.initial hn).1
    have hc := completed_of_ok hminimum hprimary
    refine ⟨held, completed, hminimum, hprimary, GlobalSettings.validate_eq_ok_iff.mpr ?_,
      (validateSetupBootstrap_ok_iff rfl).mpr ?_⟩
    · refine ⟨?_, fun entry hentry => ?_, fun profile hprofile => ?_,
        draftSettings_sections.mpr h.sections⟩
      · show isAbsolutePath completed.workspacesPath = true
        rw [hc.path]
        exact h.path
      · rw [draftSettings_sharedKeys]
        rcases (hc.entries entry).mp hentry with hentry | ⟨rfl, -⟩
        · exact h.entries entry hentry
        · exact ⟨validateIdentifierValue_eq_ok_iff.mpr h.primary, nofun⟩
      · rw [draftSettings_profiles, hc.primary] at hprofile
        obtain ⟨hblank, hknown⟩ := h.profiles profile hprofile
        exact ⟨hblank, (hc.lookup _).mpr hknown⟩
    · refine ⟨hc.primary ▸ (hc.lookup _).mpr (.inl rfl), fun id hid => ?_, fun id hid => ?_⟩
      · have hentry := (hc.lookup id).mp hid
        constructor
        · rcases hentry with rfl | hentry
          · exact h.primary
          · obtain ⟨entry, hentry⟩ := Option.isSome_iff_exists.mp hentry
            exact validateIdentifierValue_eq_ok_iff.mp
              (h.entries _ (OrderedMap.mem_of_lookup hentry)).1
        · by_cases hnot : draft.NeedsInitial → id ≠ draft.primary
          · obtain ⟨config, hconfig, hvalid⟩ := h.configs id hentry hnot
            exact ⟨config, (hc.configs id hnot).trans hconfig, hvalid⟩
          · push Not at hnot
            obtain ⟨hneeds, rfl⟩ := hnot
            obtain ⟨provider, -, hinitial⟩ := hc.initial hneeds
            exact ⟨_, hinitial, rfl, initialConfig_setup _ _ _ _,
              (initialConfig_texts _ _ _ _).mpr (h.initial hneeds).2⟩
      · rw [hc.lookup]
        by_cases hnot : draft.NeedsInitial → id ≠ draft.primary
        · rw [hc.configs id hnot] at hid
          exact h.registered id hid
        · push Not at hnot
          exact .inl hnot.2

end SetupDraft

end Direclaw.Config
