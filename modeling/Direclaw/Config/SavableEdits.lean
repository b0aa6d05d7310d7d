import Direclaw.Config.SaveReady

/-!
# Drafts stay savable

A draft that could be saved before an accepted edit can be saved after it, but for a few
edits that set what only saving looks at: paths, grants, default models, and which
orchestrators there are beside the saved channel profiles.
-/

namespace Direclaw.Config

open Direclaw.Lib Direclaw.Orchestration

namespace SetupDraft

variable {fs : FileSystem} {existing : Option GlobalSettings} {draft draft' : SetupDraft}

/-! ## What an edit needs -/

/-- Every orchestrator but this one has both its entry and its configuration, or neither. -/
def PairedBut (draft : SetupDraft) (orchestratorId : String) : Prop :=
  ∀ other, other ≠ orchestratorId → ((draft.orchestrators.lookup other).isSome = true ↔
    (draft.orchestratorConfigs.lookup other).isSome = true)

/-- What an edit needs to keep a draft as it is saved; most need nothing. -/
def SaveKept (existing : Option GlobalSettings) (op : DraftOp) (draft : SetupDraft) : Prop :=
  match op with
  | .setWorkspacesPath value => isAbsolutePath value = true
  | .setDefaultProvider provider =>
    draft.NeedsInitial → ∃ kind, parseProvider provider = .ok kind
  | .setDefaultModel model => draft.NeedsInitial → notBlank model = true
  | .setPrimaryOrchestrator o =>
    o = draft.orchestratorId ∨ draft.PairedBut o ∧ ProfilesFit existing o draft.orchestrators
  | .addOrchestrator o => notBlank draft.model = true ∧ draft.PairedBut o ∧
      ProfilesFit existing o draft.orchestrators
  | .removeOrchestrator o => ProfilesFit existing (draft.primaryAfterRemoval o)
      (OrderedMap.remove o draft.orchestrators)
  | .setOrchestratorSharedAccess _ sharedAccess => ∀ grant ∈ sharedAccess, grant ∈ sharedKeys existing
  | op => TextsKept op draft

/-! ## Edits of one configuration -/

theorem lookup_set_eq_none {α : Type} {key other : String} {value : α}
    {entries : List (String × α)} :
    (OrderedMap.set key value entries).lookup other = none ↔ entries.lookup other = none := by
  by_cases heq : other = key
  · subst heq
    cases hlookup : entries.lookup other with
    | none =>
      refine iff_of_true (List.lookup_eq_none_iff.mpr fun entry hentry => ?_) rfl
      obtain ⟨held, hheld, rfl⟩ := List.mem_map.mp hentry
      have hne := List.lookup_eq_none_iff.mp hlookup held hheld
      split
      · next hkey => simp [hkey] at hne
      · exact hne
    | some held =>
      rw [OrderedMap.lookup_set_self hlookup]
      exact iff_of_false nofun nofun
  · rw [OrderedMap.lookup_set_of_ne heq]

theorem SaveReady.withConfig_iff {P : Prop} (h : SaveReady fs existing draft)
    {orchestratorId : String} {config config' : OrchestratorConfig}
    (hlookup : draft.orchestratorConfigs.lookup orchestratorId = some config)
    (hsetup : SetupInvariants config')
    (htexts : ConfigTexts config → config'.id = config.id ∧ (ConfigTexts config' ↔ P))
    (hinitial : draft.NeedsInitial → P) :
    SaveReady fs existing (draft.withConfig orchestratorId config') ↔ P := by
  have hneeds : (draft.withConfig orchestratorId config').NeedsInitial ↔ draft.NeedsInitial :=
    or_congr_right lookup_set_eq_none
  have hregistered := h.registered orchestratorId (by rw [hlookup]; rfl)
  constructor
  · intro h'
    by_cases hcorner : draft.NeedsInitial
    · exact hinitial hcorner
    · obtain ⟨held, hheld, hvalid⟩ := h.configs orchestratorId hregistered fun hn =>
        absurd hn hcorner
      rw [hlookup] at hheld
      cases hheld
      obtain ⟨held', hheld', hvalid'⟩ := h'.configs orchestratorId hregistered fun hn =>
        absurd (hneeds.mp hn) hcorner
      have hself : some config' = some held' :=
        (OrderedMap.lookup_set_self hlookup).symm.trans hheld'
      cases hself
      exact (htexts hvalid.texts).2.mp hvalid'.texts
  · intro hP
    refine ⟨h.path, h.sections, h.entries, h.primary, h.profiles,
      fun hn => h.initial (hneeds.mp hn), fun id hentry hnot => ?_, fun id hid => ?_⟩
    · obtain ⟨held, hheld, hvalid⟩ := h.configs id hentry fun hn => hnot (hneeds.mpr hn)
      by_cases heq : id = orchestratorId
      · obtain rfl := heq
        rw [hlookup] at hheld
        cases hheld
        obtain ⟨hid, htexts⟩ := htexts hvalid.texts
        exact ⟨config', OrderedMap.lookup_set_self hlookup, hid.trans hvalid.id, hsetup,
          htexts.mpr hP⟩
      · exact ⟨held, (OrderedMap.lookup_set_of_ne heq _ _).trans hheld, hvalid⟩
    · refine h.registered id ?_
      rw [Option.isSome_iff_ne_none] at hid ⊢
      exact fun hnone => hid (lookup_set_eq_none.mpr hnone)

/-! ## Edits of the registry -/

theorem SaveReady.setEntry_iff (h : SaveReady fs existing draft) {orchestratorId : String}
    {entry entry' : GlobalOrchestrator}
    (hlookup : draft.orchestrators.lookup orchestratorId = some entry) :
    SaveReady fs existing
        { draft with orchestrators := OrderedMap.set orchestratorId entry' draft.orchestrators } ↔
      ∀ grant ∈ entry'.sharedAccess, grant ∈ sharedKeys existing := by
  have hmem := OrderedMap.mem_of_lookup hlookup
  have hne : draft.orchestrators ≠ [] := List.ne_nil_of_mem hmem
  have hne' : OrderedMap.set orchestratorId entry' draft.orchestrators ≠ [] :=
    List.ne_nil_of_mem (OrderedMap.mem_set_self hlookup)
  have hprimary := primary_of_ne_nil hne
  have hprimary' := @primary_of_ne_nil
    { draft with orchestrators := OrderedMap.set orchestratorId entry' draft.orchestrators } hne'
  have hneeds : NeedsInitial
      { draft with orchestrators := OrderedMap.set orchestratorId entry' draft.orchestrators } ↔
        draft.NeedsInitial := or_congr_left (iff_of_false hne' hne)
  have hknown : ∀ id,
      ((OrderedMap.set orchestratorId entry' draft.orchestrators).lookup id).isSome = true ↔
        (draft.orchestrators.lookup id).isSome = true := by
    intro id
    rw [Option.isSome_iff_ne_none, Option.isSome_iff_ne_none, not_iff_not, lookup_set_eq_none]
  have hentry : ∀ id, HasEntry
      { draft with orchestrators := OrderedMap.set orchestratorId entry' draft.orchestrators } id ↔
        draft.HasEntry id := by
    intro id
    rw [HasEntry, HasEntry, hprimary, hprimary', hknown]
  constructor
  · intro h'
    exact (h'.entries _ (OrderedMap.mem_set_self hlookup)).2
  · intro hgrants
    refine ⟨h.path, h.sections, fun other hother => ?_, ?_, ?_, fun hn => h.initial (hneeds.mp hn),
      fun id hid hnot => ?_, fun id hid => (hentry id).mpr (h.registered id hid)⟩
    · rcases OrderedMap.mem_set hother with rfl | hother
      · exact ⟨(h.entries _ hmem).1, hgrants⟩
      · exact h.entries other hother
    · rw [hprimary', ← hprimary]
      exact h.primary
    · intro profile hprofile
      rw [hprimary', ← hprimary] at hprofile
      obtain ⟨hblank, hfits⟩ := h.profiles profile hprofile
      refine ⟨hblank, hfits.imp (fun heq => ?_) fun hsome => (hknown _).mpr hsome⟩
      rw [hprimary', ← hprimary]
      exact heq
    · refine h.configs id ((hentry id).mp hid) fun hn => ?_
      have hdiffers := hnot (hneeds.mpr hn)
      rwa [hprimary', ← hprimary] at hdiffers

variable {id : String} {op : DraftOp}

/-- An orchestrator other than the primary one has its configuration. -/
theorem SaveReady.config_of_entry (h : SaveReady fs existing draft)
    (hentry : (draft.orchestrators.lookup id).isSome = true)
    (hconfig : id ≠ draft.orchestratorId ∨ (draft.orchestratorConfigs.lookup id).isSome = true) :
    ∃ config, draft.orchestratorConfigs.lookup id = some config ∧ ConfigValid id config := by
  refine h.configs id (.inr hentry) ?_
  rintro (hnil | hnone)
  · rw [hnil] at hentry
    cases hentry
  · have hne : draft.orchestrators ≠ [] := by
      intro hnil
      rw [hnil] at hentry
      cases hentry
    rw [primary_of_ne_nil hne]
    rcases hconfig with hdiffers | hsome
    · exact hdiffers
    · rintro rfl
      rw [hnone] at hsome
      cases hsome

theorem SaveReady.identifier_of_entry (h : SaveReady fs existing draft)
    (hentry : (draft.orchestrators.lookup id).isSome = true) : IsIdentifier id := by
  obtain ⟨entry, hentry⟩ := Option.isSome_iff_exists.mp hentry
  exact validateIdentifierValue_eq_ok_iff.mp (h.entries _ (OrderedMap.mem_of_lookup hentry)).1

theorem SaveReady.setPrimary_iff (h : SaveReady fs existing draft)
    (hentry : (draft.orchestrators.lookup id).isSome = true) :
    SaveReady fs existing { draft with orchestratorId := id } ↔
      id = draft.orchestratorId ∨ draft.PairedBut id ∧ ProfilesFit existing id draft.orchestrators := by
  have hne : draft.orchestrators ≠ [] := by
    intro hnil
    rw [hnil] at hentry
    cases hentry
  by_cases hsame : id = draft.orchestratorId
  · refine iff_of_true ?_ (.inl hsame)
    rw [hsame]
    exact h
  · rw [or_iff_right hsame]
    have hprimary : ({ draft with orchestratorId := id } : SetupDraft).primary = id :=
      primary_of_ne_nil hne
    obtain ⟨held, hheld, hvalid⟩ := h.config_of_entry hentry (.inl hsame)
    have hneeds : ¬ ({ draft with orchestratorId := id } : SetupDraft).NeedsInitial := by
      rintro (hnil | hnone)
      · exact hne hnil
      · rw [hheld] at hnone
        cases hnone
    constructor
    · intro h'
      refine ⟨fun other hother => ⟨fun hknown => ?_, fun hknown => ?_⟩, ?_⟩
      · obtain ⟨config, hconfig, -⟩ := h'.configs other (.inr hknown) fun hn => absurd hn hneeds
        exact Option.isSome_iff_exists.mpr ⟨config, hconfig⟩
      · exact (h'.registered other hknown).resolve_left (hprimary.symm ▸ hother)
      · have hfits := h'.profiles
        rwa [hprimary] at hfits
    · rintro ⟨hpaired, hfits⟩
      refine ⟨h.path, h.sections, h.entries, hprimary.symm ▸ h.identifier_of_entry hentry, ?_,
        fun hn => absurd hn hneeds, fun other hother _ => ?_, fun other hother => ?_⟩
      · rw [hprimary]
        exact hfits
      · by_cases heq : other = id
        · obtain rfl := heq
          exact ⟨held, hheld, hvalid⟩
        · have hknown := hother.resolve_left (hprimary.symm ▸ heq)
          exact h.config_of_entry hknown (.inr ((hpaired other heq).mp hknown))
      · by_cases heq : other = id
        · exact .inl (hprimary.symm ▸ heq)
        · exact .inr ((hpaired other heq).mpr hother)

def withOrchestrator (draft : SetupDraft) (orchestratorId : String) (config : OrchestratorConfig) :
    SetupDraft :=
  { draft with
    orchestrators := OrderedMap.insert orchestratorId {} draft.orchestrators
    orchestratorConfigs := OrderedMap.insert orchestratorId config draft.orchestratorConfigs
    orchestratorId := orchestratorId }

/-- A new orchestrator is the primary one. -/
theorem SaveReady.addOrchestrator_iff (h : SaveReady fs existing draft) (hid : IsIdentifier id)
    (hinsert : insertOrchestrator id draft = .ok draft') :
    SaveReady fs existing draft' ↔ notBlank draft.model = true ∧ draft.PairedBut id ∧
      ProfilesFit existing id draft.orchestrators := by
  obtain ⟨config, hconfig, hinsert⟩ := bind_eq_ok hinsert
  obtain ⟨kind, -, rfl⟩ := initialOrchestratorConfig_eq_ok.mp hconfig
  generalize hinitial : initialConfig id kind draft.model draft.workflowTemplate = initial
    at hinsert
  obtain rfl : draft.withOrchestrator id initial = draft' := Except.ok.inj hinsert
  have hne : (draft.withOrchestrator id initial).orchestrators ≠ [] :=
    List.ne_nil_of_mem (OrderedMap.mem_insert_self ..)
  have hprimary : (draft.withOrchestrator id initial).primary = id := primary_of_ne_nil hne
  have hself : (draft.withOrchestrator id initial).orchestratorConfigs.lookup id = some initial :=
    OrderedMap.lookup_insert_self ..
  have hentries : ∀ other, other ≠ id →
      (draft.withOrchestrator id initial).orchestrators.lookup other =
        draft.orchestrators.lookup other :=
    fun _ hother => OrderedMap.lookup_insert_of_ne hother _ _
  have hconfigs : ∀ other, other ≠ id →
      (draft.withOrchestrator id initial).orchestratorConfigs.lookup other =
        draft.orchestratorConfigs.lookup other :=
    fun _ hother => OrderedMap.lookup_insert_of_ne hother _ _
  have hneeds : ¬ (draft.withOrchestrator id initial).NeedsInitial := by
    rintro (hnil | hnone)
    · exact hne hnil
    · exact absurd (hself.symm.trans hnone) nofun
  constructor
  · intro h'
    refine ⟨?_, fun other hother => ⟨fun hknown => ?_, fun hknown => ?_⟩, fun profile hprofile => ?_⟩
    · obtain ⟨held, hheld, hvalid⟩ :=
        h'.configs id (.inl hprimary.symm) fun hn => absurd hn hneeds
      cases hself.symm.trans hheld
      rw [← hinitial] at hvalid
      exact (initialConfig_texts _ _ _ _).mp hvalid.texts
    · rw [← hentries other hother] at hknown
      obtain ⟨config, hconfig, -⟩ := h'.configs other (.inr hknown) fun hn => absurd hn hneeds
      rw [hconfigs other hother] at hconfig
      exact Option.isSome_iff_exists.mpr ⟨config, hconfig⟩
    · rw [← hconfigs other hother] at hknown
      have hentry := (h'.registered other hknown).resolve_left (hprimary.symm ▸ hother)
      rwa [hentries other hother] at hentry
    · have hfits := h'.profiles
      rw [hprimary] at hfits
      obtain ⟨hblank, hfits⟩ := hfits profile hprofile
      refine ⟨hblank, ?_⟩
      by_cases heq : profile.2.orchestratorId = id
      · exact .inl heq
      · have hfits := hfits.resolve_left heq
        rw [hentries _ heq] at hfits
        exact .inr hfits
  · rintro ⟨hmodel, hpaired, hfits⟩
    refine ⟨h.path, h.sections, fun entry hentry => ?_, hprimary.symm ▸ hid, ?_,
      fun hn => absurd hn hneeds, fun other hother _ => ?_, fun other hother => ?_⟩
    · rcases OrderedMap.mem_insert hentry with rfl | hentry
      · exact ⟨validateIdentifierValue_eq_ok_iff.mpr hid, nofun⟩
      · exact h.entries entry hentry
    · rw [hprimary]
      intro profile hprofile
      obtain ⟨hblank, hfits⟩ := hfits profile hprofile
      refine ⟨hblank, ?_⟩
      by_cases heq : profile.2.orchestratorId = id
      · exact .inl heq
      · refine .inr ?_
        rw [hentries _ heq]
        exact hfits.resolve_left heq
    · by_cases heq : other = id
      · obtain rfl := heq
        refine ⟨initial, hself, ?_⟩
        rw [← hinitial]
        exact ⟨rfl, initialConfig_setup _ _ _ _, (initialConfig_texts _ _ _ _).mpr hmodel⟩
      · have hknown := hother.resolve_left (hprimary.symm ▸ heq)
        rw [hentries other heq] at hknown
        obtain ⟨config, hconfig, hvalid⟩ :=
          h.config_of_entry hknown (.inr ((hpaired other heq).mp hknown))
        exact ⟨config, (hconfigs other heq).trans hconfig, hvalid⟩
    · by_cases heq : other = id
      · exact .inl (hprimary.symm ▸ heq)
      · rw [hconfigs other heq] at hother
        refine .inr ?_
        rw [hentries other heq]
        exact (hpaired other heq).mpr hother

theorem remove_ne_nil {entries : List (String × GlobalOrchestrator)}
    (hsorted : OrderedMap.Sorted entries) (hlong : 1 < entries.length) :
    OrderedMap.remove id entries ≠ [] := by
  intro hnil
  have hsame : ∀ entry ∈ entries, entry.1 = id := fun entry hentry => by
    simpa using List.filter_eq_nil_iff.mp hnil entry hentry
  match entries, hlong with
  | first :: second :: _, _ =>
    have hlt : first.1 < second.1 :=
      (List.pairwise_cons.mp hsorted).1 second.1 List.mem_cons_self
    have hfirst := hsame first List.mem_cons_self
    have hsecond := hsame second (List.mem_cons_of_mem _ List.mem_cons_self)
    exact absurd (hfirst.trans hsecond.symm) hlt.ne

theorem lookup_remove_isSome {α : Type} {entries : List (String × α)} {id other : String} :
    ((OrderedMap.remove id entries).lookup other).isSome = true ↔
      other ≠ id ∧ (entries.lookup other).isSome = true := by
  by_cases heq : other = id
  · rw [heq, OrderedMap.lookup_remove_self]
    exact iff_of_false nofun fun h => h.1 rfl
  · rw [OrderedMap.lookup_remove_of_ne heq, and_iff_right heq]

/-- The primary orchestrator that is left is another one, or one that stays in the registry. -/
theorem primaryAfterRemoval_cases (hne : OrderedMap.remove id draft.orchestrators ≠ []) :
    draft.primaryAfterRemoval id ≠ id ∧
      (draft.orchestratorId ≠ id ∧ draft.primaryAfterRemoval id = draft.orchestratorId ∨
        draft.orchestratorId = id ∧
          (draft.orchestrators.lookup (draft.primaryAfterRemoval id)).isSome = true) := by
  unfold primaryAfterRemoval
  by_cases heq : draft.orchestratorId = id
  · rw [if_pos heq]
    obtain ⟨entry, rest, hrest⟩ := List.exists_cons_of_ne_nil hne
    have hentry : entry ∈ OrderedMap.remove id draft.orchestrators := by
      rw [hrest]
      exact List.mem_cons_self
    have hkept := lookup_remove_isSome.mp (isSome_lookup_of_mem hentry)
    rw [hrest]
    exact ⟨hkept.1, .inr ⟨heq, hkept.2⟩⟩
  · rw [if_neg heq]
    exact ⟨heq, .inl ⟨heq, rfl⟩⟩

theorem SaveReady.removeOrchestrator_iff (h : SaveReady fs existing draft)
    (hsorted : OrderedMap.Sorted draft.orchestrators)
    (hentry : (draft.orchestrators.lookup id).isSome = true)
    (hlong : 1 < draft.orchestrators.length) :
    SaveReady fs existing (draft.withoutOrchestrator id) ↔
      ProfilesFit existing (draft.primaryAfterRemoval id)
        (OrderedMap.remove id draft.orchestrators) := by
  have hrest : (draft.withoutOrchestrator id).orchestrators ≠ [] := remove_ne_nil hsorted hlong
  have hne : draft.orchestrators ≠ [] := by
    rintro hnil
    rw [hnil] at hentry
    cases hentry
  have hprimary := primary_of_ne_nil hne
  have hprimary' : (draft.withoutOrchestrator id).primary = draft.primaryAfterRemoval id :=
    primary_of_ne_nil hrest
  obtain ⟨hother, hcases⟩ := primaryAfterRemoval_cases hrest
  have hconfigs : ∀ other, other ≠ id →
      (draft.withoutOrchestrator id).orchestratorConfigs.lookup other =
        draft.orchestratorConfigs.lookup other :=
    fun _ hother => OrderedMap.lookup_remove_of_ne hother _
  -- an initial configuration is needed afterwards only for the primary one of before
  have hneeds : (draft.withoutOrchestrator id).NeedsInitial →
      draft.NeedsInitial ∧ draft.primaryAfterRemoval id = draft.orchestratorId := by
    rintro (hnil | hnone)
    · exact absurd hnil hrest
    · rw [show (draft.withoutOrchestrator id).orchestratorId = draft.primaryAfterRemoval id from rfl,
        hconfigs _ hother] at hnone
      rcases hcases with ⟨-, hsame⟩ | ⟨hremoved, hknown⟩
      · rw [hsame] at hnone
        exact ⟨.inr hnone, hsame⟩
      · obtain ⟨config, hconfig, -⟩ := h.config_of_entry hknown (.inl (hremoved ▸ hother))
        rw [hnone] at hconfig
        cases hconfig
  constructor
  · intro h'
    have hfits := h'.profiles
    rwa [hprimary'] at hfits
  · intro hfits
    refine ⟨h.path, h.sections, fun entry hin => h.entries entry (List.mem_of_mem_filter hin), ?_,
      ?_, fun hn => h.initial (hneeds hn).1, fun other hin hnot => ?_, fun other hin => ?_⟩
    · rw [hprimary']
      rcases hcases with ⟨-, hsame⟩ | ⟨-, hknown⟩
      · rw [hsame, ← hprimary]
        exact h.primary
      · exact h.identifier_of_entry hknown
    · rw [hprimary']
      exact hfits
    · have hdiffers : other ≠ id := by
        rcases hin with rfl | hin
        · rw [hprimary']
          exact hother
        · exact (lookup_remove_isSome.mp hin).1
      rw [hconfigs other hdiffers]
      refine h.configs other ?_ fun hn => ?_
      · rcases hin with rfl | hin
        · rw [hprimary']
          rcases hcases with ⟨-, hsame⟩ | ⟨-, hknown⟩
          · exact .inl (hsame.trans hprimary.symm)
          · exact .inr hknown
        · exact .inr (lookup_remove_isSome.mp hin).2
      · rintro rfl
        rw [hprimary] at hdiffers hin hnot
        have hsame : draft.primaryAfterRemoval id = draft.orchestratorId :=
          hcases.elim (·.2) fun hremoved => absurd hremoved.1 hdiffers
        refine hnot (.inr ?_) (hprimary'.trans hsame).symm
        rw [show (draft.withoutOrchestrator id).orchestratorId = draft.primaryAfterRemoval id
          from rfl, hsame, hconfigs _ hdiffers]
        exact hn.resolve_left hne
    · obtain ⟨hdiffers, hin⟩ := lookup_remove_isSome.mp hin
      rcases h.registered other hin with rfl | hknown
      · left
        rw [hprimary', hprimary] at *
        exact (hcases.elim (·.2) fun hremoved => absurd hremoved.1 hdiffers).symm
      · exact .inr (lookup_remove_isSome.mpr ⟨hdiffers, hknown⟩)

/-- Saving begins with this edit, and a second one changes nothing. -/
theorem SaveReady.ensureMinimumOrchestrator (h : SaveReady fs existing draft)
    (hedit : SetupDraft.ensureMinimumOrchestrator draft = .ok () draft') :
    SaveReady fs existing draft' := by
  have hagain : SetupDraft.ensureMinimumOrchestrator draft' = .ok () draft' := by
    rcases ensureMinimumOrchestrator_eq_ok hedit with ⟨-, rfl⟩ | ⟨-, provider, -, rfl⟩
    · exact hedit
    · rfl
  obtain ⟨held, completed, hminimum, hchecks⟩ :=
    normalizeForSave_checks.mp (succeeds_normalizeForSave.mpr h)
  rw [hedit] at hminimum
  cases hminimum
  exact succeeds_normalizeForSave.mp (normalizeForSave_checks.mpr ⟨_, completed, hagain, hchecks⟩)

theorem SaveReady.withDefaults_iff (h : SaveReady fs existing draft) {path provider model : String}
    {template : WorkflowTemplate} :
    SaveReady fs existing { draft with
        workspacesPath := path, provider, model, workflowTemplate := template } ↔
      isAbsolutePath path = true ∧ (draft.NeedsInitial →
        (∃ kind, parseProvider provider = .ok kind) ∧ notBlank model = true) := by
  constructor
  · exact fun h' => ⟨h'.path, h'.initial⟩
  · rintro ⟨hpath, hinitial⟩
    exact ⟨hpath, h.sections, h.entries, h.primary, h.profiles, hinitial, h.configs, h.registered⟩

/-! ## One edit -/

theorem textsKept_of_model (h : notBlank draft.model = true) (op : DraftOp) :
    TextsKept op draft := by
  unfold TextsKept
  split
  · exact h
  · trivial

theorem saveKept_of_editsConfig (hop : editsConfig op = true) :
    SaveKept existing op draft ↔ TextsKept op draft := by
  cases op <;> first | exact Iff.rfl | cases hop

/-- A draft that could be saved can be saved after an accepted edit exactly if the edit has
what it needs. -/
theorem SaveReady.edit_iff (h : SaveReady fs existing draft) (hsavable : draft.Savable)
    (hsorted : OrderedMap.Sorted draft.orchestrators) (hsavable' : draft'.Savable)
    (hedit : edit op draft = .ok () draft') :
    SaveReady fs existing draft' ↔ SaveKept existing op draft := by
  cases edit_cases hedit with
  | config hop hconfig =>
    obtain ⟨id, config, config', hlookup, rfl, hkeeps⟩ := hconfig
    have hkeeps := hkeeps (hsavable.config hlookup)
    rw [saveKept_of_editsConfig hop]
    exact h.withConfig_iff hlookup ((hsavable.withConfig_iff hlookup).mp hsavable')
      (fun ht => ⟨hkeeps.id, hkeeps.texts ht⟩) fun hn => textsKept_of_model (h.initial hn).2 op
  | workspacesPath value => exact h.withDefaults_iff.trans (and_iff_left h.initial)
  | provider value =>
    refine h.withDefaults_iff.trans ((and_iff_right h.path).trans ?_)
    exact forall_congr' fun hn => and_iff_left (h.initial hn).2
  | model value =>
    refine h.withDefaults_iff.trans ((and_iff_right h.path).trans ?_)
    exact forall_congr' fun hn => and_iff_right (h.initial hn).1
  | template value => exact iff_of_true (h.withDefaults_iff.mpr ⟨h.path, h.initial⟩) trivial
  | primary hknown => exact h.setPrimary_iff hknown
  | minimum hminimum => exact iff_of_true (h.ensureMinimumOrchestrator hminimum) trivial
  | added hid hinsert => exact h.addOrchestrator_iff hid hinsert
  | removed hknown hlong => exact h.removeOrchestrator_iff hsorted hknown hlong
  | privateWorkspace hlookup =>
    refine (h.setEntry_iff hlookup).trans (iff_of_true ?_ trivial)
    exact (h.entries _ (OrderedMap.mem_of_lookup hlookup)).2
  | sharedAccess hlookup => exact h.setEntry_iff hlookup

/-- The registry stays in the order of its keys. -/
theorem sorted_edit (hsorted : OrderedMap.Sorted draft.orchestrators)
    (hedit : edit op draft = .ok () draft') : OrderedMap.Sorted draft'.orchestrators := by
  cases edit_cases hedit with
  | config _ hconfig =>
    obtain ⟨_, _, _, -, rfl, -⟩ := hconfig
    exact hsorted
  | workspacesPath | provider | model | template | primary => exact hsorted
  | minimum hminimum =>
    rcases ensureMinimumOrchestrator_eq_ok hminimum with ⟨-, rfl⟩ | ⟨-, provider, -, rfl⟩
    · exact hsorted
    · exact List.pairwise_singleton _ _
  | added _ hinsert =>
    obtain ⟨config, -, hinsert⟩ := bind_eq_ok hinsert
    cases hinsert
    exact hsorted.insert
  | removed => exact hsorted.remove
  | privateWorkspace | sharedAccess => exact hsorted.set

/-! ## A sequence of edits -/

/-- Every configuration passes the check of the setup invariants. -/
def ConfigsPass (draft : SetupDraft) : Prop :=
  ∀ entry ∈ draft.orchestratorConfigs, validateSetupInvariants entry.2 = .ok ()

theorem configsPass_iff : draft.ConfigsPass ↔ draft.Savable :=
  forall₂_congr fun _ _ => validateSetupInvariants_ok_iff

/-- What an accepted edit needs so that the draft is still saved if it was before. -/
def EditSaves (fs : FileSystem) (existing : Option GlobalSettings) (op : DraftOp)
    (draft : SetupDraft) : Prop :=
  EditKeeps op draft ∧ (SaveReady fs existing draft → SaveKept existing op draft)

/-- Accepted edits keep the invariants of every configuration, and keep a draft that is saved one
that is saved, exactly if no step is toggled or given outputs against its priority of the outputs,
no outputs are set without a summary, and nothing is set that only saving looks at. -/
theorem accepted_edits_savable_iff {ops : List DraftOp} (h : draft.ConfigsPass)
    (hsorted : OrderedMap.Sorted draft.orchestrators)
    (haccepted : Succeeds (inOrder edit ops) draft) :
    (∀ before op, before ++ [op] <+: ops →
      (leaves (inOrder edit (before ++ [op])) draft).ConfigsPass ∧
        (Succeeds (normalizeForSave fs existing) (leaves (inOrder edit before) draft) →
          Succeeds (normalizeForSave fs existing) (leaves (inOrder edit (before ++ [op])) draft))) ↔
      EachReady (EditSaves fs existing) edit ops draft := by
  simp only [configsPass_iff, succeeds_normalizeForSave]
  have hstep : ∀ op d d', (d.Savable ∧ OrderedMap.Sorted d.orchestrators) →
      edit op d = .ok () d' →
      ((d'.Savable ∧ OrderedMap.Sorted d'.orchestrators) ∧
        (SaveReady fs existing d → SaveReady fs existing d') ↔ EditSaves fs existing op d) := by
    rintro op d d' ⟨hsavable, hsorted⟩ hedit
    rw [and_iff_left (sorted_edit hsorted hedit), EditSaves, hsavable.edit_iff hedit]
    refine and_congr_right fun hkeeps => forall_congr' fun hready => ?_
    exact hready.edit_iff hsavable hsorted ((hsavable.edit_iff hedit).mpr hkeeps) hedit
  rw [← related_inOrder_iff hstep ops ⟨configsPass_iff.mp h, hsorted⟩ haccepted]
  have hsorted : ∀ before, before <+: ops →
      OrderedMap.Sorted (leaves (inOrder edit before) draft).orchestrators :=
    kept_inOrder (fun op d d' hd hedit => sorted_edit hd hedit) ops hsorted haccepted
  exact forall₃_congr fun before op hbefore =>
    and_congr_left' (and_iff_left (hsorted (before ++ [op]) hbefore)).symm

def docsSettings : GlobalSettings where
  workspacesPath := "/work"
  sharedWorkspaces := [("docs", { path := "/srv/docs", description := "manuals" })]

theorem mainDraft_configsPass : mainDraft.ConfigsPass := configsPass_iff.mpr mainDraft_savable

theorem mainDraft_saveReady : SaveReady .bare none mainDraft := by
  have hneeds : ¬ mainDraft.NeedsInitial := by
    rintro (hnil | hnone)
    · cases hnil
    · cases hnone
  have hmain : ∀ {α : Type} {value : α} {id : String},
      (List.lookup id [("main", value)]).isSome = true → id = "main" := by
    intro α value id hsome
    rw [List.lookup_cons] at hsome
    split at hsome
    · next heq => exact eq_of_beq heq
    · cases hsome
  have hprimary : mainDraft.primary = "main" := rfl
  refine ⟨?_, ?_, fun entry hentry => ?_, ?_, ?_, fun hn => absurd hn hneeds,
    fun id hid _ => ?_, fun id hid => ?_⟩
  · show isAbsolutePath "/work" = true
    decide
  · intro settings hnone
    cases hnone
  · obtain rfl := List.mem_singleton.mp hentry
    have hid : IsIdentifier "main" := by decide
    exact ⟨validateIdentifierValue_eq_ok_iff.mpr hid,
      fun _ hgrant => absurd hgrant List.not_mem_nil⟩
  · rw [hprimary]
    decide
  · unfold ProfilesFit
    decide
  · rw [HasEntry, hprimary] at hid
    obtain rfl : id = "main" := hid.elim (fun heq => heq) fun hknown => hmain hknown
    refine ⟨initialConfig "main" .anthropic "sonnet" .minimal, rfl, rfl,
      initialConfig_setup _ _ _ _, (initialConfig_texts _ _ _ _).mpr (by decide)⟩
  · rw [HasEntry, hprimary]
    exact .inl (hmain hid)

/-- A second step with its outputs, and a second orchestrator with an agent of its own. -/
def helperEdits : List DraftOp :=
  [.addStep "main" "default" "step_2",
    .setStepOutputs "main" "default" "step_2" [outputKey "artifact", outputKey "summary"],
    .setOrchestratorSharedAccess "main" ["docs"], .addOrchestrator "helper",
    .addAgent "helper" "writer"]

theorem helperEdits_saved :
    EachReady (EditSaves .bare (some docsSettings)) edit helperEdits mainDraft := by
  refine ⟨⟨trivial, fun _ => trivial⟩, ⟨⟨by decide, ?_⟩, fun _ => trivial⟩,
    ⟨trivial, fun _ => ?_⟩, ⟨trivial, fun _ => ⟨?_, ?_, ?_⟩⟩, ⟨trivial, fun _ => ?_⟩, trivial⟩
  · rintro _ ⟨⟩
    unfold PriorityIn
    decide
  · show ∀ grant ∈ ["docs"], grant ∈ sharedKeys (some docsSettings)
    decide
  · show notBlank "sonnet" = true
    decide
  · intro other _
    show (List.lookup other [("main", _)]).isSome = true ↔
      (List.lookup other [("main", _)]).isSome = true
    simp only [List.lookup_cons]
    cases other == "main" <;> rfl
  · unfold ProfilesFit
    decide
  · show notBlank "sonnet" = true
    decide

theorem accepted_edits_savable_second_step :
    Succeeds (inOrder edit helperEdits) mainDraft ∧ ∀ before op, before ++ [op] <+: helperEdits →
      (leaves (inOrder edit (before ++ [op])) mainDraft).ConfigsPass ∧
        (Succeeds (normalizeForSave .bare (some docsSettings))
            (leaves (inOrder edit before) mainDraft) →
          Succeeds (normalizeForSave .bare (some docsSettings))
            (leaves (inOrder edit (before ++ [op])) mainDraft)) := by
  have haccepted : Succeeds (inOrder edit helperEdits) mainDraft := ⟨(), _, rfl⟩
  refine ⟨haccepted, ?_⟩
  exact (accepted_edits_savable_iff mainDraft_configsPass (List.pairwise_singleton _ _)
    haccepted).mpr helperEdits_saved

/-- The step of the template becomes a review; its priority still names the artifact. And a grant
of a workspace that the settings do not have is accepted. -/
theorem toggled_step_not_savable :
    (mainDraft.ConfigsPass ∧
      Succeeds (inOrder edit [.toggleStepType "main" "default" "step_1"]) mainDraft ∧
      ¬ (leaves (inOrder edit [.toggleStepType "main" "default" "step_1"])
        mainDraft).ConfigsPass) ∧
    Succeeds (normalizeForSave .bare none) mainDraft ∧
      Succeeds (inOrder edit [.setOrchestratorSharedAccess "main" ["nowhere"]]) mainDraft ∧
      ¬ Succeeds (normalizeForSave .bare none)
        (leaves (inOrder edit [.setOrchestratorSharedAccess "main" ["nowhere"]]) mainDraft) := by
  refine ⟨⟨mainDraft_configsPass, ⟨(), _, rfl⟩, fun h => ?_⟩, ?_, ⟨(), _, rfl⟩, fun h => ?_⟩
  · have hmain := h _ List.mem_cons_self
    revert hmain
    decide
  · exact succeeds_normalizeForSave.mpr mainDraft_saveReady
  · obtain ⟨_, _, h⟩ := h
    cases h

end SetupDraft

end Direclaw.Config
