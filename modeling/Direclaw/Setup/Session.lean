import Direclaw.Setup.Navigation

/-!
# A setup session

`run_setup_tui_loop` and `run_setup_scripted` of `setup/actions.rs`. What the user does in
the orchestrator manager and in a prompt is an input: the edits it made of the draft and
what it returned.
-/

namespace Direclaw.Setup

open Direclaw.Lib Direclaw.Config

def setupMenuItems : List String :=
  ["Workspaces", "Orchestrators", "Initial Agent Defaults", "Save Setup", "Cancel"]

inductive SetupExit : Type where
  | save
  | cancel
deriving DecidableEq, Repr

def defaultModelForProvider (provider : String) : String :=
  if provider = "openai" then "gpt-5.3-codex" else "sonnet"

/-- The draft as the edits leave it; the screens show what was refused and go on. -/
def applyEdits (ops : List DraftOp) (draft : SetupDraft) : SetupDraft :=
  ops.foldl (fun draft op => leaves (SetupDraft.edit op) draft) draft

def toggleDefaultProvider (bootstrap : SetupDraft) : SetupDraft × String :=
  let nextProvider := if bootstrap.provider = "anthropic" then "openai" else "anthropic"
  let bootstrap := applyEdits [.setDefaultProvider nextProvider] bootstrap
  let bootstrap :=
    if bootstrap.model = "sonnet" ∨ bootstrap.model = "gpt-5.3-codex" then
      applyEdits [.setDefaultModel (defaultModelForProvider bootstrap.provider)] bootstrap
    else bootstrap
  (bootstrap, "provider set to " ++ bootstrap.provider)

/-! ## The state -/

structure SetupSession where
  nav : NavState := .root
  bootstrap : SetupDraft
  ended : Option (Except String SetupExit) := none

namespace SetupSession

def withFeedback (s : SetupSession) : Option String → SetupSession
  | some feedback => { s with nav := { s.nav with statusText := feedback } }
  | none => s

/-- The selection is brought into range at the start of a turn. -/
def reconcile (s : SetupSession) : SetupSession :=
  let itemCount := setupScreenItemCount s.nav.screen setupMenuItems.length
  match setupTransition s.nav (.reconcileSelection itemCount) setupMenuItems.length with
  | .ok (transition, nav) => { s with nav }.withFeedback transition.feedback
  | .error err => { s with ended := some (.error err.display) }

def exit (s : SetupSession) (how : SetupExit) : SetupSession := { s with ended := some (.ok how) }

def fail (s : SetupSession) (message : String) : SetupSession :=
  { s with ended := some (.error message) }

/-! ## The terminal -/

/-- What comes of the screens under a key. -/
structure Screens where
  managerEdits : List DraftOp := []
  manager : Except String (Option String) := .ok none
  /-- The line of a prompt, unless it was left. -/
  prompt : Except String (Option String) := .ok none

/-- A prompt whose line must not be blank. -/
def promptEdit (s : SetupSession) (prompt : Except String (Option String))
    (edit : String → DraftOp) (blank done : String) : SetupSession :=
  match prompt with
  | .error err => s.fail err
  | .ok none => s
  | .ok (some value) =>
    let trimmed := Text.trimmed value
    if trimmed = "" then s.withFeedback (some blank)
    else
      { s with bootstrap := applyEdits [edit trimmed] s.bootstrap }.withFeedback (some done)

def applySetupEffectTui (screens : Screens) (s : SetupSession) : SetupNavEffect → SetupSession
  | .none | .openScreen _ => s
  | .openOrchestratorManager =>
    let s := { s with bootstrap := applyEdits screens.managerEdits s.bootstrap }
    match screens.manager with
    | .error err => s.fail err
    | .ok message => s.withFeedback message
  | .editWorkspacePath =>
    s.promptEdit screens.prompt .setWorkspacesPath "workspace path must be non-empty"
      "workspace path updated"
  | .toggleDefaultProvider =>
    let toggled := toggleDefaultProvider s.bootstrap
    { s with bootstrap := toggled.1 }.withFeedback (some toggled.2)
  | .editDefaultModel =>
    s.promptEdit screens.prompt .setDefaultModel "model must be non-empty" "model updated"
  | .saveSetup => s.exit .save
  | .cancelSetup => s.exit .cancel

inductive TuiInput : Type where
  /-- Nothing was pressed in time, or the event is not a key. -/
  | idle
  | key (key : KeyEvent) (screens : Screens)
  /-- The screen cannot be drawn or the input not be read. -/
  | failed (err : String)

def tuiTurn (s : SetupSession) (input : TuiInput) : SetupSession :=
  if s.ended.isSome then s
  else
    let s := s.reconcile
    match input with
    | .idle => s
    | .failed err => s.fail err
    | .key key screens =>
      match setupActionFromKey s.nav.screen key with
      | none => s
      | some action =>
        match setupTransition s.nav action setupMenuItems.length with
        | .error err => s.withFeedback (some err.display)
        | .ok (transition, nav) =>
          ({ s with nav }.withFeedback transition.feedback).applySetupEffectTui screens
            transition.effect

/-! ## The script -/

def applySetupEffectScripted (s : SetupSession) : SetupNavEffect → SetupSession
  | .none | .openScreen _ => s
  | .openOrchestratorManager =>
    s.fail "scripted setup does not support orchestrator manager actions"
  | .editWorkspacePath => s.fail "scripted setup does not support workspace path prompt actions"
  | .toggleDefaultProvider =>
    let toggled := toggleDefaultProvider s.bootstrap
    { s with bootstrap := toggled.1 }.withFeedback (some toggled.2)
  | .editDefaultModel => s.fail "scripted setup does not support default model prompt actions"
  | .saveSetup => s.exit .save
  | .cancelSetup => s.exit .cancel

def scriptedTurn (s : SetupSession) (key : KeyEvent) : SetupSession :=
  if s.ended.isSome then s
  else
    let s := s.reconcile
    match setupActionFromKey s.nav.screen key with
    | none => s
    | some action =>
      match setupTransition s.nav action setupMenuItems.length with
      | .error err => s.fail err.display
      | .ok (transition, nav) =>
        ({ s with nav }.withFeedback transition.feedback).applySetupEffectScripted
          transition.effect

end SetupSession

def runSetupTui (bootstrap : SetupDraft) (inputs : List SetupSession.TuiInput) : SetupSession :=
  run SetupSession.tuiTurn { bootstrap } inputs

/-- What it returns, and the draft it leaves. -/
def runSetupScripted (bootstrap : SetupDraft) (keys : List KeyEvent) :
    Except String SetupExit × SetupDraft :=
  let s := run SetupSession.scriptedTurn { bootstrap } keys
  (s.ended.getD (.error "scripted setup did not terminate; include save/cancel key"), s.bootstrap)

/-! ## Menus that fit their screen -/

def hintTextOf : SetupScreen → String
  | .root => rootHintText
  | .workspaces => workspacesHintText
  | _ => initialDefaultsHintText

/-- The screens that are reached, with a selection and a hint of their own. -/
structure NavState.Fits (nav : NavState) : Prop where
  screen : nav.screen = .root ∨ nav.screen = .workspaces ∨ nav.screen = .initialAgentDefaults
  selected : nav.selected < setupScreenItemCount nav.screen setupMenuItems.length
  hint : nav.hintText = hintTextOf nav.screen

theorem NavState.fits_root (statusText : String) :
    NavState.Fits ⟨.root, 0, statusText, rootHintText⟩ :=
  ⟨.inl rfl, Nat.zero_lt_succ 4, rfl⟩

variable {action : SetupAction} {nav nav' : NavState}

theorem NavState.Fits.select (h : nav.Fits) {selected : ℕ}
    (hselected : selected < setupScreenItemCount nav.screen setupMenuItems.length) :
    NavState.Fits { nav with selected } :=
  ⟨h.screen, hselected, h.hint⟩

theorem NavState.Fits.withStatus (h : nav.Fits) (statusText : String) :
    NavState.Fits { nav with statusText } :=
  ⟨h.screen, h.selected, h.hint⟩

theorem NavState.Fits.root_transition {transition : SetupTransition} (h : nav.Fits)
    (hroot : nav.screen = .root)
    (hok : rootTransition nav setupMenuItems.length action = .ok (transition, nav')) :
    nav'.Fits := by
  have hselected : nav.selected < 5 := by
    have hlt := h.selected
    rw [hroot] at hlt
    exact hlt
  have hmove : ∀ selected < 5, NavState.Fits { nav with selected } := fun selected hlt =>
    h.select (by rw [hroot]; exact hlt)
  cases action with
  | movePrev =>
    cases hok
    exact hmove _ (by omega)
  | moveNext =>
    cases hok
    exact hmove _ (by simp only [setupMenuItems, List.length]; omega)
  | enter =>
    simp only [rootTransition] at hok
    split at hok <;> cases hok
    · exact ⟨.inr (.inl rfl), by decide, rfl⟩
    · exact h
    · exact ⟨.inr (.inr rfl), by decide, rfl⟩
    · exact h
    · exact h
  | back | cancel | save =>
    cases hok
    exact h
  | edit | add | delete | toggle | reconcileSelection len => cases hok

theorem NavState.Fits.workspaces_transition {transition : SetupTransition} (h : nav.Fits)
    (hok : workspacesTransition nav action = .ok (transition, nav')) : nav'.Fits := by
  cases action with
  | movePrev | moveNext | enter | edit | cancel =>
    cases hok
    exact h
  | back =>
    cases hok
    exact fits_root _
  | add | delete | toggle | save | reconcileSelection len => cases hok

theorem NavState.Fits.defaults_transition {transition : SetupTransition} (h : nav.Fits)
    (hscreen : nav.screen = .initialAgentDefaults)
    (hok : initialAgentDefaultsTransition nav action = .ok (transition, nav')) : nav'.Fits := by
  have hselected : nav.selected < 2 := by
    have hlt := h.selected
    rw [hscreen] at hlt
    exact hlt
  have hmove : ∀ selected < 2, NavState.Fits { nav with selected } := fun selected hlt =>
    h.select (by rw [hscreen]; exact hlt)
  cases action with
  | movePrev =>
    cases hok
    exact hmove _ (by omega)
  | moveNext =>
    cases hok
    exact hmove _ (by omega)
  | enter | cancel =>
    cases hok
    exact h
  | toggle | edit =>
    simp only [initialAgentDefaultsTransition] at hok
    split at hok <;> cases hok <;> exact h
  | back =>
    cases hok
    exact fits_root _
  | add | delete | save | reconcileSelection len => cases hok

/-- The selection is in range already. -/
theorem NavState.Fits.reconcile (h : nav.Fits) :
    reconcileSelection nav (setupScreenItemCount nav.screen setupMenuItems.length) = ({}, nav) := by
  have hselected := h.selected
  have hclamp : clampSelection nav.selected
      (setupScreenItemCount nav.screen setupMenuItems.length) = nav.selected := by
    unfold clampSelection
    rw [if_neg (by omega), Nat.min_eq_left (by omega)]
  simp only [reconcileSelection, hclamp, ne_eq, not_true_eq_false, if_false]

theorem clampSelection_le (selected len : ℕ) : clampSelection selected len ≤ selected := by
  unfold clampSelection
  split
  · exact Nat.zero_le selected
  · exact Nat.min_le_left _ _

theorem NavState.Fits.transition {transition : SetupTransition} (h : nav.Fits)
    (hok : setupTransition nav action setupMenuItems.length = .ok (transition, nav')) :
    nav'.Fits := by
  cases action with
  | reconcileSelection len =>
    cases hok
    exact h.select (Nat.lt_of_le_of_lt (clampSelection_le _ _) h.selected)
  | movePrev | moveNext | enter | back | save | cancel | edit | add | delete | toggle =>
    rcases h.screen with hscreen | hscreen | hscreen <;>
      simp only [setupTransition, hscreen] at hok
    · exact h.root_transition hscreen hok
    · exact h.workspaces_transition hok
    · exact h.defaults_transition hscreen hok

/-! ## Runs of the menus -/

namespace SetupSession

variable {s : SetupSession}

@[simp] theorem bootstrap_withFeedback (s : SetupSession) (feedback : Option String) :
    (s.withFeedback feedback).bootstrap = s.bootstrap := by
  cases feedback <;> rfl

theorem fits_withFeedback (h : s.nav.Fits) (feedback : Option String) :
    (s.withFeedback feedback).nav.Fits := by
  cases feedback with
  | none => exact h
  | some text => exact h.withStatus text

theorem reconcile_of_fits (h : s.nav.Fits) : s.reconcile = s := by
  unfold reconcile
  simp only [setupTransition, h.reconcile, withFeedback]

theorem fits_promptEdit (h : s.nav.Fits) (prompt : Except String (Option String))
    (edit : String → DraftOp) (blank done : String) :
    (s.promptEdit prompt edit blank done).nav.Fits := by
  unfold promptEdit
  split
  · exact h
  · exact h
  · extract_lets trimmed
    split
    · exact fits_withFeedback h _
    · refine fits_withFeedback ?_ _
      exact h

theorem fits_applySetupEffectTui (h : s.nav.Fits) (screens : Screens) (effect : SetupNavEffect) :
    (s.applySetupEffectTui screens effect).nav.Fits := by
  cases effect with
  | none | openScreen screen | saveSetup | cancelSetup => exact h
  | openOrchestratorManager =>
    simp only [applySetupEffectTui]
    split
    · exact h
    · refine fits_withFeedback ?_ _
      exact h
  | editWorkspacePath | editDefaultModel => exact fits_promptEdit h ..
  | toggleDefaultProvider =>
    refine fits_withFeedback ?_ _
    exact h

theorem fits_tuiTurn (h : s.nav.Fits) (input : TuiInput) : (s.tuiTurn input).nav.Fits := by
  unfold tuiTurn
  split
  · exact h
  · rw [reconcile_of_fits h]
    cases input with
    | idle | failed err => exact h
    | key key screens =>
      simp only
      split
      · exact h
      · split
        · exact fits_withFeedback h _
        · next transition nav hok =>
            exact fits_applySetupEffectTui (fits_withFeedback (h.transition hok) _) _ _

end SetupSession

/-- **Every run of the menus.** Whatever is pressed and whatever comes of the screens under
it, the menu is at one of its three screens, with an item of that screen selected and its
hint shown, and bringing the selection into range does nothing. -/
theorem menus_fit (bootstrap : SetupDraft) (inputs : List SetupSession.TuiInput) :
    (runSetupTui bootstrap inputs).nav.Fits ∧
      (runSetupTui bootstrap inputs).reconcile = runSetupTui bootstrap inputs := by
  have hfits : (runSetupTui bootstrap inputs).nav.Fits :=
    run_invariant' (I := fun s : SetupSession => s.nav.Fits)
      (fun s input hs => SetupSession.fits_tuiTurn hs input) inputs (NavState.fits_root _)
  exact ⟨hfits, SetupSession.reconcile_of_fits hfits⟩

/-! ## The script agrees with the terminal -/

namespace SetupSession

variable {s : SetupSession}

/-- The key that was pressed. -/
def TuiInput.key? : TuiInput → Option KeyEvent
  | .key pressed _ => some pressed
  | .idle | .failed _ => none

/-- The effect opens a screen that a script cannot work. -/
def Interactive : SetupNavEffect → Prop
  | .openOrchestratorManager | .editWorkspacePath | .editDefaultModel => True
  | .none | .openScreen _ | .toggleDefaultProvider | .saveSetup | .cancelSetup => False

/-- A key that asks for something, while the session goes on, asks for something that the
screen allows and that needs no further input. -/
def Scriptable (s : SetupSession) (input : TuiInput) : Prop :=
  s.ended = none → ∀ key ∈ input.key?, ∀ action ∈ setupActionFromKey s.nav.screen key,
    ∃ transition nav, setupTransition s.nav action setupMenuItems.length = .ok (transition, nav) ∧
      ¬ Interactive transition.effect

theorem scriptedTurn_of_ended (h : s.ended.isSome) (key : KeyEvent) : s.scriptedTurn key = s :=
  if_pos h

theorem run_scriptedTurn_of_ended (h : s.ended.isSome) (keys : List KeyEvent) :
    run scriptedTurn s keys = s := by
  induction keys with
  | nil => rfl
  | cons key keys ih => rw [run_cons, scriptedTurn_of_ended h, ih]

theorem applySetupEffect_eq {effect : SetupNavEffect} (h : ¬ Interactive effect)
    (screens : Screens) (s : SetupSession) :
    s.applySetupEffectScripted effect = s.applySetupEffectTui screens effect := by
  cases effect with
  | none | openScreen screen | toggleDefaultProvider | saveSetup | cancelSetup => rfl
  | openOrchestratorManager | editWorkspacePath | editDefaultModel => exact absurd trivial h

theorem applySetupEffectScripted_of_interactive {effect : SetupNavEffect} (h : Interactive effect)
    (s : SetupSession) : ∃ message, s.applySetupEffectScripted effect = s.fail message := by
  cases effect with
  | openOrchestratorManager | editWorkspacePath | editDefaultModel => exact ⟨_, rfl⟩
  | none | openScreen screen | toggleDefaultProvider | saveSetup | cancelSetup => exact h.elim

/-- On a key that is scriptable the two loops do the same. -/
theorem scriptedTurn_eq (hfits : s.nav.Fits) {key : KeyEvent} {screens : Screens}
    (h : Scriptable s (.key key screens)) : s.scriptedTurn key = s.tuiTurn (.key key screens) := by
  unfold scriptedTurn tuiTurn
  split
  · rfl
  · next hgoes =>
      rw [reconcile_of_fits hfits]
      simp only
      split
      · rfl
      · next action haction =>
          obtain ⟨transition, nav, hok, hplain⟩ :=
            h (Option.not_isSome_iff_eq_none.mp hgoes) key rfl action haction
          rw [hok]
          exact applySetupEffect_eq hplain screens _

theorem scriptedTurn_of_not_scriptable (hfits : s.nav.Fits) {key : KeyEvent} {screens : Screens}
    (h : ¬ Scriptable s (.key key screens)) :
    ∃ message, (s.scriptedTurn key).ended = some (.error message) := by
  simp only [Scriptable, TuiInput.key?, Option.mem_def, Option.some.injEq, forall_eq',
    not_forall, exists_prop, not_exists, not_and, not_not] at h
  obtain ⟨hgoes, action, haction, hbad⟩ := h
  unfold scriptedTurn
  rw [if_neg (by simp [hgoes]), reconcile_of_fits hfits]
  simp only [haction]
  split
  · exact ⟨_, rfl⟩
  · next transition nav hok =>
      obtain ⟨message, hfail⟩ :=
        applySetupEffectScripted_of_interactive (hbad transition nav hok)
          ({ s with nav }.withFeedback transition.feedback)
      exact ⟨message, by rw [hfail]; rfl⟩

theorem scripted_iff_of_fits (hfits : s.nav.Fits) {inputs : List TuiInput}
    (hio : ∀ err, .failed err ∉ inputs) {how : SetupExit} {draft : SetupDraft} :
    (run scriptedTurn s (inputs.filterMap TuiInput.key?)).ended = some (.ok how) ∧
        (run scriptedTurn s (inputs.filterMap TuiInput.key?)).bootstrap = draft ↔
      ((run tuiTurn s inputs).ended = some (.ok how) ∧ (run tuiTurn s inputs).bootstrap = draft) ∧
        Meets tuiTurn Scriptable s inputs := by
  induction inputs generalizing s with
  | nil => simp [Meets]
  | cons input rest ih =>
    have hio' : ∀ err, .failed err ∉ rest := fun err hmem => hio err (List.mem_cons_of_mem _ hmem)
    rw [run_cons, Meets, ← and_assoc, and_right_comm, ← ih (fits_tuiTurn hfits input) hio']
    cases input with
    | failed err => exact absurd List.mem_cons_self (hio err)
    | idle =>
      have hidle : s.tuiTurn .idle = s := by
        unfold tuiTurn
        split
        · rfl
        · exact reconcile_of_fits hfits
      have hscriptable : Scriptable s .idle := fun _ key hkey => by cases hkey
      rw [hidle, List.filterMap_cons_none (show TuiInput.key? .idle = none from rfl)]
      simp [hscriptable]
    | key key screens =>
      rw [List.filterMap_cons_some (show TuiInput.key? (.key key screens) = some key from rfl),
        run_cons]
      by_cases hscriptable : Scriptable s (.key key screens)
      · rw [scriptedTurn_eq hfits hscriptable]
        simp [hscriptable]
      · obtain ⟨message, hended⟩ := scriptedTurn_of_not_scriptable hfits hscriptable
        rw [run_scriptedTurn_of_ended (by rw [hended]; rfl), hended]
        simp [hscriptable]

end SetupSession

/-- **A script does what the keys do.** For every run of the terminal, with any waiting
between the keys and anything the user does in the screens under them: the script of its
keys ends well exactly if the run does and no key on the way was one that the screen does
not allow or that needs further input, and then both end in the same way with the same
draft. -/
theorem scripted_iff_tui (bootstrap : SetupDraft) {inputs : List SetupSession.TuiInput}
    (hio : ∀ err, .failed err ∉ inputs) (how : SetupExit) (draft : SetupDraft) :
    runSetupScripted bootstrap (inputs.filterMap SetupSession.TuiInput.key?) = (.ok how, draft) ↔
      ((runSetupTui bootstrap inputs).ended = some (.ok how) ∧
        (runSetupTui bootstrap inputs).bootstrap = draft) ∧
        Meets SetupSession.tuiTurn SetupSession.Scriptable { bootstrap } inputs := by
  unfold runSetupScripted runSetupTui
  rw [← SetupSession.scripted_iff_of_fits (NavState.fits_root _) hio]
  simp only [Prod.mk.injEq]
  cases (run SetupSession.scriptedTurn { bootstrap }
    (inputs.filterMap SetupSession.TuiInput.key?)).ended with
  | none => simp
  | some result => simp

/-- A draft without orchestrators. -/
def bareDraft : SetupDraft := ⟨"/work", "main", "anthropic", "sonnet", .minimal, [], []⟩

theorem scripted_iff_tui_saved :
    runSetupScripted bareDraft
        ([.key { code := .down } {}, .idle, .key { code := .char 's' } {}].filterMap
          SetupSession.TuiInput.key?) = (.ok .save, bareDraft) ↔
      ((runSetupTui bareDraft
          [.key { code := .down } {}, .idle, .key { code := .char 's' } {}]).ended =
          some (.ok .save) ∧
        (runSetupTui bareDraft
          [.key { code := .down } {}, .idle, .key { code := .char 's' } {}]).bootstrap = bareDraft) ∧
        Meets SetupSession.tuiTurn SetupSession.Scriptable { bootstrap := bareDraft }
          [.key { code := .down } {}, .idle, .key { code := .char 's' } {}] :=
  scripted_iff_tui bareDraft (fun err h => by simp at h) .save bareDraft

end Direclaw.Setup
