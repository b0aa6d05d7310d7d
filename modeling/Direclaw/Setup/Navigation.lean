import Direclaw.Config.SetupDraft
import Direclaw.Lib.Run

/-!
# The setup menus

`setup/navigation.rs`: the screens, what a key asks for and what comes of it.
-/

namespace Direclaw.Setup

open Direclaw.Lib Direclaw.Config

/-! ## Screens and actions -/

inductive SetupScreen : Type where
  | root
  | workspaces
  | orchestrators
  | initialAgentDefaults
  | newWorkflowTemplate
  | orchestratorDetail
  | orchestrationLimits
  | workflows
  | workflowDetail
  | workflowSteps
  | workflowStepDetail
  | addStarterWorkflows
  | agents
  | agentDetail
deriving DecidableEq, Repr

def SetupScreen.asStr : SetupScreen → String
  | .root => "root"
  | .workspaces => "workspaces"
  | .orchestrators => "orchestrators"
  | .initialAgentDefaults => "initial_agent_defaults"
  | .newWorkflowTemplate => "new_workflow_template"
  | .orchestratorDetail => "orchestrator_detail"
  | .orchestrationLimits => "orchestration_limits"
  | .workflows => "workflows"
  | .workflowDetail => "workflow_detail"
  | .workflowSteps => "workflow_steps"
  | .workflowStepDetail => "workflow_step_detail"
  | .addStarterWorkflows => "add_starter_workflows"
  | .agents => "agents"
  | .agentDetail => "agent_detail"

inductive SetupAction : Type where
  | movePrev
  | moveNext
  | enter
  | back
  | save
  | cancel
  | edit
  | add
  | delete
  | toggle
  | reconcileSelection (len : ℕ)
deriving DecidableEq, Repr

def SetupAction.asStr : SetupAction → String
  | .movePrev => "move_prev"
  | .moveNext => "move_next"
  | .enter => "enter"
  | .back => "back"
  | .save => "save"
  | .cancel => "cancel"
  | .edit => "edit"
  | .add => "add"
  | .delete => "delete"
  | .toggle => "toggle"
  | .reconcileSelection _ => "reconcile_selection"

def rootStatusText : String := "Enter opens a section. Esc cancels setup."
def rootHintText : String := "Up/Down move | Enter open | Esc cancel"
def workspacesStatusText : String := "Enter to edit workspace path. Esc back."
def workspacesHintText : String := "Enter edit | Esc back"
def initialDefaultsStatusText : String := "Enter to edit/toggle. Esc back."
def initialDefaultsHintText : String := "Up/Down move | Enter edit/toggle | Esc back"

structure NavState where
  screen : SetupScreen
  selected : ℕ
  statusText : String
  hintText : String
deriving DecidableEq, Repr

def NavState.root : NavState := ⟨.root, 0, rootStatusText, rootHintText⟩

inductive SetupNavEffect : Type where
  | none
  | openScreen (screen : SetupScreen)
  | openOrchestratorManager
  | editWorkspacePath
  | toggleDefaultProvider
  | editDefaultModel
  | saveSetup
  | cancelSetup
deriving DecidableEq, Repr

structure SetupTransition where
  effect : SetupNavEffect := .none
  feedback : Option String := none
deriving DecidableEq, Repr

/-- `SetupNavError::InvalidTransition`. -/
structure SetupNavError where
  screen : SetupScreen
  action : SetupAction
deriving DecidableEq, Repr

def SetupNavError.display (err : SetupNavError) : String :=
  "invalid setup transition: screen=" ++ err.screen.asStr ++ " action=" ++ err.action.asStr

/-! ## Keys -/

inductive KeyCode : Type where
  | up
  | down
  | enter
  | esc
  | char (c : Char)
  | other
deriving DecidableEq, Repr

inductive KeyEventKind : Type where
  | press
  | repeat
  | release
deriving DecidableEq, Repr

structure KeyEvent where
  code : KeyCode
  control : Bool := false
  kind : KeyEventKind := .press
deriving DecidableEq, Repr

def setupActionFromKey (screen : SetupScreen) (key : KeyEvent) : Option SetupAction :=
  if key.kind = .release then none
  else if key.code = .char 'c' ∧ key.control = true then some .cancel
  else
    match key.code with
    | .up => some .movePrev
    | .down => some .moveNext
    | .esc => some (if screen = .root then .cancel else .back)
    | .enter | .char '\n' | .char '\r' => some .enter
    | .char 'a' => some .add
    | .char 'd' => some .delete
    | .char 'e' => some .edit
    | .char 't' => some .toggle
    | .char 's' => some .save
    | _ => none

def scriptedKey : List (String × KeyEvent) :=
  [("up", { code := .up }), ("down", { code := .down }), ("enter", { code := .enter }),
    ("esc", { code := .esc }), ("ctrl-c", { code := .char 'c', control := true }),
    ("a", { code := .char 'a' }), ("d", { code := .char 'd' }), ("e", { code := .char 'e' }),
    ("t", { code := .char 't' }), ("s", { code := .char 's' })]

/-- The loop over the tokens. -/
def parseScriptedTokens : List (List Char) → Except String (List KeyEvent)
  | [] => .ok []
  | token :: rest =>
    let normalized := String.ofList (Text.toAsciiLowercase (Text.trim token))
    if normalized = "" then parseScriptedTokens rest
    else
      match scriptedKey.lookup normalized with
      | some key => do
          let keys ← parseScriptedTokens rest
          return key :: keys
      | none =>
        .error ("invalid DIRECLAW_SETUP_SCRIPT_KEYS token `" ++ normalized ++
          "`; valid tokens: up,down,enter,esc,ctrl-c,a,d,e,t,s")

def parseScriptedSetupKeys (raw : String) : Except String (List KeyEvent) :=
  parseScriptedTokens (raw.toList.splitOn ',')

/-! ## Transitions -/

def clampSelection (selected len : ℕ) : ℕ := if len = 0 then 0 else min selected (len - 1)

def setupScreenItemCount (screen : SetupScreen) (rootItemCount : ℕ) : ℕ :=
  match screen with
  | .root => rootItemCount
  | .workspaces => 1
  | .initialAgentDefaults => 2
  | _ => 0

/-- Back to the menu; the status is left to the feedback. -/
def NavState.close (state : NavState) : NavState :=
  { state with screen := .root, selected := 0, hintText := rootHintText }

def invalidTransition (state : NavState) (action : SetupAction) :
    Except SetupNavError (SetupTransition × NavState) := .error ⟨state.screen, action⟩

def rootTransition (state : NavState) (rootItemCount : ℕ) (action : SetupAction) :
    Except SetupNavError (SetupTransition × NavState) :=
  match action with
  | .movePrev => .ok ({}, { state with selected := state.selected - 1 })
  | .moveNext => .ok ({}, { state with selected := min (state.selected + 1) (rootItemCount - 1) })
  | .enter =>
    match state.selected with
    | 0 =>
      .ok ({ effect := .openScreen .workspaces },
        ⟨.workspaces, 0, workspacesStatusText, workspacesHintText⟩)
    | 1 => .ok ({ effect := .openOrchestratorManager }, state)
    | 2 =>
      .ok ({ effect := .openScreen .initialAgentDefaults },
        ⟨.initialAgentDefaults, 0, initialDefaultsStatusText, initialDefaultsHintText⟩)
    | 3 => .ok ({ effect := .saveSetup }, state)
    | _ => .ok ({ effect := .cancelSetup }, state)
  | .back | .cancel => .ok ({ effect := .cancelSetup }, state)
  | .save => .ok ({ effect := .saveSetup }, state)
  | .edit | .add | .delete | .toggle | .reconcileSelection _ => invalidTransition state action

def workspacesTransition (state : NavState) (action : SetupAction) :
    Except SetupNavError (SetupTransition × NavState) :=
  match action with
  | .movePrev | .moveNext => .ok ({}, state)
  | .enter | .edit => .ok ({ effect := .editWorkspacePath }, state)
  | .back => .ok ({ feedback := some "Closed Workspaces." }, state.close)
  | .cancel => .ok ({ effect := .cancelSetup }, state)
  -- `ReconcileSelection` never gets here
  | .add | .delete | .toggle | .save | .reconcileSelection _ => invalidTransition state action

def initialAgentDefaultsTransition (state : NavState) (action : SetupAction) :
    Except SetupNavError (SetupTransition × NavState) :=
  match action with
  | .movePrev => .ok ({}, { state with selected := state.selected - 1 })
  | .moveNext => .ok ({}, { state with selected := min (state.selected + 1) 1 })
  | .enter =>
    .ok ({ effect :=
      if state.selected = 0 then .toggleDefaultProvider else .editDefaultModel }, state)
  | .toggle =>
    if state.selected = 0 then .ok ({ effect := .toggleDefaultProvider }, state)
    else .ok ({ feedback := some "Choose a compatible field before editing." }, state)
  | .edit =>
    if state.selected = 1 then .ok ({ effect := .editDefaultModel }, state)
    else .ok ({ feedback := some "Choose a compatible field before editing." }, state)
  | .back => .ok ({ feedback := some "Closed Initial Agent Defaults." }, state.close)
  | .cancel => .ok ({ effect := .cancelSetup }, state)
  | .add | .delete | .save | .reconcileSelection _ => invalidTransition state action

def otherTransition (state : NavState) (action : SetupAction) :
    Except SetupNavError (SetupTransition × NavState) :=
  match action with
  | .back => .ok ({ feedback := some "Returned to setup menu." }, state.close)
  | .cancel => .ok ({ effect := .cancelSetup }, state)
  | .save | .reconcileSelection _ => invalidTransition state action
  | .movePrev | .moveNext | .enter | .edit | .add | .delete | .toggle =>
    .ok ({ feedback := some "Action is not mapped for this setup screen." }, state)

def reconcileSelection (state : NavState) (len : ℕ) : SetupTransition × NavState :=
  let selected := clampSelection state.selected len
  ({ feedback := if state.selected ≠ selected then some "selection adjusted" else none },
    { state with selected })

/-- `setup_transition`; a transition that fails leaves the state as it is. -/
def setupTransition (state : NavState) (action : SetupAction) (rootItemCount : ℕ) :
    Except SetupNavError (SetupTransition × NavState) :=
  match action with
  | .reconcileSelection len => .ok (reconcileSelection state len)
  | action =>
    match state.screen with
    | .root => rootTransition state rootItemCount action
    | .workspaces => workspacesTransition state action
    | .initialAgentDefaults => initialAgentDefaultsTransition state action
    | _ => otherTransition state action

end Direclaw.Setup
