import Direclaw.Lib.Text

/-!
# Settings

The part of `config/settings.rs` that routing reads: the orchestrators, the
channel profiles that map to them, and where an orchestrator keeps its state.
-/

namespace Direclaw.Orchestration

open Direclaw.Lib

inductive ChannelKind : Type where
  | localChat
  | slack
  | discord
  | telegram
  | whatsapp
deriving DecidableEq, Repr

structure SettingsOrchestrator where
  privateWorkspace : Option String := none
deriving DecidableEq, Repr

structure ChannelProfileIdentity where
  mentionTokens : List String := []
deriving DecidableEq, Repr

structure ChannelProfile where
  channel : ChannelKind
  orchestratorId : String
  identity : ChannelProfileIdentity := {}
  slackAppUserId : Option String := none
deriving DecidableEq, Repr

/-- What a message mentions the profile with: its tokens, else the Slack user id. -/
def ChannelProfile.mentionTokens (profile : ChannelProfile) : List String :=
  let tokens := (profile.identity.mentionTokens.map Text.trimmed).filter (· ≠ "")
  if tokens.isEmpty then
    match (profile.slackAppUserId.map Text.trimmed).filter (· ≠ "") with
    | some slackAppUserId => [s!"<@{slackAppUserId}>"]
    | none => []
  else tokens

structure Settings where
  workspacesPath : String
  orchestrators : List (String × SettingsOrchestrator) := []
  channelProfiles : List (String × ChannelProfile) := []
deriving DecidableEq, Repr

inductive ConfigError : Type where
  | settings (reason : String)
  | orchestrator (reason : String)
  | missingOrchestrator (orchestratorId : String)
deriving DecidableEq, Repr

def ConfigError.display : ConfigError → String
  | .settings reason => s!"settings validation failed: {reason}"
  | .orchestrator reason => s!"orchestrator validation failed: {reason}"
  | .missingOrchestrator id => s!"orchestrator `{id}` is not configured in settings"

def validateIdentifierValue (kind value : String) : Except String Unit :=
  if value.toList.isEmpty then .error s!"{kind} must be non-empty"
  else if value.toList.all fun c => c.isAlphanum || c == '-' || c == '_' then .ok ()
  else .error s!"{kind} must use only ASCII letters, digits, '-' or '_'"

/-- `Path::is_absolute`. -/
def isAbsolutePath (path : String) : Bool := path.toList.head? == some '/'

/-- `Path::join`. -/
def joinPath (base child : String) : String :=
  if isAbsolutePath child then child
  else if base.toList.isEmpty then child
  else if base.toList.getLast? == some '/' then base ++ child
  else base ++ "/" ++ child

namespace Settings

def resolvePrivateWorkspace (settings : Settings) (orchestratorId : String) :
    Except ConfigError String := do
  match validateIdentifierValue "orchestrator id" orchestratorId with
  | .error reason => throw (.settings reason)
  | .ok () => pure ()
  match settings.orchestrators.lookup orchestratorId with
  | none => throw (.missingOrchestrator orchestratorId)
  | some orchestrator =>
    let resolved :=
      match orchestrator.privateWorkspace with
      | some path => path
      | none => joinPath settings.workspacesPath orchestratorId
    if isAbsolutePath resolved then
      return resolved
    throw (.settings s!"resolved private workspace for `{orchestratorId}` is not absolute")

def resolveOrchestratorRuntimeRoot (settings : Settings) (orchestratorId : String) :
    Except ConfigError String :=
  settings.resolvePrivateWorkspace orchestratorId

end Settings

/-! ## What resolves -/

/-- The workspace that an entry stands for. -/
def workspaceFor (settings : Settings) (id : String) (entry : SettingsOrchestrator) : String :=
  entry.privateWorkspace.getD (joinPath settings.workspacesPath id)

theorem absolute_ok_iff {workspace resolved : String} (err : ConfigError) :
    (if isAbsolutePath workspace then Except.ok workspace else .error err) = .ok resolved ↔
      workspace = resolved ∧ isAbsolutePath resolved = true := by
  split
  · next habs =>
      constructor
      · intro h
        cases h
        exact ⟨rfl, habs⟩
      · rintro ⟨rfl, -⟩
        rfl
  · next habs =>
      refine iff_of_false ?_ ?_
      · nofun
      · rintro ⟨rfl, h⟩
        exact habs h

theorem resolvePrivateWorkspace_ok_iff {settings : Settings} {id workspace : String} :
    settings.resolvePrivateWorkspace id = .ok workspace ↔
      validateIdentifierValue "orchestrator id" id = .ok () ∧
        ∃ entry, settings.orchestrators.lookup id = some entry ∧
          workspaceFor settings id entry = workspace ∧ isAbsolutePath workspace = true := by
  unfold Settings.resolvePrivateWorkspace
  cases hid : validateIdentifierValue "orchestrator id" id with
  | error reason =>
    refine iff_of_false ?_ ?_
    · nofun
    · nofun
  | ok u =>
    cases hentry : settings.orchestrators.lookup id with
    | none =>
      refine iff_of_false ?_ ?_
      · nofun
      · nofun
    | some entry =>
      have habs := @absolute_ok_iff (workspaceFor settings id entry) workspace
        (.settings s!"resolved private workspace for `{id}` is not absolute")
      rw [and_iff_right rfl]
      constructor
      · intro h
        refine ⟨entry, rfl, habs.mp ?_⟩
        cases entry with
        | mk privateWorkspace =>
          cases privateWorkspace with
          | none => exact h
          | some path => exact h
      · rintro ⟨entry, ⟨⟩, h⟩
        have hok := habs.mpr h
        cases entry with
        | mk privateWorkspace =>
          cases privateWorkspace with
          | none => exact hok
          | some path => exact hok

end Direclaw.Orchestration
