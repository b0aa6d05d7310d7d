import Direclaw.Lib.Fallible
import Direclaw.Lib.Registry
import Direclaw.Runtime.SocketWorker
import Direclaw.Slack.Egress
import Direclaw.Slack.Enqueue
import Mathlib.Data.Finset.Sort

/-!
# Slack credentials

`channels/slack/auth.rs`, with the same checks in `build_profile_runtimes` of
`channels/slack/mod.rs` and the cursor file of a profile (`channels/slack/cursor_store.rs`).
An environment gives a variable its value, or none where it is not set or not Unicode.
-/

namespace Direclaw.Slack

open Direclaw.Lib Direclaw.Config Direclaw.Orchestration Direclaw.Runtime

/-! ## The environment -/

structure EnvConfig where
  botToken : String
  appToken : String
  allowlist : Finset String
deriving DecidableEq

/-- The part of a key that a profile id gives. -/
def mappedId (profileId : String) : String :=
  String.ofList (profileId.toList.map fun c => if c.isAlphanum then c.toUpper else '_')

def profileEnvKey (stem profileId : String) : String := stem ++ "_" ++ mappedId profileId

section Environment

variable (vars : String → Option String)

def nonEmptyEnv (key : String) : Option String := (vars key).filter notBlank

def envVarFallback (profileKey globalKey : String) : Option String :=
  (nonEmptyEnv vars profileKey).or (nonEmptyEnv vars globalKey)

def parseAllowlist : Option String → Finset String
  | none => ∅
  | some value =>
    ((value.toList.splitOn ',').map fun part => Text.trimmed (String.ofList part)).toFinset.filter
      (· ≠ "")

/-- A token of a profile; `stem` is also the key that all profiles may share. -/
def profileToken (requireScoped : Bool) (stem profileId : String) : Option String :=
  if requireScoped then nonEmptyEnv vars (profileEnvKey stem profileId)
  else envVarFallback vars (profileEnvKey stem profileId) stem

def requiredToken (requireScoped : Bool) (stem profileId : String) : Except SlackError String :=
  match profileToken vars requireScoped stem profileId with
  | some token => .ok token
  | none => .error (.missingProfileScopedEnvVar profileId (profileEnvKey stem profileId))

def loadEnvConfig (profileId : String) (requireScoped : Bool) (configAllowlist : Finset String) :
    Except SlackError EnvConfig := do
  let botToken ← requiredToken vars requireScoped "SLACK_BOT_TOKEN" profileId
  let appToken ← requiredToken vars requireScoped "SLACK_APP_TOKEN" profileId
  let envAllowlist := parseAllowlist
    (envVarFallback vars (profileEnvKey "SLACK_CHANNEL_ALLOWLIST" profileId)
      "SLACK_CHANNEL_ALLOWLIST")
  pure { botToken, appToken, allowlist := configAllowlist ∪ envAllowlist }

end Environment

/-! ## The settings -/

def slackChannelEnabled (settings : GlobalSettings) : Bool :=
  ((settings.channels.lookup "slack").map (·.enabled)).getD false

def configuredSlackAllowlist (settings : GlobalSettings) : Finset String :=
  match settings.channels.lookup "slack" with
  | some config => (config.allowlistedChannels.map Text.trimmed).toFinset.filter (· ≠ "")
  | none => ∅

def slackProfileIds (settings : GlobalSettings) : List String :=
  (slackProfiles settings).map (·.1)

def profileScopedTokensRequired (settings : GlobalSettings) : Bool :=
  decide (1 < (slackProfiles settings).length)

/-- What every check loads for a profile. -/
def loadProfile (vars : String → Option String) (settings : GlobalSettings) (profileId : String) :
    Except SlackError EnvConfig :=
  loadEnvConfig vars profileId (profileScopedTokensRequired settings)
    (configuredSlackAllowlist settings)

/-! ## Validation -/

/-- `bot_token_profile` and `app_token_profile`: who has a token. -/
structure TokenProfiles where
  bot : AList fun _ : String => String := ∅
  app : AList fun _ : String => String := ∅

/-- Both checks that stop at the first shared token. -/
def TokenProfiles.register (owners : TokenProfiles) (profileId : String) (env : EnvConfig) :
    Except SlackError TokenProfiles :=
  match owners.bot.lookup env.botToken with
  | some existing => .error (.duplicateProfileCredential "bot" existing profileId)
  | none =>
    match owners.app.lookup env.appToken with
    | some existing => .error (.duplicateProfileCredential "app" existing profileId)
    | none =>
      .ok
        { bot := owners.bot.insert env.botToken profileId
          app := owners.app.insert env.appToken profileId }

def validateProfile (vars : String → Option String) (settings : GlobalSettings)
    (owners : TokenProfiles) (profileId : String) : Except SlackError TokenProfiles := do
  let env ← loadProfile vars settings profileId
  owners.register profileId env

def validateStartupCredentials (vars : String → Option String) (settings : GlobalSettings) :
    Except SlackError Unit := do
  if !slackChannelEnabled settings then throw .channelDisabled
  if (slackProfiles settings).isEmpty then throw .noSlackProfiles
  let _ ← (slackProfileIds settings).foldlM (validateProfile vars settings) {}

/-! ## The runtimes -/

/-- The answers of Slack to a client with its tokens. -/
structure SlackApi where
  validateAuth : String → Except SlackError Unit
  openSocketConnectionUrl : String → Except SlackError String

def SlackApi.validateConnection (api : SlackApi) (botToken appToken : String) :
    Except SlackError Unit := do
  api.validateAuth botToken
  let _ ← api.openSocketConnectionUrl appToken

structure BuiltProfileRuntime extends SlackProfileRuntime where
  profile : ChannelProfile
  botToken : String
  appToken : String
  includeImConversations : Bool
  historyBackfillEnabled : Bool

/-- Which of Slack's checks a build asks for. -/
structure BuildOptions where
  includeImConversations : Bool := false
  historyBackfillEnabled : Bool := false
  validateSocketAuth : Bool := false
  validateBackfillConnection : Bool := false
deriving DecidableEq, Repr

def BuildOptions.connect (options : BuildOptions) (api : SlackApi) (env : EnvConfig) :
    Except SlackError Unit :=
  if options.validateSocketAuth then api.validateAuth env.botToken
  else if options.validateBackfillConnection then
    api.validateConnection env.botToken env.appToken
  else pure ()

def BuildOptions.runtime (options : BuildOptions) (profile : ChannelProfile) (env : EnvConfig) :
    BuiltProfileRuntime where
  allowlist := env.allowlist.sort (· ≤ ·)
  profile
  botToken := env.botToken
  appToken := env.appToken
  includeImConversations := options.includeImConversations
  historyBackfillEnabled := options.historyBackfillEnabled

/-- The tables of a build and the runtimes it has. -/
structure Build where
  owners : TokenProfiles := {}
  runtimes : List (String × BuiltProfileRuntime) := []

def buildProfileRuntime (vars : String → Option String) (api : SlackApi) (settings : GlobalSettings)
    (options : BuildOptions) (build : Build) (entry : String × ChannelProfile) :
    Except SlackError Build := do
  let env ← loadProfile vars settings entry.1
  let owners ← build.owners.register entry.1 env
  options.connect api env
  pure
    { owners
      runtimes := OrderedMap.insert entry.1 (options.runtime entry.2 env) build.runtimes }

def buildProfileRuntimes (vars : String → Option String) (api : SlackApi)
    (settings : GlobalSettings) (options : BuildOptions) :
    Except SlackError (List (String × BuiltProfileRuntime)) := do
  let build ← (slackProfiles settings).foldlM (buildProfileRuntime vars api settings options) {}
  pure build.runtimes

/-! ## Health -/

structure SlackProfileCredentialHealth where
  profileId : String
  ok : Bool
  reason : Option String
deriving DecidableEq, Repr

/-- The entries by profile. -/
abbrev HealthMap := List (String × SlackProfileCredentialHealth)

def setNotOk (profileId reason : String) (health : HealthMap) : HealthMap :=
  match health.lookup profileId with
  | some entry => OrderedMap.set profileId { entry with ok := false, reason := some reason } health
  | none => health

/-- Who held the token, and who takes it, are both marked. -/
def markDuplicate (credential : String) (displaced : Option String) (profileId : String)
    (health : HealthMap) : HealthMap :=
  match displaced with
  | some existing =>
    let reason := (SlackError.duplicateProfileCredential credential existing profileId).display
    setNotOk profileId reason (setNotOk existing reason health)
  | none => health

structure HealthPass where
  health : HealthMap := []
  owners : TokenProfiles := {}

def HealthPass.visit (vars : String → Option String) (settings : GlobalSettings) (pass : HealthPass)
    (profileId : String) : HealthPass :=
  match loadProfile vars settings profileId with
  | .ok env =>
    let health :=
      OrderedMap.insert profileId { profileId, ok := true, reason := none } pass.health
    let health :=
      markDuplicate "bot" (pass.owners.bot.lookup env.botToken) profileId health
    { health :=
        markDuplicate "app" (pass.owners.app.lookup env.appToken) profileId health
      owners :=
        { bot := pass.owners.bot.insert env.botToken profileId
          app := pass.owners.app.insert env.appToken profileId } }
  | .error err =>
    { pass with
      health := OrderedMap.insert profileId { profileId, ok := false, reason := some err.display }
        pass.health }

def profileCredentialHealth (vars : String → Option String) (settings : GlobalSettings) :
    List SlackProfileCredentialHealth :=
  ((slackProfileIds settings).foldl (HealthPass.visit vars settings) {}).health.map (·.2)

/-! ## The cursor file -/

/-- The components of `cursor_state_path` below the state root; joining an empty text adds
none. -/
def cursorStatePath (profileId : String) : List String :=
  ["channels", "slack", sanitizeComponent profileId, "cursor.json"].filter (· ≠ "")

/-! ## Loading -/

section Checks

variable (vars : String → Option String) (settings : GlobalSettings)

def botToken (profileId : String) : Option String :=
  profileToken vars (profileScopedTokensRequired settings) "SLACK_BOT_TOKEN" profileId

def appToken (profileId : String) : Option String :=
  profileToken vars (profileScopedTokensRequired settings) "SLACK_APP_TOKEN" profileId

def HasTokens (profileId : String) : Prop :=
  (botToken vars settings profileId).isSome ∧ (appToken vars settings profileId).isSome

/-- A token as the checks know it: that of a profile that has both. -/
def held (token : EnvConfig → String) (profileId : String) : Option String :=
  (loadProfile vars settings profileId).toOption.map token

/-- A profile with both tokens, which no other of `done` has. -/
def Sound (done : List String) (profileId : String) : Prop :=
  HasTokens vars settings profileId ∧
    Alone (held vars settings EnvConfig.botToken) done profileId ∧
    Alone (held vars settings EnvConfig.appToken) done profileId

variable {vars settings} {profileId other : String} {env : EnvConfig}

theorem requiredToken_eq_ok_iff {requireScoped : Bool} {stem token : String} :
    requiredToken vars requireScoped stem profileId = .ok token ↔
      profileToken vars requireScoped stem profileId = some token := by
  unfold requiredToken
  split
  · next found heq => simp [heq]
  · next heq => simp [heq]

theorem tokens_of_load (h : loadProfile vars settings profileId = .ok env) :
    botToken vars settings profileId = some env.botToken ∧
      appToken vars settings profileId = some env.appToken := by
  unfold loadProfile loadEnvConfig at h
  obtain ⟨bot, hbot, h⟩ := bind_eq_ok h
  obtain ⟨app, happ, h⟩ := bind_eq_ok h
  cases h
  exact ⟨requiredToken_eq_ok_iff.mp hbot, requiredToken_eq_ok_iff.mp happ⟩

theorem hasTokens_iff : HasTokens vars settings profileId ↔
    ∃ env, loadProfile vars settings profileId = .ok env := by
  constructor
  · rintro ⟨hbot, happ⟩
    obtain ⟨bot, hbot⟩ := Option.isSome_iff_exists.mp hbot
    obtain ⟨app, happ⟩ := Option.isSome_iff_exists.mp happ
    rw [loadProfile, loadEnvConfig, requiredToken_eq_ok_iff.mpr hbot,
      requiredToken_eq_ok_iff.mpr happ]
    exact ⟨_, rfl⟩
  · rintro ⟨env, hload⟩
    obtain ⟨hbot, happ⟩ := tokens_of_load hload
    exact ⟨by rw [hbot]; rfl, by rw [happ]; rfl⟩

theorem not_hasTokens_iff : ¬ HasTokens vars settings profileId ↔
    botToken vars settings profileId = none ∨ appToken vars settings profileId = none := by
  rw [HasTokens, not_and_or, Option.not_isSome_iff_eq_none, Option.not_isSome_iff_eq_none]

theorem held_of_load (token : EnvConfig → String)
    (h : loadProfile vars settings profileId = .ok env) :
    held vars settings token profileId = some (token env) := by
  rw [held, h]
  rfl

theorem held_of_error (token : EnvConfig → String) {err : SlackError}
    (h : loadProfile vars settings profileId = .error err) :
    held vars settings token profileId = none := by
  rw [held, h]
  rfl

theorem held_eq_some_iff {token : EnvConfig → String} {t : String} :
    held vars settings token profileId = some t ↔
      ∃ env, loadProfile vars settings profileId = .ok env ∧ token env = t := by
  unfold held
  cases loadProfile vars settings profileId with
  | ok env => simp [Except.toOption]
  | error err => simp [Except.toOption]

/-- Two profiles share a token that the checks know when both have both tokens. -/
theorem shares_held_iff {token : EnvConfig → String} {found : String → Option String}
    (hfound : ∀ {p env}, loadProfile vars settings p = .ok env → found p = some (token env)) :
    Shares (held vars settings token) other profileId ↔
      HasTokens vars settings other ∧ HasTokens vars settings profileId ∧
        found other = found profileId := by
  constructor
  · rintro ⟨t, hother, hprofile⟩
    obtain ⟨env, hload, htoken⟩ := held_eq_some_iff.mp hother
    obtain ⟨env', hload', htoken'⟩ := held_eq_some_iff.mp hprofile
    refine ⟨hasTokens_iff.mpr ⟨env, hload⟩, hasTokens_iff.mpr ⟨env', hload'⟩, ?_⟩
    rw [hfound hload, hfound hload', htoken, htoken']
  · rintro ⟨hother, hprofile, heq⟩
    obtain ⟨env, hload⟩ := hasTokens_iff.mp hother
    obtain ⟨env', hload'⟩ := hasTokens_iff.mp hprofile
    rw [hfound hload, hfound hload'] at heq
    refine ⟨token env, held_of_load token hload, ?_⟩
    rw [held_of_load token hload', ← Option.some.inj heq]

theorem shares_bot_iff : Shares (held vars settings EnvConfig.botToken) other profileId ↔
    HasTokens vars settings other ∧ HasTokens vars settings profileId ∧
      botToken vars settings other = botToken vars settings profileId :=
  shares_held_iff fun h => (tokens_of_load h).1

theorem shares_app_iff : Shares (held vars settings EnvConfig.appToken) other profileId ↔
    HasTokens vars settings other ∧ HasTokens vars settings profileId ∧
      appToken vars settings other = appToken vars settings profileId :=
  shares_held_iff fun h => (tokens_of_load h).2

end Checks

/-! ## What validation accepts -/

structure TokenProfiles.Of (vars : String → Option String) (settings : GlobalSettings)
    (done : List String) (owners : TokenProfiles) : Prop where
  bot : Registers (held vars settings EnvConfig.botToken) done owners.bot
  app : Registers (held vars settings EnvConfig.appToken) done owners.app

section Validation

variable {vars : String → Option String} {settings : GlobalSettings} {done ids : List String}
  {owners next : TokenProfiles} {profileId : String} {env : EnvConfig}

theorem TokenProfiles.Of.nil : TokenProfiles.Of vars settings [] {} :=
  ⟨Registers.nil, Registers.nil⟩

theorem TokenProfiles.Of.insert (h : owners.Of vars settings done)
    (hload : loadProfile vars settings profileId = .ok env) :
    TokenProfiles.Of vars settings (done ++ [profileId])
      { bot := owners.bot.insert env.botToken profileId
        app := owners.app.insert env.appToken profileId } :=
  ⟨h.bot.insert (held_of_load _ hload), h.app.insert (held_of_load _ hload)⟩

theorem TokenProfiles.Of.skip (h : owners.Of vars settings done) {err : SlackError}
    (hload : loadProfile vars settings profileId = .error err) :
    owners.Of vars settings (done ++ [profileId]) :=
  ⟨h.bot.skip (held_of_error _ hload), h.app.skip (held_of_error _ hload)⟩

/-- No token of the one is known as a token of the other. -/
def Apart (vars : String → Option String) (settings : GlobalSettings) (p q : String) : Prop :=
  ¬ Shares (held vars settings EnvConfig.botToken) p q ∧
    ¬ Shares (held vars settings EnvConfig.appToken) p q

/-- A profile is entered exactly when its tokens are new. -/
theorem register_eq_ok_iff (h : owners.Of vars settings done)
    (hload : loadProfile vars settings profileId = .ok env) :
    owners.register profileId env = .ok next ↔
      (∀ p ∈ done, Apart vars settings p profileId) ∧
        next = { bot := owners.bot.insert env.botToken profileId
                 app := owners.app.insert env.appToken profileId } := by
  have hbot := h.bot.lookup_eq_none_iff (held_of_load EnvConfig.botToken hload)
  have happ := h.app.lookup_eq_none_iff (held_of_load EnvConfig.appToken hload)
  have hnew : (∀ p ∈ done, Apart vars settings p profileId) ↔
      owners.bot.lookup env.botToken = none ∧ owners.app.lookup env.appToken = none := by
    rw [hbot, happ]
    exact forall₂_and
  rw [hnew]
  unfold TokenProfiles.register
  cases owners.bot.lookup env.botToken with
  | some existing => simp
  | none =>
    cases owners.app.lookup env.appToken with
    | some existing => simp
    | none => simp [eq_comm]

/-- A step that loads a profile, enters its tokens and asks for `extra`. -/
structure ChecksAs (vars : String → Option String) (settings : GlobalSettings) {σ α : Type}
    (step : σ → α → Except SlackError σ) (ownersOf : σ → TokenProfiles) (idOf : α → String)
    (extra : EnvConfig → Prop) : Prop where
  sound : ∀ {s a s'}, step s a = .ok s' → ∃ env, loadProfile vars settings (idOf a) = .ok env ∧
    (ownersOf s).register (idOf a) env = .ok (ownersOf s') ∧ extra env
  complete : ∀ {s a env next}, loadProfile vars settings (idOf a) = .ok env →
    (ownersOf s).register (idOf a) env = .ok next → extra env →
      ∃ s', step s a = .ok s' ∧ ownersOf s' = next

/-- Such a pass ends well exactly when every profile has both tokens and passes, and no two
profiles share a token. -/
theorem ChecksAs.foldlM_ok_iff {σ α : Type} {step : σ → α → Except SlackError σ}
    {ownersOf : σ → TokenProfiles} {idOf : α → String} {extra : EnvConfig → Prop}
    (hchecks : ChecksAs vars settings step ownersOf idOf extra) : ∀ (entries : List α)
    {done : List String} {s : σ}, (ownersOf s).Of vars settings done →
      ((∃ s', entries.foldlM step s = .ok s') ↔
        (∀ p ∈ entries.map idOf, ∃ env, loadProfile vars settings p = .ok env ∧ extra env) ∧
          (∀ q ∈ done, ∀ p ∈ entries.map idOf, Apart vars settings q p) ∧
            (entries.map idOf).Pairwise (Apart vars settings))
  | [], done, s, _ => by
      simp only [List.map_nil, List.not_mem_nil, false_implies, implies_true, List.Pairwise.nil,
        and_self, iff_true]
      exact ⟨s, rfl⟩
  | a :: entries, done, s, hs => by
      rw [List.foldlM_cons, List.map_cons, List.forall_mem_cons, List.pairwise_cons]
      constructor
      · rintro ⟨last, hlast⟩
        obtain ⟨s', hstep, hrest⟩ := bind_eq_ok hlast
        obtain ⟨env, hload, hregister, hextra⟩ := hchecks.sound hstep
        obtain ⟨hnew, hnext⟩ := (register_eq_ok_iff hs hload).mp hregister
        have hs' : (ownersOf s').Of vars settings (done ++ [idOf a]) := hnext ▸ hs.insert hload
        obtain ⟨hall, hapart, hpairs⟩ := (foldlM_ok_iff hchecks entries hs').mp ⟨last, hrest⟩
        refine ⟨⟨⟨env, hload, hextra⟩, hall⟩, fun q hq => ?_, hapart _ (by simp), hpairs⟩
        exact List.forall_mem_cons.mpr ⟨hnew q hq, hapart q (List.mem_append_left _ hq)⟩
      · rintro ⟨⟨⟨env, hload, hextra⟩, hall⟩, hapart, hself, hpairs⟩
        have hregister := (register_eq_ok_iff hs hload).mpr
          ⟨fun q hq => hapart q hq _ List.mem_cons_self, rfl⟩
        obtain ⟨s', hstep, hnext⟩ := hchecks.complete hload hregister hextra
        have hs' : (ownersOf s').Of vars settings (done ++ [idOf a]) := hnext ▸ hs.insert hload
        obtain ⟨last, hlast⟩ := (foldlM_ok_iff hchecks entries hs').mpr ⟨hall, fun q hq p hp => by
          rcases List.mem_append.mp hq with hq | hq
          · exact hapart q hq p (List.mem_cons_of_mem _ hp)
          · exact List.mem_singleton.mp hq ▸ hself p hp, hpairs⟩
        rw [hstep]
        exact ⟨last, hlast⟩

theorem checksAs_validate (vars : String → Option String) (settings : GlobalSettings) :
    ChecksAs vars settings (validateProfile vars settings) id id fun _ => True where
  sound h := by
    obtain ⟨env, hload, hregister⟩ := bind_eq_ok h
    exact ⟨env, hload, hregister, trivial⟩
  complete hload hregister _ := by
    refine ⟨_, ?_, rfl⟩
    exact bind_ok_iff.mpr ⟨_, hload, hregister⟩

theorem checksAs_build (vars : String → Option String) (settings : GlobalSettings)
    (api : SlackApi) (options : BuildOptions) :
    ChecksAs vars settings (buildProfileRuntime vars api settings options) Build.owners Prod.fst
      fun env => options.connect api env = .ok () where
  sound h := by
    obtain ⟨env, hload, h⟩ := bind_eq_ok h
    obtain ⟨owners, hregister, h⟩ := bind_eq_ok h
    obtain ⟨u, hconnect, h⟩ := bind_eq_ok h
    cases h
    exact ⟨env, hload, hregister, hconnect⟩
  complete {build entry env next} hload hregister hconnect := by
    refine ⟨⟨next, OrderedMap.insert entry.1 (options.runtime entry.2 env) build.runtimes⟩, ?_, rfl⟩
    refine bind_ok_iff.mpr ⟨env, hload, bind_ok_iff.mpr ⟨next, hregister, ?_⟩⟩
    exact bind_ok_iff.mpr ⟨(), hconnect, rfl⟩

theorem validateStartupCredentials_ok_iff (vars : String → Option String)
    (henabled : slackChannelEnabled settings = true)
    (hprofiles : slackProfiles settings ≠ []) :
    validateStartupCredentials vars settings = .ok () ↔
      (∀ p ∈ slackProfileIds settings, HasTokens vars settings p) ∧
        (slackProfileIds settings).Pairwise (Apart vars settings) := by
  have hfold := (checksAs_validate vars settings).foldlM_ok_iff (slackProfileIds settings)
    (TokenProfiles.Of.nil : TokenProfiles.Of vars settings [] {})
  simp only [List.map_id, List.not_mem_nil, false_implies, implies_true, true_and, and_true,
    ← hasTokens_iff] at hfold
  rw [← hfold]
  have hempty : (slackProfiles settings).isEmpty = false := by simpa using hprofiles
  unfold validateStartupCredentials
  simp only [henabled, hempty, Bool.not_true, Bool.false_eq_true, if_false]
  constructor
  · intro h
    obtain ⟨last, hlast, -⟩ := bind_eq_ok h
    exact ⟨last, hlast⟩
  · rintro ⟨last, hlast⟩
    exact bind_ok_iff.mpr ⟨last, hlast, rfl⟩

/-- A build checks what validation checks, and what it asks of Slack. -/
theorem buildProfileRuntimes_ok_iff (api : SlackApi) (options : BuildOptions) :
    (∃ runtimes, buildProfileRuntimes vars api settings options = .ok runtimes) ↔
      ((∀ p ∈ slackProfileIds settings, HasTokens vars settings p) ∧
        (slackProfileIds settings).Pairwise (Apart vars settings)) ∧
      ∀ p ∈ slackProfileIds settings, ∀ env, loadProfile vars settings p = .ok env →
        options.connect api env = .ok () := by
  have hnil : (Build.owners {}).Of vars settings [] := TokenProfiles.Of.nil
  have hfold := (checksAs_build vars settings api options).foldlM_ok_iff
    (slackProfiles settings) hnil
  have hload : (∀ p ∈ slackProfileIds settings, ∃ env,
      loadProfile vars settings p = .ok env ∧ options.connect api env = .ok ()) ↔
      (∀ p ∈ slackProfileIds settings, HasTokens vars settings p) ∧
        ∀ p ∈ slackProfileIds settings, ∀ env, loadProfile vars settings p = .ok env →
          options.connect api env = .ok () := by
    rw [← forall₂_and]
    refine forall₂_congr fun p _ => ?_
    rw [hasTokens_iff]
    cases loadProfile vars settings p with
    | ok env => simp
    | error err => simp
  simp only [List.not_mem_nil, false_implies, implies_true, true_and] at hfold
  rw [slackProfileIds] at hload
  rw [hload] at hfold
  rw [and_right_comm, slackProfileIds, ← hfold]
  constructor
  · rintro ⟨runtimes, hruntimes⟩
    obtain ⟨build, hbuild, -⟩ := bind_eq_ok hruntimes
    exact ⟨build, hbuild⟩
  · rintro ⟨build, hbuild⟩
    exact ⟨build.runtimes, bind_ok_iff.mpr ⟨build, hbuild, rfl⟩⟩

end Validation

/-! ## What health marks -/

section Marking

variable {health : HealthMap} {profileId reason credential : String} {displaced : Option String}

theorem keys_setNotOk : (setNotOk profileId reason health).map (·.1) = health.map (·.1) := by
  unfold setNotOk
  split
  · unfold OrderedMap.set
    rw [List.map_map]
    apply List.map_congr_left
    intro entry _
    simp only [Function.comp_apply]
    split
    · next heq => exact heq.symm
    · rfl
  · rfl

theorem lookup_setNotOk (p : String) : (setNotOk profileId reason health).lookup p =
    if p = profileId then
      (health.lookup p).map fun entry => { entry with ok := false, reason := some reason }
    else health.lookup p := by
  unfold setNotOk
  by_cases hp : p = profileId
  · subst hp
    rw [if_pos rfl]
    cases hlookup : health.lookup p with
    | some entry => exact OrderedMap.lookup_set_self hlookup
    | none => exact hlookup
  · rw [if_neg hp]
    cases health.lookup profileId with
    | some entry => exact OrderedMap.lookup_set_of_ne hp _ _
    | none => rfl

theorem keys_markDuplicate :
    (markDuplicate credential displaced profileId health).map (·.1) = health.map (·.1) := by
  unfold markDuplicate
  split
  · rw [keys_setNotOk, keys_setNotOk]
  · rfl

/-- Of a displaced holder and the one who takes the token, neither stays ok. -/
theorem markDuplicate_ok {p : String} {entry : SlackProfileCredentialHealth}
    (h : (markDuplicate credential displaced profileId health).lookup p = some entry) :
    ∃ before, health.lookup p = some before ∧ entry.profileId = before.profileId ∧
      (entry.ok = true ↔
        before.ok = true ∧ displaced ≠ some p ∧ (p = profileId → displaced = none)) := by
  unfold markDuplicate at h
  cases displaced with
  | none => exact ⟨entry, h, rfl, by simp⟩
  | some existing =>
    simp only [lookup_setNotOk] at h
    cases hbefore : health.lookup p with
    | none => simp [hbefore] at h
    | some before =>
      refine ⟨before, rfl, ?_⟩
      rw [hbefore] at h
      split_ifs at h with hp hexisting hexisting
      · cases h
        exact ⟨rfl, by simp [hp]⟩
      · cases h
        exact ⟨rfl, by simp [hp]⟩
      · cases h
        exact ⟨rfl, by simp [hexisting]⟩
      · cases h
        exact ⟨rfl, by simp [hp, Ne.symm hexisting]⟩

end Marking

/-- Health after the profiles in `done`. -/
structure HealthPass.Of (vars : String → Option String) (settings : GlobalSettings)
    (done : List String) (pass : HealthPass) : Prop where
  owners : pass.owners.Of vars settings done
  sorted : OrderedMap.Sorted pass.health
  keys : ∀ p, p ∈ pass.health.map (·.1) ↔ p ∈ done
  entries : ∀ {p entry}, pass.health.lookup p = some entry →
    entry.profileId = p ∧ (entry.ok = true ↔ Sound vars settings done p)

section Health

variable {vars : String → Option String} {settings : GlobalSettings} {done : List String}
  {pass : HealthPass} {profileId : String} {env : EnvConfig}

theorem mem_keys_insert_iff {α : Type} {key p : String} {value : α} {entries : List (String × α)} :
    p ∈ (OrderedMap.insert key value entries).map (·.1) ↔ p ∈ entries.map (·.1) ∨ p = key := by
  constructor
  · intro h
    obtain ⟨entry, hentry, rfl⟩ := List.mem_map.mp h
    rcases OrderedMap.mem_insert hentry with rfl | hin
    · exact .inr rfl
    · exact .inl (List.mem_map_of_mem hin)
  · rintro (h | rfl)
    · exact OrderedMap.mem_keys_insert h
    · exact List.mem_map_of_mem (OrderedMap.mem_insert_self _ _ _)

theorem HealthPass.Of.nil : HealthPass.Of vars settings [] {} where
  owners := TokenProfiles.Of.nil
  sorted := List.Pairwise.nil
  keys p := by simp
  entries h := by cases h

theorem HealthPass.Of.done_of_lookup (h : pass.Of vars settings done) {p : String}
    {entry : SlackProfileCredentialHealth} (hlookup : pass.health.lookup p = some entry) :
    p ∈ done :=
  (h.keys p).mp (List.mem_map_of_mem (OrderedMap.mem_of_lookup hlookup))

theorem HealthPass.Of.visit_error (h : pass.Of vars settings done) {err : SlackError}
    (hload : loadProfile vars settings profileId = .error err) :
    (pass.visit vars settings profileId).Of vars settings (done ++ [profileId]) := by
  rw [HealthPass.visit, hload]
  refine ⟨h.owners.skip hload, h.sorted.insert, fun p => ?_, fun {p entry} hlookup => ?_⟩
  · rw [mem_keys_insert_iff, h.keys, List.mem_append, List.mem_singleton]
  · by_cases hp : p = profileId
    · subst hp
      rw [OrderedMap.lookup_insert_self] at hlookup
      cases hlookup
      have hmissing : ¬ HasTokens vars settings p := by
        rw [hasTokens_iff, hload]
        simp
      exact ⟨rfl, by simp [Sound, hmissing]⟩
    · rw [OrderedMap.lookup_insert_of_ne hp] at hlookup
      obtain ⟨hid, hok⟩ := h.entries hlookup
      refine ⟨hid, hok.trans ?_⟩
      rw [Sound, Sound, alone_append_of_none (held_of_error _ hload),
        alone_append_of_none (held_of_error _ hload)]

theorem HealthPass.Of.visit_ok (h : pass.Of vars settings done) (hnew : profileId ∉ done)
    (hload : loadProfile vars settings profileId = .ok env) :
    (pass.visit vars settings profileId).Of vars settings (done ++ [profileId]) := by
  rw [HealthPass.visit, hload]
  have hbot := held_of_load EnvConfig.botToken hload
  have happ := held_of_load EnvConfig.appToken hload
  refine ⟨h.owners.insert hload, ?_, fun p => ?_, fun {p entry} hlookup => ?_⟩
  · simp only [OrderedMap.Sorted, keys_markDuplicate]
    exact h.sorted.insert
  · simp only [keys_markDuplicate]
    rw [mem_keys_insert_iff, h.keys, List.mem_append, List.mem_singleton]
  · obtain ⟨mid, hmid, hid, hok⟩ := markDuplicate_ok hlookup
    obtain ⟨first, hfirst, hid', hok'⟩ := markDuplicate_ok hmid
    rw [hid, hid', hok, hok']
    by_cases hp : p = profileId
    · subst hp
      rw [OrderedMap.lookup_insert_self] at hfirst
      cases hfirst
      refine ⟨rfl, ?_⟩
      rw [Sound, h.owners.bot.alone_self_iff hnew hbot, h.owners.app.alone_self_iff hnew happ]
      have htokens : HasTokens vars settings p := hasTokens_iff.mpr ⟨env, hload⟩
      simp only [htokens, true_and, forall_const]
      constructor
      · rintro ⟨⟨-, hbot⟩, -, happ⟩
        exact ⟨hbot, happ⟩
      · rintro ⟨hbot, happ⟩
        simp [hbot, happ]
    · rw [OrderedMap.lookup_insert_of_ne hp] at hfirst
      obtain ⟨hid, hok⟩ := h.entries hfirst
      have hdone := h.done_of_lookup hfirst
      refine ⟨hid, ?_⟩
      rw [hok, Sound, Sound, h.owners.bot.alone_append_iff hnew hbot hdone,
        h.owners.app.alone_append_iff hnew happ hdone]
      simp only [hp, false_implies, and_true]
      tauto

theorem HealthPass.Of.visit (h : pass.Of vars settings done) (hnew : profileId ∉ done) :
    (pass.visit vars settings profileId).Of vars settings (done ++ [profileId]) := by
  cases hload : loadProfile vars settings profileId with
  | ok env => exact h.visit_ok hnew hload
  | error err => exact h.visit_error hload

theorem HealthPass.Of.foldl : ∀ {ids done : List String} {pass : HealthPass},
    pass.Of vars settings done → (done ++ ids).Nodup →
      (ids.foldl (HealthPass.visit vars settings) pass).Of vars settings (done ++ ids)
  | [], done, pass, h, _ => by rwa [List.append_nil]
  | profileId :: ids, done, pass, h, hnodup => by
      have hnew : profileId ∉ done := fun hdone =>
        List.disjoint_of_nodup_append hnodup hdone List.mem_cons_self
      rw [List.append_cons] at hnodup ⊢
      exact foldl (h.visit hnew) hnodup

theorem healthPass_of (vars : String → Option String) (settings : GlobalSettings) :
    ((slackProfileIds settings).foldl (HealthPass.visit vars settings) {}).Of vars settings
      (slackProfileIds settings) :=
  HealthPass.Of.nil.foldl (slackProfiles_nodup settings)

/-- Health has an entry for every profile, in their order. -/
theorem ids_profileCredentialHealth (vars : String → Option String) (settings : GlobalSettings) :
    (profileCredentialHealth vars settings).map (·.profileId) = slackProfileIds settings := by
  have hpass := healthPass_of vars settings
  have hkeys : (profileCredentialHealth vars settings).map (·.profileId) =
      ((slackProfileIds settings).foldl (HealthPass.visit vars settings) {}).health.map (·.1) := by
    rw [profileCredentialHealth, List.map_map]
    apply List.map_congr_left
    intro entry hentry
    exact (hpass.entries (OrderedMap.lookup_of_mem hpass.sorted.nodup hentry)).1
  rw [hkeys]
  have hids : (slackProfileIds settings).Pairwise (· < ·) := OrderedMap.sorted_ofEntries _
  exact ((List.perm_ext_iff_of_nodup hpass.sorted.nodup (slackProfiles_nodup settings)).mpr
    hpass.keys).eq_of_pairwise (fun a b _ _ hab hba => absurd (hab.trans hba) (lt_irrefl a))
    hpass.sorted hids

/-- A profile is ok exactly when it has both tokens and no other that has both has either. -/
theorem profileCredentialHealth_ok_iff {entry : SlackProfileCredentialHealth}
    (h : entry ∈ profileCredentialHealth vars settings) :
    entry.ok = true ↔ Sound vars settings (slackProfileIds settings) entry.profileId := by
  have hpass := healthPass_of vars settings
  obtain ⟨⟨p, entry⟩, hentry, rfl⟩ := List.mem_map.mp h
  obtain ⟨hid, hok⟩ := hpass.entries (OrderedMap.lookup_of_mem hpass.sorted.nodup hentry)
  rw [hid]
  exact hok

end Health

/-! ## The cursor file of a profile -/

/-- Ids that look alike as a component have the same environment keys. -/
theorem mappedId_eq_of_sanitize {p q : String} (h : sanitizeComponent p = sanitizeComponent q) :
    mappedId p = mappedId q := by
  have hchars : ∀ s : String, mappedId s =
      String.ofList ((sanitizeComponent s).toList.map fun c =>
        if c.isAlphanum then c.toUpper else '_') := by
    intro s
    rw [mappedId, sanitizeComponent, String.toList_ofList, List.map_map]
    congr 1
    apply List.map_congr_left
    intro c _
    show (if c.isAlphanum then c.toUpper else '_') = if _ then _ else _
    by_cases hc : c.isAlphanum
    · simp [hc]
    · by_cases hdash : c = '-' ∨ c = '_'
      · rcases hdash with rfl | rfl <;> rfl
      · have hother : (c.isAlphanum || c == '-' || c == '_') = false := by
          simpa [hc] using hdash
        rw [if_neg hc]
        simp only [hother]
        rfl
  rw [hchars p, hchars q, h]

theorem cursorStatePath_injective_on {p q : String} (h : cursorStatePath p = cursorStatePath q) :
    sanitizeComponent p = sanitizeComponent q := by
  unfold cursorStatePath at h
  by_cases hp : sanitizeComponent p = "" <;> by_cases hq : sanitizeComponent q = ""
  · rw [hp, hq]
  · simp [hp, hq] at h
  · simp [hp, hq] at h
  · simpa [hp, hq] using h

/-- The tokens of a profile are read from its keys alone. -/
theorem profileToken_congr (vars : String → Option String) (requireScoped : Bool) (stem : String)
    {p q : String} (h : mappedId p = mappedId q) :
    profileToken vars requireScoped stem p = profileToken vars requireScoped stem q := by
  rw [profileToken, profileToken, profileEnvKey, profileEnvKey, h]

/-! ## Agreement -/

section Agreement

variable {vars : String → Option String} {settings : GlobalSettings} {p q : String}

theorem apart_iff (hp : HasTokens vars settings p) (hq : HasTokens vars settings q) :
    Apart vars settings p q ↔ botToken vars settings p ≠ botToken vars settings q ∧
      appToken vars settings p ≠ appToken vars settings q := by
  rw [Apart, shares_bot_iff, shares_app_iff]
  simp only [hp, hq, true_and]

/-- Every profile is sound exactly when validation finds nothing. -/
theorem forall_sound_iff :
    (∀ p ∈ slackProfileIds settings, Sound vars settings (slackProfileIds settings) p) ↔
      (∀ p ∈ slackProfileIds settings, HasTokens vars settings p) ∧
        (slackProfileIds settings).Pairwise (Apart vars settings) := by
  have hnodup : (slackProfileIds settings).Nodup := slackProfiles_nodup settings
  unfold Sound Apart
  rw [forall₂_and, forall₂_and, forall_alone_iff_pairwise hnodup, forall_alone_iff_pairwise hnodup,
    List.pairwise_and_iff]

theorem not_sound_iff : ¬ Sound vars settings (slackProfileIds settings) p ↔
    (botToken vars settings p = none ∨ appToken vars settings p = none) ∨
      ∃ other ∈ slackProfileIds settings, other ≠ p ∧ HasTokens vars settings other ∧
        (botToken vars settings other = botToken vars settings p ∨
          appToken vars settings other = appToken vars settings p) := by
  rw [Sound, not_and_or, not_hasTokens_iff]
  by_cases hp : HasTokens vars settings p
  · refine or_congr_right ?_
    rw [not_and_or]
    simp only [Alone, shares_bot_iff, shares_app_iff, hp, true_and]
    push Not
    simp only [and_or_left, exists_or]
  · have hmissing := not_hasTokens_iff.mp hp
    simp [hmissing]

theorem distinct_of_valid (h : (∀ p ∈ slackProfileIds settings, HasTokens vars settings p) ∧
    (slackProfileIds settings).Pairwise (Apart vars settings)) {p q : String}
    (hp : p ∈ slackProfileIds settings) (hq : q ∈ slackProfileIds settings) (hne : p ≠ q) :
    botToken vars settings p ≠ botToken vars settings q ∧
      appToken vars settings p ≠ appToken vars settings q ∧
        cursorStatePath p ≠ cursorStatePath q := by
  have hsound := forall_sound_iff.mpr h
  have hapart : Apart vars settings p q :=
    ⟨(hsound q hq).2.1 p hp hne, (hsound q hq).2.2 p hp hne⟩
  obtain ⟨hbot, happ⟩ := (apart_iff (h.1 p hp) (h.1 q hq)).mp hapart
  refine ⟨hbot, happ, fun hpath => hbot ?_⟩
  exact profileToken_congr vars _ _ (mappedId_eq_of_sanitize (cursorStatePath_injective_on hpath))

/-- The three checks agree; health marks who lacks a token or shares one with a profile that
has both its tokens; and what validation accepts is kept apart. -/
theorem slackCredentialChecks_agree (vars : String → Option String) (settings : GlobalSettings)
    (henabled : slackChannelEnabled settings = true) (hprofiles : slackProfiles settings ≠ []) :
    (validateStartupCredentials vars settings = .ok () ↔
        ∀ entry ∈ profileCredentialHealth vars settings, entry.ok = true) ∧
      (∀ api options, (∃ runtimes, buildProfileRuntimes vars api settings options = .ok runtimes) ↔
        validateStartupCredentials vars settings = .ok () ∧
          ∀ p ∈ slackProfileIds settings, ∀ env, loadProfile vars settings p = .ok env →
            options.connect api env = .ok ()) ∧
      (profileCredentialHealth vars settings).map (·.profileId) = slackProfileIds settings ∧
      (∀ entry ∈ profileCredentialHealth vars settings, entry.ok = false ↔
        (botToken vars settings entry.profileId = none ∨
          appToken vars settings entry.profileId = none) ∨
        ∃ other ∈ slackProfileIds settings, other ≠ entry.profileId ∧
          HasTokens vars settings other ∧
            (botToken vars settings other = botToken vars settings entry.profileId ∨
              appToken vars settings other = appToken vars settings entry.profileId)) ∧
      (validateStartupCredentials vars settings = .ok () →
        ∀ p ∈ slackProfileIds settings, ∀ q ∈ slackProfileIds settings, p ≠ q →
          botToken vars settings p ≠ botToken vars settings q ∧
            appToken vars settings p ≠ appToken vars settings q ∧
              cursorStatePath p ≠ cursorStatePath q) := by
  have hvalid := validateStartupCredentials_ok_iff vars henabled hprofiles
  have hids := ids_profileCredentialHealth vars settings
  refine ⟨?_, fun api options => ?_, hids, fun entry hentry => ?_, fun h p hp q hq hne => ?_⟩
  · rw [hvalid, ← forall_sound_iff, ← hids, List.forall_mem_map, hids]
    exact forall₂_congr fun entry hentry => (profileCredentialHealth_ok_iff hentry).symm
  · rw [hvalid]
    exact buildProfileRuntimes_ok_iff api options
  · rw [← not_sound_iff, ← profileCredentialHealth_ok_iff hentry, Bool.not_eq_true]
  · exact distinct_of_valid (hvalid.mp h) hp hq hne

def twoProfiles : GlobalSettings where
  workspacesPath := "/srv/workspaces"
  channelProfiles :=
    [("alpha", { channel := .slack, orchestratorId := "main" }),
      ("beta", { channel := .slack, orchestratorId := "main" })]
  channels := [("slack", { enabled := true })]

theorem slackCredentialChecks_agree_two :
    validateStartupCredentials (fun key => some key) twoProfiles = .ok () ↔
      ∀ entry ∈ profileCredentialHealth (fun key => some key) twoProfiles, entry.ok = true :=
  (slackCredentialChecks_agree (fun key => some key) twoProfiles (by decide)
    (by decide)).1

def oneBotToken (key : String) : Option String :=
  [("SLACK_BOT_TOKEN_ALPHA", "xoxb-1"), ("SLACK_BOT_TOKEN_BETA", "xoxb-1"),
    ("SLACK_APP_TOKEN_BETA", "xapp-1")].lookup key

/-- `alpha` fails to load before its bot token is noted, so `beta` passes for ok. -/
theorem shared_token_of_incomplete_profile :
    ¬ ∀ (vars : String → Option String) (settings : GlobalSettings),
      slackChannelEnabled settings = true → slackProfiles settings ≠ [] →
        ∀ entry ∈ profileCredentialHealth vars settings, entry.ok = false ↔
          (botToken vars settings entry.profileId = none ∨
            appToken vars settings entry.profileId = none) ∨
          ∃ other ∈ slackProfileIds settings, other ≠ entry.profileId ∧
            (botToken vars settings other = botToken vars settings entry.profileId ∨
              appToken vars settings other = appToken vars settings entry.profileId) := by
  intro h
  have hbeta : (⟨"beta", true, none⟩ : SlackProfileCredentialHealth) ∈
      profileCredentialHealth oneBotToken twoProfiles := by decide
  have hshared := (h oneBotToken twoProfiles (by decide) (by decide) _ hbeta).mpr
    (.inr ⟨"alpha", by decide, by decide, .inl (by decide)⟩)
  cases hshared

end Agreement

end Direclaw.Slack
