import Direclaw.Slack.SocketIntake

/-!
# The loop of a socket reader

`run_socket_loop` of `channels/slack/socket.rs`, for a profile and until a stop flag is set:
a catch-up, the address of a connection, the connection, and a pause before the next one.
A rate limit and an error that is not to be retried end the loop.
-/

namespace Direclaw.Slack

/-! ## Errors -/

inductive SlackError : Type where
  | channelDisabled
  | noSlackProfiles
  | missingEnvVar (key : String)
  | missingProfileScopedEnvVar (profileId key : String)
  | duplicateProfileCredential (credential profileA profileB : String)
  | invalidConversationId (channelId : String)
  | invalidTargetRef (messageId reason : String)
  | unknownChannelProfile (profileId : String)
  | missingChannelProfileId (messageId : String)
  | outboundDelivery (messageId profileId channelId threadTs reason : String)
  | unauthorizedChannelTarget (messageId profileId channelId : String)
  | apiRequest (detail : String)
  | rateLimited (path : String) (retryAfterSecs : ℕ)
  | apiResponse (detail : String)
  | config (detail : String)
  | io (path source : String)
  | json (path source : String)
deriving DecidableEq, Repr

def SlackError.display : SlackError → String
  | .channelDisabled => "slack channel is disabled in settings"
  | .noSlackProfiles => "no slack channel profiles are configured"
  | .missingEnvVar key => s!"missing required env var `{key}`"
  | .missingProfileScopedEnvVar profileId key =>
    s!"missing required env var `{key}` for slack profile `{profileId}`"
  | .duplicateProfileCredential credential profileA profileB =>
    s!"slack profiles `{profileA}` and `{profileB}` resolve to the same `{credential}` token; " ++
      "configure distinct profile-scoped credentials"
  | .invalidConversationId channelId =>
    s!"invalid conversation id `{channelId}` for slack outgoing message"
  | .invalidTargetRef messageId reason =>
    s!"invalid slack targetRef in outgoing message `{messageId}`: {reason}"
  | .unknownChannelProfile profileId =>
    s!"unknown slack channel profile `{profileId}` in outgoing message"
  | .missingChannelProfileId messageId =>
    s!"outgoing slack message `{messageId}` has no channel_profile_id and multiple slack " ++
      "profiles exist"
  | .outboundDelivery messageId profileId channelId threadTs reason =>
    s!"failed to deliver outbound slack message `{messageId}` for profile `{profileId}` to " ++
      s!"channel `{channelId}` thread `{threadTs}`: {reason}"
  | .unauthorizedChannelTarget messageId profileId channelId =>
    s!"outgoing slack message `{messageId}` for profile `{profileId}` targets unauthorized " ++
      s!"channel `{channelId}`"
  | .apiRequest detail => s!"slack api request failed: {detail}"
  | .rateLimited path retryAfterSecs =>
    s!"slack api rate limited for `{path}`; retry_after_seconds={retryAfterSecs}"
  | .apiResponse detail => s!"slack api responded with error `{detail}`"
  | .config detail => s!"invalid settings configuration: {detail}"
  | .io path source => s!"io error at {path}: {source}"
  | .json path source => s!"json error at {path}: {source}"

/-! ## The loop -/

/-- What `run_socket_loop` does next. -/
inductive SocketPhase : Type where
  | loopHead
  | catchUp
  | openUrl
  | connect
  | configure
  | connection
  | backoff
  | returned (outcome : Except SlackError Unit)
deriving DecidableEq

/-- What a call of the loop comes to; of the connection and of the pause, that they end. -/
inductive SocketResult : Type where
  | done
  | failed (err : SlackError)
  /-- The text of an error of the websocket library. -/
  | refused (detail : String)
deriving DecidableEq, Repr

/-- An error of the text is retried after a pause or ends the loop. -/
def SocketPhase.afterText (context detail : String) : SocketPhase :=
  match classifySocketFailure detail with
  | .nonRetryable =>
    .returned (.error (.apiRequest (formatSocketError context detail .nonRetryable)))
  | .retryable => .backoff

def SocketPhase.afterError (context : String) : SlackError → SocketPhase
  | .rateLimited path retryAfterSecs => .returned (.error (.rateLimited path retryAfterSecs))
  | err => .afterText context err.display

/-- One call of the loop; `reconnect` asks for a new connection and is left out, as the pause
follows the end of a connection either way. -/
def SocketPhase.step (recoverMissedMessages stop : Bool) (result : SocketResult) :
    SocketPhase → SocketPhase
  | .loopHead =>
    if stop then .returned (.ok ())
    else if recoverMissedMessages then .catchUp
    else .openUrl
  | .catchUp =>
    match result with
    | .failed err => .afterError "socket catch-up failed" err
    | _ => .openUrl
  | .openUrl =>
    match result with
    | .failed err => .afterError "socket url open failed" err
    | _ => .connect
  | .connect =>
    match result with
    | .refused detail => .afterText "socket connect failed" detail
    | _ => .configure
  | .configure =>
    match result with
    | .failed err => .returned (.error err)
    | _ => .connection
  -- a connection ends at the stop flag, at a reconnect request or with the peer
  | .connection => if stop then .returned (.ok ()) else .backoff
  | .backoff => if stop then .returned (.ok ()) else .loopHead
  | .returned outcome => .returned outcome

end Direclaw.Slack
