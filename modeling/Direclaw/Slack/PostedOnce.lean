import Direclaw.Lib.Run
import Direclaw.Slack.Egress

/-!
# Chunks that are posted once

The chunks of a message come from one reading of its file in order. A second reading, by a
retry or by the other worker, begins with the first chunk again.
-/

namespace Direclaw.Slack

open Direclaw.Lib Direclaw.Queue Direclaw.Orchestration

/-! ## Chunks -/

theorem chunkLoop_join (rest : List Char) : ∀ (out : List String) (current : List Char) (count : ℕ),
    (chunkLoop out current count rest).flatMap String.toList =
      out.flatMap String.toList ++ current ++ rest := by
  induction rest with
  | nil =>
    intro out current count
    cases current with
    | nil => simp [chunkLoop]
    | cons ch current => simp [chunkLoop]
  | cons ch rest ih =>
    intro out current count
    unfold chunkLoop
    split
    · rw [ih]
      simp
    · rw [ih]
      simp

theorem chunkMessage_join (input : String) :
    (chunkMessage input).flatMap String.toList = input.toList := by
  unfold chunkMessage
  split
  · next hempty =>
      have hinput : input = "" := by simpa using hempty
      subst hinput
      rfl
  · rw [chunkLoop_join]
    rfl

namespace Outbound

variable {runtimes : List (String × SlackProfileRuntime)}

def chunksOf (s : Outbound) (message : ℕ) : List ℕ :=
  (s.posts.filter (·.message == message)).map (·.chunk)

/-- Of every message the first chunks are posted, each once and in order. -/
def PostedInOrder (s : Outbound) : Prop := ∀ message, ∃ count, s.chunksOf message = List.range count

def working : Option Pass → Option (Reading × ℕ)
  | some { stage := .posting reading _ next, .. } => some (reading, next)
  | _ => none

def atWork (s : Outbound) (worker : OutboundWorker) : Option (Reading × ℕ) :=
  working (s.passes worker)

/-- The call posts a chunk. -/
def posts? (s : Outbound) (worker : OutboundWorker) (result : CallResult) : Bool :=
  match s.passes worker, result with
  | _, .failed _ => false
  | some { stage := .posting _ delivery next, .. }, _ => delivery.chunks[next]?.isSome
  | _, _ => false

/-- What has been posted of a message before a chunk of it comes from the same reading of
its file. -/
def OneReading (s : Outbound) : OutboundEvent → Prop
  | .advance worker result _ =>
    s.posts? worker result = true → ∀ reading next, s.atWork worker = some (reading, next) →
      ∀ post ∈ s.posts, post.message = reading.message → post.reading = reading.number
  | _ => True

/-! ## The invariant -/

structure PostInv (s : Outbound) : Prop where
  order : s.PostedInOrder
  single : ∀ p ∈ s.posts, ∀ q ∈ s.posts, p.message = q.message → p.reading = q.reading
  older : ∀ p ∈ s.posts, p.reading < s.readings
  started : ∀ worker reading next, s.atWork worker = some (reading, next) →
    reading.number < s.readings
  done : ∀ worker reading next, s.atWork worker = some (reading, next) →
    (s.posts.filter (·.reading == reading.number)).map (·.chunk) = List.range next
  same : ∀ worker reading next, s.atWork worker = some (reading, next) →
    ∀ post ∈ s.posts, post.reading = reading.number → post.message = reading.message
  apart : ∀ worker other reading reading' next next', s.atWork worker = some (reading, next) →
    s.atWork other = some (reading', next') → reading.number = reading'.number → worker = other

variable {worker : OutboundWorker} {s s' : Outbound} {reading : Reading} {next : ℕ}

theorem PostInv.quiet (h : s.PostInv) (hposts : s'.posts = s.posts)
    (hreadings : s'.readings = s.readings)
    (hwork : ∀ worker, s'.atWork worker = s.atWork worker ∨ s'.atWork worker = none) :
    s'.PostInv := by
  have hstill : ∀ worker reading next, s'.atWork worker = some (reading, next) →
      s.atWork worker = some (reading, next) := by
    intro worker reading next hat
    rcases hwork worker with hsame | hnone
    · rwa [hsame] at hat
    · rw [hnone] at hat
      cases hat
  constructor
  · intro message
    rw [chunksOf, hposts]
    exact h.order message
  · rw [hposts]
    exact h.single
  · rw [hposts, hreadings]
    exact h.older
  · intro worker reading next hat
    rw [hreadings]
    exact h.started worker reading next (hstill worker reading next hat)
  · intro worker reading next hat
    rw [hposts]
    exact h.done worker reading next (hstill worker reading next hat)
  · intro worker reading next hat
    rw [hposts]
    exact h.same worker reading next (hstill worker reading next hat)
  · intro worker other reading reading' next next' hat hat'
    exact h.apart worker other reading reading' next next' (hstill worker reading next hat)
      (hstill other reading' next' hat')

theorem PostInv.read (h : s.PostInv) (hnumber : reading.number = s.readings)
    (hposts : s'.posts = s.posts) (hreadings : s'.readings = s.readings + 1)
    (hat : s'.atWork worker = some (reading, 0))
    (hothers : ∀ other, other ≠ worker → s'.atWork other = s.atWork other) : s'.PostInv := by
  have hfresh : ∀ p ∈ s.posts, p.reading ≠ reading.number := fun p hp => by
    have := h.older p hp
    omega
  constructor
  · intro message
    rw [chunksOf, hposts]
    exact h.order message
  · rw [hposts]
    exact h.single
  · intro p hp
    rw [hposts] at hp
    have := h.older p hp
    omega
  · intro other reading' next hother
    by_cases heq : other = worker
    · rw [heq, hat] at hother
      cases hother
      omega
    · rw [hothers other heq] at hother
      have := h.started other reading' next hother
      omega
  · intro other reading' next hother
    rw [hposts]
    by_cases heq : other = worker
    · rw [heq, hat] at hother
      cases hother
      rw [List.filter_eq_nil_iff.mpr fun p hp => by simpa using hfresh p hp]
      rfl
    · rw [hothers other heq] at hother
      exact h.done other reading' next hother
  · intro other reading' next hother p hp hreading
    rw [hposts] at hp
    by_cases heq : other = worker
    · rw [heq, hat] at hother
      cases hother
      exact absurd hreading (hfresh p hp)
    · rw [hothers other heq] at hother
      exact h.same other reading' next hother p hp hreading
  · intro first second reading₁ reading₂ next₁ next₂ hfirst hsecond heq
    by_cases hw₁ : first = worker
    · by_cases hw₂ : second = worker
      · rw [hw₁, hw₂]
      · rw [hw₁, hat] at hfirst
        rw [hothers second hw₂] at hsecond
        cases hfirst
        have := h.started second reading₂ next₂ hsecond
        omega
    · rw [hothers first hw₁] at hfirst
      by_cases hw₂ : second = worker
      · rw [hw₂, hat] at hsecond
        cases hsecond
        have := h.started first reading₁ next₁ hfirst
        omega
      · rw [hothers second hw₂] at hsecond
        exact h.apart first second reading₁ reading₂ next₁ next₂ hfirst hsecond heq

theorem PostInv.filter_message (h : s.PostInv) (hat : s.atWork worker = some (reading, next))
    (hone : ∀ post ∈ s.posts, post.message = reading.message → post.reading = reading.number) :
    s.chunksOf reading.message = List.range next := by
  rw [← h.done worker reading next hat]
  unfold chunksOf
  congr 1
  refine List.filter_congr fun post hpost => ?_
  by_cases hmessage : post.message = reading.message
  · rw [hmessage, hone post hpost hmessage]
    simp
  · have hreading : post.reading ≠ reading.number := fun heq =>
      hmessage (h.same worker reading next hat post hpost heq)
    simp [hmessage, hreading]

theorem chunksOf_append {s s' : Outbound} {post : Post} (hposts : s'.posts = s.posts ++ [post])
    (message : ℕ) : s'.chunksOf message =
      s.chunksOf message ++ if post.message = message then [post.chunk] else [] := by
  unfold chunksOf
  rw [hposts, List.filter_append, List.map_append]
  congr 1
  by_cases heq : post.message = message
  · simp [heq]
  · simp [heq]

theorem PostInv.post (h : s.PostInv) (hat : s.atWork worker = some (reading, next))
    (hone : ∀ post ∈ s.posts, post.message = reading.message → post.reading = reading.number)
    {post : Post} (hmessage : post.message = reading.message) (hchunk : post.chunk = next)
    (hreading : post.reading = reading.number) (hposts : s'.posts = s.posts ++ [post])
    (hreadings : s'.readings = s.readings)
    (hgone : s'.atWork worker = some (reading, next + 1) ∨ s'.atWork worker = none)
    (hothers : ∀ other, other ≠ worker → s'.atWork other = s.atWork other) : s'.PostInv := by
  have hmem : ∀ {p : Post}, p ∈ s'.posts → p ∈ s.posts ∨ p = post := by
    intro p hp
    rw [hposts] at hp
    exact (List.mem_append.mp hp).imp_right List.mem_singleton.mp
  have hself : ∀ reading' next', s'.atWork worker = some (reading', next') →
      reading' = reading ∧ next' = next + 1 := by
    intro reading' next' hat'
    rcases hgone with hnext | hnone
    · rw [hnext] at hat'
      cases hat'
      exact ⟨rfl, rfl⟩
    · rw [hnone] at hat'
      cases hat'
  -- every worker posts from the reading it has posted from
  have hbefore : ∀ {other : OutboundWorker} {reading' : Reading} {next' : ℕ},
      s'.atWork other = some (reading', next') →
        ∃ before, s.atWork other = some (reading', before) := by
    intro other reading' next' hother
    by_cases heq : other = worker
    · subst heq
      obtain ⟨rfl, -⟩ := hself reading' next' hother
      exact ⟨next, hat⟩
    · rw [hothers other heq] at hother
      exact ⟨next', hother⟩
  constructor
  · intro message
    rw [chunksOf_append hposts]
    by_cases heq : post.message = message
    · rw [if_pos heq, ← heq, hmessage, h.filter_message hat hone, hchunk]
      exact ⟨next + 1, List.range_succ.symm⟩
    · rw [if_neg heq, List.append_nil]
      exact h.order message
  · intro p hp q hq heq
    rcases hmem hp with hp | rfl
    · rcases hmem hq with hq | rfl
      · exact h.single p hp q hq heq
      · rw [hreading]
        exact hone p hp (heq.trans hmessage)
    · rcases hmem hq with hq | rfl
      · rw [hreading]
        exact (hone q hq (heq.symm.trans hmessage)).symm
      · rfl
  · intro p hp
    rw [hreadings]
    rcases hmem hp with hp | rfl
    · exact h.older p hp
    · rw [hreading]
      exact h.started worker reading next hat
  · intro other reading' next' hother
    obtain ⟨before, hold⟩ := hbefore hother
    rw [hreadings]
    exact h.started other reading' before hold
  · intro other reading' next' hother
    rw [hposts, List.filter_append, List.map_append]
    by_cases heq : other = worker
    · subst heq
      obtain ⟨rfl, rfl⟩ := hself reading' next' hother
      rw [h.done other reading' next hat, List.range_succ, ← hchunk]
      simp [hreading]
    · rw [hothers other heq] at hother
      have hne : post.reading ≠ reading'.number := fun hsame =>
        heq (h.apart other worker reading' reading next' next hother hat
          (hsame.symm.trans hreading))
      rw [h.done other reading' next' hother]
      simp [hne]
  · intro other reading' next' hother p hp hsame
    obtain ⟨before, hold⟩ := hbefore hother
    rcases hmem hp with hp | rfl
    · exact h.same other reading' before hold p hp hsame
    · obtain rfl := h.apart other worker reading' reading before next hold hat
        (hsame.symm.trans hreading)
      obtain ⟨rfl, -⟩ := hself reading' next' hother
      exact hmessage
  · intro first second reading₁ reading₂ next₁ next₂ hfirst hsecond heq
    obtain ⟨before₁, hfirst⟩ := hbefore hfirst
    obtain ⟨before₂, hsecond⟩ := hbefore hsecond
    exact h.apart first second reading₁ reading₂ before₁ before₂ hfirst hsecond heq

/-- A chunk of a message that another reading has posted from is its first chunk, again. -/
theorem PostInv.not_inOrder (h : s.PostInv) (hat : s.atWork worker = some (reading, next))
    {earlier : Post} (hearlier : earlier ∈ s.posts) (hmessage : earlier.message = reading.message)
    (hreading : earlier.reading ≠ reading.number) {post : Post}
    (hpost : post.message = reading.message) (hchunk : post.chunk = next)
    (hposts : s'.posts = s.posts ++ [post]) : ¬ s'.PostedInOrder := by
  have hnone : s.posts.filter (·.reading == reading.number) = [] := by
    refine List.filter_eq_nil_iff.mpr fun p hp hsame => hreading ?_
    have hnumber : p.reading = reading.number := by simpa using hsame
    have hp' := h.same worker reading next hat p hp hnumber
    rw [h.single earlier hearlier p hp (hmessage.trans hp'.symm), hnumber]
  have hnext : next = 0 := by
    have hdone := h.done worker reading next hat
    rw [hnone] at hdone
    have hlength := congrArg List.length hdone
    simpa using hlength.symm
  obtain ⟨count, hcount⟩ := h.order reading.message
  have hpos : 0 < count := by
    have hmem : earlier.chunk ∈ s.chunksOf reading.message :=
      List.mem_map_of_mem (List.mem_filter.mpr ⟨hearlier, by simpa using hmessage⟩)
    rw [hcount] at hmem
    exact Nat.lt_of_le_of_lt (Nat.zero_le _) (List.mem_range.mp hmem)
  intro horder
  obtain ⟨count', hcount'⟩ := horder reading.message
  rw [chunksOf_append hposts, if_pos hpost, hcount, hchunk, hnext] at hcount'
  have hlength := congrArg List.length hcount'
  simp only [List.length_append, List.length_range, List.length_singleton] at hlength
  rw [← hlength, List.range_succ] at hcount'
  have hlast := (List.append_inj_right' hcount' rfl)
  have : (0 : ℕ) = count := (List.cons.inj hlast).1
  omega

/-! ## One event -/

theorem atWork_setPass_self (worker : OutboundWorker) (pass : Option Pass) :
    (s.setPass worker pass).atWork worker = working pass := congrArg working (if_pos rfl)

theorem atWork_setPass_ne {worker other : OutboundWorker} (h : other ≠ worker) (pass : Option Pass)
    : (s.setPass worker pass).atWork other = s.atWork other :=
  congrArg working (if_neg h)

theorem PostInv.leave (h : s.PostInv) (worker : OutboundWorker) (pass : Option Pass)
    (hidle : working pass = none) (hpasses : s'.passes = (s.setPass worker pass).passes)
    (hposts : s'.posts = s.posts) (hreadings : s'.readings = s.readings) : s'.PostInv := by
  refine h.quiet hposts hreadings fun other => ?_
  have hat : s'.atWork other = (s.setPass worker pass).atWork other := by
    unfold atWork
    rw [hpasses]
  by_cases heq : other = worker
  · right
    rw [hat, heq, atWork_setPass_self, hidle]
  · left
    rw [hat, atWork_setPass_ne heq]

theorem PostInv.skip {s : Outbound} (h : s.PostInv) (worker : OutboundWorker) (pass : Pass)
    (err : SlackError) : (s.setPass worker (some (pass.skip err))).PostInv :=
  h.leave worker (some (pass.skip err)) rfl rfl rfl rfl

theorem PostInv.readNext (h : s.PostInv) (worker : OutboundWorker) (pass : Pass)
    (result : CallResult) (jsonError : String) :
    (s.readNext runtimes worker pass result jsonError).PostInv := by
  unfold Outbound.readNext
  cases hpaths : pass.paths with
  | nil => exact h.leave worker none rfl rfl rfl rfl
  | cons name rest =>
    cases result with
    | failed err => exact h.skip worker _ err
    | lost err => exact h.skip worker _ err
    | ok =>
      cases hlookup : s.lookup name with
      | none =>
        simp only [hlookup]
        exact h.skip worker _ _
      | some file =>
        cases hplan : planDelivery runtimes (display name) jsonError file.content with
        | error err =>
          simp only [hlookup, hplan]
          exact h.skip worker _ err
        | ok plan =>
          cases plan with
          | none =>
            simp only [hlookup, hplan]
            exact h.leave worker _ rfl rfl rfl rfl
          | some delivery =>
            simp only [hlookup, hplan]
            refine PostInv.read h rfl rfl rfl (atWork_setPass_self worker _) ?_
            exact fun other hne => atWork_setPass_ne hne _

theorem PostInv.removeFile (h : s.PostInv) (worker : OutboundWorker) (pass : Pass)
    (reading : Reading) (result : CallResult) :
    (s.removeFile worker pass reading result).PostInv := by
  unfold Outbound.removeFile
  cases result with
  | failed err => exact h.skip worker pass err
  | lost err => exact h.skip worker pass err
  | ok =>
    cases hlookup : s.lookup reading.name with
    | none => exact h.skip worker pass _
    | some file => exact h.leave worker _ rfl rfl rfl rfl

theorem PostInv.postNext {s : Outbound} (h : s.PostInv) {worker : OutboundWorker} {pass : Pass}
    {reading : Reading} {delivery : Delivery} {next : ℕ}
    (hat : s.atWork worker = some (reading, next)) (result : CallResult)
    (hone : (∀ err, result ≠ .failed err) → delivery.chunks[next]?.isSome = true →
      ∀ post ∈ s.posts, post.message = reading.message → post.reading = reading.number) :
    (s.postNext worker pass reading delivery next result).PostInv := by
  unfold Outbound.postNext
  cases htext : delivery.chunks[next]? with
  | none => exact h.leave worker _ rfl rfl rfl rfl
  | some text =>
    rw [htext] at hone
    cases result with
    | failed err => exact h.skip worker pass _
    | ok =>
      refine h.post hat (hone nofun rfl) rfl rfl rfl rfl rfl ?_ ?_
      · exact .inl (atWork_setPass_self worker _)
      · exact fun other hne => atWork_setPass_ne hne _
    | lost err =>
      refine h.post hat (hone nofun rfl) rfl rfl rfl rfl rfl ?_ ?_
      · exact .inr (atWork_setPass_self worker _)
      · exact fun other hne => atWork_setPass_ne hne _

theorem PostInv.step (h : s.PostInv) {e : OutboundEvent} (hone : s.OneReading e) :
    (s.step runtimes e).PostInv := by
  cases e with
  | write name content => exact h.quiet rfl rfl fun _ => .inl rfl
  | restart => exact h.quiet rfl rfl fun _ => .inr rfl
  | begin worker failure =>
    show (s.begin worker failure).PostInv
    unfold Outbound.begin
    cases hpass : s.passes worker with
    | some pass => exact h
    | none =>
      cases failure with
      | some err => exact h.quiet rfl rfl fun _ => .inl rfl
      | none => exact h.leave worker _ rfl rfl rfl rfl
  | advance worker result jsonError =>
    show (s.advance runtimes worker result jsonError).PostInv
    unfold Outbound.advance
    cases hpass : s.passes worker with
    | none => exact h
    | some pass =>
      obtain ⟨paths, stage, sent, firstError⟩ := pass
      cases stage with
      | nextFile => exact h.readNext worker _ result jsonError
      | removing reading => exact h.removeFile worker _ reading result
      | posting reading delivery next =>
        have hat : s.atWork worker = some (reading, next) := by
          unfold atWork
          rw [hpass]
          rfl
        refine h.postNext hat result fun hsent hnext => ?_
        refine hone ?_ reading next hat
        cases result with
        | failed err => exact absurd rfl (hsent err)
        | ok => simpa only [posts?, hpass] using hnext
        | lost err => simpa only [posts?, hpass] using hnext

/-- A post of a message that another reading has posted from repeats its first chunk. -/
theorem PostInv.not_inOrder_step {s : Outbound} (h : s.PostInv) {e : OutboundEvent}
    (hnot : ¬ s.OneReading e) : ¬ (s.step runtimes e).PostedInOrder := by
  cases e with
  | advance worker result jsonError =>
    simp only [OneReading, Classical.not_imp, not_forall] at hnot
    obtain ⟨hposts, reading, next, hat, earlier, hearlier, hmessage, hreading⟩ := hnot
    cases hpass : s.passes worker with
    | none =>
      cases result <;> simp [posts?, hpass] at hposts
    | some pass =>
      obtain ⟨paths, stage, sent, firstError⟩ := pass
      unfold atWork at hat
      rw [hpass] at hat
      cases stage with
      | nextFile => cases hat
      | removing reading' => cases hat
      | posting reading' delivery next' =>
        cases hat
        have hat : s.atWork worker = some (reading, next) := by
          unfold atWork
          rw [hpass]
          rfl
        show ¬ (s.advance runtimes worker result jsonError).PostedInOrder
        simp only [Outbound.advance, hpass, Outbound.postNext]
        cases htext : delivery.chunks[next]? with
        | none =>
          cases result <;> simp [posts?, hpass, htext] at hposts
        | some text =>
          cases result with
          | failed err => cases hposts
          | ok => exact h.not_inOrder hat hearlier hmessage hreading rfl rfl rfl
          | lost err => exact h.not_inOrder hat hearlier hmessage hreading rfl rfl rfl
  | _ => exact absurd trivial hnot

theorem start_postInv : PostInv {} :=
  ⟨fun _ => ⟨0, rfl⟩, nofun, nofun, nofun, nofun, nofun, nofun⟩

/-- **Every chunk once.** In every state of a run each message has its first chunks posted,
each once and in order, exactly if no post is made of a message that another reading of its
file has posted from. -/
theorem chunks_posted_once_iff (runtimes : List (String × SlackProfileRuntime))
    (es : List OutboundEvent) :
    (∀ before, before <+: es → (run (step runtimes) {} before).PostedInOrder) ↔
      Meets (step runtimes) OneReading {} es :=
  run_prefixes_iff PostInv PostedInOrder (fun _ h => h.order) (fun _ _ h hok => h.step hok)
    (fun _ _ h hnot => h.not_inOrder_step hnot) start_postInv

def shortAnswer : OutgoingMessage where
  channel := "slack"
  channelProfileId := some "slack_main"
  sender := "main"
  message := "done"
  originalMessage := "do it"
  timestamp := 1
  messageId := "slack-C1-1700"
  agent := "main"
  conversationId := some "C1:1700"

def writeShortAnswer : OutboundEvent := .write "answer.json".toList (.json shortAnswer.encode)

/-- Both workers read the file before one of them has removed it. -/
def bothWorkersRun : List OutboundEvent :=
  [writeShortAnswer, .begin .socket none, .begin .backfill none, .advance .socket .ok "",
    .advance .backfill .ok "", .advance .socket .ok "", .advance .backfill .ok ""]

/-- The file is not removed after the last chunk, and the next pass reads it again. -/
def notRemovedRun : List OutboundEvent :=
  [writeShortAnswer, .begin .socket none, .advance .socket .ok "", .advance .socket .ok "",
    .advance .socket .ok "", .advance .socket (.failed (.io "answer.json" "busy")) "",
    .advance .socket .ok "", .begin .socket none, .advance .socket .ok "", .advance .socket .ok ""]

/-- In both runs the only chunk of the message is posted twice. -/
theorem chunk_posted_twice :
    let runtimes : List (String × SlackProfileRuntime) := [("slack_main", {})]
    (run (step runtimes) {} bothWorkersRun).chunksOf 0 = [0, 0] ∧
      (run (step runtimes) {} notRemovedRun).chunksOf 0 = [0, 0] ∧
      ¬ ∀ before, before <+: bothWorkersRun → (run (step runtimes) {} before).PostedInOrder := by
  intro runtimes
  have htwice : (run (step runtimes) {} bothWorkersRun).chunksOf 0 = [0, 0] := by decide
  refine ⟨htwice, by decide, fun h => ?_⟩
  obtain ⟨count, hcount⟩ := h bothWorkersRun (List.prefix_refl _) 0
  rw [htwice] at hcount
  have hlength := congrArg List.length hcount
  rw [List.length_range] at hlength
  rw [← hlength] at hcount
  revert hcount
  decide

end Outbound

end Direclaw.Slack
