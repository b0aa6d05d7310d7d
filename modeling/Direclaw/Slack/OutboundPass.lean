import Direclaw.Runtime.BatchOrder
import Direclaw.Slack.PostedOnce

/-!
# A pass over the outgoing directory

`process_outbound` on a directory that nobody else changes meanwhile. The API may answer in
any way: its answer to a chunk is a parameter, and no pass posts a chunk of a file twice. A
file that is there can be removed. A file that fails is reported after all others were tried.
-/

namespace Direclaw.Slack

open Direclaw.Lib Direclaw.Queue Direclaw.Orchestration Direclaw.Runtime

/-- A chunk that Slack has taken, as `post_message` sends it. -/
structure ChunkPost where
  profileId : String
  channelId : String
  threadTs : Option String
  text : String
deriving DecidableEq, Repr

def Delivery.post (delivery : Delivery) (text : String) : ChunkPost where
  profileId := delivery.profileId
  channelId := delivery.target.channelId
  threadTs := delivery.target.threadTs.filter fun ts => !isBlankText ts
  text := text

structure OutboundPass where
  outgoing : Directory
  posts : List ChunkPost := []
  sent : ℕ := 0
  firstError : Option SlackError := none

/-- The loop of `deliver_targeted_post`, from the chunk at `index` on. -/
def postChunks (delivery : Delivery) (answer : ℕ → Except SlackError Unit) :
    ℕ → List String → List ChunkPost × Except SlackError Unit
  | _, [] => ([], .ok ())
  | index, text :: rest =>
    match answer index with
    | .error err => ([], .error (delivery.failed err))
    | .ok () =>
      let (posts, result) := postChunks delivery answer (index + 1) rest
      (delivery.post text :: posts, result)

section Pass

variable (runtimes : List (String × SlackProfileRuntime)) (jsonError : FileName → String)
  (answer : FileName → ℕ → Except SlackError Unit)

/-- The closure in `process_outbound` up to the removal: a file is skipped, posted, or fails. -/
def attemptFile (outgoing : Directory) (name : FileName) :
    List ChunkPost × Except SlackError Bool :=
  match outgoing.lookup name with
  | none => ([], .error (.io (Outbound.display name) "No such file or directory (os error 2)"))
  | some file =>
    match planDelivery runtimes (Outbound.display name) (jsonError name) file.content with
    | .error err => ([], .error err)
    | .ok none => ([], .ok false)
    | .ok (some delivery) =>
      match postChunks delivery (answer name) 0 delivery.chunks with
      | (posts, .error err) => (posts, .error err)
      | (posts, .ok ()) => (posts, .ok true)

/-- One turn of the loop. -/
def OutboundPass.turn (pass : OutboundPass) (name : FileName) : OutboundPass :=
  let (posts, result) := attemptFile runtimes jsonError answer pass.outgoing name
  let pass := { pass with posts := pass.posts ++ posts }
  match result with
  | .ok true => { pass with outgoing := pass.outgoing.erase name, sent := pass.sent + 1 }
  | .ok false => pass
  | .error err => { pass with firstError := pass.firstError.or (some err) }

def OutboundPass.result (pass : OutboundPass) : Except SlackError ℕ :=
  match pass.firstError with
  | some err => .error err
  | none => .ok pass.sent

/-- `process_outbound`; what it returns is the pass's `result`. -/
def processOutbound (outgoing : Directory) : OutboundPass :=
  (sortedOutgoingPaths outgoing).foldl (OutboundPass.turn runtimes jsonError answer) { outgoing }

/-! ## One file -/

/-- A file for which nothing can be posted, or a chunk of which Slack does not take. -/
def Fails (outgoing : Directory) (name : FileName) : Prop :=
  ∃ file, outgoing.lookup name = some file ∧
    ((∃ err, planDelivery runtimes (Outbound.display name) (jsonError name) file.content =
        .error err) ∨
      ∃ delivery, planDelivery runtimes (Outbound.display name) (jsonError name) file.content =
          .ok (some delivery) ∧
        ∃ k < delivery.chunks.length, answer name k ≠ .ok ())

/-- A Slack message all of whose chunks are taken. -/
def Delivered (outgoing : Directory) (name : FileName) (delivery : Delivery) : Prop :=
  ∃ file, outgoing.lookup name = some file ∧
    planDelivery runtimes (Outbound.display name) (jsonError name) file.content =
      .ok (some delivery) ∧
    ∀ k < delivery.chunks.length, answer name k = .ok ()

/-- The posts that a file gives rise to. -/
def postsOf (outgoing : Directory) (name : FileName) : List ChunkPost :=
  (attemptFile runtimes jsonError answer outgoing name).1

end Pass

section Files

variable {runtimes : List (String × SlackProfileRuntime)} {jsonError : FileName → String}
  {answer : FileName → ℕ → Except SlackError Unit} {outgoing : Directory} {name : FileName}
  {delivery : Delivery}

theorem postChunks_of_ok {answer : ℕ → Except SlackError Unit} {chunks : List String} {index : ℕ}
    (h : ∀ k < chunks.length, answer (index + k) = .ok ()) :
    postChunks delivery answer index chunks = (chunks.map delivery.post, .ok ()) := by
  induction chunks generalizing index with
  | nil => rfl
  | cons text rest ih =>
    have hfirst : answer index = .ok () := h 0 (Nat.succ_pos _)
    have hrest : ∀ k < rest.length, answer (index + 1 + k) = .ok () := by
      intro k hk
      rw [Nat.add_assoc, Nat.add_comm 1 k]
      exact h (k + 1) (Nat.succ_lt_succ hk)
    rw [postChunks, hfirst]
    simp only [ih hrest, List.map_cons]

theorem postChunks_of_refused {answer : ℕ → Except SlackError Unit} {chunks : List String}
    {index k : ℕ} (hk : k < chunks.length) (h : answer (index + k) ≠ .ok ()) :
    ∃ posts err, postChunks delivery answer index chunks = (posts, .error err) ∧
      posts <+: chunks.map delivery.post := by
  induction chunks generalizing index k with
  | nil => cases hk
  | cons text rest ih =>
    cases hfirst : answer index with
    | error err =>
      refine ⟨[], delivery.failed err, ?_, List.nil_prefix⟩
      rw [postChunks, hfirst]
    | ok u =>
      cases k with
      | zero => exact absurd hfirst h
      | succ k =>
        rw [Nat.add_comm k 1, ← Nat.add_assoc] at h
        obtain ⟨posts, err, hrest, hprefix⟩ := ih (Nat.lt_of_succ_lt_succ hk) h
        refine ⟨delivery.post text :: posts, err, ?_, ?_⟩
        · rw [postChunks, hfirst]
          simp only [hrest]
        · rw [List.map_cons, List.prefix_cons_inj]
          exact hprefix

/-- Each chunk but the last is full, and none is longer. -/
theorem chunkLoop_length_le (rest : List Char) : ∀ {out : List String} {current : List Char}
    {count : ℕ}, current.length = count → count ≤ outboundChunkChars →
      (∀ chunk ∈ out, chunk.length ≤ outboundChunkChars) →
      ∀ chunk ∈ chunkLoop out current count rest, chunk.length ≤ outboundChunkChars := by
  induction rest with
  | nil =>
    intro out current count hcount hle hout chunk hchunk
    unfold chunkLoop at hchunk
    split at hchunk
    · exact hout chunk hchunk
    · rcases List.mem_append.mp hchunk with hchunk | hchunk
      · exact hout chunk hchunk
      · rw [List.mem_singleton.mp hchunk, String.length_ofList, hcount]
        exact hle
  | cons ch rest ih =>
    intro out current count hcount hle hout
    unfold chunkLoop
    split
    · refine ih rfl (by decide : 1 ≤ outboundChunkChars) fun chunk hchunk => ?_
      rcases List.mem_append.mp hchunk with hchunk | hchunk
      · exact hout chunk hchunk
      · rw [List.mem_singleton.mp hchunk, String.length_ofList, hcount]
        exact hle
    · next hroom =>
        refine ih ?_ (not_le.mp hroom) hout
        rw [List.length_append, List.length_singleton, hcount]

theorem chunkMessage_length_le (input : String) :
    ∀ chunk ∈ chunkMessage input, chunk.length ≤ outboundChunkChars := by
  unfold chunkMessage
  split
  · intro chunk hchunk
    rw [List.mem_singleton.mp hchunk]
    decide
  · exact chunkLoop_length_le _ rfl (Nat.zero_le _) (List.forall_mem_nil _)

theorem planDelivery_some {path jsonError : String} {content : Content}
    (h : planDelivery runtimes path jsonError content = .ok (some delivery)) :
    ∃ outgoing, content.readOutgoing = some outgoing ∧ outgoing.channel = "slack" ∧
      delivery.messageId = outgoing.messageId ∧
        delivery.chunks = chunkMessage outgoing.message := by
  unfold planDelivery at h
  split at h
  · cases h
  · split at h
    · cases h
    · next outgoing hread =>
        split at h
        · cases h
        · next hslack =>
            obtain ⟨targetRef, -, h⟩ := bind_eq_ok h
            obtain ⟨profileId, -, h⟩ := bind_eq_ok h
            split at h
            · obtain ⟨target, -, h⟩ := bind_eq_ok h
              obtain ⟨-, -, h⟩ := bind_eq_ok h
              cases h
              exact ⟨outgoing, hread, not_not.mp hslack, rfl, rfl⟩
            · cases h

theorem planDelivery_none_iff {path jsonError : String} {content : Content} :
    planDelivery runtimes path jsonError content = .ok none ↔
      ∃ outgoing, content.readOutgoing = some outgoing ∧ outgoing.channel ≠ "slack" := by
  unfold planDelivery
  split
  · exact iff_of_false nofun fun ⟨_, h, _⟩ => by cases h
  · split
    · next hread =>
        refine iff_of_false nofun fun ⟨_, h, _⟩ => ?_
        rw [hread] at h
        cases h
    · next outgoing hread =>
        rw [hread]
        split
        · next hother => exact iff_of_true rfl ⟨outgoing, rfl, hother⟩
        · next hslack =>
            refine iff_of_false (fun h => ?_) ?_
            · obtain ⟨targetRef, -, h⟩ := bind_eq_ok h
              obtain ⟨profileId, -, h⟩ := bind_eq_ok h
              split at h
              · obtain ⟨target, -, h⟩ := bind_eq_ok h
                obtain ⟨-, -, h⟩ := bind_eq_ok h
                cases h
              · cases h
            · rintro ⟨other, hother, hne⟩
              cases hother
              exact hslack hne

theorem attemptFile_cases {file : File} (hfile : outgoing.lookup name = some file) :
    (planDelivery runtimes (Outbound.display name) (jsonError name) file.content = .ok none ∧
        attemptFile runtimes jsonError answer outgoing name = ([], .ok false)) ∨
    (∃ delivery, Delivered runtimes jsonError answer outgoing name delivery ∧
      attemptFile runtimes jsonError answer outgoing name =
        (delivery.chunks.map delivery.post, .ok true)) ∨
    (Fails runtimes jsonError answer outgoing name ∧
      ∃ posts err, attemptFile runtimes jsonError answer outgoing name = (posts, .error err)) := by
  cases hplan : planDelivery runtimes (Outbound.display name) (jsonError name) file.content with
  | error err =>
    refine .inr (.inr ⟨⟨file, hfile, .inl ⟨err, hplan⟩⟩, [], err, ?_⟩)
    simp only [attemptFile, hfile, hplan]
  | ok planned =>
    cases planned with
    | none =>
      refine .inl ⟨rfl, ?_⟩
      simp only [attemptFile, hfile, hplan]
    | some delivery =>
      by_cases hall : ∀ k < delivery.chunks.length, answer name k = .ok ()
      · refine .inr (.inl ⟨delivery, ⟨file, hfile, hplan, hall⟩, ?_⟩)
        have hposts : postChunks delivery (answer name) 0 delivery.chunks = _ :=
          postChunks_of_ok fun k hk => by rw [Nat.zero_add]; exact hall k hk
        simp only [attemptFile, hfile, hplan, hposts]
      · push Not at hall
        obtain ⟨k, hk, hrefused⟩ := hall
        obtain ⟨posts, err, hposts, -⟩ : ∃ posts err,
            postChunks delivery (answer name) 0 delivery.chunks = (posts, .error err) ∧
              posts <+: delivery.chunks.map delivery.post :=
          postChunks_of_refused hk (by rw [Nat.zero_add]; exact hrefused)
        refine .inr (.inr ⟨?_, posts, err, ?_⟩)
        · exact ⟨file, hfile, .inr ⟨delivery, hplan, k, hk, hrefused⟩⟩
        simp only [attemptFile, hfile, hplan, hposts]

theorem not_fails_of_delivered (h : Delivered runtimes jsonError answer outgoing name delivery) :
    ¬ Fails runtimes jsonError answer outgoing name := by
  obtain ⟨file, hfile, hplan, hall⟩ := h
  rintro ⟨other, hother, ⟨err, herr⟩ | ⟨delivery', hplan', k, hk, hrefused⟩⟩
  · rw [hfile] at hother
    cases hother
    rw [hplan] at herr
    cases herr
  · rw [hfile] at hother
    cases hother
    rw [hplan] at hplan'
    cases hplan'
    exact hrefused (hall k hk)

theorem attemptFile_true_iff :
    (attemptFile runtimes jsonError answer outgoing name).2 = .ok true ↔
      ∃ delivery, Delivered runtimes jsonError answer outgoing name delivery := by
  constructor
  · intro h
    cases hlookup : outgoing.lookup name with
    | none =>
      rw [attemptFile, hlookup] at h
      cases h
    | some file =>
      rcases attemptFile_cases hlookup with
        ⟨-, heq⟩ | ⟨delivery, hdelivered, -⟩ | ⟨-, posts, err, heq⟩
      · rw [heq] at h
        cases h
      · exact ⟨delivery, hdelivered⟩
      · rw [heq] at h
        cases h
  · rintro ⟨delivery, hdelivered⟩
    have hnot := not_fails_of_delivered hdelivered
    obtain ⟨file, hlookup, hplan, -⟩ := hdelivered
    rcases attemptFile_cases hlookup with ⟨hnone, -⟩ | ⟨_, -, heq⟩ | ⟨hfails, -⟩
    · rw [hplan] at hnone
      cases hnone
    · rw [heq]
    · exact absurd hfails hnot

theorem attemptFile_error_iff {file : File} (hlookup : outgoing.lookup name = some file) :
    (∃ err, (attemptFile runtimes jsonError answer outgoing name).2 = .error err) ↔
      Fails runtimes jsonError answer outgoing name := by
  rcases attemptFile_cases hlookup with
    ⟨hnone, heq⟩ | ⟨delivery, hdelivered, heq⟩ | ⟨hfails, posts, err, heq⟩
  · rw [heq]
    refine iff_of_false (fun ⟨_, h⟩ => by cases h) ?_
    rintro ⟨other, hother, ⟨err, herr⟩ | ⟨delivery, hplan, -⟩⟩
    · rw [hlookup] at hother
      cases hother
      rw [hnone] at herr
      cases herr
    · rw [hlookup] at hother
      cases hother
      rw [hnone] at hplan
      cases hplan
  · rw [heq]
    exact iff_of_false (fun ⟨_, h⟩ => by cases h) (not_fails_of_delivered hdelivered)
  · rw [heq]
    exact iff_of_true ⟨err, rfl⟩ hfails

theorem postChunks_prefix (delivery : Delivery) (answer : ℕ → Except SlackError Unit)
    (chunks : List String) :
    (postChunks delivery answer 0 chunks).1 <+: chunks.map delivery.post := by
  by_cases hall : ∀ k < chunks.length, answer k = .ok ()
  · rw [postChunks_of_ok fun k hk => by rw [Nat.zero_add]; exact hall k hk]
  · push Not at hall
    obtain ⟨k, hk, hrefused⟩ := hall
    obtain ⟨posts, err, hposts, hprefix⟩ : ∃ posts err,
        postChunks delivery answer 0 chunks = (posts, .error err) ∧
          posts <+: chunks.map delivery.post :=
      postChunks_of_refused hk (by rw [Nat.zero_add]; exact hrefused)
    rw [hposts]
    exact hprefix

/-- A file posts nothing, or the first chunks of what is planned for it. -/
theorem postsOf_begun (outgoing : Directory) (name : FileName) :
    postsOf runtimes jsonError answer outgoing name = [] ∨
      ∃ file delivery, outgoing.lookup name = some file ∧
        planDelivery runtimes (Outbound.display name) (jsonError name) file.content =
          .ok (some delivery) ∧
        postsOf runtimes jsonError answer outgoing name <+: delivery.chunks.map delivery.post := by
  unfold postsOf attemptFile
  split
  · exact .inl rfl
  · next file hlookup =>
      split
      · exact .inl rfl
      · exact .inl rfl
      · next delivery hplan =>
          have hprefix := postChunks_prefix delivery (answer name) delivery.chunks
          refine .inr ⟨file, delivery, hlookup, hplan, ?_⟩
          split
          · next heq =>
              rw [heq] at hprefix
              exact hprefix
          · next heq =>
              rw [heq] at hprefix
              exact hprefix

/-- Only the file itself counts. -/
theorem attemptFile_congr {other : Directory} (h : other.lookup name = outgoing.lookup name) :
    attemptFile runtimes jsonError answer other name =
      attemptFile runtimes jsonError answer outgoing name := by
  rw [attemptFile, attemptFile, h]

end Files

/-! ## The whole pass -/

section Whole

variable {runtimes : List (String × SlackProfileRuntime)} {jsonError : FileName → String}
  {answer : FileName → ℕ → Except SlackError Unit}

/-- What the turns of a pass come to, told from the directory before them. -/
structure TurnsDone (runtimes : List (String × SlackProfileRuntime)) (jsonError : FileName → String)
    (answer : FileName → ℕ → Except SlackError Unit) (before after : OutboundPass)
    (names : List FileName) : Prop where
  posts : after.posts = before.posts ++
    names.flatMap (postsOf runtimes jsonError answer before.outgoing)
  removed : ∀ n ∈ names, (attemptFile runtimes jsonError answer before.outgoing n).2 = .ok true →
    after.outgoing.lookup n = none
  kept : ∀ n, ¬ (n ∈ names ∧
      (attemptFile runtimes jsonError answer before.outgoing n).2 = .ok true) →
    after.outgoing.lookup n = before.outgoing.lookup n
  failed : after.firstError.isSome = true ↔ before.firstError.isSome = true ∨
    ∃ n ∈ names, ∃ err, (attemptFile runtimes jsonError answer before.outgoing n).2 = .error err

section Turn

variable {pass : OutboundPass} {name : FileName} {posts : List ChunkPost}

theorem turn_of_error {err : SlackError}
    (h : attemptFile runtimes jsonError answer pass.outgoing name = (posts, .error err)) :
    pass.turn runtimes jsonError answer name =
      { pass with posts := pass.posts ++ posts, firstError := pass.firstError.or (some err) } := by
  rw [OutboundPass.turn, h]

theorem turn_of_skipped
    (h : attemptFile runtimes jsonError answer pass.outgoing name = (posts, .ok false)) :
    pass.turn runtimes jsonError answer name = { pass with posts := pass.posts ++ posts } := by
  rw [OutboundPass.turn, h]

theorem turn_of_delivered
    (h : attemptFile runtimes jsonError answer pass.outgoing name = (posts, .ok true)) :
    pass.turn runtimes jsonError answer name =
      { pass with
        posts := pass.posts ++ posts
        outgoing := pass.outgoing.erase name
        sent := pass.sent + 1 } := by
  rw [OutboundPass.turn, h]

end Turn

theorem turn_done (pass : OutboundPass) (name : FileName) :
    TurnsDone runtimes jsonError answer pass (pass.turn runtimes jsonError answer name) [name] := by
  cases hattempt : attemptFile runtimes jsonError answer pass.outgoing name with
  | mk posts result =>
    have hposts : [name].flatMap (postsOf runtimes jsonError answer pass.outgoing) = posts := by
      rw [List.flatMap_singleton, postsOf, hattempt]
    have honly : ∀ n ∈ [name], n = name := fun n hn => List.mem_singleton.mp hn
    cases result with
    | error err =>
      rw [turn_of_error hattempt]
      constructor
      · rw [hposts]
      · intro n hn htrue
        rw [honly n hn, hattempt] at htrue
        cases htrue
      · exact fun n _ => rfl
      · refine iff_of_true ?_ (.inr ⟨name, List.mem_singleton_self name, err, by rw [hattempt]⟩)
        rw [Option.isSome_or, Option.isSome_some, Bool.or_true]
    | ok delivered =>
      have hfailed : ¬ ∃ n ∈ [name], ∃ err,
          (attemptFile runtimes jsonError answer pass.outgoing n).2 = .error err := by
        rintro ⟨n, hn, err, herr⟩
        rw [honly n hn, hattempt] at herr
        cases herr
      cases delivered with
      | false =>
        rw [turn_of_skipped hattempt]
        constructor
        · rw [hposts]
        · intro n hn htrue
          rw [honly n hn, hattempt] at htrue
          cases htrue
        · exact fun n _ => rfl
        · rw [or_iff_left hfailed]
      | true =>
        rw [turn_of_delivered hattempt]
        constructor
        · rw [hposts]
        · intro n hn _
          rw [honly n hn, Directory.lookup_erase, if_pos rfl]
        · intro n hn
          rw [Directory.lookup_erase, if_neg]
          rintro rfl
          exact hn ⟨List.mem_singleton_self n, by rw [hattempt]⟩
        · rw [or_iff_left hfailed]

/-- The first turn touches nothing that the later ones read. -/
theorem TurnsDone.cons {before middle after : OutboundPass} {name : FileName}
    {names : List FileName} (hfirst : TurnsDone runtimes jsonError answer before middle [name])
    (hrest : TurnsDone runtimes jsonError answer middle after names) (hname : name ∉ names) :
    TurnsDone runtimes jsonError answer before after (name :: names) := by
  have hlater : ∀ n ∈ names, attemptFile runtimes jsonError answer middle.outgoing n =
      attemptFile runtimes jsonError answer before.outgoing n := by
    intro n hn
    apply attemptFile_congr
    apply hfirst.kept
    rintro ⟨hsame, -⟩
    rw [List.mem_singleton.mp hsame] at hn
    exact hname hn
  constructor
  · have hposts : names.flatMap (postsOf runtimes jsonError answer middle.outgoing) =
        names.flatMap (postsOf runtimes jsonError answer before.outgoing) := by
      rw [List.flatMap_def, List.flatMap_def]
      refine congrArg List.flatten (List.map_congr_left fun n hn => ?_)
      rw [postsOf, postsOf, hlater n hn]
    rw [hrest.posts, hfirst.posts, hposts, List.append_assoc, ← List.flatMap_append,
      List.singleton_append]
  · intro n hn htrue
    by_cases hin : n ∈ names
    · apply hrest.removed n hin
      rw [hlater n hin]
      exact htrue
    · -- it was removed first, and no later turn writes a file
      have heq : n = name := (List.mem_cons.mp hn).resolve_right hin
      rw [hrest.kept n (fun h => hin h.1)]
      exact hfirst.removed n (List.mem_singleton.mpr heq) htrue
  · intro n hn
    have hfirstKept : ¬ (n ∈ [name] ∧
        (attemptFile runtimes jsonError answer before.outgoing n).2 = .ok true) := by
      rintro ⟨hmem, htrue⟩
      exact hn ⟨List.mem_cons.mpr (.inl (List.mem_singleton.mp hmem)), htrue⟩
    rw [hrest.kept n, hfirst.kept n hfirstKept]
    rintro ⟨hin, htrue⟩
    rw [hlater n hin] at htrue
    exact hn ⟨List.mem_cons_of_mem _ hin, htrue⟩
  · have hlaterFails : (∃ n ∈ names, ∃ err,
        (attemptFile runtimes jsonError answer middle.outgoing n).2 = .error err) ↔
          ∃ n ∈ names, ∃ err,
            (attemptFile runtimes jsonError answer before.outgoing n).2 = .error err := by
      refine exists_congr fun n => and_congr_right fun hn => ?_
      rw [hlater n hn]
    rw [hrest.failed, hfirst.failed, hlaterFails, or_assoc]
    refine or_congr_right ?_
    simp only [List.mem_cons, List.not_mem_nil, or_and_right, exists_or, exists_eq_left,
      or_false]

theorem foldl_turn_done : ∀ {names : List FileName} {pass : OutboundPass}, names.Nodup →
    TurnsDone runtimes jsonError answer pass
      (names.foldl (OutboundPass.turn runtimes jsonError answer) pass) names
  | [], pass, _ =>
    { posts := by simp
      removed := nofun
      kept := fun _ _ => rfl
      failed := by simp }
  | name :: names, pass, hnodup => by
      obtain ⟨hname, hnodup⟩ := List.nodup_cons.mp hnodup
      exact (turn_done pass name).cons (foldl_turn_done hnodup) hname

/-- One pass: whatever fails, the other files are posted, and only these are removed. -/
structure IsolatesFailures (runtimes : List (String × SlackProfileRuntime))
    (jsonError : FileName → String) (answer : FileName → ℕ → Except SlackError Unit)
    (outgoing : Directory) (pass : OutboundPass) : Prop where
  /-- The posts of one file after those of another, in the order of the listing. -/
  posts : pass.posts = (sortedOutgoingPaths outgoing).flatMap
    (postsOf runtimes jsonError answer outgoing)
  /-- A Slack message that does not fail is delivered: in chunks that are the message. -/
  delivered : ∀ n ∈ sortedOutgoingPaths outgoing, ∀ file message, outgoing.lookup n = some file →
    file.content.readOutgoing = some message → message.channel = "slack" →
    ¬ Fails runtimes jsonError answer outgoing n →
    ∃ delivery, Delivered runtimes jsonError answer outgoing n delivery ∧
      postsOf runtimes jsonError answer outgoing n = delivery.chunks.map delivery.post ∧
      delivery.messageId = message.messageId ∧
      delivery.chunks.flatMap String.toList = message.message.toList ∧
      ∀ chunk ∈ delivery.chunks, chunk.length ≤ outboundChunkChars
  removed : ∀ n ∈ sortedOutgoingPaths outgoing, ∀ delivery,
    Delivered runtimes jsonError answer outgoing n delivery → pass.outgoing.lookup n = none
  kept : ∀ n, ¬ (n ∈ sortedOutgoingPaths outgoing ∧
      ∃ delivery, Delivered runtimes jsonError answer outgoing n delivery) →
    pass.outgoing.lookup n = outgoing.lookup n
  /-- Of a file that fails the first chunks are posted, if any. -/
  begun : ∀ n, postsOf runtimes jsonError answer outgoing n = [] ∨
    ∃ file delivery, outgoing.lookup n = some file ∧
      planDelivery runtimes (Outbound.display n) (jsonError n) file.content = .ok (some delivery) ∧
      postsOf runtimes jsonError answer outgoing n <+: delivery.chunks.map delivery.post
  quiet : ∀ n file message, outgoing.lookup n = some file →
    file.content.readOutgoing = some message → message.channel ≠ "slack" →
    postsOf runtimes jsonError answer outgoing n = []
  result : (∃ err, pass.result = .error err) ↔
    ∃ n ∈ sortedOutgoingPaths outgoing, Fails runtimes jsonError answer outgoing n

theorem mem_sortedOutgoingPaths {outgoing : Directory} {n : FileName} :
    n ∈ sortedOutgoingPaths outgoing ↔ (∃ file, outgoing.lookup n = some file) ∧
      isJsonFile n = true := by
  rw [sortedOutgoingPaths, List.mem_insertionSort, List.mem_filter, ← AList.mem_keys,
    ← AList.lookup_isSome, Option.isSome_iff_exists]

theorem result_error_iff (pass : OutboundPass) :
    (∃ err, pass.result = .error err) ↔ pass.firstError.isSome = true := by
  rw [OutboundPass.result]
  cases pass.firstError with
  | none => exact iff_of_false (by rintro ⟨err, herr⟩; cases herr) Bool.false_ne_true
  | some err => exact iff_of_true ⟨err, rfl⟩ rfl

theorem processOutbound_isolates (runtimes : List (String × SlackProfileRuntime))
    (jsonError : FileName → String) (answer : FileName → ℕ → Except SlackError Unit)
    (outgoing : Directory) :
    IsolatesFailures runtimes jsonError answer outgoing
      (processOutbound runtimes jsonError answer outgoing) := by
  have hnodup : (sortedOutgoingPaths outgoing).Nodup := by
    apply (List.perm_insertionSort _ _).nodup_iff.mpr
    exact (keys_nodup outgoing).filter _
  have hdone : TurnsDone runtimes jsonError answer { outgoing }
      (processOutbound runtimes jsonError answer outgoing) (sortedOutgoingPaths outgoing) :=
    foldl_turn_done hnodup
  constructor
  · rw [hdone.posts, List.nil_append]
  · intro n _ file message hlookup hread hslack hnot
    rcases attemptFile_cases hlookup with ⟨hnone, -⟩ | ⟨delivery, hdelivered, heq⟩ | ⟨hfails, -⟩
    · obtain ⟨other, hother, hne⟩ := planDelivery_none_iff.mp hnone
      rw [hread] at hother
      cases hother
      exact absurd hslack hne
    · have hplanned := hdelivered
      obtain ⟨held, hheld, hplan, -⟩ := hplanned
      rw [hlookup] at hheld
      cases hheld
      obtain ⟨planned, hplanned, -, hid, hchunks⟩ := planDelivery_some hplan
      rw [hread] at hplanned
      cases hplanned
      refine ⟨delivery, hdelivered, by rw [postsOf, heq], hid, ?_, ?_⟩
      · rw [hchunks, chunkMessage_join]
      · rw [hchunks]
        exact chunkMessage_length_le message.message
    · exact absurd hfails hnot
  · intro n hn delivery hdelivered
    exact hdone.removed n hn (attemptFile_true_iff.mpr ⟨delivery, hdelivered⟩)
  · intro n hn
    apply hdone.kept
    rintro ⟨hlisted, hok⟩
    exact hn ⟨hlisted, attemptFile_true_iff.mp hok⟩
  · exact postsOf_begun outgoing
  · intro n file message hlookup hread hother
    have hnone : planDelivery runtimes (Outbound.display n) (jsonError n) file.content = .ok none :=
      planDelivery_none_iff.mpr ⟨message, hread, hother⟩
    rw [postsOf, attemptFile, hlookup]
    simp only [hnone]
  · rw [result_error_iff, hdone.failed]
    have hstart : ¬ ({ outgoing } : OutboundPass).firstError.isSome = true := Bool.false_ne_true
    rw [or_iff_right hstart]
    refine exists_congr fun n => and_congr_right fun hn => ?_
    obtain ⟨⟨file, hlookup⟩, -⟩ := mem_sortedOutgoingPaths.mp hn
    exact attemptFile_error_iff hlookup

end Whole

end Direclaw.Slack
