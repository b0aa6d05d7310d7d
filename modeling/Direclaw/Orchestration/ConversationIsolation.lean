import Direclaw.Orchestration.ConversationContext

/-!
# Which conversations are kept apart

Two conversations are isolated when no context file stands on the way to both of
theirs. What a call does stays below one entry of the tree, so conversations with
different entries never meet; below one entry everything depends on whether the
entry itself can be some conversation's file.
-/

namespace Direclaw.Orchestration

open Direclaw.Lib

/-! ## Entries -/

/-- The part of a context path that the conversations of one profile share. -/
def Conversation.entry (c : Conversation) : ContextPath := c.contextPath.take 2

theorem fileName_ne_conversations (c : Conversation) : c.fileName ≠ "conversations".toList := by
  intro h
  have hlast := congrArg List.getLast? h
  rw [Conversation.fileName, List.getLast?_append] at hlast
  simp at hlast

/-- A context path is the entry itself, or a file one level below it. -/
theorem shape (c : Conversation) :
    (c.contextPath = c.entry ∧ (c.dir = conversationsDir ∨ c.dir = [])) ∨
      (c.contextPath = c.entry ++ [c.fileName] ∧ c.dir = c.entry ∧
        ∃ name, c.entry = conversationsDir ++ [name]) := by
  simp only [Conversation.entry, Conversation.contextPath, Conversation.dir, contextDir,
    conversationsDir]
  split
  · exact .inl ⟨rfl, .inl rfl⟩
  split
  · exact .inl ⟨rfl, .inr rfl⟩
  · exact .inr ⟨rfl, rfl, _, rfl⟩

theorem entry_ne_conversationsDir (c : Conversation) : c.entry ≠ conversationsDir := by
  rcases shape c with ⟨hpath, hdir | hdir⟩ | ⟨-, -, name, hname⟩
  · rw [← hpath, Conversation.contextPath, hdir]
    simp [conversationsDir]
  · rw [← hpath, Conversation.contextPath, hdir]
    simpa [conversationsDir] using fileName_ne_conversations c
  · rw [hname]
    simp [conversationsDir]

theorem entry_isPrefix (c : Conversation) : c.entry <+: c.contextPath := List.take_prefix _ _

theorem entry_form (c : Conversation) :
    (∃ name, c.entry = conversationsDir ++ [name]) ∨ c.entry = [c.fileName] := by
  rcases shape c with ⟨hpath, hdir | hdir⟩ | ⟨-, -, hname⟩
  · exact .inl ⟨c.fileName, by rw [← hpath, Conversation.contextPath, hdir]⟩
  · exact .inr (by rw [← hpath, Conversation.contextPath, hdir, List.nil_append])
  · exact .inl hname

variable {c : Conversation} {a b : Conversation} {name : List Char}

theorem not_isPrefix_of_form (ha : a.entry = [a.fileName])
    (hb : b.entry = conversationsDir ++ [name]) :
    ¬ a.entry <+: b.entry ∧ ¬ b.entry <+: a.entry := by
  have hne := fileName_ne_conversations a
  rw [ha, hb]
  constructor
  · intro h
    exact hne (by simpa [conversationsDir, List.prefix_cons_iff] using h)
  · intro h
    have := h.length_le
    simp [conversationsDir] at this

theorem entry_unique {a b : Conversation} {p : ContextPath} (ha : a.entry <+: p)
    (hb : b.entry <+: p) : a.entry = b.entry := by
  have hcomp := List.prefix_or_prefix_of_prefix ha hb
  rcases entry_form a with ⟨name, hname⟩ | hfile <;> rcases entry_form b with ⟨name', hname'⟩ | hfile'
  · have hlen : a.entry.length = b.entry.length := by simp [hname, hname']
    rcases hcomp with h | h
    · exact h.eq_of_length hlen
    · exact (h.eq_of_length hlen.symm).symm
  · have := not_isPrefix_of_form hfile' hname
    tauto
  · have := not_isPrefix_of_form hfile hname'
    tauto
  · have hlen : a.entry.length = b.entry.length := by simp [hfile, hfile']
    rcases hcomp with h | h
    · exact h.eq_of_length hlen
    · exact (h.eq_of_length hlen.symm).symm

/-! ## What an append does to the tree -/

/-- What holds of every tree that appends have made. -/
structure Sound (tree : ContextTree) : Prop where
  conversations : tree conversationsDir = none ∨ tree conversationsDir = some .dir
  empty : tree conversationsDir = none → ∀ p, tree p = none

def opened (tree : ContextTree) : ContextTree :=
  Function.update tree conversationsDir (some .dir)

theorem createDirAll_conversations {tree : ContextTree} (h : Sound tree) :
    createDirAll tree [] conversationsDir = (opened tree, .ok ()) := by
  rcases h.conversations with hdir | hdir
  · simp only [conversationsDir] at hdir
    simp only [createDirAll, conversationsDir, List.nil_append, hdir, opened]
  · simp only [conversationsDir] at hdir
    simp only [createDirAll, conversationsDir, List.nil_append, hdir, opened]
    rw [← hdir, Function.update_eq_self]

theorem opened_of_ne {tree : ContextTree} {p : ContextPath} (h : p ≠ conversationsDir) :
    opened tree p = tree p := Function.update_of_ne h _ _

theorem appendTurn_shallow {tree : ContextTree} (h : Sound tree)
    (hc : c.contextPath = c.entry ∧ (c.dir = conversationsDir ∨ c.dir = [])) (turn : TurnRecord) :
    (appendTurn tree c turn).1 = (appendLine (opened tree) c.entry turn.encode).1 := by
  have hdir : createDirAll (opened tree) [] c.dir = (opened tree, .ok ()) := by
    rcases hc.2 with hdir | hdir
    · simp [hdir, createDirAll, conversationsDir, opened]
    · rw [hdir]
      rfl
  simp only [appendTurn, createDirAll_conversations h, hdir, hc.1]

/-- One kept in a directory of its own needs the entry to be no file. -/
theorem appendTurn_deep {tree : ContextTree} (h : Sound tree) (hc : c.dir = c.entry)
    (hname : c.entry = conversationsDir ++ [name]) (turn : TurnRecord) :
    (appendTurn tree c turn).1 =
      match tree c.entry with
      | some (.file _) => opened tree
      | _ => (appendLine (Function.update (opened tree) c.entry (some .dir)) c.contextPath
          turn.encode).1 := by
  have hne := entry_ne_conversationsDir c
  have hopen : opened tree c.entry = tree c.entry := opened_of_ne hne
  have hconv : opened tree conversationsDir = some .dir := Function.update_self _ _ _
  simp only [appendTurn, createDirAll_conversations h, hc]
  rw [hname] at hopen ⊢
  simp only [conversationsDir, List.cons_append, List.nil_append] at hopen hconv ⊢
  cases hnode : tree ["conversations".toList, name] with
  | none => simp only [createDirAll, List.nil_append, List.cons_append, hconv, hopen, hnode]
  | some node =>
    cases node with
    | dir =>
      simp only [createDirAll, List.nil_append, List.cons_append, hconv, hopen, hnode]
      rw [← hnode, ← hopen, Function.update_eq_self]
    | file lines => simp only [createDirAll, List.nil_append, List.cons_append, hconv, hopen, hnode]

theorem appendLine_of_ne (tree : ContextTree) {path p : ContextPath} (line : Json) (h : p ≠ path) :
    (appendLine tree path line).1 p = tree p := by
  unfold appendLine
  split
  · rfl
  · exact Function.update_of_ne h _ _
  · exact Function.update_of_ne h _ _

theorem appendLine_congr {tree tree' : ContextTree} {path : ContextPath} (line : Json)
    (h : tree path = tree' path) :
    (appendLine tree path line).1 path = (appendLine tree' path line).1 path := by
  unfold appendLine
  rw [h]
  split <;> simp_all

/-- Nothing outside the entry changes but the directory of all conversations. -/
theorem appendTurn_frame {tree : ContextTree} (h : Sound tree) (turn : TurnRecord) {p : ContextPath}
    (hp : ¬ c.entry <+: p) : (appendTurn tree c turn).1 p = opened tree p := by
  have hpath : p ≠ c.contextPath := fun heq => hp (heq ▸ entry_isPrefix c)
  have hentry : p ≠ c.entry := fun heq => hp (heq ▸ List.prefix_refl _)
  rcases shape c with hc | ⟨-, hdir, name, hname⟩
  · rw [appendTurn_shallow h hc, appendLine_of_ne _ _ hentry]
  · rw [appendTurn_deep h hdir hname]
    split
    · rfl
    · rw [appendLine_of_ne _ _ hpath, Function.update_of_ne hentry]

/-- What happens below the entry depends only on what was below it. -/
theorem appendTurn_region {tree tree' : ContextTree} (h : Sound tree) (h' : Sound tree')
    (turn : TurnRecord) (hagree : ∀ p, c.entry <+: p → tree p = tree' p) {p : ContextPath}
    (hp : c.entry <+: p) : (appendTurn tree c turn).1 p = (appendTurn tree' c turn).1 p := by
  have hopen : ∀ p, c.entry <+: p → opened tree p = opened tree' p := by
    intro q hq
    by_cases hconv : q = conversationsDir
    · rw [hconv, opened, opened, Function.update_self, Function.update_self]
    · rw [opened_of_ne hconv, opened_of_ne hconv, hagree q hq]
  have hself := List.prefix_refl c.entry
  rcases shape c with hc | ⟨hpath, hdir, name, hname⟩
  · rw [appendTurn_shallow h hc, appendTurn_shallow h' hc]
    by_cases hpe : p = c.entry
    · rw [hpe]
      exact appendLine_congr _ (hopen _ hself)
    · rw [appendLine_of_ne _ _ hpe, appendLine_of_ne _ _ hpe, hopen p hp]
  · rw [appendTurn_deep h hdir hname, appendTurn_deep h' hdir hname, hagree _ hself]
    have hput : ∀ q, c.entry <+: q →
        Function.update (opened tree) c.entry (some .dir) q =
          Function.update (opened tree') c.entry (some .dir) q := by
      intro q hq
      by_cases hqe : q = c.entry
      · rw [hqe, Function.update_self, Function.update_self]
      · rw [Function.update_of_ne hqe, Function.update_of_ne hqe, hopen q hq]
    split
    · exact hopen p hp
    · by_cases hpe : p = c.contextPath
      · rw [hpe]
        exact appendLine_congr _ (hput _ (entry_isPrefix c))
      · rw [appendLine_of_ne _ _ hpe, appendLine_of_ne _ _ hpe, hput p hp]

theorem not_isPrefix_conversationsDir (c : Conversation) : ¬ c.entry <+: conversationsDir := by
  intro hp
  rcases entry_form c with ⟨name, hname⟩ | hfile
  · have := hp.length_le
    simp [hname, conversationsDir] at this
  · rw [hfile] at hp
    exact fileName_ne_conversations c (by simpa [conversationsDir, List.prefix_cons_iff] using hp)

theorem ne_conversationsDir_of_below {x : Conversation} {p : ContextPath} (hp : x.entry <+: p) :
    p ≠ conversationsDir :=
  fun heq => not_isPrefix_conversationsDir x (heq ▸ hp)

theorem appendTurn_elsewhere {x : Conversation} {tree : ContextTree} (h : Sound tree)
    {c : Conversation} (hne : c.entry ≠ x.entry) (turn : TurnRecord) {p : ContextPath}
    (hp : x.entry <+: p) : (appendTurn tree c turn).1 p = tree p := by
  have hout : ¬ c.entry <+: p := fun hc => hne (entry_unique hc hp)
  rw [appendTurn_frame h turn hout, opened_of_ne (ne_conversationsDir_of_below hp)]

theorem Sound.appendTurn {tree : ContextTree} (h : Sound tree) (c : Conversation)
    (turn : TurnRecord) : Sound (appendTurn tree c turn).1 := by
  have hout := not_isPrefix_conversationsDir c
  have hdir : (Orchestration.appendTurn tree c turn).1 conversationsDir = some .dir := by
    rw [appendTurn_frame h turn hout, opened, Function.update_self]
  exact ⟨.inr hdir, fun hnone => by simp [hdir] at hnone⟩

theorem sound_empty : Sound fun _ => none := ⟨.inl rfl, fun _ _ => rfl⟩

theorem exec_cases (call : TurnCall) :
    (∀ tree, (call.exec tree).1 = tree) ∨
      ∃ turn, ∀ tree, (call.exec tree).1 = (appendTurn tree call.conversation turn).1 := by
  cases call with
  | inbound c messageId timestamp senderId message =>
    by_cases hblank : Text.isBlank message.toList = true
    · exact .inl fun tree => by simp [TurnCall.exec, appendInboundTurn, hblank]
    · refine .inr ⟨{ timestamp, direction := .inbound, senderId, message, messageId },
        fun tree => ?_⟩
      simp [TurnCall.exec, appendInboundTurn, hblank, TurnCall.conversation]
  | outbound c messageId timestamp agent message workflowRunId workflowStepId =>
    by_cases hblank : Text.isBlank message.toList = true
    · exact .inl fun tree => by simp [TurnCall.exec, appendOutboundTurn, hblank]
    · refine .inr ⟨{ timestamp, direction := .outbound, senderId := "assistant", message
                     messageId, agent := some agent, workflowRunId, workflowStepId },
        fun tree => ?_⟩
      simp [TurnCall.exec, appendOutboundTurn, hblank, TurnCall.conversation]

/-! ## What is rendered -/

theorem enterDir_conversations (tree : ContextTree) (rest : ContextPath) :
    enterDir tree [] (conversationsDir ++ rest) =
      match tree conversationsDir with
      | none => .error .notFound
      | some (.file _) => .error (.other notADirectory)
      | some .dir => enterDir tree conversationsDir rest := rfl

theorem openContext_shallow {tree : ContextTree} (h : Sound tree)
    (hc : c.contextPath = c.entry ∧ (c.dir = conversationsDir ∨ c.dir = [])) :
    openContext tree c = readLines tree c.entry := by
  have hconv := enterDir_conversations tree []
  rw [List.append_nil] at hconv
  rcases h.conversations with hnone | hdir
  · rw [hnone] at hconv
    rw [openContext, hconv]
    show Except.error IoErrorKind.notFound = _
    rw [readLines, h.empty hnone]
  · rw [hdir] at hconv
    have henter : enterDir tree [] c.dir = .ok () := by
      rcases hc.2 with hdir | hdir
      · rw [hdir, hconv]
        rfl
      · rw [hdir]
        rfl
    rw [openContext, hconv, henter, hc.1]
    rfl

theorem openContext_deep {tree : ContextTree} (h : Sound tree) (hc : c.dir = c.entry)
    (hname : c.entry = conversationsDir ++ [name]) :
    openContext tree c =
      match tree c.entry with
      | none => .error .notFound
      | some (.file _) => .error (.other notADirectory)
      | some .dir => readLines tree c.contextPath := by
  have hconv := enterDir_conversations tree []
  have hentry := enterDir_conversations tree [name]
  rw [List.append_nil] at hconv
  rw [← hname, ← hc] at hentry
  rcases h.conversations with hnone | hdir
  · rw [hnone] at hconv
    rw [openContext, hconv, h.empty hnone]
    rfl
  · rw [hdir] at hconv hentry
    rw [openContext, hconv, hentry, hname]
    simp only [enterDir]
    cases tree (conversationsDir ++ [name]) with
    | none => rfl
    | some node => cases node <;> rfl

/-! ## Isolation -/

/-- Whatever is added, removed or altered about `y`, `x` renders the same. -/
def Isolated (x y : Conversation) : Prop :=
  ∀ calls calls' : List TurnCall,
    calls.filter (·.conversation ≠ y) = calls'.filter (·.conversation ≠ y) →
      ∀ limits, renderRecentThreadContext (afterTurns calls) x limits =
        renderRecentThreadContext (afterTurns calls') x limits

/-- One of the context files is the other, or would have to be a directory for it. -/
def Crosses (a b : Conversation) : Prop :=
  a.contextPath <+: b.contextPath ∨ b.contextPath <+: a.contextPath

theorem isolated_of_filter {x y : Conversation}
    (h : ∀ calls, openContext (afterTurns calls) x =
      openContext (afterTurns (calls.filter (·.conversation ≠ y))) x) : Isolated x y := by
  intro calls calls' heq limits
  have hopen : openContext (afterTurns calls) x = openContext (afterTurns calls') x := by
    rw [h calls, h calls', heq]
  rw [renderRecentThreadContext, renderRecentThreadContext, hopen]

/-- Agreement below an entry that `y` does not reach. -/
structure AgreeBelow (entry : ContextPath) (tree tree' : ContextTree) : Prop where
  left : Sound tree
  right : Sound tree'
  agree : ∀ p, entry <+: p → tree p = tree' p

theorem openContext_agree {x : Conversation} {tree tree' : ContextTree}
    (h : AgreeBelow x.entry tree tree') : openContext tree x = openContext tree' x := by
  have hentry := h.agree _ (List.prefix_refl _)
  have hpath := h.agree _ (entry_isPrefix x)
  rcases shape x with hx | ⟨-, hdir, name, hname⟩
  · rw [openContext_shallow h.left hx, openContext_shallow h.right hx, readLines, readLines, hentry]
  · rw [openContext_deep h.left hdir hname, openContext_deep h.right hdir hname, readLines,
      readLines, hentry, hpath]

theorem agreeBelow_elsewhere {x c : Conversation} (hne : c.entry ≠ x.entry) {tree tree' : ContextTree}
    (h : AgreeBelow x.entry tree tree') (turn : TurnRecord) :
    AgreeBelow x.entry (appendTurn tree c turn).1 tree' := by
  refine ⟨h.left.appendTurn c turn, h.right, fun p hp => ?_⟩
  rw [appendTurn_elsewhere h.left hne turn hp, h.agree p hp]

/-- Different entries: nothing `y` does is seen. -/
theorem isolated_of_entry_ne {x y : Conversation} (hne : y.entry ≠ x.entry) : Isolated x y := by
  refine isolated_of_filter fun calls => openContext_agree ?_
  refine run_filter (R := AgreeBelow x.entry) ?_ ?_ calls ⟨sound_empty, sound_empty, fun _ _ => rfl⟩
  · intro tree tree' call _ h
    rcases exec_cases call with hnone | ⟨turn, hturn⟩
    · rwa [hnone, hnone]
    · rw [hturn, hturn]
      refine ⟨h.left.appendTurn _ _, h.right.appendTurn _ _, fun p hp => ?_⟩
      by_cases hcall : call.conversation.entry = x.entry
      · rw [← hcall] at hp
        exact appendTurn_region h.left h.right turn (fun q hq => h.agree q (hcall ▸ hq)) hp
      · rw [appendTurn_elsewhere h.left hcall turn hp, appendTurn_elsewhere h.right hcall turn hp,
          h.agree p hp]
  · intro tree tree' call hy h
    have hy : call.conversation = y := by simpa using hy
    rcases exec_cases call with hnone | ⟨turn, hturn⟩
    · rwa [hnone]
    · rw [hturn, hy]
      exact agreeBelow_elsewhere hne h turn

/-! ### Below one entry -/

/-- The entry of `x` is a directory, or nothing is there yet. -/
structure Roomy (x : Conversation) (tree : ContextTree) : Prop where
  sound : Sound tree
  node : (tree x.entry = none ∧ tree x.contextPath = none) ∨ tree x.entry = some .dir

section SameEntry

variable {x : Conversation} {tree : ContextTree}

/-- An append below the entry: the entry becomes a directory, and the file of `x`
changes only if it is the one appended to. -/
theorem appendTurn_sameEntry (h : Roomy x tree) {c : Conversation} (hc : c.entry = x.entry)
    (hdeep : c.contextPath ≠ x.entry) (turn : TurnRecord) :
    (appendTurn tree c turn).1 x.entry = some .dir ∧
      (c.contextPath ≠ x.contextPath → x.contextPath ≠ x.entry →
        (appendTurn tree c turn).1 x.contextPath = tree x.contextPath) ∧
      (c.contextPath = x.contextPath →
        (appendTurn tree c turn).1 x.contextPath =
          (appendLine tree x.contextPath turn.encode).1 x.contextPath) := by
  rcases shape c with ⟨hpath, -⟩ | ⟨-, hdir, name, hname⟩
  · exact absurd (hpath.trans hc) hdeep
  · have hnofile : (appendTurn tree c turn).1 = (appendLine (Function.update (opened tree) c.entry
        (some .dir)) c.contextPath turn.encode).1 := by
      rw [appendTurn_deep h.sound hdir hname, hc]
      rcases h.node with ⟨hnone, -⟩ | hdir
      · rw [hnone]
      · rw [hdir]
    have hopen : opened tree x.contextPath = tree x.contextPath :=
      opened_of_ne (ne_conversationsDir_of_below (entry_isPrefix x))
    rw [hnofile, hc]
    refine ⟨?_, fun hne hx => ?_, fun heq => ?_⟩
    · rw [appendLine_of_ne _ _ hdeep.symm, Function.update_self]
    · rw [appendLine_of_ne _ _ hne.symm, Function.update_of_ne hx, hopen]
    · rw [heq] at hdeep ⊢
      apply appendLine_congr
      rw [Function.update_of_ne hdeep, hopen]

theorem Roomy.appendTurn (h : Roomy x tree) {c : Conversation} (hdeep : c.contextPath ≠ x.entry)
    (turn : TurnRecord) : Roomy x (appendTurn tree c turn).1 := by
  refine ⟨h.sound.appendTurn c turn, ?_⟩
  by_cases hc : c.entry = x.entry
  · exact .inr (appendTurn_sameEntry h hc hdeep turn).1
  · rw [appendTurn_elsewhere h.sound hc turn (List.prefix_refl _),
      appendTurn_elsewhere h.sound hc turn (entry_isPrefix x)]
    exact h.node

theorem Roomy.openContext (h : Roomy x tree) (hx : x.contextPath ≠ x.entry) :
    openContext tree x = readLines tree x.contextPath := by
  rcases shape x with ⟨hpath, -⟩ | ⟨-, hdir, name, hname⟩
  · exact absurd hpath hx
  · rw [openContext_deep h.sound hdir hname]
    rcases h.node with ⟨hnone, hmissing⟩ | hdir
    · rw [hnone, readLines, hmissing]
    · rw [hdir]

end SameEntry

/-- Different files of one directory: what `y` does is not seen, if no conversation
can be kept where the directory is. -/
theorem isolated_of_sameEntry {x y : Conversation} (hentry : y.entry = x.entry)
    (hfiles : y.contextPath ≠ x.contextPath) (hdir : ∀ z : Conversation, z.contextPath ≠ x.entry) :
    Isolated x y := by
  let R := fun tree tree' => Roomy x tree ∧ Roomy x tree' ∧ tree x.contextPath = tree' x.contextPath
  refine isolated_of_filter fun calls => ?_
  suffices h : R (afterTurns calls) (afterTurns (calls.filter (·.conversation ≠ y))) by
    rw [h.1.openContext (hdir x), h.2.1.openContext (hdir x), readLines, readLines, h.2.2]
  have hempty : Roomy x fun _ => none := ⟨sound_empty, .inl ⟨rfl, rfl⟩⟩
  refine run_filter ?_ ?_ calls ⟨hempty, hempty, rfl⟩
  · rintro tree tree' call - ⟨h, h', hagree⟩
    rcases exec_cases call with hnone | ⟨turn, hturn⟩
    · rw [hnone, hnone]
      exact ⟨h, h', hagree⟩
    · rw [hturn, hturn]
      refine ⟨h.appendTurn (hdir _) turn, h'.appendTurn (hdir _) turn, ?_⟩
      by_cases hc : call.conversation.entry = x.entry
      · obtain ⟨-, hother, hsame⟩ := appendTurn_sameEntry h hc (hdir _) turn
        obtain ⟨-, hother', hsame'⟩ := appendTurn_sameEntry h' hc (hdir _) turn
        by_cases hfile : call.conversation.contextPath = x.contextPath
        · rw [hsame hfile, hsame' hfile]
          exact appendLine_congr _ hagree
        · rw [hother hfile (hdir x), hother' hfile (hdir x), hagree]
      · rw [appendTurn_elsewhere h.sound hc turn (entry_isPrefix x),
          appendTurn_elsewhere h'.sound hc turn (entry_isPrefix x), hagree]
  · rintro tree tree' call hy ⟨h, h', hagree⟩
    have hy : call.conversation = y := by simpa using hy
    rcases exec_cases call with hnone | ⟨turn, hturn⟩
    · rw [hnone]
      exact ⟨h, h', hagree⟩
    · rw [hturn, hy]
      refine ⟨h.appendTurn (hdir y) turn, h', ?_⟩
      rw [(appendTurn_sameEntry h hentry (hdir y) turn).2.1 hfiles (hdir x), hagree]

/-! ### Interference -/

def helloTurn : TurnRecord :=
  { timestamp := 0, direction := .inbound, senderId := "u", message := "hello", messageId := "m" }

def hello (c : Conversation) : TurnCall := .inbound c "m" 0 "u" "hello"

theorem exec_hello (tree : ContextTree) (c : Conversation) :
    ((hello c).exec tree).1 = (appendTurn tree c helloTurn).1 := by
  rw [hello, TurnCall.exec, appendInboundTurn, if_neg (by decide)]
  rfl

theorem renderLines_hello :
    renderLines {} [helloTurn.encode] = some "[user] hello".toList := by
  simp only [renderLines, List.filterMap_cons, TurnRecord.decode_encode, List.filterMap_nil,
    List.mergeSort_singleton]
  decide

theorem not_isolated {x y : Conversation} (calls calls' : List TurnCall)
    (hfilter : calls.filter (·.conversation ≠ y) = calls'.filter (·.conversation ≠ y))
    (hrender : renderRecentThreadContext (afterTurns calls) x {} ≠
      renderRecentThreadContext (afterTurns calls') x {}) : ¬ Isolated x y :=
  fun h => hrender (h calls calls' hfilter {})

theorem render_of_open {tree : ContextTree} {x : Conversation} {r : Except IoErrorKind (List Json)}
    (h : openContext tree x = r) : renderRecentThreadContext tree x {} = renderOpened {} r := by
  rw [renderRecentThreadContext, if_neg (by decide), h]

theorem render_empty (x : Conversation) :
    renderRecentThreadContext (fun _ => none) x {} = .ok none := by
  rcases shape x with hx | ⟨-, hdir, name, hname⟩
  · rw [render_of_open (openContext_shallow sound_empty hx)]
    rfl
  · rw [render_of_open (openContext_deep sound_empty hdir hname)]
    rfl

/-- With `y`'s turn alone, `x` renders something or fails; with nothing, it renders
nothing. -/
theorem not_isolated_of_hello {x y : Conversation} {r : Except IoErrorKind (List Json)}
    (h : openContext (appendTurn (fun _ => none) y helloTurn).1 x = r)
    (hr : r = .ok [helloTurn.encode] ∨ ∃ message, r = .error (.other message)) :
    ¬ Isolated x y := by
  apply not_isolated [hello y] []
  · simp [hello, TurnCall.conversation]
  · have hafter : afterTurns [hello y] = (appendTurn (fun _ => none) y helloTurn).1 :=
      exec_hello _ _
    rw [hafter, render_of_open h, show afterTurns [] = fun _ => none from rfl, render_empty]
    rcases hr with rfl | ⟨message, rfl⟩
    · simp [renderOpened, renderLines_hello]
    · simp [renderOpened]

theorem appendTurn_empty_shallow (hc : c.contextPath = c.entry) :
    (appendTurn (fun _ => none) c helloTurn).1 c.entry = some (.file [helloTurn.encode]) := by
  rcases shape c with hc | ⟨hpath, -⟩
  · have hopen : opened (fun _ => none) c.entry = none := opened_of_ne (entry_ne_conversationsDir c)
    rw [appendTurn_shallow sound_empty hc, appendLine, hopen]
    exact Function.update_self _ _ _
  · exact absurd (hpath.symm.trans hc) (by simp)

theorem crosses_entry (h : Crosses a b) : a.entry = b.entry := by
  rcases h with h | h
  · exact entry_unique ((entry_isPrefix a).trans h) (entry_isPrefix b)
  · exact entry_unique (entry_isPrefix a) ((entry_isPrefix b).trans h)

/-- Two files of one directory meet when the directory can be a third conversation's
file: if that one comes first, `x` has no place; with `y` before it, `x` has. -/
theorem not_isolated_of_third {x y z : Conversation} (hentry : y.entry = x.entry)
    (hx : x.contextPath ≠ x.entry) (hy : y.contextPath ≠ x.entry)
    (hne : y.contextPath ≠ x.contextPath) (hz : z.contextPath = x.entry)
    (hze : z.entry = x.entry) : ¬ Isolated x y := by
  have hzs : z.contextPath = z.entry := hz.trans hze.symm
  have hshape : z.contextPath = z.entry ∧ (z.dir = conversationsDir ∨ z.dir = []) := by
    rcases shape z with h | ⟨hpath, -⟩
    · exact h
    · exact absurd (hpath.symm.trans hzs) (by simp)
  have hdir : ∀ {tree : ContextTree} (_ : Sound tree), tree x.entry = some .dir →
      (appendTurn tree z helloTurn).1 = opened tree := by
    intro tree h hdir
    have hopen : opened tree z.entry = some .dir := by
      rw [opened_of_ne (entry_ne_conversationsDir z), hze, hdir]
    rw [appendTurn_shallow h hshape, appendLine, hopen]
  apply not_isolated [hello y, hello z, hello x] [hello z, hello x]
  · simp [hello, TurnCall.conversation]
  · have hafter : afterTurns [hello y, hello z, hello x] =
        (appendTurn (appendTurn (appendTurn (fun _ => none) y helloTurn).1 z helloTurn).1 x
          helloTurn).1 := by
      simp only [afterTurns, run_cons, run_nil, exec_hello]
    have hafter' : afterTurns [hello z, hello x] =
        (appendTurn (appendTurn (fun _ => none) z helloTurn).1 x helloTurn).1 := by
      simp only [afterTurns, run_cons, run_nil, exec_hello]
    have hroomy : Roomy x fun _ => none := ⟨sound_empty, .inl ⟨rfl, rfl⟩⟩
    obtain ⟨hdir₁, hfile₁, -⟩ := appendTurn_sameEntry hroomy hentry hy helloTurn
    have hsound₁ := sound_empty.appendTurn y helloTurn
    have hsound₂ := hsound₁.appendTurn z helloTurn
    have htree := hdir hsound₁ hdir₁
    have hbelow := @ne_conversationsDir_of_below x
    have hroomy₂ : Roomy x (appendTurn (appendTurn (fun _ => none) y helloTurn).1 z helloTurn).1 := by
      refine ⟨hsound₂, .inr ?_⟩
      rw [htree, opened_of_ne (hbelow (List.prefix_refl _)), hdir₁]
    have hnone : (appendTurn (appendTurn (fun _ => none) y helloTurn).1 z helloTurn).1
        x.contextPath = none := by
      rw [htree, opened_of_ne (hbelow (entry_isPrefix x)), hfile₁ hne hx]
    have hopen : openContext (afterTurns [hello y, hello z, hello x]) x = .ok [helloTurn.encode] := by
      rw [hafter, (hroomy₂.appendTurn hx helloTurn).openContext hx, readLines,
        (appendTurn_sameEntry hroomy₂ rfl hx helloTurn).2.2 rfl, appendLine, hnone]
      simp
    have hclosed : openContext (afterTurns [hello z, hello x]) x = .error (.other notADirectory) := by
      have hfile : (appendTurn (fun _ => none) z helloTurn).1 x.entry =
          some (.file [helloTurn.encode]) := hze ▸ appendTurn_empty_shallow hzs
      rcases shape x with ⟨hpath, -⟩ | ⟨-, hd, name, hname⟩
      · exact absurd hpath hx
      · have hsound := sound_empty.appendTurn z helloTurn
        rw [hafter', openContext_deep (hsound.appendTurn x helloTurn) hd hname,
          appendTurn_deep hsound hd hname, hfile]
        simp only []
        rw [opened_of_ne (hbelow (List.prefix_refl _)), hfile]
    rw [render_of_open hopen, render_of_open hclosed]
    simp [renderOpened]

theorem not_isolated_of_crosses {x y z : Conversation} (hzx : Crosses z x) (hzy : Crosses z y) :
    ¬ Isolated x y := by
  have hze := crosses_entry hzx
  have hentry : y.entry = x.entry := (crosses_entry hzy).symm.trans hze
  have hroomy : Roomy x fun _ => none := ⟨sound_empty, .inl ⟨rfl, rfl⟩⟩
  have hsound := sound_empty.appendTurn y helloTurn
  by_cases hx : x.contextPath = x.entry
  · have hshape : x.contextPath = x.entry ∧ (x.dir = conversationsDir ∨ x.dir = []) := by
      rcases shape x with h | ⟨hpath, -⟩
      · exact h
      · exact absurd (hpath.symm.trans hx) (by simp)
    by_cases hy : y.contextPath = y.entry
    · -- both are kept at the entry
      apply not_isolated_of_hello (openContext_shallow hsound hshape)
      rw [readLines, ← hentry, appendTurn_empty_shallow hy]
      exact .inl rfl
    · apply not_isolated_of_hello (openContext_shallow hsound hshape)
      rw [readLines, (appendTurn_sameEntry hroomy hentry (hentry ▸ hy) helloTurn).1]
      exact .inr ⟨_, rfl⟩
  · obtain ⟨-, hd, name, hname⟩ := (shape x).resolve_left fun h => hx h.1
    by_cases hy : y.contextPath = y.entry
    · apply not_isolated_of_hello (openContext_deep hsound hd hname)
      rw [← hentry, appendTurn_empty_shallow hy]
      exact .inr ⟨_, rfl⟩
    · have hy : y.contextPath ≠ x.entry := hentry ▸ hy
      obtain ⟨hdir, -, hsame⟩ := appendTurn_sameEntry hroomy hentry hy helloTurn
      by_cases hfile : y.contextPath = x.contextPath
      · apply not_isolated_of_hello ((hroomy.appendTurn hy helloTurn).openContext hx)
        rw [readLines, hsame hfile, appendLine]
        simp
      · by_cases hz : z.contextPath = x.entry
        · exact not_isolated_of_third hentry hx hy hfile hz hze
        · -- a third file of the directory would be both files
          have hlen : ∀ {c : Conversation}, c.entry = x.entry → c.contextPath ≠ x.entry →
              c.contextPath.length = x.entry.length + 1 := by
            intro c hc hdeep
            rcases shape c with ⟨hpath, -⟩ | ⟨hpath, -⟩
            · exact absurd (hpath.trans hc) hdeep
            · simp [hpath, hc]
          have heq : ∀ {c : Conversation}, Crosses z c → c.entry = x.entry →
              c.contextPath ≠ x.entry → z.contextPath = c.contextPath := by
            intro c hzc hc hdeep
            have hlen' : z.contextPath.length = c.contextPath.length := by
              rw [hlen hze hz, hlen hc hdeep]
            rcases hzc with h | h
            · exact h.eq_of_length hlen'
            · exact (h.eq_of_length hlen'.symm).symm
          exact absurd ((heq hzy hentry hy).symm.trans (heq hzx rfl hx)) hfile

/-- **Exactly the conversations that no context file crosses twice are kept apart.** -/
theorem conversation_isolated_iff (x y : Conversation) :
    Isolated x y ↔ ¬ ∃ z, Crosses z x ∧ Crosses z y := by
  constructor
  · rintro h ⟨z, hzx, hzy⟩
    exact not_isolated_of_crosses hzx hzy h
  · intro h
    by_cases hentry : y.entry = x.entry
    · apply isolated_of_sameEntry hentry
      · intro hfile
        exact h ⟨x, .inl (List.prefix_refl _), .inl (hfile ▸ List.prefix_refl _)⟩
      · intro z hz
        exact h ⟨z, .inl (hz ▸ entry_isPrefix x), .inl (hz ▸ hentry ▸ entry_isPrefix y)⟩
    · exact isolated_of_entry_ne hentry

/-- Two profiles of one orchestrator whose ids differ in a blank: a turn of the one
is rendered for the other. -/
theorem profiles_share_context :
    let x : Conversation := ⟨"slack main", "C100:1700.5"⟩
    let y : Conversation := ⟨"slack_main", "C100:1700.5"⟩
    x ≠ y ∧ renderRecentThreadContext (afterTurns [hello y]) x {} =
        .ok (some "[user] hello".toList) ∧
      renderRecentThreadContext (afterTurns []) x {} = .ok none := by
  intro x y
  have hpath : y.contextPath = x.contextPath ∧ x.contextPath ≠ x.entry ∧ y.entry = x.entry := by
    decide
  have hroomy : Roomy x fun _ => none := ⟨sound_empty, .inl ⟨rfl, rfl⟩⟩
  have hy : y.contextPath ≠ x.entry := hpath.1 ▸ hpath.2.1
  have hopen : openContext (afterTurns [hello y]) x = .ok [helloTurn.encode] := by
    rw [afterTurns, run_cons, run_nil, exec_hello,
      (hroomy.appendTurn hy helloTurn).openContext hpath.2.1, readLines,
      (appendTurn_sameEntry hroomy hpath.2.2 hy helloTurn).2.2 hpath.1, appendLine]
    simp
  refine ⟨by decide, ?_, render_empty x⟩
  rw [render_of_open hopen, renderOpened, renderLines_hello]

end Direclaw.Orchestration
