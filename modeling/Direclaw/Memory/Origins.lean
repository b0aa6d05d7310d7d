import Direclaw.Lib.Sha256
import Direclaw.Memory.StoreConsistency
import Direclaw.Memory.Writeback

/-!
# Memories and their origins

A message, an output of a step and a diagnostics run each have one memory, under an
id made from twenty-four bits of a digest. The log of what was stored is kept beside
the database; an origin's memory is kept as long as no other origin writes its id.
-/

namespace Direclaw.Memory

open Direclaw.Lib

/-! ## Ids -/

theorem hexDigit_inj : ∀ m < 16, ∀ n < 16, hexDigit m = hexDigit n → m = n := by decide

theorem hexByte_inj {a b : UInt8} (h : hexByte a = hexByte b) : a = b := by
  have ha := a.toNat_lt
  have hb := b.toNat_lt
  simp only [hexByte, List.cons.injEq, and_true] at h
  have hhigh := hexDigit_inj _ (by omega) _ (by omega) h.1
  have hlow := hexDigit_inj _ (by omega) _ (by omega) h.2
  exact UInt8.toNat_inj.mp (by omega)

variable {sha256 : List UInt8 → List UInt8} {s : WritebackState} {node : MemoryNode} {repo : String}

/-- Two ids of one kind are equal exactly if the digests agree in three bytes. -/
theorem compactMemoryId_eq_iff {kind : String} {parts parts' : List String} :
    compactMemoryId sha256 kind parts = compactMemoryId sha256 kind parts' ↔
      digestHead sha256 (hashInput kind parts) = digestHead sha256 (hashInput kind parts') := by
  constructor
  · intro h
    obtain ⟨-, hhex⟩ := List.cons.inj (List.append_cancel_left (String.ofList_injective h))
    simp only [digestHead, List.flatMap_cons, List.flatMap_nil, hexByte, List.cons_append,
      List.nil_append, List.append_nil, List.cons.injEq, and_true] at hhex
    obtain ⟨h₁, h₂, h₃, h₄, h₅, h₆⟩ := hhex
    have hbyte : ∀ {a b : UInt8}, hexDigit (a.toNat / 16) = hexDigit (b.toNat / 16) →
        hexDigit (a.toNat % 16) = hexDigit (b.toNat % 16) → a = b := fun hi lo =>
      hexByte_inj (by rw [hexByte, hexByte, hi, lo])
    simp only [digestHead, hbyte h₁ h₂, hbyte h₃ h₄, hbyte h₅ h₆]
  · intro h
    rw [compactMemoryId, compactMemoryId, h]

theorem memoryId_kind {sha256 : List UInt8 → List UInt8} {o o' : Origin}
    (h : o.memoryId sha256 = o'.memoryId sha256) : o.kind = o'.kind := by
  have hlist := String.ofList_injective h
  cases o <;> cases o' <;> first | rfl | (simp [Origin.kind] at hlist)

/-! ## The log -/

/-- A call, and what is answered from outside while it runs. -/
structure PersistEvent where
  call : PersistCall
  env : WritebackEnv

structure WritebackState where
  db : Database := {}
  log : List (Origin × MemoryNode) := []

/-- What a call that is accepted stores, and for which origins. -/
def PersistEvent.writes (sha256 : List UInt8 → List UInt8) (event : PersistEvent) :
    List (Origin × MemoryNode) :=
  match event.call.writeback sha256 event.env with
  | none => []
  | some w => w.nodes

def persistStep (sha256 : List UInt8 → List UInt8) (repo : String) (s : WritebackState)
    (event : PersistEvent) : WritebackState :=
  let result := event.call.exec sha256 event.env repo s.db
  { db := result.1
    log := match result.2 with
      | .ok .inserted => s.log ++ event.writes sha256
      | _ => s.log }

def persisted (sha256 : List UInt8 → List UInt8) (repo : String) (events : List PersistEvent) :
    WritebackState :=
  run (persistStep sha256 repo) {} events

/-- The row holds what the node says, first stored whenever it was. -/
def SameMemory (row : MemoryRow) (node : MemoryNode) : Prop :=
  row.node = { node with createdAt := row.node.createdAt }

/-- The memory that was last stored for an origin is still there. -/
def Kept (s : WritebackState) : Prop :=
  ∀ before origin node after, s.log = before ++ (origin, node) :: after →
    (∀ later ∈ after, later.1 ≠ origin) → ∃ row ∈ s.db.memories, SameMemory row node

/-- Of the memories written under one id the last one is there. -/
def LastWins (rows : List MemoryRow) (log : List (Origin × MemoryNode)) : Prop :=
  ∀ before origin node after, log = before ++ (origin, node) :: after →
    (∀ later ∈ after, later.2.key ≠ node.key) → ∃ row ∈ rows, SameMemory row node

theorem SameMemory.key {row : MemoryRow} (h : SameMemory row node) : row.key = node.key := by
  rw [MemoryRow.key, h]
  rfl

theorem exists_upserted (rows : List MemoryRow) (node : MemoryNode) (idempotencyKey : String) :
    ∃ row ∈ upsertMemory rows node idempotencyKey, SameMemory row node := by
  have hkey : node.key ∈ (upsertMemory rows node idempotencyKey).map MemoryRow.key := by
    rw [upsertMemory_keys]
    split
    · assumption
    · simp
  obtain ⟨row, hrow, hrowKey⟩ := List.mem_map.mp hkey
  rcases mem_upsertMemory hrow with ⟨-, hne⟩ | ⟨createdAt, hnode⟩
  · exact absurd hrowKey hne
  · exact ⟨row, hrow, by rw [SameMemory, hnode]⟩

theorem mem_upsertMemory_of_ne {rows : List MemoryRow} {row : MemoryRow} (idempotencyKey : String)
    (hrow : row ∈ rows) (hne : row.key ≠ node.key) :
    row ∈ upsertMemory rows node idempotencyKey := by
  unfold upsertMemory
  split
  · refine List.mem_map.mpr ⟨row, hrow, if_neg ?_⟩
    simpa [MemoryRow.key] using hne
  · exact List.mem_append_left _ hrow

theorem LastWins.upsert {rows : List MemoryRow} {log : List (Origin × MemoryNode)}
    (h : LastWins rows log) (idempotencyKey : String) (origin : Origin) (node : MemoryNode) :
    LastWins (upsertMemory rows node idempotencyKey) (log ++ [(origin, node)]) := by
  intro before o n after hlog hafter
  rcases List.eq_nil_or_concat after with rfl | ⟨after, last, rfl⟩
  · obtain ⟨-, heq⟩ := List.append_inj' hlog (by simp)
    simp only [List.cons.injEq, Prod.mk.injEq, and_true] at heq
    rw [← heq.2]
    exact exists_upserted rows node idempotencyKey
  · rw [List.concat_eq_append, ← List.cons_append, ← List.append_assoc] at hlog
    obtain ⟨hlog, heq⟩ := List.append_inj' hlog (by simp)
    simp only [List.cons.injEq, and_true] at heq
    rw [List.concat_eq_append] at hafter
    obtain ⟨row, hrow, hsame⟩ := h before o n after hlog fun later hl => hafter later (by simp [hl])
    refine ⟨row, mem_upsertMemory_of_ne idempotencyKey hrow ?_, hsame⟩
    have hlast := hafter last (by simp)
    rw [← heq] at hlast
    rw [hsame.key]
    exact hlast.symm

theorem LastWins.upserts {idempotencyKey : String} (nodes : List (Origin × MemoryNode)) :
    ∀ {rows : List MemoryRow} {log : List (Origin × MemoryNode)}, LastWins rows log →
      LastWins ((nodes.map Prod.snd).foldl
        (fun rows node => upsertMemory rows node idempotencyKey) rows) (log ++ nodes) := by
  induction nodes with
  | nil =>
    intro rows log h
    simpa using h
  | cons entry nodes ih =>
    intro rows log h
    have hnext := ih (h.upsert idempotencyKey entry.1 entry.2)
    rw [List.append_assoc] at hnext
    exact hnext

/-! ## What an accepted call does to the memories -/

theorem writeNodes_memories {source : MemorySourceRecord} (nodes : List MemoryNode) :
    ∀ {db db' : Database}, StoreInv db → nodes.foldlM (writeNode source) db = .ok db' →
      db'.memories = nodes.foldl (fun rows node => upsertMemory rows node source.idempotencyKey)
        db.memories := by
  induction nodes with
  | nil =>
    intro db db' _ h
    cases h
    rfl
  | cons node nodes ih =>
    intro db db' hinv h
    rw [List.foldlM_cons] at h
    obtain ⟨mid, hnode, hrest⟩ := bind_eq_ok h
    rw [ih (hinv.writeNode hnode) hrest, List.foldl_cons]
    rw [writeNode_eq hinv.named, Except.ok.injEq] at hnode
    rw [← hnode]

theorem write_memories {call : UpsertCall} {db db' : Database} (hinv : StoreInv db)
    (h : call.write db = .ok db') :
    db'.memories = call.nodes.foldl
      (fun rows node => upsertMemory rows node call.source.idempotencyKey) db.memories := by
  obtain ⟨mid, hnodes, hedges⟩ := bind_eq_ok h
  rw [← writeNodes_memories call.nodes hinv hnodes]
  refine @foldlM_invariant _ _ _ (fun d : Database => d.memories = mid.memories) _ ?_ _ _ _ rfl
    hedges
  intro d edge d' hd hedge
  obtain ⟨_, rfl⟩ := writeEdge_tables hedge
  exact hd

theorem persistStep_cases (sha256 : List UInt8 → List UInt8) (repo : String) (hinv : StoreInv s.db)
    (event : PersistEvent) :
    (persistStep sha256 repo s event = s) ∨
      ∃ w, event.call.writeback sha256 event.env = some w ∧
        (w.request event.env repo).validate = .ok () ∧
        (persistStep sha256 repo s event).db.memories = (w.nodes.map Prod.snd).foldl
          (fun rows node => upsertMemory rows node w.source.idempotencyKey) s.db.memories ∧
        (persistStep sha256 repo s event).log = s.log ++ w.nodes := by
  unfold persistStep PersistCall.exec PersistEvent.writes
  cases hw : event.call.writeback sha256 event.env with
  | none => exact .inl rfl
  | some w =>
    dsimp only
    rcases (w.request event.env repo).exec_cases s.db with
      ⟨hsame, hnot⟩ | ⟨recorded, written, hvalid, hsource, hwrite, hexec⟩
    · left
      rw [hsame]
      split
      · next heq => exact absurd heq hnot
      · rfl
    · right
      refine ⟨w, rfl, hvalid, ?_, by rw [hexec]⟩
      have hstart : StoreInv recorded := by
        rw [insertSource_tables hsource]
        exact ⟨hinv.consistent.of_tables rfl rfl rfl rfl, hinv.named⟩
      rw [hexec]
      refine (write_memories hstart hwrite).trans ?_
      rw [insertSource_tables hsource]
      rfl

theorem storeInv_persistStep (sha256 : List UInt8 → List UInt8) (repo : String) (h : StoreInv s.db)
    (event : PersistEvent) : StoreInv (persistStep sha256 repo s event).db := by
  have hexec : StoreInv (event.call.exec sha256 event.env repo s.db).1 := by
    unfold PersistCall.exec
    split
    · exact h
    · exact UpsertCall.storeInv_exec _ h
  exact hexec

/-! ## What can be stored -/

/-- The repository's own id, and for an output the run's and the step's, are not
blank: validation lets the memory through. -/
def Storable (repo : String) (origin : Origin) : Prop :=
  Text.isBlank repo.toList = false ∧
    match origin with
    | .output runId stepId _ => Text.isBlank runId.toList = false ∧ Text.isBlank stepId.toList = false
    | _ => True

theorem requireField_ok {field value : String} (h : requireField field value = .ok ()) :
    Text.isBlank value.toList = false := by
  unfold requireField at h
  split at h
  · cases h
  · next hblank => exact Bool.not_eq_true _ ▸ hblank

theorem validateNodes_ok {call : UpsertCall} : ∀ {nodes : List MemoryNode},
    call.validateNodes nodes = .ok () → ∀ node ∈ nodes,
      node.validate call.canonicalize = .ok () ∧ node.orchestratorId = call.orchestratorId
  | [], _, node, hnode => by cases hnode
  | head :: nodes, h, node, hnode => by
      obtain ⟨_, hvalid, h⟩ := bind_eq_ok h
      obtain ⟨_, hscope, hrest⟩ := bind_eq_ok h
      rcases List.mem_cons.mp hnode with rfl | hnode
      · refine ⟨mapError_eq_ok hvalid, ?_⟩
        unfold UpsertCall.ensureScope at hscope
        split at hscope
        · assumption
        · cases hscope
      · exact validateNodes_ok hrest node hnode

theorem writeback_node {env : WritebackEnv} {call : PersistCall} {w : Writeback}
    (h : call.writeback sha256 env = some w) {origin : Origin} (hmem : (origin, node) ∈ w.nodes) :
    node.memoryId = origin.memoryId sha256 ∧
      ∀ runId stepId key, origin = .output runId stepId key →
        node.source.sourceType = .workflowOutput ∧ node.source.workflowRunId = some runId ∧
          node.source.stepId = some stepId := by
  cases call with
  | transcript orchestratorId messageId conversationId transcriptText capturedAt =>
    simp only [PersistCall.writeback, persistTranscriptObservation] at h
    split at h
    · cases h
    · cases h
      simp only [List.mem_singleton, Prod.mk.injEq] at hmem
      obtain ⟨rfl, rfl⟩ := hmem
      exact ⟨rfl, by simp⟩
  | outputs input =>
    simp only [PersistCall.writeback, persistWorkflowOutputMemories] at h
    split at h
    · cases h
    · cases h
      obtain ⟨output, _, hnode⟩ := List.mem_filterMap.mp hmem
      unfold outputNode at hnode
      dsimp only at hnode
      split at hnode
      · cases hnode
      · cases hnode
        refine ⟨rfl, ?_⟩
        rintro runId stepId key heq
        cases heq
        exact ⟨rfl, rfl, rfl⟩
  | findings input =>
    simp only [PersistCall.writeback, persistDiagnosticsFindings] at h
    split at h
    · cases h
    · cases h
      simp only [List.mem_singleton, Prod.mk.injEq] at hmem
      obtain ⟨rfl, rfl⟩ := hmem
      exact ⟨rfl, by simp⟩

theorem storable_of_accepted {env : WritebackEnv} {call : PersistCall} {w : Writeback}
    (h : call.writeback sha256 env = some w) (hvalid : (w.request env repo).validate = .ok ())
    {origin : Origin} (hmem : (origin, node) ∈ w.nodes) :
    Storable repo origin ∧ node.key = (repo, origin.memoryId sha256) := by
  obtain ⟨_, _, hvalid⟩ := bind_eq_ok hvalid
  obtain ⟨_, hnodes, _⟩ := bind_eq_ok hvalid
  obtain ⟨hnode, hscope⟩ := validateNodes_ok hnodes node (List.mem_map.mpr ⟨_, hmem, rfl⟩)
  have hscope : node.orchestratorId = repo := hscope
  obtain ⟨hid, hsource⟩ := writeback_node h hmem
  obtain ⟨_, _, hnode⟩ := bind_eq_ok hnode
  obtain ⟨_, horch, hnode⟩ := bind_eq_ok hnode
  obtain ⟨_, _, hnode⟩ := bind_eq_ok hnode
  obtain ⟨_, _, hnode⟩ := bind_eq_ok hnode
  obtain ⟨_, _, hnode⟩ := bind_eq_ok hnode
  obtain ⟨_, _, hnode⟩ := bind_eq_ok hnode
  obtain ⟨_, _, hfields⟩ := bind_eq_ok hnode
  refine ⟨⟨hscope ▸ requireField_ok horch, ?_⟩, by rw [MemoryNode.key, hscope, hid]⟩
  cases origin with
  | message _ => trivial
  | diagnostics _ => trivial
  | output runId stepId key =>
    obtain ⟨htype, hrun, hstep⟩ := hsource runId stepId key rfl
    simp only [MemorySource.validateFields, htype, hrun, hstep, blankOrMissing,
      Option.all_some] at hfields
    split at hfields
    · cases hfields
    · next hrunBlank =>
        split at hfields
        · cases hfields
        · next hstepBlank => exact ⟨by simpa using hrunBlank, by simpa using hstepBlank⟩

/-! ## Kept memories -/

/-- Digests that tell the storable origins of `O` apart. -/
def DigestsDiffer (sha256 : List UInt8 → List UInt8) (repo : String) (O : Set Origin) : Prop :=
  ∀ o ∈ O, ∀ o' ∈ O, Storable repo o → Storable repo o' → o ≠ o' → o.kind = o'.kind →
    digestHead sha256 (hashInput o.kind o.parts) ≠ digestHead sha256 (hashInput o'.kind o'.parts)

/-- What holds of the log after every history of writes for origins of `O`. -/
structure LogInv (sha256 : List UInt8 → List UInt8) (repo : String) (O : Set Origin)
    (s : WritebackState) : Prop where
  store : StoreInv s.db
  lastWins : LastWins s.db.memories s.log
  origins : ∀ entry ∈ s.log,
    entry.1 ∈ O ∧ Storable repo entry.1 ∧ entry.2.key = (repo, entry.1.memoryId sha256)

theorem LogInv.step {O : Set Origin} (h : LogInv sha256 repo O s) {event : PersistEvent}
    (hO : ∀ entry ∈ event.writes sha256, entry.1 ∈ O) :
    LogInv sha256 repo O (persistStep sha256 repo s event) := by
  have hstore := storeInv_persistStep sha256 repo h.store event
  rcases persistStep_cases sha256 repo h.store event with
    hsame | ⟨w, hw, hvalid, hmemories, hlog⟩
  · rwa [hsame]
  · refine ⟨hstore, ?_, ?_⟩
    · rw [hmemories, hlog]
      exact h.lastWins.upserts w.nodes
    · intro entry hentry
      rw [hlog] at hentry
      rcases List.mem_append.mp hentry with hentry | hentry
      · exact h.origins entry hentry
      · have hwrites : event.writes sha256 = w.nodes := by simp [PersistEvent.writes, hw]
        obtain ⟨hstorable, hkey⟩ := storable_of_accepted hw hvalid hentry
        exact ⟨hO entry (hwrites ▸ hentry), hstorable, hkey⟩

theorem logInv_persisted (sha256 : List UInt8 → List UInt8) (repo : String) (O : Set Origin)
    {events : List PersistEvent} (hO : ∀ event ∈ events, ∀ entry ∈ event.writes sha256, entry.1 ∈ O) :
    LogInv sha256 repo O (persisted sha256 repo events) := by
  have hempty : LogInv sha256 repo O {} :=
    ⟨storeInv_empty, fun _ _ _ _ h => by simp at h, by simp⟩
  have hmeets : Meets (persistStep sha256 repo)
      (fun _ event => ∀ entry ∈ event.writes sha256, entry.1 ∈ O) {} events :=
    meets_of_invariant (I := fun _ => True) (fun _ event hevent _ => ⟨hO event hevent, trivial⟩)
      trivial
  exact run_invariant (fun _ _ h hok => h.step hok) hempty hmeets

theorem LogInv.kept {O : Set Origin} (h : LogInv sha256 repo O s)
    (hdiffer : DigestsDiffer sha256 repo O) : Kept s := by
  intro before origin node after hlog hafter
  refine h.lastWins before origin node after hlog fun later hlater hkey => ?_
  have hmem : later ∈ s.log := by simp [hlog, hlater]
  have hmem' : (origin, node) ∈ s.log := by simp [hlog]
  obtain ⟨hO, hst, hid⟩ := h.origins later hmem
  obtain ⟨hO', hst', hid'⟩ := h.origins _ hmem'
  rw [hid, hid'] at hkey
  have hids := (Prod.mk.injEq _ _ _ _ ▸ hkey : _ ∧ _).2
  have hkind := memoryId_kind hids
  refine hdiffer later.1 hO origin hO' hst hst' (hafter later hlater) hkind ?_
  rw [Origin.memoryId, Origin.memoryId, ← hkind] at hids
  rw [compactMemoryId_eq_iff.mp hids, hkind]

/-! ## No write replaces another origin's memory -/

/-- The origins that a history of calls writes memories for. -/
def writtenOrigins (sha256 : List UInt8 → List UInt8) (events : List PersistEvent) : Set Origin :=
  {origin | ∃ event ∈ events, ∃ entry ∈ event.writes sha256, entry.1 = origin}

/-- Whatever is written in whatever order, the memory of one message, one output or one
diagnostics run is never replaced by a write for another, if the digests of those
written differ in their first three bytes. -/
theorem memories_of_origins_kept (sha256 : List UInt8 → List UInt8) (repo : String)
    (events : List PersistEvent)
    (hdiffer : DigestsDiffer sha256 repo (writtenOrigins sha256 events)) :
    Kept (persisted sha256 repo events) := by
  refine (logInv_persisted sha256 repo (writtenOrigins sha256 events) ?_).kept hdiffer
  intro event hevent entry hentry
  exact ⟨event, hevent, entry, hentry, rfl⟩

def observed (messageId text : String) : PersistEvent :=
  { call := .transcript "eng" messageId "C100" text 1700000000
    env := { toText := fun _ => "", canonicalize := fun _ => none, isFile := fun _ => false
             now := 1700000000 } }

def twoMessages : List PersistEvent :=
  [observed "slack-main-C100-1700000000_000001" "ship on friday",
    observed "slack-main-C100-1700000000_000002" "use the staging host"]

theorem twoMessages_writes {event : PersistEvent} (hevent : event ∈ twoMessages) :
    (event.writes Sha256.digest).map Prod.fst =
        [.message "slack-main-C100-1700000000_000001"] ∨
      (event.writes Sha256.digest).map Prod.fst =
        [.message "slack-main-C100-1700000000_000002"] := by
  simp only [twoMessages, List.mem_cons, List.not_mem_nil, or_false] at hevent
  rcases hevent with rfl | rfl
  · left; decide
  · right; decide

theorem memories_of_origins_kept_twoMessages :
    Kept (persisted Sha256.digest "eng" twoMessages) := by
  refine memories_of_origins_kept Sha256.digest "eng" twoMessages ?_
  have hone : ∀ o ∈ writtenOrigins Sha256.digest twoMessages,
      o = .message "slack-main-C100-1700000000_000001" ∨
        o = .message "slack-main-C100-1700000000_000002" := by
    rintro o ⟨event, hevent, entry, hentry, rfl⟩
    have hmem := List.mem_map_of_mem (f := Prod.fst) hentry
    rcases twoMessages_writes hevent with hwrites | hwrites
    · rw [hwrites] at hmem
      exact .inl (List.mem_singleton.mp hmem)
    · rw [hwrites] at hmem
      exact .inr (List.mem_singleton.mp hmem)
  intro o ho o' ho' _ _ hne _
  rcases hone o ho with rfl | rfl <;> rcases hone o' ho' with rfl | rfl
  · exact absurd rfl hne
  · decide +kernel
  · decide +kernel
  · exact absurd rfl hne

/-- Two messages of one conversation under one id. -/
def collidingMessages : List PersistEvent :=
  [observed "slack-main-C100-1700000000_002598" "ship on friday",
    observed "slack-main-C100-1700000000_003922" "use the staging host"]

/-- The second observation replaces the first. -/
theorem memory_replaced :
    (persisted Sha256.digest "eng" collidingMessages).log.map Prod.fst =
        [.message "slack-main-C100-1700000000_002598",
          .message "slack-main-C100-1700000000_003922"] ∧
      (persisted Sha256.digest "eng" collidingMessages).db.memories.map
          (fun row => (row.node.memoryId, row.node.content)) =
        [("t-649391", "use the staging host")] ∧
      ¬ Kept (persisted Sha256.digest "eng" collidingMessages) := by
  have hlog : (persisted Sha256.digest "eng" collidingMessages).log.map
      (fun entry => (entry.1, entry.2.content)) =
        [(.message "slack-main-C100-1700000000_002598", "ship on friday"),
          (.message "slack-main-C100-1700000000_003922", "use the staging host")] := by
    decide +kernel
  have hrows : (persisted Sha256.digest "eng" collidingMessages).db.memories.map
      (fun row => (row.node.memoryId, row.node.content)) =
        [("t-649391", "use the staging host")] := by
    decide +kernel
  refine ⟨?_, hrows, ?_⟩
  · have hfst := congrArg (List.map Prod.fst) hlog
    rw [List.map_map] at hfst
    exact hfst
  · intro hkept
    obtain ⟨first, rest, hsplit, hfirst, hrest⟩ := List.map_eq_cons_iff.mp hlog
    obtain ⟨second, tail, hsplit', hsecond, htail⟩ := List.map_eq_cons_iff.mp hrest
    obtain rfl : tail = [] := List.map_eq_nil_iff.mp htail
    subst hsplit'
    obtain ⟨row, hrow, hsame⟩ := hkept [] first.1 first.2 [second] hsplit (by
      intro later hlater
      obtain rfl := List.mem_singleton.mp hlater
      rw [congrArg Prod.fst hsecond, congrArg Prod.fst hfirst]
      decide)
    have hcontent : row.node.content = first.2.content := by rw [hsame]
    have hmem := List.mem_map_of_mem (f := fun row : MemoryRow =>
      (row.node.memoryId, row.node.content)) hrow
    rw [hrows, List.mem_singleton] at hmem
    have hfound := congrArg Prod.snd hmem
    rw [hcontent, congrArg Prod.snd hfirst] at hfound
    exact absurd hfound (by decide)

end Direclaw.Memory
