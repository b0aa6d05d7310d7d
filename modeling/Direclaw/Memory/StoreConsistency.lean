import Direclaw.Lib.Fallible
import Direclaw.Memory.Repository

/-!
# The derived tables follow the memories

The search tables hold, for every stored memory, what is derived from its current
row, and nothing else. The invariant speaks about one key at a time, so the
statements for a node need no case distinction on the other memories; it also says
how span ids are made, which is why inserting the spans of a node never fails.
-/

namespace Direclaw.Memory

open Direclaw.Lib

/-! ## Span ids -/

theorem spanId_inj {m m' : String} {n n' : ℕ} (h : spanId m n = spanId m' n') : m = m' ∧ n = n' := by
  have hsplit : ∀ (m : String) (n : ℕ),
      spanId m n = (m.toList ++ [':']) ++ 's' :: Text.decimal n := by simp [spanId]
  have hseq : Text.decimal n = Text.decimal n' := by
    rw [hsplit, hsplit] at h
    exact Text.suffix_unique (Text.not_mem_decimal (by decide) n)
      (Text.not_mem_decimal (by decide) n') h
  refine ⟨String.toList_inj.mp ?_, Text.decimal_injective hseq⟩
  rw [spanId, spanId, hseq] at h
  exact List.append_cancel_right h

/-! ## The tables -/

def MemoryRow.key (row : MemoryRow) : MemoryKey := row.node.key

/-- What the derived tables should hold for a memory. -/
structure Derived (db : Database) (node : MemoryNode) : Prop where
  fts : db.fts.filter (·.key == node.key) = [ftsRow node]
  spans : db.spans.filter (·.key == node.key) = (nodeSpans node).map (spanRow node)
  spanFts : db.spanFts.filter (·.key == node.key) = (nodeSpans node).map (spanFtsRow node)

/-- Every memory has its derived rows, no derived row is without its memory, and no
two memories have one key. -/
structure Consistent (db : Database) : Prop where
  keys : (db.memories.map MemoryRow.key).Nodup
  derived : ∀ row ∈ db.memories, Derived db row.node
  fts : ∀ row ∈ db.fts, db.hasMemory row.key
  spans : ∀ row ∈ db.spans, db.hasMemory row.key
  spanFts : ∀ row ∈ db.spanFts, db.hasMemory row.key

/-- How the ids of stored spans are made. -/
def SpansNamed (db : Database) : Prop :=
  ∀ row ∈ db.spans, row.spanId = spanId row.key.2 row.span.seq

variable {db db' : Database} {node : MemoryNode} {source : MemorySourceRecord}

theorem hasMemory_iff {key : MemoryKey} :
    db.hasMemory key = true ↔ ∃ row ∈ db.memories, row.key = key := by
  simp [Database.hasMemory, MemoryRow.key]

/-! ## One node -/

theorem insertSpan_eq {node : MemoryNode} {db : Database} {span : ContentSpan}
    (hmem : db.hasMemory node.key)
    (hfresh : ∀ row ∈ db.spans,
      ¬ (row.key.1 = node.key.1 ∧ row.spanId = spanId node.memoryId span.seq)) :
    insertSpan node db span = .ok { db with
      spans := db.spans ++ [spanRow node span]
      spanFts := db.spanFts ++ [spanFtsRow node span] } := by
  have hany : (db.spans.any fun r =>
      r.key.1 == (spanRow node span).key.1 && r.spanId == (spanRow node span).spanId) = false := by
    rw [List.any_eq_false]
    intro row hrow h
    rw [Bool.and_eq_true, beq_iff_eq, beq_iff_eq] at h
    exact hfresh row hrow h
  simp only [insertSpan, hmem, hany]
  rfl

theorem insertSpans_eq (spans : List ContentSpan) : ∀ {db : Database},
    db.hasMemory node.key →
    (∀ span ∈ spans, ∀ row ∈ db.spans,
      ¬ (row.key.1 = node.key.1 ∧ row.spanId = spanId node.memoryId span.seq)) →
    (spans.map (·.seq)).Nodup →
      spans.foldlM (insertSpan node) db = .ok { db with
        spans := db.spans ++ spans.map (spanRow node)
        spanFts := db.spanFts ++ spans.map (spanFtsRow node) } := by
  induction spans with
  | nil =>
    intro db _ _ _
    simp [pure, Except.pure]
  | cons span spans ih =>
    intro db hmem hfresh hseq
    obtain ⟨hhead, htail⟩ := List.nodup_cons.mp hseq
    rw [List.foldlM_cons, insertSpan_eq hmem (hfresh span (by simp))]
    show List.foldlM (insertSpan node) _ spans = _
    have hmem' : Database.hasMemory { db with
        spans := db.spans ++ [spanRow node span]
        spanFts := db.spanFts ++ [spanFtsRow node span] } node.key := hmem
    rw [ih hmem' ?_ htail]
    · simp
    · intro other hother row hrow hclash
      rcases List.mem_append.mp hrow with hrow | hrow
      · exact hfresh other (by simp [hother]) row hrow hclash
      · rw [List.mem_singleton] at hrow
        have hid : spanId node.memoryId span.seq = spanId node.memoryId other.seq := by
          rw [hrow] at hclash
          exact hclash.2
        exact hhead (List.mem_map.mpr ⟨other, hother, ((spanId_inj hid).2).symm⟩)

theorem mem_upsertMemory {rows : List MemoryRow} {idempotencyKey : String} {row : MemoryRow}
    (h : row ∈ upsertMemory rows node idempotencyKey) :
    (row ∈ rows ∧ row.key ≠ node.key) ∨ ∃ createdAt, row.node = { node with createdAt } := by
  unfold upsertMemory at h
  split at h
  · obtain ⟨old, hold, rfl⟩ := List.mem_map.mp h
    by_cases hkey : old.node.key = node.key
    · exact .inr ⟨old.node.createdAt, by simp [hkey, MemoryRow.update]⟩
    · left
      simpa [hkey, MemoryRow.key] using hold
  · next hnew =>
      rcases List.mem_append.mp h with hrow | hrow
      · refine .inl ⟨hrow, fun hkey => hnew ?_⟩
        exact List.any_eq_true.mpr ⟨row, hrow, by simpa [MemoryRow.key] using hkey⟩
      · rw [List.mem_singleton] at hrow
        exact .inr ⟨node.createdAt, by rw [hrow]⟩

theorem upsertMemory_keys (rows : List MemoryRow) (node : MemoryNode) (idempotencyKey : String) :
    (upsertMemory rows node idempotencyKey).map MemoryRow.key =
      if node.key ∈ rows.map MemoryRow.key then rows.map MemoryRow.key
      else rows.map MemoryRow.key ++ [node.key] := by
  have hany : (rows.any fun row => row.node.key == node.key) = true ↔
      node.key ∈ rows.map MemoryRow.key := by
    simp [List.any_eq_true, MemoryRow.key]
  unfold upsertMemory
  by_cases h : node.key ∈ rows.map MemoryRow.key
  · rw [if_pos (hany.mpr h), if_pos h, List.map_map]
    apply List.map_congr_left
    intro row _
    by_cases hkey : row.node.key = node.key
    · simp only [Function.comp_apply, hkey, beq_self_eq_true, if_true, MemoryRow.key,
        MemoryRow.update]
      rfl
    · simp [MemoryRow.key, hkey]
  · rw [if_neg (mt hany.mp h), if_neg h, List.map_append]
    rfl

theorem hasMemory_iff_mem {key : MemoryKey} :
    db.hasMemory key = true ↔ key ∈ db.memories.map MemoryRow.key := by
  simp [hasMemory_iff]

theorem hasMemory_upsert (db : Database) (node : MemoryNode) (idempotencyKey : String)
    (key : MemoryKey) :
    Database.hasMemory { db with memories := upsertMemory db.memories node idempotencyKey } key ↔
      key = node.key ∨ db.hasMemory key := by
  rw [hasMemory_iff_mem, hasMemory_iff_mem]
  show key ∈ (upsertMemory db.memories node idempotencyKey).map MemoryRow.key ↔ _
  rw [upsertMemory_keys]
  split
  · next hmem => exact ⟨.inr, fun h => h.elim (fun heq => heq ▸ hmem) id⟩
  · simp [or_comm]

/-- The tables after the statements for one node, which never fail. -/
theorem writeNode_eq (hnamed : SpansNamed db) (source : MemorySourceRecord) (node : MemoryNode) :
    writeNode source db node = .ok { db with
      memories := upsertMemory db.memories node source.idempotencyKey
      fts := db.fts.filter (fun row : FtsRow => row.key != node.key) ++ [ftsRow node]
      spans := db.spans.filter (fun row : SpanRow => row.key != node.key) ++
        (nodeSpans node).map (spanRow node)
      spanFts := db.spanFts.filter (fun row : SpanFtsRow => row.key != node.key) ++
        (nodeSpans node).map (spanFtsRow node) } := by
  refine insertSpans_eq (nodeSpans node) ?_ ?_ ?_
  · exact (hasMemory_upsert db node _ node.key).mpr (.inl rfl)
  · intro span _ row hrow ⟨horch, hid⟩
    obtain ⟨hrow, hkey⟩ := List.mem_filter.mp hrow
    have hmemory : row.key.2 = node.memoryId := by
      rw [hnamed row hrow] at hid
      exact (spanId_inj hid).1
    have heq : row.key = node.key := Prod.ext horch hmemory
    simp [heq] at hkey
  · rw [nodeSpans, splitContentIntoSpans_seq]
    exact List.nodup_range'

/-! ### Replacing the rows of one key -/

section Replace

variable {α : Type*} (f : α → MemoryKey) {key key' : MemoryKey} (rows : List α) {new : List α}

theorem filter_replaced (hnew : ∀ x ∈ new, f x = key) :
    (rows.filter (fun x => f x != key) ++ new).filter (fun x => f x == key) = new := by
  have hold : (rows.filter fun x => f x == key && f x != key) = [] := by
    rw [List.filter_eq_nil_iff]
    intro x _ h
    simp at h
  have hall : new.filter (fun x => f x == key) = new :=
    List.filter_eq_self.mpr fun x hx => by simp [hnew x hx]
  rw [List.filter_append, List.filter_filter, hold, hall, List.nil_append]

theorem filter_kept (hnew : ∀ x ∈ new, f x = key) (hne : key' ≠ key) :
    (rows.filter (fun x => f x != key) ++ new).filter (fun x => f x == key') =
      rows.filter (fun x => f x == key') := by
  have hdrop : new.filter (fun x => f x == key') = [] := by
    rw [List.filter_eq_nil_iff]
    intro x hx h
    rw [hnew x hx, beq_iff_eq] at h
    exact hne h.symm
  rw [List.filter_append, List.filter_filter, hdrop, List.append_nil]
  apply List.filter_congr
  intro x _
  by_cases hx : f x = key' <;> simp [hx, hne]

theorem mem_replaced (hnew : ∀ x ∈ new, f x = key) {x : α}
    (hx : x ∈ rows.filter (fun x => f x != key) ++ new) : f x = key ∨ x ∈ rows := by
  rcases List.mem_append.mp hx with hx | hx
  · exact .inr (List.mem_filter.mp hx).1
  · exact .inl (hnew x hx)

end Replace

/-- **The statements for a node keep the store consistent.** -/
theorem Consistent.writeNode (h : Consistent db) (hnamed : SpansNamed db)
    (hw : writeNode source db node = .ok db') : Consistent db' ∧ SpansNamed db' := by
  rw [writeNode_eq hnamed, Except.ok.injEq] at hw
  subst hw
  have hfts : ∀ x ∈ [ftsRow node], x.key = node.key := by simp [ftsRow]
  have hspans : ∀ x ∈ (nodeSpans node).map (spanRow node), x.key = node.key := by simp [spanRow]
  have hspanFts : ∀ x ∈ (nodeSpans node).map (spanFtsRow node), x.key = node.key := by
    simp [spanFtsRow]
  have hmem : ∀ {key : MemoryKey}, key = node.key ∨ db.hasMemory key →
      key ∈ (upsertMemory db.memories node source.idempotencyKey).map MemoryRow.key := by
    intro key hkey
    exact hasMemory_iff_mem.mp ((hasMemory_upsert db node source.idempotencyKey key).mpr hkey)
  refine ⟨⟨?_, ?_, ?_, ?_, ?_⟩, ?_⟩
  · show ((upsertMemory db.memories node source.idempotencyKey).map MemoryRow.key).Nodup
    rw [upsertMemory_keys]
    split
    · exact h.keys
    · next hnew => exact List.nodup_append.mpr ⟨h.keys, by simp, by simpa using hnew⟩
  · intro row hrow
    rcases mem_upsertMemory hrow with ⟨hold, hne⟩ | ⟨createdAt, hnode⟩
    · -- another memory: none of its rows is touched
      obtain ⟨hf, hs, hsf⟩ := h.derived row hold
      exact ⟨(filter_kept _ _ hfts hne).trans hf, (filter_kept _ _ hspans hne).trans hs,
        (filter_kept _ _ hspanFts hne).trans hsf⟩
    · rw [hnode]
      exact ⟨filter_replaced _ _ hfts, filter_replaced _ _ hspans, filter_replaced _ _ hspanFts⟩
  · intro row hrow
    exact hasMemory_iff_mem.mpr (hmem ((mem_replaced _ _ hfts hrow).imp_right (h.fts row)))
  · intro row hrow
    exact hasMemory_iff_mem.mpr (hmem ((mem_replaced _ _ hspans hrow).imp_right (h.spans row)))
  · intro row hrow
    exact hasMemory_iff_mem.mpr (hmem ((mem_replaced _ _ hspanFts hrow).imp_right (h.spanFts row)))
  · intro row hrow
    rcases List.mem_append.mp hrow with hrow | hrow
    · exact hnamed row (List.mem_filter.mp hrow).1
    · obtain ⟨span, _, rfl⟩ := List.mem_map.mp hrow
      rfl

/-! ## A call -/

/-- The invariant of the store. -/
structure StoreInv (db : Database) : Prop where
  consistent : Consistent db
  named : SpansNamed db

theorem Consistent.of_tables {db db' : Database} (h : Consistent db)
    (hm : db'.memories = db.memories) (hf : db'.fts = db.fts) (hs : db'.spans = db.spans)
    (hsf : db'.spanFts = db.spanFts) : Consistent db' := by
  have hmem : ∀ key, db'.hasMemory key = db.hasMemory key := by
    intro key
    rw [Database.hasMemory, hm, Database.hasMemory]
  refine ⟨hm ▸ h.keys, fun row hrow => ?_, fun row hrow => ?_, fun row hrow => ?_,
    fun row hrow => ?_⟩
  · obtain ⟨h₁, h₂, h₃⟩ := h.derived row (hm ▸ hrow)
    exact ⟨hf ▸ h₁, hs ▸ h₂, hsf ▸ h₃⟩
  · rw [hmem]
    exact h.fts row (hf ▸ hrow)
  · rw [hmem]
    exact h.spans row (hs ▸ hrow)
  · rw [hmem]
    exact h.spanFts row (hsf ▸ hrow)

theorem writeEdge_tables {orchestratorId : String} {edge : MemoryEdge}
    (h : writeEdge orchestratorId db edge = .ok db') : ∃ edges, db' = { db with edges } := by
  unfold writeEdge at h
  split at h
  · cases h
    exact ⟨_, rfl⟩
  · cases h

theorem StoreInv.writeNode {source : MemorySourceRecord} {db db' : Database} {node : MemoryNode}
    (h : StoreInv db) (hw : Memory.writeNode source db node = .ok db') : StoreInv db' :=
  let ⟨hconsistent, hnamed⟩ := h.consistent.writeNode h.named hw
  ⟨hconsistent, hnamed⟩

theorem StoreInv.writeEdge {orchestratorId : String} {edge : MemoryEdge} (h : StoreInv db)
    (hw : Memory.writeEdge orchestratorId db edge = .ok db') : StoreInv db' := by
  obtain ⟨edges, rfl⟩ := writeEdge_tables hw
  exact ⟨h.consistent.of_tables rfl rfl rfl rfl, h.named⟩

theorem insertSource_tables {now : Int64} (h : insertSource db source now = some db') :
    db' = { db with sources := db.sources ++ [{ source, processedAt := now }] } := by
  unfold insertSource at h
  split at h
  · cases h
  · cases h
    rfl

namespace UpsertCall

/-- What a call does: nothing, or everything. -/
theorem exec_cases (call : UpsertCall) (db : Database) :
    ((call.exec db).1 = db ∧ (call.exec db).2 ≠ .ok .inserted) ∨
      ∃ recorded written, call.validate = .ok () ∧
        insertSource db call.source call.now = some recorded ∧
        call.write recorded = .ok written ∧ call.exec db = (written, .ok .inserted) := by
  unfold exec
  split
  · exact .inl ⟨rfl, by simp⟩
  · next hvalid =>
      split
      · exact .inl ⟨rfl, by simp⟩
      · next recorded hsource =>
          split
          · exact .inl ⟨rfl, by simp⟩
          · next written hwrite => exact .inr ⟨recorded, written, hvalid, hsource, hwrite, rfl⟩

variable {db db' : Database} {call : UpsertCall}

theorem storeInv_exec (call : UpsertCall) (h : StoreInv db) : StoreInv (call.exec db).1 := by
  rcases call.exec_cases db with ⟨hsame, -⟩ | ⟨recorded, written, -, hsource, hwrite, hexec⟩
  · rwa [hsame]
  · rw [hexec]
    rw [insertSource_tables hsource] at hwrite
    obtain ⟨nodesWritten, hnodes, hedges⟩ := bind_eq_ok hwrite
    have hstart : StoreInv { db with
        sources := db.sources ++ [{ source := call.source, processedAt := call.now }] } :=
      ⟨h.consistent.of_tables rfl rfl rfl rfl, h.named⟩
    have hmid := foldlM_invariant (fun _ _ _ h hw => StoreInv.writeNode h hw) hstart hnodes
    exact foldlM_invariant (fun _ _ _ h hw => StoreInv.writeEdge h hw) hmid hedges

/-! ### Replays -/

/-- The same request, made at another time. -/
def Replays (call earlier : UpsertCall) : Prop :=
  call.orchestratorId = earlier.orchestratorId ∧ call.source = earlier.source ∧
    call.nodes = earlier.nodes ∧ call.edges = earlier.edges

/-- The source of the call is recorded. -/
def Recorded (source : MemorySourceRecord) (db : Database) : Prop :=
  ∃ row ∈ db.sources, row.source.orchestratorId = source.orchestratorId ∧
    row.source.idempotencyKey = source.idempotencyKey

theorem insertSource_eq_none_iff {now : Int64} :
    insertSource db source now = none ↔ Recorded source db := by
  unfold insertSource Recorded
  split
  · next h => simpa using h
  · next h => simpa using h

theorem insertSpan_sources {node : MemoryNode} {span : ContentSpan}
    (h : insertSpan node db span = .ok db') : db'.sources = db.sources := by
  unfold insertSpan at h
  dsimp only at h
  split at h
  · cases h
  split at h
  · cases h
  · cases h
    rfl

theorem writeNode_sources {source : MemorySourceRecord} {db db' : Database} {node : MemoryNode}
    (h : writeNode source db node = .ok db') : db'.sources = db.sources :=
  @foldlM_invariant _ _ _ (fun d : Database => d.sources = db.sources) (insertSpan node)
    (fun _ _ _ hd hspan => (insertSpan_sources hspan).trans hd) (nodeSpans node) _ _ (by rfl) h

theorem writeEdge_sources {orchestratorId : String} {edge : MemoryEdge}
    (h : writeEdge orchestratorId db edge = .ok db') : db'.sources = db.sources := by
  obtain ⟨_, rfl⟩ := writeEdge_tables h
  rfl

theorem write_sources (h : call.write db = .ok db') : db'.sources = db.sources := by
  obtain ⟨mid, hnodes, hedges⟩ := bind_eq_ok h
  have hmid : mid.sources = db.sources :=
    @foldlM_invariant _ _ _ (fun d : Database => d.sources = db.sources) _
      (fun _ _ _ hd hnode => (writeNode_sources hnode).trans hd) _ _ _ rfl hnodes
  exact @foldlM_invariant _ _ _ (fun d : Database => d.sources = db.sources) _
    (fun _ _ _ hd hedge => (writeEdge_sources hedge).trans hd) _ _ _ hmid hedges

theorem recorded_of_ok {call : UpsertCall} {db : Database} {outcome : PersistOutcome}
    (h : (call.exec db).2 = .ok outcome) : Recorded call.source (call.exec db).1 := by
  rcases call.exec_cases db with ⟨hsame, hnot⟩ | ⟨recorded, written, -, hsource, hwrite, hexec⟩
  · have hduplicate : insertSource db call.source call.now = none := by
      unfold exec at h hnot
      split at h
      · cases h
      · split at h
        · next hnone => exact hnone
        · split at h
          · cases h
          · next hwritten => simp_all
    rw [hsame]
    exact insertSource_eq_none_iff.mp hduplicate
  · rw [hexec, Recorded, write_sources hwrite, insertSource_tables hsource]
    exact ⟨{ source := call.source, processedAt := call.now }, by simp, rfl, rfl⟩

theorem recorded_exec {source : MemorySourceRecord} {db : Database} (call : UpsertCall)
    (h : Recorded source db) : Recorded source (call.exec db).1 := by
  rcases call.exec_cases db with ⟨hsame, -⟩ | ⟨recorded, written, -, hsource, hwrite, hexec⟩
  · rwa [hsame]
  · obtain ⟨row, hrow, hkey⟩ := h
    rw [hexec, Recorded, write_sources hwrite, insertSource_tables hsource]
    exact ⟨row, by simp [hrow], hkey⟩

theorem exec_of_recorded (h : Recorded call.source db) : (call.exec db).1 = db := by
  rcases call.exec_cases db with ⟨hsame, -⟩ | ⟨recorded, written, -, hsource, -, -⟩
  · exact hsame
  · rw [insertSource_eq_none_iff.mpr h] at hsource
    cases hsource

end UpsertCall

/-! ## Every history -/

theorem storeInv_empty : StoreInv {} :=
  ⟨⟨by simp, by simp, by simp, by simp, by simp⟩, by simp [SpansNamed]⟩

theorem storeInv_stored (calls : List UpsertCall) : StoreInv (stored calls) :=
  @run_invariant' _ _ (fun db call => (UpsertCall.exec call db).1) StoreInv
    (fun _ call h => call.storeInv_exec h) _ calls storeInv_empty

/-- **The memory store is consistent** after every history of calls: the derived
tables follow the memories, a call that does not insert changes nothing, and so does
the replay of any call that returned `Ok`. -/
theorem memory_store_consistent (calls : List UpsertCall) :
    Consistent (stored calls) ∧
    (∀ call : UpsertCall, (call.exec (stored calls)).2 ≠ .ok .inserted →
      (call.exec (stored calls)).1 = stored calls) ∧
    ∀ before earlier after, calls = before ++ earlier :: after →
      (∃ outcome, (earlier.exec (stored before)).2 = .ok outcome) →
      ∀ call : UpsertCall, call.Replays earlier → (call.exec (stored calls)).1 = stored calls := by
  refine ⟨(storeInv_stored calls).consistent, ?_, ?_⟩
  · intro call hnot
    rcases call.exec_cases (stored calls) with ⟨hsame, -⟩ | ⟨_, _, -, -, -, hexec⟩
    · exact hsame
    · rw [hexec] at hnot
      exact absurd rfl hnot
  · rintro before earlier after rfl ⟨outcome, hok⟩ call ⟨-, hsource, -, -⟩
    apply UpsertCall.exec_of_recorded
    rw [hsource, stored, run_append, run_cons]
    exact @run_invariant' _ _ (fun db call => (UpsertCall.exec call db).1)
      (UpsertCall.Recorded earlier.source) (fun _ call h => call.recorded_exec h) _ after
      (UpsertCall.recorded_of_ok hok)

/-- A memory written by hand. -/
def manualNode (memoryId : String) : MemoryNode :=
  { memoryId, orchestratorId := "alpha", nodeType := .fact, importance := 50, content := "c"
    summary := "s", confidence := 0, source := { sourceType := .manual, capturedBy := .user }
    status := .active, createdAt := 0, updatedAt := 0 }

def manualCall (idempotencyKey : String) (node : MemoryNode) (edges : List MemoryEdge) :
    UpsertCall :=
  { orchestratorId := "alpha"
    source :=
      { orchestratorId := "alpha", idempotencyKey, sourceType := .manual, capturedBy := .user }
    nodes := [node], edges, canonicalize := fun _ => none, now := 0 }

/-- A memory linked to one that is not stored yet. -/
def linkingCall : UpsertCall :=
  manualCall "first" (manualNode "m1")
    [{ edgeId := "e", fromMemoryId := "m1", toMemoryId := "m2", edgeType := .relatedTo
       weight := 0, createdAt := 0 }]

/-- The call that failed for its missing endpoint is accepted when it is replayed. -/
theorem failed_call_stored_on_replay :
    (linkingCall.exec {}).2 = .error foreignKeyFailed ∧
      let db := stored [linkingCall, manualCall "second" (manualNode "m2") []]
      (linkingCall.exec db).2 = .ok .inserted ∧ (linkingCall.exec db).1 ≠ db := by
  decide

end Direclaw.Memory
