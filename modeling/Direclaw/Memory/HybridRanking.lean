import Direclaw.Lib.SortedOn
import Direclaw.Memory.BulletinCitations
import Mathlib.Algebra.Order.BigOperators.Group.List
import Mathlib.Algebra.Order.Field.Power
import Mathlib.Algebra.Order.Field.Rat
import Mathlib.Data.List.AList
import Mathlib.Tactic.Positivity

/-!
# The fused ranking

`fuse_rankings` of `memory/retrieval.rs` with its scores, taken as rational numbers, and the
part of `hybrid_recall` around it. The recall of the other modules leaves the sort by score
open; here it is the one of the code. In which order a hash map gives its values is a
parameter, and it does not matter.
-/

namespace Direclaw.Memory.Ranked

open Direclaw.Lib Direclaw.Memory

/-! ## Hits and scores -/

structure FullTextCandidate where
  memory : MemoryNode
  matchedSpan : Option MemoryMatchedSpan
  rank : ℕ

structure VectorCandidate where
  memory : MemoryNode
  rank : ℕ

/-- A memory of the result with its `final_score`. -/
structure RankedMemory extends HybridRecallMemory where
  finalScore : ℚ := 0

/-- The bits of a finite `f32` that is not negative; `-0.0` is one of them. -/
def f32NonNegative (bits : UInt32) : Bool := bits < 0x7F800000 || bits == 0x80000000

/-- The number a finite `f32` stands for. -/
def f32Value (bits : UInt32) : ℚ :=
  let mantissa : ℕ := bits.toNat % 2 ^ 23
  let exponent : ℕ := bits.toNat / 2 ^ 23 % 256
  let magnitude : ℚ :=
    if exponent = 0 then mantissa * (2 : ℚ) ^ (-149 : ℤ)
    else (2 ^ 23 + mantissa) * (2 : ℚ) ^ ((exponent : ℤ) - 150)
  if 2 ^ 31 ≤ bits.toNat then -magnitude else magnitude

/-- `i64::saturating_sub`. -/
def saturatingSubI64 (a b : Int64) : ℤ :=
  max Int64.minValue.toInt (min Int64.maxValue.toInt (a.toInt - b.toInt))

def recencyWeight (updatedAt nowUnixSeconds : Int64) : ℚ :=
  let ageSeconds : ℤ := max (saturatingSubI64 nowUnixSeconds updatedAt) 0
  let days : ℚ := ageSeconds / 86400
  1 / (1 + days / 30)

def rrf (rrfK rank : ℕ) : ℚ := 1 / ((rrfK : ℚ) + rank)

/-- What a text hit puts into the map, if its memory is not there yet. -/
def FullTextCandidate.entry (hit : FullTextCandidate) : HybridRecallMemory where
  memory := hit.memory
  citation := citationFor hit.memory
  snippet := hit.matchedSpan.map (·.text)
  snippetSpanId := hit.matchedSpan.map (·.spanId)

def VectorCandidate.entry (hit : VectorCandidate) : HybridRecallMemory := vectorEntry hit.memory

/-- Memory ids and ranks, in the order in which the two loops go over the hits. -/
def ranksOf (textHits : List FullTextCandidate) (vectorHits : List VectorCandidate) :
    List (String × ℕ) :=
  textHits.map (fun hit => (hit.memory.memoryId, hit.rank)) ++
    vectorHits.map fun hit => (hit.memory.memoryId, hit.rank)

/-- `*rrf_scores.entry(key).or_insert(0.0) += rrf`. -/
def addRrf (rrfK : ℕ) (scores : AList fun _ : String => ℚ) (hit : String × ℕ) :
    AList fun _ : String => ℚ :=
  scores.insert hit.1 ((scores.lookup hit.1).getD 0 + rrf rrfK hit.2)

def rrfScores (rrfK : ℕ) (hits : List (String × ℕ)) : AList fun _ : String => ℚ :=
  hits.foldl (addRrf rrfK) ∅

/-- What the score of a memory is multiplied with. -/
def memoryWeight (nowUnixSeconds : Int64) (contradictionIds : List String) (memory : MemoryNode) :
    ℚ :=
  (1 + (memory.importance.toNat : ℚ) / 100) * f32Value memory.confidence *
    recencyWeight memory.updatedAt nowUnixSeconds *
    if memory.memoryId ∈ contradictionIds then 4 / 5 else 1

/-- The body of the loop over the aggregates. -/
def scoreEntry (scores : AList fun _ : String => ℚ) (nowUnixSeconds : Int64)
    (contradictionIds : List String) (entry : HybridRecallMemory) : RankedMemory where
  toHybridRecallMemory :=
    if entry.memory.memoryId ∈ contradictionIds then { entry with unresolvedContradiction := true }
    else entry
  finalScore := (scores.lookup entry.memory.memoryId).getD 0 *
    memoryWeight nowUnixSeconds contradictionIds entry.memory

/-- The order of the result: by score, highest first, then by memory id. -/
def RankedMemory.rankKey (entry : RankedMemory) : ℚᵒᵈ ×ₗ String :=
  toLex (OrderDual.toDual entry.finalScore, entry.memory.memoryId)

/-- `intoValues` is the order of `HashMap::into_values`. -/
def fuseRankings (intoValues : List HybridRecallMemory → List HybridRecallMemory)
    (textHits : List FullTextCandidate) (vectorHits : List VectorCandidate) (rrfK : ℕ)
    (nowUnixSeconds : Int64) (contradictionIds : List String) : List RankedMemory :=
  let aggregates := aggregate (textHits.map (·.entry) ++ vectorHits.map (·.entry))
  let scores := rrfScores rrfK (ranksOf textHits vectorHits)
  sortOn RankedMemory.rankKey
    ((intoValues aggregates).map (scoreEntry scores nowUnixSeconds contradictionIds))

/-! ## The recall around it -/

inductive VectorQueryOutcome : Type where
  | ranked (candidates : List VectorCandidate)
  | unavailableMissingQueryEmbedding
  | unavailableNoEmbeddings

structure HybridRecallResult where
  mode : HybridRecallResultMode
  memories : List RankedMemory
  edges : List MemoryEdge

/-- The queries on a repository, whose hits have ranks. -/
structure RankedQueries where
  queryFullText : String → ℕ → Except MemoryRecallError (List FullTextCandidate)
  queryVector : Option (List UInt32) → ℕ → Except MemoryRecallError VectorQueryOutcome
  loadUnresolvedContradictionIds : List String → Except MemoryRecallError (List String)
  loadEdges : List String → Except MemoryRecallError (List MemoryEdge)

def VectorQueryOutcome.hits : VectorQueryOutcome → HybridRecallResultMode × List VectorCandidate
  | .ranked items => (.hybrid, items)
  | .unavailableMissingQueryEmbedding | .unavailableNoEmbeddings => (.fullTextOnly, [])

def hybridRecall (env : RecallEnv) (queries : RankedQueries)
    (intoValues : List HybridRecallMemory → List HybridRecallMemory)
    (request : HybridRecallRequest) (options : MemoryRecallOptions)
    (workspaceContext : Option Orchestration.WorkspaceAccessContext) :
    Except MemoryRecallError HybridRecallResult := do
  if request.requestingOrchestratorId ≠ env.orchestratorId then
    env.appendMemoryLog "memory.recall.scope_denied"
    throw (.crossOrchestratorDenied request.requestingOrchestratorId env.orchestratorId)
  else
    let textHits ← queries.queryFullText request.queryText options.topKText
    let vectorOut ← queries.queryVector request.queryEmbedding options.topKVector
    let (mode, vectorHits) := vectorOut.hits
    let candidateIds :=
      ((ranksOf textHits vectorHits).map Prod.fst).dedup.insertionSort (· ≤ ·)
    let contradictionIds ← queries.loadUnresolvedContradictionIds candidateIds
    let merged := fuseRankings intoValues textHits vectorHits options.rrfK options.nowUnixSeconds
      contradictionIds
    let top := merged.take options.topN
    enforceSourcePaths env workspaceContext (top.map (·.toHybridRecallMemory))
    let edges ← queries.loadEdges (top.map (·.memory.memoryId))
    return { mode, memories := top, edges }

/-! ## What a fusion is -/

def RankedMemory.id (entry : RankedMemory) : String := entry.memory.memoryId

/-- The hits that the queries give: no memory twice in one list, ranks from 1 on, and
confidences that are numbers and not negative. -/
structure WellRanked (textHits : List FullTextCandidate) (vectorHits : List VectorCandidate) :
    Prop where
  textIds : (textHits.map (·.memory.memoryId)).Nodup
  vectorIds : (vectorHits.map (·.memory.memoryId)).Nodup
  ranks : ∀ hit ∈ ranksOf textHits vectorHits, 0 < hit.2
  textConfidence : ∀ hit ∈ textHits, f32NonNegative hit.memory.confidence = true
  vectorConfidence : ∀ hit ∈ vectorHits, f32NonNegative hit.memory.confidence = true

/-- A memory comes before another one: by its score, and among equal scores by its id. -/
def RankedMemory.Before (a b : RankedMemory) : Prop :=
  b.finalScore < a.finalScore ∨ a.finalScore = b.finalScore ∧ a.id < b.id

/-- **A fusion of two lists of hits**: each memory once, in the order of the scores, with the
contradictions flagged. -/
structure FusionOf (textHits : List FullTextCandidate) (vectorHits : List VectorCandidate)
    (contradictionIds : List String) (fused : List RankedMemory) : Prop where
  once : (fused.map (·.id)).Nodup
  union : ∀ id, id ∈ fused.map (·.id) ↔
    id ∈ textHits.map (·.memory.memoryId) ∨ id ∈ vectorHits.map (·.memory.memoryId)
  ordered : fused.Pairwise RankedMemory.Before
  flagged : ∀ entry ∈ fused, entry.unresolvedContradiction = true ↔ entry.id ∈ contradictionIds

/-- The memory `a` stands before the memory `b` in a result. -/
def Precedes (fused : List RankedMemory) (a b : String) : Prop :=
  [a, b].Sublist (fused.map (·.id))

/-! ## The aggregates -/

theorem find?_eq_some_iff_mem {α κ : Type*} [BEq κ] [LawfulBEq κ] {key : α → κ} {a : α} :
    ∀ {l : List α}, (l.map key).Nodup →
      (l.find? (fun b => key b == key a) = some a ↔ a ∈ l)
  | [], _ => iff_of_false nofun List.not_mem_nil
  | first :: l, h => by
      rw [List.map_cons, List.nodup_cons] at h
      refine ⟨List.mem_of_find?_eq_some, fun hmem => ?_⟩
      rcases List.mem_cons.mp hmem with rfl | hmem
      · exact List.find?_cons_of_pos (beq_self_eq_true _)
      · rw [List.find?_cons_of_neg]
        · exact (find?_eq_some_iff_mem h.2).mpr hmem
        · intro heq
          exact h.1 (List.mem_map.mpr ⟨a, hmem, (beq_iff_eq.mp heq).symm⟩)

theorem mem_aggregate_iff {entries : List HybridRecallMemory} {entry : HybridRecallMemory} :
    entry ∈ aggregate entries ↔
      entries.find? (fun other => other.memory.memoryId == entry.memory.memoryId) = some entry := by
  have hfold : ∀ rest kept : List HybridRecallMemory,
      (kept.map (·.memory.memoryId)).Nodup →
      (entry ∈ rest.foldl orInsert kept ↔ (kept ++ rest).find?
        (fun other => other.memory.memoryId == entry.memory.memoryId) = some entry) := by
    intro rest
    induction rest with
    | nil =>
      intro kept hnodup
      rw [List.foldl_nil, List.append_nil]
      exact (find?_eq_some_iff_mem hnodup).symm
    | cons next rest ih =>
      intro kept hnodup
      rw [List.foldl_cons, orInsert]
      split
      · next hold =>
        rw [ih kept hnodup]
        obtain ⟨old, hmem, hid⟩ := List.any_eq_true.mp hold
        rw [List.find?_append, List.find?_append]
        by_cases hnext : next.memory.memoryId = entry.memory.memoryId
        · -- an earlier entry of this memory is found in both
          have hsome : (kept.find? fun other =>
              other.memory.memoryId == entry.memory.memoryId).isSome := by
            rw [List.find?_isSome]
            exact ⟨old, hmem, beq_iff_eq.mpr ((beq_iff_eq.mp hid).trans hnext)⟩
          obtain ⟨found, hfound⟩ := Option.isSome_iff_exists.mp hsome
          rw [hfound, Option.some_or, Option.some_or]
        · rw [List.find?_cons_of_neg (by rwa [beq_iff_eq])]
      · next hnew =>
        have hfresh : ∀ old ∈ kept, old.memory.memoryId ≠ next.memory.memoryId :=
          fun old hold heq => hnew (List.any_eq_true.mpr ⟨old, hold, beq_iff_eq.mpr heq⟩)
        rw [ih (kept ++ [next]) (by
          rw [List.map_append, List.nodup_append]
          refine ⟨hnodup, List.nodup_singleton _, fun id hid other hother heq => ?_⟩
          obtain ⟨old, hold, rfl⟩ := List.mem_map.mp hid
          exact hfresh old hold (heq.trans (List.mem_singleton.mp hother))), List.append_assoc]
        rfl
  exact hfold entries [] List.nodup_nil

section Fusion

variable {textHits textHits' : List FullTextCandidate}
  {vectorHits vectorHits' : List VectorCandidate} {rrfK : ℕ} {nowUnixSeconds : Int64}
  {contradictionIds : List String}
  {intoValues intoValues' : List HybridRecallMemory → List HybridRecallMemory}

/-- What is aggregated: every text hit, and the vector hits of the other memories. -/
theorem mem_aggregates_iff (htext : (textHits.map (·.memory.memoryId)).Nodup)
    (hvector : (vectorHits.map (·.memory.memoryId)).Nodup) {entry : HybridRecallMemory} :
    entry ∈ aggregate (textHits.map (·.entry) ++ vectorHits.map (·.entry)) ↔
      entry ∈ textHits.map (·.entry) ∨
        entry.memory.memoryId ∉ textHits.map (·.memory.memoryId) ∧
          entry ∈ vectorHits.map (·.entry) := by
  have htextIds : (textHits.map (·.entry)).map (·.memory.memoryId) =
      textHits.map (·.memory.memoryId) := List.map_map
  have hvectorIds : (vectorHits.map (·.entry)).map (·.memory.memoryId) =
      vectorHits.map (·.memory.memoryId) := List.map_map
  have htextMem := @find?_eq_some_iff_mem _ _ _ _ (fun e : HybridRecallMemory => e.memory.memoryId)
    entry _ (htextIds ▸ htext)
  have hvectorMem := @find?_eq_some_iff_mem _ _ _ _
    (fun e : HybridRecallMemory => e.memory.memoryId) entry _ (hvectorIds ▸ hvector)
  rw [mem_aggregate_iff, List.find?_append, Option.or_eq_some_iff, htextMem, hvectorMem,
    List.find?_eq_none, ← htextIds]
  refine or_congr_right (and_congr_left' ⟨fun h hmem => ?_, fun h other hother => ?_⟩)
  · obtain ⟨other, hother, heq⟩ := List.mem_map.mp hmem
    exact h other hother (beq_iff_eq.mpr heq)
  · rw [beq_iff_eq]
    exact fun heq => h (List.mem_map.mpr ⟨other, hother, heq⟩)

theorem aggregates_perm (htext : (textHits.map (·.memory.memoryId)).Nodup)
    (hvector : (vectorHits.map (·.memory.memoryId)).Nodup) (htexts : textHits.Perm textHits')
    (hvectors : vectorHits.Perm vectorHits') :
    (aggregate (textHits.map (·.entry) ++ vectorHits.map (·.entry))).Perm
      (aggregate (textHits'.map (·.entry) ++ vectorHits'.map (·.entry))) := by
  have htext' := (htexts.map (·.memory.memoryId)).nodup_iff.mp htext
  have hvector' := (hvectors.map (·.memory.memoryId)).nodup_iff.mp hvector
  refine (List.perm_ext_iff_of_nodup (nodup_aggregate _).of_map (nodup_aggregate _).of_map).mpr
    fun entry => ?_
  rw [mem_aggregates_iff htext hvector, mem_aggregates_iff htext' hvector',
    (htexts.map _).mem_iff, (hvectors.map _).mem_iff, (htexts.map _).mem_iff]

/-! ## The scores -/

/-- The sum of what the lists give to a memory. -/
def fusedRrf (rrfK : ℕ) (hits : List (String × ℕ)) (id : String) : ℚ :=
  ((hits.filter fun hit => hit.1 == id).map fun hit => rrf rrfK hit.2).sum

theorem lookup_rrfScores (rrfK : ℕ) (hits : List (String × ℕ)) (id : String) :
    ((rrfScores rrfK hits).lookup id).getD 0 = fusedRrf rrfK hits id := by
  have hfold : ∀ (hits : List (String × ℕ)) (scores : AList fun _ : String => ℚ),
      ((hits.foldl (addRrf rrfK) scores).lookup id).getD 0 =
        (scores.lookup id).getD 0 + fusedRrf rrfK hits id := by
    intro hits
    induction hits with
    | nil => exact fun scores => (add_zero _).symm
    | cons hit hits ih =>
      intro scores
      rw [List.foldl_cons, ih, addRrf, fusedRrf, fusedRrf]
      by_cases hid : hit.1 = id
      · rw [← hid, AList.lookup_insert, Option.getD_some, List.filter_cons,
          if_pos (beq_self_eq_true hit.1), List.map_cons, List.sum_cons, add_assoc]
      · rw [AList.lookup_insert_ne (Ne.symm hid), List.filter_cons_of_neg (by rwa [beq_iff_eq])]
  rw [rrfScores, hfold, AList.lookup_empty, Option.getD_none, zero_add]

def fusedScore (rrfK : ℕ) (nowUnixSeconds : Int64) (contradictionIds : List String)
    (hits : List (String × ℕ)) (memory : MemoryNode) : ℚ :=
  fusedRrf rrfK hits memory.memoryId * memoryWeight nowUnixSeconds contradictionIds memory

theorem finalScore_scoreEntry (hits : List (String × ℕ)) (entry : HybridRecallMemory) :
    (scoreEntry (rrfScores rrfK hits) nowUnixSeconds contradictionIds entry).finalScore =
      fusedScore rrfK nowUnixSeconds contradictionIds hits entry.memory := by
  rw [scoreEntry, lookup_rrfScores, fusedScore]

theorem memory_scoreEntry (scores : AList fun _ : String => ℚ) (entry : HybridRecallMemory) :
    (scoreEntry scores nowUnixSeconds contradictionIds entry).memory = entry.memory := by
  rw [scoreEntry]
  split
  · rfl
  · rfl

theorem scoreEntry_congr {hits hits' : List (String × ℕ)} (h : hits.Perm hits')
    (entry : HybridRecallMemory) :
    scoreEntry (rrfScores rrfK hits) nowUnixSeconds contradictionIds entry =
      scoreEntry (rrfScores rrfK hits') nowUnixSeconds contradictionIds entry := by
  have hsum : fusedRrf rrfK hits entry.memory.memoryId =
      fusedRrf rrfK hits' entry.memory.memoryId := ((h.filter _).map _).sum_eq
  rw [scoreEntry, scoreEntry, lookup_rrfScores, lookup_rrfScores, hsum]

theorem ids_scored (nowUnixSeconds : Int64) (contradictionIds : List String)
    (scores : AList fun _ : String => ℚ) (entries : List HybridRecallMemory) :
    (entries.map (scoreEntry scores nowUnixSeconds contradictionIds)).map (·.id) =
      entries.map (·.memory.memoryId) := by
  rw [List.map_map]
  refine List.map_congr_left fun entry _ => ?_
  exact congrArg MemoryNode.memoryId (memory_scoreEntry scores entry)

theorem ids_fuseRankings (hinto : ∀ entries, (intoValues entries).Perm entries) :
    ((fuseRankings intoValues textHits vectorHits rrfK nowUnixSeconds contradictionIds).map
      (·.id)).Perm ((aggregate (textHits.map (·.entry) ++ vectorHits.map (·.entry))).map
        (·.memory.memoryId)) := by
  refine ((sortOn_perm _).map _).trans ?_
  rw [ids_scored]
  exact (hinto _).map _

theorem nodup_ids_fuseRankings (hinto : ∀ entries, (intoValues entries).Perm entries) :
    ((fuseRankings intoValues textHits vectorHits rrfK nowUnixSeconds contradictionIds).map
      (·.id)).Nodup :=
  (ids_fuseRankings hinto).nodup_iff.mpr (nodup_aggregate _)

theorem mem_fuseRankings_iff (hinto : ∀ entries, (intoValues entries).Perm entries)
    {entry : RankedMemory} :
    entry ∈ fuseRankings intoValues textHits vectorHits rrfK nowUnixSeconds contradictionIds ↔
      ∃ kept ∈ aggregate (textHits.map (·.entry) ++ vectorHits.map (·.entry)),
        scoreEntry (rrfScores rrfK (ranksOf textHits vectorHits)) nowUnixSeconds contradictionIds
          kept = entry := by
  rw [fuseRankings, mem_sortOn, List.mem_map]
  simp only [(hinto _).mem_iff]

/-- Neither the order of the hash map nor that of the hits shows. -/
theorem fuseRankings_congr (hinto : ∀ entries, (intoValues entries).Perm entries)
    (hinto' : ∀ entries, (intoValues' entries).Perm entries)
    (htext : (textHits.map (·.memory.memoryId)).Nodup)
    (hvector : (vectorHits.map (·.memory.memoryId)).Nodup) (htexts : textHits.Perm textHits')
    (hvectors : vectorHits.Perm vectorHits') :
    fuseRankings intoValues textHits vectorHits rrfK nowUnixSeconds contradictionIds =
      fuseRankings intoValues' textHits' vectorHits' rrfK nowUnixSeconds contradictionIds := by
  have hranks : (ranksOf textHits vectorHits).Perm (ranksOf textHits' vectorHits') :=
    (htexts.map _).append (hvectors.map _)
  have hscores : scoreEntry (rrfScores rrfK (ranksOf textHits vectorHits)) nowUnixSeconds
      contradictionIds = scoreEntry (rrfScores rrfK (ranksOf textHits' vectorHits'))
        nowUnixSeconds contradictionIds := funext (scoreEntry_congr hranks)
  rw [fuseRankings, fuseRankings, hscores]
  apply sortOn_eq_of_perm
  · -- a key holds the memory id
    intro a ha b hb hkey
    have hids := congrArg (fun k => (ofLex k).2) hkey
    have hnodup := ids_scored nowUnixSeconds contradictionIds
      (rrfScores rrfK (ranksOf textHits' vectorHits'))
      (intoValues (aggregate (textHits.map (·.entry) ++ vectorHits.map (·.entry))))
    refine List.inj_on_of_nodup_map (f := RankedMemory.id) ?_ ha hb hids
    rw [hnodup]
    exact ((hinto _).map _).nodup_iff.mpr (nodup_aggregate _)
  · exact ((hinto _).trans ((aggregates_perm htext hvector htexts hvectors).trans
      (hinto' _).symm)).map _

/-! ## The order -/

theorem before_iff {a b : RankedMemory} : a.Before b ↔ a.rankKey < b.rankKey := by
  rw [RankedMemory.Before, RankedMemory.rankKey, RankedMemory.rankKey, Prod.Lex.lt_iff]
  exact or_congr_right (and_congr_left' OrderDual.toDual_inj.symm)

theorem before_of_le {a b : RankedMemory} (hle : a.rankKey ≤ b.rankKey) (hne : a.id ≠ b.id) :
    a.Before b := by
  refine before_iff.mpr (lt_of_le_of_ne hle fun heq => hne ?_)
  exact congrArg (fun k => (ofLex k).2) heq

theorem ne_of_precedes (hinto : ∀ entries, (intoValues entries).Perm entries) {a b : String}
    (h : Precedes (fuseRankings intoValues textHits vectorHits rrfK nowUnixSeconds
      contradictionIds) a b) : a ≠ b := by
  have hnodup := (nodup_ids_fuseRankings hinto).sublist h
  rw [List.nodup_cons] at hnodup
  exact fun heq => hnodup.1 (List.mem_singleton.mpr heq)

/-- Before in the list is before in the order. -/
theorem precedes_iff (hinto : ∀ entries, (intoValues entries).Perm entries) :
    Precedes (fuseRankings intoValues textHits vectorHits rrfK nowUnixSeconds contradictionIds) a
        b ↔
      ∃ x y, x ∈ fuseRankings intoValues textHits vectorHits rrfK nowUnixSeconds
          contradictionIds ∧
        y ∈ fuseRankings intoValues textHits vectorHits rrfK nowUnixSeconds contradictionIds ∧
        x.id = a ∧ y.id = b ∧ x.Before y := by
  constructor
  · intro h
    have hne := ne_of_precedes hinto h
    obtain ⟨entries, hentries, hmap⟩ := List.sublist_map_iff.mp h
    obtain ⟨x, rest, rfl, hx, hrest⟩ := List.map_eq_cons_iff.mp hmap.symm
    obtain ⟨y, rest, rfl, hy, hnil⟩ := List.map_eq_cons_iff.mp hrest
    obtain rfl := List.map_eq_nil_iff.mp hnil
    refine ⟨x, y, hentries.subset List.mem_cons_self,
      hentries.subset (List.mem_cons_of_mem _ List.mem_cons_self), hx, hy, ?_⟩
    exact before_of_le (le_of_sublist_sortOn hentries) (by rwa [hx, hy])
  · rintro ⟨x, y, hx, hy, rfl, rfl, hbefore⟩
    rw [fuseRankings, mem_sortOn] at hx hy
    exact (sublist_sortOn_of_lt hx hy (before_iff.mp hbefore)).map RankedMemory.id

theorem fusionOf_fuseRankings (hinto : ∀ entries, (intoValues entries).Perm entries)
    (htext : (textHits.map (·.memory.memoryId)).Nodup)
    (hvector : (vectorHits.map (·.memory.memoryId)).Nodup) :
    FusionOf textHits vectorHits contradictionIds
      (fuseRankings intoValues textHits vectorHits rrfK nowUnixSeconds contradictionIds) where
  once := nodup_ids_fuseRankings hinto
  union id := by
    rw [(ids_fuseRankings hinto).mem_iff, List.mem_map]
    constructor
    · rintro ⟨entry, hentry, rfl⟩
      rcases (mem_aggregates_iff htext hvector).mp hentry with h | ⟨-, h⟩
      · obtain ⟨hit, hhit, rfl⟩ := List.mem_map.mp h
        exact .inl (List.mem_map.mpr ⟨hit, hhit, rfl⟩)
      · obtain ⟨hit, hhit, rfl⟩ := List.mem_map.mp h
        exact .inr (List.mem_map.mpr ⟨hit, hhit, rfl⟩)
    · intro h
      by_cases hin : id ∈ textHits.map (·.memory.memoryId)
      · obtain ⟨hit, hhit, rfl⟩ := List.mem_map.mp hin
        exact ⟨hit.entry, (mem_aggregates_iff htext hvector).mpr
          (.inl (List.mem_map.mpr ⟨hit, hhit, rfl⟩)), rfl⟩
      · obtain ⟨hit, hhit, rfl⟩ := List.mem_map.mp (h.resolve_left hin)
        exact ⟨hit.entry, (mem_aggregates_iff htext hvector).mpr
          (.inr ⟨hin, List.mem_map.mpr ⟨hit, hhit, rfl⟩⟩), rfl⟩
  ordered := by
    have hnodup : ((fuseRankings intoValues textHits vectorHits rrfK nowUnixSeconds
      contradictionIds).map (·.id)).Nodup := nodup_ids_fuseRankings hinto
    rw [List.Nodup, List.pairwise_map] at hnodup
    exact ((sortOn_pairwise _).and hnodup).imp fun h => before_of_le h.1 h.2
  flagged entry hmem := by
    obtain ⟨kept, hkept, rfl⟩ := (mem_fuseRankings_iff hinto).mp hmem
    have hunflagged : kept.unresolvedContradiction = false := by
      rcases (mem_aggregates_iff htext hvector).mp hkept with h | ⟨-, h⟩
      · obtain ⟨hit, -, rfl⟩ := List.mem_map.mp h
        rfl
      · obtain ⟨hit, -, rfl⟩ := List.mem_map.mp h
        rfl
    rw [RankedMemory.id, memory_scoreEntry, scoreEntry]
    by_cases hid : kept.memory.memoryId ∈ contradictionIds
    · rw [if_pos hid]
      exact iff_of_true rfl hid
    · rw [if_neg hid, hunflagged]
      exact iff_of_false Bool.false_ne_true hid

/-! ## A better rank -/

theorem f32Value_nonneg {bits : UInt32} (h : f32NonNegative bits = true) : 0 ≤ f32Value bits := by
  rw [f32NonNegative, Bool.or_eq_true, decide_eq_true_iff, beq_iff_eq, UInt32.lt_iff_toNat_lt] at h
  unfold f32Value
  extract_lets mantissa exponent magnitude
  have hmagnitude : 0 ≤ magnitude := by
    show 0 ≤ if exponent = 0 then _ else _
    split
    · positivity
    · positivity
  rcases h with hlt | rfl
  · have hpos : ¬ 2 ^ 31 ≤ bits.toNat := by
      have hbound : (0x7F800000 : UInt32).toNat = 2139095040 := rfl
      omega
    rwa [if_neg hpos]
  · decide +kernel

theorem recencyWeight_nonneg (updatedAt nowUnixSeconds : Int64) :
    0 ≤ recencyWeight updatedAt nowUnixSeconds := by
  have hage : (0 : ℚ) ≤ (max (saturatingSubI64 nowUnixSeconds updatedAt) 0 : ℤ) :=
    Int.cast_nonneg (le_max_right _ _)
  rw [recencyWeight]
  positivity

theorem memoryWeight_nonneg {memory : MemoryNode} (h : f32NonNegative memory.confidence = true) :
    0 ≤ memoryWeight nowUnixSeconds contradictionIds memory := by
  have hvalue := f32Value_nonneg h
  have hrecency := recencyWeight_nonneg memory.updatedAt nowUnixSeconds
  rw [memoryWeight]
  split
  · positivity
  · positivity

theorem rrf_anti (rrfK : ℕ) {rank rank' : ℕ} (hpos : 0 < rank') (hle : rank' ≤ rank) :
    rrf rrfK rank ≤ rrf rrfK rank' := by
  apply one_div_le_one_div_of_le
  · positivity
  · gcongr

theorem fusedRrf_split (before after : List (String × ℕ)) (hit : String × ℕ) (id : String) :
    fusedRrf rrfK (before ++ hit :: after) id = fusedRrf rrfK before id +
      ((if hit.1 = id then rrf rrfK hit.2 else 0) + fusedRrf rrfK after id) := by
  rw [fusedRrf, fusedRrf, fusedRrf, List.filter_append, List.map_append, List.sum_append,
    List.filter_cons]
  congr 1
  by_cases hid : hit.1 = id
  · rw [if_pos (beq_iff_eq.mpr hid), if_pos hid, List.map_cons, List.sum_cons]
  · rw [if_neg (by rwa [beq_iff_eq]), if_neg hid, zero_add]

theorem weights_nonneg (h : WellRanked textHits vectorHits) {entry : HybridRecallMemory}
    (hmem : entry ∈ aggregate (textHits.map (·.entry) ++ vectorHits.map (·.entry))) :
    0 ≤ memoryWeight nowUnixSeconds contradictionIds entry.memory := by
  apply memoryWeight_nonneg
  rcases (mem_aggregates_iff h.textIds h.vectorIds).mp hmem with hentry | ⟨-, hentry⟩
  · obtain ⟨hit, hhit, rfl⟩ := List.mem_map.mp hentry
    exact h.textConfidence hit hhit
  · obtain ⟨hit, hhit, rfl⟩ := List.mem_map.mp hentry
    exact h.vectorConfidence hit hhit

/-- If one rank falls and the others stay, its memory passes none that it preceded before. -/
theorem precedes_of_rank (h : WellRanked textHits vectorHits)
    (hinto : ∀ entries, (intoValues entries).Perm entries)
    (htexts : textHits'.map (·.entry) = textHits.map (·.entry))
    (hvectors : vectorHits'.map (·.entry) = vectorHits.map (·.entry)) {a b : String}
    {front back : List (String × ℕ)} {rank rank' : ℕ} (hpos : 0 < rank') (hle : rank' ≤ rank)
    (hold : ranksOf textHits vectorHits = front ++ (a, rank) :: back)
    (hnew : ranksOf textHits' vectorHits' = front ++ (a, rank') :: back)
    (hprecedes : Precedes (fuseRankings intoValues textHits vectorHits rrfK nowUnixSeconds
      contradictionIds) a b) :
    Precedes (fuseRankings intoValues textHits' vectorHits' rrfK nowUnixSeconds contradictionIds)
      a b := by
  have hgain : ∀ id, fusedRrf rrfK (ranksOf textHits vectorHits) id ≤
      fusedRrf rrfK (ranksOf textHits' vectorHits') id := by
    intro id
    rw [hold, hnew, fusedRrf_split, fusedRrf_split]
    have hrrf := rrf_anti rrfK hpos hle
    split
    · gcongr
    · exact le_rfl
  have hsame : ∀ id, id ≠ a → fusedRrf rrfK (ranksOf textHits' vectorHits') id =
      fusedRrf rrfK (ranksOf textHits vectorHits) id := by
    intro id hid
    rw [hold, hnew, fusedRrf_split, fusedRrf_split, if_neg (Ne.symm hid), if_neg (Ne.symm hid)]
  have hne := ne_of_precedes hinto hprecedes
  obtain ⟨x, y, hx, hy, rfl, rfl, hbefore⟩ := (precedes_iff hinto).mp hprecedes
  obtain ⟨keptX, hkeptX, rfl⟩ := (mem_fuseRankings_iff hinto).mp hx
  obtain ⟨keptY, hkeptY, rfl⟩ := (mem_fuseRankings_iff hinto).mp hy
  simp only [RankedMemory.id, memory_scoreEntry] at hne hsame
  have hbetter : fusedScore rrfK nowUnixSeconds contradictionIds (ranksOf textHits vectorHits)
      keptX.memory ≤ fusedScore rrfK nowUnixSeconds contradictionIds
        (ranksOf textHits' vectorHits') keptX.memory :=
    mul_le_mul_of_nonneg_right (hgain _) (weights_nonneg h hkeptX)
  have hother : fusedScore rrfK nowUnixSeconds contradictionIds (ranksOf textHits' vectorHits')
      keptY.memory = fusedScore rrfK nowUnixSeconds contradictionIds
        (ranksOf textHits vectorHits) keptY.memory :=
    congrArg (· * _) (hsame _ (Ne.symm hne))
  refine (precedes_iff hinto).mpr
    ⟨scoreEntry (rrfScores rrfK (ranksOf textHits' vectorHits')) nowUnixSeconds contradictionIds
        keptX, scoreEntry (rrfScores rrfK (ranksOf textHits' vectorHits')) nowUnixSeconds
        contradictionIds keptY, ?_, ?_, ?_, ?_, ?_⟩
  · exact (mem_fuseRankings_iff hinto).mpr ⟨keptX, by rwa [htexts, hvectors], rfl⟩
  · exact (mem_fuseRankings_iff hinto).mpr ⟨keptY, by rwa [htexts, hvectors], rfl⟩
  · rw [RankedMemory.id, RankedMemory.id, memory_scoreEntry, memory_scoreEntry]
  · rw [RankedMemory.id, RankedMemory.id, memory_scoreEntry, memory_scoreEntry]
  · simp only [RankedMemory.Before, finalScore_scoreEntry, RankedMemory.id, memory_scoreEntry]
      at hbefore ⊢
    rw [hother]
    rcases hbefore with hlt | ⟨heq, hid⟩
    · exact .inl (hlt.trans_le hbetter)
    · rw [heq] at hbetter
      exact (lt_or_eq_of_le hbetter).imp id fun hequal => ⟨hequal.symm, hid⟩

theorem precedes_of_text_rank {before after : List FullTextCandidate} {hit : FullTextCandidate}
    (h : WellRanked (before ++ hit :: after) vectorHits)
    (hinto : ∀ entries, (intoValues entries).Perm entries) {rank : ℕ} (hpos : 0 < rank)
    (hle : rank ≤ hit.rank) {b : String}
    (hprecedes : Precedes (fuseRankings intoValues (before ++ hit :: after) vectorHits rrfK
      nowUnixSeconds contradictionIds) hit.memory.memoryId b) :
    Precedes (fuseRankings intoValues (before ++ { hit with rank := rank } :: after) vectorHits
      rrfK nowUnixSeconds contradictionIds) hit.memory.memoryId b := by
  have hsplit : ∀ rank, ranksOf (before ++ { hit with rank := rank } :: after) vectorHits =
      before.map (fun hit => (hit.memory.memoryId, hit.rank)) ++ (hit.memory.memoryId, rank) ::
        (after.map (fun hit => (hit.memory.memoryId, hit.rank)) ++
          vectorHits.map fun hit => (hit.memory.memoryId, hit.rank)) := by
    intro rank
    rw [ranksOf, List.map_append, List.map_cons, List.append_assoc, List.cons_append]
  exact precedes_of_rank h hinto (by rw [List.map_append, List.map_append]; rfl) rfl hpos hle
    (hsplit hit.rank) (hsplit rank) hprecedes

theorem precedes_of_vector_rank {before after : List VectorCandidate} {hit : VectorCandidate}
    (h : WellRanked textHits (before ++ hit :: after))
    (hinto : ∀ entries, (intoValues entries).Perm entries) {rank : ℕ} (hpos : 0 < rank)
    (hle : rank ≤ hit.rank) {b : String}
    (hprecedes : Precedes (fuseRankings intoValues textHits (before ++ hit :: after) rrfK
      nowUnixSeconds contradictionIds) hit.memory.memoryId b) :
    Precedes (fuseRankings intoValues textHits (before ++ { hit with rank := rank } :: after) rrfK
      nowUnixSeconds contradictionIds) hit.memory.memoryId b := by
  have hsplit : ∀ rank, ranksOf textHits (before ++ { hit with rank := rank } :: after) =
      (textHits.map (fun hit => (hit.memory.memoryId, hit.rank)) ++
        before.map fun hit => (hit.memory.memoryId, hit.rank)) ++ (hit.memory.memoryId, rank) ::
          after.map fun hit => (hit.memory.memoryId, hit.rank) := by
    intro rank
    rw [ranksOf, List.map_append, List.map_cons, List.append_assoc]
  exact precedes_of_rank h hinto rfl (by rw [List.map_append, List.map_append]; rfl) hpos hle
    (hsplit hit.rank) (hsplit rank) hprecedes

end Fusion

/-! ## The recall -/

/-- A recall gives the first memories of the fusion of its hits. -/
theorem hybridRecall_prefix {env : RecallEnv} {queries : RankedQueries}
    {intoValues : List HybridRecallMemory → List HybridRecallMemory}
    {request : HybridRecallRequest} {options : MemoryRecallOptions}
    {workspaceContext : Option Orchestration.WorkspaceAccessContext} {result : HybridRecallResult}
    (h : hybridRecall env queries intoValues request options workspaceContext = .ok result) :
    ∃ textHits vectorOut contradictionIds,
      queries.queryFullText request.queryText options.topKText = .ok textHits ∧
      queries.queryVector request.queryEmbedding options.topKVector = .ok vectorOut ∧
      queries.loadUnresolvedContradictionIds
        (((ranksOf textHits vectorOut.hits.2).map Prod.fst).dedup.insertionSort (· ≤ ·)) =
          .ok contradictionIds ∧
      result.memories = (fuseRankings intoValues textHits vectorOut.hits.2 options.rrfK
        options.nowUnixSeconds contradictionIds).take options.topN := by
  unfold hybridRecall at h
  split at h
  · obtain ⟨-, -, h⟩ := bind_eq_ok h
    cases h
  · obtain ⟨textHits, htext, h⟩ := bind_eq_ok h
    obtain ⟨vectorOut, hvector, h⟩ := bind_eq_ok h
    obtain ⟨contradictionIds, hids, h⟩ := bind_eq_ok h
    obtain ⟨_, -, h⟩ := bind_eq_ok h
    obtain ⟨edges, -, h⟩ := bind_eq_ok h
    cases h
    exact ⟨textHits, vectorOut, contradictionIds, htext, hvector, hids, rfl⟩

/-! ## The ranking -/

/-- For all hits as the queries give them: the fusion has each memory once, by score and then by
id, with the contradictions flagged; neither the order of the hash map nor that of the hits
shows; a memory whose rank number falls still precedes what it preceded; and a recall gives the
first memories of the fusion of its hits. -/
theorem hybridRanking_wellDefined (textHits : List FullTextCandidate)
    (vectorHits : List VectorCandidate) (h : WellRanked textHits vectorHits) (rrfK : ℕ)
    (nowUnixSeconds : Int64) (contradictionIds : List String)
    (intoValues : List HybridRecallMemory → List HybridRecallMemory)
    (hinto : ∀ entries, (intoValues entries).Perm entries) :
    FusionOf textHits vectorHits contradictionIds
      (fuseRankings intoValues textHits vectorHits rrfK nowUnixSeconds contradictionIds) ∧
    (∀ (intoValues' : List HybridRecallMemory → List HybridRecallMemory)
        (textHits' : List FullTextCandidate) (vectorHits' : List VectorCandidate),
      (∀ entries, (intoValues' entries).Perm entries) → textHits.Perm textHits' →
        vectorHits.Perm vectorHits' →
          fuseRankings intoValues' textHits' vectorHits' rrfK nowUnixSeconds contradictionIds =
            fuseRankings intoValues textHits vectorHits rrfK nowUnixSeconds contradictionIds) ∧
    (∀ (before : List FullTextCandidate) (hit : FullTextCandidate)
        (after : List FullTextCandidate) (rank : ℕ) (other : String),
      textHits = before ++ hit :: after → 0 < rank → rank ≤ hit.rank →
        Precedes (fuseRankings intoValues textHits vectorHits rrfK nowUnixSeconds
          contradictionIds) hit.memory.memoryId other →
        Precedes (fuseRankings intoValues (before ++ { hit with rank := rank } :: after)
          vectorHits rrfK nowUnixSeconds contradictionIds) hit.memory.memoryId other) ∧
    (∀ (before : List VectorCandidate) (hit : VectorCandidate) (after : List VectorCandidate)
        (rank : ℕ) (other : String),
      vectorHits = before ++ hit :: after → 0 < rank → rank ≤ hit.rank →
        Precedes (fuseRankings intoValues textHits vectorHits rrfK nowUnixSeconds
          contradictionIds) hit.memory.memoryId other →
        Precedes (fuseRankings intoValues textHits
          (before ++ { hit with rank := rank } :: after) rrfK nowUnixSeconds contradictionIds)
            hit.memory.memoryId other) ∧
    ∀ (env : RecallEnv) (queries : RankedQueries) (request : HybridRecallRequest)
        (options : MemoryRecallOptions)
        (workspaceContext : Option Orchestration.WorkspaceAccessContext)
        (result : HybridRecallResult),
      hybridRecall env queries intoValues request options workspaceContext = .ok result →
        ∃ textHits vectorOut contradictionIds,
          queries.queryFullText request.queryText options.topKText = .ok textHits ∧
          queries.queryVector request.queryEmbedding options.topKVector = .ok vectorOut ∧
          queries.loadUnresolvedContradictionIds (((ranksOf textHits vectorOut.hits.2).map
            Prod.fst).dedup.insertionSort (· ≤ ·)) = .ok contradictionIds ∧
          result.memories <+: fuseRankings intoValues textHits vectorOut.hits.2 options.rrfK
            options.nowUnixSeconds contradictionIds := by
  refine ⟨fusionOf_fuseRankings hinto h.textIds h.vectorIds, ?_, ?_, ?_, ?_⟩
  · intro intoValues' textHits' vectorHits' hinto' htexts hvectors
    exact (fuseRankings_congr hinto hinto' h.textIds h.vectorIds htexts hvectors).symm
  · rintro before hit after rank other rfl hpos hle hprecedes
    exact precedes_of_text_rank h hinto hpos hle hprecedes
  · rintro before hit after rank other rfl hpos hle hprecedes
    exact precedes_of_vector_rank h hinto hpos hle hprecedes
  · intro env queries request options workspaceContext result hresult
    obtain ⟨textHits, vectorOut, contradictionIds, htext, hvector, hids, hmemories⟩ :=
      hybridRecall_prefix hresult
    exact ⟨textHits, vectorOut, contradictionIds, htext, hvector, hids,
      hmemories ▸ List.take_prefix _ _⟩

/-! ### Two memories -/

def rankedNote (memoryId : String) : MemoryNode where
  memoryId := memoryId
  orchestratorId := "eng"
  nodeType := .fact
  importance := 50
  content := "c"
  summary := "s"
  confidence := 0x3F800000
  source := { sourceType := .manual, capturedBy := .user }
  status := .active
  createdAt := 0
  updatedAt := 0

def rankedTexts : List FullTextCandidate :=
  [{ memory := rankedNote "a", matchedSpan := none, rank := 1 },
    { memory := rankedNote "b", matchedSpan := none, rank := 2 }]

def rankedVectors : List VectorCandidate := [{ memory := rankedNote "b", rank := 1 }]

theorem wellRanked_two : WellRanked rankedTexts rankedVectors where
  textIds := by decide
  vectorIds := by decide
  ranks := by decide
  textConfidence := by decide
  vectorConfidence := by decide

/-- The memory of both lists comes first, unless a contradiction is known of it. -/
theorem hybridRanking_two :
    FusionOf rankedTexts rankedVectors ["b"]
      (fuseRankings List.reverse rankedTexts rankedVectors 60 0 ["b"]) :=
  (hybridRanking_wellDefined rankedTexts rankedVectors wellRanked_two 60 0 ["b"] List.reverse
    List.reverse_perm).1

example : (fuseRankings id rankedTexts rankedVectors 60 0 []).map (·.id) = ["b", "a"] := by
  decide +kernel

end Direclaw.Memory.Ranked
