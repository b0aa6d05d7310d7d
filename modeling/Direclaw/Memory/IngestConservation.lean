import Direclaw.Memory.Ingest
import Direclaw.Memory.Origins
import Mathlib.Data.List.Perm.Subperm

/-!
# Nothing is lost in ingest

Between two files of a worker, a file that was placed is in `ingest`, is rejected with a
manifest, or is committed. A file in flight has left `ingest` and is neither yet; the
invariant names it, and a crash that finds one loses it.
-/

namespace Direclaw.Memory

open Direclaw.Lib

/-! ## Directories -/

namespace IngestDir

theorem mem_write {dir : IngestDir} {name other : String} {entry found : IngestEntry} :
    (other, found) ∈ dir.write name entry ↔
      ((other, found) ∈ dir ∧ other ≠ name) ∨ (other = name ∧ found = entry) := by
  simp [write, remove]

theorem candidate_injective (fileName : String) : Function.Injective (candidate fileName) := by
  intro m n h
  cases m with
  | zero =>
    cases n with
    | zero => rfl
    | succ n =>
      have hlength := congrArg (fun name : String => name.toList.length) h
      simp [candidate] at hlength
  | succ m =>
    cases n with
    | zero =>
      have hlength := congrArg (fun name : String => name.toList.length) h
      simp [candidate] at hlength
    | succ n =>
      have hlist := congrArg String.toList h
      simp only [candidate, String.toList_append, String.toList_ofList,
        List.append_cancel_left_eq, List.cons.injEq, true_and] at hlist
      exact Text.decimal_injective hlist

/-- Among one more candidates than entries, one is free. -/
theorem freeName_free (dir : IngestDir) (fileName : String) :
    ∀ entry ∈ dir, entry.1 ≠ dir.freeName fileName := by
  have hexists : ∃ name ∈ (List.range (dir.length + 1)).map (candidate fileName),
      (dir.all fun entry => entry.1 != name) = true := by
    by_contra hnone
    have hsubset : (List.range (dir.length + 1)).map (candidate fileName) ⊆ dir.map Prod.fst := by
      intro name hname
      by_contra hfree
      refine hnone ⟨name, hname, ?_⟩
      rw [List.all_eq_true]
      intro entry hentry
      simp only [bne_iff_ne, ne_eq]
      rintro rfl
      exact hfree (List.mem_map_of_mem hentry)
    have hnodup : ((List.range (dir.length + 1)).map (candidate fileName)).Nodup :=
      List.nodup_range.map (candidate_injective fileName)
    have hlength := (List.subperm_of_subset hnodup hsubset).length_le
    simp only [List.length_map, List.length_range] at hlength
    omega
  obtain ⟨found, hfind⟩ := Option.isSome_iff_exists.mp (List.find?_isSome.mpr hexists)
  intro entry hentry
  rw [freeName, hfind, Option.getD_some]
  have hfree := List.find?_some hfind
  simp only [List.all_eq_true, bne_iff_ne, ne_eq] at hfree
  exact hfree entry hentry

/-- A rename to a free name replaces nothing. -/
theorem mem_write_freeName {dir : IngestDir} {fileName other : String}
    {entry found : IngestEntry} (h : (other, found) ∈ dir) :
    (other, found) ∈ dir.write (dir.freeName fileName) entry :=
  mem_write.mpr (.inl ⟨h, freeName_free dir fileName _ h⟩)

end IngestDir

/-! ## What an upsert keeps and adds -/

theorem mem_keys_upserts (idempotencyKey : String) (nodes : List MemoryNode) :
    ∀ (rows : List MemoryRow) (key : MemoryKey),
      key ∈ (nodes.foldl (fun rows node => upsertMemory rows node idempotencyKey) rows).map
          MemoryRow.key ↔
        key ∈ rows.map MemoryRow.key ∨ key ∈ nodes.map MemoryNode.key := by
  induction nodes with
  | nil => simp
  | cons node nodes ih =>
    intro rows key
    rw [List.foldl_cons, ih, upsertMemory_keys]
    split
    · next hmem =>
        constructor
        · rintro (h | h)
          · exact .inl h
          · exact .inr (List.mem_cons_of_mem _ h)
        · rintro (h | h)
          · exact .inl h
          · rcases List.mem_cons.mp h with rfl | h
            · exact .inl hmem
            · exact .inr h
    · simp only [List.mem_append, List.map_cons, List.mem_cons, List.not_mem_nil, or_false, or_assoc]

/-- An upsert leaves the database alone, or records its source and has its memories. -/
theorem UpsertCall.exec_effect (call : UpsertCall) {db : Database} (hinv : StoreInv db) :
    ((call.exec db).1 = db ∧ (call.exec db).2 ≠ .ok .inserted) ∨
      ((call.exec db).2 = .ok .inserted ∧
        (∃ row, row.source = call.source ∧ (call.exec db).1.sources = db.sources ++ [row]) ∧
        ∀ key, (call.exec db).1.hasMemory key = true ↔
          db.hasMemory key = true ∨ key ∈ call.nodes.map MemoryNode.key) := by
  rcases call.exec_cases db with hsame | ⟨recorded, written, -, hsource, hwrite, hexec⟩
  · exact .inl hsame
  · right
    have hstart : StoreInv recorded := by
      rw [insertSource_tables hsource]
      exact ⟨hinv.consistent.of_tables rfl rfl rfl rfl, hinv.named⟩
    rw [hexec]
    refine ⟨rfl, ⟨{ source := call.source, processedAt := call.now }, rfl, ?_⟩, fun key => ?_⟩
    · rw [write_sources hwrite, insertSource_tables hsource]
    · rw [hasMemory_iff_mem, write_memories hstart hwrite, mem_keys_upserts,
        hasMemory_iff_mem, insertSource_tables hsource]

/-! ## Kept files -/

namespace Ingester

variable (g : Ingester)

/-- The file's source is recorded, and whatever was extracted of it (under the name it had
then) has memories in the store. -/
def Committed (db : Database) (file : IngestFile) : Prop :=
  g.sourceExists db (g.idempotencyKey file) = true ∧
    ∃ path extracted, g.extract g.orchestratorId path file.bytes = .ok extracted ∧
      ∀ node ∈ extracted.nodes, db.hasMemory node.key = true

end Ingester

def IngestState.Rejected (s : IngestState) (file : IngestFile) : Prop :=
  ∃ name manifest, (name, .file file) ∈ s.rejected ∧
    (manifestName name "rejection", .rejection manifest) ∈ s.rejected

/-- Every file that was placed is accounted for, and those in `ingest_processed` are
committed. -/
structure NothingLost (g : Ingester) (s : IngestState) : Prop where
  placed : ∀ file ∈ s.placed, file ∈ s.ingest ∨ s.Rejected file ∨ g.Committed s.db file
  processed : ∀ name file, (name, .file file) ∈ s.processed → g.Committed s.db file

namespace IngestControl

/-- The file that has left `ingest` and is neither committed nor rejected with a manifest. -/
def inFlight : IngestControl → Option IngestFile
  | .extract file .. | .commit file .. | .reject file (some _) .. | .rejection file .. => some file
  | _ => none

def inProcessed : IngestControl → Option (String × IngestFile)
  | .extract file name _ | .commit file name _ _ | .reject file (some name) _ _ _ =>
    some (name, file)
  | _ => none

/-- The rejection manifest that the next operation writes. -/
def rejectionManifest : IngestControl → Option String
  | .rejection _ name .. => some (manifestName name "rejection")
  | _ => none

end IngestControl

/-- Whether a file that was moved here stands under the name, if one is given. -/
def IngestDir.holdsFile (dir : IngestDir) (name : Option String) : Bool :=
  dir.any fun entry => some entry.1 == name &&
    match entry.2 with
    | .file _ => true
    | _ => false

theorem IngestDir.holdsFile_false {dir : IngestDir} {name : String}
    (h : dir.holdsFile (some name) = false) (file : IngestFile) : (name, .file file) ∉ dir := by
  intro hmem
  rw [holdsFile, List.any_eq_false] at h
  simpa using h _ hmem

/-- A crash (or an operation that fails) finds no file in flight, a rejection manifest is
not written over a rejected file, and no two different files have one digest. -/
def IngestSafe (g : Ingester) (s : IngestState) : IngestEvent → Prop
  | .place file => ∀ other ∈ s.placed, g.idempotencyKey other = g.idempotencyKey file → other = file
  | .crash => s.control.inFlight = none
  | .access _ => s.rejected.holdsFile s.control.rejectionManifest = false

instance (g : Ingester) (s : IngestState) : (event : IngestEvent) → Decidable (IngestSafe g s event)
  | .place file =>
    inferInstanceAs (Decidable (∀ other ∈ s.placed,
      g.idempotencyKey other = g.idempotencyKey file → other = file))
  | .crash => inferInstanceAs (Decidable (s.control.inFlight = none))
  | .access _ => inferInstanceAs (Decidable (s.rejected.holdsFile s.control.rejectionManifest = false))

/-! ## The invariant -/

section Invariant

variable (g : Ingester)

def ControlOk (s : IngestState) : Prop :=
  match s.control with
  | .query file _ => file ∈ s.placed
  | .move file duplicate _ => file ∈ s.placed ∧ (duplicate = true → g.Committed s.db file)
  | .commit file name extracted _ =>
    (name, .file file) ∈ s.processed ∧ file ∈ s.placed ∧
      ∃ path, g.extract g.orchestratorId path file.bytes = .ok extracted
  | .extract file name _ | .reject file (some name) _ _ _ =>
    (name, .file file) ∈ s.processed ∧ file ∈ s.placed
  | .rejection file name _ _ _ => (name, .file file) ∈ s.rejected
  | _ => True

structure IngestInv (s : IngestState) : Prop where
  store : StoreInv s.db
  keys : ∀ file ∈ s.placed, ∀ other ∈ s.placed,
    g.idempotencyKey file = g.idempotencyKey other → file = other
  ingest : ∀ file ∈ s.ingest, file ∈ s.placed
  sources : ∀ row ∈ s.db.sources, row.source.orchestratorId = g.orchestratorId →
    ∃ file ∈ s.placed, g.idempotencyKey file = row.source.idempotencyKey ∧ g.Committed s.db file
  placed : ∀ file ∈ s.placed, file ∈ s.ingest ∨ s.Rejected file ∨ g.Committed s.db file ∨
    s.control.inFlight = some file
  processed : ∀ name file, (name, .file file) ∈ s.processed →
    g.Committed s.db file ∨ s.control.inProcessed = some (name, file)
  control : ControlOk g s

variable {g} {s : IngestState}

variable {file : IngestFile} {pending : List String}

theorem IngestInv.committed_of_exists (h : IngestInv g s) (hfile : file ∈ s.placed)
    (hexists : g.sourceExists s.db (g.idempotencyKey file) = true) : g.Committed s.db file := by
  simp only [Ingester.sourceExists, List.any_eq_true, Bool.and_eq_true, beq_iff_eq] at hexists
  obtain ⟨row, hrow, horch, hkey⟩ := hexists
  obtain ⟨other, hother, hotherKey, hcommitted⟩ := h.sources row hrow horch
  rw [h.keys file hfile other hother (by rw [hotherKey, hkey])]
  exact hcommitted

theorem IngestInv.nothingLost (h : IngestInv g s) (hrest : s.control.inFlight = none) :
    NothingLost g s := by
  refine ⟨fun file hfile => ?_, fun name file hfile => ?_⟩
  · rcases h.placed file hfile with hin | hrej | hcom | hflight
    · exact .inl hin
    · exact .inr (.inl hrej)
    · exact .inr (.inr hcom)
    · rw [hrest] at hflight
      cases hflight
  · rcases h.processed name file hfile with hcom | hat
    · exact hcom
    · -- an uncommitted file of `ingest_processed` is in flight
      exfalso
      revert hat hrest
      cases s.control with
      | reject f processed _ _ _ =>
        cases processed <;> simp [IngestControl.inFlight, IngestControl.inProcessed]
      | _ => simp [IngestControl.inFlight, IngestControl.inProcessed]

/-- A control point with no file in flight on either side. -/
theorem IngestInv.goto (h : IngestInv g s) {control : IngestControl}
    (hflight : s.control.inFlight = none) (hok : ControlOk g { s with control := control }) :
    IngestInv g { s with control := control } := by
  have hnothing := h.nothingLost hflight
  refine ⟨h.store, h.keys, h.ingest, h.sources, ?_, ?_, hok⟩
  · intro file hfile
    rcases hnothing.placed file hfile with hin | hrej | hcom
    · exact .inl hin
    · exact .inr (.inl hrej)
    · exact .inr (.inr (.inl hcom))
  · exact fun name file hfile => .inl (hnothing.processed name file hfile)

theorem IngestState.Rejected.mono {s' : IngestState} (h : s.Rejected file)
    (hsub : ∀ entry ∈ s.rejected, entry ∈ s'.rejected) : s'.Rejected file := by
  obtain ⟨name, manifest, hfile, hmanifest⟩ := h
  exact ⟨name, manifest, hsub _ hfile, hsub _ hmanifest⟩

theorem Ingester.Committed.exec {db : Database} (h : g.Committed db file) (hinv : StoreInv db)
    (call : UpsertCall) : g.Committed (call.exec db).1 file := by
  rcases call.exec_effect hinv with ⟨hsame, -⟩ | ⟨-, ⟨row, -, hsources⟩, hmemory⟩
  · rwa [hsame]
  · obtain ⟨hexists, path, extracted, hextract, hnodes⟩ := h
    refine ⟨?_, path, extracted, hextract, fun node hnode =>
      (hmemory node.key).mpr (.inl (hnodes node hnode))⟩
    rw [Ingester.sourceExists, hsources, List.any_append, Bool.or_eq_true]
    exact .inl hexists

/-! ## One operation -/

theorem Ingester.examine_cases (g : Ingester) (file : IngestFile) (pending : List String) :
    (∃ code message, g.examine file pending = .reject file none code message pending) ∨
      g.examine file pending = .query file pending := by
  unfold Ingester.examine
  split
  · exact .inl ⟨_, _, rfl⟩
  split
  · exact .inr rfl
  · exact .inl ⟨_, _, rfl⟩

theorem IngestInv.move (h : IngestInv g s) {duplicate : Bool}
    (hcontrol : s.control = .move file duplicate pending) (env : IngestEnv) :
    IngestInv g (g.advance env s) := by
  have hflight : s.control.inFlight = none := by rw [hcontrol]; rfl
  have hnothing := h.nothingLost hflight
  have hok := h.control
  simp only [ControlOk, hcontrol] at hok
  obtain ⟨hfile, hcommitted⟩ := hok
  unfold Ingester.advance
  simp only [hcontrol]
  split
  case isFalse => exact h.goto hflight trivial
  case isTrue hin =>
    refine ⟨h.store, h.keys, fun other hother => h.ingest other (List.mem_filter.mp hother).1,
      h.sources, ?_, ?_, ?_⟩
    · intro other hother
      by_cases heq : other = file
      · subst heq
        cases duplicate with
        | true => exact .inr (.inr (.inl (hcommitted rfl)))
        | false => exact .inr (.inr (.inr rfl))
      · rcases hnothing.placed other hother with hother | hrej | hcom
        · exact .inl (List.mem_filter.mpr ⟨hother, by simpa using heq⟩)
        · exact .inr (.inl hrej)
        · exact .inr (.inr (.inl hcom))
    · intro name other hother
      rcases IngestDir.mem_write.mp hother with ⟨hold, -⟩ | ⟨rfl, hnew⟩
      · exact .inl (hnothing.processed name other hold)
      · cases hnew
        cases duplicate with
        | true => exact .inl (hcommitted rfl)
        | false => exact .inr rfl
    · cases duplicate with
      | true => trivial
      | false => exact ⟨IngestDir.mem_write.mpr (.inr ⟨rfl, rfl⟩), hfile⟩

/-- The call of a file that was extracted leaves it committed, unless it fails. -/
theorem IngestInv.committed_of_ok (h : IngestInv g s) {name path : String}
    {extracted : ExtractedMemory} {env : IngestEnv} {outcome : PersistOutcome}
    (hfile : file ∈ s.placed)
    (hextract : g.extract g.orchestratorId path file.bytes = .ok extracted)
    (hresult : ((g.request env file name extracted).exec s.db).2 = .ok outcome) :
    g.Committed ((g.request env file name extracted).exec s.db).1 file := by
  rcases (g.request env file name extracted).exec_effect h.store with
    ⟨hsame, hnot⟩ | ⟨-, ⟨row, hrow, hsources⟩, hmemory⟩
  · -- the key was recorded before
    obtain ⟨found, hfound, horch, hkey⟩ := UpsertCall.recorded_of_ok hresult
    rw [hsame] at hfound ⊢
    refine h.committed_of_exists hfile ?_
    simp only [Ingester.sourceExists, List.any_eq_true, Bool.and_eq_true, beq_iff_eq]
    exact ⟨found, hfound, horch, hkey⟩
  · refine ⟨?_, path, extracted, hextract, fun node hnode =>
      (hmemory node.key).mpr (.inr (List.mem_map_of_mem hnode))⟩
    rw [Ingester.sourceExists, hsources]
    simp [hrow, Ingester.request]

theorem IngestInv.commit (h : IngestInv g s) {name : String} {extracted : ExtractedMemory}
    (hcontrol : s.control = .commit file name extracted pending) (env : IngestEnv) :
    IngestInv g (g.advance env s) := by
  have hok := h.control
  simp only [ControlOk, hcontrol] at hok
  obtain ⟨hat, hfile, path, hextract⟩ := hok
  have hkept : ∀ other, g.Committed s.db other →
      g.Committed ((g.request env file name extracted).exec s.db).1 other :=
    fun other hother => hother.exec h.store _
  have hsources : ∀ row ∈ ((g.request env file name extracted).exec s.db).1.sources,
      row.source.orchestratorId = g.orchestratorId → ∃ other ∈ s.placed,
        g.idempotencyKey other = row.source.idempotencyKey ∧
          g.Committed ((g.request env file name extracted).exec s.db).1 other := by
    intro row hrow horch
    have hold : row ∈ s.db.sources → ∃ other ∈ s.placed,
        g.idempotencyKey other = row.source.idempotencyKey ∧
          g.Committed ((g.request env file name extracted).exec s.db).1 other := by
      intro hrow
      obtain ⟨other, hother, hkey, hcom⟩ := h.sources row hrow horch
      exact ⟨other, hother, hkey, hkept other hcom⟩
    rcases (g.request env file name extracted).exec_effect h.store with
      ⟨hsame, -⟩ | ⟨hresult, ⟨new, hnew, hnewSources⟩, -⟩
    · rw [hsame] at hrow
      exact hold hrow
    · rw [hnewSources] at hrow
      rcases List.mem_append.mp hrow with hrow | hrow
      · exact hold hrow
      · obtain rfl := List.mem_singleton.mp hrow
        exact ⟨file, hfile, by rw [hnew]; rfl, h.committed_of_ok hfile hextract hresult⟩
  have hstore : StoreInv ((g.request env file name extracted).exec s.db).1 :=
    UpsertCall.storeInv_exec _ h.store
  -- once the call has returned `Ok`, the file in flight is committed
  have hdone : ∀ manifest, g.Committed ((g.request env file name extracted).exec s.db).1 file →
      IngestInv g { s with
        db := ((g.request env file name extracted).exec s.db).1
        control := .report name manifest pending } := by
    intro manifest hcom
    refine ⟨hstore, h.keys, h.ingest, hsources, ?_, ?_, trivial⟩
    · intro other hother
      rcases h.placed other hother with hin | hrej | hother | hflight
      · exact .inl hin
      · exact .inr (.inl hrej)
      · exact .inr (.inr (.inl (hkept other hother)))
      · rw [hcontrol] at hflight
        cases hflight
        exact .inr (.inr (.inl hcom))
    · intro at_ other hother
      rcases h.processed at_ other hother with hother | hin
      · exact .inl (hkept other hother)
      · rw [hcontrol] at hin
        cases hin
        exact .inl hcom
  unfold Ingester.advance
  simp only [hcontrol]
  split
  · next hresult => exact hdone _ (h.committed_of_ok hfile hextract hresult)
  · next hresult => exact hdone _ (h.committed_of_ok hfile hextract hresult)
  · refine ⟨hstore, h.keys, h.ingest, hsources, ?_, ?_, hat, hfile⟩
    · intro other hother
      rcases h.placed other hother with hin | hrej | hother | hflight
      · exact .inl hin
      · exact .inr (.inl hrej)
      · exact .inr (.inr (.inl (hkept other hother)))
      · rw [hcontrol] at hflight
        exact .inr (.inr (.inr hflight))
    · intro at_ other hother
      rcases h.processed at_ other hother with hother | hin
      · exact .inl (hkept other hother)
      · rw [hcontrol] at hin
        exact .inr hin

theorem IngestInv.reject (h : IngestInv g s) {processed : Option String} {code message : String}
    (hcontrol : s.control = .reject file processed code message pending) (env : IngestEnv) :
    IngestInv g (g.advance env s) := by
  cases processed with
  | none =>
    have hflight : s.control.inFlight = none := by rw [hcontrol]; rfl
    have hnothing := h.nothingLost hflight
    unfold Ingester.advance
    simp only [hcontrol]
    split
    case isFalse => exact h.goto hflight trivial
    case isTrue hin =>
      refine ⟨h.store, h.keys, fun other hother => h.ingest other (List.mem_filter.mp hother).1,
        h.sources, ?_, fun name other hother => .inl (hnothing.processed name other hother),
        IngestDir.mem_write.mpr (.inr ⟨rfl, rfl⟩)⟩
      intro other hother
      by_cases heq : other = file
      · subst heq
        exact .inr (.inr (.inr rfl))
      · rcases hnothing.placed other hother with hother | hrej | hcom
        · exact .inl (List.mem_filter.mpr ⟨hother, by simpa using heq⟩)
        · exact .inr (.inl (hrej.mono fun _ hentry => IngestDir.mem_write_freeName hentry))
        · exact .inr (.inr (.inl hcom))
  | some at_ =>
    have hok := h.control
    simp only [ControlOk, hcontrol] at hok
    unfold Ingester.advance
    simp only [hcontrol, if_pos hok.1]
    refine ⟨h.store, h.keys, h.ingest, h.sources, ?_, ?_,
      IngestDir.mem_write.mpr (.inr ⟨rfl, rfl⟩)⟩
    · intro other hother
      rcases h.placed other hother with hin | hrej | hcom | hflight
      · exact .inl hin
      · exact .inr (.inl (hrej.mono fun _ hentry => IngestDir.mem_write_freeName hentry))
      · exact .inr (.inr (.inl hcom))
      · rw [hcontrol] at hflight
        exact .inr (.inr (.inr hflight))
    · intro name other hother
      obtain ⟨hold, hne⟩ := List.mem_filter.mp hother
      rcases h.processed name other hold with hcom | hin
      · exact .inl hcom
      · rw [hcontrol] at hin
        cases hin
        simp at hne

theorem IngestInv.rejection (h : IngestInv g s) {name code message : String}
    (hcontrol : s.control = .rejection file name code message pending) (env : IngestEnv)
    (hfree : ∀ other, (manifestName name "rejection", .file other) ∉ s.rejected) :
    IngestInv g (g.advance env s) := by
  have hok := h.control
  simp only [ControlOk, hcontrol] at hok
  unfold Ingester.advance
  simp only [hcontrol]
  refine ⟨h.store, h.keys, h.ingest, h.sources, ?_, ?_, trivial⟩
  · intro other hother
    rcases h.placed other hother with hin | ⟨at_, manifest, hat, hmanifest⟩ | hcom | hflight
    · exact .inl hin
    · right; left
      -- a manifest of the same name is written anew, files stay
      have hstays : at_ ≠ manifestName name "rejection" := by
        rintro rfl
        exact hfree other hat
      by_cases hsame : manifestName at_ "rejection" = manifestName name "rejection"
      · exact ⟨at_, _, IngestDir.mem_write.mpr (.inl ⟨hat, hstays⟩),
          IngestDir.mem_write.mpr (.inr ⟨hsame, rfl⟩)⟩
      · exact ⟨at_, manifest, IngestDir.mem_write.mpr (.inl ⟨hat, hstays⟩),
          IngestDir.mem_write.mpr (.inl ⟨hmanifest, hsame⟩)⟩
    · exact .inr (.inr (.inl hcom))
    · rw [hcontrol] at hflight
      cases hflight
      right; left
      refine ⟨name, _, IngestDir.mem_write.mpr (.inl ⟨hok, ?_⟩),
        IngestDir.mem_write.mpr (.inr ⟨rfl, rfl⟩)⟩
      intro hname
      exact hfree file (hname ▸ hok)
  · intro at_ other hother
    rcases h.processed at_ other hother with hcom | hin
    · exact .inl hcom
    · rw [hcontrol] at hin
      cases hin

theorem IngestInv.advance (h : IngestInv g s) (env : IngestEnv)
    (hsafe : IngestSafe g s (.access env)) : IngestInv g (g.advance env s) := by
  cases hcontrol : s.control with
  | idle =>
    simp only [Ingester.advance, hcontrol]
    exact h.goto (by rw [hcontrol]; rfl) trivial
  | files pending =>
    have hflight : s.control.inFlight = none := by rw [hcontrol]; rfl
    cases pending with
    | nil =>
      simp only [Ingester.advance, hcontrol]
      exact h.goto hflight trivial
    | cons name pending =>
      simp only [Ingester.advance, hcontrol]
      split
      · exact h.goto hflight trivial
      · next file hfind =>
          have hfile := h.ingest file (List.mem_of_find?_eq_some hfind)
          rcases Ingester.examine_cases g file pending with ⟨code, message, he⟩ | he
          · rw [he]
            exact h.goto hflight trivial
          · rw [he]
            exact h.goto hflight hfile
  | query file pending =>
    have hfile : file ∈ s.placed := by
      have hok := h.control
      simpa only [ControlOk, hcontrol] using hok
    simp only [Ingester.advance, hcontrol]
    exact h.goto (by rw [hcontrol]; rfl) ⟨hfile, fun hexists => h.committed_of_exists hfile hexists⟩
  | move file duplicate pending => exact h.move hcontrol env
  | extract file name pending =>
    have hok := h.control
    simp only [ControlOk, hcontrol] at hok
    have hplaced := h.placed
    have hprocessed := h.processed
    simp only [hcontrol, IngestControl.inFlight] at hplaced
    simp only [hcontrol, IngestControl.inProcessed] at hprocessed
    simp only [Ingester.advance, hcontrol]
    split
    · exact ⟨h.store, h.keys, h.ingest, h.sources, hplaced, hprocessed, hok⟩
    · next hextract =>
        exact ⟨h.store, h.keys, h.ingest, h.sources, hplaced, hprocessed,
          hok.1, hok.2, _, hextract⟩
  | commit file name extracted pending => exact h.commit hcontrol env
  | report name manifest pending =>
    have hnothing := h.nothingLost (by rw [hcontrol]; rfl)
    simp only [Ingester.advance, hcontrol]
    refine ⟨h.store, h.keys, h.ingest, h.sources, ?_, ?_, trivial⟩
    · intro other hother
      rcases hnothing.placed other hother with hin | hrej | hcom
      · exact .inl hin
      · exact .inr (.inl hrej)
      · exact .inr (.inr (.inl hcom))
    · intro at_ other hother
      rcases IngestDir.mem_write.mp hother with ⟨hold, -⟩ | ⟨-, hnew⟩
      · exact .inl (hnothing.processed at_ other hold)
      · cases hnew
  | reject file processed code message pending => exact h.reject hcontrol env
  | rejection file name code message pending =>
    refine h.rejection hcontrol env (IngestDir.holdsFile_false ?_)
    simpa only [IngestSafe, hcontrol, IngestControl.rejectionManifest] using hsafe

theorem IngestInv.step (h : IngestInv g s) {event : IngestEvent} (hsafe : IngestSafe g s event) :
    IngestInv g (g.step s event) := by
  cases event with
  | access env => exact h.advance env hsafe
  | crash => exact h.goto hsafe trivial
  | place file =>
    simp only [Ingester.step]
    split
    · exact h
    · refine ⟨h.store, ?_, ?_, ?_, ?_, h.processed, ?_⟩
      · intro one hone two htwo hkey
        rcases List.mem_append.mp hone with hold | hnew <;>
          rcases List.mem_append.mp htwo with hold' | hnew'
        · exact h.keys one hold two hold' hkey
        · rw [List.mem_singleton.mp hnew'] at hkey ⊢
          exact hsafe one hold hkey
        · rw [List.mem_singleton.mp hnew] at hkey ⊢
          exact (hsafe two hold' hkey.symm).symm
        · rw [List.mem_singleton.mp hnew, List.mem_singleton.mp hnew']
      · intro other hother
        rcases List.mem_append.mp hother with hother | hother
        · exact List.mem_append_left _ (h.ingest other hother)
        · exact List.mem_append_right _ hother
      · intro row hrow horch
        obtain ⟨other, hother, hrest⟩ := h.sources row hrow horch
        exact ⟨other, List.mem_append_left _ hother, hrest⟩
      · intro other hother
        rcases List.mem_append.mp hother with hother | hother
        · rcases h.placed other hother with hin | hrest
          · exact .inl (List.mem_append_left _ hin)
          · exact .inr hrest
        · exact .inl (List.mem_append_right _ hother)
      · have hok := h.control
        unfold ControlOk at hok ⊢
        dsimp only
        split at hok <;> simp_all

/-! ## Every history -/

end Invariant

/-! ## A crash behind the move -/

/-- What `extract_plain_text` makes of a short text in ASCII. -/
def extractNote (sha256 : List UInt8 → List UInt8) (orchestratorId path : String)
    (bytes : List UInt8) : Except MemoryExtractionError ExtractedMemory :=
  let content := String.ofList (normalizeText (bytes.map fun byte => Char.ofNat byte.toNat))
  let digest := sha256 (utf8Bytes path ++ 0 :: bytes ++ 0 :: utf8Bytes "0")
  .ok {
    nodes := [
      { memoryId := "ingest-" ++ String.ofList ((digest.take 12).flatMap hexByte)
        orchestratorId, nodeType := .observation, importance := 50, content, summary := content
        confidence := 0x3F19999A
        source :=
          { sourceType := .ingestFile, sourcePath := some path, capturedBy := .extractor }
        status := .active, createdAt := 1700000000, updatedAt := 1700000000 }] }

def noteIngester : Ingester :=
  { orchestratorId := "eng", ingest := "/srv/ingest", ingestProcessed := "/srv/ingest/processed"
    ingestRejected := "/srv/ingest/rejected", maxFileSizeMb := 1, sha256 := Sha256.digest
    extract := extractNote Sha256.digest, errorText := fun _ => "" }

def shipNote : IngestFile := { name := "note.txt", bytes := utf8Bytes "ship on friday" }

def ingestAccess : IngestEvent := .access { canonicalize := some, now := 1700000000 }

/-- The file goes through all of `process_one_file`, and a crash follows. -/
def noteIngested : List IngestEvent :=
  .place shipNote :: List.replicate 7 ingestAccess ++ [.crash, ingestAccess, ingestAccess]

/-- The crash comes between the move to `ingest_processed` and the commit. -/
def noteMoved : List IngestEvent :=
  .place shipNote :: List.replicate 4 ingestAccess ++ .crash :: List.replicate 6 ingestAccess

end Direclaw.Memory
