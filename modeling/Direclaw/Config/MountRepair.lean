import Direclaw.Config.Mounts
import Direclaw.Lib.Alike
import Direclaw.Lib.LinkDir

/-!
# Repairing the shared mounts

`reconcile_orchestrator_shared_mounts` over a mount directory with nothing but links in it. The
repair that is meant sets every granted link that does not lead to its workspace, and drops the
links without a grant. It is stated on the links alone, and the program is compared with it.
-/

namespace Direclaw.Config

open Direclaw.Lib Direclaw.Lib.Disk Direclaw.Orchestration

/-! ## Names -/

def PlainName (text : String) : Prop := FilePath.parse text = ⟨false, [.normal text]⟩

instance (text : String) : Decidable (PlainName text) := inferInstanceAs (Decidable (_ = _))

variable {path : FilePath}

theorem join_plain {key : String} (h : PlainName key) :
    path.join (.parse key) = below path (.normal key) := by
  rw [show FilePath.parse key = _ from h]
  rfl

/-- The names in a path that is read from a text are plain. -/
theorem plain_of_mem_parse {text name : String}
    (h : PathComponent.normal name ∈ (FilePath.parse text).components) : PlainName name := by
  obtain ⟨piece, hpiece, hname⟩ := List.mem_map.mp h
  obtain ⟨hsplit, hproper⟩ := List.mem_filter.mp hpiece
  have hne : piece ≠ [] ∧ piece ≠ ['.'] := of_decide_eq_true hproper
  split at hname
  · cases hname
  · next hdots =>
      obtain rfl := PathComponent.normal.inj hname
      have hslash : '/' ∉ piece := not_mem_of_mem_splitOn hsplit
      have hsingle : piece.splitOn '/' = [piece] := by
        have happend := splitOn_append hslash []
        rw [List.append_nil, List.splitOn_nil] at happend
        rw [happend]
        exact congrArg (fun block => [block]) (List.append_nil piece)
      have hhead : (piece.head? == some '/') = false := by
        cases piece with
        | nil => rfl
        | cons c rest =>
          have hc : c ≠ '/' := fun heq => hslash (heq ▸ List.mem_cons_self)
          simpa using hc
      unfold PlainName FilePath.parse
      rw [String.toList_ofList, hsingle, hhead]
      simp [hne.1, hne.2, hdots]

/-! ## The repair that is meant -/

section Repair

variable (root : FilePath) (dir : Location)

/-- A granted link that does not lead to its target is set to it. -/
def settled (d : Disk) (mount : String × Location) : Disk :=
  if pointsTo d (below root (.normal mount.1)) mount.2 then d
  else d.relink (dir ++ [mount.1]) (some (.link (.ofLocation mount.2)))

/-- The links among the names that have no grant are dropped. -/
def cleared (desired : List (String × Location)) (names : List String) (d : Disk) : Disk :=
  names.foldl
    (fun d name =>
      if (desired.lookup name).isSome then d else d.relink (dir ++ [name]) none) d

def repaired (desired : List (String × Location)) (d : Disk) : Disk :=
  cleared dir desired (namesIn (desired.foldl (settled root dir) d) dir)
    (desired.foldl (settled root dir) d)

/-- In its turn a granted name has a link to its target, or a link that leads somewhere else, or
none. -/
def TurnReady (d : Disk) (mount : String × Location) : Prop :=
  pointsTo d (below root (.normal mount.1)) mount.2 = true ∨
    d.refuses (dir ++ [mount.1]) = false ∧
      (d.entry (dir ++ [mount.1]) = none ∨
        d.pathExists (below root (.normal mount.1)) = true)

end Repair

/-! ## One mount -/

section Mount

variable {root : FilePath} {dir : Location} {d d' : Disk}

theorem pointsTo_iff {path : FilePath} {target : Location} :
    pointsTo d path target = true ↔ d.fs.canonicalize path = .ok target := by
  unfold pointsTo
  cases d.fs.canonicalize path with
  | error err => simp
  | ok actual => simp [normalize_ofLocation, Except.toOption]

theorem LinkDir.entry_of_exists (h : LinkDir root dir d) {name : String}
    (hexists : d.pathExists (below root (.normal name)) = true) :
    ∃ held, d.entry (dir ++ [name]) = some (.link held) := by
  cases hentry : d.entry (dir ++ [name]) with
  | none =>
    rw [h.pathExists_of_none hentry] at hexists
    cases hexists
  | some found =>
    obtain ⟨held, rfl⟩ := h.links name found hentry
    exact ⟨held, rfl⟩

theorem relinked_settled (h : LinkDir root dir d) (mount : String × Location) :
    Relinked dir d (settled root dir d mount) := by
  unfold settled
  split
  · exact h.refl
  · exact h.relinked_relink mount.1 (some (.ofLocation mount.2))

/-- A mount is reconciled when it is ready in its turn, and then as it is meant. -/
theorem reconcileMountPath_ok_iff (h : LinkDir root dir d) (notSymlink : String)
    (mount : String × Location) :
    reconcileMountPath notSymlink (below root (.normal mount.1)) mount.2 d = .ok () d' ↔
      TurnReady root dir d mount ∧ d' = settled root dir d mount := by
  obtain ⟨key, target⟩ := mount
  cases mountCase notSymlink (below root (.normal key)) target d with
  | absent hmissing hrun =>
    have hpoints : pointsTo d (below root (.normal key)) target = false := by
      cases hpoints : pointsTo d (below root (.normal key)) target with
      | false => rfl
      | true =>
        rw [pathExists, pointsTo_iff.mp hpoints] at hmissing
        cases hmissing
    rw [hrun, ioCall_eq_ok, h.symlink_ok_iff]
    simp [TurnReady, settled, hpoints, hmissing, and_assoc, and_left_comm]
  | kept held hexists hlink hpoints hrun =>
    have hsettled : settled root dir d (key, target) = d := if_pos hpoints
    rw [hrun, hsettled]
    constructor
    · intro h
      cases h
      exact ⟨.inl hpoints, rfl⟩
    · rintro ⟨-, rfl⟩
      rfl
  | replaced held hexists hlink hpoints hrun =>
    obtain ⟨old, hentry⟩ := LinkDir.entry_of_exists h hexists
    have hremoved : LinkDir root dir (d.relink (dir ++ [key]) none) :=
      h.relinked (h.relinked_remove key)
    have hnone : (d.relink (dir ++ [key]) none).entry (dir ++ [key]) = none := by
      rw [relink_eq (h.changes key), entry_changed_self]
    have hsettled : settled root dir d (key, target) =
        d.relink (dir ++ [key]) (some (.link (.ofLocation target))) :=
      if_neg (by rw [hpoints]; decide)
    rw [hrun, hsettled, ← h.relink_relink key]
    constructor
    · intro hok
      obtain ⟨_, d₁, hremove, hcreate⟩ := of_bind_eq_ok hok
      obtain ⟨-, hallowed, rfl⟩ := h.removeFile_ok_iff.mp (ioCall_eq_ok.mp hremove)
      obtain ⟨-, -, hd'⟩ := hremoved.symlink_ok_iff.mp (ioCall_eq_ok.mp hcreate)
      exact ⟨.inr ⟨hallowed, .inr hexists⟩, hd'⟩
    · rintro ⟨hpoints' | ⟨hallowed, -⟩, hd'⟩
      · cases hpoints.symm.trans hpoints'
      · have hremove : removeFile (below root (.normal key)) d =
            .ok (d.relink (dir ++ [key]) none) :=
          h.removeFile_ok_iff.mpr ⟨by rw [hentry]; rfl, hallowed, rfl⟩
        have hrunRemove : ioCall (below root (.normal key))
            (removeFile (below root (.normal key))) d =
              .ok () (d.relink (dir ++ [key]) none) := ioCall_eq_ok.mpr hremove
        rw [bind_of_ok hrunRemove]
        apply ioCall_eq_ok.mpr
        exact hremoved.symlink_ok_iff.mpr ⟨hnone, by rw [relink_refuses, hallowed], hd'⟩
  | blocked err hexists hother hrun =>
    obtain ⟨held, hentry⟩ := LinkDir.entry_of_exists h hexists
    refine absurd ⟨held, ?_⟩ hother
    rw [h.symlinkMetadata, hentry]

end Mount

/-! ## All granted mounts -/

section Mounts

variable {root : FilePath} {dir : Location} {d d' : Disk} {desired : List (String × Location)}

/-- Every mount is ready in its turn, when those before it are set. -/
def TurnsReady (root : FilePath) (dir : Location) (desired : List (String × Location))
    (d : Disk) : Prop :=
  ∀ before mount, before ++ [mount] <+: desired →
    TurnReady root dir (before.foldl (settled root dir) d) mount

variable {mount : String × Location} {name : String}

theorem turnsReady_cons :
    TurnsReady root dir (mount :: desired) d ↔
      TurnReady root dir d mount ∧ TurnsReady root dir desired (settled root dir d mount) := by
  constructor
  · intro h
    refine ⟨h [] mount (List.cons_prefix_cons.mpr ⟨rfl, List.nil_prefix⟩),
      fun before next hnext => ?_⟩
    exact h (mount :: before) next (List.cons_prefix_cons.mpr ⟨rfl, hnext⟩)
  · rintro ⟨hfirst, hrest⟩ before next hnext
    cases before with
    | nil =>
      obtain ⟨rfl, -⟩ := List.cons_prefix_cons.mp hnext
      exact hfirst
    | cons held before =>
      obtain ⟨rfl, hafter⟩ := List.cons_prefix_cons.mp hnext
      exact hrest before next hafter

theorem relinked_foldl_settled (desired : List (String × Location)) : ∀ {d : Disk},
    LinkDir root dir d → Relinked dir d (desired.foldl (settled root dir) d) := by
  induction desired with
  | nil => exact fun h => h.refl
  | cons mount rest ih =>
    intro d h
    have hmount := relinked_settled h mount
    exact hmount.trans (ih (h.relinked hmount))

theorem inOrder_reconcile_ok_iff (orchestratorId : String) (desired : List (String × Location))
    (hplain : ∀ mount ∈ desired, PlainName mount.1) : ∀ {d d' : Disk}, LinkDir root dir d →
      (inOrder (reconcileSharedMount orchestratorId root) desired d = .ok () d' ↔
        TurnsReady root dir desired d ∧ d' = desired.foldl (settled root dir) d) := by
  induction desired with
  | nil =>
    intro d d' h
    constructor
    · intro hok
      cases hok
      refine ⟨fun before mount hbefore => ?_, rfl⟩
      exact absurd (List.prefix_nil.mp hbefore) (List.concat_ne_nil mount before)
    · rintro ⟨-, rfl⟩
      rfl
  | cons mount rest ih =>
    intro d d' h
    have hfirst {d₁ : Disk} : reconcileSharedMount orchestratorId root mount d = .ok () d₁ ↔
        TurnReady root dir d mount ∧ d₁ = settled root dir d mount := by
      unfold reconcileSharedMount
      rw [join_plain (hplain mount List.mem_cons_self)]
      exact reconcileMountPath_ok_iff h _ mount
    have hrest : inOrder (reconcileSharedMount orchestratorId root) rest
        (settled root dir d mount) = .ok () d' ↔ _ :=
      ih (fun next hnext => hplain next (List.mem_cons_of_mem _ hnext))
        (h.relinked (relinked_settled h mount))
    rw [turnsReady_cons, List.foldl_cons, and_assoc]
    constructor
    · intro hok
      obtain ⟨_, d₁, hmount, hok⟩ := of_bind_eq_ok hok
      obtain ⟨hready, rfl⟩ := hfirst.mp hmount
      exact ⟨hready, hrest.mp hok⟩
    · rintro ⟨hready, hturns⟩
      have hmount : reconcileSharedMount orchestratorId root mount d =
          .ok () (settled root dir d mount) := hfirst.mpr ⟨hready, rfl⟩
      exact (bind_of_ok hmount).trans (hrest.mpr hturns)

theorem entry_settled_of_ne (h : name ≠ mount.1) :
    (settled root dir d mount).entry (dir ++ [name]) = d.entry (dir ++ [name]) := by
  unfold settled
  split
  · rfl
  · exact entry_relink_of_ne d (by simpa using h) _

theorem entry_foldl_settled_of_ne (desired : List (String × Location)) :
    ∀ {d : Disk}, (∀ mount ∈ desired, name ≠ mount.1) →
      (desired.foldl (settled root dir) d).entry (dir ++ [name]) = d.entry (dir ++ [name]) := by
  induction desired with
  | nil => exact fun _ => rfl
  | cons mount rest ih =>
    intro d h
    refine (ih fun next hnext => h next (List.mem_cons_of_mem _ hnext)).trans ?_
    exact entry_settled_of_ne (h mount List.mem_cons_self)

/-! ## Stale links -/

theorem removeStaleMount_ok_iff (h : LinkDir root dir d)
    (hlisted : (d.entry (dir ++ [name])).isSome) :
    removeStaleMount root desired name d = .ok () d' ↔
      (desired.lookup name = none → d.refuses (dir ++ [name]) = false) ∧
        d' = if (desired.lookup name).isSome then d else d.relink (dir ++ [name]) none := by
  unfold removeStaleMount
  cases hdesired : desired.lookup name with
  | some target =>
    simp only [Option.isSome_some, if_true]
    constructor
    · intro hok
      cases hok
      exact ⟨nofun, rfl⟩
    · rintro ⟨-, rfl⟩
      rfl
  | none =>
    obtain ⟨found, hentry⟩ := Option.isSome_iff_exists.mp hlisted
    obtain ⟨held, rfl⟩ := h.links name found hentry
    have hmeta : symlinkMetadata (below root (.normal name)) d = .ok (.link held) := by
      rw [h.symlinkMetadata, hentry]
    simp only [Option.isSome_none, Bool.false_eq_true, if_false, hmeta]
    rw [ioCall_eq_ok, h.removeFile_ok_iff]
    simp [hlisted]

theorem relinked_cleared (names : List String) : ∀ {d : Disk}, LinkDir root dir d →
    Relinked dir d (cleared dir desired names d) := by
  induction names with
  | nil => exact fun h => h.refl
  | cons name names ih =>
    intro d h
    have hname : Relinked dir d
        (if (desired.lookup name).isSome then d else d.relink (dir ++ [name]) none) := by
      split
      · exact h.refl
      · exact h.relinked_remove name
    exact hname.trans (ih (h.relinked hname))

theorem entry_cleared (names : List String) (name : String) : ∀ {d : Disk}, LinkDir root dir d →
    (cleared dir desired names d).entry (dir ++ [name]) =
      if name ∈ names ∧ desired.lookup name = none then none else d.entry (dir ++ [name]) := by
  induction names with
  | nil =>
    intro d h
    rw [if_neg (by simp)]
    rfl
  | cons first names ih =>
    intro d h
    show (cleared dir desired names
      (if (desired.lookup first).isSome then d else d.relink (dir ++ [first]) none)).entry _ = _
    cases hfirst : desired.lookup first with
    | some target =>
      rw [Option.isSome_some, if_pos rfl, ih h]
      refine if_congr ⟨fun hn => ⟨List.mem_cons_of_mem _ hn.1, hn.2⟩, fun hn => ?_⟩ rfl rfl
      rcases List.mem_cons.mp hn.1 with rfl | hmem
      · cases hfirst.symm.trans hn.2
      · exact ⟨hmem, hn.2⟩
    | none =>
      have hlinks := h.relinked (h.relinked_remove first)
      rw [Option.isSome_none, if_neg (by decide)]
      refine (ih hlinks).trans ?_
      by_cases hname : name = first
      · subst hname
        have hgone : (d.relink (dir ++ [name]) none).entry (dir ++ [name]) = none := by
          rw [relink_eq (h.changes name), entry_changed_self]
        rw [hgone, ite_self, if_pos ⟨List.mem_cons_self, hfirst⟩]
      · rw [entry_relink_of_ne d (by simpa using hname)]
        exact if_congr (by simp [hname]) rfl rfl

theorem inOrder_removeStale_ok_iff (names : List String) : ∀ {d d' : Disk}, LinkDir root dir d →
    names.Nodup → (∀ name ∈ names, (d.entry (dir ++ [name])).isSome) →
      (inOrder (removeStaleMount root desired) names d = .ok () d' ↔
        (∀ name ∈ names, desired.lookup name = none → d.refuses (dir ++ [name]) = false) ∧
          d' = cleared dir desired names d) := by
  induction names with
  | nil =>
    intro d d' h _ _
    constructor
    · intro hok
      cases hok
      exact ⟨List.forall_mem_nil _, rfl⟩
    · rintro ⟨-, rfl⟩
      rfl
  | cons name names ih =>
    intro d d' h hnodup hlisted
    obtain ⟨hfresh, hnodup⟩ := List.nodup_cons.mp hnodup
    have hone {d₁ : Disk} : removeStaleMount root desired name d = .ok () d₁ ↔ _ :=
      removeStaleMount_ok_iff h (hlisted name List.mem_cons_self)
    have hstep : Relinked dir d
        (if (desired.lookup name).isSome then d else d.relink (dir ++ [name]) none) := by
      split
      · exact h.refl
      · exact h.relinked_remove name
    have hothers (other : String) (hother : other ∈ names) :
        ((if (desired.lookup name).isSome then d else d.relink (dir ++ [name]) none).entry
          (dir ++ [other])).isSome := by
      have hne : other ≠ name := fun heq => hfresh (heq ▸ hother)
      split
      · exact hlisted other (List.mem_cons_of_mem _ hother)
      · rw [entry_relink_of_ne d (by simpa using hne)]
        exact hlisted other (List.mem_cons_of_mem _ hother)
    have hrest : inOrder (removeStaleMount root desired) names
        (if (desired.lookup name).isSome then d else d.relink (dir ++ [name]) none) =
          .ok () d' ↔ _ := ih (h.relinked hstep) hnodup hothers
    rw [hstep.refuses] at hrest
    rw [List.forall_mem_cons, and_assoc]
    constructor
    · intro hok
      obtain ⟨_, d₁, hname, hok⟩ := of_bind_eq_ok hok
      obtain ⟨hallowed, rfl⟩ := hone.mp hname
      exact ⟨hallowed, hrest.mp hok⟩
    · rintro ⟨hallowed, hnames⟩
      have hname : removeStaleMount root desired name d =
          .ok () (if (desired.lookup name).isSome then d else d.relink (dir ++ [name]) none) :=
        hone.mpr ⟨hallowed, rfl⟩
      exact (bind_of_ok hname).trans (hrest.mpr hnames)

/-- The system lets the links be removed that have no grant. -/
def StaleAllowed (dir : Location) (desired : List (String × Location)) (d : Disk) : Prop :=
  ∀ name, (d.entry (dir ++ [name])).isSome → desired.lookup name = none →
    d.refuses (dir ++ [name]) = false

theorem removeStaleSymlinkMounts_ok_iff (h : LinkDir root dir d) :
    removeStaleSymlinkMounts root desired d = .ok () d' ↔
      StaleAllowed dir desired d ∧ d' = cleared dir desired (namesIn d dir) d := by
  have hrun : removeStaleSymlinkMounts root desired d =
      inOrder (removeStaleMount root desired) (namesIn d dir) d := by
    simp only [removeStaleSymlinkMounts, h.readDir]
  rw [hrun, inOrder_removeStale_ok_iff _ h h.nodup_namesIn fun name => mem_namesIn_iff_entry.mp]
  exact and_congr_left' (forall_congr' fun name => imp_congr_left mem_namesIn_iff_entry)

/-! ## The whole directory -/

theorem staleAllowed_foldl_settled (h : LinkDir root dir d) :
    StaleAllowed dir desired (desired.foldl (settled root dir) d) ↔ StaleAllowed dir desired d := by
  refine forall_congr' fun name => ?_
  rw [(relinked_foldl_settled desired h).refuses]
  have hentry (hnone : desired.lookup name = none) :
      (desired.foldl (settled root dir) d).entry (dir ++ [name]) = d.entry (dir ++ [name]) :=
    entry_foldl_settled_of_ne desired fun mount hmount heq => by
      have hother := List.lookup_eq_none_iff.mp hnone mount hmount
      simp [heq] at hother
  constructor
  · intro hallowed hlisted hnone
    exact hallowed (by rw [hentry hnone]; exact hlisted) hnone
  · intro hallowed hlisted hnone
    rw [hentry hnone] at hlisted
    exact hallowed hlisted hnone

theorem mountShared_ok_iff {settings : GlobalSettings} {orchestratorId : String}
    {grants : List String} (h : LinkDir root dir d)
    (hdesired : desiredMounts settings orchestratorId d [] grants = .ok desired)
    (hplain : ∀ mount ∈ desired, PlainName mount.1) :
    mountShared settings orchestratorId root grants d = .ok () d' ↔
      TurnsReady root dir desired d ∧ StaleAllowed dir desired d ∧
        d' = repaired root dir desired d := by
  have hrun : mountShared settings orchestratorId root grants d =
      (do
        inOrder (reconcileSharedMount orchestratorId root) desired
        removeStaleSymlinkMounts root desired) d := by
    simp only [mountShared, hdesired]
  have hset {d₁ : Disk} :
      inOrder (reconcileSharedMount orchestratorId root) desired d = .ok () d₁ ↔ _ :=
    inOrder_reconcile_ok_iff orchestratorId desired hplain h
  have hclear : removeStaleSymlinkMounts root desired (desired.foldl (settled root dir) d) =
      .ok () d' ↔ _ :=
    removeStaleSymlinkMounts_ok_iff (h.relinked (relinked_foldl_settled desired h))
  rw [hrun]
  rw [staleAllowed_foldl_settled h] at hclear
  constructor
  · intro hok
    obtain ⟨_, d₁, hmounts, hok⟩ := of_bind_eq_ok hok
    obtain ⟨hturns, rfl⟩ := hset.mp hmounts
    exact ⟨hturns, hclear.mp hok⟩
  · rintro ⟨hturns, hstale⟩
    have hmounts : inOrder (reconcileSharedMount orchestratorId root) desired d =
        .ok () (desired.foldl (settled root dir) d) := hset.mpr ⟨hturns, rfl⟩
    exact (bind_of_ok hmounts).trans (hclear.mpr hstale)

/-! ## What the repair leaves -/

theorem relinked_repaired (h : LinkDir root dir d) :
    Relinked dir d (repaired root dir desired d) := by
  have hsettled := relinked_foldl_settled desired h
  exact hsettled.trans (relinked_cleared _ (h.relinked hsettled))

/-- No link is left without a grant. -/
theorem lookup_of_entry_repaired (h : LinkDir root dir d)
    (hentry : ((repaired root dir desired d).entry (dir ++ [name])).isSome) :
    (desired.lookup name).isSome := by
  have hsettled := h.relinked (relinked_foldl_settled desired h)
  rw [repaired, entry_cleared _ _ hsettled] at hentry
  by_contra hnone
  have hlookup : desired.lookup name = none := Option.not_isSome_iff_eq_none.mp hnone
  by_cases hlisted : name ∈ namesIn (desired.foldl (settled root dir) d) dir
  · rw [if_pos ⟨hlisted, hlookup⟩] at hentry
    cases hentry
  · rw [if_neg fun hboth => hlisted hboth.1] at hentry
    exact hlisted (mem_namesIn_iff_entry.mpr hentry)

/-- A granted name keeps what it has after its turn. -/
theorem entry_repaired (h : LinkDir root dir d) {before after : List (String × Location)}
    (hsplit : desired = before ++ mount :: after) (hkeys : (desired.map (·.1)).Nodup) :
    (repaired root dir desired d).entry (dir ++ [mount.1]) =
      (settled root dir (before.foldl (settled root dir) d) mount).entry (dir ++ [mount.1]) := by
  have hmem : mount ∈ desired := hsplit ▸ List.mem_append_right _ List.mem_cons_self
  have hlookup := OrderedMap.lookup_of_mem hkeys hmem
  have hafter : ∀ next ∈ after, mount.1 ≠ next.1 := by
    intro next hnext heq
    rw [hsplit, List.map_append, List.map_cons] at hkeys
    have hfresh := (List.nodup_cons.mp (List.nodup_append.mp hkeys).2.1).1
    exact hfresh (heq ▸ List.mem_map_of_mem hnext)
  rw [repaired, entry_cleared _ _ (h.relinked (relinked_foldl_settled desired h)),
    if_neg (by simp [hlookup])]
  conv_lhs => rw [hsplit, List.foldl_append, List.foldl_cons]
  exact entry_foldl_settled_of_ne after hafter

theorem entry_settled (h : LinkDir root dir d) (mount : String × Location) :
    (pointsTo d (below root (.normal mount.1)) mount.2 = true ∧
        ∃ held, (settled root dir d mount).entry (dir ++ [mount.1]) = some (.link held)) ∨
      pointsTo d (below root (.normal mount.1)) mount.2 = false ∧
        (settled root dir d mount).entry (dir ++ [mount.1]) =
          some (.link (.ofLocation mount.2)) := by
  cases hpoints : pointsTo d (below root (.normal mount.1)) mount.2 with
  | true =>
    have hexists : d.pathExists (below root (.normal mount.1)) = true := by
      rw [pathExists, pointsTo_iff.mp hpoints]
      rfl
    rw [settled, if_pos hpoints]
    exact .inl ⟨rfl, LinkDir.entry_of_exists h hexists⟩
  | false =>
    rw [settled, if_neg (by rw [hpoints]; decide), relink_eq (h.changes mount.1),
      entry_changed_self]
    exact .inr ⟨rfl, rfl⟩

end Mounts

/-! ## Convergence -/

section Converges

variable {settings : GlobalSettings} {orchestratorId : String} {grants : List String}

def grantTarget (settings : GlobalSettings) (d : Disk) (key : String) : Option Location :=
  (settings.sharedWorkspaces.lookup key).bind fun shared =>
    (d.fs.canonicalize (.parse shared.path)).toOption

/-- The links of the mount directory are those of the granted keys, and each leads to the place
that the key's path led to. -/
structure Mounted (settings : GlobalSettings) (grants : List String) (root : FilePath)
    (dir : Location) (d d' : Disk) : Prop where
  granted : ∀ key ∈ grants, ∃ target, grantTarget settings d key = some target ∧
    (∃ held, d'.entry (dir ++ [key]) = some (.link held)) ∧
      d'.fs.canonicalize (below root (.normal key)) = .ok target
  only : ∀ name, (d'.entry (dir ++ [name])).isSome → name ∈ grants

/-- The call succeeds, leaves what is granted, and then changes nothing. -/
def Converges (settings : GlobalSettings) (orchestratorId : String) (grants : List String)
    (root : FilePath) (dir : Location) (d : Disk) : Prop :=
  ∃ d', reconcileOrchestratorSharedMounts settings orchestratorId d = .ok () d' ∧
    Mounted settings grants root dir d d' ∧
      reconcileOrchestratorSharedMounts settings orchestratorId d' = .ok () d'

/-- The shared workspaces exist, and the mount directory has links only, through which the path of
the private workspace does not lead. `found` is the disk once the directory is there. -/
structure MountSite (settings : GlobalSettings) (orchestratorId : String) (workspace : Location)
    (grants : List String) (dir : Location) (d found : Disk) : Prop where
  resolved : privateWorkspaceRoot settings orchestratorId = .ok workspace
  granted : grantsOf settings orchestratorId = .ok grants
  exist : GrantsExist settings grants d
  made : ∃ d₁, createDirAll (.ofLocation workspace) d = .ok () d₁ ∧
    createDirAll (.ofLocation (workspace ++ ["shared"])) d₁ = .ok () found
  links : LinkDir (.ofLocation (workspace ++ ["shared"])) dir found
  named : ∀ name, (found.entry (dir ++ [name])).isSome → PlainName name

/-- The links that the call can repair: the granted keys are names, every granted link is ready in
its turn, a link that is left alone in its turn is still right when all is done, the stale links
may be removed, and the workspaces are where they were when all is done. -/
structure Repairable (settings : GlobalSettings) (root : FilePath) (dir : Location)
    (desired : List (String × Location)) (d : Disk) : Prop where
  plain : ∀ mount ∈ desired, PlainName mount.1
  turns : TurnsReady root dir desired d
  kept : ∀ before mount, before ++ [mount] <+: desired →
    pointsTo (before.foldl (settled root dir) d) (below root (.normal mount.1)) mount.2 = true →
      pointsTo (repaired root dir desired d) (below root (.normal mount.1)) mount.2 = true
  stale : StaleAllowed dir desired d
  targets : ∀ mount ∈ desired,
    grantTarget settings (repaired root dir desired d) mount.1 = some mount.2

/-! ### What is desired -/

theorem grantTarget_eq_some_iff {d : Disk} {key : String} {target : Location} :
    grantTarget settings d key = some target ↔
      ∃ shared, settings.sharedWorkspaces.lookup key = some shared ∧
        d.fs.canonicalize (.parse shared.path) = .ok target := by
  unfold grantTarget
  rw [Option.bind_eq_some_iff]
  refine exists_congr fun shared => and_congr_right fun _ => ?_
  cases d.fs.canonicalize (.parse shared.path) with
  | error err => simp [Except.toOption]
  | ok loc => simp [Except.toOption]

theorem exists_grantTarget {d : Disk} (h : GrantsExist settings grants d) {key : String}
    (hkey : key ∈ grants) : ∃ target, grantTarget settings d key = some target := by
  obtain ⟨shared, hshared, hexists⟩ := h key hkey
  unfold pathExists at hexists
  cases hpath : d.fs.canonicalize (.parse shared.path) with
  | error err =>
    rw [hpath] at hexists
    cases hexists
  | ok target => exact ⟨target, grantTarget_eq_some_iff.mpr ⟨shared, hshared, hpath⟩⟩

theorem desiredMounts_congr {d d' : Disk} (h : ∀ key ∈ grants, ∃ target,
      grantTarget settings d key = some target ∧ grantTarget settings d' key = some target) :
    ∀ desired, desiredMounts settings orchestratorId d' desired grants =
      desiredMounts settings orchestratorId d desired grants := by
  induction grants with
  | nil => exact fun _ => rfl
  | cons key keys ih =>
    intro desired
    have hkeys := ih fun next hnext => h next (List.mem_cons_of_mem _ hnext)
    obtain ⟨target, hbefore, hafter⟩ := h key List.mem_cons_self
    obtain ⟨shared, hshared, hpath⟩ := grantTarget_eq_some_iff.mp hbefore
    obtain ⟨_, hshared', hpath'⟩ := grantTarget_eq_some_iff.mp hafter
    cases hshared.symm.trans hshared'
    simp only [desiredMounts, hshared, hpath, hpath', hkeys]

theorem desiredMounts_spec {d : Disk} {acc desired : List (String × Location)}
    (hacc : OrderedMap.Sorted acc)
    (h : desiredMounts settings orchestratorId d acc grants = .ok desired) :
    OrderedMap.Sorted desired ∧ ∀ key, desired.lookup key =
      if key ∈ grants then grantTarget settings d key else acc.lookup key := by
  induction grants generalizing acc with
  | nil =>
    cases h
    exact ⟨hacc, fun key => rfl⟩
  | cons key keys ih =>
    cases hkey : settings.sharedWorkspaces.lookup key with
    | none =>
      rw [desiredMounts, hkey] at h
      cases h
    | some target =>
      cases hpath : d.fs.canonicalize (.parse target.path) with
      | error err =>
        simp only [desiredMounts, hkey, hpath] at h
        cases h
      | ok loc =>
        simp only [desiredMounts, hkey, hpath, normalize_ofLocation] at h
        obtain ⟨hsorted, hlookup⟩ := ih hacc.insert h
        refine ⟨hsorted, fun other => (hlookup other).trans ?_⟩
        have htarget : grantTarget settings d key = some loc :=
          grantTarget_eq_some_iff.mpr ⟨target, hkey, hpath⟩
        by_cases hother : other ∈ keys
        · rw [if_pos hother, if_pos (List.mem_cons_of_mem _ hother)]
        · rw [if_neg hother]
          by_cases heq : other = key
          · rw [heq, OrderedMap.lookup_insert_self, if_pos List.mem_cons_self, htarget]
          · rw [OrderedMap.lookup_insert_of_ne heq, if_neg (by simp [heq, hother])]

/-- The mounts are those of the granted keys, each once. -/
theorem mem_desiredMounts_iff {d : Disk} {desired : List (String × Location)}
    (h : desiredMounts settings orchestratorId d [] grants = .ok desired) :
    (desired.map (·.1)).Nodup ∧ ∀ {mount}, mount ∈ desired ↔
      mount.1 ∈ grants ∧ grantTarget settings d mount.1 = some mount.2 := by
  have hnil : OrderedMap.Sorted ([] : List (String × Location)) := List.Pairwise.nil
  obtain ⟨hsorted, hlookup⟩ := desiredMounts_spec hnil h
  refine ⟨hsorted.nodup, fun {mount} => ?_⟩
  have hmem : mount ∈ desired ↔ desired.lookup mount.1 = some mount.2 :=
    ⟨OrderedMap.lookup_of_mem hsorted.nodup, OrderedMap.mem_of_lookup⟩
  rw [hmem, hlookup]
  by_cases hkey : mount.1 ∈ grants
  · rw [if_pos hkey]
    exact (and_iff_right hkey).symm
  · rw [if_neg hkey]
    exact iff_of_false nofun fun hboth => hkey hboth.1

end Converges

/-! ## Names that are added -/

def AddsPlain (d d' : Disk) : Prop :=
  ∀ loc name, (d'.entry (loc ++ [name])).isSome →
    (d.entry (loc ++ [name])).isSome ∨ PlainName name

instance : Std.Refl AddsPlain := ⟨fun _ _ _ h => .inl h⟩

instance : IsTrans Disk AddsPlain :=
  ⟨fun _ _ _ h h' loc name hentry => (h' loc name hentry).elim (h loc name) .inr⟩

def PlainEnd (path : FilePath) : Prop :=
  ∀ name, path.components.getLast? = some (.normal name) → PlainName name

theorem addsPlain_changed {d : Disk} {loc : Location} {found : Option DiskEntry}
    (h : d.Changes loc) (hlast : ∀ above name, loc = above ++ [name] → found.isSome →
      PlainName name) : AddsPlain d (d.changed loc found h) := by
  intro above name hentry
  by_cases heq : above ++ [name] = loc
  · rw [heq, entry_changed_self] at hentry
    exact .inr (hlast above name heq.symm hentry)
  · rw [entry_changed_of_ne h heq] at hentry
    exact .inl hentry

theorem addsPlain_make {found : DiskEntry} {d d' : Disk} (hpath : PlainEnd path)
    (h : make found path d = .ok d') : AddsPlain d d' := by
  obtain ⟨loc, hloc, h⟩ := bind_eq_ok h
  split at h
  · cases h
  · next hnew =>
      obtain ⟨hchanges, -, rfl⟩ := change_eq_ok h
      refine addsPlain_changed hchanges fun above name heq _ => ?_
      unfold place at hloc
      split at hloc
      · next last hlast =>
          split at hloc
          · next parent hparent =>
              split at hloc
              · have hname : parent ++ [last] = above ++ [name] :=
                  (Except.ok.inj hloc).trans heq
                obtain rfl := List.singleton_inj.mp (List.append_inj' hname rfl).2
                exact hpath _ hlast
              · cases hloc
          · cases hloc
      · -- what a path without a name at its end leads to exists
        exfalso
        rcases FileSystem.isPlace_canonicalize (mapError_eq_ok hloc) with (rfl | hentry) | hentry
        · simp at hnew
        · obtain ⟨held, hheld, -⟩ := Option.map_eq_some_iff.mp hentry
          simp [hheld] at hnew
        · obtain ⟨held, hheld, -⟩ := Option.map_eq_some_iff.mp hentry
          simp [hheld] at hnew

theorem addsPlain_removeFile {d d' : Disk} (h : removeFile path d = .ok d') : AddsPlain d d' := by
  obtain ⟨loc, -, h⟩ := bind_eq_ok h
  split at h
  · cases h
  · obtain ⟨hchanges, -, rfl⟩ := change_eq_ok h
    exact addsPlain_changed hchanges nofun

theorem addsPlain_ioCall {call : Disk → Except IoError Disk}
    (h : ∀ d d', call d = .ok d' → AddsPlain d d') : Preserves AddsPlain (ioCall path call) :=
  Preserves.adaptError (Preserves.updateWith_of (refl_of AddsPlain) h) _

theorem addsPlain_reconcileMountPath (notSymlink : String) {mountPath : FilePath}
    (target : Location) (hpath : PlainEnd mountPath) :
    Preserves AddsPlain (reconcileMountPath notSymlink mountPath target) := by
  have hcreate : Preserves AddsPlain
      (ioCall mountPath (symlink (.ofLocation target) mountPath)) :=
    addsPlain_ioCall fun d d' => addsPlain_make hpath
  intro d
  cases mountCase notSymlink mountPath target d with
  | absent hmissing hrun =>
    have hleaves := hcreate d
    rwa [leaves, ← hrun] at hleaves
  | kept held hexists hlink hpoints hrun =>
    rw [leaves_of_ok hrun]
    exact refl_of AddsPlain d
  | replaced held hexists hlink hpoints hrun =>
    have hremove : Preserves AddsPlain (ioCall mountPath (removeFile mountPath)) :=
      addsPlain_ioCall fun d d' => addsPlain_removeFile
    have hleaves := (hremove.bind fun _ => hcreate) d
    rwa [leaves, ← hrun] at hleaves
  | blocked err hexists hother hrun =>
    rw [leaves_of_error hrun]
    exact refl_of AddsPlain d

theorem addsPlain_removeStaleMount (root : FilePath) (desired : List (String × Location))
    (name : String) : Preserves AddsPlain (removeStaleMount root desired name) := by
  have hremove : Preserves AddsPlain
      (ioCall (below root (.normal name)) (removeFile (below root (.normal name)))) :=
    addsPlain_ioCall fun d d' => addsPlain_removeFile
  intro d
  cases hdesired : (desired.lookup name).isSome with
  | true => simpa [leaves, removeStaleMount, hdesired] using refl_of AddsPlain d
  | false =>
    cases hmeta : symlinkMetadata (below root (.normal name)) d with
    | error err => simpa [leaves, removeStaleMount, hdesired, hmeta] using refl_of AddsPlain d
    | ok found =>
      cases found with
      | link held => simpa [leaves, removeStaleMount, hdesired, hmeta] using hremove d
      | dir => simpa [leaves, removeStaleMount, hdesired, hmeta] using refl_of AddsPlain d
      | file text => simpa [leaves, removeStaleMount, hdesired, hmeta] using refl_of AddsPlain d

/-- A key that is read as a path ends in a plain name, or below the root of the mounts. -/
theorem plainEnd_join (h : PlainEnd path) (key : String) : PlainEnd (path.join (.parse key)) := by
  have hmem {name : String} (hlast : (FilePath.parse key).components.getLast? =
      some (.normal name)) : PlainName name := plain_of_mem_parse (List.mem_of_getLast? hlast)
  intro name hlast
  unfold FilePath.join at hlast
  split at hlast
  · exact hmem hlast
  · rw [List.getLast?_append] at hlast
    cases hkey : (FilePath.parse key).components.getLast? with
    | none =>
      rw [hkey] at hlast
      exact h name hlast
    | some comp =>
      rw [hkey] at hlast
      cases hlast
      exact hmem hkey

/-- The shared mounts of an orchestrator have plain names, whatever the keys are. -/
theorem addsPlain_mountShared (settings : GlobalSettings) (orchestratorId : String)
    {root : FilePath} (h : PlainEnd root) (grants : List String) :
    Preserves AddsPlain (mountShared settings orchestratorId root grants) := by
  intro d
  cases hdesired : desiredMounts settings orchestratorId d [] grants with
  | error err => simpa [leaves, mountShared, hdesired] using refl_of AddsPlain d
  | ok desired =>
    have hmount (mount : String × Location) :
        Preserves AddsPlain (reconcileSharedMount orchestratorId root mount) := by
      unfold reconcileSharedMount
      exact addsPlain_reconcileMountPath _ mount.2 (plainEnd_join h mount.1)
    have hmounts : Preserves AddsPlain
        (inOrder (reconcileSharedMount orchestratorId root) desired) :=
      preserves_inOrder hmount desired
    have hstale : Preserves AddsPlain (removeStaleSymlinkMounts root desired) := by
      intro d'
      cases hnames : readDir root d' with
      | error err => simpa [leaves, removeStaleSymlinkMounts, hnames] using refl_of AddsPlain d'
      | ok names =>
        have hremove :=
          preserves_inOrder (addsPlain_removeStaleMount root desired) names d'
        simpa [leaves, removeStaleSymlinkMounts, hnames] using hremove
    have hboth := (hmounts.bind fun _ => hstale) d
    simpa [leaves, mountShared, hdesired] using hboth

/-! ## The whole call -/

section Call

variable {settings : GlobalSettings} {orchestratorId : String} {workspace : Location}
  {grants : List String} {dir : Location} {d found : Disk} {desired : List (String × Location)}

theorem reconcile_eq_mountShared {d₁ : Disk}
    (hresolved : privateWorkspaceRoot settings orchestratorId = .ok workspace)
    (hgranted : grantsOf settings orchestratorId = .ok grants)
    (h₁ : createDirAll (.ofLocation workspace) d = .ok () d₁)
    (h₂ : createDirAll (.ofLocation (workspace ++ ["shared"])) d₁ = .ok () found) :
    reconcileOrchestratorSharedMounts settings orchestratorId d =
      mountShared settings orchestratorId (.ofLocation (workspace ++ ["shared"])) grants found := by
  unfold reconcileOrchestratorSharedMounts
  rw [bind_of_ok (ofResult_eq_ok.mpr ⟨hresolved, rfl⟩), bind_of_ok (createDir_eq_ok.mpr h₁),
    bind_of_ok (ofResult_eq_ok.mpr ⟨hgranted, rfl⟩)]
  exact bind_of_ok (createDir_eq_ok.mpr h₂)

theorem MountSite.reconcile_eq
    (site : MountSite settings orchestratorId workspace grants dir d found) :
    reconcileOrchestratorSharedMounts settings orchestratorId d =
      mountShared settings orchestratorId (.ofLocation (workspace ++ ["shared"])) grants found := by
  obtain ⟨d₁, h₁, h₂⟩ := site.made
  exact reconcile_eq_mountShared site.resolved site.granted h₁ h₂

/-- Once the directory is there, a call makes no directories. -/
theorem MountSite.reconcile_relinked {d' : Disk}
    (site : MountSite settings orchestratorId workspace grants dir d found)
    (h : Relinked dir found d') :
    reconcileOrchestratorSharedMounts settings orchestratorId d' =
      mountShared settings orchestratorId (.ofLocation (workspace ++ ["shared"])) grants d' := by
  have hlinks := site.links.relinked h
  have hroot : d'.isDir (.ofLocation (workspace ++ ["shared"])) = true :=
    isDir_iff.mpr ⟨dir, hlinks.walks.1, hlinks.isDir⟩
  have hbelow : FilePath.ofLocation (workspace ++ ["shared"]) =
      below (.ofLocation workspace) (.normal "shared") := by
    simp [FilePath.ofLocation, below]
  have hworkspace : d'.isDir (.ofLocation workspace) = true := by
    apply isDir_of_below
    rw [← hbelow]
    exact hlinks.walks.1
  exact reconcile_eq_mountShared site.resolved site.granted (createDirAll_of_isDir hworkspace)
    (createDirAll_of_isDir hroot)

theorem MountSite.extends (site : MountSite settings orchestratorId workspace grants dir d found) :
    Extends d found := by
  obtain ⟨d₁, h₁, h₂⟩ := site.made
  have hworkspace := preserves_createDirAll (.ofLocation workspace) d
  have hroot := preserves_createDirAll (.ofLocation (workspace ++ ["shared"])) d₁
  rw [leaves_of_ok h₁] at hworkspace
  rw [leaves_of_ok h₂] at hroot
  exact trans_of Extends hworkspace hroot

/-- The workspaces are where they were before the directory was made. -/
theorem MountSite.grantTarget_eq
    (site : MountSite settings orchestratorId workspace grants dir d found) {key : String}
    (hkey : key ∈ grants) : ∃ target, grantTarget settings d key = some target ∧
      grantTarget settings found key = some target := by
  obtain ⟨target, htarget⟩ := exists_grantTarget site.exist hkey
  obtain ⟨shared, hshared, hpath⟩ := grantTarget_eq_some_iff.mp htarget
  have hpath' := site.extends.canonicalize hpath
  exact ⟨target, htarget, grantTarget_eq_some_iff.mpr ⟨shared, hshared, hpath'⟩⟩

theorem MountSite.mem_desired_iff
    (site : MountSite settings orchestratorId workspace grants dir d found)
    (hdesired : desiredMounts settings orchestratorId found [] grants = .ok desired)
    {mount : String × Location} :
    mount ∈ desired ↔ mount.1 ∈ grants ∧ grantTarget settings d mount.1 = some mount.2 := by
  rw [(mem_desiredMounts_iff hdesired).2]
  refine and_congr_right fun hkey => ?_
  obtain ⟨target, hbefore, hafter⟩ := site.grantTarget_eq hkey
  rw [hbefore, hafter]

theorem place_of_grantTarget {key : String} {target : Location}
    (h : grantTarget settings d key = some target) : FileSystem.IsPlace d.fs target := by
  obtain ⟨shared, -, hpath⟩ := grantTarget_eq_some_iff.mp h
  exact FileSystem.isPlace_canonicalize hpath

/-- Links that are all right stay as they are. -/
theorem settled_of_right {root : FilePath} {d : Disk} (desired : List (String × Location))
    (h : ∀ mount ∈ desired, pointsTo d (below root (.normal mount.1)) mount.2 = true) :
    TurnsReady root dir desired d ∧ desired.foldl (settled root dir) d = d := by
  induction desired with
  | nil =>
    refine ⟨fun before mount hbefore => ?_, rfl⟩
    exact absurd (List.prefix_nil.mp hbefore) (List.concat_ne_nil mount before)
  | cons mount rest ih =>
    have hmount := h mount List.mem_cons_self
    have hsettled : settled root dir d mount = d := if_pos hmount
    obtain ⟨hturns, hfold⟩ := ih fun next hnext => h next (List.mem_cons_of_mem _ hnext)
    rw [turnsReady_cons, List.foldl_cons, hsettled]
    exact ⟨⟨.inl hmount, hturns⟩, hfold⟩

theorem cleared_of_granted {d : Disk} (names : List String)
    (h : ∀ name ∈ names, (desired.lookup name).isSome) : cleared dir desired names d = d := by
  induction names with
  | nil => rfl
  | cons name names ih =>
    show cleared dir desired names
      (if (desired.lookup name).isSome then d else d.relink (dir ++ [name]) none) = d
    rw [if_pos (h name List.mem_cons_self)]
    exact ih fun other hother => h other (List.mem_cons_of_mem _ hother)

/-- A directory whose links are the granted ones, and right, is left as it is. -/
theorem mountShared_of_right {root : FilePath} (h : LinkDir root dir d)
    (hdesired : desiredMounts settings orchestratorId d [] grants = .ok desired)
    (hplain : ∀ mount ∈ desired, PlainName mount.1)
    (hright : ∀ mount ∈ desired, pointsTo d (below root (.normal mount.1)) mount.2 = true)
    (honly : ∀ name, (d.entry (dir ++ [name])).isSome → (desired.lookup name).isSome) :
    mountShared settings orchestratorId root grants d = .ok () d := by
  obtain ⟨hturns, hfold⟩ := settled_of_right desired hright
  refine (mountShared_ok_iff h hdesired hplain).mpr ⟨hturns, fun name hlisted hnone => ?_, ?_⟩
  · have hgranted := honly name hlisted
    rw [hnone] at hgranted
    cases hgranted
  · rw [repaired, hfold]
    exact (cleared_of_granted _ fun name hname => honly name (mem_namesIn_iff_entry.mp hname)).symm

/-- A call that changes nothing found every granted link right. -/
theorem right_of_mountShared {root : FilePath} (h : LinkDir root dir d)
    (hplain : ∀ key ∈ grants, PlainName key)
    (hrun : mountShared settings orchestratorId root grants d = .ok () d) :
    ∀ key ∈ grants, ∃ target, grantTarget settings d key = some target ∧
      d.fs.canonicalize (below root (.normal key)) = .ok target := by
  cases hdesired : desiredMounts settings orchestratorId d [] grants with
  | error err =>
    simp only [mountShared, hdesired] at hrun
    cases hrun
  | ok desired =>
    obtain ⟨hkeys, hmem⟩ := mem_desiredMounts_iff hdesired
    obtain ⟨-, -, hrepaired⟩ := (mountShared_ok_iff h hdesired fun mount hmount =>
      hplain mount.1 (hmem.mp hmount).1).mp hrun
    have hsame : ∀ before, before <+: desired → before.foldl (settled root dir) d = d ∧
        ∀ mount ∈ before, pointsTo d (below root (.normal mount.1)) mount.2 = true := by
      intro before
      induction before using List.reverseRecOn with
      | nil => exact fun _ => ⟨rfl, List.forall_mem_nil _⟩
      | append_singleton before mount ih =>
        intro hprefix
        obtain ⟨hfold, hright⟩ := ih ((List.prefix_append before [mount]).trans hprefix)
        obtain ⟨after, hafter⟩ := hprefix
        have hsplit : desired = before ++ mount :: after := by
          rw [← hafter, List.append_assoc]
          rfl
        have hmount : mount ∈ desired := by
          rw [hsplit]
          exact List.mem_append_right _ List.mem_cons_self
        have hentry := entry_repaired h hsplit hkeys
        rw [← hrepaired, hfold] at hentry
        have hpoints : pointsTo d (below root (.normal mount.1)) mount.2 = true := by
          rcases entry_settled h mount with ⟨hpoints, -⟩ | ⟨-, hheld⟩
          · exact hpoints
          · have hplace := place_of_grantTarget (hmem.mp hmount).2
            exact pointsTo_iff.mpr (h.canonicalize_of_link (hentry.trans hheld) hplace)
        refine ⟨?_, fun next hnext => ?_⟩
        · rw [List.foldl_append, hfold]
          exact if_pos hpoints
        · rcases List.mem_append.mp hnext with hnext | hnext
          · exact hright next hnext
          · rw [List.mem_singleton.mp hnext]
            exact hpoints
    intro key hkey
    have hexist := (desiredMounts_ok_iff orchestratorId grants []).mp ⟨desired, hdesired⟩
    obtain ⟨target, htarget⟩ := exists_grantTarget hexist hkey
    have hmount : (key, target) ∈ desired := hmem.mpr ⟨hkey, htarget⟩
    exact ⟨target, htarget, pointsTo_iff.mp ((hsame desired List.prefix_rfl).2 _ hmount)⟩

/-- In what the repair leaves, every granted link leads to its target. -/
theorem Repairable.right {root : FilePath} (h : Repairable settings root dir desired d)
    (hlinks : LinkDir root dir d) (hkeys : (desired.map (·.1)).Nodup)
    (hplaces : ∀ mount ∈ desired, FileSystem.IsPlace d.fs mount.2) :
    ∀ mount ∈ desired,
      pointsTo (repaired root dir desired d) (below root (.normal mount.1)) mount.2 = true ∧
        ∃ held, (repaired root dir desired d).entry (dir ++ [mount.1]) = some (.link held) := by
  intro mount hmount
  obtain ⟨before, after, hsplit⟩ := List.append_of_mem hmount
  have hprefix : before ++ [mount] <+: desired := ⟨after, by rw [hsplit]; simp⟩
  have hbefore : LinkDir root dir (before.foldl (settled root dir) d) :=
    hlinks.relinked (relinked_foldl_settled before hlinks)
  have hentry := entry_repaired hlinks hsplit hkeys
  rcases entry_settled hbefore mount with ⟨hpoints, held, hheld⟩ | ⟨-, hheld⟩
  · exact ⟨h.kept before mount hprefix hpoints, held, hentry.trans hheld⟩
  · refine ⟨pointsTo_iff.mpr ?_, _, hentry.trans hheld⟩
    have hrepaired : Relinked dir d (repaired root dir desired d) := relinked_repaired hlinks
    apply (hlinks.relinked hrepaired).canonicalize_of_link (hentry.trans hheld)
    exact isPlace_of_relinked hlinks.links hrepaired (hplaces mount hmount)

theorem MountSite.converges_of_repairable
    (site : MountSite settings orchestratorId workspace grants dir d found)
    (hdesired : desiredMounts settings orchestratorId found [] grants = .ok desired)
    (h : Repairable settings (.ofLocation (workspace ++ ["shared"])) dir desired found) :
    Converges settings orchestratorId grants (.ofLocation (workspace ++ ["shared"])) dir d := by
  have hrelinked : Relinked dir found
      (repaired (.ofLocation (workspace ++ ["shared"])) dir desired found) :=
    relinked_repaired site.links
  have hright := h.right site.links (mem_desiredMounts_iff hdesired).1 fun mount hmount => by
    obtain ⟨hkey, htarget⟩ := (site.mem_desired_iff hdesired).mp hmount
    obtain ⟨target, hbefore, hafter⟩ := site.grantTarget_eq hkey
    cases htarget.symm.trans hbefore
    exact place_of_grantTarget hafter
  have honly (name : String) (hentry : ((repaired (.ofLocation (workspace ++ ["shared"])) dir
      desired found).entry (dir ++ [name])).isSome) : (desired.lookup name).isSome :=
    lookup_of_entry_repaired site.links hentry
  refine ⟨repaired (.ofLocation (workspace ++ ["shared"])) dir desired found, ?_, ⟨?_, ?_⟩, ?_⟩
  · rw [site.reconcile_eq]
    exact (mountShared_ok_iff site.links hdesired h.plain).mpr ⟨h.turns, h.stale, rfl⟩
  · intro key hkey
    obtain ⟨target, htarget, -⟩ := site.grantTarget_eq hkey
    have hmount : (key, target) ∈ desired := (site.mem_desired_iff hdesired).mpr ⟨hkey, htarget⟩
    obtain ⟨hpoints, hlink⟩ := hright _ hmount
    exact ⟨target, htarget, hlink, pointsTo_iff.mp hpoints⟩
  · intro name hentry
    obtain ⟨target, hlookup⟩ := Option.isSome_iff_exists.mp (honly name hentry)
    exact ((site.mem_desired_iff hdesired).mp (OrderedMap.mem_of_lookup hlookup)).1
  · rw [site.reconcile_relinked hrelinked]
    have hsame : desiredMounts settings orchestratorId
        (repaired (.ofLocation (workspace ++ ["shared"])) dir desired found) [] grants =
          .ok desired := by
      refine (desiredMounts_congr (fun key hkey => ?_) []).trans hdesired
      obtain ⟨target, hbefore, hafter⟩ := site.grantTarget_eq hkey
      have hmount : (key, target) ∈ desired := (site.mem_desired_iff hdesired).mpr ⟨hkey, hbefore⟩
      exact ⟨target, hafter, h.targets _ hmount⟩
    exact mountShared_of_right (site.links.relinked hrelinked) hsame h.plain
      (fun mount hmount => (hright mount hmount).1) honly

theorem MountSite.repairable_of_converges
    (site : MountSite settings orchestratorId workspace grants dir d found)
    (hdesired : desiredMounts settings orchestratorId found [] grants = .ok desired)
    (h : Converges settings orchestratorId grants (.ofLocation (workspace ++ ["shared"])) dir d) :
    Repairable settings (.ofLocation (workspace ++ ["shared"])) dir desired found := by
  obtain ⟨d', hrun, hmounted, hagain⟩ := h
  rw [site.reconcile_eq] at hrun
  have hplain : ∀ mount ∈ desired, PlainName mount.1 := by
    intro mount hmount
    obtain ⟨hkey, -⟩ := (site.mem_desired_iff hdesired).mp hmount
    obtain ⟨-, -, ⟨held, hheld⟩, -⟩ := hmounted.granted mount.1 hkey
    have hroot : PlainEnd (.ofLocation (workspace ++ ["shared"])) := by
      intro name hlast
      have hname : "shared" = name := by simpa [FilePath.ofLocation] using hlast
      rw [← hname]
      rfl
    have hadds := addsPlain_mountShared settings orchestratorId hroot grants found
    rw [leaves_of_ok hrun] at hadds
    rcases hadds dir mount.1 (by rw [hheld]; rfl) with hlisted | hname
    · exact site.named mount.1 hlisted
    · exact hname
  obtain ⟨hturns, hstale, rfl⟩ := (mountShared_ok_iff site.links hdesired hplain).mp hrun
  have hrelinked : Relinked dir found
      (repaired (.ofLocation (workspace ++ ["shared"])) dir desired found) :=
    relinked_repaired site.links
  rw [site.reconcile_relinked hrelinked] at hagain
  have hleads (mount : String × Location) (hmount : mount ∈ desired) :
      (repaired (.ofLocation (workspace ++ ["shared"])) dir desired found).fs.canonicalize
        (below (.ofLocation (workspace ++ ["shared"])) (.normal mount.1)) = .ok mount.2 := by
    obtain ⟨hkey, htarget⟩ := (site.mem_desired_iff hdesired).mp hmount
    obtain ⟨target, htarget', -, hleads⟩ := hmounted.granted mount.1 hkey
    cases htarget.symm.trans htarget'
    exact hleads
  refine ⟨hplain, hturns, fun before mount hprefix _ => ?_, hstale, fun mount hmount => ?_⟩
  · have hmount : mount ∈ desired := hprefix.subset (List.mem_append_right _ List.mem_cons_self)
    exact pointsTo_iff.mpr (hleads mount hmount)
  · obtain ⟨hkey, -⟩ := (site.mem_desired_iff hdesired).mp hmount
    have hgranted : ∀ key ∈ grants, PlainName key := by
      intro key hkey
      obtain ⟨target, htarget, -⟩ := site.grantTarget_eq hkey
      exact hplain (key, target) ((site.mem_desired_iff hdesired).mpr ⟨hkey, htarget⟩)
    obtain ⟨target, htarget, hleads'⟩ :=
      right_of_mountShared (site.links.relinked hrelinked) hgranted hagain mount.1 hkey
    cases (hleads mount hmount).symm.trans hleads'
    exact htarget

/-- The call converges exactly on the links that it can repair. -/
theorem converges_iff (site : MountSite settings orchestratorId workspace grants dir d found) :
    Converges settings orchestratorId grants (.ofLocation (workspace ++ ["shared"])) dir d ↔
      ∃ desired, desiredMounts settings orchestratorId found [] grants = .ok desired ∧
        Repairable settings (.ofLocation (workspace ++ ["shared"])) dir desired found := by
  constructor
  · intro h
    have hexist : GrantsExist settings grants found := by
      intro key hkey
      obtain ⟨shared, hshared, hexists⟩ := site.exist key hkey
      refine ⟨shared, hshared, ?_⟩
      unfold pathExists at hexists ⊢
      cases hpath : d.fs.canonicalize (.parse shared.path) with
      | error err =>
        rw [hpath] at hexists
        cases hexists
      | ok target =>
        rw [site.extends.canonicalize hpath]
        rfl
    obtain ⟨desired, hdesired⟩ := (desiredMounts_ok_iff orchestratorId grants []).mpr hexist
    exact ⟨desired, hdesired, site.repairable_of_converges hdesired h⟩
  · rintro ⟨desired, hdesired, h⟩
    exact site.converges_of_repairable hdesired h

end Call

/-! ## A link that leads nowhere -/

/-- A granted workspace, and a mount directory with a link for it that leads to `held`. -/
def mountDisk (held : String) : Disk :=
  .ofEntries
    [(["srv"], .dir), (["srv", "docs"], .dir), (["ws"], .dir), (["ws", "alpha"], .dir),
      (["ws", "alpha", "shared"], .dir),
      (["ws", "alpha", "shared", "docs"], .link (.parse held))]
    rfl

def docsSettings : GlobalSettings where
  workspacesPath := "/ws"
  sharedWorkspaces := [("docs", ⟨"/srv/docs", "the documents"⟩)]
  orchestrators := [("alpha", { sharedAccess := ["docs"] })]

theorem entry_mountDisk {held name : String} {found : DiskEntry}
    (h : (mountDisk held).entry (["ws", "alpha", "shared"] ++ [name]) = some found) :
    name = "docs" ∧ found = .link (.parse held) := by
  obtain ⟨before, after, hsplit, -⟩ := List.lookup_eq_some_iff.mp h
  have hmem : (["ws", "alpha", "shared"] ++ [name], found) ∈ (mountDisk held).entries :=
    hsplit ▸ List.mem_append_right _ List.mem_cons_self
  simpa [mountDisk, Disk.ofEntries] using hmem

/-- The directory is a mount directory of the settings, whatever its link leads to. -/
theorem mountSite_docs (held : String) : MountSite docsSettings "alpha" ["ws", "alpha"] ["docs"]
    ["ws", "alpha", "shared"] (mountDisk held) (mountDisk held) where
  resolved := by decide
  granted := rfl
  exist := by
    intro key hkey
    obtain rfl := List.mem_singleton.mp hkey
    exact ⟨_, rfl, rfl⟩
  made := ⟨mountDisk held, createDirAll_of_isDir rfl, createDirAll_of_isDir rfl⟩
  links := linkDir_of_names rfl (fun name found h => ⟨_, (entry_mountDisk h).2⟩)
    (by decide : (List.Nodup [["srv"], ["srv", "docs"], ["ws"], ["ws", "alpha"],
      ["ws", "alpha", "shared"], ["ws", "alpha", "shared", "docs"]]))
  named := by
    intro name h
    obtain ⟨found, hfound⟩ := Option.isSome_iff_exists.mp h
    rw [(entry_mountDisk hfound).1]
    rfl

/-- A link to another directory is one that the call can repair. -/
theorem converges_iff_docs :
    Converges docsSettings "alpha" ["docs"] (.ofLocation ["ws", "alpha", "shared"])
        ["ws", "alpha", "shared"] (mountDisk "/srv") ↔
      ∃ desired, desiredMounts docsSettings "alpha" (mountDisk "/srv") [] ["docs"] = .ok desired ∧
        Repairable docsSettings (.ofLocation ["ws", "alpha", "shared"])
          ["ws", "alpha", "shared"] desired (mountDisk "/srv") :=
  converges_iff (mountSite_docs "/srv")

/-- A link to a directory that is gone is not: the new link finds it in its place. -/
theorem dangling_mount_fails :
    MountSite docsSettings "alpha" ["ws", "alpha"] ["docs"] ["ws", "alpha", "shared"]
        (mountDisk "/srv/gone") (mountDisk "/srv/gone") ∧
      (∃ d, reconcileOrchestratorSharedMounts docsSettings "alpha" (mountDisk "/srv/gone") =
        .error (ioError (.ofLocation ["ws", "alpha", "shared", "docs"]) .alreadyExists) d) ∧
      ¬ Converges docsSettings "alpha" ["docs"] (.ofLocation ["ws", "alpha", "shared"])
        ["ws", "alpha", "shared"] (mountDisk "/srv/gone") := by
  have hreason : (match reconcileOrchestratorSharedMounts docsSettings "alpha"
        (mountDisk "/srv/gone") with
      | .ok _ _ => none
      | .error err _ => some err) =
        some (ioError (.ofLocation ["ws", "alpha", "shared", "docs"]) .alreadyExists) := by
    decide +kernel
  cases hrun : reconcileOrchestratorSharedMounts docsSettings "alpha" (mountDisk "/srv/gone") with
  | ok u d =>
    rw [hrun] at hreason
    cases hreason
  | error err d =>
    rw [hrun] at hreason
    refine ⟨mountSite_docs "/srv/gone", ⟨d, by rw [Option.some.inj hreason]⟩, ?_⟩
    rintro ⟨d', hok, -⟩
    cases hrun.symm.trans hok

end Direclaw.Config
