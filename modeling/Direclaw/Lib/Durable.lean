import Direclaw.Lib.Run
import Mathlib.Logic.Function.Basic

/-!
# Replacing a file that must survive a power loss

One directory as the programs see it, and what of it a power loss leaves: a file that was
not synced may hold anything afterwards, and a name may go back to any file it has stood
for since the directory was synced last, whatever the other names do.

A replacement writes a new file under a temporary name, syncs it, renames it and syncs the
directory. Any number of replacements run beside each other, one operation at a time, and
any of them may fail or be killed.
-/

namespace Direclaw.Lib

/-! ## Directories -/

structure StoredFile (β : Type*) where
  content : List β
  /-- All of the content is on the disk. -/
  synced : Bool

/-- Files have numbers, which are given out once; a name stands for at most one file. -/
structure Volume (ν β : Type*) where
  files : ℕ → StoredFile β
  next : ℕ
  names : ν → Option ℕ
  /-- What the name may stand for after a power loss, beside what it stands for now. -/
  earlier : ν → List (Option ℕ)

namespace Volume

variable {ν β : Type*}

def read (v : Volume ν β) (name : ν) : Option (List β) :=
  (v.names name).map fun file => (v.files file).content

/-- Everything the name may stand for after a power loss. -/
def entries (v : Volume ν β) (name : ν) : List (Option ℕ) := v.names name :: v.earlier name

def setFile (v : Volume ν β) (file : ℕ) (found : StoredFile β) : Volume ν β :=
  { v with files := Function.update v.files file found }

def setName [DecidableEq ν] (v : Volume ν β) (name : ν) (found : Option ℕ) : Volume ν β :=
  { v with
    names := Function.update v.names name found
    earlier := Function.update v.earlier name (v.entries name) }

/-- A new file under the name, whatever that stood for. -/
def create [DecidableEq ν] (v : Volume ν β) (name : ν) (content : List β) : Volume ν β :=
  { (v.setFile v.next ⟨content, false⟩).setName name (some v.next) with next := v.next + 1 }

def append (v : Volume ν β) (file : ℕ) (bytes : List β) : Volume ν β :=
  v.setFile file ⟨(v.files file).content ++ bytes, false⟩

def sync (v : Volume ν β) (file : ℕ) : Volume ν β :=
  v.setFile file ⟨(v.files file).content, true⟩

def rename [DecidableEq ν] (v : Volume ν β) (source target : ν) (file : ℕ) : Volume ν β :=
  (v.setName source none).setName target (some file)

def syncDir (v : Volume ν β) : Volume ν β := { v with earlier := fun _ => [] }

/-- For each name one of its entries, for each file that was not synced any content. -/
def powerLoss (v : Volume ν β) (pick : ν → ℕ) (left : ℕ → List β) : Volume ν β where
  files file := if (v.files file).synced then v.files file else ⟨left file, true⟩
  next := v.next
  names name := ((v.entries name)[pick name]?).getD (v.names name)
  earlier _ := []

section Lemmas

variable {v : Volume ν β} {name other : ν} {file : ℕ} {found : StoredFile β}

theorem files_setFile_of_ne {file' : ℕ} (h : file' ≠ file) :
    (v.setFile file found).files file' = v.files file' :=
  Function.update_of_ne h _ _

@[simp] theorem files_setFile_self : (v.setFile file found).files file = found :=
  Function.update_self _ _ _

theorem names_mem_entries : v.names name ∈ v.entries name := List.mem_cons_self

theorem names_powerLoss_mem (pick : ν → ℕ) (left : ℕ → List β) :
    (v.powerLoss pick left).names name ∈ v.entries name := by
  show ((v.entries name)[pick name]?).getD (v.names name) ∈ _
  cases h : (v.entries name)[pick name]? with
  | none => exact names_mem_entries
  | some entry => exact List.mem_of_getElem? h

theorem files_powerLoss_of_synced {pick : ν → ℕ} {left : ℕ → List β}
    (h : (v.files file).synced = true) : (v.powerLoss pick left).files file = v.files file :=
  if_pos h

variable [DecidableEq ν]

variable {entry : Option ℕ}

theorem names_setName_of_ne (h : other ≠ name) :
    (v.setName name entry).names other = v.names other :=
  Function.update_of_ne h _ _

@[simp] theorem names_setName_self :
    (v.setName name entry).names name = entry :=
  Function.update_self _ _ _

theorem entries_setName_of_ne (h : other ≠ name) :
    (v.setName name entry).entries other = v.entries other := by
  show Function.update v.names name entry other ::
    Function.update v.earlier name (v.entries name) other = _
  rw [Function.update_of_ne h, Function.update_of_ne h]
  rfl

@[simp] theorem entries_setName_self :
    (v.setName name entry).entries name = entry :: v.entries name := by
  show Function.update v.names name entry name ::
    Function.update v.earlier name (v.entries name) name = _
  rw [Function.update_self, Function.update_self]

end Lemmas

end Volume

/-! ## Replacements -/

/-- What comes next. A file is in the phase as long as its name is the temporary one. -/
inductive ReplacePhase (β : Type*) where
  | opening
  | writing (file : ℕ) (rest : List β)
  | syncing (file : ℕ)
  | moving (file : ℕ)
  | syncingDir
  | returned (ok : Bool)
  | killed

structure Replacement (ν β : Type*) where
  target : ν
  temp : ν
  content : List β
  phase : ReplacePhase β := .opening

/-- The file the replacement has not renamed yet. -/
def ReplacePhase.file {β : Type*} : ReplacePhase β → Option ℕ
  | .writing file _ | .syncing file | .moving file => some file
  | .opening | .syncingDir | .returned _ | .killed => none

structure Replacing (ν β : Type*) where
  volume : Volume ν β
  calls : List (Replacement ν β) := []
  /-- The calls that have renamed, in that order. -/
  renamed : List ℕ := []

inductive ReplaceEvent (ν β : Type*) where
  | begin (target temp : ν) (content : List β)
  /-- The next operation of a call; a write takes `count` bytes. -/
  | op (call : ℕ) (ok : Bool) (count : ℕ)
  | kill (call : ℕ)
  /-- Another program writes a file of its own, or removes one. -/
  | put (name : ν) (content : List β)
  | remove (name : ν)
  | powerLoss (pick : ν → ℕ) (left : ℕ → List β)

/-- A call that has not returned does not go on. -/
def Replacement.halt {ν β : Type*} (c : Replacement ν β) : Replacement ν β :=
  match c.phase with
  | .returned _ => c
  | _ => { c with phase := .killed }

theorem Replacement.halt_spec {ν β : Type*} (c : Replacement ν β) :
    c.halt.phase.file = none ∧ c.halt.target = c.target ∧ c.halt.temp = c.temp ∧
      c.halt.content = c.content := by
  unfold Replacement.halt
  split
  · next hphase => exact ⟨by rw [hphase]; rfl, rfl, rfl, rfl⟩
  · exact ⟨rfl, rfl, rfl, rfl⟩

namespace Replacing

variable {ν β : Type*} [DecidableEq ν]

def goto (s : Replacing ν β) (call : ℕ) (c : Replacement ν β) (phase : ReplacePhase β) :
    Replacing ν β :=
  { s with calls := s.calls.set call { c with phase } }

/-- One operation of the call. `write_all` goes on with what a write has left. -/
def advance (s : Replacing ν β) (call : ℕ) (c : Replacement ν β) (ok : Bool) (count : ℕ) :
    ReplacePhase β → Replacing ν β
  | .opening =>
    if !ok || (s.volume.names c.temp).isSome then s.goto call c (.returned false)
    else
      { s.goto call c (.writing s.volume.next c.content) with
        volume := s.volume.create c.temp [] }
  | .writing file [] => s.goto call c (.syncing file)
  | .writing file (byte :: rest) =>
    if !ok || count == 0 then s.goto call c (.returned false)
    else
      { s.goto call c (.writing file ((byte :: rest).drop count)) with
        volume := s.volume.append file ((byte :: rest).take count) }
  | .syncing file =>
    if !ok then s.goto call c (.returned false)
    else { s.goto call c (.moving file) with volume := s.volume.sync file }
  | .moving _ =>
    match s.volume.names c.temp with
    | some found =>
      if !ok then s.goto call c (.returned false)
      else
        { s.goto call c .syncingDir with
          volume := s.volume.rename c.temp c.target found
          renamed := s.renamed ++ [call] }
    | none => s.goto call c (.returned false)
  | .syncingDir =>
    if !ok then s.goto call c (.returned false)
    else { s.goto call c (.returned true) with volume := s.volume.syncDir }
  | .returned _ | .killed => s

def step (s : Replacing ν β) : ReplaceEvent ν β → Replacing ν β
  | .begin target temp content => { s with calls := s.calls ++ [{ target, temp, content }] }
  | .op call ok count =>
    match s.calls[call]? with
    | some c => s.advance call c ok count c.phase
    | none => s
  | .kill call => { s with calls := s.calls.modify call Replacement.halt }
  | .put name content => { s with volume := s.volume.create name content }
  | .remove name => { s with volume := s.volume.setName name none }
  | .powerLoss pick left =>
    { s with volume := s.volume.powerLoss pick left, calls := s.calls.map Replacement.halt }

/-! ## What one operation does -/

/-- What an operation of `c` can lead to. -/
inductive Move (s : Replacing ν β) (call : ℕ) (c : Replacement ν β) : Replacing ν β → Prop
  | idle : Move s call c s
  | fail : Move s call c (s.goto call c (.returned false))
  | create : c.phase = .opening → s.volume.names c.temp = none →
      Move s call c
        { s.goto call c (.writing s.volume.next c.content) with volume := s.volume.create c.temp [] }
  | written (file : ℕ) : c.phase = .writing file [] → Move s call c (s.goto call c (.syncing file))
  | write (file : ℕ) (chunk rest : List β) : c.phase = .writing file (chunk ++ rest) →
      Move s call c
        { s.goto call c (.writing file rest) with volume := s.volume.append file chunk }
  | sync (file : ℕ) : c.phase = .syncing file →
      Move s call c { s.goto call c (.moving file) with volume := s.volume.sync file }
  | rename (file found : ℕ) : c.phase = .moving file → s.volume.names c.temp = some found →
      Move s call c
        { s.goto call c .syncingDir with
          volume := s.volume.rename c.temp c.target found
          renamed := s.renamed ++ [call] }
  | syncDir : c.phase = .syncingDir →
      Move s call c { s.goto call c (.returned true) with volume := s.volume.syncDir }

theorem advance_move (s : Replacing ν β) (call : ℕ) (c : Replacement ν β) (ok : Bool) (count : ℕ) :
    Move s call c (s.advance call c ok count c.phase) := by
  cases hphase : c.phase with
  | opening =>
    simp only [advance]
    split
    · exact .fail
    · next hopen =>
        refine .create hphase ?_
        simp only [Bool.or_eq_true, not_or, Bool.not_eq_true, Option.isSome_eq_false_iff,
          Option.isNone_iff_eq_none] at hopen
        exact hopen.2
  | writing file rest =>
    cases rest with
    | nil => exact .written file hphase
    | cons byte rest =>
      simp only [advance]
      split
      · exact .fail
      · exact .write file _ _ (by rw [List.take_append_drop, hphase])
  | syncing file =>
    simp only [advance]
    split
    · exact .fail
    · exact .sync file hphase
  | moving file =>
    simp only [advance]
    split
    · next found hfound =>
        split
        · exact .fail
        · exact .rename file found hphase hfound
    · exact .fail
  | syncingDir =>
    simp only [advance]
    split
    · exact .fail
    · exact .syncDir hphase
  | returned ok => exact .idle
  | killed => exact .idle

/-- An operation is about one call. -/
theorem advance_calls (s : Replacing ν β) (call : ℕ) (c : Replacement ν β) (ok : Bool)
    (count : ℕ) : (s.advance call c ok count c.phase).calls = s.calls ∨
      ∃ phase, (s.advance call c ok count c.phase).calls = s.calls.set call { c with phase } := by
  have hmove := advance_move s call c ok count
  generalize s.advance call c ok count c.phase = s' at hmove
  cases hmove with
  | idle => exact .inl rfl
  | fail | create _ _ | written _ _ | write _ _ _ _ | sync _ _ | rename _ _ _ _ | syncDir _ =>
    exact .inr ⟨_, rfl⟩

end Replacing

end Direclaw.Lib
