import Direclaw.Lib.Durable
import Mathlib.Data.List.Induction

/-!
# Replacements read whole

Over every run of replacements, failures, kills and power losses: a reader gets what was
there at the start or all of what one replacement was for, and what a replacement has
reported is not undone.
-/

namespace Direclaw.Lib

/-! ## Calls and their files -/

namespace Replacing

variable {ν β : Type*}

/-- What the file of a call holds, when the call is for `content`. -/
def PhaseHolds (files : ℕ → StoredFile β) (content : List β) : ReplacePhase β → Prop
  | .writing file rest => (files file).content ++ rest = content
  | .syncing file => (files file).content = content
  | .moving file => (files file).content = content ∧ (files file).synced = true
  | .opening | .syncingDir | .returned _ | .killed => True

theorem PhaseHolds.congr {files files' : ℕ → StoredFile β} {content : List β}
    {phase : ReplacePhase β} (h : PhaseHolds files content phase)
    (hsame : ∀ file, phase.file = some file → files' file = files file) :
    PhaseHolds files' content phase := by
  cases phase with
  | writing file rest | syncing file | moving file =>
    simp only [PhaseHolds, hsame file rfl]
    exact h
  | opening | syncingDir | returned ok | killed => trivial

/-- Every call has a file of its own until it renames it. -/
structure WellFormed (isTemp : ν → Bool) (s : Replacing ν β) : Prop where
  kinds : ∀ {call : ℕ} {c : Replacement ν β}, s.calls[call]? = some c → isTemp c.temp = true ∧ isTemp c.target = false
  owns : ∀ {call file : ℕ} {c : Replacement ν β}, s.calls[call]? = some c → c.phase.file = some file →
    file < s.volume.next ∧ s.volume.names c.temp = some file
  apart : ∀ {i j file : ℕ} {ci cj : Replacement ν β}, s.calls[i]? = some ci → s.calls[j]? = some cj →
    ci.phase.file = some file → cj.phase.file = some file → i = j
  holds : ∀ {call : ℕ} {c : Replacement ν β}, s.calls[call]? = some c → PhaseHolds s.volume.files c.content c.phase

/-- All of the file is on the disk and nobody writes it any more. -/
structure Sealed (s : Replacing ν β) (file : ℕ) : Prop where
  allocated : file < s.volume.next
  synced : (s.volume.files file).synced = true
  closed : ∀ {call : ℕ} {c : Replacement ν β}, s.calls[call]? = some c → c.phase.file ≠ some file

/-- Calls keep what they were called with, the log grows, and sealed files stay. -/
structure Keeps (s s' : Replacing ν β) : Prop where
  calls : ∀ {call : ℕ} {c : Replacement ν β}, s.calls[call]? = some c →
    ∃ c', s'.calls[call]? = some c' ∧ c'.target = c.target ∧ c'.content = c.content
  log : s.renamed <+: s'.renamed
  files : ∀ {file : ℕ}, s.Sealed file →
    s'.Sealed file ∧ (s'.volume.files file).content = (s.volume.files file).content

theorem Keeps.refl (s : Replacing ν β) : s.Keeps s where
  calls h := ⟨_, h, rfl, rfl⟩
  log := List.prefix_rfl
  files h := ⟨h, rfl⟩

theorem Keeps.trans {s s' s'' : Replacing ν β} (h : s.Keeps s') (h' : s'.Keeps s'') :
    s.Keeps s'' where
  calls hc := by
    obtain ⟨c', hc', htarget, hcontent⟩ := h.calls hc
    obtain ⟨c'', hc'', htarget', hcontent'⟩ := h'.calls hc'
    exact ⟨c'', hc'', htarget'.trans htarget, hcontent'.trans hcontent⟩
  log := h.log.trans h'.log
  files hf := ⟨(h'.files (h.files hf).1).1, (h'.files (h.files hf).1).2.trans (h.files hf).2⟩

section Goto

variable {isTemp : ν → Bool} {s : Replacing ν β} {call : ℕ} {c : Replacement ν β}
  {phase : ReplacePhase β} {v : Volume ν β} {log : List ℕ}

theorem calls_goto (hc : s.calls[call]? = some c) (i : ℕ) :
    (s.goto call c phase).calls[i]? = if i = call then some { c with phase } else s.calls[i]? := by
  have hlt : call < s.calls.length := (List.getElem?_eq_some_iff.mp hc).1
  show (s.calls.set call { c with phase })[i]? = _
  rw [List.getElem?_set]
  by_cases hi : call = i
  · subst hi
    simp [hlt]
  · simp [hi, Ne.symm hi]

/-- The files of the other calls stay, and the call is alone with its own. -/
theorem WellFormed.goto (h : s.WellFormed isTemp) (hc : s.calls[call]? = some c)
    (hnext : s.volume.next ≤ v.next)
    (hother : ∀ {i file : ℕ} {ci : Replacement ν β}, i ≠ call → s.calls[i]? = some ci → ci.phase.file = some file →
      v.names ci.temp = some file ∧ v.files file = s.volume.files file)
    (hown : ∀ {file : ℕ}, phase.file = some file → file < v.next ∧ v.names c.temp = some file ∧
      ∀ {i : ℕ} {ci : Replacement ν β}, i ≠ call → s.calls[i]? = some ci → ci.phase.file ≠ some file)
    (hholds : PhaseHolds v.files c.content phase) :
    ({ s.goto call c phase with volume := v, renamed := log }).WellFormed isTemp where
  kinds {i ci} hi := by
    rw [show _ = _ from calls_goto hc i] at hi
    split at hi
    · cases hi
      show isTemp c.temp = true ∧ isTemp c.target = false
      exact h.kinds hc
    · exact h.kinds hi
  owns {i file ci} hi hfile := by
    rw [show _ = _ from calls_goto hc i] at hi
    split at hi
    · cases hi
      exact ⟨(hown hfile).1, (hown hfile).2.1⟩
    · next hne => exact ⟨Nat.lt_of_lt_of_le (h.owns hi hfile).1 hnext, (hother hne hi hfile).1⟩
  apart {i j file ci cj} hi hj hfi hfj := by
    rw [show _ = _ from calls_goto hc i] at hi
    rw [show _ = _ from calls_goto hc j] at hj
    split at hi <;> split at hj
    · next hi' hj' => exact hi'.trans hj'.symm
    · next hj' =>
        cases hi
        exact absurd hfj ((hown hfi).2.2 hj' hj)
    · next hi' _ =>
        cases hj
        exact absurd hfi ((hown hfj).2.2 hi' hi)
    · exact h.apart hi hj hfi hfj
  holds {i ci} hi := by
    rw [show _ = _ from calls_goto hc i] at hi
    split at hi
    · cases hi
      exact hholds
    · next hne => exact (h.holds hi).congr fun file hfile => (hother hne hi hfile).2

theorem Keeps.goto (hc : s.calls[call]? = some c) (hnext : s.volume.next ≤ v.next)
    (hlog : s.renamed <+: log)
    (hfiles : ∀ {file : ℕ}, s.Sealed file → phase.file ≠ some file ∧
      v.files file = s.volume.files file) :
    s.Keeps { s.goto call c phase with volume := v, renamed := log } where
  calls {i ci} hi := by
    by_cases hne : i = call
    · subst hne
      cases hc.symm.trans hi
      exact ⟨{ c with phase }, by rw [show _ = _ from calls_goto hc i, if_pos rfl], rfl, rfl⟩
    · exact ⟨ci, by rw [show _ = _ from calls_goto hc i, if_neg hne]; exact hi, rfl, rfl⟩
  log := hlog
  files {file} hf := by
    obtain ⟨hopen, hsame⟩ := hfiles hf
    refine ⟨⟨Nat.lt_of_lt_of_le hf.allocated hnext, by rw [hsame]; exact hf.synced, ?_⟩, by rw [hsame]⟩
    intro i ci hi
    rw [show _ = _ from calls_goto hc i] at hi
    split at hi
    · cases hi
      exact hopen
    · exact hf.closed hi

end Goto

/-! ## One step -/

section Steps

variable {isTemp : ν → Bool} {s s' : Replacing ν β} {call : ℕ} {c : Replacement ν β}

/-- Nobody else has the file of the call. -/
theorem WellFormed.alone (h : s.WellFormed isTemp) (hc : s.calls[call]? = some c) {file : ℕ}
    (hfile : c.phase.file = some file) {i : ℕ} {ci : Replacement ν β} (hne : i ≠ call)
    (hi : s.calls[i]? = some ci) : ci.phase.file ≠ some file :=
  fun hfi => hne (h.apart hi hc hfi hfile)

variable {ci : Replacement ν β}

/-- Nobody else has the temporary name of the call. -/
theorem WellFormed.temp_ne (h : s.WellFormed isTemp) (hc : s.calls[call]? = some c) {file : ℕ}
    (hfile : c.phase.file = some file) {i file' : ℕ} (hne : i ≠ call) (hi : s.calls[i]? = some ci)
    (hfi : ci.phase.file = some file') : ci.temp ≠ c.temp := by
  intro htemp
  have hsame : some file' = some file := by
    rw [← (h.owns hi hfi).2, htemp, (h.owns hc hfile).2]
  exact h.alone hc hfile hne hi (hfi.trans hsame)

theorem WellFormed.temp_ne_target (h : s.WellFormed isTemp) (hc : s.calls[call]? = some c) {i : ℕ}
    (hi : s.calls[i]? = some ci) : ci.temp ≠ c.target := by
  intro heq
  have htrue := (h.kinds hi).1
  rw [heq, (h.kinds hc).2] at htrue
  cases htrue

/-- The directory changes, but neither under a call nor in a sealed file. -/
theorem WellFormed.volume (h : s.WellFormed isTemp) {v : Volume ν β}
    (hnext : s.volume.next ≤ v.next)
    (hopen : ∀ {call file : ℕ} {c : Replacement ν β}, s.calls[call]? = some c →
      c.phase.file = some file → v.names c.temp = some file ∧ v.files file = s.volume.files file)
    (hsealed : ∀ {file : ℕ}, s.Sealed file → v.files file = s.volume.files file) :
    ({ s with volume := v }).WellFormed isTemp ∧ s.Keeps { s with volume := v } := by
  refine ⟨⟨h.kinds, fun hc hfile => ?_, h.apart, fun hc => ?_⟩,
    ⟨fun hc => ⟨_, hc, rfl, rfl⟩, List.prefix_rfl, fun hf => ?_⟩⟩
  · exact ⟨Nat.lt_of_lt_of_le (h.owns hc hfile).1 hnext, (hopen hc hfile).1⟩
  · exact (h.holds hc).congr fun file hfile => (hopen hc hfile).2
  · have hsame := hsealed hf
    exact ⟨⟨Nat.lt_of_lt_of_le hf.allocated hnext, (congrArg _ hsame).trans hf.synced, hf.closed⟩,
      congrArg _ hsame⟩

/-- Calls that stop, all or some of them. -/
theorem WellFormed.halts (h : s.WellFormed isTemp) (calls : List (Replacement ν β))
    (hcalls : ∀ i : ℕ,
      calls[i]? = s.calls[i]? ∨ calls[i]? = (s.calls[i]?).map Replacement.halt) :
    ({ s with calls }).WellFormed isTemp ∧ s.Keeps { s with calls } := by
  -- a call that has a file has not stopped
  have hopen : ∀ {i file : ℕ} {c : Replacement ν β}, calls[i]? = some c →
      c.phase.file = some file → s.calls[i]? = some c := by
    intro i file c hc hfile
    rcases hcalls i with hsame | hstop
    · exact hsame.symm.trans hc
    · obtain ⟨c', -, rfl⟩ := Option.map_eq_some_iff.mp (hstop.symm.trans hc)
      rw [c'.halt_spec.1] at hfile
      cases hfile
  refine ⟨⟨fun {i c} hc => ?_, fun hc hfile => h.owns (hopen hc hfile) hfile,
      fun hi hj hfi hfj => h.apart (hopen hi hfi) (hopen hj hfj) hfi hfj, fun {i c} hc => ?_⟩,
    ⟨fun {i c} hc => ?_, List.prefix_rfl, fun hf => ⟨⟨hf.allocated, hf.synced, ?_⟩, rfl⟩⟩⟩
  · rcases hcalls i with hsame | hstop
    · exact h.kinds (hsame.symm.trans hc)
    · obtain ⟨c', hc', rfl⟩ := Option.map_eq_some_iff.mp (hstop.symm.trans hc)
      rw [c'.halt_spec.2.1, c'.halt_spec.2.2.1]
      exact h.kinds hc'
  · cases hfile : c.phase.file with
    | some file => exact h.holds (hopen hc hfile)
    | none =>
      cases hphase : c.phase with
      | writing file rest | syncing file | moving file =>
        rw [hphase] at hfile
        cases hfile
      | opening | syncingDir | returned ok | killed => trivial
  · rcases hcalls i with hsame | hstop
    · exact ⟨c, hsame.trans hc, rfl, rfl⟩
    · refine ⟨c.halt, ?_, c.halt_spec.2.1, c.halt_spec.2.2.2⟩
      show calls[i]? = _
      rw [hstop, hc]
      rfl
  · intro i c hc hfile
    exact hf.closed (hopen hc hfile) hfile

theorem WellFormed.begins (h : s.WellFormed isTemp) {new : Replacement ν β}
    (hkinds : isTemp new.temp = true ∧ isTemp new.target = false) (hphase : new.phase = .opening) :
    ({ s with calls := s.calls ++ [new] }).WellFormed isTemp ∧
      s.Keeps { s with calls := s.calls ++ [new] } := by
  have hcalls : ∀ {i : ℕ} {c : Replacement ν β}, (s.calls ++ [new])[i]? = some c →
      s.calls[i]? = some c ∨ c = new := by
    intro i c hc
    rw [List.getElem?_append] at hc
    split at hc
    · exact .inl hc
    · exact .inr (List.mem_singleton.mp (List.mem_of_getElem? hc))
  have hopen : ∀ {i file : ℕ} {c : Replacement ν β}, (s.calls ++ [new])[i]? = some c →
      c.phase.file = some file → s.calls[i]? = some c := by
    intro i file c hc hfile
    rcases hcalls hc with hold | rfl
    · exact hold
    · rw [hphase] at hfile
      cases hfile
  refine ⟨⟨fun hc => ?_, fun hc hfile => h.owns (hopen hc hfile) hfile,
      fun hi hj hfi hfj => h.apart (hopen hi hfi) (hopen hj hfj) hfi hfj, fun hc => ?_⟩,
    ⟨fun hc => ⟨_, ?_, rfl, rfl⟩, List.prefix_rfl, fun hf => ⟨⟨hf.allocated, hf.synced, ?_⟩, rfl⟩⟩⟩
  · rcases hcalls hc with hold | rfl
    · exact h.kinds hold
    · exact hkinds
  · rcases hcalls hc with hold | rfl
    · exact h.holds hold
    · rw [hphase]
      trivial
  · exact (List.getElem?_append_left (List.getElem?_eq_some_iff.mp hc).1).trans hc
  · intro i c hc hfile
    exact hf.closed (hopen hc hfile) hfile

/-- No call has a file after a power loss. -/
theorem WellFormed.loses (h : s.WellFormed isTemp) (pick : ν → ℕ) (left : ℕ → List β) :
    ({ s with
        volume := s.volume.powerLoss pick left
        calls := s.calls.map Replacement.halt }).WellFormed isTemp ∧
      s.Keeps { s with
        volume := s.volume.powerLoss pick left
        calls := s.calls.map Replacement.halt } := by
  obtain ⟨hhalted, hkeeps⟩ := h.halts (s.calls.map Replacement.halt) fun i =>
    .inr List.getElem?_map
  have hnone : ∀ {i file : ℕ} {c : Replacement ν β},
      (s.calls.map Replacement.halt)[i]? = some c → c.phase.file ≠ some file := by
    intro i file c hc hfile
    rw [List.getElem?_map] at hc
    obtain ⟨c', -, rfl⟩ := Option.map_eq_some_iff.mp hc
    rw [c'.halt_spec.1] at hfile
    cases hfile
  obtain ⟨hwf, hkeeps'⟩ := hhalted.volume (v := s.volume.powerLoss pick left) (Nat.le_refl _)
    (fun hc hfile => absurd hfile (hnone hc)) fun hf => Volume.files_powerLoss_of_synced hf.synced
  exact ⟨hwf, hkeeps.trans hkeeps'⟩

variable [DecidableEq ν]

theorem Move.keeps (h : s.WellFormed isTemp) (hc : s.calls[call]? = some c)
    (hm : Move s call c s') : s'.WellFormed isTemp ∧ s.Keeps s' := by
  cases hm with
  | idle => exact ⟨h, .refl s⟩
  | fail =>
    refine ⟨h.goto hc (Nat.le_refl _) (fun _ hi hfile => ⟨(h.owns hi hfile).2, rfl⟩) ?_ trivial,
      .goto hc (Nat.le_refl _) List.prefix_rfl fun _ => ⟨(Option.some_ne_none _).symm, rfl⟩⟩
    intro file hfile
    cases hfile
  | create hphase hnone =>
    have hlt : ∀ {i file : ℕ} {ci : Replacement ν β}, s.calls[i]? = some ci →
        ci.phase.file = some file → file ≠ s.volume.next :=
      fun hi hfile => Nat.ne_of_lt (h.owns hi hfile).1
    refine ⟨h.goto hc (Nat.le_succ _) ?_ ?_ ?_, .goto hc (Nat.le_succ _) List.prefix_rfl ?_⟩
    · intro i file ci _ hi hfile
      have hne : ci.temp ≠ c.temp := by
        intro htemp
        have hsome := (h.owns hi hfile).2
        rw [htemp, hnone] at hsome
        cases hsome
      exact ⟨(Volume.names_setName_of_ne hne).trans (h.owns hi hfile).2,
        Volume.files_setFile_of_ne (hlt hi hfile)⟩
    · intro file hfile
      cases hfile
      exact ⟨Nat.lt_succ_self _, Volume.names_setName_self,
        fun _ hi hfi => hlt hi hfi rfl⟩
    · show ((s.volume.setFile s.volume.next ⟨[], false⟩).files s.volume.next).content ++ _ = _
      rw [Volume.files_setFile_self, List.nil_append]
    · intro file hf
      have hne : file ≠ s.volume.next := Nat.ne_of_lt hf.allocated
      refine ⟨fun heq => hne (Option.some.inj heq).symm, Volume.files_setFile_of_ne hne⟩
  | written file hphase =>
    have hfile : c.phase.file = some file := by rw [hphase]; rfl
    refine ⟨h.goto hc (Nat.le_refl _) (fun _ hi hfi => ⟨(h.owns hi hfi).2, rfl⟩) ?_ ?_,
      .goto hc (Nat.le_refl _) List.prefix_rfl fun hf => ⟨?_, rfl⟩⟩
    · intro other hother
      cases hother
      exact ⟨(h.owns hc hfile).1, (h.owns hc hfile).2, h.alone hc hfile⟩
    · have hholds := h.holds hc
      rw [hphase] at hholds
      simpa [PhaseHolds] using hholds
    · have hne := hf.closed hc
      rwa [hfile] at hne
  | write file chunk rest hphase =>
    have hfile : c.phase.file = some file := by rw [hphase]; rfl
    refine ⟨h.goto hc (Nat.le_refl _) ?_ ?_ ?_, .goto hc (Nat.le_refl _) List.prefix_rfl ?_⟩
    · intro i other ci hne hi hfi
      refine ⟨(h.owns hi hfi).2, Volume.files_setFile_of_ne ?_⟩
      rintro rfl
      exact h.alone hc hfile hne hi hfi
    · intro other hother
      cases hother
      exact ⟨(h.owns hc hfile).1, (h.owns hc hfile).2, h.alone hc hfile⟩
    · have hholds := h.holds hc
      rw [hphase] at hholds
      show ((s.volume.setFile file _).files file).content ++ rest = c.content
      rw [Volume.files_setFile_self, List.append_assoc]
      exact hholds
    · intro other hf
      have hne : c.phase.file ≠ some other := hf.closed hc
      rw [hfile] at hne
      exact ⟨hne, Volume.files_setFile_of_ne fun heq => hne (congrArg some heq.symm)⟩
  | sync file hphase =>
    have hfile : c.phase.file = some file := by rw [hphase]; rfl
    refine ⟨h.goto hc (Nat.le_refl _) ?_ ?_ ?_, .goto hc (Nat.le_refl _) List.prefix_rfl ?_⟩
    · intro i other ci hne hi hfi
      refine ⟨(h.owns hi hfi).2, Volume.files_setFile_of_ne ?_⟩
      rintro rfl
      exact h.alone hc hfile hne hi hfi
    · intro other hother
      cases hother
      exact ⟨(h.owns hc hfile).1, (h.owns hc hfile).2, h.alone hc hfile⟩
    · have hholds := h.holds hc
      rw [hphase] at hholds
      show ((s.volume.setFile file _).files file).content = c.content ∧
        ((s.volume.setFile file _).files file).synced = true
      rw [Volume.files_setFile_self]
      exact ⟨hholds, rfl⟩
    · intro other hf
      have hne : c.phase.file ≠ some other := hf.closed hc
      rw [hfile] at hne
      exact ⟨hne, Volume.files_setFile_of_ne fun heq => hne (congrArg some heq.symm)⟩
  | rename file found hphase hfound =>
    have hfile : c.phase.file = some file := by rw [hphase]; rfl
    refine ⟨h.goto hc (Nat.le_refl _) ?_ ?_ trivial,
      .goto hc (Nat.le_refl _) (List.prefix_append _ _) fun _ => ⟨(Option.some_ne_none _).symm, rfl⟩⟩
    · intro i other ci hne hi hfi
      refine ⟨?_, rfl⟩
      show ((s.volume.setName c.temp none).setName c.target (some found)).names ci.temp = _
      rw [Volume.names_setName_of_ne (h.temp_ne_target hc hi),
        Volume.names_setName_of_ne (h.temp_ne hc hfile hne hi hfi)]
      exact (h.owns hi hfi).2
    · intro other hother
      cases hother
  | syncDir hphase =>
    refine ⟨h.goto hc (Nat.le_refl _) (fun _ hi hfile => ⟨(h.owns hi hfile).2, rfl⟩) ?_ trivial,
      .goto hc (Nat.le_refl _) List.prefix_rfl fun _ => ⟨(Option.some_ne_none _).symm, rfl⟩⟩
    intro file hfile
    cases hfile

/-- Temporary names are for replacements only, and nobody else touches the name `t`. -/
def Admitted (isTemp : ν → Bool) (t : ν) : ReplaceEvent ν β → Prop
  | .begin target temp _ => isTemp temp = true ∧ isTemp target = false
  | .put name _ | .remove name => isTemp name = false ∧ name ≠ t
  | .op _ _ _ | .kill _ | .powerLoss _ _ => True

/-- **One step.** -/
theorem step_keeps {t : ν} (h : s.WellFormed isTemp) {e : ReplaceEvent ν β}
    (he : Admitted isTemp t e) : (step s e).WellFormed isTemp ∧ s.Keeps (step s e) := by
  cases e with
  | begin target temp content => exact h.begins he rfl
  | op call ok count =>
    simp only [step]
    split
    · next c hc => exact (advance_move s call c ok count).keeps h hc
    · exact ⟨h, .refl s⟩
  | kill call =>
    refine h.halts _ fun i => ?_
    rw [List.getElem?_modify]
    by_cases hi : call = i
    · exact .inr (by simp [hi])
    · exact .inl (by simp [hi])
  | put name content =>
    refine h.volume (Nat.le_succ _) (fun hc hfile => ⟨?_, ?_⟩) fun hf => ?_
    · refine (Volume.names_setName_of_ne ?_).trans (h.owns hc hfile).2
      rintro heq
      have htemp := (h.kinds hc).1
      rw [heq, he.1] at htemp
      cases htemp
    · exact Volume.files_setFile_of_ne (Nat.ne_of_lt (h.owns hc hfile).1)
    · exact Volume.files_setFile_of_ne (Nat.ne_of_lt hf.allocated)
  | remove name =>
    refine h.volume (Nat.le_refl _) (fun hc hfile => ⟨?_, rfl⟩) fun _ => rfl
    refine (Volume.names_setName_of_ne ?_).trans (h.owns hc hfile).2
    rintro heq
    have htemp := (h.kinds hc).1
    rw [heq, he.1] at htemp
    cases htemp
  | powerLoss pick left => exact h.loses pick left

end Steps

/-! ## What a name can stand for -/

/-- The calls that have renamed, from `call` on. -/
def since (log : List ℕ) (call : ℕ) : List ℕ := log.dropWhile (· != call)

theorem mem_since_of_prefix {log log' : List ℕ} {call x : ℕ} (hlog : log <+: log')
    (hx : x ∈ since log call) : x ∈ since log' call := by
  obtain ⟨rest, rfl⟩ := hlog
  induction log with
  | nil => cases hx
  | cons first log ih =>
    simp only [since, List.cons_append, List.dropWhile_cons] at hx ⊢
    split at hx
    · next hne =>
        rw [if_pos hne]
        exact ih hx
    · next heq =>
        rw [if_neg heq]
        exact List.mem_append_left rest hx

theorem mem_since_append {log : List ℕ} {call x : ℕ} (hcall : call ∈ log ++ [x]) :
    x ∈ since (log ++ [x]) call := by
  induction log with
  | nil =>
    obtain rfl := List.mem_singleton.mp hcall
    simp [since]
  | cons first log ih =>
    simp only [since, List.cons_append, List.dropWhile_cons]
    split
    · next hne =>
        refine ih ((List.mem_cons.mp hcall).resolve_left ?_)
        rintro rfl
        simp at hne
    · exact List.mem_cons_of_mem _ (List.mem_append_right log List.mem_cons_self)

section Tracks

variable {isTemp : ν → Bool} {t : ν} {initial : Option (List β)} {s s' : Replacing ν β}

/-- The file holds what one of the calls in the log was for. -/
def Version (s : Replacing ν β) (t : ν) (log : List ℕ) (file : ℕ) : Prop :=
  ∃ call ∈ log, ∃ c, s.calls[call]? = some c ∧ c.target = t ∧
    (s.volume.files file).content = c.content

/-- The entry is a file that `call` or a later one has brought. -/
def NotOlder (s : Replacing ν β) (t : ν) (call : ℕ) (entry : Option ℕ) : Prop :=
  ∃ file, entry = some file ∧ s.Version t (since s.renamed call) file

/-- Everything `t` may stand for is whole, and not older than what calls have reported. -/
structure Tracks (t : ν) (initial : Option (List β)) (s : Replacing ν β) : Prop where
  whole : ∀ entry ∈ s.volume.entries t, (entry = none ∧ initial = none) ∨
    ∃ file, entry = some file ∧ s.Sealed file ∧
      (initial = some (s.volume.files file).content ∨ s.Version t s.renamed file)
  renamed : ∀ {call : ℕ} {c : Replacement ν β}, s.calls[call]? = some c →
    c.phase = .syncingDir → call ∈ s.renamed ∧
      (c.target = t → s.NotOlder t call (s.volume.names t))
  reported : ∀ {call : ℕ} {c : Replacement ν β}, s.calls[call]? = some c →
    c.phase = .returned true → call ∈ s.renamed ∧
      (c.target = t → ∀ entry ∈ s.volume.entries t, s.NotOlder t call entry)

theorem Tracks.sealed (h : s.Tracks t initial) {file : ℕ}
    (hmem : some file ∈ s.volume.entries t) : s.Sealed file := by
  rcases h.whole _ hmem with ⟨hnone, -⟩ | ⟨other, heq, hsealed, -⟩
  · cases hnone
  · cases heq
    exact hsealed

theorem Keeps.version (h : s.Keeps s') {log log' : List ℕ} {file : ℕ} (hf : s.Sealed file)
    (hlog : ∀ call ∈ log, call ∈ log') (hv : s.Version t log file) : s'.Version t log' file := by
  obtain ⟨call, hmem, c, hc, htarget, hcontent⟩ := hv
  obtain ⟨c', hc', htarget', hcontent'⟩ := h.calls hc
  refine ⟨call, hlog call hmem, c', hc', htarget'.trans htarget, ?_⟩
  rw [(h.files hf).2, hcontent, hcontent']

theorem Keeps.notOlder (h : s.Keeps s') (htracks : s.Tracks t initial) {call : ℕ}
    {entry : Option ℕ} (hmem : entry ∈ s.volume.entries t) (hold : s.NotOlder t call entry) :
    s'.NotOlder t call entry := by
  obtain ⟨file, rfl, hv⟩ := hold
  exact ⟨file, rfl, h.version (htracks.sealed hmem) (fun _ => mem_since_of_prefix h.log) hv⟩

theorem Keeps.whole (h : s.Keeps s') (htracks : s.Tracks t initial) {entry : Option ℕ}
    (hmem : entry ∈ s.volume.entries t) : (entry = none ∧ initial = none) ∨
      ∃ file, entry = some file ∧ s'.Sealed file ∧
        (initial = some (s'.volume.files file).content ∨ s'.Version t s'.renamed file) := by
  rcases htracks.whole entry hmem with hnone | ⟨file, rfl, hsealed, hinitial | hv⟩
  · exact .inl hnone
  · exact .inr ⟨file, rfl, (h.files hsealed).1, .inl (by rw [(h.files hsealed).2, hinitial])⟩
  · exact .inr ⟨file, rfl, (h.files hsealed).1,
      .inr (h.version hsealed (fun _ hx => h.log.subset hx) hv)⟩

/-- A step that brings nothing new under `t` and reports nothing. -/
theorem Tracks.of_subset (h : s.Tracks t initial) (hkeeps : s.Keeps s')
    (hentries : ∀ entry ∈ s'.volume.entries t, entry ∈ s.volume.entries t)
    (hrenamed : ∀ {call : ℕ} {c : Replacement ν β}, s'.calls[call]? = some c →
      c.phase = .syncingDir → s.calls[call]? = some c ∧ s'.volume.names t = s.volume.names t)
    (hreported : ∀ {call : ℕ} {c : Replacement ν β}, s'.calls[call]? = some c →
      c.phase = .returned true → s.calls[call]? = some c) : s'.Tracks t initial where
  whole entry hmem := hkeeps.whole h (hentries entry hmem)
  renamed {call c} hc hphase := by
    obtain ⟨hold, hnames⟩ := hrenamed hc hphase
    refine ⟨hkeeps.log.subset (h.renamed hold hphase).1, fun htarget => ?_⟩
    rw [hnames]
    exact hkeeps.notOlder h Volume.names_mem_entries ((h.renamed hold hphase).2 htarget)
  reported {call c} hc hphase := by
    have hold := hreported hc hphase
    refine ⟨hkeeps.log.subset (h.reported hold hphase).1, fun htarget entry hmem => ?_⟩
    exact hkeeps.notOlder h (hentries entry hmem)
      ((h.reported hold hphase).2 htarget entry (hentries entry hmem))

variable {call : ℕ} {c : Replacement ν β}

/-- A phase that reports nothing leads to no new report. -/
theorem Tracks.goto (h : s.Tracks t initial) (hc : s.calls[call]? = some c)
    {phase : ReplacePhase β} {v : Volume ν β} (hrenamed : phase ≠ .syncingDir)
    (hreported : phase ≠ .returned true)
    (hkeeps : s.Keeps { s.goto call c phase with volume := v })
    (hentries : v.entries t = s.volume.entries t) :
    ({ s.goto call c phase with volume := v }).Tracks t initial := by
  have hold : ∀ {i : ℕ} {ci : Replacement ν β}, (s.goto call c phase).calls[i]? = some ci →
      ci.phase = .syncingDir ∨ ci.phase = .returned true → s.calls[i]? = some ci := by
    intro i ci hi hphase
    rw [calls_goto hc i] at hi
    split at hi
    · cases hi
      rcases hphase with hphase | hphase
      · exact absurd hphase hrenamed
      · exact absurd hphase hreported
    · exact hi
  refine h.of_subset hkeeps (fun entry hmem => ?_)
    (fun hi hphase => ⟨hold hi (.inl hphase), ?_⟩) fun hi hphase => hold hi (.inr hphase)
  · rw [← hentries]
    exact hmem
  · exact (List.cons.inj hentries).1

variable [DecidableEq ν]

/-- The rename, under `t` or under another name. -/
theorem Tracks.rename (hwf : s.WellFormed isTemp) (ht : isTemp t = false)
    (h : s.Tracks t initial) (hc : s.calls[call]? = some c) {file found : ℕ}
    (hphase : c.phase = .moving file) (hfound : s.volume.names c.temp = some found) :
    ({ s.goto call c .syncingDir with
      volume := s.volume.rename c.temp c.target found
      renamed := s.renamed ++ [call] }).Tracks t initial := by
  have hfile : c.phase.file = some file := by rw [hphase]; rfl
  obtain rfl : found = file :=
    Option.some.inj (hfound.symm.trans (hwf.owns hc hfile).2)
  obtain ⟨-, hkeeps⟩ := (Move.rename found found hphase hfound).keeps hwf hc
  have hholds := hwf.holds hc
  rw [hphase] at hholds
  have htemp : t ≠ c.temp := by
    rintro rfl
    rw [(hwf.kinds hc).1] at ht
    cases ht
  have hself : (s.goto call c .syncingDir).calls[call]? = some { c with phase := .syncingDir } := by
    rw [calls_goto hc, if_pos rfl]
  -- what the call has renamed is sealed from now on
  have hsealed : ({ s.goto call c .syncingDir with
      volume := s.volume.rename c.temp c.target found
      renamed := s.renamed ++ [call] }).Sealed found := by
    refine ⟨(hwf.owns hc hfile).1, hholds.2, fun {i ci} hi hfi => ?_⟩
    rw [show _ = _ from calls_goto hc i] at hi
    split at hi
    · cases hi
      cases hfi
    · next hne => exact hwf.alone hc hfile hne hi hfi
  have hversion : ∀ {log : List ℕ}, call ∈ log → c.target = t →
      ({ s.goto call c .syncingDir with
        volume := s.volume.rename c.temp c.target found
        renamed := s.renamed ++ [call] }).Version t log found :=
    fun hmem htarget => ⟨call, hmem, _, hself, htarget, hholds.1⟩
  have hlast : ∀ {i : ℕ}, i ∈ s.renamed ∨ i = call → call ∈ since (s.renamed ++ [call]) i :=
    fun hi => mem_since_append (List.mem_append.mpr (hi.imp_right List.mem_singleton.mpr))
  by_cases htarget : c.target = t
  · have hentries : (s.volume.rename c.temp c.target found).entries t =
        some found :: s.volume.entries t := by
      show ((s.volume.setName c.temp none).setName c.target (some found)).entries t = _
      rw [htarget, Volume.entries_setName_self, Volume.entries_setName_of_ne htemp]
    have hnames : (s.volume.rename c.temp c.target found).names t = some found :=
      (List.cons.inj hentries).1
    refine ⟨fun entry hmem => ?_, fun {i ci} hi hci => ?_, fun {i ci} hi hci => ?_⟩
    · rcases List.mem_cons.mp (hentries ▸ hmem) with rfl | hold
      · exact .inr ⟨found, rfl, hsealed,
          .inr (hversion (List.mem_append_right _ List.mem_cons_self) htarget)⟩
      · exact hkeeps.whole h hold
    · have hi' : i ∈ s.renamed ∨ i = call := by
        rw [show _ = _ from calls_goto hc i] at hi
        split at hi
        · next heq => exact .inr heq
        · exact .inl (h.renamed hi hci).1
      exact ⟨List.mem_append.mpr (hi'.imp_right List.mem_singleton.mpr),
        fun _ => ⟨found, hnames, hversion (hlast hi') htarget⟩⟩
    · rw [show _ = _ from calls_goto hc i] at hi
      split at hi
      · cases hi
        cases hci
      · obtain ⟨hmem, hnotOlder⟩ := h.reported hi hci
        refine ⟨List.mem_append_left _ hmem, fun hit entry hentry => ?_⟩
        rcases List.mem_cons.mp (hentries ▸ hentry) with rfl | hold
        · exact ⟨found, rfl, hversion (hlast (.inl hmem)) htarget⟩
        · exact hkeeps.notOlder h hold (hnotOlder hit entry hold)
  · have hentries : (s.volume.rename c.temp c.target found).entries t = s.volume.entries t := by
      show ((s.volume.setName c.temp none).setName c.target (some found)).entries t = _
      rw [Volume.entries_setName_of_ne (Ne.symm htarget), Volume.entries_setName_of_ne htemp]
    have hnames : (s.volume.rename c.temp c.target found).names t = s.volume.names t :=
      (List.cons.inj hentries).1
    refine ⟨fun entry hmem => hkeeps.whole h (hentries ▸ hmem), fun {i ci} hi hci => ?_,
      fun {i ci} hi hci => ?_⟩
    · rw [show _ = _ from calls_goto hc i] at hi
      split at hi
      · next heq =>
          cases hi
          subst heq
          exact ⟨List.mem_append_right _ List.mem_cons_self, fun hit => absurd hit htarget⟩
      · obtain ⟨hmem, hnotOlder⟩ := h.renamed hi hci
        refine ⟨List.mem_append_left _ hmem, fun hit => ?_⟩
        show NotOlder _ t i ((s.volume.rename c.temp c.target found).names t)
        rw [hnames]
        exact hkeeps.notOlder h Volume.names_mem_entries (hnotOlder hit)
    · rw [show _ = _ from calls_goto hc i] at hi
      split at hi
      · cases hi
        cases hci
      · obtain ⟨hmem, hnotOlder⟩ := h.reported hi hci
        refine ⟨List.mem_append_left _ hmem, fun hit entry hentry => ?_⟩
        exact hkeeps.notOlder h (hentries ▸ hentry) (hnotOlder hit entry (hentries ▸ hentry))

/-- The sync of the directory makes what `t` stands for now its only entry. -/
theorem Tracks.syncDir (hwf : s.WellFormed isTemp) (h : s.Tracks t initial)
    (hc : s.calls[call]? = some c) (hphase : c.phase = .syncingDir) :
    ({ s.goto call c (.returned true) with volume := s.volume.syncDir }).Tracks t initial := by
  obtain ⟨-, hkeeps⟩ := (Move.syncDir hphase).keeps hwf hc
  have hentries : ∀ entry ∈ s.volume.syncDir.entries t, entry = s.volume.names t :=
    fun entry hmem => List.mem_singleton.mp hmem
  have hsub : ∀ entry ∈ s.volume.syncDir.entries t, entry ∈ s.volume.entries t := by
    intro entry hmem
    rw [hentries entry hmem]
    exact Volume.names_mem_entries
  refine ⟨fun entry hmem => hkeeps.whole h (hsub entry hmem), fun {i ci} hi hci => ?_,
    fun {i ci} hi hci => ?_⟩
  · rw [show _ = _ from calls_goto hc i] at hi
    split at hi
    · cases hi
      cases hci
    · obtain ⟨hmem, hnotOlder⟩ := h.renamed hi hci
      exact ⟨hmem, fun hit => hkeeps.notOlder h Volume.names_mem_entries (hnotOlder hit)⟩
  · rw [show _ = _ from calls_goto hc i] at hi
    split at hi
    · next heq =>
        cases hi
        subst heq
        obtain ⟨hmem, hnotOlder⟩ := h.renamed hc hphase
        refine ⟨hmem, fun hit entry hentry => ?_⟩
        rw [hentries entry hentry]
        exact hkeeps.notOlder h Volume.names_mem_entries (hnotOlder hit)
    · obtain ⟨hmem, hnotOlder⟩ := h.reported hi hci
      refine ⟨hmem, fun hit entry hentry => ?_⟩
      exact hkeeps.notOlder h (hsub entry hentry) (hnotOlder hit entry (hsub entry hentry))

theorem Move.tracks (hwf : s.WellFormed isTemp) (ht : isTemp t = false) (h : s.Tracks t initial)
    (hc : s.calls[call]? = some c) (hm : Move s call c s') : s'.Tracks t initial := by
  obtain ⟨-, hkeeps⟩ := hm.keeps hwf hc
  cases hm with
  | idle => exact h
  | fail => exact h.goto hc (by rintro ⟨⟩) (by rintro ⟨⟩) hkeeps rfl
  | create hphase hnone =>
    refine h.goto hc (by rintro ⟨⟩) (by rintro ⟨⟩) hkeeps (Volume.entries_setName_of_ne ?_)
    rintro rfl
    rw [(hwf.kinds hc).1] at ht
    cases ht
  | written file hphase | write file chunk rest hphase | sync file hphase =>
    exact h.goto hc (by rintro ⟨⟩) (by rintro ⟨⟩) hkeeps rfl
  | rename file found hphase hfound => exact h.rename hwf ht hc hphase hfound
  | syncDir hphase => exact h.syncDir hwf hc hphase

/-- Calls that stop report nothing. -/
theorem Replacement.of_halt {ν β : Type*} {c c' : Replacement ν β} (h : c = c'.halt)
    (hphase : c.phase = .syncingDir ∨ c.phase = .returned true) :
    c = c' ∧ c.phase = .returned true := by
  subst h
  unfold Replacement.halt at hphase ⊢
  split
  · next ok hok =>
      simp only [hok] at hphase
      rcases hphase with hphase | hphase
      · cases hphase
      · exact ⟨rfl, hok.trans hphase⟩
  · next hother =>
      split at hphase
      · next ok hok => exact absurd hok (hother ok)
      · rcases hphase with hphase | hphase <;> cases hphase

/-- **One step.** -/
theorem step_tracks (hwf : s.WellFormed isTemp) (ht : isTemp t = false) (h : s.Tracks t initial)
    {e : ReplaceEvent ν β} (he : Admitted isTemp t e) : (step s e).Tracks t initial := by
  have hkeeps := (step_keeps hwf he).2
  cases e with
  | begin target temp content =>
    have hold : ∀ {i : ℕ} {ci : Replacement ν β},
        (s.calls ++ [Replacement.mk target temp content .opening])[i]? = some ci →
          ci.phase ≠ .opening → s.calls[i]? = some ci := by
      intro i ci hi hphase
      rw [List.getElem?_append] at hi
      split at hi
      · exact hi
      · rw [List.mem_singleton.mp (List.mem_of_getElem? hi)] at hphase
        exact absurd rfl hphase
    exact h.of_subset hkeeps (fun _ hmem => hmem)
      (fun hi hphase => ⟨hold hi (by rw [hphase]; rintro ⟨⟩), rfl⟩)
      fun hi hphase => hold hi (by rw [hphase]; rintro ⟨⟩)
  | op i ok count =>
    simp only [step]
    split
    · next ci hi => exact (advance_move s i ci ok count).tracks hwf ht h hi
    · exact h
  | kill i =>
    have hold : ∀ {j : ℕ} {cj : Replacement ν β},
        (s.calls.modify i Replacement.halt)[j]? = some cj →
          cj.phase = .syncingDir ∨ cj.phase = .returned true → s.calls[j]? = some cj := by
      intro j cj hj hphase
      rw [List.getElem?_modify] at hj
      by_cases hij : i = j
      · obtain ⟨c', hc', hhalt⟩ := Option.map_eq_some_iff.mp (by simpa [hij] using hj)
        rw [(Replacement.of_halt hhalt.symm hphase).1]
        exact hc'
      · simpa [hij] using hj
    exact h.of_subset hkeeps (fun _ hmem => hmem)
      (fun hj hphase => ⟨hold hj (.inl hphase), rfl⟩) fun hj hphase => hold hj (.inr hphase)
  | put name content =>
    have hentries : (s.volume.create name content).entries t = s.volume.entries t :=
      Volume.entries_setName_of_ne (Ne.symm he.2)
    exact h.of_subset hkeeps (fun entry hmem => hentries ▸ hmem)
      (fun hi _ => ⟨hi, (List.cons.inj hentries).1⟩) fun hi _ => hi
  | remove name =>
    have hentries : (s.volume.setName name none).entries t = s.volume.entries t :=
      Volume.entries_setName_of_ne (Ne.symm he.2)
    exact h.of_subset hkeeps (fun entry hmem => hentries ▸ hmem)
      (fun hi _ => ⟨hi, (List.cons.inj hentries).1⟩) fun hi _ => hi
  | powerLoss pick left =>
    have hold : ∀ {j : ℕ} {cj : Replacement ν β},
        (s.calls.map Replacement.halt)[j]? = some cj →
          cj.phase = .syncingDir ∨ cj.phase = .returned true →
            s.calls[j]? = some cj ∧ cj.phase = .returned true := by
      intro j cj hj hphase
      rw [List.getElem?_map] at hj
      obtain ⟨c', hc', hhalt⟩ := Option.map_eq_some_iff.mp hj
      obtain ⟨rfl, hreported⟩ := Replacement.of_halt hhalt.symm hphase
      exact ⟨hc', hreported⟩
    refine h.of_subset hkeeps (fun entry hmem => ?_) (fun hj hphase => ?_)
      fun hj hphase => (hold hj (.inr hphase)).1
    · rw [List.mem_singleton.mp hmem]
      exact Volume.names_powerLoss_mem pick left
    · have hreported := (hold hj (.inl hphase)).2
      rw [hphase] at hreported
      cases hreported

end Tracks

/-! ## Runs -/

/-- Before any call: the file `t` stands for is on the disk, and so is its name. -/
structure Settled (v : Volume ν β) (t : ν) : Prop where
  file : ∀ file, v.names t = some file → file < v.next ∧ (v.files file).synced = true
  name : v.earlier t = []

section Runs

variable {isTemp : ν → Bool} {t : ν} {v : Volume ν β} {es fs gs : List (ReplaceEvent ν β)}

theorem not_mem_start {call : ℕ} {c : Replacement ν β} :
    ({ volume := v } : Replacing ν β).calls[call]? ≠ some c := by
  rintro ⟨⟩

theorem wellFormed_start : ({ volume := v } : Replacing ν β).WellFormed isTemp where
  kinds hc := absurd hc not_mem_start
  owns hc := absurd hc not_mem_start
  apart hi := absurd hi not_mem_start
  holds hc := absurd hc not_mem_start

theorem Settled.tracks (h : Settled v t) :
    ({ volume := v } : Replacing ν β).Tracks t (v.read t) where
  whole entry hmem := by
    have hentries : v.entries t = [v.names t] := congrArg _ h.name
    obtain rfl := List.mem_singleton.mp (hentries ▸ hmem)
    cases hnames : v.names t with
    | none => exact .inl ⟨rfl, by rw [Volume.read, hnames]; rfl⟩
    | some file =>
      obtain ⟨hlt, hsynced⟩ := h.file file hnames
      exact .inr ⟨file, rfl, ⟨hlt, hsynced, fun hc => absurd hc not_mem_start⟩,
        .inl (by rw [Volume.read, hnames]; rfl)⟩
  renamed hc := absurd hc not_mem_start
  reported hc := absurd hc not_mem_start

variable [DecidableEq ν]

/-- **A run.** -/
theorem tracks_run (h : Settled v t) (ht : isTemp t = false)
    (hes : ∀ e ∈ es, Admitted isTemp t e) :
    (run step { volume := v } es).WellFormed isTemp ∧
      (run step { volume := v } es).Tracks t (v.read t) := by
  have hmeets : Meets step (fun _ e => Admitted isTemp t e) ({ volume := v } : Replacing ν β) es :=
    meets_of_invariant (I := fun _ => True) (fun _ e he _ => ⟨hes e he, trivial⟩) trivial
  exact run_invariant
    (I := fun s : Replacing ν β => s.WellFormed isTemp ∧ s.Tracks t (v.read t))
    (fun s e hs he => ⟨(step_keeps hs.1 he).1, step_tracks hs.1 ht hs.2 he⟩)
    ⟨wellFormed_start, h.tracks⟩ hmeets

theorem keeps_run {s : Replacing ν β} (hwf : s.WellFormed isTemp)
    (hes : ∀ e ∈ es, Admitted isTemp t e) : s.Keeps (run step s es) := by
  induction es generalizing s with
  | nil => exact .refl s
  | cons e es ih =>
    obtain ⟨hwf', hkeeps⟩ := step_keeps hwf (hes e List.mem_cons_self)
    exact hkeeps.trans (ih hwf' fun f hf => hes f (List.mem_cons_of_mem e hf))

theorem begun_step {s : Replacing ν β} {e : ReplaceEvent ν β} {c : Replacement ν β}
    (hc : c ∈ (step s e).calls) :
    (∃ c' ∈ s.calls, c'.target = c.target ∧ c'.content = c.content) ∨
      ∃ temp, e = .begin c.target temp c.content := by
  have hhalt : ∀ {c' : Replacement ν β}, c'.halt = c →
      c'.target = c.target ∧ c'.content = c.content := by
    rintro c' rfl
    exact ⟨c'.halt_spec.2.1.symm, c'.halt_spec.2.2.2.symm⟩
  cases e with
  | begin target temp content =>
    rcases List.mem_append.mp hc with hold | hnew
    · exact .inl ⟨c, hold, rfl, rfl⟩
    · obtain rfl := List.mem_singleton.mp hnew
      exact .inr ⟨temp, rfl⟩
  | op call ok count =>
    have hset : ∀ {c' : Replacement ν β} {phase : ReplacePhase β}, s.calls[call]? = some c' →
        c ∈ (s.goto call c' phase).calls →
          ∃ c' ∈ s.calls, c'.target = c.target ∧ c'.content = c.content := by
      intro c' phase hc' hmem
      rcases List.mem_or_eq_of_mem_set hmem with hold | rfl
      · exact ⟨c, hold, rfl, rfl⟩
      · exact ⟨c', List.mem_of_getElem? hc', rfl, rfl⟩
    simp only [step] at hc
    split at hc
    · next c' hc' =>
        rcases advance_calls s call c' ok count with hsame | ⟨phase, hcalls⟩
        · rw [hsame] at hc
          exact .inl ⟨c, hc, rfl, rfl⟩
        · rw [hcalls] at hc
          exact .inl (hset hc' hc)
    · exact .inl ⟨c, hc, rfl, rfl⟩
  | kill call =>
    obtain ⟨i, hi⟩ := List.mem_iff_getElem?.mp hc
    have hi' : (s.calls.modify call Replacement.halt)[i]? = some c := hi
    rw [List.getElem?_modify] at hi'
    by_cases heq : call = i
    · obtain ⟨c', hc', hhalted⟩ := Option.map_eq_some_iff.mp (by simpa [heq] using hi')
      exact .inl ⟨c', List.mem_of_getElem? hc', hhalt hhalted⟩
    · exact .inl ⟨c, List.mem_of_getElem? (by simpa [heq] using hi'), rfl, rfl⟩
  | put name content | remove name => exact .inl ⟨c, hc, rfl, rfl⟩
  | powerLoss pick left =>
    obtain ⟨c', hc', hhalted⟩ := List.mem_map.mp hc
    exact .inl ⟨c', hc', hhalt hhalted⟩

theorem begun_run {c : Replacement ν β} (hc : c ∈ (run step { volume := v } es).calls) :
    ∃ temp, .begin c.target temp c.content ∈ es := by
  induction es using List.reverseRecOn generalizing c with
  | nil => cases hc
  | append_singleton es e ih =>
    rw [run_append] at hc
    rcases begun_step hc with ⟨c', hc', htarget, hcontent⟩ | ⟨temp, rfl⟩
    · obtain ⟨temp, hmem⟩ := ih hc'
      exact ⟨temp, List.mem_append_left _ (by rwa [← htarget, ← hcontent])⟩
    · exact ⟨temp, List.mem_append_right _ List.mem_cons_self⟩

/-- While the power is there, a name that stands for a file goes on standing for one. -/
theorem names_isSome_step {s : Replacing ν β} (hwf : s.WellFormed isTemp)
    (ht : isTemp t = false) {e : ReplaceEvent ν β} (he : Admitted isTemp t e)
    (hpower : ∀ pick left, e ≠ .powerLoss pick left) (hsome : (s.volume.names t).isSome) :
    ((step s e).volume.names t).isSome := by
  cases e with
  | begin target temp content | kill call => exact hsome
  | op call ok count =>
    simp only [step]
    split
    · next c hc =>
        have hmove := advance_move s call c ok count
        have htemp : t ≠ c.temp := by
          rintro rfl
          rw [(hwf.kinds hc).1] at ht
          cases ht
        generalize s.advance call c ok count c.phase = s' at hmove
        cases hmove with
        | idle | fail | written | write | sync | syncDir => exact hsome
        | create =>
          show ((s.volume.setName c.temp _).names t).isSome
          rwa [Volume.names_setName_of_ne htemp]
        | rename file found =>
          show (((s.volume.setName c.temp none).setName c.target (some found)).names t).isSome
          by_cases htarget : t = c.target
          · rw [← htarget, Volume.names_setName_self]
            rfl
          · rwa [Volume.names_setName_of_ne htarget, Volume.names_setName_of_ne htemp]
    · exact hsome
  | put name content =>
    show ((s.volume.setName name _).names t).isSome
    rwa [Volume.names_setName_of_ne (Ne.symm he.2)]
  | remove name =>
    show ((s.volume.setName name none).names t).isSome
    rwa [Volume.names_setName_of_ne (Ne.symm he.2)]
  | powerLoss pick left => exact absurd rfl (hpower pick left)

theorem names_isSome_run {s : Replacing ν β} (hwf : s.WellFormed isTemp) (ht : isTemp t = false)
    (hes : ∀ e ∈ es, Admitted isTemp t e) (hpower : ∀ pick left, .powerLoss pick left ∉ es)
    (hsome : (s.volume.names t).isSome) : ((run step s es).volume.names t).isSome := by
  induction es generalizing s with
  | nil => exact hsome
  | cons e es ih =>
    have he := hes e List.mem_cons_self
    refine ih (step_keeps hwf he).1 (fun f hf => hes f (List.mem_cons_of_mem e hf))
      (fun pick left hmem => hpower pick left (List.mem_cons_of_mem e hmem)) ?_
    refine names_isSome_step hwf ht he (fun pick left heq => hpower pick left ?_) hsome
    rw [heq]
    exact List.mem_cons_self

/-- **Nothing torn is read.** A reader opens the file in the middle of a run and reads it
at the end: what it gets was there at the start or is what one call was for. -/
theorem opened_run (h : Settled v t) (ht : isTemp t = false)
    (hes : ∀ e ∈ es, Admitted isTemp t e) (hfs : ∀ e ∈ fs, Admitted isTemp t e) {file : ℕ}
    (hopen : (run step { volume := v } es).volume.names t = some file) :
    v.read t = some ((run step { volume := v } (es ++ fs)).volume.files file).content ∨
      ∃ c ∈ (run step { volume := v } (es ++ fs)).calls, c.target = t ∧
        ((run step { volume := v } (es ++ fs)).volume.files file).content = c.content := by
  obtain ⟨hwf, htracks⟩ := tracks_run h ht hes
  have hkeeps := keeps_run hwf hfs
  rw [← run_append] at hkeeps
  have hmem : some file ∈ (run step { volume := v } es).volume.entries t :=
    hopen ▸ Volume.names_mem_entries
  rcases hkeeps.whole htracks hmem with ⟨hnone, -⟩ | ⟨other, heq, -, hinitial | hversion⟩
  · cases hnone
  · cases heq
    exact .inl hinitial
  · cases heq
    obtain ⟨call, -, c, hc, htarget, hcontent⟩ := hversion
    exact .inr ⟨c, List.mem_of_getElem? hc, htarget, hcontent⟩

theorem returned_step {s : Replacing ν β} (e : ReplaceEvent ν β) {call : ℕ}
    {c : Replacement ν β} (hc : s.calls[call]? = some c) {ok : Bool}
    (hok : c.phase = .returned ok) : (step s e).calls[call]? = some c := by
  have hhalt : c.halt = c := by rw [Replacement.halt, hok]
  cases e with
  | begin target temp content =>
    exact (List.getElem?_append_left (List.getElem?_eq_some_iff.mp hc).1).trans hc
  | op i ok count =>
    simp only [step]
    split
    · next ci hi =>
        by_cases hne : i = call
        · subst hne
          cases hc.symm.trans hi
          rw [hok]
          exact hc
        · rcases advance_calls s i ci ok count with hsame | ⟨phase, hset⟩
          · rw [hsame]
            exact hc
          · rw [hset, List.getElem?_set_ne hne]
            exact hc
    · exact hc
  | kill i =>
    show (s.calls.modify i Replacement.halt)[call]? = some c
    rw [List.getElem?_modify, hc]
    simp [hhalt]
  | put name content | remove name => exact hc
  | powerLoss pick left =>
    show (s.calls.map Replacement.halt)[call]? = some c
    rw [List.getElem?_map, hc, Option.map_some, hhalt]

theorem returned_run {s : Replacing ν β} {call : ℕ} {c : Replacement ν β}
    (hc : s.calls[call]? = some c) {ok : Bool} (hok : c.phase = .returned ok) :
    (run step s es).calls[call]? = some c := by
  induction es generalizing s with
  | nil => exact hc
  | cons e es ih => exact ih (returned_step e hc hok)

/-- **What is reported stays.** After a call has returned well, whatever happens, who opens
the name reads what that call or one that has renamed later was for. -/
theorem reported_run (h : Settled v t) (ht : isTemp t = false)
    (hes : ∀ e ∈ es, Admitted isTemp t e) (hfs : ∀ e ∈ fs, Admitted isTemp t e)
    (hgs : ∀ e ∈ gs, Admitted isTemp t e) {call : ℕ} {c : Replacement ν β}
    (hc : (run step { volume := v } es).calls[call]? = some c) (htarget : c.target = t)
    (hok : c.phase = .returned true) :
    ∃ later ∈ since (run step { volume := v } (es ++ fs)).renamed call, ∃ c' file,
      (run step { volume := v } (es ++ fs)).calls[later]? = some c' ∧ c'.target = t ∧
        (run step { volume := v } (es ++ fs)).volume.names t = some file ∧
          ((run step { volume := v } (es ++ fs ++ gs)).volume.files file).content = c'.content := by
  have hall : ∀ e ∈ es ++ fs, Admitted isTemp t e := fun e he =>
    (List.mem_append.mp he).elim (hes e) (hfs e)
  obtain ⟨hwf, htracks⟩ := tracks_run h ht hall
  have hc' : (run step { volume := v } (es ++ fs)).calls[call]? = some c := by
    rw [run_append]
    exact returned_run hc hok
  obtain ⟨-, hnotOlder⟩ := htracks.reported hc' hok
  obtain ⟨file, hnames, later, hlater, c', hc', htarget', hcontent⟩ :=
    hnotOlder htarget _ Volume.names_mem_entries
  refine ⟨later, hlater, c', file, hc', htarget', hnames, ?_⟩
  rcases htracks.whole _ Volume.names_mem_entries with ⟨hnone, -⟩ | ⟨other, heq, hsealed, -⟩
  · rw [hnames] at hnone
    cases hnone
  · obtain rfl : file = other := Option.some.inj (hnames.symm.trans heq)
    rw [run_append, ((keeps_run hwf hgs).files hsealed).2, hcontent]

end Runs

end Replacing

end Direclaw.Lib
