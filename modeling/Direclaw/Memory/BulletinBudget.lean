import Direclaw.Memory.Bulletin
import Mathlib.Logic.Relation

/-!
# How a bulletin is cut to size

`truncate_sections` takes one line after the other, each from the first section of the trim
order that has one, and drops whole sections only when no line is left. A run of these steps
ends within the budget, and what it leaves of a section is a beginning of it.
-/

namespace Direclaw.Memory

open Direclaw.Lib

/-- The lines of a section; a section that was dropped has none. -/
def linesIn (sections : List BulletinSection) (name : BulletinSectionName) : List BulletinLine :=
  ((sections.find? (·.name = name)).map (·.lines)).getD []

/-- One section comes before the other in the order in which lines are taken. -/
def TrimmedBefore (earlier later : BulletinSectionName) : Prop := [earlier, later].Sublist trimOrder

/-- A line is taken, or a section is dropped that has none. -/
inductive ShrinkStep (sections : List BulletinSection) : List BulletinSection → Prop where
  | pop {name : BulletinSectionName} {trimmed : List BulletinSection}
      (hpop : popLine sections name = some trimmed)
      (hempty : ∀ earlier, TrimmedBefore earlier name → linesIn sections earlier = []) :
      ShrinkStep sections trimmed
  | drop (name : BulletinSectionName) (hempty : linesOf sections = []) :
      ShrinkStep sections (sections.eraseP (·.name = name))

abbrev Shrinks := Relation.ReflTransGen ShrinkStep

/-! ## One step -/

section Steps

variable {sections trimmed : List BulletinSection} {name : BulletinSectionName}

theorem mem_trimOrder (name : BulletinSectionName) : name ∈ trimOrder := by
  cases name <;> decide

theorem mem_sectionDropOrder (name : BulletinSectionName) : name ∈ sectionDropOrder := by
  cases name <;> decide

theorem popLine_eq_none_iff :
    popLine sections name = none ↔ ∀ s ∈ sections, s.name = name → s.lines = [] := by
  rw [popLine, ite_eq_right_iff]
  simp only [List.any_eq_true, Bool.and_eq_true, decide_eq_true_eq, Bool.not_eq_true',
    List.isEmpty_eq_false_iff, reduceCtorEq, imp_false, not_exists, not_and, not_not]

theorem popLine_eq_some (h : popLine sections name = some trimmed) :
    (∃ s ∈ sections, s.name = name ∧ s.lines ≠ []) ∧
      trimmed = sections.map fun s =>
        if s.name = name then { s with lines := s.lines.dropLast } else s := by
  rw [popLine] at h
  split at h
  · next hany =>
      obtain ⟨s, hs, hname⟩ := List.any_eq_true.mp hany
      rw [Bool.and_eq_true, decide_eq_true_eq, Bool.not_eq_true',
        List.isEmpty_eq_false_iff] at hname
      exact ⟨⟨s, hs, hname⟩, (Option.some.inj h).symm⟩
  · cases h

theorem linesIn_of_linesOf (h : linesOf sections = []) (name : BulletinSectionName) :
    linesIn sections name = [] := by
  rw [linesIn]
  cases hfind : sections.find? (·.name = name) with
  | none => rfl
  | some s => exact List.flatMap_eq_nil_iff.mp h s (List.mem_of_find?_eq_some hfind)

theorem linesIn_eq_nil (h : ∀ s ∈ sections, s.name = name → s.lines = []) :
    linesIn sections name = [] := by
  rw [linesIn]
  cases hfind : sections.find? (·.name = name) with
  | none => rfl
  | some s =>
    have hname := List.find?_some hfind
    exact h s (List.mem_of_find?_eq_some hfind) (of_decide_eq_true hname)

/-- Only the section that the line is taken from changes. -/
theorem linesIn_popLine (h : popLine sections name = some trimmed) (other : BulletinSectionName) :
    linesIn trimmed other =
      if other = name then (linesIn sections other).dropLast else linesIn sections other := by
  obtain ⟨-, rfl⟩ := popLine_eq_some h
  have hname : ∀ s : BulletinSection, (if s.name = name then
      { s with lines := s.lines.dropLast } else s).name = s.name := by
    intro s
    split
    · rfl
    · rfl
  rw [linesIn, linesIn, List.find?_map]
  have hsame : ((fun s : BulletinSection => decide (s.name = other)) ∘ fun s =>
      if s.name = name then { s with lines := s.lines.dropLast } else s) =
        fun s => decide (s.name = other) := by
    funext s
    rw [Function.comp_apply, hname]
  rw [hsame]
  cases hfind : sections.find? (·.name = other) with
  | none =>
    show ([] : List BulletinLine) = if other = name then [].dropLast else []
    split
    · rfl
    · rfl
  | some s =>
    have hs : s.name = other := by simpa using List.find?_some hfind
    show (if s.name = name then { s with lines := s.lines.dropLast } else s).lines =
      if other = name then s.lines.dropLast else s.lines
    rw [hs]
    split
    · rfl
    · rfl

theorem mem_of_trimmedBefore {before behind : List BulletinSectionName}
    {earlier : BulletinSectionName} (horder : trimOrder = before ++ name :: behind)
    (h : TrimmedBefore earlier name) : earlier ∈ before := by
  have hnodup : trimOrder.Nodup := by decide
  rw [TrimmedBefore, horder] at h
  rw [horder] at hnodup
  obtain ⟨front, back, hpair, hfront, hback⟩ := List.sublist_append_iff.mp h
  cases front with
  | nil =>
    -- then the later section would come a second time
    rw [List.nil_append] at hpair
    rw [← hpair] at hback
    have hagain : name ∈ behind := by
      have htail := hback.tail
      exact htail.subset List.mem_cons_self
    exact absurd hagain (List.nodup_cons.mp (List.nodup_append.mp hnodup).2.1).1
  | cons first front =>
    obtain ⟨rfl, -⟩ := List.cons.inj hpair
    exact hfront.subset List.mem_cons_self

theorem findSome_popLine (h : trimOrder.findSome? (popLine sections) = some trimmed) :
    ShrinkStep sections trimmed := by
  obtain ⟨before, name, behind, horder, hpop, hbefore⟩ := List.findSome?_eq_some_iff.mp h
  refine .pop hpop fun earlier hearlier => ?_
  exact linesIn_eq_nil (popLine_eq_none_iff.mp
    (hbefore earlier (mem_of_trimmedBefore horder hearlier)))

theorem linesOf_of_findSome_none (h : trimOrder.findSome? (popLine sections) = none) :
    linesOf sections = [] := by
  refine List.flatMap_eq_nil_iff.mpr fun s hs => ?_
  have hnone := List.findSome?_eq_none_iff.mp h s.name (mem_trimOrder s.name)
  exact popLine_eq_none_iff.mp hnone s hs rfl

end Steps

/-! ## A whole run -/

section Runs

variable {maxChars : ℕ} {sections after : List BulletinSection}

/-- What is left of a section is a beginning of it. -/
theorem Shrinks.prefix (h : Shrinks sections after) :
    ∀ s ∈ after, ∃ original ∈ sections, original.name = s.name ∧ s.lines <+: original.lines := by
  induction h with
  | refl => exact fun s hs => ⟨s, hs, rfl, List.prefix_refl _⟩
  | tail _ hstep ih =>
    intro s hs
    cases hstep with
    | pop hpop _ =>
      obtain ⟨-, rfl⟩ := popLine_eq_some hpop
      obtain ⟨before, hbefore, rfl⟩ := List.mem_map.mp hs
      obtain ⟨original, horiginal, hname, hlines⟩ := ih before hbefore
      refine ⟨original, horiginal, ?_, ?_⟩
      · split
        · exact hname
        · exact hname
      · split
        · exact (List.dropLast_prefix _).trans hlines
        · exact hlines
    | drop name _ => exact ih s (List.mem_of_mem_eraseP hs)

/-- Once a section has lost a line, those before it have none, and get none. -/
theorem Shrinks.priority (h : Shrinks sections after) {earlier later : BulletinSectionName}
    (hrank : TrimmedBefore earlier later) (hlost : linesIn after later ≠ linesIn sections later) :
    linesIn after earlier = [] := by
  induction h with
  | refl => exact absurd rfl hlost
  | @tail middle last _ hstep ih =>
    cases hstep with
    | @pop name _ hpop hempty =>
      rw [linesIn_popLine hpop] at hlost ⊢
      have hgone : linesIn middle earlier = [] := by
        by_cases hlater : later = name
        · exact hempty earlier (hlater ▸ hrank)
        · rw [if_neg hlater] at hlost
          exact ih hlost
      rw [hgone]
      split
      · rfl
      · rfl
    | drop name hempty =>
      refine linesIn_of_linesOf (List.flatMap_eq_nil_iff.mpr fun s hs => ?_) earlier
      exact List.flatMap_eq_nil_iff.mp hempty s (List.mem_of_mem_eraseP hs)

/-! ## The loops -/

theorem linesOf_cons (s : BulletinSection) (sections : List BulletinSection) :
    linesOf (s :: sections) = s.lines ++ linesOf sections :=
  List.flatMap_cons

theorem length_linesOf_map_le (name : BulletinSectionName) (sections : List BulletinSection) :
    (linesOf (sections.map fun s =>
      if s.name = name then { s with lines := s.lines.dropLast } else s)).length ≤
        (linesOf sections).length := by
  induction sections with
  | nil => exact le_refl _
  | cons s sections ih =>
    rw [List.map_cons, linesOf_cons, linesOf_cons, List.length_append, List.length_append]
    refine Nat.add_le_add ?_ ih
    split
    · exact (List.dropLast_prefix _).length_le
    · exact le_refl _

theorem length_linesOf_popLine {name : BulletinSectionName} {trimmed : List BulletinSection}
    (h : popLine sections name = some trimmed) :
    (linesOf trimmed).length < (linesOf sections).length := by
  obtain ⟨⟨s, hs, hname, hlines⟩, rfl⟩ := popLine_eq_some h
  obtain ⟨before, behind, rfl⟩ := List.append_of_mem hs
  have hfront := length_linesOf_map_le name before
  have hback := length_linesOf_map_le name behind
  have hpos := List.length_pos_of_ne_nil hlines
  simp only [linesOf, List.map_append, List.map_cons, List.flatMap_append, List.flatMap_cons,
    List.length_append, if_pos hname, List.length_dropLast] at hfront hback ⊢
  omega

/-- A turn of the loop takes a line away. -/
theorem length_linesOf_findSome {trimmed : List BulletinSection}
    (h : trimOrder.findSome? (popLine sections) = some trimmed) :
    (linesOf trimmed).length < (linesOf sections).length := by
  obtain ⟨name, -, hpop⟩ := List.exists_of_findSome?_eq_some h
  exact length_linesOf_popLine hpop

theorem trimLines_shrinks : ∀ (fuel : ℕ) (sections : List BulletinSection),
    Shrinks sections (trimLines maxChars fuel sections)
  | 0, _ => .refl
  | fuel + 1, sections => by
      rw [trimLines]
      split
      · exact .refl
      · split
        · next trimmed hpop => exact .head (findSome_popLine hpop) (trimLines_shrinks fuel trimmed)
        · exact .refl

/-- The loop ends within the budget or without a line. -/
theorem trimLines_done : ∀ (fuel : ℕ) (sections : List BulletinSection),
    (linesOf sections).length ≤ fuel →
      fits maxChars (trimLines maxChars fuel sections) = true ∨
        linesOf (trimLines maxChars fuel sections) = []
  | 0, sections, h => .inr (List.length_eq_zero_iff.mp (Nat.le_zero.mp h))
  | fuel + 1, sections, h => by
      rw [trimLines]
      split
      · next hfits => exact .inl hfits
      · split
        · next trimmed hpop =>
            have hless := length_linesOf_findSome hpop
            exact trimLines_done fuel trimmed (by omega)
        · next hnone => exact .inr (linesOf_of_findSome_none hnone)

theorem trimLines_of_empty (fuel : ℕ) (hempty : linesOf sections = []) :
    trimLines maxChars fuel sections = sections := by
  cases fuel with
  | zero => rfl
  | succ fuel =>
    rw [trimLines]
    split
    · rfl
    · split
      · next trimmed hpop =>
          have hless := length_linesOf_findSome hpop
          rw [hempty] at hless
          exact absurd hless (Nat.not_lt_zero _)
      · rfl

/-- More turns change nothing. -/
theorem trimLines_fuel : ∀ (fuel fuel' : ℕ) (sections : List BulletinSection),
    (linesOf sections).length ≤ fuel → (linesOf sections).length ≤ fuel' →
      trimLines maxChars fuel sections = trimLines maxChars fuel' sections
  | 0, fuel', sections, h, _ => by
      have hempty := List.length_eq_zero_iff.mp (Nat.le_zero.mp h)
      rw [trimLines_of_empty 0 hempty, trimLines_of_empty fuel' hempty]
  | fuel + 1, 0, sections, _, h => by
      have hempty := List.length_eq_zero_iff.mp (Nat.le_zero.mp h)
      rw [trimLines_of_empty (fuel + 1) hempty, trimLines_of_empty 0 hempty]
  | fuel + 1, fuel' + 1, sections, h, h' => by
      rw [trimLines, trimLines]
      split
      · rfl
      · split
        · next trimmed hpop =>
            have hless := length_linesOf_findSome hpop
            exact trimLines_fuel fuel fuel' trimmed (by omega) (by omega)
        · rfl

theorem name_ne_of_mem_eraseP {name : BulletinSectionName} {s : BulletinSection} :
    ∀ {sections : List BulletinSection}, (sections.map (·.name)).Nodup →
      s ∈ sections.eraseP (·.name = name) → s.name ≠ name
  | first :: sections, hnodup, hs => by
      obtain ⟨hfirst, hrest⟩ := List.nodup_cons.mp hnodup
      by_cases hname : first.name = name
      · rw [List.eraseP_cons_of_pos (by simpa using hname)] at hs
        intro heq
        apply hfirst
        show first.name ∈ sections.map (·.name)
        rw [hname, ← heq]
        exact List.mem_map_of_mem hs
      · rw [List.eraseP_cons_of_neg (by simpa using hname)] at hs
        rcases List.mem_cons.mp hs with rfl | hs
        · exact hname
        · exact name_ne_of_mem_eraseP hrest hs

/-- Either what is left fits, or every section named so far is gone. -/
theorem dropSections_done : ∀ {names : List BulletinSectionName} {sections : List BulletinSection},
    (sections.map (·.name)).Nodup →
      fits maxChars (names.foldl (dropSection maxChars) sections) = true ∨
        ∀ s ∈ names.foldl (dropSection maxChars) sections, s ∈ sections ∧ s.name ∉ names
  | [], sections, _ => .inr fun s hs => ⟨hs, List.not_mem_nil⟩
  | name :: names, sections, hnodup => by
      rw [List.foldl_cons, dropSection]
      by_cases hfits : fits maxChars sections = true
      · rw [if_pos hfits]
        refine .inl ?_
        -- nothing is dropped any more
        have hsame : ∀ rest : List BulletinSectionName,
            rest.foldl (dropSection maxChars) sections = sections := by
          intro rest
          induction rest with
          | nil => rfl
          | cons next rest ih => rw [List.foldl_cons, dropSection, if_pos hfits, ih]
        rw [hsame]
        exact hfits
      · rw [if_neg hfits]
        have hsub : ((sections.eraseP (·.name = name)).map (·.name)).Nodup :=
          hnodup.sublist (List.eraseP_sublist.map _)
        rcases @dropSections_done names _ hsub with hdone | hdone
        · exact .inl hdone
        · refine .inr fun s hs => ?_
          obtain ⟨hmem, hname⟩ := hdone s hs
          refine ⟨List.mem_of_mem_eraseP hmem, ?_⟩
          rw [List.mem_cons, not_or]
          exact ⟨name_ne_of_mem_eraseP hnodup hmem, hname⟩

theorem dropSections_shrinks : ∀ {names : List BulletinSectionName}
    {sections : List BulletinSection}, fits maxChars sections = true ∨ linesOf sections = [] →
      Shrinks sections (names.foldl (dropSection maxChars) sections)
  | [], _, _ => .refl
  | name :: names, sections, h => by
      rw [List.foldl_cons, dropSection]
      by_cases hfits : fits maxChars sections = true
      · rw [if_pos hfits]
        exact dropSections_shrinks h
      · rw [if_neg hfits]
        have hempty := h.resolve_left hfits
        refine .head (.drop name hempty) (dropSections_shrinks (.inr ?_))
        refine List.flatMap_eq_nil_iff.mpr fun s hs => ?_
        exact List.flatMap_eq_nil_iff.mp hempty s (List.mem_of_mem_eraseP hs)

end Runs

/-! ## A bulletin and its budget -/

section Bulletin

variable {maxChars : ℕ}

def fullSections (recalled : HybridRecallResult) : List BulletinSection :=
  recalled.memories.foldl pushEntry emptySections

theorem map_name_pushLine (sections : List BulletinSection) (name : BulletinSectionName)
    (line : BulletinLine) :
    (pushLine sections name line).map (·.name) = sections.map (·.name) := by
  rw [pushLine, List.map_map]
  refine List.map_congr_left fun s _ => ?_
  show (if s.name = name then { s with lines := s.lines ++ [line] } else s).name = s.name
  split
  · rfl
  · rfl

theorem map_name_pushEntries (memories : List HybridRecallMemory) :
    ∀ sections : List BulletinSection,
      (memories.foldl pushEntry sections).map (·.name) = sections.map (·.name) := by
  induction memories with
  | nil => exact fun _ => rfl
  | cons entry memories ih =>
    intro sections
    rw [List.foldl_cons, ih, pushEntry]
    split
    · rw [map_name_pushLine, map_name_pushLine]
    · rw [map_name_pushLine]

theorem fits_iff {sections : List BulletinSection} :
    fits maxChars sections = true ↔ (renderSections sections).utf8ByteSize ≤ maxChars :=
  decide_eq_true_iff

theorem nodup_fullSections (recalled : HybridRecallResult) :
    ((fullSections recalled).map (·.name)).Nodup := by
  rw [fullSections, map_name_pushEntries]
  decide

theorem truncateSections_shrinks (maxChars : ℕ) (sections : List BulletinSection) :
    Shrinks sections (truncateSections maxChars sections) := by
  have hlines : Shrinks sections (trimLines maxChars (linesOf sections).length sections) :=
    trimLines_shrinks _ sections
  exact hlines.trans (dropSections_shrinks (trimLines_done _ sections (le_refl _)))

theorem nodup_of_shrinks {sections after : List BulletinSection} (h : Shrinks sections after)
    (hnodup : (sections.map (·.name)).Nodup) : (after.map (·.name)).Nodup := by
  induction h with
  | refl => exact hnodup
  | tail _ hstep ih =>
    cases hstep with
    | pop hpop _ =>
      obtain ⟨-, rfl⟩ := popLine_eq_some hpop
      rw [List.map_map]
      refine Eq.mp (congrArg List.Nodup (List.map_congr_left fun s _ => ?_)) ih
      show s.name = (if s.name = _ then { s with lines := s.lines.dropLast } else s).name
      split
      · rfl
      · rfl
    | drop name _ => exact ih.sublist (List.eraseP_sublist.map _)

theorem truncateSections_fits {sections : List BulletinSection}
    (hnodup : (sections.map (·.name)).Nodup) :
    fits maxChars (truncateSections maxChars sections) = true := by
  have hlines : Shrinks sections (trimLines maxChars (linesOf sections).length sections) :=
    trimLines_shrinks _ sections
  have hmiddle := nodup_of_shrinks hlines hnodup
  rcases @dropSections_done maxChars sectionDropOrder _ hmiddle with hfits | hgone
  · exact hfits
  · -- nothing is left, and nothing fits into every budget
    have hempty : truncateSections maxChars sections = [] := by
      refine List.eq_nil_iff_forall_not_mem.mpr fun s hs => ?_
      exact (hgone s hs).2 (mem_sectionDropOrder s.name)
    rw [hempty]
    exact decide_eq_true (Nat.zero_le maxChars)

/-- The cutting loop ends, its result fits, and what is left was cut in the order of the
sections, each from its end. -/
structure WithinBudget (recalled : HybridRecallResult) (options : MemoryBulletinOptions) :
    Prop where
  ends : ∀ fuel, (linesOf (fullSections recalled)).length ≤ fuel →
    trimLines options.maxChars fuel (fullSections recalled) =
      trimLines options.maxChars (linesOf (fullSections recalled)).length (fullSections recalled)
  size : (buildMemoryBulletin recalled options).rendered.utf8ByteSize ≤ options.maxChars
  /-- Every line that goes is the last of its section, and the sections before it are empty. -/
  steps : Shrinks (fullSections recalled) (buildMemoryBulletin recalled options).sections
  beginnings : ∀ s ∈ (buildMemoryBulletin recalled options).sections,
    ∃ original ∈ fullSections recalled, original.name = s.name ∧ s.lines <+: original.lines
  priority : ∀ earlier later, TrimmedBefore earlier later →
    linesIn (buildMemoryBulletin recalled options).sections later ≠
      linesIn (fullSections recalled) later →
    linesIn (buildMemoryBulletin recalled options).sections earlier = []

theorem sections_eq (recalled : HybridRecallResult) (options : MemoryBulletinOptions) :
    (buildMemoryBulletin recalled options).sections =
      truncateSections options.maxChars (fullSections recalled) := by
  simp only [buildMemoryBulletin, fullSections]

theorem rendered_eq (recalled : HybridRecallResult) (options : MemoryBulletinOptions) :
    (buildMemoryBulletin recalled options).rendered =
      renderSections (truncateSections options.maxChars (fullSections recalled)) := by
  simp only [buildMemoryBulletin, fullSections]

theorem rendered_le (recalled : HybridRecallResult) (options : MemoryBulletinOptions) :
    (buildMemoryBulletin recalled options).rendered.utf8ByteSize ≤ options.maxChars := by
  have hfits : fits options.maxChars
      (truncateSections options.maxChars (fullSections recalled)) = true :=
    truncateSections_fits (nodup_fullSections recalled)
  exact Eq.trans_le (congrArg String.utf8ByteSize (rendered_eq recalled options))
    (fits_iff.mp hfits)

theorem buildMemoryBulletin_withinBudget (recalled : HybridRecallResult)
    (options : MemoryBulletinOptions) : WithinBudget recalled options := by
  have hsteps :
      Shrinks (fullSections recalled) (buildMemoryBulletin recalled options).sections := by
    rw [sections_eq]
    exact truncateSections_shrinks options.maxChars (fullSections recalled)
  constructor
  · intro fuel hfuel
    exact trimLines_fuel fuel _ _ hfuel (le_refl _)
  · exact rendered_le recalled options
  · exact hsteps
  · exact hsteps.prefix
  · exact fun earlier later hrank hlost => hsteps.priority hrank hlost

end Bulletin

end Direclaw.Memory
