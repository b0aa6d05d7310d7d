import Direclaw.Lib.Occurrences
import Mathlib.Data.List.Infix

/-!
# Texts with delimited parts

How a scan from left to right reads a text with parts between an opening and a closing
pattern: it looks for the first opening, then for the first closing behind it, and goes on
behind that. It ends where no opening is left, or one that is not closed.
-/

namespace Direclaw.Lib.Text

/-- A scan of the text finds `parts`, each with the text before it and what it holds, and
is left with `tail`. -/
inductive Delimited (op cl : List Char) :
    List Char → List (List Char × List Char) → List Char → Prop
  | done {s : List Char} (hop : ¬ op <:+: s) : Delimited op cl s [] s
  | unclosed {s before content : List Char} (hop : FirstAt op s before content)
      (hcl : ¬ cl <:+: content) : Delimited op cl s [] s
  | part {s before content inside rest tail : List Char} {parts : List (List Char × List Char)}
      (hop : FirstAt op s before content) (hcl : FirstAt cl content inside rest)
      (hrest : Delimited op cl rest parts tail) : Delimited op cl s ((before, inside) :: parts) tail

/-- The text holds an opening with a closing behind it. -/
def HoldsPart (op cl s : List Char) : Prop :=
  ∃ before inside after, s = before ++ op ++ inside ++ cl ++ after

variable {op cl s tail : List Char} {parts : List (List Char × List Char)}

variable {c : Char}

theorem holdsPart_singleton_iff : HoldsPart op [c] s ↔
    ∃ before after, s = before ++ op ++ after ∧ c ∈ after := by
  constructor
  · rintro ⟨before, inside, after, rfl⟩
    exact ⟨before, inside ++ c :: after, by simp, by simp⟩
  · rintro ⟨before, after, rfl, hmem⟩
    obtain ⟨inside, rest, rfl⟩ := List.append_of_mem hmem
    exact ⟨before, inside, rest, by simp⟩

/-- What is behind a part is shorter. -/
theorem length_rest_lt {before content inside rest : List Char} (hop : op ≠ [])
    (hopen : FirstAt op s before content) (hclose : FirstAt cl content inside rest) :
    rest.length < s.length := by
  have hpos := List.length_pos_iff.mpr hop
  rw [hopen.text, hclose.text]
  simp only [List.length_append]
  omega

theorem exists_delimited (hop : op ≠ []) (s : List Char) :
    ∃ parts tail, Delimited op cl s parts tail := by
  induction hn : s.length using Nat.strong_induction_on generalizing s with
  | _ n ih =>
    by_cases hopen : op <:+: s
    · obtain ⟨before, content, hopen⟩ := exists_firstAt hopen
      by_cases hclose : cl <:+: content
      · obtain ⟨inside, rest, hclose⟩ := exists_firstAt hclose
        obtain ⟨parts, tail, hrest⟩ :=
          ih rest.length (hn ▸ length_rest_lt hop hopen hclose) rest rfl
        exact ⟨_, _, .part hopen hclose hrest⟩
      · exact ⟨_, _, .unclosed hopen hclose⟩
    · exact ⟨_, _, .done hopen⟩

theorem Delimited.unique (h : Delimited op cl s parts tail) :
    ∀ {parts' tail'}, Delimited op cl s parts' tail' → parts = parts' ∧ tail = tail' := by
  induction h with
  | done hop =>
    intro parts' tail' h'
    cases h' with
    | done => exact ⟨rfl, rfl⟩
    | unclosed => exact ⟨rfl, rfl⟩
    | part hop' => exact absurd hop'.isInfix hop
  | unclosed hop hcl =>
    intro parts' tail' h'
    cases h' with
    | done => exact ⟨rfl, rfl⟩
    | unclosed => exact ⟨rfl, rfl⟩
    | part hop' hcl' =>
      obtain ⟨-, rfl⟩ := hop.unique hop'
      exact absurd hcl'.isInfix hcl
  | part hop hcl hrest ih =>
    intro parts' tail' h'
    cases h' with
    | done hop' => exact absurd hop.isInfix hop'
    | unclosed hop' hcl' =>
      obtain ⟨-, rfl⟩ := hop.unique hop'
      exact absurd hcl.isInfix hcl'
    | part hop' hcl' hrest' =>
      obtain ⟨rfl, rfl⟩ := hop.unique hop'
      obtain ⟨rfl, rfl⟩ := hcl.unique hcl'
      obtain ⟨rfl, rfl⟩ := ih hrest'
      exact ⟨rfl, rfl⟩

theorem Delimited.text (h : Delimited op cl s parts tail) :
    s = (parts.flatMap fun part => part.1 ++ op ++ part.2 ++ cl) ++ tail := by
  induction h with
  | done => rfl
  | unclosed => rfl
  | part hop hcl _ ih =>
    rw [hop.text, hcl.text, List.flatMap_cons]
    conv_lhs => rw [ih]
    simp

theorem Delimited.not_holdsPart_tail (h : Delimited op cl s parts tail) :
    ¬ HoldsPart op cl tail := by
  induction h with
  | done hop =>
    rintro ⟨before, inside, after, rfl⟩
    exact hop ⟨before, inside ++ cl ++ after, by simp⟩
  | @unclosed s before content hop hcl =>
    rintro ⟨before', inside, after, htext⟩
    have hle := hop.first before' (inside ++ cl ++ after) (by simpa using htext)
    -- the closing is behind the first opening too
    have hsame : before ++ op ++ content = before' ++ op ++ (inside ++ cl ++ after) := by
      rw [← hop.text, htext]
      simp
    rcases List.append_eq_append_iff.mp hsame with ⟨mid, -, rfl⟩ | ⟨mid, hbefore, hafter⟩
    · exact hcl ⟨mid ++ inside, after, by simp⟩
    · have hmid : mid = [] := by
        have hlength := congrArg List.length hbefore
        simp only [List.length_append] at hlength
        exact List.length_eq_zero_iff.mp (by omega)
      subst hmid
      rw [List.nil_append] at hafter
      exact hcl ⟨inside, after, hafter⟩
  | part _ _ _ ih => exact ih

/-- An opening in the tail is not closed. -/
theorem Delimited.firstAt_tail (h : Delimited op cl s parts tail) (hopen : op <:+: tail) :
    ∃ before content, FirstAt op tail before content ∧ ¬ cl <:+: content := by
  obtain ⟨before, content, hfirst⟩ := exists_firstAt hopen
  refine ⟨before, content, hfirst, ?_⟩
  rintro ⟨inside, after, rfl⟩
  exact h.not_holdsPart_tail ⟨before, inside, after, by rw [hfirst.text]; simp⟩

/-- A scan finds a part exactly if the text holds one. -/
theorem Delimited.parts_eq_nil_iff (h : Delimited op cl s parts tail) :
    parts = [] ↔ ¬ HoldsPart op cl s := by
  cases h with
  | done hop => exact iff_of_true rfl (Delimited.done hop).not_holdsPart_tail
  | unclosed hop hcl => exact iff_of_true rfl (Delimited.unclosed hop hcl).not_holdsPart_tail
  | @part _ before _ inside rest _ _ hop hcl _ =>
    refine iff_of_false nofun fun hnone => hnone ⟨before, inside, rest, ?_⟩
    rw [hop.text, hcl.text]
    simp

/-! ## Texts that go on -/

/-- What is found stays found if the text goes on, and the scan goes on in its tail. -/
theorem Delimited.append (h : Delimited op cl s parts tail) {t tail' : List Char}
    {parts' : List (List Char × List Char)} (ht : Delimited op cl (tail ++ t) parts' tail') :
    Delimited op cl (s ++ t) (parts ++ parts') tail' := by
  induction h with
  | done => exact ht
  | unclosed => exact ht
  | part hop hcl _ ih => exact .part (hop.append t) (hcl.append t) (ih ht)

/-- A gap without an opening, up to a character that no opening holds, is skipped. -/
theorem Delimited.behind_gap {gap : List Char} (hc : c ∉ op) (hgap : ¬ op <:+: gap)
    (h : Delimited op cl s parts tail) : ∃ parts' tail',
      Delimited op cl (gap ++ c :: s) parts' tail' ∧
        parts'.map (·.2) = parts.map (·.2) ∧ (op <:+: tail' ↔ op <:+: tail) := by
  cases h with
  | done hop =>
    have hnone : ¬ op <:+: gap ++ c :: s := by
      rintro ⟨before, after, htext⟩
      obtain ⟨inner, -, hinner⟩ := (occurrence_around hc htext.symm).resolve_left
        fun ⟨more, hmore, _⟩ => hgap ⟨before, more, hmore.symm⟩
      exact hop ⟨inner, after, hinner.symm⟩
    exact ⟨[], _, .done hnone, rfl, iff_of_false hnone hop⟩
  | unclosed hop hcl =>
    have hopen := hop.behind_gap hc hgap
    exact ⟨[], _, .unclosed hopen hcl, rfl, iff_of_true hopen.isInfix hop.isInfix⟩
  | part hop hcl hrest => exact ⟨_, _, .part (hop.behind_gap hc hgap) hcl hrest, rfl, Iff.rfl⟩

/-- The scan ends in an opening exactly if the text holds one without a closing behind it. -/
theorem Delimited.open_iff (hc : c ∉ op) (h : Delimited op [c] s parts tail) :
    op <:+: tail ↔ ∃ before after, s = before ++ op ++ after ∧ c ∉ after := by
  induction h with
  | done hop =>
    refine iff_of_false hop ?_
    rintro ⟨before, after, rfl, -⟩
    exact hop ⟨before, after, rfl⟩
  | @unclosed s before content hop hcl =>
    exact iff_of_true hop.isInfix ⟨before, content, hop.text,
      fun hmem => hcl ((List.singleton_infix_iff _ _).mpr hmem)⟩
  | @part s before content inside rest tail parts hop hcl _ ih =>
    have htext : s = (before ++ op ++ inside) ++ c :: rest := by
      rw [hop.text, hcl.text]
      simp
    rw [ih]
    constructor
    · rintro ⟨before', after, rfl, hafter⟩
      exact ⟨before ++ op ++ inside ++ c :: before', after, by rw [htext]; simp, hafter⟩
    · rintro ⟨before', after, hs, hafter⟩
      rw [htext] at hs
      rcases occurrence_around hc hs with ⟨more, -, rfl⟩ | ⟨inner, -, hinner⟩
      · exact absurd (List.mem_append_right _ List.mem_cons_self) hafter
      · exact ⟨inner, after, hinner, hafter⟩

/-! ## The text outside the parts -/

/-- What is left of a text if its parts are taken out. -/
def outside (parts : List (List Char × List Char)) (tail : List Char) : List Char :=
  parts.flatMap (·.1) ++ tail

@[simp] theorem outside_nil (tail : List Char) : outside [] tail = tail := rfl

@[simp] theorem outside_cons (part : List Char × List Char) (parts : List (List Char × List Char))
    (tail : List Char) : outside (part :: parts) tail = part.1 ++ outside parts tail := by
  rw [outside, outside, List.flatMap_cons, List.append_assoc]

theorem outside_append (left right : List (List Char × List Char)) (tail : List Char) :
    outside (left ++ right) tail = outside left [] ++ outside right tail := by
  simp [outside]

theorem Delimited.length_outside_le (h : Delimited op cl s parts tail) :
    (outside parts tail).length ≤ s.length := by
  induction h with
  | done => exact le_refl _
  | unclosed => exact le_refl _
  | part hop hcl _ ih =>
    rw [hop.text, hcl.text, outside_cons]
    simp only [List.length_append]
    omega

/-- Taking a part out makes the text shorter. -/
theorem Delimited.length_outside_lt (hop : op ≠ []) (h : Delimited op cl s parts tail)
    (hparts : parts ≠ []) : (outside parts tail).length < s.length := by
  cases h with
  | done => exact absurd rfl hparts
  | unclosed => exact absurd rfl hparts
  | part hfirst hcl hrest =>
    have hpos := List.length_pos_iff.mpr hop
    have hle := hrest.length_outside_le
    rw [hfirst.text, hcl.text, outside_cons]
    simp only [List.length_append]
    omega

/-- Where a part is taken out, the texts before and behind it join to an opening. -/
def JoinsAt (op : List Char) (parts : List (List Char × List Char)) (tail front after : List Char) :
    Prop :=
  ∃ left right p q, parts = left ++ right ∧ op = p ++ q ∧ p ≠ [] ∧ q ≠ [] ∧
    outside left [] = front ++ p ∧ outside right tail = q ++ after

theorem JoinsAt.cons {front after : List Char} (h : JoinsAt op parts tail front after)
    (part : List Char × List Char) : JoinsAt op (part :: parts) tail (part.1 ++ front) after := by
  obtain ⟨left, right, p, q, rfl, hpq, hp, hq, hleft, hright⟩ := h
  refine ⟨part :: left, right, p, q, rfl, hpq, hp, hq, ?_, hright⟩
  rw [outside_cons, hleft, List.append_assoc]

/-- An opening in the text outside the parts is one that joins there, or it is in the tail. -/
theorem Delimited.outside_eq_iff (hop : op ≠ []) (h : Delimited op cl s parts tail)
    {front after : List Char} : outside parts tail = front ++ op ++ after ↔
      JoinsAt op parts tail front after ∨
        ∃ before, front = outside parts before ∧ tail = before ++ op ++ after := by
  constructor
  · intro hall
    induction h generalizing front with
    | done => exact .inr ⟨front, rfl, hall⟩
    | unclosed => exact .inr ⟨front, rfl, hall⟩
    | @part s before content inside rest tail parts hfirst _ _ ih =>
      have hlater : ∀ front', front = before ++ front' →
          outside parts tail = front' ++ op ++ after →
          JoinsAt op ((before, inside) :: parts) tail front after ∨
            ∃ before', front = outside ((before, inside) :: parts) before' ∧
              tail = before' ++ op ++ after := by
        rintro front' rfl hrest
        refine (ih hrest).imp (fun h => h.cons _) ?_
        rintro ⟨before', rfl, htail⟩
        exact ⟨before', (outside_cons (before, inside) parts before').symm, htail⟩
      rw [outside_cons, List.append_assoc] at hall
      rcases List.append_eq_append_iff.mp hall with ⟨front', hfront, hrest⟩ | ⟨p, hbefore, hjoin⟩
      · exact hlater front' hfront (by rw [hrest, List.append_assoc])
      · rcases List.append_eq_append_iff.mp hjoin with ⟨q, rfl, -⟩ | ⟨q, rfl, hright⟩
        · exact absurd ⟨front, q, by simpa using hbefore.symm⟩ (hfirst.not_infix_before hop)
        · -- it begins before this part: where it ends there too, the part is not the first
          by_cases hp : p = []
          · subst hp
            exact hlater [] (by simpa using hbefore.symm) hright
          by_cases hq : q = []
          · subst hq
            exact absurd ⟨front, [], by simpa using hbefore.symm⟩ (hfirst.not_infix_before hop)
          exact .inl ⟨[(before, inside)], parts, p, q, rfl, rfl, hp, hq,
            by simpa using hbefore, hright⟩
  · rintro (⟨left, right, p, q, rfl, rfl, -, -, hleft, hright⟩ | ⟨before, rfl, rfl⟩)
    · rw [outside_append, hleft, hright]
      simp
    · simp [outside]

end Direclaw.Lib.Text
