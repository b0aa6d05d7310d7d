import Direclaw.Lib.Trimming
import Mathlib.Data.List.DropRight

/-!
# Layers of trimming

A text is trimmed of one set of characters, then of a second one, and so on.
The layers are described from outside, by what may stand in front of a core and
behind it, and the two descriptions are compared: where the sets have no
character in common, trimming takes every layer off a core that has none of
their characters at its ends, and eats into what lies between the layers and
the core only as dropping a set of characters does.
-/

namespace Direclaw.Lib.Text

variable {p : Char → Bool} {layers : List (Char → Bool)}

def stripLayers : List (Char → Bool) → List Char → List Char
  | [], s => s
  | p :: layers, s => stripLayers layers (trimMatches p s)

/-- What stands in front of a core and behind it, the first set of characters outermost. -/
inductive Layered : List (Char → Bool) → List Char → List Char → Prop where
  | nil : Layered [] [] []
  | cons {p : Char → Bool} {layers : List (Char → Bool)} {front back before after : List Char}
      (hbefore : before.all p = true) (hafter : after.all p = true)
      (inner : Layered layers front back) :
      Layered (p :: layers) (before ++ front) (back ++ after)

theorem exists_layered (layers : List (Char → Bool)) (s : List Char) :
    ∃ front back, Layered layers front back ∧ s = front ++ stripLayers layers s ++ back := by
  induction layers generalizing s with
  | nil => exact ⟨[], [], .nil, (List.append_nil s).symm⟩
  | cons p layers ih =>
    obtain ⟨after, hs, hbefore, hafter⟩ := exists_trimMatches_append p s
    obtain ⟨front, back, hlayered, htrim⟩ := ih (trimMatches p s)
    refine ⟨_, _, .cons hbefore hafter hlayered, ?_⟩
    conv_lhs => rw [hs, htrim]
    simp only [stripLayers, List.append_assoc]

/-- The text behind may end sooner. -/
theorem Layered.dropLast {front back : List Char} {c : Char}
    (h : Layered layers front (back ++ [c])) : Layered layers front back := by
  generalize hbehind : back ++ [c] = behind at h
  induction h generalizing back with
  | nil => simp at hbehind
  | @cons p layers front inner before after hbefore hafter hinner ih =>
    rcases List.eq_nil_or_concat' after with rfl | ⟨rest, last, rfl⟩
    · rw [List.append_nil] at hbehind
      have hlayered := Layered.cons hbefore hafter (ih hbehind)
      rwa [List.append_nil] at hlayered
    · rw [← List.append_assoc] at hbehind
      rw [(List.append_inj' hbehind rfl).1]
      rw [List.all_append, Bool.and_eq_true] at hafter
      exact .cons hbefore hafter.1 hinner

variable {front back : List Char}

theorem Layered.front_mem (h : Layered layers front back) :
    ∀ c ∈ front, ∃ p ∈ layers, p c = true := by
  induction h with
  | nil => simp
  | @cons p layers front back before after hbefore hafter hinner ih =>
    intro c hc
    rcases List.mem_append.mp hc with hmem | hmem
    · exact ⟨p, List.mem_cons_self, List.all_eq_true.mp hbefore c hmem⟩
    · obtain ⟨q, hq, hqc⟩ := ih c hmem
      exact ⟨q, List.mem_cons_of_mem _ hq, hqc⟩

theorem Layered.back_mem (h : Layered layers front back) :
    ∀ c ∈ back, ∃ p ∈ layers, p c = true := by
  induction h with
  | nil => simp
  | @cons p layers front back before after hbefore hafter hinner ih =>
    intro c hc
    rcases List.mem_append.mp hc with hmem | hmem
    · obtain ⟨q, hq, hqc⟩ := ih c hmem
      exact ⟨q, List.mem_cons_of_mem _ hq, hqc⟩
    · exact ⟨p, List.mem_cons_self, List.all_eq_true.mp hafter c hmem⟩

/-! ## Dropping up to a core -/

theorem dropWhile_append_of_head {core : List Char} (hhead : ∀ c ∈ core.head?, p c = false)
    (front : List Char) : (front ++ core).dropWhile p = front.dropWhile p ++ core := by
  induction front with
  | nil => exact dropWhile_of_head hhead
  | cons c front ih =>
    rw [List.cons_append, List.dropWhile_cons, List.dropWhile_cons]
    split
    · exact ih
    · rfl

theorem rdropWhile_append_of_last {core : List Char} (hlast : ∀ c ∈ core.getLast?, p c = false)
    (back : List Char) : (core ++ back).rdropWhile p = core ++ back.rdropWhile p := by
  rw [List.rdropWhile, List.reverse_append,
    dropWhile_append_of_head (by rwa [List.head?_reverse]), List.reverse_append,
    List.reverse_reverse]
  rfl

/-- Around a bare core the two ends are trimmed on their own. -/
theorem trimMatches_append (hcore : Bare p core) (hne : core ≠ []) (front back : List Char) :
    trimMatches p (front ++ core ++ back) = front.dropWhile p ++ core ++ back.rdropWhile p := by
  have hhead : ∀ c ∈ (core ++ back).head?, p c = false := by
    rw [List.head?_append_of_ne_nil _ hne]
    exact hcore.head
  have hlast : ∀ c ∈ (front.dropWhile p ++ core).getLast?, p c = false := by
    rw [List.getLast?_append_of_ne_nil _ hne]
    exact hcore.last
  change ((front ++ core ++ back).dropWhile p).rdropWhile p = _
  rw [List.append_assoc, dropWhile_append_of_head hhead, ← List.append_assoc,
    rdropWhile_append_of_last hlast]

/-- A layer is dropped whole, and what is behind it loses at most what dropping takes. -/
theorem dropWhile_layer {before front : List Char} (hbefore : before.all p = true)
    (hfront : ∀ c ∈ front, p c = false) (key : List Char) :
    ∃ rest, (before ++ front ++ key).dropWhile p = front ++ rest ∧
      (rest = key ∨ rest = key.dropWhile p) := by
  rw [List.append_assoc, List.dropWhile_append_of_pos (List.all_eq_true.mp hbefore)]
  cases front with
  | nil => exact ⟨_, rfl, .inr rfl⟩
  | cons c front =>
    refine ⟨key, ?_, .inl rfl⟩
    rw [List.cons_append, List.dropWhile_cons_of_neg]
    simp [hfront c List.mem_cons_self]

theorem rdropWhile_layer {back after : List Char} (hafter : after.all p = true)
    (hback : ∀ c ∈ back, p c = false) (value : List Char) :
    ∃ rest, (value ++ (back ++ after)).rdropWhile p = rest ++ back ∧
      (rest = value ∨ rest = value.rdropWhile p) := by
  obtain ⟨rest, hrest, hcases⟩ := @dropWhile_layer p after.reverse back.reverse
    (by rwa [List.all_reverse]) (by simpa using hback) value.reverse
  refine ⟨rest.reverse, ?_, ?_⟩
  · rw [List.rdropWhile, List.reverse_append, List.reverse_append, hrest, List.reverse_append,
      List.reverse_reverse]
  · rcases hcases with rfl | rfl
    · exact .inl (List.reverse_reverse value)
    · exact .inr rfl

/-! ## Stripping -/

/-- Sets without a character in common. -/
def DisjointLayers (layers : List (Char → Bool)) : Prop :=
  layers.Pairwise fun p q => ∀ c, q c = true → p c = false

/-- The rule for stripping: the layers are taken off a core, and what holds of the text
between them and stays when characters of a layer are dropped holds of what is left. -/
theorem Layered.strip {front back core : List Char} (h : Layered layers front back)
    (hdisjoint : DisjointLayers layers) (hcore : ∀ p ∈ layers, Bare p core) (hne : core ≠ [])
    {P Q : List Char → Prop} (hP : ∀ p ∈ layers, ∀ s, P s → P (s.dropWhile p))
    (hQ : ∀ p ∈ layers, ∀ s, Q s → Q (s.rdropWhile p)) {key value : List Char}
    (hkey : P key) (hvalue : Q value) :
    ∃ key' value', stripLayers layers (front ++ (key ++ core ++ value) ++ back) =
      key' ++ core ++ value' ∧ P key' ∧ Q value' := by
  induction h generalizing key value with
  | nil => exact ⟨key, value, by rw [List.nil_append, List.append_nil]; rfl, hkey, hvalue⟩
  | @cons p layers front back before after hbefore hafter hinner ih =>
    obtain ⟨hfirst, hrest⟩ := List.pairwise_cons.mp hdisjoint
    have hnot : ∀ c, (∃ q ∈ layers, q c = true) → p c = false :=
      fun c ⟨q, hq, hqc⟩ => hfirst q hq c hqc
    obtain ⟨key', hfront, hkey'⟩ :=
      dropWhile_layer hbefore (fun c hc => hnot c (hinner.front_mem c hc)) key
    obtain ⟨value', hback, hvalue'⟩ :=
      rdropWhile_layer hafter (fun c hc => hnot c (hinner.back_mem c hc)) value
    have hPkey : P key' := by
      rcases hkey' with rfl | rfl
      · exact hkey
      · exact hP p List.mem_cons_self key hkey
    have hQvalue : Q value' := by
      rcases hvalue' with rfl | rfl
      · exact hvalue
      · exact hQ p List.mem_cons_self value hvalue
    have htrim : trimMatches p (before ++ front ++ (key ++ core ++ value) ++ (back ++ after)) =
        front ++ (key' ++ core ++ value') ++ back := by
      have happend := trimMatches_append (hcore p List.mem_cons_self) hne
        (before ++ front ++ key) (value ++ (back ++ after))
      rw [hfront, hback] at happend
      simpa only [List.append_assoc] using happend
    rw [stripLayers, htrim]
    exact ih hrest (fun q hq => hcore q (List.mem_cons_of_mem _ hq))
      (fun q hq => hP q (List.mem_cons_of_mem _ hq))
      (fun q hq => hQ q (List.mem_cons_of_mem _ hq)) hPkey hQvalue

end Direclaw.Lib.Text
