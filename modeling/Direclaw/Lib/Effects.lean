import Mathlib.Order.Defs.Unbundled

/-!
# Programs that fail with a state

Rules for programs in `EStateM`, whose state survives an error: what a program
preserves whether or not it succeeds, and when a sequence of programs succeeds.
-/

namespace Direclaw.Lib

variable {ε ε' σ α β : Type}

/-- The state a program leaves, with a result or an error. -/
def leaves (x : EStateM ε σ α) (s : σ) : σ :=
  match x s with
  | .ok _ t => t
  | .error _ t => t

/-- The program ends without an error. -/
def Succeeds (x : EStateM ε σ α) (s : σ) : Prop := ∃ a t, x s = .ok a t

variable {x : EStateM ε σ α} {f : β → EStateM ε σ Unit} {a : α} {e : ε}

theorem leaves_of_ok {s t : σ} (h : x s = .ok a t) : leaves x s = t := by
  simp only [leaves, h]

theorem leaves_of_error {s t : σ} (h : x s = .error e t) : leaves x s = t := by
  simp only [leaves, h]

theorem bind_of_ok {f : α → EStateM ε σ β} {s t : σ} (h : x s = .ok a t) : (x >>= f) s = f a t := by
  show EStateM.bind x f s = f a t
  simp only [EStateM.bind, h]

theorem bind_of_error {x : EStateM ε σ α} {f : α → EStateM ε σ β} {s t : σ} {e : ε}
    (h : x s = .error e t) : (x >>= f) s = .error e t := by
  show EStateM.bind x f s = .error e t
  simp only [EStateM.bind, h]

theorem of_bind_eq_ok {x : EStateM ε σ α} {f : α → EStateM ε σ β} {s u : σ} {b : β}
    (h : (x >>= f) s = .ok b u) : ∃ a t, x s = .ok a t ∧ f a t = .ok b u := by
  cases hx : x s with
  | ok a t => exact ⟨a, t, rfl, (bind_of_ok hx).symm.trans h⟩
  | error e t =>
    rw [bind_of_error hx] at h
    cases h

theorem of_bind_eq_error {f : α → EStateM ε σ β} {s u : σ} (h : (x >>= f) s = .error e u) :
    x s = .error e u ∨ ∃ a t, x s = .ok a t ∧ f a t = .error e u := by
  cases hx : x s with
  | ok a t => exact .inr ⟨a, t, rfl, (bind_of_ok hx).symm.trans h⟩
  | error e' t =>
    rw [bind_of_error hx] at h
    cases h
    exact .inl rfl

/-- A computation that leaves the state alone. -/
def ofResult (x : Except ε α) : EStateM ε σ α := fun s =>
  match x with
  | .ok a => .ok a s
  | .error e => .error e s

/-- A computation of the next state. -/
def updateWith (f : σ → Except ε σ) : EStateM ε σ Unit := fun s =>
  match f s with
  | .ok t => .ok () t
  | .error e => .error e s

def adaptError (f : ε → ε') (x : EStateM ε σ α) : EStateM ε' σ α := fun s =>
  match x s with
  | .ok a t => .ok a t
  | .error e t => .error (f e) t

/-- One program after the other. -/
def inOrder (f : β → EStateM ε σ Unit) : List β → EStateM ε σ Unit
  | [] => pure ()
  | b :: bs => do
      f b
      inOrder f bs

/-! ## What succeeds -/

theorem succeeds_bind {f : α → EStateM ε σ β} {s : σ} :
    Succeeds (x >>= f) s ↔ ∃ a t, x s = .ok a t ∧ Succeeds (f a) t := by
  cases hx : x s with
  | ok a t =>
    constructor
    · rintro ⟨b, u, h⟩
      exact ⟨a, t, rfl, b, u, (bind_of_ok hx).symm.trans h⟩
    · rintro ⟨a', t', hok, b, u, h⟩
      cases hok
      exact ⟨b, u, (bind_of_ok hx).trans h⟩
  | error e t =>
    constructor
    · rintro ⟨b, u, h⟩
      rw [bind_of_error hx] at h
      cases h
    · rintro ⟨a', t', hok, -⟩
      cases hok

theorem succeeds_unit_bind {x : EStateM ε σ Unit} {f : Unit → EStateM ε σ β} {s : σ} :
    Succeeds (x >>= f) s ↔ Succeeds x s ∧ Succeeds (f ()) (leaves x s) := by
  rw [succeeds_bind]
  constructor
  · rintro ⟨a, t, hx, h⟩
    rw [leaves_of_ok hx]
    exact ⟨⟨a, t, hx⟩, h⟩
  · rintro ⟨⟨a, t, hx⟩, h⟩
    rw [leaves_of_ok hx] at h
    exact ⟨a, t, hx, h⟩

theorem not_succeeds_of_error {s t : σ} (h : x s = .error e t) : ¬ Succeeds x s := by
  rintro ⟨a, u, hok⟩
  rw [h] at hok
  cases hok

@[simp] theorem succeeds_pure {s : σ} : Succeeds (pure a : EStateM ε σ α) s :=
  ⟨a, s, rfl⟩

theorem ofResult_eq_ok {x : Except ε α} {s t : σ} : ofResult x s = .ok a t ↔ x = .ok a ∧ s = t := by
  cases x with
  | ok b =>
    constructor
    · intro h
      cases h
      exact ⟨rfl, rfl⟩
    · rintro ⟨h, rfl⟩
      cases h
      rfl
  | error e =>
    refine iff_of_false ?_ ?_
    · intro h
      cases h
    · rintro ⟨h, -⟩
      cases h

theorem updateWith_eq_ok {f : σ → Except ε σ} {s t : σ} {a : Unit} :
    updateWith f s = .ok a t ↔ f s = .ok t := by
  unfold updateWith
  cases f s with
  | ok u =>
    constructor
    · intro h
      cases h
      rfl
    · intro h
      cases h
      rfl
  | error e =>
    refine iff_of_false ?_ ?_
    · intro h
      cases h
    · intro h
      cases h

@[simp] theorem succeeds_updateWith {f : σ → Except ε σ} {s : σ} :
    Succeeds (updateWith f) s ↔ ∃ t, f s = .ok t := by
  simp only [Succeeds, updateWith_eq_ok, exists_const]

theorem adaptError_eq_ok {f : ε → ε'} {s t : σ} : adaptError f x s = .ok a t ↔ x s = .ok a t := by
  unfold adaptError
  cases x s with
  | ok b u =>
    constructor
    · intro h
      cases h
      rfl
    · intro h
      cases h
      rfl
  | error e u =>
    refine iff_of_false ?_ ?_
    · intro h
      cases h
    · intro h
      cases h

@[simp] theorem succeeds_adaptError {f : ε → ε'} {s : σ} :
    Succeeds (adaptError f x) s ↔ Succeeds x s := by
  simp only [Succeeds, adaptError_eq_ok]

@[simp] theorem leaves_adaptError {f : ε → ε'} {s : σ} :
    leaves (adaptError f x) s = leaves x s := by
  unfold leaves adaptError
  cases x s with
  | ok a t => rfl
  | error e t => rfl

/-- Each program meets its condition in the state it finds. -/
def EachReady (ready : β → σ → Prop) (f : β → EStateM ε σ Unit) : List β → σ → Prop
  | [], _ => True
  | b :: bs, s => ready b s ∧ EachReady ready f bs (leaves (f b) s)

/-- If one program succeeds exactly under its condition, so does a sequence. -/
theorem succeeds_inOrder {ready : β → σ → Prop} (h : ∀ b s, Succeeds (f b) s ↔ ready b s)
    (bs : List β) : ∀ {s : σ}, Succeeds (inOrder f bs) s ↔ EachReady ready f bs s := by
  induction bs with
  | nil =>
    intro s
    exact iff_of_true succeeds_pure trivial
  | cons b bs ih =>
    intro s
    rw [inOrder, succeeds_unit_bind, h, ih]
    exact Iff.rfl

theorem leaves_inOrder_cons {b : β} {s t : σ} (hb : f b s = .ok () t) (bs : List β) :
    leaves (inOrder f (b :: bs)) s = leaves (inOrder f bs) t := by
  show leaves (f b >>= fun _ => inOrder f bs) s = _
  unfold leaves
  rw [bind_of_ok hb]

/-- What every program keeps is kept all along. -/
theorem kept_inOrder {I : σ → Prop} (h : ∀ b s t, I s → f b s = .ok () t → I t) (bs : List β) :
    ∀ {s : σ}, I s → Succeeds (inOrder f bs) s →
      ∀ before, before <+: bs → I (leaves (inOrder f before) s) := by
  induction bs with
  | nil =>
    intro s hs _ before hbefore
    rw [List.prefix_nil.mp hbefore]
    exact hs
  | cons b bs ih =>
    intro s hs hok before hbefore
    obtain ⟨_, t, hb, hrest⟩ := succeeds_bind.mp hok
    cases before with
    | nil => exact hs
    | cons first before =>
      obtain ⟨rfl, hrestBefore⟩ := List.cons_prefix_cons.mp hbefore
      rw [leaves_inOrder_cons hb before]
      exact ih (h _ _ _ hs hb) hrest before hrestBefore

/-- What each program of a sequence makes of the state it finds: kept and related at every program
exactly if each condition is met. -/
theorem related_inOrder_iff {I : σ → Prop} {R : β → σ → σ → Prop} {keeps : β → σ → Prop}
    (h : ∀ b s t, I s → f b s = .ok () t → (I t ∧ R b s t ↔ keeps b s)) (bs : List β) :
    ∀ {s : σ}, I s → Succeeds (inOrder f bs) s →
      ((∀ before b, before ++ [b] <+: bs →
          I (leaves (inOrder f (before ++ [b])) s) ∧
            R b (leaves (inOrder f before) s) (leaves (inOrder f (before ++ [b])) s)) ↔
        EachReady keeps f bs s) := by
  induction bs with
  | nil =>
    intro s hs _
    refine iff_of_true (fun before b hbefore => ?_) trivial
    exact absurd (List.prefix_nil.mp hbefore) (List.concat_ne_nil b before)
  | cons b bs ih =>
    intro s hs hok
    obtain ⟨_, t, hb, hrest⟩ := succeeds_bind.mp hok
    have hleaves := leaves_inOrder_cons hb
    rw [EachReady, leaves_of_ok hb]
    constructor
    · intro hall
      have hfirst : I t ∧ R b s t := by
        have hstep := hall [] b (List.cons_prefix_cons.mpr ⟨rfl, List.nil_prefix⟩)
        rw [List.nil_append, hleaves []] at hstep
        exact hstep
      refine ⟨(h b s t hs hb).mp hfirst, (ih hfirst.1 hrest).mp fun before c hbefore => ?_⟩
      rw [← hleaves before, ← hleaves (before ++ [c])]
      exact hall (b :: before) c (List.cons_prefix_cons.mpr ⟨rfl, hbefore⟩)
    · rintro ⟨hkeeps, heach⟩ before c hbefore
      obtain ⟨ht, hrelated⟩ := (h b s t hs hb).mpr hkeeps
      cases before with
      | nil =>
        obtain ⟨rfl, -⟩ := List.cons_prefix_cons.mp hbefore
        rw [List.nil_append, hleaves []]
        exact ⟨ht, hrelated⟩
      | cons first before =>
        obtain ⟨rfl, hrestBefore⟩ := List.cons_prefix_cons.mp hbefore
        rw [List.cons_append, hleaves before, hleaves (before ++ [c])]
        exact (ih ht hrest).mpr heach before c hrestBefore

/-! ## What is preserved -/

section Preserves

variable (R : σ → σ → Prop)

/-- The program relates the state it finds to the one it leaves. -/
def Preserves (x : EStateM ε σ α) : Prop := ∀ s, R s (leaves x s)

variable {R}

theorem Preserves.mono {S : σ → σ → Prop} {x : EStateM ε σ α} (h : Preserves R x)
    (hRS : ∀ s t, R s t → S s t) : Preserves S x := fun s => hRS _ _ (h s)

variable {x : EStateM ε σ α}

theorem Preserves.adaptError (h : Preserves R x) (f : ε → ε') :
    Preserves R (Lib.adaptError f x) := fun s => leaves_adaptError (f := f) ▸ h s

theorem leaves_updateWith {f : σ → Except ε σ} {s : σ} (hrefl : R s s)
    (h : ∀ t, f s = .ok t → R s t) : R s (leaves (updateWith f) s) := by
  unfold leaves updateWith
  cases hf : f s with
  | ok t => exact h t hf
  | error e => exact hrefl

theorem Preserves.updateWith_of {f : σ → Except ε σ} (hrefl : ∀ s, R s s)
    (h : ∀ s t, f s = .ok t → R s t) : Preserves R (updateWith f) :=
  fun s => leaves_updateWith (hrefl s) (h s)

section Refl

variable [Std.Refl R]

theorem preserves_pure (a : α) : Preserves R (pure a : EStateM ε σ α) := fun s => refl_of R s

theorem preserves_ofResult (x : Except ε α) : Preserves R (ofResult x : EStateM ε σ α) := by
  intro s
  cases x with
  | ok a => exact refl_of R s
  | error e => exact refl_of R s

end Refl

variable [IsTrans σ R]

theorem leaves_bind {f : α → EStateM ε σ β} {s : σ} (hx : R s (leaves x s))
    (hf : ∀ a t, x s = .ok a t → R t (leaves (f a) t)) : R s (leaves (x >>= f) s) := by
  cases hres : x s with
  | ok a t =>
    rw [leaves_of_ok hres] at hx
    have hrest := hf a t hres
    simp only [leaves, bind_of_ok hres] at hrest ⊢
    exact trans_of R hx hrest
  | error e t =>
    rw [leaves_of_error hres] at hx
    rwa [leaves_of_error (bind_of_error hres)]

theorem Preserves.bind {x : EStateM ε σ α} {f : α → EStateM ε σ β} (hx : Preserves R x)
    (hf : ∀ a, Preserves R (f a)) : Preserves R (x >>= f) :=
  fun s => leaves_bind (hx s) fun a t _ => hf a t

theorem preserves_inOrder [Std.Refl R] {f : β → EStateM ε σ Unit}
    (h : ∀ b, Preserves R (f b)) (bs : List β) :
    Preserves R (inOrder f bs) := by
  induction bs with
  | nil => exact preserves_pure ()
  | cons b bs ih => exact (h b).bind fun _ => ih

/-- What a program keeps in the states of an invariant, a sequence keeps from there on. -/
theorem leaves_inOrder [Std.Refl R] {I : σ → Prop} (hI : ∀ s t, R s t → I s → I t)
    {f : β → EStateM ε σ Unit} (h : ∀ b s, I s → R s (leaves (f b) s)) (bs : List β) :
    ∀ {s : σ}, I s → R s (leaves (inOrder f bs) s) := by
  induction bs with
  | nil =>
    intro s _
    exact refl_of R s
  | cons b bs ih =>
    intro s hs
    refine leaves_bind (h b s hs) fun a t hok => ih (hI s t ?_ hs)
    rw [← leaves_of_ok hok]
    exact h b s hs

end Preserves

/-! ## All or nothing -/

section Settles

variable {I : σ → Prop} {s₀ s : σ}

/-- A program that was begun in `s₀` ends well in a state with `I`, or fails in `s₀`. -/
def Settles (I : σ → Prop) (s₀ : σ) (x : EStateM ε σ α) (s : σ) : Prop :=
  match x s with
  | .ok _ t => I t
  | .error _ t => t = s₀

theorem settles_iff {x : EStateM ε σ α} : Settles I s₀ x s ↔
    (∀ e t, x s = .error e t → t = s₀) ∧ ∀ a t, x s = .ok a t → I t := by
  unfold Settles
  cases x s with
  | ok a t =>
    constructor
    · intro h
      refine ⟨nofun, ?_⟩
      rintro _ _ ⟨⟩
      exact h
    · exact fun h => h.2 a t rfl
  | error e t =>
    constructor
    · intro h
      refine ⟨?_, nofun⟩
      rintro _ _ ⟨⟩
      exact h
    · exact fun h => h.1 e t rfl

theorem settles_get {f : σ → EStateM ε σ α} :
    Settles I s₀ (get >>= f) s ↔ Settles I s₀ (f s) s := Iff.rfl

theorem settles_modify {g : σ → σ} {f : PUnit → EStateM ε σ α} :
    Settles I s₀ (modify g >>= f) s ↔ Settles I s₀ (f ⟨⟩) (g s) := Iff.rfl

variable {f : α → EStateM ε σ β} {x : Except ε α}

theorem settles_of_ok {a : α} (h : x = .ok a) :
    Settles I s₀ (ofResult x >>= f) s ↔ Settles I s₀ (f a) s := by
  rw [h]
  exact Iff.rfl

theorem settles_of_error {e : ε} (h : x = .error e) :
    Settles I s₀ (ofResult x >>= f) s ↔ s = s₀ := by
  rw [h]
  exact Iff.rfl

/-- A computation that is made before anything was changed. -/
theorem settles_before :
    Settles I s (ofResult x >>= f) s ↔ ∀ a, x = .ok a → Settles I s (f a) s := by
  cases x with
  | ok a =>
    rw [settles_of_ok rfl]
    exact ⟨fun h b hb => Except.ok.inj hb ▸ h, fun h => h a rfl⟩
  | error e =>
    refine iff_of_true ((settles_of_error rfl).mpr rfl) ?_
    intro a h
    cases h

/-- A step that may fail after something was changed. -/
theorem settles_mapError {x : Except ε' Unit} {g : ε' → ε} {f : Unit → EStateM ε σ β} :
    Settles I s₀ (ofResult (x.mapError g) >>= f) s ↔
      (x = .ok () → Settles I s₀ (f ()) s) ∧ (x ≠ .ok () → s = s₀) := by
  cases x with
  | ok u =>
    refine (settles_of_ok rfl).trans ?_
    exact ⟨fun h => ⟨fun _ => h, fun hne => absurd rfl hne⟩, fun h => h.1 rfl⟩
  | error e =>
    refine (settles_of_error rfl).trans ?_
    exact ⟨fun h => ⟨nofun, fun _ => h⟩, fun h => h.2 nofun⟩

theorem settles_of_leaves {x : EStateM ε σ α} (h : leaves x s = s) (hs : I s) :
    Settles I s x s := by
  unfold leaves at h
  unfold Settles
  cases hx : x s with
  | ok a t =>
    simp only [hx] at h
    exact h ▸ hs
  | error e t =>
    simp only [hx] at h
    exact h

end Settles

end Direclaw.Lib
