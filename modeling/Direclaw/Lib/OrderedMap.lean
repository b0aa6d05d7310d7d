import Mathlib.Data.List.Basic
import Mathlib.Data.List.Induction
import Mathlib.Data.List.Nodup
import Mathlib.Data.String.Basic

/-!
# Ordered maps

Maps from texts that are kept as lists in the order of their keys.
-/

namespace Direclaw.Lib.OrderedMap

variable {α : Type}

def insert (key : String) (value : α) : List (String × α) → List (String × α)
  | [] => [(key, value)]
  | (k, v) :: rest =>
    if key = k then (key, value) :: rest
    else if key < k then (key, value) :: (k, v) :: rest
    else (k, v) :: insert key value rest

def remove (key : String) (entries : List (String × α)) : List (String × α) :=
  entries.filter (·.1 ≠ key)

def set (key : String) (value : α) (entries : List (String × α)) : List (String × α) :=
  entries.map fun entry => if entry.1 = key then (key, value) else entry

variable {entries : List (String × α)} {entry : String × α} {value : α} {key other : String}

theorem mem_set (h : entry ∈ set key value entries) : entry = (key, value) ∨ entry ∈ entries := by
  obtain ⟨held, hheld, rfl⟩ := List.mem_map.mp h
  split
  · exact .inl rfl
  · exact .inr hheld

theorem mem_of_lookup (h : entries.lookup key = some value) : (key, value) ∈ entries := by
  obtain ⟨before, after, hsplit, -⟩ := List.lookup_eq_some_iff.mp h
  rw [hsplit]
  exact List.mem_append_right _ List.mem_cons_self

theorem mem_set_self {key : String} {value held : α} {entries : List (String × α)}
    (h : entries.lookup key = some held) : (key, value) ∈ set key value entries :=
  List.mem_map.mpr ⟨(key, held), mem_of_lookup h, if_pos rfl⟩

theorem lookup_set_self {key : String} {value held : α} {entries : List (String × α)}
    (h : entries.lookup key = some held) : (set key value entries).lookup key = some value := by
  induction entries with
  | nil => cases h
  | cons entry rest ih =>
    obtain ⟨k, v⟩ := entry
    by_cases hk : k = key
    · simp [set, hk]
    · have hkey : (key == k) = false := by simpa using Ne.symm hk
      rw [List.lookup_cons, hkey] at h
      have hrest := ih h
      unfold set at hrest ⊢
      rw [List.map_cons, if_neg hk, List.lookup_cons, hkey, hrest]

theorem lookup_set_of_ne {key other : String} (h : other ≠ key) (value : α)
    (entries : List (String × α)) : (set key value entries).lookup other = entries.lookup other := by
  have hother : (other == key) = false := by simpa using h
  induction entries with
  | nil => rfl
  | cons entry rest ih =>
    obtain ⟨k, v⟩ := entry
    unfold set at ih ⊢
    by_cases hk : k = key
    · rw [List.map_cons, if_pos hk, List.lookup_cons, List.lookup_cons, hk, hother, ih]
    · rw [List.map_cons, if_neg hk, List.lookup_cons, List.lookup_cons, ih]

theorem set_eq_self (hkeys : (entries.map (·.1)).Nodup) (h : entries.lookup key = some value) :
    set key value entries = entries := by
  have hmem := mem_of_lookup h
  unfold set
  conv_rhs => rw [← List.map_id entries]
  refine List.map_congr_left fun entry hentry => ?_
  split
  · next heq => exact List.inj_on_of_nodup_map hkeys hmem hentry heq.symm
  · rfl

/-- The last value stays. -/
theorem set_set (key : String) (value other : α) (entries : List (String × α)) :
    set key value (set key other entries) = set key value entries := by
  unfold set
  rw [List.map_map]
  refine List.map_congr_left fun entry _ => ?_
  by_cases hkey : entry.1 = key
  · simp [hkey]
  · simp [hkey]

theorem lookup_of_mem (hkeys : (entries.map (·.1)).Nodup) (h : (key, value) ∈ entries) :
    entries.lookup key = some value := by
  induction entries with
  | nil => cases h
  | cons entry rest ih =>
    obtain ⟨hfirst, hrest⟩ := List.nodup_cons.mp hkeys
    rcases List.mem_cons.mp h with rfl | h
    · simp
    · have hne : (key == entry.1) = false := by
        refine beq_false_of_ne fun heq => hfirst ?_
        show entry.1 ∈ rest.map (·.1)
        rw [← heq]
        exact List.mem_map_of_mem h
      rw [List.lookup_cons, hne]
      exact ih hrest h

@[simp] theorem lookup_insert_self (key : String) (value : α) (entries : List (String × α)) :
    (insert key value entries).lookup key = some value := by
  induction entries with
  | nil => simp [insert]
  | cons entry rest ih =>
    obtain ⟨k, v⟩ := entry
    unfold insert
    split
    · simp
    · next hne =>
        split
        · simp
        · have hkey : (key == k) = false := by simpa using hne
          rw [List.lookup_cons, hkey, ih]

theorem lookup_insert_of_ne (h : other ≠ key) (value : α) (entries : List (String × α)) :
    (insert key value entries).lookup other = entries.lookup other := by
  have hother : (other == key) = false := by simpa using h
  induction entries with
  | nil => simp [insert, h]
  | cons entry rest ih =>
    obtain ⟨k, v⟩ := entry
    unfold insert
    split
    · next heq =>
        rw [List.lookup_cons, List.lookup_cons, ← heq, hother]
    · split
      · rw [List.lookup_cons, hother]
      · rw [List.lookup_cons, List.lookup_cons, ih]

theorem mem_insert {key : String} {value : α} {entries : List (String × α)} {entry : String × α}
    (h : entry ∈ insert key value entries) : entry = (key, value) ∨ entry ∈ entries := by
  induction entries with
  | nil => simpa [insert] using h
  | cons held rest ih =>
    obtain ⟨k, v⟩ := held
    unfold insert at h
    split at h
    · rcases List.mem_cons.mp h with h | h
      · exact .inl h
      · exact .inr (List.mem_cons_of_mem _ h)
    · split at h
      · exact List.mem_cons.mp h
      · rcases List.mem_cons.mp h with rfl | h
        · exact .inr List.mem_cons_self
        · exact (ih h).imp_right (List.mem_cons_of_mem _)

@[simp] theorem lookup_remove_self (key : String) (entries : List (String × α)) :
    (remove key entries).lookup key = none := by
  rw [List.lookup_eq_none_iff]
  intro entry hmem
  have hne : entry.1 ≠ key := by simpa using (List.mem_filter.mp hmem).2
  simpa using hne.symm

theorem lookup_remove_of_ne (h : other ≠ key) (entries : List (String × α)) :
    (remove key entries).lookup other = entries.lookup other := by
  induction entries with
  | nil => rfl
  | cons entry rest ih =>
    unfold remove at ih ⊢
    by_cases hkey : entry.1 = key
    · have hne : (other == entry.1) = false := by simpa [hkey] using h
      rw [List.filter_cons_of_neg (by simpa using hkey), ih, List.lookup_cons, hne]
    · rw [List.filter_cons_of_pos (by simpa using hkey), List.lookup_cons, List.lookup_cons, ih]

/-! ## Keys -/

/-- The entries one after the other; the last value of a key stays. -/
def ofEntries (entries : List (String × α)) : List (String × α) :=
  entries.foldl (fun map entry => insert entry.1 entry.2 map) []

def Sorted (entries : List (String × α)) : Prop := (entries.map (·.1)).Pairwise (· < ·)

theorem Sorted.insert (h : Sorted entries) : Sorted (insert key value entries) := by
  induction entries with
  | nil => exact List.pairwise_singleton _ _
  | cons entry rest ih =>
    obtain ⟨k, v⟩ := entry
    obtain ⟨hfirst, hrest⟩ := List.pairwise_cons.mp h
    unfold OrderedMap.insert
    by_cases heq : key = k
    · rw [if_pos heq]
      exact List.pairwise_cons.mpr ⟨heq ▸ hfirst, hrest⟩
    · rw [if_neg heq]
      by_cases hlt : key < k
      · rw [if_pos hlt]
        refine List.pairwise_cons.mpr ⟨fun other hother => ?_, h⟩
        rcases List.mem_cons.mp hother with rfl | hother
        · exact hlt
        · exact hlt.trans (hfirst other hother)
      · rw [if_neg hlt]
        refine List.pairwise_cons.mpr ⟨fun other hother => ?_, ih hrest⟩
        obtain ⟨entry, hentry, rfl⟩ := List.mem_map.mp hother
        rcases mem_insert hentry with rfl | hentry
        · exact lt_of_le_of_ne (not_lt.mp hlt) (Ne.symm heq)
        · exact hfirst _ (List.mem_map_of_mem hentry)

theorem map_fst_set (key : String) (value : α) (entries : List (String × α)) :
    (set key value entries).map (·.1) = entries.map (·.1) := by
  unfold set
  rw [List.map_map]
  refine List.map_congr_left fun entry _ => ?_
  by_cases hkey : entry.1 = key
  · simp [hkey]
  · simp [hkey]

theorem Sorted.set (h : Sorted entries) : Sorted (set key value entries) := by
  unfold Sorted
  rw [map_fst_set]
  exact h

theorem Sorted.remove (h : Sorted entries) :
    Sorted (remove key entries) :=
  h.sublist (List.filter_sublist.map _)

theorem Sorted.foldl_insert :
    ∀ {map : List (String × α)}, Sorted map →
      Sorted (entries.foldl (fun map entry => OrderedMap.insert entry.1 entry.2 map) map) := by
  induction entries with
  | nil => exact fun h => h
  | cons entry rest ih => exact fun h => ih h.insert

theorem Sorted.nodup (h : Sorted entries) :
    (entries.map (·.1)).Nodup :=
  List.Pairwise.imp (fun hlt => ne_of_lt hlt) h

theorem mem_insert_self (key : String) (value : α) (entries : List (String × α)) :
    (key, value) ∈ OrderedMap.insert key value entries := by
  induction entries with
  | nil => exact List.mem_cons_self
  | cons entry rest ih =>
    obtain ⟨k, v⟩ := entry
    unfold OrderedMap.insert
    split
    · exact List.mem_cons_self
    · split
      · exact List.mem_cons_self
      · exact List.mem_cons_of_mem _ ih

theorem mem_insert_of_ne (h : entry ∈ entries) (hne : entry.1 ≠ key) :
    entry ∈ OrderedMap.insert key value entries := by
  induction entries with
  | nil => cases h
  | cons held rest ih =>
    obtain ⟨k, v⟩ := held
    unfold OrderedMap.insert
    split
    · next heq =>
        rcases List.mem_cons.mp h with rfl | h
        · exact absurd heq.symm hne
        · exact List.mem_cons_of_mem _ h
    · split
      · exact List.mem_cons_of_mem _ h
      · rcases List.mem_cons.mp h with rfl | h
        · exact List.mem_cons_self
        · exact List.mem_cons_of_mem _ (ih h)

/-- The other entries are those with other keys. -/
theorem Sorted.mem_insert_iff (h : Sorted entries) :
    entry ∈ OrderedMap.insert key value entries ↔
      entry = (key, value) ∨ entry ∈ entries ∧ entry.1 ≠ key := by
  constructor
  · intro hentry
    by_cases hkey : entry.1 = key
    · exact .inl (List.inj_on_of_nodup_map h.insert.nodup hentry (mem_insert_self key value entries)
        hkey)
    · refine (mem_insert hentry).imp_right fun hin => ⟨hin, hkey⟩
  · rintro (rfl | ⟨hin, hne⟩)
    · exact mem_insert_self key value entries
    · exact mem_insert_of_ne hin hne

theorem mem_keys_insert {key other : String} {value : α} {entries : List (String × α)}
    (h : other ∈ entries.map (·.1)) : other ∈ (OrderedMap.insert key value entries).map (·.1) := by
  obtain ⟨entry, hentry, rfl⟩ := List.mem_map.mp h
  by_cases hkey : entry.1 = key
  · rw [hkey]
    exact List.mem_map_of_mem (mem_insert_self key value entries)
  · exact List.mem_map_of_mem (mem_insert_of_ne hentry hkey)

theorem sorted_ofEntries (entries : List (String × α)) : Sorted (ofEntries entries) :=
  Sorted.foldl_insert List.Pairwise.nil

/-- What lies behind every key goes to the end. -/
theorem insert_of_forall_lt (h : ∀ entry ∈ entries, entry.1 < key) :
    OrderedMap.insert key value entries = entries ++ [(key, value)] := by
  induction entries with
  | nil => rfl
  | cons entry rest ih =>
    have hlt := h entry List.mem_cons_self
    rw [OrderedMap.insert, if_neg hlt.ne', if_neg hlt.not_gt,
      ih fun other hother => h other (List.mem_cons_of_mem _ hother)]
    rfl

theorem ofEntries_of_sorted (h : Sorted entries) : ofEntries entries = entries := by
  induction entries using List.reverseRecOn with
  | nil => rfl
  | append_singleton before last ih =>
    rw [Sorted, List.map_append, List.pairwise_append] at h
    obtain ⟨hbefore, -, hlast⟩ := h
    rw [ofEntries, List.foldl_append, ← ofEntries, ih hbefore]
    exact insert_of_forall_lt fun entry hentry =>
      hlast entry.1 (List.mem_map_of_mem hentry) last.1 List.mem_cons_self

/-- Entries that agree on their keys all stay. -/
theorem mem_ofEntries_iff {entries : List (String × α)}
    (h : ∀ key value other, (key, value) ∈ entries → (key, other) ∈ entries → value = other)
    {entry : String × α} : entry ∈ ofEntries entries ↔ entry ∈ entries := by
  induction entries using List.reverseRecOn with
  | nil => rfl
  | append_singleton before last ih =>
    have hstep : ofEntries (before ++ [last]) =
        OrderedMap.insert last.1 last.2 (ofEntries before) := by
      rw [ofEntries, List.foldl_append]
      rfl
    have hbefore := ih fun key value other hvalue hother =>
      h key value other (List.mem_append_left _ hvalue) (List.mem_append_left _ hother)
    rw [hstep, (sorted_ofEntries before).mem_insert_iff, hbefore, List.mem_append,
      List.mem_singleton]
    constructor
    · rintro (rfl | ⟨hentry, -⟩)
      · exact .inr rfl
      · exact .inl hentry
    · rintro (hentry | rfl)
      · by_cases hkey : entry.1 = last.1
        · refine .inl (Prod.ext hkey ?_)
          refine h last.1 _ _ (List.mem_append_left _ ?_) (List.mem_append_right _ ?_)
          · rw [← hkey]
            exact hentry
          · exact List.mem_singleton.mpr rfl
        · exact .inr ⟨hentry, hkey⟩
      · exact .inl rfl

/-- Items with keys of their own all stay. -/
theorem mem_ofEntries_map_iff {ι : Type} {items : List ι} {key : ι → String} {value : ι → α}
    (hkeys : (items.map key).Nodup) :
    entry ∈ ofEntries (items.map fun item => (key item, value item)) ↔
      ∃ item ∈ items, (key item, value item) = entry := by
  refine (mem_ofEntries_iff fun k v w hv hw => ?_).trans List.mem_map
  obtain ⟨item, hitem, hentry⟩ := List.mem_map.mp hv
  obtain ⟨other, hother, hentry'⟩ := List.mem_map.mp hw
  have hsame : item = other := by
    apply List.inj_on_of_nodup_map hkeys hitem hother
    rw [(Prod.mk.inj hentry).1, (Prod.mk.inj hentry').1]
  rw [← (Prod.mk.inj hentry).2, ← (Prod.mk.inj hentry').2, hsame]

/-- Of items in ascending order that share a key, the last one stays. -/
theorem mem_ofEntries_map_last_iff {ι : Type} [LinearOrder ι] {items : List ι} {key : ι → String}
    {value : ι → α} (hitems : items.Pairwise (· < ·)) :
    entry ∈ ofEntries (items.map fun item => (key item, value item)) ↔
      ∃ item ∈ items, (key item, value item) = entry ∧
        ∀ other ∈ items, key other = entry.1 → other ≤ item := by
  induction items using List.reverseRecOn with
  | nil => simp [ofEntries]
  | append_singleton before last ih =>
    obtain ⟨hbefore, -, hlast⟩ := List.pairwise_append.mp hitems
    have hbelow : ∀ item ∈ before, item < last := fun item hitem =>
      hlast item hitem last List.mem_cons_self
    have hstep : ofEntries
        ((before ++ [last]).map fun item => (key item, value item)) =
        OrderedMap.insert (key last) (value last)
          (ofEntries (before.map fun item => (key item, value item))) := by
      rw [ofEntries, List.map_append, List.foldl_append]
      rfl
    rw [hstep, (sorted_ofEntries _).mem_insert_iff, ih hbefore]
    constructor
    · rintro (rfl | ⟨⟨item, hitem, rfl, hothers⟩, hkey⟩)
      · refine ⟨last, List.mem_append_right _ List.mem_cons_self, rfl, fun other hother _ => ?_⟩
        rcases List.mem_append.mp hother with hother | hother
        · exact (hbelow other hother).le
        · exact (List.mem_singleton.mp hother).le
      · refine ⟨item, List.mem_append_left _ hitem, rfl, fun other hother hsame => ?_⟩
        rcases List.mem_append.mp hother with hother | hother
        · exact hothers other hother hsame
        · rw [List.mem_singleton.mp hother] at hsame
          exact absurd hsame.symm hkey
    · rintro ⟨item, hitem, rfl, hothers⟩
      rcases List.mem_append.mp hitem with hitem | hitem
      · refine .inr ⟨⟨item, hitem, rfl, fun other hother => ?_⟩, fun hsame => ?_⟩
        · exact hothers other (List.mem_append_left _ hother)
        · have hle := hothers last (List.mem_append_right _ List.mem_cons_self) hsame.symm
          exact absurd (hbelow item hitem) (not_lt.mpr hle)
      · exact .inl (by rw [List.mem_singleton.mp hitem])

end Direclaw.Lib.OrderedMap
