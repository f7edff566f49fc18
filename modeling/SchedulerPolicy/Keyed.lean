/-!
# Maps in key order

Nearly every section of the documents is a map from a name to something, and is always shown in the
order of its names. `Keyed α` is such a map: a list of entries whose keys strictly ascend, by code
point. The order is part of the type, so two maps with the same look-ups are equal (`ext_get?`), and
the order in which entries were added cannot be seen.

Everything that changes a map is an instance of `alter`, which touches one key and leaves the others
alone (`get?_alter`): `insert` overwrites, `insertNew` keeps what is there.
-/

namespace SchedulerPolicy

/-- A map from names, held as entries with strictly ascending keys. -/
structure Keyed (α : Type) where
  entries : List (String × α)
  ascending : entries.Pairwise fun a b => a.1 < b.1

namespace Keyed

variable {α β : Type}

/-- The map without entries. -/
def empty : Keyed α := ⟨[], .nil⟩

instance : EmptyCollection (Keyed α) := ⟨empty⟩

instance : Inhabited (Keyed α) := ⟨empty⟩

@[ext] theorem ext {m n : Keyed α} (h : m.entries = n.entries) : m = n := by
  cases m; cases n; cases h; rfl

instance [DecidableEq α] : DecidableEq (Keyed α) := fun m n =>
  decidable_of_iff (m.entries = n.entries) ⟨ext, fun h => h ▸ rfl⟩

instance [BEq α] : BEq (Keyed α) := ⟨fun m n => m.entries == n.entries⟩

/-- Whether there are no entries. -/
def isEmpty (m : Keyed α) : Bool := m.entries.isEmpty

/-- The keys, ascending. -/
def keys (m : Keyed α) : List String := m.entries.map (·.1)

/-- The value under a key. -/
def get? (m : Keyed α) (key : String) : Option α := m.entries.lookup key

/-- Whether there is an entry under a key. -/
def contains (m : Keyed α) (key : String) : Bool := (m.get? key).isSome

/-- Puts at `key` what `f` makes of the value there, and keeps the other entries. -/
def alterEntries (key : String) (f : Option α → α) : List (String × α) → List (String × α)
  | [] => [(key, f none)]
  | (k, v) :: rest =>
    if key < k then (key, f none) :: (k, v) :: rest
    else if key = k then (k, f (some v)) :: rest
    else (k, v) :: alterEntries key f rest

theorem mem_alterEntries {key : String} {f : Option α → α} {es : List (String × α)}
    {e : String × α} (h : e ∈ alterEntries key f es) : e.1 = key ∨ e ∈ es := by
  induction es with
  | nil => simp only [alterEntries, List.mem_singleton] at h; simp [h]
  | cons e' rest ih =>
    obtain ⟨k, v⟩ := e'
    unfold alterEntries at h
    split at h
    · rcases List.mem_cons.1 h with rfl | h
      · exact .inl rfl
      · exact .inr h
    · split at h
      · rename_i hk
        rcases List.mem_cons.1 h with rfl | h
        · exact .inl hk.symm
        · exact .inr (List.mem_cons_of_mem _ h)
      · rcases List.mem_cons.1 h with rfl | h
        · exact .inr List.mem_cons_self
        · exact (ih h).imp id (List.mem_cons_of_mem _)

/-- Whatever is not below a key and differs from it lies above it. -/
theorem lt_of_not_lt_of_ne {a b : String} (h : ¬a < b) (hne : a ≠ b) : b < a := by
  apply Classical.byContradiction
  intro hn
  exact hne (String.le_antisymm (String.not_lt.1 hn) (String.not_lt.1 h))

theorem ascending_alterEntries {key : String} {f : Option α → α} {es : List (String × α)}
    (h : es.Pairwise fun a b => a.1 < b.1) :
    (alterEntries key f es).Pairwise fun a b => a.1 < b.1 := by
  induction es with
  | nil => simp [alterEntries]
  | cons e rest ih =>
    obtain ⟨k, v⟩ := e
    have hrest := (List.pairwise_cons.1 h).2
    have hhead := (List.pairwise_cons.1 h).1
    unfold alterEntries
    split
    · rename_i hlt
      refine List.pairwise_cons.2 ⟨fun e he => ?_, h⟩
      rcases List.mem_cons.1 he with rfl | he
      · exact hlt
      · exact String.lt_trans hlt (hhead e he)
    · rename_i hnlt
      split
      · exact List.pairwise_cons.2 ⟨hhead, hrest⟩
      · rename_i hne
        refine List.pairwise_cons.2 ⟨fun e he => ?_, ih hrest⟩
        rcases mem_alterEntries he with hk | he
        · simpa [hk] using lt_of_not_lt_of_ne hnlt hne
        · exact hhead e he

/-- The map in which `key` holds what `f` makes of the value there. -/
def alter (m : Keyed α) (key : String) (f : Option α → α) : Keyed α :=
  ⟨alterEntries key f m.entries, ascending_alterEntries m.ascending⟩

/-- The map in which `key` holds `value`, whatever it held before. -/
def insert (m : Keyed α) (key : String) (value : α) : Keyed α := m.alter key fun _ => value

/-- The map in which `key` holds `value` unless it holds something already. -/
def insertNew (m : Keyed α) (key : String) (value : α) : Keyed α := m.alter key (·.getD value)

/-- The map of a list of entries; of entries with one key the last counts. -/
def ofList (es : List (String × α)) : Keyed α := es.foldl (fun m e => m.insert e.1 e.2) ∅

/-- The map with every value changed by `f`. -/
def map (f : α → β) (m : Keyed α) : Keyed β :=
  ⟨m.entries.map fun e => (e.1, f e.2), List.pairwise_map.2 (m.ascending.imp id)⟩

/-- The entries whose value `f` keeps, with the value that it gives. -/
def filterMap (f : α → Option β) (m : Keyed α) : Keyed β :=
  ⟨m.entries.filterMap fun e => (f e.2).map (e.1, ·), by
    refine List.pairwise_filterMap.2 (m.ascending.imp fun {a b} hab c hc d hd => ?_)
    simp only [Option.map_eq_some_iff] at hc hd
    obtain ⟨-, -, rfl⟩ := hc
    obtain ⟨-, -, rfl⟩ := hd
    exact hab⟩

/-! ### Look-ups -/

@[simp] theorem get?_empty (key : String) : (∅ : Keyed α).get? key = none := rfl

/-- Ascending names are distinct. -/
theorem nodup_of_ascending {name : α → String} {xs : List α}
    (h : xs.Pairwise fun x y => name x < name y) : (xs.map name).Nodup := by
  refine List.pairwise_map.2 (h.imp fun {x y} hlt heq => ?_)
  rw [heq] at hlt
  exact String.lt_irrefl (name y) hlt

/-- A map has each of its keys once. -/
theorem nodup_keys (m : Keyed α) : (m.entries.map Prod.fst).Nodup := nodup_of_ascending m.ascending

/-- An entry of a list with distinct keys is found under its key. -/
theorem lookup_eq_some_iff {es : List (String × α)} (h : (es.map Prod.fst).Nodup) {key : String}
    {value : α} : es.lookup key = some value ↔ (key, value) ∈ es := by
  rw [List.lookup_eq_some_iff]
  constructor
  · rintro ⟨before, after, rfl, -⟩
    exact List.mem_append_right before List.mem_cons_self
  · intro hmem
    obtain ⟨before, after, rfl⟩ := List.append_of_mem hmem
    refine ⟨before, after, rfl, fun e he => ?_⟩
    -- the entries that the look-up passes have other keys
    rw [List.map_append, List.map_cons, List.nodup_append] at h
    rw [bne_iff_ne]
    exact (h.2.2 e.1 (List.mem_map_of_mem he) key List.mem_cons_self).symm

/-- A key holds a value exactly when the two are an entry. -/
theorem get?_eq_some_iff {m : Keyed α} {key : String} {value : α} :
    m.get? key = some value ↔ (key, value) ∈ m.entries :=
  lookup_eq_some_iff m.nodup_keys

theorem lookup_alterEntries {key other : String} {f : Option α → α} {es : List (String × α)}
    (h : es.Pairwise fun a b => a.1 < b.1) :
    (alterEntries key f es).lookup other =
      if other = key then some (f (es.lookup key)) else es.lookup other := by
  induction es with
  | nil =>
    by_cases ho : other = key
    · simp [alterEntries, ho]
    · have hb : (other == key) = false := by simp [ho]
      simp [alterEntries, List.lookup_cons, ho, hb]
  | cons e rest ih =>
    obtain ⟨k, v⟩ := e
    have hrest := (List.pairwise_cons.1 h).2
    have hhead := (List.pairwise_cons.1 h).1
    have habsent : key < k → List.lookup key ((k, v) :: rest) = none := by
      intro hlt
      cases hl : List.lookup key ((k, v) :: rest) with
      | none => rfl
      | some x =>
        rcases List.mem_cons.1 ((lookup_eq_some_iff (nodup_of_ascending h)).1 hl) with heq | hmem
        · simp only [Prod.mk.injEq] at heq
          exact absurd (heq.1 ▸ hlt) (String.lt_irrefl _)
        · exact absurd (String.lt_trans hlt (hhead _ hmem)) (String.lt_irrefl _)
    unfold alterEntries
    split
    · rename_i hlt
      by_cases ho : other = key
      · subst ho
        simp only [List.lookup_cons_self, if_true, habsent hlt]
      · have hb : (other == key) = false := by simp [ho]
        rw [List.lookup_cons, hb, if_neg ho]
    · split
      · rename_i hk
        subst hk
        by_cases ho : other = key
        · subst ho
          simp
        · have hb : (other == key) = false := by simp [ho]
          simp [List.lookup_cons, hb, ho]
      · rename_i hk
        have hbk : (key == k) = false := by simp [hk]
        by_cases ho : other = k
        · subst ho
          simp [Ne.symm hk]
        · have hbo : (other == k) = false := by simp [ho]
          simp [List.lookup_cons, hbo, hbk, ih hrest]

/-- Altering one key leaves every other look-up alone. -/
theorem get?_alter (m : Keyed α) (key other : String) (f : Option α → α) :
    (m.alter key f).get? other = if other = key then some (f (m.get? key)) else m.get? other :=
  lookup_alterEntries m.ascending

theorem get?_insert (m : Keyed α) (key other : String) (value : α) :
    (m.insert key value).get? other = if other = key then some value else m.get? other :=
  get?_alter m key other _

theorem get?_insertNew (m : Keyed α) (key other : String) (value : α) :
    (m.insertNew key value).get? other =
      if other = key then some ((m.get? key).getD value) else m.get? other :=
  get?_alter m key other _

theorem get?_map (f : α → β) (m : Keyed α) (key : String) :
    (m.map f).get? key = (m.get? key).map f := by
  obtain ⟨es, h⟩ := m
  simp only [get?, map]
  clear h
  induction es with
  | nil => rfl
  | cons e rest ih =>
    obtain ⟨k, v⟩ := e
    by_cases hk : key = k
    · simp [hk]
    · have hb : (key == k) = false := by simp [hk]
      simp [List.lookup_cons, hb, ih]

/-- Maps with the same look-ups are equal. -/
theorem ext_get? {m n : Keyed α} (h : ∀ key, m.get? key = n.get? key) : m = n := by
  have hmem : ∀ e, e ∈ m.entries ↔ e ∈ n.entries := by
    rintro ⟨key, value⟩
    rw [← get?_eq_some_iff, ← get?_eq_some_iff, h]
  have hnodup : ∀ m : Keyed α, m.entries.Nodup := fun m =>
    (List.pairwise_map.1 m.nodup_keys).imp fun hne heq => hne (congrArg Prod.fst heq)
  have hperm := (List.perm_ext_iff_of_nodup (hnodup m) (hnodup n)).2 hmem
  -- the order of the keys leaves no choice in how the entries are arranged
  refine ext (hperm.eq_of_pairwise (fun a b _ _ hab hba => ?_) m.ascending n.ascending)
  exact absurd (String.lt_trans hab hba) (String.lt_irrefl _)

end Keyed

end SchedulerPolicy
