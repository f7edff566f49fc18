import SchedulerPolicy.Keyed

/-!
# Maps that are built entry by entry

A map is mostly built by a loop over a list, and a loop leaves behind what its last, its first or
all its steps for a key have put there. One law for each way of adding entries says so: the last
entry counts when entries overwrite (`get?_ofList`), the first when they do not
(`get?_foldl_insertNew`), and when they are collected, all of them in order (`get?_foldl_collect`).

The second half relates the entries of a map to its look-ups.
-/

namespace SchedulerPolicy.Keyed

variable {α : Type}

/-- Of entries that overwrite, the last one counts. -/
theorem get?_foldl_insert (es : List (String × α)) (m : Keyed α) (key : String) :
    (es.foldl (fun m e => m.insert e.1 e.2) m).get? key =
      (es.reverse.lookup key).or (m.get? key) := by
  induction es generalizing m with
  | nil => rfl
  | cons e es ih =>
    -- the first entry is looked up last, before what was there
    rw [List.foldl_cons, ih, get?_insert, List.reverse_cons, List.lookup_append, Option.or_assoc]
    congr 1
    rw [List.lookup_cons, List.lookup_nil]
    by_cases h : key = e.1
    · rw [if_pos h, h, beq_self_eq_true]
      rfl
    · rw [if_neg h, beq_false_of_ne h]
      rfl

theorem get?_ofList (es : List (String × α)) (key : String) :
    (ofList es).get? key = es.reverse.lookup key := by
  unfold ofList
  rw [get?_foldl_insert, get?_empty, Option.or_none]

/-- What is found in a map is one of the entries that it was made from. -/
theorem mem_of_get?_ofList {es : List (String × α)} {key : String} {v : α}
    (h : (ofList es).get? key = some v) : (key, v) ∈ es := by
  rw [get?_ofList] at h
  obtain ⟨before, after, heq, -⟩ := List.lookup_eq_some_iff.1 h
  have hmem : (key, v) ∈ es.reverse := by
    rw [heq]
    exact List.mem_append_right before List.mem_cons_self
  exact List.mem_reverse.1 hmem

/-- A key keeps the first value that it is given. -/
theorem get?_foldl_insertNew (es : List (String × α)) (m : Keyed α) (key : String) :
    (es.foldl (fun m e => m.insertNew e.1 e.2) m).get? key = (m.get? key).or (es.lookup key) := by
  induction es generalizing m with
  | nil => rw [List.foldl_nil, List.lookup_nil, Option.or_none]
  | cons e es ih =>
    -- the first entry is looked up right after what was there
    rw [List.foldl_cons, ih, get?_insertNew, List.lookup_cons]
    by_cases h : key = e.1
    · rw [if_pos h, h, beq_self_eq_true]
      cases m.get? e.1 <;> rfl
    · rw [if_neg h, beq_false_of_ne h]

/-- Items that are collected under their keys stand there in their order. -/
theorem get?_foldl_collect {β : Type} (key : β → String) (xs : List β) (m : Keyed (List β))
    (k : String) :
    (xs.foldl (fun m x => m.alter (key x) fun earlier => earlier.getD [] ++ [x]) m).get? k =
      if xs.any (key · == k) then some ((m.get? k).getD [] ++ xs.filter (key · == k))
      else m.get? k := by
  induction xs generalizing m with
  | nil => rfl
  | cons x xs ih =>
    rw [List.foldl_cons, ih, get?_alter, List.any_cons, List.filter_cons]
    by_cases hx : k = key x
    · rw [if_pos hx, hx, beq_self_eq_true, Bool.true_or, if_pos rfl, if_pos rfl]
      -- what follows `x` under its key is collected behind it
      by_cases hany : xs.any (key · == key x) = true
      · rw [if_pos hany, Option.getD_some, List.append_assoc, List.singleton_append]
      · have hnil : xs.filter (key · == key x) = [] := by
          refine List.filter_eq_nil_iff.2 fun y hy hyx => hany ?_
          exact List.any_eq_true.2 ⟨y, hy, hyx⟩
        rw [if_neg hany, hnil]
    · have hne : (key x == k) = false := beq_false_of_ne fun h => hx h.symm
      rw [if_neg hx, hne, Bool.false_or, if_neg Bool.false_ne_true]

/-! ### Entries and look-ups -/

theorem mem_keys_iff {m : Keyed α} {key : String} : key ∈ m.keys ↔ ∃ v, m.get? key = some v := by
  unfold keys
  rw [List.mem_map]
  constructor
  · rintro ⟨⟨k, v⟩, he, rfl⟩
    exact ⟨v, get?_eq_some_iff.2 he⟩
  · rintro ⟨v, hv⟩
    exact ⟨_, get?_eq_some_iff.1 hv, rfl⟩

/-- A map is empty when nothing is found in it. -/
theorem isEmpty_iff {m : Keyed α} : m.isEmpty = true ↔ ∀ key, m.get? key = none := by
  unfold isEmpty
  rw [List.isEmpty_iff]
  constructor
  · intro h key
    unfold get?
    rw [h, List.lookup_nil]
  · intro h
    refine List.eq_nil_iff_forall_not_mem.2 fun e he => ?_
    have hget : m.get? e.1 = some e.2 := get?_eq_some_iff.2 he
    rw [h] at hget
    cases hget

theorem isEmpty_iff_eq {m : Keyed α} : m.isEmpty = true ↔ m = ∅ := by
  rw [isEmpty_iff]
  constructor
  · intro h
    exact ext_get? h
  · rintro rfl key
    exact get?_empty key

theorem isEmpty_eq_false_iff {m : Keyed α} :
    m.isEmpty = false ↔ ∃ key v, m.get? key = some v := by
  rw [← Bool.not_eq_true, isEmpty_iff]
  simp only [Classical.not_forall, ← Option.isSome_iff_exists, Option.isSome_iff_ne_none]

theorem get?_filterMap {β : Type} (f : α → Option β) (m : Keyed α) (key : String) :
    (m.filterMap f).get? key = (m.get? key).bind f := by
  refine Option.ext fun v => ?_
  rw [get?_eq_some_iff, Option.bind_eq_some_iff]
  change (key, v) ∈ m.entries.filterMap (fun e => (f e.2).map (e.1, ·)) ↔ _
  rw [List.mem_filterMap]
  constructor
  · rintro ⟨e, he, hv⟩
    obtain ⟨w, hw, heq⟩ := Option.map_eq_some_iff.1 hv
    obtain ⟨rfl, rfl⟩ := Prod.mk.inj heq
    exact ⟨e.2, get?_eq_some_iff.2 he, hw⟩
  · rintro ⟨a, ha, hv⟩
    exact ⟨(key, a), get?_eq_some_iff.1 ha, by rw [hv]; rfl⟩

/-- A map has the keys of the entries that it was made from. -/
theorem mem_keys_ofList {es : List (String × α)} {key : String} :
    key ∈ (ofList es).keys ↔ ∃ e ∈ es, e.1 = key := by
  rw [mem_keys_iff]
  constructor
  · rintro ⟨v, hv⟩
    exact ⟨(key, v), mem_of_get?_ofList hv, rfl⟩
  · rintro ⟨e, he, rfl⟩
    -- the look-up cannot pass every entry, for it would pass this one
    rw [← Option.isSome_iff_exists, Option.isSome_iff_ne_none, get?_ofList]
    intro hnone
    have hne := List.lookup_eq_none_iff.1 hnone e (List.mem_reverse.2 he)
    rw [bne_self_eq_false] at hne
    cases hne

/-- Every entry is found in a map that is made from entries without two values for one key. -/
theorem get?_ofList_eq_some_iff {es : List (String × α)}
    (h : ∀ e ∈ es, ∀ e' ∈ es, e.1 = e'.1 → e = e') {key : String} {v : α} :
    (ofList es).get? key = some v ↔ (key, v) ∈ es := by
  refine ⟨mem_of_get?_ofList, fun hmem => ?_⟩
  obtain ⟨w, hw⟩ := mem_keys_iff.1 (mem_keys_ofList.2 ⟨(key, v), hmem, rfl⟩)
  have heq := h _ (mem_of_get?_ofList hw) _ hmem rfl
  rw [hw, (Prod.mk.inj heq).2]

/-- A map is the map of its entries. -/
theorem ofList_entries (m : Keyed α) : ofList m.entries = m := by
  -- a map has one value for a key
  have hfun : ∀ e ∈ m.entries, ∀ e' ∈ m.entries, e.1 = e'.1 → e = e' := by
    intro e he e' he' hkey
    have hget : m.get? e.1 = some e.2 := get?_eq_some_iff.2 he
    have hget' : m.get? e'.1 = some e'.2 := get?_eq_some_iff.2 he'
    rw [hkey, hget'] at hget
    exact Prod.ext hkey (Option.some.inj hget).symm
  refine ext_get? fun key => Option.ext fun v => ?_
  rw [get?_ofList_eq_some_iff hfun, get?_eq_some_iff]

theorem alter_eq_insert (m : Keyed α) (key : String) (f : Option α → α) :
    m.alter key f = m.insert key (f (m.get? key)) := by
  refine ext_get? fun other => ?_
  rw [get?_alter, get?_insert]

/-- What is made of the values may be made before one is inserted or after. -/
theorem map_insert {β : Type} (f : α → β) (m : Keyed α) (key : String) (v : α) :
    (m.insert key v).map f = (m.map f).insert key (f v) := by
  refine ext_get? fun other => ?_
  rw [get?_map, get?_insert, get?_insert, get?_map]
  split <;> rfl

/-! ### Maps of maps -/

/-- What a map of nodes holds at a place, when every node holds a map of its own. -/
def getIn? {β γ : Type} (repos : γ → Keyed β) (m : Keyed γ) (p : String × String) : Option β :=
  (m.get? p.1).bind fun node => (repos node).get? p.2

/-- Altering a node so that one value is set in its map sets the value at one place. -/
theorem getIn?_alter {β γ : Type} {repos : γ → Keyed β} {m : Keyed γ} {p : String × String}
    {f : Option γ → γ} {v : β}
    (hf : repos (f (m.get? p.1)) = (((m.get? p.1).map repos).getD ∅).insert p.2 v)
    (q : String × String) :
    (m.alter p.1 f).getIn? repos q = if p = q then some v else m.getIn? repos q := by
  unfold getIn?
  rw [get?_alter]
  -- another node stays, and so does what else the node holds
  by_cases horg : q.1 = p.1
  · rw [if_pos horg, Option.bind_some, hf, get?_insert]
    by_cases hrepo : q.2 = p.2
    · rw [if_pos hrepo, if_pos (Prod.ext horg.symm hrepo.symm)]
    · have hne : p ≠ q := fun heq => hrepo (heq ▸ rfl)
      rw [if_neg hrepo, if_neg hne, horg]
      cases m.get? p.1 <;> rfl
  · have hne : p ≠ q := fun heq => horg (heq ▸ rfl)
    rw [if_neg horg, if_neg hne]

end SchedulerPolicy.Keyed
