import SchedulerPolicy.Fragment.Merge

/-!
# Appending what is new

Several sections grow in one way: items arrive one after the other, and an item is appended unless
there is one with its key already. The items of lists are their own keys, jobs go by their names.
`appendNew key own donor` is that operation for any key.

* `appendNew_eq` says what the result is without running it: the own items as they are, followed by
  the donor's items of new keys, of one key the first.
* `appendNew_assoc` is the law that everything about chains rests on: appending twice is appending
  what the second and the third have between them.
* `keys_appendNew` and `nodup_keys_appendNew` follow the keys.
-/

namespace SchedulerPolicy

variable {α κ : Type} [BEq κ]

/-- Appends an item unless there is one with its key. -/
def addNew (key : α → κ) (items : List α) (x : α) : List α :=
  if items.any (key · == key x) then items else items ++ [x]

/-- Appends the items of new keys, one after the other. -/
def appendNew (key : α → κ) (own donor : List α) : List α := donor.foldl (addNew key) own

variable {key : α → κ}

theorem appendNew_nil (own : List α) : appendNew key own [] = own := rfl

theorem appendNew_cons (own donor : List α) (x : α) :
    appendNew key own (x :: donor) = appendNew key (addNew key own x) donor := rfl

theorem appendNew_append (own donor donor' : List α) :
    appendNew key own (donor ++ donor') = appendNew key (appendNew key own donor) donor' :=
  List.foldl_append

variable [LawfulBEq κ]

theorem any_key_iff {items : List α} {x : α} :
    items.any (key · == key x) = true ↔ key x ∈ items.map key := by
  simp only [List.any_eq_true, beq_iff_eq, List.mem_map]

theorem addNew_of_mem {items : List α} {x : α} (h : key x ∈ items.map key) :
    addNew key items x = items := by
  unfold addNew
  rw [if_pos (any_key_iff.2 h)]

theorem addNew_of_not_mem {items : List α} {x : α} (h : key x ∉ items.map key) :
    addNew key items x = items ++ [x] := by
  unfold addNew
  rw [if_neg fun hany => h (any_key_iff.1 hany)]

theorem keys_addNew {items : List α} {x : α} {k : κ} :
    k ∈ (addNew key items x).map key ↔ k ∈ items.map key ∨ k = key x := by
  by_cases h : key x ∈ items.map key
  · rw [addNew_of_mem h]
    refine ⟨Or.inl, ?_⟩
    rintro (hk | rfl)
    · exact hk
    · exact h
  · rw [addNew_of_not_mem h, List.map_append, List.mem_append, List.map_cons, List.map_nil,
      List.mem_singleton]

theorem keys_appendNew {own donor : List α} {k : κ} :
    k ∈ (appendNew key own donor).map key ↔ k ∈ own.map key ∨ k ∈ donor.map key := by
  induction donor generalizing own with
  | nil => simp [appendNew_nil]
  | cons x donor ih =>
    rw [appendNew_cons, ih, keys_addNew, List.map_cons, List.mem_cons, or_assoc]

theorem nodup_keys_addNew {items : List α} {x : α} (h : (items.map key).Nodup) :
    ((addNew key items x).map key).Nodup := by
  by_cases hx : key x ∈ items.map key
  · rw [addNew_of_mem hx]
    exact h
  · -- the item goes to the end, and no item before it has its key
    rw [addNew_of_not_mem hx, List.map_append, List.map_cons, List.map_nil]
    refine List.nodup_append.2 ⟨h, by simp, ?_⟩
    intro k hk k' hk' heq
    rw [List.mem_singleton] at hk'
    exact hx (hk' ▸ heq ▸ hk)

theorem nodup_keys_appendNew {own donor : List α} (h : (own.map key).Nodup) :
    ((appendNew key own donor).map key).Nodup := by
  induction donor generalizing own with
  | nil => exact h
  | cons x donor ih => exact ih (nodup_keys_addNew h)

theorem find?_addNew (items : List α) (x : α) (k : κ) :
    (addNew key items x).find? (key · == k) =
      (items.find? (key · == k)).or (if key x == k then some x else none) := by
  by_cases h : key x ∈ items.map key
  · rw [addNew_of_mem h]
    by_cases hk : key x = k
    · -- the item that stands in the way of `x` is found under its key
      obtain ⟨y, hy, hyx⟩ := List.mem_map.1 h
      have hsome : (items.find? (key · == k)).isSome = true :=
        List.find?_isSome.2 ⟨y, hy, by rw [hyx, hk, beq_self_eq_true]⟩
      rw [Option.or_of_isSome hsome]
    · rw [if_neg (by simpa using hk), Option.or_none]
  · rw [addNew_of_not_mem h, List.find?_append, List.find?_singleton]

/-- An item is the own one or the donor's. -/
theorem mem_or_mem_of_mem_appendNew {own donor : List α} {x : α} (h : x ∈ appendNew key own donor) :
    x ∈ own ∨ x ∈ donor := by
  induction donor generalizing own with
  | nil => exact Or.inl h
  | cons y donor ih =>
    rcases ih h with hown | hdonor
    · by_cases hy : key y ∈ own.map key
      · exact Or.inl (addNew_of_mem hy ▸ hown)
      · -- the own items have grown by `y`
        rw [addNew_of_not_mem hy, List.mem_append, List.mem_singleton] at hown
        rcases hown with hown | rfl
        · exact Or.inl hown
        · exact Or.inr List.mem_cons_self
    · exact Or.inr (List.mem_cons_of_mem y hdonor)

/-- A key stands for the own item, and failing that for the donor's. -/
theorem find?_appendNew (own donor : List α) (k : κ) :
    (appendNew key own donor).find? (key · == k) =
      (own.find? (key · == k)).or (donor.find? (key · == k)) := by
  induction donor generalizing own with
  | nil => rw [appendNew_nil, List.find?_nil, Option.or_none]
  | cons x donor ih =>
    rw [appendNew_cons, ih, find?_addNew, Option.or_assoc, List.find?_cons]
    cases key x == k <;> rfl

/-- A donor without new keys adds nothing. -/
theorem appendNew_of_keys_subset {own donor : List α}
    (h : ∀ x ∈ donor, key x ∈ own.map key) : appendNew key own donor = own := by
  induction donor with
  | nil => rfl
  | cons x donor ih =>
    rw [appendNew_cons, addNew_of_mem (h x List.mem_cons_self)]
    exact ih fun y hy => h y (List.mem_cons_of_mem _ hy)

/-- A donor of new and distinct keys is appended as it is. -/
theorem appendNew_of_nodup {own donor : List α} (h : ((own ++ donor).map key).Nodup) :
    appendNew key own donor = own ++ donor := by
  induction donor generalizing own with
  | nil => simp [appendNew_nil]
  | cons x donor ih =>
    -- `x` is new to the own items, and counts as one of them for the rest of the donor
    have hx : key x ∉ own.map key := by
      intro hmem
      rw [List.map_append, List.map_cons] at h
      exact (List.nodup_append.1 h).2.2 _ hmem _ List.mem_cons_self rfl
    have happ : own ++ x :: donor = (own ++ [x]) ++ donor := by simp
    rw [appendNew_cons, addNew_of_not_mem hx, happ]
    exact ih (happ ▸ h)

/-- Adding an item to a list that was appended is appending the list with the item added. -/
theorem addNew_appendNew (own donor : List α) (x : α) :
    addNew key (appendNew key own donor) x = appendNew key own (addNew key donor x) := by
  by_cases h : key x ∈ donor.map key
  · -- the donor has brought the key before, so `x` is turned away on both sides
    rw [addNew_of_mem h, addNew_of_mem (keys_appendNew.2 (Or.inr h))]
  · rw [addNew_of_not_mem h, appendNew_append]
    rfl

/-- **Appending what is new is associative**, repetitions or not. -/
theorem appendNew_assoc (a b c : List α) :
    appendNew key (appendNew key a b) c = appendNew key a (appendNew key b c) := by
  -- the items of `c` move into `b` one by one
  induction c generalizing b with
  | nil => rfl
  | cons x c ih => rw [appendNew_cons, appendNew_cons, addNew_appendNew, ih]

/-- The donor's items that count: those of new keys, of one key the first. -/
def newItems (key : α → κ) (own donor : List α) : List α :=
  (donor.filter fun x => !own.any (key · == key x)).eraseDupsBy fun x y => key x == key y

/-- **What appending results in**: the own items, then the donor's items that count. -/
theorem appendNew_eq (own donor : List α) :
    appendNew key own donor = own ++ newItems key own donor := by
  induction donor generalizing own with
  | nil => simp [appendNew_nil, newItems]
  | cons x donor ih =>
    rw [appendNew_cons, ih]
    unfold newItems
    by_cases h : key x ∈ own.map key
    · -- the item is dropped on both sides
      rw [addNew_of_mem h, List.filter_cons_of_neg (by simpa using any_key_iff.2 h)]
    · have hany : own.any (key · == key x) = false :=
        Bool.eq_false_iff.2 fun hc => h (any_key_iff.1 hc)
      rw [addNew_of_not_mem h, List.filter_cons_of_pos (by simp [hany]), List.eraseDupsBy_cons,
        List.filter_filter, List.append_assoc, List.singleton_append]
      congr 3
      refine List.filter_congr fun y _ => ?_
      -- what stands beside `x` is new to the own items and has another key than `x`
      rw [List.any_append, Bool.not_or, Bool.and_comm]
      congr 1
      by_cases hxy : key x = key y
      · simp [hxy]
      · simp [hxy, Ne.symm hxy]

/-- Onto nothing, items are appended but for those whose keys came before. -/
theorem appendNew_onto_nil (donor : List α) :
    appendNew key [] donor = donor.eraseDupsBy fun x y => key x == key y := by
  rw [appendNew_eq, List.nil_append]
  change (donor.filter fun _ => true).eraseDupsBy _ = _
  rw [List.filter_eq_self.2 fun _ _ => rfl]

/-! ### Items that are their own keys -/

theorem mem_addNew {items : List κ} {x k : κ} : k ∈ addNew id items x ↔ k ∈ items ∨ k = x := by
  have hkeys : k ∈ (addNew id items x).map id ↔ k ∈ items.map id ∨ k = id x := keys_addNew
  rwa [List.map_id, List.map_id] at hkeys

theorem mem_appendNew {own donor : List κ} {k : κ} :
    k ∈ appendNew id own donor ↔ k ∈ own ∨ k ∈ donor := by
  have hkeys : k ∈ (appendNew id own donor).map id ↔ k ∈ own.map id ∨ k ∈ donor.map id :=
    keys_appendNew
  rwa [List.map_id, List.map_id, List.map_id] at hkeys

theorem mem_newItems {own donor : List κ} {k : κ} :
    k ∈ newItems id own donor ↔ k ∈ donor ∧ k ∉ own := by
  change k ∈ (donor.filter fun x => !own.any (· == x)).eraseDups ↔ _
  rw [List.mem_eraseDups, List.mem_filter, Bool.not_eq_true', List.any_eq_false]
  refine and_congr_right fun _ => ⟨fun h hk => h k hk (beq_self_eq_true k), fun h x hx hxk => ?_⟩
  exact h (beq_iff_eq.1 hxk ▸ hx)

theorem nodup_appendNew {own donor : List κ} (h : own.Nodup) : (appendNew id own donor).Nodup := by
  have hkeys : ((appendNew id own donor).map id).Nodup :=
    nodup_keys_appendNew (by rwa [List.map_id])
  rwa [List.map_id] at hkeys

/-- Lists are matched item by item. -/
theorem appendMissing_eq_appendNew {α : Type} [BEq α] [LawfulBEq α] (own donor : List α) :
    appendMissing own donor = appendNew id own donor := by
  -- one step of either loop
  have hstep : (fun (items : List α) x => if items.contains x then items else items ++ [x])
      = addNew id := by
    funext items x
    unfold addNew
    congr 1
    rw [List.contains_iff_mem, any_key_iff, List.map_id, id]
  unfold appendMissing appendNew
  rw [hstep]

/-- Onto nothing, a list is appended without its repetitions. -/
theorem appendMissing_nil {α : Type} [BEq α] [LawfulBEq α] (xs : List α) :
    appendMissing [] xs = xs.eraseDups := by
  rw [appendMissing_eq_appendNew, appendNew_onto_nil]
  rfl

end SchedulerPolicy
