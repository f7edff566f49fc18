import SchedulerPolicy.Proofs.Keyed

/-!
# Tables of items with distinct keys

A section of a document is gathered in a loop over items that each have a key, and a step of the
loop touches the place of the item's key only. When keys are distinct, a place holds in the end what
the one item of its key has put there (`look_foldl_of_none`), whatever the steps do and wherever the
section keeps its places.

Sections are compared for two lists of items, of which the second is made from the first: some items
are dropped, the others changed. If what an item has to say in a section survives the change, and
the items that are dropped have nothing to say there (`Restores`), the section stays the same, be it
a list (`Restores.filterMap_eq`) or a table (`Restores.bind_itemAt_eq`).
-/

namespace SchedulerPolicy

section Items

variable {α β κ : Type} [DecidableEq κ] {key : α → κ} {xs : List α}

/-- The first item with a key. -/
def itemAt (key : α → κ) (xs : List α) (k : κ) : Option α := xs.find? (key · == k)

theorem itemAt_cons_of_eq {x : α} {k : κ} (h : key x = k) : itemAt key (x :: xs) k = some x := by
  unfold itemAt
  rw [List.find?_cons, beq_iff_eq.2 h]

theorem itemAt_cons_of_ne {x : α} {k : κ} (h : key x ≠ k) :
    itemAt key (x :: xs) k = itemAt key xs k := by
  unfold itemAt
  rw [List.find?_cons, beq_false_of_ne h]

theorem itemAt_eq_some {x : α} {k : κ} (h : itemAt key xs k = some x) : x ∈ xs ∧ key x = k :=
  ⟨List.mem_of_find?_eq_some h, by simpa using List.find?_some h⟩

theorem itemAt_eq_none {k : κ} (h : ∀ x ∈ xs, key x ≠ k) : itemAt key xs k = none :=
  List.find?_eq_none.2 fun x hx hk => h x hx (beq_iff_eq.1 hk)

/-- An item is found under its key when no other has the key. -/
theorem itemAt_key (h : (xs.map key).Nodup) {x : α} (hx : x ∈ xs) :
    itemAt key xs (key x) = some x := by
  induction xs with
  | nil => cases hx
  | cons y ys ih =>
    rw [List.map_cons, List.nodup_cons] at h
    by_cases heq : key y = key x
    · -- the first item of the key is the item itself
      rcases List.mem_cons.1 hx with rfl | hx
      · exact itemAt_cons_of_eq rfl
      · exact absurd (List.mem_map.2 ⟨x, hx, heq.symm⟩) h.1
    · rw [itemAt_cons_of_ne heq]
      exact ih h.2 ((List.mem_cons.1 hx).resolve_left fun hxy => heq (hxy ▸ rfl))

/-- Something is found under a key when the item of the key has an entry. -/
theorem isSome_bind_itemAt (h : (xs.map key).Nodup) {entry : α → Option β} {k : κ} :
    ((itemAt key xs k).bind entry).isSome = true ↔
      ∃ x ∈ xs, key x = k ∧ (entry x).isSome = true := by
  constructor
  · intro hsome
    -- what is found under a key comes from an item of the key
    cases hitem : itemAt key xs k with
    | none =>
      rw [hitem] at hsome
      cases hsome
    | some x =>
      rw [hitem] at hsome
      exact ⟨x, (itemAt_eq_some hitem).1, (itemAt_eq_some hitem).2, hsome⟩
  · rintro ⟨x, hx, rfl, hentry⟩
    rw [itemAt_key h hx]
    exact hentry

/-! ### Loops that touch one place a step -/

section Loop

variable {σ : Type} {look : σ → κ → Option β} {step : σ → α → σ} {put : α → Option β → Option β}

omit [DecidableEq κ] in
/-- A place that belongs to no item is left alone, whatever the keys. -/
theorem look_foldl_of_ne (hstep : ∀ s x k, key x ≠ k → look (step s x) k = look s k) {k : κ}
    (h : ∀ x ∈ xs, key x ≠ k) (s : σ) : look (xs.foldl step s) k = look s k := by
  induction xs generalizing s with
  | nil => rfl
  | cons x xs ih =>
    rw [List.forall_mem_cons] at h
    rw [List.foldl_cons, ih h.2, hstep s x k h.1]

/-- What a loop leaves at a place: what the item of its key makes of what was there. -/
theorem look_foldl
    (hstep : ∀ s x k, look (step s x) k = if key x = k then put x (look s k) else look s k)
    (h : (xs.map key).Nodup) (s : σ) (k : κ) :
    look (xs.foldl step s) k =
      match itemAt key xs k with
      | some x => put x (look s k)
      | none => look s k := by
  induction xs generalizing s with
  | nil => rfl
  | cons x xs ih =>
    rw [List.map_cons, List.nodup_cons] at h
    rw [List.foldl_cons, ih h.2]
    by_cases hk : key x = k
    · -- the later items have other keys and leave the place alone
      have hnone : itemAt key xs k = none := itemAt_eq_none fun y hy hyk =>
        h.1 (List.mem_map.2 ⟨y, hy, hyk.trans hk.symm⟩)
      rw [hnone, itemAt_cons_of_eq hk, hstep, if_pos hk]
    · rw [itemAt_cons_of_ne hk, hstep, if_neg hk]

/-- A loop that starts with nothing leaves at a place what the item of its key puts there. -/
theorem look_foldl_of_none
    (hstep : ∀ s x k, look (step s x) k = if key x = k then put x (look s k) else look s k)
    (h : (xs.map key).Nodup) {s : σ} (hs : ∀ k, look s k = none) (k : κ) :
    look (xs.foldl step s) k = (itemAt key xs k).bind fun x => put x none := by
  rw [look_foldl hstep h, hs]
  cases itemAt key xs k <;> rfl

end Loop

/-! ### Items that are dropped or changed -/

/-- The items that are kept, each of them changed. -/
def restored (keep : α → Bool) (back : α → α) (xs : List α) : List α := (xs.filter keep).map back

/-- What an item has to say in a section survives, and no item is dropped that has something to say.
-/
structure Restores (keep : α → Bool) (back : α → α) (entry : α → Option β) (xs : List α) :
    Prop where
  kept : ∀ x ∈ xs, keep x = true → entry (back x) = entry x
  dropped : ∀ x ∈ xs, keep x = false → entry x = none

variable {keep : α → Bool} {back : α → α} {entry : α → Option β}

theorem restored_cons_of_pos {x : α} (h : keep x = true) :
    restored keep back (x :: xs) = back x :: restored keep back xs := by
  unfold restored
  rw [List.filter_cons_of_pos h, List.map_cons]

theorem restored_cons_of_neg {x : α} (h : keep x = false) :
    restored keep back (x :: xs) = restored keep back xs := by
  unfold restored
  rw [List.filter_cons_of_neg (by rw [h]; exact Bool.false_ne_true)]

theorem forall_mem_restored {P : α → Prop} (h : ∀ x ∈ xs, keep x = true → P (back x)) :
    ∀ y ∈ restored keep back xs, P y := by
  intro y hy
  obtain ⟨x, hx, rfl⟩ := List.mem_map.1 hy
  exact h x (List.mem_filter.1 hx).1 (List.mem_filter.1 hx).2

theorem Restores.tail {x : α} (h : Restores keep back entry (x :: xs)) :
    Restores keep back entry xs where
  kept y hy := h.kept y (List.mem_cons_of_mem x hy)
  dropped y hy := h.dropped y (List.mem_cons_of_mem x hy)

/-- A section that lists what its items have to say stays the same. -/
theorem Restores.filterMap_eq (h : Restores keep back entry xs) :
    (restored keep back xs).filterMap entry = xs.filterMap entry := by
  induction xs with
  | nil => rfl
  | cons x xs ih =>
    cases hx : keep x with
    | true =>
      have hentry := h.kept x List.mem_cons_self hx
      rw [restored_cons_of_pos hx, List.filterMap_cons, List.filterMap_cons, hentry, ih h.tail]
    | false =>
      have hnone := h.dropped x List.mem_cons_self hx
      rw [restored_cons_of_neg hx, List.filterMap_cons_none hnone, ih h.tail]

/-- A table of what its items have to say stays the same. -/
theorem Restores.bind_itemAt_eq (h : Restores keep back entry xs)
    (hkey : ∀ x ∈ xs, keep x = true → key (back x) = key x) (hnodup : (xs.map key).Nodup) (k : κ) :
    (itemAt key (restored keep back xs) k).bind entry = (itemAt key xs k).bind entry := by
  induction xs with
  | nil => rfl
  | cons x xs ih =>
    rw [List.map_cons, List.nodup_cons] at hnodup
    have htail : ∀ y ∈ xs, keep y = true → key (back y) = key y := fun y hy =>
      hkey y (List.mem_cons_of_mem x hy)
    -- in each of the four cases either the first item is found or the induction goes on
    have hrest := ih h.tail htail hnodup.2
    cases hx : keep x with
    | true =>
      rw [restored_cons_of_pos hx]
      by_cases hk : key x = k
      · have hback : key (back x) = k := (hkey x List.mem_cons_self hx).trans hk
        rw [itemAt_cons_of_eq hk, itemAt_cons_of_eq hback]
        exact h.kept x List.mem_cons_self hx
      · have hback : key (back x) ≠ k := fun hb => hk ((hkey x List.mem_cons_self hx).symm.trans hb)
        rw [itemAt_cons_of_ne hk, itemAt_cons_of_ne hback, hrest]
    | false =>
      rw [restored_cons_of_neg hx]
      by_cases hk : key x = k
      · -- the item that is dropped was the only one of its key
        have hnone : itemAt key (restored keep back xs) k = none := by
          refine itemAt_eq_none (forall_mem_restored fun y hy hkeep hyk => hnodup.1 ?_)
          exact List.mem_map.2 ⟨y, hy, (htail y hy hkeep).symm.trans (hyk.trans hk.symm)⟩
        rw [hnone, itemAt_cons_of_eq hk, Option.bind_none]
        exact (h.dropped x List.mem_cons_self hx).symm
      · rw [itemAt_cons_of_ne hk, hrest]

end Items

end SchedulerPolicy
