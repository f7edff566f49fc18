/-!
# Steps that may fail

Reading, filling in, resolving and compiling are sequences of steps, and the first one that fails
ends the sequence. A sequence results in something when each of its steps does, with the result of
the step before (`bind_eq_ok_iff`). Of a step that looks for faults before it goes on it is enough
to list them all: `outcome faults a` is what comes of it, and faults of steps that follow one
another are appended (`outcome_bind`). The rest is about a step that is taken for every member of a
list.
-/

namespace SchedulerPolicy

variable {α β ε : Type}

/-- What a sequence of two steps results in. -/
theorem bind_eq_ok_iff {x : Except ε α} {f : α → Except ε β} {b : β} :
    x >>= f = .ok b ↔ ∃ a, x = .ok a ∧ f a = .ok b := by
  cases x with
  | error e =>
    constructor
    · intro h
      cases h
    · rintro ⟨a, ha, -⟩
      cases ha
  | ok a =>
    constructor
    · intro h
      exact ⟨a, rfl, h⟩
    · rintro ⟨a', ha, hb⟩
      cases ha
      exact hb

/-- What is made of the result of a step. -/
theorem map_eq_ok_iff {x : Except ε α} {f : α → β} {b : β} :
    x.map f = .ok b ↔ ∃ a, x = .ok a ∧ f a = b := by
  cases x with
  | error e => exact ⟨nofun, nofun⟩
  | ok a =>
    constructor
    · intro h
      exact ⟨a, rfl, Except.ok.inj h⟩
    · rintro ⟨a', ha, rfl⟩
      cases ha
      rfl

/-- What is made of a result makes no difference to a failure. -/
theorem map_eq_error_iff {x : Except ε α} {f : α → β} {e : ε} :
    x.map f = .error e ↔ x = .error e := by
  cases x with
  | error e' =>
    change (Except.error e' : Except ε β) = .error e ↔ _
    rw [Except.error.injEq, Except.error.injEq]
  | ok a => exact ⟨nofun, nofun⟩

/-- Another wording of a failure makes no difference to a result. -/
theorem mapError_eq_ok_iff {ε' : Type} {x : Except ε α} {f : ε → ε'} {a : α} :
    x.mapError f = .ok a ↔ x = .ok a := by
  cases x with
  | error e => exact ⟨nofun, nofun⟩
  | ok b =>
    change (Except.ok b : Except ε' α) = .ok a ↔ _
    rw [Except.ok.injEq, Except.ok.injEq]

theorem toOption_eq_some_iff {x : Except ε α} {a : α} : x.toOption = some a ↔ x = .ok a := by
  cases x with
  | error e => exact ⟨nofun, nofun⟩
  | ok b =>
    change some b = some a ↔ _
    rw [Option.some.injEq, Except.ok.injEq]

/-- A step that succeeds goes on with its result. -/
theorem bind_eq_of_ok {x : Except ε α} {a : α} {f : α → Except ε β} {r : Except ε β}
    (hx : x = .ok a) (hf : f a = r) : x >>= f = r := by
  rw [hx]
  exact hf

/-! ### Steps that look for faults -/

/-- What comes of a value that is checked: the first of the faults, and without any the value. -/
def outcome : List ε → α → Except ε α
  | [], a => .ok a
  | e :: _, _ => .error e

theorem outcome_eq_ok_iff {faults : List ε} {a b : α} :
    outcome faults a = .ok b ↔ faults = [] ∧ a = b := by
  cases faults with
  | nil =>
    change Except.ok a = .ok b ↔ _
    rw [Except.ok.injEq, eq_self, true_and]
  | cons e faults => exact ⟨nofun, nofun⟩

theorem outcome_eq_error_iff {faults : List ε} {a : α} {e : ε} :
    outcome faults a = .error e ↔ faults.head? = some e := by
  cases faults with
  | nil => exact ⟨nofun, nofun⟩
  | cons e' faults =>
    change Except.error e' = .error e ↔ some e' = some e
    rw [Except.error.injEq, Option.some.injEq]

/-- It takes one fault, anywhere, to fail. -/
theorem exists_outcome_eq_error_iff {faults : List ε} {a : α} :
    (∃ e, outcome faults a = .error e) ↔ ∃ e, e ∈ faults := by
  cases faults with
  | nil => exact ⟨nofun, nofun⟩
  | cons e faults => exact ⟨fun _ => ⟨e, List.mem_cons_self⟩, fun _ => ⟨e, rfl⟩⟩

/-- The faults of a second step come after those of the first. -/
theorem outcome_bind {faults later : List ε} {a : α} {b : β} {f : α → Except ε β}
    (h : f a = outcome later b) : outcome faults a >>= f = outcome (faults ++ later) b := by
  cases faults with
  | nil => exact h
  | cons e faults => rfl

theorem mapError_outcome {ε' : Type} (f : ε → ε') (faults : List ε) (a : α) :
    (outcome faults a).mapError f = outcome (faults.map f) a := by
  cases faults <;> rfl

/-! ### Traversals -/

section Traverse

variable {f : α → Except ε β}

/-- A traversal fails when a step fails. -/
theorem mapM_error_of_mem {xs : List α} {x : α} (hx : x ∈ xs) {e : ε} (h : f x = .error e) :
    ∃ e', xs.mapM f = .error e' := by
  induction xs with
  | nil => cases hx
  | cons y ys ih =>
    rw [List.mapM_cons]
    cases hy : f y with
    | error e' => exact ⟨e', rfl⟩
    | ok b =>
      -- the step that fails is one of the others
      have hne : x ≠ y := by
        rintro rfl
        rw [h] at hy
        cases hy
      obtain ⟨e', he'⟩ := ih ((List.mem_cons.1 hx).resolve_left hne)
      exact ⟨e', by rw [he']; rfl⟩

/-- A traversal fails in its first step, or in a later one when the first does not fail. -/
theorem mapM_cons_eq_error_iff {x : α} {xs : List α} {e : ε} :
    (x :: xs).mapM f = .error e ↔
      f x = .error e ∨ (∀ e', f x ≠ .error e') ∧ xs.mapM f = .error e := by
  rw [List.mapM_cons]
  cases f x with
  | error e' =>
    change (Except.error e' : Except ε (List β)) = .error e ↔ _
    rw [Except.error.injEq, Except.error.injEq]
    exact ⟨Or.inl, fun h => h.resolve_right fun hno => hno.1 e' rfl⟩
  | ok y =>
    cases xs.mapM f with
    | error e' => exact ⟨fun h => Or.inr ⟨nofun, h⟩, fun h => (h.resolve_left nofun).2⟩
    | ok ys => exact ⟨nofun, fun h => nomatch (h.resolve_left nofun).2⟩

/-- A traversal fails with the first of its steps that fails. -/
theorem mapM_eq_error_iff {xs : List α} {e : ε} :
    xs.mapM f = .error e ↔
      ∃ before x after, xs = before ++ x :: after ∧ (∀ y ∈ before, ∃ b, f y = .ok b) ∧
        f x = .error e := by
  induction xs with
  | nil =>
    constructor
    · nofun
    · rintro ⟨before, x, after, hnil, -⟩
      cases before <;> cases hnil
  | cons x xs ih =>
    rw [mapM_cons_eq_error_iff, ih]
    constructor
    · -- the first step fails, or it succeeds and the rest fails at a later one
      rintro (hx | ⟨hno, before, y, after, rfl, hbefore, hy⟩)
      · exact ⟨[], x, xs, rfl, List.forall_mem_nil _, hx⟩
      · have hok : ∃ b, f x = .ok b := by
          cases hfx : f x with
          | ok b => exact ⟨b, rfl⟩
          | error e' => exact absurd hfx (hno e')
        exact ⟨x :: before, y, after, rfl, List.forall_mem_cons.2 ⟨hok, hbefore⟩, hy⟩
    · rintro ⟨before, y, after, hxs, hbefore, hy⟩
      cases before with
      | nil =>
        obtain ⟨rfl, rfl⟩ := List.cons.inj hxs
        exact Or.inl hy
      | cons z before =>
        obtain ⟨rfl, rfl⟩ := List.cons.inj hxs
        obtain ⟨⟨b, hb⟩, hbefore⟩ := List.forall_mem_cons.1 hbefore
        have hno : ∀ e', f x ≠ .error e' := fun e' he' => nomatch hb.symm.trans he'
        exact Or.inr ⟨hno, before, y, after, rfl, hbefore, hy⟩

/-- A loop of checks stops at the first check that fails. -/
theorem forM_eq_error_iff {f : α → Except ε Unit} {xs : List α} {e : ε} :
    xs.forM f = .error e ↔
      ∃ before x after, xs = before ++ x :: after ∧ (∀ y ∈ before, f y = .ok ()) ∧
        f x = .error e := by
  -- the loop is a traversal that forgets its results
  have hmap : ∀ ys : List α, ys.forM f = (ys.mapM f).map fun _ => () := by
    intro ys
    induction ys with
    | nil => rfl
    | cons y ys ih =>
      change (f y >>= fun _ => ys.forM f) = _
      rw [List.mapM_cons, ih]
      cases f y with
      | error e' => rfl
      | ok => cases ys.mapM f <;> rfl
  have hunit : ∀ y, (∃ u, f y = .ok u) ↔ f y = .ok () :=
    fun _ => ⟨fun ⟨_, h⟩ => h, fun h => ⟨(), h⟩⟩
  rw [hmap, map_eq_error_iff, mapM_eq_error_iff]
  simp only [hunit]

/-- Traversals whose steps fail alike fail alike. -/
theorem mapM_eq_error_congr {γ : Type} {g : α → Except ε γ} {xs : List α}
    (h : ∀ x ∈ xs, ∀ e, f x = .error e ↔ g x = .error e) (e : ε) :
    xs.mapM f = .error e ↔ xs.mapM g = .error e := by
  induction xs with
  | nil => exact ⟨nofun, nofun⟩
  | cons x xs ih =>
    rw [List.forall_mem_cons] at h
    obtain ⟨hfirst, hrest⟩ := h
    simp only [mapM_cons_eq_error_iff, ne_eq, hfirst, ih hrest]

/-- A traversal without a step that fails is a map. -/
theorem mapM_eq_ok_map {xs : List α} {g : α → β} (h : ∀ x ∈ xs, f x = .ok (g x)) :
    xs.mapM f = .ok (xs.map g) := by
  induction xs with
  | nil => rfl
  | cons x xs ih =>
    rw [List.forall_mem_cons] at h
    rw [List.mapM_cons, h.1, ih h.2]
    rfl

/-- A traversal succeeds when each of its steps does. -/
theorem exists_mapM_eq_ok_iff {xs : List α} :
    (∃ ys, xs.mapM f = .ok ys) ↔ ∀ x ∈ xs, ∃ y, f x = .ok y := by
  constructor
  · -- a step that fails would fail the traversal
    rintro ⟨ys, hys⟩ x hx
    cases hfx : f x with
    | ok y => exact ⟨y, rfl⟩
    | error e =>
      obtain ⟨e', he'⟩ := mapM_error_of_mem hx hfx
      rw [hys] at he'
      cases he'
  · intro h
    induction xs with
    | nil => exact ⟨[], rfl⟩
    | cons x xs ih =>
      rw [List.forall_mem_cons] at h
      obtain ⟨⟨y, hy⟩, hrest⟩ := h
      obtain ⟨ys, hys⟩ := ih hrest
      refine ⟨y :: ys, ?_⟩
      rw [List.mapM_cons, hy, hys]
      rfl

/-- A traversal that succeeds has the outcomes of its steps, and no others. -/
theorem mem_of_mapM_eq_ok {xs : List α} {ys : List β} (h : xs.mapM f = .ok ys) {y : β} :
    y ∈ ys ↔ ∃ x ∈ xs, f x = .ok y := by
  induction xs generalizing ys with
  | nil =>
    obtain rfl : [] = ys := Except.ok.inj h
    simp only [List.not_mem_nil, false_and, exists_false]
  | cons x xs ih =>
    rw [List.mapM_cons] at h
    obtain ⟨z, hz, hrest⟩ := bind_eq_ok_iff.1 h
    obtain ⟨zs, hzs, hys⟩ := bind_eq_ok_iff.1 hrest
    obtain rfl : z :: zs = ys := Except.ok.inj hys
    simp only [List.mem_cons, ih hzs, exists_eq_or_imp, hz, Except.ok.injEq, eq_comm (a := y)]

/-- A traversal that succeeds has the outcomes of its steps in their order. -/
theorem filterMap_toOption_of_mapM {xs : List α} {ys : List β} (h : xs.mapM f = .ok ys) :
    xs.filterMap (fun x => (f x).toOption) = ys := by
  induction xs generalizing ys with
  | nil => exact Except.ok.inj h
  | cons x xs ih =>
    rw [List.mapM_cons] at h
    obtain ⟨y, hy, hrest⟩ := bind_eq_ok_iff.1 h
    obtain ⟨zs, hzs, hys⟩ := bind_eq_ok_iff.1 hrest
    rw [List.filterMap_cons, hy, ih hzs]
    exact Except.ok.inj hys

/-- Of outcomes that may be missing, a traversal that succeeds has those that are there. -/
theorem filterMap_id_of_mapM {f : α → Except ε (Option β)} {xs : List α} {ys : List (Option β)}
    (h : xs.mapM f = .ok ys) : ys.filterMap id = xs.filterMap fun x => (f x).toOption.join := by
  rw [← filterMap_toOption_of_mapM h, List.filterMap_filterMap]
  rfl

end Traverse

end SchedulerPolicy
