import SchedulerPolicy.Command.Run

/-!
# Runs over a tree

A run over a tree in memory ends with a result or an error, and with the tree that it leaves. A
sequence fails in its first part, or in the rest of it from the tree that the first part leaves
(`RunT.run_bind_eq_error_iff`).

A run that only reads comes to a function of the tree (`RunT.Reads`), and a run that only writes has
one way to fail (`RunT.FailsByWriting`). So a run that reads everything before it writes anything
leaves the tree as it is when it fails, unless it is a write that fails (`RunT.AllOrNothing`).
-/

namespace SchedulerPolicy

namespace RunT

variable {α β : Type} {t t' u : FileTree} {x : RunT (StateM FileTree) α}
  {f : α → RunT (StateM FileTree) β}

/-! ### Sequences -/

/-- A run goes on with the result of its first part, in the tree that this part leaves. -/
theorem run_bind_of_ok {a : α} (h : x.run.run t = (.ok a, t')) :
    (x >>= f).run.run t = (f a).run.run t' := by
  rw [ExceptT.run_bind, StateT.run_bind, h]
  rfl

/-- A run ends when its first part fails. -/
theorem run_bind_of_error {e : RunError} (h : x.run.run t = (.error e, t')) :
    (x >>= f).run.run t = (.error e, t') := by
  rw [ExceptT.run_bind, StateT.run_bind, h]
  rfl

theorem run_bind_eq_ok_iff {b : β} :
    (x >>= f).run.run t = (.ok b, t') ↔
      ∃ a u, x.run.run t = (.ok a, u) ∧ (f a).run.run u = (.ok b, t') := by
  -- the first part decides: with its result the rest goes on, with an error nothing does
  rcases hx : x.run.run t with ⟨r, u⟩
  cases r with
  | error e =>
    rw [run_bind_of_error hx]
    constructor
    · intro h
      cases h
    · rintro ⟨a, u', h, -⟩
      cases h
  | ok a =>
    rw [run_bind_of_ok hx]
    constructor
    · exact fun h => ⟨a, u, rfl, h⟩
    · rintro ⟨a', u', h, hf⟩
      cases h
      exact hf

theorem run_bind_eq_error_iff {e : RunError} :
    (x >>= f).run.run t = (.error e, t') ↔
      x.run.run t = (.error e, t') ∨
        ∃ a u, x.run.run t = (.ok a, u) ∧ (f a).run.run u = (.error e, t') := by
  -- the error comes from the first part, or from the rest after a result of the first
  rcases hx : x.run.run t with ⟨r, u⟩
  cases r with
  | error e' =>
    rw [run_bind_of_error hx]
    constructor
    · intro h
      cases h
      exact Or.inl rfl
    · rintro (h | ⟨a, u', h, -⟩)
      · cases h
        rfl
      · cases h
  | ok a =>
    rw [run_bind_of_ok hx]
    constructor
    · exact fun h => Or.inr ⟨a, u, rfl, h⟩
    · rintro (h | ⟨a', u', h, hf⟩)
      · cases h
      · cases h
        exact hf

/-- An access to files is a run that does not fail. -/
theorem run_lift {x : StateM FileTree α} {a : α} (h : x.run t = (a, t')) :
    (liftM x : RunT (StateM FileTree) α).run.run t = (.ok a, t') := by
  change (fun p => ((Except.ok p.1, p.2) : Except RunError α × FileTree)) (x.run t) = _
  rw [h]

/-! ### Runs that only read -/

/-- A run comes to something that depends on the tree and leaves the tree as it is. -/
def Reads (x : RunT (StateM FileTree) α) (g : FileTree → Except RunError α) : Prop :=
  ∀ t, x.run.run t = (g t, t)

theorem reads_ofExcept (r : Except RunError α) : Reads (ofExcept r) fun _ => r := fun _ => rfl

theorem Reads.bind {g : FileTree → Except RunError α} {h : α → FileTree → Except RunError β}
    (hx : Reads x g) (hf : ∀ a, Reads (f a) (h a)) :
    Reads (x >>= f) fun t => g t >>= fun a => h a t := by
  intro t
  have hrun := hx t
  change _ = (g t >>= fun a => h a t, t)
  -- the rest starts in the tree that was there, since the first part leaves it
  cases hg : g t with
  | error e =>
    rw [hg] at hrun
    exact run_bind_of_error hrun
  | ok a =>
    rw [hg] at hrun
    exact (run_bind_of_ok hrun).trans (hf a t)

/-- The one document in what is found at a path. -/
def documentIn [Schema α] (path : String) : FileContent → Except RunError α
  | .text contents =>
    match Yaml.read? contents with
    | some x => .ok x
    | none => .error (.file (.malformed path))
  | _ => .error (.file (.unreadable path))

theorem reads_readDocument [Schema α] (path : String) :
    Reads (readDocument path : RunT (StateM FileTree) α) fun t =>
      documentIn path (t.content path) := by
  intro t
  dsimp only
  have hcontent : (FileAccess.content path : StateM FileTree FileContent).run t =
      (t.content path, t) := rfl
  refine (run_bind_of_ok (run_lift hcontent)).trans ?_
  unfold documentIn
  cases t.content path with
  | text contents =>
    dsimp only
    cases (Yaml.read? contents : Option α) <;> rfl
  | absent => rfl
  | unreadable => rfl

/-- The resources in what is found at a path. -/
def resourcesIn (root : String) : Option FileTree → Except RunError ResourceSet
  | none => .error (.file (.noTree root))
  | some u => (ResourceSet.ofTree root u).mapError .file

theorem reads_loadResources (root : String) :
    Reads (loadResources root) fun t => resourcesIn root (t.find? root) := by
  intro t
  dsimp only
  have htree : (FileAccess.tree? root : StateM FileTree (Option FileTree)).run t =
      (t.find? root, t) := rfl
  refine (run_bind_of_ok (run_lift htree)).trans ?_
  cases t.find? root <;> rfl

theorem resourcesIn_of_ofTree {root : String} {found : Option FileTree} {set : ResourceSet}
    (hfound : found = some u) (hset : ResourceSet.ofTree root u = .ok set) :
    resourcesIn root found = .ok set := by
  rw [hfound]
  change (ResourceSet.ofTree root u).mapError RunError.file = _
  rw [hset]
  rfl

theorem run_loadResources {root : String} {set : ResourceSet} (hfind : t.find? root = some u)
    (hset : ResourceSet.ofTree root u = .ok set) :
    (loadResources root : RunT (StateM FileTree) ResourceSet).run.run t = (.ok set, t) :=
  (reads_loadResources root t).trans (Prod.ext (resourcesIn_of_ofTree hfind hset) rfl)

/-! ### Runs that only write -/

theorem run_writeFile {path contents : String} (h : t.write? path contents = some t') :
    (writeFile path contents : RunT (StateM FileTree) Unit).run.run t = (.ok (), t') := by
  have hwrite : (FileAccess.write path contents : StateM FileTree Bool).run t = (true, t') := by
    unfold FileAccess.write instFileAccessStateMFileTree
    -- the tree is the state, and a write that succeeds replaces it
    rw [StateT.run_bind, StateT.run_get, pure_bind]
    dsimp only
    rw [h]
    rfl
  exact run_bind_of_ok (run_lift hwrite)

theorem run_writeFile_of_none {path contents : String} (h : t.write? path contents = none) :
    (writeFile path contents : RunT (StateM FileTree) Unit).run.run t =
      (.error (.file (.unwritable path)), t) := by
  have hwrite : (FileAccess.write path contents : StateM FileTree Bool).run t = (false, t) := by
    unfold FileAccess.write instFileAccessStateMFileTree
    -- a write that fails does not touch the state
    rw [StateT.run_bind, StateT.run_get, pure_bind]
    dsimp only
    rw [h]
    rfl
  exact run_bind_of_ok (run_lift hwrite)

end RunT

/-- Whether the cause of a failure is a file that cannot be written. -/
def RunError.OfWrite (e : RunError) : Prop := ∃ path, e = .file (.unwritable path)

namespace RunT

/-- A run fails when it writes, or not at all. -/
def FailsByWriting (x : RunT (StateM FileTree) α) : Prop :=
  ∀ t e t', x.run.run t = (.error e, t') → e.OfWrite

theorem failsByWriting_pure (a : α) : FailsByWriting (pure a) := by
  intro t e t' h
  cases h

theorem FailsByWriting.bind (hx : FailsByWriting x) (hf : ∀ a, FailsByWriting (f a)) :
    FailsByWriting (x >>= f) := by
  intro t e t' h
  rcases run_bind_eq_error_iff.1 h with h | ⟨a, u, -, h⟩
  · exact hx t e t' h
  · exact hf a u e t' h

theorem failsByWriting_writeFile (path contents : String) :
    FailsByWriting (writeFile path contents) := by
  intro t e t' h
  cases hwrite : t.write? path contents with
  | some u =>
    rw [run_writeFile hwrite] at h
    cases h
  | none =>
    rw [run_writeFile_of_none hwrite] at h
    cases h
    exact ⟨path, rfl⟩

theorem failsByWriting_writeFiles (files : List (String × String)) :
    FailsByWriting (writeFiles files) := by
  induction files with
  | nil => exact failsByWriting_pure ()
  | cons file rest ih => exact (failsByWriting_writeFile file.1 file.2).bind fun _ => ih

/-! ### All or nothing -/

/-- Unless it is a write that fails, a run that fails leaves the tree as it is. -/
def AllOrNothing (x : RunT (StateM FileTree) α) : Prop :=
  ∀ t e t', x.run.run t = (.error e, t') → ¬ e.OfWrite → t' = t

theorem FailsByWriting.allOrNothing (h : FailsByWriting x) : AllOrNothing x :=
  fun t e t' hrun hcause => absurd (h t e t' hrun) hcause

/-- Before the first write nothing is lost. -/
theorem Reads.bind_allOrNothing {g : FileTree → Except RunError α} (hx : Reads x g)
    (hf : ∀ a, AllOrNothing (f a)) : AllOrNothing (x >>= f) := by
  intro t e t' h hcause
  -- up to the write the tree is that of the start, so the rest is what may lose something
  rcases run_bind_eq_error_iff.1 h with h | ⟨a, u, hread, h⟩
  · rw [hx t] at h
    exact (Prod.mk.inj h).2.symm
  · rw [hx t] at hread
    rw [(Prod.mk.inj hread).2]
    exact hf a u e t' h hcause

end RunT

end SchedulerPolicy
