import SchedulerPolicy.Fragment.Job

/-!
# Lists that scopes share

A list in a fragment is usually extended by the scopes below it. When its `replace` flag is set it
cuts them off instead. Two kinds of list are extended in two ways: the items of a `ReplaceList` are
matched as a whole, the jobs of a `JobSet` by name.
-/

namespace SchedulerPolicy

/-- An ordered list whose items replace, rather than precede, those of lower scopes when `replace`
is set. -/
structure ReplaceList (α : Type) where
  items : List α := []
  replace : Bool := false
deriving DecidableEq, Inhabited

/-- The names of the fields that both kinds of list have. -/
def listFieldNames : List String := ["items", "replace"]

instance {α : Type} [Schema α] : Schema (ReplaceList α) where
  read x := do
    let fs ← Fields.ofReadable listFieldNames x
    return { items := ← fs.getD "items" [], replace := ← fs.getD "replace" false }
  write l := .record <| field "items" l.items ++ fieldUnless "replace" (!l.replace) l.replace

/-- An ordered list of jobs, with the same flag. -/
structure JobSet where
  items : List Job := []
  replace : Bool := false
deriving BEq, Inhabited

namespace JobSet

/-- The jobs called `name`. -/
def named (s : JobSet) (name : String) : List Job := s.items.filter (·.name == name)

/-- The names of the jobs, in order. -/
def names (s : JobSet) : List String := s.items.map (·.name)

instance : Schema JobSet where
  read x := do
    let fs ← Fields.ofReadable listFieldNames x
    return { items := ← fs.getD "items" [], replace := ← fs.getD "replace" false }
  write s := .record <| field "items" s.items ++ fieldUnless "replace" (!s.replace) s.replace

end JobSet

end SchedulerPolicy
