import SchedulerPolicy.Decimal.Double

/-!
# Values

The value that a piece of YAML, JSON or TOML stands for once its notation is forgotten. The schema
reads its types from values and writes them as values, and whatever the schema does not know (the
further keys of a job, say) stays a value.

A mapping keeps its entries in the order in which they were written, because that is the order in
which they are shown again; but two mappings are the same value when each entry of either is an
entry of the other (`agrees`), whatever their order. On mappings whose keys are distinct, which is
what every reader produces, this is equality as finite maps.
-/

namespace SchedulerPolicy

/-- A value without notation. `tagged` carries an application tag such as `!secret`. -/
inductive Value where
  | null
  | bool (b : Bool)
  | int (n : Int)
  | float (x : Double)
  | string (s : String)
  | seq (items : List Value)
  | map (entries : List (Value × Value))
  | tagged (tag : String) (value : Value)

namespace Value

instance : Inhabited Value := ⟨.null⟩

mutual

/-- Whether two values are the same: scalars of one kind that agree, sequences item by item,
mappings with the same entries in any order. -/
def agrees : Value → Value → Bool
  | .null, .null => true
  | .bool a, .bool b => a == b
  | .int a, .int b => a == b
  | .float a, .float b => a.agrees b
  | .string a, .string b => a == b
  | .seq as, .seq bs => itemsAgree as bs
  | .map as, .map bs => entriesWithin as bs && bs.all fun b => entryAmong as b.1 b.2
  | .tagged s a, .tagged t b => s == t && agrees a b
  | _, _ => false
termination_by structural a => a

/-- Whether two sequences agree item by item. -/
def itemsAgree : List Value → List Value → Bool
  | [], [] => true
  | a :: as, b :: bs => agrees a b && itemsAgree as bs
  | _, _ => false
termination_by structural as => as

/-- Whether every entry of the first list is an entry of the second. -/
def entriesWithin : List (Value × Value) → List (Value × Value) → Bool
  | [], _ => true
  | (k, v) :: rest, bs => (bs.any fun b => agrees k b.1 && agrees v b.2) && entriesWithin rest bs
termination_by structural as => as

/-- Whether a list has an entry with this key and this value. -/
def entryAmong : List (Value × Value) → Value → Value → Bool
  | [], _, _ => false
  | (k, v) :: rest, key, value => (agrees k key && agrees v value) || entryAmong rest key value
termination_by structural as => as

end

instance : BEq Value := ⟨agrees⟩

/-- The value behind its tags. -/
def untag : Value → Value
  | .tagged _ v => v.untag
  | v => v

/-- The value of a mapping under a text key; tags in front of the mapping are passed over. -/
def get? (v : Value) (key : String) : Option Value :=
  match v.untag with
  | .map entries => (entries.find? fun e => e.1 == .string key).map (·.2)
  | _ => none

/-- The text of a text value; tags are passed over. -/
def text? (v : Value) : Option String :=
  match v.untag with
  | .string s => some s
  | _ => none

mutual

/-- Whether no part of a value carries a tag. -/
def isTagFree : Value → Bool
  | .seq items => itemsTagFree items
  | .map entries => entriesTagFree entries
  | .tagged .. => false
  | _ => true
termination_by structural v => v

/-- Whether no item carries a tag. -/
def itemsTagFree : List Value → Bool
  | [] => true
  | v :: rest => isTagFree v && itemsTagFree rest
termination_by structural vs => vs

/-- Whether no key and no value carries a tag. -/
def entriesTagFree : List (Value × Value) → Bool
  | [] => true
  | (k, v) :: rest => isTagFree k && isTagFree v && entriesTagFree rest
termination_by structural es => es

end

mutual

/-- Whether no mapping inside a value has two entries under one key. -/
def hasDistinctKeys : Value → Bool
  | .seq items => itemsDistinct items
  | .map entries => entriesDistinct entries
  | .tagged _ v => hasDistinctKeys v
  | _ => true
termination_by structural v => v

/-- `hasDistinctKeys` of every item. -/
def itemsDistinct : List Value → Bool
  | [] => true
  | v :: rest => hasDistinctKeys v && itemsDistinct rest
termination_by structural vs => vs

/-- Whether the keys of a mapping are distinct, and those of the mappings inside it. -/
def entriesDistinct : List (Value × Value) → Bool
  | [] => true
  | (k, v) :: rest =>
    !(rest.any fun e => agrees k e.1) && hasDistinctKeys k && hasDistinctKeys v &&
      entriesDistinct rest
termination_by structural es => es

end

/-- A mapping from texts. -/
def record (entries : List (String × Value)) : Value :=
  .map (entries.map fun e => (.string e.1, e.2))

/-! ### Agreement is reflexive -/

mutual

theorem agrees_refl : ∀ v : Value, agrees v v = true
  | .null | .bool _ | .int _ | .string _ => by simp [agrees]
  | .float x => by simp [agrees, Double.agrees_refl]
  | .seq items => by simp [agrees, itemsAgree_refl items]
  | .map entries => by
    simp only [agrees, Bool.and_eq_true, List.all_eq_true]
    exact ⟨entriesWithin_of_subset entries entries fun e he => he,
      fun b hb => entryAmong_of_mem entries b.1 b.2 hb⟩
  | .tagged _ v => by simp [agrees, agrees_refl v]

theorem itemsAgree_refl : ∀ vs : List Value, itemsAgree vs vs = true
  | [] => rfl
  | v :: rest => by simp [itemsAgree, agrees_refl v, itemsAgree_refl rest]

theorem entriesWithin_of_subset : ∀ as bs : List (Value × Value), (∀ e ∈ as, e ∈ bs) →
    entriesWithin as bs = true
  | [], _, _ => rfl
  | (k, v) :: rest, bs, h => by
    simp only [entriesWithin, Bool.and_eq_true, List.any_eq_true]
    exact ⟨⟨(k, v), h _ List.mem_cons_self, by simp [agrees_refl k, agrees_refl v]⟩,
      entriesWithin_of_subset rest bs fun e he => h e (List.mem_cons_of_mem _ he)⟩

theorem entryAmong_of_mem : ∀ (as : List (Value × Value)) (k v : Value), (k, v) ∈ as →
    entryAmong as k v = true
  | [], _, _, h => by simp at h
  | (k', v') :: rest, k, v, h => by
    simp only [entryAmong, Bool.or_eq_true, Bool.and_eq_true]
    rcases List.mem_cons.1 h with heq | hmem
    · simp only [Prod.mk.injEq] at heq
      exact .inl ⟨heq.1 ▸ agrees_refl k', heq.2 ▸ agrees_refl v'⟩
    · exact .inr (entryAmong_of_mem rest k v hmem)

end

end Value

end SchedulerPolicy
