import SchedulerPolicy.Proofs.Merge.AppendNew

/-!
# Pools

Queries with one search share an entry, and so do welcome messages with one text. In both cases an
entry is a label with a list of repositories, and a newcomer either finds an entry of its label,
whose list then takes the repositories it lacks, or becomes an entry of its own at the end. `pool`
is that operation on pairs, and `Query.pooled` shows a query as such a pair.

What a pool holds can be said without running it. Its labels are those that were there, then the new
ones in the order in which they come up (`labels_poolAll`). A label has what all its entries list,
the first of them as it is (`lookup_poolAll`); where a label stood twice to begin with, nothing
joins the second entry (`getElem?_of_poolAll`).

The laws are those of `appendNew` once more: labels stay distinct (`nodup_labels_poolAll`), and
pooling is associative (`poolAll_assoc`) as long as the labels of the middle list are distinct. With
a label twice in the middle list it is not: pooling to the left merges the two entries, and pooling
to the right keeps them. Entries that are there already add nothing when they are pooled again
(`poolAll_poolAll_self`).
-/

namespace SchedulerPolicy

variable {κ : Type} [BEq κ]

/-- Adds an entry to a list: its repositories join the first entry with its label, and without one
it becomes an entry of its own. -/
def pool : List (κ × List String) → κ × List String → List (κ × List String)
  | [], q => [q]
  | p :: rest, q =>
    if p.1 == q.1 then (p.1, appendMissing p.2 q.2) :: rest else p :: pool rest q

/-- Adds entries one after the other. -/
def poolAll (own donor : List (κ × List String)) : List (κ × List String) := donor.foldl pool own

/-- The labels of a list of entries. -/
def labels (es : List (κ × List String)) : List κ := es.map (·.1)

theorem poolAll_cons (own donor : List (κ × List String)) (q : κ × List String) :
    poolAll own (q :: donor) = poolAll (pool own q) donor := rfl

/-- Entries that add nothing one by one add nothing. -/
theorem poolAll_of_idle {own donor : List (κ × List String)}
    (h : ∀ q ∈ donor, pool own q = own) : poolAll own donor = own := by
  induction donor with
  | nil => rfl
  | cons q donor ih =>
    rw [List.forall_mem_cons] at h
    rw [poolAll_cons, h.1, ih h.2]

variable [LawfulBEq κ]

theorem pool_cons_of_eq {p q : κ × List String} (h : p.1 = q.1) (rest : List (κ × List String)) :
    pool (p :: rest) q = (p.1, appendMissing p.2 q.2) :: rest := by
  rw [pool, if_pos (beq_iff_eq.2 h)]

theorem pool_cons_of_ne {p q : κ × List String} (h : p.1 ≠ q.1) (rest : List (κ × List String)) :
    pool (p :: rest) q = p :: pool rest q := by
  rw [pool, if_neg fun hb => h (beq_iff_eq.1 hb)]

/-- The labels grow as lists do. -/
theorem labels_pool (es : List (κ × List String)) (q : κ × List String) :
    labels (pool es q) = addNew id (labels es) q.1 := by
  induction es with
  | nil => rfl
  | cons p rest ih =>
    by_cases h : p.1 = q.1
    · -- the repositories of `p` grow, its label stays
      rw [pool_cons_of_eq h, addNew_of_mem (by simp [labels, h])]
      rfl
    · rw [pool_cons_of_ne h]
      change p.1 :: labels (pool rest q) = addNew id (p.1 :: labels rest) q.1
      rw [ih]
      by_cases hq : q.1 ∈ labels rest
      · rw [addNew_of_mem (by simpa using hq), addNew_of_mem (by simp [hq])]
      · rw [addNew_of_not_mem (by simpa using hq), addNew_of_not_mem (by simp [hq, Ne.symm h]),
          List.cons_append]

theorem labels_poolAll (own donor : List (κ × List String)) :
    labels (poolAll own donor) = appendNew id (labels own) (labels donor) := by
  induction donor generalizing own with
  | nil => rfl
  | cons q donor ih =>
    rw [poolAll_cons, ih, labels_pool]
    rfl

/-- Distinct labels stay distinct. -/
theorem nodup_labels_poolAll {own donor : List (κ × List String)} (h : (labels own).Nodup) :
    (labels (poolAll own donor)).Nodup := by
  rw [labels_poolAll]
  exact nodup_appendNew h

/-! ### What a pool holds -/

/-- What a label has after an entry was added. -/
theorem lookup_pool (es : List (κ × List String)) (q : κ × List String) (x : κ) :
    (pool es q).lookup x =
      if q.1 == x then some ((es.lookup x).elim q.2 (appendMissing · q.2)) else es.lookup x := by
  induction es with
  | nil =>
    rw [pool, List.lookup_cons, List.lookup_nil, BEq.comm]
    cases q.1 == x <;> rfl
  | cons p rest ih =>
    by_cases hp : p.1 = q.1
    · rw [pool_cons_of_eq hp, List.lookup_cons, List.lookup_cons, BEq.comm, hp]
      cases q.1 == x <;> rfl
    · rw [pool_cons_of_ne hp, List.lookup_cons, List.lookup_cons, ih]
      cases hx : x == p.1 with
      | false => rfl
      | true =>
        -- the label of the first entry is not that of the newcomer
        have hne : q.1 ≠ x := fun h => hp ((beq_iff_eq.1 hx).symm.trans h.symm)
        rw [beq_false_of_ne hne]
        rfl

/-- **What a label has in a pool**: the lists of all its entries, the first of them as it is and
from the others what is missing. -/
theorem lookup_poolAll (own donor : List (κ × List String)) (x : κ) :
    (poolAll own donor).lookup x =
      match (own.lookup x).toList ++ (donor.filter (·.1 == x)).map (·.2) with
      | [] => none
      | first :: others => some (appendNew id first others.flatten) := by
  induction donor generalizing own with
  | nil =>
    change own.lookup x = _
    rw [List.filter_nil, List.map_nil, List.append_nil]
    cases own.lookup x <;> rfl
  | cons q donor ih =>
    rw [poolAll_cons, ih, lookup_pool, List.filter_cons]
    cases q.1 == x with
    | false => rfl
    | true =>
      cases own.lookup x with
      | none => rfl
      | some repos =>
        change some (appendNew id (appendMissing repos q.2) _) =
          some (appendNew id repos (q.2 ++ _))
        rw [appendNew_append, appendMissing_eq_appendNew]
        rfl

/-- An entry with another label than the newcomer stands where it stood. -/
theorem getElem?_of_pool_of_ne {es : List (κ × List String)} {q e : κ × List String} {i : Nat}
    (h : (pool es q)[i]? = some e) (hne : e.1 ≠ q.1) : es[i]? = some e := by
  induction es generalizing i with
  | nil =>
    have heq : e = q := List.mem_singleton.1 (List.mem_of_getElem? h)
    exact absurd (congrArg Prod.fst heq) hne
  | cons p rest ih =>
    by_cases hp : p.1 = q.1
    · rw [pool_cons_of_eq hp] at h
      cases i with
      | zero =>
        obtain rfl := Option.some.inj h
        exact absurd hp hne
      | succ i => exact h
    · rw [pool_cons_of_ne hp] at h
      cases i with
      | zero => exact h
      | succ i => exact ih h

/-- An entry whose label came up before it stands where it stood. -/
theorem getElem?_of_pool {es : List (κ × List String)} {q e : κ × List String} {i : Nat}
    (h : (pool es q)[i]? = some e) (hagain : e.1 ∈ labels ((pool es q).take i)) :
    es[i]? = some e ∧ e.1 ∈ labels (es.take i) := by
  induction es generalizing i with
  | nil =>
    cases i with
    | zero => cases hagain
    | succ i => cases h
  | cons p rest ih =>
    cases i with
    | zero => cases hagain
    | succ i =>
      by_cases hp : p.1 = q.1
      · rw [pool_cons_of_eq hp] at h hagain
        exact ⟨h, hagain⟩
      · rw [pool_cons_of_ne hp] at h hagain
        change e.1 ∈ p.1 :: labels ((pool rest q).take i) at hagain
        change rest[i]? = some e ∧ e.1 ∈ p.1 :: labels (rest.take i)
        rw [List.mem_cons] at hagain ⊢
        rcases hagain with hfirst | hagain
        · -- it has the label of the first entry, which the newcomer passes by
          exact ⟨getElem?_of_pool_of_ne h fun heq => hp (hfirst.symm.trans heq), Or.inl hfirst⟩
        · obtain ⟨hrest, hmem⟩ := ih h hagain
          exact ⟨hrest, Or.inr hmem⟩

/-- **Entries whose label came up before them are left alone.** -/
theorem getElem?_of_poolAll {own donor : List (κ × List String)} {e : κ × List String} {i : Nat}
    (h : (poolAll own donor)[i]? = some e) (hagain : e.1 ∈ labels ((poolAll own donor).take i)) :
    own[i]? = some e ∧ e.1 ∈ labels (own.take i) := by
  induction donor generalizing own with
  | nil => exact ⟨h, hagain⟩
  | cons q donor ih =>
    obtain ⟨h, hagain⟩ := ih h hagain
    exact getElem?_of_pool h hagain

/-! ### Associativity -/

/-- Two entries of one label may be joined before they are added. -/
theorem pool_pool_of_eq {p q : κ × List String} (h : p.1 = q.1) (es : List (κ × List String)) :
    pool (pool es p) q = pool es (p.1, appendMissing p.2 q.2) := by
  induction es with
  | nil => exact pool_cons_of_eq h []
  | cons e rest ih =>
    by_cases he : e.1 = p.1
    · -- both join `e`, one after the other or together
      have heq : (e.1, appendMissing e.2 p.2).1 = q.1 := he.trans h
      have he' : e.1 = (p.1, appendMissing p.2 q.2).1 := he
      rw [pool_cons_of_eq he, pool_cons_of_eq heq, pool_cons_of_eq he']
      simp only [appendMissing_eq_appendNew, appendNew_assoc]
    · have hne : e.1 ≠ q.1 := fun heq => he (heq.trans h.symm)
      have he' : e.1 ≠ (p.1, appendMissing p.2 q.2).1 := he
      rw [pool_cons_of_ne he, pool_cons_of_ne hne, ih, pool_cons_of_ne he']

/-- Entries of different labels may be exchanged when one of the labels has an entry already. -/
theorem pool_comm {x q : κ × List String} (hne : x.1 ≠ q.1) {es : List (κ × List String)}
    (hq : q.1 ∈ labels es) : pool (pool es x) q = pool (pool es q) x := by
  induction es with
  | nil => cases hq
  | cons e rest ih =>
    -- `e` is met by `x`, by `q`, or by neither; by both it cannot be
    by_cases hx : e.1 = x.1
    · have heq : e.1 ≠ q.1 := fun h => hne (hx.symm.trans h)
      have heq' : (e.1, appendMissing e.2 x.2).1 ≠ q.1 := heq
      rw [pool_cons_of_eq hx, pool_cons_of_ne heq', pool_cons_of_ne heq, pool_cons_of_eq hx]
    · by_cases heq : e.1 = q.1
      · have hx' : (e.1, appendMissing e.2 q.2).1 ≠ x.1 := hx
        rw [pool_cons_of_ne hx, pool_cons_of_eq heq, pool_cons_of_eq heq, pool_cons_of_ne hx']
      · have hq' : q.1 ∈ labels rest := (List.mem_cons.1 hq).resolve_left (Ne.symm heq)
        rw [pool_cons_of_ne hx, pool_cons_of_ne heq, pool_cons_of_ne heq, pool_cons_of_ne hx,
          ih hq']

/-- An entry of a label that is present already may be added before others of other labels. -/
theorem pool_poolAll {q : κ × List String} {own donor : List (κ × List String)}
    (hown : q.1 ∈ labels own) (hdonor : q.1 ∉ labels donor) :
    pool (poolAll own donor) q = poolAll (pool own q) donor := by
  induction donor generalizing own with
  | nil => rfl
  | cons x donor ih =>
    have hne : x.1 ≠ q.1 := fun h => hdonor (h ▸ List.mem_cons_self)
    -- the label of `q` is still there once `x` is in
    have hmem : q.1 ∈ labels (pool own x) := by
      rw [labels_pool, mem_addNew]
      exact Or.inl hown
    rw [poolAll_cons, poolAll_cons, ih hmem fun h => hdonor (List.mem_cons_of_mem _ h),
      pool_comm hne hown]

/-- Adding an entry to a pool is pooling with the entry added, when labels are distinct. -/
theorem pool_poolAll_of_nodup {own donor : List (κ × List String)} (h : (labels donor).Nodup)
    (q : κ × List String) : pool (poolAll own donor) q = poolAll own (pool donor q) := by
  induction donor generalizing own with
  | nil => rfl
  | cons p donor ih =>
    obtain ⟨hp, hdonor⟩ := List.nodup_cons.1 h
    by_cases heq : p.1 = q.1
    · -- the newcomer meets `p`, and no later entry has its label
      have hmem : q.1 ∈ labels (pool own p) := by
        rw [labels_pool, mem_addNew]
        exact Or.inr heq.symm
      rw [poolAll_cons, pool_poolAll hmem (heq ▸ hp), pool_pool_of_eq heq, pool_cons_of_eq heq,
        poolAll_cons]
    · -- the newcomer passes `p` by
      rw [poolAll_cons, ih hdonor, pool_cons_of_ne heq, poolAll_cons]

/-- **Pooling is associative** when the labels in the middle are distinct. -/
theorem poolAll_assoc {b : List (κ × List String)} (h : (labels b).Nodup)
    (a c : List (κ × List String)) : poolAll (poolAll a b) c = poolAll a (poolAll b c) := by
  -- the entries of `c` move into `b`, whose labels stay distinct
  induction c generalizing b with
  | nil => rfl
  | cons q c ih =>
    have hnodup : (labels (poolAll b [q])).Nodup := nodup_labels_poolAll h
    rw [poolAll_cons, poolAll_cons, pool_poolAll_of_nodup h]
    exact ih hnodup

/-! ### Entries that add nothing -/

/-- An entry that adds nothing to a pool adds nothing to it later on. -/
theorem pool_pool_of_idle {es : List (κ × List String)} {q : κ × List String}
    (h : pool es q = es) (x : κ × List String) : pool (pool es x) q = pool es x := by
  induction es with
  | nil => cases h
  | cons e rest ih =>
    by_cases hq : e.1 = q.1
    · -- the repositories of `q` stand in `e`, and those of `x` at most come behind them
      rw [pool_cons_of_eq hq, List.cons.injEq] at h
      have hrepos : appendNew id e.2 q.2 = e.2 := by
        rw [← appendMissing_eq_appendNew]
        exact congrArg Prod.snd h.1
      have hsubset : ∀ r ∈ q.2, r ∈ e.2 := fun r hr => hrepos ▸ mem_appendNew.2 (Or.inr hr)
      by_cases hx : e.1 = x.1
      · have hq' : (e.1, appendMissing e.2 x.2).1 = q.1 := hq
        rw [pool_cons_of_eq hx, pool_cons_of_eq hq']
        simp only [appendMissing_eq_appendNew]
        rw [appendNew_of_keys_subset fun r hr => ?_]
        rw [List.map_id]
        exact mem_appendNew.2 (Or.inl (hsubset r hr))
      · rw [pool_cons_of_ne hx, pool_cons_of_eq hq, h.1]
    · rw [pool_cons_of_ne hq, List.cons.injEq] at h
      by_cases hx : e.1 = x.1
      · have hq' : (e.1, appendMissing e.2 x.2).1 ≠ q.1 := hq
        rw [pool_cons_of_eq hx, pool_cons_of_ne hq', h.2]
      · rw [pool_cons_of_ne hx, pool_cons_of_ne hq, ih h.2]

theorem pool_poolAll_of_idle {own : List (κ × List String)} {q : κ × List String}
    (h : pool own q = own) (donor : List (κ × List String)) :
    pool (poolAll own donor) q = poolAll own donor := by
  induction donor generalizing own with
  | nil => exact h
  | cons x donor ih => exact ih (pool_pool_of_idle h x)

/-- An entry of a pool with distinct labels adds nothing to the pool. -/
theorem pool_of_mem {es : List (κ × List String)} (h : (labels es).Nodup) {q : κ × List String}
    (hq : q ∈ es) : pool es q = es := by
  induction es with
  | nil => cases hq
  | cons e rest ih =>
    obtain ⟨he, hrest⟩ := List.nodup_cons.1 h
    rcases List.mem_cons.1 hq with rfl | hq
    · have hself : appendNew id q.2 q.2 = q.2 :=
        appendNew_of_keys_subset fun r hr => by rwa [List.map_id]
      rw [pool_cons_of_eq rfl, appendMissing_eq_appendNew, hself]
    · -- the label of a later entry is not that of the first
      have hne : e.1 ≠ q.1 := fun heq => he (List.mem_map.2 ⟨q, hq, heq.symm⟩)
      rw [pool_cons_of_ne hne, ih hrest hq]

/-- **Pooling once more adds nothing**, whatever was pooled in between. -/
theorem poolAll_poolAll_self {own : List (κ × List String)} (h : (labels own).Nodup)
    (donor : List (κ × List String)) :
    poolAll (poolAll own donor) own = poolAll own donor :=
  poolAll_of_idle fun _ hq => pool_poolAll_of_idle (pool_of_mem h hq) donor

/-! ### Queries -/

namespace Query

/-- A query as an entry: its label is its search. -/
def pooled (q : Query) : Query × List String := (q.search, q.repos)

theorem pooled_injective {p q : Query} (h : p.pooled = q.pooled) : p = q := by
  obtain ⟨hsearch, hrepos⟩ := Prod.mk.inj h
  cases p
  cases q
  simp only [search, mk.injEq, true_and] at hsearch hrepos ⊢
  exact ⟨hrepos, hsearch⟩

theorem map_pooled_injective {ps qs : List Query} (h : ps.map pooled = qs.map pooled) : ps = qs :=
  (List.map_inj_right fun _ _ => pooled_injective).1 h

theorem sameSearch_iff {p q : Query} : p.sameSearch q = true ↔ p.search = q.search := beq_iff_eq

end Query

theorem map_pooled_foldQuery (qs : List Query) (q : Query) :
    (foldQuery qs q).map Query.pooled = pool (qs.map Query.pooled) q.pooled := by
  induction qs with
  | nil => rfl
  | cons p rest ih =>
    by_cases h : p.search = q.search
    · have h' : p.pooled.1 = q.pooled.1 := h
      rw [foldQuery, if_pos (Query.sameSearch_iff.2 h), List.map_cons, List.map_cons,
        pool_cons_of_eq h']
      rfl
    · have h' : p.pooled.1 ≠ q.pooled.1 := h
      rw [foldQuery, if_neg fun hb => h (Query.sameSearch_iff.1 hb), List.map_cons, List.map_cons,
        pool_cons_of_ne h', ih]

theorem map_pooled_foldl_foldQuery (own donor : List Query) :
    (donor.foldl foldQuery own).map Query.pooled =
      poolAll (own.map Query.pooled) (donor.map Query.pooled) := by
  induction donor generalizing own with
  | nil => rfl
  | cons q donor ih =>
    rw [List.foldl_cons, ih, map_pooled_foldQuery]
    rfl

end SchedulerPolicy
