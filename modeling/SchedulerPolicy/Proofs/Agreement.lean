import SchedulerPolicy.Fragment.Job

/-!
# Agreement is an equivalence

Jobs are compared by content, and the content of a job includes values of which the order of
mappings does not count. This is not equality, and whether a name is defined in several ways depends
on it being an equivalence all the same: of many definitions each is compared with the first only.

The proofs go by induction on what a value is made of (`Value.induction_parts`). For mappings the
two halves of the comparison say that each entry has a partner on the other side
(`Value.agrees_map_iff`); from values it carries over to lists of entries, and to jobs field by
field.
-/

namespace SchedulerPolicy

namespace Value

/-! ### Induction -/

/-- The values that a value is made of. -/
def parts : Value → List Value
  | .seq items => items
  | .map entries => entries.map (·.1) ++ entries.map (·.2)
  | .tagged _ v => [v]
  | _ => []

theorem sizeOf_lt_of_mem_parts {v part : Value} (h : part ∈ v.parts) : sizeOf part < sizeOf v := by
  cases v with
  | seq items =>
    have hlt := List.sizeOf_lt_of_mem (show part ∈ items from h)
    simp only [seq.sizeOf_spec]
    omega
  | map entries =>
    -- a part of a mapping is the key or the value of an entry
    have hentry : ∃ e ∈ entries, part = e.1 ∨ part = e.2 := by
      rcases List.mem_append.1 h with h | h
      · obtain ⟨e, he, rfl⟩ := List.mem_map.1 h
        exact ⟨e, he, Or.inl rfl⟩
      · obtain ⟨e, he, rfl⟩ := List.mem_map.1 h
        exact ⟨e, he, Or.inr rfl⟩
    obtain ⟨⟨k, w⟩, he, hpart⟩ := hentry
    have hlt := List.sizeOf_lt_of_mem he
    simp only [Prod.mk.sizeOf_spec] at hlt
    simp only [map.sizeOf_spec]
    rcases hpart with rfl | rfl
    · omega
    · omega
  | tagged tag w =>
    obtain rfl := List.mem_singleton.1 h
    simp only [tagged.sizeOf_spec]
    omega
  | _ => cases h

/-- What passes from the parts of values to the values holds of all values. -/
theorem induction_parts {P : Value → Prop} (step : ∀ v, (∀ part ∈ v.parts, P part) → P v)
    (v : Value) : P v :=
  step v fun part _ => induction_parts step part
termination_by v
decreasing_by exact sizeOf_lt_of_mem_parts ‹_›

theorem fst_mem_parts {entries : List (Value × Value)} {e : Value × Value} (h : e ∈ entries) :
    e.1 ∈ (map entries).parts :=
  List.mem_append.2 (Or.inl (List.mem_map.2 ⟨e, h, rfl⟩))

theorem snd_mem_parts {entries : List (Value × Value)} {e : Value × Value} (h : e ∈ entries) :
    e.2 ∈ (map entries).parts :=
  List.mem_append.2 (Or.inr (List.mem_map.2 ⟨e, h, rfl⟩))

/-! ### Entries -/

/-- Two entries agree in key and value. -/
def EntriesAgree (a b : Value × Value) : Prop := agrees a.1 b.1 = true ∧ agrees a.2 b.2 = true

theorem entriesWithin_iff {as bs : List (Value × Value)} :
    entriesWithin as bs = true ↔ ∀ a ∈ as, ∃ b ∈ bs, EntriesAgree a b := by
  induction as with
  | nil => simp [entriesWithin]
  | cons a as ih =>
    rw [entriesWithin, Bool.and_eq_true, ih, List.forall_mem_cons, List.any_eq_true]
    simp only [Bool.and_eq_true, EntriesAgree]

theorem entryAmong_iff {as : List (Value × Value)} {b : Value × Value} :
    entryAmong as b.1 b.2 = true ↔ ∃ a ∈ as, EntriesAgree a b := by
  induction as with
  | nil => simp [entryAmong]
  | cons a as ih =>
    rw [entryAmong, Bool.or_eq_true, ih, Bool.and_eq_true]
    simp only [List.mem_cons, exists_eq_or_imp, EntriesAgree]

/-- Mappings agree when each entry of either has a partner in the other. -/
theorem agrees_map_iff {as bs : List (Value × Value)} :
    agrees (.map as) (.map bs) = true ↔
      (∀ a ∈ as, ∃ b ∈ bs, EntriesAgree a b) ∧ ∀ b ∈ bs, ∃ a ∈ as, EntriesAgree a b := by
  rw [agrees, Bool.and_eq_true, entriesWithin_iff, List.all_eq_true]
  simp only [entryAmong_iff]

/-! ### Symmetry and transitivity -/

theorem itemsAgree_symm {as : List Value}
    (h : ∀ a ∈ as, ∀ w, agrees a w = true → agrees w a = true) {bs : List Value}
    (hab : itemsAgree as bs = true) : itemsAgree bs as = true := by
  induction as generalizing bs with
  | nil =>
    cases bs with
    | nil => rfl
    | cons b bs => cases hab
  | cons a as ih =>
    cases bs with
    | nil => cases hab
    | cons b bs =>
      rw [List.forall_mem_cons] at h
      rw [itemsAgree, Bool.and_eq_true] at hab ⊢
      exact ⟨h.1 b hab.1, ih h.2 hab.2⟩

theorem itemsAgree_trans {as : List Value}
    (h : ∀ a ∈ as, ∀ w x, agrees a w = true → agrees w x = true → agrees a x = true)
    {bs cs : List Value} (hab : itemsAgree as bs = true) (hbc : itemsAgree bs cs = true) :
    itemsAgree as cs = true := by
  -- lists of different lengths do not agree
  induction as generalizing bs cs with
  | nil =>
    cases bs with
    | nil => exact hbc
    | cons b bs => cases hab
  | cons a as ih =>
    cases bs with
    | nil => cases hab
    | cons b bs =>
      cases cs with
      | nil => cases hbc
      | cons c cs =>
        rw [List.forall_mem_cons] at h
        rw [itemsAgree, Bool.and_eq_true] at hab hbc ⊢
        exact ⟨h.1 b c hab.1 hbc.1, ih h.2 hab.2 hbc.2⟩

/-- **Agreement is symmetric.** -/
theorem agrees_symm : ∀ v w : Value, agrees v w = true → agrees w v = true := by
  -- values of different kinds do not agree, so the two are of one kind
  refine induction_parts fun v ih w h => ?_
  cases v <;> cases w <;> try (cases h; done)
  case null.null => rfl
  case bool.bool a b => exact BEq.symm (show (a == b) = true from h)
  case int.int a b => exact BEq.symm (show (a == b) = true from h)
  case float.float a b => exact Double.agrees_symm h
  case string.string a b => exact BEq.symm (show (a == b) = true from h)
  case seq.seq as bs => exact itemsAgree_symm ih h
  case map.map as bs =>
    have hentries : ∀ a ∈ as, ∀ b, EntriesAgree a b → EntriesAgree b a := fun a ha b hab =>
      ⟨ih a.1 (fst_mem_parts ha) b.1 hab.1, ih a.2 (snd_mem_parts ha) b.2 hab.2⟩
    -- the two halves of the comparison change places
    obtain ⟨hleft, hright⟩ := agrees_map_iff.1 h
    refine agrees_map_iff.2 ⟨fun b hb => ?_, fun a ha => ?_⟩
    · obtain ⟨a, ha, hab⟩ := hright b hb
      exact ⟨a, ha, hentries a ha b hab⟩
    · obtain ⟨b, hb, hab⟩ := hleft a ha
      exact ⟨b, hb, hentries a ha b hab⟩
  case tagged.tagged s a t b =>
    rw [agrees, Bool.and_eq_true, beq_iff_eq] at h ⊢
    exact ⟨h.1.symm, ih a List.mem_cons_self b h.2⟩

/-- **Agreement is transitive.** -/
theorem agrees_trans :
    ∀ v w x : Value, agrees v w = true → agrees w x = true → agrees v x = true := by
  refine induction_parts fun v ih w x h h' => ?_
  cases v <;> cases w <;> try (cases h; done)
  all_goals cases x <;> try (cases h'; done)
  case null.null.null => rfl
  case bool.bool.bool a b c => exact BEq.trans (show (a == b) = true from h) h'
  case int.int.int a b c => exact BEq.trans (show (a == b) = true from h) h'
  case float.float.float a b c => exact Double.agrees_trans h h'
  case string.string.string a b c => exact BEq.trans (show (a == b) = true from h) h'
  case seq.seq.seq as bs cs => exact itemsAgree_trans ih h h'
  case map.map.map as bs cs =>
    have hentries : ∀ a ∈ as, ∀ b c, EntriesAgree a b → EntriesAgree b c → EntriesAgree a c :=
      fun a ha b c hab hbc =>
        ⟨ih a.1 (fst_mem_parts ha) b.1 c.1 hab.1 hbc.1,
          ih a.2 (snd_mem_parts ha) b.2 c.2 hab.2 hbc.2⟩
    obtain ⟨hleft, hright⟩ := agrees_map_iff.1 h
    obtain ⟨hleft', hright'⟩ := agrees_map_iff.1 h'
    -- an entry has a partner in the middle, which has one on the other side
    refine agrees_map_iff.2 ⟨fun a ha => ?_, fun c hc => ?_⟩
    · obtain ⟨b, hb, hab⟩ := hleft a ha
      obtain ⟨c, hc, hbc⟩ := hleft' b hb
      exact ⟨c, hc, hentries a ha b c hab hbc⟩
    · obtain ⟨b, hb, hbc⟩ := hright' c hc
      obtain ⟨a, ha, hab⟩ := hright b hb
      exact ⟨a, ha, hentries a ha b c hab hbc⟩
  case tagged.tagged.tagged s a t b u c =>
    rw [agrees, Bool.and_eq_true, beq_iff_eq] at h h' ⊢
    exact ⟨h.1.trans h'.1, ih a List.mem_cons_self b c h.2 h'.2⟩

instance : EquivBEq Value where
  rfl := agrees_refl _
  symm h := agrees_symm _ _ h
  trans h h' := agrees_trans _ _ _ h h'

end Value

/-! ### Lists of entries and jobs -/

/-- Lists are compared item by item, so what holds of the items holds of them. -/
instance equivBEqList {α : Type} [BEq α] [EquivBEq α] : EquivBEq (List α) where
  symm {as bs} h := by
    induction as generalizing bs with
    | nil =>
      cases bs with
      | nil => rfl
      | cons b bs => cases h
    | cons a as ih =>
      cases bs with
      | nil => cases h
      | cons b bs =>
        rw [List.cons_beq_cons, Bool.and_eq_true] at h ⊢
        exact ⟨BEq.symm h.1, ih h.2⟩
  trans {as bs cs} h h' := by
    induction as generalizing bs cs with
    | nil =>
      cases bs with
      | nil => exact h'
      | cons b bs => cases h
    | cons a as ih =>
      cases bs with
      | nil => cases h
      | cons b bs =>
        cases cs with
        | nil => cases h'
        | cons c cs =>
          rw [List.cons_beq_cons, Bool.and_eq_true] at h h' ⊢
          exact ⟨BEq.trans h.1 h'.1, ih h.2 h'.2⟩

instance equivBEqProd {α β : Type} [BEq α] [BEq β] [EquivBEq α] [EquivBEq β] :
    EquivBEq (α × β) where
  symm {p q} h := by
    have hpq : (p.1 == q.1 && p.2 == q.2) = true := h
    change (q.1 == p.1 && q.2 == p.2) = true
    rw [Bool.and_eq_true] at hpq ⊢
    exact ⟨BEq.symm hpq.1, BEq.symm hpq.2⟩
  trans {p q r} h h' := by
    have hpq : (p.1 == q.1 && p.2 == q.2) = true := h
    have hqr : (q.1 == r.1 && q.2 == r.2) = true := h'
    change (p.1 == r.1 && p.2 == r.2) = true
    rw [Bool.and_eq_true] at hpq hqr ⊢
    exact ⟨BEq.trans hpq.1 hqr.1, BEq.trans hpq.2 hqr.2⟩

namespace Keyed

variable {α : Type} [BEq α]

instance [EquivBEq α] : EquivBEq (Keyed α) where
  rfl {m} := show (m.entries == m.entries) = true from BEq.rfl
  symm h := BEq.symm (α := List (String × α)) h
  trans h h' := BEq.trans (α := List (String × α)) h h'

instance [LawfulBEq α] : LawfulBEq (Keyed α) where
  eq_of_beq {m n} h := ext (eq_of_beq (show (m.entries == n.entries) = true from h))

end Keyed

namespace Job

/-- Jobs are the same when their fields are, and their further keys hold values that agree. -/
theorem beq_iff {a b : Job} :
    (a == b) = true ↔
      { a with extra := ∅ } = { b with extra := ∅ } ∧ (a.extra == b.extra) = true := by
  change instBEqJob.beq a b = true ↔ _
  cases a
  cases b
  simp only [instBEqJob.beq, Bool.and_eq_true, beq_iff_eq, mk.injEq, and_true, and_assoc]

instance : EquivBEq Job where
  rfl := beq_iff.2 ⟨rfl, BEq.rfl⟩
  symm h := by
    obtain ⟨hfields, hextra⟩ := beq_iff.1 h
    exact beq_iff.2 ⟨hfields.symm, BEq.symm hextra⟩
  trans h h' := by
    obtain ⟨hfields, hextra⟩ := beq_iff.1 h
    obtain ⟨hfields', hextra'⟩ := beq_iff.1 h'
    exact beq_iff.2 ⟨hfields.trans hfields', BEq.trans hextra hextra'⟩

end Job

end SchedulerPolicy
