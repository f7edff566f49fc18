/-!
# Segments

Slashes cut a path into segments, and a path has one segment more than it has slashes. `segments`
and `joinSegments` undo each other (`joinSegments_segments`, `segments_joinSegments`), and no
segment holds a slash (`slash_not_mem_of_mem_segments`).
-/

namespace SchedulerPolicy.Text

/-- The segments of a path. -/
def segments : List Char → List (List Char)
  | [] => [[]]
  | c :: cs =>
    if c = '/' then [] :: segments cs
    else
      match segments cs with
      | s :: rest => (c :: s) :: rest
      | [] => [[c]]

/-- Joins segments by slashes. -/
def joinSegments : List (List Char) → List Char
  | [] => []
  | [s] => s
  | s :: rest => s ++ '/' :: joinSegments rest

/-- Every path has a segment. -/
theorem segments_ne_nil (cs : List Char) : segments cs ≠ [] := by
  cases cs with
  | nil => simp [segments]
  | cons c cs =>
    unfold segments
    split
    · simp
    · split <;> simp

/-- The segments of a path make up the path. -/
theorem joinSegments_segments (cs : List Char) : joinSegments (segments cs) = cs := by
  induction cs with
  | nil => rfl
  | cons c cs ih =>
    unfold segments
    cases hs : segments cs with
    | nil => exact absurd hs (segments_ne_nil cs)
    | cons s rest =>
      rw [hs] at ih
      split
      · next hc => simp [joinSegments, ih, hc]
      · cases rest with
        | nil => simpa [joinSegments] using ih
        | cons r rest => simpa [joinSegments] using ih

/-- No segment holds a slash. -/
theorem slash_not_mem_of_mem_segments {cs s : List Char} (h : s ∈ segments cs) : '/' ∉ s := by
  induction cs generalizing s with
  | nil => simp_all [segments]
  | cons c cs ih =>
    unfold segments at h
    cases hs : segments cs with
    | nil => exact absurd hs (segments_ne_nil cs)
    | cons t rest =>
      rw [hs] at h ih
      split at h
      · rcases List.mem_cons.1 h with rfl | hmem
        · simp
        · exact ih hmem
      · next hc =>
        rcases List.mem_cons.1 h with rfl | hmem
        · intro hmem
          rcases List.mem_cons.1 hmem with heq | hmem
          · exact hc heq.symm
          · exact ih List.mem_cons_self hmem
        · exact ih (List.mem_cons_of_mem _ hmem)

theorem segments_slash (cs : List Char) : segments ('/' :: cs) = [] :: segments cs := if_pos rfl

/-- Any other character belongs to the first segment. -/
theorem segments_cons {c : Char} {cs s : List Char} {rest : List (List Char)} (hc : c ≠ '/')
    (h : segments cs = s :: rest) : segments (c :: cs) = (c :: s) :: rest := by
  unfold segments
  rw [if_neg hc, h]

/-- Without slashes there is one segment. -/
theorem segments_of_notMem {cs : List Char} (h : '/' ∉ cs) : segments cs = [cs] := by
  induction cs with
  | nil => rfl
  | cons c cs ih =>
    rw [List.mem_cons, not_or] at h
    exact segments_cons (Ne.symm h.1) (ih h.2)

/-- The segments on either side of a slash have nothing to do with each other. -/
theorem segments_append_slash (cs ds : List Char) :
    segments (cs ++ '/' :: ds) = segments cs ++ segments ds := by
  induction cs with
  | nil => exact segments_slash ds
  | cons c cs ih =>
    rw [List.cons_append]
    by_cases hc : c = '/'
    · rw [hc, segments_slash, segments_slash, ih]
      rfl
    · cases hs : segments cs with
      | nil => exact absurd hs (segments_ne_nil cs)
      | cons s rest =>
        rw [hs] at ih
        rw [segments_cons hc hs, segments_cons hc ih]
        rfl

/-- Segments are told apart again, as long as there is one and none holds a slash. -/
theorem segments_joinSegments {ss : List (List Char)} (hne : ss ≠ [])
    (h : ∀ s ∈ ss, '/' ∉ s) : segments (joinSegments ss) = ss := by
  induction ss with
  | nil => exact absurd rfl hne
  | cons s rest ih =>
    rw [List.forall_mem_cons] at h
    cases rest with
    | nil => exact segments_of_notMem h.1
    | cons r rest =>
      change segments (s ++ '/' :: joinSegments (r :: rest)) = _
      rw [segments_append_slash, segments_of_notMem h.1, ih (List.cons_ne_nil r rest) h.2,
        List.singleton_append]

/-- A slash joins what is joined on either side. -/
theorem joinSegments_append {ss ts : List (List Char)} (hs : ss ≠ []) (ht : ts ≠ []) :
    joinSegments (ss ++ ts) = joinSegments ss ++ '/' :: joinSegments ts := by
  induction ss with
  | nil => exact absurd rfl hs
  | cons s rest ih =>
    cases rest with
    | nil =>
      obtain ⟨t, rest, rfl⟩ := List.exists_cons_of_ne_nil ht
      rfl
    | cons r rest =>
      have hrest := ih (List.cons_ne_nil r rest)
      change s ++ '/' :: joinSegments (r :: rest ++ ts) = _
      rw [hrest]
      change _ = (s ++ '/' :: joinSegments (r :: rest)) ++ '/' :: joinSegments ts
      rw [List.append_assoc, List.cons_append]

/-- Segments of which none is empty make up a path that is not. -/
theorem joinSegments_ne_nil {ss : List (List Char)} (hne : ss ≠ []) (h : ∀ s ∈ ss, s ≠ []) :
    joinSegments ss ≠ [] := by
  obtain ⟨s, rest, rfl⟩ := List.exists_cons_of_ne_nil hne
  have hs := h s List.mem_cons_self
  cases rest with
  | nil => exact hs
  | cons r rest => exact fun hnil => hs (List.append_eq_nil_iff.1 hnil).1

end SchedulerPolicy.Text
