import Mathlib.Data.List.DropRight
import SchedulerPolicy.Text.Blank

/-!
# Trimming

`isBlank` asks for blank characters only, and these are the texts that `trim` empties
(`trim_eq_empty_iff`). Blank characters around a text make no difference to its trimming
(`trimChars_between`).

The rest is about where dropping from the front comes to a halt: no later than at the first
character that fails the test (`dropWhile_append_cons`).
-/

namespace SchedulerPolicy.Text

variable {p : Char → Bool} {c : Char}

/-! ### Blank text -/

/-- Trimming leaves nothing of a text exactly when the text is blank. -/
theorem trimChars_eq_nil_iff {cs : List Char} :
    trimChars cs = [] ↔ ∀ c ∈ cs, isBlankChar c = true := by
  change (cs.dropWhile isBlankChar).rdropWhile isBlankChar = [] ↔ _
  -- what is left in front of a text that was trimmed there is not blank, unless nothing is left
  rw [List.rdropWhile_eq_nil_iff, ← List.dropWhile_eq_nil_iff, List.dropWhile_idempotent,
    List.dropWhile_eq_nil_iff]

/-- A text is blank exactly when trimming empties it. -/
theorem trim_eq_empty_iff {s : String} : trim s = "" ↔ isBlank s = true := by
  unfold trim isBlank
  rw [String.ofList_eq_empty_iff, trimChars_eq_nil_iff, List.all_eq_true]

/-! ### Dropping up to a character -/

/-- `dropWhile` goes no further than a character that fails the test. -/
theorem dropWhile_append_cons (hc : p c = false) (cs ds : List Char) :
    (cs ++ c :: ds).dropWhile p = cs.dropWhile p ++ c :: ds := by
  rw [List.dropWhile_append, List.dropWhile_cons_of_neg (Bool.not_eq_true _ ▸ hc)]
  split
  · next hempty => rw [List.isEmpty_iff.1 hempty, List.nil_append]
  · rfl

/-- What passes the test up to a character that fails it, and what is left. -/
theorem takeWhile_dropWhile_append_cons (hc : p c = false) {cs : List Char}
    (h : ∀ b ∈ cs, p b = true) (ds : List Char) :
    (cs ++ c :: ds).takeWhile p = cs ∧ (cs ++ c :: ds).dropWhile p = c :: ds := by
  have hneg : ¬p c = true := Bool.not_eq_true _ ▸ hc
  rw [List.takeWhile_append_of_pos h, List.takeWhile_cons_of_neg hneg, List.append_nil,
    List.dropWhile_append_of_pos h, List.dropWhile_cons_of_neg hneg]
  exact ⟨rfl, rfl⟩

/-- Blank characters around a text do not count, and behind its last character nothing is dropped.
-/
theorem trimChars_between {before after : List Char} (hbefore : ∀ b ∈ before, isBlankChar b = true)
    (hafter : ∀ b ∈ after, isBlankChar b = true) (cs : List Char) (hc : isBlankChar c = false) :
    trimChars (before ++ (cs ++ c :: after)) = cs.dropWhile isBlankChar ++ [c] := by
  have hback : ∀ b ∈ after.reverse, isBlankChar b = true :=
    fun b hb => hafter b (List.mem_reverse.1 hb)
  unfold trimChars
  -- turned round, the text has `after` in front, and then the character that stays
  rw [List.dropWhile_append_of_pos hbefore, dropWhile_append_cons hc, List.reverse_append,
    List.reverse_cons, List.append_assoc, List.dropWhile_append_of_pos hback,
    List.singleton_append, List.dropWhile_cons_of_neg (by simp [hc]), List.reverse_cons,
    List.reverse_reverse]

end SchedulerPolicy.Text
