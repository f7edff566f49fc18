import SchedulerPolicy.Yaml.Node
import SchedulerPolicy.Yaml.Print

/-!
# Words

Most texts in a document are words (`IsWord`): they are written as they are, behind a key on the
line of the key. A mapping of words is then written line by line (`entryRows_word`,
`belowLine_word`), and read again as a tree of plain scalars (`word`, `wordMap`). A value comes back
when the tree of its text has the value again (`values?_print`).
-/

namespace SchedulerPolicy.Yaml

/-- A text that is written as it is, on one line, and can stand in front of a colon. -/
structure IsWord (s : String) : Prop where
  plain : Style.of s = .plain
  simpleKey : isSimpleKey (.string s) = true
  line : endLine s = s ++ "\n"

/-- A text is plain when nothing in it asks for another style. -/
theorem Style.of_eq_plain {s : String} (hbreak : s.toList.contains '\n' = false)
    (hquotes : needsQuotes s = false) (hplain : (Traits.of s.toList).allowsPlain = true) :
    Style.of s = .plain := by
  unfold Style.of Style.wanted
  rw [hbreak, hquotes]
  exact if_pos hplain

/-- Whether a text fits on the line of a key as it is. -/
def fitsLine (s : String) : Bool :=
  !s.toList.contains '\n' && !needsQuotes s && isSimpleKey (.string s) && endLine s == s ++ "\n"

namespace IsWord

variable {s : String}

/-- A list of texts that fit on a line and have nothing in them that must be quoted is one of
words. -/
theorem of_mem {words : List String} (hline : words.all fitsLine = true)
    (hplain : (words.all fun s => (Traits.of s.toList).allowsPlain) = true) (hs : s ∈ words) :
    IsWord s := by
  have hfits := List.all_eq_true.1 hline s hs
  simp only [fitsLine, Bool.and_eq_true, Bool.not_eq_true', beq_iff_eq] at hfits
  -- the check takes in all that a word needs but for the plain style
  obtain ⟨⟨⟨hbreak, hquotes⟩, hkey⟩, hend⟩ := hfits
  exact {
    plain := Style.of_eq_plain hbreak hquotes (List.all_eq_true.1 hplain s hs)
    simpleKey := hkey
    line := hend }

theorem scalarText (h : IsWord s) (indent : Nat) : Yaml.scalarText indent (.string s) = s := by
  change textIn indent s = s
  unfold textIn
  rw [h.plain]

end IsWord

variable {s : String}

theorem entryRows_word (h : IsWord s) (indent : Nat) (v : Value) (rest : List (Value × Value)) :
    entryRows indent ((.string s, v) :: rest) =
      (s ++ ":" ++ belowLine indent indent v) :: entryRows indent rest := by
  change (if isSimpleKey (.string s) then
      scalarText (indent + 2) (.string s) ++ ":" ++ belowLine indent indent v
    else _) :: entryRows indent rest = _
  rw [h.simpleKey, if_pos rfl, h.scalarText]

theorem belowLine_word (h : IsWord s) (indent listIndent : Nat) :
    belowLine indent listIndent (.string s) = " " ++ (s ++ "\n") := by
  change " " ++ endLine (scalarText (indent + 2) (.string s)) = _
  rw [h.scalarText, h.line]

theorem belowLine_map (e : Value × Value) (es : List (Value × Value)) (indent listIndent : Nat) :
    belowLine indent listIndent (.map (e :: es)) = "\n" ++ pad (indent + 2) ++
      joinRows (indent + 2) (entryRows (indent + 2) (e :: es)) := rfl

/-- The tree of a word. -/
def word (s : String) : Tree := .scalar none none { text := s, isPlain := true }

/-- The tree of a mapping from words. -/
def wordMap (es : List (String × Tree)) : Tree := .map none none (es.map fun e => (word e.1, e.2))

/-- A text of one document has the value of its tree. -/
theorem values?_of_tree {v : Value} {text : String} {t : Tree} (htree : documents? text = some [t])
    (hvalue : (Node.ofTree t).strictValue = .ok v) : values? text = some [v] := by
  unfold values? nodes?
  rw [htree]
  change List.mapM (fun n => n.strictValue.toOption) [Node.ofTree t] = _
  rw [List.mapM_cons, hvalue]
  rfl

/-- A value is read back when its text is that of a tree of the value. -/
theorem values?_print {v : Value} {text : String} {t : Tree} (hprint : print v = text)
    (htree : documents? text = some [t]) (hvalue : (Node.ofTree t).strictValue = .ok v) :
    values? (print v) = some [v] := by
  rw [hprint]
  exact values?_of_tree htree hvalue

end SchedulerPolicy.Yaml
