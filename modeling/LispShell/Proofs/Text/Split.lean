/-
Texts joined by a character can be told apart again.

Splitting at a character gives pieces without it (`not_mem_of_mem_split`),
and pieces without it are what splitting gives back of the text they were
joined to (`split_join`).
-/
import LispShell.Proofs.Text.Search

namespace LispShell.Text

section

variable {sep : Char} {piece : List Char}

/-- Another character is not the separator. -/
theorem not_isPrefixOf_cons {c : Char} (h : c ≠ sep) (cs : List Char) :
    ¬([sep].isPrefixOf (c :: cs) = true) := by
  simpa using h.symm

/-- Without a separator what is left is the last piece. -/
theorem splitFrom_last (h : sep ∉ piece) (part : List Char) :
    splitFrom [sep] 0 part piece = [String.ofList (part.reverse ++ piece)] := by
  induction piece generalizing part with
  | nil => simp [splitFrom]
  | cons c cs ih =>
    obtain ⟨hc, hcs⟩ := List.ne_and_not_mem_of_not_mem_cons h
    rw [splitFrom, if_neg (not_isPrefixOf_cons hc.symm cs), ih hcs]
    simp

/-- A piece ends at the next separator. -/
theorem splitFrom_piece (h : sep ∉ piece) (part rest : List Char) :
    splitFrom [sep] 0 part (piece ++ sep :: rest)
      = String.ofList (part.reverse ++ piece) :: splitFrom [sep] 0 [] rest := by
  induction piece generalizing part with
  | nil => simp [splitFrom]
  | cons c cs ih =>
    obtain ⟨hc, hcs⟩ := List.ne_and_not_mem_of_not_mem_cons h
    rw [List.cons_append, splitFrom, if_neg (not_isPrefixOf_cons hc.symm _), ih hcs]
    simp

end

variable (sep : Char)

theorem split_singleton (s : String) :
    split s (String.singleton sep) = splitFrom [sep] 0 [] s.toList := by
  rw [split, if_neg (by simp), String.toList_singleton]

/-- What is split at a character has it no more. -/
theorem not_mem_of_mem_split {text s : String} (hs : s ∈ split text (String.singleton sep)) :
    sep ∉ s.toList := by
  have hsep : String.singleton sep ≠ "" := by simp
  have hparted := parted_split hsep text
  rw [String.toList_singleton] at hparted
  intro hmem
  obtain ⟨before, after, hstands⟩ := List.append_of_mem hmem
  apply hparted.not_standsAt (List.cons_ne_nil sep []) s hs before.length
  exact ⟨before, after, by simpa using hstands, rfl⟩

/-- The text up to the first separator is split off. -/
theorem split_append {text : String} (h : sep ∉ text.toList) (rest : String) :
    split (text ++ String.singleton sep ++ rest) (String.singleton sep)
      = text :: split rest (String.singleton sep) := by
  have hlist : (text ++ String.singleton sep ++ rest).toList
      = text.toList ++ sep :: rest.toList := by simp
  rw [split_singleton, split_singleton, hlist, splitFrom_piece h]
  simp

/-- Pieces are told apart in the text that joins them. -/
theorem split_join {texts : List String} (hne : texts ≠ [])
    (h : ∀ text ∈ texts, sep ∉ text.toList) :
    split (join (String.singleton sep) texts) (String.singleton sep) = texts := by
  induction texts with
  | nil => exact absurd rfl hne
  | cons text rest ih =>
    obtain ⟨htext, hrest⟩ := List.forall_mem_cons.1 h
    cases rest with
    | nil =>
      rw [join, split_singleton, splitFrom_last htext]
      simp
    | cons next rest =>
      rw [join_cons _ (List.cons_ne_nil next rest), split_append sep htext,
        ih (List.cons_ne_nil next rest) hrest]

end LispShell.Text
