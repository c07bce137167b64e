/-
Completion offers the names that are visible, and no others.

The last word of a line comes after its last space or parenthesis
(`LastWord`); every line has one, which may be empty, and `splitLast` finds
it (`lastWord_iff`). What is offered are the commands that extend the word,
if it is all of the line, and then the line with the word replaced by each
symbol that extends it and has a value in the frame (`complete_visible`).

The symbols are texts in increasing order, and so are the lines made of
them, since putting the same text in front keeps the order.
-/
import LispShell.Shell
import LispShell.Proofs.Frame

namespace LispShell

/-- Starting with a piece, as a fact about characters. -/
theorem Text.startsWith_iff {s piece : String} :
    startsWith s piece = true ↔ piece.toList <+: s.toList :=
  List.isPrefixOf_iff_prefix

namespace Shell

-- ====================================================== the last word

/-- The text ends in a space or a parenthesis. -/
def EndsInBreak (s : String) : Prop :=
  ∃ before c, c ∈ [' ', '(', ')'] ∧ s = before ++ String.singleton c

/-- The line is a front and a word: the word holds no space and no
parenthesis, and the front is empty or ends in one. -/
structure LastWord (line front word : String) : Prop where
  whole : line = front ++ word
  unbroken : ∀ c ∈ word.toList, c ∉ [' ', '(', ')']
  broken : front = "" ∨ EndsInBreak front

/-- A word starts after a blank or a parenthesis. -/
theorem startsWord_iff {c : Char} : startsWord c = true ↔ c ∈ [' ', '(', ')'] := by
  simp [startsWord, or_assoc]

/-- The split is before the last word. -/
theorem lastWord_splitLast (line : String) :
    LastWord line (splitLast line).1 (splitLast line).2 where
  whole := by
    rw [← String.toList_inj]
    simp [splitLast, ← List.reverse_append]
  unbroken := by
    intro c hc
    rw [splitLast, String.toList_ofList, List.mem_reverse] at hc
    have hall := List.all_eq_true.1 List.all_takeWhile c hc
    rw [← startsWord_iff]
    simpa using hall
  broken := by
    have hhead := List.head?_dropWhile_not (!startsWord ·) line.toList.reverse
    unfold splitLast
    dsimp only
    cases hfront : line.toList.reverse.dropWhile (!startsWord ·) with
    | nil => exact .inl rfl
    | cons c rest =>
      rw [hfront] at hhead
      refine .inr ⟨String.ofList rest.reverse, c, ?_, ?_⟩
      · rw [← startsWord_iff]
        simpa using hhead
      · rw [← String.toList_inj]
        simp

/-- There is only one way to split a line before its last word. -/
theorem LastWord.splitLast_eq {line front word : String} (h : LastWord line front word) :
    splitLast line = (front, word) := by
  have hrev : line.toList.reverse = word.toList.reverse ++ front.toList.reverse := by
    rw [h.whole]
    simp
  have hword : ∀ c ∈ word.toList.reverse, (!startsWord c) = true := by
    intro c hc
    have hplain := h.unbroken c (List.mem_reverse.1 hc)
    rw [← startsWord_iff] at hplain
    simpa using hplain
  -- read from its end, the front stops the word at once
  have hfront : front.toList.reverse.takeWhile (!startsWord ·) = []
      ∧ front.toList.reverse.dropWhile (!startsWord ·) = front.toList.reverse := by
    rcases h.broken with hempty | ⟨before, c, hc, hbreak⟩
    · simp [hempty]
    · have hstarts := startsWord_iff.2 hc
      simp [hbreak, hstarts]
  unfold splitLast
  dsimp only
  rw [hrev, List.takeWhile_append_of_pos hword, List.dropWhile_append_of_pos hword, hfront.1,
    hfront.2]
  simp

/-- There is only one last word. -/
theorem lastWord_iff {line front word : String} :
    LastWord line front word ↔ splitLast line = (front, word) := by
  constructor
  · exact LastWord.splitLast_eq
  · intro h
    have hlast := lastWord_splitLast line
    rwa [h] at hlast

/-- The last word is empty if the line is or breaks off. -/
theorem LastWord.eq_empty_iff {line front word : String} (h : LastWord line front word) :
    word = "" ↔ line = "" ∨ EndsInBreak line := by
  constructor
  · intro hword
    have hline : line = front := by simp [h.whole, hword]
    rw [hline]
    exact h.broken
  · intro hline
    rcases hline with hempty | ⟨before, c, hc, hbreak⟩
    · have happend := h.whole
      rw [hempty] at happend
      have hparts : front = "" ∧ word = "" := by simpa using happend.symm
      exact hparts.2
    · by_contra hword
      have hlast : line.toList.getLast? = some c := by simp [hbreak]
      have hne : word.toList ≠ [] := by simpa using hword
      rw [h.whole, String.toList_append, List.getLast?_append_of_ne_nil _ hne] at hlast
      exact h.unbroken c (List.mem_of_getLast? hlast) hc

-- ====================================================== what is offered

theorem complete_empty {line front : String} (h : LastWord line front "")
    (symbols : List String) : complete symbols line = [] := by
  unfold complete
  rw [h.splitLast_eq]
  rfl

/-- What completes a word: commands, and then symbols behind what is in
front of it. -/
theorem complete_word {line front word : String} (h : LastWord line front word)
    (hword : word ≠ "") (symbols : List String) :
    complete symbols line
      = ((if front == "" then Command.all.map Command.name else []).filter
          (Text.startsWith · word))
        ++ (symbols.filter (Text.startsWith · word)).map (front ++ ·) := by
  unfold complete
  rw [h.splitLast_eq]
  exact if_neg (by simpa using hword)

theorem pairwise_commandNames : (Command.all.map Command.name).Pairwise (· < ·) := by
  decide

/-- The names of the commands. -/
theorem mem_commandNames {name : String} :
    name ∈ Command.all.map Command.name ↔ ∃ c : Command, c.name = name := by
  constructor
  · intro hname
    obtain ⟨c, -, hc⟩ := List.mem_map.1 hname
    exact ⟨c, hc⟩
  · intro ⟨c, hc⟩
    rw [← hc]
    cases c with
    | exec => simp [Command.all]
    | lex => simp [Command.all]
    | load => simp [Command.all]
    | parse => simp [Command.all]

/-- The same in front of two texts keeps their order. -/
theorem append_lt_append (front : String) {a b : String} (h : a < b) :
    front ++ a < front ++ b := by
  show (front ++ a).toList < (front ++ b).toList
  rw [String.toList_append, String.toList_append]
  exact List.append_left_lt h

/-- What is offered for a line that ends in a word, given which symbols are
visible: commands, and the lines that symbols make of it. -/
structure Offers (visible : String → Prop) (line front word : String)
    (commands symbols : List String) : Prop where
  commandsIncrease : commands.Pairwise (· < ·)
  mem_commands : ∀ name, name ∈ commands ↔
    word = line ∧ (∃ c : Command, c.name = name) ∧ word.toList <+: name.toList
  linesIncrease : (symbols.map (front ++ ·)).Pairwise (· < ·)
  mem_symbols : ∀ name, name ∈ symbols ↔ visible name ∧ word.toList <+: name.toList

/-- There is nothing in front of a word that is the line. -/
theorem LastWord.front_eq_empty_iff {line front word : String} (h : LastWord line front word) :
    front = "" ↔ word = line := by
  rw [h.whole]
  constructor
  · intro hfront
    simp [hfront]
  · intro hword
    rw [← String.toList_inj, String.toList_append] at hword
    simpa using hword

/-- All that is offered, and nothing twice. -/
theorem complete_offers {line front word : String} (h : LastWord line front word)
    (hword : word ≠ "") {symbols : List String} (hsymbols : symbols.Pairwise (· < ·)) :
    ∃ commands offered, complete symbols line = commands ++ offered.map (front ++ ·)
      ∧ Offers (· ∈ symbols) line front word commands offered := by
  refine ⟨_, _, complete_word h hword symbols, ?_⟩
  constructor
  · apply List.Pairwise.filter
    split
    · exact pairwise_commandNames
    · exact .nil
  · intro name
    rw [List.mem_filter, Text.startsWith_iff, ← h.front_eq_empty_iff, ← mem_commandNames]
    by_cases hfront : front = ""
    · simp [hfront]
    · simp [hfront]
  · exact (hsymbols.filter _).map _ fun a b hab => append_lt_append front hab
  · intro name
    rw [List.mem_filter, Text.startsWith_iff]

/-- The front stays, and what replaces the word starts with it. -/
theorem Offers.extend {visible : String → Prop} {line front word : String}
    {commands symbols : List String} (h : Offers visible line front word commands symbols)
    (hline : LastWord line front word) :
    ∀ offer ∈ commands ++ symbols.map (front ++ ·), line.toList <+: offer.toList := by
  intro offer hoffer
  rcases List.mem_append.1 hoffer with hcommand | hsymbol
  · obtain ⟨hwhole, -, hextends⟩ := (h.mem_commands offer).1 hcommand
    rwa [hwhole] at hextends
  · obtain ⟨name, hname, rfl⟩ := List.mem_map.1 hsymbol
    have hextends := ((h.mem_symbols name).1 hname).2
    rw [hline.whole, String.toList_append, String.toList_append]
    exact (List.prefix_append_right_inj front.toList).2 hextends

/-- The symbols of a frame are the names that have a value there, in
increasing order. For a line that is empty or ends in a space or a
parenthesis nothing is offered. For any other the commands come first, if
its last word is all of it; then the line with that word replaced by each
visible symbol that extends it. So every offer extends the line. -/
theorem complete_visible (fs : Frames) (id : FrameId) (line : String) :
    (fs.symbols id).Pairwise (· < ·)
    ∧ (∀ name, name ∈ fs.symbols id ↔ (fs.lookup id name).isSome = true)
    ∧ (line = "" ∨ EndsInBreak line → complete (fs.symbols id) line = [])
    ∧ (¬(line = "" ∨ EndsInBreak line) →
      ∃ (front word : String) (commands symbols : List String),
        (∀ f w, LastWord line f w ↔ f = front ∧ w = word)
        ∧ complete (fs.symbols id) line = commands ++ symbols.map (front ++ ·)
        ∧ Offers (fun name => (fs.lookup id name).isSome = true) line front word commands symbols)
    ∧ ∀ offer ∈ complete (fs.symbols id) line, line.toList <+: offer.toList := by
  have hsymbols := fs.pairwise_symbols id
  obtain ⟨front, word, hlast⟩ : ∃ front word, LastWord line front word :=
    ⟨_, _, lastWord_splitLast line⟩
  refine ⟨hsymbols, fun name => Frames.mem_symbols, ?_⟩
  by_cases hbreak : line = "" ∨ EndsInBreak line
  · have hnone : complete (fs.symbols id) line = [] := by
      rw [hlast.eq_empty_iff.2 hbreak] at hlast
      exact complete_empty hlast _
    refine ⟨fun _ => hnone, fun h => absurd hbreak h, ?_⟩
    rw [hnone]
    exact List.forall_mem_nil _
  · have hword : word ≠ "" := fun h => hbreak (hlast.eq_empty_iff.1 h)
    obtain ⟨commands, symbols, hcomplete, hoffers⟩ := complete_offers hlast hword hsymbols
    simp only [Frames.mem_symbols] at hoffers
    refine ⟨fun h => absurd h hbreak, fun _ => ⟨front, word, commands, symbols, ?_, hcomplete,
      hoffers⟩, ?_⟩
    · intro f w
      rw [lastWord_iff, hlast.splitLast_eq, Prod.mk.injEq, eq_comm (a := front),
        eq_comm (a := word)]
    · rw [hcomplete]
      exact hoffers.extend hlast

/-- A frame inside another one that binds the same name. -/
def shadowing : Frames :=
  [⟨[("zest", .nil), ("zebra", .nil)], none⟩, ⟨[("zest", .bool true)], some 0⟩]

/-- An empty line, and a word that names of two frames complete. -/
theorem complete_visible_shadowing :
    ("" = "" ∨ EndsInBreak "") ∧ complete (shadowing.symbols 1) "" = []
    ∧ ¬("(+ 1 ze" = "" ∨ EndsInBreak "(+ 1 ze")
    ∧ ∃ (front word : String) (commands symbols : List String),
      (∀ f w, LastWord "(+ 1 ze" f w ↔ f = front ∧ w = word)
      ∧ complete (shadowing.symbols 1) "(+ 1 ze" = commands ++ symbols.map (front ++ ·)
      ∧ Offers (fun name => (shadowing.lookup 1 name).isSome = true) "(+ 1 ze" front word
        commands symbols := by
  have hempty : "" = "" ∨ EndsInBreak "" := .inl rfl
  have hword : ¬("(+ 1 ze" = "" ∨ EndsInBreak "(+ 1 ze") := by
    rw [← (lastWord_splitLast "(+ 1 ze").eq_empty_iff]
    decide
  exact ⟨hempty, (complete_visible shadowing 1 "").2.2.1 hempty, hword,
    (complete_visible shadowing 1 "(+ 1 ze").2.2.2.1 hword⟩

example : complete ["zebra", "zest"] "(+ 1 ze" = ["(+ 1 zebra", "(+ 1 zest"]
    ∧ complete ["_LOAD", "_LOCAL"] "_LO" = ["_LOAD", "_LOAD", "_LOCAL"] := by
  decide

end Shell

end LispShell
