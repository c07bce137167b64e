/-
Typed lines are cut into inputs, and none is lost.

The shell gathers lines into inputs one line at a time, and looks again at
all that was gathered after each of them. What comes of that is said
without any looking again: the lines are cut into groups (`Input.Cut`),
each of which is the shortest run of lines from its start that is an input
(`Input.Group`), and at the end there may be lines of which no beginning is
one (`Input.Unfinished`). There is only one such cut (`Input.Cut.unique`).

The shell asks for the first line of a group with the prompt, and for each
further one with dots; then it handles the lines of the group as one text
(`Repl.takeGroup`). A whole run of the shell is that for each group in
turn, and questions for the lines that are left over
(`Repl.replay_takes_groups`).
-/
import LispShell.CommandLine.Repl
import LispShell.Proofs.Dialogue
import LispShell.Proofs.Echo
import LispShell.Proofs.Text.Split

namespace LispShell

-- ====================================================== lines of a text

namespace Text

/-- Lines can be told apart in the text they make. -/
theorem split_join_lines {lines : List String} (hne : lines ≠ [])
    (h : ∀ line ∈ lines, '\n' ∉ line.toList) : split (join "\n" lines) "\n" = lines :=
  split_join '\n' hne h

/-- A further line goes to the end. -/
theorem join_concat {lines : List String} (hne : lines ≠ []) (line : String) :
    join "\n" (lines ++ [line]) = join "\n" lines ++ "\n" ++ line := by
  induction lines with
  | nil => exact absurd rfl hne
  | cons first rest ih =>
    cases rest with
    | nil => rfl
    | cons next rest =>
      rw [List.cons_append, join_cons _ (by simp), ih (List.cons_ne_nil next rest),
        join_cons _ (List.cons_ne_nil next rest)]
      simp only [String.append_assoc]

end Text

-- ====================================================== groups

namespace Input

/-- A text that is an input as it is: it starts like a command, or it does
not end inside a list or a string. -/
def Finished (text : String) : Prop :=
  Text.startsWith (Text.trim text) "_" = true
    ∨ ∀ f, Reader.readAll text = .error f → f.incomplete = false

/-- More is needed as long as a text is not finished. -/
theorem needsMore_iff {text : String} : needsMore text = true ↔ ¬Finished text := by
  unfold needsMore Finished
  cases Reader.readAll text with
  | ok forms => simp
  | error f => simp

/-- Lines of which no beginning is an input. -/
def Unfinished (lines : List String) : Prop :=
  ∀ first, first ≠ [] → first <+: lines → ¬Finished (Text.join "\n" first)

/-- The shortest run of lines from its start that is an input. -/
structure Group (lines : List String) : Prop where
  ne_nil : lines ≠ []
  finished : Finished (Text.join "\n" lines)
  shortest : ∀ first, first ≠ [] → first <+: lines → first ≠ lines →
    ¬Finished (Text.join "\n" first)

/-- Lines cut into groups, and the lines that are left over. -/
structure Cut (lines : List String) (groups : List (List String)) (rest : List String) : Prop where
  lines_eq : groups.flatten ++ rest = lines
  group : ∀ g ∈ groups, Group g
  rest : Unfinished rest

theorem unfinished_nil : Unfinished [] :=
  fun _ hne hprefix => absurd (List.prefix_nil.1 hprefix) hne

/-- Lines that were taken and do not make an input yet make a text that is
not empty. -/
theorem Unfinished.join_ne_empty {lines : List String} (h : Unfinished lines) (hne : lines ≠ []) :
    Text.join "\n" lines ≠ "" := by
  intro hempty
  have hread : Reader.readAll "" = .ok [] := Reader.readAll_eq_ok_iff.2 ⟨[], rfl, .nil⟩
  refine h lines hne (List.prefix_refl _) (.inr fun f hf => ?_)
  rw [hempty, hread] at hf
  cases hf

/-- Lines that are not finished with a further one go on. -/
theorem Unfinished.concat {lines : List String} (h : Unfinished lines) {line : String}
    (hline : ¬Finished (Text.join "\n" (lines ++ [line]))) : Unfinished (lines ++ [line]) := by
  intro first hne hprefix
  rcases List.prefix_concat_iff.1 hprefix with rfl | hprefix
  · exact hline
  · exact h first hne hprefix

/-- Lines that are finished with a further one are a group with it. -/
theorem Unfinished.group {lines : List String} (h : Unfinished lines) {line : String}
    (hline : Finished (Text.join "\n" (lines ++ [line]))) : Group (lines ++ [line]) where
  ne_nil := by simp
  finished := hline
  shortest first hne hprefix hother := by
    rcases List.prefix_concat_iff.1 hprefix with rfl | hprefix
    · exact absurd rfl hother
    · exact h first hne hprefix

/-- A group in front of lines that are cut. -/
theorem Cut.cons {group lines rest : List String} {groups : List (List String)}
    (hgroup : Group group) (h : Cut lines groups rest) :
    Cut (group ++ lines) (group :: groups) rest where
  lines_eq := by rw [List.flatten_cons, List.append_assoc, h.lines_eq]
  group := List.forall_mem_cons.2 ⟨hgroup, h.group⟩
  rest := h.rest

/-- Of two groups that start at the same line neither is longer. -/
theorem Group.eq_of_prefix {g g' lines : List String} (h : Group g) (h' : Group g')
    (hg : g <+: lines) (hg' : g' <+: lines) : g = g' := by
  rcases List.prefix_or_prefix_of_prefix hg hg' with hprefix | hprefix
  · by_contra hother
    exact h'.shortest g h.ne_nil hprefix hother h.finished
  · by_contra hother
    exact h.shortest g' h'.ne_nil hprefix (Ne.symm hother) h'.finished

/-- Lines can be cut in one way only. -/
theorem Cut.unique {lines rest rest' : List String} {groups groups' : List (List String)}
    (h : Cut lines groups rest) (h' : Cut lines groups' rest') :
    groups' = groups ∧ rest' = rest := by
  -- what is left unfinished does not start with a group
  have hapart : ∀ {g : List String} {gs : List (List String)} {rest rest' : List String},
      Group g → Unfinished rest' → (g :: gs).flatten ++ rest ≠ rest' := by
    rintro g gs rest _ hg hrest rfl
    refine hrest g hg.ne_nil ?_ hg.finished
    rw [List.flatten_cons, List.append_assoc]
    exact List.prefix_append g _
  induction groups generalizing lines groups' with
  | nil =>
    cases groups' with
    | nil => exact ⟨rfl, h'.lines_eq.trans h.lines_eq.symm⟩
    | cons g' gs' =>
      exact absurd (h'.lines_eq.trans h.lines_eq.symm)
        (hapart (h'.group g' List.mem_cons_self) h.rest)
  | cons g gs ih =>
    cases groups' with
    | nil =>
      exact absurd (h.lines_eq.trans h'.lines_eq.symm)
        (hapart (h.group g List.mem_cons_self) h'.rest)
    | cons g' gs' =>
      obtain ⟨hg, hgs⟩ := List.forall_mem_cons.1 h.group
      obtain ⟨hg', hgs'⟩ := List.forall_mem_cons.1 h'.group
      have hlines : g ++ (gs.flatten ++ rest) = lines := by
        rw [← List.append_assoc, ← List.flatten_cons, h.lines_eq]
      have hlines' : g' ++ (gs'.flatten ++ rest') = lines := by
        rw [← List.append_assoc, ← List.flatten_cons, h'.lines_eq]
      obtain rfl := hg.eq_of_prefix hg' ⟨_, hlines⟩ ⟨_, hlines'⟩
      have hsame := List.append_cancel_left (hlines'.trans hlines.symm)
      obtain ⟨rfl, rfl⟩ := ih ⟨rfl, hgs, h.rest⟩ ⟨hsame, hgs', h'.rest⟩
      exact ⟨rfl, rfl⟩

/-- Cut lines that hold no line feed are the lines of the texts that the
groups make, and those left over. -/
theorem Cut.lines_of_texts {lines rest : List String} {groups : List (List String)}
    (h : Cut lines groups rest) (hlines : ∀ line ∈ lines, '\n' ∉ line.toList) :
    (groups.map (Text.join "\n")).flatMap (Text.split · "\n") ++ rest = lines := by
  have heach : ∀ g ∈ groups, Text.split (Text.join "\n" g) "\n" = g := by
    intro g hg
    refine Text.split_join_lines (h.group g hg).ne_nil fun line hline => hlines line ?_
    rw [← h.lines_eq]
    exact List.mem_append_left _ (List.mem_flatten.2 ⟨g, hg, hline⟩)
  rw [List.flatMap_map, List.flatMap_congr heach, List.flatMap_id', h.lines_eq]

-- ====================================================== what is pending

/-- The unfinished input that some lines make. -/
def pendingOf : List String → Pending
  | [] => none
  | lines => some (Text.join "\n" lines)

/-- A line is added to those that were taken. -/
theorem extend_pendingOf (lines : List String) (line : String) :
    extend (pendingOf lines) line = Text.join "\n" (lines ++ [line]) := by
  cases lines with
  | nil => rfl
  | cons first rest => exact (Text.join_concat (List.cons_ne_nil first rest) line).symm

/-- Lines that were taken are pending as one text. -/
theorem pendingOf_concat (lines : List String) (line : String) :
    pendingOf (lines ++ [line]) = some (Text.join "\n" (lines ++ [line])) := by
  cases lines <;> rfl

/-- A line that finishes nothing is kept. -/
theorem feed_of_unfinished {taken : List String} {line : String}
    (h : ¬Finished (Text.join "\n" (taken ++ [line]))) :
    feed (pendingOf taken) line = (pendingOf (taken ++ [line]), none) := by
  unfold feed
  rw [extend_pendingOf, if_pos (needsMore_iff.2 h), pendingOf_concat]

/-- A line that finishes the text hands it over. -/
theorem feed_of_finished {taken : List String} {line : String}
    (h : Finished (Text.join "\n" (taken ++ [line]))) :
    feed (pendingOf taken) line = (none, some (Text.join "\n" (taken ++ [line]))) := by
  have hmore : ¬needsMore (Text.join "\n" (taken ++ [line])) = true :=
    fun hmore => needsMore_iff.1 hmore h
  unfold feed
  rw [extend_pendingOf, if_neg hmore]

-- ====================================================== what is shown

/-- Everything that asks for the lines of an input, of which there are some
number: the prompt for the first, dots for each further one. -/
def questions (prompt : String) : Nat → String
  | 0 => ""
  | further + 1 => prompt ++ Text.copies (continuation prompt) further

/-- The last question is about what is pending then. -/
theorem questions_succ (prompt : String) (taken : List String) :
    questions prompt (taken.length + 1)
      = questions prompt taken.length ++ promptFor prompt (pendingOf taken) := by
  cases taken with
  | nil => simp [questions, promptFor, pendingOf, Text.copies]
  | cons first rest =>
    simp only [questions, promptFor, pendingOf, Text.copies, List.length_cons, List.replicate_succ',
      String.join_append, String.join_cons, String.join_nil, String.append_empty,
      String.append_assoc]

/-- A prompt for further lines has dots and blanks only. -/
theorem continuation_toList {prompt : String} {c : Char} (h : c ∈ (continuation prompt).toList) :
    c = '.' ∨ c = ' ' := by
  unfold continuation Text.copies at h
  generalize (Text.dropRight prompt ' ').length = n at h
  induction n with
  | zero => exact .inr (by simpa using h)
  | succ n ih =>
    simp only [List.replicate_succ, String.join_cons, String.append_assoc, String.toList_append]
      at h ih
    rcases List.mem_append.1 h with h | h
    · exact .inl (by simpa using h)
    · exact ih (by simpa using h)

/-- The dots can always be shown. -/
theorem isPrompt_continuation (prompt : String) : isPrompt (continuation prompt) = true := by
  have hshown : ∀ l ∈ Text.letters (continuation prompt), ¬Text.isControl l.shown = true := by
    intro l hl
    obtain ⟨b, more, hbytes, -⟩ := Text.lettersFrom_space hl
    have hb : b ∈ l.bytes := by
      rw [hbytes]
      exact List.mem_cons_self
    have hmem : b ∈ (continuation prompt).toList := by
      rw [← List.drop_zero (l := (continuation prompt).toList), ← Text.flatMap_lettersFrom]
      exact List.mem_flatMap.2 ⟨l, hl, hb⟩
    rcases continuation_toList hmem with rfl | rfl
    · rw [Text.lettersFrom_ascii hl (by decide) hb]
      decide
    · rw [Text.lettersFrom_ascii hl (by decide) hb]
      decide
  unfold isPrompt
  rw [Bool.not_eq_true', List.any_eq_false]
  exact hshown

/-- So it can be shown if the prompt itself can. -/
theorem isPrompt_promptFor {prompt : String} (h : isPrompt prompt = true) (pending : Pending) :
    isPrompt (promptFor prompt pending) = true := by
  cases pending with
  | none => exact h
  | some text => exact isPrompt_continuation prompt

end Input

-- ====================================================== a run of the shell

theorem Console.print_print (c : Console) (s t : String) :
    (c.print s).print t = c.print (s ++ t) := by
  simp only [print, String.append_assoc]

namespace Repl

/-- Asks for the lines of an input, of which there are some number. -/
def asking (r : Repl) (count : Nat) : Repl :=
  { r with console := r.console.print (Input.questions r.settings.prompt count) }

/-- Asks for the lines of a group and handles them as one text. -/
def takeGroup (r : Repl) (group : List String) : Repl :=
  { r.asking group.length with pending := none }.handle (Text.join "\n" group)

/-- The shell after it asked for some lines and was given them, which do
not make an input yet. -/
def holding (r : Repl) (taken : List String) : Repl :=
  { r.asking taken.length with pending := Input.pendingOf taken }

variable {r : Repl}

/-- Handling an input leaves the settings as they are. -/
theorem settings_handle (r : Repl) (input : String) : (r.handle input).settings = r.settings := by
  unfold handle
  split
  · rfl
  · rfl

/-- It leaves what is pending as it is. -/
theorem pending_handle (r : Repl) (input : String) : (r.handle input).pending = r.pending := by
  unfold handle
  split
  · rfl
  · rfl

theorem holding_nil (h : r.pending = none) : r.holding [] = r := by
  unfold holding asking Input.pendingOf Console.print
  rw [← h]
  simp [Input.questions]

theorem settings_takeGroup (r : Repl) (group : List String) :
    (r.takeGroup group).settings = r.settings :=
  settings_handle _ _

theorem pending_takeGroup (r : Repl) (group : List String) : (r.takeGroup group).pending = none :=
  pending_handle _ _

/-- What is asked while some lines are held. -/
theorem prompt?_holding (h : Input.isPrompt r.settings.prompt = true) (taken : List String) :
    (r.holding taken).prompt?
      = some (Input.promptFor r.settings.prompt (Input.pendingOf taken)) :=
  if_pos (Input.isPrompt_promptFor h _)

/-- Asking once more is one question more. -/
theorem print_holding (r : Repl) (taken : List String) :
    (r.holding taken).console.print (Input.promptFor r.settings.prompt (Input.pendingOf taken))
      = (r.asking (taken.length + 1)).console := by
  unfold asking
  rw [Input.questions_succ, ← Console.print_print]
  rfl

/-- The shell asks for one more line, and there is none. -/
theorem replay_holding_nil (h : Input.isPrompt r.settings.prompt = true) (taken : List String) :
    replay [] (r.holding taken) = (r.asking (taken.length + 1)).finish := by
  rw [replay, prompt?_holding h]
  dsimp only
  rw [print_holding]
  rfl

/-- The shell asks for one more line and takes it. -/
theorem replay_holding_cons (h : Input.isPrompt r.settings.prompt = true) (taken : List String)
    (line : String) (lines : List String) :
    replay (line :: lines) (r.holding taken)
      = replay lines ({ r.asking (taken.length + 1) with
          pending := Input.pendingOf taken }.feed line) := by
  rw [replay, prompt?_holding h]
  dsimp only
  rw [print_holding]
  rfl

/-- The dialogue holds a line that finishes nothing. -/
theorem feed_of_unfinished {taken : List String} {line : String}
    (h : ¬Input.Finished (Text.join "\n" (taken ++ [line]))) :
    { r.asking (taken.length + 1) with pending := Input.pendingOf taken }.feed line
      = r.holding (taken ++ [line]) := by
  unfold feed holding
  dsimp only
  rw [Input.feed_of_unfinished h, List.length_append]
  rfl

/-- It takes the group that a line finishes. -/
theorem feed_of_finished {taken : List String} {line : String}
    (h : Input.Finished (Text.join "\n" (taken ++ [line]))) :
    { r.asking (taken.length + 1) with pending := Input.pendingOf taken }.feed line
      = r.takeGroup (taken ++ [line]) := by
  unfold feed takeGroup
  dsimp only
  rw [Input.feed_of_finished h, List.length_append]
  rfl

/-- Lines, after some that were taken already: they are cut into groups,
whose texts are the inputs, and the shell takes the groups. -/
theorem exists_cut (lines taken : List String) (htaken : Input.Unfinished taken) :
    ∃ groups rest, Input.Cut (taken ++ lines) groups rest
      ∧ Input.inputs (Input.pendingOf taken) lines = groups.map (Text.join "\n")
      ∧ ∀ r : Repl, Input.isPrompt r.settings.prompt = true →
        replay lines (r.holding taken)
          = ((groups.foldl takeGroup r).asking (rest.length + 1)).finish := by
  induction lines generalizing taken with
  | nil =>
    refine ⟨[], taken, ⟨by simp, List.forall_mem_nil _, htaken⟩, rfl, fun r hprompt => ?_⟩
    exact replay_holding_nil hprompt taken
  | cons line lines ih =>
    rw [List.append_cons]
    by_cases hfinished : Input.Finished (Text.join "\n" (taken ++ [line]))
    · obtain ⟨groups, rest, hcut, hinputs, hreplay⟩ := ih [] Input.unfinished_nil
      refine ⟨_, rest, hcut.cons (htaken.group hfinished), ?_, fun r hprompt => ?_⟩
      · rw [Input.inputs, Input.feed_of_finished hfinished]
        exact congrArg _ hinputs
      · have hnext : Input.isPrompt (r.takeGroup (taken ++ [line])).settings.prompt = true := by
          rw [settings_takeGroup]
          exact hprompt
        rw [replay_holding_cons hprompt, feed_of_finished hfinished, List.foldl_cons,
          ← hreplay _ hnext, holding_nil (pending_takeGroup r _)]
    · obtain ⟨groups, rest, hcut, hinputs, hreplay⟩ :=
        ih (taken ++ [line]) (htaken.concat hfinished)
      refine ⟨groups, rest, hcut, ?_, fun r hprompt => ?_⟩
      · rw [Input.inputs, Input.feed_of_unfinished hfinished]
        exact hinputs
      · rw [replay_holding_cons hprompt, feed_of_unfinished hfinished, hreplay r hprompt]

/-- Typed lines are cut into inputs, in one way, and none is lost: the lines
of the inputs are the lines that were typed, but for those of an input that
is not finished at the end. The shell asks for the first line of each group
with the prompt and for the further ones with dots, handles the group, and
ends after it has asked once more than there are lines left over. Whether
the text taken so far is empty tells which of the two to ask with. -/
theorem replay_takes_groups {r : Repl} (hpending : r.pending = none) {lines : List String}
    (hlines : ∀ line ∈ lines, '\n' ∉ line.toList) :
    ∃ groups rest, Input.Cut lines groups rest
      ∧ (∀ groups' rest', Input.Cut lines groups' rest' → groups' = groups ∧ rest' = rest)
      ∧ Input.inputs none lines = groups.map (Text.join "\n")
      ∧ (Input.inputs none lines).flatMap (Text.split · "\n") ++ rest = lines
      ∧ (Input.isPrompt r.settings.prompt = true →
        replay lines r = ((groups.foldl takeGroup r).asking (rest.length + 1)).finish)
      ∧ ∀ taken, Input.Unfinished taken → (Text.join "\n" taken = "" ↔ taken = []) := by
  obtain ⟨groups, rest, hcut, hinputs, hreplay⟩ := exists_cut lines [] Input.unfinished_nil
  rw [List.nil_append] at hcut
  have hinputs : Input.inputs none lines = groups.map (Text.join "\n") := hinputs
  refine ⟨groups, rest, hcut, fun _ _ h => hcut.unique h, hinputs, ?_, fun hprompt => ?_,
    fun taken htaken => ⟨fun hempty => ?_, fun hnil => by rw [hnil, Text.join]⟩⟩
  · rw [hinputs]
    exact hcut.lines_of_texts hlines
  · rw [← hreplay r hprompt, holding_nil hpending]
  · by_contra hne
    exact htaken.join_ne_empty hne hempty

/-- An empty line, a call over three lines with an empty one inside a string,
a command with an open parenthesis, and a list that is not closed. -/
def mixedLines : List String :=
  ["", "(print \"a", "", "b\")", "_HELP (", "(open"]

/-- A shell without files, modules and history. -/
def bare : Repl where
  settings := ⟨"> ", "", [], [], false, "warn", ""⟩
  console := ⟨(Desk.empty Sample.platform).addSession [] ⟨[], []⟩, "", ""⟩
  history := []
  pending := none

/-- An empty line, a text over three lines, a command, and something that is
left open. -/
theorem replay_takes_groups_mixed :
    (∀ line ∈ mixedLines, '\n' ∉ line.toList) ∧ Input.isPrompt bare.settings.prompt = true
    ∧ Input.inputs none mixedLines = ["", "(print \"a\n\nb\")", "_HELP ("]
    ∧ ∃ groups, groups.map (Text.join "\n") = ["", "(print \"a\n\nb\")", "_HELP ("]
      ∧ Input.Cut mixedLines groups ["(open"]
      ∧ replay mixedLines bare = ((groups.foldl takeGroup bare).asking 2).finish := by
  have hlines : ∀ line ∈ mixedLines, '\n' ∉ line.toList := by decide
  have hprompt : Input.isPrompt bare.settings.prompt = true := by decide
  have hempty : Input.needsMore (Input.extend none "") = false := by cbv
  have hprint : Input.needsMore (Input.extend none "(print \"a") = true := by cbv
  have hinside : Input.needsMore (Input.extend (some (Input.extend none "(print \"a")) "")
      = true := by cbv
  have hclosed : Input.needsMore (Input.extend
      (some (Input.extend (some (Input.extend none "(print \"a")) "")) "b\")") = false := by cbv
  have hcommand : Input.needsMore (Input.extend none "_HELP (") = false := by cbv
  have hopen : Input.needsMore (Input.extend none "(open") = true := by cbv
  have hinputs : Input.inputs none mixedLines = ["", "(print \"a\n\nb\")", "_HELP ("] := by
    unfold mixedLines
    rw [Input.inputs_finished (Bool.eq_false_iff.1 hempty), Input.inputs_more hprint,
      Input.inputs_more hinside, Input.inputs_finished (Bool.eq_false_iff.1 hclosed),
      Input.inputs_finished (Bool.eq_false_iff.1 hcommand), Input.inputs_more hopen, Input.inputs]
    decide
  obtain ⟨groups, rest, hcut, -, htexts, hrest, hreplay, -⟩ :=
    replay_takes_groups (r := bare) rfl hlines
  have hsplit : (["", "(print \"a\n\nb\")", "_HELP ("] : List String).flatMap (Text.split · "\n")
      = ["", "(print \"a", "", "b\")", "_HELP ("] := by decide
  rw [hinputs, hsplit] at hrest
  obtain rfl : rest = ["(open"] :=
    List.append_cancel_left (hrest.trans (rfl : mixedLines = [_, _, _, _, _] ++ ["(open"]))
  exact ⟨hlines, hprompt, hinputs, groups, htexts.symm.trans hinputs, hcut, hreplay hprompt⟩

end Repl

end LispShell
