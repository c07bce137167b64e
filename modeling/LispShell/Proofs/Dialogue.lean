/-
Typing a text line by line comes to the same as running it at once.

Lines are gathered into inputs, and each input is handled when it is
finished. Three things make that the same as one run over the whole text
(`dialogue_eq_execution`):

- the cuts fall between forms. An input that is finished and plain can be
  read, since what can still be completed is never rejected; so the text
  after it can be read too, and no input is left over at the end
  (`inputs_complete`);
- tokens and forms of texts on separate lines are those of the texts one
  after the other (`readAll_line`);
- a run over forms goes on after a failure, and what it does depends on
  the machine but not on the journal, the questions asked or the number a
  form has (`Continues`). So it may be cut and started anew.

Inputs that ask for something else than to be run are left out: commands,
calls for help, and inputs that are blank but not to the lexer.
-/
import LispShell.CommandLine.Input
import LispShell.Proofs.Cancellation
import LispShell.Proofs.Desk
import LispShell.Proofs.Printing
import LispShell.Proofs.Simulation
import LispShell.Proofs.Text.Search
import LispShell.Proofs.Verdict
import LispShell.Shell

namespace LispShell

-- ====================================================== trimmed texts

namespace Text

/-- A letter that starts with a space is blank. -/
theorem lettersFrom_space {skip : Nat} {cs : List Char} {l : Letter}
    (hl : l ∈ lettersFrom skip cs) :
    ∃ b more, l.bytes = b :: more ∧ (b = ' ' → l.isBlank = true) := by
  fun_induction lettersFrom skip cs with
  | case1 => cases hl
  | case2 skip _ rest ih => exact ih hl
  | case3 b rest first ih =>
    rcases List.mem_cons.1 hl with rfl | hl
    · refine ⟨b, _, Letter.first_bytes b rest, ?_⟩
      rintro rfl
      rfl
    · exact ih hl

/-- Trimming leaves no blank in front. -/
theorem trimLetters_cons {ls rest : List Letter} {l : Letter} (h : trimLetters ls = l :: rest) :
    l ∈ ls ∧ l.isBlank = false := by
  have hfront : ls.dropWhile Letter.isBlank = l :: rest
      ++ ((ls.dropWhile Letter.isBlank).reverse.takeWhile Letter.isBlank).reverse := by
    rw [← h, trimLetters, ← List.reverse_append, List.takeWhile_append_dropWhile,
      List.reverse_reverse]
  have hmem : l ∈ ls.dropWhile Letter.isBlank := by
    rw [hfront]
    exact List.mem_cons_self
  have hhead := List.head?_dropWhile_not Letter.isBlank ls
  rw [hfront] at hhead
  exact ⟨(List.dropWhile_sublist _).subset hmem, hhead⟩

/-- A trimmed text does not start with a blank. -/
theorem trim_head (s : String) : (trim s).toList.head? ≠ some ' ' := by
  unfold trim ofLetters
  cases h : trimLetters (letters s) with
  | nil => simp
  | cons l rest =>
    obtain ⟨hl, hblank⟩ := trimLetters_cons h
    obtain ⟨b, more, hbytes, hspace⟩ := lettersFrom_space hl
    simp only [String.toList_ofList, List.flatMap_cons, hbytes, List.cons_append, List.head?_cons]
    intro heq
    rw [hspace (Option.some.inj heq)] at hblank
    cases hblank

end Text

-- ====================================================== what an input asks for

namespace Shell

/-- An input that asks for nothing but to be run: it is no command and no
call for help, and it is blank to the lexer if it is blank. -/
structure Plain (input : String) : Prop where
  noCommand : Text.startsWith (Text.trim input) "_" = false
  noHelp : (Text.cut (Text.trim input) ' ').1 ≠ "?" ∧ (Text.cut (Text.trim input) ' ').1 ≠ "help"
  blank : Text.trim input = "" → ∀ c ∈ input.toList, Token.isDelimiter c = true

/-- The name of a command starts with an underscore. -/
theorem Command.startsWith_name (c : Command) : Text.startsWith c.name "_" = true := by
  cases c <;> decide

/-- What the first word starts with, the text starts with. -/
theorem startsWith_of_word {text piece : String} {c : Char}
    (h : Text.startsWith (Text.cut text c).1 piece = true) : Text.startsWith text piece = true := by
  unfold Text.startsWith Text.cut at *
  rw [List.isPrefixOf_iff_prefix] at *
  rw [String.toList_ofList] at h
  exact h.trans (List.takeWhile_prefix _)

/-- Something that is no blank starts with a word. -/
theorem cut_trim_ne_empty {input : String} (h : Text.trim input ≠ "") :
    (Text.cut (Text.trim input) ' ').1 ≠ "" := by
  have hhead := Text.trim_head input
  intro hword
  have hword' : (Text.trim input).toList.takeWhile (· != ' ') = [] := by
    have := congrArg String.toList hword
    simpa [Text.cut] using this
  cases hcs : (Text.trim input).toList with
  | nil => exact h (String.toList_eq_nil_iff.1 hcs)
  | cons c cs =>
    rw [hcs] at hword' hhead
    by_cases hc : c = ' '
    · exact hhead (congrArg some hc)
    · simp [hc] at hword'

/-- A word that does not is no command. -/
theorem Command.ofName?_eq_none {word : String} (h : Text.startsWith word "_" = false) :
    Command.ofName? word = none := by
  unfold Command.ofName?
  rw [List.find?_eq_none]
  intro c _ hname
  have hstart := Command.startsWith_name c
  rw [beq_iff_eq.1 hname, h] at hstart
  cases hstart

/-- A line that is run: its first word is there, it asks for no help and
names no command. -/
structure Runs (line : String) : Prop where
  nonempty : (Text.cut (Text.trim line) ' ').1 ≠ ""
  noHelp : (Text.cut (Text.trim line) ' ').1 ≠ "?" ∧ (Text.cut (Text.trim line) ' ').1 ≠ "help"
  noCommand : Text.startsWith (Text.cut (Text.trim line) ' ').1 "_" = false

/-- A line that runs is a program as it stands. -/
theorem Runs.request_eq {line : String} (h : Runs line) : request line = .program line := by
  unfold request
  dsimp only
  rw [if_neg (by simpa using h.nonempty), if_neg (by simpa using h.noHelp),
    Command.ofName?_eq_none h.noCommand, h.noCommand]
  rfl

/-- So is a plain one that is not blank. -/
theorem request_of_plain {input : String} (h : Plain input) (hne : Text.trim input ≠ "") :
    request input = .program input := by
  refine Runs.request_eq ⟨cut_trim_ne_empty hne, h.noHelp, Bool.eq_false_iff.2 fun hstart => ?_⟩
  have htext := startsWith_of_word hstart
  rw [h.noCommand] at htext
  cases htext

end Shell

-- ====================================================== lines and their forms

namespace Reader

open Token

/-- Results are all there if each one is. -/
theorem sequence_eq_ok_iff {results : List (Except Fault Form)} {forms : List Form} :
    sequence results = .ok forms ↔ results = forms.map .ok := by
  induction results generalizing forms with
  | nil =>
    cases forms with
    | nil => simp [sequence]
    | cons form forms => simp [sequence]
  | cons result results ih =>
    cases result with
    | error f => cases forms <;> simp [sequence]
    | ok form =>
      rw [sequence]
      constructor
      · intro h
        obtain ⟨rest, hrest, rfl⟩ := map_eq_ok h
        rw [ih.1 hrest]
        rfl
      · intro h
        cases forms with
        | nil => cases h
        | cons form' forms =>
          obtain ⟨hhead, htail⟩ := List.cons.inj h
          cases hhead
          rw [ih.2 htail]
          rfl

/-- Texts on separate lines are read one after the other. -/
theorem readAll_line {source further : String} {forms more : List Form}
    (h : readAll source = .ok forms) (hmore : readAll further = .ok more) :
    readAll (source ++ "\n" ++ further) = .ok (forms ++ more) := by
  obtain ⟨tokens, hlex, hdenotes⟩ := readAll_eq_ok_iff.1 h
  obtain ⟨tokens', hlex', hdenotes'⟩ := readAll_eq_ok_iff.1 hmore
  have hline : ∀ c ∈ "\n".toList, isDelimiter c = true := List.all_eq_true.1 (by decide)
  have hyields : Yields (source ++ "\n" ++ further).toList (tokens ++ tokens') := by
    rw [String.append_assoc, String.toList_append, String.toList_append]
    refine (yields_of_lex hlex).append ((yields_of_lex hlex').blanks_append hline) ?_
    intro c hc
    cases hc
    decide
  exact readAll_eq_ok_iff.2 ⟨_, hyields.lex_eq, hdenotes.append hdenotes'⟩

/-- The forms of a text that can be read. -/
def formsOf (source : String) : List Form :=
  match readAll source with
  | .ok forms => forms
  | .error _ => []

/-- What can be read is read as its forms. -/
theorem readAll_formsOf {source : String} (h : ∃ forms, readAll source = .ok forms) :
    readAll source = .ok (formsOf source) := by
  obtain ⟨forms, hforms⟩ := h
  rw [formsOf, hforms]

theorem readAll_of_delimiters {source : String}
    (h : ∀ c ∈ source.toList, isDelimiter c = true) : readAll source = .ok [] := by
  have hyields := yields_nil.blanks_append h
  rw [List.append_nil] at hyields
  exact readAll_eq_ok_iff.2 ⟨[], hyields.lex_eq, .nil⟩

/-- Texts that can be read by themselves are read one after the other when
they are joined. -/
theorem readAll_join {sources : List String}
    (h : ∀ source ∈ sources, ∃ forms, readAll source = .ok forms) :
    readAll (Text.join "\n" sources) = .ok (sources.flatMap formsOf) := by
  induction sources with
  | nil =>
    show readAll "" = .ok []
    exact readAll_of_delimiters fun c hc => nomatch hc
  | cons source rest ih =>
    obtain ⟨hsource, hrest⟩ := List.forall_mem_cons.1 h
    have hread := readAll_formsOf hsource
    cases rest with
    | nil =>
      rw [List.flatMap_cons, List.flatMap_nil, List.append_nil]
      exact hread
    | cons next rest => exact readAll_line hread (ih hrest)

end Reader

-- ====================================================== inputs

namespace Input

open Reader

/-- What is pending and a line are one text already. -/
theorem join_extend (pending : Pending) (line : String) (rest : List String) :
    Text.join "\n" (pending.toList ++ line :: rest)
      = Text.join "\n" (extend pending line :: rest) := by
  cases pending with
  | none => rfl
  | some text =>
    show Text.join "\n" (text :: line :: rest) = Text.join "\n" ((text ++ "\n" ++ line) :: rest)
    cases rest with
    | nil => rfl
    | cons next rest =>
      rw [Text.join_cons _ (List.cons_ne_nil _ _), Text.join_cons _ (List.cons_ne_nil _ _),
        Text.join_cons _ (List.cons_ne_nil _ _)]
      simp only [String.append_assoc]

/-- An unfinished input waits for the next line. -/
theorem inputs_more {pending : Pending} {line : String} (h : needsMore (extend pending line) = true)
    (rest : List String) :
    inputs pending (line :: rest) = inputs (some (extend pending line)) rest := by
  have hfeed : feed pending line = (some (extend pending line), none) := by
    rw [feed, if_pos h]
  rw [inputs.eq_def]
  dsimp only
  rw [hfeed]

/-- A finished one is handed over. -/
theorem inputs_finished {pending : Pending} {line : String}
    (h : needsMore (extend pending line) ≠ true) (rest : List String) :
    inputs pending (line :: rest) = extend pending line :: inputs none rest := by
  have hfeed : feed pending line = (none, some (extend pending line)) := by
    rw [feed, if_neg h]
  rw [inputs.eq_def]
  dsimp only
  rw [hfeed]

/-- A finished input that the text goes on from can be read. -/
theorem readAll_of_finished {text continuation : String} {forms : List Form}
    (hdone : needsMore text ≠ true) (hplain : Text.startsWith (Text.trim text) "_" = false)
    (h : readAll (text ++ continuation) = .ok forms) : ∃ forms, readAll text = .ok forms := by
  rcases incomplete_of_completable h with hok | ⟨f, hf, hincomplete⟩
  · exact hok
  · simp [needsMore, hplain, hf, hincomplete] at hdone

/-- Lines that make a text that can be read: the inputs make up the text,
each of them can be read, and none is left over. -/
theorem inputs_complete {pending : Pending} {lines : List String} {forms : List Form}
    (hpending : ∀ text, pending = some text → needsMore text = true)
    (hread : readAll (Text.join "\n" (pending.toList ++ lines)) = .ok forms)
    (hplain : ∀ input ∈ inputs pending lines, Text.startsWith (Text.trim input) "_" = false) :
    Text.join "\n" (inputs pending lines) = Text.join "\n" (pending.toList ++ lines)
      ∧ (∀ input ∈ inputs pending lines, ∃ forms, readAll input = .ok forms)
      ∧ (inputs pending lines = [] → pending.toList ++ lines = []) := by
  induction lines generalizing pending forms with
  | nil =>
    cases pending with
    | none => exact ⟨rfl, fun _ h => absurd h List.not_mem_nil, fun _ => rfl⟩
    | some text =>
      -- an input that needs more cannot be read
      have hmore := hpending text rfl
      have htext : readAll text = .ok forms := hread
      simp [needsMore, htext] at hmore
  | cons line rest ih =>
    rw [join_extend] at hread ⊢
    by_cases hmore : needsMore (extend pending line) = true
    · rw [inputs_more hmore] at hplain ⊢
      obtain ⟨hjoin, heach, hnone⟩ := ih (fun _ h => Option.some.inj h ▸ hmore) hread hplain
      exact ⟨hjoin, heach, fun h => absurd (hnone h) (List.cons_ne_nil _ _)⟩
    · rw [inputs_finished hmore] at hplain ⊢
      generalize extend pending line = text at hread hplain hmore ⊢
      obtain ⟨hown, hothers⟩ := List.forall_mem_cons.1 hplain
      cases rest with
      | nil =>
        refine ⟨rfl, List.forall_mem_cons.2 ⟨⟨forms, hread⟩, ?_⟩, fun h => nomatch h⟩
        exact fun _ h => absurd h List.not_mem_nil
      | cons next rest =>
        rw [Text.join_cons _ (List.cons_ne_nil next rest)] at hread ⊢
        obtain ⟨own, htext⟩ := readAll_of_finished hmore hown (String.append_assoc ▸ hread)
        obtain ⟨more, hnext⟩ := readAll_of_line htext hread
        obtain ⟨hjoin, heach, hnone⟩ := @ih none more (fun _ h => nomatch h) hnext hothers
        refine ⟨?_, List.forall_mem_cons.2 ⟨⟨own, htext⟩, heach⟩, fun h => nomatch h⟩
        rw [Text.join_cons _ fun h => List.cons_ne_nil _ _ (hnone h), hjoin]
        rfl

end Input

-- ====================================================== runs that go on

variable {σ : Type}

/-- The first machine is the second in the middle of a run: before, `base`
was shown. -/
structure Machine.Continues (base : List Event) (m m' : Machine σ) : Prop where
  frames : m'.frames = m.frames
  imports : m'.imports = m.imports
  host : m'.host = m.host
  cells : m'.cells = m.cells
  made : m'.made = m.made
  shown : m.journal.filter Event.isShown = m'.journal.filter Event.isShown ++ base

namespace Machine.Continues

variable {base : List Event} {m m' : Machine σ}

theorem note (h : Continues base m m') (events : List Event) :
    (events ++ m.journal).filter Event.isShown
      = (events ++ m'.journal).filter Event.isShown ++ base := by
  rw [List.filter_append, List.filter_append, h.shown, List.append_assoc]

/-- Storing the same in both. -/
theorem store_related (base : List Event) (stored : Cells) :
    Eval.Related (Continues (σ := σ) base) (Eval.store stored) (Eval.store stored) := by
  unfold Eval.store
  split
  · exact .pure ()
  · exact .modify fun m m' h => { h with
      cells := congrArg (_ ++ ·) h.cells
      shown := h.note [_] }

/-- No script of the host can tell the machines apart. -/
theorem script_alike (base : List Event) (script : Script σ) :
    Script.Alike (Continues base) script script := by
  induction script with
  | finish answer => exact .finish answer
  | eval code next ih => exact .eval code ih
  | get next ih =>
    refine .get fun m m' h => ?_
    rw [h.host, h.cells]
    exact ih m.host m.cells
  | set state stored next ih =>
    exact .set (fun _ _ h => { h with host := rfl }) (store_related base stored) ih
  | lookup frame name next ih => exact .lookup (fun m m' h => by rw [h.frames]) ih
  | bind frame name value next ih =>
    refine .bind (.modify fun m m' h => ?_) ih
    exact { h with frames := by rw [h.frames], shown := h.note [_] }

end Machine.Continues

/-- Without a limit to its patience, a run cannot tell what was before. -/
theorem Machine.Continues.simulation (base : List Event) (host : Host σ) {site : Site}
    (hsite : site.patience = none) :
    Simulation host site site (Machine.Continues base) where
  session := rfl
  checkpoint := by
    rw [hsite]
    exact fun m m' h => .done (.ok ()) { h with shown := h.shown }
  record e := .modify fun m m' h => { h with shown := h.note [e] }
  cells h := h.cells
  store := Machine.Continues.store_related base
  made h := h.made
  count _ h := { h with made := rfl }
  visible h name := by rw [h.frames]
  define name v := .modify fun m m' h =>
    { h with frames := by rw [h.frames], shown := h.note [_] }
  importModule name := by
    refine .importModule (fun h => h.imports) (fun h => h.host)
      (.newMark (fun h => h.made) (fun h => h.cells) fun _ h => { h with made := rfl }) ?_ ?_
    · intro m m' state events h
      exact { h with host := rfl, shown := h.note events }
    · intro m m' v h
      exact { h with imports := by rw [h.imports] }
  found h module name := by rw [h.host]
  listed h module := by rw [h.host]
  call p args := Machine.Continues.script_alike base _
  invoke module name args := Machine.Continues.script_alike base _

namespace Interpreter

open Eval

/-- What a run does after a form, if nothing ends it early. -/
def afterForm (report : Except Failure Value → Eval σ Unit) (index : Nat) :
    Except Failure Value → Eval σ Unit
  | .ok v => report (.ok v)
  | .error e =>
    Eval.bind (record (.logged (formFailed index e))) fun _ =>
      Eval.bind (report (.error e)) fun _ => checkpoint none

/-- Runs forms for what happens on the way. -/
def runAll (i : Interpreter σ) (report : Except Failure Value → Eval σ Unit) (index : Nat) :
    List (Except Fault Form) → Eval σ Unit
  | [] => Eval.pure ()
  | form :: rest =>
    Eval.bind (attempt (i.evalRead form)) fun outcome =>
      Eval.bind (afterForm report index outcome) fun _ => runAll i report (index + 1) rest

/-- Without a limit, running forms ends with all of them run. -/
theorem bind_runForms {i : Interpreter σ} (hi : i.site.patience = none)
    (report : Except Failure Value → Eval σ Unit) (index : Nat)
    (forms : List (Except Fault Form)) :
    Eval.bind (i.runForms report index forms) (fun _ => Eval.pure ())
      = i.runAll report index forms := by
  induction forms generalizing index with
  | nil => rfl
  | cons form rest ih =>
    have hrest : ∀ outcome : Except Failure Value,
        Eval.bind (Eval.bind (i.runForms report (index + 1) rest) fun further =>
            Eval.pure (outcome :: further)) (fun _ => Eval.pure ())
          = i.runAll report (index + 1) rest := by
      intro outcome
      rw [bind_assoc, ← ih]
      rfl
    unfold runForms runAll
    refine (bind_assoc _ _ _).trans (congrArg _ (funext fun outcome => ?_))
    cases outcome with
    | ok v => exact (bind_assoc _ _ _).trans (congrArg _ (funext fun _ => hrest (.ok v)))
    | error e =>
      rw [hi, afterForm, bind_assoc]
      refine (bind_assoc _ _ _).trans (congrArg _ (funext fun _ => ?_))
      rw [bind_assoc]
      refine (bind_assoc _ _ _).trans (congrArg _ (funext fun _ => ?_))
      funext m
      exact congrFun (hrest (.error e)) _

/-- Running forms and then more forms. -/
theorem runAll_append (i : Interpreter σ) (report : Except Failure Value → Eval σ Unit)
    (index : Nat) (forms more : List (Except Fault Form)) :
    i.runAll report index (forms ++ more)
      = Eval.bind (i.runAll report index forms) fun _ =>
          i.runAll report (index + forms.length) more := by
  induction forms generalizing index with
  | nil => rfl
  | cons form rest ih =>
    rw [List.cons_append, runAll, runAll, bind_assoc]
    refine congrArg _ (funext fun outcome => ?_)
    rw [bind_assoc]
    refine congrArg _ (funext fun _ => ?_)
    rw [ih, List.length_cons, Nat.add_assoc, Nat.add_comm 1]

/-- A run never ends with a failure. -/
theorem runAll_writeOutcome (i : Interpreter σ) (index : Nat) (forms : List (Except Fault Form))
    (m : Machine σ) :
    i.runAll writeOutcome index forms m = .spent
      ∨ ∃ m', i.runAll writeOutcome index forms m = .done (.ok ()) m' := by
  induction forms generalizing index m with
  | nil => exact .inr ⟨m, rfl⟩
  | cons form rest ih =>
    unfold runAll
    cases hform : i.evalRead form m with
    | spent =>
      left
      simp only [Eval.bind, attempt, hform]
    | done outcome m₁ =>
      rw [bind_attempt hform]
      cases outcome with
      | ok v => exact ih (index + 1) _
      | error e => exact ih (index + 1) _

/-- The numbers of the forms play no part. -/
theorem runAll_related (i : Interpreter σ) (hi : i.site.patience = none) (base : List Event)
    (index index' : Nat) (forms : List (Except Fault Form)) :
    Related (Machine.Continues base) (i.runAll writeOutcome index forms)
      (i.runAll writeOutcome index' forms) := by
  rw [← bind_runForms hi, ← bind_runForms hi]
  refine ((Machine.Continues.simulation base i.host hi).runForms (fun _ _ => ?_) (fun outcome => ?_)
    index index' forms).bind fun _ => .pure ()
  · exact .modify fun _ _ h => { h with shown := h.shown }
  · cases outcome with
    | ok v =>
      unfold writeOutcome
      refine .bind_get fun m m' hm => ?_
      rw [hm.cells]
      exact .modify fun _ _ h => { h with shown := h.note [_] }
    | error e => exact .modify fun _ _ h => { h with shown := h.note [_] }

/-- A text that can be read is run form by form. -/
theorem execute_eq {i : Interpreter σ} (hi : i.site.patience = none) {source : String}
    {forms : List Form} (h : Reader.readAll source = .ok forms) :
    Shell.execute i source = i.runAll writeOutcome 0 (forms.map .ok) := by
  unfold Reader.readAll at h
  unfold Shell.execute exec runSource
  cases hlex : Token.lex source with
  | error f =>
    rw [hlex] at h
    cases h
  | ok tokens =>
    rw [hlex] at h
    rw [← Reader.sequence_eq_ok_iff.1 h, ← bind_runForms hi]
    exact bind_assoc _ _ _

end Interpreter

-- ====================================================== transcripts

/-- What can be seen of a run and what it left. -/
structure Transcript (σ : Type) where
  desk : Desk σ
  written : String
  printed : String

namespace Transcript

variable {α : Type}

def ofRun (r : Run σ α) : Transcript σ :=
  ⟨r.desk, Event.writtenText r.events, Event.printedText r.events⟩

/-- A transcript after what a run wrote and printed before it. -/
def after (r : Run σ α) (t : Transcript σ) : Transcript σ :=
  ⟨t.desk, Event.writtenText r.events ++ t.written, Event.printedText r.events ++ t.printed⟩

end Transcript

namespace Shell

variable (host : Host σ) (depth : Nat) (read : σ → String → Except Failure String) (s : Nat)

/-- Handles inputs one after the other for a session; blank ones are
skipped. Files are read with `read`. -/
def dialogue : List String → Desk σ → Option (Transcript σ)
  | [], d => some ⟨d, "", ""⟩
  | input :: rest, d =>
    if Text.trim input == "" then dialogue rest d
    else
      (d.run s (handle (d.interpreter host depth none s) (read d.host) input)).bind fun r =>
        (dialogue rest r.desk).map (Transcript.after r)

/-- Runs a whole text for a session. -/
def execution (source : String) (d : Desk σ) : Option (Transcript σ) :=
  (d.run s ((d.interpreter host depth none s).exec source)).map Transcript.ofRun

end Shell

namespace Transcript

variable {α : Type} {d : Desk σ} {s : Nat}

/-- The transcript of a computation for a session. -/
def ofOutcome (d : Desk σ) (s : Nat) : Outcome σ α → Option (Transcript σ)
  | .done _ m => some
      ⟨d.putBack s m, Event.writtenText m.journal.reverse, Event.printedText m.journal.reverse⟩
  | .spent => none

/-- What a run leaves is what the outcome leaves. -/
theorem map_run (d : Desk σ) (s : Nat) (x : Eval σ α) :
    (d.run s x).map ofRun = ofOutcome d s (x (d.machine s)) := by
  unfold Desk.run
  cases x (d.machine s) with
  | done answer m => rfl
  | spent => rfl

theorem ofOutcome_bind_pure {β : Type} (x : Eval σ α) (f : α → β) (m : Machine σ) :
    ofOutcome d s (Eval.bind x (fun a => Eval.pure (f a)) m) = ofOutcome d s (x m) := by
  unfold Eval.bind
  cases x m with
  | spent => rfl
  | done answer m =>
    cases answer with
    | ok a => rfl
    | error e => rfl

/-- A run that goes on beside one that was started anew where it was. -/
theorem ofOutcome_of_continues {r : Run σ Unit} {m : Machine σ} {o o' : Outcome σ α}
    (hr : r = ⟨.ok (), m.journal.reverse, d.putBack s m⟩)
    (h : o.Alike (Machine.Continues (m.journal.filter Event.isShown)) o') :
    (ofOutcome r.desk s o').map (after r) = ofOutcome d s o := by
  subst hr
  cases h with
  | spent => rfl
  | @done answer n n' h =>
    have hjournal : n.journal.reverse.filter Event.isShown
        = m.journal.reverse.filter Event.isShown ++ n'.journal.reverse.filter Event.isShown := by
      rw [List.filter_reverse, h.shown, List.reverse_append, List.filter_reverse,
        List.filter_reverse]
    have hdesk : (d.putBack s m).putBack s n' = d.putBack s n := by
      rw [Desk.putBack_putBack]
      unfold Desk.putBack
      rw [h.frames, h.imports, h.host, h.cells, h.made]
    show some (Transcript.mk _ _ _) = some (Transcript.mk _ _ _)
    rw [hdesk, ← Event.writtenText_shown n.journal.reverse,
      ← Event.printedText_shown n.journal.reverse, hjournal, Event.writtenText_append,
      Event.printedText_append, Event.writtenText_shown, Event.writtenText_shown,
      Event.printedText_shown, Event.printedText_shown]

end Transcript

namespace Shell

open Interpreter Reader

variable (host : Host σ) (depth : Nat) (read : σ → String → Except Failure String) (s : Nat)

/-- Inputs that can be read are run one after the other, form by form. -/
theorem dialogue_eq_runAll {inputs : List String} (hplain : ∀ input ∈ inputs, Plain input)
    (hread : ∀ input ∈ inputs, ∃ forms, readAll input = .ok forms) {d : Desk σ}
    (hs : d.IsSession s) :
    dialogue host depth read s inputs d
      = Transcript.ofOutcome d s ((d.interpreter host depth none s).runAll writeOutcome 0
          ((inputs.flatMap formsOf).map .ok) (d.machine s)) := by
  induction inputs generalizing d with
  | nil =>
    show some (Transcript.mk d "" "") = some (Transcript.mk (d.putBack s (d.machine s)) "" "")
    rw [Desk.putBack_machine hs]
  | cons input rest ih =>
    obtain ⟨hinput, hplain⟩ := List.forall_mem_cons.1 hplain
    obtain ⟨hforms, hread⟩ := List.forall_mem_cons.1 hread
    rw [List.flatMap_cons, List.map_append]
    unfold dialogue
    by_cases hblank : Text.trim input = ""
    · rw [if_pos (by simp [hblank]), ih hplain hread hs]
      have hnone : formsOf input = [] := by
        rw [formsOf, readAll_of_delimiters (hinput.blank hblank)]
      rw [hnone]
      rfl
    · have hhandle : handle (d.interpreter host depth none s) (read d.host) input
          = (d.interpreter host depth none s).runAll writeOutcome 0 ((formsOf input).map .ok) := by
        unfold handle
        rw [request_of_plain hinput hblank]
        exact execute_eq rfl (readAll_formsOf hforms)
      rw [if_neg (by simpa using hblank), hhandle, runAll_append]
      -- between two inputs the session is put back and taken out again, which only empties the
      -- journal; the rest runs the same from there
      rcases runAll_writeOutcome (d.interpreter host depth none s) 0 ((formsOf input).map .ok)
        (d.machine s) with hspent | ⟨m, hdone⟩
      · have hrun := Desk.run_spent hspent
        rw [hrun]
        simp only [Eval.bind, hspent]
        rfl
      · have hrun := Desk.run_done hdone
        have hroot : (d.putBack s m).interpreter host depth none s
            = d.interpreter host depth none s := by
          unfold Desk.interpreter
          rw [Desk.root_putBack]
        have hcontinues : Machine.Continues (m.journal.filter Event.isShown) m
            ((d.putBack s m).machine s) := by
          rw [Desk.machine_putBack hs]
          exact ⟨rfl, rfl, rfl, rfl, rfl, rfl⟩
        rw [hrun, Eval.bind_done hdone]
        show (dialogue host depth read s rest (d.putBack s m)).map (Transcript.after _) = _
        rw [ih hplain hread (hs.putBack s m), hroot]
        exact Transcript.ofOutcome_of_continues rfl
          (runAll_related _ rfl _ _ 0 _ _ _ hcontinues)

/-- Lines that are typed come to the same as their text run at once: the
same is written, the same is printed, and the desk is left the same, with
its frames and import tables. -/
theorem dialogue_eq_execution {d : Desk σ} (hs : d.IsSession s) {lines : List String}
    {forms : List Form} (hread : readAll (Text.join "\n" lines) = .ok forms)
    (hplain : ∀ input ∈ Input.inputs none lines, Plain input) :
    dialogue host depth read s (Input.inputs none lines) d
      = execution host depth s (Text.join "\n" lines) d := by
  obtain ⟨hjoin, heach, -⟩ := @Input.inputs_complete none lines forms (fun _ h => nomatch h) hread
    fun input hinput => (hplain input hinput).noCommand
  have hjoin : Text.join "\n" (Input.inputs none lines) = Text.join "\n" lines := hjoin
  have hwhole := readAll_join heach
  rw [hjoin] at hwhole
  rw [dialogue_eq_runAll host depth read s hplain heach hs, ← execute_eq rfl hwhole, execution,
    Transcript.map_run]
  exact Transcript.ofOutcome_bind_pure _ _ _

/-- A definition over two lines, a blank line, and a line with two
forms. -/
def typedLines : List String :=
  ["(define a", "  \"(\")", " \t", "a b"]

/-- A form over two lines, two forms on one line and a blank line. -/
theorem dialogue_eq_execution_lines :
    (∀ input ∈ Input.inputs none typedLines, Plain input)
    ∧ dialogue Platform.host 3 Platform.read 0 (Input.inputs none typedLines)
        ((Desk.empty Sample.platform).addSession [] ⟨[], []⟩)
      = execution Platform.host 3 0 (Text.join "\n" typedLines)
        ((Desk.empty Sample.platform).addSession [] ⟨[], []⟩) := by
  have hread : readAll (Text.join "\n" typedLines)
      = .ok [.list () [.symbol "define", .symbol "a", .symbol "\"(\""], .symbol "a",
          .symbol "b"] := by
    cbv
  have hopen : Input.needsMore (Input.extend none "(define a") = true := by cbv
  have hclosed : Input.needsMore (Input.extend (some (Input.extend none "(define a")) "  \"(\")")
      = false := by cbv
  have hblank : Input.needsMore (Input.extend none " \t") = false := by cbv
  have hlast : Input.needsMore (Input.extend none "a b") = false := by cbv
  have hplain : ∀ input ∈ Input.inputs none typedLines, Plain input := by
    have htrim : Text.trim (Input.extend (some (Input.extend none "(define a")) "  \"(\")")
        = "(define a\n  \"(\")" := by cbv
    have htrim' : Text.trim (Input.extend none " \t") = "" := by cbv
    have htrim'' : Text.trim (Input.extend none "a b") = "a b" := by cbv
    unfold typedLines
    rw [Input.inputs_more hopen, Input.inputs_finished (Bool.eq_false_iff.1 hclosed),
      Input.inputs_finished (Bool.eq_false_iff.1 hblank),
      Input.inputs_finished (Bool.eq_false_iff.1 hlast)]
    simp only [List.forall_mem_cons]
    refine ⟨⟨?_, ?_, fun h => absurd (htrim.symm.trans h) (by decide)⟩,
      ⟨?_, ?_, fun _ => List.all_eq_true.1 (by decide)⟩,
      ⟨?_, ?_, fun h => absurd (htrim''.symm.trans h) (by decide)⟩, List.forall_mem_nil _⟩
    all_goals simp only [htrim, htrim', htrim'']
    all_goals decide
  exact ⟨hplain, dialogue_eq_execution _ _ _ _ ⟨by decide, by decide⟩ hread hplain⟩

end Shell

end LispShell
