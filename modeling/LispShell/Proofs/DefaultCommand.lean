/-
A program can be run by itself or by the command `_EXEC`.

A line that names no command is run as it stands. With a command in front
the line is trimmed first, so what the command gets is the line without
the blanks at its end (`request_command`). To the lexer most of these
blanks are nothing at all, but not every blank: the lexer knows those of
ASCII only, and any other is part of a word to it. So the two ways to run
a line give the same tokens exactly if its last blanks are all of ASCII,
or if it ends inside of a literal, which is the same mistake with and
without them (`lex_trimEnd_iff`).

That tokens differ if another blank is dropped is seen by counting: the
tokens hold every byte of a text that is no delimiter, as often as the
text does (`count_tokens`).
-/
import LispShell.Proofs.Derivation
import LispShell.Proofs.Dialogue
import LispShell.Proofs.Echo
import LispShell.Proofs.Lexing
import Mathlib.Data.List.DropRight

namespace LispShell

-- ====================================================== blanks at the end

namespace Text

/-- The text without the blanks at its end. -/
def trimEnd (s : String) : String :=
  ofLetters ((letters s).rdropWhile Letter.isBlank)

/-- The blanks at the end of a text. -/
def blankEnd (s : String) : String :=
  ofLetters ((letters s).rtakeWhile Letter.isBlank)

/-- A text is its trimmed part and the blanks after it. -/
theorem trimEnd_append_blankEnd (s : String) : trimEnd s ++ blankEnd s = s := by
  rw [trimEnd, blankEnd, ofLetters, ofLetters, ← String.ofList_append, ← List.flatMap_append,
    List.rdropWhile_append_rtakeWhile]
  exact ofLetters_letters s

/-- No blank is a quote. -/
theorem quote_not_mem_blankEnd (s : String) : '"' ∉ (blankEnd s).toList := by
  intro hquote
  rw [blankEnd, ofLetters, String.toList_ofList, List.mem_flatMap] at hquote
  obtain ⟨l, hl, hquote⟩ := hquote
  have hblank := List.mem_rtakeWhile_imp hl
  have hmem := (List.rtakeWhile_suffix Letter.isBlank (letters s)).subset hl
  rw [lettersFrom_ascii hmem (by decide) hquote] at hblank
  cases hblank

/-- ASCII bytes in front of a text are letters of their own. -/
theorem letters_append_ascii {a : String} (h : ∀ c ∈ a.toList, c.toNat < 0x80) (s : String) :
    letters (a ++ s) = a.toList.map (fun c => ⟨[c], some c⟩) ++ letters s := by
  unfold letters
  rw [String.toList_append]
  generalize a.toList = cs at h
  induction cs with
  | nil => rfl
  | cons c cs ih =>
    obtain ⟨hc, hcs⟩ := List.forall_mem_cons.1 h
    have hfirst : Letter.first c (cs ++ s.toList) = ⟨[c], some c⟩ :=
      Letter.first_ascii hc (by rw [Letter.first_bytes]; exact List.mem_cons_self)
    rw [List.cons_append, lettersFrom, hfirst, List.map_cons, List.cons_append]
    exact congrArg _ (ih hcs)

/-- A text that is not blank, after ASCII that starts with no blank: only
its end is trimmed. -/
theorem trim_append_ascii {a s : String} (hascii : ∀ c ∈ a.toList, c.toNat < 0x80)
    (hhead : ∀ c ∈ a.toList.head?, isBlank c = false) (hne : a ≠ "") (hs : trim s ≠ "") :
    trim (a ++ s) = a ++ trimEnd s := by
  obtain ⟨c, cs, hcs⟩ := List.exists_cons_of_ne_nil (mt String.toList_eq_nil_iff.1 hne)
  have hfront : (letters (a ++ s)).dropWhile Letter.isBlank = letters (a ++ s) := by
    have hc : Letter.isBlank ⟨[c], some c⟩ = false := hhead c (by rw [hcs]; rfl)
    rw [letters_append_ascii hascii, hcs, List.map_cons, List.cons_append,
      List.dropWhile_cons_of_neg (by rw [hc]; exact Bool.false_ne_true)]
  have hend : (letters s).reverse.dropWhile Letter.isBlank ≠ [] := by
    intro hnil
    -- a letter that trimming leaves is in the text and is not blank
    cases htrim : trimLetters (letters s) with
    | nil => exact hs (by rw [trim, htrim]; rfl)
    | cons l rest =>
      obtain ⟨hl, hblank⟩ := trimLetters_cons htrim
      have hall := List.dropWhile_eq_nil_iff.1 hnil l (List.mem_reverse.2 hl)
      rw [hblank] at hall
      cases hall
  have hletters : trimLetters (letters (a ++ s))
      = a.toList.map (fun c => ⟨[c], some c⟩) ++ (letters s).rdropWhile Letter.isBlank := by
    rw [trimLetters, hfront, letters_append_ascii hascii, List.reverse_append,
      List.dropWhile_append, if_neg (by simpa using hend), List.reverse_append,
      List.reverse_reverse]
    rfl
  have hbytes : ∀ cs : List Char,
      (cs.map fun c => (⟨[c], some c⟩ : Letter)).flatMap (·.bytes) = cs := by
    intro cs
    simp [List.flatMap_map]
  apply String.toList_inj.1
  rw [trim, hletters, ofLetters, String.toList_ofList, List.flatMap_append, hbytes,
    String.toList_append, trimEnd, ofLetters, String.toList_ofList]

end Text

-- ====================================================== tokens without them

namespace Token

/-- Blanks that delimit tokens change nothing at the end of a text. -/
theorem lex_append_gap {gap : String} (h : IsGap gap) (a : String) : lex (a ++ gap) = lex a := by
  have hquotes : gap.toList.count '"' = 0 := by
    refine List.count_eq_zero.2 fun hquote => ?_
    exact absurd (h _ hquote) (by decide)
  cases hlex : lex a with
  | error f =>
    obtain ⟨rfl, hodd⟩ := lex_eq_error_iff.1 hlex
    refine lex_eq_error_iff.2 ⟨rfl, ?_⟩
    rw [String.toList_append, List.count_append, hquotes]
    exact hodd
  | ok tokens =>
    have hboundary : Boundary gap.toList := fun c hc =>
      not_ordinary_of_isDelimiter (h c (List.mem_of_mem_head? hc))
    have hgap := scan_gap h []
    rw [List.append_nil] at hgap
    rw [lex, String.toList_append, yields_of_lex hlex _ hboundary, hgap]
    simp [scan, flush, Except.map]

/-- The tokens of a text hold each byte that is no delimiter as often as
the text does. -/
theorem count_tokens {source : String} {tokens : List Token} (h : lex source = .ok tokens)
    {c : Char} (hc : isDelimiter c = false) :
    (tokens.flatMap (·.toList)).count c = source.toList.count c := by
  obtain ⟨lead, pieces, ⟨rfl, hlead, hgaps, -, -⟩, rfl⟩ := lex_eq_ok_iff.1 h
  clear h
  have hgap : ∀ {gap : String}, IsGap gap → gap.toList.count c = 0 := by
    intro gap hgap
    refine List.count_eq_zero.2 fun hmem => ?_
    rw [hgap c hmem] at hc
    cases hc
  induction pieces generalizing lead with
  | nil => exact (hgap hlead).symm
  | cons p rest ih =>
    obtain ⟨token, gap⟩ := p
    obtain ⟨hfirst, hgaps⟩ := List.forall_mem_cons.1 hgaps
    rw [List.map_cons, List.flatMap_cons, List.count_append, ih gap hfirst hgaps,
      toList_assembled_cons, List.count_append, List.count_append, hgap hlead, Nat.zero_add]

/-- Whether the blanks at the end of a text are nothing to the lexer. -/
def EndsPlainly (source : String) : Prop :=
  IsGap (Text.blankEnd source) ∨ source.toList.count '"' % 2 = 1

/-- Trimming the end of a text leaves its tokens as they are exactly if the
blanks there all delimit tokens, or a literal is open. -/
theorem lex_trimEnd_iff (source : String) :
    lex (Text.trimEnd source) = lex source ↔ EndsPlainly source := by
  have hsource := Text.trimEnd_append_blankEnd source
  have hcount : ∀ c, source.toList.count c
      = (Text.trimEnd source).toList.count c + (Text.blankEnd source).toList.count c := by
    intro c
    rw [← List.count_append, ← String.toList_append, hsource]
  have hquotes : source.toList.count '"' = (Text.trimEnd source).toList.count '"' := by
    rw [hcount, List.count_eq_zero.2 (Text.quote_not_mem_blankEnd source), Nat.add_zero]
  constructor
  · intro hlex
    cases htokens : lex source with
    | error f => exact .inr (lex_eq_error_iff.1 htokens).2
    | ok tokens =>
      refine .inl fun c hc => ?_
      by_contra hdelimiter
      rw [htokens] at hlex
      -- a byte that was dropped is missing among the tokens
      have hwhole := count_tokens htokens (Bool.eq_false_iff.2 hdelimiter)
      have htrimmed := count_tokens hlex (Bool.eq_false_iff.2 hdelimiter)
      have hpos := List.count_pos_iff.2 hc
      have hsum := hcount c
      omega
  · rintro (hgap | hodd)
    · rw [← lex_append_gap hgap (Text.trimEnd source), hsource]
    · rw [lex_eq_error_iff.2 ⟨rfl, hodd⟩, lex_eq_error_iff.2 ⟨rfl, hquotes ▸ hodd⟩]

end Token

-- ====================================================== the default command

namespace Shell

variable {σ : Type}

/-- The names of commands are ASCII. -/
theorem Command.name_ascii (c : Command) :
    ∀ b ∈ (c.name ++ " ").toList, b.toNat < 0x80 := by
  have hall : (c.name ++ " ").toList.all (fun b => decide (b.toNat < 0x80)) = true := by
    cases c <;> decide
  exact fun b hb => of_decide_eq_true (List.all_eq_true.1 hall b hb)

/-- A command gets the line after it without the blanks at its end. -/
theorem request_command (c : Command) {line : String} (h : Text.trim line ≠ "") :
    request (c.name ++ " " ++ line) = .command c (Text.trimEnd line) := by
  have htrim : Text.trim (c.name ++ " " ++ line) = c.name ++ " " ++ Text.trimEnd line := by
    refine Text.trim_append_ascii c.name_ascii ?_ ?_ h
    · cases c <;> exact fun _ hc => Option.some.inj hc ▸ rfl
    · cases c <;> decide
  have hcut : Text.cut (c.name ++ " " ++ Text.trimEnd line) ' ' = (c.name, Text.trimEnd line) := by
    cases c <;> simp [Text.cut, Command.name]
  unfold request
  rw [htrim, hcut]
  cases c <;> rfl

/-- A line that is run is not blank. -/
theorem Runs.trim_ne_empty {line : String} (h : Runs line) : Text.trim line ≠ "" := by
  intro hnil
  apply h.nonempty
  rw [hnil]
  rfl

/-- What a program does is up to its tokens. -/
theorem execute_congr (i : Interpreter σ) {a b : String} (h : Token.lex a = Token.lex b) :
    execute i a = execute i b := by
  unfold execute Interpreter.exec Interpreter.runSource
  rw [h]

/-- A line that is run comes to the same with `_EXEC` in front, whatever the
state it is run in, as far as its last blanks are nothing to the lexer. In
any case the command runs the line without these blanks, and the two give
the same tokens in no other case. -/
theorem exec_is_default (i : Interpreter σ) (read : String → Except Failure String)
    {line : String} (h : Runs line) :
    handle i read line = execute i line
    ∧ handle i read ("_EXEC " ++ line) = execute i (Text.trimEnd line)
    ∧ (Token.lex (Text.trimEnd line) = Token.lex line ↔ Token.EndsPlainly line)
    ∧ (Token.EndsPlainly line → handle i read ("_EXEC " ++ line) = handle i read line) := by
  have hline : handle i read line = execute i line := by
    unfold handle
    rw [h.request_eq]
  have hcommand : handle i read ("_EXEC " ++ line) = execute i (Text.trimEnd line) := by
    have hrequest := request_command .exec h.trim_ne_empty
    unfold handle
    rw [show "_EXEC " ++ line = Command.exec.name ++ " " ++ line from rfl, hrequest]
    rfl
  refine ⟨hline, hcommand, Token.lex_trimEnd_iff line, fun hplain => ?_⟩
  rw [hline, hcommand]
  exact execute_congr i ((Token.lex_trimEnd_iff line).2 hplain)

/-- A line that ends in blanks of ASCII, and one that ends inside of a
literal, in another blank. -/
theorem exec_is_default_blanks :
    let i : Interpreter Platform := ⟨Platform.host, ⟨0, 0, some 4⟩, 2⟩
    (Runs "(define x 1) x \t"
      ∧ handle i (Disk.read [] "/") ("_EXEC " ++ "(define x 1) x \t")
        = handle i (Disk.read [] "/") "(define x 1) x \t")
    ∧ Runs (Text.encode " x \"y\u00a0")
      ∧ handle i (Disk.read [] "/") ("_EXEC " ++ Text.encode " x \"y\u00a0")
        = handle i (Disk.read [] "/") (Text.encode " x \"y\u00a0") := by
  intro i
  have hascii : Runs "(define x 1) x \t" := ⟨by decide, by decide, by decide⟩
  have hopen : Runs (Text.encode " x \"y\u00a0") := ⟨by decide, by decide, by decide⟩
  refine ⟨⟨hascii, ?_⟩, hopen, ?_⟩
  · exact (exec_is_default i _ hascii).2.2.2 (.inl (List.all_eq_true.1 rfl))
  · exact (exec_is_default i _ hopen).2.2.2 (.inr (by decide))

/-- What runs a text of one token. -/
theorem execute_token (i : Interpreter σ) {source : String} {t : Token}
    (hlex : Token.lex source = .ok [t]) (hopen : t ≠ "(") (hclose : t ≠ ")") :
    execute i source
      = Eval.bind (i.runForms Interpreter.writeOutcome 0 [.ok (.ofToken t)])
          fun _ => Eval.pure () := by
  have hforms : Reader.forms [t] = [.ok (.ofToken t)] := by
    simp [Reader.forms, Reader.readEach, Reader.read, Reader.readWithin, hopen, hclose]
  unfold execute Interpreter.exec Interpreter.runSource
  rw [hlex]
  dsimp only
  rw [hforms]
  exact Eval.bind_assoc ..

/-- A five and a blank that is not of ASCII. -/
def blankFive : String :=
  Text.encode "5\u00a0"

/-- A line with such a blank at its end is one program by itself and
another one with the command in front. -/
theorem exec_drops_blank :
    let d := Desk.empty Sample.platform
    Runs blankFive
    ∧ (dialogue Platform.host 1 Platform.read 0 [blankFive] d).map (·.written)
      = some (Text.encode "NameError: no variable named 5\u00a0\nNR~\n")
    ∧ (dialogue Platform.host 1 Platform.read 0 ["_EXEC " ++ blankFive] d).map (·.written)
      = some "R: 5\n" := by
  intro d
  have hruns : Runs blankFive := ⟨by decide, by decide, by decide⟩
  refine ⟨hruns, ?_, ?_⟩
  · -- by itself the line is a symbol that nothing binds
    have hvalue : Frames.valueOf [] 0 blankFive = .error (.fault (.unbound blankFive)) := by
      rw [Frames.valueOf, Frames.lookup_of_root rfl]
      rfl
    have heval : (d.interpreter Platform.host 1 none 0).evalRead (.ok (.ofToken blankFive))
        (d.machine 0) = .done (.error (.fault (.unbound blankFive))) (Eval.asked (d.machine 0)) :=
      (Eval.lookup_eq blankFive _).trans (congrArg (Outcome.done · _) hvalue)
    unfold dialogue handle
    rw [if_neg (by decide), hruns.request_eq]
    dsimp only
    rw [execute_token _ (t := blankFive) rfl (by decide) (by decide), Desk.run, Eval.bind,
      Interpreter.runForms_error _ heval rfl]
    rfl
  · have hrequest : request ("_EXEC " ++ blankFive) = .command .exec "5" := rfl
    unfold dialogue handle
    rw [if_neg (by decide), hrequest]
    dsimp only [runCommand]
    rw [execute_token _ (t := "5") rfl (by decide) (by decide)]
    rfl

end Shell

end LispShell
