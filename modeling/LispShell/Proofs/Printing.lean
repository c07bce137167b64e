/-
Printing undoes reading.

The forms of a text, printed and put together with blanks between them,
read as the same forms. Three layers have to agree. A number is printed so
that it reads as itself and as no other kind of atom (`ofToken_render`).
The printed form is lexed into the tokens that it was printed from, since
the blanks and parentheses between the atoms are boundaries (`Yields`).
And the tokens spell the form (`Denotes`). A text is read as forms if its
tokens spell them (`Reads`); that is kept by parentheses around it and by
blanks between such texts. The induction is over the grammar, for any
blanks between the forms, because the items of a list are printed with
single spaces.
-/
import LispShell.Proofs.Atom
import LispShell.Proofs.Decimal.RoundTrip
import LispShell.Proofs.Reader

namespace LispShell.Reader

open Token

-- ============================================== atoms

/-- A number is written in characters of words. -/
theorem ordinary_of_written {c : Char} (h : Decimal.written c = true) : ordinary c = true := by
  by_contra hc
  rw [ordinary_iff] at hc
  simp only [not_and_or, Bool.not_eq_false, not_not, isDelimiter, Bool.or_eq_true,
    beq_iff_eq] at hc
  rcases hc with ((((((rfl | rfl) | rfl) | rfl) | rfl) | rfl) | rfl | rfl | rfl) <;> cases h

theorem isAtom_of_written {s : String}
    (h : s.toList ≠ [] ∧ ∀ c ∈ s.toList, Decimal.written c = true) : IsAtom s := by
  have hword := IsAtom.word h.1 fun c hc => ordinary_of_written (h.2 c hc)
  rwa [String.ofList_toList] at hword

/-- An integer is written in the same way however wide it is. -/
theorem render_ofInt (n : Int) : (Expr.ofInt n : Form).render = Decimal.renderInt n := by
  unfold Expr.ofInt
  split
  · next h =>
    simp only [Bool.and_eq_true, decide_eq_true_eq] at h
    have hmax : n < 2 ^ 63 := by
      have hle := h.2
      rw [Int64.toInt_maxValue] at hle
      omega
    rw [Expr.render, Int64.toInt_ofInt_of_le h.1 hmax]
  · rw [Expr.render]

/-- An atom is printed as an atom that stands for the same. -/
theorem ofToken_render {token : Token} (h : IsAtom token) :
    IsAtom (Expr.ofToken token : Form).render
      ∧ (Expr.ofToken (Expr.ofToken token : Form).render : Form) = .ofToken token := by
  simp only [Expr.ofToken_eq, Expr.floatOrSymbol]
  cases hint : Decimal.int? token.toList with
  | some n =>
    dsimp only
    rw [render_ofInt, Decimal.int?_renderInt]
    exact ⟨isAtom_of_written (Decimal.renderInt_written n), rfl⟩
  | none =>
    dsimp only
    cases hfloat : Decimal.float? token.toList with
    | some x =>
      dsimp only
      rw [Expr.render, Decimal.int?_renderFloat, Decimal.float?_renderFloat]
      exact ⟨isAtom_of_written (Decimal.renderFloat_written x), rfl⟩
    | none =>
      dsimp only
      rw [Expr.render, hint, hfloat]
      exact ⟨h, rfl⟩

-- ============================================== texts with blanks between

/-- A non-empty run of blanks. -/
def Blank (s : String) : Prop :=
  s.toList ≠ [] ∧ ∀ c ∈ s.toList, isDelimiter c = true

/-- The texts one after the other, with its own gap after each but the
last. -/
def spaced (gap : Nat → String) : List String → String
  | [] => ""
  | [s] => s
  | s :: rest => s ++ gap 0 ++ spaced (fun i => gap (i + 1)) rest

/-- The same text between all of them is a join. -/
theorem spaced_const (sep : String) (texts : List String) :
    spaced (fun _ => sep) texts = Text.join sep texts := by
  induction texts with
  | nil => rfl
  | cons s rest ih =>
    cases rest with
    | nil => rfl
    | cons t rest => rw [spaced, Text.join, ih] <;> exact List.cons_ne_nil _ _

/-- A word ends at a blank. -/
theorem Blank.boundary {s : String} (h : Blank s) (rest : List Char) :
    Boundary (s.toList ++ rest) := by
  obtain ⟨hne, hblank⟩ := h
  cases hs : s.toList with
  | nil => exact absurd hs hne
  | cons c cs =>
    intro d hd
    obtain rfl : c = d := by simpa using hd
    exact not_ordinary_of_isDelimiter (hblank c (by rw [hs]; exact List.mem_cons_self))

/-- What spaced texts yield is what they yield one by one. -/
theorem yields_spaced_cons {s : String} {rest : List String} {gap : Nat → String}
    {tokens further : List Token} (hs : Yields s.toList tokens)
    (hrest : Yields (spaced (fun i => gap (i + 1)) rest).toList further)
    (hgap : Blank (gap 0)) : Yields (spaced gap (s :: rest)).toList (tokens ++ further) := by
  cases rest with
  | nil =>
    have hnil : further = [] := (Except.ok.inj hrest.lex_eq).symm
    rw [hnil, List.append_nil]
    exact hs
  | cons t rest =>
    rw [spaced]
    · rw [String.toList_append, String.toList_append, List.append_assoc]
      exact hs.append (hrest.blanks_append hgap.2) (hgap.boundary _)
    · exact List.cons_ne_nil _ _

-- ============================================== texts that are read as forms

/-- Reading goes by tokens. -/
theorem readAll_eq_ok_iff {source : String} {forms : List Form} :
    readAll source = .ok forms
      ↔ ∃ tokens, lex source = .ok tokens ∧ Denotes tokens forms := by
  unfold readAll
  cases lex source with
  | error e => simp
  | ok tokens => simp [sequence_forms_eq_ok_iff]

/-- The text is read as the forms, whatever follows it at a boundary. -/
def Reads (text : String) (forms : List Form) : Prop :=
  ∃ tokens, Denotes tokens forms ∧ Yields text.toList tokens

/-- A text that reads as forms is read as these. -/
theorem Reads.readAll_eq {text : String} {forms : List Form} (h : Reads text forms) :
    readAll text = .ok forms := by
  obtain ⟨tokens, hdenotes, hyields⟩ := h
  exact readAll_eq_ok_iff.2 ⟨tokens, hyields.lex_eq, hdenotes⟩

theorem Reads.nil : Reads "" [] :=
  ⟨[], .nil, yields_nil⟩

/-- An atom reads as its token. -/
theorem Reads.atom {token : Token} (h : IsAtom token) : Reads token [.ofToken token] :=
  ⟨[token], .atom h.ne_paren.1 h.ne_paren.2 .nil, h.yields⟩

/-- Parentheses around forms read as a list. -/
theorem Reads.list {text : String} {items : List Form} (h : Reads text items) :
    Reads ("(" ++ text ++ ")") [.list () items] := by
  obtain ⟨tokens, hdenotes, hyields⟩ := h
  refine ⟨_, .list hdenotes .nil, ?_⟩
  have htext : ("(" ++ text ++ ")").toList = '(' :: text.toList ++ [')'] := by simp
  rw [htext]
  refine (hyields.append yields_close ?_).cons_open
  rintro c ⟨rfl⟩
  decide

/-- A form, blanks and further forms. -/
theorem Reads.cons {s : String} {rest : List String} {gap : Nat → String} {form : Form}
    {forms : List Form} (hs : Reads s [form])
    (hrest : Reads (spaced (fun i => gap (i + 1)) rest) forms) (hgap : Blank (gap 0)) :
    Reads (spaced gap (s :: rest)) (form :: forms) := by
  obtain ⟨tokens, hdenotes, hyields⟩ := hs
  obtain ⟨further, hfurther, hyields'⟩ := hrest
  exact ⟨tokens ++ further, hdenotes.append hfurther, yields_spaced_cons hyields hyields' hgap⟩

theorem blank_space : Blank " " :=
  ⟨by decide, List.all_eq_true.1 rfl⟩

-- ============================================== printing undoes reading

/-- Forms that lexical tokens spell are printed as a text that is read as
the same forms. -/
theorem Denotes.printed {tokens : List Token} {forms : List Form} (h : Denotes tokens forms)
    (hlex : ∀ t ∈ tokens, Lexical t) {gap : Nat → String} (hgap : ∀ i, Blank (gap i)) :
    Reads (spaced gap (Expr.renderAll forms)) forms := by
  induction h generalizing gap with
  | nil => exact .nil
  | @atom token tokens forms noOpen noClose _ ih =>
    obtain ⟨htoken, hlex⟩ := List.forall_mem_cons.1 hlex
    have hatom : IsAtom token := (htoken.resolve_left noOpen).resolve_left noClose
    obtain ⟨hprinted, hsame⟩ := ofToken_render hatom
    have hreads := Reads.atom hprinted
    rw [hsame] at hreads
    exact hreads.cons (ih hlex fun i => hgap (i + 1)) (hgap 0)
  | @list inner tokens items forms _ _ ihWithin ihRest =>
    have hinner : ∀ t ∈ inner, Lexical t := fun t ht => hlex t (by simp [ht])
    have htokens : ∀ t ∈ tokens, Lexical t := fun t ht => hlex t (by simp [ht])
    have hlist := (ihWithin hinner fun _ => blank_space).list
    rw [spaced_const] at hlist
    exact hlist.cons (ihRest htokens fun i => hgap (i + 1)) (hgap 0)

/-- What was read can be written with any blanks between its forms. -/
theorem readAll_spaced {source : String} {forms : List Form} (h : readAll source = .ok forms)
    {gap : Nat → String} (hgap : ∀ i, Blank (gap i)) :
    readAll (spaced gap (Expr.renderAll forms)) = .ok forms := by
  obtain ⟨tokens, hlex, hdenotes⟩ := readAll_eq_ok_iff.1 h
  exact (hdenotes.printed (lex_tokens hlex) hgap).readAll_eq

/-- Printing undoes reading: the forms of a text, printed with any blanks
between them, read as the same forms. The blanks may differ from gap to
gap, or be one separator as in `Text.join`. -/
theorem readAll_renderAll {source : String} {forms : List Form}
    (h : readAll source = .ok forms) :
    (∀ gap : Nat → String, (∀ i, Blank (gap i)) →
      readAll (spaced gap (Expr.renderAll forms)) = .ok forms)
    ∧ ∀ sep, Blank sep → readAll (Text.join sep (Expr.renderAll forms)) = .ok forms := by
  refine ⟨fun gap hgap => readAll_spaced h hgap, fun sep hsep => ?_⟩
  rw [← spaced_const]
  exact readAll_spaced h fun _ => hsep

/-- A list with a literal, a wide number and the empty list. -/
theorem readAll_renderAll_mixed :
    readAll "(a -0.5 \"b (\n\") 99999999999999999999 ()"
      = .ok [.list () [.symbol "a", .float (-0.5), .symbol "\"b (\n\""],
          .wide () 99999999999999999999, .list () []]
    ∧ readAll (Text.join "\t\n" (Expr.renderAll
        [.list () [.symbol "a", .float (-0.5), .symbol "\"b (\n\""],
          .wide () 99999999999999999999, .list () []]))
      = .ok [.list () [.symbol "a", .float (-0.5), .symbol "\"b (\n\""],
          .wide () 99999999999999999999, .list () []] := by
  have hitems : Denotes ["a", "-0.5", "\"b (\n\""]
      [.symbol "a", .float (-0.5), .symbol "\"b (\n\""] :=
    .atom (by decide) (by decide) (.atom (by decide) (by decide)
      (.atom (by decide) (by decide) .nil))
  have hforms : Denotes ["(", "a", "-0.5", "\"b (\n\"", ")", "99999999999999999999", "(", ")"]
      [.list () [.symbol "a", .float (-0.5), .symbol "\"b (\n\""],
        .wide () 99999999999999999999, .list () []] :=
    .list hitems (.atom (by decide) (by decide) (.list .nil .nil))
  have hlex : lex "(a -0.5 \"b (\n\") 99999999999999999999 ()"
      = .ok ["(", "a", "-0.5", "\"b (\n\"", ")", "99999999999999999999", "(", ")"] := rfl
  have hread := readAll_eq_ok_iff.2 ⟨_, hlex, hforms⟩
  exact ⟨hread, (readAll_renderAll hread).2 "\t\n" ⟨by decide, List.all_eq_true.1 rfl⟩⟩

end LispShell.Reader
