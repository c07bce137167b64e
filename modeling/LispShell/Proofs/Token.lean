/-
The lexer, from both sides.

What comes out: every token is a parenthesis, a word or a string literal
(`lex_tokens`). The scan's state is either an unfinished word, which has
only ordinary bytes, or an unfinished literal, which has its opening quote
and no other; that is the invariant (`Mode.WellFormed`).

What goes in: `Yields cs tokens` says that the bytes `cs` give exactly
those tokens, whatever follows them, as long as it does not prolong a word
(`Boundary`). Words and literals yield themselves, blanks yield nothing,
and bytes one after the other yield their tokens one after the other if
the second start at a boundary. So the tokens of a text that is put
together from pieces are those of the pieces.
-/
import LispShell.Token

namespace LispShell.Token

-- ============================================== the kinds of tokens

/-- Whether the byte can stand inside a word. -/
def ordinary (c : Char) : Bool :=
  !isDelimiter c && c != '(' && c != ')' && c != '"'

/-- The tokens that are no parentheses. -/
inductive IsAtom : Token → Prop where
  | word {cs : List Char} (nonempty : cs ≠ []) (bytes : ∀ c ∈ cs, ordinary c = true) :
      IsAtom (String.ofList cs)
  | literal {body : List Char} (closed : '"' ∉ body) :
      IsAtom (String.ofList ('"' :: body ++ ['"']))

/-- A token as the lexer makes it. -/
def Lexical (token : Token) : Prop :=
  token = "(" ∨ token = ")" ∨ IsAtom token

/-- An ordinary character is neither blank nor a parenthesis nor a quote. -/
theorem ordinary_iff {c : Char} :
    ordinary c = true ↔ isDelimiter c = false ∧ c ≠ '(' ∧ c ≠ ')' ∧ c ≠ '"' := by
  simp [ordinary, and_assoc]

theorem not_ordinary_of_isDelimiter {c : Char} (h : isDelimiter c = true) :
    ordinary c = false := by
  unfold ordinary
  rw [h]
  rfl

/-- A byte that the scan finds to be nothing else. -/
theorem ordinary_of_not {c : Char} (hdelimiter : ¬ isDelimiter c = true)
    (hopen : ¬ (c == '(') = true) (hclose : ¬ (c == ')') = true)
    (hquote : ¬ (c == '"') = true) : ordinary c = true := by
  refine ordinary_iff.2 ⟨?_, ?_, ?_, ?_⟩
  · simpa using hdelimiter
  · simpa using hopen
  · simpa using hclose
  · simpa using hquote

/-- An atom is not a parenthesis. -/
theorem IsAtom.ne_paren {token : Token} (h : IsAtom token) : token ≠ "(" ∧ token ≠ ")" := by
  cases h with
  | @word cs _ bytes =>
    refine ⟨fun heq => ?_, fun heq => ?_⟩
    · have hcs : cs = ['('] := by simpa using congrArg String.toList heq
      subst hcs
      exact absurd (bytes '(' (by simp)) (by decide)
    · have hcs : cs = [')'] := by simpa using congrArg String.toList heq
      subst hcs
      exact absurd (bytes ')' (by simp)) (by decide)
  | @literal body _ =>
    refine ⟨fun heq => ?_, fun heq => ?_⟩
    · have hcs := congrArg String.toList heq
      simp at hcs
    · have hcs := congrArg String.toList heq
      simp at hcs

-- ============================================== what the lexer makes

/-- What the scan has read of the token it is inside of. -/
def Mode.WellFormed : Mode → Prop
  | .word rev => ∀ c ∈ rev, ordinary c = true
  | .quoted rev => ∃ body : List Char, '"' ∉ body ∧ rev = body ++ ['"']

theorem Mode.wellFormed_start : (Mode.word []).WellFormed :=
  fun _ h => nomatch h

theorem Mode.wellFormed_quote : (Mode.quoted ['"']).WellFormed :=
  ⟨[], List.not_mem_nil, rfl⟩

/-- A literal that goes on. -/
theorem Mode.WellFormed.quoted_cons {rev : List Char} {c : Char}
    (h : (Mode.quoted rev).WellFormed) (hc : ¬ (c == '"') = true) :
    (Mode.quoted (c :: rev)).WellFormed := by
  obtain ⟨body, hbody, rfl⟩ := h
  refine ⟨c :: body, ?_, rfl⟩
  rw [List.mem_cons, not_or]
  exact ⟨fun heq => hc (beq_iff_eq.2 heq.symm), hbody⟩

/-- A literal that is closed. -/
theorem Mode.WellFormed.literal {rev : List Char} (h : (Mode.quoted rev).WellFormed) :
    IsAtom (String.ofList ('"' :: rev).reverse) := by
  obtain ⟨body, hbody, rfl⟩ := h
  have hliteral : IsAtom (String.ofList ('"' :: body.reverse ++ ['"'])) :=
    .literal (by simpa using hbody)
  simpa using hliteral

/-- A finished word and the tokens after it. -/
theorem flush_append_lexical {rev : List Char} {tokens : List Token}
    (hrev : ∀ c ∈ rev, ordinary c = true) (htokens : ∀ t ∈ tokens, Lexical t) :
    ∀ t ∈ flush rev ++ tokens, Lexical t := by
  intro t ht
  rcases List.mem_append.1 ht with ht | ht
  · unfold flush at ht
    split at ht
    · cases ht
    · next hne =>
      rw [List.mem_singleton.1 ht]
      refine .inr (.inr (.word ?_ fun c hc => hrev c (List.mem_reverse.1 hc)))
      simpa using hne
  · exact htokens t ht

/-- Mapping over an outcome and asking for success. -/
theorem map_eq_ok {α β : Type} {f : α → β} {x : Except Fault α} {b : β}
    (h : x.map f = .ok b) : ∃ a, x = .ok a ∧ f a = b := by
  cases x with
  | error e => cases h
  | ok a => exact ⟨a, rfl, Except.ok.inj h⟩

/-- One case per way the scan goes on. -/
theorem scan_lexical {mode : Mode} {cs : List Char} {tokens : List Token}
    (hmode : mode.WellFormed) (h : scan mode cs = .ok tokens) : ∀ t ∈ tokens, Lexical t := by
  fun_induction scan mode cs generalizing tokens with
  | case1 rev =>
    cases h
    rw [← List.append_nil (flush rev)]
    exact flush_append_lexical hmode (fun _ ht => nomatch ht)
  | case2 rev => cases h
  | case3 rev c cs hc ih =>
    -- the quote closes the literal
    obtain ⟨rest, hrest, rfl⟩ := map_eq_ok h
    obtain rfl := beq_iff_eq.1 hc
    have hliteral := Mode.WellFormed.literal hmode
    exact List.forall_mem_cons.2 ⟨.inr (.inr hliteral), ih Mode.wellFormed_start hrest⟩
  | case4 rev c cs hc ih => exact ih (Mode.WellFormed.quoted_cons hmode hc) h
  | case5 rev c cs hc ih =>
    obtain ⟨rest, hrest, rfl⟩ := map_eq_ok h
    exact flush_append_lexical hmode (ih Mode.wellFormed_start hrest)
  | case6 rev c cs _ hc ih =>
    obtain ⟨rest, hrest, rfl⟩ := map_eq_ok h
    refine flush_append_lexical hmode (List.forall_mem_cons.2 ⟨.inl rfl, ?_⟩)
    exact ih Mode.wellFormed_start hrest
  | case7 rev c cs _ _ hc ih =>
    obtain ⟨rest, hrest, rfl⟩ := map_eq_ok h
    refine flush_append_lexical hmode (List.forall_mem_cons.2 ⟨.inr (.inl rfl), ?_⟩)
    exact ih Mode.wellFormed_start hrest
  | case8 rev c cs _ _ _ hc ih =>
    obtain ⟨rest, hrest, rfl⟩ := map_eq_ok h
    obtain rfl := beq_iff_eq.1 hc
    exact flush_append_lexical hmode (ih Mode.wellFormed_quote hrest)
  | case9 rev c cs h1 h2 h3 h4 ih =>
    exact ih (List.forall_mem_cons.2 ⟨ordinary_of_not h1 h2 h3 h4, hmode⟩) h

/-- Every token of a text is a parenthesis, a word or a literal. -/
theorem lex_tokens {source : String} {tokens : List Token} (h : lex source = .ok tokens) :
    ∀ t ∈ tokens, Lexical t :=
  scan_lexical Mode.wellFormed_start h

-- ============================================== what the lexer is given

/-- What follows does not prolong a word. -/
def Boundary (rest : List Char) : Prop :=
  ∀ c ∈ rest.head?, ordinary c = false

theorem boundary_nil : Boundary [] := by
  intro c hc
  cases hc

/-- The bytes give exactly the tokens, whatever follows at a boundary. -/
def Yields (cs : List Char) (tokens : List Token) : Prop :=
  ∀ rest, Boundary rest →
    scan (.word []) (cs ++ rest) = (scan (.word []) rest).map (tokens ++ ·)

/-- A text that yields tokens has them. -/
theorem Yields.lex_eq {source : String} {tokens : List Token}
    (h : Yields source.toList tokens) : lex source = .ok tokens := by
  have hscan := h [] boundary_nil
  rw [List.append_nil] at hscan
  rw [lex, hscan]
  show Except.ok (tokens ++ flush []) = Except.ok tokens
  rw [show flush [] = [] from rfl, List.append_nil]

theorem yields_nil : Yields [] [] := by
  intro rest _
  rw [List.nil_append]
  cases scan (.word []) rest <;> rfl

/-- Two boundaries in a row are one. -/
theorem Boundary.append {cs rest : List Char} (hcs : Boundary cs) (hrest : Boundary rest) :
    Boundary (cs ++ rest) := by
  cases cs with
  | nil => exact hrest
  | cons c cs => exact hcs

/-- Two pieces of text, the second at a boundary. -/
theorem Yields.append {cs ds : List Char} {tokens further : List Token}
    (hcs : Yields cs tokens) (hds : Yields ds further) (hb : Boundary ds) :
    Yields (cs ++ ds) (tokens ++ further) := by
  intro rest hrest
  rw [List.append_assoc, hcs _ (hb.append hrest), hds rest hrest]
  cases scan (.word []) rest with
  | error e => rfl
  | ok ts =>
    show Except.ok (tokens ++ (further ++ ts)) = Except.ok (tokens ++ further ++ ts)
    rw [List.append_assoc]

/-- Between tokens a parenthesis is a token whatever follows it. -/
theorem scan_open (rest : List Char) :
    scan (.word []) ('(' :: rest) = (scan (.word []) rest).map ("(" :: ·) := by
  rw [scan, if_neg (by decide), if_pos (by decide)]
  rfl

/-- A closing parenthesis is a token by itself. -/
theorem scan_close (rest : List Char) :
    scan (.word []) (')' :: rest) = (scan (.word []) rest).map (")" :: ·) := by
  rw [scan, if_neg (by decide), if_neg (by decide), if_pos (by decide)]
  rfl

theorem Yields.cons_open {cs : List Char} {tokens : List Token} (h : Yields cs tokens) :
    Yields ('(' :: cs) ("(" :: tokens) := by
  intro rest hrest
  rw [List.cons_append, scan_open, h rest hrest]
  cases scan (.word []) rest <;> rfl

theorem yields_close : Yields [')'] [")"] :=
  fun rest _ => scan_close rest

/-- Between tokens blanks are passed over. -/
theorem scan_gap {gap : List Char} (hgap : ∀ c ∈ gap, isDelimiter c = true) (cs : List Char) :
    scan (.word []) (gap ++ cs) = scan (.word []) cs := by
  induction gap with
  | nil => rfl
  | cons c gap ih =>
    obtain ⟨hc, hgap⟩ := List.forall_mem_cons.1 hgap
    rw [List.cons_append, scan, if_pos hc, ih hgap]
    cases scan (.word []) cs <;> rfl

theorem Yields.blanks_append {blanks cs : List Char} {tokens : List Token}
    (hblanks : ∀ c ∈ blanks, isDelimiter c = true) (h : Yields cs tokens) :
    Yields (blanks ++ cs) tokens := by
  intro rest hrest
  rw [List.append_assoc, scan_gap hblanks, h rest hrest]

/-- Inside a word the scan takes every ordinary byte. -/
theorem scan_word {cs : List Char} (hcs : ∀ c ∈ cs, ordinary c = true) (rev rest : List Char) :
    scan (.word rev) (cs ++ rest) = scan (.word (cs.reverse ++ rev)) rest := by
  induction cs generalizing rev with
  | nil => rfl
  | cons c cs ih =>
    obtain ⟨hc, hcs⟩ := List.forall_mem_cons.1 hcs
    obtain ⟨h1, h2, h3, h4⟩ := ordinary_iff.1 hc
    rw [List.cons_append, scan, if_neg (by simp [h1]), if_neg (by simpa using h2),
      if_neg (by simpa using h3), if_neg (by simpa using h4), ih hcs, List.reverse_cons,
      List.append_assoc, List.singleton_append]

/-- At a boundary the word is finished. -/
theorem scan_boundary {rest : List Char} (hrest : Boundary rest) (rev : List Char) :
    scan (.word rev) rest = (scan (.word []) rest).map (flush rev ++ ·) := by
  have hmap : ∀ (f : List Token → List Token) (x : Except Fault (List Token)),
      x.map (fun ts => flush rev ++ f ts)
        = (x.map fun ts => flush [] ++ f ts).map (flush rev ++ ·) := by
    intro f x
    cases x <;> rfl
  cases rest with
  | nil =>
    show Except.ok (flush rev) = Except.ok (flush rev ++ [])
    rw [List.append_nil]
  | cons c rest =>
    have hc : ordinary c = false := hrest c rfl
    rw [scan, scan]
    by_cases h1 : isDelimiter c = true
    · rw [if_pos h1, if_pos h1]
      exact hmap id _
    by_cases h2 : (c == '(') = true
    · rw [if_neg h1, if_neg h1, if_pos h2, if_pos h2]
      exact hmap ("(" :: ·) _
    by_cases h3 : (c == ')') = true
    · rw [if_neg h1, if_neg h1, if_neg h2, if_neg h2, if_pos h3, if_pos h3]
      exact hmap (")" :: ·) _
    by_cases h4 : (c == '"') = true
    · rw [if_neg h1, if_neg h1, if_neg h2, if_neg h2, if_neg h3, if_neg h3, if_pos h4,
        if_pos h4]
      exact hmap id _
    · rw [ordinary_of_not h1 h2 h3 h4] at hc
      cases hc

/-- Inside a literal the scan takes everything up to the next quote. -/
theorem scan_quoted {body : List Char} (hbody : '"' ∉ body) (rev rest : List Char) :
    scan (.quoted rev) (body ++ '"' :: rest)
      = (scan (.word []) rest).map
          (String.ofList (rev.reverse ++ body ++ ['"']) :: ·) := by
  induction body generalizing rev with
  | nil =>
    rw [List.nil_append, scan, if_pos (by decide), List.reverse_cons, List.append_nil]
  | cons c body ih =>
    rw [List.mem_cons, not_or] at hbody
    rw [List.cons_append, scan, if_neg (by simpa using Ne.symm hbody.1), ih hbody.2]
    simp

/-- A literal is a token whatever follows it. -/
theorem scan_literal {body : List Char} (closed : '"' ∉ body) (rest : List Char) :
    scan (.word []) ('"' :: body ++ ['"'] ++ rest)
      = (scan (.word []) rest).map (String.ofList ('"' :: body ++ ['"']) :: ·) := by
  rw [List.append_assoc, List.cons_append, List.singleton_append, scan, if_neg (by decide),
    if_neg (by decide), if_neg (by decide), if_pos (by decide), scan_quoted closed]
  cases scan (.word []) rest <;> rfl

/-- A word or a literal yields itself. -/
theorem IsAtom.yields {token : Token} (h : IsAtom token) : Yields token.toList [token] := by
  intro rest hrest
  cases h with
  | @word cs nonempty bytes =>
    rw [String.toList_ofList, scan_word bytes, List.append_nil, scan_boundary hrest, flush,
      if_neg (by simpa using nonempty), List.reverse_reverse]
  | @literal body closed =>
    rw [String.toList_ofList]
    exact scan_literal closed rest

/-- What bytes give by themselves they give whatever follows at a
boundary. -/
theorem scan_append {mode : Mode} {cs rest : List Char} {tokens : List Token}
    (h : scan mode cs = .ok tokens) (hrest : Boundary rest) :
    scan mode (cs ++ rest) = (scan (.word []) rest).map (tokens ++ ·) := by
  -- every step of the scanner puts its tokens in front of the others, whatever follows
  have hmap : ∀ (g : List Token → List Token) (more : List Token),
      (∀ ts, g (more ++ ts) = g more ++ ts) →
        ((scan (.word []) rest).map (more ++ ·)).map g
          = (scan (.word []) rest).map (g more ++ ·) := by
    intro g more hg
    cases scan (.word []) rest with
    | error e => rfl
    | ok ts => exact congrArg Except.ok (hg ts)
  fun_induction scan mode cs generalizing tokens with
  | case1 rev =>
    cases h
    exact scan_boundary hrest rev
  | case2 rev => cases h
  | case3 rev c cs hc ih =>
    obtain ⟨more, hmore, rfl⟩ := map_eq_ok h
    rw [List.cons_append, scan, if_pos hc, ih hmore, hmap _ _ fun ts => rfl]
  | case4 rev c cs hc ih => rw [List.cons_append, scan, if_neg hc, ih h]
  | case5 rev c cs hc ih =>
    obtain ⟨more, hmore, rfl⟩ := map_eq_ok h
    rw [List.cons_append, scan, if_pos hc, ih hmore, hmap _ _ fun ts => by simp]
  | case6 rev c cs hc hopen ih =>
    obtain ⟨more, hmore, rfl⟩ := map_eq_ok h
    rw [List.cons_append, scan, if_neg hc, if_pos hopen, ih hmore, hmap _ _ fun ts => by simp]
  | case7 rev c cs hc hopen hclose ih =>
    obtain ⟨more, hmore, rfl⟩ := map_eq_ok h
    rw [List.cons_append, scan, if_neg hc, if_neg hopen, if_pos hclose, ih hmore,
      hmap _ _ fun ts => by simp]
  | case8 rev c cs hc hopen hclose hquote ih =>
    obtain ⟨more, hmore, rfl⟩ := map_eq_ok h
    rw [List.cons_append, scan, if_neg hc, if_neg hopen, if_neg hclose, if_pos hquote, ih hmore,
      hmap _ _ fun ts => by simp]
  | case9 rev c cs hc hopen hclose hquote ih =>
    rw [List.cons_append, scan, if_neg hc, if_neg hopen, if_neg hclose, if_neg hquote, ih h]

/-- What is lexed yields its tokens. -/
theorem yields_of_lex {source : String} {tokens : List Token} (h : lex source = .ok tokens) :
    Yields source.toList tokens :=
  fun _ hrest => scan_append h hrest

end LispShell.Token
