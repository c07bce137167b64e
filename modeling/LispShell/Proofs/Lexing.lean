/-
The lexer as a way to take a text apart.

`Dissection source lead pieces` says what the tokens of a text are without
a scan: the text is blanks, a token, blanks, a token and so on, and two
words never touch. The lexer finds such a dissection whenever it succeeds
(`scan_dissects`), by induction on the scan: what it has seen of an
unfinished token is put in front of what the rest is dissected into. And
any dissection is what the lexer finds (`Dissection.lex_eq`), by induction
on the pieces: a token is scanned up to its end, a word because no
ordinary byte follows it, all others whatever follows. So the tokens of a
text are unique, and the quotes alone decide whether there are any.

A text after a blank is lexed on its own (`lex_append_delimiter`), so
tokens written with blanks between them are lexed into themselves
(`yields_spaced`).
-/
import LispShell.Proofs.Printing
import LispShell.Proofs.Verdict

namespace LispShell.Token

open Reader (Blank spaced yields_spaced_cons)

-- ============================================== dissections

/-- A token that is a run of ordinary bytes. -/
def IsWord (token : Token) : Prop :=
  token.toList ≠ [] ∧ ∀ c ∈ token.toList, ordinary c = true

/-- A run of blanks, possibly empty. -/
def IsGap (s : String) : Prop :=
  ∀ c ∈ s.toList, isDelimiter c = true

/-- The text of a gap and of tokens, each with the gap after it. -/
def assembled (lead : String) : List (Token × String) → String
  | [] => lead
  | (token, gap) :: rest => lead ++ token ++ assembled gap rest

/-- A text taken apart: blanks in front, then tokens, each with the blanks
after it. Only between two words must there be a blank. -/
structure Dissection (source lead : String) (pieces : List (Token × String)) : Prop where
  whole : source = assembled lead pieces
  lead : IsGap lead
  gaps : ∀ p ∈ pieces, IsGap p.2
  lexical : ∀ p ∈ pieces, Lexical p.1
  apart : pieces.IsChain fun p q => IsWord p.1 → IsWord q.1 → p.2 ≠ ""

/-- The text can be taken apart into the tokens. -/
def Dissects (source : String) (tokens : List Token) : Prop :=
  ∃ lead pieces, Dissection source lead pieces ∧ pieces.map (·.1) = tokens

/-- The first token stands behind what leads to it. -/
theorem toList_assembled_cons (lead : String) (token : Token) (gap : String)
    (rest : List (Token × String)) :
    (assembled lead ((token, gap) :: rest)).toList
      = lead.toList ++ (token.toList ++ (assembled gap rest).toList) := by
  rw [assembled, String.toList_append, String.toList_append, List.append_assoc]

/-- A byte in front of the blanks. -/
theorem cons_assembled (c : Char) (lead : String) (pieces : List (Token × String)) :
    (assembled (String.ofList (c :: lead.toList)) pieces).toList
      = c :: (assembled lead pieces).toList := by
  cases pieces with
  | nil => simp [assembled]
  | cons p rest => simp [assembled]

theorem IsWord.lexical {token : Token} (h : IsWord token) : Lexical token := by
  have hatom := IsAtom.word h.1 h.2
  rw [String.ofList_toList] at hatom
  exact .inr (.inr hatom)

/-- A token that is no word does not prolong one. -/
theorem Lexical.boundary {token : Token} (h : Lexical token) (hword : ¬ IsWord token)
    (rest : List Char) : Boundary (token.toList ++ rest) := by
  rcases h with rfl | rfl | hatom
  · rintro c ⟨rfl⟩
    decide
  · rintro c ⟨rfl⟩
    decide
  · cases hatom with
    | @word cs nonempty bytes =>
      refine absurd ⟨?_, ?_⟩ hword
      · rwa [String.toList_ofList]
      · rwa [String.toList_ofList]
    | @literal body _ =>
      rw [String.toList_ofList]
      rintro c ⟨rfl⟩
      decide

/-- What follows a token in a dissection does not prolong it if no word
follows it at once. -/
theorem boundary_assembled {gap : String} {rest : List (Token × String)} (hgap : IsGap gap)
    (hlexical : ∀ p ∈ rest, Lexical p.1)
    (hnext : ∀ p ∈ rest.head?, IsWord p.1 → gap ≠ "") :
    Boundary (assembled gap rest).toList := by
  -- a gap ends a word by its first byte; without one the next token must
  by_cases hne : gap.toList = []
  · cases rest with
    | nil =>
      rw [assembled, hne]
      exact boundary_nil
    | cons p rest =>
      obtain ⟨token, gap'⟩ := p
      have hword : ¬ IsWord token := by
        intro hword
        have hgap' := hnext (token, gap') rfl hword
        exact hgap' (String.toList_eq_nil_iff.1 hne)
      rw [toList_assembled_cons, hne, List.nil_append]
      exact (hlexical (token, gap') List.mem_cons_self).boundary hword _
  · have hblank : Blank gap := ⟨hne, hgap⟩
    cases rest with
    | nil =>
      have h := hblank.boundary []
      rwa [List.append_nil] at h
    | cons p rest =>
      obtain ⟨token, gap'⟩ := p
      rw [toList_assembled_cons]
      exact hblank.boundary _

-- ============================================== a dissection is found

/-- A token is scanned up to its end, unless it is a word that goes on. -/
theorem scan_token {token : Token} {rest : List Char} (h : Lexical token)
    (hrest : IsWord token → Boundary rest) :
    scan (.word []) (token.toList ++ rest) = (scan (.word []) rest).map (token :: ·) := by
  rcases h with rfl | rfl | hatom
  · exact scan_open rest
  · exact scan_close rest
  · cases hatom with
    | @word cs nonempty bytes =>
      have hword : IsWord (String.ofList cs) := by
        rw [IsWord, String.toList_ofList]
        exact ⟨nonempty, bytes⟩
      exact (IsAtom.word nonempty bytes).yields rest (hrest hword)
    | @literal body closed =>
      rw [String.toList_ofList]
      exact scan_literal closed rest

/-- Any dissection of a text is what the lexer makes of it. -/
theorem Dissection.lex_eq {source lead : String} {pieces : List (Token × String)}
    (h : Dissection source lead pieces) : lex source = .ok (pieces.map (·.1)) := by
  obtain ⟨rfl, hlead, hgaps, hlexical, hapart⟩ := h
  rw [lex]
  induction pieces generalizing lead with
  | nil =>
    have hscan := scan_gap hlead []
    rw [List.append_nil] at hscan
    rw [assembled, hscan]
    rfl
  | cons p rest ih =>
    obtain ⟨token, gap⟩ := p
    obtain ⟨hgap, hgaps⟩ := List.forall_mem_cons.1 hgaps
    obtain ⟨htoken, hlexical⟩ := List.forall_mem_cons.1 hlexical
    have hrest : IsWord token → Boundary (assembled gap rest).toList := by
      intro hword
      refine boundary_assembled hgap hlexical fun p hp hp' => ?_
      obtain ⟨more, rfl⟩ : ∃ more, rest = p :: more := List.head?_eq_some_iff.1 hp
      exact hapart.rel hword hp'
    rw [toList_assembled_cons, scan_gap hlead, scan_token htoken hrest,
      ih hgap hgaps hlexical hapart.of_cons]
    rfl

-- ============================================== what is found is a dissection

theorem dissects_nil : Dissects "" [] := by
  refine ⟨"", [], ⟨rfl, ?_, ?_, ?_, .nil⟩, rfl⟩
  · exact List.forall_mem_nil _
  · exact List.forall_mem_nil _
  · exact List.forall_mem_nil _

/-- A blank in front. -/
theorem Dissects.blank {c : Char} {cs : List Char} {tokens : List Token}
    (hc : isDelimiter c = true) (h : Dissects (String.ofList cs) tokens) :
    Dissects (String.ofList (c :: cs)) tokens := by
  obtain ⟨lead, pieces, ⟨whole, hlead, hgaps, hlexical, hapart⟩, rfl⟩ := h
  refine ⟨String.ofList (c :: lead.toList), pieces, ⟨?_, ?_, hgaps, hlexical, hapart⟩, rfl⟩
  · apply String.toList_inj.1
    rw [cons_assembled, ← whole, String.toList_ofList, String.toList_ofList]
  · rw [IsGap, String.toList_ofList]
    exact List.forall_mem_cons.2 ⟨hc, hlead⟩

/-- A token in front, at a boundary if it is a word. -/
theorem Dissects.token {token : Token} {cs : List Char} {tokens : List Token}
    (htoken : Lexical token) (hcs : IsWord token → Boundary cs)
    (h : Dissects (String.ofList cs) tokens) :
    Dissects (String.ofList (token.toList ++ cs)) (token :: tokens) := by
  obtain ⟨lead, pieces, ⟨whole, hlead, hgaps, hlexical, hapart⟩, rfl⟩ := h
  have hassembled : (assembled lead pieces).toList = cs := by
    rw [← whole, String.toList_ofList]
  refine ⟨"", (token, lead) :: pieces, ⟨?_, ?_, ?_, ?_, ?_⟩, rfl⟩
  · apply String.toList_inj.1
    rw [toList_assembled_cons, hassembled, String.toList_ofList]
    rfl
  · exact List.forall_mem_nil _
  · exact List.forall_mem_cons.2 ⟨hlead, hgaps⟩
  · exact List.forall_mem_cons.2 ⟨htoken, hlexical⟩
  · cases pieces with
    | nil => exact .singleton _
    | cons p rest =>
      refine .cons_cons ?_ hapart
      -- two words that touch: the first byte of the second prolongs the first
      rintro hword ⟨hne, hbytes⟩ rfl
      obtain ⟨b, bs, hb⟩ := List.exists_cons_of_ne_nil hne
      have hhead : cs.head? = some b := by
        rw [← hassembled, toList_assembled_cons, hb]
        rfl
      have hb' : ordinary b = false := hcs hword b hhead
      rw [hbytes b (by simp [hb])] at hb'
      cases hb'

/-- A finished word in front, possibly empty. -/
theorem Dissects.flush {rev cs : List Char} {tokens : List Token}
    (hrev : ∀ c ∈ rev, ordinary c = true) (hcs : Boundary cs)
    (h : Dissects (String.ofList cs) tokens) :
    Dissects (String.ofList (rev.reverse ++ cs)) (flush rev ++ tokens) := by
  unfold Token.flush
  split
  · next hnil =>
    rw [List.isEmpty_iff.1 hnil]
    exact h
  · next hne =>
    have hword : IsWord (String.ofList rev.reverse) := by
      rw [IsWord, String.toList_ofList]
      refine ⟨?_, fun c hc => hrev c (List.mem_reverse.1 hc)⟩
      simpa using hne
    have htoken := h.token hword.lexical fun _ => hcs
    rwa [String.toList_ofList] at htoken

/-- The bytes of the token that the scan is inside of. -/
def Mode.seen : Mode → List Char
  | .word rev => rev.reverse
  | .quoted rev => rev.reverse

/-- What the scan has seen and what is left are dissected into the tokens
that it makes. One case per way the scan goes on. -/
theorem scan_dissects {mode : Mode} {cs : List Char} {tokens : List Token}
    (hmode : mode.WellFormed) (h : scan mode cs = .ok tokens) :
    Dissects (String.ofList (mode.seen ++ cs)) tokens := by
  fun_induction scan mode cs generalizing tokens with
  | case1 rev =>
    cases h
    have hflush := Dissects.flush hmode boundary_nil dissects_nil
    simpa [Mode.seen] using hflush
  | case2 rev => cases h
  | case3 rev c cs hc ih =>
    -- the quote closes the literal
    obtain ⟨rest, hrest, rfl⟩ := map_eq_ok h
    obtain rfl := beq_iff_eq.1 hc
    have hliteral : Lexical (String.ofList ('"' :: rev).reverse) :=
      .inr (.inr (Mode.WellFormed.literal hmode))
    have htoken := (ih Mode.wellFormed_start hrest).token hliteral fun hword =>
      absurd (hword.2 '"' (by simp)) (by decide)
    simpa [Mode.seen] using htoken
  | case4 rev c cs hc ih =>
    have hseen := ih (Mode.WellFormed.quoted_cons hmode hc) h
    simpa [Mode.seen] using hseen
  | case5 rev c cs hc ih =>
    obtain ⟨rest, hrest, rfl⟩ := map_eq_ok h
    refine ((ih Mode.wellFormed_start hrest).blank hc).flush hmode ?_
    rintro d ⟨rfl⟩
    exact not_ordinary_of_isDelimiter hc
  | case6 rev c cs _ hc ih =>
    obtain ⟨rest, hrest, rfl⟩ := map_eq_ok h
    obtain rfl := beq_iff_eq.1 hc
    have htoken := (ih Mode.wellFormed_start hrest).token (.inl rfl) fun hword =>
      absurd (hword.2 '(' (by simp)) (by decide)
    refine Dissects.flush hmode ?_ htoken
    rintro d ⟨rfl⟩
    decide
  | case7 rev c cs _ _ hc ih =>
    obtain ⟨rest, hrest, rfl⟩ := map_eq_ok h
    obtain rfl := beq_iff_eq.1 hc
    have htoken := (ih Mode.wellFormed_start hrest).token (.inr (.inl rfl)) fun hword =>
      absurd (hword.2 ')' (by simp)) (by decide)
    refine Dissects.flush hmode ?_ htoken
    rintro d ⟨rfl⟩
    decide
  | case8 rev c cs _ _ _ hc ih =>
    obtain ⟨rest, hrest, rfl⟩ := map_eq_ok h
    obtain rfl := beq_iff_eq.1 hc
    refine Dissects.flush hmode ?_ (ih Mode.wellFormed_quote hrest)
    rintro d ⟨rfl⟩
    decide
  | case9 rev c cs h1 h2 h3 h4 ih =>
    have hseen := ih (List.forall_mem_cons.2 ⟨ordinary_of_not h1 h2 h3 h4, hmode⟩) h
    simpa [Mode.seen] using hseen

/-- The tokens of a text are those that dissect it. -/
theorem lex_eq_ok_iff {source : String} {tokens : List Token} :
    lex source = .ok tokens ↔ Dissects source tokens := by
  constructor
  · intro h
    have hdissects := scan_dissects Mode.wellFormed_start h
    rwa [show (Mode.word []).seen = [] from rfl, List.nil_append, String.ofList_toList]
      at hdissects
  · rintro ⟨lead, pieces, hpieces, rfl⟩
    exact hpieces.lex_eq

/-- The only thing that can be wrong is the number of quotes. -/
theorem lex_eq_error_iff {source : String} {f : Fault} :
    lex source = .error f ↔ f = .quoteMismatch ∧ source.toList.count '"' % 2 = 1 :=
  scan_eq_error_iff (.word []) source.toList f

/-- The lexer loses nothing and cuts exactly at delimiters: a text with
paired quotes can be taken apart in tokens and gaps, the lexer gives the
tokens, and they are the only ones. A text with a quote left over cannot
be taken apart, and the lexer says so. -/
theorem lex_dissects (source : String) :
    (source.toList.count '"' % 2 = 0 →
      ∃ tokens, lex source = .ok tokens ∧ Dissects source tokens
        ∧ ∀ others, Dissects source others → others = tokens)
    ∧ (source.toList.count '"' % 2 = 1 →
      (∀ tokens, ¬ Dissects source tokens) ∧ lex source = .error .quoteMismatch) := by
  constructor
  · intro heven
    cases hlex : lex source with
    | error f =>
      have hodd := (lex_eq_error_iff.1 hlex).2
      omega
    | ok tokens =>
      refine ⟨tokens, rfl, lex_eq_ok_iff.1 hlex, fun others hothers => ?_⟩
      have hsame := hlex.symm.trans (lex_eq_ok_iff.2 hothers)
      exact (Except.ok.inj hsame).symm
  · intro hodd
    have hlex : lex source = .error .quoteMismatch := lex_eq_error_iff.2 ⟨rfl, hodd⟩
    refine ⟨fun tokens h => ?_, hlex⟩
    rw [lex_eq_ok_iff.2 h] at hlex
    cases hlex

/-- A literal right after a word and right before one, an empty literal,
and parentheses with nothing between; and a quote too many. -/
theorem lex_dissects_glued :
    (lex "x\"( y\"z \"\"()" = .ok ["x", "\"( y\"", "z", "\"\"", "(", ")"]
      ∧ Dissects "x\"( y\"z \"\"()" ["x", "\"( y\"", "z", "\"\"", "(", ")"]
      ∧ ∀ others, Dissects "x\"( y\"z \"\"()" others →
          others = ["x", "\"( y\"", "z", "\"\"", "(", ")"])
    ∧ (∀ tokens, ¬ Dissects "x\"( y\"\"" tokens)
    ∧ lex "x\"( y\"\"" = .error .quoteMismatch := by
  obtain ⟨tokens, hlex, hdissects, hunique⟩ :=
    (lex_dissects "x\"( y\"z \"\"()").1 (by decide)
  obtain rfl : tokens = ["x", "\"( y\"", "z", "\"\"", "(", ")"] :=
    (Except.ok.inj hlex).symm
  exact ⟨⟨hlex, hdissects, hunique⟩, (lex_dissects "x\"( y\"\"").2 (by decide)⟩

-- ============================================== texts one after the other

/-- A text after a blank is lexed on its own. -/
theorem lex_append_delimiter {a b : String} {tokens : List Token} {w : Char}
    (h : lex a = .ok tokens) (hw : isDelimiter w = true) :
    lex (a ++ String.singleton w ++ b) = (lex b).map (tokens ++ ·) := by
  have hboundary : Boundary ([w] ++ b.toList) := by
    rintro c ⟨rfl⟩
    exact not_ordinary_of_isDelimiter hw
  rw [lex, String.toList_append, String.toList_append, String.toList_singleton,
    List.append_assoc, yields_of_lex h _ hboundary, scan_gap (by simpa using hw), lex]

/-- Tokens written with blanks between them are lexed into themselves. -/
theorem yields_spaced {tokens : List Token} (htokens : ∀ t ∈ tokens, Lexical t)
    {gap : Nat → String} (hgap : ∀ i, Blank (gap i)) :
    Yields (spaced gap tokens).toList tokens := by
  induction tokens generalizing gap with
  | nil => exact yields_nil
  | cons token rest ih =>
    obtain ⟨htoken, hrest⟩ := List.forall_mem_cons.1 htokens
    have hone : Yields token.toList [token] := fun more hmore => scan_token htoken fun _ => hmore
    exact yields_spaced_cons hone (ih hrest fun i => hgap (i + 1)) (hgap 0)

/-- Lexing is compositional and stable: after a text that can be lexed and
a blank, a text fails to be lexed exactly if it does by itself, and
otherwise gives its own tokens; and the tokens of a text, written with any
blanks between them, are lexed into the same tokens. -/
theorem lex_append_blank {a : String} {tokens : List Token} (h : lex a = .ok tokens) :
    (∀ (w : Char) (b : String), isDelimiter w = true →
      ((∃ f, lex (a ++ String.singleton w ++ b) = .error f) ↔ ∃ f, lex b = .error f)
      ∧ ∀ further, lex b = .ok further →
        lex (a ++ String.singleton w ++ b) = .ok (tokens ++ further))
    ∧ ∀ gap : Nat → String, (∀ i, Blank (gap i)) → lex (spaced gap tokens) = .ok tokens := by
  constructor
  · intro w b hw
    rw [lex_append_delimiter h hw]
    cases hb : lex b with
    | error f => simp [Except.map]
    | ok further => simp [Except.map]
  · intro gap hgap
    exact (yields_spaced (lex_tokens h) hgap).lex_eq

/-- A blank and a parenthesis in a literal, and what may follow. -/
theorem lex_append_blank_literal :
    lex "x\"( \"y" = .ok ["x", "\"( \"", "y"]
    ∧ lex ("x\"( \"y" ++ String.singleton '\t' ++ "z)") = .ok ["x", "\"( \"", "y", "z", ")"]
    ∧ (∃ f, lex ("x\"( \"y" ++ String.singleton '\t' ++ "z\"") = .error f)
    ∧ lex (spaced (fun _ => "\n ") ["x", "\"( \"", "y"]) = .ok ["x", "\"( \"", "y"] := by
  have hlex : lex "x\"( \"y" = .ok ["x", "\"( \"", "y"] := rfl
  obtain ⟨happend, hspaced⟩ := lex_append_blank hlex
  refine ⟨hlex, (happend '\t' "z)" rfl).2 ["z", ")"] rfl, ?_, ?_⟩
  · exact (happend '\t' "z\"" rfl).1.2 ⟨.quoteMismatch, rfl⟩
  · exact hspaced _ fun _ => ⟨by decide, List.all_eq_true.1 rfl⟩

end LispShell.Token
