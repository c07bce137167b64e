/-
The verdict of the reader, by counting.

Whether a text can be read, and if not why, is decided by two things only:
whether its quotes pair up, and how the parentheses outside of quoted runs
nest. `Token.parens` takes these parentheses out of a text in one pass that
knows nothing of tokens or forms. They are the parentheses among the tokens
(`scan_parens`), and what the tokens spell shows in them: complete forms
are `Balanced`, a closing parenthesis that belongs to nothing makes them
`Overclosed`, an open list leaves more opening ones than closing ones
(`sequence_forms_verdict`).

So a text that some continuation completes is complete or is reported as
incomplete: parentheses that are overclosed stay so, whatever follows. And
a text with a list left open is completed by closing it.
-/
import LispShell.Proofs.Reader

namespace LispShell

namespace Token

-- ============================================== parentheses of a text

/-- The parentheses outside of quoted runs; `quoted` says whether the bytes
start inside of one. -/
def parens (quoted : Bool) : List Char → List Char
  | [] => []
  | c :: cs =>
    if c == '"' then parens (!quoted) cs
    else if !quoted && (c == '(' || c == ')') then c :: parens quoted cs
    else parens quoted cs

/-- The parenthesis that a token is. -/
def paren? (token : Token) : Option Char :=
  if token == "(" then some '(' else if token == ")" then some ')' else none

/-- An atom does not count as a parenthesis. -/
theorem paren?_of_isAtom {token : Token} (h : IsAtom token) : paren? token = none := by
  obtain ⟨hopen, hclose⟩ := h.ne_paren
  simp [paren?, hopen, hclose]

/-- A word that ends adds no parenthesis. -/
theorem filterMap_flush {rev : List Char} (hrev : ∀ c ∈ rev, ordinary c = true) :
    (flush rev).filterMap paren? = [] := by
  unfold flush
  split
  · rfl
  · next hne =>
    have hatom : IsAtom (String.ofList rev.reverse) :=
      .word (by simpa using hne) fun c hc => hrev c (List.mem_reverse.1 hc)
    rw [List.filterMap_cons_none (paren?_of_isAtom hatom), List.filterMap_nil]

/-- Whether the scan is inside of a literal. -/
def Mode.isQuoted : Mode → Bool
  | .word _ => false
  | .quoted _ => true

/-- The scan fails exactly if the quotes that are left, with the one that
is open, do not pair up. -/
theorem scan_eq_error_iff (mode : Mode) (cs : List Char) (f : Fault) :
    scan mode cs = .error f
      ↔ f = .quoteMismatch ∧ (cs.count '"' + mode.isQuoted.toNat) % 2 = 1 := by
  have hmap : ∀ {g : List Token → List Token} {x : Except Fault (List Token)},
      x.map g = .error f ↔ x = .error f := by
    intro g x
    cases x <;> simp [Except.map]
  -- only the quotes (cases 3 and 8) change the mode, and they change it with the parity
  fun_induction scan mode cs with
  | case1 rev => simp [Mode.isQuoted]
  | case2 rev => simp [Mode.isQuoted, eq_comm]
  | case3 rev c cs hc ih =>
    obtain rfl := beq_iff_eq.1 hc
    refine (hmap.trans ih).trans ?_
    rw [List.count_cons_self]
    show f = _ ∧ (cs.count '"' + 0) % 2 = 1 ↔ f = _ ∧ (cs.count '"' + 1 + 1) % 2 = 1
    rw [Nat.add_assoc, Nat.add_mod_right, Nat.add_zero]
  | case4 rev c cs hc ih =>
    refine ih.trans ?_
    rw [List.count_cons_of_ne (by simpa using hc)]
    rfl
  | case5 rev c cs hc ih =>
    have hne : c ≠ '"' := by
      rintro rfl
      exact absurd hc (by decide)
    refine (hmap.trans ih).trans ?_
    rw [List.count_cons_of_ne hne]
    rfl
  | case6 rev c cs _ hc ih =>
    obtain rfl := beq_iff_eq.1 hc
    exact hmap.trans ih
  | case7 rev c cs _ _ hc ih =>
    obtain rfl := beq_iff_eq.1 hc
    exact hmap.trans ih
  | case8 rev c cs _ _ _ hc ih =>
    obtain rfl := beq_iff_eq.1 hc
    refine (hmap.trans ih).trans ?_
    rw [List.count_cons_self]
    rfl
  | case9 rev c cs _ _ _ hc ih =>
    refine ih.trans ?_
    rw [List.count_cons_of_ne (by simpa using hc)]
    rfl

/-- The parentheses among the tokens are those of the text. -/
theorem scan_parens {mode : Mode} {cs : List Char} {tokens : List Token}
    (hmode : mode.WellFormed) (h : scan mode cs = .ok tokens) :
    tokens.filterMap paren? = parens mode.isQuoted cs := by
  -- the cases are those of the scanner: the end (1, 2), inside of a literal (3, 4), a delimiter
  -- (5), the parentheses (6, 7), the quote that opens a literal (8) and a character of a word (9)
  fun_induction scan mode cs generalizing tokens with
  | case1 rev =>
    cases h
    exact filterMap_flush hmode
  | case2 rev => cases h
  | case3 rev c cs hc ih =>
    obtain ⟨rest, hrest, rfl⟩ := map_eq_ok h
    obtain rfl := beq_iff_eq.1 hc
    have hliteral := Mode.WellFormed.literal hmode
    rw [List.filterMap_cons_none (paren?_of_isAtom hliteral), ih Mode.wellFormed_start hrest]
    rfl
  | case4 rev c cs hc ih =>
    rw [ih (Mode.WellFormed.quoted_cons hmode hc) h, parens, if_neg hc]
    rfl
  | case5 rev c cs hc ih =>
    obtain ⟨rest, hrest, rfl⟩ := map_eq_ok h
    have hquote : (c == '"') = false := by
      rw [beq_eq_false_iff_ne]
      rintro rfl
      exact absurd hc (by decide)
    have hparen : (c == '(' || c == ')') = false := by
      rw [Bool.or_eq_false_iff, beq_eq_false_iff_ne, beq_eq_false_iff_ne]
      constructor <;> rintro rfl <;> exact absurd hc (by decide)
    rw [List.filterMap_append, filterMap_flush hmode, ih Mode.wellFormed_start hrest]
    simp [parens, hquote, hparen, Mode.isQuoted]
  | case6 rev c cs _ hc ih =>
    obtain ⟨rest, hrest, rfl⟩ := map_eq_ok h
    obtain rfl := beq_iff_eq.1 hc
    rw [List.filterMap_append, filterMap_flush hmode,
      List.filterMap_cons_some (show paren? "(" = some '(' from rfl),
      ih Mode.wellFormed_start hrest]
    rfl
  | case7 rev c cs _ _ hc ih =>
    obtain ⟨rest, hrest, rfl⟩ := map_eq_ok h
    obtain rfl := beq_iff_eq.1 hc
    rw [List.filterMap_append, filterMap_flush hmode,
      List.filterMap_cons_some (show paren? ")" = some ')' from rfl),
      ih Mode.wellFormed_start hrest]
    rfl
  | case8 rev c cs _ _ _ hc ih =>
    obtain ⟨rest, hrest, rfl⟩ := map_eq_ok h
    obtain rfl := beq_iff_eq.1 hc
    rw [List.filterMap_append, filterMap_flush hmode, ih Mode.wellFormed_quote hrest]
    rfl
  | case9 rev c cs h1 h2 h3 h4 ih =>
    have hmode' : (Mode.word (c :: rev)).WellFormed :=
      List.forall_mem_cons.2 ⟨ordinary_of_not h1 h2 h3 h4, hmode⟩
    rw [ih hmode' h, parens, if_neg h4, if_neg]
    · rfl
    · simp [Mode.isQuoted, h2, h3]

/-- The parentheses of a text and what follows it: what follows starts
inside of a quoted run if the quotes before do not pair up. -/
theorem parens_append (quoted : Bool) (cs ds : List Char) :
    parens quoted (cs ++ ds)
      = parens quoted cs ++ parens (quoted ^^ decide (cs.count '"' % 2 = 1)) ds := by
  induction cs generalizing quoted with
  | nil => simp [parens]
  | cons c cs ih =>
    rw [List.cons_append, parens, parens]
    by_cases hc : c = '"'
    · subst hc
      have hparity : decide ((cs.count '"' + 1) % 2 = 1) = !decide (cs.count '"' % 2 = 1) := by
        rw [← decide_not]
        exact decide_eq_decide.2 (by omega)
      simp [ih, hparity]
    · simp only [beq_iff_eq, hc, if_false, List.count_cons_of_ne hc, ih]
      split
      · rfl
      · rfl

/-- Closing parentheses are counted one by one. -/
theorem parens_close (n : Nat) : parens false (List.replicate n ')') = List.replicate n ')' := by
  induction n with
  | zero => rfl
  | succ n ih =>
    rw [List.replicate_succ]
    show ')' :: parens false (List.replicate n ')') = _
    rw [ih]

end Token

-- ============================================== nesting

/-- Some prefix has more closing parentheses than opening ones. -/
def Overclosed (ps : List Char) : Prop :=
  ∃ front, front <+: ps ∧ front.count '(' < front.count ')'

/-- No prefix has more closing parentheses than opening ones, and there are
as many of both. -/
structure Balanced (ps : List Char) : Prop where
  sane : ¬ Overclosed ps
  even : ps.count '(' = ps.count ')'

/-- Nothing is balanced. -/
theorem balanced_nil : Balanced [] where
  sane := by
    rintro ⟨front, hfront, hlt⟩
    rw [List.prefix_nil.1 hfront] at hlt
    exact absurd hlt (by decide)
  even := rfl

/-- What follows does not repair it. -/
theorem Overclosed.append {ps : List Char} (h : Overclosed ps) (qs : List Char) :
    Overclosed (ps ++ qs) := by
  obtain ⟨front, hfront, hlt⟩ := h
  exact ⟨front, hfront.trans (List.prefix_append ps qs), hlt⟩

/-- After parentheses without an overclosed prefix, the excess of opening
ones pays for closing ones. -/
theorem not_overclosed_append {ps qs : List Char} (hps : ¬ Overclosed ps)
    (hqs : ∀ front, front <+: qs →
      ps.count ')' + front.count ')' ≤ ps.count '(' + front.count '(') :
    ¬ Overclosed (ps ++ qs) := by
  rintro ⟨front, hfront, hlt⟩
  rcases List.prefix_or_prefix_of_prefix hfront (List.prefix_append ps qs) with h | ⟨rest, rfl⟩
  · exact hps ⟨front, h, hlt⟩
  · have hrest := hqs rest ((List.prefix_append_right_inj ps).1 hfront)
    rw [List.count_append, List.count_append] at hlt
    omega

/-- Up to any place there are as many opened as closed. -/
theorem le_of_not_overclosed {ps front : List Char} (h : ¬ Overclosed ps)
    (hfront : front <+: ps) : front.count ')' ≤ front.count '(' :=
  Nat.not_lt.1 fun hlt => h ⟨front, hfront, hlt⟩

/-- Balanced parentheses in front decide nothing. -/
theorem Balanced.overclosed_append {ps : List Char} (h : Balanced ps) (qs : List Char) :
    Overclosed (ps ++ qs) ↔ Overclosed qs := by
  constructor
  · intro hover
    by_cases hqs : Overclosed qs
    · exact hqs
    · refine absurd hover (not_overclosed_append h.sane fun front hfront => ?_)
      rw [h.even]
      exact Nat.add_le_add_left (le_of_not_overclosed hqs hfront) _
  · rintro ⟨front, hfront, hlt⟩
    refine ⟨ps ++ front, (List.prefix_append_right_inj ps).2 hfront, ?_⟩
    rw [List.count_append, List.count_append, h.even]
    exact Nat.add_lt_add_left hlt _

/-- Balanced pieces in a row are balanced. -/
theorem Balanced.append {ps qs : List Char} (hps : Balanced ps) (hqs : Balanced qs) :
    Balanced (ps ++ qs) where
  sane := fun h => hqs.sane ((hps.overclosed_append qs).1 h)
  even := by rw [List.count_append, List.count_append, hps.even, hqs.even]

/-- So is what follows a balanced piece. -/
theorem Balanced.of_append {ps qs : List Char} (hps : Balanced ps) (h : Balanced (ps ++ qs)) :
    Balanced qs where
  sane := fun hover => h.sane ((hps.overclosed_append qs).2 hover)
  even := by
    have heven := h.even
    rw [List.count_append, List.count_append, hps.even] at heven
    exact Nat.add_left_cancel heven

/-- An opening parenthesis before balanced ones leaves room for one that
closes it. -/
theorem not_overclosed_open {ps qs : List Char} (hps : Balanced ps)
    (hqs : ∀ front, front <+: qs → front.count ')' ≤ front.count '(' + 1) :
    ¬ Overclosed ('(' :: ps ++ qs) := by
  refine not_overclosed_append ?_ fun front hfront => ?_
  · rintro ⟨front, hfront, hlt⟩
    rcases List.prefix_cons_iff.1 hfront with rfl | ⟨rest, rfl, hrest⟩
    · exact absurd hlt (by decide)
    · rw [List.count_cons_self, List.count_cons_of_ne (by decide)] at hlt
      have hle := le_of_not_overclosed hps.sane hrest
      omega
  · rw [List.count_cons_self, List.count_cons_of_ne (by decide), hps.even]
    have hle := hqs front hfront
    omega

/-- Balanced parentheses in parentheses. -/
theorem Balanced.wrap {ps : List Char} (h : Balanced ps) : Balanced ('(' :: ps ++ [')']) where
  sane := by
    refine not_overclosed_open h fun front hfront => ?_
    have hle : front.count ')' ≤ [')'].count ')' := hfront.sublist.count_le _
    exact Nat.le_trans hle (Nat.le_add_left 1 _)
  even := by simp [h.even]

namespace Reader

open Token

-- ============================================== what tokens show

/-- Complete forms have balanced parentheses. -/
theorem Denotes.balanced {tokens : List Token} {forms : List Form} (h : Denotes tokens forms) :
    Balanced (tokens.filterMap paren?) := by
  induction h with
  | nil => exact balanced_nil
  | @atom token tokens forms noOpen noClose _ ih =>
    have hnone : paren? token = none := by simp [paren?, noOpen, noClose]
    rwa [List.filterMap_cons_none hnone]
  | @list inner tokens items forms _ _ ihWithin ihRest =>
    have hsplit : ("(" :: inner ++ ")" :: tokens).filterMap paren?
        = ('(' :: inner.filterMap paren? ++ [')']) ++ tokens.filterMap paren? := by
      rw [List.filterMap_append, List.filterMap_cons_some (show paren? "(" = some '(' from rfl),
        List.filterMap_cons_some (show paren? ")" = some ')' from rfl)]
      simp
    rw [hsplit]
    exact ihWithin.wrap.append ihRest

/-- An open list has more opening parentheses than closing ones. -/
theorem Unclosed.opened {tokens : List Token} (h : Unclosed tokens) :
    ¬ Overclosed (tokens.filterMap paren?)
      ∧ (tokens.filterMap paren?).count ')' < (tokens.filterMap paren?).count '(' := by
  induction h with
  | @last inner items within =>
    rw [List.filterMap_cons_some (show paren? "(" = some '(' from rfl)]
    constructor
    · rw [← List.append_nil ('(' :: _)]
      refine not_overclosed_open within.balanced fun front hfront => ?_
      rw [List.prefix_nil.1 hfront]
      exact Nat.zero_le _
    · rw [List.count_cons_self, List.count_cons_of_ne (by decide), within.balanced.even]
      omega
  | @nest inner tokens items within _ ih =>
    rw [List.filterMap_append, List.filterMap_cons_some (show paren? "(" = some '(' from rfl)]
    obtain ⟨hsane, hlt⟩ := ih
    constructor
    · refine not_overclosed_open within.balanced fun front hfront => ?_
      exact Nat.le_succ_of_le (le_of_not_overclosed hsane hfront)
    · rw [List.count_append, List.count_append, List.count_cons_self,
        List.count_cons_of_ne (by decide), within.balanced.even]
      omega

/-- The rest of the chunks is a partition of its own. -/
theorem Partition.tail {tokens : List Token} {c : List Token × Except Fault Form}
    {chunks : List (List Token × Except Fault Form)} (h : Partition tokens (c :: chunks)) :
    Partition (chunks.map (·.1)).flatten chunks where
  whole := rfl
  each := (List.forall_mem_cons.1 h.each).2
  last := by
    rintro before d after rfl hd
    exact h.last (c :: before) d after rfl hd

/-- What reading tokens to the end comes to, by their parentheses. -/
inductive Verdict (ps : List Char) : Except Fault (List Form) → Prop where
  | complete (forms : List Form) (balanced : Balanced ps) : Verdict ps (.ok forms)
  | stray (overclosed : Overclosed ps) : Verdict ps (.error .unexpectedClose)
  | unclosed (sane : ¬ Overclosed ps) (opened : ps.count ')' < ps.count '(') :
      Verdict ps (.error .missingClose)

/-- The first chunk that is no complete form decides. -/
theorem Partition.verdict {tokens : List Token}
    {chunks : List (List Token × Except Fault Form)} (h : Partition tokens chunks) :
    Verdict (tokens.filterMap paren?) (sequence (chunks.map (·.2))) := by
  induction chunks generalizing tokens with
  | nil =>
    obtain rfl : tokens = [] := h.whole.symm
    exact .complete [] balanced_nil
  | cons c chunks ih =>
    obtain ⟨used, outcome⟩ := c
    have hrest := ih h.tail
    have hchunk : Chunk used outcome := h.each _ List.mem_cons_self
    have htokens : tokens = used ++ (chunks.map (·.1)).flatten := h.whole.symm
    -- A whole form is balanced, so the verdict on the rest stands. A chunk that fails decides by
    -- itself: nothing before it was open.
    cases hchunk with
    | @form _ form hform =>
      have hbalanced := hform.balanced
      rw [htokens, List.filterMap_append]
      show Verdict _ ((sequence (chunks.map (·.2))).map (form :: ·))
      generalize sequence (chunks.map (·.2)) = result at hrest
      cases hrest with
      | complete forms balanced => exact .complete (form :: forms) (hbalanced.append balanced)
      | stray overclosed => exact .stray ((hbalanced.overclosed_append _).2 overclosed)
      | unclosed sane opened =>
        refine .unclosed (fun hover => sane ((hbalanced.overclosed_append _).1 hover)) ?_
        rw [List.count_append, List.count_append, hbalanced.even]
        exact Nat.add_lt_add_left opened _
    | stray =>
      refine .stray ⟨[')'], ?_, by decide⟩
      rw [htokens, List.singleton_append,
        List.filterMap_cons_some (show paren? ")" = some ')' from rfl)]
      exact ⟨_, rfl⟩
    | unclosed hopen =>
      obtain rfl : chunks = [] := h.last [] _ chunks rfl rfl
      rw [htokens, List.map_nil, List.flatten_nil, List.append_nil]
      exact .unclosed hopen.opened.1 hopen.opened.2

theorem sequence_forms_verdict (tokens : List Token) :
    Verdict (tokens.filterMap paren?) (sequence (forms tokens)) := by
  obtain ⟨chunks, hchunks, hread⟩ := readEach_partition tokens
  rw [forms, hread, map_remainders]
  exact hchunks.verdict

-- ============================================== whole texts

/-- Reading a text whose quotes do not pair up. -/
theorem readAll_of_odd {source : String} (h : source.toList.count '"' % 2 = 1) :
    readAll source = .error .quoteMismatch := by
  have hlex : lex source = .error .quoteMismatch :=
    (scan_eq_error_iff (.word []) source.toList _).2 ⟨rfl, h⟩
  rw [readAll, hlex]

/-- Reading a text whose quotes pair up. -/
theorem readAll_of_even {source : String} (h : source.toList.count '"' % 2 ≠ 1) :
    Verdict (parens false source.toList) (readAll source) := by
  unfold readAll
  cases hlex : lex source with
  | error f => exact absurd ((scan_eq_error_iff (.word []) source.toList f).1 hlex).2 h
  | ok tokens =>
    have hparens : tokens.filterMap paren? = parens false source.toList :=
      scan_parens Mode.wellFormed_start hlex
    rw [← hparens]
    exact sequence_forms_verdict tokens

/-- A text is read if its quotes pair up and its parentheses are
balanced. -/
theorem readAll_ok_iff (source : String) :
    (∃ forms, readAll source = .ok forms)
      ↔ source.toList.count '"' % 2 = 0 ∧ Balanced (parens false source.toList) := by
  by_cases hquotes : source.toList.count '"' % 2 = 1
  · simp [readAll_of_odd hquotes, hquotes]
  · have hverdict := readAll_of_even hquotes
    have heven : source.toList.count '"' % 2 = 0 := by omega
    generalize readAll source = result at hverdict
    cases hverdict with
    | complete forms balanced => simp [heven, balanced]
    | stray overclosed => simpa using fun _ balanced => Balanced.sane balanced overclosed
    | unclosed sane opened =>
      have hne : ¬ Balanced (parens false source.toList) := fun balanced =>
        absurd balanced.even (Nat.ne_of_gt opened)
      simp [hne]

/-- The faults that reading a text can end with, and when it does. -/
theorem readAll_error_iff (source : String) (f : Fault) :
    readAll source = .error f
      ↔ f = .quoteMismatch ∧ source.toList.count '"' % 2 = 1
        ∨ f = .unexpectedClose ∧ source.toList.count '"' % 2 = 0
          ∧ Overclosed (parens false source.toList)
        ∨ f = .missingClose ∧ source.toList.count '"' % 2 = 0
          ∧ ¬ Overclosed (parens false source.toList)
          ∧ (parens false source.toList).count ')' < (parens false source.toList).count '(' := by
  by_cases hquotes : source.toList.count '"' % 2 = 1
  · simp [readAll_of_odd hquotes, hquotes, eq_comm]
  · have hverdict := readAll_of_even hquotes
    have heven : source.toList.count '"' % 2 = 0 := by omega
    generalize readAll source = result at hverdict
    cases hverdict with
    | complete forms balanced =>
      have hge : ¬ (parens false source.toList).count ')'
          < (parens false source.toList).count '(' := Nat.not_lt.2 (Nat.le_of_eq balanced.even)
      simp [heven, balanced.sane, hge]
    | stray overclosed => simp [heven, overclosed, eq_comm]
    | unclosed sane opened => simp [heven, sane, opened, eq_comm]

/-- Reading fails with this message, and says by `incomplete` whether more
input could mend that. -/
def Fails (source message : String) (incomplete : Bool) : Prop :=
  ∃ f, readAll source = .error f ∧ f.message = message ∧ f.incomplete = incomplete

/-- The faults of reading a whole text. -/
def IsReadFault (f : Fault) : Prop :=
  f = .quoteMismatch ∨ f = .unexpectedClose ∨ f = .missingClose

/-- They differ in their messages. -/
theorem IsReadFault.eq_of_message {f g : Fault} (hf : IsReadFault f) (hg : IsReadFault g) :
    f.message = g.message → f = g := by
  intro h
  rcases hf with rfl | rfl | rfl
  · rcases hg with rfl | rfl | rfl
    · rfl
    · exact absurd h (by decide)
    · exact absurd h (by decide)
  · rcases hg with rfl | rfl | rfl
    · exact absurd h (by decide)
    · rfl
    · exact absurd h (by decide)
  · rcases hg with rfl | rfl | rfl
    · exact absurd h (by decide)
    · exact absurd h (by decide)
    · rfl

/-- A read fails with a message if it fails with the fault of it. -/
theorem fails_iff (source : String) {f : Fault} (hf : IsReadFault f) :
    Fails source f.message f.incomplete ↔ readAll source = .error f := by
  refine ⟨fun ⟨g, hg, hmessage, _⟩ => ?_, fun h => ⟨f, h, rfl, rfl⟩⟩
  have hfault : IsReadFault g := by
    rcases (readAll_error_iff source g).1 hg with h | h | h
    · exact .inl h.1
    · exact .inr (.inl h.1)
    · exact .inr (.inr h.1)
  rw [hg, hfault.eq_of_message hf hmessage]

/-- Quotes that pair up cut a text where the parentheses can be cut. -/
theorem parens_append_of_even {source : String} (h : source.toList.count '"' % 2 = 0)
    (continuation : String) :
    parens false (source ++ continuation).toList
      = parens false source.toList ++ parens false continuation.toList := by
  rw [String.toList_append, parens_append]
  simp [h]

/-- A text that can be completed is complete, or reported as incomplete. -/
theorem incomplete_of_completable {source continuation : String} {forms : List Form}
    (h : readAll (source ++ continuation) = .ok forms) :
    (∃ forms, readAll source = .ok forms)
      ∨ ∃ f, readAll source = .error f ∧ f.incomplete = true := by
  by_cases hquotes : source.toList.count '"' % 2 = 1
  · exact .inr ⟨_, readAll_of_odd hquotes, rfl⟩
  · have hverdict := readAll_of_even hquotes
    generalize readAll source = result at hverdict
    cases hverdict with
    | complete forms _ => exact .inl ⟨forms, rfl⟩
    | unclosed _ _ => exact .inr ⟨_, rfl, rfl⟩
    | stray overclosed =>
      -- what follows cannot undo an overclosed prefix
      have hbalanced := ((readAll_ok_iff _).1 ⟨forms, h⟩).2
      rw [parens_append_of_even (by omega)] at hbalanced
      exact absurd (overclosed.append _) hbalanced.sane

/-- After a complete text, a new line starts a text of its own. -/
theorem readAll_of_line {source further : String} {forms all : List Form}
    (h : readAll source = .ok forms) (hall : readAll (source ++ "\n" ++ further) = .ok all) :
    ∃ more, readAll further = .ok more := by
  obtain ⟨heven, hbalanced⟩ := (readAll_ok_iff source).1 ⟨forms, h⟩
  obtain ⟨heven', hbalanced'⟩ := (readAll_ok_iff _).1 ⟨all, hall⟩
  rw [String.append_assoc] at heven' hbalanced'
  rw [parens_append_of_even heven] at hbalanced'
  rw [readAll_ok_iff]
  constructor
  · rw [String.toList_append, String.toList_append, List.count_append, List.count_append] at heven'
    have hline : "\n".toList.count '"' = 0 := by decide
    omega
  · have hrest := hbalanced.of_append hbalanced'
    rwa [String.toList_append] at hrest

/-- The text that closes `n` lists. -/
def closing (n : Nat) : String :=
  String.ofList (List.replicate n ')')

/-- Open lists can be closed. -/
theorem readAll_closing {source : String} (h : readAll source = .error .missingClose) :
    ∃ n forms, readAll (source ++ closing n) = .ok forms := by
  by_cases hquotes : source.toList.count '"' % 2 = 1
  · rw [readAll_of_odd hquotes] at h
    cases h
  · have hverdict := readAll_of_even hquotes
    have heven : source.toList.count '"' % 2 = 0 := by omega
    rw [h] at hverdict
    cases hverdict with
    | unclosed sane opened =>
      refine ⟨(parens false source.toList).count '(' - (parens false source.toList).count ')',
        (readAll_ok_iff _).2 ⟨?_, ?_⟩⟩
      · rw [String.toList_append, List.count_append, closing, String.toList_ofList,
          List.count_replicate]
        simpa using heven
      · rw [parens_append_of_even heven, closing, String.toList_ofList, parens_close]
        constructor
        · refine not_overclosed_append sane fun front hfront => ?_
          have hclose := hfront.sublist.count_le ')'
          rw [List.count_replicate_self] at hclose
          omega
        · rw [List.count_append, List.count_append, List.count_replicate_self,
            List.count_replicate]
          simp only [Char.reduceBEq, Bool.false_eq_true, if_false]
          omega

/-- The verdict on a text is decided by its quotes and by how the
parentheses outside of quoted runs nest. Hence input that can be completed
is never rejected, and a list left open can be closed. -/
theorem readAll_verdict (source : String) :
    (Fails source "quote mismatch" true ↔ source.toList.count '"' % 2 = 1)
    ∧ (Fails source "unexpected closing parenthesis" false
      ↔ source.toList.count '"' % 2 = 0 ∧ Overclosed (parens false source.toList))
    ∧ (Fails source "missing closing parenthesis" true
      ↔ source.toList.count '"' % 2 = 0 ∧ ¬ Overclosed (parens false source.toList)
        ∧ (parens false source.toList).count ')' < (parens false source.toList).count '(')
    ∧ ((∃ forms, readAll source = .ok forms)
      ↔ source.toList.count '"' % 2 = 0 ∧ ¬ Overclosed (parens false source.toList)
        ∧ (parens false source.toList).count '(' = (parens false source.toList).count ')')
    ∧ (∀ continuation forms, readAll (source ++ continuation) = .ok forms →
      (∃ forms, readAll source = .ok forms)
        ∨ ∃ f, readAll source = .error f ∧ f.incomplete = true)
    ∧ (Fails source "missing closing parenthesis" true →
      ∃ continuation forms, readAll (source ++ continuation) = .ok forms) := by
  have hmismatch := fails_iff source (f := .quoteMismatch) (.inl rfl)
  have hstray := fails_iff source (f := .unexpectedClose) (.inr (.inl rfl))
  have hunclosed := fails_iff source (f := .missingClose) (.inr (.inr rfl))
  refine ⟨?_, ?_, ?_, ?_, fun continuation forms h => incomplete_of_completable h, fun h => ?_⟩
  · exact hmismatch.trans ((readAll_error_iff source _).trans (by simp))
  · exact hstray.trans ((readAll_error_iff source _).trans (by simp))
  · exact hunclosed.trans ((readAll_error_iff source _).trans (by simp))
  · refine (readAll_ok_iff source).trans (and_congr_right fun _ => ?_)
    exact ⟨fun h => ⟨h.sane, h.even⟩, fun h => ⟨h.1, h.2⟩⟩
  · obtain ⟨n, forms, hforms⟩ := readAll_closing (hunclosed.1 h)
    exact ⟨closing n, forms, hforms⟩

/-- An open list with a parenthesis in a literal. -/
theorem readAll_verdict_nested :
    Fails "(a \")\" (b" "missing closing parenthesis" true
    ∧ ∃ continuation forms, readAll ("(a \")\" (b" ++ continuation) = .ok forms := by
  have hread : readAll "(a \")\" (b" = .error .missingClose := by cbv
  have hfails : Fails "(a \")\" (b" "missing closing parenthesis" true := ⟨_, hread, rfl, rfl⟩
  obtain ⟨-, -, -, -, -, hclose⟩ := readAll_verdict "(a \")\" (b"
  exact ⟨hfails, hclose hfails⟩

end Reader

end LispShell
