/-
What the reader makes of tokens, as a grammar.

`Denotes tokens forms` says that the tokens spell the forms: an atom is a
token that is no parenthesis, a list is a row of forms in parentheses. The
reader finds exactly that. Its stack is a record of tokens that it has
seen: `Pending before stack` says that `before` is, for every open list of
the stack, an opening parenthesis and tokens that spell the items so far.
Every token keeps that (`Pending.add`, `Pending.close`), so whenever the
reader stops, the tokens it took are one of three things (`Chunk`): a
complete form, a closing parenthesis with nothing open, or a list that is
still open at the end.

`read_chunk` is that statement for one call, `readEach_partition` the one
for reading until no token is left: the chunks make up the tokens, with
nothing lost and nothing read twice, and an open list comes last. In
particular everything is a complete form exactly if the tokens spell forms
(`sequence_forms_eq_ok_iff`).
-/
import LispShell.Reader
import LispShell.Proofs.Token
import Mathlib.Data.List.Permutation

namespace LispShell.Reader

-- ============================================== the grammar

/-- The tokens spell the forms, one after the other. -/
inductive Denotes : List Token → List Form → Prop where
  | nil : Denotes [] []
  | atom {token : Token} {tokens : List Token} {forms : List Form}
      (noOpen : token ≠ "(") (noClose : token ≠ ")") (rest : Denotes tokens forms) :
      Denotes (token :: tokens) (.ofToken token :: forms)
  | list {inner tokens : List Token} {items forms : List Form}
      (within : Denotes inner items) (rest : Denotes tokens forms) :
      Denotes ("(" :: inner ++ ")" :: tokens) (.list () items :: forms)

/-- Tokens in a row denote their forms in a row. -/
theorem Denotes.append {tokens further : List Token} {forms others : List Form}
    (h : Denotes tokens forms) (h' : Denotes further others) :
    Denotes (tokens ++ further) (forms ++ others) := by
  induction h with
  | nil => exact h'
  | atom noOpen noClose _ ih => exact .atom noOpen noClose ih
  | @list inner tokens items forms within _ _ ih =>
    have h := Denotes.list within ih
    simpa using h

/-- An opening parenthesis whose closing one never comes: complete forms
follow it, and then nothing or another such. -/
inductive Unclosed : List Token → Prop where
  | last {inner : List Token} {items : List Form} (within : Denotes inner items) :
      Unclosed ("(" :: inner)
  | nest {inner tokens : List Token} {items : List Form} (within : Denotes inner items)
      (rest : Unclosed tokens) : Unclosed ("(" :: inner ++ tokens)

/-- What reading takes from the front of the tokens, and what it makes of
it. -/
inductive Chunk : List Token → Except Fault Form → Prop where
  /-- A complete form. -/
  | form {tokens : List Token} {form : Form} (h : Denotes tokens [form]) :
      Chunk tokens (.ok form)
  /-- A closing parenthesis outside of every list. -/
  | stray : Chunk [")"] (.error .unexpectedClose)
  /-- A list that is still open when the tokens end. -/
  | unclosed {tokens : List Token} (h : Unclosed tokens) : Chunk tokens (.error .missingClose)

-- ============================================== one token at a time

/-- An opening parenthesis starts a list. -/
theorem readWithin_open (stack : Stack) (rest : List Token) :
    readWithin stack ("(" :: rest) = readWithin ([] :: stack) rest := by
  cases stack <;> rfl

/-- A closing one puts the list into the one around it. -/
theorem readWithin_close (items outer : List Form) (stack : Stack) (rest : List Token) :
    readWithin (items :: outer :: stack) (")" :: rest)
      = readWithin ((.list () items.reverse :: outer) :: stack) rest := rfl

theorem readWithin_close_last (items : List Form) (rest : List Token) :
    readWithin [items] (")" :: rest) = (.ok (.list () items.reverse), rest) := rfl

/-- An atom joins the list that is open. -/
theorem readWithin_atom {token : Token} (noOpen : token ≠ "(") (noClose : token ≠ ")")
    (items : List Form) (stack : Stack) (rest : List Token) :
    readWithin (items :: stack) (token :: rest)
      = readWithin ((.ofToken token :: items) :: stack) rest := by
  rw [readWithin.eq_def]
  simp [noOpen, noClose]

theorem readWithin_atom_alone {token : Token} (noOpen : token ≠ "(") (noClose : token ≠ ")")
    (rest : List Token) : readWithin [] (token :: rest) = (.ok (.ofToken token), rest) := by
  rw [readWithin.eq_def]
  simp [noOpen, noClose]

-- ============================================== the grammar is read

/-- Complete forms are added to the innermost open list. -/
theorem readWithin_denotes {tokens : List Token} {forms : List Form}
    (h : Denotes tokens forms) (items : List Form) (stack : Stack) (rest : List Token) :
    readWithin (items :: stack) (tokens ++ rest)
      = readWithin ((forms.reverse ++ items) :: stack) rest := by
  induction h generalizing items stack rest with
  | nil => rfl
  | @atom token tokens forms noOpen noClose _ ih =>
    rw [List.cons_append, readWithin_atom noOpen noClose, ih, List.reverse_cons,
      List.append_assoc, List.singleton_append]
  | @list inner tokens inside forms _ _ ihWithin ihRest =>
    rw [List.append_assoc, List.cons_append, List.cons_append, readWithin_open, ihWithin,
      List.append_nil, readWithin_close, ihRest, List.reverse_reverse, List.reverse_cons,
      List.append_assoc, List.singleton_append]

/-- A complete form is read up to its end. -/
theorem read_denotes {tokens : List Token} {form : Form} (h : Denotes tokens [form])
    (rest : List Token) : read (tokens ++ rest) = (.ok form, rest) := by
  rw [read]
  cases h with
  | @atom token tokens _ noOpen noClose hrest =>
    cases hrest
    exact readWithin_atom_alone noOpen noClose rest
  | @list inner tokens items _ within hrest =>
    cases hrest
    rw [List.append_assoc, List.cons_append, List.cons_append, readWithin_open,
      readWithin_denotes within, List.append_nil, List.nil_append, readWithin_close_last,
      List.reverse_reverse]

/-- An open list swallows everything. -/
theorem readWithin_unclosed {tokens : List Token} (h : Unclosed tokens) (stack : Stack) :
    readWithin stack tokens = (.error .missingClose, []) := by
  induction h generalizing stack with
  | @last inner items within =>
    have hread := readWithin_denotes within [] stack []
    rw [List.append_nil] at hread
    rw [readWithin_open, hread]
    rfl
  | @nest inner tokens items within _ ih =>
    rw [List.cons_append, readWithin_open, readWithin_denotes within, ih]

/-- A chunk is read up to its end. -/
theorem Chunk.read_eq {tokens : List Token} {outcome : Except Fault Form}
    (h : Chunk tokens outcome) : read tokens = (outcome, []) := by
  cases h with
  | form h =>
    have hread := read_denotes h []
    rwa [List.append_nil] at hread
  | stray => rfl
  | unclosed h => exact readWithin_unclosed h []

-- ============================================== what is read is the grammar

/-- The tokens that led to a stack: those of the items of every open list,
each after its opening parenthesis. -/
inductive Pending : List Token → Stack → Prop where
  | nil : Pending [] []
  | push {before inner : List Token} {stack : Stack} {items : List Form}
      (outer : Pending before stack) (within : Denotes inner items.reverse) :
      Pending (before ++ "(" :: inner) (items :: stack)

/-- An unclosed list inside of an unclosed list. -/
theorem Unclosed.append {tokens inner : List Token} {items : List Form} (h : Unclosed tokens)
    (within : Denotes inner items) : Unclosed (tokens ++ "(" :: inner) := by
  induction h with
  | last outer => exact .nest outer (.last within)
  | @nest inner' tokens _ outer _ ih =>
    have h := Unclosed.nest outer ih
    rwa [← List.append_assoc] at h

/-- As long as a list is open, the tokens are not closed. -/
theorem Pending.unclosed {before : List Token} {items : List Form} {stack : Stack}
    (h : Pending before (items :: stack)) : Unclosed before := by
  generalize hs : items :: stack = whole at h
  induction h generalizing items stack with
  | nil => cases hs
  | @push before inner stack' items' outer within ih =>
    cases stack' with
    | nil =>
      cases outer
      exact .last within
    | cons items'' stack'' => exact (ih rfl).append within

/-- One more complete form in the innermost open list. -/
theorem Pending.add {before tokens : List Token} {items : List Form} {stack : Stack}
    {form : Form} (h : Pending before (items :: stack)) (hform : Denotes tokens [form]) :
    Pending (before ++ tokens) ((form :: items) :: stack) := by
  cases h with
  | @push before inner _ _ outer within =>
    rw [List.append_assoc, List.cons_append]
    refine .push outer ?_
    rw [List.reverse_cons]
    exact within.append hform

/-- The tokens of a closed list. -/
theorem Pending.close {before : List Token} {items : List Form} {stack : Stack}
    (h : Pending before (items :: stack)) :
    ∃ outer inner, before = outer ++ inner ∧ Pending outer stack
      ∧ Denotes (inner ++ [")"]) [.list () items.reverse] := by
  cases h with
  | @push before inner _ _ outer within =>
    exact ⟨before, "(" :: inner, rfl, outer, Denotes.list within .nil⟩

/-- What reading makes of tokens after those that led to the stack: a
chunk that starts with them, and a rest that is empty after an open
list. -/
theorem readWithin_chunk {stack : Stack} {tokens before : List Token}
    (h : Pending before stack) (hne : before ++ tokens ≠ []) :
    ∃ used, tokens = used ++ (readWithin stack tokens).2
      ∧ Chunk (before ++ used) (readWithin stack tokens).1
      ∧ ((readWithin stack tokens).1 = .error .missingClose →
          (readWithin stack tokens).2 = []) := by
  induction tokens generalizing stack before with
  | nil =>
    cases stack with
    | nil =>
      cases h
      exact absurd rfl hne
    | cons items stack =>
      refine ⟨[], rfl, ?_, fun _ => rfl⟩
      rw [List.append_nil]
      exact .unclosed h.unclosed
  | cons token rest ih =>
    -- reading on after `token`, from a stack that accounts for it too
    have step : ∀ {stack' : Stack}, Pending (before ++ [token]) stack' →
        readWithin stack (token :: rest) = readWithin stack' rest →
        ∃ used, token :: rest = used ++ (readWithin stack (token :: rest)).2
          ∧ Chunk (before ++ used) (readWithin stack (token :: rest)).1
          ∧ ((readWithin stack (token :: rest)).1 = .error .missingClose →
              (readWithin stack (token :: rest)).2 = []) := by
      intro stack' hstack heq
      obtain ⟨used, hrest, hchunk, hlast⟩ := ih hstack (by simp)
      rw [List.append_assoc] at hchunk
      rw [heq]
      exact ⟨token :: used, by rw [List.cons_append, ← hrest], hchunk, hlast⟩
    by_cases hopen : token = "("
    · subst hopen
      have hpush : Pending (before ++ ["("]) ([] :: stack) := .push h .nil
      exact step hpush (readWithin_open stack rest)
    by_cases hclose : token = ")"
    · subst hclose
      cases stack with
      | nil =>
        cases h
        exact ⟨[")"], rfl, .stray, fun h => nomatch h⟩
      | cons items stack =>
        obtain ⟨outer, inner, rfl, hout, hlist⟩ := h.close
        cases stack with
        | nil =>
          cases hout
          exact ⟨[")"], rfl, .form hlist, fun h => nomatch h⟩
        | cons items' stack =>
          refine step ?_ (readWithin_close items items' stack rest)
          rw [List.append_assoc]
          exact hout.add hlist
    · cases stack with
      | nil =>
        cases h
        have hread := readWithin_atom_alone hopen hclose rest
        rw [hread]
        exact ⟨[token], rfl, .form (.atom hopen hclose .nil), fun h => nomatch h⟩
      | cons items stack =>
        exact step (h.add (.atom hopen hclose .nil))
          (readWithin_atom hopen hclose items stack rest)

/-- Reading takes a chunk from the front of the tokens. -/
theorem read_chunk {tokens : List Token} (hne : tokens ≠ []) :
    ∃ used, tokens = used ++ (read tokens).2 ∧ Chunk used (read tokens).1
      ∧ ((read tokens).1 = .error .missingClose → (read tokens).2 = []) :=
  readWithin_chunk .nil hne

/-- Every chunk has a token. -/
theorem Chunk.ne_nil {tokens : List Token} {outcome : Except Fault Form}
    (h : Chunk tokens outcome) : tokens ≠ [] := by
  cases h with
  | form h => cases h <;> exact List.cons_ne_nil _ _
  | stray => exact List.cons_ne_nil _ _
  | unclosed h => cases h <;> exact List.cons_ne_nil _ _

/-- The outcome of a chunk is determined by its tokens. -/
theorem Chunk.unique {tokens : List Token} {first second : Except Fault Form}
    (h : Chunk tokens first) (h' : Chunk tokens second) : first = second := by
  have heq := h.read_eq.symm.trans h'.read_eq
  exact congrArg Prod.fst heq

-- ============================================== reading on

/-- Chunks that make up the tokens, each with its outcome; only the last
may be an open list. -/
structure Partition (tokens : List Token) (chunks : List (List Token × Except Fault Form)) :
    Prop where
  whole : (chunks.map (·.1)).flatten = tokens
  each : ∀ c ∈ chunks, Chunk c.1 c.2
  last : ∀ before c after, chunks = before ++ c :: after → c.2 = .error .missingClose →
    after = []

/-- The outcomes of chunks, each with the tokens of those after it. -/
def remainders : List (List Token × Except Fault Form) → List (Except Fault Form × List Token)
  | [] => []
  | c :: chunks => (c.2, (chunks.map (·.1)).flatten) :: remainders chunks

/-- A chunk in front of a partition. -/
theorem Partition.cons {used rest : List Token} {outcome : Except Fault Form}
    {chunks : List (List Token × Except Fault Form)} (hchunk : Chunk used outcome)
    (hlast : outcome = .error .missingClose → rest = []) (h : Partition rest chunks) :
    Partition (used ++ rest) ((used, outcome) :: chunks) where
  whole := by rw [List.map_cons, List.flatten_cons, h.whole]
  each := List.forall_mem_cons.2 ⟨hchunk, h.each⟩
  last := by
    intro before c after heq hc
    cases before with
    | nil =>
      obtain ⟨rfl, rfl⟩ := List.cons.inj heq
      -- nothing is left, so there is no chunk left either
      cases chunks with
      | nil => rfl
      | cons d chunks =>
        have hd := (h.each d List.mem_cons_self).ne_nil
        have hwhole := h.whole
        rw [hlast hc, List.map_cons, List.flatten_cons, List.append_eq_nil_iff] at hwhole
        exact absurd hwhole.1 hd
    | cons d before => exact h.last before c after (List.cons.inj heq).2 hc

/-- Reading goes on with what a read leaves. -/
theorem readEach_cons {tokens : List Token} (hne : tokens ≠ []) :
    readEach tokens = read tokens :: readEach (read tokens).2 := by
  cases tokens with
  | nil => exact absurd rfl hne
  | cons token rest => rw [readEach]

/-- Reading until no token is left cuts the tokens into chunks. -/
theorem readEach_partition (tokens : List Token) :
    ∃ chunks, Partition tokens chunks ∧ readEach tokens = remainders chunks := by
  match tokens with
  | [] =>
    refine ⟨[], ⟨rfl, (fun _ h => nomatch h), fun before c after h => ?_⟩, ?_⟩
    · exact absurd h (by simp)
    · rw [readEach, remainders]
  | token :: rest =>
    obtain ⟨chunks, hchunks, hrest⟩ := readEach_partition (read (token :: rest)).2
    obtain ⟨used, htokens, hchunk, hlast⟩ := read_chunk (List.cons_ne_nil token rest)
    refine ⟨(used, (read (token :: rest)).1) :: chunks, ?_, ?_⟩
    · have hcons := Partition.cons hchunk hlast hchunks
      rwa [← htokens] at hcons
    · rw [readEach_cons (List.cons_ne_nil token rest), remainders, hchunks.whole, hrest]
termination_by tokens.length
decreasing_by exact read_length_lt token rest

theorem map_remainders (chunks : List (List Token × Except Fault Form)) :
    (remainders chunks).map (·.1) = chunks.map (·.2) := by
  induction chunks with
  | nil => rfl
  | cons c chunks ih => rw [remainders, List.map_cons, List.map_cons, ih]

/-- Chunks that are all complete forms spell them. -/
theorem denotes_of_sequence {chunks : List (List Token × Except Fault Form)}
    {items : List Form} (heach : ∀ c ∈ chunks, Chunk c.1 c.2)
    (h : sequence (chunks.map (·.2)) = .ok items) :
    Denotes (chunks.map (·.1)).flatten items := by
  induction chunks generalizing items with
  | nil =>
    cases h
    exact .nil
  | cons c chunks ih =>
    obtain ⟨tokens, outcome⟩ := c
    obtain ⟨hc, hothers⟩ := List.forall_mem_cons.1 heach
    cases hc with
    | @form _ form hform =>
      obtain ⟨others, hrest, rfl⟩ := Token.map_eq_ok h
      exact hform.append (ih hothers hrest)
    | stray => cases h
    | unclosed _ => cases h

/-- A complete form in front is read first. -/
theorem forms_append {tokens : List Token} {form : Form} (h : Denotes tokens [form])
    (rest : List Token) : forms (tokens ++ rest) = .ok form :: forms rest := by
  have hne : tokens ++ rest ≠ [] := by
    rw [ne_eq, List.append_eq_nil_iff]
    exact fun hnil => (Chunk.form h).ne_nil hnil.1
  rw [forms, readEach_cons hne, read_denotes h]
  rfl

/-- All tokens make complete forms exactly if they spell forms. -/
theorem sequence_forms_eq_ok_iff {tokens : List Token} {items : List Form} :
    sequence (forms tokens) = .ok items ↔ Denotes tokens items := by
  refine ⟨fun h => ?_, fun h => ?_⟩
  · obtain ⟨chunks, hchunks, hread⟩ := readEach_partition tokens
    rw [forms, hread, map_remainders] at h
    have hall := denotes_of_sequence hchunks.each h
    rwa [hchunks.whole] at hall
  · induction h with
    | nil => rw [forms, readEach, List.map_nil, sequence]
    | @atom token tokens items noOpen noClose _ ih =>
      have hone : Denotes [token] [.ofToken token] := .atom noOpen noClose .nil
      have hforms := forms_append hone tokens
      rw [List.singleton_append] at hforms
      rw [hforms, sequence, ih]
      rfl
    | @list inner tokens inside items within _ _ ih =>
      have hone : Denotes ("(" :: inner ++ [")"]) [.list () inside] := .list within .nil
      have hforms := forms_append hone tokens
      rw [List.append_assoc, List.singleton_append] at hforms
      rw [hforms, sequence, ih]
      rfl

end LispShell.Reader
