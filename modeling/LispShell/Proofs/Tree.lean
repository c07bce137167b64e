/-
The bracket grammar, by its trees.

A token tree is what one complete form is read from: a leaf is a token
that is no parenthesis, a node a row of trees in parentheses. `Tree.flat`
writes a tree as tokens, `Tree.form` is the form it stands for. Trees and
`Denotes` say the same (`Tree.denotes`, `Denotes.trees`), so the reader
accepts the tokens of trees and no others.

Two trees can stand for one form, since `1` and `+1` spell one number. But
no tree is written as the start of another (`Tree.flat_append_inj`): a
leaf is one token, and the branches of a node end at the first closing
parenthesis where a tree would have to start. So the tokens alone tell
where the tree in front of them ends, and which one it is.
-/
import LispShell.Proofs.Reader

namespace LispShell.Reader

/-- A token that is no parenthesis, or a row of trees in parentheses. -/
inductive Tree where
  | leaf (token : Token) (noOpen : token ≠ "(") (noClose : token ≠ ")")
  | node (branches : List Tree)

namespace Tree

mutual

/-- The tokens of a tree. -/
def flat : Tree → List Token
  | .leaf token _ _ => [token]
  | .node branches => "(" :: flatAll branches ++ [")"]

/-- The tokens of trees one after the other. -/
def flatAll : List Tree → List Token
  | [] => []
  | t :: rest => t.flat ++ flatAll rest

end

mutual

/-- The form that a tree stands for. -/
def form : Tree → Form
  | .leaf token _ _ => .ofToken token
  | .node branches => .list () (formAll branches)

/-- The forms that trees stand for. -/
def formAll : List Tree → List Form
  | [] => []
  | t :: rest => t.form :: formAll rest

end

-- ============================================== trees and the grammar

mutual

theorem denotes : ∀ t : Tree, Denotes t.flat [t.form]
  | .leaf token noOpen noClose => by
    rw [flat, form]
    exact .atom noOpen noClose .nil
  | .node branches => by
    rw [flat, form]
    exact .list (denotesAll branches) .nil

theorem denotesAll : ∀ ts : List Tree, Denotes (flatAll ts) (formAll ts)
  | [] => by
    rw [flatAll, formAll]
    exact .nil
  | t :: rest => by
    rw [flatAll, formAll]
    exact (denotes t).append (denotesAll rest)

end

-- ============================================== no tree starts another

/-- A tree is not written from a closing parenthesis on. -/
theorem flat_append_ne_close (t : Tree) (more rest : List Token) :
    t.flat ++ more ≠ ")" :: rest := by
  cases t with
  | leaf token noOpen noClose =>
    rw [flat, List.singleton_append]
    intro h
    exact noClose (List.cons.inj h).1
  | node branches =>
    rw [flat, List.cons_append, List.cons_append]
    intro h
    exact absurd (List.cons.inj h).1 (by decide)

mutual

/-- The tokens of a tree and what follows them tell the tree and what
follows it. -/
theorem flat_append_inj : ∀ (t t' : Tree) {rest rest' : List Token},
    t.flat ++ rest = t'.flat ++ rest' → t = t' ∧ rest = rest'
  | .leaf token _ _, .leaf token' _ _, rest, rest' => by
    rw [flat, flat, List.singleton_append, List.singleton_append]
    intro h
    obtain ⟨rfl, rfl⟩ := List.cons.inj h
    exact ⟨rfl, rfl⟩
  | .leaf token noOpen _, .node branches, rest, rest' => by
    rw [flat, flat, List.singleton_append, List.cons_append, List.cons_append]
    intro h
    exact absurd (List.cons.inj h).1 noOpen
  | .node branches, .leaf token noOpen _, rest, rest' => by
    rw [flat, flat, List.singleton_append, List.cons_append, List.cons_append]
    intro h
    exact absurd (List.cons.inj h).1.symm noOpen
  | .node branches, .node branches', rest, rest' => by
    rw [flat, flat, List.cons_append, List.cons_append, List.cons_append, List.cons_append,
      List.append_assoc, List.append_assoc, List.singleton_append, List.singleton_append]
    intro h
    obtain ⟨rfl, rfl⟩ := flatAll_close_inj branches branches' (List.cons.inj h).2
    exact ⟨rfl, rfl⟩

/-- The same for the branches of a node, up to its closing parenthesis. -/
theorem flatAll_close_inj : ∀ (ts ts' : List Tree) {rest rest' : List Token},
    flatAll ts ++ ")" :: rest = flatAll ts' ++ ")" :: rest' → ts = ts' ∧ rest = rest'
  | [], [], rest, rest' => by
    intro h
    exact ⟨rfl, (List.cons.inj h).2⟩
  | [], t' :: ts', rest, rest' => by
    rw [flatAll, flatAll, List.nil_append, List.append_assoc]
    intro h
    exact absurd h.symm (flat_append_ne_close t' _ _)
  | t :: ts, [], rest, rest' => by
    rw [flatAll, flatAll, List.nil_append, List.append_assoc]
    intro h
    exact absurd h (flat_append_ne_close t _ _)
  | t :: ts, t' :: ts', rest, rest' => by
    rw [flatAll, flatAll, List.append_assoc, List.append_assoc]
    intro h
    obtain ⟨rfl, hrest⟩ := flat_append_inj t t' h
    obtain ⟨rfl, rfl⟩ := flatAll_close_inj ts ts' hrest
    exact ⟨rfl, rfl⟩

end

end Tree

-- ============================================== what is read is a tree

/-- Tokens that spell forms are those of trees that stand for the forms. -/
theorem Denotes.trees {tokens : List Token} {forms : List Form} (h : Denotes tokens forms) :
    ∃ ts, tokens = Tree.flatAll ts ∧ forms = Tree.formAll ts := by
  induction h with
  | nil => exact ⟨[], by rw [Tree.flatAll], by rw [Tree.formAll]⟩
  | @atom token tokens forms noOpen noClose _ ih =>
    obtain ⟨ts, rfl, rfl⟩ := ih
    refine ⟨.leaf token noOpen noClose :: ts, ?_, ?_⟩
    · simp [Tree.flatAll, Tree.flat]
    · simp [Tree.formAll, Tree.form]
  | @list inner tokens items forms _ _ ihWithin ihRest =>
    obtain ⟨branches, rfl, rfl⟩ := ihWithin
    obtain ⟨ts, rfl, rfl⟩ := ihRest
    refine ⟨.node branches :: ts, ?_, ?_⟩
    · simp [Tree.flatAll, Tree.flat]
    · simp [Tree.formAll, Tree.form]

/-- Tokens that spell one form are those of one tree. -/
theorem Denotes.tree {tokens : List Token} {form : Form} (h : Denotes tokens [form]) :
    ∃ t : Tree, tokens = t.flat ∧ form = t.form := by
  obtain ⟨ts, rfl, hforms⟩ := h.trees
  match ts with
  | [] =>
    rw [Tree.formAll] at hforms
    cases hforms
  | [t] =>
    refine ⟨t, ?_, ?_⟩
    · simp [Tree.flatAll]
    · simpa [Tree.formAll] using hforms
  | t :: t' :: ts =>
    rw [Tree.formAll, Tree.formAll] at hforms
    cases hforms

/-- A tree is read back from its tokens. -/
theorem read_flat (t : Tree) (rest : List Token) : read (t.flat ++ rest) = (.ok t.form, rest) :=
  read_denotes t.denotes rest

/-- A form that was read is that of the tree in front of the tokens. -/
theorem tree_of_read {tokens rest : List Token} {form : Form}
    (h : read tokens = (.ok form, rest)) : ∃ t : Tree, tokens = t.flat ++ rest ∧ form = t.form := by
  have hne : tokens ≠ [] := by
    rintro rfl
    cases h
  obtain ⟨used, htokens, hchunk, -⟩ := read_chunk hne
  rw [h] at htokens hchunk
  cases hchunk with
  | form hdenotes =>
    obtain ⟨t, rfl, hform⟩ := hdenotes.tree
    exact ⟨t, htokens, hform⟩

/-- The reader accepts exactly the bracket grammar: it succeeds on the
tokens of a tree and what follows them, with the form of the tree and
what follows, and on no other tokens; the tree is unique. So it takes
exactly the tokens of the form, whatever follows them. -/
theorem read_iff_tree (tokens : List Token) :
    (∀ form rest, read tokens = (.ok form, rest)
      ↔ ∃ t : Tree, tokens = t.flat ++ rest ∧ form = t.form)
    ∧ (∀ (t t' : Tree) (rest rest' : List Token),
      tokens = t.flat ++ rest → tokens = t'.flat ++ rest' → t = t' ∧ rest = rest')
    ∧ ∀ form rest, read tokens = (.ok form, rest) →
      ∃ used, tokens = used ++ rest ∧ ∀ more, read (used ++ more) = (.ok form, more) := by
  refine ⟨fun form rest => ⟨tree_of_read, ?_⟩, ?_, ?_⟩
  · rintro ⟨t, rfl, rfl⟩
    exact read_flat t rest
  · intro t t' rest rest' h h'
    exact t.flat_append_inj t' (h.symm.trans h')
  · intro form rest h
    obtain ⟨t, rfl, rfl⟩ := tree_of_read h
    exact ⟨t.flat, rfl, read_flat t⟩

/-- A list in a list, and the closing parenthesis after it is left. -/
theorem read_iff_tree_nested :
    read ["(", "a", "(", "b", ")", ")", ")", "c"]
      = (.ok (.list () [.ofToken "a", .list () [.ofToken "b"]]), [")", "c"])
    ∧ ∃ used, ["(", "a", "(", "b", ")", ")", ")", "c"] = used ++ [")", "c"]
      ∧ ∀ more, read (used ++ more)
        = (.ok (.list () [.ofToken "a", .list () [.ofToken "b"]]), more) := by
  have hread : read ["(", "a", "(", "b", ")", ")", ")", "c"]
      = (.ok (.list () [.ofToken "a", .list () [.ofToken "b"]]), [")", "c"]) := rfl
  exact ⟨hread, (read_iff_tree _).2.2 _ _ hread⟩

end LispShell.Reader
