/-
Evaluation goes from left to right and stops at the first failure.

`Expr.due?` says what a form evaluates next, once what it evaluated so far
has values: its subexpressions in source order, and then the branch that an
`if` or a call of `cond` chooses. `Serial` follows it from visit to visit.
Each begins in the machine that the one before left, and the first failure
is the last visit. By the rules every form goes that way before it has an
effect of its own, which is the binding of a `define`, a call or the search
for a module (`Step.inOrder`).

So a failure comes out of all the forms around it as it is, or as the calls
of `cond` on the way report it, and in the machine in which it came up
(`Tour.Encloses.failed`); and every failure comes from such a place
(`Tour.InOrder.exists_origin`).

# The journal

The journal only grows, and the frames and the cells are those that the
bindings and the stores in it make (`Machine.Grown`). What was done before
a failure stays done.
-/
import LispShell.Proofs.Writes
import Mathlib.Logic.Function.Iterate

namespace LispShell

variable {σ : Type}

-- ====================================================== events and bindings

/-- The frames after the events, the last of which comes first. -/
def Frames.replay (fs : Frames) : List Event → Frames
  | [] => fs
  | .bound frame name v :: earlier => (fs.replay earlier).bind frame name v
  | _ :: earlier => fs.replay earlier

/-- First the earlier events and then the later ones. -/
theorem Frames.replay_append (fs : Frames) (later earlier : List Event) :
    fs.replay (later ++ earlier) = (fs.replay earlier).replay later := by
  induction later with
  | nil => rfl
  | cons e later ih =>
    cases e with
    | bound frame name v => exact congrArg (Frames.bind · frame name v) ih
    | _ => exact ih

/-- Events that bind nothing leave the frames. -/
theorem Frames.replay_of_unbound {P : Event → Prop} (hP : ∀ frame name v, ¬P (.bound frame name v))
    (fs : Frames) {events : List Event} (h : ∀ e ∈ events, P e) : fs.replay events = fs := by
  induction events with
  | nil => rfl
  | cons e earlier ih =>
    obtain ⟨he, hearlier⟩ := List.forall_mem_cons.1 h
    cases e with
    | bound frame name v => exact absurd he (hP frame name v)
    | _ => exact ih hearlier

/-- The second machine comes from the first: events were added to its
journal, and its frames and cells are those that these events make. -/
def Machine.Grown (m m' : Machine σ) : Prop :=
  ∃ new, m'.journal = new ++ m.journal ∧ m'.frames = m.frames.replay new
    ∧ m'.cells = new.flatMap Event.cells ++ m.cells

namespace Machine.Grown

/-- Nothing happened. -/
theorem refl (m : Machine σ) : m.Grown m :=
  ⟨[], rfl, rfl, rfl⟩

/-- First something happened and then something else. -/
theorem trans {m₁ m₂ m₃ : Machine σ} (h : m₁.Grown m₂) (h' : m₂.Grown m₃) : m₁.Grown m₃ := by
  obtain ⟨new, hjournal, hframes, hcells⟩ := h
  obtain ⟨new', hjournal', hframes', hcells'⟩ := h'
  refine ⟨new' ++ new, ?_, ?_, ?_⟩
  · rw [hjournal', hjournal, List.append_assoc]
  · rw [hframes', hframes, Frames.replay_append]
  · rw [hcells', hcells, List.flatMap_append, List.append_assoc]

/-- Events of other kinds were noted down. -/
theorem of_notes {P : Event → Prop} (hbound : ∀ frame name v, ¬P (.bound frame name v))
    (hstored : ∀ cells, ¬P (.stored cells)) {m m' : Machine σ} (h : m.Notes P m') :
    m.Grown m' := by
  obtain ⟨new, hjournal, hnew⟩ := h.journal
  refine ⟨new, hjournal, ?_, ?_⟩
  · rw [h.frames, Frames.replay_of_unbound hbound _ hnew]
  · have hnone : ∀ e ∈ new, e.cells = [] := by
      intro e he
      cases e with
      | stored cells => exact absurd (hnew _ he) (hstored cells)
      | _ => rfl
    rw [h.cells, List.flatMap_eq_nil_iff.2 hnone, List.nil_append]

theorem asked (m : Machine σ) : m.Grown (Eval.asked m) :=
  ⟨[.queried m.frames m.imports.imported m.cells], rfl, rfl, rfl⟩

theorem noting (m : Machine σ) (p : Proc) (args : List Value) : m.Grown (m.noting p args) :=
  ⟨[.called p args], rfl, rfl, rfl⟩

/-- A name was bound. -/
theorem binding (m : Machine σ) (frame : FrameId) (name : String) (v : Value) :
    m.Grown (m.binding frame name v) :=
  ⟨[.bound frame name v], rfl, rfl, rfl⟩

/-- Something was stored. -/
theorem storing (m : Machine σ) (stored : Cells) : m.Grown (m.storing stored) := by
  unfold Machine.storing
  split
  · exact refl m
  · refine ⟨[.stored _], rfl, rfl, ?_⟩
    rw [List.flatMap_singleton]
    rfl

theorem searched {m m' : Machine σ} (h : m.Notes Event.IsSearch m') : m.Grown m' :=
  of_notes (fun _ _ _ => False.elim) (fun _ => False.elim) h

end Machine.Grown

/-- A script adds to the journal. -/
theorem Performs.grown {script : Script σ} {m m' : Machine σ} {answer : Except Failure Value}
    {inside : List (Visit σ)} (h : Performs script m answer m' inside)
    (hinside : ∀ w ∈ inside, w.before.Grown w.after) : m.Grown m' := by
  induction h with
  | finish answer m => exact .refl m
  | eval _ ih =>
    obtain ⟨hfirst, hrest⟩ := List.forall_mem_cons.1 hinside
    exact Machine.Grown.trans hfirst (ih hrest)
  | get _ ih => exact ih hinside
  | @set state stored _ m _ _ _ _ ih =>
    have hset : m.Grown { m with host := state } := ⟨[], rfl, rfl, rfl⟩
    exact hset.trans ((Machine.Grown.storing _ stored).trans (ih hinside))
  | lookup _ ih => exact ih hinside
  | @bind frame name value _ m _ _ _ _ ih =>
    exact (Machine.Grown.binding m frame name value).trans (ih hinside)

/-- So does a procedure. -/
theorem Applies.grown {host : Host σ} {site : Site} {p : Proc} {args : List Value}
    {m m' : Machine σ} {answer : Except Failure Value} {inside : List (Visit σ)}
    (h : Applies host site p args m answer m' inside)
    (hinside : ∀ w ∈ inside, w.before.Grown w.after) : m.Grown m' := by
  cases h with
  | branch => exact hinside _ List.mem_cons_self
  | standard hdone =>
    have hnotes := (Eval.Still.applyStandard host site args _ _ _ _ (hdone _)).1
    exact .of_notes (fun _ _ _ => False.elim) (fun _ => False.elim) hnotes
  | host hscript => exact hscript.grown hinside
  | machine hscript => exact hscript.grown hinside
  | method => exact .storing m _
  | function => exact .storing m _

-- ====================================================== what is due

/-- What a form evaluates next. -/
inductive Due where
  /-- A subexpression of the form. -/
  | part (code : Code)
  /-- The branch that a call of `cond` with the arguments picks. -/
  | branch (args : List Value) (code : Code)

namespace Due

/-- The expression. -/
def code : Due → Code
  | part code | branch _ code => code

/-- The machine in which the evaluation begins, after what came before. -/
def start (m : Machine σ) : Due → Machine σ
  | part _ => m
  | branch args _ => m.noting (.standard .cond) args

/-- The number of calls that report a failure on its way to the form. -/
def calls : Due → Nat
  | part _ => 0
  | branch .. => 1

/-- A failure as it comes out of the form. -/
def report (d : Due) (e : Failure) : Failure :=
  Failure.ofCall^[d.calls] e

end Due

namespace Expr

/-- The items of a list form. -/
def items : Code → List Code
  | .list _ items => items
  | _ => []

@[simp] theorem items_list (mark : Mark) (items : List Code) :
    Expr.items (.list mark items) = items := rfl

/-- Those items of a form that are evaluated in any case, in source
order. -/
def parts : List Code → List Code
  | .symbol "." :: rest =>
    match rest with
    | [object, .symbol _] => [object]
    | _ => []
  | .symbol "if" :: rest =>
    match rest with
    | [test, _] | [test, _, _] => [test]
    | _ => []
  | .symbol "define" :: rest =>
    match rest with
    | [.symbol name, value] => if isLiteral name then [] else [value]
    | _ => []
  | .symbol "import" :: rest =>
    match rest with
    | [.symbol name] => if isLiteral name then [.symbol name] else []
    | [part] => [part]
    | _ => []
  | .symbol "quote" :: _ => []
  | items => items

/-- The branch that is evaluated after the parts of a form had the given
values, which are read then. -/
def sequel? (cells : Cells) : List Code → List Value → Option Due
  | [.symbol "if", _, yes], [test] =>
    if (test.read cells).truthy then some (.part yes) else none
  | [.symbol "if", _, yes, no], [test] =>
    some (.part (if (test.read cells).truthy then yes else no))
  | _, .proc (.standard .cond) :: args =>
    (Value.picked? (Value.readAll cells args)).map (.branch (Value.readAll cells args))
  | _, _ => none

/-- What a form evaluates next, once what it evaluated so far had the given
values. -/
def due? (cells : Cells) (items : List Code) (values : List Value) : Option Due :=
  match (parts items)[values.length]? with
  | some code => some (.part code)
  | none => if values.length = (parts items).length then sequel? cells items values else none

variable {cells cells' : Cells} {items rest : List Code} {head code : Code}
  {values args : List Value} {v : Value}

/-- All items of a call are parts. -/
theorem parts_of_not_keyword (h : head.isKeyword = false) (rest : List Code) :
    parts (head :: rest) = head :: rest := by
  cases head with
  | symbol name =>
    simp only [isKeyword, List.contains_eq_mem, List.mem_cons, decide_eq_false_iff_not, not_or] at h
    simp [parts, h]
  | _ => rfl

/-- At the start all of them are left. -/
theorem drop_parts (h : head.isKeyword = false) (rest : List Code) :
    (parts (head :: rest)).drop ([] : List Value).length = head :: rest :=
  parts_of_not_keyword h rest

/-- A form with the wrong parts evaluates none of them. -/
theorem parts_of_misshapen {form : Code} {f : Fault} (h : misshapen? cells form items = some f) :
    parts items = [] := by
  unfold misshapen? at h
  unfold parts
  split at h
  · split at h
    · cases h
    · simp_all
    · simp_all
  · split at h
    · cases h
    · cases h
    · simp_all
  · split at h
    · split at h
      · simp_all
      · cases h
    · simp_all
    · simp_all
  · split at h
    · cases h
    · simp_all
  · cases h

/-- The part of an `if` is the test. -/
theorem parts_if {test yes : Code} (h : rest.length ≤ 1) :
    parts (.symbol "if" :: test :: yes :: rest) = [test] := by
  rcases rest with _ | ⟨no, _ | ⟨other, rest⟩⟩
  · rfl
  · rfl
  · simp at h

/-- The part of a `define` is the value. -/
theorem parts_define {name : String} (h : isLiteral name = false) (value : Code) :
    parts [.symbol "define", .symbol name, value] = [value] := by
  show (if isLiteral name then [] else [value]) = [value]
  rw [h]
  rfl

/-- The part of an `import` is the name, unless it is plain. -/
theorem parts_import {part : Code} (h : ∀ name, part = .symbol name → isLiteral name = true) :
    parts [.symbol "import", part] = [part] := by
  cases part with
  | symbol name =>
    show (if isLiteral name then [.symbol name] else []) = [Expr.symbol name]
    rw [h name rfl]
    rfl
  | _ => rfl

/-- The parts are in source order. -/
theorem parts_sublist (items : List Code) : (parts items).Sublist items := by
  unfold parts
  split
  · split <;> simp
  · split <;> simp
  · split
    · split <;> simp
    · simp
  · split
    · split <;> simp
    · simp
    · simp
  · simp
  · simp

/-- A form with more than one part has all its items as parts. -/
theorem parts_eq_self (h : 1 < (parts items).length) : parts items = items := by
  unfold parts at h ⊢
  split at h
  · split at h <;> simp at h
  · split at h <;> simp at h
  · split at h
    · split at h <;> simp at h
    · simp at h
  · split at h
    · split at h <;> simp at h
    · simp at h
    · simp at h
  · simp at h
  · rfl

/-- The first branch is evaluated next. -/
theorem sequel?_yes {test yes : Code} (h : rest.length ≤ 1)
    (hv : (v.read cells).truthy = true) :
    sequel? cells (.symbol "if" :: test :: yes :: rest) [v] = some (.part yes) := by
  rcases rest with _ | ⟨no, _ | ⟨other, rest⟩⟩
  · exact if_pos hv
  · show some (Due.part (if (v.read cells).truthy then yes else no)) = _
    rw [if_pos hv]
  · simp at h

/-- Nothing is evaluated before the first part. -/
theorem sequel?_nil (cells : Cells) (items : List Code) : sequel? cells items [] = none := by
  simp [sequel?]

/-- A call of `cond` evaluates what it picks. -/
theorem sequel?_cond (h : head ≠ .symbol "if") (rest : List Code) (args : List Value) :
    sequel? cells (head :: rest) (.proc (.standard .cond) :: args)
      = (Value.picked? (Value.readAll cells args)).map (.branch (Value.readAll cells args)) := by
  simp [sequel?, h]

theorem sequel?_of_ne_cond (h : head ≠ .symbol "if") (rest : List Code)
    (hv : v ≠ .proc (.standard .cond)) (args : List Value) :
    sequel? cells (head :: rest) (v :: args) = none := by
  simp [sequel?, h, hv]

/-- Only an `if` goes on after a single value. -/
theorem sequel?_singleton (h : head ≠ .symbol "if") (rest : List Code) (v : Value) :
    sequel? cells (head :: rest) [v] = none := by
  by_cases hv : v = .proc (.standard .cond)
  · subst hv
    rw [sequel?_cond h]
    rfl
  · exact sequel?_of_ne_cond h rest hv []

/-- A part in its place is due. -/
theorem due?_part (h : (parts items)[values.length]? = some code) :
    due? cells items values = some (.part code) := by
  unfold due?
  rw [h]

/-- After the parts the sequel is due. -/
theorem due?_sequel (h : values.length = (parts items).length) :
    due? cells items values = sequel? cells items values := by
  unfold due?
  rw [List.getElem?_eq_none (Nat.le_of_eq h.symm)]
  exact if_pos h

/-- After the sequel nothing is due. -/
theorem due?_over (h : (parts items).length < values.length) :
    due? cells items values = none := by
  unfold due?
  rw [List.getElem?_eq_none (Nat.le_of_lt h)]
  exact if_neg (Nat.ne_of_gt h)

theorem due?_concat (h : values.length = (parts items).length) (v : Value) :
    due? cells items (values ++ [v]) = none := by
  refine due?_over ?_
  rw [List.length_append, h]
  exact Nat.lt_succ_self _

/-- What is due is a part in its place, or the sequel. -/
theorem due?_cases {d : Due} (h : due? cells items values = some d) :
    (∃ code, (parts items)[values.length]? = some code ∧ d = .part code)
      ∨ values.length = (parts items).length ∧ sequel? cells items values = some d := by
  unfold due? at h
  split at h
  · next code hcode =>
    cases h
    exact .inl ⟨code, hcode, rfl⟩
  · split at h
    · next hlength => exact .inr ⟨hlength, h⟩
    · cases h

/-- The first of the parts that are left is due. -/
theorem due?_of_drop {codes : List Code} (h : (parts items).drop values.length = code :: codes) :
    due? cells items values = some (.part code) := by
  refine due?_part ?_
  rw [← List.head?_drop, h]
  rfl

/-- Where nothing is due, nothing comes later, whatever is stored
meanwhile. -/
theorem due?_append (h : due? cells items values = none) {more : List Value} (hmore : more ≠ []) :
    due? cells' items (values ++ more) = none := by
  refine due?_over ?_
  unfold due? at h
  split at h
  · cases h
  · next hnone =>
    have hle := List.getElem?_eq_none_iff.1 hnone
    have hpos := List.length_pos_iff.2 hmore
    rw [List.length_append]
    omega

end Expr

-- ====================================================== one after the other

open LispShell.Expr

/-- The visits of what is due in a form, up to the first failure. The form
already has the given values. -/
inductive Serial (items : List Code) : List Value → Machine σ → Except Failure (List Value) →
    Machine σ → List (Visit σ) → Prop where
  | completed {values : List Value} {m : Machine σ} (hdue : due? m.cells items values = none) :
      Serial items values m (.ok values) m []
  | failed {values : List Value} {d : Due} {m : Machine σ}
      (hdue : due? m.cells items values = some d) (e : Failure) (m₁ : Machine σ) :
      Serial items values m (.error (d.report e)) m₁ [⟨d.code, d.start m, .error e, m₁⟩]
  | next {values : List Value} {d : Due} {m : Machine σ}
      (hdue : due? m.cells items values = some d) {v : Value} {m₁ m₂ : Machine σ}
      {answer : Except Failure (List Value)} {visits : List (Visit σ)}
      (hrest : Serial items (values ++ [v]) m₁ answer m₂ visits) :
      Serial items values m answer m₂ (⟨d.code, d.start m, .ok v, m₁⟩ :: visits)

/-- The expressions visited are items of the form in source order, each at
most once, apart from the branch that a call of `cond` picks at the end. -/
def InSource (items : List Code) (visits : List (Visit σ)) : Prop :=
  (visits.map Visit.code).Sublist items
    ∨ ∃ args code, Value.picked? args = some code ∧ visits.map Visit.code = items ++ [code]

/-- Parts evaluated in a row. -/
theorem Row.serial {items codes : List Code} {m m' : Machine σ}
    {answer : Except Failure (List Value)} {inside : List (Visit σ)}
    (h : Row codes m answer m' inside) {values : List Value}
    (hcodes : (parts items).drop values.length = codes) :
    (∀ e, answer = .error e → Serial items values m (.error e) m' inside)
      ∧ ∀ ws, answer = .ok ws → ∀ {final : Except Failure (List Value)} {m₂ : Machine σ}
        {more : List (Visit σ)}, Serial items (values ++ ws) m' final m₂ more →
        Serial items values m final m₂ (inside ++ more) := by
  -- a series is extended at its front, so what comes after the row is a parameter
  induction h generalizing values with
  | nil m =>
    refine ⟨nofun, fun ws hws => ?_⟩
    cases hws
    rw [List.append_nil]
    exact id
  | failed code rest m e m₁ =>
    refine ⟨fun e' he => ?_, nofun⟩
    cases he
    exact .failed (due?_of_drop hcodes) e m₁
  | @cons code rest m v m₁ m₂ answer inside hrest ih =>
    have hdue : due? m.cells items values = some (.part code) := due?_of_drop hcodes
    have hdrop : (parts items).drop (values ++ [v]).length = rest := by
      rw [List.length_append, List.length_singleton, ← List.tail_drop, hcodes]
      rfl
    obtain ⟨hfailed, hdone⟩ := ih hdrop
    cases answer with
    | error e =>
      refine ⟨fun e' he => ?_, nofun⟩
      cases he
      exact .next hdue (hfailed e rfl)
    | ok vs =>
      refine ⟨nofun, fun ws hws => ?_⟩
      cases hws
      intro final m₃ more hmore
      refine .next hdue (hdone vs rfl ?_)
      rwa [List.append_assoc]

-- ====================================================== source order

/-- `cond` picks from a test and a branch. -/
theorem two_le_of_picked {args : List Value} {code : Code} (h : Value.picked? args = some code) :
    2 ≤ args.length := by
  unfold Value.picked? at h
  split at h
  · exact Nat.le_refl 2
  · exact Nat.le_succ 2
  · cases h

/-- A branch stands after the test, or is picked by `cond` after all else. -/
theorem sequel?_source {cells : Cells} {items : List Code} {values : List Value} {d : Due}
    (hlength : values.length = (parts items).length) (h : sequel? cells items values = some d) :
    (parts items ++ [d.code]).Sublist items
      ∨ ∃ args code, Value.picked? args = some code
        ∧ parts items ++ [d.code] = items ++ [code] := by
  unfold sequel? at h
  split at h
  · next test yes v =>
    split at h
    · cases h
      exact .inl (List.sublist_cons_self _ _)
    · cases h
  · next test yes no v =>
    cases h
    left
    show List.Sublist [test, if (v.read cells).truthy then yes else no] _
    split
    · simp
    · simp
  · next args _ _ =>
    obtain ⟨code, hpicked, rfl⟩ := Option.map_eq_some_iff.1 h
    have htwo := two_le_of_picked hpicked
    rw [Value.readAll_eq_map, List.length_map] at htwo
    rw [List.length_cons] at hlength
    rw [parts_eq_self (by omega)]
    exact .inr ⟨_, code, hpicked, rfl⟩
  · cases h

namespace Serial

variable {items : List Code} {values : List Value} {m m' : Machine σ}
  {answer : Except Failure (List Value)} {visits : List (Visit σ)}

/-- Where nothing is due, nothing is visited. -/
theorem visits_eq_nil (h : Serial items values m answer m' visits)
    (hdue : due? m.cells items values = none) : visits = [] := by
  cases h with
  | completed => rfl
  | failed hdue' => cases hdue.symm.trans hdue'
  | next hdue' => cases hdue.symm.trans hdue'

/-- The parts are visited in their order, and the sequel after them. -/
theorem codes (h : Serial items values m answer m' visits)
    (hle : values.length ≤ (parts items).length) :
    visits.map Visit.code <+: (parts items).drop values.length
      ∨ ∃ cells values' d, values'.length = (parts items).length
        ∧ sequel? cells items values' = some d
        ∧ visits.map Visit.code = (parts items).drop values.length ++ [d.code] := by
  induction h with
  | completed => exact .inl List.nil_prefix
  | @failed values d m hdue =>
    rcases due?_cases hdue with ⟨code, hcode, rfl⟩ | ⟨hlength, hsequel⟩
    · left
      obtain ⟨hlt, rfl⟩ := List.getElem?_eq_some_iff.1 hcode
      rw [List.drop_eq_getElem_cons hlt]
      exact ⟨_, rfl⟩
    · right
      refine ⟨m.cells, values, d, hlength, hsequel, ?_⟩
      rw [List.drop_eq_nil_of_le (Nat.le_of_eq hlength.symm)]
      rfl
  -- the sequel is the last thing that is visited, hence the visits after it are none
  | @next values d m hdue v _ _ _ _ hrest ih =>
    rcases due?_cases hdue with ⟨code, hcode, rfl⟩ | ⟨hlength, hsequel⟩
    · obtain ⟨hlt, rfl⟩ := List.getElem?_eq_some_iff.1 hcode
      have hnext : (values ++ [v]).length = values.length + 1 := by simp
      rw [hnext] at ih
      rw [List.drop_eq_getElem_cons hlt, List.map_cons]
      rcases ih hlt with hrest | ⟨cells, values', d, hlength, hsequel, hrest⟩
      · exact .inl (List.cons_prefix_cons.2 ⟨rfl, hrest⟩)
      · refine .inr ⟨cells, values', d, hlength, hsequel, ?_⟩
        rw [hrest]
        rfl
    · right
      refine ⟨m.cells, values, d, hlength, hsequel, ?_⟩
      have hlast := hrest.visits_eq_nil (due?_concat hlength v)
      rw [List.drop_eq_nil_of_le (Nat.le_of_eq hlength.symm), hlast]
      rfl

/-- What is visited is in source order. -/
theorem inSource (h : Serial items [] m answer m' visits) : InSource items visits := by
  rcases h.codes (Nat.zero_le _) with hparts | ⟨cells, values, d, hlength, hsequel, hcodes⟩
  · exact .inl (hparts.sublist.trans (parts_sublist items))
  · rw [InSource, hcodes]
    exact sequel?_source hlength hsequel

end Serial

-- ====================================================== what follows

/-- Procedures of the host, which may evaluate expressions of their own. -/
def Proc.isHosted : Proc → Bool
  | .host _ | .machine .. => true
  | _ => false

/-- How a form ends once everything in it has a value. -/
inductive Ends (site : Site) (items : List Code) : List Value → Machine σ →
    Except Failure Value → Machine σ → List (Visit σ) → Prop where
  /-- The name of a `define` is bound to the value. -/
  | define {name : String} {part : Code} (hitems : items = [.symbol "define", .symbol name, part])
      (v : Value) (m : Machine σ) :
      Ends site items [v] m (.ok v) (m.binding site.frame name v) []
  /-- The value of the head is called with the values of the arguments, as
  they read then. -/
  | call {p : Proc} {args : List Value} (hargs : args.length + 1 = items.length)
      {m m' : Machine σ}
      (hgrown : (m.noting (p.read m.cells) (Value.readAll m.cells args)).Grown m')
      (answer : Except Failure Value) {within : List (Visit σ)}
      (hwithin : p.isHosted = false → within = []) :
      Ends site items (.proc p :: args) m answer m' within
  /-- Any other form binds, prints and calls nothing. -/
  | plain {values : List Value}
      (hdefine : ∀ rest v, items = .symbol "define" :: rest → values ≠ [v])
      (hcall : ∀ p args, values = .proc p :: args → values.length ≠ items.length)
      {m m' : Machine σ} (hnotes : m.Notes Event.IsSearch m') (answer : Except Failure Value) :
      Ends site items values m answer m' []

/-- A form that evaluates what is due in it, and fails where that fails. -/
inductive Ordered (site : Site) (items : List Code) : Machine σ → Except Failure Value →
    Machine σ → List (Visit σ) → Prop where
  | failed {m m' : Machine σ} {e : Failure} {inside : List (Visit σ)}
      (hsource : InSource items inside) (hserial : Serial items [] m (.error e) m' inside) :
      Ordered site items m (.error e) m' inside
  | completed {m m₁ m' : Machine σ} {values : List Value} {answer : Except Failure Value}
      {first within : List (Visit σ)} (hsource : InSource items first)
      (hserial : Serial items [] m (.ok values) m₁ first)
      (hend : Ends site items values m₁ answer m' within) :
      Ordered site items m answer m' (first ++ within)

namespace Ordered

variable {site : Site} {items : List Code} {code branch : Code} {m m₁ m' : Machine σ} {v : Value}

/-- A form that evaluates nothing. -/
theorem of_no_parts (hparts : parts items = []) (hnotes : m.Notes Event.IsSearch m')
    (answer : Except Failure Value) : Ordered site items m answer m' [] := by
  have hdue : due? m.cells items [] = none := by
    rw [due?_sequel (by rw [hparts]; rfl), sequel?_nil]
  have hserial : Serial items [] m (.ok []) m [] := .completed hdue
  refine .completed hserial.inSource hserial (.plain ?_ ?_ hnotes answer)
  · exact fun _ _ _ h => nomatch h
  · exact fun _ _ h => nomatch h

theorem of_failed (hparts : (parts items)[0]? = some code) (m : Machine σ) (e : Failure)
    (m' : Machine σ) : Ordered site items m (.error e) m' [⟨code, m, .error e, m'⟩] := by
  have hserial : Serial items [] m (.error e) m' [⟨code, m, .error e, m'⟩] :=
    .failed (due?_part hparts) e m'
  exact .failed hserial.inSource hserial

/-- The only part has a value. -/
theorem serial_one (hparts : parts items = [code])
    (hsequel : sequel? m₁.cells items [v] = none) (m : Machine σ) :
    Serial items [] m (.ok [v]) m₁ [⟨code, m, .ok v, m₁⟩] := by
  refine .next (due?_part (by rw [hparts]; rfl)) (.completed ?_)
  rw [List.nil_append, due?_sequel (by rw [hparts]; rfl), hsequel]

/-- The only part has a value, and the form goes on from there. -/
theorem of_one (hparts : parts items = [code]) (hsequel : sequel? m₁.cells items [v] = none)
    (hdefine : items.head? ≠ some (.symbol "define")) (hitems : 2 ≤ items.length)
    (m : Machine σ) (hnotes : m₁.Notes Event.IsSearch m') (answer : Except Failure Value) :
    Ordered site items m answer m' [⟨code, m, .ok v, m₁⟩] := by
  have hserial := serial_one hparts hsequel m
  refine .completed hserial.inSource hserial (.plain ?_ ?_ hnotes answer)
  · rintro rest w rfl
    exact absurd rfl hdefine
  · intro p args hvalues
    rw [List.length_singleton]
    omega

/-- The only part has a value, and a branch is evaluated next. -/
theorem of_branch (hparts : parts items = [code])
    (hsequel : sequel? m₁.cells items [v] = some (.part branch)) (hitems : 3 ≤ items.length)
    (m : Machine σ) (answer : Except Failure Value) (m' : Machine σ) :
    Ordered site items m answer m' [⟨code, m, .ok v, m₁⟩, ⟨branch, m₁, answer, m'⟩] := by
  have hlength : [v].length = (parts items).length := by
    rw [hparts]
    rfl
  have hfirst : due? m.cells items [] = some (.part code) := due?_part (by rw [hparts]; rfl)
  have hsecond : due? m₁.cells items [v] = some (.part branch) :=
    (due?_sequel hlength).trans hsequel
  cases answer with
  | error e =>
    have hserial : Serial items [] m (.error e) m'
        [⟨code, m, .ok v, m₁⟩, ⟨branch, m₁, .error e, m'⟩] :=
      .next hfirst (.failed hsecond e m')
    exact .failed hserial.inSource hserial
  | ok w =>
    have hserial : Serial items [] m (.ok [v, w]) m'
        [⟨code, m, .ok v, m₁⟩, ⟨branch, m₁, .ok w, m'⟩] :=
      .next hfirst (.next hsecond (.completed (due?_concat hlength w)))
    refine .completed hserial.inSource hserial (.plain ?_ ?_ (.refl m') (.ok w))
    · exact fun _ _ _ h => nomatch h
    · intro p args hvalues
      show 2 ≠ items.length
      omega

end Ordered

namespace Row

variable {head : Code} {rest : List Code} {v : Value} {m m₁ m₂ : Machine σ} {args : List Value}
  {inside : List (Visit σ)}

/-- As many values as expressions. -/
theorem length_eq {codes : List Code} {answer : Except Failure (List Value)}
    (h : Row codes m answer m₁ inside) (hanswer : answer = .ok args) :
    args.length = codes.length := by
  induction h generalizing args with
  | nil =>
    cases hanswer
    rfl
  | failed => cases hanswer
  | @cons code rest m v m₁ m₂ answer inside _ ih =>
    cases answer with
    | error e => cases hanswer
    | ok vs =>
      cases hanswer
      exact congrArg (· + 1) (ih rfl)

theorem length_parts (h : Row rest m₁ (.ok args) m₂ inside) (hhead : head.isKeyword = false)
    (v : Value) : (v :: args).length = (parts (head :: rest)).length := by
  rw [parts_of_not_keyword hhead, List.length_cons, List.length_cons, h.length_eq rfl]

theorem serial_failed {e : Failure} (h : Row rest m₁ (.error e) m₂ inside)
    (hhead : head.isKeyword = false) (m : Machine σ) (v : Value) :
    Serial (head :: rest) [] m (.error e) m₂ (⟨head, m, .ok v, m₁⟩ :: inside) :=
  ((Row.cons head m v h).serial (drop_parts hhead rest)).1 e rfl

/-- The head and the arguments of a form have values, and the form goes on
from there. -/
theorem serial_all (h : Row rest m₁ (.ok args) m₂ inside) (hhead : head.isKeyword = false)
    {final : Except Failure (List Value)} {m₃ : Machine σ} {more : List (Visit σ)}
    (hmore : Serial (head :: rest) (v :: args) m₂ final m₃ more) (m : Machine σ) :
    Serial (head :: rest) [] m final m₃ (⟨head, m, .ok v, m₁⟩ :: inside ++ more) :=
  ((Row.cons head m v h).serial (drop_parts hhead rest)).2 (v :: args) rfl hmore

end Row

/-- A head that is no keyword. -/
theorem Expr.ne_of_not_keyword {head : Code} (h : head.isKeyword = false) :
    head ≠ .symbol "if" ∧ head ≠ .symbol "define" := by
  constructor
  · rintro rfl
    cases h
  · rintro rfl
    cases h

/-- Only the standard procedures read as such. -/
theorem Proc.eq_of_read_eq {cells : Cells} {p : Proc} {s : Standard}
    (h : p.read cells = .standard s) : p = .standard s := by
  cases p with
  | standard => exact h
  | _ => cases h

/-- A procedure evaluates the branch it picks, or what a host asks for. -/
theorem Applies.sequel {host : Host σ} {site : Site} {cells : Cells} {p : Proc}
    {args : List Value} {m m' : Machine σ} {answer : Except Failure Value}
    {within : List (Visit σ)}
    (h : Applies host site (p.read cells) (Value.readAll cells args) m answer m' within)
    {head : Code} (hhead : head.isKeyword = false) (rest : List Code) :
    (∃ code, p = .standard .cond
        ∧ sequel? cells (head :: rest) (.proc p :: args)
          = some (.branch (Value.readAll cells args) code)
        ∧ within = [⟨code, m, answer, m'⟩])
      ∨ sequel? cells (head :: rest) (.proc p :: args) = none
        ∧ (p.isHosted = false → within = []) := by
  have hif := (ne_of_not_keyword hhead).1
  have hother : p ≠ .standard .cond → sequel? cells (head :: rest) (.proc p :: args) = none :=
    fun hp => sequel?_of_ne_cond hif rest (fun h => hp (Value.proc.inj h)) args
  have hhosted : (p.read cells).isHosted = p.isHosted := by cases p <;> rfl
  -- the rules are about the procedure as it reads, which is of the same kind
  generalize hread : p.read cells = q at h hhosted
  cases h with
  | @branch _ code hpicked =>
    obtain rfl := Proc.eq_of_read_eq hread
    refine .inl ⟨code, rfl, ?_, rfl⟩
    rw [sequel?_cond hif, hpicked]
    rfl
  | @standard s _ _ _ _ hdone =>
    obtain rfl := Proc.eq_of_read_eq hread
    refine .inr ⟨?_, fun _ => rfl⟩
    by_cases hcond : s = .cond
    · subst hcond
      rw [sequel?_cond hif]
      cases hpicked : Value.picked? (Value.readAll cells args) with
      | none => rfl
      | some code =>
        -- the branch would have been evaluated
        have hspent := hdone fun _ => Eval.spent
        rw [Eval.applyStandard, Eval.condProcedure_picked hpicked] at hspent
        cases hspent
    · exact hother fun h => hcond (Proc.standard.inj h)
  | host | machine =>
    refine .inr ⟨hother ?_, fun h => Bool.noConfusion (hhosted.trans h)⟩
    rintro rfl
    cases hread
  | method | function =>
    refine .inr ⟨hother ?_, fun _ => rfl⟩
    rintro rfl
    cases hread

/-- A call evaluates what is due, and then what the procedure asks for. -/
theorem Ordered.of_call {host : Host σ} {site : Site} {head : Code}
    (hhead : head.isKeyword = false) {rest : List Code} (m : Machine σ) {p : Proc}
    {args : List Value} {m₁ m₂ m₃ m' : Machine σ} {result answer : Except Failure Value}
    {inside within : List (Visit σ)} (hargs : Row rest m₁ (.ok args) m₂ inside)
    (hcall : Applies host site (p.read m₂.cells) (Value.readAll m₂.cells args)
      (m₂.noting (p.read m₂.cells) (Value.readAll m₂.cells args)) result m₃ within)
    (hgrown : ∀ w ∈ within, w.before.Grown w.after)
    (hend : (∃ e, result = .error e ∧ answer = .error e.ofCall ∧ m' = m₃)
      ∨ ∃ v, result = .ok v ∧ m₃.Notes Event.IsSearch m') :
    Ordered site (head :: rest) m answer m' (⟨head, m, .ok (.proc p), m₁⟩ :: inside ++ within) := by
  have hcount := hargs.length_eq rfl
  have hlength := hargs.length_parts hhead (.proc p)
  have hdue : due? m₂.cells (head :: rest) (.proc p :: args) = _ := due?_sequel hlength
  -- either the procedure is `cond`, whose branch is the sequel of the call, or what it evaluates
  -- is no part of the expression
  rcases hcall.sequel hhead rest with ⟨code, rfl, hsequel, rfl⟩ | ⟨hsequel, hwithin⟩
  · rw [hsequel] at hdue
    rcases hend with ⟨e, rfl, rfl, rfl⟩ | ⟨v, rfl, hnotes⟩
    · have hserial := hargs.serial_all hhead (.failed hdue e m') m
      exact .failed hserial.inSource hserial
    · have hlast : Serial (head :: rest) _ m₃ _ m₃ [] := .completed (due?_concat hlength v)
      have hserial := hargs.serial_all hhead (.next hdue hlast) m
      rw [← List.append_nil (_ :: inside ++ _)]
      refine .completed hserial.inSource hserial (.plain ?_ ?_ hnotes answer)
      · intro rest' w hitems
        exact absurd (List.cons.inj hitems).1 (ne_of_not_keyword hhead).2
      · intro p args' _
        simp [hcount]
  · rw [hsequel] at hdue
    have hserial := hargs.serial_all hhead (.completed hdue) m
    rw [List.append_nil] at hserial
    refine .completed hserial.inSource hserial (.call ?_ ?_ answer hwithin)
    · rw [hcount, List.length_cons]
    · have hdone := hcall.grown hgrown
      rcases hend with ⟨e, -, -, rfl⟩ | ⟨v, -, hnotes⟩
      · exact hdone
      · exact hdone.trans (.searched hnotes)

/-- Every expression evaluates what is due in it, and fails where that
fails. -/
theorem Does.ordered {host : Host σ} {site : Site} {code : Code} {m m' : Machine σ}
    {answer : Except Failure Value} {inside : List (Visit σ)}
    (h : Does host site code m answer m' inside)
    (hgrown : ∀ w ∈ inside, w.before.Grown w.after) :
    Ordered site code.items m answer m' inside := by
  -- One case for every rule. Only `if`, `define` and calls have anything to say about the order:
  -- the other rules have no part that is evaluated, or one whose failure is theirs.
  cases h with
  | constant hconstant =>
    cases code with
    | list mark items => cases hconstant
    | _ => exact .of_no_parts rfl (.refl m) _
  | symbol name => exact .of_no_parts rfl (.refl m) _
  | wide mark n =>
    have hnotes : m.Notes Event.IsSearch { m with made := m.made + 1 } :=
      ⟨rfl, rfl, [], rfl, List.forall_mem_nil _⟩
    exact .of_no_parts rfl hnotes _
  | empty mark => exact .of_no_parts rfl (.settling m _) _
  | misshapen hshape => exact .of_no_parts (parts_of_misshapen hshape) (.refl m) _
  | quote mark parts => exact .of_no_parts rfl (.refl m) _
  | dotFailed mark object name _ e => exact .of_failed rfl m e m'
  | dot hmember =>
    exact .of_one rfl (sequel?_singleton (by simp) _ _) (by simp) (by simp) m
      (Eval.notes_of_member hmember) answer
  | testFailed mark test yes hrest _ e =>
    exact .of_failed (by rw [items, parts_if hrest]; rfl) m e m'
  | yes mark test yes hrest _ hv =>
    exact .of_branch (parts_if hrest) (sequel?_yes hrest hv) (by simp) m answer m'
  | no mark test yes no _ hv =>
    exact .of_branch rfl (by simp [sequel?, hv]) (by simp) m answer m'
  | neither mark test yes _ hv =>
    exact .of_one rfl (by simp [sequel?, hv]) (by simp) (by simp) m (.refl m') _
  | defineFailed mark hname value _ e =>
    exact .of_failed (by rw [items, parts_define hname]; rfl) m e m'
  | define mark hname value _ v m₁ =>
    have hsequel : ∀ rest, sequel? m₁.cells (.symbol "define" :: rest) [v] = none :=
      fun rest => sequel?_singleton (by simp) rest v
    have hserial := Ordered.serial_one (parts_define hname value) (hsequel _) m
    exact .completed hserial.inSource hserial (.define rfl v m₁)
  | importPlain mark hname himport =>
    exact .of_no_parts (by simp [items, parts, hname]) (Eval.notes_of_importModule himport) answer
  | importFailed mark hpart _ e =>
    exact .of_failed (by rw [items, parts_import hpart]; rfl) m e m'
  | importNamed mark hpart himport =>
    exact .of_one (parts_import hpart) (sequel?_singleton (by simp) _ _) (by simp) (by simp) m
      (Eval.notes_of_importNamed himport) answer
  | headFailed mark hhead rest _ e =>
    exact .of_failed (by rw [items, parts_of_not_keyword hhead]; rfl) m e m'
  | argsFailed mark hhead _ v hargs =>
    have hserial := hargs.serial_failed hhead m v
    exact .failed hserial.inSource hserial
  -- neither a `define` nor a call ends here: the head is an expression, and its value is not
  -- a procedure
  | @row _ head hhead rest _ v hproc m₁ m₂ args inside hargs =>
    obtain ⟨hif, hdefine⟩ := ne_of_not_keyword hhead
    have hdue : due? m₂.cells (head :: rest) (v :: args) = _ :=
      due?_sequel (hargs.length_parts hhead v)
    rw [sequel?_of_ne_cond hif rest (hproc _)] at hdue
    have hserial := hargs.serial_all hhead (.completed hdue) m
    rw [List.append_nil] at hserial
    rw [← List.append_nil (⟨head, m, .ok v, m₁⟩ :: inside)]
    refine .completed hserial.inSource hserial (.plain ?_ ?_ (.settling m₂ _) _)
    · exact fun _ _ hitems => absurd (List.cons.inj hitems).1 hdefine
    · exact fun p _ hvalues => absurd (List.cons.inj hvalues).1 (hproc p)
  | callFailed mark hhead _ hargs hcall =>
    refine .of_call hhead m hargs hcall ?_ (.inl ⟨_, rfl, rfl, rfl⟩)
    exact (List.forall_mem_append.1 hgrown).2
  | call mark hhead _ hargs hcall =>
    refine .of_call hhead m hargs hcall ?_ (.inr ⟨_, rfl, .settling _ _⟩)
    exact (List.forall_mem_append.1 hgrown).2

-- ====================================================== the journal grows

/-- The call of `cond` is noted down first. -/
theorem Due.grown_start (d : Due) (m : Machine σ) : m.Grown (d.start m) := by
  cases d with
  | part code => exact .refl m
  | branch args code => exact .noting m _ args

theorem Due.cells_start (d : Due) (m : Machine σ) : (d.start m).cells = m.cells := by
  cases d <;> rfl

/-- A series adds to the journal. -/
theorem Serial.grown {items : List Code} {values : List Value} {m m' : Machine σ}
    {answer : Except Failure (List Value)} {visits : List (Visit σ)}
    (h : Serial items values m answer m' visits)
    (hvisits : ∀ w ∈ visits, w.before.Grown w.after) : m.Grown m' := by
  induction h with
  | completed => exact .refl _
  | @failed _ d m _ e m₁ => exact (d.grown_start m).trans (hvisits _ List.mem_cons_self)
  | @next _ d m _ _ _ _ _ _ _ ih =>
    obtain ⟨hfirst, hrest⟩ := List.forall_mem_cons.1 hvisits
    exact (d.grown_start m).trans (hfirst.trans (ih hrest))

/-- A visit in the series comes after what was before it and before what
is left. -/
theorem Serial.around {items : List Code} {values : List Value} {m m' : Machine σ}
    {answer : Except Failure (List Value)} {visits : List (Visit σ)}
    (h : Serial items values m answer m' visits)
    (hvisits : ∀ w ∈ visits, w.before.Grown w.after) {s : Visit σ} (hs : s ∈ visits) :
    m.Grown s.before ∧ s.after.Grown m' := by
  induction h with
  | completed => cases hs
  | @failed _ d m _ e m₁ =>
    cases List.mem_singleton.1 hs
    exact ⟨d.grown_start m, .refl m₁⟩
  | @next _ d m _ _ _ _ _ _ hseries ih =>
    obtain ⟨hfirst, hrest⟩ := List.forall_mem_cons.1 hvisits
    rcases List.mem_cons.1 hs with rfl | hs
    · exact ⟨d.grown_start m, hseries.grown hrest⟩
    · obtain ⟨hbefore, hafter⟩ := ih hrest hs
      exact ⟨(d.grown_start m).trans (hfirst.trans hbefore), hafter⟩

/-- So does what follows it. -/
theorem Ends.grown {site : Site} {items : List Code} {values : List Value} {m m' : Machine σ}
    {answer : Except Failure Value} {within : List (Visit σ)}
    (h : Ends site items values m answer m' within) : m.Grown m' := by
  cases h with
  | define => exact .binding m _ _ _
  | call _ hgrown => exact (Machine.Grown.noting m _ _).trans hgrown
  | plain _ _ hnotes => exact .searched hnotes

/-- And so does the form. -/
theorem Ordered.grown {site : Site} {items : List Code} {m m' : Machine σ}
    {answer : Except Failure Value} {inside : List (Visit σ)}
    (h : Ordered site items m answer m' inside)
    (hinside : ∀ w ∈ inside, w.before.Grown w.after) : m.Grown m' := by
  cases h with
  | failed _ hserial => exact hserial.grown hinside
  | completed _ hserial hend =>
    exact (hserial.grown (List.forall_mem_append.1 hinside).1).trans hend.grown

-- ====================================================== tours in order

/-- A visit that was refused, or that evaluates what is due in its
expression. -/
inductive Visit.InOrder (site : Site) : Visit σ → List (Visit σ) → Prop where
  | canceled (code : Code) (m : Machine σ) :
      InOrder site ⟨code, m, .error .canceled, Eval.asked m⟩ []
  | proceeds {code : Code} {m m' : Machine σ} {answer : Except Failure Value}
      {inside : List (Visit σ)} (h : Ordered site code.items (Eval.asked m) answer m' inside) :
      InOrder site ⟨code, m, answer, m'⟩ inside

/-- Every visit goes in order. -/
theorem Step.inOrder {host : Host σ} {site : Site} {v : Visit σ} {inside : List (Visit σ)}
    (h : Step host site v inside) (hinside : ∀ w ∈ inside, w.before.Grown w.after) :
    v.InOrder site inside := by
  cases h with
  | canceled code => exact .canceled code _
  | proceeds _ hdoes => exact .proceeds (hdoes.ordered hinside)

/-- A visit in order adds to the journal. -/
theorem Visit.InOrder.grown {site : Site} {v : Visit σ} {inside : List (Visit σ)}
    (h : v.InOrder site inside) (hinside : ∀ w ∈ inside, w.before.Grown w.after) :
    v.before.Grown v.after := by
  cases h with
  | canceled code m => exact .asked m
  | @proceeds _ m _ _ _ h => exact (Machine.Grown.asked m).trans (h.grown hinside)

namespace Tour

/-- All visits of the tour go in order, and the journal grows in each. -/
inductive InOrder (site : Site) : Tour σ → Prop where
  | node {v : Visit σ} {inside : List (Tour σ)} (horder : v.InOrder site (inside.map visit))
      (hgrown : v.before.Grown v.after) (hinside : ∀ t ∈ inside, t.InOrder site) :
      InOrder site (.node v inside)

theorem InOrder.grown {site : Site} {t : Tour σ} (h : t.InOrder site) :
    t.visit.before.Grown t.visit.after := by
  cases h with
  | node _ hgrown _ => exact hgrown

/-- Every tour goes in order. -/
theorem Valid.inOrder {host : Host σ} {site : Site} {depth : Nat} {t : Tour σ}
    (h : t.Valid host site depth) : t.InOrder site := by
  induction depth generalizing t with
  | zero => exact h.elim
  | succ depth ih =>
    obtain ⟨v, inside⟩ := t
    obtain ⟨hstep, hvalid⟩ := h
    have hinside : ∀ w ∈ inside.map visit, w.before.Grown w.after := by
      intro w hw
      obtain ⟨t, ht, rfl⟩ := List.mem_map.1 hw
      exact (ih (hvalid t ht)).grown
    have horder := hstep.inOrder hinside
    exact .node horder (horder.grown hinside) fun t ht => ih (hvalid t ht)

/-- The second tour is that of an expression due in the first, after the
ones before it had values. -/
def Child (t : Tour σ) (d : Due) (s : Tour σ) : Prop :=
  ∃ v earlier later values, t = node v (earlier ++ s :: later)
    ∧ (earlier.map visit).map Visit.answer = values.map .ok
    ∧ due? s.visit.before.cells v.code.items values = some d

/-- The second tour is somewhere in the forms of the first, with a number
of calls of `cond` in between. -/
inductive Encloses : Tour σ → Nat → Tour σ → Prop where
  | self (t : Tour σ) : Encloses t 0 t
  | child {t s u : Tour σ} {d : Due} {n : Nat} (hchild : t.Child d s) (h : s.Encloses n u) :
      Encloses t (d.calls + n) u

/-- The tour fails, and not because something due in it does. -/
def Fails (t : Tour σ) (cause : Failure) : Prop :=
  t.visit.answer = .error cause ∧ ∀ d s, t.Child d s → ∃ v, s.visit.answer = .ok v

end Tour

-- ====================================================== failures

/-- Only a procedure of the host evaluates something once all that was due
has a value. -/
theorem Ends.due?_eq_none {site : Site} {items : List Code} {values : List Value}
    {m m' : Machine σ} {answer : Except Failure Value} {within : List (Visit σ)}
    (h : Ends site items values m answer m' within) (hwithin : within ≠ []) (cells : Cells) :
    due? cells items values = none := by
  cases h with
  | define => exact absurd rfl hwithin
  | plain => exact absurd rfl hwithin
  | @call p args hargs _ _ _ _ _ hhosted =>
    have hcond : Value.proc p ≠ .proc (.standard .cond) := by
      rintro ⟨⟩
      exact hwithin (hhosted rfl)
    have hlength : (Value.proc p :: args).length = items.length := hargs
    have hle := (parts_sublist items).length_le
    rcases Nat.lt_or_eq_of_le hle with hlt | heq
    · exact due?_over (hlength.symm ▸ hlt)
    · -- all items are parts, which is not so in a special form
      have hself : parts items = items := (parts_sublist items).eq_of_length heq
      rw [due?_sequel (by rw [hself, hlength])]
      cases items with
      | nil => cases hargs
      | cons head rest =>
        refine sequel?_of_ne_cond ?_ rest hcond args
        rintro rfl
        have hone := List.length_cons ▸ heq
        rcases rest with _ | ⟨test, _ | ⟨yes, _ | ⟨no, _ | ⟨more, rest⟩⟩⟩⟩
        · cases hself
        · cases hself
        · cases hself
        · cases hself
        · cases hself

namespace Serial

variable {items : List Code} {values : List Value} {m m' : Machine σ}
  {answer : Except Failure (List Value)} {visits : List (Visit σ)}

/-- What is due has a value, or its failure ends everything. Where there are
visits later on, nothing was due before them. -/
theorem child (h : Serial items values m answer m' visits) {within earlier later : List (Visit σ)}
    (hover : within ≠ [] → ∀ all cells, answer = .ok all → due? cells items all = none)
    {s : Visit σ} {ws : List Value} {d : Due} (hsplit : visits ++ within = earlier ++ s :: later)
    (hvalues : earlier.map Visit.answer = ws.map .ok)
    (hdue : due? s.before.cells items (values ++ ws) = some d) :
    s ∈ visits ∧ ((∃ v, s.answer = .ok v)
      ∨ ∃ e, s.answer = .error e ∧ answer = .error (d.report e) ∧ m' = s.after) := by
  -- By induction on the series, with the visits before `s` taken off in step. What stands in
  -- `within` comes after the last value, where nothing is due any more.
  induction h generalizing earlier ws with
  | @completed values m hnone =>
    cases ws with
    | nil =>
      cases List.map_eq_nil_iff.1 hvalues
      have hlater : within = s :: later := hsplit
      rw [List.append_nil, hover (hlater ▸ List.cons_ne_nil _ _) values _ rfl] at hdue
      cases hdue
    | cons w ws =>
      rw [due?_append hnone (List.cons_ne_nil w ws)] at hdue
      cases hdue
  | failed hfailed e m₁ =>
    cases earlier with
    | nil =>
      cases hsplit
      cases List.map_eq_nil_iff.1 hvalues.symm
      rw [List.append_nil, Due.cells_start] at hdue
      cases hfailed.symm.trans hdue
      exact ⟨List.mem_cons_self, .inr ⟨e, rfl, rfl, rfl⟩⟩
    | cons w earlier =>
      cases hsplit
      cases ws with
      | nil => cases hvalues
      | cons v ws => cases (List.cons.inj hvalues).1
  | @next values d' m _ v _ _ _ _ _ ih =>
    cases earlier with
    | nil =>
      cases hsplit
      exact ⟨List.mem_cons_self, .inl ⟨v, rfl⟩⟩
    | cons w earlier =>
      obtain ⟨rfl, hrest⟩ := List.cons.inj hsplit
      cases ws with
      | nil => cases hvalues
      | cons v' ws =>
        obtain ⟨hv, hvalues'⟩ := List.cons.inj hvalues
        cases hv
        rw [List.append_cons] at hdue
        obtain ⟨hmem, hs⟩ := ih hover hrest hvalues' hdue
        exact ⟨List.mem_cons_of_mem _ hmem, hs⟩

end Serial

namespace Tour

variable {site : Site} {t s u : Tour σ} {d : Due} {n : Nat} {e : Failure}

/-- A tour inside one in order is in order. -/
theorem Child.inOrder (hchild : t.Child d s) (h : t.InOrder site) : s.InOrder site := by
  obtain ⟨v, earlier, later, values, rfl, -, -⟩ := hchild
  cases h with
  | node _ _ hinside => exact hinside s (List.mem_append_right _ List.mem_cons_self)

/-- What is due has a value, or the form fails as it does and where it
does. The form does nothing else meanwhile. -/
theorem Child.spec (hchild : t.Child d s) (h : t.InOrder site) :
    (t.visit.before.Grown s.visit.before ∧ s.visit.after.Grown t.visit.after)
      ∧ ((∃ v, s.visit.answer = .ok v)
        ∨ ∃ e, s.visit.answer = .error e ∧ t.visit.answer = .error (d.report e)
          ∧ t.visit.after = s.visit.after) := by
  obtain ⟨v, earlier, later, values, rfl, hvalues, hdue⟩ := hchild
  cases h with
  | node horder _ hinside =>
    have hgrown : ∀ w ∈ (earlier ++ s :: later).map visit, w.before.Grown w.after := by
      intro w hw
      obtain ⟨u, hu, rfl⟩ := List.mem_map.1 hw
      exact (hinside u hu).grown
    generalize hvisits : (earlier ++ s :: later).map visit = visits at horder hgrown
    rw [List.map_append, List.map_cons] at hvisits
    cases horder with
    | canceled => simp at hvisits
    | @proceeds _ m _ _ _ hordered =>
      have hasked := Machine.Grown.asked m
      cases hordered with
      | failed _ hserial =>
        rw [← List.append_nil visits] at hvisits
        obtain ⟨hmem, hs⟩ := hserial.child (absurd rfl) hvisits.symm hvalues hdue
        obtain ⟨hbefore, hafter⟩ := hserial.around hgrown hmem
        refine ⟨⟨hasked.trans hbefore, hafter⟩, ?_⟩
        rcases hs with hok | ⟨e, hs, he, hsame⟩
        · exact .inl hok
        · cases he
          exact .inr ⟨e, hs, rfl, hsame⟩
      -- all parts have values, so the child has one
      | completed _ hserial hend =>
        obtain ⟨hmem, hs⟩ := hserial.child (fun hwithin all cells hall => by
          cases hall
          exact hend.due?_eq_none hwithin cells) hvisits.symm hvalues hdue
        obtain ⟨hbefore, hafter⟩ := hserial.around (List.forall_mem_append.1 hgrown).1 hmem
        refine ⟨⟨hasked.trans hbefore, hafter.trans hend.grown⟩, ?_⟩
        rcases hs with hok | ⟨e, -, he, -⟩
        · exact .inl hok
        · cases he

theorem Encloses.inOrder (h : t.Encloses n s) (ht : t.InOrder site) : s.InOrder site := by
  induction h with
  | self => exact ht
  | child hchild _ ih => exact ih (hchild.inOrder ht)

/-- What happens in an expression happens in all the forms around it, and
stays there. -/
theorem Encloses.around (h : t.Encloses n s) (ht : t.InOrder site) :
    t.visit.before.Grown s.visit.before ∧ s.visit.after.Grown t.visit.after := by
  induction h with
  | self t => exact ⟨.refl _, .refl _⟩
  | child hchild _ ih =>
    obtain ⟨hbefore, hafter⟩ := (hchild.spec ht).1
    obtain ⟨hbefore', hafter'⟩ := ih (hchild.inOrder ht)
    exact ⟨hbefore.trans hbefore', hafter'.trans hafter⟩

/-- A failure comes out of all the forms around it. -/
theorem Encloses.failed (h : t.Encloses n s) (ht : t.InOrder site)
    (hs : s.visit.answer = .error e) :
    t.visit.answer = .error (Failure.ofCall^[n] e) ∧ t.visit.after = s.visit.after := by
  induction h with
  | self t => exact ⟨hs, rfl⟩
  | @child t s u d n hchild _ ih =>
    obtain ⟨hanswer, hafter⟩ := ih (hchild.inOrder ht) hs
    rcases (hchild.spec ht).2 with ⟨v, hv⟩ | ⟨e', he', htanswer, htafter⟩
    · rw [hv] at hanswer
      cases hanswer
    · cases he'.symm.trans hanswer
      refine ⟨?_, htafter.trans hafter⟩
      rw [htanswer, Due.report, Function.iterate_add_apply]

/-- Every failure comes from a place where nothing that was due failed. -/
theorem InOrder.exists_origin (h : t.InOrder site) (hfailed : t.visit.answer = .error e) :
    ∃ n s cause, t.Encloses n s ∧ s.Fails cause := by
  induction h generalizing e with
  | @node v inside horder hgrown hinside ih =>
    have ht : (Tour.node v inside).InOrder site := .node horder hgrown hinside
    by_cases hall : ∀ d s, (Tour.node v inside).Child d s → ∃ w, s.visit.answer = .ok w
    · exact ⟨0, _, e, .self _, hfailed, hall⟩
    · simp only [not_forall] at hall
      obtain ⟨d, s, hchild, hs⟩ := hall
      rcases (hchild.spec ht).2 with hok | ⟨e', he', -, -⟩
      · exact absurd hok hs
      · have hmem : s ∈ inside := by
          obtain ⟨_, _, _, _, heq, -, -⟩ := hchild
          cases heq
          exact List.mem_append_right _ List.mem_cons_self
        obtain ⟨n, u, cause, hencloses, hu⟩ := ih s hmem he'
        exact ⟨_, u, cause, .child hchild hencloses, hu⟩

end Tour

-- ====================================================== evaluations

/-- An evaluation goes from left to right and stops at the first failure.
In each form of it, what is due is evaluated in source order and once,
before the form has an effect of its own; and what was done stays done. If
an expression fails, so do all the forms around it, with the same failure
as the calls of `cond` on the way report it. They end in the machine in
which it failed, and a `define` among them is not completed. If the
evaluation fails, it is because of such an expression. -/
theorem Eval.eval_in_order {host : Host σ} {site : Site} {depth : Nat} {code : Code}
    {m m' : Machine σ} {answer : Except Failure Value}
    (h : eval host site depth code m = .done answer m') :
    ∃ t : Tour σ, t.Valid host site depth ∧ t.visit = ⟨code, m, answer, m'⟩ ∧ t.InOrder site
      ∧ (∀ k u, t.Encloses k u → m.Grown u.visit.before ∧ u.visit.after.Grown m')
      ∧ (∀ k u n s e, t.Encloses k u → u.Encloses n s → s.visit.answer = .error e →
          u.visit.answer = .error (Failure.ofCall^[n] e) ∧ u.visit.after = s.visit.after
          ∧ ∀ name v, ¬u.visit.Defines name v)
      ∧ ∀ e, answer = .error e → ∃ n s cause, t.Encloses n s ∧ s.Fails cause
          ∧ e = Failure.ofCall^[n] cause ∧ m' = s.visit.after := by
  obtain ⟨t, hvalid, hvisit⟩ := Tour.of_eval h
  have horder := hvalid.inOrder
  refine ⟨t, hvalid, hvisit, horder, ?_, ?_, ?_⟩
  · intro k u hu
    have haround := hu.around horder
    rwa [hvisit] at haround
  · intro k u n s e hu hs he
    obtain ⟨hanswer, hafter⟩ := hs.failed (hu.inOrder horder) he
    refine ⟨hanswer, hafter, ?_⟩
    rintro name v ⟨_, _, -, hok⟩
    rw [hanswer] at hok
    cases hok
  · rintro e rfl
    obtain ⟨n, s, cause, hs, hcause⟩ := horder.exists_origin (by rw [hvisit])
    obtain ⟨hanswer, hafter⟩ := hs.failed horder hcause.1
    rw [hvisit] at hanswer hafter
    exact ⟨n, s, cause, hs, hcause, Except.error.inj hanswer, hafter⟩

namespace Eval

/-- `(define a 1)` and `(quote (define b (import 1)))`. -/
def interruption : List Code :=
  [.list .blank [.symbol "define", .symbol "a", .int 1],
    .list .blank
      [.symbol "quote",
        .list .blank [.symbol "define", .symbol "b", .list .blank [.symbol "import", .int 1]]]]

/-- `(cond (define a 1) (quote (define b (import 1))))`, which fails in the
branch that is picked. -/
def interrupted : Code :=
  .list .blank (.symbol "cond" :: interruption)

/-- A machine that knows `cond`. -/
def choosing : Machine Platform :=
  { idle with frames := [⟨[("cond", .proc (.standard .cond))], none⟩] }

/-- The first `define` stays. The one around the failure and the one after
it do not take place. -/
theorem eval_in_order_interrupted :
    ∃ m', eval Platform.host ⟨0, 0, none⟩ 6
        (.list .blank [interrupted, .list .blank [.symbol "define", .symbol "c", .int 2]]) choosing
        = .done (.error (.recast (.fault (.moduleName "1")))) m'
      ∧ (m'.frames.bindings 0).get? "a" = some (.int 1)
      ∧ (m'.frames.bindings 0).get? "b" = none
      ∧ (m'.frames.bindings 0).get? "c" = none
      ∧ ∃ (t : Tour Platform) (n : Nat) (s : Tour Platform) (cause : Failure),
        t.InOrder ⟨0, 0, none⟩ ∧ t.Encloses n s ∧ s.Fails cause
        ∧ .recast (.fault (.moduleName "1")) = Failure.ofCall^[n] cause ∧ m' = s.visit.after := by
  have hcond : choosing.frames.lookup 0 "cond" = some (.proc (.standard .cond)) :=
    Frames.lookup_of_root rfl "cond"
  have hhead : eval Platform.host ⟨0, 0, none⟩ 4 (.symbol "cond") (asked (asked choosing))
      = .done (.ok (.proc (.standard .cond))) (asked (asked (asked choosing))) := by
    have hallows : Site.allows ⟨0, 0, none⟩ (asked (asked choosing)) := fun _ h => nomatch h
    rw [eval, step_eq, bind_done (checkpoint_of_allows hallows)]
    exact proceed_symbol rfl hcond _
  obtain ⟨m₂, hargs, ha, hb, hc⟩ : ∃ m₂,
      collect (eval Platform.host ⟨0, 0, none⟩ 4) interruption (asked (asked (asked choosing)))
        = .done (.ok [.int 1, .list .blank
          [.symbol "define", .symbol "b", .list .blank [.symbol "import", .int 1]]]) m₂
      ∧ (m₂.frames.bindings 0).get? "a" = some (.int 1)
      ∧ (m₂.frames.bindings 0).get? "b" = none
      ∧ (m₂.frames.bindings 0).get? "c" = none := ⟨_, rfl, rfl, rfl, rfl⟩
  have hbranch : ∀ m : Machine Platform, eval Platform.host ⟨0, 0, none⟩ 4
      (.list .blank [.symbol "define", .symbol "b", .list .blank [.symbol "import", .int 1]]) m
      = .done (.error (.fault (.moduleName "1"))) (asked (asked (asked m))) := fun _ => rfl
  obtain ⟨m', hrun, hframes⟩ : ∃ m',
      eval Platform.host ⟨0, 0, none⟩ 5 interrupted (asked choosing)
        = .done (.error (Failure.fault (.moduleName "1")).ofCall) m'
      ∧ (m'.frames.bindings 0).get? "a" = some (.int 1)
      ∧ (m'.frames.bindings 0).get? "b" = none
      ∧ (m'.frames.bindings 0).get? "c" = none := by
    exact ⟨_, (apply_of_proc hhead hargs).trans (call_failed (hbranch _)), ha, hb, hc⟩
  have hprogram : eval Platform.host ⟨0, 0, none⟩ 6
      (.list .blank [interrupted, .list .blank [.symbol "define", .symbol "c", .int 2]]) choosing
      = .done (.error (.recast (.fault (.moduleName "1")))) m' := bind_failed hrun
  obtain ⟨t, -, -, horder, -, -, horigin⟩ := eval_in_order hprogram
  obtain ⟨n, s, cause, hs⟩ := horigin _ rfl
  obtain ⟨ha, hb, hc⟩ := hframes
  exact ⟨m', hprogram, ha, hb, hc, t, n, s, cause, horder, hs⟩

end Eval

end LispShell
