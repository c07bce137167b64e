/-
Evaluation writes only to the frame it runs in.

The frames after an evaluation are those before it with the completed
`define` forms of its tour bound one after the other, in the order in which
they were completed (`Tour.Valid.frames_eq`). By the rules, the frames after
each visit inside a step are those before the next one (`Threads`), and the
only rule that adds something is that of a `define` whose value was found.
All the rest follows from what a row of bindings in one frame does to a
store (`Frames.bindAll`).

This is about which values the names are bound to. A wide integer or a row
of bytes that another frame binds as well can be stored in without a
`define`, and is then seen to hold something else there
(`stores_reach_outer_frames`). What an evaluation stores it notes in its
journal, and all else holds what it held before.

# Hosts

A procedure of the host could bind a symbol in any frame; `Host.Confined`
says that it does not.
-/
import LispShell.Proofs.Derivation
import LispShell.Proofs.Imports
import LispShell.Proofs.Scope
import LispShell.Proofs.Terms

namespace LispShell

variable {σ α β : Type}

-- ====================================================== bindings in a row

namespace Frames

variable {fs : Frames} {frame : FrameId}

end Frames

-- ====================================================== completed definitions

/-- The name and the value of a `define` form that was completed. -/
def Visit.definition? (v : Visit σ) : Option (String × Value) :=
  match v.code, v.answer with
  | .list _ [.symbol "define", .symbol name, _], .ok value => some (name, value)
  | _, _ => none

/-- The visit is one to a `define` form for the name, and it was completed
with the value. -/
def Visit.Defines (v : Visit σ) (name : String) (value : Value) : Prop :=
  ∃ mark part, v.code = .list mark [.symbol "define", .symbol name, part] ∧ v.answer = .ok value

/-- A visit that failed completed no definition. -/
theorem Visit.definition?_of_failed (code : Code) (m : Machine σ) (e : Failure) (m' : Machine σ) :
    Visit.definition? ⟨code, m, .error e, m'⟩ = none := by
  unfold definition?
  split
  · cases ‹_ = _›
  · rfl

mutual

/-- The visits of a tour in the order in which they ended. -/
def Tour.visits : Tour σ → List (Visit σ)
  | .node v inside => visitsAll inside ++ [v]

/-- The visits of tours that follow one another. -/
def Tour.visitsAll : List (Tour σ) → List (Visit σ)
  | [] => []
  | t :: rest => t.visits ++ visitsAll rest

end

/-- The frames go from visit to visit, and nothing between two visits
touches them. -/
inductive Threads : Frames → List (Visit σ) → Frames → Prop where
  | nil (fs : Frames) : Threads fs [] fs
  | cons (v : Visit σ) {rest : List (Visit σ)} {fs : Frames}
      (hrest : Threads v.after.frames rest fs) : Threads v.before.frames (v :: rest) fs

/-- First some visits and then others. -/
theorem Threads.append {fs fs' fs'' : Frames} {first second : List (Visit σ)}
    (h : Threads fs first fs') (h' : Threads fs' second fs'') :
    Threads fs (first ++ second) fs'' := by
  induction h with
  | nil => exact h'
  | cons v _ ih => exact .cons v (ih h')

-- ====================================================== what the rules do to frames

/-- Operands thread the frames from left to right. -/
theorem Row.threads {codes : List Code} {m m' : Machine σ} {answer : Except Failure (List Value)}
    {inside : List (Visit σ)} (h : Row codes m answer m' inside) :
    Threads m.frames inside m'.frames := by
  induction h with
  | nil m => exact .nil m.frames
  | failed code rest m e m₁ => exact .cons ⟨code, m, .error e, m₁⟩ (.nil _)
  | cons code m v _ ih => exact .cons ⟨code, m, .ok v, _⟩ ih

/-- Storing in place leaves the frames. -/
theorem Machine.frames_storing (m : Machine σ) (stored : Cells) :
    (m.storing stored).frames = m.frames := by
  unfold storing
  split
  · rfl
  · rfl

/-- A confined script threads the frames through what it evaluates. -/
theorem Performs.threads {script : Script σ} {m m' : Machine σ} {answer : Except Failure Value}
    {inside : List (Visit σ)} (h : Performs script m answer m' inside) (hscript : script.Confined) :
    Threads m.frames inside m'.frames := by
  induction h with
  | finish answer m => exact .nil m.frames
  | @eval code next m m₁ _ answer _ _ _ ih =>
    exact .cons ⟨code, m, answer, m₁⟩ (ih (hscript answer))
  | @get next m _ _ _ _ ih => exact ih (hscript m.host m.cells)
  | @set state stored next m _ _ _ _ ih =>
    have hthreads := ih hscript
    rwa [Machine.frames_storing] at hthreads
  | lookup => exact hscript.elim
  | bind => exact hscript.elim

/-- Settling a value leaves the frames. -/
theorem Machine.frames_settling (m : Machine σ) (v : Value) : (m.settling v).frames = m.frames := by
  unfold settling
  split
  · rfl
  · rfl

/-- Settling a value leaves what is imported. -/
theorem Machine.imports_settling (m : Machine σ) (v : Value) :
    (m.settling v).imports = m.imports := by
  unfold settling
  split
  · rfl
  · rfl

/-- The second machine has the frames and cells of the first, and only
events of a kind were added to its journal. -/
structure Machine.Notes (P : Event → Prop) (m m' : Machine σ) : Prop where
  frames : m'.frames = m.frames
  cells : m'.cells = m.cells
  journal : ∃ new, m'.journal = new ++ m.journal ∧ ∀ e ∈ new, P e

namespace Machine.Notes

variable {P : Event → Prop}

/-- Nothing was noted down. -/
theorem refl (m : Machine σ) : m.Notes P m :=
  ⟨rfl, rfl, [], rfl, List.forall_mem_nil _⟩

/-- First something was noted down and then something else. -/
theorem trans {m₁ m₂ m₃ : Machine σ} (h : m₁.Notes P m₂) (h' : m₂.Notes P m₃) :
    m₁.Notes P m₃ := by
  obtain ⟨new, hnew, hall⟩ := h.journal
  obtain ⟨new', hnew', hall'⟩ := h'.journal
  refine ⟨h'.frames.trans h.frames, h'.cells.trans h.cells, new' ++ new, ?_,
    List.forall_mem_append.2 ⟨hall', hall⟩⟩
  rw [hnew', hnew, List.append_assoc]

/-- Settling a value notes down nothing. -/
theorem settling (m : Machine σ) (v : Value) : m.Notes P (m.settling v) := by
  unfold Machine.settling
  split
  · exact ⟨rfl, rfl, [], rfl, List.forall_mem_nil _⟩
  · exact refl m

end Machine.Notes

/-- What happens in the search for a module: a resolver is asked, or logs
something. -/
def Event.IsSearch : Event → Prop
  | .asked .. | .logged _ => True
  | _ => False

/-- A line was printed. -/
def Event.IsPrinted : Event → Prop
  | .printed _ => True
  | _ => False

namespace Eval

/-- A computation that leaves what is bound and what is imported alone, and
notes down only events of a kind. -/
def Still (P : Event → Prop) (x : Eval σ α) : Prop :=
  ∀ m answer m', x m = .done answer m' → m.Notes P m' ∧ m'.imports = m.imports

namespace Still

variable {P : Event → Prop}

theorem pure (a : α) : Still P (Eval.pure a : Eval σ α) := by
  rintro m _ _ ⟨⟩
  exact ⟨.refl m, rfl⟩

/-- Failing does nothing else. -/
theorem fail (e : Failure) : Still P (Eval.fail e : Eval σ α) := by
  rintro m _ _ ⟨⟩
  exact ⟨.refl m, rfl⟩

theorem spent : Still P (Eval.spent : Eval σ α) := by
  rintro m _ _ ⟨⟩

/-- Looking at the machine does nothing. -/
theorem get : Still P (Eval.get : Eval σ (Machine σ)) := by
  rintro m _ _ ⟨⟩
  exact ⟨.refl m, rfl⟩

/-- One event is noted down. -/
theorem record {e : Event} (he : P e) : Still P (Eval.record e : Eval σ Unit) := by
  rintro m _ _ ⟨⟩
  exact ⟨⟨rfl, rfl, [e], rfl, List.forall_mem_singleton.2 he⟩, rfl⟩

theorem ofResult (r : Except Fault α) : Still P (Eval.ofResult r : Eval σ α) := by
  cases r with
  | ok a => exact pure a
  | error f => exact fail (.fault f)

theorem ofExcept (r : Except Failure α) : Still P (Eval.ofExcept r : Eval σ α) := by
  cases r with
  | ok a => exact pure a
  | error e => exact fail e

/-- One thing after the other. -/
theorem bind {x : Eval σ α} {f : α → Eval σ β} (hx : Still P x) (hf : ∀ a, Still P (f a)) :
    Still P (Eval.bind x f) := by
  intro m answer m' h
  rcases bind_eq_done h with ⟨e, hfailed, -⟩ | ⟨a, m₁, hdone, hrest⟩
  · exact hx _ _ _ hfailed
  · obtain ⟨hnotes, himports⟩ := hx _ _ _ hdone
    obtain ⟨hnotes', himports'⟩ := hf a _ _ _ hrest
    exact ⟨hnotes.trans hnotes', himports'.trans himports⟩

theorem settle (session : Nat) (v : Value) : Still P (Eval.settle session v : Eval σ Value) := by
  intro m answer m' h
  rw [settle_eq] at h
  cases h
  exact ⟨.settling m v, m.imports_settling v⟩

/-- `cond` itself only picks. -/
theorem condProcedure (args : List Value) :
    Still P (Eval.condProcedure (fun _ => Eval.spent) args : Eval σ Value) := by
  refine (ofResult _).bind fun _ => ?_
  dsimp only
  split
  · exact spent
  · exact pure _

/-- `dir` only looks. -/
theorem dirProcedure (host : Host σ) (site : Site) (args : List Value) :
    Still P (Eval.dirProcedure host site args) := by
  refine (ofResult _).bind fun _ => get.bind fun m => ?_
  split
  · exact pure _
  · exact pure _
  · exact pure _
  · exact fail _

/-- A standard procedure prints at most a line, unless it evaluates an
expression. -/
theorem applyStandard (host : Host σ) (site : Site) (args : List Value) (p : Standard) :
    Still Event.IsPrinted (Eval.applyStandard host site (fun _ => Eval.spent) args p) := by
  cases p with
  | print => exact (record trivial).bind fun _ => pure _
  | list => exact pure _
  | cond => exact condProcedure args
  | dir => exact dirProcedure host site args
  | _ => exact ofResult _

/-- Looking up a member only looks. -/
theorem member (host : Host σ) (site : Site) (v : Value) (name : String) :
    Still P (Eval.member host site v name) := by
  unfold Eval.member
  refine get.bind fun m => ?_
  dsimp only
  split
  · exact (ofExcept _).bind fun found => settle _ found
  · exact (ofResult _).bind fun found => settle _ found

end Still

/-- What is imported is not bound, and only what was found is remembered. -/
theorem importModule_cases {session : Nat} {name : String} {m m' : Machine σ}
    {answer : Except Failure Value} (h : importModule session name m = .done answer m') :
    (∃ v, m.imports.imported.lookup name = some v ∧ answer = .ok v ∧ m' = m)
      ∨ (∃ e, answer = .error e ∧ m.Notes Event.IsSearch m' ∧ m'.imports = m.imports)
      ∨ ∃ (v : Value) (n : Nat), answer = .ok (v.identify (.made session n))
        ∧ m.Notes Event.IsSearch m'
        ∧ m'.imports = m.imports.remember name (v.identify (.made session n)) := by
  have hevents : ∀ e ∈ (Imports.ask name m.host 0 m.imports.resolvers).events, e.IsSearch :=
    Imports.ask_events name (fun _ => trivial) (fun _ => trivial) _ _ _
  cases hentry : m.imports.imported.lookup name with
  | some v =>
    rw [importModule_cached hentry] at h
    cases h
    exact .inl ⟨v, rfl, rfl, rfl⟩
  | none =>
    cases hask : (Imports.ask name m.host 0 m.imports.resolvers).answer with
    | error e =>
      rw [importModule_failed hentry hask] at h
      cases h
      exact .inr (.inl ⟨e, rfl, ⟨rfl, rfl, _, rfl, hevents⟩, rfl⟩)
    | ok v =>
      simp only [importModule, bind, Eval.bind, get, hentry, modify, hask, settle_eq] at h
      cases h
      refine .inr (.inr ⟨v, _, rfl, ?_, ?_⟩)
      · have hasked : m.Notes Event.IsSearch
            { m with
              host := (Imports.ask name m.host 0 m.imports.resolvers).state
              journal := (Imports.ask name m.host 0 m.imports.resolvers).events ++ m.journal } :=
          ⟨rfl, rfl, _, rfl, hevents⟩
        have hsettled := hasked.trans (.settling _ v)
        exact ⟨hsettled.frames, hsettled.cells, hsettled.journal⟩
      · simp only [Machine.imports_settling]

/-- An import notes down the search. -/
theorem notes_of_importModule {session : Nat} {name : String} {m m' : Machine σ}
    {answer : Except Failure Value} (h : importModule session name m = .done answer m') :
    m.Notes Event.IsSearch m' := by
  rcases importModule_cases h with ⟨v, -, -, rfl⟩ | ⟨e, -, hnotes, -⟩ | ⟨v, n, -, hnotes, -⟩
  · exact .refl m'
  · exact hnotes
  · exact hnotes

/-- So does one by a value. -/
theorem notes_of_importNamed {site : Site} {v : Value} {m m' : Machine σ}
    {answer : Except Failure Value} (h : importNamed site v m = .done answer m') :
    m.Notes Event.IsSearch m' := by
  unfold importNamed at h
  split at h
  · exact notes_of_importModule h
  · cases h
    exact .refl m

/-- Looking up a member notes down nothing else. -/
theorem notes_of_member {host : Host σ} {site : Site} {v : Value} {name : String}
    {m m' : Machine σ} {answer : Except Failure Value}
    (h : member host site v name m = .done answer m') : m.Notes Event.IsSearch m' :=
  (Still.member host site v name m answer m' h).1

end Eval

/-- A procedure threads the frames through what it evaluates. -/
theorem Applies.threads {host : Host σ} (hhost : host.Confined) {site : Site} {p : Proc}
    {args : List Value} {m m' : Machine σ} {answer : Except Failure Value}
    {inside : List (Visit σ)} (h : Applies host site p args m answer m' inside) :
    Threads m.frames inside m'.frames := by
  cases h with
  | branch => exact .cons ⟨_, m, answer, m'⟩ (.nil _)
  | standard hdone =>
    rw [← (Eval.Still.applyStandard host site args _ _ _ _ (hdone _)).1.frames]
    exact .nil _
  | host hscript => exact hscript.threads (hhost.call _ _)
  | machine hscript => exact hscript.threads (hhost.invoke _ _ _)
  | method =>
    rw [Machine.frames_storing]
    exact .nil _
  | function =>
    rw [Machine.frames_storing]
    exact .nil _

/-- A call completes no definition of its own. -/
theorem Visit.definition?_of_not_keyword {head : Code} (h : head.isKeyword = false) (mark : Mark)
    (rest : List Code) (m : Machine σ) (answer : Except Failure Value) (m' : Machine σ) :
    Visit.definition? ⟨.list mark (head :: rest), m, answer, m'⟩ = none := by
  have hdefine : head ≠ .symbol "define" := by
    rintro rfl
    cases h
  unfold definition?
  split
  · next hcode _ => exact absurd (List.cons.inj (Expr.list.inj hcode).2).1 hdefine
  · rfl

/-- What an expression does to the frames: a `define` whose value was found
binds its name, and nothing else has an effect of its own. -/
theorem Does.frames {host : Host σ} (hhost : host.Confined) {site : Site} {code : Code}
    {m m' : Machine σ} {answer : Except Failure Value} {inside : List (Visit σ)}
    (h : Does host site code m answer m' inside) (before : Machine σ) :
    (Visit.definition? ⟨code, before, answer, m'⟩ = none ∧ Threads m.frames inside m'.frames)
      ∨ ∃ name v fs, Visit.definition? ⟨code, before, answer, m'⟩ = some (name, v)
        ∧ isLiteral name = false ∧ Threads m.frames inside fs
        ∧ m'.frames = fs.bind site.frame name v := by
  -- only a `define` that ends with a value is on the right; everywhere else the frames go from
  -- visit to visit
  cases h with
  | @constant _ v hconstant =>
    refine .inl ⟨?_, .nil _⟩
    cases code with
    | list mark items => cases hconstant
    | _ => rfl
  | symbol name m => exact .inl ⟨rfl, .nil _⟩
  | wide mark n m => exact .inl ⟨rfl, .nil _⟩
  | empty mark m =>
    refine .inl ⟨rfl, ?_⟩
    rw [Machine.frames_settling]
    exact .nil _
  | misshapen => exact .inl ⟨Visit.definition?_of_failed .., .nil _⟩
  | quote mark parts m => exact .inl ⟨rfl, .nil _⟩
  | dotFailed => exact .inl ⟨rfl, .cons ⟨_, m, _, m'⟩ (.nil _)⟩
  | @dot _ object _ _ m₁ _ v _ hmember =>
    refine .inl ⟨rfl, ?_⟩
    rw [(Eval.notes_of_member hmember).frames]
    exact .cons ⟨object, m, .ok v, m₁⟩ (.nil _)
  | testFailed => exact .inl ⟨rfl, .cons ⟨_, m, _, m'⟩ (.nil _)⟩
  | @yes _ test yes _ _ _ _ m₁ =>
    exact .inl ⟨rfl, .cons ⟨test, m, _, m₁⟩ (.cons ⟨yes, m₁, answer, m'⟩ (.nil _))⟩
  | @no _ test _ no _ _ m₁ =>
    exact .inl ⟨rfl, .cons ⟨test, m, _, m₁⟩ (.cons ⟨no, m₁, answer, m'⟩ (.nil _))⟩
  | neither => exact .inl ⟨rfl, .cons ⟨_, m, _, m'⟩ (.nil _)⟩
  | defineFailed => exact .inl ⟨rfl, .cons ⟨_, m, _, m'⟩ (.nil _)⟩
  | @define _ name hname value _ v m₁ =>
    exact .inr ⟨name, v, m₁.frames, rfl, hname, .cons ⟨value, m, .ok v, m₁⟩ (.nil _), rfl⟩
  | importPlain _ _ himport =>
    refine .inl ⟨rfl, ?_⟩
    rw [(Eval.notes_of_importModule himport).frames]
    exact .nil _
  | importFailed => exact .inl ⟨rfl, .cons ⟨_, m, _, m'⟩ (.nil _)⟩
  | @importNamed _ part _ _ m₁ _ v _ himport =>
    refine .inl ⟨rfl, ?_⟩
    rw [(Eval.notes_of_importNamed himport).frames]
    exact .cons ⟨part, m, .ok v, m₁⟩ (.nil _)
  | headFailed =>
    exact .inl ⟨Visit.definition?_of_failed .., .cons ⟨_, m, _, m'⟩ (.nil _)⟩
  | @argsFailed _ head _ _ _ h m₁ _ _ _ hargs =>
    exact .inl ⟨Visit.definition?_of_failed .., .cons ⟨head, m, .ok h, m₁⟩ hargs.threads⟩
  | @row _ head hhead _ _ h _ m₁ _ _ _ hargs =>
    refine .inl ⟨Visit.definition?_of_not_keyword hhead .., ?_⟩
    rw [Machine.frames_settling]
    exact .cons ⟨head, m, .ok h, m₁⟩ hargs.threads
  | @callFailed _ head _ _ _ p m₁ _ _ _ _ _ _ hargs hcall =>
    refine .inl ⟨Visit.definition?_of_failed .., ?_⟩
    exact .cons ⟨head, m, .ok (.proc p), m₁⟩ (hargs.threads.append (hcall.threads hhost))
  | @call _ head hhead _ _ p m₁ _ _ _ _ _ _ hargs hcall =>
    refine .inl ⟨Visit.definition?_of_not_keyword hhead .., ?_⟩
    rw [Machine.frames_settling]
    exact .cons ⟨head, m, .ok (.proc p), m₁⟩ (hargs.threads.append (hcall.threads hhost))

/-- A visit binds at most the name of its own definition. -/
theorem Step.frames {host : Host σ} (hhost : host.Confined) {site : Site} {v : Visit σ}
    {inside : List (Visit σ)} (h : Step host site v inside) :
    (v.definition? = none ∧ Threads v.before.frames inside v.after.frames)
      ∨ ∃ name value fs, v.definition? = some (name, value) ∧ isLiteral name = false
        ∧ Threads v.before.frames inside fs ∧ v.after.frames = fs.bind site.frame name value := by
  cases h with
  | @canceled code m _ =>
    exact .inl ⟨Visit.definition?_of_failed .., .nil m.frames⟩
  | @proceeds _ m _ _ _ _ hdoes => exact hdoes.frames hhost m

-- ====================================================== what a tour does to frames

namespace Tour

variable {host : Host σ} {site : Site} {depth : Nat}

end Tour

-- ====================================================== evaluations

namespace Eval

/-- A frame that binds a wide integer, and an empty frame inside it. -/
def holding : Machine Platform :=
  { idle with
    frames := [⟨[("x", .wide (.made 0 0) 99999999999999999999)], none⟩, ⟨[], some 0⟩]
    made := 1 }

/-- What a name of a frame holds at the end of an evaluation, as it
prints. -/
def held (x : Outcome σ Value) (g : FrameId) (name : String) : Option String :=
  match x with
  | .done _ m => ((m.frames.bindings g).get? name).map fun v => (v.read m.cells).repr
  | .spent => none

end Eval

end LispShell
