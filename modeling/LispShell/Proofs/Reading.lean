/-
Code can be read before it is evaluated.

A quotation gives its expression as it reads there and then. Whoever gets
it, `cond` for instance, evaluates it later, when more may have been stored
in the wide literals inside. It makes no difference (`eval_read`): where a
literal is evaluated, quoted or printed it is read once more, and reading
twice shows what the second reading shows, as what was stored since then is
on top of what was stored before.

The two evaluations run on one machine, whose cells cover those in which
the code was read; `OneCovering` is that as a relation, so that the
judgement of two runs side by side can be used. What they have in common
keeps it because cells only grow (`Related.self`), and what differs between
them is the code of the special forms.
-/
import LispShell.Proofs.Simulation
import LispShell.Proofs.Terms

namespace LispShell

variable {σ α : Type} {cells : Cells}

/-- Cells that cover others do so after something was added. -/
theorem Cells.Covers.append {cells' : Cells} (h : Covers cells' cells) (new : Cells) :
    Covers (new ++ cells') cells := by
  refine ⟨fun mark n => ?_, fun mark row => ?_⟩
  · have hold := h.1 mark n
    simp only [whole, last?_append] at hold ⊢
    cases last? Content.whole? new mark with
    | none => exact hold
    | some k => rfl
  · have hold := h.2 mark row
    simp only [bytes, last?_append] at hold ⊢
    cases last? Content.bytes? new mark with
    | none => exact hold
    | some k => rfl

/-- The machines are one, in which something read in the cells reads as if
it had not been. -/
def Machine.OneCovering (cells : Cells) (m m' : Machine σ) : Prop :=
  m' = m ∧ m.cells.Covers cells

namespace Eval

open Machine (OneCovering)

/-- What keeps to any terms at all adds to the cells and takes nothing
away. -/
theorem Related.self {x : Eval σ α} {post : α → Prop}
    (h : Keeps (Terms.lax σ) True x post) : Related (OneCovering cells) x x := by
  rintro _ m ⟨rfl, hcovers⟩
  cases hx : x m with
  | spent => exact .spent
  | done answer m' =>
    obtain ⟨new, hadds, -⟩ := h m answer m' hx
    refine .done answer ⟨rfl, ?_⟩
    rw [hadds.cells]
    exact hcovers.append _

/-- Computations that depend on the machine go on with the same one. -/
theorem Related.covering {f g : Machine σ → Eval σ α}
    (h : ∀ m, m.cells.Covers cells → Related (OneCovering cells) (f m) (g m)) :
    Related (OneCovering cells) (Eval.bind get f) (Eval.bind get g) := by
  refine .bind_get ?_
  rintro _ m ⟨rfl, hcovers⟩
  exact h m hcovers

section Forms

variable {host : Host σ} {site : Site} {inner : Inner σ}

/-- A complaint quotes the expression as it reads now. -/
theorem complain_read (f : String → Fault) (code : Code) :
    Related (OneCovering cells) (complain f (code.read cells) : Eval σ α) (complain f code) := by
  unfold complain
  refine .covering fun m hcovers => ?_
  rw [Expr.read_read hcovers]
  exact .fail _

/-- So does a quotation. -/
theorem quoteForm_read (parts : List Code) :
    Related (OneCovering cells) (quoteForm (parts.map (Expr.read cells)) : Eval σ Value)
      (quoteForm parts) := by
  rcases parts with _ | ⟨code, _ | ⟨second, rest⟩⟩
  · exact .pure _
  · show Related _ (quoteForm [code.read cells]) _
    unfold quoteForm
    refine .covering fun m hcovers => ?_
    rw [Expr.read_read hcovers]
    exact .pure _
  · exact .pure _

/-- A literal holds what was stored in it last. -/
theorem wideLiteral_read (host : Host σ) (mark : Mark) (n : Int) :
    Related (OneCovering cells) (wideLiteral site mark (cells.whole mark n) : Eval σ Value)
      (wideLiteral site mark n) := by
  unfold wideLiteral
  refine .covering fun m hcovers => ?_
  rw [hcovers.1 mark n]
  exact .self ((Terms.lax_upheld host site).settle site.session _)

variable (hinner : ∀ code, Related (OneCovering cells) (inner (code.read cells)) (inner code))
  (hkeeps : ∀ code, Keeps (Terms.lax σ) True (inner code) fun _ => True)

include hinner

/-- The operands, from left to right. -/
theorem collect_read (codes : List Code) :
    Related (OneCovering cells) (collect inner (codes.map (Expr.read cells)))
      (collect inner codes) := by
  induction codes with
  | nil => exact .pure []
  | cons code rest ih => exact (hinner code).bind fun v => ih.bind fun vs => .pure (v :: vs)

theorem holds_read (test : Code) :
    Related (OneCovering cells) (holds inner (test.read cells)) (holds inner test) :=
  (hinner test).bind fun _ => .covering fun _ _ => .pure _

/-- `(if test yes no)`, `(if test yes)` -/
theorem ifForm_read (form : Code) (parts : List Code) :
    Related (OneCovering cells)
      (ifForm inner (form.read cells) (parts.map (Expr.read cells))) (ifForm inner form parts) := by
  rcases parts with _ | ⟨test, _ | ⟨yes, _ | ⟨no, _ | ⟨more, rest⟩⟩⟩⟩
  · exact complain_read .ifForm form
  · exact complain_read .ifForm form
  · refine (holds_read hinner test).bind fun b => ?_
    split
    · exact hinner yes
    · exact .pure _
  · refine (holds_read hinner test).bind fun b => ?_
    split
    · exact hinner yes
    · exact hinner no
  · exact complain_read .ifForm form

/-- `(. object name)` -/
theorem dotForm_read (form : Code) (parts : List Code) :
    Related (OneCovering cells)
      (dotForm host site inner (form.read cells) (parts.map (Expr.read cells)))
      (dotForm host site inner form parts) := by
  rcases parts with _ | ⟨object, _ | ⟨name, _ | ⟨more, rest⟩⟩⟩
  · exact complain_read .dotForm form
  · exact complain_read .dotForm form
  · cases name with
    | symbol name =>
      exact (hinner object).bind fun v => .self ((Terms.lax_upheld host site).memberOf v _)
    | _ => exact complain_read .attributeName _
  · cases name <;> exact complain_read .dotForm form

/-- `(define name value)` -/
theorem defineForm_read (host : Host σ) (form : Code) (parts : List Code) :
    Related (OneCovering cells)
      (defineForm site inner (form.read cells) (parts.map (Expr.read cells)))
      (defineForm site inner form parts) := by
  rcases parts with _ | ⟨target, _ | ⟨value, _ | ⟨more, rest⟩⟩⟩
  · exact complain_read .defineForm form
  · exact complain_read .defineForm form
  · cases target with
    | symbol name =>
      show Related _ (if isLiteral name then _ else _) (if isLiteral name then _ else _)
      split
      · exact .fail _
      · refine (hinner value).bind fun v => ?_
        exact (Related.self ((Terms.lax_upheld host site).defines site.frame name v)).bind
          fun _ => .pure v
    | _ => exact complain_read .defineName _
  · exact complain_read .defineForm form

/-- `(import name)` -/
theorem importForm_read (host : Host σ) (form : Code) (parts : List Code) :
    Related (OneCovering cells)
      (importForm site inner (form.read cells) (parts.map (Expr.read cells)))
      (importForm site inner form parts) := by
  have hlax := Terms.lax_upheld host site
  have hnamed : ∀ code : Code, Related (OneCovering cells)
      (Eval.bind (inner (code.read cells)) (importNamed site))
      (Eval.bind (inner code) (importNamed site)) :=
    fun code => (hinner code).bind fun v => .self (hlax.importNamed v)
  rcases parts with _ | ⟨name, _ | ⟨more, rest⟩⟩
  · exact complain_read .importForm form
  · cases name with
    | symbol name =>
      show Related _ (if isLiteral name then _ else _) (if isLiteral name then _ else _)
      split
      · exact hnamed (.symbol name)
      · exact .self (hlax.importModule site.session name)
    | _ => exact hnamed _
  · cases name <;> exact complain_read .importForm form

include hkeeps

/-- A call or a sequence. What follows once the operands are evaluated does
not see the code. -/
theorem apply_read (head : Code) (rest : List Code) :
    Related (OneCovering cells)
      (apply host site inner (head.read cells) (rest.map (Expr.read cells)))
      (apply host site inner head rest) := by
  have hlax := Terms.lax_upheld host site
  refine (hinner head).bind fun h => (collect_read hinner rest).bind fun args => ?_
  refine .covering fun m _ => ?_
  split
  · refine .self ((hlax.call (fun code => (hkeeps code).of_pre fun _ => trivial) _ _).of_pre ?_)
    exact fun _ => ⟨trivial, fun _ _ => trivial⟩
  · exact .self (hlax.settle site.session _)

/-- A list. Which form it is does not depend on what was stored. -/
theorem evalList_read (form : Code) (items : List Code) :
    Related (OneCovering cells)
      (evalList host site inner (form.read cells) (items.map (Expr.read cells)))
      (evalList host site inner form items) := by
  cases items with
  | nil => exact .self ((Terms.lax_upheld host site).settle site.session _)
  | cons head rest =>
    cases head with
    | symbol name =>
      unfold evalList
      simp only [List.map_cons, Expr.read]
      split
      · exact dotForm_read hinner form rest
      · exact ifForm_read hinner form rest
      · exact defineForm_read hinner host form rest
      · exact importForm_read hinner host form rest
      · exact quoteForm_read rest
      · exact apply_read hinner hkeeps (.symbol name) rest
    | _ => exact apply_read hinner hkeeps _ rest

end Forms

/-- An expression that was read evaluates as if it had not been, where at
most something was stored since. -/
theorem eval_read (host : Host σ) (site : Site) (depth : Nat) (code : Code) {m : Machine σ}
    (h : m.cells.Covers cells) :
    eval host site depth (code.read cells) m = eval host site depth code m := by
  have hlax := Terms.lax_upheld host site
  have hrelated : Related (OneCovering cells) (eval host site depth (code.read cells))
      (eval host site depth code) := by
    induction depth generalizing code with
    | zero => exact .spent
    | succ depth ih =>
      refine (Related.self hlax.checkpoint).bind fun _ => ?_
      cases code with
      | wide mark n => exact wideLiteral_read host mark n
      | list mark items =>
        show Related _ (evalList host site _ ((Expr.list mark items).read cells)
          (Expr.readAll cells items)) (evalList host site _ (.list mark items) items)
        rw [Expr.readAll_eq_map]
        exact evalList_read ih (fun code => hlax.eval depth code) _ items
      | symbol name => exact .self (hlax.lookupForm name)
      | _ => exact .pure _
  have hend := hrelated m m ⟨rfl, h⟩
  generalize eval host site depth (code.read cells) m = first at hend ⊢
  generalize eval host site depth code m = second at hend ⊢
  cases hend with
  | spent => rfl
  | done answer hm => rw [hm.1]

end Eval

end LispShell
