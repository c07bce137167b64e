/-
The rules of evaluation.

A `Visit` is one evaluation of an expression: what was evaluated, the
machine before it, the answer and the machine after it. `Step` relates a
visit to the visits that take place right inside it, in the order in which
they do. There is a rule for each special form, for each way to call a
procedure and for each point where these can fail. No rule says how the
expressions inside are evaluated; the rules only say which of them are,
from which machine, and what follows from their answers.

Where a value or an expression is looked at, it is as it reads in the
machine at that point: the parts that a complaint quotes, a quotation, the
test of a choice, and the operands of a call once all are evaluated.
-/
import LispShell.Proofs.Orderly

namespace LispShell

variable {σ : Type}

-- ====================================================== visits

/-- One evaluation of an expression that came to an end. -/
structure Visit (σ : Type) where
  code : Code
  before : Machine σ
  answer : Except Failure Value
  after : Machine σ

/-- The evaluator evaluates the expression in that way. -/
def Visit.MadeBy (v : Visit σ) (inner : Eval.Inner σ) : Prop :=
  inner v.code v.before = .done v.answer v.after

-- ====================================================== expressions

/-- The words that make a list a special form. -/
def Expr.isKeyword : Code → Bool
  | .symbol name => [".", "if", "define", "import", "quote"].contains name
  | _ => false

/-- The value of an expression that stands for itself. -/
def Expr.constant? : Code → Option Value
  | .int n => some (.int n)
  | .float x => some (.float x)
  | .text s => some (.text s)
  | .wide .. | .symbol _ | .list .. => none

/-- What is wrong with the parts of a special form, and how that reads. -/
def Expr.misshapen? (cells : Cells) (form : Code) : List Code → Option Fault
  | .symbol "." :: parts =>
    match parts with
    | [_, .symbol _] => none
    | [_, other] => some (.attributeName (other.read cells).render)
    | _ => some (.dotForm (form.read cells).render)
  | .symbol "if" :: parts =>
    match parts with
    | [_, _] | [_, _, _] => none
    | _ => some (.ifForm (form.read cells).render)
  | .symbol "define" :: parts =>
    match parts with
    | [.symbol name, _] =>
      if isLiteral name then some (.defineName (Expr.symbol name : Code).render) else none
    | [target, _] => some (.defineName (target.read cells).render)
    | _ => some (.defineForm (form.read cells).render)
  | .symbol "import" :: parts =>
    match parts with
    | [_] => none
    | _ => some (.importForm (form.read cells).render)
  | _ => none

/-- The value of `(quote …)` with the given parts. -/
def Value.quoted (cells : Cells) : List Code → Value
  | [code] => .ofCode (code.read cells)
  | _ => .bool false

/-- The name of a member, as it is written after the object. -/
def memberName (name : String) : String :=
  if isLiteral name then unquote name else name

/-- What a symbol stands for in a frame. -/
def Frames.valueOf (fs : Frames) (frame : FrameId) (name : String) : Except Failure Value :=
  if isLiteral name then .ok (.text (unquote name))
  else match fs.lookup frame name with
    | some v => .ok v
    | none => .error (.fault (.unbound name))

/-- The expression that `cond` goes on with, if the branch it picks is
one. -/
def Value.picked? : List Value → Option Code
  | [test, yes] => if test.truthy then yes.toCode? else none
  | [test, yes, no] => (if test.truthy then yes else no).toCode?
  | _ => none

-- ====================================================== machines

/-- Only a new value gets an identity. -/
theorem Value.identify_of_not_isNew {v : Value} (h : v.isNew = false) (mark : Mark) :
    v.identify mark = v := by
  unfold identify
  split
  · cases h
  · cases h
  · cases h
  · cases h
  · rfl

namespace Machine

/-- The machine after a procedure was called. -/
def noting (m : Machine σ) (p : Proc) (args : List Value) : Machine σ :=
  { m with journal := .called p args :: m.journal }

/-- The machine after a symbol was bound. -/
def binding (m : Machine σ) (frame : FrameId) (name : String) (v : Value) : Machine σ :=
  { m with
    frames := m.frames.bind frame name v
    journal := .bound frame name v :: m.journal }

/-- The machine after something was stored in place, if anything was. -/
def storing (m : Machine σ) : Cells → Machine σ
  | [] => m
  | stored => { m with
      cells := stored ++ m.cells
      journal := .stored stored :: m.journal }

/-- The machine after a value got its identity. -/
def settling (m : Machine σ) (v : Value) : Machine σ :=
  if v.isNew then { m with made := m.made + 1 } else m

end Machine

/-- Whether the question whether to go on gets a yes. -/
def Site.allows (site : Site) (m : Machine σ) : Prop :=
  ∀ n, site.patience = some n → m.queries < n

-- ====================================================== the rules

/-- Expressions evaluated from left to right, until one fails. -/
inductive Row : List Code → Machine σ → Except Failure (List Value) → Machine σ →
    List (Visit σ) → Prop where
  | nil (m : Machine σ) : Row [] m (.ok []) m []
  | failed (code : Code) (rest : List Code) (m : Machine σ) (e : Failure) (m₁ : Machine σ) :
      Row (code :: rest) m (.error e) m₁ [⟨code, m, .error e, m₁⟩]
  | cons (code : Code) {rest : List Code} (m : Machine σ) (v : Value) {m₁ m₂ : Machine σ}
      {answer : Except Failure (List Value)} {inside : List (Visit σ)}
      (hrest : Row rest m₁ answer m₂ inside) :
      Row (code :: rest) m (answer.map (v :: ·)) m₂ (⟨code, m, .ok v, m₁⟩ :: inside)

/-- What a script does. -/
inductive Performs : Script σ → Machine σ → Except Failure Value → Machine σ →
    List (Visit σ) → Prop where
  | finish (answer : Except Failure Value) (m : Machine σ) :
      Performs (.finish answer) m answer m []
  | eval {code : Code} {next : Except Failure Value → Script σ} {m m₁ m₂ : Machine σ}
      {answer final : Except Failure Value} {inside : List (Visit σ)}
      (hnext : Performs (next answer) m₁ final m₂ inside) :
      Performs (.eval code next) m final m₂ (⟨code, m, answer, m₁⟩ :: inside)
  | get {next : σ → Cells → Script σ} {m m₁ : Machine σ} {answer : Except Failure Value}
      {inside : List (Visit σ)} (hnext : Performs (next m.host m.cells) m answer m₁ inside) :
      Performs (.get next) m answer m₁ inside
  | set {state : σ} {stored : Cells} {next : Script σ} {m m₁ : Machine σ}
      {answer : Except Failure Value} {inside : List (Visit σ)}
      (hnext : Performs next (Machine.storing { m with host := state } stored) answer m₁ inside) :
      Performs (.set state stored next) m answer m₁ inside
  | lookup {frame : FrameId} {name : String} {next : Option Value → Script σ}
      {m m₁ : Machine σ} {answer : Except Failure Value} {inside : List (Visit σ)}
      (hnext : Performs (next (m.frames.lookup frame name)) m answer m₁ inside) :
      Performs (.lookup frame name next) m answer m₁ inside
  | bind {frame : FrameId} {name : String} {value : Value} {next : Script σ}
      {m m₁ : Machine σ} {answer : Except Failure Value} {inside : List (Visit σ)}
      (hnext : Performs next (m.binding frame name value) answer m₁ inside) :
      Performs (.bind frame name value next) m answer m₁ inside

/-- What a procedure does with its arguments. -/
inductive Applies (host : Host σ) (site : Site) : Proc → List Value → Machine σ →
    Except Failure Value → Machine σ → List (Visit σ) → Prop where
  /-- The branch that `cond` picks is evaluated where it was called. -/
  | branch {args : List Value} {code : Code} (hpicked : Value.picked? args = some code)
      (m : Machine σ) (answer : Except Failure Value) (m₁ : Machine σ) :
      Applies host site (.standard .cond) args m answer m₁ [⟨code, m, answer, m₁⟩]
  /-- Otherwise a standard procedure evaluates nothing. -/
  | standard {p : Standard} {args : List Value} {m m₁ : Machine σ}
      {answer : Except Failure Value}
      (hdone : ∀ inner, Eval.applyStandard host site inner args p m = .done answer m₁) :
      Applies host site (.standard p) args m answer m₁ []
  | host {p : HostProc} {args : List Value} {m m₁ : Machine σ} {answer : Except Failure Value}
      {inside : List (Visit σ)} (hscript : Performs (host.call p args) m answer m₁ inside) :
      Applies host site (.host p) args m answer m₁ inside
  | machine {module name : String} {args : List Value} {m m₁ : Machine σ}
      {answer : Except Failure Value} {inside : List (Visit σ)}
      (hscript : Performs (host.invoke module name args) m answer m₁ inside) :
      Applies host site (.machine module name) args m answer m₁ inside
  | method (receiver : Value) (name : String) (args : List Value) (m : Machine σ) :
      Applies host site (.method receiver name) args m
        (Eval.callMethod name (Eval.methodOf? host receiver name) args).answer
        (m.storing (Eval.callMethod name (Eval.methodOf? host receiver name) args).stored) []
  | function (name key : String) (args : List Value) (m : Machine σ) :
      Applies host site (.function name key) args m
        (Eval.callMethod name (host.function? key) args).answer
        (m.storing (Eval.callMethod name (host.function? key) args).stored) []

/-- What an expression does once the question whether to go on got a
yes. -/
inductive Does (host : Host σ) (site : Site) : Code → Machine σ → Except Failure Value →
    Machine σ → List (Visit σ) → Prop where
  | constant {code : Code} {v : Value} (hconstant : code.constant? = some v) (m : Machine σ) :
      Does host site code m (.ok v) m []
  /-- A literal is a new integer each time. -/
  | wide (mark : Mark) (n : Int) (m : Machine σ) :
      Does host site (.wide mark n) m
        (.ok (.wide (.made site.session (m.serial site.session)) (m.cells.whole mark n)))
        { m with made := m.made + 1 } []
  | symbol (name : String) (m : Machine σ) :
      Does host site (.symbol name) m (m.frames.valueOf site.frame name) m []
  | empty (mark : Mark) (m : Machine σ) :
      Does host site (.list mark []) m
        (.ok (.sequence (.made site.session (m.serial site.session)) []))
        (m.settling (Value.row [])) []
  | misshapen {mark : Mark} {items : List Code} {f : Fault} {m : Machine σ}
      (hshape : Expr.misshapen? m.cells (.list mark items) items = some f) :
      Does host site (.list mark items) m (.error (.fault f)) m []
  | quote (mark : Mark) (parts : List Code) (m : Machine σ) :
      Does host site (.list mark (.symbol "quote" :: parts)) m
        (.ok (Value.quoted m.cells parts)) m []
  | dotFailed (mark : Mark) (object : Code) (name : String) (m : Machine σ) (e : Failure)
      (m₁ : Machine σ) :
      Does host site (.list mark [.symbol ".", object, .symbol name]) m (.error e) m₁
        [⟨object, m, .error e, m₁⟩]
  | dot {mark : Mark} {object : Code} {name : String} {m m₁ m₂ : Machine σ} {v : Value}
      {answer : Except Failure Value}
      (hmember : Eval.member host site v (memberName name) m₁ = .done answer m₂) :
      Does host site (.list mark [.symbol ".", object, .symbol name]) m answer m₂
        [⟨object, m, .ok v, m₁⟩]
  | testFailed (mark : Mark) (test yes : Code) {rest : List Code} (hrest : rest.length ≤ 1)
      (m : Machine σ) (e : Failure) (m₁ : Machine σ) :
      Does host site (.list mark (.symbol "if" :: test :: yes :: rest)) m (.error e) m₁
        [⟨test, m, .error e, m₁⟩]
  | yes (mark : Mark) (test yes : Code) {rest : List Code} (hrest : rest.length ≤ 1)
      (m : Machine σ) {v : Value} {m₁ : Machine σ} (hv : (v.read m₁.cells).truthy = true)
      (answer : Except Failure Value) (m₂ : Machine σ) :
      Does host site (.list mark (.symbol "if" :: test :: yes :: rest)) m answer m₂
        [⟨test, m, .ok v, m₁⟩, ⟨yes, m₁, answer, m₂⟩]
  | no (mark : Mark) (test yes no : Code) (m : Machine σ) {v : Value} {m₁ : Machine σ}
      (hv : (v.read m₁.cells).truthy = false) (answer : Except Failure Value) (m₂ : Machine σ) :
      Does host site (.list mark [.symbol "if", test, yes, no]) m answer m₂
        [⟨test, m, .ok v, m₁⟩, ⟨no, m₁, answer, m₂⟩]
  | neither (mark : Mark) (test yes : Code) (m : Machine σ) {v : Value} {m₁ : Machine σ}
      (hv : (v.read m₁.cells).truthy = false) :
      Does host site (.list mark [.symbol "if", test, yes]) m (.ok (.bool false)) m₁
        [⟨test, m, .ok v, m₁⟩]
  | defineFailed (mark : Mark) {name : String} (hname : isLiteral name = false) (value : Code)
      (m : Machine σ) (e : Failure) (m₁ : Machine σ) :
      Does host site (.list mark [.symbol "define", .symbol name, value]) m (.error e) m₁
        [⟨value, m, .error e, m₁⟩]
  | define (mark : Mark) {name : String} (hname : isLiteral name = false) (value : Code)
      (m : Machine σ) (v : Value) (m₁ : Machine σ) :
      Does host site (.list mark [.symbol "define", .symbol name, value]) m (.ok v)
        (m₁.binding site.frame name v) [⟨value, m, .ok v, m₁⟩]
  | importPlain (mark : Mark) {name : String} (hname : isLiteral name = false)
      {m m₁ : Machine σ} {answer : Except Failure Value}
      (himport : Eval.importModule site.session name m = .done answer m₁) :
      Does host site (.list mark [.symbol "import", .symbol name]) m answer m₁ []
  | importFailed (mark : Mark) {part : Code}
      (hpart : ∀ name, part = .symbol name → isLiteral name = true) (m : Machine σ)
      (e : Failure) (m₁ : Machine σ) :
      Does host site (.list mark [.symbol "import", part]) m (.error e) m₁
        [⟨part, m, .error e, m₁⟩]
  | importNamed (mark : Mark) {part : Code}
      (hpart : ∀ name, part = .symbol name → isLiteral name = true) {m m₁ m₂ : Machine σ}
      {v : Value} {answer : Except Failure Value}
      (himport : Eval.importNamed site v m₁ = .done answer m₂) :
      Does host site (.list mark [.symbol "import", part]) m answer m₂ [⟨part, m, .ok v, m₁⟩]
  | headFailed (mark : Mark) {head : Code} (hhead : head.isKeyword = false) (rest : List Code)
      (m : Machine σ) (e : Failure) (m₁ : Machine σ) :
      Does host site (.list mark (head :: rest)) m (.error e) m₁ [⟨head, m, .error e, m₁⟩]
  | argsFailed (mark : Mark) {head : Code} (hhead : head.isKeyword = false) {rest : List Code}
      (m : Machine σ) (h : Value) {m₁ m₂ : Machine σ} {e : Failure} {inside : List (Visit σ)}
      (hargs : Row rest m₁ (.error e) m₂ inside) :
      Does host site (.list mark (head :: rest)) m (.error e) m₂
        (⟨head, m, .ok h, m₁⟩ :: inside)
  | row (mark : Mark) {head : Code} (hhead : head.isKeyword = false) {rest : List Code}
      (m : Machine σ) {h : Value} (hproc : ∀ p, h ≠ .proc p) {m₁ m₂ : Machine σ}
      {args : List Value} {inside : List (Visit σ)} (hargs : Row rest m₁ (.ok args) m₂ inside) :
      Does host site (.list mark (head :: rest)) m
        (.ok (.sequence (.made site.session (m₂.serial site.session)) (h :: args)))
        (m₂.settling (Value.row (h :: args))) (⟨head, m, .ok h, m₁⟩ :: inside)
  | callFailed (mark : Mark) {head : Code} (hhead : head.isKeyword = false) {rest : List Code}
      (m : Machine σ) {p : Proc} {m₁ m₂ m₃ : Machine σ} {args : List Value} {e : Failure}
      {inside within : List (Visit σ)} (hargs : Row rest m₁ (.ok args) m₂ inside)
      (hcall : Applies host site (p.read m₂.cells) (Value.readAll m₂.cells args)
        (m₂.noting (p.read m₂.cells) (Value.readAll m₂.cells args)) (.error e) m₃ within) :
      Does host site (.list mark (head :: rest)) m (.error e.ofCall) m₃
        (⟨head, m, .ok (.proc p), m₁⟩ :: inside ++ within)
  | call (mark : Mark) {head : Code} (hhead : head.isKeyword = false) {rest : List Code}
      (m : Machine σ) {p : Proc} {m₁ m₂ m₃ : Machine σ} {args : List Value} {v : Value}
      {inside within : List (Visit σ)} (hargs : Row rest m₁ (.ok args) m₂ inside)
      (hcall : Applies host site (p.read m₂.cells) (Value.readAll m₂.cells args)
        (m₂.noting (p.read m₂.cells) (Value.readAll m₂.cells args)) (.ok v) m₃ within) :
      Does host site (.list mark (head :: rest)) m
        (.ok (v.identify (.made site.session (m₃.serial site.session))))
        (m₃.settling v)
        (⟨head, m, .ok (.proc p), m₁⟩ :: inside ++ within)

/-- One visit, and the visits right inside it. -/
inductive Step (host : Host σ) (site : Site) : Visit σ → List (Visit σ) → Prop where
  | canceled (code : Code) {m : Machine σ} (hasked : ¬site.allows m) :
      Step host site ⟨code, m, .error .canceled, Eval.asked m⟩ []
  | proceeds {code : Code} {m m₁ : Machine σ} {answer : Except Failure Value}
      {inside : List (Visit σ)} (hasked : site.allows m)
      (hdoes : Does host site code (Eval.asked m) answer m₁ inside) :
      Step host site ⟨code, m, answer, m₁⟩ inside

end LispShell
