/-
Evaluation.

`step` says what one expression does, given how the expressions inside it
are evaluated; `eval` closes that circle to a given depth. Every
evaluation of an expression, however small, first asks whether to go on.

# Lists

The empty list is the empty sequence. A list that starts with one of the
symbols `.`, `if`, `define`, `import` and `quote` is a special form, whose
parts are not evaluated first. Any other list has its head evaluated. If
that is a procedure the rest are its arguments, evaluated from left to
right; if not, the list makes a sequence of the head and the rest.

# What is stored in place

A value carries what it held when it was made. It is read anew, with what
was stored since, wherever its contents matter: the operands of a call
after all of them were evaluated, the test of an `if`, a quoted form, and
a form that a complaint quotes.

# Procedures of the host

A procedure of the host answers with a `Script`: a result, or a request
and how to go on with what comes of it. Among the requests is to evaluate
code where the procedure was called, so a script is run by the evaluator.
-/
import LispShell.Imports
import LispShell.Standard.Math
import LispShell.Value.Member

namespace LispShell

/-- What a procedure of the host does. -/
inductive Script (σ : Type) where
  /-- It ends. -/
  | finish (answer : Except Failure Value)
  /-- It evaluates code where it was called. -/
  | eval (code : Code) (next : Except Failure Value → Script σ)
  /-- It looks at the state of the host and at what was stored in place. -/
  | get (next : σ → Cells → Script σ)
  /-- It changes the state of the host and stores contents in place. -/
  | set (state : σ) (stored : Cells) (next : Script σ)
  /-- It looks up a symbol. -/
  | lookup (frame : FrameId) (name : String) (next : Option Value → Script σ)
  /-- It binds a symbol. -/
  | bind (frame : FrameId) (name : String) (value : Value) (next : Script σ)

/-- The program that embeds the language: what its procedures, methods and
functions mean, and its modules of machine code: what their functions do,
and their members. -/
structure Host (σ : Type) where
  call : HostProc → List Value → Script σ
  invoke : String → String → List Value → Script σ
  method? : Datum → String → Option Method
  function? : String → Option Method
  member : String → String → σ → Except Failure Value
  listing : String → σ → List String

/-- Where an evaluation takes place: for which session, in which frame,
and how often the answer to going on is yes. -/
structure Site where
  session : Nat
  frame : FrameId
  patience : Option Nat

namespace Eval

variable {σ : Type}

/-- How the expressions inside an expression are evaluated. -/
abbrev Inner (σ : Type) := Code → Eval σ Value

/-- Runs a script. -/
def runScript (inner : Inner σ) : Script σ → Eval σ Value
  | .finish answer => ofExcept answer
  | .eval code next => do
    let answer ← attempt (inner code)
    runScript inner (next answer)
  | .get next => do
    let m ← get
    runScript inner (next m.host m.cells)
  | .set state stored next => do
    modify fun m => { m with host := state }
    store stored
    runScript inner next
  | .lookup frame name next => do
    let m ← get
    runScript inner (next (m.frames.lookup frame name))
  | .bind frame name value next => do
    define frame name value
    runScript inner next

/-- Prints the arguments on one line. -/
def print (args : List Value) : Eval σ Value := do
  record (.printed (Text.join " " (args.map Value.format)))
  return .nil

/-- Picks a branch by a test. A branch that is an expression is evaluated
where the procedure was called, so a quoted branch runs only if picked. -/
def condProcedure (inner : Inner σ) (args : List Value) : Eval σ Value := do
  ofResult (checkArity "cond" (.between 2 3) args)
  let branch := match args with
    | [test, yes] => if test.truthy then yes else .bool false
    | [test, yes, no] => if test.truthy then yes else no
    | _ => .nil
  match branch.toCode? with
  | some code => inner code
  | none => return branch

/-- Lists the symbols visible to the caller, or the members of a module. -/
def dirProcedure (host : Host σ) (site : Site) (args : List Value) : Eval σ Value := do
  ofResult (checkArity "dir" (.between 0 1) args)
  let m ← get
  match args with
  | [] => return Value.texts (m.frames.symbols site.frame)
  | .library _ _ members :: _ => return Value.texts (sortedTexts (members.map (·.1)))
  | .machine name :: _ => return Value.texts (host.listing name m.host)
  | v :: _ => fault (.noListing v.typeName)

/-- What a standard procedure does. -/
def applyStandard (host : Host σ) (site : Site) (inner : Inner σ) (args : List Value) :
    Standard → Eval σ Value
  | .add => ofResult (Standard.addition args)
  | .sub => ofResult (Standard.arithmetic "sub" Number.sub args)
  | .mul => ofResult (Standard.arithmetic "mul" Number.mul args)
  | .div => ofResult (Standard.division args)
  | .mod => ofResult (Standard.modulo args)
  | .pow => ofResult (Standard.power args)
  | .eq => ofResult (Standard.equality args)
  | .order o => ofResult (Standard.comparison o args)
  | .not => ofResult (Standard.negation args)
  | .print => print args
  | .list => return Value.row args
  | .len => ofResult (Standard.length args)
  | .cond => condProcedure inner args
  | .dir => dirProcedure host site args
  | .unary f => ofResult (Standard.unaryFunction f args)
  | .binary f => ofResult (Standard.binaryFunction f args)
  | .whole f => ofResult (Standard.wholeFunction f args)
  | .test f => ofResult (Standard.realTest f args)
  | .log => ofResult (Standard.logarithm args)
  | .factorial => ofResult (Standard.factorialOf args)
  | .gcd => ofResult (Standard.commonDivisor args)

/-- The method that a procedure stands for. -/
def methodOf? (host : Host σ) (receiver : Value) (name : String) : Option Method :=
  match receiver with
  | .object d => host.method? d name
  | v => v.method? name

/-- Calls a method, if it exists. -/
def callMethod (procedure : String) : Option Method → List Value → Called
  | some m, args => m.call procedure args
  | none, _ => ⟨.error (.other ("no method " ++ procedure)), []⟩

/-- Ends as the call of a method did. What that stored stays, whatever the
answer is. -/
def conclude (c : Called) : Eval σ Value := do
  store c.stored
  ofExcept c.answer

/-- What a procedure does with its arguments. -/
def applyProc (host : Host σ) (site : Site) (inner : Inner σ) (args : List Value) :
    Proc → Eval σ Value
  | .standard p => applyStandard host site inner args p
  | .host p => runScript inner (host.call p args)
  | .machine module name => runScript inner (host.invoke module name args)
  | .method receiver name => conclude (callMethod name (methodOf? host receiver name) args)
  | .function name key => conclude (callMethod name (host.function? key) args)

/-- Calls a procedure: its type errors become name errors, and a sequence
it makes gets an identity. -/
def call (host : Host σ) (site : Site) (inner : Inner σ) (p : Proc) (args : List Value) :
    Eval σ Value := do
  record (.called p args)
  let v ← mapFailure Failure.ofCall (applyProc host site inner args p)
  settle site.session v

/-- The member of a value. -/
def member (host : Host σ) (site : Site) (v : Value) (name : String) : Eval σ Value := do
  let m ← get
  let found ← match v with
    | .machine module => ofExcept (host.member module name m.host)
    | _ => ofResult (v.member (fun d n => (host.method? d n).isSome) name)
  settle site.session found

-- ========================================================== special forms

/-- Ends with a fault that quotes an expression as it reads now. -/
def complain {α : Type} (f : String → Fault) (code : Code) : Eval σ α := do
  let m ← get
  fault (f (code.read m.cells).render)

/-- The value of a symbol. -/
def lookup (site : Site) (name : String) : Eval σ Value := do
  if isLiteral name then return .text (unquote name)
  let m ← get
  match m.frames.lookup site.frame name with
  | some v => return v
  | none => fault (.unbound name)

/-- `(. object name)` -/
def dotForm (host : Host σ) (site : Site) (inner : Inner σ) (form : Code) :
    List Code → Eval σ Value
  | [object, .symbol name] => do
    let v ← inner object
    member host site v (if isLiteral name then unquote name else name)
  | [_, other] => complain .attributeName other
  | _ => complain .dotForm form

/-- Whether a test counts as true, as it reads now. -/
def holds (inner : Inner σ) (test : Code) : Eval σ Bool := do
  let v ← inner test
  let m ← get
  return (v.read m.cells).truthy

/-- `(if test yes no)`, `(if test yes)` -/
def ifForm (inner : Inner σ) (form : Code) : List Code → Eval σ Value
  | [test, yes] => do
    let b ← holds inner test
    if b then inner yes else return .bool false
  | [test, yes, no] => do
    let b ← holds inner test
    if b then inner yes else inner no
  | _ => complain .ifForm form

/-- `(define name value)` -/
def defineForm (site : Site) (inner : Inner σ) (form : Code) : List Code → Eval σ Value
  | [target, value] =>
    match target with
    | .symbol name =>
      if isLiteral name then fault (.defineName target.render)
      else do
        let v ← inner value
        define site.frame name v
        return v
    | _ => complain .defineName target
  | _ => complain .defineForm form

/-- Imports the module that an evaluated name names. -/
def importNamed (site : Site) : Value → Eval σ Value
  | .text name => importModule site.session name
  | v => do
    let m ← get
    fault (.moduleName (v.read m.cells).repr)

/-- `(import name)`: a plain symbol is the name itself, anything else has
to evaluate to a text. -/
def importForm (site : Site) (inner : Inner σ) (form : Code) : List Code → Eval σ Value
  | [.symbol name] =>
    if isLiteral name then do
      let v ← inner (.symbol name)
      importNamed site v
    else importModule site.session name
  | [other] => do
    let v ← inner other
    importNamed site v
  | _ => complain .importForm form

/-- `(quote form)`; with any other number of parts it is `false`. -/
def quoteForm : List Code → Eval σ Value
  | [code] => do
    let m ← get
    return Value.ofCode (code.read m.cells)
  | _ => return .bool false

/-- A list that is no special form: a call, or a sequence. The operands of
a call are read once all of them were evaluated. -/
def apply (host : Host σ) (site : Site) (inner : Inner σ) (head : Code) (rest : List Code) :
    Eval σ Value := do
  let h ← inner head
  let args ← collect inner rest
  let m ← get
  match h with
  | .proc p => call host site inner (p.read m.cells) (Value.readAll m.cells args)
  | _ => settle site.session (Value.row (h :: args))

/-- The value of a list. -/
def evalList (host : Host σ) (site : Site) (inner : Inner σ) (form : Code) :
    List Code → Eval σ Value
  | [] => settle site.session (Value.row [])
  | head :: rest =>
    match head with
    | .symbol "." => dotForm host site inner form rest
    | .symbol "if" => ifForm inner form rest
    | .symbol "define" => defineForm site inner form rest
    | .symbol "import" => importForm site inner form rest
    | .symbol "quote" => quoteForm rest
    | _ => apply host site inner head rest

/-- The value of a wide literal: a new integer that holds what the literal
holds now. -/
def wideLiteral (site : Site) (mark : Mark) (n : Int) : Eval σ Value := do
  let m ← get
  settle site.session (.wide .blank (m.cells.whole mark n))

/-- The value of an expression, given how those inside it are evaluated. -/
def step (host : Host σ) (site : Site) (inner : Inner σ) (code : Code) : Eval σ Value := do
  checkpoint site.patience
  match code with
  | .symbol name => lookup site name
  | .int n => return .int n
  | .float x => return .float x
  | .text s => return .text s
  | .wide mark n => wideLiteral site mark n
  | .list _ items => evalList host site inner code items

/-- The value of an expression, evaluated at most `depth` deep. -/
def eval (host : Host σ) (site : Site) : Nat → Code → Eval σ Value
  | 0, _ => spent
  | depth + 1, code => step host site (eval host site depth) code

end Eval

end LispShell
