/-
Programs: running the forms of a text.

There are three ways to run a text. `evalSource` reads all of it first,
then evaluates form by form up to the first failure, for the last value.
`program` and `exec` read and evaluate one form at a time and go on after
a failure; they give up only when they find the evaluation cancelled
after a failed form. `exec` also writes what each form came to.
-/
import LispShell.Eval
import LispShell.Reader

namespace LispShell

/-- An interpreter: the host it runs in, where it evaluates, and how deep
it goes. -/
structure Interpreter (σ : Type) where
  host : Host σ
  site : Site
  depth : Nat

/-- Whether a form left nothing worth showing: no value, or `false`. -/
def Value.noResult : Value → Bool
  | .nil => true
  | .bool b => !b
  | _ => false

/-- What is written about a failed form before its result. -/
def Failure.notice (e : Failure) : String :=
  if e.isCanceled then "Aborted with keyboard.\n" else e.message ++ "\n"

/-- What is written about the result of a form. -/
def Value.notice (v : Value) : String :=
  if v.noResult then "NR~\n" else "R: " ++ v.format ++ "\n"

/-- The gravity of log lines that only help to find mistakes. -/
def debugLevel : Int := -4

namespace Interpreter

variable {σ : Type} (i : Interpreter σ)

/-- Evaluates one form. -/
def evalForm (form : Form) : Eval σ Value := do
  let code ← Eval.stamp i.site.session form
  Eval.eval i.host i.site i.depth code

/-- Evaluates forms up to the first failure; the value is that of the last
form, `v` if there is none. -/
def evalForms (v : Value) : List Form → Eval σ Value
  | [] => return v
  | form :: rest => do
    let v ← i.evalForm form
    evalForms v rest

/-- Reads a whole text, then evaluates its forms. -/
def evalSource (source : String) : Eval σ Value :=
  match Reader.readAll source with
  | .error f => Eval.fault f
  | .ok forms => i.evalForms .nil forms

/-- Evaluates a form as it was read; one that could not be read fails. -/
def evalRead : Except Fault Form → Eval σ Value
  | .error f => Eval.fault f
  | .ok form => i.evalForm form

/-- The log line about a failed form. -/
def formFailed (index : Nat) (e : Failure) : LogEntry :=
  ⟨debugLevel, "form failed", [("form", Nat.repr index), ("error", e.message)]⟩

/-- Runs forms one after the other, the first of which is number `index`,
and hands each outcome to `report`. After a failure it asks whether to go
on. -/
def runForms (report : Except Failure Value → Eval σ Unit) (index : Nat) :
    List (Except Fault Form) → Eval σ (List (Except Failure Value))
  | [] => return []
  | form :: rest => do
    let outcome ← Eval.attempt (i.evalRead form)
    match outcome with
    | .ok _ =>
      report outcome
      let further ← runForms report (index + 1) rest
      return outcome :: further
    | .error e =>
      Eval.record (.logged (formFailed index e))
      report outcome
      match ← Eval.attempt (Eval.checkpoint i.site.patience) with
      | .error _ => return [outcome]
      | .ok _ =>
        let further ← runForms report (index + 1) rest
        return outcome :: further

/-- Runs the forms of a text and hands each outcome to `report`. A text
without tokens is one failed form. -/
def runSource (report : Except Failure Value → Eval σ Unit) (source : String) :
    Eval σ (List (Except Failure Value)) :=
  match Token.lex source with
  | .error f => do
    report (.error (.fault f))
    return [.error (.fault f)]
  | .ok tokens => i.runForms report 0 (Reader.forms tokens)

/-- What every form of a text came to. -/
def program (source : String) : Eval σ (List (Except Failure Value)) :=
  i.runSource (fun _ => return ()) source

/-- Writes what a form came to. -/
def writeOutcome : Except Failure Value → Eval σ Unit
  | .ok v => do
    let m ← Eval.get
    Eval.record (.wrote (v.read m.cells).notice)
  | .error e => Eval.record (.wrote (e.notice ++ Value.nil.notice))

/-- The value of the last form, if it has one. -/
def lastValue (outcomes : List (Except Failure Value)) : Value :=
  match outcomes.getLast? with
  | some (.ok v) => v
  | _ => .nil

/-- Runs the forms of a text and writes what each came to; the value is
that of the last form. -/
def exec (source : String) : Eval σ Value := do
  let outcomes ← i.runSource writeOutcome source
  return lastValue outcomes

/-- Evaluates all forms of a text for what they bind. -/
def load (source : String) : Eval σ Unit := do
  let _ ← i.evalSource source

/-- Loads a file, given what reading it came to; failures say which. -/
def loadFile (name : String) (content : Except Failure String) : Eval σ Unit :=
  Eval.mapFailure (.within ("load " ++ name)) do
    let source ← Eval.ofExcept content
    i.load source

end Interpreter

end LispShell
