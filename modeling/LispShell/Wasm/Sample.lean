/-
Sample modules of machine code.

The engine here knows a module by the name that its code spells, and has
the module's functions built in. `calc` exports arithmetic on all four
number types, a counter, functions that trap and references; `empty`
exports nothing; `badinit` traps when it is started. Any other code is no
module.
-/
import LispShell.Power
import LispShell.Wasm.Instance

namespace LispShell.Wasm.Sample

open scoped Power

/-- A function that leaves the globals alone. -/
def pureFunction (params results : List ValType)
    (run : List UInt64 → Except String (List UInt64)) : Function :=
  ⟨params, results, fun words globals => (run words, globals)⟩

/-- What a trap says: the cause and the function it happened in. -/
def trap (cause place : String) : String :=
  "wasm error: " ++ cause ++ "\nwasm stack trace:\n\t" ++ place

/-- The low 32 bits of a word. -/
def low (w : UInt64) : UInt64 :=
  w % 4294967296

/-- A binary operation on words. -/
def onTwo (f : UInt64 → UInt64 → Except String (List UInt64)) :
    List UInt64 → Except String (List UInt64)
  | [a, b] => f a b
  | _ => .ok []

/-- Signed division of 32 bits. -/
def divide (a b : UInt64) : Except String (List UInt64) :=
  let m := signedWord 32 a
  let n := signedWord 32 b
  let place := ".$7(i32,i32) i32"
  if n == 0 then .error (trap "integer divide by zero" place)
  else if m == -2 ^ (31 : Nat) && n == -1 then .error (trap "integer overflow" place)
  else .ok [wordOfInt 32 (Int.tdiv m n)]

/-- Sets a global. -/
def setGlobal (name : String) (word : UInt64) (globals : Globals) : Globals :=
  globals.map fun entry => if entry.1 == name then (name, { entry.2 with word }) else entry

/-- The word of a global. -/
def globalWord (name : String) (globals : Globals) : UInt64 :=
  match globals.lookup name with
  | some g => g.word
  | none => 0

/-- Counts up and answers the count. -/
def next (globals : Globals) : Except String (List UInt64) × Globals :=
  let count := low (globalWord "count" globals + 1)
  (.ok [count], setGlobal "count" count globals)

def calculatorFunctions : List (String × Function) :=
  [("add", pureFunction [.i32, .i32] [.i32] (onTwo fun a b => .ok [low (a + b)])),
    ("add64", pureFunction [.i64, .i64] [.i64] (onTwo fun a b => .ok [a + b])),
    ("addf32", pureFunction [.f32, .f32] [.f32] (onTwo fun a b =>
      .ok [(Float32.ofBits a.toUInt32 + Float32.ofBits b.toUInt32).toBits.toUInt64])),
    ("addf64", pureFunction [.f64, .f64] [.f64] (onTwo fun a b =>
      .ok [(Float.ofBits a + Float.ofBits b).toBits])),
    ("swap", pureFunction [.i32, .i64] [.i64, .i32] (onTwo fun a b => .ok [b, a])),
    ("nop", pureFunction [] [] fun _ => .ok []),
    ("next", ⟨[], [.i32], fun _ globals => next globals⟩),
    ("div", pureFunction [.i32, .i32] [.i32] (onTwo divide)),
    ("trap", pureFunction [] [.i32] fun _ => .error (trap "unreachable" ".$8() i32")),
    ("takeref", pureFunction [.externref] [] fun _ => .ok []),
    ("giveref", pureFunction [] [.externref] fun _ => .ok [0]),
    ("_initialize", ⟨[], [], fun _ globals => (.ok [], setGlobal "count" 10 globals)⟩),
    ("drop2", pureFunction [.i32, .f64] [] fun _ => .ok [])]

def calculator : Blueprint where
  functions := calculatorFunctions
  globals :=
    [("answer", ⟨.i32, 42⟩), ("minus", ⟨.i64, wordOfInt 64 (-1)⟩),
      ("tenth", ⟨.f32, (0.1 : Float32).toBits.toUInt64⟩), ("half", ⟨.f64, (0.5 : Float).toBits⟩),
      ("count", ⟨.i32, 0⟩), ("ref", ⟨.externref, 0⟩)]
  start := fun globals => .ok (setGlobal "count" 10 globals)

/-- A module without exports. -/
def empty : Blueprint where
  functions := []
  globals := []
  start := .ok

/-- A module that cannot be started. -/
def badinit : Blueprint where
  functions := []
  globals := []
  start := fun _ => .error (trap "unreachable" ".$0()")

/-- Knows the sample modules by their names. -/
def engine : Engine
  | "calc" => .ok calculator
  | "empty" => .ok empty
  | "badinit" => .ok badinit
  | _ => .error "invalid magic number"

/-- The files that hold the sample modules: their names and what they
hold. -/
def files : List (String × String) :=
  [("calc.wasm", "calc"), ("empty.wasm", "empty"), ("badinit.wasm", "badinit"),
    ("junk.wasm", "junk"), ("dirmod.wasm/", "")]

end LispShell.Wasm.Sample
