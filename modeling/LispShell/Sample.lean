/-
A sample host: objects, procedures and resolvers to try the language on.

It shows every kind of host data: records by value and by reference, an
embedded record, tables, functions, and procedures that evaluate code
where they are called. `bindings` is what a root frame gets to see.
-/
import LispShell.Platform
import LispShell.Wasm.Sample

namespace LispShell.Sample

/-- A platform without files. -/
def platform : Platform :=
  .start ⟨[], "/", [], ""⟩ [] Wasm.Sample.engine

-- =================================================================== points

/-- A point: two visible coordinates and a hidden one. -/
def point (x y hidden : Int) : Datum :=
  .record "main.point"
    [.field "X" true false (.integer .int x), .field "Y" true false (.integer .int y),
      .field "hidden" false false (.integer .int hidden)]

/-- The visible coordinates of a point or of a reference to one. -/
def coordinates? : Datum → Option (Int × Int)
  | .reference _ target => coordinates? target
  | .record "main.point" (.field _ _ _ (.integer _ x) :: .field _ _ _ (.integer _ y) :: _) =>
    some (x, y)
  | _ => none

/-- One result. -/
def result (d : Datum) : Reply :=
  .returned [.datum d]

/-- An integer, cut to its width. -/
def intDatum (n : Int) : Datum :=
  .integer .int (IntType.int.wrap n)

/-- An integer result. -/
def intResult (n : Int) : Reply :=
  result (intDatum n)

/-- Results and no error. -/
def succeeding (results : List Datum) : Reply :=
  .returned (results.map .datum ++ [.error none])

/-- Results and an error. -/
def failing (results : List Datum) (e : Failure) : Reply :=
  let error : Datum := .reference 0 (.record "errors.errorString"
    [.field "s" false false (.text e.message)])
  .returned (results.map .datum ++ [.error (some (e, error))])

/-- The texts among host data. -/
def textsOf (items : List Datum) : List String :=
  items.filterMap fun
    | .text s => some s
    | _ => none

/-- The integers among host data. -/
def intsOf (items : List Datum) : List Int :=
  items.filterMap fun
    | .integer _ n => some n
    | _ => none

/-- A method that gives back its only argument. -/
def identity (slot : Slot) : Method :=
  ⟨[slot], none, fun params => .returned (params.map .datum)⟩

/-- The methods of a point. -/
def pointMethod? (x y : Int) : String → Option Method
  | "Sum" => some ⟨[], none, fun _ => intResult (x + y)⟩
  | "Describe" => some ⟨[.text], none, fun params =>
      let coordinates := "(" ++ Decimal.renderInt x ++ "," ++ Decimal.renderInt y ++ ")"
      result (.text ((textsOf params).headD "" ++ coordinates))⟩
  | "Div" => some ⟨[.integer .int], none, fun params =>
      match intsOf params with
      | [k] =>
        if k == 0 then failing [intDatum 0] (.other "divide by zero")
        else succeeding [intDatum (Int.tdiv x k)]
      | _ => emptyReference⟩
  | "Both" => some ⟨[], none, fun _ =>
      .returned [.datum (.integer .int x), .datum (.integer .int y)]⟩
  | "Explode" => some ⟨[], none, fun _ => .panicked "boom"⟩
  | "Scale" => some ⟨[.real false], none, fun
      | [.real _ f] => result (.real false (Binary64.ofInt x * f))
      | _ => emptyReference⟩
  | "Join" => some ⟨[.text], some .text, fun params =>
      match textsOf params with
      | sep :: items => result (.text (Text.join sep items))
      | [] => emptyReference⟩
  | "Total" => some ⟨[], some (.integer .int), fun params =>
      intResult ((intsOf params).foldl (· + ·) 0)⟩
  | "Nothing" => some ⟨[], none, fun _ => .returned []⟩
  | "Flip" => some ⟨[.flag], none, fun
      | [.flag b] => result (.flag !b)
      | _ => emptyReference⟩
  | "Fail" => some ⟨[.text], none, fun params =>
      match textsOf params with
      | [""] => succeeding []
      | text :: _ => failing [] (.other text)
      | [] => emptyReference⟩
  | "BadArg" => some ⟨[], none, fun _ => failing [] (.fault (.raised .typing "bad argument"))⟩
  | "BadValue" => some ⟨[], none, fun _ => failing [] (.fault (.raised .value "bad value"))⟩
  | "Same" => some (identity .anything)
  | "Show" => some ⟨[.printable], none, fun
      | [.value v] => result (.text v.repr)
      | _ => emptyReference⟩
  | "Byte" => some (identity (.integer .uint8))
  | "Short" => some (identity (.integer .int16))
  | "Single" => some (identity (.real true))
  | "Words" => some (.constant (.texts ["a", "b c"]))
  | "Three" => some ⟨[.flag], none, fun
      | [.flag true] => failing [intDatum 0, .text ""] (.other "three failed")
      | _ => succeeding [intDatum 7, .text "seven"]⟩
  | _ => none

/-- The methods of the sample objects. -/
def method? (d : Datum) (name : String) : Option Method :=
  match coordinates? d with
  | some (x, y) => pointMethod? x y name
  | none => none

-- ================================================================ functions

/-- A function of one integer. -/
def onInt (f : Int → Int) : Method :=
  ⟨[.integer .int], none, fun params => intResult (f ((intsOf params).headD 0))⟩

/-- The functions of the sample objects. -/
def function? : String → Option Method
  | "tenfold" => some (onInt (· * 10))
  | "successor" => some (onInt (· + 1))
  | "concatenate" => some ⟨[.text, .text], none, fun params =>
      result (.text (String.join (textsOf params)))⟩
  | _ => none

-- =============================================================== procedures

/-- A procedure of the sample host. -/
def procedure (name : String) (withCaller : Bool) : Value :=
  .proc (.host ⟨"sample", name, withCaller⟩)

/-- Ends a script with a fault. -/
def raise (f : Fault) : Script Platform :=
  .finish (.error (.fault f))

/-- The product of a plain integer with itself or with two. -/
def product (m n : Int64) : Script Platform :=
  .finish (.ok (.int (m * n)))

/-- Adds one to `n` in the first frame. -/
def increment : Script Platform :=
  .lookup 0 "n" fun
    | some (.int n) => .bind 0 "n" (.int (n + 1)) (.finish (.ok .nil))
    | _ => .finish (.ok .nil)

/-- Evaluates code twice, for the second value. -/
def twice (code : Code) : Script Platform :=
  .eval code fun
    | .error e => .finish (.error e)
    | .ok _ => .eval code .finish

/-- What the procedures of the sample host do. -/
def call (proc : HostProc) (args : List Value) : Script Platform :=
  match proc.name, args with
  | "square", [.int n] => product n n
  | "here", _ => .eval (.symbol "x") .finish
  | "double", [v] =>
    match v with
    | .int n => product n 2
    | _ => raise (.raised .typing "double() needs an int")
  | "double", _ => raise (.arity "double" (.exactly 1) args.length)
  | "twice", [v] =>
    match v.toCode? with
    | some code => twice code
    | none => raise (.raised .typing "twice() needs an expression")
  | "twice", _ => raise (.arity "twice" (.exactly 1) args.length)
  | "inc", _ => increment
  | name, _ => Platform.unknown name

/-- The platform with the sample objects. -/
def host : Host Platform :=
  { Platform.host with
    call := fun proc args => (Platform.call? proc args).getD (call proc args)
    method? := method?
    function? := function? }

-- ================================================================== objects

/-- A record with an embedded reference, functions and a point. -/
def outer (inner : Datum) (w : Int) (scale : Option String) (p : Datum) : Datum :=
  .record "main.outer"
    [.field "inner" false true inner, .field "W" true false (.integer .int w),
      .field "Scale" true false (.function "func(int) int" scale),
      .field "Nil" true false (.function "func(int) int" none), .field "P" true false p]

/-- A record with a field of every scalar type. -/
def kinds : Datum :=
  let field (name : String) (d : Datum) : Field := .field name true false d
  .record "main.kindsOf"
    [field "I" (.integer .int (-1)), field "I8" (.integer .int8 (-8)),
      field "I16" (.integer .int16 (-16)), field "I32" (.integer .int32 (-32)),
      field "I64" (.integer .int64 (-64)), field "U" (.integer .uint 1),
      field "U8" (.integer .uint8 8), field "U16" (.integer .uint16 16),
      field "U32" (.integer .uint32 32), field "U64" (.integer .uint64 64),
      field "F32" (.real true (inPrecision true 0.1)), field "F64" (.real false 0.1),
      field "S" (.text "text"), field "B" (.flag true), field "L" (.texts ["x", "y"]),
      field "N" (.array "[]int" [.integer .int 1, .integer .int 2, .integer .int 3]),
      field "Any" (.text "any"), field "Nil" .absent]

/-- The type of tables that hold anything under texts. -/
def tableType : String :=
  "map[string]interface \x7b\x7d"

/-- A table under texts. -/
def table (id : Nat) (entries : List (String × Datum)) : Datum :=
  .table id tableType true entries

/-- What a root frame gets to see of the sample host. -/
def bindings : Bindings :=
  [("p", .object (point 1 2 3)),
    ("pp", .object (.reference 1 (point 10 (-4) 3))),
    ("o", .object (outer .absent 1 (some "tenfold") (point 5 6 0))),
    ("oi", .object (outer
      (.reference 2 (.record "main.inner" [.field "Z" true false (.integer .int 9)])) 2 none
      (point 0 0 0))),
    ("k", .object kinds),
    ("obj", .object (table 1
      [("attr", .integer .int 42), ("name", .text "x"), ("Cap", .real false 1.5),
        ("cap2", .flag true), ("nothing", .absent), ("words", .texts ["a", "b"])])),
    ("both", .object (table 2
      [("key", .text "lower"), ("Key", .text "upper"), (Text.encode "Émile", .text "accent")])),
    ("fn", .object (table 3
      [("inc", .function "func(int) int" (some "successor")),
        ("cat", .function "func(string, string) string" (some "concatenate")),
        ("sq", .value (procedure "square" false)),
        ("here", .value (procedure "here" true))])),
    ("nm", .object (.table 4 "main.named" true [("one", .integer .int 1)])),
    ("im", .object (.table 5 "map[int]string" false [("1", .text "one")])),
    ("u", .object (.integer .uint 7)),
    ("nul", .nil),
    ("ns", .library (.host 1) "ns"
      [("answer", .int 42), ("Upper", .int 1), ("none", .nil),
        ("double", procedure "double" false)]),
    ("ns0", .library (.host 2) "ns0" []),
    ("twice", procedure "twice" true),
    ("n", .int 0),
    ("inc", procedure "inc" false)]

-- ================================================================ resolvers

/-- Knows one module: a new one for each time it is asked, which holds an
answer and how often it was asked. The count is the tally at `place`. -/
def countingResolver (place : Nat) (known : String) : Resolver Platform := fun name p =>
  if name == known then
    let calls := p.tallies.getD place 0 + 1
    ⟨.ok (.library .blank known [("answer", .int 42), ("calls", Value.ofInt calls)]),
      { p with tallies := p.tallies.set place calls }, []⟩
  else ⟨.error (.fault (.noModule name)), p, []⟩

/-- Fails for one module and knows no other. -/
def brokenResolver (known : String) : Resolver Platform := fun name p =>
  if name == known then ⟨.error (.other "boom"), p, []⟩
  else ⟨.error (.fault (.noModule name)), p, []⟩

end LispShell.Sample
