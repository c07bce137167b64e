/-
What procedures and methods make by themselves.

Most standard procedures evaluate nothing. What they give is a plain
value, an integer of the size it needs, texts, or a part of an argument
(`Value.Made`).

The methods of values give something plain, or a wide integer in which
they have just stored what it holds (`Value.method?_accounted`). So what
comes out of a call is known from what the call stored.
-/
import LispShell.Standard.Math
import LispShell.Value.Member

namespace LispShell

variable {α β : Type}

/-- Host data of which a program gets no parts. -/
inductive Datum.Bare : Datum → Prop where
  | integer (type : IntType) (n : Int) : Bare (.integer type n)
  | bytes (mark : Mark) (row : List UInt8) : Bare (.bytes mark row)
  | array (type : String) (items : List Datum) : Bare (.array type items)
  | named (type text : String) : Bare (.named type text)

/-- A value without parts: nothing, a truth value, a machine number, a
text, or an object of which a program gets none. -/
inductive Value.Plain : Value → Prop where
  | nil : Plain .nil
  | bool (b : Bool) : Plain (.bool b)
  | int (n : Int64) : Plain (.int n)
  | float (x : Float) : Plain (.float x)
  | text (s : String) : Plain (.text s)
  | object {d : Datum} (h : d.Bare) : Plain (.object d)

-- ====================================================== what standard procedures give

/-- A result that, if it has a value, has one with a property. -/
def Gives (P : α → Prop) (r : Except Fault α) : Prop :=
  ∀ a, r = .ok a → P a

namespace Gives

variable {P : α → Prop}

/-- A value with the property. -/
theorem ok {a : α} (h : P a) : Gives P (.ok a) := by
  rintro _ ⟨rfl⟩
  exact h

/-- A fault is no value. -/
theorem error (f : Fault) : Gives P (.error f) := by
  rintro _ ⟨⟩

/-- What comes first does not matter if any value of it will do. -/
theorem bind {P : β → Prop} {x : Except Fault α} {f : α → Except Fault β}
    (h : ∀ a, Gives P (f a)) : Gives P (x >>= f) := by
  cases x with
  | error e => exact error e
  | ok a => exact h a

end Gives

/-- What a procedure makes of its arguments without evaluating anything: a
plain value, an integer, texts, or a sequence of items that were in its
arguments. -/
inductive Value.Made (args : List Value) : Value → Prop where
  | plain {v : Value} (h : v.Plain) : Made args v
  | number (n : Int) : Made args (.ofInt n)
  | texts (items : List String) : Made args (.texts items)
  | row {items : List Value}
      (h : ∀ v ∈ items, ∃ mark whole, .sequence mark whole ∈ args ∧ v ∈ whole) :
      Made args (Value.row items)

namespace Standard

open Value (Made)

/-- A number that was computed, unless it is an integer that is too large.
-/
theorem made_number (args : List Value) (n : Number) : Gives (Made args) n.toValue := by
  cases n with
  | int n =>
    unfold Number.toValue
    dsimp only
    split
    · exact .ok (.number _)
    · exact .error _
  | float x => exact .ok (.plain (.float x))

theorem arithmetic_made (procedure : String) (op : Number → Number → Number) (args : List Value) :
    Gives (Made args) (arithmetic procedure op args) :=
  .bind fun _ => .bind fun _ => .bind fun _ => made_number args _

/-- Adding texts and sequences puts them together. -/
theorem addition_made (args : List Value) : Gives (Made args) (addition args) := by
  unfold addition
  split
  · exact .ok (.plain (.text _))
  · next mark x mark' y =>
    refine .ok (.row fun v hv => ?_)
    rcases List.mem_append.1 hv with hv | hv
    · exact ⟨mark, x, List.mem_cons_self, hv⟩
    · exact ⟨mark', y, List.mem_cons_of_mem _ List.mem_cons_self, hv⟩
  · exact arithmetic_made "add" Number.add args

theorem division_made (args : List Value) : Gives (Made args) (division args) := by
  refine .bind fun _ => .bind fun _ => .bind fun _ => ?_
  split
  · exact .error _
  · exact .ok (.plain (.float _))

/-- A remainder of integers is an integer, any other a float. -/
theorem modulo_made (args : List Value) : Gives (Made args) (modulo args) := by
  refine .bind fun _ => ?_
  dsimp only
  split
  · split
    · exact .error _
    · exact .ok (.number _)
  · refine .bind fun _ => .bind fun _ => ?_
    split
    · exact .error _
    · exact .ok (.plain (.float _))

/-- A power of integers is an integer if the exponent is not negative. -/
theorem power_made (args : List Value) : Gives (Made args) (power args) := by
  refine .bind fun ⟨a, b⟩ => ?_
  have hfloats : Gives (Made args) (do
      let x ← realArg "pow" a
      let y ← realArg "pow" b
      return Value.float (x.pow y)) :=
    .bind fun _ => .bind fun _ => .ok (.plain (.float _))
  dsimp only
  split
  · split
    · exact .ok (.number _)
    · exact hfloats
  · exact hfloats

/-- Comparing gives a truth value. -/
theorem comparison_made (o : Order) (args : List Value) :
    Gives (Made args) (comparison o args) := by
  refine .bind fun _ => ?_
  dsimp only
  split
  · exact .ok (.plain (.bool _))
  · exact .bind fun _ => .bind fun _ => .ok (.plain (.bool _))

/-- A length is an integer. -/
theorem length_made (args : List Value) : Gives (Made args) (length args) := by
  refine .bind fun _ => ?_
  split
  · exact .ok (.number _)
  · exact .ok (.number _)
  · exact .ok (.number _)
  · exact .error _

/-- A function of a number gives a float. -/
theorem unaryFunction_made (f : Unary) (args : List Value) :
    Gives (Made args) (unaryFunction f args) := by
  refine .bind fun _ => .bind fun _ => ?_
  dsimp only
  split
  · exact .error _
  · exact .ok (.plain (.float _))

/-- A function of two numbers gives a float. -/
theorem binaryFunction_made (f : Binary) (args : List Value) :
    Gives (Made args) (binaryFunction f args) := by
  refine .bind fun _ => .bind fun _ => .bind fun _ => ?_
  dsimp only
  split
  · exact .error _
  · exact .ok (.plain (.float _))

/-- Rounding gives an integer. -/
theorem wholeFunction_made (f : Whole) (args : List Value) :
    Gives (Made args) (wholeFunction f args) := by
  refine .bind fun _ => ?_
  split
  · exact .ok (.number _)
  · refine .bind fun _ => ?_
    split
    · exact .ok (.number _)
    · exact .error _

/-- A logarithm is a float. -/
theorem logarithm_made (args : List Value) : Gives (Made args) (logarithm args) := by
  refine .bind fun _ => .bind fun _ => ?_
  split
  · exact .error _
  · split
    · exact .ok (.plain (.float _))
    · refine .bind fun _ => ?_
      split
      · exact .error _
      · exact .ok (.plain (.float _))

/-- A factorial is an integer. -/
theorem factorialOf_made (args : List Value) : Gives (Made args) (factorialOf args) := by
  refine .bind fun _ => ?_
  split
  · split
    · exact .error _
    · exact .ok (.number _)
  · exact .error _

/-- A common divisor is an integer. -/
theorem commonDivisor_made (args : List Value) : Gives (Made args) (commonDivisor args) := by
  refine .bind fun _ => ?_
  dsimp only
  split
  · exact .ok (.number _)
  · exact .error _
  · exact .error _

end Standard

-- ====================================================== what methods of values give

/-- Data that a method may give: plain as a value, or a wide integer with
what the method stored in it. -/
inductive Datum.Accounted (stored : Cells) : Datum → Prop where
  | plain {d : Datum} (h : d.received.Plain) : Accounted stored d
  | set {mark : Mark} {n : Int} (h : (mark, .whole n) ∈ stored) :
      Accounted stored (.value (.wide mark n))

/-- A result of such a method: such data, or an error that is a text. -/
inductive Returned.Accounted (stored : Cells) : Returned → Prop where
  | datum {d : Datum} (h : d.Accounted stored) : Accounted stored (.datum d)
  | fine : Accounted stored (.error none)
  | error (what : String) {d : Datum} (h : d.Accounted stored) :
      Accounted stored (.error (some (.other what, d)))

/-- What such a method comes to. -/
inductive Reply.Accounted : Reply → Prop where
  | panicked (what : String) (stored : Cells) : Accounted ⟨.panicked what, stored⟩
  | returned {results : List Returned} {stored : Cells}
      (h : ∀ r ∈ results, r.Accounted stored) : Accounted ⟨.returned results, stored⟩

/-- What calling such a method comes to: a failure, or its results as one
value. -/
inductive Called.Accounted : Called → Prop where
  | fault (f : Fault) (stored : Cells) : Accounted ⟨.error (.fault f), stored⟩
  | other (what : String) (stored : Cells) : Accounted ⟨.error (.other what), stored⟩
  | value {results : List Datum} {stored : Cells} (h : ∀ d ∈ results, d.Accounted stored) :
      Accounted ⟨.ok (Signature.collect results), stored⟩

/-- The datum that a result is. -/
theorem Returned.Accounted.toDatum {stored : Cells} {r : Returned} (h : r.Accounted stored) :
    r.toDatum.Accounted stored := by
  cases h with
  | datum hd => exact hd
  | fine => exact .plain .nil
  | error what hd => exact hd

/-- How the answer to a call follows from the results. -/
theorem Called.accounted_finish {results : List Returned} {stored : Cells} (procedure : String)
    (h : ∀ r ∈ results, r.Accounted stored) :
    Called.Accounted ⟨Signature.finish procedure (.returned results), stored⟩ := by
  have hdata : ∀ some : List Returned, (∀ r ∈ some, r ∈ results) →
      ∀ d ∈ some.map Returned.toDatum, d.Accounted stored := by
    intro some hsome d hd
    obtain ⟨r, hr, rfl⟩ := List.mem_map.1 hd
    exact (h r (hsome r hr)).toDatum
  unfold Signature.finish
  dsimp only
  split
  · next e d hlast =>
    -- the failure of the call is the error that comes last
    cases h _ (List.mem_of_getLast? hlast) with
    | error what _ => exact .other what stored
  · exact .value (hdata _ fun r hr => List.dropLast_subset results hr)
  · exact .value (hdata _ fun r hr => hr)

/-- A method is accounted for if its body is. -/
theorem Method.accounted_call {m : Method} (h : ∀ params, (m.run params).Accounted)
    (procedure : String) (args : List Value) : (m.call procedure args).Accounted := by
  have hcall : ∀ c, m.signature.call? procedure args m.run = some c → c.Accounted := by
    intro c hc
    unfold Signature.call? at hc
    split at hc
    · cases hc
      exact .fault _ _
    · cases hc
    · next params _ =>
      cases hc
      have hreply := h params
      generalize m.run params = reply at hreply ⊢
      cases hreply with
      | panicked what stored => exact .other _ stored
      | returned hresults => exact Called.accounted_finish procedure hresults
  exact hcall _ (Option.some_get _).symm

/-- The value of an entry that was looked up is one of the entries. -/
theorem mem_of_lookup {entries : List (String × α)} {name : String} {a : α}
    (h : entries.lookup name = some a) : (name, a) ∈ entries := by
  obtain ⟨before, after, rfl, -⟩ := List.lookup_eq_some_iff.1 h
  exact List.mem_append_right before List.mem_cons_self

namespace Datum

theorem plain_text (s : String) : (Datum.text s).received.Plain := .text s

theorem plain_flag (b : Bool) : (Datum.flag b).received.Plain := .bool b

theorem plain_real (single : Bool) (x : Float) : (Datum.real single x).received.Plain := .float x

theorem plain_bytes (mark : Mark) (row : List UInt8) : (Datum.bytes mark row).received.Plain :=
  .object (.bytes mark row)

theorem plain_array (type : String) (items : List Datum) :
    (Datum.array type items).received.Plain :=
  .object (.array type items)

theorem plain_named (type text : String) : (Datum.named type text).received.Plain :=
  .object (.named type text)

/-- A machine number of the host is plain, whether it stays outside or
not. -/
theorem plain_integer (type : IntType) (n : Int) : (Datum.integer type n).received.Plain := by
  simp only [Datum.received]
  split
  · exact .object (.integer type n)
  · exact .int _

end Datum

namespace Reply.Accounted

/-- One result that is plain. -/
theorem plain {d : Datum} (h : d.received.Plain) (stored : Cells) :
    Accounted ⟨.returned [.datum d], stored⟩ :=
  .returned (List.forall_mem_singleton.2 (.datum (.plain h)))

theorem pair {r r' : Returned} {stored : Cells} (h : r.Accounted stored)
    (h' : r'.Accounted stored) : Accounted ⟨.returned [r, r'], stored⟩ :=
  .returned (List.forall_mem_cons.2 ⟨h, List.forall_mem_singleton.2 h'⟩)

/-- Empty references are followed nowhere. -/
theorem empty : emptyReference.Accounted :=
  .panicked _ _

end Reply.Accounted

namespace Wide

open Datum

variable (mark : Mark) (params : List Datum)

/-- A method that looks at numbers gives what it makes of them. -/
theorem looking_accounted {f : List Int → Except String Datum} (slots : List Slot)
    (hf : ∀ ns d, f ns = .ok d → d.received.Plain) :
    ((looking slots f).run params).Accounted := by
  unfold looking
  dsimp only
  split
  · exact .empty
  · next ns _ =>
    split
    · exact .panicked _ _
    · next d hd => exact .plain (hf ns d hd) []

/-- The methods that only look give something plain. -/
theorem readers_accounted (n : Int) : ∀ m ∈ readers n, (m.2.run params).Accounted := by
  have hbytes : ∀ row : List UInt8, Reply.Accounted
      (.returned [.datum (.bytes .blank row), .error none]) := fun row =>
    .pair (.datum (.plain (plain_bytes .blank row))) .fine
  unfold readers
  simp only [List.forall_mem_cons]
  refine ⟨.plain (plain_text _) [], .plain (plain_integer _ _) [], .plain (plain_integer _ _) [],
    .plain (plain_integer _ _) [], .plain (plain_flag _) [], .plain (plain_flag _) [],
    .plain (plain_integer _ _) [], .plain (plain_integer _ _) [],
    .plain (plain_bytes _ _) [], .plain (plain_array _ _) [],
    .pair (.datum (.plain (plain_real _ _))) (.datum (.plain (plain_named _ _))),
    looking_accounted params _ fun ns d hd => ?_, looking_accounted params _ fun ns d hd => ?_,
    looking_accounted params _ fun ns d hd => ?_, looking_accounted params _ fun ns d hd => ?_,
    looking_accounted params _ fun ns d hd => ?_, hbytes _, hbytes _, hbytes _, .empty,
    List.forall_mem_nil _⟩
  · unfold inBase at hd
    split at hd <;> cases hd
    exact .text _
  · cases hd
    exact plain_integer _ _
  · cases hd
    exact plain_integer _ _
  · split at hd <;> cases hd
    exact plain_integer _ _
  · split at hd <;> cases hd
    exact .bool _

/-- The methods that write to rows give rows. -/
theorem writers_accounted (n : Int) : ∀ m ∈ writers n, (m.2.run params).Accounted := by
  unfold writers
  simp only [List.forall_mem_cons]
  refine ⟨?_, ?_, List.forall_mem_nil _⟩
  · split
    · unfold fill
      dsimp only
      split
      · exact .plain (plain_bytes _ _) _
      · exact .panicked _ _
    · exact .empty
  · split
    · split
      · exact .panicked _ _
      · exact .plain (plain_bytes _ _) _
    · exact .empty

/-- A wide integer is given back with what was stored in it. -/
theorem set_accounted (n : Int) : (set mark n).Accounted :=
  .returned (List.forall_mem_singleton.2 (.datum (.set List.mem_cons_self)))

theorem setQuietly_accounted (n : Int) : (setQuietly mark n).Accounted :=
  .returned (List.forall_mem_singleton.2 .fine)

theorem setIfAny_accounted (n? : Option Int) : (setIfAny mark n?).Accounted := by
  cases n? with
  | some n => exact set_accounted mark n
  | none => exact .plain (plain_named _ _) []

/-- A method that sets a wide integer to what it makes of numbers. -/
theorem setting_accounted (slots : List Slot) (f : List Int → Except String Int) :
    ((setting mark slots f).run params).Accounted := by
  unfold setting
  dsimp only
  split
  · exact .empty
  · split
    · exact .panicked _ _
    · exact set_accounted mark _

/-- A method that sets two wide integers. -/
theorem splitting_accounted (quotient remainder : Int → Int → Int) :
    ((splitting mark quotient remainder).run params).Accounted := by
  unfold splitting
  dsimp only
  split
  · split
    · exact .panicked _ _
    · exact .pair (.datum (.set (List.mem_cons_of_mem _ List.mem_cons_self)))
        (.datum (.set List.mem_cons_self))
  · exact .empty

/-- The method that sets up to three wide integers gives the first. -/
theorem settingDivisor_accounted : (settingDivisor mark params).Accounted := by
  unfold settingDivisor
  split
  · exact .returned (List.forall_mem_singleton.2 (.datum (.set List.mem_cons_self)))
  · exact .empty

/-- Reading a wide integer from a row. -/
theorem readFrom_accounted (n : Int) (row : List UInt8) : (readFrom mark n row).Accounted := by
  unfold readFrom
  split
  · exact setQuietly_accounted mark _
  · exact .returned (List.forall_mem_singleton.2 (.error _ (.plain (plain_named _ _))))

/-- The methods that set a wide integer give what they stored. -/
theorem setters_accounted (n : Int) : ∀ m ∈ setters mark n, (m.2.run params).Accounted := by
  have hset := setting_accounted mark params
  unfold setters
  simp only [List.forall_mem_cons]
  -- all but the last dozen compute one number from their parameters
  refine ⟨hset _ _, hset _ _, hset _ _, hset _ _, hset _ _, hset _ _, hset _ _, hset _ _,
    hset _ _, hset _ _, hset _ _, hset _ _, hset _ _, hset _ _, hset _ _, hset _ _, hset _ _,
    hset _ _, splitting_accounted mark params _ _, splitting_accounted mark params _ _,
    hset _ _, hset _ _, hset _ _, hset _ _, hset _ _, settingDivisor_accounted mark params,
    ?_, ?_, ?_, ?_, ?_, ?_, ?_, .empty, ?_, ?_, ?_, List.forall_mem_nil _⟩
  · split
    · exact setIfAny_accounted mark _
    · exact .empty
  · split
    · split
      · exact .panicked _ _
      · exact setIfAny_accounted mark _
    · exact .empty
  · split
    · split
      · exact .panicked _ _
      · exact setIfAny_accounted mark _
    · exact .empty
  · split
    · split
      · exact set_accounted mark 0
      · exact .panicked _ _
    · exact .empty
  · split
    · exact set_accounted mark _
    · exact .empty
  · split
    · exact set_accounted mark _
    · exact .empty
  · split
    · split
      · exact .panicked _ _
      · split
        · exact .pair (.datum (.set List.mem_cons_self)) (.datum (.plain (plain_flag true)))
        · exact .pair (.datum (.plain (plain_named _ _))) (.datum (.plain (plain_flag false)))
    · exact .empty
  · split
    · exact readFrom_accounted mark n _
    · exact .empty
  · split
    · split
      · exact .returned (List.forall_mem_singleton.2 .fine)
      · exact readFrom_accounted mark n _
    · exact .empty
  · split
    · exact setQuietly_accounted mark 0
    · split
      · exact setQuietly_accounted mark _
      · exact .returned (List.forall_mem_singleton.2 (.error _ (.plain (plain_named _ _))))
    · exact .empty

/-- A wide integer gives out nothing but what was stored. -/
theorem method?_accounted {n : Int} {name : String} {m : Method}
    (h : method? mark n name = some m) : (m.run params).Accounted := by
  rcases List.mem_append.1 (mem_of_lookup h) with hm | hm
  · rcases List.mem_append.1 hm with hm | hm
    · exact readers_accounted params n _ hm
    · exact writers_accounted params n _ hm
  · exact setters_accounted mark params n _ hm

end Wide

/-- A method of a value gives something plain, or a wide integer with what
it stored in it. -/
theorem Value.method?_accounted {v : Value} {name : String} {m : Method}
    (h : v.method? name = some m) (params : List Datum) : (m.run params).Accounted := by
  have hshown : ∀ {s : String} {m : Method},
      (if name == "String" then some (Method.constant (.text s)) else none) = some m →
      (m.run params).Accounted := by
    intro s m hm
    split at hm
    · cases hm
      exact .plain (Datum.plain_text s) []
    · cases hm
  cases v with
  | wide mark n => exact Wide.method?_accounted mark params h
  | literal mark n => exact Wide.method?_accounted mark params h
  | bool b => exact hshown h
  | int n => exact hshown h
  | float x => exact hshown h
  | text s => exact hshown h
  | list mark items => exact hshown h
  | sequence mark items => exact hshown h
  | symbol s =>
    unfold Value.method? at h
    dsimp only at h
    split at h
    · cases h
      exact .plain (Datum.plain_text s) []
    · split at h
      · cases h
        exact .plain (Datum.plain_flag _) []
      · cases h
  | nil => cases h
  | proc p => cases h
  | library mark module members => cases h
  | machine module => cases h
  | object d => cases h

end LispShell
