/-
Calls of host methods.

A method of the host gets all its arguments converted, or does not run
(`Signature.checksFirst_call`). What becomes of an argument depends on the
argument and its parameter alone (`Parameter.Accepts`): the missing value
is the zero of the type, an interface takes what implements it as it is, a
number becomes a number of the parameter's type, and a text stays a text.
A method with any number of arguments has one more parameter for all that
are too many.

An interface is asked about what the argument is to the host. An integer,
a float, a text or a truth value is a plain one there and implements
nothing, although as a value of the language it has a method to show
itself (`Signature.printable_refuses_scalars`).

A conversion can break down although the types fit. Calls in which one
does are left out (`Signature.Holds`); to the parameters of the methods
that a program can reach none does.

What the body gives back is one value in the end, or a failure. Its last
result decides if it is an error, and no other result does: `Concludes`
says how, and that there is nothing else to say is `concludes_iff`.
-/
import LispShell.Proofs.Arguments
import LispShell.Value.Member

namespace LispShell

open scoped Power

-- ================================================================== integers

namespace IntType

/-- The integers of a type. -/
def Holds (t : IntType) (n : Int) : Prop :=
  if t.isSigned then -2 ^ (t.bits - 1) ≤ n ∧ n < 2 ^ (t.bits - 1) else 0 ≤ n ∧ n < 2 ^ t.bits

/-- Wrapping gives an integer of the type, and keeps the low bits. -/
theorem wrap_spec (t : IntType) (n : Int) :
    t.Holds (t.wrap n) ∧ (2 : Int) ^ t.bits ∣ t.wrap n - n := by
  have hpos : 0 < 2 ^ t.bits := Nat.two_pow_pos t.bits
  have hlow := Int.le_bmod (x := n) hpos
  have hhigh := Int.bmod_lt (x := n) hpos
  have hbits := Int.dvd_bmod_sub_self (x := n) (m := 2 ^ t.bits)
  cases t <;> simp [Holds, wrap, isSigned, bits] at hlow hhigh hbits ⊢ <;> omega

/-- An integer of the type is left as it is. -/
theorem wrap_of_holds {t : IntType} {n : Int} (h : t.Holds n) : t.wrap n = n := by
  obtain ⟨hwrap, hbits⟩ := t.wrap_spec n
  generalize t.wrap n = k at hwrap hbits
  cases t <;> simp [Holds, isSigned, bits] at h hwrap hbits <;> omega

/-- An integer of a type with a sign fits 64 bits. -/
theorem isNarrow_of_holds {t : IntType} {n : Int} (hsigned : t.isSigned = true) (h : t.Holds n) :
    Value.isNarrow n = true := by
  rw [Holds, if_pos hsigned] at h
  simp only [Value.isNarrow, Bool.and_eq_true, decide_eq_true_eq, Int64.toInt_minValue,
    Int64.toInt_maxValue]
  cases t <;> simp [bits] at h hsigned ⊢ <;> omega

/-- A float whose whole part is of a type with a sign is cut to that. -/
theorem ofFloat_of_holds {t : IntType} (hsigned : t.isSigned = true) {x : Float} {n : Int}
    (hx : Binary64.toInt? .towardZero x = some n) (h : t.Holds n) : t.ofFloat x = n := by
  have hcut : cutSigned x = n := by
    rw [cutSigned, hx]
    exact if_pos (isNarrow_of_holds hsigned h)
  rw [ofFloat, if_pos hsigned, hcut, wrap_of_holds h]

end IntType

-- ================================================================ parameters

namespace Parameter

/-- Whether a parameter is an interface. -/
def IsInterface (p : Parameter) : Prop :=
  ∃ name implementedBy, p = .interface name implementedBy

/-- What host data become in the type of a parameter. -/
inductive Becomes : Parameter → Datum → Datum → Prop where
  /-- An integer is cut to the low bits. -/
  | wrapped (t type : IntType) (n : Int) :
      Becomes (.integer t) (.integer type n) (.integer t (t.wrap n))
  /-- A float is cut toward zero. -/
  | cut (t : IntType) (single : Bool) (x : Float) :
      Becomes (.integer t) (.real single x) (.integer t (t.ofFloat x))
  /-- An integer becomes the nearest float. -/
  | nearest (single : Bool) (type : IntType) (n : Int) :
      Becomes (.real single) (.integer type n)
        (.real single (inPrecision single (Binary64.ofInt n)))
  | rounded (single single' : Bool) (x : Float) :
      Becomes (.real single) (.real single' x) (.real single (inPrecision single x))
  | text (s : String) : Becomes .text (.text s) (.text s)
  /-- A symbol is a text to the host. -/
  | symbol (s : String) : Becomes .text (.value (.symbol s)) (.text s)
  | flag (b : Bool) : Becomes .flag (.flag b) (.flag b)
  /-- A type of the host's own has its own conversion. -/
  | own {type : HostType} {d d' : Datum} (h : type.convert d = .taken d') :
      Becomes (.other type) d d'

/-- What a parameter makes of an argument that it takes. -/
inductive Accepts (p : Parameter) : Value → Datum → Prop where
  | missing : Accepts p .nil p.zero
  | implements {name : String} {implementedBy : Datum → Bool} {v : Value}
      (hp : p = .interface name implementedBy) (hv : v ≠ .nil)
      (h : implementedBy v.toDatum = true) : Accepts p v v.toDatum
  /-- Texts and anything else never convert into each other. -/
  | converts {v : Value} {d : Datum} (hv : v ≠ .nil) (htext : p.isText = v.isText)
      (h : p.Becomes v.toDatum d) : Accepts p v d

/-- Numbers, texts and truth values convert so. -/
theorem ofDatum?_eq_some_iff {p : Parameter} (hp : p.IsPlain) {d d' : Datum} :
    p.ofDatum? d = some d' ↔ p.Becomes d d' := by
  constructor
  · intro h
    unfold ofDatum? at h
    split at h <;> cases h
    · exact .wrapped _ _ _
    · exact .cut _ _ _
    · exact .nearest _ _ _
    · exact .rounded _ _ _
    · exact .text _
    · exact .symbol _
    · exact .flag _
  · intro h
    cases h with
    | own => exact hp.elim
    | _ => rfl

/-- What an interface makes of an argument. -/
theorem convert_interface (name : String) (implementedBy : Datum → Bool) {v : Value}
    (hv : v ≠ .nil) :
    (interface name implementedBy).convert v
      = if implementedBy v.toDatum then .taken v.toDatum else .refused := by
  cases v with
  | nil => exact absurd rfl hv
  | _ => rfl

/-- What a type of the host's own makes of one. -/
theorem convert_other (type : HostType) {v : Value} (hv : v ≠ .nil) :
    (other type).convert v
      = if type.isText == v.isText then type.convert v.toDatum else .refused := by
  cases v with
  | nil => exact absurd rfl hv
  | _ => rfl

/-- A possible conversion gives what it gives. -/
theorem ofOption_eq_taken_iff {d? : Option Datum} {d : Datum} :
    Conversion.ofOption d? = .taken d ↔ d? = some d := by
  cases d? <;> simp [Conversion.ofOption]

/-- What is not turned away at the look at texts converts. -/
theorem looked_eq_taken_iff {text text' : Bool} {c : Conversion} {d : Datum} :
    (if text == text' then c else .refused) = .taken d ↔ text = text' ∧ c = .taken d := by
  by_cases h : text = text'
  · simp [h]
  · simp [h]

/-- A number, a text or a truth value that is there converts so. -/
theorem convert_plain_iff {p : Parameter} (hp : p.IsPlain) {v : Value} (hv : v ≠ .nil)
    {d : Datum} : p.convert v = .taken d ↔ p.isText = v.isText ∧ p.Becomes v.toDatum d := by
  rw [convert_plain hp hv, looked_eq_taken_iff, ofOption_eq_taken_iff, ofDatum?_eq_some_iff hp]

/-- An argument that is there converts so, unless the parameter is an
interface. -/
theorem convert_iff_becomes {p : Parameter} (hp : ¬p.IsInterface) {v : Value} (hv : v ≠ .nil)
    {d : Datum} : p.convert v = .taken d ↔ p.isText = v.isText ∧ p.Becomes v.toDatum d := by
  cases p with
  | interface name implementedBy => exact absurd ⟨name, implementedBy, rfl⟩ hp
  | other type =>
    rw [convert_other type hv, looked_eq_taken_iff]
    refine and_congr_right fun _ => ⟨Becomes.own, fun h => ?_⟩
    cases h with
    | own h => exact h
  | _ =>
    refine convert_plain_iff ?_ hv
    exact trivial

/-- A parameter takes exactly the arguments that it accepts, and makes of
them what it says. -/
theorem convert_eq_taken_iff (p : Parameter) (v : Value) (d : Datum) :
    p.convert v = .taken d ↔ p.Accepts v d := by
  -- what is missing goes in front of everything else, and an interface in front of the kinds
  by_cases hv : v = .nil
  · subst hv
    rw [convert_nil]
    constructor
    · intro h
      cases h
      exact .missing
    · intro h
      cases h with
      | missing => rfl
      | implements _ hv => exact absurd rfl hv
      | converts hv => exact absurd rfl hv
  · by_cases hp : p.IsInterface
    · obtain ⟨name, implementedBy, rfl⟩ := hp
      rw [convert_interface name implementedBy hv]
      constructor
      · intro h
        split at h
        · next himplements =>
          cases h
          exact .implements rfl hv himplements
        · cases h
      · intro h
        cases h with
        | missing => exact absurd rfl hv
        | implements hp _ himplements =>
          cases hp
          exact if_pos himplements
        | converts _ _ h => cases h
    · rw [convert_iff_becomes hp hv]
      constructor
      · rintro ⟨htext, h⟩
        exact .converts hv htext h
      · intro h
        cases h with
        | missing => exact absurd rfl hv
        | implements hinterface => exact absurd ⟨_, _, hinterface⟩ hp
        | converts _ htext h => exact ⟨htext, h⟩

end Parameter

-- ==================================================================== calls

namespace Signature

variable (s : Signature) (procedure : String) (args : List Value)

/-- The parameter of an argument. -/
def paramAt (i : Nat) : Option Parameter :=
  s.params[i]?.or s.rest

/-- No conversion of an argument breaks down. -/
def Holds : Prop :=
  ∀ i v p, args[i]? = some v → s.paramAt i = some p → ∀ what, p.convert v ≠ .broken what

/-- What a parameter gets for an argument, or the complaint about it. -/
def passTo (i : Nat) (p : Parameter) (v : Value) : Except Fault Datum :=
  match p.convert v with
  | .taken d => .ok d
  | _ => .error (.argument procedure (i + 1) p.typeName v.typeName)

/-- What a call comes to after the body. -/
def concluded (reply : Reply) : Option Called :=
  some ⟨finish procedure reply.ending, reply.stored⟩

/-- What a call comes to without the body. -/
def complained (f : Fault) : Option Called :=
  some ⟨.error (.fault f), []⟩

variable {s procedure args}

/-- An argument passes if its parameter accepts it. -/
theorem passTo_eq_ok_iff {i : Nat} {p : Parameter} {v : Value} {d : Datum} :
    passTo procedure i p v = .ok d ↔ p.Accepts v d := by
  rw [← p.convert_eq_taken_iff v d, passTo]
  cases p.convert v <;> simp

/-- Otherwise the complaint is about its type. -/
theorem passTo_eq_error_iff {i : Nat} {p : Parameter} {v : Value} {f : Fault} :
    passTo procedure i p v = .error f
      ↔ (∀ d, ¬p.Accepts v d) ∧ f = .argument procedure (i + 1) p.typeName v.typeName := by
  simp only [← p.convert_eq_taken_iff, passTo]
  cases p.convert v <;> simp [eq_comm]

/-- The outcome of passing the arguments, as what a call starts from. -/
def prepared : Except Fault (List Datum) → Prepared
  | .ok ds => .ready ds
  | .error f => .refused f

/-- Where no conversion breaks down, the arguments pass from left to
right. -/
theorem convertArgs_eq_passAll {params : List Parameter} {rest : Option Parameter}
    (hholds : Holds ⟨params, rest⟩ args) (position : Nat) :
    convertArgs procedure rest (position + 1) params args
      = prepared (passAll (paramAt ⟨params, rest⟩)
          (fun i => passTo procedure (i + position)) args) := by
  induction args generalizing position params with
  | nil => rfl
  | cons v args ih =>
    -- the parameters move up by one with each argument, and the position counts on instead
    have hparam : (fun i => paramAt ⟨params, rest⟩ (i + 1)) = paramAt ⟨params.tail, rest⟩ := by
      funext i
      simp only [paramAt, List.getElem?_tail]
    have hpass : (fun i => passTo procedure (i + 1 + position))
        = fun i => passTo procedure (i + (position + 1)) := by
      funext i
      rw [Nat.add_right_comm]
      rfl
    have hlater : Holds ⟨params.tail, rest⟩ args := by
      intro i u p hu hp
      rw [← hparam] at hp
      exact hholds (i + 1) u p hu hp
    have hrest := ih hlater (position + 1)
    rw [← hparam, ← hpass] at hrest
    have hhead : paramAt ⟨params, rest⟩ 0 = params.head?.or rest := by
      simp only [paramAt, List.head?_eq_getElem?]
    simp only [convertArgs, passAll, hhead, hrest, passTo, Nat.zero_add]
    cases hfirst : params.head?.or rest with
    | none => rfl
    | some p =>
      cases hconvert : p.convert v with
      | taken d =>
        simp only [hconvert]
        cases passAll (fun i => paramAt ⟨params, rest⟩ (i + 1))
          (fun i => passTo procedure (i + 1 + position)) args <;> rfl
      | refused => simp only [hconvert, prepared]
      | broken what => exact absurd hconvert (hholds 0 v p rfl (hhead.trans hfirst) what)

/-- How many arguments there can be. -/
theorem admits_arity (s : Signature) (n : Nat) :
    s.arity.admits n = true
      ↔ n = s.params.length ∨ s.rest.isSome = true ∧ s.params.length ≤ n := by
  obtain ⟨params, rest⟩ := s
  cases rest with
  | none =>
    rw [arity, Arity.admits_exactly]
    simp
  | some p =>
    rw [arity, Arity.admits_atLeast]
    simp only [Option.isSome_some, true_and]
    omega

/-- If there can be so many, each has a parameter. -/
theorem exists_paramAt {n i : Nat} (hadmits : s.arity.admits n = true) (hi : i < n) :
    ∃ p, s.paramAt i = some p := by
  by_cases hslot : i < s.params.length
  · exact ⟨s.params[i], by rw [paramAt, List.getElem?_eq_getElem hslot, Option.some_or]⟩
  · rcases (s.admits_arity n).1 hadmits with hlength | ⟨hrest, -⟩
    · omega
    · obtain ⟨p, hsome⟩ := Option.isSome_iff_exists.1 hrest
      refine ⟨p, ?_⟩
      rw [paramAt, List.getElem?_eq_none (Nat.le_of_not_lt hslot), hsome, Option.none_or]

/-- What a call starts from. -/
theorem prepare_eq (procedure : String) (hholds : s.Holds args) :
    s.prepare procedure args
      = prepared (passChecked procedure s.arity s.paramAt (passTo procedure) args) := by
  unfold prepare passChecked
  split
  · exact convertArgs_eq_passAll hholds 0
  · rfl

/-- A host method gets all its arguments converted, or does not run. -/
theorem checksFirst_call (procedure : String) (hholds : s.Holds args) :
    ChecksFirst (s.call? procedure args) (concluded procedure) complained procedure s.arity
      s.paramAt (passTo procedure) args := by
  apply checksFirst_of_runPrepared
  · funext run
    rw [call?, prepare_eq procedure hholds]
    cases passChecked procedure s.arity s.paramAt (passTo procedure) args <;> rfl
  · intro hadmits i hi
    exact exists_paramAt hadmits hi
  · refine ⟨.returned [], .panicked "", fun h => ?_⟩
    cases h
  · intro f
    refine ⟨.panicked "", fun h => ?_⟩
    cases h

-- ================================================================== results

/-- What results are as one value. -/
inductive Gives : List Returned → Value → Prop where
  | nothing : Gives [] .nil
  | single (r : Returned) : Gives [r] r.toDatum.received
  | several (results : List Returned) (h : 2 ≤ results.length) :
      Gives results (.row (results.map fun r => r.toDatum.received))

/-- What a call comes to once the body ran. -/
inductive Concludes (procedure : String) : Ending → Except Failure Value → Prop where
  | panicked (what : String) :
      Concludes procedure (.panicked what) (.error (.other (procedure ++ "() panicked: " ++ what)))
  | failed (results : List Returned) (e : Failure) (d : Datum) :
      Concludes procedure (.returned (results ++ [.error (some (e, d))])) (.error e)
  | succeeded (results : List Returned) (v : Value) (h : Gives results v) :
      Concludes procedure (.returned (results ++ [.error none])) (.ok v)
  | plain (results : List Returned) (v : Value)
      (hlast : ∀ e, results.getLast? ≠ some (.error e)) (h : Gives results v) :
      Concludes procedure (.returned results) (.ok v)

/-- Several results are a row. -/
theorem collect_several (results : List Returned) (h : 2 ≤ results.length) :
    collect (results.map Returned.toDatum) = .row (results.map fun r => r.toDatum.received) := by
  match results, h with
  | r :: s :: rest, _ =>
    simp only [collect, List.map_cons, List.map_map]
    rfl

/-- The value of the results is the one that is collected. -/
theorem gives_iff (results : List Returned) (v : Value) :
    Gives results v ↔ collect (results.map Returned.toDatum) = v := by
  constructor
  · intro h
    cases h with
    | nothing => rfl
    | single r => rfl
    | several results h => exact collect_several results h
  · rintro rfl
    match results with
    | [] => exact .nothing
    | [r] => exact .single r
    | r :: s :: rest =>
      have hlength : 2 ≤ (r :: s :: rest).length := Nat.le_add_left 2 rest.length
      rw [collect_several _ hlength]
      exact .several _ hlength

section

variable (procedure : String) (results : List Returned)

/-- An error at the end is the failure of the call. -/
theorem finish_failed (e : Failure) (d : Datum) :
    finish procedure (.returned (results ++ [.error (some (e, d))])) = .error e := by
  simp only [finish, List.getLast?_append, List.getLast?_singleton, Option.some_or]

/-- No error at the end is left out. -/
theorem finish_succeeded :
    finish procedure (.returned (results ++ [.error none]))
      = .ok (collect (results.map Returned.toDatum)) := by
  simp only [finish, List.getLast?_append, List.getLast?_singleton, Option.some_or,
    List.dropLast_concat]

/-- Without a place for an error at the end, all results count. -/
theorem finish_plain (hlast : ∀ e, results.getLast? ≠ some (.error e)) :
    finish procedure (.returned results) = .ok (collect (results.map Returned.toDatum)) := by
  rw [finish]
  split
  · next e d herror => exact absurd herror (hlast _)
  · next herror => exact absurd herror (hlast _)
  · rfl

end

/-- The last result decides, if it is an error. -/
theorem concludes_iff (procedure : String) (ending : Ending) (outcome : Except Failure Value) :
    Concludes procedure ending outcome ↔ finish procedure ending = outcome := by
  constructor
  · intro h
    cases h with
    | panicked what => rfl
    | failed results e d => exact finish_failed procedure results e d
    | succeeded results v h => rw [finish_succeeded, (gives_iff results v).1 h]
    | plain results v hlast h =>
      rw [finish_plain procedure results hlast, (gives_iff results v).1 h]
  · rintro rfl
    cases ending with
    | panicked what => exact .panicked what
    | returned results =>
      by_cases hlast : ∃ e, results.getLast? = some (.error e)
      · obtain ⟨e, he⟩ := hlast
        obtain ⟨results, rfl⟩ := List.getLast?_eq_some_iff.1 he
        cases e with
        | none =>
          rw [finish_succeeded]
          exact .succeeded results _ ((gives_iff results _).2 rfl)
        | some failure =>
          rw [finish_failed]
          exact .failed results failure.1 failure.2
      · have hplain : ∀ e, results.getLast? ≠ some (.error e) := fun e he => hlast ⟨e, he⟩
        rw [finish_plain procedure results hplain]
        exact .plain results _ hplain ((gives_iff results _).2 rfl)

end Signature

namespace Method

open Signature

/-- The conversions to the parameters of a method never break down. -/
theorem holds_signature (m : Method) (args : List Value) : m.signature.Holds args := by
  intro i v p _ hp what
  have hslot : m.signature.paramAt i = (m.slots[i]?.or m.rest).map (·.1) := by
    simp only [signature, paramAt, List.getElem?_map]
    cases m.slots[i]? <;> rfl
  rw [hslot] at hp
  obtain ⟨slot, -, rfl⟩ := Option.map_eq_some_iff.1 hp
  exact slot.2 v what

/-- A host call checks everything before the method runs, hands it what the
parameters make of the arguments, and makes one value of what it gives
back. -/
theorem host_calls_check_first (s : Signature) (procedure : String) (args : List Value)
    (hholds : s.Holds args) :
    ChecksFirst (s.call? procedure args) (concluded procedure) complained procedure s.arity
      s.paramAt (passTo procedure) args
    ∧ (s.arity.admits args.length = true
      ↔ args.length = s.params.length ∨ s.rest.isSome = true ∧ s.params.length ≤ args.length)
    ∧ ((∃ ds, RunsOn (s.call? procedure args) (concluded procedure) ds)
      ∨ ∃ f, Refuses (s.call? procedure args) complained f ∧ f.kind = .typing)
    ∧ (∀ (i : Nat) (p : Parameter) (v : Value) (d : Datum),
      passTo procedure i p v = .ok d ↔ p.Accepts v d)
    ∧ (∀ (i : Nat) (p : Parameter) (v : Value) (f : Fault), passTo procedure i p v = .error f
      ↔ (∀ d, ¬p.Accepts v d) ∧ f = .argument procedure (i + 1) p.typeName v.typeName)
    ∧ (∀ (p : Parameter) (v : Value) (d : Datum), v ≠ .nil → ¬p.IsInterface →
      p.isText ≠ v.isText → ¬p.Accepts v d)
    ∧ (∀ (t : IntType) (n : Int), t.Holds (t.wrap n) ∧ (2 : Int) ^ t.bits ∣ t.wrap n - n)
    ∧ (∀ (t : IntType) (x : Float) (n : Int), t.isSigned = true →
      Binary64.toInt? .towardZero x = some n → t.Holds n → t.ofFloat x = n)
    ∧ (∀ m : Method, m.signature = s →
      s.call? procedure args m.run = some (m.call procedure args))
    ∧ ∀ (ending : Ending) (outcome : Except Failure Value),
      finish procedure ending = outcome ↔ Concludes procedure ending outcome := by
  have hchecks := checksFirst_call procedure hholds
  -- a call that does not run is refused for the number of its arguments or for one of them, and
  -- both are faults of typing
  have hrefuses : (∃ ds, RunsOn (s.call? procedure args) (concluded procedure) ds)
      ∨ ∃ f, Refuses (s.call? procedure args) complained f ∧ f.kind = .typing := by
    rcases hchecks.runs_or_refuses with hruns | ⟨f, hrefuses, rfl | ⟨i, v, p, -, -, hf⟩⟩
    · exact .inl hruns
    · exact .inr ⟨_, hrefuses, rfl⟩
    · obtain ⟨-, rfl⟩ := passTo_eq_error_iff.1 hf
      exact .inr ⟨_, hrefuses, rfl⟩
  have htexts : ∀ (p : Parameter) (v : Value) (d : Datum), v ≠ .nil → ¬p.IsInterface →
      p.isText ≠ v.isText → ¬p.Accepts v d := by
    intro p v d hv hp hne haccepts
    cases haccepts with
    | missing => exact hv rfl
    | implements hinterface => exact hp ⟨_, _, hinterface⟩
    | converts _ htext => exact hne htext
  refine ⟨hchecks, s.admits_arity args.length, hrefuses, fun _ _ _ _ => passTo_eq_ok_iff,
    fun _ _ _ _ => passTo_eq_error_iff, htexts, IntType.wrap_spec,
    fun t x n hsigned hx hn => IntType.ofFloat_of_holds hsigned hx hn, ?_,
    fun ending outcome => (concludes_iff procedure ending outcome).symm⟩
  rintro m rfl
  exact (Option.some_get _).symm

/-- A method with any number of bytes after a text: an integer and a float
are cut, and nothing is the zero byte. -/
theorem host_calls_check_first_bytes :
    let s : Signature := ⟨[.text], some (.integer .uint8)⟩
    let args : List Value := [.symbol "sum", .int 300, .float 2.5, .nil]
    s.Holds args
    ∧ (∃ ds, RunsOn (s.call? "sum" args) (concluded "sum") ds)
    ∧ ∀ ds, RunsOn (s.call? "sum" args) (concluded "sum") ds →
      ds = [.text "sum", .integer .uint8 44, .integer .uint8 (IntType.uint8.ofFloat 2.5),
        .integer .uint8 0] := by
  intro s args
  have hholds : s.Holds args :=
    holds_signature ⟨[.text], some (.integer .uint8), fun _ => .returned []⟩ args
  obtain ⟨hchecks, -⟩ := host_calls_check_first s "sum" args hholds
  have hparams : ∀ i v, args[i]? = some v → ∃ p d, s.paramAt i = some p
      ∧ passTo "sum" i p v = .ok d := by
    intro i v hv
    match i, hv with
    | 0, rfl => exact ⟨_, _, rfl, rfl⟩
    | 1, rfl => exact ⟨_, _, rfl, rfl⟩
    | 2, rfl => exact ⟨_, _, rfl, rfl⟩
    | 3, rfl => exact ⟨_, _, rfl, rfl⟩
  refine ⟨hholds, hchecks.runs_iff.2 ⟨rfl, hparams⟩, fun ds hruns => ?_⟩
  obtain ⟨hlength, hall⟩ := hchecks.in_order ds hruns
  have heach : ∀ i v p d d', args[i]? = some v → s.paramAt i = some p →
      passTo "sum" i p v = .ok d → ds[i]? = some d' → d' = d := by
    intro i v p d d' hv hp hd hd'
    obtain ⟨q, hq, hpass⟩ := hall i v d' hv hd'
    cases hp.symm.trans hq
    exact Except.ok.inj (hpass.symm.trans hd)
  match ds, hlength with
  | [a, b, c, d], _ =>
    rw [heach 0 _ _ _ a rfl rfl rfl rfl, heach 1 _ _ _ b rfl rfl rfl rfl,
      heach 2 _ _ _ c rfl rfl rfl rfl, heach 3 _ _ _ d rfl rfl rfl rfl]
    rfl

end Method

/-- An integer has a method that shows it, and a parameter that takes what
shows itself does not take it. -/
theorem Signature.printable_refuses_scalars :
    ¬∀ v : Value, (v.method? "String").isSome = true →
      ∃ ds, RunsOn (call? ⟨[Slot.printable.1], none⟩ "Show" [v]) (concluded "Show") ds := by
  intro h
  obtain ⟨ds, hruns⟩ := h (.int 5) rfl
  cases hruns fun _ => .panicked ""

end LispShell
