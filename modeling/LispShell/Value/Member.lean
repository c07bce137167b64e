/-
Members of values.

A member is looked for under its name and then under its name with the
first letter in upper case, in each case among the entries of a table
keyed by text, then the methods, then the visible fields of a record.

A quoted wide integer has the methods of the integer and that integer
itself, under the name `Int`: both are one and the same cell.
-/
import LispShell.Text.Case
import LispShell.Value.Wide

namespace LispShell

/-- The methods that values of the language have themselves. -/
def Value.method? (v : Value) (name : String) : Option Method :=
  match v with
  | .wide mark n | .literal mark n => Wide.method? mark n name
  | .text s => if name == "String" then some (.constant (.text s)) else none
  | .symbol s =>
    if name == "String" then some (.constant (.text s))
    else if name == "IsStringLiteral" then some (.constant (.flag (isLiteral s)))
    else none
  | .bool _ | .int _ | .float _ | .list .. | .sequence .. =>
    if name == "String" then some (.constant (.text v.repr)) else none
  | .nil | .proc _ | .library .. | .machine _ | .object _ => none

-- =================================================================== members

mutual

/-- The field of a record with the given name, and whether it is visible.
Fields of embedded records come after the record's own. -/
def Datum.field? (name : String) : Datum → Option (Bool × Datum)
  | .record _ fields => (Datum.ownField? name fields).or (Datum.embeddedField? name fields)
  | .reference _ target => target.field? name
  | _ => none

/-- The field itself. -/
def Datum.ownField? (name : String) : List Field → Option (Bool × Datum)
  | [] => none
  | .field n visible _ d :: rest =>
    if n == name then some (visible, d) else Datum.ownField? name rest

/-- A field of an embedded record. -/
def Datum.embeddedField? (name : String) : List Field → Option (Bool × Datum)
  | [] => none
  | .field _ _ embedded d :: rest =>
    if embedded then (d.field? name).or (Datum.embeddedField? name rest)
    else Datum.embeddedField? name rest

end

/-- The entry of a table keyed by texts. -/
def Datum.entry? (name : String) : Datum → Option Datum
  | .table _ _ true entries => entries.lookup name
  | _ => none

/-- The member with exactly this name. -/
def Value.ownMember? (hasMethod : Datum → String → Bool) (v : Value) (name : String) :
    Option Value :=
  match v with
  | .object d =>
    match d.entry? name with
    | some entry => some (entry.toValue name)
    | none =>
      if hasMethod d name then some (.proc (.method v name))
      else match d.field? name with
        | some (true, field) => some (field.toValue name)
        | _ => none
  | .literal mark n =>
    if (v.method? name).isSome then some (.proc (.method v name))
    else if name == "Int" then some (.wide mark n)
    else none
  | _ => if (v.method? name).isSome then some (.proc (.method v name)) else none

/-- The member of a value under a name or its capitalized form. -/
def Value.member (hasMethod : Datum → String → Bool) (v : Value) (name : String) :
    Except Fault Value :=
  match v with
  | .library _ module members =>
    match members.lookup name with
    | some m => .ok m
    | none => .error (.noModuleMember module name)
  | .nil => .error (.noMember v.typeName name)
  | _ =>
    match (v.ownMember? hasMethod name).or (v.ownMember? hasMethod (Text.capitalize name)) with
    | some m => .ok m
    | none => .error (.noMember v.typeName name)

end LispShell
