/-
Reading what was stored in place.

A value is read in the cells of a machine: its wide integers and rows of
bytes show what was stored in them last. Reading goes through everything
that a value is made of and changes nothing else, so it commutes with what
takes a value apart (`Datum.entry?_read`, `Datum.field?_read`) and with
quoting (`Value.read_ofCode`).

Where nothing was stored a value reads as it is (`Value.read_nil`). Reading
twice shows what the second reading shows, if the second is in cells to
which only something was added (`Value.read_read`); so it does not matter
that the operands of a call were read before.
-/
import LispShell.Value.Member
import Mathlib.Logic.Basic

namespace LispShell

variable {cells : Cells}

-- ====================================================== cells

namespace Cells

/-- What was stored first is seen where nothing was stored later. -/
theorem last?_append {α : Type} (pick : Content → Option α) (new old : Cells) (mark : Mark) :
    last? pick (new ++ old) mark = (last? pick new mark).or (last? pick old mark) := by
  unfold last?
  split
  · rfl
  · exact List.findSome?_append

/-- What is seen in a thing was stored in it. -/
theorem mem_of_last? {α : Type} {pick : Content → Option α} {mark : Mark} {a : α}
    (h : cells.last? pick mark = some a) :
    ∃ content, (mark, content) ∈ cells ∧ pick content = some a := by
  unfold last? at h
  split at h
  · cases h
  · obtain ⟨⟨mark', content⟩, hmem, hpick⟩ := List.exists_of_findSome?_eq_some h
    dsimp only at hpick
    split at hpick
    · next heq => exact ⟨content, heq ▸ hmem, hpick⟩
    · cases hpick

/-- Nothing is seen under a mark under which nothing was stored. -/
theorem last?_eq_none {α : Type} {pick : Content → Option α} {mark : Mark}
    (h : ∀ entry ∈ cells, entry.1 ≠ mark) : cells.last? pick mark = none := by
  cases hlast : cells.last? pick mark with
  | none => rfl
  | some a =>
    obtain ⟨content, hmem, -⟩ := mem_of_last? hlast
    exact absurd rfl (h _ hmem)

/-- What is stored under has a number before those that are given out. -/
theorem lt_after {session serial : Nat} {content : Content}
    (h : (.made session serial, content) ∈ cells) : serial < cells.after session := by
  induction cells with
  | nil => cases h
  | cons entry rest ih =>
    rw [after, List.foldr_cons, ← after]
    rcases List.mem_cons.1 h with rfl | h
    · dsimp only
      rw [if_pos rfl]
      exact Nat.le_max_left _ _
    · have hrest := ih h
      split
      · split
        · exact Nat.lt_of_lt_of_le hrest (Nat.le_max_right _ _)
        · exact hrest
      · exact hrest

/-- A wide integer holds what it was made with if its number is not one
under which something is stored. -/
theorem whole_of_after_le {session serial : Nat} (h : cells.after session ≤ serial) (n : Int) :
    cells.whole (.made session serial) n = n := by
  have hnone : cells.last? Content.whole? (.made session serial) = none := by
    refine last?_eq_none ?_
    rintro ⟨mark, content⟩ hmem rfl
    exact absurd (lt_after hmem) (Nat.not_lt.2 h)
  rw [whole, hnone, Option.getD_none]

/-- A new wide integer holds what it was made with. -/
@[simp]
theorem whole_blank (cells : Cells) (n : Int) : cells.whole .blank n = n := by
  rw [whole, last?, if_pos rfl]
  rfl

/-- A new row holds what it was made with. -/
@[simp]
theorem bytes_blank (cells : Cells) (row : List UInt8) : cells.bytes .blank row = row := by
  rw [bytes, last?, if_pos rfl]
  rfl

/-- Every thing holds what it was made with. -/
def Untouched (cells : Cells) : Prop :=
  (∀ mark n, cells.whole mark n = n) ∧ ∀ mark row, cells.bytes mark row = row

/-- Where nothing was stored, everything holds what it was made with. -/
theorem untouched_nil : Untouched [] := by
  have hnone : ∀ {α : Type} (pick : Content → Option α) mark, last? pick [] mark = none :=
    fun pick mark => last?_eq_none (List.forall_mem_nil _)
  exact ⟨fun mark n => by rw [whole, hnone, Option.getD_none],
    fun mark row => by rw [bytes, hnone, Option.getD_none]⟩

/-- What was read in the first cells reads the same in the second as what
was not read before. -/
def Covers (cells' cells : Cells) : Prop :=
  (∀ mark n, cells'.whole mark (cells.whole mark n) = cells'.whole mark n)
    ∧ ∀ mark row, cells'.bytes mark (cells.bytes mark row) = cells'.bytes mark row

/-- Cells to which something was added cover what they were before. -/
theorem covers_append (new old : Cells) : Covers (new ++ old) old := by
  have hgetD : ∀ {α : Type} (a b : Option α) (c : α),
      (a.or b).getD (b.getD c) = (a.or b).getD c := by
    intro α a b c
    cases a <;> cases b <;> rfl
  refine ⟨fun mark n => ?_, fun mark row => ?_⟩
  · simp only [whole, last?_append, hgetD]
  · simp only [bytes, last?_append, hgetD]

theorem covers_refl (cells : Cells) : Covers cells cells :=
  covers_append [] cells

end Cells

-- ====================================================== reading item by item

@[simp]
theorem Expr.readAll_eq_map (items : List Code) :
    Expr.readAll cells items = items.map (Expr.read cells) := by
  induction items with
  | nil => rfl
  | cons code rest ih => rw [Expr.readAll, ih, List.map_cons]

@[simp]
theorem Value.readAll_eq_map (items : List Value) :
    Value.readAll cells items = items.map (Value.read cells) := by
  induction items with
  | nil => rfl
  | cons v rest ih => rw [Value.readAll, ih, List.map_cons]

@[simp]
theorem Value.readMembers_eq_map (members : List (String × Value)) :
    Value.readMembers cells members
      = members.map fun entry => (entry.1, entry.2.read cells) := by
  induction members with
  | nil => rfl
  | cons entry rest ih =>
    obtain ⟨name, v⟩ := entry
    rw [Value.readMembers, ih, List.map_cons]

-- ====================================================== reading twice

section

variable {cells' : Cells}

mutual

/-- Reading an expression a second time. -/
theorem Expr.read_read (h : cells'.Covers cells) : (code : Code) →
    (code.read cells).read cells' = code.read cells'
  | .wide mark n => congrArg (Expr.wide mark) (h.1 mark n)
  | .list mark items => congrArg (Expr.list mark) (Expr.readAll_readAll h items)
  | .int _ => rfl
  | .float _ => rfl
  | .text _ => rfl
  | .symbol _ => rfl

theorem Expr.readAll_readAll (h : cells'.Covers cells) : (items : List Code) →
    Expr.readAll cells' (Expr.readAll cells items) = Expr.readAll cells' items
  | [] => rfl
  | code :: rest => congrArg₂ List.cons (Expr.read_read h code) (Expr.readAll_readAll h rest)

end

mutual

/-- Reading a value a second time. -/
theorem Value.read_read (h : cells'.Covers cells) : (v : Value) →
    (v.read cells).read cells' = v.read cells'
  | .wide mark n => congrArg (Value.wide mark) (h.1 mark n)
  | .literal mark n => congrArg (Value.literal mark) (h.1 mark n)
  | .list mark items => congrArg (Value.list mark) (Expr.readAll_readAll h items)
  | .sequence mark items => congrArg (Value.sequence mark) (Value.readAll_readAll h items)
  | .proc p => congrArg Value.proc (Proc.read_read h p)
  | .library mark name members =>
    congrArg (Value.library mark name) (Value.readMembers_readMembers h members)
  | .object d => congrArg Value.object (Datum.read_read h d)
  | .nil => rfl
  | .bool _ => rfl
  | .int _ => rfl
  | .float _ => rfl
  | .text _ => rfl
  | .symbol _ => rfl
  | .machine _ => rfl

theorem Value.readAll_readAll (h : cells'.Covers cells) : (items : List Value) →
    Value.readAll cells' (Value.readAll cells items) = Value.readAll cells' items
  | [] => rfl
  | v :: rest => congrArg₂ List.cons (Value.read_read h v) (Value.readAll_readAll h rest)

/-- Reading the members of a library a second time. -/
theorem Value.readMembers_readMembers (h : cells'.Covers cells) :
    (members : List (String × Value)) →
    Value.readMembers cells' (Value.readMembers cells members) = Value.readMembers cells' members
  | [] => rfl
  | (name, v) :: rest =>
    congrArg₂ List.cons (congrArg (Prod.mk name) (Value.read_read h v))
      (Value.readMembers_readMembers h rest)

/-- Reading a procedure a second time. -/
theorem Proc.read_read (h : cells'.Covers cells) : (p : Proc) →
    (p.read cells).read cells' = p.read cells'
  | .method receiver name => congrArg (Proc.method · name) (Value.read_read h receiver)
  | .standard _ => rfl
  | .host _ => rfl
  | .machine .. => rfl
  | .function .. => rfl

/-- Reading host data a second time. -/
theorem Datum.read_read (h : cells'.Covers cells) : (d : Datum) →
    (d.read cells).read cells' = d.read cells'
  | .bytes mark row => congrArg (Datum.bytes mark) (h.2 mark row)
  | .array type items => congrArg (Datum.array type) (Datum.readAll_readAll h items)
  | .record type fields => congrArg (Datum.record type) (Datum.readFields_readFields h fields)
  | .reference id target => congrArg (Datum.reference id) (Datum.read_read h target)
  | .table id type byText entries =>
    congrArg (Datum.table id type byText) (Datum.readEntries_readEntries h entries)
  | .value v => congrArg Datum.value (Value.read_read h v)
  | .absent => rfl
  | .integer .. => rfl
  | .real .. => rfl
  | .text _ => rfl
  | .flag _ => rfl
  | .texts _ => rfl
  | .function .. => rfl
  | .named .. => rfl

/-- Reading host data a second time, item by item. -/
theorem Datum.readAll_readAll (h : cells'.Covers cells) : (items : List Datum) →
    Datum.readAll cells' (Datum.readAll cells items) = Datum.readAll cells' items
  | [] => rfl
  | d :: rest => congrArg₂ List.cons (Datum.read_read h d) (Datum.readAll_readAll h rest)

/-- Reading the fields of a record a second time. -/
theorem Datum.readFields_readFields (h : cells'.Covers cells) : (fields : List Field) →
    Datum.readFields cells' (Datum.readFields cells fields) = Datum.readFields cells' fields
  | [] => rfl
  | .field name visible embedded d :: rest =>
    congrArg₂ List.cons (congrArg (Field.field name visible embedded) (Datum.read_read h d))
      (Datum.readFields_readFields h rest)

/-- Reading the entries of a table a second time. -/
theorem Datum.readEntries_readEntries (h : cells'.Covers cells) :
    (entries : List (String × Datum)) →
    Datum.readEntries cells' (Datum.readEntries cells entries) = Datum.readEntries cells' entries
  | [] => rfl
  | (key, d) :: rest =>
    congrArg₂ List.cons (congrArg (Prod.mk key) (Datum.read_read h d))
      (Datum.readEntries_readEntries h rest)

end

end

-- ====================================================== nothing to read

mutual

/-- An expression without anything stored in it. -/
theorem Expr.read_untouched (h : cells.Untouched) : (code : Code) → code.read cells = code
  | .wide mark n => congrArg (Expr.wide mark) (h.1 mark n)
  | .list mark items => congrArg (Expr.list mark) (Expr.readAll_untouched h items)
  | .int _ => rfl
  | .float _ => rfl
  | .text _ => rfl
  | .symbol _ => rfl

/-- Expressions without anything stored in them. -/
theorem Expr.readAll_untouched (h : cells.Untouched) : (items : List Code) →
    Expr.readAll cells items = items
  | [] => rfl
  | code :: rest => congrArg₂ List.cons (Expr.read_untouched h code) (Expr.readAll_untouched h rest)

end

mutual

/-- A value without anything stored in it. -/
theorem Value.read_untouched (h : cells.Untouched) : (v : Value) → v.read cells = v
  | .wide mark n => congrArg (Value.wide mark) (h.1 mark n)
  | .literal mark n => congrArg (Value.literal mark) (h.1 mark n)
  | .list mark items => congrArg (Value.list mark) (Expr.readAll_untouched h items)
  | .sequence mark items => congrArg (Value.sequence mark) (Value.readAll_untouched h items)
  | .proc p => congrArg Value.proc (Proc.read_untouched h p)
  | .library mark name members =>
    congrArg (Value.library mark name) (Value.readMembers_untouched h members)
  | .object d => congrArg Value.object (Datum.read_untouched h d)
  | .nil => rfl
  | .bool _ => rfl
  | .int _ => rfl
  | .float _ => rfl
  | .text _ => rfl
  | .symbol _ => rfl
  | .machine _ => rfl

/-- Values without anything stored in them. -/
theorem Value.readAll_untouched (h : cells.Untouched) : (items : List Value) →
    Value.readAll cells items = items
  | [] => rfl
  | v :: rest => congrArg₂ List.cons (Value.read_untouched h v) (Value.readAll_untouched h rest)

/-- Members of a library without anything stored in them. -/
theorem Value.readMembers_untouched (h : cells.Untouched) : (members : List (String × Value)) →
    Value.readMembers cells members = members
  | [] => rfl
  | (name, v) :: rest =>
    congrArg₂ List.cons (congrArg (Prod.mk name) (Value.read_untouched h v))
      (Value.readMembers_untouched h rest)

/-- A procedure without anything stored in its receiver. -/
theorem Proc.read_untouched (h : cells.Untouched) : (p : Proc) → p.read cells = p
  | .method receiver name => congrArg (Proc.method · name) (Value.read_untouched h receiver)
  | .standard _ => rfl
  | .host _ => rfl
  | .machine .. => rfl
  | .function .. => rfl

/-- Host data without anything stored in it. -/
theorem Datum.read_untouched (h : cells.Untouched) : (d : Datum) → d.read cells = d
  | .bytes mark row => congrArg (Datum.bytes mark) (h.2 mark row)
  | .array type items => congrArg (Datum.array type) (Datum.readAll_untouched h items)
  | .record type fields => congrArg (Datum.record type) (Datum.readFields_untouched h fields)
  | .reference id target => congrArg (Datum.reference id) (Datum.read_untouched h target)
  | .table id type byText entries =>
    congrArg (Datum.table id type byText) (Datum.readEntries_untouched h entries)
  | .value v => congrArg Datum.value (Value.read_untouched h v)
  | .absent => rfl
  | .integer .. => rfl
  | .real .. => rfl
  | .text _ => rfl
  | .flag _ => rfl
  | .texts _ => rfl
  | .function .. => rfl
  | .named .. => rfl

/-- Items of host data without anything stored in them. -/
theorem Datum.readAll_untouched (h : cells.Untouched) : (items : List Datum) →
    Datum.readAll cells items = items
  | [] => rfl
  | d :: rest => congrArg₂ List.cons (Datum.read_untouched h d) (Datum.readAll_untouched h rest)

/-- Fields of a record without anything stored in them. -/
theorem Datum.readFields_untouched (h : cells.Untouched) : (fields : List Field) →
    Datum.readFields cells fields = fields
  | [] => rfl
  | .field name visible embedded d :: rest =>
    congrArg₂ List.cons (congrArg (Field.field name visible embedded) (Datum.read_untouched h d))
      (Datum.readFields_untouched h rest)

/-- Entries of a table without anything stored in them. -/
theorem Datum.readEntries_untouched (h : cells.Untouched) :
    (entries : List (String × Datum)) → Datum.readEntries cells entries = entries
  | [] => rfl
  | (key, d) :: rest =>
    congrArg₂ List.cons (congrArg (Prod.mk key) (Datum.read_untouched h d))
      (Datum.readEntries_untouched h rest)

end

-- ====================================================== taking apart

namespace Value

/-- Quoting and reading can be done in either order. -/
theorem read_ofCode (cells : Cells) (code : Code) :
    (Value.ofCode code).read cells = .ofCode (code.read cells) := by
  cases code <;> rfl

end Value

namespace Datum

/-- Host data crosses the border as it reads. -/
theorem received_read (cells : Cells) (d : Datum) :
    (d.read cells).received = d.received.read cells := by
  cases d with
  | integer type n =>
    show (Datum.integer type n).received = (Datum.integer type n).received.read cells
    simp only [Datum.received]
    split <;> rfl
  | texts items =>
    show Value.texts items = (Value.texts items).read cells
    simp [Value.texts, Value.row, Value.read, Function.comp_def]
  | _ => rfl

/-- Host data becomes a member as it reads. -/
theorem toValue_read (cells : Cells) (name : String) (d : Datum) :
    (d.read cells).toValue name = (d.toValue name).read cells := by
  have hreceived := received_read cells d
  cases d with
  | function type key => cases key <;> rfl
  | _ => exact hreceived

/-- An entry of a table that is read. -/
theorem entry?_read (cells : Cells) (name : String) (d : Datum) :
    Datum.entry? name (d.read cells) = ( d.entry? name).map (Datum.read cells) := by
  cases d with
  | table id type byText entries =>
    cases byText with
    | false => rfl
    | true =>
      show (Datum.readEntries cells entries).lookup name
        = (entries.lookup name).map (Datum.read cells)
      induction entries with
      | nil => rfl
      | cons entry rest ih =>
        obtain ⟨key, d⟩ := entry
        rw [Datum.readEntries, List.lookup_cons, List.lookup_cons, ih]
        split <;> rfl
  | _ => rfl

section

variable (cells : Cells) (name : String)

mutual

/-- A field of a record that is read. -/
theorem field?_read : (d : Datum) →
    (d.read cells).field? name = (d.field? name).map fun found => (found.1, found.2.read cells)
  | .record type fields => by
    show (Datum.ownField? name (Datum.readFields cells fields)).or
      (Datum.embeddedField? name (Datum.readFields cells fields)) = _
    rw [ownField?_read fields, embeddedField?_read fields, Datum.field?, ← Option.map_or]
  | .reference id target => field?_read target
  | .table .. => rfl
  | .array .. => rfl
  | .bytes .. => rfl
  | .value _ => rfl
  | .absent => rfl
  | .integer .. => rfl
  | .real .. => rfl
  | .text _ => rfl
  | .flag _ => rfl
  | .texts _ => rfl
  | .function .. => rfl
  | .named .. => rfl

/-- A field of the record itself. -/
theorem ownField?_read : (fields : List Field) →
    Datum.ownField? name (Datum.readFields cells fields)
      = (Datum.ownField? name fields).map fun found => (found.1, found.2.read cells)
  | [] => rfl
  | .field own visible embedded d :: rest => by
    rw [Datum.readFields, Datum.ownField?, Datum.ownField?, ownField?_read rest]
    split <;> rfl

/-- A field of an embedded record. -/
theorem embeddedField?_read : (fields : List Field) →
    Datum.embeddedField? name (Datum.readFields cells fields)
      = (Datum.embeddedField? name fields).map fun found => (found.1, found.2.read cells)
  | [] => rfl
  | .field own visible embedded d :: rest => by
    rw [Datum.readFields, Datum.embeddedField?, Datum.embeddedField?, embeddedField?_read rest,
      field?_read d]
    split
    · rw [Option.map_or]
    · rfl

end

end

end Datum

end LispShell
