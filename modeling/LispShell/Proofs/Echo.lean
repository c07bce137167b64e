/-
A printed data value evaluates to itself.

Data are integers, floats, truth values, texts that are printed without
escapes, and sequences of data. What such a value is printed as is read as
one form (`Value.form`), and that form evaluates to the value again. A
sequence is printed like a call. It is none, and no special form either,
because its first item is printed as a number, a list, a string literal or
the name of a truth value, and none of these evaluates to a procedure.

What comes back is a new sequence at every level and a new integer for
every wide literal, so it has identities of its own; apart from these
(`Value.unmarked`) it is the value. Nothing was ever stored under the
identities that the literals get when the text is read, nor under those of
the new integers, so all of them hold what is written. On the way the
machine is asked whether to go on, and nothing else happens to it
(`Machine.Unchanged`).
-/
import LispShell.Proofs.Cells
import LispShell.Proofs.Orderly
import LispShell.Proofs.Printing

namespace LispShell

variable {σ : Type}

-- ====================================================== quoted texts

namespace Text

/-- The bytes that continue a letter are past ASCII. -/
theorem trails?_bytes {n k count : Nat} {rest : List Char} (h : trails? n count rest = some k) :
    ∀ b ∈ rest.take count, 0x80 ≤ b.toNat := by
  induction count generalizing n rest with
  | zero => simp
  | succ count ih =>
    cases rest with
    | nil => simp
    | cons b rest =>
      unfold trails? trail? at h
      by_cases hb : 0x80 ≤ b.toNat && b.toNat < 0xc0
      · rw [if_pos hb] at h
        rw [Bool.and_eq_true, decide_eq_true_eq] at hb
        rw [List.take_succ_cons]
        exact List.forall_mem_cons.2 ⟨hb.1, ih h⟩
      · rw [if_neg hb] at h
        cases h

/-- So are those of a letter that is spelled out. -/
theorem spelled?_bytes {n least count k : Nat} {rest : List Char} {c : Char}
    (h : spelled? n least count rest = some (c, k)) : ∀ b ∈ rest.take k, 0x80 ≤ b.toNat := by
  unfold spelled? at h
  cases htrails : trails? n count rest with
  | none =>
    rw [htrails] at h
    cases h
  | some number =>
    rw [htrails, Option.bind_eq_bind, Option.bind_some] at h
    split at h
    · cases h
      exact trails?_bytes htrails
    · cases h

/-- An ASCII byte is a letter of its own. -/
theorem Letter.first_ascii {b c : Char} {rest : List Char} (hc : c.toNat < 0x80)
    (h : c ∈ (Letter.first b rest).bytes) : Letter.first b rest = ⟨[c], some c⟩ := by
  by_cases hb : b.toNat < 0x80
  · have hfirst : Letter.first b rest = ⟨[b], some b⟩ := by
      unfold Letter.first charAt?
      rw [if_pos hb]
      rfl
    rw [hfirst] at h ⊢
    rw [List.mem_singleton.1 h]
  · -- all bytes of any other letter are past ASCII
    have hlarge : ∀ x ∈ (Letter.first b rest).bytes, 0x80 ≤ x.toNat := by
      unfold Letter.first
      split
      · next d count hchar =>
        refine List.forall_mem_cons.2 ⟨Nat.le_of_not_lt hb, ?_⟩
        unfold charAt? at hchar
        dsimp only at hchar
        rw [if_neg hb] at hchar
        split at hchar
        · cases hchar
        split at hchar
        · exact spelled?_bytes hchar
        split at hchar
        · exact spelled?_bytes hchar
        split at hchar
        · exact spelled?_bytes hchar
        · cases hchar
      · exact List.forall_mem_singleton.2 (Nat.le_of_not_lt hb)
    exact absurd hc (Nat.not_lt.2 (hlarge c h))

/-- An ASCII byte in a text is a letter of its own. -/
theorem lettersFrom_ascii {skip : Nat} {cs : List Char} {l : Letter} {c : Char}
    (hl : l ∈ lettersFrom skip cs) (hc : c.toNat < 0x80) (h : c ∈ l.bytes) : l = ⟨[c], some c⟩ := by
  fun_induction lettersFrom skip cs with
  | case1 => cases hl
  | case2 skip _ rest ih => exact ih hl
  | case3 b rest first ih =>
    rcases List.mem_cons.1 hl with rfl | hl
    · exact Letter.first_ascii hc h
    · exact ih hl

/-- A quote or a backslash costs a further backslash. -/
theorem count_escapeLetter {s : String} {l : Letter} (hl : l ∈ letters s) :
    l.bytes.count '\\' + l.bytes.count '"' ≤ (escapeLetter l).count '\\' := by
  by_cases hquote : '"' ∈ l.bytes
  · rw [lettersFrom_ascii hl (by decide) hquote]
    decide
  by_cases hslash : '\\' ∈ l.bytes
  · rw [lettersFrom_ascii hl (by decide) hslash]
    decide
  · rw [List.count_eq_zero.2 hquote, List.count_eq_zero.2 hslash]
    exact Nat.zero_le _

/-- What is quoted without escapes holds no quote. -/
theorem no_quote_of_quote_eq {s : String} (h : quote s = "\"" ++ s ++ "\"") : '"' ∉ s.toList := by
  have hs : (letters s).flatMap (·.bytes) = s.toList := flatMap_lettersFrom 0 s.toList
  have hescaped : (letters s).flatMap escapeLetter = s.toList := by
    have hlist := congrArg String.toList h
    simpa [quote] using hlist
  have hcount : ∀ ls : List Letter, (∀ l ∈ ls, l ∈ letters s) →
      (ls.flatMap (·.bytes)).count '\\' + (ls.flatMap (·.bytes)).count '"'
        ≤ (ls.flatMap escapeLetter).count '\\' := by
    intro ls hls
    induction ls with
    | nil => exact Nat.le_refl _
    | cons l ls ih =>
      obtain ⟨hl, hls⟩ := List.forall_mem_cons.1 hls
      have hfirst := count_escapeLetter hl
      have hrest := ih hls
      simp only [List.flatMap_cons, List.count_append]
      omega
  have hall := hcount (letters s) fun _ hl => hl
  rw [hescaped, hs] at hall
  exact List.count_eq_zero.1 (by omega)

end Text

-- ====================================================== data

namespace Value

/-- A value that is printed so that it can be read: a number, a truth
value, a text without escapes, or a sequence of such. -/
inductive IsData : Value → Prop where
  | int (n : Int64) : IsData (.int n)
  | wide {mark : Mark} {n : Int} (large : isNarrow n = false) : IsData (.wide mark n)
  | float (x : Float) : IsData (.float x)
  | bool (b : Bool) : IsData (.bool b)
  | text {s : String} (unescaped : Text.quote s = "\"" ++ s ++ "\"") : IsData (.text s)
  | sequence {mark : Mark} {items : List Value} (data : ∀ v ∈ items, IsData v) :
      IsData (.sequence mark items)

mutual

/-- The form that a data value is printed as. -/
def form : Value → Form
  | .int n => .int n
  | .wide _ n => .wide () n
  | .float x => .float x
  | .text s => .symbol ("\"" ++ s ++ "\"")
  | .sequence _ items => .list () (formAll items)
  | v => .symbol v.repr

/-- The forms of data values. -/
def formAll : List Value → List Form
  | [] => []
  | v :: rest => v.form :: formAll rest

end

mutual

/-- The value without the identities of its sequences and wide integers. -/
def unmarked : Value → Value
  | .wide _ n => .wide .blank n
  | .sequence _ items => .sequence .blank (unmarkedAll items)
  | v => v

/-- The values without these identities. -/
def unmarkedAll : List Value → List Value
  | [] => []
  | v :: rest => v.unmarked :: unmarkedAll rest

end

mutual

/-- How deep the sequences of a value are nested. -/
def nesting : Value → Nat
  | .sequence _ items => nestingAll items + 1
  | _ => 0

/-- How deep the sequences of values are nested. -/
def nestingAll : List Value → Nat
  | [] => 0
  | v :: rest => max v.nesting (nestingAll rest)

end

end Value

-- ====================================================== what data are read as

namespace Decimal

/-- What starts with a quote is no integer. -/
theorem int?_quote (body : List Char) : int? ('"' :: body) = none := rfl

/-- Nor is it a float. -/
theorem float?_quote (body : List Char) : float? ('"' :: body) = none := by
  have hsigned : signed ('"' :: body) = (false, '"' :: body) := rfl
  have hspecial : special? ('"' :: body) = none := by
    unfold special?
    rw [hsigned]
    simp [String.ext_iff, lowerLetter]
  have hdecimal : decimalFloat? false ('"' :: body) = none := rfl
  unfold float?
  rw [hspecial, hsigned]
  show (if _ then none else decimalFloat? false ('"' :: body)) = none
  rw [hdecimal, ite_self]

end Decimal

namespace Reader

open Token

/-- A string literal is a symbol. -/
theorem Reads.literal {s : String} (h : '"' ∉ s.toList) :
    Reads ("\"" ++ s ++ "\"") [.symbol ("\"" ++ s ++ "\"")] := by
  have htext : "\"" ++ s ++ "\"" = String.ofList ('"' :: (s.toList ++ ['"'])) := by
    rw [String.ext_iff]
    simp
  have hreads := Reads.atom (IsAtom.literal h)
  rw [List.cons_append] at hreads
  simp only [Expr.ofToken_eq, Expr.floatOrSymbol, String.toList_ofList, Decimal.int?_quote,
    Decimal.float?_quote] at hreads
  rw [htext]
  exact hreads

/-- A printed integer is read as that integer. -/
theorem Reads.renderInt (n : Int) : Reads (Decimal.renderInt n) [.ofInt n] := by
  have hreads := Reads.atom (isAtom_of_written (Decimal.renderInt_written n))
  simp only [Expr.ofToken_eq, Decimal.int?_renderInt] at hreads
  exact hreads

/-- A printed float is read as that float. -/
theorem Reads.renderFloat (x : Float) : Reads (Decimal.renderFloat x) [.float x] := by
  have hreads := Reads.atom (isAtom_of_written (Decimal.renderFloat_written x))
  simp only [Expr.ofToken_eq, Expr.floatOrSymbol, Decimal.int?_renderFloat,
    Decimal.float?_renderFloat] at hreads
  exact hreads

end Reader

namespace Value

/-- A data value is printed as its form. -/
theorem IsData.reads {v : Value} (h : v.IsData) : Reader.Reads v.repr [v.form] := by
  induction h with
  | int n =>
    have hreads := Reader.Reads.renderInt n.toInt
    rwa [Expr.ofInt_toInt] at hreads
  | @wide mark n large =>
    have hform : (Expr.ofInt n : Form) = .wide () n := if_neg (by rw [← isNarrow, large]; decide)
    have hreads := Reader.Reads.renderInt n
    rwa [hform] at hreads
  | float x => exact .renderFloat x
  | bool b => cases b <;> exact .atom (.word (by decide) (List.all_eq_true.1 rfl))
  | @text s unescaped =>
    show Reader.Reads (Text.quote s) _
    rw [unescaped]
    exact .literal (Text.no_quote_of_quote_eq unescaped)
  | @sequence mark items data ih =>
    have hitems : Reader.Reads (Text.join " " (reprAll items)) (formAll items) := by
      rw [← Reader.spaced_const]
      clear data
      induction items with
      | nil => exact .nil
      | cons v items ihItems =>
        obtain ⟨hv, ih⟩ := List.forall_mem_cons.1 ih
        exact hv.cons (ihItems ih) Reader.blank_space
    exact hitems.list

end Value

-- ====================================================== what the form evaluates to

namespace Expr

mutual

theorem le_stamp (session serial : Nat) : ∀ form : Form, serial ≤ (form.stamp session serial).2
  | .int _ | .float _ | .text _ | .symbol _ => Nat.le_refl serial
  | .wide _ _ => Nat.le_succ serial
  | .list _ items => Nat.le_trans (Nat.le_succ serial) (le_stampAll session (serial + 1) items)

theorem le_stampAll (session serial : Nat) :
    ∀ forms : List Form, serial ≤ (stampAll session serial forms).2
  | [] => Nat.le_refl serial
  | form :: rest => Nat.le_trans (le_stamp session serial form) (le_stampAll session _ rest)

end

end Expr

/-- Nothing happened to the machine: it was asked whether to go on, and
made identities. -/
structure Machine.Unchanged (m m' : Machine σ) : Prop where
  frames : m'.frames = m.frames
  imports : m'.imports = m.imports
  host : m'.host = m.host
  cells : m'.cells = m.cells
  journal : ∃ n, m'.journal
    = List.replicate n (.queried m.frames m.imports.imported m.cells) ++ m.journal

namespace Machine.Unchanged

/-- Nothing happened, twice. -/
theorem trans {m₁ m₂ m₃ : Machine σ} (h : m₁.Unchanged m₂) (h' : m₂.Unchanged m₃) :
    m₁.Unchanged m₃ where
  frames := h'.frames.trans h.frames
  imports := h'.imports.trans h.imports
  host := h'.host.trans h.host
  cells := h'.cells.trans h.cells
  journal := by
    obtain ⟨n, hn⟩ := h.journal
    obtain ⟨k, hk⟩ := h'.journal
    refine ⟨k + n, ?_⟩
    rw [hk, hn, h.frames, h.imports, h.cells, List.replicate_add, List.append_assoc]

/-- Identities were made. -/
theorem made (m : Machine σ) (made : Nat) : m.Unchanged { m with made } :=
  ⟨rfl, rfl, rfl, rfl, 0, rfl⟩

theorem asked (m : Machine σ) : m.Unchanged (Eval.asked m) :=
  ⟨rfl, rfl, rfl, rfl, 1, rfl⟩

end Machine.Unchanged

namespace Eval

variable {host : Host σ} {site : Site} {inner : Inner σ} {m : Machine σ}

/-- A symbol that is bound. -/
theorem lookup_bound {name : String} {v : Value} (hname : isLiteral name = false)
    (h : m.frames.lookup site.frame name = some v) :
    lookup site name m = .done (.ok v) m := by
  unfold lookup
  rw [if_neg (by rw [hname]; decide)]
  simp only [bind, Eval.bind, get, h]
  rfl

/-- A string literal is its text. -/
theorem lookup_literal (s : String) :
    lookup site ("\"" ++ s ++ "\"") m = .done (.ok (.text s)) m := by
  have hliteral : isLiteral ("\"" ++ s ++ "\"") = true := by simp [isLiteral]
  have hunquote : unquote ("\"" ++ s ++ "\"") = s := by
    have hlist : ("\"" ++ s ++ "\"").toList = '"' :: (s.toList ++ ['"']) := by simp
    unfold unquote
    rw [hlist]
    cases hs : s.toList with
    | nil => exact (String.toList_eq_nil_iff.1 hs).symm
    | cons c cs =>
      show String.ofList ((c :: cs) ++ ['"']).dropLast = s
      rw [List.dropLast_concat, ← hs, String.ofList_toList]
  unfold lookup
  rw [hliteral, hunquote]
  rfl

/-- The names of the truth values are bound to them. -/
def Truths (frame : FrameId) (m : Machine σ) : Prop :=
  ∀ b, m.frames.lookup frame (Value.bool b).repr = some (.bool b)

/-- The form of a value, stamped with numbers under which nothing is
stored, gives the value, and nothing else happens. -/
def Echoes (inner : Inner σ) (frame : FrameId) (v : Value) : Prop :=
  ∀ session serial m, Truths frame m → m.cells.after session ≤ serial → ∃ w m',
    inner (v.form.stamp session serial).1 m = .done (.ok w) m'
      ∧ (w.read m.cells).unmarked = v.unmarked ∧ m.Unchanged m'

/-- Forms one after the other. -/
theorem collect_echoes {frame : FrameId} {items : List Value}
    (h : ∀ v ∈ items, Echoes inner frame v) {session serial : Nat} (hm : Truths frame m)
    (hserial : m.cells.after session ≤ serial) :
    ∃ ws m', collect inner (Expr.stampAll session serial (Value.formAll items)).1 m
        = .done (.ok ws) m'
      ∧ Value.unmarkedAll (Value.readAll m.cells ws) = Value.unmarkedAll items
      ∧ m.Unchanged m' := by
  induction items generalizing serial m with
  | nil => exact ⟨[], m, rfl, rfl, .made m m.made⟩
  | cons v items ih =>
    obtain ⟨hv, hitems⟩ := List.forall_mem_cons.1 h
    obtain ⟨w, m₁, hw, hsame, hm₁⟩ := hv session serial m hm hserial
    have htruths : Truths frame m₁ := by
      intro b
      rw [hm₁.frames]
      exact hm b
    have hnext : m₁.cells.after session ≤ (v.form.stamp session serial).2 := by
      rw [hm₁.cells]
      exact Nat.le_trans hserial (Expr.le_stamp session serial v.form)
    obtain ⟨ws, m₂, hws, hrest, hm₂⟩ := ih hitems htruths hnext
    refine ⟨w :: ws, m₂, (bind_done hw).trans (bind_done hws), ?_, hm₁.trans hm₂⟩
    rw [hm₁.cells] at hrest
    rw [Value.readAll, Value.unmarkedAll, Value.unmarkedAll, hsame, hrest]

/-- A data value in front is taken for no special form. -/
theorem evalList_data {v : Value} (h : v.IsData) (session serial : Nat) (form : Code)
    (rest : List Code) :
    evalList host site inner form ((v.form.stamp session serial).1 :: rest)
      = apply host site inner (v.form.stamp session serial).1 rest := by
  cases h with
  | int | wide | float | sequence => rfl
  | bool b => cases b <;> rfl
  | @text s _ =>
    have hne : ∀ name, isLiteral name = false → "\"" ++ s ++ "\"" ≠ name := by
      rintro name hname rfl
      simp [isLiteral] at hname
    show evalList host site inner form (.symbol ("\"" ++ s ++ "\"") :: rest)
      = apply host site inner (.symbol ("\"" ++ s ++ "\"")) rest
    rw [evalList.eq_def]
    dsimp only
    split
    all_goals first
      | rfl
      | next heq => exact absurd (Expr.symbol.inj heq) (hne _ (by decide))

/-- What a data value gives is no procedure. -/
theorem not_proc_of_data {cells : Cells} {v w : Value} (h : v.IsData)
    (hw : (w.read cells).unmarked = v.unmarked) (p : Proc) : w ≠ .proc p := by
  rintro rfl
  cases h <;> cases hw

/-- A list whose first item has a value that is no procedure. -/
theorem apply_row {head : Code} {rest : List Code} {w : Value} {ws : List Value} {m' : Machine σ}
    (h : collect inner (head :: rest) m = .done (.ok (w :: ws)) m') (hw : ∀ p, w ≠ .proc p) :
    apply host site inner head rest m
      = .done (.ok (.sequence (.made site.session (m'.serial site.session)) (w :: ws)))
          { m' with made := m'.made + 1 } := by
  have hcollect : Eval.bind (inner head) (fun v => Eval.bind (collect inner rest) fun vs =>
      Eval.pure (v :: vs)) m = .done (.ok (w :: ws)) m' := h
  obtain ⟨v, m₁, hhead, hcollect⟩ := bind_eq_ok hcollect
  obtain ⟨vs, m₂, hrest, hdone⟩ := bind_eq_ok hcollect
  cases hdone
  refine (bind_done hhead).trans ((bind_done hrest).trans ?_)
  cases w with
  | proc p => exact absurd rfl (hw p)
  | _ => rfl

/-- The items of a sequence, evaluated as a list. -/
theorem evalList_echoes {mark : Mark} {items : List Value} (hdata : ∀ v ∈ items, v.IsData)
    (h : ∀ v ∈ items, Echoes inner site.frame v) {session serial : Nat} (form : Code)
    (hm : Truths site.frame m) (hserial : m.cells.after session ≤ serial) :
    ∃ w m', evalList host site inner form
        (Expr.stampAll session serial (Value.formAll items)).1 m = .done (.ok w) m'
      ∧ (w.read m.cells).unmarked = (Value.sequence mark items).unmarked ∧ m.Unchanged m' := by
  obtain ⟨ws, m', hcollect, hsame, hm'⟩ := collect_echoes h hm hserial
  have hrow : ∀ mark', ((Value.sequence mark' ws).read m.cells).unmarked
      = (Value.sequence mark items).unmarked := by
    intro mark'
    rw [Value.read, Value.unmarked, Value.unmarked, hsame]
  cases items with
  | nil => exact ⟨_, _, rfl, rfl, .made m _⟩
  | cons v items =>
    cases ws with
    | nil => cases hsame
    | cons w ws =>
      have hw : (w.read m.cells).unmarked = v.unmarked := (List.cons.inj hsame).1
      have hv := hdata v List.mem_cons_self
      have happly : apply host site inner (v.form.stamp session serial).1 _ m = _ :=
        apply_row hcollect (not_proc_of_data hv hw)
      exact ⟨_, _, (congrFun (evalList_data hv ..) m).trans happly, hrow _, hm'.trans (.made m' _)⟩

end Eval

namespace Value

/-- An item is nested at most as deep as all of them. -/
theorem nesting_le_nestingAll {v : Value} {items : List Value} (hv : v ∈ items) :
    v.nesting ≤ nestingAll items := by
  induction items with
  | nil => cases hv
  | cons w items ih =>
    rw [nestingAll]
    rcases List.mem_cons.1 hv with rfl | hv
    · exact Nat.le_max_left _ _
    · exact Nat.le_trans (ih hv) (Nat.le_max_right _ _)

/-- The form of a data value gives the value, if the depth suffices. -/
theorem IsData.echoes {v : Value} (h : v.IsData) {host : Host σ} {site : Site}
    (hpatience : site.patience = none) {depth : Nat} (hdepth : v.nesting ≤ depth) :
    Eval.Echoes (Eval.eval host site (depth + 1)) site.frame v := by
  obtain ⟨session, frame, patience⟩ := site
  obtain rfl : patience = none := hpatience
  induction h generalizing depth with
  | int n => exact fun _ _ m _ _ => ⟨.int n, _, rfl, rfl, .asked m⟩
  -- neither the literal nor the integer that is made of it has anything stored yet
  | @wide mark n _ =>
    intro stamps serial m _ hserial
    have hliteral : m.cells.whole (.made stamps serial) n = n := Cells.whole_of_after_le hserial n
    have hnew : m.cells.whole (.made session (m.serial session)) n = n :=
      Cells.whole_of_after_le (Nat.le_add_left _ _) n
    refine ⟨_, _, rfl, ?_, (Machine.Unchanged.asked m).trans (.made _ _)⟩
    show Value.wide .blank (m.cells.whole (.made session (m.serial session))
      (m.cells.whole (.made stamps serial) n)) = .wide .blank n
    rw [hliteral, hnew]
  | float x => exact fun _ _ m _ _ => ⟨.float x, _, rfl, rfl, .asked m⟩
  | bool b =>
    have hname : isLiteral (Value.bool b).repr = false := by cases b <;> decide
    intro _ _ m hm _
    exact ⟨.bool b, _, Eval.lookup_bound hname (hm b), rfl, .asked m⟩
  | @text s _ => exact fun _ _ m _ _ => ⟨.text s, _, Eval.lookup_literal s, rfl, .asked m⟩
  | @sequence mark items data ih =>
    rw [nesting] at hdepth
    obtain ⟨depth, rfl⟩ : ∃ d, depth = d + 1 := ⟨depth - 1, by omega⟩
    have hitems : ∀ v ∈ items, Eval.Echoes (Eval.eval host ⟨session, frame, none⟩ (depth + 1))
        (Site.mk session frame none).frame v := by
      intro v hv
      have hle := nesting_le_nestingAll hv
      exact ih v hv (by omega)
    intro stamps serial m hm hserial
    have hasked : Eval.Truths (Site.mk session frame none).frame (Eval.asked m) := hm
    obtain ⟨w, m', heval, hsame, hm'⟩ :=
      Eval.evalList_echoes data hitems _ hasked (Nat.le_succ_of_le hserial)
    exact ⟨w, m', heval, hsame, (Machine.Unchanged.asked m).trans hm'⟩

end Value

/-- A printed data value evaluates to itself. Where the names of the truth
values have their standard bindings, and the depth suffices, the text of a
data value is evaluated without a failure, to a value that is identical up
to the identities of its sequences and wide integers. Nothing is printed,
bound, imported, stored or changed in the host: the machine is only asked
whether to go on. -/
theorem Interpreter.evalSource_repr {v : Value} (hv : v.IsData) {i : Interpreter σ}
    (hpatience : i.site.patience = none) (hdepth : v.nesting < i.depth) {m : Machine σ}
    (htrue : m.frames.lookup i.site.frame "true" = some (.bool true))
    (hfalse : m.frames.lookup i.site.frame "false" = some (.bool false)) :
    ∃ w m', i.evalSource v.repr m = .done (.ok w) m'
      ∧ (w.read m'.cells).unmarked = v.unmarked ∧ m.Unchanged m' := by
  obtain ⟨host, site, depth⟩ := i
  obtain ⟨depth, rfl⟩ : ∃ d, depth = d + 1 := Nat.exists_eq_add_one.2 (Nat.zero_lt_of_lt hdepth)
  have htruths : Eval.Truths site.frame m := by
    intro b
    cases b
    · exact hfalse
    · exact htrue
  -- the literals of the text get numbers from here on
  have hserial : m.cells.after site.session ≤ m.serial site.session := Nat.le_add_left _ _
  obtain ⟨w, m', heval, hsame, hm'⟩ := hv.echoes hpatience (Nat.le_of_lt_succ hdepth) site.session
    (m.serial site.session)
    { m with made := (v.form.stamp site.session (m.serial site.session)).2 } htruths hserial
  rw [← hm'.cells] at hsame
  refine ⟨w, m', ?_, hsame, (Machine.Unchanged.made m _).trans hm'⟩
  unfold evalSource
  rw [hv.reads.readAll_eq]
  exact Eval.bind_done heval

/-- A machine with a frame inside the root frame. -/
def Machine.framed : Machine Platform where
  frames := [⟨rootMembers, none⟩, ⟨[("x", .int 1)], some 0⟩]
  imports := ⟨[], []⟩
  host := Sample.platform
  cells := []
  made := 0
  queries := 0
  journal := []

/-- A sequence whose first item is one too, with a number past 64 bits. -/
def Value.motley : Value :=
  .sequence .blank [.sequence .blank [.wide .blank (-18446744073709551616)], .text "if (",
    .bool true, .float Binary64.nan, .int 5]

/-- The case of a sequence with every kind of item, from its text. -/
theorem Interpreter.evalSource_repr_motley :
    let i : Interpreter Platform := ⟨Platform.host, ⟨0, 1, none⟩, 3⟩
    Value.motley.repr = "((-18446744073709551616) \"if (\" true NaN 5)"
      ∧ Value.motley.IsData
      ∧ ∃ w m', i.evalSource "((-18446744073709551616) \"if (\" true NaN 5)" .framed
          = .done (.ok w) m'
        ∧ (w.read m'.cells).unmarked = .motley ∧ Machine.framed.Unchanged m' := by
  intro i
  have hrepr : Value.motley.repr = "((-18446744073709551616) \"if (\" true NaN 5)" := rfl
  have hdata : Value.motley.IsData := by
    refine .sequence ?_
    simp only [List.forall_mem_cons]
    exact ⟨.sequence (List.forall_mem_singleton.2 (.wide (by decide))), .text (by decide), .bool _,
      .float _, .int _, List.forall_mem_nil _⟩
  have hpath : Machine.framed.frames.path 1 = [1, 0] := by
    simp [Frames.path, Machine.framed]
  refine ⟨hrepr, hdata, ?_⟩
  rw [← hrepr]
  refine evalSource_repr hdata rfl (by decide) ?_ ?_
  · unfold Frames.lookup
    rw [hpath]
    rfl
  · unfold Frames.lookup
    rw [hpath]
    rfl

end LispShell
