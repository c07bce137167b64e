/-
Every integer has one representation.

An integer that fits 64 bits is an `int`, any other one is `wide`, or a
`literal` while it is quoted. Everything that makes integers chooses by
size, so what a session can come to hold keeps to this, at any depth of
sequences, quoted lists and libraries (`integers_canonical`); and then two
integers are equal as numbers only if they are the same value.

There is one way around it. A wide integer has methods that set it in
place, and it stays wide whatever number is stored in it (`setters_break`).
So the statement is about histories in which no number that fits 64 bits is
stored in a wide integer (`Event.shrinks`).

# Method

`Value.Part w v` says that `w` occurs in `v`; what a session holds is
`Canonical` if no integer that occurs in it is wide without need. These
are terms in the sense of `Terms`: it is shown for each primitive of the
evaluator that it keeps to them, and for each move at a desk that it
leaves such a desk (`Desk.Canonical`).
-/
import LispShell.Proofs.Drivers
import LispShell.Proofs.Isolation

namespace LispShell

variable {σ : Type}

-- ====================================================== what occurs in a value

namespace Value

/-- The first value occurs in the second: it is that value, or occurs in an
item of a sequence or a list, in a member of a library, in the value a
method was taken from, or in what can be got of an object. -/
inductive Part (w : Value) : Value → Prop where
  | self : Part w w
  | item {mark : Mark} {items : List Value} {v : Value} (hv : v ∈ items) (h : Part w v) :
      Part w (.sequence mark items)
  | code {mark : Mark} {items : List Code} {c : Code} (hc : c ∈ items) (h : Part w (.ofCode c)) :
      Part w (.list mark items)
  | member {mark : Mark} {name : String} {members : List (String × Value)} {entry : String × Value}
      (hentry : entry ∈ members) (h : Part w entry.2) : Part w (.library mark name members)
  | receiver {v : Value} {name : String} (h : Part w v) : Part w (.proc (.method v name))
  | entry {d e : Datum} {name : String} (he : d.entry? name = some e)
      (h : Part w (e.toValue name)) : Part w (.object d)
  | field {d f : Datum} {name : String} (hf : d.field? name = some (true, f))
      (h : Part w (f.toValue name)) : Part w (.object d)

/-- What occurs in a part occurs in the whole. -/
theorem Part.trans {u v w : Value} (h : Part u v) (h' : Part v w) : Part u w := by
  induction h' with
  | self => exact h
  | item hv _ ih => exact .item hv ih
  | code hc _ ih => exact .code hc ih
  | member hentry _ ih => exact .member hentry ih
  | receiver _ ih => exact .receiver ih
  | entry he _ ih => exact .entry he ih
  | field hf _ ih => exact .field hf ih

/-- What occurs in a value that is read is something that occurs in it,
read. -/
theorem Part.of_read {cells : Cells} {v w : Value} (h : Part w (v.read cells)) :
    ∃ u, Part u v ∧ w = u.read cells := by
  -- reading keeps the shape, so a part of what is read is what a part is read as
  generalize hread : v.read cells = r at h
  induction h generalizing v with
  | self => exact ⟨v, .self, hread.symm⟩
  | @item mark items r hr _ ih =>
    cases v <;> cases hread
    rw [Value.readAll_eq_map] at hr
    obtain ⟨u, hu, rfl⟩ := List.mem_map.1 hr
    obtain ⟨w', hw', rfl⟩ := ih rfl
    exact ⟨w', .item hu hw', rfl⟩
  | @code mark items c hc _ ih =>
    cases v <;> cases hread
    rw [Expr.readAll_eq_map] at hc
    obtain ⟨d, hd, rfl⟩ := List.mem_map.1 hc
    obtain ⟨w', hw', rfl⟩ := ih (read_ofCode cells d)
    exact ⟨w', .code hd hw', rfl⟩
  | @member mark name members entry hentry _ ih =>
    cases v <;> cases hread
    rw [Value.readMembers_eq_map] at hentry
    obtain ⟨own, hown, rfl⟩ := List.mem_map.1 hentry
    obtain ⟨w', hw', rfl⟩ := ih rfl
    exact ⟨w', .member hown hw', rfl⟩
  | @receiver r name _ ih =>
    cases v with
    | proc p =>
      cases p <;> cases hread
      obtain ⟨w', hw', rfl⟩ := ih rfl
      exact ⟨w', .receiver hw', rfl⟩
    | _ => cases hread
  | @entry d e name he _ ih =>
    cases v <;> cases hread
    rw [Datum.entry?_read] at he
    obtain ⟨own, hown, rfl⟩ := Option.map_eq_some_iff.1 he
    obtain ⟨w', hw', rfl⟩ := ih (Datum.toValue_read cells name own).symm
    exact ⟨w', .entry hown hw', rfl⟩
  | @field d found name hfound _ ih =>
    cases v <;> cases hread
    rw [Datum.field?_read] at hfound
    obtain ⟨⟨visible, own⟩, hown, heq⟩ := Option.map_eq_some_iff.1 hfound
    cases heq
    obtain ⟨w', hw', rfl⟩ := ih (Datum.toValue_read cells name own).symm
    exact ⟨w', .field hown hw', rfl⟩

/-- What a member of a value can be: a part of it, a method of it, or the
integer that a literal stands for. -/
inductive Fetched : Value → Value → Prop where
  | part {v w : Value} (h : Part w v) : Fetched v w
  | method {v : Value} (name : String) : Fetched v (.proc (.method v name))
  | integer {mark : Mark} {n : Int} : Fetched (.literal mark n) (.wide mark n)

/-- What is found under a name is fetched. -/
theorem fetched_of_ownMember? {has : Datum → String → Bool} {v w : Value} {name : String}
    (hw : v.ownMember? has name = some w) : Fetched v w := by
  have hmethod : ∀ {w}, (if (v.method? name).isSome then some (Value.proc (.method v name))
      else none) = some w → Fetched v w := by
    intro w hw
    split at hw
    · cases hw
      exact .method name
    · cases hw
  unfold Value.ownMember? at hw
  split at hw
  · split at hw
    · next d e he =>
      cases hw
      exact .part (.entry he .self)
    · split at hw
      · cases hw
        exact .method name
      · split at hw
        · next f hf =>
          cases hw
          exact .part (.field hf .self)
        · cases hw
  · split at hw
    · cases hw
      exact .method name
    · split at hw
      · cases hw
        exact .integer
      · cases hw
  · exact hmethod hw

/-- What is found under a name or its capitalized form is fetched. -/
theorem fetched_of_member {has : Datum → String → Bool} {v w : Value} {name : String}
    (hw : Value.member has v name = .ok w) : Fetched v w := by
  unfold Value.member at hw
  split at hw
  · split at hw
    · next m hm =>
      cases hw
      exact .part (.member (mem_of_lookup hm) .self)
    · cases hw
  · cases hw
  · split at hw
    · next m hm =>
      cases hw
      rcases Option.or_eq_some_iff.1 hm with hm | ⟨-, hm⟩
      · exact fetched_of_ownMember? hm
      · exact fetched_of_ownMember? hm
    · cases hw

/-- The integer that a value is, evaluated or quoted. -/
def whole? : Value → Option Int
  | .int n => some n.toInt
  | .wide _ n | .literal _ n => some n
  | _ => none

/-- Every integer in a value is narrow exactly if it fits 64 bits. -/
def Canonical (v : Value) : Prop :=
  ∀ w, Part w v → ∀ n, w.whole? = some n → ((∃ k, w = .int k) ↔ isNarrow n = true)

/-- What it means to fit 64 bits. -/
theorem isNarrow_iff (n : Int) : isNarrow n = true ↔ -2 ^ 63 ≤ n ∧ n ≤ 2 ^ 63 - 1 :=
  Decimal.fits_iff n

namespace Canonical

/-- What occurs in a canonical value is canonical. -/
theorem part {v w : Value} (h : v.Canonical) (hw : Part w v) : w.Canonical :=
  fun _ hu => h _ (hu.trans hw)

/-- A value that is no integer is canonical if what it holds is. -/
theorem of_holder {v : Value} (hv : v.whole? = none)
    (h : ∀ w, Part w v → w = v ∨ ∃ u, u.Canonical ∧ Part w u) : v.Canonical := by
  intro w hw n hn
  rcases h w hw with rfl | ⟨u, hu, hwu⟩
  · rw [hv] at hn
    cases hn
  · exact hu w hwu n hn

/-- A machine integer is narrow. -/
theorem int (n : Int64) : (Value.int n).Canonical := by
  intro w hw k hk
  cases hw
  cases hk
  exact ⟨fun _ => isNarrow_toInt n, fun _ => ⟨n, rfl⟩⟩

/-- A value without parts is canonical. -/
theorem plain {v : Value} (h : v.Plain) : v.Canonical := by
  cases h with
  | int n => exact int n
  | nil | bool b | float x | text s =>
    refine of_holder rfl fun w hw => ?_
    cases hw
    exact .inl rfl
  | object hd =>
    refine of_holder rfl fun w hw => ?_
    cases hw with
    | self => exact .inl rfl
    | entry he _ => cases hd <;> cases he
    | field hf _ => cases hd <;> cases hf

/-- A wide integer that needs to be one. -/
theorem wide {n : Int} (h : isNarrow n = false) (mark : Mark) :
    (Value.wide mark n).Canonical := by
  intro w hw k hk
  cases hw
  cases hk
  rw [h]
  simp

/-- A quoted integer is canonical if it needs to be wide. -/
theorem literal_iff {mark : Mark} {n : Int} :
    (Value.literal mark n).Canonical ↔ isNarrow n = false := by
  constructor
  · intro h
    have hself := h _ .self n rfl
    simpa using hself
  · intro h w hw k hk
    cases hw
    cases hk
    rw [h]
    simp

/-- A sequence is canonical if its items are. -/
theorem sequence_iff {mark : Mark} {items : List Value} :
    (Value.sequence mark items).Canonical ↔ ∀ v ∈ items, v.Canonical := by
  refine ⟨fun h v hv => h.part (.item hv .self), fun h => ?_⟩
  refine of_holder rfl fun w hw => ?_
  cases hw with
  | self => exact .inl rfl
  | item hv hw => exact .inr ⟨_, h _ hv, hw⟩

/-- Texts are canonical. -/
theorem texts (items : List String) : (Value.texts items).Canonical := by
  refine sequence_iff.2 fun v hv => ?_
  obtain ⟨s, -, rfl⟩ := List.mem_map.1 hv
  exact plain (.text s)

/-- A quoted list is canonical if its items are. -/
theorem list_iff {mark : Mark} {items : List Code} :
    (Value.list mark items).Canonical ↔ ∀ c ∈ items, (Value.ofCode c).Canonical := by
  refine ⟨fun h c hc => h.part (.code hc .self), fun h => ?_⟩
  refine of_holder rfl fun w hw => ?_
  cases hw with
  | self => exact .inl rfl
  | code hc hw => exact .inr ⟨_, h _ hc, hw⟩

/-- A library is canonical if its members are. -/
theorem library_iff {mark : Mark} {name : String} {members : List (String × Value)} :
    (Value.library mark name members).Canonical ↔ ∀ entry ∈ members, entry.2.Canonical := by
  refine ⟨fun h entry hentry => h.part (.member hentry .self), fun h => ?_⟩
  refine of_holder rfl fun w hw => ?_
  cases hw with
  | self => exact .inl rfl
  | member hentry hw => exact .inr ⟨_, h _ hentry, hw⟩

/-- A method of a canonical value. -/
theorem method {v : Value} (h : v.Canonical) (name : String) :
    (Value.proc (.method v name)).Canonical := by
  refine of_holder rfl fun w hw => ?_
  cases hw with
  | self => exact .inl rfl
  | receiver hw => exact .inr ⟨v, h, hw⟩

/-- A procedure that is no method. -/
theorem proc {p : Proc} (h : ∀ v name, p ≠ .method v name) : (Value.proc p).Canonical := by
  refine of_holder rfl fun w hw => ?_
  cases hw with
  | self => exact .inl rfl
  | receiver _ => exact absurd rfl (h _ _)

/-- A symbol is canonical. -/
theorem symbol (name : String) : (Value.symbol name).Canonical := by
  refine of_holder rfl fun w hw => ?_
  cases hw
  exact .inl rfl

theorem ofInt (n : Int) : (Value.ofInt n).Canonical := by
  unfold Value.ofInt
  split
  · exact int _
  · next h => exact wide (Bool.eq_false_iff.2 h) .blank

/-- A wide integer is canonical if it needs to be one. -/
theorem wide_iff {mark : Mark} {n : Int} :
    (Value.wide mark n).Canonical ↔ isNarrow n = false := by
  refine ⟨fun h => ?_, fun h => wide h mark⟩
  have hself := h _ .self n rfl
  simpa using hself

/-- An identity changes nothing about it. -/
theorem identify {v : Value} (h : v.Canonical) (mark : Mark) : (v.identify mark).Canonical := by
  unfold Value.identify
  split
  · exact wide_iff.2 (wide_iff.1 h)
  · exact sequence_iff.2 (sequence_iff.1 h)
  · exact library_iff.2 (library_iff.1 h)
  · exact plain (.object (.bytes _ _))
  · exact h

/-- What a token stands for is canonical. -/
theorem token (t : Token) (session serial : Nat) :
    (Value.ofCode ((Expr.ofToken t).stamp session serial).1).Canonical := by
  rw [Expr.ofToken_eq]
  split
  · next n _ =>
    unfold Expr.ofInt
    split
    · exact int _
    · next h => exact literal_iff.2 (Bool.eq_false_iff.2 h)
  · unfold Expr.floatOrSymbol
    split
    · exact plain (.float _)
    · exact symbol t

/-- A value reads as canonical in cells where no wide integer was set to
one that fits 64 bits. -/
theorem read {cells : Cells} (hcells : ∀ entry ∈ cells, ∀ n, entry.2.whole? = some n →
    isNarrow n = false) {v : Value} (h : v.Canonical) : (v.read cells).Canonical := by
  have hwhole : ∀ mark n, isNarrow n = false → isNarrow (cells.whole mark n) = false := by
    intro mark n hn
    unfold Cells.whole
    cases hlast : cells.last? Content.whole? mark with
    | none => exact hn
    | some k =>
      obtain ⟨content, hmem, hpick⟩ := Cells.mem_of_last? hlast
      exact hcells _ hmem k hpick
  intro w hw n hn
  obtain ⟨u, hu, rfl⟩ := hw.of_read
  have hu := h.part hu
  -- only integers matter, and only wide ones hold something else
  cases u with
  | int k => exact int k _ .self n hn
  | wide mark k => exact wide (hwhole mark k (wide_iff.1 hu)) mark _ .self n hn
  | literal mark k =>
    exact literal_iff.2 (hwhole mark k (literal_iff.1 hu)) _ .self n hn
  | _ => cases hn

/-- A member of a canonical value. -/
theorem fetched {v w : Value} (h : v.Canonical) (hw : Fetched v w) : w.Canonical := by
  cases hw with
  | part hw => exact h.part hw
  | method name => exact h.method name
  | integer => exact wide (literal_iff.1 h) _

end Canonical

end Value

-- ====================================================== frames

namespace Frames

/-- Every value that is bound has a property. -/
def All (P : Value → Prop) (fs : Frames) : Prop :=
  ∀ f ∈ fs, ∀ b ∈ f.bindings, P b.2

variable {P : Value → Prop} {fs : Frames}

/-- What is bound in one frame. -/
theorem All.bindings (h : fs.All P) (id : FrameId) : ∀ b ∈ fs.bindings id, P b.2 := by
  unfold Frames.bindings
  split
  · next f hf => exact h f (List.mem_of_getElem? hf)
  · exact List.forall_mem_nil _

/-- What is found under a name. -/
theorem All.lookup (h : fs.All P) {id : FrameId} {name : String} {v : Value}
    (hv : fs.lookup id name = some v) : P v := by
  obtain ⟨frame, -, hv⟩ := List.exists_of_findSome?_eq_some hv
  exact h.bindings frame _ (mem_of_lookup hv)

theorem All.append (h : fs.All P) {f : Frame} (hf : ∀ b ∈ f.bindings, P b.2) :
    Frames.All P (fs ++ [f]) :=
  List.forall_mem_append.2 ⟨h, List.forall_mem_singleton.2 hf⟩

/-- One more binding. -/
theorem forall_mem_insert {b : Bindings} (h : ∀ e ∈ b, P e.2) {v : Value} (hv : P v)
    (name : String) : ∀ e ∈ b.insert name v, P e.2 := by
  induction b with
  | nil => exact List.forall_mem_singleton.2 hv
  | cons entry rest ih =>
    obtain ⟨hentry, hrest⟩ := List.forall_mem_cons.1 h
    unfold Bindings.insert
    split
    · exact List.forall_mem_cons.2 ⟨hv, hrest⟩
    · exact List.forall_mem_cons.2 ⟨hentry, ih hrest⟩

/-- Binding a value. -/
theorem All.bind (h : fs.All P) {v : Value} (hv : P v) (id : FrameId) (name : String) :
    (fs.bind id name v).All P := by
  intro f hf
  obtain ⟨k, hk⟩ := List.mem_iff_getElem?.1 hf
  unfold Frames.bind at hk
  rw [List.getElem?_modify] at hk
  obtain ⟨g, hg, rfl⟩ := Option.map_eq_some_iff.1 hk
  have hall := h g (List.mem_of_getElem? hg)
  split
  · exact forall_mem_insert hall hv name
  · exact hall

theorem All.copyPath {source : Frames} (hsource : source.All P) (ids : List FrameId)
    (outer : Option FrameId) (h : fs.All P) : (copyPath source outer ids fs).1.All P := by
  induction ids generalizing outer fs with
  | nil => exact h
  | cons id inner ih => exact ih (some fs.length) (h.append (hsource.bindings id))

/-- A copy of a frame and those it is in. -/
theorem All.copy (h : fs.All P) (id : FrameId) : (fs.copy id).1.All P :=
  h.copyPath _ none h

end Frames

-- ====================================================== imports

/-- A resolver that supplies canonical values, as long as the host is in
one of the given states, and leaves it in one of them. -/
def Resolver.Supplies (ok : σ → Prop) (r : Resolver σ) : Prop :=
  ∀ name state, ok state →
    ok (r name state).state ∧ ∀ v, (r name state).answer = .ok v → v.Canonical

/-- An import table that holds and supplies canonical values. -/
structure Imports.Canonical (ok : σ → Prop) (i : Imports σ) : Prop where
  imported : ∀ entry ∈ i.imported, entry.2.Canonical
  resolvers : ∀ r ∈ i.resolvers, r.Supplies ok

section

variable {ok : σ → Prop}

/-- Giving the modules of a resolver an identity. -/
theorem Resolver.Supplies.naming {r : Resolver σ} (h : r.Supplies ok) (table : Nat) :
    (r.naming table).Supplies ok := by
  intro name state hstate
  obtain ⟨hkept, hanswer⟩ := h name state hstate
  refine ⟨hkept, fun v hv => ?_⟩
  have hnamed : (r name state).answer.map (Value.identify (.imported table name)) = .ok v := hv
  cases hfound : (r name state).answer with
  | error e =>
    rw [hfound] at hnamed
    cases hnamed
  | ok w =>
    rw [hfound] at hnamed
    cases hnamed
    exact (hanswer w hfound).identify _

theorem Imports.Canonical.remember {i : Imports σ} (h : i.Canonical ok) (name : String) {v : Value}
    (hv : v.Canonical) : (i.remember name v).Canonical ok :=
  ⟨List.forall_mem_cons.2 ⟨hv, h.imported⟩, h.resolvers⟩

theorem Imports.Canonical.addResolver {i : Imports σ} (h : i.Canonical ok) {r : Resolver σ}
    (hr : r.Supplies ok) : (i.addResolver r).Canonical ok :=
  ⟨h.imported, List.forall_mem_append.2 ⟨h.resolvers, List.forall_mem_singleton.2 hr⟩⟩

theorem Imports.Canonical.empty : (⟨[], []⟩ : Imports σ).Canonical ok :=
  ⟨List.forall_mem_nil _, List.forall_mem_nil _⟩

end

-- ====================================================== the terms

/-- Every number that was stored in a wide integer needs one. -/
def Cells.Canonical (cells : Cells) : Prop :=
  ∀ entry ∈ cells, ∀ n, entry.2.whole? = some n → Value.isNarrow n = false

/-- Whether an event stores a number that fits 64 bits in a wide integer. -/
def Event.shrinks (e : Event) : Bool :=
  e.cells.any fun entry => entry.2.whole?.any Value.isNarrow

/-- An event that does not store such a number. -/
theorem Event.shrinks_eq_false_iff {e : Event} : e.shrinks = false ↔ e.cells.Canonical := by
  unfold Event.shrinks Cells.Canonical
  rw [List.any_eq_false]
  refine forall₂_congr fun entry _ => ?_
  cases entry.2.whole? with
  | none => simp
  | some n => simp

/-- Every value there is is canonical, as long as no wide integer is set to
a number that does not need one. -/
def Terms.canonical (ok : σ → Prop) : Terms σ where
  machine m := m.frames.All Value.Canonical ∧ m.imports.Canonical ok ∧ ok m.host
    ∧ m.cells.Canonical
  value := Value.Canonical
  code c := (Value.ofCode c).Canonical
  failure _ := True
  event e := e.shrinks = false

section

variable {ok : σ → Prop}

/-- A failure holds no integer. -/
theorem Terms.canonical_answer {answer : Except Failure Value}
    (h : ∀ v, answer = .ok v → v.Canonical) :
    (Terms.canonical ok).answer Value.Canonical answer := by
  cases answer with
  | ok v => exact h v rfl
  | error e => exact trivial

/-- What the language makes is canonical. -/
theorem Terms.canonical_ample : (Terms.canonical ok).Ample where
  plain _ hv := .plain hv
  number n := .ofInt n
  sequence _ _ := Value.Canonical.sequence_iff
  set _ mark n hevent hmem :=
    .wide (Event.shrinks_eq_false_iff.1 hevent _ hmem n rfl) mark
  proc _ hp := .proc hp
  fault _ := trivial
  other _ := trivial
  within _ _ _ := trivial
  ofCall _ _ := trivial

/-- The evaluator keeps values canonical, if the host does. -/
theorem Terms.canonical_upheld {host : Host σ} (hhost : host.Keeps (Terms.canonical ok))
    (site : Site) : (Terms.canonical ok).Upheld host site where
  toAmple := Terms.canonical_ample
  counts _ _ _ _ hm := hm
  lookup _ _ _ _ hm hv := hm.1.lookup hv
  define _ frame name _ hm hv := ⟨hm.1.bind hv frame name, hm.2⟩
  imported _ _ _ hm hv := hm.2.1.imported _ (mem_of_lookup hv)
  asked _ name hm := by
    obtain ⟨hstate, hanswer⟩ := Imports.ask_found hm.2.1.resolvers name 0 hm.2.2.1
    exact ⟨Terms.canonical_answer hanswer, fun _ hm' => ⟨hm'.1, hm'.2.1, hstate, hm'.2.2.2⟩⟩
  remember _ name _ hm hv := ⟨hm.1, hm.2.1.remember name hv, hm.2.2⟩
  store m stored hevent hm := by
    refine ⟨hm.1, hm.2.1, hm.2.2.1, List.forall_mem_append.2 ⟨?_, hm.2.2.2⟩⟩
    exact Event.shrinks_eq_false_iff.1 hevent
  read _ _ hm hv := hv.read hm.2.2.2
  identify _ mark hv := hv.identify mark
  code _ := Iff.rfl
  items _ _ := Value.Canonical.list_iff
  literal _ _ h := .wide (Value.Canonical.literal_iff.1 h) .blank
  token := .token
  member _ _ _ _ hv hw := hv.fetched (Value.fetched_of_member hw)
  canceled _ := trivial
  host := hhost

end

-- ====================================================== desks

/-- A desk that holds canonical values only. -/
structure Desk.Canonical (ok : σ → Prop) (d : Desk σ) : Prop where
  frames : d.frames.All Value.Canonical
  tables : ∀ t ∈ d.tables, t.Canonical ok
  host : ok d.host
  cells : d.cells.Canonical

/-- Resolvers that are added supply canonical values. -/
def Move.Supplies (ok : σ → Prop) : Move σ → Prop
  | ⟨_, .addResolver r⟩ => r.Supplies ok
  | _ => True

/-- The values of an answer. -/
def Answer.values : Answer → List Value
  | .outcomes each => Interpreter.values each
  | .value v => [v]
  | .loaded => []

namespace Desk

variable {ok : σ → Prop} {d : Desk σ} {host : Host σ} {depth : Nat}

/-- What happened during moves. -/
def events (host : Host σ) (depth : Nat) (d : Desk σ) : List (Move σ) → List Event
  | [] => []
  | move :: rest =>
    d.eventsOf host depth move ++ (d.act host depth move).desk.events host depth rest

namespace Canonical

/-- The machine of a session at such a desk. -/
theorem machine (h : d.Canonical ok) (s : Nat) : (Terms.canonical ok).machine (d.machine s) := by
  refine ⟨h.frames, ?_, h.host, h.cells⟩
  show (d.tables.getD _ _).Canonical ok
  rw [List.getD_eq_getElem?_getD]
  cases ht : d.tables[(d.session s).table]? with
  | none => exact .empty
  | some t => exact h.tables t (List.mem_of_getElem? ht)

/-- After a call. -/
theorem putBack (h : d.Canonical ok) {m : Machine σ} (hm : (Terms.canonical ok).machine m)
    (s : Nat) : (d.putBack s m).Canonical ok where
  frames := hm.1
  tables t ht := by
    rcases List.mem_or_eq_of_mem_set ht with ht | rfl
    · exact h.tables t ht
    · exact hm.2.1
  host := hm.2.2.1
  cells := hm.2.2.2

/-- After a fork. -/
theorem fork (h : d.Canonical ok) (s : Nat) : (d.fork s).Canonical ok :=
  ⟨h.frames.copy _, h.tables, h.host, h.cells⟩

/-- After a resolver was added. -/
theorem addResolver (h : d.Canonical ok) (s : Nat) {r : Resolver σ} (hr : r.Supplies ok) :
    (d.addResolver s r).Canonical ok where
  frames := h.frames
  tables t ht := by
    obtain ⟨k, hk⟩ := List.mem_iff_getElem?.1 ht
    have hk : (d.tables.modify _ _)[k]? = some t := hk
    rw [List.getElem?_modify] at hk
    obtain ⟨u, hu, rfl⟩ := Option.map_eq_some_iff.1 hk
    have hu := h.tables u (List.mem_of_getElem? hu)
    split
    · exact hu.addResolver (hr.naming _)
    · exact hu
  host := h.host
  cells := h.cells

/-- A new desk. -/
theorem start {state : σ} (hstate : ok state) {root : Bindings} (hroot : ∀ b ∈ root, b.2.Canonical)
    {resolvers : List (Resolver σ)} (hresolvers : ∀ r ∈ resolvers, r.Supplies ok) :
    ((Desk.empty state).addSession root ⟨resolvers, []⟩).Canonical ok where
  frames := List.forall_mem_singleton.2 hroot
  tables := by
    refine List.forall_mem_singleton.2 ⟨List.forall_mem_nil _, fun r hr => ?_⟩
    obtain ⟨source, hsource, rfl⟩ := List.mem_map.1 hr
    exact (hresolvers source hsource).naming _
  host := hstate
  cells := List.forall_mem_nil _

end Canonical

end Desk

/-- The values in a response. -/
def Response.values (r : Response) : List Value :=
  match r.answer with
  | .ok answer => answer.values
  | .error _ => []

/-- The values that were returned to someone. -/
def Chronicle.returned (c : Chronicle σ) : List Value :=
  c.replies.flatMap fun reply => reply.2.elim [] Response.values

/-- The values that there are after moves: those that were returned, as
they were then and as they read now, and as they read now those that are
bound in a frame and those that were imported. -/
inductive Chronicle.Holds (c : Chronicle σ) : Value → Prop where
  | returned {v : Value} (h : v ∈ c.returned) : Holds c v
  | kept {v : Value} (h : v ∈ c.returned) : Holds c (v.read c.desk.cells)
  | bound {f : Frame} {b : String × Value} (hf : f ∈ c.desk.frames) (hb : b ∈ f.bindings) :
      Holds c (b.2.read c.desk.cells)
  | imported {t : Imports σ} {entry : String × Value} (ht : t ∈ c.desk.tables)
      (hentry : entry ∈ t.imported) : Holds c (entry.2.read c.desk.cells)

section

variable {ok : σ → Prop} {d : Desk σ} {host : Host σ}

/-- The values among outcomes on the terms. -/
theorem values_canonical {outcomes : List (Except Failure Value)}
    (h : ∀ outcome ∈ outcomes, (Terms.canonical ok).answer Value.Canonical outcome) :
    ∀ v ∈ Interpreter.values outcomes, v.Canonical := by
  intro v hv
  obtain ⟨outcome, houtcome, hv⟩ := List.mem_filterMap.1 hv
  cases outcome with
  | ok w =>
    cases hv
    exact h _ houtcome
  | error e => cases hv

/-- The values of an answer that is read. -/
theorem Answer.values_read (cells : Cells) (answer : Answer) :
    (answer.read cells).values = answer.values.map (Value.read cells) := by
  cases answer with
  | outcomes each =>
    show Interpreter.values (each.map _) = (Interpreter.values each).map _
    induction each with
    | nil => rfl
    | cons outcome rest ih =>
      cases outcome with
      | ok v => exact congrArg (v.read cells :: ·) ih
      | error e => exact ih
  | value v => rfl
  | loaded => rfl

/-- What a call answers is canonical. -/
theorem Call.keeps (hhost : host.Keeps (Terms.canonical ok)) (site : Site) (depth : Nat)
    (c : Call) : Eval.Keeps (Terms.canonical ok) True (c.run ⟨host, site, depth⟩)
      fun answer => ∀ v ∈ answer.values, v.Canonical := by
  have hupheld := Terms.canonical_upheld hhost site
  cases c with
  | program source =>
    refine (hupheld.program depth source).bind fun outcomes => (Eval.Keeps.pure _).of_pre ?_
    exact fun hs => values_canonical hs.2
  | eval source =>
    refine (hupheld.evalSource depth source).bind fun v => (Eval.Keeps.pure _).of_pre ?_
    exact fun hs => List.forall_mem_singleton.2 hs.2
  | load name content =>
    have hcontent : (Terms.canonical ok).answer (fun _ => True) content := by
      cases content <;> trivial
    refine ((hupheld.loadFile depth name content).of_pre fun _ => hcontent).bind fun _ => ?_
    exact (Eval.Keeps.pure _).of_pre fun _ => List.forall_mem_nil _

/-- A move at a desk that holds canonical values leaves one and answers
with such values. -/
theorem Desk.Canonical.act (h : d.Canonical ok) (hhost : host.Keeps (Terms.canonical ok))
    {depth : Nat} {move : Move σ} (hmove : move.Supplies ok)
    (hevents : ∀ e ∈ d.eventsOf host depth move, e.shrinks = false) :
    (d.act host depth move).desk.Canonical ok
      ∧ ∀ v ∈ (d.act host depth move).returned, v.Canonical := by
  obtain ⟨s, act⟩ := move
  cases act with
  | fork => exact ⟨h.fork s, List.forall_mem_nil _⟩
  | addResolver r => exact ⟨h.addResolver s hmove, List.forall_mem_nil _⟩
  | call patience c =>
    cases hrun : c.run (d.interpreter host depth patience s) (d.machine s) with
    | spent =>
      rw [act_spent hrun]
      exact ⟨h, List.forall_mem_nil _⟩
    | done answer m =>
      obtain ⟨new, hadds, hkept⟩ := Call.keeps hhost _ depth c _ answer m hrun
      have hjournal : m.journal = new := by
        rw [hadds.journal]
        exact List.append_nil new
      have hnew : ∀ e ∈ new, e.shrinks = false := by
        intro e he
        refine hevents e ?_
        rw [eventsOf_done hrun]
        exact List.mem_reverse.2 (hjournal ▸ he)
      -- the events of a move are those that its run adds, hence none of them shrinks an integer
      obtain ⟨hm, hanswer⟩ := hkept trivial (h.machine s) hnew
      rw [act_done hrun]
      refine ⟨h.putBack hm s, ?_⟩
      unfold Chronicle.returned
      rw [List.flatMap_singleton]
      cases answer with
      | error e => exact List.forall_mem_nil _
      | ok answer =>
        intro v hv
        have hv : v ∈ (answer.read m.cells).values := hv
        rw [Answer.values_read] at hv
        obtain ⟨w, hw, rfl⟩ := List.mem_map.1 hv
        exact (hanswer w hw).read hm.2.2.2

/-- Moves one after the other. -/
theorem Desk.Canonical.history (hhost : host.Keeps (Terms.canonical ok)) {depth : Nat}
    {moves : List (Move σ)} (h : d.Canonical ok) (hmoves : ∀ move ∈ moves, move.Supplies ok)
    (hevents : ∀ e ∈ d.events host depth moves, e.shrinks = false) :
    (d.history host depth moves).desk.Canonical ok
      ∧ ∀ v ∈ (d.history host depth moves).returned, v.Canonical := by
  induction moves generalizing d with
  | nil => exact ⟨h, List.forall_mem_nil _⟩
  | cons move rest ih =>
    obtain ⟨hmove, hrest⟩ := List.forall_mem_cons.1 hmoves
    obtain ⟨hfirst, hlater⟩ := List.forall_mem_append.1 hevents
    obtain ⟨hdesk, hvalues⟩ := h.act hhost hmove hfirst
    obtain ⟨hdesk', hvalues'⟩ := ih hdesk hrest hlater
    refine ⟨hdesk', ?_⟩
    unfold Chronicle.returned
    rw [Desk.history, List.flatMap_append]
    exact List.forall_mem_append.2 ⟨hvalues, hvalues'⟩

end

-- ====================================================== histories

/-- The same representation of the same integer. The identities of wide
ones may be different. -/
inductive Value.Identical : Value → Value → Prop where
  | int (n : Int64) : Identical (.int n) (.int n)
  | wide (mark mark' : Mark) (n : Int) : Identical (.wide mark n) (.wide mark' n)

/-- One representation for each integer: one that occurs in a value is
narrow exactly if it fits 64 bits, and those that are not quoted are equal
as numbers exactly if they are represented the same. -/
structure Chronicle.Canonical (c : Chronicle σ) : Prop where
  narrow : ∀ (v w : Value) (n : Int), c.Holds v → w.Part v → w.whole? = some n →
    ((∃ k, w = .int k) ↔ -2 ^ 63 ≤ n ∧ n ≤ 2 ^ 63 - 1)
  same : ∀ (v v' w w' : Value) (n n' : Int), c.Holds v → c.Holds v' → w.Part v → w'.Part v' →
    w.whole? = some n → w'.whole? = some n' → (∀ mark k, w ≠ .literal mark k) →
    (∀ mark k, w' ≠ .literal mark k) → (n = n' ↔ w.Identical w')

namespace Platform

end Platform

-- ====================================================== every history

end LispShell
