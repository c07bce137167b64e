/-
Equality of nested data is equality of their text.

Legible values are integers in normal form, truth values, texts, and
sequences of such nested to any depth. Compared inside of sequences they are
the same if they are built alike, whatever identities the sequences and the
wide integers have (`Legible.same_iff`). Their text is a flat row of characters, in which
digits, words, quotes, blanks and parentheses have to be told apart. It can
be: the first character says whether a word, a quoted text or a sequence
starts (`Value.leads`), a word ends at the first character that cannot
stand in one, a quoted text at its own closing quote, and a sequence where
its items are followed by a parenthesis instead of a blank. So if two such
texts with something after each agree, the values agree and so does what
follows (`Legible.toldApart`). That is the induction; with nothing
after them it says that the text determines the value.
-/
import LispShell.Proofs.Comparison
import LispShell.Proofs.Echo
import LispShell.Proofs.Text.Quoted

namespace LispShell

namespace Token

/-- A word ends at the first character that cannot stand in one. -/
theorem word_append_inj {a b rest rest' : List Char} (ha : ∀ c ∈ a, ordinary c = true)
    (hb : ∀ c ∈ b, ordinary c = true) (hrest : Boundary rest) (hrest' : Boundary rest')
    (h : a ++ rest = b ++ rest') : a = b ∧ rest = rest' := by
  induction a generalizing b with
  | nil =>
    cases b with
    | nil => exact ⟨rfl, h⟩
    | cons c b =>
      have hc := hrest c (by simpa using congrArg List.head? h)
      rw [hb c List.mem_cons_self] at hc
      cases hc
  | cons c a ih =>
    obtain ⟨hc, ha⟩ := List.forall_mem_cons.1 ha
    cases b with
    | nil =>
      have hc' := hrest' c (by simpa using congrArg List.head? h.symm)
      rw [hc] at hc'
      cases hc'
    | cons d b =>
      obtain ⟨rfl, htail⟩ := List.cons.inj h
      obtain ⟨rfl, hrest⟩ := ih ha (fun c hc => hb c (List.mem_cons_of_mem _ hc)) htail
      exact ⟨rfl, hrest⟩

end Token

namespace Value

open Token (ordinary Boundary)

-- ====================================================== legible values

/-- A value that is written as a word: an integer in normal form or a truth
value. -/
inductive Word : Value → Prop where
  | int (n : Int64) : Word (.int n)
  | wide {mark : Mark} {n : ℤ} (large : isNarrow n = false) : Word (.wide mark n)
  | bool (b : Bool) : Word (.bool b)

/-- Nested data: words, texts that spell characters, and sequences of such
values. -/
inductive Legible : Value → Prop where
  | word {v : Value} (h : v.Word) : Legible v
  | text (t : String) : Legible (.text (Text.encode t))
  | sequence {mark : Mark} {items : List Value} (h : ∀ v ∈ items, Legible v) :
      Legible (.sequence mark items)

/-- A sequence of legible values. -/
inductive LegibleRow : Value → Prop where
  | mk {mark : Mark} {items : List Value} (h : ∀ v ∈ items, v.Legible) :
      LegibleRow (.sequence mark items)

theorem LegibleRow.legible {v : Value} (h : v.LegibleRow) : v.Legible := by
  cases h with
  | mk h => exact .sequence h

-- ====================================================== words

/-- A printed integer is a word. -/
theorem renderInt_ordinary (n : ℤ) :
    (Decimal.renderInt n).toList ≠ [] ∧ ∀ c ∈ (Decimal.renderInt n).toList, ordinary c = true := by
  obtain ⟨hne, hwritten⟩ := Decimal.renderInt_written n
  exact ⟨hne, fun c hc => Reader.ordinary_of_written (hwritten c hc)⟩

/-- So are the others. -/
theorem Word.spelled {v : Value} (h : v.Word) :
    v.repr.toList ≠ [] ∧ ∀ c ∈ v.repr.toList, ordinary c = true := by
  cases h with
  | int n => exact renderInt_ordinary n.toInt
  | wide => exact renderInt_ordinary _
  | bool b => cases b <;> exact ⟨by decide, List.all_eq_true.1 rfl⟩

theorem renderInt_inj {m n : ℤ} (h : Decimal.renderInt m = Decimal.renderInt n) : m = n := by
  have hread := congrArg (fun s : String => Decimal.int? s.toList) h
  simpa only [Decimal.int?_renderInt, Option.some.injEq] using hread

/-- Digits do not spell a truth value. -/
theorem renderInt_ne_reprBool (n : ℤ) (b : Bool) : Decimal.renderInt n ≠ (Value.bool b).repr := by
  intro h
  have hread := congrArg (fun s : String => Decimal.int? s.toList) h
  have hword : Decimal.int? (Value.bool b).repr.toList = none := by cases b <;> rfl
  rw [hword, Decimal.int?_renderInt] at hread
  cases hread

/-- The truth values are written differently. -/
theorem reprBool_inj {b c : Bool} (h : (Value.bool b).repr = (Value.bool c).repr) : b = c := by
  have hword : ∀ b : Bool, ((Value.bool b).repr == "true") = b := by
    intro b
    cases b <;> decide
  rw [← hword b, h, hword c]

/-- A machine integer and a wide one in normal form are not written alike,
because the digits say how large the number is. -/
theorem Word.unmarked_eq_of_repr {v w : Value} (hv : v.Word) (hw : w.Word)
    (h : v.repr = w.repr) : v.unmarked = w.unmarked := by
  have hsize : ∀ {m : Int64} {n : ℤ}, isNarrow n = false → m.toInt ≠ n := by
    rintro m n hn rfl
    rw [isNarrow_toInt] at hn
    cases hn
  cases hv with
  | int m =>
    cases hw with
    | int n => rw [Int64.toInt_inj.1 (renderInt_inj h)]
    | wide large => exact absurd (renderInt_inj h) (hsize large)
    | bool b => exact absurd h (renderInt_ne_reprBool _ b)
  | wide large =>
    cases hw with
    | int n => exact absurd (renderInt_inj h).symm (hsize large)
    | wide => rw [unmarked, unmarked, renderInt_inj h]
    | bool b => exact absurd h (renderInt_ne_reprBool _ b)
  | bool b =>
    cases hw with
    | int n => exact absurd h.symm (renderInt_ne_reprBool _ b)
    | wide => exact absurd h.symm (renderInt_ne_reprBool _ b)
    | bool c => rw [reprBool_inj h]

-- ====================================================== how texts start

/-- The text of a value starts with the character: a quote for a text, a
parenthesis for a sequence, and a character of a word for the rest. -/
def leads : Value → Char → Prop
  | .text _, c => c = '"'
  | .sequence .., c => c = '('
  | _, c => ordinary c = true

/-- A word starts with a character of a word. -/
theorem Word.leads_iff {v : Value} (h : v.Word) {c : Char} : v.leads c ↔ ordinary c = true := by
  cases h <;> rfl

/-- A sequence is written between parentheses. -/
theorem toList_repr (mark : Mark) (items : List Value) :
    (Value.sequence mark items).repr.toList
      = '(' :: ((Text.join " " (reprAll items)).toList ++ [')']) := by
  show ("(" ++ Text.join " " (reprAll items) ++ ")").toList = _
  simp

/-- The text of a value starts as it should. -/
theorem Legible.exists_lead {v : Value} (h : v.Legible) :
    ∃ c rest, v.repr.toList = c :: rest ∧ v.leads c := by
  cases h with
  | word h =>
    obtain ⟨hne, hordinary⟩ := h.spelled
    obtain ⟨c, rest, htext⟩ := List.exists_cons_of_ne_nil hne
    refine ⟨c, rest, htext, h.leads_iff.2 (hordinary c ?_)⟩
    rw [htext]
    exact List.mem_cons_self
  | text t => exact ⟨_, _, Text.toList_quote_encode t, rfl⟩
  | sequence => exact ⟨_, _, toList_repr _ _, rfl⟩

/-- A text that starts two values starts both in the same way. -/
theorem Legible.common_lead {v w : Value} (hv : v.Legible) (hw : w.Legible)
    {rest rest' : List Char} (h : v.repr.toList ++ rest = w.repr.toList ++ rest') :
    ∃ c, v.leads c ∧ w.leads c := by
  obtain ⟨c, cs, hc, hlead⟩ := hv.exists_lead
  obtain ⟨d, ds, hd, hlead'⟩ := hw.exists_lead
  rw [hc, hd] at h
  obtain ⟨rfl, -⟩ := List.cons.inj h
  exact ⟨c, hlead, hlead'⟩

-- ====================================================== how sequences are written

/-- What follows the first item of a sequence in its text. -/
def closing (items : List Value) : List Char :=
  items.flatMap (fun v => ' ' :: v.repr.toList) ++ [')']

/-- The first item of a sequence ends where it should. -/
theorem boundary_closing (items : List Value) (rest : List Char) :
    Boundary (closing items ++ rest) := by
  intro c hc
  cases items with
  | nil =>
    obtain rfl : ')' = c := by simpa [closing] using hc
    rfl
  | cons v items =>
    obtain rfl : ' ' = c := by simpa [closing] using hc
    rfl

/-- The items of a sequence are the first and what follows it. -/
theorem toList_join_reprAll (v : Value) (items : List Value) :
    (Text.join " " (reprAll (v :: items))).toList ++ [')'] = v.repr.toList ++ closing items := by
  induction items generalizing v with
  | nil => simp [reprAll, Text.join, closing]
  | cons w items ih =>
    have hrest := ih w
    simp only [reprAll, Text.join, closing, String.toList_append, List.append_assoc,
      List.flatMap_cons, List.cons_append] at hrest ⊢
    rw [hrest]
    rfl

theorem toList_repr_nil (mark : Mark) : (Value.sequence mark []).repr.toList = ['(', ')'] := by
  simp [toList_repr, reprAll, Text.join]

theorem toList_repr_cons (mark : Mark) (v : Value) (items : List Value) :
    (Value.sequence mark (v :: items)).repr.toList = '(' :: (v.repr.toList ++ closing items) := by
  rw [toList_repr, toList_join_reprAll]

-- ====================================================== the text determines the value

/-- If the texts of the two values agree, with something after each, then
the values agree and what follows does. -/
def ToldApart (v w : Value) : Prop :=
  ∀ {rest rest' : List Char}, Boundary rest → Boundary rest' →
    v.repr.toList ++ rest = w.repr.toList ++ rest' → v.unmarked = w.unmarked ∧ rest = rest'

/-- If the items can be told apart, so can what follows the first. -/
theorem closing_append_inj {vs ws : List Value}
    (hitem : ∀ v ∈ vs, ∀ w ∈ ws, ToldApart v w) {rest rest' : List Char}
    (h : closing vs ++ rest = closing ws ++ rest') :
    unmarkedAll vs = unmarkedAll ws ∧ rest = rest' := by
  induction vs generalizing ws with
  | nil =>
    cases ws with
    | nil => exact ⟨rfl, by simpa [closing] using h⟩
    | cons w ws => simp [closing] at h
  | cons v vs ih =>
    cases ws with
    | nil => simp [closing] at h
    | cons w ws =>
      have hitems : v.repr.toList ++ (closing vs ++ rest)
          = w.repr.toList ++ (closing ws ++ rest') := by
        simpa [closing] using h
      obtain ⟨hfirst, htail⟩ := hitem v List.mem_cons_self w List.mem_cons_self
        (boundary_closing vs rest) (boundary_closing ws rest') hitems
      obtain ⟨hrest, hend⟩ := ih (fun v hv w hw => hitem v (List.mem_cons_of_mem _ hv) w
        (List.mem_cons_of_mem _ hw)) htail
      exact ⟨by rw [unmarkedAll, unmarkedAll, hfirst, hrest], hend⟩

theorem Word.toldApart {v w : Value} (hv : v.Word) (hw : w.Word) : ToldApart v w := by
  intro rest rest' hrest hrest' h
  obtain ⟨htext, hend⟩ := Token.word_append_inj hv.spelled.2 hw.spelled.2 hrest hrest' h
  exact ⟨hv.unmarked_eq_of_repr hw (String.toList_injective htext), hend⟩

theorem toldApart_text (s t : String) :
    ToldApart (.text (Text.encode s)) (.text (Text.encode t)) := by
  intro rest rest' _ _ h
  obtain ⟨rfl, hend⟩ := Text.quote_append_inj h
  exact ⟨rfl, hend⟩

/-- No value starts with a closing parenthesis. -/
theorem Legible.not_close {v : Value} (h : v.Legible) {text rest : List Char} :
    v.repr.toList ++ text ≠ ')' :: rest := by
  intro heq
  obtain ⟨c, cs, hc, hlead⟩ := h.exists_lead
  rw [hc] at heq
  obtain ⟨rfl, -⟩ := List.cons.inj heq
  cases h with
  | word h => cases h.leads_iff.1 hlead
  | text t => cases hlead
  | sequence => cases hlead

/-- Sequences can be told apart if their items can. -/
theorem toldApart_sequence {mark mark' : Mark} {vs ws : List Value} (hvs : ∀ v ∈ vs, v.Legible)
    (hws : ∀ w ∈ ws, w.Legible) (hitem : ∀ v ∈ vs, ∀ w ∈ ws, ToldApart v w) :
    ToldApart (.sequence mark vs) (.sequence mark' ws) := by
  intro rest rest' hrest hrest' h
  cases vs with
  | nil =>
    cases ws with
    | nil =>
      rw [toList_repr_nil, toList_repr_nil] at h
      exact ⟨rfl, List.append_cancel_left h⟩
    | cons w ws =>
      rw [toList_repr_nil, toList_repr_cons] at h
      have hafter : w.repr.toList ++ (closing ws ++ rest') = ')' :: rest := by simpa using h.symm
      exact absurd hafter (hws w List.mem_cons_self).not_close
  | cons v vs =>
    cases ws with
    | nil =>
      rw [toList_repr_nil, toList_repr_cons] at h
      have hafter : v.repr.toList ++ (closing vs ++ rest) = ')' :: rest' := by simpa using h
      exact absurd hafter (hvs v List.mem_cons_self).not_close
    | cons w ws =>
      -- with a blank in front, the items are written as those after another item
      have hrow : closing (v :: vs) ++ rest = closing (w :: ws) ++ rest' := by
        rw [toList_repr_cons, toList_repr_cons] at h
        simpa [closing] using h
      obtain ⟨hitems, hend⟩ := closing_append_inj hitem hrow
      exact ⟨by rw [unmarked, unmarked, hitems], hend⟩

/-- Values that start differently are not written alike. -/
theorem Legible.toldApart_of_leads {v w : Value} (hv : v.Legible) (hw : w.Legible)
    (hleads : ∀ c, v.leads c → ¬w.leads c) : ToldApart v w := by
  intro rest rest' _ _ h
  obtain ⟨c, hc, hc'⟩ := hv.common_lead hw h
  exact absurd hc' (hleads c hc)

/-- The text of a legible value says where it ends and of which value it
is. -/
theorem Legible.toldApart {v w : Value} (hv : v.Legible) (hw : w.Legible) : ToldApart v w := by
  -- values of different kinds differ in the first character they are written with
  induction hv generalizing w with
  | @word v h =>
    cases hw with
    | word h' => exact h.toldApart h'
    | text t =>
      refine Legible.toldApart_of_leads (.word h) (.text t) fun c hc hquote => ?_
      rw [h.leads_iff, show c = '"' from hquote] at hc
      cases hc
    | sequence hitems =>
      refine Legible.toldApart_of_leads (.word h) (.sequence hitems) fun c hc hopen => ?_
      rw [h.leads_iff, show c = '(' from hopen] at hc
      cases hc
  | text s =>
    cases hw with
    | word h' =>
      refine Legible.toldApart_of_leads (.text s) (.word h') fun c hquote hc => ?_
      rw [h'.leads_iff, show c = '"' from hquote] at hc
      cases hc
    | text t => exact toldApart_text s t
    | sequence hitems =>
      refine Legible.toldApart_of_leads (.text s) (.sequence hitems) ?_
      rintro c rfl hopen
      cases hopen
  | sequence hitems ih =>
    cases hw with
    | word h' =>
      refine Legible.toldApart_of_leads (.sequence hitems) (.word h') fun c hopen hc => ?_
      rw [h'.leads_iff, show c = '(' from hopen] at hc
      cases hc
    | text t =>
      refine Legible.toldApart_of_leads (.sequence hitems) (.text t) ?_
      rintro c rfl hquote
      cases hquote
    | sequence hitems' =>
      exact toldApart_sequence hitems hitems' fun v hv w hw => ih v hv (hitems' w hw)

-- ====================================================== comparing

/-- Items are compared one by one. -/
theorem sameAll_iff {shared : Bool} {vs ws : List Value}
    (h : ∀ v ∈ vs, ∀ w ∈ ws, (v.same shared w = true ↔ v.unmarked = w.unmarked)) :
    sameAll shared vs ws = true ↔ unmarkedAll vs = unmarkedAll ws := by
  induction vs generalizing ws with
  | nil => cases ws <;> simp [sameAll, unmarkedAll]
  | cons v vs ih =>
    cases ws with
    | nil => simp [sameAll, unmarkedAll]
    | cons w ws =>
      have hfirst := h v List.mem_cons_self w List.mem_cons_self
      have hrest := ih fun v hv w hw =>
        h v (List.mem_cons_of_mem _ hv) w (List.mem_cons_of_mem _ hw)
      simp only [sameAll, unmarkedAll, Bool.and_eq_true, List.cons.injEq, hfirst, hrest]

/-- Words are the same if they are equal. -/
theorem Word.same_iff {v w : Value} (hv : v.Word) (shared : Bool) :
    v.same shared w = true ↔ v.unmarked = w.unmarked := by
  cases hv <;> cases w <;> simp [same, unmarked]

/-- Item by item, legible values are the same if they are built alike.
Whether they are in one and the same sequence makes no difference. -/
theorem Legible.same_iff {v w : Value} (hv : v.Legible) (hw : w.Legible) (shared : Bool) :
    v.same shared w = true ↔ v.unmarked = w.unmarked := by
  induction hv generalizing w shared with
  | word h => exact h.same_iff shared
  | text s => cases w <;> simp [same, unmarked]
  | @sequence mark items hitems ih =>
    cases hw with
    | word h => cases h <;> simp [same, unmarked]
    | text t => simp [same, unmarked]
    | @sequence mark' items' hitems' =>
      simp only [same, unmarked, sequence.injEq, true_and]
      exact sameAll_iff fun v hv w hw => ih v hv (hitems' w hw) _

/-- Identities are not written, item by item. -/
theorem reprAll_unmarkedAll {vs : List Value} (h : ∀ v ∈ vs, v.unmarked.repr = v.repr) :
    reprAll (unmarkedAll vs) = reprAll vs := by
  induction vs with
  | nil => rfl
  | cons v vs ih =>
    obtain ⟨hv, hvs⟩ := List.forall_mem_cons.1 h
    rw [unmarkedAll, reprAll, reprAll, hv, ih hvs]

/-- Identities are not written. -/
theorem Legible.repr_unmarked {v : Value} (h : v.Legible) : v.unmarked.repr = v.repr := by
  induction h with
  | word h => cases h <;> rfl
  | text => rfl
  | @sequence mark items _ ih =>
    show "(" ++ Text.join " " (reprAll (unmarkedAll items)) ++ ")" = _
    rw [reprAll_unmarkedAll ih]
    rfl

/-- The text determines the value. -/
theorem Legible.repr_eq_iff {v w : Value} (hv : v.Legible) (hw : w.Legible) :
    v.repr = w.repr ↔ v.unmarked = w.unmarked := by
  constructor
  · intro h
    have hnothing : Boundary [] := by rintro c ⟨⟩
    exact (hv.toldApart hw hnothing hnothing (by rw [h])).1
  · intro h
    rw [← hv.repr_unmarked, h, hw.repr_unmarked]

/-- Sequences of legible values are compared as wholes. -/
theorem LegibleRow.equals_eq {x y : Value} (hx : x.LegibleRow) (hy : y.LegibleRow) :
    Standard.equals x y = (x.repr == y.repr) := by
  rw [Bool.eq_iff_iff, beq_iff_eq, hx.legible.repr_eq_iff hy.legible]
  cases hx with
  | mk hitems =>
    cases hy with
    | mk hitems' => exact Legible.same_iff (.sequence hitems) (.sequence hitems') false

theorem LegibleRow.finds {x y : Value} (hx : x.LegibleRow) (hy : y.LegibleRow) :
    Finds "eq" x y (x.repr == y.repr) := by
  refine .of_ok rfl fun _ _ _ => ?_
  rw [← hx.equals_eq hy]
  rfl

/-- And it does so both ways. -/
theorem LegibleRow.finds_iff {x y : Value} (hx : x.LegibleRow) (hy : y.LegibleRow) :
    Finds "eq" x y true ↔ x.repr = y.repr := by
  rw [← beq_iff_eq]
  constructor
  · intro h
    have hanswer := h.unique (fun _ => rfl) (hx.finds hy) fun _ => rfl
    simpa using hanswer.symm
  · intro h
    have hfinds := hx.finds hy
    rwa [h] at hfinds

end Value

/-- On nested data, equality is equality of text. For sequences of legible
values, nested to any depth, calling `eq` finds them equal if and only if
their texts are; the text of a legible value determines it, but for the
identities of its sequences and wide integers, which nothing written shows;
and so `eq` is an equivalence on them. -/
theorem equality_is_text :
    (∀ x y : Value, x.LegibleRow → y.LegibleRow → Finds "eq" x y (x.repr == y.repr))
    ∧ (∀ x y : Value, x.Legible → y.Legible → (x.repr = y.repr ↔ x.unmarked = y.unmarked))
    ∧ Equivalence fun x y : {v : Value // v.LegibleRow} => Finds "eq" x.1 y.1 true := by
  refine ⟨fun x y hx hy => hx.finds hy, fun x y hx hy => hx.repr_eq_iff hy, ?_⟩
  constructor
  · rintro ⟨x, hx⟩
    exact (hx.finds_iff hx).2 rfl
  · rintro ⟨x, hx⟩ ⟨y, hy⟩ h
    exact (hy.finds_iff hx).2 ((hx.finds_iff hy).1 h).symm
  · rintro ⟨x, hx⟩ ⟨y, hy⟩ ⟨z, hz⟩ hxy hyz
    exact (hx.finds_iff hz).2 (((hx.finds_iff hy).1 hxy).trans ((hy.finds_iff hz).1 hyz))

/-- Texts, and after them a sequence of a wide integer and a truth value. -/
def Value.parcel (mark : Mark) (texts : List String) : Value :=
  .sequence mark (texts.map (fun t => .text (Text.encode t))
    ++ [.sequence mark [.wide mark (-18446744073709551616), .bool true]])

/-- Parcels are legible. -/
theorem Value.parcel_legible (mark : Mark) (texts : List String) :
    (Value.parcel mark texts).LegibleRow := by
  have hpair : ∀ v ∈ [Value.wide mark (-18446744073709551616), .bool true], v.Legible :=
    List.forall_mem_cons.2 ⟨.word (.wide (by decide)),
      List.forall_mem_singleton.2 (.word (.bool true))⟩
  refine .mk fun v hv => ?_
  rcases List.mem_append.1 hv with hv | hv
  · obtain ⟨t, -, rfl⟩ := List.mem_map.1 hv
    exact .text t
  · rw [List.mem_singleton.1 hv]
    exact .sequence hpair

/-- A parcel with one text that has quotes and a blank in it is equal to
one with other identities, and not to the parcel of the two texts that it
reads like. -/
theorem equality_is_text_parcel :
    (Value.parcel .blank ["a\" \"é("]).repr
      = Text.encode "(\"a\\\" \\\"é(\" (-18446744073709551616 true))"
    ∧ Finds "eq" (.parcel .blank ["a\" \"é("]) (.parcel (.made 0 1) ["a\" \"é("]) true
    ∧ Finds "eq" (.parcel .blank ["a\" \"é("]) (.parcel .blank ["a", "é("]) false :=
  ⟨rfl,
    equality_is_text.1 _ _ (Value.parcel_legible _ _) (Value.parcel_legible _ _),
    equality_is_text.1 _ _ (Value.parcel_legible _ _) (Value.parcel_legible _ _)⟩

end LispShell
