/-
Where a piece stands in a text, and what a text is split into there.

A piece stands in bytes at an offset if that many bytes come before it
(`StandsAt`). Searching finds the least such offset, or there is none
(`offset?_cases`).

# Splitting

Splitting at a piece cuts where it stands first and goes on behind it,
until it stands nowhere. `Parted` says this about a text and its parts,
and `parted_split` that it holds of what the scan gives. The rest is by
induction on `Parted` and does not look at the scan again:

- the parts, joined by the piece, are the text (`join_split`);
- the piece stands in none of them (`Parted.not_standsAt`);
- there is one more of them than places where the piece is found from the
  left, each search starting behind the piece found before
  (`FoundFrom`, `Parted.found`).

Replacing is a scan of its own, which moves together with that of splitting
(`replaceFrom_eq`), so what it writes are the parts joined by the new text.

The piece may overlap itself: in `aaa` the piece `aa` stands at 0 and at 1,
but only the first of these is found.
-/
import LispShell.Text.Search
import Mathlib.Order.Bounds.Basic

namespace LispShell.Text

/-- The first text, the separator and the rest. -/
theorem join_cons (sep : String) {texts : List String} (h : texts ≠ []) (text : String) :
    join sep (text :: texts) = text ++ sep ++ join sep texts := by
  cases texts with
  | nil => exact absurd rfl h
  | cons next rest => rfl

-- ====================================================== places

/-- The piece stands in the bytes, with `k` of them before it. -/
def StandsAt (piece cs : List Char) (k : ℕ) : Prop :=
  ∃ before after, cs = before ++ piece ++ after ∧ before.length = k

section

variable {piece cs : List Char} {k : ℕ}

/-- A piece stands at the start if it is a prefix. -/
theorem standsAt_zero : StandsAt piece cs 0 ↔ piece <+: cs := by
  constructor
  · intro ⟨before, after, hcs, hlength⟩
    rw [List.length_eq_zero_iff.1 hlength] at hcs
    exact ⟨after, hcs.symm⟩
  · intro ⟨after, hcs⟩
    exact ⟨[], after, hcs.symm, rfl⟩

/-- A piece ends inside of the text. -/
theorem StandsAt.add_length_le (h : StandsAt piece cs k) : k + piece.length ≤ cs.length := by
  obtain ⟨before, after, rfl, rfl⟩ := h
  simp

/-- What follows the text does not matter. -/
theorem StandsAt.append (h : StandsAt piece cs k) (more : List Char) :
    StandsAt piece (cs ++ more) k := by
  obtain ⟨before, after, rfl, hlength⟩ := h
  exact ⟨before, after ++ more, by simp, hlength⟩

/-- Bytes in front move every place behind them. -/
theorem standsAt_append_left (lead : List Char) :
    StandsAt piece (lead ++ cs) (lead.length + k) ↔ StandsAt piece cs k := by
  constructor
  · intro ⟨before, after, hcs, hlength⟩
    have hlead : lead <+: before := by
      apply List.prefix_of_prefix_length_le (List.prefix_append lead cs)
      · rw [hcs, List.append_assoc]
        exact List.prefix_append before _
      · omega
    obtain ⟨rest, rfl⟩ := hlead
    refine ⟨rest, after, ?_, by simpa using hlength⟩
    simpa using hcs
  · intro ⟨before, after, hcs, hlength⟩
    exact ⟨lead ++ before, after, by simp [hcs], by simp [hlength]⟩

/-- One character in front moves a piece by one. -/
theorem standsAt_cons {c : Char} : StandsAt piece (c :: cs) (k + 1) ↔ StandsAt piece cs k := by
  rw [Nat.add_comm]
  exact standsAt_append_left [c]

end

-- ====================================================== the first place

/-- The search ends at the least offset where the piece stands. -/
theorem offsetFrom_cases (piece : List Char) (start : ℕ) (cs : List Char) :
    (∃ k, offsetFrom piece start cs = some (start + k) ∧ IsLeast {k | StandsAt piece cs k} k)
      ∨ (offsetFrom piece start cs = none ∧ ∀ k, ¬StandsAt piece cs k) := by
  induction cs generalizing start with
  | nil =>
    cases piece with
    | nil => exact .inl ⟨0, rfl, standsAt_zero.2 List.nil_prefix, fun j _ => Nat.zero_le j⟩
    | cons b bs =>
      refine .inr ⟨rfl, ?_⟩
      intro k hk
      simpa using hk.add_length_le
  | cons c cs ih =>
    rw [offsetFrom]
    by_cases hpiece : piece.isPrefixOf (c :: cs) = true
    · rw [if_pos hpiece]
      have hzero := standsAt_zero.2 (List.isPrefixOf_iff_prefix.1 hpiece)
      exact .inl ⟨0, rfl, hzero, fun j _ => Nat.zero_le j⟩
    · rw [if_neg hpiece]
      have hzero : ¬StandsAt piece (c :: cs) 0 := fun h =>
        hpiece (List.isPrefixOf_iff_prefix.2 (standsAt_zero.1 h))
      rcases ih (start + 1) with ⟨k, hk, hstands, hleast⟩ | ⟨hnone, hnowhere⟩
      · left
        refine ⟨k + 1, by rw [hk, Nat.add_right_comm, Nat.add_assoc], standsAt_cons.2 hstands, ?_⟩
        intro j hj
        cases j with
        | zero => exact absurd hj hzero
        | succ j => exact Nat.succ_le_succ (hleast (standsAt_cons.1 hj))
      · right
        refine ⟨hnone, ?_⟩
        intro j hj
        cases j with
        | zero => exact hzero hj
        | succ j => exact hnowhere j (standsAt_cons.1 hj)

/-- The search finds the first place, or there is none. -/
theorem offset?_cases (s piece : String) :
    (∃ k, offset? s piece = some k ∧ IsLeast {k | StandsAt piece.toList s.toList k} k)
      ∨ (offset? s piece = none ∧ ∀ k, ¬StandsAt piece.toList s.toList k) := by
  simpa [offset?] using offsetFrom_cases piece.toList 0 s.toList

-- ====================================================== falling apart

/-- How bytes fall apart at a separator: it stands nowhere, or they are cut
where it stands first and the bytes behind it fall apart in their turn. -/
inductive Parted (sep : List Char) : List Char → List String → Prop where
  | whole {cs : List Char} (h : ∀ k, ¬StandsAt sep cs k) : Parted sep cs [String.ofList cs]
  | cut {before after : List Char} {parts : List String}
      (first : IsLeast {k | StandsAt sep (before ++ sep ++ after) k} before.length)
      (rest : Parted sep after parts) :
      Parted sep (before ++ sep ++ after) (String.ofList before :: parts)

/-- The scan parts the bytes since the last cut and those that are still to
come, as long as no separator starts in the former. -/
theorem parted_splitFrom {sep : List Char} (hsep : sep ≠ []) (skip : ℕ) (part cs : List Char)
    (hpart : ∀ k < part.length, ¬StandsAt sep (part.reverse ++ cs.drop skip) k) :
    Parted sep (part.reverse ++ cs.drop skip) (splitFrom sep skip part cs) := by
  have hlength := List.length_pos_iff.2 hsep
  fun_induction splitFrom sep skip part cs with
  | case1 skip part =>
    simp only [List.drop_nil, List.append_nil] at hpart ⊢
    apply Parted.whole
    intro k hk
    have hle := hk.add_length_le
    rw [List.length_reverse] at hle
    exact hpart k (by omega) hk
  | case2 part c cs skip ih => exact ih hpart
  | case3 part c cs hstarts ih =>
    obtain ⟨after, hafter⟩ := List.isPrefixOf_iff_prefix.1 hstarts
    -- the first byte of the separator is read, the others are skipped
    have hskipped : cs.drop (sep.length - 1) = after := by
      have hcons : (c :: cs).drop (sep.length - 1 + 1) = after := by
        rw [Nat.sub_add_cancel hlength, ← hafter, List.drop_left]
      simpa using hcons
    rw [List.drop_zero, ← hafter, ← List.append_assoc] at hpart ⊢
    apply Parted.cut
    · rw [List.length_reverse]
      refine ⟨⟨part.reverse, after, rfl, List.length_reverse⟩, ?_⟩
      intro k hk
      by_contra hlt
      exact hpart k (by omega) hk
    · rw [hskipped] at ih
      exact ih fun k hk => absurd hk (Nat.not_lt_zero k)
  | case4 part c cs hstarts ih =>
    have hsame : (c :: part).reverse ++ cs.drop 0 = part.reverse ++ (c :: cs).drop 0 := by simp
    rw [hsame] at ih
    apply ih
    intro k hk hstands
    by_cases hlt : k < part.length
    · exact hpart k hlt hstands
    · have hk : k = part.reverse.length + 0 := by
        rw [List.length_cons] at hk
        rw [List.length_reverse]
        omega
      rw [hk, standsAt_append_left, standsAt_zero] at hstands
      exact hstarts (List.isPrefixOf_iff_prefix.2 hstands)

theorem parted_split {sep : String} (hsep : sep ≠ "") (s : String) :
    Parted sep.toList s.toList (split s sep) := by
  have hlist : sep.toList ≠ [] := by simpa using hsep
  rw [split, if_neg (by simpa using hsep)]
  simpa using parted_splitFrom hlist 0 [] s.toList (by simp)

namespace Parted

variable {sep cs : List Char} {parts : List String}

theorem ne_nil (h : Parted sep cs parts) : parts ≠ [] := by
  cases h with
  | whole => exact List.cons_ne_nil _ _
  | cut => exact List.cons_ne_nil _ _

/-- Nothing is lost but the separators. -/
theorem join_eq (h : Parted sep cs parts) : join (String.ofList sep) parts = String.ofList cs := by
  induction h with
  | whole => rfl
  | cut first rest ih =>
    rw [join_cons _ rest.ne_nil, ih, String.ofList_append, String.ofList_append]

/-- In a part the separator stands no more: it would be a place before the
one where the part was cut off. -/
theorem not_standsAt (h : Parted sep cs parts) (hsep : sep ≠ []) :
    ∀ part ∈ parts, ∀ k, ¬StandsAt sep part.toList k := by
  have hlength := List.length_pos_iff.2 hsep
  induction h with
  | whole hnowhere => simpa using hnowhere
  | @cut before after parts first rest ih =>
    refine List.forall_mem_cons.2 ⟨?_, ih⟩
    intro k hk
    rw [String.toList_ofList] at hk
    have hle := first.2 ((hk.append sep).append after)
    have hinside := hk.add_length_le
    omega

end Parted

/-- Texts joined by nothing stand one after the other. -/
theorem toList_join_empty (texts : List String) :
    (join "" texts).toList = texts.flatMap String.toList := by
  induction texts with
  | nil => rfl
  | cons text rest ih =>
    cases rest with
    | nil => simp [join]
    | cons next rest =>
      rw [join_cons _ (List.cons_ne_nil next rest), List.flatMap_cons, ← ih]
      simp

/-- The parts, joined by what they were split at, are the text; at the empty
piece they are its letters. -/
theorem join_split (s sep : String) : join sep (split s sep) = s := by
  by_cases hsep : sep = ""
  · rw [hsep, split, if_pos (by simp), ← String.toList_inj, toList_join_empty, List.flatMap_map]
    simpa [letters, Letter.text] using flatMap_lettersFrom 0 s.toList
  · have hjoin := (parted_split hsep s).join_eq
    rwa [String.ofList_toList, String.ofList_toList] at hjoin

-- ====================================================== replacing

/-- The split always has a part. -/
theorem splitFrom_ne_nil (sep : List Char) (skip : ℕ) (part cs : List Char) :
    splitFrom sep skip part cs ≠ [] := by
  fun_induction splitFrom sep skip part cs with
  | case1 => exact List.cons_ne_nil _ _
  | case2 part c cs skip ih => exact ih
  | case3 => exact List.cons_ne_nil _ _
  | case4 part c cs hfound ih => exact ih

/-- The scan that replaces and the scan that splits move together: what the
one has written is what the other has cut off, joined by the new text, and
then the bytes since the last cut. -/
theorem replaceFrom_eq (old : List Char) (new : String) (skip : ℕ) (part before cs : List Char) :
    replaceFrom old new.toList skip (part ++ before) cs
      = before.reverse ++ (join new (splitFrom old skip part cs)).toList := by
  fun_induction splitFrom old skip part cs generalizing before with
  | case1 skip part => simp [replaceFrom, join]
  | case2 part c cs skip ih =>
    rw [replaceFrom]
    exact ih before
  | case3 part c cs hfound ih =>
    rw [replaceFrom, if_pos hfound, join_cons _ (splitFrom_ne_nil old (old.length - 1) [] cs)]
    have hrest := ih (new.toList.reverse ++ (part ++ before))
    simpa using hrest
  | case4 part c cs hfound ih =>
    rw [replaceFrom, if_neg hfound]
    exact ih before

/-- Replacing is splitting and joining. -/
theorem replace_eq_join_split {old : String} (hold : old ≠ "") (s new : String) :
    replace s old new = join new (split s old) := by
  have hempty : ¬old.isEmpty = true := by simpa using hold
  have hscan := replaceFrom_eq old.toList new 0 [] [] s.toList
  rw [replace, split, if_neg hempty, if_neg hempty, ← String.toList_inj]
  simpa using hscan

-- ====================================================== places from the left

/-- The places of a piece that are found one after the other, from an
offset on: each is the first that starts behind the piece found before. -/
inductive FoundFrom (piece cs : List Char) : ℕ → List ℕ → Prop where
  | none {start : ℕ} (h : ∀ k, start ≤ k → ¬StandsAt piece cs k) : FoundFrom piece cs start []
  | next {start k : ℕ} {places : List ℕ}
      (first : IsLeast {k | start ≤ k ∧ StandsAt piece cs k} k)
      (rest : FoundFrom piece cs (k + piece.length) places) :
      FoundFrom piece cs start (k :: places)

/-- The places are determined. -/
theorem FoundFrom.unique {piece cs : List Char} {start : ℕ} {places places' : List ℕ}
    (h : FoundFrom piece cs start places) (h' : FoundFrom piece cs start places') :
    places = places' := by
  induction h generalizing places' with
  | none hnone =>
    cases h' with
    | none => rfl
    | next first => exact absurd first.1.2 (hnone _ first.1.1)
  | next first rest ih =>
    cases h' with
    | none hnone => exact absurd first.1.2 (hnone _ first.1.1)
    | next first' rest' =>
      obtain rfl := first.unique first'
      rw [ih rest']

/-- There is one part more than places, also if the bytes that fall apart
come after others. -/
theorem Parted.found {sep cs : List Char} {parts : List String} (h : Parted sep cs parts)
    (lead : List Char) :
    ∃ places, FoundFrom sep (lead ++ cs) lead.length places
      ∧ parts.length = places.length + 1 := by
  induction h generalizing lead with
  | @whole cs hnowhere =>
    refine ⟨[], .none ?_, rfl⟩
    intro k hle hk
    rw [← Nat.add_sub_cancel' hle, standsAt_append_left] at hk
    exact hnowhere _ hk
  | @cut before after parts first rest ih =>
    obtain ⟨places, hplaces, hcount⟩ := ih (lead ++ before ++ sep)
    refine ⟨(lead.length + before.length) :: places, .next ⟨⟨?_, ?_⟩, ?_⟩ ?_, ?_⟩
    · exact Nat.le_add_right _ _
    · exact (standsAt_append_left lead).2 first.1
    · intro k ⟨hle, hk⟩
      rw [← Nat.add_sub_cancel' hle, standsAt_append_left] at hk
      have := first.2 hk
      omega
    · simpa [Nat.add_assoc] using hplaces
    · simp [hcount]

end LispShell.Text
